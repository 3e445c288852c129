/-
  Texts that do not reach back.

  Whether a stream that goes on ends with a pattern may depend on how it began: the pattern may begin in
  what was there before and end in what came since.  It cannot if no end of what was there before is the
  beginning of the pattern.  Then the pattern is `Apart` from the stream so far, and looking for it can
  begin afresh.

  A pattern without a line feed, or with none but its last byte, is apart from every stream that has come
  to the end of a line; and if it is apart from what was there and from what comes next, it is apart from
  both together.  That is how a stream is gone through piece by piece.
-/
import AtModem.Proofs.Reports

namespace AtModem

/-- No end of `X` begins `p` and leaves something of it to come.  So if a stream that began with `X`
    ever ends with `p`, all of `p` has come since.  This is what makes matching independent of the
    past: where it holds, a wait can be computed from what is still to come. -/
def Apart (p X : Bytes) : Prop := ∀ q rest, p = q ++ rest → rest ≠ [] → q <:+ X → q = []

namespace Apart

variable {p X Y : Bytes}

theorem nil (p : Bytes) : Apart p [] := fun _ _ _ _ h => List.suffix_nil.mp h

/-- If a pattern is apart from what was there, only what has come since decides whether the stream
    ends with it. -/
theorem suffix_append_iff (h : Apart p X) (more : Y ≠ []) : p <:+ X ++ Y ↔ p <:+ Y := by
  constructor
  · intro s
    rcases List.suffix_or_suffix_of_suffix s (List.suffix_append X Y) with k | ⟨q, rfl⟩
    · exact k
    · -- what stands before `Y` in the pattern ends `X`, so there is nothing
      have none : q = [] := h q Y rfl more (List.suffix_append_self_iff.mp s)
      rw [none]
      exact List.suffix_refl _
  · intro s
    exact s.trans (List.suffix_append X Y)

/-- Of two parts that a pattern is apart from, it is apart as a whole.  That is how a stream is gone
    through piece by piece. -/
protected theorem append (h : Apart p X) (k : Apart p Y) : Apart p (X ++ Y) := by
  intro q rest e more s
  rcases List.suffix_or_suffix_of_suffix s (List.suffix_append X Y) with s' | ⟨q', rfl⟩
  · exact k q rest e more s'
  · -- `q` reaches back beyond `Y`: what it has of `X` is nothing either
    rw [List.append_assoc] at e
    have none : q' = [] :=
      h q' (Y ++ rest) e (by simp [more]) (List.suffix_append_self_iff.mp s)
    rw [none, List.nil_append] at e ⊢
    exact k Y rest e more (List.suffix_refl Y)

/-- A byte that a pattern has at its end at most is an end for it: no pattern that is complete only
    there can have begun before and still go on. -/
theorem concat {b : UInt8} (inside : b ∉ p.dropLast) (X : Bytes) : Apart p (X ++ [b]) := by
  intro q rest e more s
  by_contra some
  apply inside
  -- the last byte of `q` is that byte, and `q` is no more than the pattern without its last byte
  obtain ⟨c, hc⟩ : ∃ c, q = c ++ [b] := by
    obtain ⟨t, ht⟩ := s
    rcases List.eq_nil_or_concat q with rfl | ⟨c, a, rfl⟩
    · exact absurd rfl some
    · rw [List.concat_eq_append] at ht ⊢
      rw [← List.append_assoc] at ht
      exact ⟨c, by rw [(List.append_inj' ht rfl).2]⟩
  rw [e, List.dropLast_append_of_ne_nil more, hc]
  simp

end Apart

/-! ## Announcements -/

/-- The texts that announce reports: one for messages, and one for each talker. -/
def announcements : List Bytes := (Mqtt.Message.announcement :: Gnss.talkers).map Utf8.encode

theorem announcement_mem (r : Report) : r.announcement ∈ announcements := by
  cases r with
  | message => exact List.mem_cons_self
  | sentence talker body known line =>
    exact List.mem_map_of_mem (List.mem_cons_of_mem _ known)

/-- No announcement begins inside another one, so behind an announcement the search for the next
    begins afresh. -/
theorem apart_announcement {a b : Bytes} (ha : a ∈ announcements) (hb : b ∈ announcements) :
    Apart a b := by
  have all : ∀ a ∈ announcements, ∀ b ∈ announcements, ∀ q ∈ a.dropLast.inits, q <:+ b → q = [] := by
    decide
  -- what begins `a` and leaves something of it is a beginning of all but its last byte
  intro q rest e more s
  refine all a ha b hb q ?_ s
  rw [List.mem_inits, e, List.dropLast_append_of_ne_nil more]
  exact List.prefix_append _ _

theorem lf_not_mem_announcement {a : Bytes} (h : a ∈ announcements) : Ascii.lf ∉ a := by
  have all : ∀ a ∈ announcements, Ascii.lf ∉ a := by decide
  exact all a h

/-- A report is announced once, at the end of its announcement: nothing before that ends with an
    announcement, and there no other one stands. -/
theorem eq_of_announced {r : Report} {a q : Bytes} (h : a ∈ announcements)
    (before : q <+: r.opening ++ r.announcement) (s : a <:+ q) :
    q = r.opening ++ r.announcement ∧ a = r.announcement := by
  have all : ∀ opening ∈ [crlf, []], ∀ b ∈ announcements, ∀ a ∈ announcements,
      ∀ q ∈ (opening ++ b).inits, a <:+ q → q = opening ++ b ∧ a = b := by
    decide
  refine all r.opening ?_ r.announcement (announcement_mem r) a h q ?_ s
  · cases r <;> simp [Report.opening]
  · rwa [List.mem_inits]

/-- After a report's announcement every pattern is apart from the stream that was so before, unless it
    begins in the announcement. -/
theorem Apart.append_announcement {p X : Bytes} (h : Apart p X) (inLine : Ascii.lf ∉ p.dropLast)
    (r : Report) (k : Apart p r.announcement) : Apart p (X ++ (r.opening ++ r.announcement)) := by
  rw [← List.append_assoc]
  refine Apart.append ?_ k
  cases r with
  | message =>
    have e : X ++ crlf = X ++ [Ascii.cr] ++ [Ascii.lf] := by simp [crlf]
    show Apart p (X ++ crlf)
    rw [e]
    exact concat inLine _
  | sentence =>
    show Apart p (X ++ [])
    rwa [List.append_nil]

end AtModem
