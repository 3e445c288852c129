/-
  A search for a pattern stops where the pattern first ends.

  A fold over bytes with one deadline for all of them sees what arrives by its last poll, however late and
  with whatever pauses, and nothing that comes after it (`scan_until`).  So what a search does is decided
  by these bytes alone: it is a fold over a list (`consume`).

  The window of a search is as long as the pattern and empty at first.  It is therefore the end of what the
  search has seen, and nothing that was read before plays a part.  After each byte the window ends with
  the pattern just if what was seen does, also where the pattern overlaps itself; so the first place where
  the pattern ends is not missed (`consume_searchByte`), and where it is nowhere all is read in vain
  (`consume_searchByte_eq_none`).
-/
import AtModem.Proofs.Buffered
import AtModem.Proofs.Consumption

namespace AtModem

namespace Stream

variable {σ α β : Type}

/-! ## Folds with one deadline -/

/-- What a fold with one deadline does with the bytes that arrive by its last poll: it stops at one
    of them and leaves those behind it, or it takes them all.  What arrives later plays no role, and
    neither does the way in which the bytes are spread over time. -/
inductive Until (next : α → UInt8 → Scan α β) (a : α) (heard : Bytes) (s : Stream σ) :
    Scan α β × Stream σ → Prop
  | stopped {r : β} (taken rest : Bytes) {t : Stream σ} : consume next a heard = some (r, rest) →
      heard = taken ++ rest → s.unread = taken ++ t.unread → Until next a heard s (.stop r, t)
  | inVain {a' : α} {t : Stream σ} : consume next a heard = none → s.unread = heard ++ t.unread →
      Until next a heard s (.more a', t)

/-- A fold with one deadline for all its bytes sees those that arrive by its last poll, and what it
    does is decided by them; by induction on these. -/
theorem scan_until (deadline : Nat) (next : α → UInt8 → Scan α β) (a : α) (s : Stream σ) :
    Until next a (s.arrivedBy (s.lastPoll deadline)) s (s.scan (fun _ => deadline) next a) := by
  generalize hd : (fun _ : Stream σ => deadline) = d
  fun_induction scan d next a s with
  -- no byte comes any more
  | case1 a s t r =>
    subst hd
    have read := readBy_arrival deadline s
    rw [r] at read
    obtain ⟨-, later, nothing⟩ := read
    rw [nothing]
    exact .inVain rfl (unread_of_readBy_none r).symm
  -- the byte is the one at which the fold stops
  | case2 a s b t r o stop =>
    subst hd
    have read := readBy_arrival deadline s
    rw [r] at read
    obtain ⟨poll, took⟩ := read
    have last : consume next a (b :: t.arrivedBy (s.lastPoll deadline)) =
        some (o, t.arrivedBy (s.lastPoll deadline)) := by rw [consume, stop]
    rw [took.arrivedBy _ (poll ▸ t.now_le_lastPoll deadline)]
    exact .stopped [b] _ last rfl took.unread
  -- the fold goes on behind the byte
  | case3 a s b t r a' more ih =>
    subst hd
    have read := readBy_arrival deadline s
    rw [r] at read
    obtain ⟨poll, took⟩ := read
    rw [poll] at ih
    rw [took.arrivedBy _ (poll ▸ t.now_le_lastPoll deadline)]
    have onward : consume next a (b :: t.arrivedBy (s.lastPoll deadline)) =
        consume next a' (t.arrivedBy (s.lastPoll deadline)) := by rw [consume, more]
    generalize t.scan _ next a' = result at ih ⊢
    rcases ih with ⟨taken, rest, stop, split, unread⟩ | ⟨none, unread⟩
    · refine .stopped (b :: taken) rest (onward.trans stop) (congrArg (b :: ·) split) ?_
      rw [took.unread, unread]
      rfl
    · refine .inVain (onward.trans none) ?_
      rw [took.unread, unread]
      rfl

/-! ## The first place where a pattern ends -/

/-- The pattern ends here and nowhere before.  There is at most one such text among the fronts of
    given bytes, so it says where a search stops. -/
def FirstEnd (p text : Bytes) : Prop := p <:+ text ∧ ∀ q, q <+: text → p <:+ q → q = text

theorem FirstEnd.unique {p front front' text : Bytes} (h : FirstEnd p front) (h' : FirstEnd p front')
    (within : front <+: text) (within' : front' <+: text) : front = front' := by
  rcases Nat.le_total front.length front'.length with shorter | longer
  · exact h'.2 front (List.prefix_of_prefix_length_le within within' shorter) h.1
  · exact (h.2 front' (List.prefix_of_prefix_length_le within' within longer) h'.1).symm

/-- Where a pattern occurs, there is a first place where it ends.  By induction on the text from its
    end: where the pattern occurs before the last byte, it ends there first. -/
theorem exists_firstEnd {p text : Bytes} (occurs : p <:+: text) :
    ∃ front back, text = front ++ back ∧ FirstEnd p front := by
  induction text using List.reverseRecOn with
  | nil =>
    have empty : p = [] := List.infix_nil.mp occurs
    refine ⟨[], [], rfl, ?_, ?_⟩
    · rw [empty]
    · intro q hq _
      exact List.prefix_nil.mp hq
  | append_singleton text b ih =>
    by_cases before : p <:+: text
    · obtain ⟨front, back, rfl, first⟩ := ih before
      exact ⟨front, back ++ [b], List.append_assoc .., first⟩
    · -- the last byte completes it, since it is in no shorter part
      have whole : ∀ q, q <+: text ++ [b] → p <:+ q → q = text ++ [b] := by
        intro q hq ends
        rcases List.prefix_concat_iff.mp hq with same | shorter
        · exact same
        · exact absurd (ends.isInfix.trans shorter.isInfix) before
      obtain ⟨q, ends, hq⟩ := List.infix_iff_suffix_prefix.mp occurs
      exact ⟨text ++ [b], [], (List.append_nil _).symm, whole q hq ends ▸ ends, whole⟩

/-- A search that nowhere sees the pattern goes through all bytes.  With the lemma before it says
    what a search does with any bytes. -/
theorem consume_searchByte_eq_none {p seen text : Bytes} {w : Window} (h : w.EndOf seen)
    (nowhere : ∀ q, q <+: text → q ≠ [] → ¬p <:+ seen ++ q) : consume (searchByte p) w text = none := by
  induction text generalizing w seen with
  | nil => rfl
  | cons b text ih =>
    have missed : ¬(w.push b).endsWith p = true := by
      intro found
      have ends := (((h.push b).endsWith_iff p).mp found).2.2
      exact nowhere [b] (by simp) (by simp) ends
    rw [consume, searchByte, if_neg missed]
    apply ih (h.push b)
    intro q hq _ ends
    rw [List.append_assoc] at ends
    exact nowhere (b :: q) (List.cons_prefix_cons.mpr ⟨rfl, hq⟩) (List.cons_ne_nil b q) ends

theorem consume_search {p : Bytes} (some : p ≠ []) (text : Bytes) :
    (¬p <:+: text ∧ consume (searchByte p) (.ofCapacity p.length) text = none) ∨
      ∃ front back, text = front ++ back ∧ FirstEnd p front ∧
        consume (searchByte p) (.ofCapacity p.length) text = Option.some ((), back) := by
  have fresh := Window.endOf_ofCapacity p.length
  by_cases occurs : p <:+: text
  · right
    obtain ⟨front, back, rfl, ends, first⟩ := exists_firstEnd occurs
    have more : front ≠ [] := by
      rintro rfl
      exact some (List.suffix_nil.mp ends)
    refine ⟨front, back, rfl, ⟨ends, first⟩, ?_⟩
    exact consume_searchByte fresh (Nat.le_max_left _ _) some more ends (fun q hq _ => first q hq) back
  · left
    refine ⟨occurs, consume_searchByte_eq_none fresh ?_⟩
    intro q hq _ ends
    exact occurs (List.infix_iff_suffix_prefix.mpr ⟨q, ends, hq⟩)

/-- A search that ends well has taken all up to the first place where the pattern ends; one that fails has
    taken all that has arrived by its last poll, and the pattern is not in it. -/
theorem waitFor_cases {p : Bytes} (some : p ≠ []) (timeout : Nat) (s : Stream σ) :
    let heard := s.arrivedBy (s.lastPoll (s.now + timeout))
    (∃ front back t, heard = front ++ back ∧ FirstEnd p front ∧ waitFor p timeout s = .ok () t ∧
      s.unread = front ++ t.unread) ∨
    (¬p <:+: heard ∧ ∃ t, waitFor p timeout s = .error .timedOut t ∧ s.unread = heard ++ t.unread) := by
  intro heard
  have fold := scan_until (s.now + timeout) (searchByte p) (.ofCapacity p.length) s
  unfold waitFor
  dsimp only
  generalize s.scan _ (searchByte p) _ = result at fold ⊢
  -- both the fold and the stream are split at the same place, by whether the pattern occurs
  rcases consume_search some heard with ⟨absent, none⟩ | ⟨front, back, split, first, found⟩
  · right
    rcases fold with ⟨taken, rest, stop, -, -⟩ | ⟨-, unread⟩
    · rw [none] at stop
      cases stop
    · exact ⟨absent, _, rfl, unread⟩
  · left
    rcases fold with ⟨taken, rest, stop, split', unread⟩ | ⟨none, -⟩
    · rw [found] at stop
      cases stop
      obtain rfl : front = taken := List.append_cancel_right (split.symm.trans split')
      exact ⟨front, back, _, split, first, rfl, unread⟩
    · rw [found] at none
      cases none

/-- A search that succeeded has taken what was there up to the first end of its pattern. -/
theorem waitFor_eq_ok {p : Bytes} {timeout : Nat} {s t : Stream σ} (some : p ≠ [])
    (h : waitFor p timeout s = .ok () t) : ∃ front, s.unread = front ++ t.unread ∧ FirstEnd p front := by
  rcases waitFor_cases some timeout s with ⟨front, _, u, -, first, found, unread⟩ | ⟨-, u, failed, -⟩
  · obtain ⟨-, rfl⟩ := EStateM.Result.ok.inj (h.symm.trans found)
    exact ⟨front, unread, first⟩
  · cases h.symm.trans failed

end Stream

namespace Engine

variable {σ : Type}

/-- A search succeeds just if the pattern occurs in what arrives by its last poll, whatever the window of
    the engine holds, and takes all up to the first place where the pattern ends and nothing behind it.
    Otherwise it takes all of that and times out.  Of the engine only the stream changes.  Where all there
    is to read is there already, it is that in which the search looks. -/
theorem waitFor_finds_first {p : Bytes} (some : p ≠ []) (timeout : Nat) (e : Engine σ) :
    let heard := e.stream.arrivedBy (e.stream.lastPoll (e.now + timeout))
    (p <:+: heard → ∃ front back t, heard = front ++ back ∧ Stream.FirstEnd p front ∧
      onStream (Stream.waitFor p timeout) e = .ok () { e with stream := t } ∧
      e.stream.unread = front ++ t.unread) ∧
    (¬p <:+: heard → ∃ t,
      onStream (Stream.waitFor p timeout) e = .error .timedOut { e with stream := t } ∧
      e.stream.unread = heard ++ t.unread) ∧
    ((∀ a ∈ e.stream.link.scheduled.arrivals, a.time ≤ e.now) → heard = e.stream.unread) := by
  intro heard
  have all : (∀ a ∈ e.stream.link.scheduled.arrivals, a.time ≤ e.now) → heard = e.stream.unread := by
    intro arrived
    apply Stream.arrivedBy_of_arrived
    intro a ha
    exact Nat.le_trans (arrived a ha) (Stream.now_le_lastPoll _ e.stream)
  rcases Stream.waitFor_cases some timeout e.stream with ⟨front, back, t, split, first, found, unread⟩ |
    ⟨absent, t, failed, unread⟩
  · have occurs : p <:+: heard := by
      rw [List.infix_iff_suffix_prefix]
      exact ⟨front, first.1, back, split.symm⟩
    refine ⟨fun _ => ⟨front, back, t, split, first, ?_, unread⟩, fun absent => absurd occurs absent, all⟩
    rw [onStream, found]
  · refine ⟨fun occurs => absurd occurs absent, fun _ => ⟨t, ?_, unread⟩, all⟩
    rw [onStream, failed]

/-- The window ends with most of the pattern and the next byte is the one that is missing; it counts for
    nothing.  Then the pattern comes with a false start inside itself, and its last byte at the last moment. -/
theorem waitFor_finds_first_restarted :
    let p := Utf8.encode "abac"
    let late := Schedule.spaced 40 0 (Utf8.encode "bacab")
    let link : Link Unit :=
      { Link.ofDevice () with
        queued := Utf8.encode "aba", scheduled := ⟨late, Schedule.spaced_ordered 40 0 _⟩ }
    let e := ofLink .standard link
    let e := { e with
      stream := { e.stream with lookahead := some 0x63 }
      window := e.window.pushAll (Utf8.encode "aba") }
    p ≠ [] ∧ p <:+: e.stream.arrivedBy (e.stream.lastPoll (e.now + 80)) ∧
      (e.window.push 0x63).endsWith p = true ∧
      ∃ t, onStream (Stream.waitFor p 80) e = .ok () { e with stream := t } ∧
        t.unread = Utf8.encode "ab" := by
  intro p late link e₀ e
  have some : p ≠ [] := by decide
  have heard : e.stream.arrivedBy (e.stream.lastPoll (e.now + 80)) = Utf8.encode "cababac" := by decide
  have occurs : p <:+: Utf8.encode "cababac" := by decide
  -- no shorter beginning ends with the pattern, though one nearly does
  have last : Stream.FirstEnd p (Utf8.encode "cababac") := by
    refine ⟨by decide, fun q hq => ?_⟩
    rw [← List.mem_inits] at hq
    revert q
    decide
  obtain ⟨found, -, -⟩ := waitFor_finds_first some 80 e
  rw [heard] at found
  obtain ⟨front, back, t, split, first, ok, unread⟩ := found occurs
  obtain rfl : front = Utf8.encode "cababac" :=
    first.unique last (split ▸ List.prefix_append front back) List.prefix_rfl
  have rest : Utf8.encode "cababac" ++ Utf8.encode "ab" = e.stream.unread := by decide
  refine ⟨some, heard ▸ occurs, by decide, t, ok, ?_⟩
  exact (List.append_cancel_left (rest.trans unread)).symm

end Engine
end AtModem
