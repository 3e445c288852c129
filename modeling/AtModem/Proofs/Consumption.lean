/-
  What reading takes off a stream, read back from its result.

  Reading takes bytes off the front of what there is to read and puts back no more than the last of them,
  so what is left is always the end of what there was.  When `find` and `parseInt` have yielded
  something, the bytes that were taken can be said: everything to the mark, and a number with what was
  skipped before it.  The number ends where the digits end, unless a byte failed to come in time.

  A wait that finds something has heard bytes of those it has taken, and all that was heard ends with
  the candidate; this needs no more than that the window is the end of it.  What it has taken besides
  are the reports that handlers read.
-/
import AtModem.Proofs.Duration
import AtModem.Proofs.Matching
import AtModem.Proofs.Midway

namespace AtModem

namespace Stream

variable {σ : Type} {s t : Stream σ} {b : UInt8} {d : Nat}

/-! ## One read -/

/-- A read that yields a byte has taken the first of those to be read, whenever it came. -/
theorem took_readBy (h : s.readBy d = (some b, t)) : Took b s t := by
  have read := readBy_arrival d s
  rw [h] at read
  exact read.2

theorem unread_of_readBy_none (h : s.readBy d = (none, t)) : t.unread = s.unread := by
  have read := readBy_arrival d s
  rw [h] at read
  obtain ⟨-, later, -⟩ := read
  rw [later]
  rfl

/-- The byte that was put back is where it was, so that reading and putting back is as if nothing
    had been read. -/
theorem unread_pushBack_of_took (h : Took b s t) : (t.pushBack b).unread = s.unread := by
  rw [unread_pushBack h.lookahead, h.unread]

/-- What is left is the end of what there was.  No reader can do anything else: it takes bytes off
    the front, and puts back no more than the last of them. -/
theorem keptByReading_unread : KeptByReading fun s t : Stream σ => t.unread <:+ s.unread where
  refl _ := List.suffix_rfl
  trans _ _ _ h k := k.trans h
  idle _ := List.suffix_rfl
  look s := by
    -- delivery moves what is due from the schedule to the queue, in order
    have same := s.link.scheduled.due_append_bytes_after s.link.now
    have delivered : Stream.unread { s with link := s.link.deliver } = s.unread := by
      simp only [unread, Link.deliver_eq, List.append_assoc, same]
    rw [delivered]
  take h := by
    rw [(took_tryRead h).unread]
    exact List.suffix_cons _ _
  putBack h := by
    rw [unread_pushBack_of_took (took_tryRead h)]

/-! ## To a mark -/

/-- A search that has succeeded has gone by bytes that are not the mark, and by the mark.  Nothing
    is said of time here, so it holds on every stream. -/
theorem find_eq_ok {target : UInt8} (h : find target s = .ok () t) :
    ∃ skipped, target ∉ skipped ∧ s.unread = skipped ++ target :: t.unread := by
  unfold find at h
  generalize hn : (fun (_ : Unit) (b : UInt8) => if b = target then Scan.stop () else .more ()) = next
    at h
  generalize () = u at h
  fun_induction scan byteDeadline next u s with
  -- no byte came, so the search failed
  | case1 u s t' r => cases h
  | case2 u s b t' r v stop =>
    subst hn
    dsimp only at stop
    split at stop
    -- the byte is the one that is looked for, and nothing was skipped
    · rename_i found
      cases h
      refine ⟨[], List.not_mem_nil, ?_⟩
      rw [(took_readBy r).unread, found]
      rfl
    · cases stop
  | case3 u s b t' r v more ih =>
    -- the byte is another one; it goes in front of what is skipped behind it
    obtain ⟨skipped, other, rest⟩ := ih h
    subst hn
    dsimp only at more
    split at more
    · cases more
    · rename_i ne
      refine ⟨b :: skipped, by simpa [other] using Ne.symm ne, ?_⟩
      rw [(took_readBy r).unread, rest]
      rfl

/-! ## A number -/

/-- Nothing more of a number is to come, or it was too late: the next byte is no digit, or the time
    for it had passed. -/
def EndsNumber (s t : Stream σ) : Prop :=
  (∀ b ∈ t.unread.head?, Decimal.isDigit b = false) ∨ s.now + s.byteTimeout ≤ t.now

/-- That time has passed by a later stream holds for an earlier beginning as well. -/
theorem EndsNumber.of_onward {u : Stream σ} (o : Onward s t) (h : EndsNumber t u) : EndsNumber s u := by
  unfold EndsNumber at h ⊢
  rw [o.byteTimeout] at h
  exact h.imp id fun late => Nat.le_trans (Nat.add_le_add_right o.now_le _) late

theorem takeDigit_eq_more {v w : Nat} (h : takeDigit v b = .more w) :
    Decimal.isDigit b = true ∧ w = v * 10 + Decimal.digit b := by
  simp only [takeDigit] at h
  split at h
  · rename_i digit
    split at h
    · cases h
      exact ⟨digit, rfl⟩
    · cases h
  · cases h

/-- The fold hands back the byte at which it stopped, with the number so far. -/
theorem takeDigit_eq_stop {v w : Nat} {c : UInt8} (h : takeDigit v b = .stop (some (w, c))) :
    Decimal.isDigit b = false ∧ w = v ∧ c = b := by
  simp only [takeDigit] at h
  split at h
  · split at h <;> cases h
  · rename_i other
    cases h
    exact ⟨by simpa using other, rfl, rfl⟩

/-- It stops without one only at a digit with which the number outgrows 64 bits. -/
theorem takeDigit_eq_overflow {v : Nat} (h : takeDigit v b = .stop none) :
    Decimal.isDigit b = true ∧ Decimal.maxInt < v * 10 + Decimal.digit b := by
  simp only [takeDigit] at h
  split at h
  · rename_i digit
    split at h
    · cases h
    · rename_i great
      exact ⟨digit, Nat.lt_of_not_le great⟩
  · cases h

/-- Digits that were read are the first bytes there were to read, and their value is the number.
    Where they end is known only as far as `EndsNumber` says: a byte that is late ends a number,
    too. -/
theorem parseDigits_eq_ok {v w : Nat} (h : parseDigits v s = .ok w t) :
    ∃ digits, (∀ b ∈ digits, Decimal.isDigit b = true) ∧ w = Decimal.extend v digits ∧
      s.unread = digits ++ t.unread ∧ EndsNumber s t := by
  unfold parseDigits at h
  generalize hn : takeDigit = next at h
  fun_induction scan byteDeadline next v s with
  | case1 v s t' r =>
    -- no byte came, and that is what ends the number
    cases h
    refine ⟨[], by simp, rfl, (unread_of_readBy_none r).symm, .inr ?_⟩
    have spec := (readBy_spec (s.byteDeadline) s).2
    rw [r] at spec
    exact spec.2
  | case2 v s b t' r result stop =>
    subst hn
    -- a byte that is no digit ends the number and is put back; digits that say too much are an
    -- error
    cases result with
    | none => cases h
    | some handed =>
      obtain ⟨other, rfl, rfl⟩ := takeDigit_eq_stop stop
      cases h
      have took := took_readBy r
      refine ⟨[], by simp, rfl, (unread_pushBack_of_took took).symm, .inl ?_⟩
      rw [unread_pushBack_of_took took, took.unread]
      simpa using other
  | case3 v s b t' r v' more ih =>
    -- the byte is a digit, and it goes in front of those behind it
    obtain ⟨digits, all, value, rest, ends⟩ := ih h
    subst hn
    obtain ⟨digit, rfl⟩ := takeDigit_eq_more more
    have onward := keptByReading_onward.readBy s.byteDeadline s
    rw [r] at onward
    refine ⟨b :: digits, by simpa [digit] using all, value, ?_, ends.of_onward onward⟩
    rw [(took_readBy r).unread, rest]
    rfl

/-- What comes before the first digit has none in it; the minus sign is the last of it, if any is.
    By induction along the recursion of the search, one case for each way it goes on. -/
theorem parseSign_eq_ok {minus : Bool} {v : Nat} (h : parseSign s = .ok (minus, v) t) :
    ∃ skipped digit, (∀ b ∈ skipped, Decimal.isDigit b = false) ∧ Decimal.isDigit digit = true ∧
      v = Decimal.digit digit ∧ (minus = true ↔ skipped.getLast? = some Ascii.minus) ∧
      s.unread = skipped ++ digit :: t.unread := by
  have minusNoDigit : Decimal.isDigit Ascii.minus = false := by decide
  fun_induction parseSign s with
  | case1 s t' r => cases h
  | case2 s b t' r digit =>
    cases h
    exact ⟨[], b, by simp, digit, rfl, by simp, (took_readBy r).unread⟩
  | case3 s t' u e r other => cases h
  | case4 s t' c u e digit r other =>
    cases h
    refine ⟨[Ascii.minus], c, by simpa using minusNoDigit, digit, rfl, by simp, ?_⟩
    rw [(took_readBy r).unread, (took_readBy e).unread]
    rfl
  | case5 s t' c u e other r other' ih =>
    obtain ⟨skipped, digit, none, isDigit, value, sign, rest⟩ := ih h
    have back := unread_pushBack_of_took (took_readBy e)
    -- the byte behind the minus sign is skipped as well, so the sign was not the last
    have more : skipped ≠ [] := by
      rintro rfl
      rw [back, (took_readBy e).unread] at rest
      obtain ⟨rfl, -⟩ := List.cons.inj rest
      exact other isDigit
    refine ⟨Ascii.minus :: skipped, digit, ?_, isDigit, value, ?_, ?_⟩
    · simpa [minusNoDigit] using none
    · rw [sign, List.getLast?_cons_of_ne_nil more]
    · rw [(took_readBy r).unread, ← back, rest]
      rfl
  | case6 s b t' r other noMinus ih =>
    obtain ⟨skipped, digit, none, isDigit, value, sign, rest⟩ := ih h
    refine ⟨b :: skipped, digit, by simpa [other] using none, isDigit, value, ?_, ?_⟩
    · cases skipped with
      | nil => simpa [noMinus] using sign
      | cons c skipped => simpa using sign
    · rw [(took_readBy r).unread, rest]
      rfl

/-- How an integer was picked out of the bytes that were taken for it: what was skipped has no digit
    in it, and its last byte decides the sign. -/
structure Numeral (n : Int) (skipped digits : Bytes) : Prop where
  unsigned : ∀ b ∈ skipped, Decimal.isDigit b = false
  nonempty : digits ≠ []
  decimal : ∀ b ∈ digits, Decimal.isDigit b = true
  /-- The minus sign stands right before the digits. -/
  value : n = if skipped.getLast? = some Ascii.minus then -(Decimal.value digits : Int)
    else Decimal.value digits

/-- A number that was read can be found in the bytes that were taken, and it was not cut short
    unless a byte was late.  It goes from the result to the bytes, where the lemmas on reading go
    from the bytes to the result. -/
theorem parseInt_eq_ok {n : Int} (h : parseInt s = .ok n t) :
    ∃ skipped digits, Numeral n skipped digits ∧ s.unread = skipped ++ digits ++ t.unread ∧
      EndsNumber s t := by
  obtain ⟨⟨minus, v⟩, u, first, h⟩ := bind_eq_ok h
  obtain ⟨w, u', rest, h⟩ := bind_eq_ok h
  cases h
  obtain ⟨skipped, digit, none, isDigit, value, sign, before⟩ := parseSign_eq_ok first
  obtain ⟨digits, all, extended, behind, ends⟩ := parseDigits_eq_ok rest
  have onward := keptByReading_onward.parseSign s
  rw [first] at onward
  refine ⟨skipped, digit :: digits, ⟨none, by simp, by simpa [isDigit] using all, ?_⟩, ?_,
    ends.of_onward onward⟩
  · rw [extended, value, Decimal.extend_digit]
    simp only [sign]
  · rw [before, behind]
    simp

theorem parseLen_eq_ok {n : Nat} (h : parseLen s = .ok n t) : parseInt s = .ok (n : Int) t := by
  obtain ⟨m, u, number, positive⟩ := bind_eq_ok h
  split at positive
  · cases positive
  · rename_i some
    cases positive
    rw [number, Int.toNat_of_nonneg (Int.not_lt.mp some)]

end Stream

/-! ## A wait -/

namespace Engine

variable {σ : Type} {e f : Engine σ}

/-- A handler does not hear what it reads: it is not in the window, nor is it recorded there. -/
@[simp] theorem heard_notify (e : Engine σ) (h : Handler) : (e.notify h).heard = e.heard := by
  unfold notify
  split
  · split <;> rfl
  · rfl

/-- A handler only takes bytes off the front, whether it succeeds or fails. -/
theorem unread_notify (e : Engine σ) (h : Handler) :
    (e.notify h).stream.unread <:+ e.stream.unread := by
  unfold notify
  split
  · have left := Stream.keptByReading_unread.process h e.stream
    split
    · rename_i r
      rw [r] at left
      exact left
    · rename_i r
      rw [r] at left
      exact left
  · exact List.suffix_rfl

/-- Handlers hear nothing, leave the window alone and only take bytes; by induction on how many
    there are. -/
theorem foldl_notify_takes (hs : List Handler) (e : Engine σ) :
    (hs.foldl notify e).heard = e.heard ∧ (hs.foldl notify e).window = e.window ∧
      (hs.foldl notify e).stream.unread <:+ e.stream.unread := by
  induction hs generalizing e with
  | nil => exact ⟨rfl, rfl, List.suffix_rfl⟩
  | cons h hs ih =>
    obtain ⟨heard, window, left⟩ := ih (e.notify h)
    rw [heard_notify] at heard
    rw [window_notify] at window
    exact ⟨heard, window, left.trans (unread_notify e h)⟩

/-- Between `e` and `f` bytes were taken, and some of them were heard.  Those that were not heard
    are the reports.  A handler takes the rest of its report without anybody hearing it, so what was
    heard is no more than a part of what was taken. -/
def Listened (e f : Engine σ) : Prop :=
  ∃ taken new, e.stream.unread = taken ++ f.stream.unread ∧ f.heard.value = e.heard.value ++ new ∧
    new.Sublist taken ∧ new ≠ []

/-- One turn of a wait hears the byte that it reads, and the handlers take what they take.  What the
    handlers take is between the byte and what comes next, and is not heard. -/
theorem accept_listened {b : UInt8} {t : Stream σ} {d : Nat} (w : e.window.EndOf e.heard.value)
    (r : e.stream.readBy d = (some b, t)) :
    let next := { e with stream := t }.accept b
    Listened e next ∧ next.window.EndOf next.heard.value := by
  intro next
  obtain ⟨heard, window, reported, rest⟩ := foldl_notify_takes e.registry.handlers
    ({ e with stream := t }.hear b)
  have said : next.heard.value = e.heard.value ++ [b] := by
    show (Engine.heard (List.foldl _ _ _)).value = _
    rw [heard]
    exact heard_hear { e with stream := t } b
  refine ⟨⟨b :: reported, [b], ?_, said, by simp, by simp⟩, ?_⟩
  · rw [(Stream.took_readBy r).unread]
    exact congrArg (b :: ·) rest.symm
  · rw [said]
    show (Engine.window (List.foldl _ _ _)).EndOf _
    rw [window]
    exact w.push b

/-- A wait that finds a candidate ends where all that was heard ends with it.  The window has only
    the end of that, but the candidate is in it, so it is an end of the whole. -/
theorem waitUntil_listened {deadline : Nat} {cs : List (Bytes × MatchOutcome)} {o : MatchOutcome}
    (w : e.window.EndOf e.heard.value) (h : e.waitUntil deadline cs = (o, f)) (found : o ≠ .timedOut) :
    Listened e f ∧ ∃ c ∈ cs, c.2 = o ∧ c.1 <:+ f.heard.value := by
  fun_induction waitUntil deadline cs e with
  | case1 e t r =>
    -- no byte came, and a timeout is excluded
    cases h
    exact absurd rfl found
  | case2 e b t r next o' ho =>
    -- the byte completes a candidate
    obtain ⟨rfl, rfl⟩ := Prod.mk.inj h
    obtain ⟨listened, window⟩ := accept_listened w r
    rw [classify, Option.map_eq_some_iff] at ho
    obtain ⟨c, first, rfl⟩ := ho
    have ends := List.find?_some first
    exact ⟨listened, c, List.mem_of_find?_eq_some first, rfl, ((window.endsWith_iff c.1).mp ends).2.2⟩
  | case3 e b t r next ho ih =>
    -- the byte completes none; what was heard before and after it is heard one behind the other
    obtain ⟨⟨taken, new, left, said, sub, some⟩, window⟩ := accept_listened w r
    obtain ⟨⟨taken', new', left', said', sub', -⟩, candidate⟩ := ih window h
    refine ⟨⟨taken ++ taken', new ++ new', ?_, ?_, sub.append sub', by simp [some]⟩, candidate⟩
    · rw [left, left', List.append_assoc]
    · rw [said', said, List.append_assoc]

end Engine
end AtModem
