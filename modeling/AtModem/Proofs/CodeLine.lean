/-
  Which result lines can be read.

  Behind the tag of a result line stand an index, a comma and a code, and then the line ends.  Reading it
  gives every byte the byte timeout, so a line can be read just where its bytes come one within the byte
  timeout of another (`HasCode`); the one place where no byte need come in time is behind the last digit,
  since a number may end in silence.  Digits that outgrow 64 bits end the reading where they do
  (`HasGreatCode`).  Nothing else can be wrong with a line but that some byte of it did not come
  (`indexedCode_eq_error`).

  On the way a byte is put back now and then, behind a minus sign and behind the number.  A byte that was
  put back is there at once when it is read again, and the stream is then what it was, but for what has
  been written down of its course; so the proof goes through streams that are equal up to that (`Alias`).
-/
import AtModem.Proofs.Truncation

namespace AtModem

namespace Stream

variable {σ : Type} {s s' t t' u v : Stream σ} {b c : UInt8} {bs xs ys : Bytes} {d : Nat}

/-! ## Streams that go on alike -/

/-- The two differ in nothing but what has been written down of their course, which no reader looks
    at.  A number ends in a byte that is put back and read again, which leaves another ledger behind
    it; up to that the two readings of a line are one. -/
def Alias (s t : Stream σ) : Prop := t = { s with ledger := t.ledger }

namespace Alias

protected theorem refl (s : Stream σ) : Alias s s := rfl

protected theorem trans (h : Alias s t) (k : Alias t u) : Alias s u := by
  unfold Alias at h k ⊢
  rw [k, h]

protected theorem symm (h : Alias s t) : Alias t s := by
  unfold Alias at h ⊢
  rw [h]

/-- The measures are not what they differ in, so both give their next byte the same time. -/
theorem byteDeadline (h : Alias s t) : t.byteDeadline = s.byteDeadline := by
  rw [h]
  rfl

/-- Of both the same byte is taken, or of both none, and they still differ in nothing that
    matters. -/
theorem tryRead (h : Alias s s') :
    s.tryRead = none ∧ s'.tryRead = none ∨
      ∃ b t t', s.tryRead = some (b, t) ∧ s'.tryRead = some (b, t') ∧ Alias t t' := by
  rw [h]
  unfold Stream.tryRead
  cases s.lookahead with
  | some b => exact .inr ⟨b, _, _, rfl, rfl, rfl⟩
  | none =>
    cases s.link.read? with
    | none => exact .inl ⟨rfl, rfl⟩
    | some p => exact .inr ⟨p.1, _, _, rfl, rfl, rfl⟩

/-- So with a read, by induction on its polls: both find a byte at the same one, or both give up at
    the last. -/
theorem readBy (h : Alias s s') (d : Nat) :
    (s'.readBy d).1 = (s.readBy d).1 ∧ Alias (s.readBy d).2 (s'.readBy d).2 := by
  fun_induction Stream.readBy d s generalizing s' with
  | case1 s b t found =>
    -- there is a byte on the one side, so there is the same on the other
    rcases h.tryRead with ⟨none, -⟩ | ⟨b', t₁, t', found', same, k⟩
    · cases none.symm.trans found
    · cases found'.symm.trans found
      rw [Stream.readBy, same]
      exact ⟨rfl, k⟩
  | case2 s nothing late =>
    -- the deadline has come on both
    rcases h.tryRead with ⟨-, none⟩ | ⟨b', t, t', found, -, -⟩
    · have late' : d ≤ s'.now := by rwa [h]
      rw [Stream.readBy, none]
      show Prod.fst (if d ≤ s'.now then _ else _) = _ ∧ Alias s (Prod.snd (if d ≤ s'.now then _ else _))
      rw [if_pos late']
      exact ⟨rfl, h⟩
    · cases found.symm.trans nothing
  | case3 s nothing early ih =>
    -- on both it has not, and the clock goes on by the same step
    rcases h.tryRead with ⟨-, none⟩ | ⟨b', t, t', found, -, -⟩
    · have early' : ¬d ≤ s'.now := by rwa [h]
      have idle : Alias s.idle s'.idle := by
        unfold Alias at h ⊢
        rw [h]
        rfl
      rw [Stream.readBy, none]
      show Prod.fst (if d ≤ s'.now then _ else _) = _ ∧ Alias _ (Prod.snd (if d ≤ s'.now then _ else _))
      rw [if_neg early']
      exact ih idle
    · cases found.symm.trans nothing

theorem readBy_eq {o : Option UInt8} (h : Alias s s') (r : s.readBy d = (o, t)) :
    ∃ t', s'.readBy d = (o, t') ∧ Alias t t' := by
  obtain ⟨same, k⟩ := h.readBy d
  rw [r] at same k
  exact ⟨(s'.readBy d).2, Prod.ext same rfl, k⟩

/-- What comes of the one in time comes of the other in time. -/
theorem yields (h : Alias s s') (y : Yields s bs t) : ∃ t', Yields s' bs t' ∧ Alias t t' := by
  induction y generalizing s' with
  | nil s => exact ⟨s', .nil s', h⟩
  | cons r _ ih =>
    obtain ⟨u, r', k⟩ := h.readBy_eq r
    rw [← h.byteDeadline] at r'
    obtain ⟨t', y', m⟩ := ih k
    exact ⟨t', .cons r' y', m⟩

end Alias

/-- A byte that was put back is there at once when it is read again, by whatever deadline, and then
    the stream goes on as if that had never been. -/
theorem readBy_pushBack (r : s.readBy d = (some b, t)) (d' : Nat) :
    ∃ t', (t.pushBack b).readBy d' = (some b, t') ∧ Alias t t' := by
  have found : (t.pushBack b).tryRead =
      some (b, { t.pushBack b with
        lookahead := none, ledger := (t.pushBack b).ledger.update (.reread b) }) := rfl
  refine ⟨_, by rw [readBy, found], ?_⟩
  have nothing : t.lookahead = none := (took_readBy r).lookahead
  unfold Alias pushBack
  rw [nothing]

/-- The next byte that has the byte timeout to come is the same for both, and so is all that follows
    it.  No reader of a line looks at a stream in any other way, so it goes on alike on both. -/
def SameNext (s s' : Stream σ) : Prop :=
  ∃ o t t', s.readBy s.byteDeadline = (o, t) ∧ s'.readBy s'.byteDeadline = (o, t') ∧ Alias t t'

/-- Streams that go on alike have the same next byte. -/
theorem Alias.sameNext (h : Alias s s') : SameNext s s' := by
  rcases r : s.readBy s.byteDeadline with ⟨o, t⟩
  obtain ⟨t', r', k⟩ := h.readBy_eq r
  rw [← h.byteDeadline] at r'
  exact ⟨o, t, t', r, r', k⟩

/-- A stream and what it is with its first byte read and put back: the byte comes of either, and
    behind it they go on alike. -/
theorem sameNext_pushBack (r : s.readBy s.byteDeadline = (some b, t)) : SameNext s (t.pushBack b) := by
  obtain ⟨t', again, k⟩ := readBy_pushBack r (t.pushBack b).byteDeadline
  exact ⟨some b, t, t', r, again, k⟩

namespace SameNext

/-- Neither of the two is the first one here either. -/
theorem symm (h : SameNext s s') : SameNext s' s := by
  obtain ⟨o, t, t', r, r', k⟩ := h
  exact ⟨o, t', t, r', r, k.symm⟩

theorem trans (h : SameNext s t) (k : SameNext t u) : SameNext s u := by
  obtain ⟨o, s₁, t₁, r, r', h⟩ := h
  obtain ⟨o', t₂, u₂, r₂, r'', k⟩ := k
  cases r'.symm.trans r₂
  exact ⟨o, s₁, u₂, r, r'', h.trans k⟩

/-- If the next byte of the one is at hand, the other has it too. -/
theorem of_some (h : SameNext s s') (r : s.readBy s.byteDeadline = (some b, t)) :
    ∃ t', s'.readBy s'.byteDeadline = (some b, t') ∧ Alias t t' := by
  obtain ⟨o, u, t', r₁, r', k⟩ := h
  cases r₁.symm.trans r
  exact ⟨t', r', k⟩

/-- As soon as a byte is taken, no more than the bookkeeping tells the two apart. -/
theorem yields (h : SameNext s s') (y : Yields s (b :: bs) u) : ∃ u', Yields s' (b :: bs) u' ∧ Alias u u' := by
  obtain ⟨t, r, rest⟩ := yields_cons_iff.mp y
  obtain ⟨t', r', k⟩ := h.of_some r
  obtain ⟨u', rest', m⟩ := k.yields rest
  exact ⟨u', .cons r' rest', m⟩

end SameNext

/-! ## To a mark -/

variable {target : UInt8}

theorem find_of_none (r : s.readBy s.byteDeadline = (none, t)) : find target s = .error .timedOut t := by
  unfold find
  rw [scan_of_none r]

/-- A byte is the mark, or the search goes on behind it. -/
theorem find_of_some (r : s.readBy s.byteDeadline = (some b, t)) :
    find target s = if b = target then .ok () t else find target t := by
  unfold find
  rw [scan_of_some r]
  by_cases here : b = target
  · simp only [if_pos here]
  · simp only [if_neg here]

/-- A mark is found just where all bytes up to it come, one within the byte timeout of another.  So
    success depends on bytes and times through `Yields` only, and the later lemmas go by that. -/
theorem find_eq_ok_iff :
    find target s = .ok () t ↔ ∃ skipped, target ∉ skipped ∧ Yields s (skipped ++ [target]) t := by
  constructor
  · intro found
    -- on the backlog, since every byte that is passed over comes off it
    induction left : s.backlog using Nat.strong_induction_on generalizing s with
    | _ n ih =>
      rcases r : s.readBy s.byteDeadline with ⟨_ | b, u⟩
      · rw [find_of_none r] at found
        cases found
      · rw [find_of_some r] at found
        by_cases here : b = target
        · rw [if_pos here] at found
          cases found
          exact ⟨[], List.not_mem_nil, .cons (here ▸ r) (.nil _)⟩
        · rw [if_neg here] at found
          have fewer := backlog_readBy_some r
          obtain ⟨skipped, none, rest⟩ := ih u.backlog (by omega) found rfl
          exact ⟨b :: skipped, by simp [none, Ne.symm here], .cons r rest⟩
  · rintro ⟨skipped, none, yields⟩
    -- on what is passed over, which has to be read byte by byte as it was said to come
    induction skipped generalizing s with
    | nil =>
      obtain ⟨u, r, rest⟩ := yields_cons_iff.mp yields
      cases rest
      rw [find_of_some r, if_pos rfl]
    | cons b skipped ih =>
      obtain ⟨u, r, rest⟩ := yields_cons_iff.mp yields
      obtain ⟨other, none⟩ : target ≠ b ∧ target ∉ skipped := by simpa using none
      rw [find_of_some r, if_neg other.symm]
      exact ih none rest

/-- A search fails for one reason only: some byte has not come in time. -/
theorem find_eq_error {err : AtError} (h : find target s = .error err t) : err = .timedOut := by
  unfold find at h
  split at h <;> cases h
  rfl

/-! ## A number -/

/-- No digit is to be read next: another byte comes, and is still to be read, or the byte timeout
    passes without one.  The streams differ in the two cases: a byte that comes is put back, and
    waiting for one in vain takes its time. -/
inductive DigitsEnd (s : Stream σ) : Stream σ → Prop
  | other {b : UInt8} {t : Stream σ} :
      s.readBy s.byteDeadline = (some b, t) → Decimal.isDigit b = false → DigitsEnd s s
  | silence {t : Stream σ} : s.readBy s.byteDeadline = (none, t) → DigitsEnd s t

/-- Of streams that go on alike, the digits of one end where those of the other do. -/
theorem Alias.digitsEnd (h : Alias s s') (k : DigitsEnd s u) : ∃ u', DigitsEnd s' u' ∧ SameNext u u' := by
  cases k with
  | other r digit =>
    obtain ⟨t', r', -⟩ := h.sameNext.of_some r
    exact ⟨s', .other r' digit, h.sameNext⟩
  | silence r =>
    obtain ⟨u', r', m⟩ := h.readBy_eq r
    rw [← h.byteDeadline] at r'
    exact ⟨u', .silence r', m.sameNext⟩

theorem parseDigits_of_none {w : Nat} (r : s.readBy s.byteDeadline = (none, t)) :
    parseDigits w s = .ok w t := by
  unfold parseDigits
  rw [scan_of_none r]

/-- A byte that is no digit ends the number and is put back. -/
theorem parseDigits_of_other {w : Nat} (r : s.readBy s.byteDeadline = (some b, t))
    (other : Decimal.isDigit b = false) : parseDigits w s = .ok w (t.pushBack b) := by
  have stop : takeDigit w b = .stop (some (w, b)) := by
    unfold takeDigit
    rw [if_neg (by simp [other])]
  unfold parseDigits
  rw [scan_of_some r, stop]

/-- A digit is taken if 64 bits hold the number with it; otherwise that is an error, and the digit
    is gone. -/
theorem parseDigits_of_digit {w : Nat} (r : s.readBy s.byteDeadline = (some b, t))
    (digit : Decimal.isDigit b = true) :
    parseDigits w s =
      if w * 10 + Decimal.digit b ≤ Decimal.maxInt then parseDigits (w * 10 + Decimal.digit b) t
      else .error (.parse .integerOverflow) t := by
  unfold parseDigits
  rw [scan_of_some r]
  by_cases fits : w * 10 + Decimal.digit b ≤ Decimal.maxInt
  · rw [if_pos fits, takeDigit, if_pos digit, if_pos fits]
  · rw [if_neg fits, takeDigit, if_pos digit, if_neg fits]

/-- Digits that come in time and are not too many are taken, up to where they end.  What comes next
    is the same for both streams, though the number may have left it as a byte put back. -/
theorem parseDigits_of_yields {w : Nat} {digits : Bytes}
    (decimal : ∀ b ∈ digits, Decimal.isDigit b = true) (fits : Decimal.extend w digits ≤ Decimal.maxInt)
    (yields : Yields s digits t) (ends : DigitsEnd t u) :
    ∃ v, parseDigits w s = .ok (Decimal.extend w digits) v ∧ SameNext u v := by
  induction yields generalizing w with
  | nil s =>
    cases ends with
    | other r digit => exact ⟨_, parseDigits_of_other r digit, sameNext_pushBack r⟩
    | silence r => exact ⟨u, parseDigits_of_none r, (Alias.refl u).sameNext⟩
  | @cons s t' t b digits r rest ih =>
    obtain ⟨digit, decimal⟩ := List.forall_mem_cons.mp decimal
    have small : w * 10 + Decimal.digit b ≤ Decimal.maxInt :=
      Nat.le_trans (Decimal.le_extend _ digits) fits
    rw [parseDigits_of_digit r digit, if_pos small]
    exact ih decimal fits ends

/-- What can come of the digits of a number, by induction on what there is to read: they end and are
    all taken, or one of them is too many.  In either case the bytes are told that have come. -/
theorem parseDigits_cases (w : Nat) (s : Stream σ) :
    (∃ digits t u v, (∀ b ∈ digits, Decimal.isDigit b = true) ∧
      (w ≤ Decimal.maxInt → Decimal.extend w digits ≤ Decimal.maxInt) ∧ Yields s digits t ∧
      DigitsEnd t u ∧ SameNext u v ∧ parseDigits w s = .ok (Decimal.extend w digits) v) ∨
    ∃ digits t, (∀ b ∈ digits, Decimal.isDigit b = true) ∧
      Decimal.maxInt < Decimal.extend w digits ∧ Yields s digits t ∧
      parseDigits w s = .error (.parse .integerOverflow) t := by
  induction left : s.backlog using Nat.strong_induction_on generalizing s w with
  | _ n ih =>
    rcases r : s.readBy s.byteDeadline with ⟨_ | b, t⟩
    -- no byte comes: the digits end in silence
    · exact .inl ⟨[], s, t, t, by simp, id, .nil s, .silence r, (Alias.refl t).sameNext, parseDigits_of_none r⟩
    · cases digit : Decimal.isDigit b with
      -- a byte comes that is no digit; it ends the digits and is put back
      | false =>
        exact .inl ⟨[], s, s, _, by simp, id, .nil s, .other r digit, sameNext_pushBack r,
          parseDigits_of_other r digit⟩
      | true =>
        -- a digit: either the number still fits, and the rest is shorter, or it is too great from
        -- here on
        rw [parseDigits_of_digit r digit]
        by_cases fits : w * 10 + Decimal.digit b ≤ Decimal.maxInt
        · rw [if_pos fits]
          have fewer := backlog_readBy_some r
          rcases ih t.backlog (by omega) (w * 10 + Decimal.digit b) t rfl with
            ⟨digits, t', u, v, decimal, small, yields, ends, same, read⟩ | ⟨digits, t', decimal, great, yields, read⟩
          · exact .inl ⟨b :: digits, t', u, v, List.forall_mem_cons.mpr ⟨digit, decimal⟩, fun _ => small fits,
              .cons r yields, ends, same, read⟩
          · exact .inr ⟨b :: digits, t', List.forall_mem_cons.mpr ⟨digit, decimal⟩, great, .cons r yields, read⟩
        · rw [if_neg fits]
          exact .inr ⟨[b], t, by simpa using digit, Nat.lt_of_not_le fits, .cons r (.nil t), rfl⟩

/-- Digits that come in time and say too much are found out, whatever comes behind them. -/
theorem parseDigits_of_great {w : Nat} {digits : Bytes} (small : w ≤ Decimal.maxInt)
    (decimal : ∀ b ∈ digits, Decimal.isDigit b = true) (great : Decimal.maxInt < Decimal.extend w digits)
    (yields : Yields s digits t) : ∃ v, parseDigits w s = .error (.parse .integerOverflow) v := by
  induction yields generalizing w with
  | nil s => exact absurd great (Nat.not_lt_of_le small)
  | @cons s t' t b digits r rest ih =>
    obtain ⟨digit, decimal⟩ := List.forall_mem_cons.mp decimal
    rw [parseDigits_of_digit r digit]
    by_cases fits : w * 10 + Decimal.digit b ≤ Decimal.maxInt
    · rw [if_pos fits]
      exact ih fits decimal great
    · rw [if_neg fits]
      exact ⟨t', rfl⟩

/-- The search for the first digit goes through everything else that comes in time.  Whether the last of it
    is a minus sign is found out by reading one byte too far and putting that back. -/
theorem parseSign_of_yields {skipped : Bytes} (unsigned : ∀ x ∈ skipped, Decimal.isDigit x = false)
    (digit : Decimal.isDigit b = true) (yields : Yields s (skipped ++ [b]) t) :
    ∃ u, s.parseSign = .ok (decide (skipped.getLast? = some Ascii.minus), Decimal.digit b) u ∧
      Alias t u := by
  -- on the bytes that are skipped; one that is put back is the first of those that are left
  induction skipped generalizing s t with
  | nil =>
    obtain ⟨u, r, rest⟩ := yields_cons_iff.mp yields
    cases rest
    rw [parseSign_of_some r, if_pos digit]
    exact ⟨t, rfl, .refl t⟩
  | cons x skipped ih =>
    obtain ⟨s₁, r, rest⟩ := yields_cons_iff.mp yields
    obtain ⟨other, unsigned⟩ := List.forall_mem_cons.mp unsigned
    rw [parseSign_of_some r, if_neg (by simp [other])]
    by_cases minus : x = Ascii.minus
    · rw [if_pos minus]
      cases skipped with
      | nil =>
        -- the sign stands right before the digit
        obtain ⟨s₂, r₂, rest⟩ := yields_cons_iff.mp rest
        cases rest
        simp only [r₂, if_pos digit]
        exact ⟨t, by simp [minus], .refl t⟩
      | cons y skipped =>
        obtain ⟨s₂, r₂, -⟩ := yields_cons_iff.mp rest
        obtain ⟨t', again, k⟩ := (sameNext_pushBack r₂).yields rest
        obtain ⟨u, read, m⟩ := ih unsigned again
        have noDigit := unsigned y List.mem_cons_self
        simp only [r₂, noDigit, Bool.false_eq_true, ↓reduceIte]
        exact ⟨u, by rw [read, List.getLast?_cons_cons], k.trans m⟩
    · rw [if_neg minus]
      obtain ⟨u, read, m⟩ := ih unsigned rest
      refine ⟨u, ?_, m⟩
      rw [read]
      cases skipped with
      | nil => simp [minus]
      | cons y skipped => rw [List.getLast?_cons_cons]

/-- If it finds a digit, that has come in time, and so has everything before it.  By induction along
    the recursion of the search, which may go back by one byte. -/
theorem yields_of_parseSign {p : Bool × Nat} (h : s.parseSign = .ok p t) :
    ∃ skipped b u, (∀ x ∈ skipped, Decimal.isDigit x = false) ∧ Decimal.isDigit b = true ∧
      Yields s (skipped ++ [b]) u := by
  have minusNoDigit : Decimal.isDigit Ascii.minus = false := by decide
  fun_induction parseSign s with
  | case1 s t' r => cases h
  | case2 s b t' r digit => exact ⟨[], b, t', by simp, digit, .cons r (.nil t')⟩
  | case3 s t' u r' r => cases h
  | case4 s t' c u r' digit r =>
    exact ⟨[Ascii.minus], c, u, by simpa using minusNoDigit, digit, .cons r (.cons r' (.nil u))⟩
  | case5 s t' c u r' other r noDigit ih =>
    -- the byte behind the minus sign, which was put back, is read in both courses
    obtain ⟨skipped, b, v, unsigned, digit, yields⟩ := ih h
    obtain ⟨x, xs, whole⟩ := List.exists_cons_of_ne_nil (List.concat_ne_nil b skipped)
    rw [whole] at yields
    obtain ⟨v', yields, -⟩ := (sameNext_pushBack r').symm.yields yields
    rw [← whole] at yields
    exact ⟨Ascii.minus :: skipped, b, v', List.forall_mem_cons.mpr ⟨minusNoDigit, unsigned⟩, digit, .cons r yields⟩
  | case6 s x t' r other noMinus ih =>
    obtain ⟨skipped, b, v, unsigned, digit, yields⟩ := ih h
    exact ⟨x :: skipped, b, v, List.forall_mem_cons.mpr ⟨by simpa using other, unsigned⟩, digit, .cons r yields⟩

/-- Looking for a number fails only if a byte does not come in time; nothing that comes can be wrong
    before the first digit. -/
theorem parseSign_eq_error {err : AtError} (h : s.parseSign = .error err t) : err = .timedOut := by
  fun_induction parseSign s with
  | case1 | case3 =>
    cases h
    rfl
  | case2 | case4 => cases h
  | case5 s t' c u r' other r noDigit ih => exact ih h
  | case6 s x t' r other noMinus ih => exact ih h

section

variable {n : Int} {skipped digits : Bytes}

/-- A number that has come in time is found in two parts: up to its first digit, with the sign
    before that, and the digits behind it. -/
theorem parseInt_parts (numeral : Numeral n skipped digits) (yields : Yields s (skipped ++ digits) t) :
    ∃ b ds s' t', digits = b :: ds ∧ Yields s' ds t' ∧ Alias t t' ∧
      s.parseSign = .ok (decide (skipped.getLast? = some Ascii.minus), Decimal.digit b) s' := by
  obtain ⟨b, ds, rfl⟩ := List.exists_cons_of_ne_nil numeral.nonempty
  have split : skipped ++ b :: ds = skipped ++ [b] ++ ds := by simp
  rw [split] at yields
  obtain ⟨m, front, back⟩ := yields_append_iff.mp yields
  obtain ⟨s', read, k⟩ := parseSign_of_yields numeral.unsigned (numeral.decimal b List.mem_cons_self) front
  obtain ⟨t', back', k'⟩ := k.yields back
  exact ⟨b, ds, s', t', rfl, back', k', read⟩

/-- A number whose bytes come in time is read, if 64 bits hold it, and what comes next is still to
    be read.  Together with the next lemmas it says when a number is read, and so when a result line
    can be. -/
theorem parseInt_of_yields (numeral : Numeral n skipped digits)
    (fits : Decimal.value digits ≤ Decimal.maxInt) (yields : Yields s (skipped ++ digits) t)
    (ends : DigitsEnd t u) : ∃ v, parseInt s = .ok n v ∧ SameNext u v := by
  have number := numeral.value
  obtain ⟨b, ds, s', t', rfl, rest, k, sign⟩ := parseInt_parts numeral yields
  obtain ⟨u', ends', same⟩ := k.digitsEnd ends
  rw [← Decimal.extend_digit] at fits number
  have decimal : ∀ x ∈ ds, Decimal.isDigit x = true := fun x hx =>
    numeral.decimal x (List.mem_cons_of_mem b hx)
  obtain ⟨v, value, same'⟩ := parseDigits_of_yields decimal fits rest ends'
  refine ⟨v, (bind_of_ok sign).trans ((bind_of_ok value).trans ?_), same.trans same'⟩
  rw [number]
  simp only [decide_eq_true_eq]
  rfl

/-- A number that says more than 64 bits hold is an error, and not some other number. -/
theorem parseInt_of_great (numeral : Numeral n skipped digits)
    (great : Decimal.maxInt < Decimal.value digits) (yields : Yields s (skipped ++ digits) t) :
    ∃ v, parseInt s = .error (.parse .integerOverflow) v := by
  obtain ⟨b, ds, s', t', rfl, rest, -, sign⟩ := parseInt_parts numeral yields
  rw [← Decimal.extend_digit] at great
  have decimal : ∀ x ∈ ds, Decimal.isDigit x = true := fun x hx =>
    numeral.decimal x (List.mem_cons_of_mem b hx)
  have small : Decimal.digit b ≤ Decimal.maxInt :=
    Nat.le_trans (Nat.sub_le _ _) (Decimal.toNat_le_maxInt b)
  obtain ⟨v, failed⟩ := parseDigits_of_great small decimal great rest
  exact ⟨v, (bind_of_ok sign).trans (bind_of_error failed)⟩

end

/-- Reading a number ends in one of three ways, and for the first two the bytes have come that are
    read so.  The three exclude each other, and so each of them can be told from the result alone.
    -/
theorem parseInt_outcomes (s : Stream σ) :
    (∃ n skipped digits t u v, Numeral n skipped digits ∧ Decimal.value digits ≤ Decimal.maxInt ∧
      Yields s (skipped ++ digits) t ∧ DigitsEnd t u ∧ SameNext u v ∧ parseInt s = .ok n v) ∨
    (∃ n skipped digits t v, Numeral n skipped digits ∧ Decimal.maxInt < Decimal.value digits ∧
      Yields s (skipped ++ digits) t ∧ parseInt s = .error (.parse .integerOverflow) v) ∨
    ∃ t, parseInt s = .error .timedOut t := by
  rcases sign : s.parseSign with ⟨p, t⟩ | ⟨err, t⟩
  · obtain ⟨skipped, b, m, unsigned, digit, front⟩ := yields_of_parseSign sign
    obtain ⟨t', sign', k⟩ := parseSign_of_yields unsigned digit front
    cases sign.symm.trans sign'
    -- the first digit is found with the sign; how the digits go on decides what comes of the number
    have numeral (ds : Bytes) (decimal : ∀ x ∈ ds, Decimal.isDigit x = true) :
        Numeral (if skipped.getLast? = some Ascii.minus then -(Decimal.value (b :: ds) : Int)
          else Decimal.value (b :: ds)) skipped (b :: ds) :=
      ⟨unsigned, List.cons_ne_nil b ds, List.forall_mem_cons.mpr ⟨digit, decimal⟩, rfl⟩
    -- the rest is read behind the sign, on a stream that differs from that of the description in
    -- what is put back
    have whole {ds : Bytes} {u : Stream σ} (back : Yields t ds u) :
        ∃ u', Yields s (skipped ++ b :: ds) u' ∧ Alias u u' := by
      obtain ⟨u', back', k'⟩ := k.symm.yields back
      have split : skipped ++ b :: ds = skipped ++ [b] ++ ds := by simp
      rw [split]
      exact ⟨u', yields_append_iff.mpr ⟨m, front, back'⟩, k'⟩
    have small : Decimal.digit b ≤ Decimal.maxInt :=
      Nat.le_trans (Nat.sub_le _ _) (Decimal.toNat_le_maxInt b)
    rcases parseDigits_cases (Decimal.digit b) t with
      ⟨ds, t₁, u, v, decimal, fits, back, ends, same, value⟩ | ⟨ds, t₁, decimal, great, back, failed⟩
    · obtain ⟨t₂, yields, k₂⟩ := whole back
      obtain ⟨u₂, ends₂, same₂⟩ := k₂.digitsEnd ends
      have fits := fits small
      rw [Decimal.extend_digit] at fits value
      refine .inl ⟨_, skipped, b :: ds, t₂, u₂, v, numeral ds decimal, fits, yields, ends₂,
        same₂.symm.trans same, (bind_of_ok sign).trans ((bind_of_ok value).trans ?_)⟩
      simp only [decide_eq_true_eq]
      rfl
    · obtain ⟨t₂, yields, -⟩ := whole back
      rw [Decimal.extend_digit] at great
      exact .inr (.inl ⟨_, skipped, b :: ds, t₂, t₁, numeral ds decimal, great, yields,
        (bind_of_ok sign).trans (bind_of_error failed)⟩)
  -- no first digit is found
  · obtain rfl := parseSign_eq_error sign
    exact .inr (.inr ⟨t, bind_of_error sign⟩)

/-! ## A result line -/

/-- The bytes up to a comma, then a number with what is skipped before it, all come in time.
    Whether the number ends with these digits is not said here, but by `DigitsEnd`. -/
def NumberIn (s : Stream σ) (n : Int) (digits : Bytes) (t : Stream σ) : Prop :=
  ∃ index skipped, Ascii.comma ∉ index ∧ Numeral n skipped digits ∧
    Yields s (index ++ Ascii.comma :: (skipped ++ digits)) t

/-- The rest of a result line with this code can be read: an index up to a comma, the code in no more
    than 64 bits, and the line to its end.  Every byte of it comes within the byte timeout of the one before
    it, but that the digits may end in silence. -/
def HasCode (code : Int) (s : Stream σ) : Prop :=
  ∃ digits rest t u v, NumberIn s code digits t ∧ Decimal.value digits ≤ Decimal.maxInt ∧
    DigitsEnd t u ∧ Ascii.lf ∉ rest ∧ Yields u (rest ++ [Ascii.lf]) v

/-- As far as its digits a result line can be read, but they say more than 64 bits hold.  The
    reading fails at the digit that is one too many, however the line goes on. -/
def HasGreatCode (s : Stream σ) : Prop :=
  ∃ n digits t, NumberIn s n digits t ∧ Decimal.maxInt < Decimal.value digits

/-- Up to the digits a result line is a search and what is skipped behind it. -/
theorem numberIn_iff {n : Int} {digits : Bytes} :
    NumberIn s n digits t ↔ ∃ u skipped, find Ascii.comma s = .ok () u ∧ Numeral n skipped digits ∧
      Yields u (skipped ++ digits) t := by
  constructor
  · rintro ⟨index, skipped, none, numeral, yields⟩
    rw [List.append_cons] at yields
    obtain ⟨u, front, back⟩ := yields_append_iff.mp yields
    exact ⟨u, skipped, find_eq_ok_iff.mpr ⟨index, none, front⟩, numeral, back⟩
  · rintro ⟨u, skipped, found, numeral, back⟩
    obtain ⟨index, none, front⟩ := find_eq_ok_iff.mp found
    refine ⟨index, skipped, none, numeral, ?_⟩
    rw [List.append_cons]
    exact yields_append_iff.mpr ⟨u, front, back⟩

end Stream

namespace Engine

open AtModem.Stream

variable {σ : Type} {e f : Engine σ} {code : Int}

/-- A reader succeeds on an engine just if it does on the stream of the engine. -/
theorem onStream_ok_iff {α : Type} {x : StreamM σ α} {a : α} :
    (∃ f, onStream x e = .ok a f) ↔ ∃ t, x e.stream = .ok a t := by
  unfold onStream
  cases x e.stream with
  | ok b t => simp
  | error err t => simp

/-- And it fails there just if it does here, for the same reason. -/
theorem onStream_error_iff {α : Type} {x : StreamM σ α} {err : AtError} :
    (∃ f, onStream x e = .error err f) ↔ ∃ t, x e.stream = .error err t := by
  unfold onStream
  cases x e.stream with
  | ok b t => simp
  | error err t => simp

/-- A code is read just where there is a line to read it from.  So whether a line can be read is a
    matter of its bytes and their times, and says nothing of the reader. -/
theorem indexedCode_eq_ok_iff : (∃ f, indexedCode e = .ok code f) ↔ HasCode code e.stream := by
  unfold indexedCode
  rw [onStream_ok_iff]
  constructor
  -- what the program read off the stream, step by step, is what the description asks for
  · rintro ⟨t, read⟩
    obtain ⟨⟨⟩, s₁, comma, read⟩ := bind_eq_ok read
    obtain ⟨n, s₂, number, read⟩ := bind_eq_ok read
    obtain ⟨⟨⟩, s₃, line, same⟩ := bind_eq_ok read
    cases same
    rcases parseInt_outcomes s₁ with
      ⟨n', skipped, digits, m, u, v, numeral, fits, yields, ends, same, number'⟩ |
      ⟨_, _, _, _, _, -, -, -, failed⟩ | ⟨_, failed⟩
    -- the byte behind the number has been put back; the rest of the line begins with it, so there
    -- is one
    · cases number.symm.trans number'
      obtain ⟨rest, none, behind⟩ := find_eq_ok_iff.mp line
      obtain ⟨x, xs, whole⟩ := List.exists_cons_of_ne_nil (List.concat_ne_nil Ascii.lf rest)
      rw [whole] at behind
      obtain ⟨w, behind, -⟩ := same.symm.yields behind
      rw [← whole] at behind
      exact ⟨digits, rest, m, u, w, numberIn_iff.mpr ⟨s₁, skipped, comma, numeral, yields⟩, fits, ends, none,
        behind⟩
    · cases number.symm.trans failed
    · cases number.symm.trans failed
  -- and where the description holds, the steps of the program succeed one after the other
  · rintro ⟨digits, rest, t, u, v, found, fits, ends, none, behind⟩
    obtain ⟨s₁, skipped, comma, numeral, yields⟩ := numberIn_iff.mp found
    obtain ⟨s₂, number, same⟩ := parseInt_of_yields numeral fits yields ends
    obtain ⟨x, xs, whole⟩ := List.exists_cons_of_ne_nil (List.concat_ne_nil Ascii.lf rest)
    rw [whole] at behind
    obtain ⟨w, behind, -⟩ := same.yields behind
    rw [← whole] at behind
    have line := find_eq_ok_iff.mpr ⟨rest, none, behind⟩
    exact ⟨w, (bind_of_ok comma).trans ((bind_of_ok number).trans (bind_of_ok line))⟩

/-- Digits that outgrow 64 bits are found out just where there are some, whether or not the line
    ends behind them.  Silence behind such digits changes nothing, as the error is found before it.
    -/
theorem indexedCode_eq_overflow_iff :
    (∃ f, indexedCode e = .error (.parse .integerOverflow) f) ↔ HasGreatCode e.stream := by
  unfold indexedCode
  rw [onStream_error_iff]
  constructor
  -- neither searching a byte nor ending a line overflows, so it was the number
  · rintro ⟨t, failed⟩
    rcases bind_eq_error failed with comma | ⟨⟨⟩, s₁, comma, failed⟩
    · cases find_eq_error comma
    rcases bind_eq_error failed with number | ⟨n, s₂, -, failed⟩
    · rcases parseInt_outcomes s₁ with
        ⟨_, _, _, _, _, _, -, -, -, -, -, number'⟩ |
        ⟨n, skipped, digits, m, v, numeral, great, yields, -⟩ | ⟨_, number'⟩
      · cases number.symm.trans number'
      · exact ⟨n, digits, m, numberIn_iff.mpr ⟨s₁, skipped, comma, numeral, yields⟩, great⟩
      · cases number.symm.trans number'
    rcases bind_eq_error failed with line | ⟨⟨⟩, s₃, -, failed⟩
    · cases find_eq_error line
    · cases failed
  · rintro ⟨n, digits, t, found, great⟩
    obtain ⟨s₁, skipped, comma, numeral, yields⟩ := numberIn_iff.mp found
    obtain ⟨s₂, number⟩ := parseInt_of_great numeral great yields
    exact ⟨s₂, (bind_of_ok comma).trans (bind_of_error number)⟩

/-- Whatever else is wrong with a line, some byte of it has not come in time.  With the two
    equivalences this is all that can become of a line. -/
theorem indexedCode_eq_error {err : AtError} (h : indexedCode e = .error err f) :
    err = .timedOut ∨ err = .parse .integerOverflow := by
  obtain ⟨t, failed⟩ := onStream_error_iff.mp ⟨f, h⟩
  rcases bind_eq_error failed with comma | ⟨⟨⟩, s₁, -, failed⟩
  · exact .inl (find_eq_error comma)
  rcases bind_eq_error failed with number | ⟨n, s₂, -, failed⟩
  · rcases parseInt_outcomes s₁ with
      ⟨_, _, _, _, _, _, -, -, -, -, -, number'⟩ | ⟨_, _, _, _, _, -, -, -, number'⟩ | ⟨_, number'⟩
    · cases number.symm.trans number'
    · cases number.symm.trans number'
      exact .inr rfl
    · cases number.symm.trans number'
      exact .inl rfl
  rcases bind_eq_error failed with line | ⟨⟨⟩, s₃, -, failed⟩
  · exact .inl (find_eq_error line)
  · cases failed

end Engine
end AtModem
