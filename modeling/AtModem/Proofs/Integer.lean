/-
  Which number is read.

  `parseInt` reads byte by byte, may put one back behind a minus sign, and gives up when a byte is late.
  Where all there is to read has come, none of that matters, and the number can be said of the bytes alone:
  they are taken apart at the first digits in them (`Decimal.Parts`), and the number is what those digits
  say, negative just when a minus sign stands right before them.

  The scanner comes to one of three ends (`Steady.parseInt_cases`): no digit came and nothing is left, the
  digits say too much, or the number was read and the byte behind it put back.  The parts of the bytes tell
  the three apart, so each of them is also the only end the scanner can come to there.
-/
import AtModem.Proofs.Pace
import AtModem.Proofs.Rejection

namespace AtModem

namespace Decimal

/-- Bytes taken apart at the first digits in them: what stands before, these digits, and what stands
    behind.  Put together the three are the bytes again, and so they say what a reading takes and
    what it leaves. -/
structure Parts where
  before : Bytes
  /-- All digits that stand together there. -/
  digits : Bytes
  behind : Bytes

/-- The digits begin at the first there is and go on as long as there is no other byte. -/
def Parts.of (bs : Bytes) : Parts where
  before := bs.takeWhile (! isDigit ·)
  digits := (bs.dropWhile (! isDigit ·)).takeWhile isDigit
  behind := (bs.dropWhile (! isDigit ·)).dropWhile isDigit

/-- What the digits say, with a minus sign counted only if it stands right before them. -/
def Parts.number (p : Parts) : Int :=
  if p.before.getLast? = some Ascii.minus then -(value p.digits : Int) else value p.digits

namespace Parts

variable {before digits behind : Bytes}

/-- Bytes that begin without a digit and go on with some are taken apart there; whether the digits
    go on behind depends on the rest. -/
theorem of_append (unsigned : ∀ b ∈ before, isDigit b = false) (some : digits ≠ [])
    (decimal : ∀ b ∈ digits, isDigit b = true) (rest : Bytes) :
    of (before ++ digits ++ rest) =
      ⟨before, digits ++ rest.takeWhile isDigit, rest.dropWhile isDigit⟩ := by
  have skip : ∀ b ∈ before, (! isDigit b) = true := fun b hb => by rw [unsigned b hb]; rfl
  obtain ⟨d, ds, rfl⟩ := List.exists_cons_of_ne_nil some
  have first : (! isDigit d) = false := by rw [decimal d List.mem_cons_self]; rfl
  have found : (before ++ (d :: ds) ++ rest).dropWhile (! isDigit ·) = d :: ds ++ rest := by
    rw [List.append_assoc, List.dropWhile_append_of_pos skip, List.cons_append,
      List.dropWhile_cons_of_neg (by simp [first])]
  have front : (before ++ (d :: ds) ++ rest).takeWhile (! isDigit ·) = before := by
    rw [List.append_assoc, List.takeWhile_append_of_pos skip, List.cons_append,
      List.takeWhile_cons_of_neg (by simp [first]), List.append_nil]
  rw [of, front, found, List.takeWhile_append_of_pos decimal, List.dropWhile_append_of_pos decimal]

/-- The digits end where another byte comes, and also where nothing does. -/
theorem of_append_of_ends (unsigned : ∀ b ∈ before, isDigit b = false) (some : digits ≠ [])
    (decimal : ∀ b ∈ digits, isDigit b = true) (ends : ∀ b ∈ behind.head?, isDigit b = false) :
    of (before ++ digits ++ behind) = ⟨before, digits, behind⟩ := by
  rw [of_append unsigned some decimal]
  cases behind with
  | nil => rw [List.takeWhile_nil, List.append_nil, List.dropWhile_nil]
  | cons b behind =>
    have other : ¬isDigit b = true := by simp [ends b rfl]
    rw [List.takeWhile_cons_of_neg other, List.append_nil, List.dropWhile_cons_of_neg other]

theorem digits_eq_nil {bs : Bytes} (noDigit : ∀ b ∈ bs, isDigit b = false) : (of bs).digits = [] := by
  have skipped : bs.dropWhile (! isDigit ·) = [] :=
    List.dropWhile_eq_nil_iff.mpr fun b hb => by rw [noDigit b hb]; rfl
  rw [of, skipped]
  rfl

theorem digits_ne_nil {bs : Bytes} (some : (of bs).digits ≠ []) : ∃ b ∈ bs, isDigit b = true := by
  by_contra none
  refine some (digits_eq_nil fun b hb => ?_)
  rw [← Bool.not_eq_true]
  exact fun digit => none ⟨b, hb, digit⟩

/-- A number that is written out among bytes that are not part of it is taken apart as itself.  The
    minus sign belongs to the number only as its last byte before the digits, hence the hypothesis
    on what stands there. -/
theorem of_signed {n : Int} {junk rest : Bytes} (unsigned : ∀ b ∈ junk, isDigit b = false)
    (plain : junk.getLast? ≠ some Ascii.minus) (ends : ∀ b ∈ rest.head?, isDigit b = false) :
    (of (junk ++ signed n ++ rest)).digits = Decimal.digits n.natAbs ∧
      (of (junk ++ signed n ++ rest)).number = n ∧ (of (junk ++ signed n ++ rest)).behind = rest := by
  have some := Decimal.digits_ne_nil n.natAbs
  have decimal : ∀ d ∈ Decimal.digits n.natAbs, isDigit d = true := fun d hd => isDigit_of_mem_digits hd
  by_cases negative : n < 0
  -- the minus sign stands before the digits, with what is junk before it
  · have minusNoDigit : isDigit Ascii.minus = false := by decide
    have behindSign : ∀ b ∈ junk ++ [Ascii.minus], isDigit b = false := by
      intro b hb
      rcases List.mem_append.mp hb with hb | hb
      · exact unsigned b hb
      · rw [List.mem_singleton.mp hb, minusNoDigit]
    have parts := of_append_of_ends behindSign some decimal ends
    have same : junk ++ signed n ++ rest = junk ++ [Ascii.minus] ++ Decimal.digits n.natAbs ++ rest := by
      rw [signed, if_pos negative]
      simp
    rw [same, parts]
    refine ⟨rfl, ?_, rfl⟩
    rw [number, List.getLast?_concat, if_pos rfl, value_digits]
    omega
  -- there is no sign of its own, and the junk does not end with one
  · rw [signed, if_neg negative, of_append_of_ends unsigned some decimal ends]
    refine ⟨rfl, ?_, rfl⟩
    rw [number, if_neg plain, value_digits]
    omega

end Parts
end Decimal

namespace Stream

variable {σ : Type} {s t : Stream σ} {all as : List Arrival} {v w : Nat} {err : AtError}

/-! ## Digits that say too much -/

/-- A digit is taken only if what has been read so far stays within the limit. -/
theorem takeDigit_le {b : UInt8} (h : takeDigit v b = .more w) : w ≤ Decimal.maxInt := by
  simp only [takeDigit] at h
  split at h
  · split at h
    · rename_i fits
      cases h
      exact fits
    · cases h
  · cases h

/-- Digits are given up for one reason, that they say too much; running out of bytes ends a number.
    The digits that follow are left unread, which is why nothing more is said of `rest`. -/
theorem parseDigits_eq_error (h : parseDigits v s = .error err t) :
    err = .parse .integerOverflow ∧ ∃ digits rest, (∀ b ∈ digits, Decimal.isDigit b = true) ∧
      Decimal.maxInt < Decimal.extend v digits ∧ s.unread = digits ++ rest := by
  unfold parseDigits at h
  generalize hn : takeDigit = next at h
  fun_induction scan byteDeadline next v s with
  | case1 v s t' r => cases h
  | case2 v s b t' r result stop =>
    subst hn
    rcases result with _ | ⟨w, c⟩
    · cases h
      obtain ⟨digit, great⟩ := takeDigit_eq_overflow stop
      exact ⟨rfl, [b], t.unread, by simpa using digit, great, (took_readBy r).unread⟩
    · cases h
  | case3 v s b t' r v' more ih =>
    -- the digit belongs to those that say too much
    obtain ⟨cause, digits, rest, decimal, great, behind⟩ := ih h
    subst hn
    obtain ⟨digit, rfl⟩ := takeDigit_eq_more more
    refine ⟨cause, b :: digits, rest, by simpa [digit] using decimal, great, ?_⟩
    rw [(took_readBy r).unread, behind]
    rfl

/-- What has been read of a number is never too great, as it is checked with every digit.  By
    induction along the fold, whose value never passes the limit. -/
theorem parseDigits_le (fits : v ≤ Decimal.maxInt) (h : parseDigits v s = .ok w t) :
    w ≤ Decimal.maxInt := by
  unfold parseDigits at h
  generalize hn : takeDigit = next at h
  fun_induction scan byteDeadline next v s with
  | case1 v s t' r =>
    cases h
    exact fits
  | case2 v s b t' r result stop =>
    subst hn
    rcases result with _ | ⟨w', c⟩
    · cases h
    · obtain ⟨-, rfl, -⟩ := takeDigit_eq_stop stop
      cases h
      exact fits
  | case3 v s b t' r v' more ih =>
    subst hn
    exact ih (takeDigit_le more) h

theorem digit_le_maxInt (b : UInt8) : Decimal.digit b ≤ Decimal.maxInt :=
  Nat.le_trans (Nat.sub_le _ _) (Decimal.toNat_le_maxInt b)

/-! ## The ends of a scan -/

/-- At a steady pace a search for a digit gives up only where the bytes end, and has read them all.
    A minus sign as the last byte of all is such an end, too. -/
theorem Steady.parseSign_in_vain (h : Steady all as s) (p : s.parseSign = .error err t) :
    err = .timedOut ∧ (∀ b ∈ s.unread, Decimal.isDigit b = false) ∧ t.unread = [] := by
  have minusNoDigit : Decimal.isDigit Ascii.minus = false := by decide
  fun_induction Stream.parseSign s generalizing as with
  | case1 s t' r =>
    cases p
    obtain ⟨rfl, k⟩ := h.of_none r
    exact ⟨rfl, by simp [h.unread], k.unread⟩
  | case2 s b t' r digit => cases p
  | case3 s t' u q r other =>
    cases p
    obtain ⟨a, rest, rfl, byte, k, -⟩ := h.of_some r
    obtain ⟨rfl, m⟩ := k.of_none q
    exact ⟨rfl, by simp [h.unread, byte, minusNoDigit], m.unread⟩
  | case4 s t' c u q digit r other => cases p
  | case5 s t' c u q noDigit r other ih =>
    -- the byte behind a minus sign is looked at again
    obtain ⟨a, rest, -, -, k, -⟩ := h.of_some r
    obtain ⟨a', rest', -, -, -, back⟩ := k.of_some q
    obtain ⟨cause, none, left⟩ := ih back p
    rw [unread_pushBack_of_took (took_readBy q)] at none
    rw [(took_readBy r).unread]
    exact ⟨cause, by simpa [minusNoDigit] using none, left⟩
  | case6 s b t' r other noMinus ih =>
    obtain ⟨a, rest, -, -, k, -⟩ := h.of_some r
    obtain ⟨cause, none, left⟩ := ih k p
    rw [(took_readBy r).unread]
    exact ⟨cause, by simpa [other] using none, left⟩

/-- The first end is that of the search for a digit, the other two those of reading on from it.  The
    three are exclusive, and so what is read is a function of the bytes. -/
theorem Steady.parseInt_cases (h : Steady all as s) :
    (∃ t, parseInt s = .error .timedOut t ∧ t.unread = [] ∧
      ∀ b ∈ s.unread, Decimal.isDigit b = false) ∨
    (∃ t, parseInt s = .error (.parse .integerOverflow) t ∧
      Decimal.maxInt < Decimal.value (Decimal.Parts.of s.unread).digits) ∨
    ∃ t, parseInt s = .ok (Decimal.Parts.of s.unread).number t ∧
      t.unread = (Decimal.Parts.of s.unread).behind ∧ t.lookahead = t.unread.head? ∧
      (Decimal.Parts.of s.unread).digits ≠ [] ∧
      Decimal.value (Decimal.Parts.of s.unread).digits ≤ Decimal.maxInt := by
  -- the first digit, with its sign
  rcases first : s.parseSign with ⟨⟨minus, v⟩, t⟩ | ⟨err, t⟩
  · obtain ⟨skipped, d, unsigned, isDigit, value, sign, before⟩ := parseSign_eq_ok first
    obtain ⟨rest, k⟩ := h.parseSign first
    subst value
    rcases more : parseDigits (Decimal.digit d) t with ⟨w, u⟩ | ⟨err, u⟩
    -- the digits end, and the byte behind them is put back: the parts are known from what is left
    · obtain ⟨ds, decimal, extended, behind, -⟩ := parseDigits_eq_ok more
      obtain ⟨back, ends⟩ := k.parseDigits_ends more
      have fits : w ≤ Decimal.maxInt := parseDigits_le (digit_le_maxInt d) more
      have parts : Decimal.Parts.of s.unread = ⟨skipped, d :: ds, u.unread⟩ := by
        rw [before, behind, ← Decimal.Parts.of_append_of_ends unsigned (List.cons_ne_nil d ds)
          (by simpa [isDigit] using decimal) ends]
        simp
      rw [Decimal.extend_digit] at extended
      subst extended
      refine .inr (.inr ⟨u, ?_⟩)
      rw [parts]
      refine ⟨(bind_of_ok first).trans ((bind_of_ok more).trans ?_), rfl, back, List.cons_ne_nil d ds, fits⟩
      simp only [Decimal.Parts.number, ← sign]
      rfl
    -- the digits say too much as far as they were read, and so do all of them
    · obtain ⟨rfl, ds, rest, decimal, great, behind⟩ := parseDigits_eq_error more
      have parts : (Decimal.Parts.of s.unread).digits = d :: ds ++ rest.takeWhile Decimal.isDigit := by
        have whole : s.unread = skipped ++ (d :: ds) ++ rest := by
          rw [before, behind]
          simp
        rw [whole, Decimal.Parts.of_append unsigned (List.cons_ne_nil d ds) (by simpa [isDigit] using decimal)]
      refine .inr (.inl ⟨u, (bind_of_ok first).trans (bind_of_error more), ?_⟩)
      rw [parts, Decimal.value, Decimal.extend_append]
      rw [Decimal.extend_digit] at great
      exact Nat.lt_of_lt_of_le great (Decimal.le_extend _ _)
  -- no digit came
  · obtain ⟨rfl, none, left⟩ := h.parseSign_in_vain first
    exact .inl ⟨t, bind_of_error first, left, none⟩

/-! The parts of the bytes tell the ends apart. -/

/-- Without a digit the search goes through all there is and times out. -/
theorem Steady.parseInt_in_vain (h : Steady all as s) (none : ∀ b ∈ s.unread, Decimal.isDigit b = false) :
    ∃ t, parseInt s = .error .timedOut t ∧ t.unread = [] := by
  have digits := Decimal.Parts.digits_eq_nil none
  rcases h.parseInt_cases with ⟨t, r, left, -⟩ | ⟨t, -, great⟩ | ⟨t, -, -, -, some, -⟩
  · exact ⟨t, r, left⟩
  · rw [digits] at great
    exact absurd great (by decide)
  · exact absurd digits some

/-- First digits that say too much are reported as such; where the search stopped in them is left
    open. -/
theorem Steady.parseInt_overflow (h : Steady all as s)
    (great : Decimal.maxInt < Decimal.value (Decimal.Parts.of s.unread).digits) :
    ∃ t, parseInt s = .error (.parse .integerOverflow) t := by
  rcases h.parseInt_cases with ⟨t, -, -, none⟩ | ⟨t, r, -⟩ | ⟨t, -, -, -, -, fits⟩
  · rw [Decimal.Parts.digits_eq_nil none] at great
    exact absurd great (by decide)
  · exact ⟨t, r⟩
  · exact absurd great (Nat.not_lt_of_le fits)

/-- First digits that do not say too much are the number, and the byte behind them, if any, is put
    back. -/
theorem Steady.parseInt_number (h : Steady all as s) (digit : ∃ b ∈ s.unread, Decimal.isDigit b = true)
    (fits : Decimal.value (Decimal.Parts.of s.unread).digits ≤ Decimal.maxInt) :
    ∃ t, parseInt s = .ok (Decimal.Parts.of s.unread).number t ∧
      t.unread = (Decimal.Parts.of s.unread).behind ∧
      t.lookahead = (Decimal.Parts.of s.unread).behind.head? := by
  rcases h.parseInt_cases with ⟨t, -, -, none⟩ | ⟨t, -, great⟩ | ⟨t, r, left, back, -⟩
  · obtain ⟨b, hb, isDigit⟩ := digit
    rw [none b hb] at isDigit
    cases isDigit
  · exact absurd great (Nat.not_lt_of_le fits)
  · exact ⟨t, r, left, left ▸ back⟩

/-! ## Where everything has come -/

/-- What has come is there at once, whenever it came, so that no byte timeout matters.  It is how
    the theorem covers bytes that are waiting to be read. -/
theorem Steady.of_arrived (arrived : ∀ a ∈ s.link.scheduled.arrivals, a.time ≤ s.now) :
    Steady (s.unread.map (Arrival.mk s.now)) (s.unread.map (Arrival.mk s.now)) s where
  unread := by simp [Function.comp_def]
  arrivedBy time late := by
    have all := arrivedBy_of_arrived fun a ha => Nat.le_trans (arrived a ha) late
    have here : ∀ a ∈ s.unread.map (Arrival.mk s.now), decide (a.time ≤ time) = true := by
      intro a ha
      obtain ⟨b, -, rfl⟩ := List.mem_map.mp ha
      exact decide_eq_true late
    rw [List.takeWhile_eq_self_iff.mpr here, List.map_map, all]
    exact (List.map_id _).symm
  past := ⟨[], rfl, by simp⟩
  next a ha := by
    obtain ⟨b, -, rfl⟩ := List.mem_map.mp (List.mem_of_mem_head? ha)
    exact Nat.le_add_right _ _
  spaced := (List.isChain_map _).mpr (List.Pairwise.isChain
    (List.pairwise_of_forall fun _ _ => Nat.le_add_right _ _))

/-- Where all there is to read has come, the number is that of the first digits in it.  Without a digit
    all is read in vain; digits that say more than 64 bits hold are refused; else just the bytes behind
    the digits are left, the first of them put back.  So a number that is written out among others is
    read as it was written. -/
theorem parseInt_reads_first_digits (arrived : ∀ a ∈ s.link.scheduled.arrivals, a.time ≤ s.now) :
    let parts := Decimal.Parts.of s.unread
    ((∀ b ∈ s.unread, Decimal.isDigit b = false) →
      ∃ t, parseInt s = .error .timedOut t ∧ t.unread = []) ∧
    (Decimal.maxInt < Decimal.value parts.digits →
      ∃ t, parseInt s = .error (.parse .integerOverflow) t) ∧
    ((∃ b ∈ s.unread, Decimal.isDigit b = true) → Decimal.value parts.digits ≤ Decimal.maxInt →
      ∃ t, parseInt s = .ok parts.number t ∧ t.unread = parts.behind ∧
        t.lookahead = parts.behind.head?) ∧
    ∀ (n : Int) (junk rest : Bytes), n.natAbs ≤ Decimal.maxInt →
      (∀ b ∈ junk, Decimal.isDigit b = false) → junk.getLast? ≠ some Ascii.minus →
      (∀ b ∈ rest.head?, Decimal.isDigit b = false) →
      s.unread = junk ++ Utf8.encode (toString n) ++ rest →
      ∃ t, parseInt s = .ok n t ∧ t.unread = rest := by
  have steady := Steady.of_arrived arrived
  refine ⟨steady.parseInt_in_vain, steady.parseInt_overflow, steady.parseInt_number, ?_⟩
  intro n junk rest fits unsigned plain ends whole
  rw [Decimal.encode_toString_int] at whole
  obtain ⟨digits, number, behind⟩ := Decimal.Parts.of_signed (n := n) unsigned plain ends
  rw [← whole] at digits number behind
  have some : (Decimal.Parts.of s.unread).digits ≠ [] := digits ▸ Decimal.digits_ne_nil n.natAbs
  have value : Decimal.value (Decimal.Parts.of s.unread).digits ≤ Decimal.maxInt := by
    rw [digits, Decimal.value_digits]
    exact fits
  obtain ⟨t, r, left, -⟩ := steady.parseInt_number (Decimal.Parts.digits_ne_nil some) value
  exact ⟨t, number ▸ r, left.trans behind⟩

/-- The least number there is, behind another minus sign that was put back; its last bytes came long after
    one another, and nobody has looked since. -/
theorem parseInt_reads_least_number :
    let late := Schedule.spaced 400 0 (Utf8.encode "775807,x")
    let link : Link Unit :=
      { Link.ofDevice () with
        queued := Utf8.encode "b-9223372036854"
        scheduled := ⟨late, Schedule.spaced_ordered 400 0 _⟩
        now := 5000 }
    let s : Stream Unit := ⟨link, some Ascii.minus, 10, 100, .of .blank⟩
    let n : Int := -9223372036854775807
    (∀ a ∈ s.link.scheduled.arrivals, a.time ≤ s.now) ∧
      s.unread = Utf8.encode "-b" ++ Utf8.encode (toString n) ++ Utf8.encode ",x" ∧
      ∃ t, parseInt s = .ok n t ∧ t.unread = Utf8.encode ",x" ∧ t.lookahead = some Ascii.comma := by
  intro late link s n
  have arrived : ∀ a ∈ s.link.scheduled.arrivals, a.time ≤ s.now := by decide
  have whole : s.unread = Utf8.encode "-b" ++ Utf8.encode (toString n) ++ Utf8.encode ",x" := by
    decide
  obtain ⟨-, -, first, written⟩ := parseInt_reads_first_digits arrived
  have unsigned : ∀ b ∈ Utf8.encode "-b", Decimal.isDigit b = false := by
    rw [show Utf8.encode "-b" = [Ascii.minus, 0x62] by decide]
    rintro b (_ | ⟨_, _ | ⟨_, ⟨⟩⟩⟩) <;> decide
  have ends : ∀ b ∈ (Utf8.encode ",x").head?, Decimal.isDigit b = false := by
    intro b hb
    obtain rfl : Ascii.comma = b := Option.some.inj hb
    decide
  obtain ⟨t, r, left⟩ := written n _ _ (by decide) unsigned (by decide) ends whole
  obtain ⟨u, r', -, back⟩ := first ⟨0x39, by decide, by decide⟩ (by decide)
  obtain rfl : t = u := (EStateM.Result.ok.inj (r.symm.trans r')).2
  exact ⟨arrived, whole, t, r, left, back⟩

end Stream
end AtModem
