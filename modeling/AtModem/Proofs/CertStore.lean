/-
  What the store makes of the commands that are sent to it.

  A line that was put together from a name is taken apart into that name again: the quotes around it go,
  and a comma ends it, so the name may contain neither.  The number of bytes in the line that announces
  an upload is read as the number that was written, as long as it has 64 bits.
-/
import AtModem.Link.CertStore
import AtModem.Ssl.Commands
import AtModem.Proofs.Utf8

namespace AtModem.CertStore

/-! ## Lines that are taken apart -/

theorem toList_inQuotes (s : String) : (inQuotes s).toList = '"' :: (s.toList ++ ['"']) := by
  simp [inQuotes]

/-- Taking the quotes off gives the name, if it has none of its own.  With a quote of its own the
    name would lose more than was put around it. -/
theorem unquote_inQuotes {slot : String} (h : '"' ∉ slot.toList) :
    unquote (inQuotes slot).toList = slot := by
  have text : (List.dropWhile (· = '"') (inQuotes slot).toList).rdropWhile (· = '"') = slot.toList := by
    rw [toList_inQuotes, List.dropWhile_cons_of_pos (by decide)]
    cases e : slot.toList with
    | nil => decide
    | cons c cs =>
      rw [e] at h
      have first : c ≠ '"' := fun e => h (e ▸ List.mem_cons_self)
      rw [List.cons_append, List.dropWhile_cons_of_neg (by simpa using first), ← List.cons_append,
        List.rdropWhile_concat_pos _ _ _ (by decide), List.rdropWhile_eq_self_iff]
      intro some quote
      have last : (c :: cs).getLast some = '"' := by simpa using quote
      exact h (last ▸ List.getLast_mem some)
  rw [unquote, text, String.ofList_toList]

/-- A number that was written is read as that number, as long as it has no more than 64 bits.  The
    store reads digits by hand, and the library writes them by `toString`; here the two meet. -/
theorem count?_toString {n : Nat} (h : n < 2 ^ 64) : count? (toString n).toList = some n := by
  have digits : ∀ c ∈ Nat.toDigits 10 n, c.isDigit = true := fun c hc =>
    Nat.isDigit_of_mem_toDigits (by decide) (by decide) hc
  have unsigned : ['+'].isPrefixOf? (Nat.toDigits 10 n) = none := by
    cases e : Nat.toDigits 10 n with
    | nil => rfl
    | cons c cs =>
      have digit := digits c (e ▸ List.mem_cons_self)
      have other : ('+' == c) = false := by
        rw [beq_eq_false_iff_ne]
        rintro rfl
        exact absurd digit (by decide)
      simp [List.isPrefixOf?, other]
  rw [Nat.toString_eq_ofList_toDigits, String.toList_ofList, count?, unsigned, Option.getD_none]
  have value : Nat.ofDigitChars 10 (Nat.toDigits 10 n) 0 = n := Nat.ofDigitChars_ten_toDigits
  rw [value, if_pos ⟨Nat.toDigits_ne_nil, by simpa using digits, h⟩]

theorem isPrefixOf?_toList_append (head rest : String) :
    head.toList.isPrefixOf? (head ++ rest).toList = some rest.toList := by
  rw [List.isPrefixOf?_eq_some_iff_append_eq, String.toList_append]

/-- A line with this beginning is none that does not begin so. -/
theorem append_ne_of_isPrefixOf? {head other : String}
    (h : head.toList.isPrefixOf? other.toList = none) (rest : String) : head ++ rest ≠ other := by
  intro e
  have behind := isPrefixOf?_toList_append head rest
  rw [e, h] at behind
  cases behind

/-- A line that begins otherwise does not begin so; the two beginnings are of one length, so they
    cannot overlap. -/
theorem isPrefixOf?_eq_none {head other : String} (lengths : head.toList.length = other.toList.length)
    (differ : head.toList ≠ other.toList) (rest : String) :
    head.toList.isPrefixOf? (other ++ rest).toList = none := by
  cases e : head.toList.isPrefixOf? (other ++ rest).toList with
  | none => rfl
  | some behind =>
    rw [List.isPrefixOf?_eq_some_iff_append_eq, String.toList_append] at e
    exact absurd (List.append_inj_left e lengths) differ

/-- The line that asks for the names is recognised as a whole. -/
theorem ofLine_list : Request.ofLine "AT+CCERTLIST" = .list := rfl

/-- A removal names its slot, with nothing to be confused about in the name. -/
theorem ofLine_remove {slot : String} (h : '"' ∉ slot.toList) :
    Request.ofLine s!"AT+CCERTDELE={inQuotes slot}" = .remove slot := by
  have unlisted : "AT+CCERTDELE=" ++ inQuotes slot ≠ "AT+CCERTLIST" :=
    append_ne_of_isPrefixOf? (by decide) (inQuotes slot)
  show Request.ofLine ("AT+CCERTDELE=" ++ inQuotes slot) = _
  unfold Request.ofLine
  rw [if_neg unlisted, isPrefixOf?_toList_append]
  show Request.remove _ = _
  rw [unquote_inQuotes h]

/-- An announcement names its slot and the number of bytes; the comma behind the name ends it, which
    is why a name must not have one. -/
theorem ofLine_announce {slot : String} (quote : '"' ∉ slot.toList) (comma : ',' ∉ slot.toList) {n : Nat}
    (h : n < 2 ^ 64) :
    Request.ofLine s!"AT+CCERTDOWN={inQuotes slot},{n}" = .announce slot (some n) := by
  let args := inQuotes slot ++ "," ++ toString n
  have line : s!"AT+CCERTDOWN={inQuotes slot},{n}" = "AT+CCERTDOWN=" ++ args := by
    rw [← String.append_assoc, ← String.append_assoc]
    rfl
  -- it is none of the other commands
  have unlisted : "AT+CCERTDOWN=" ++ args ≠ "AT+CCERTLIST" := append_ne_of_isPrefixOf? (by decide) args
  have kept : "AT+CCERTDELE=".toList.isPrefixOf? ("AT+CCERTDOWN=" ++ args).toList = none :=
    isPrefixOf?_eq_none (by decide) (by decide) args
  -- the comma behind the name is the first one
  have text : args.toList = (inQuotes slot).toList ++ ',' :: (toString n).toList := by
    simp [args]
  have name : ∀ c ∈ (inQuotes slot).toList, decide (c ≠ ',') = true := by
    intro c hc
    rw [decide_eq_true_eq]
    rintro rfl
    rw [toList_inQuotes] at hc
    exact comma (by simpa using hc)
  have front : args.toList.takeWhile (· ≠ ',') = (inQuotes slot).toList := by
    rw [text, List.takeWhile_append_of_pos name]
    simp
  have back : announced args.toList = (toString n).toList := by
    rw [announced, text, if_pos (by simp), List.dropWhile_append_of_pos name]
    simp
  rw [line]
  unfold Request.ofLine
  rw [if_neg unlisted, kept, isPrefixOf?_toList_append]
  show Request.announce _ _ = _
  rw [front, back, unquote_inQuotes quote, count?_toString h]

/-! ## What it answers -/

variable {s : CertStore} {slot : String}

/-- The names are asked for, and the store stays as it is. -/
theorem answer_list (s : CertStore) :
    s.answer (Utf8.encode "AT+CCERTLIST") = (s, .now s.listing) := by
  unfold answer
  rw [Utf8.decode_encode, ofLine_list]

/-- A slot that is taken is removed, and that is confirmed. -/
theorem answer_remove (h : '"' ∉ slot.toList) (taken : slot ∈ s.slots) :
    s.answer (Utf8.encode s!"AT+CCERTDELE={inQuotes slot}") =
      ({ s with slots := s.slots.erase slot }, .now okAnswer) := by
  unfold answer
  rw [Utf8.decode_encode, ofLine_remove h]
  exact if_pos taken

/-- An upload of so many bytes has been announced, and none of them has come. -/
def expecting (s : CertStore) (slot : String) (size : Nat) (some : 0 < size) : CertStore :=
  { s with receiving := .some ⟨slot, size, [], some⟩ }

/-- An upload into a free slot is asked for by the prompt, and from there on the bytes are the
    store's. -/
theorem answer_announce (quote : '"' ∉ slot.toList) (comma : ',' ∉ slot.toList) (free : slot ∉ s.slots)
    {n : Nat} (some : 0 < n) (h : n < 2 ^ 64) :
    s.answer (Utf8.encode s!"AT+CCERTDOWN={inQuotes slot},{n}") =
      (s.expecting slot n some, .now (Utf8.encode "\r\n>")) := by
  obtain ⟨m, rfl⟩ : ∃ m, n = m + 1 := ⟨n - 1, by omega⟩
  unfold answer
  rw [Utf8.decode_encode, ofLine_announce quote comma h]
  exact if_neg free

/-! ## What it does with the bytes of an upload -/

/-- A device with a store in it: the bytes that it takes as they are go to the store.  What is known
    of the store can so be used for devices that have something beside it, such as a record of their
    commands. -/
structure Within {σ : Type} [Device σ] (f : CertStore → σ) : Prop where
  takesRaw (s : CertStore) : Device.takesRaw (f s) = s.receiving.isSome
  take (s : CertStore) (b : UInt8) : Device.take (f s) b = (f (s.take b).1, (s.take b).2)

theorem within_self : Within fun s : CertStore => s := ⟨fun _ => rfl, fun _ _ => rfl⟩

/-- What becomes of an upload does not depend on the store having waited for it. -/
theorem finish_expecting (s : CertStore) (slot : String) {size : Nat} (some : 0 < size) (data : Bytes) :
    (s.expecting slot size some).finish slot data = s.finish slot data := by
  have same : (s.expecting slot size some).refusing = s.refusing := rfl
  unfold finish
  rw [same]
  rfl

section

variable {σ : Type} [Device σ] {f : CertStore → σ} {l : Link σ} {r : Receiving}

/-- While bytes are to come, every one is taken as it is, also one that would end a line. -/
theorem absorb_of_receiving (w : Within f) (h : l.device = f s) (receiving : s.receiving = some r)
    (b : UInt8) : l.absorb b = l.take b := by
  have raw : Device.takesRaw l.device = true := by
    rw [h, w.takesRaw, receiving]
    rfl
  unfold Link.absorb
  rw [if_pos raw]

/-- A byte with which there are still others to come is kept, and nothing is answered. -/
theorem take_of_short (w : Within f) (h : l.device = f s) (receiving : s.receiving = some r) {b : UInt8}
    (short : (r.data ++ [b]).length < r.size) :
    l.take b = { l with
      device := f { s with receiving := some { r with data := r.data ++ [b], short } } } := by
  have one : s.take b =
      ({ s with receiving := some { r with data := r.data ++ [b], short } }, .now []) := by
    unfold CertStore.take
    rw [receiving]
    exact dif_pos short
  unfold Link.take
  rw [h, w.take, one]
  simp [Link.receive, Reply.now]

/-- With the last byte the upload is complete, and the verdict is answered. -/
theorem take_of_last (w : Within f) (h : l.device = f s) (receiving : s.receiving = some r) {b : UInt8}
    (last : ¬(r.data ++ [b]).length < r.size) :
    l.take b = { l with
      device := f (s.finish r.slot (r.data ++ [b])).1
      queued := l.queued ++ (s.finish r.slot (r.data ++ [b])).2 } := by
  have one : s.take b =
      ((s.finish r.slot (r.data ++ [b])).1, .now (s.finish r.slot (r.data ++ [b])).2) := by
    unfold CertStore.take
    rw [receiving]
    exact dif_neg last
  unfold Link.take
  rw [h, w.take, one]
  rfl

/-- The bytes of an upload are taken one after another, whatever they are, and with the last one
    comes the verdict.  By induction on the bytes, with the ones received so far in the state of the
    store. -/
theorem absorbAll_of_receiving {data : Bytes} (w : Within f) (h : l.device = f s)
    (receiving : s.receiving = some r) (more : data ≠ [])
    (all : r.data.length + data.length = r.size) :
    l.absorbAll data = { l with
      device := f (s.finish r.slot (r.data ++ data)).1
      queued := l.queued ++ (s.finish r.slot (r.data ++ data)).2 } := by
  induction data generalizing l s r with
  | nil => exact absurd rfl more
  | cons b data ih =>
    rw [Link.absorbAll_cons, absorb_of_receiving w h receiving]
    by_cases last : data = []
    · subst last
      have full : ¬(r.data ++ [b]).length < r.size := by simp at all ⊢; omega
      rw [take_of_last w h receiving full, Link.absorbAll_nil]
    · have some : 0 < data.length := List.length_pos_of_ne_nil last
      have short : (r.data ++ [b]).length < r.size := by simp at all ⊢; omega
      have rest := ih (l := { l with
          device := f { s with receiving := .some { r with data := r.data ++ [b], short } } })
        (r := { r with data := r.data ++ [b], short }) rfl rfl last (by simp at all ⊢; omega)
      rw [take_of_short w h receiving short, rest]
      simp [List.append_assoc, finish]

/-- All the bytes that were announced, and no others: the store has what was written and says what
    it makes of it. -/
theorem absorbAll_of_expecting {slot : String} {data : Bytes} {some : 0 < data.length} (w : Within f)
    (h : l.device = f (s.expecting slot data.length some)) :
    l.absorbAll data = { l with
      device := f (s.finish slot data).1
      queued := l.queued ++ (s.finish slot data).2 } := by
  have all := absorbAll_of_receiving (r := ⟨slot, data.length, [], some⟩) w h rfl
    (List.ne_nil_of_length_pos some) (Nat.zero_add _)
  rw [all, List.nil_append, finish_expecting]

end

end AtModem.CertStore
