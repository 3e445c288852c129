/-
  Text comes back from its bytes.

  Decoding is lossy in general, but not on what encoding yields: the bytes of a character are read as
  that character and nothing else (`next_encodeChar`), so a text is read as itself, and no two texts have
  the same bytes.  A byte below 0x80 stands for a character of its own wherever it occurs.

  What is not the bytes of a text grows when it is decoded, since the replacement for an ill-formed piece
  is longer than most of these pieces; at worst it comes to three times its length.
-/
import AtModem.Text.Utf8

namespace AtModem.Utf8

theorem encode_eq (s : String) : encode s = s.toList.flatMap String.utf8EncodeChar := by
  obtain ⟨cs, rfl⟩ : ∃ cs, s = String.ofList cs := ⟨s.toList, String.ofList_toList.symm⟩
  show (String.ofList cs).toByteArray.data.toList = _
  rw [String.toByteArray_ofList, List.utf8Encode, List.toList_data_toByteArray, String.toList_ofList]

/-! ## The first byte of a sequence -/

/-- The first byte of two gives five bits of the character. -/
theorem lead_two {x : Nat} (low : 2 ≤ x) (high : x < 32) :
    lead? (UInt8.ofNat (x + 192)) = some ⟨x, 0x80, 0xBF, 0⟩ := by
  have all : ∀ x : Fin 32, 2 ≤ x.val → lead? (UInt8.ofNat (x.val + 192)) = some ⟨x, 0x80, 0xBF, 0⟩ := by
    decide
  exact all ⟨x, high⟩ low

/-- The first byte of three gives four, and what may follow excludes what is too short or a
    surrogate. -/
theorem lead_three {x : Nat} (high : x < 16) :
    lead? (UInt8.ofNat (x + 224)) =
      some ⟨x, if x = 0 then 0xA0 else 0x80, if x = 13 then 0x9F else 0xBF, 1⟩ := by
  have all : ∀ x : Fin 16, lead? (UInt8.ofNat (x.val + 224)) =
      some ⟨x, if x.val = 0 then 0xA0 else 0x80, if x.val = 13 then 0x9F else 0xBF, 1⟩ := by
    decide
  exact all ⟨x, high⟩

/-- The first byte of four gives three, and what may follow excludes what is too short or too
    great. -/
theorem lead_four {x : Nat} (high : x < 5) :
    lead? (UInt8.ofNat (x + 240)) =
      some ⟨x, if x = 0 then 0x90 else 0x80, if x = 4 then 0x8F else 0xBF, 2⟩ := by
  have all : ∀ x : Fin 5, lead? (UInt8.ofNat (x.val + 240)) =
      some ⟨x, if x.val = 0 then 0x90 else 0x80, if x.val = 4 then 0x8F else 0xBF, 2⟩ := by
    decide
  exact all ⟨x, high⟩

/-! ## The bytes behind it -/

theorem toNat_tail {y : Nat} (h : y < 64) : (UInt8.ofNat (y + 128)).toNat = y + 128 := by
  rw [UInt8.toNat_ofNat']
  omega

/-- Each of them adds its six bits to those before. -/
theorem tails_cons {n acc y : Nat} (h : y < 64) (bs : Bytes) :
    tails (n + 1) acc (UInt8.ofNat (y + 128) :: bs) = tails n (acc * 64 + y) bs := by
  have t := toNat_tail h
  have range : 0x80 ≤ UInt8.ofNat (y + 128) ∧ UInt8.ofNat (y + 128) ≤ 0xBF := by
    rw [UInt8.le_iff_toNat_le, UInt8.le_iff_toNat_le, t]
    constructor
    · show 128 ≤ y + 128
      omega
    · show y + 128 ≤ 191
      omega
  rw [tails, if_pos range, t]
  congr 2
  omega

/-! ## Characters -/

/-- A byte from 0x80 on is no character of its own. -/
theorem not_ascii {m : Nat} (low : 128 ≤ m) (high : m < 256) : ¬UInt8.ofNat m < 0x80 := by
  rw [UInt8.lt_iff_toNat_lt, UInt8.toNat_ofNat']
  show ¬m % 256 < 128
  omega

/-- A first byte that promises more, and a second one that it allows, give the character of all
    their bits. -/
theorem next_of_lead {b : UInt8} {l : Lead} {y : Nat} (high : ¬b < 0x80) (lead : lead? b = some l)
    (y_lt : y < 64) (ge : l.low.toNat ≤ y + 128) (le : y + 128 ≤ l.high.toNat)
    {bs rest : Bytes} {n : Nat} (tail : tails l.tails (l.bits * 64 + y) bs = (some n, rest)) :
    next b (UInt8.ofNat (y + 128) :: bs) = (Char.ofNat n, rest) := by
  have range : l.low ≤ UInt8.ofNat (y + 128) ∧ UInt8.ofNat (y + 128) ≤ l.high := by
    rw [UInt8.le_iff_toNat_le, UInt8.le_iff_toNat_le, toNat_tail y_lt]
    exact ⟨ge, le⟩
  have t : (UInt8.ofNat (y + 128)).toNat % 64 = y := by
    rw [toNat_tail y_lt]
    omega
  unfold next
  rw [if_neg high]
  simp only [lead, range, and_self, ↓reduceIte, t, tail]

theorem next_one {v : Nat} (h : v ≤ 127) (rest : Bytes) :
    next (UInt8.ofNat v) rest = (Char.ofNat v, rest) := by
  have value : (UInt8.ofNat v).toNat = v := by
    rw [UInt8.toNat_ofNat']
    omega
  have ascii : UInt8.ofNat v < 0x80 := by
    rw [UInt8.lt_iff_toNat_lt, value]
    show v < 128
    omega
  unfold next
  rw [if_pos ascii, value]

theorem next_two {v : Nat} (low : 127 < v) (high : v ≤ 2047) (rest : Bytes) :
    next (UInt8.ofNat (v / 64 % 32 + 192)) (UInt8.ofNat (v % 64 + 128) :: rest) =
      (Char.ofNat v, rest) := by
  have lead := lead_two (x := v / 64 % 32) (by omega) (by omega)
  have sum : v / 64 % 32 * 64 + v % 64 = v := by omega
  refine next_of_lead (not_ascii (by omega) (by omega)) lead (by omega) ?_ ?_ (by rw [sum]; rfl)
  · show 128 ≤ v % 64 + 128
    omega
  · show v % 64 + 128 ≤ 191
    omega

/-- The second of three bytes has a narrower range where the sequence would be too long or stand for a
    surrogate. -/
theorem next_three {v : Nat} (low : 2047 < v) (high : v ≤ 65535) (valid : v < 0xD800 ∨ 0xDFFF < v)
    (rest : Bytes) :
    next (UInt8.ofNat (v / 4096 % 16 + 224))
        (UInt8.ofNat (v / 64 % 64 + 128) :: UInt8.ofNat (v % 64 + 128) :: rest) =
      (Char.ofNat v, rest) := by
  have lead := lead_three (x := v / 4096 % 16) (by omega)
  have sum : (v / 4096 % 16 * 64 + v / 64 % 64) * 64 + v % 64 = v := by omega
  have tail : tails 1 (v / 4096 % 16 * 64 + v / 64 % 64) (UInt8.ofNat (v % 64 + 128) :: rest) =
      (some v, rest) := by
    rw [tails_cons (by omega), sum]
    rfl
  refine next_of_lead (not_ascii (by omega) (by omega)) lead (by omega) ?_ ?_ tail
  -- not too small for three bytes
  · show UInt8.toNat (if v / 4096 % 16 = 0 then 0xA0 else 0x80) ≤ v / 64 % 64 + 128
    split
    · show 160 ≤ v / 64 % 64 + 128
      omega
    · show 128 ≤ v / 64 % 64 + 128
      omega
  -- and not among the surrogates
  · show v / 64 % 64 + 128 ≤ UInt8.toNat (if v / 4096 % 16 = 13 then 0x9F else 0xBF)
    split
    · show v / 64 % 64 + 128 ≤ 159
      omega
    · show v / 64 % 64 + 128 ≤ 191
      omega

/-- The second of four bytes has a narrower range where the sequence would be too long or beyond the last
    code point. -/
theorem next_four {v : Nat} (low : 65535 < v) (high : v < 0x110000) (rest : Bytes) :
    next (UInt8.ofNat (v / 262144 % 8 + 240))
        (UInt8.ofNat (v / 4096 % 64 + 128) ::
          UInt8.ofNat (v / 64 % 64 + 128) :: UInt8.ofNat (v % 64 + 128) :: rest) =
      (Char.ofNat v, rest) := by
  have lead := lead_four (x := v / 262144 % 8) (by omega)
  have sum : ((v / 262144 % 8 * 64 + v / 4096 % 64) * 64 + v / 64 % 64) * 64 + v % 64 = v := by
    omega
  have tail : tails 2 (v / 262144 % 8 * 64 + v / 4096 % 64)
      (UInt8.ofNat (v / 64 % 64 + 128) :: UInt8.ofNat (v % 64 + 128) :: rest) = (some v, rest) := by
    rw [tails_cons (by omega), tails_cons (by omega), sum]
    rfl
  refine next_of_lead (not_ascii (by omega) (by omega)) lead (by omega) ?_ ?_ tail
  -- not too small for four bytes
  · show UInt8.toNat (if v / 262144 % 8 = 0 then 0x90 else 0x80) ≤ v / 4096 % 64 + 128
    split
    · show 144 ≤ v / 4096 % 64 + 128
      omega
    · show 128 ≤ v / 4096 % 64 + 128
      omega
  -- and not beyond the last code point
  · show v / 4096 % 64 + 128 ≤ UInt8.toNat (if v / 262144 % 8 = 4 then 0x8F else 0xBF)
    split
    · show v / 4096 % 64 + 128 ≤ 143
      omega
    · show v / 4096 % 64 + 128 ≤ 191
      omega

/-- The bytes of a character are read as that character, one case for each length; what stands
    behind them is left.  By it encoding and decoding are inverse to each other, text by text. -/
theorem next_encodeChar (c : Char) (rest : Bytes) :
    ∃ b bs, String.utf8EncodeChar c = b :: bs ∧ next b (bs ++ rest) = (c, rest) := by
  have self : Char.ofNat c.val.toNat = c := Char.ofNat_toNat c
  have valid : c.val.toNat < 0xD800 ∨ 0xDFFF < c.val.toNat ∧ c.val.toNat < 0x110000 := c.valid
  rw [String.utf8EncodeChar]
  generalize c.val.toNat = v at valid self
  rw [← self]
  -- one case for each length of a sequence
  by_cases one : v ≤ 127
  · exact ⟨_, _, if_pos one, next_one one rest⟩
  by_cases two : v ≤ 2047
  · exact ⟨_, _, (if_neg one).trans (if_pos two), next_two (by omega) two rest⟩
  by_cases three : v ≤ 65535
  · exact ⟨_, _, (if_neg one).trans ((if_neg two).trans (if_pos three)),
      next_three (by omega) three (by omega) rest⟩
  · exact ⟨_, _, (if_neg one).trans ((if_neg two).trans (if_neg three)),
      next_four (by omega) (by omega) rest⟩

/-- Characters one after another are read as themselves; by induction on them. -/
theorem chars_flatMap_encodeChar (cs : List Char) :
    chars (cs.flatMap String.utf8EncodeChar) = cs := by
  induction cs with
  | nil => rw [List.flatMap_nil, chars]
  | cons c cs ih =>
    obtain ⟨b, bs, e, r⟩ := next_encodeChar c (cs.flatMap String.utf8EncodeChar)
    rw [List.flatMap_cons, e, List.cons_append, chars, r, ih]

/-- A text comes back from its bytes. -/
theorem decode_encode (s : String) : decode (encode s) = s := by
  rw [decode, encode_eq, chars_flatMap_encodeChar, String.ofList_toList]

theorem encode_injective : Function.Injective encode := fun s t h => by
  rw [← decode_encode s, h, decode_encode]

theorem encode_eq_nil_iff (s : String) : encode s = [] ↔ s = "" :=
  encode_injective.eq_iff' rfl

/-! ## Single bytes -/

theorem toNat_ofNat_byte (b : UInt8) : (Char.ofNat b.toNat).val.toNat = b.toNat := by
  have lt : b.toNat < 256 := UInt8.toNat_lt b
  have valid : b.toNat.isValidChar := .inl (by omega)
  rw [Char.ofNat, dif_pos valid]
  rfl

/-- A byte below 0x80 is in the bytes of its own character only, as all others have only bytes above
    that.  So looking for such a byte in the encoding is looking for the character in the text. -/
theorem mem_encodeChar_iff {b : UInt8} (ascii : b < 0x80) (c : Char) :
    b ∈ String.utf8EncodeChar c ↔ c = Char.ofNat b.toNat := by
  have lt : b.toNat < 128 := UInt8.lt_iff_toNat_lt.mp ascii
  have same : c = Char.ofNat b.toNat ↔ c.val.toNat = b.toNat := by
    constructor
    · rintro rfl
      exact toNat_ofNat_byte b
    · intro e
      rw [← e]
      exact (Char.ofNat_toNat c).symm
  -- the bytes of a longer sequence are all at least 0x80
  have other : ∀ m, 128 ≤ m → m < 256 → b ≠ UInt8.ofNat m := fun m low high e =>
    not_ascii low high (e ▸ ascii)
  rw [same, String.utf8EncodeChar]
  generalize c.val.toNat = v
  split
  · rw [List.mem_singleton]
    constructor
    · rintro rfl
      rw [UInt8.toNat_ofNat']
      omega
    · rintro rfl
      exact (UInt8.ofNat_toNat).symm
  · have no : v ≠ b.toNat := by omega
    simp only [no, iff_false]
    split
    · simp only [List.mem_cons, List.not_mem_nil, or_false, not_or]
      exact ⟨other _ (by omega) (by omega), other _ (by omega) (by omega)⟩
    · split
      · simp only [List.mem_cons, List.not_mem_nil, or_false, not_or]
        exact ⟨other _ (by omega) (by omega), other _ (by omega) (by omega),
          other _ (by omega) (by omega)⟩
      · simp only [List.mem_cons, List.not_mem_nil, or_false, not_or]
        exact ⟨other _ (by omega) (by omega), other _ (by omega) (by omega),
          other _ (by omega) (by omega), other _ (by omega) (by omega)⟩

/-- A byte below 0x80 stands for its character and for nothing else. -/
theorem mem_encode_iff {b : UInt8} (ascii : b < 0x80) (s : String) :
    b ∈ encode s ↔ Char.ofNat b.toNat ∈ s.toList := by
  simp [encode_eq, mem_encodeChar_iff ascii]

/-! ## How long a decoded text is -/

/-- The length of a text is that of its first character and of the rest. -/
theorem utf8ByteSize_cons (c : Char) (cs : List Char) :
    (String.ofList (c :: cs)).utf8ByteSize = c.utf8Size + (String.ofList cs).utf8ByteSize := by
  show (encode (String.ofList (c :: cs))).length = c.utf8Size + (encode (String.ofList cs)).length
  rw [encode_eq, encode_eq, String.toList_ofList, String.toList_ofList, List.flatMap_cons,
    List.length_append, String.length_utf8EncodeChar]

/-- A byte that stands for itself is as long in the text.  What is put for an ill-formed piece has three
    bytes however short the piece is.  No character has more than four, and those that are made of several
    bytes are made of at least two. -/
theorem utf8Size_next_le (b : UInt8) (bs : Bytes) :
    (next b bs).1.utf8Size + 3 * (next b bs).2.length ≤ 3 * (bs.length + 1) := by
  have piece : replacement.utf8Size = 3 := by decide
  unfold next
  split
  -- a byte that stands for itself
  · rename_i ascii
    have one : (Char.ofNat b.toNat).utf8Size = 1 := by
      rw [Char.utf8Size_eq_one_iff, UInt32.le_iff_toNat_le, toNat_ofNat_byte]
      exact Nat.le_of_lt_succ (UInt8.lt_iff_toNat_lt.mp ascii)
    dsimp only
    omega
  · split
    -- the first of several, with its second in range or not
    · rename_i l c rest _
      split
      · have left := length_tails_le l.tails (l.bits * 64 + c.toNat % 64) rest
        rw [List.length_cons]
        split <;> rename_i made <;> rw [made] at left
        · rename_i n _
          have four := Char.utf8Size_le_four (Char.ofNat n)
          dsimp only at left ⊢
          omega
        · dsimp only at left ⊢
          omega
      · dsimp only
        omega
    -- nothing that could begin a character
    · dsimp only
      omega

/-- A decoded text is at most three times as long as what it is made of. -/
theorem utf8ByteSize_decode_le (bs : Bytes) : (decode bs).utf8ByteSize ≤ 3 * bs.length := by
  unfold decode
  fun_induction chars bs with
  | case1 => exact Nat.le_refl 0
  | case2 b bs r ih =>
    have first : r.1.utf8Size + 3 * r.2.length ≤ 3 * (bs.length + 1) := utf8Size_next_le b bs
    rw [utf8ByteSize_cons, List.length_cons]
    omega

/-- Bytes that no sequence begins with come to just that, so the bound is reached.  Each of them
    becomes a replacement character, which has three bytes. -/
theorem utf8ByteSize_decode_replicate (n : Nat) :
    (decode (List.replicate n 0xFF)).utf8ByteSize = 3 * n := by
  unfold decode
  induction n with
  | zero =>
    rw [List.replicate_zero, chars]
    rfl
  | succ n ih =>
    have alone : next 0xFF (List.replicate n 0xFF) = (replacement, List.replicate n 0xFF) := by
      have noLead : lead? 0xFF = none := by decide
      rw [next, if_neg (by decide)]
      intro l c rest lead
      rw [noLead] at lead
      cases lead
    rw [List.replicate_succ, chars, alone, utf8ByteSize_cons, ih]
    show 3 + 3 * n = 3 * (n + 1)
    omega

/-- These are the bytes of a text. -/
def WellFormed (bs : Bytes) : Prop := ∃ s, encode s = bs

theorem WellFormed.utf8ByteSize_decode {bs : Bytes} (h : WellFormed bs) :
    (decode bs).utf8ByteSize = bs.length := by
  obtain ⟨s, rfl⟩ := h
  rw [decode_encode]
  rfl

end AtModem.Utf8
