/-
  Text and the bytes it travels as.

  Commands and patterns are text; the link carries bytes.  `Utf8.encode` takes text to its UTF-8
  bytes, and a text may stand wherever bytes are expected.  The other direction is lossy: a device
  may send anything, so `Utf8.decode` reads the longest well-formed sequences it can and puts one
  replacement character for each maximal ill-formed piece, that is, for the longest run of bytes
  that begins like a sequence and then breaks off, or for a single byte that cannot begin one.
-/

namespace AtModem

/-- What travels on the link. -/
abbrev Bytes := List UInt8

namespace Ascii

/-- The line feed. -/
def lf : UInt8 := 0x0A

/-- The carriage return. -/
def cr : UInt8 := 0x0D

/-- The comma, which keeps parameters apart. -/
def comma : UInt8 := 0x2C

/-- The minus sign. -/
def minus : UInt8 := 0x2D

end Ascii

namespace Utf8

/-! ## Text to bytes -/

/-- The bytes of a text.  Every text has an encoding, so this cannot fail. -/
def encode (s : String) : Bytes := s.toUTF8.data.toList

/-- The bytes of two texts are those of the one and those of the other, so a pattern may be cut into
    parts. -/
theorem encode_append (s t : String) : encode (s ++ t) = encode s ++ encode t := by
  simp [encode]

instance : Coe String Bytes := ⟨encode⟩

/-! ## Bytes to text -/

/-- What stands for an ill-formed piece. -/
def replacement : Char := '\uFFFD'

/-- What the first byte of a longer sequence promises: the bits it carries itself, the range of
    the byte after it, and how many plain continuation bytes follow that one. -/
structure Lead where
  bits : Nat
  low : UInt8
  high : UInt8
  tails : Nat
  deriving DecidableEq

/-- The first bytes that can open a sequence.  The narrowed ranges keep out overlong forms,
    surrogates and everything above the last code point. -/
def lead? (b : UInt8) : Option Lead :=
  if b < 0xC2 then none
  else if b ≤ 0xDF then some ⟨b.toNat - 0xC0, 0x80, 0xBF, 0⟩
  else if b = 0xE0 then some ⟨0, 0xA0, 0xBF, 1⟩
  else if b = 0xED then some ⟨0xD, 0x80, 0x9F, 1⟩
  else if b ≤ 0xEF then some ⟨b.toNat - 0xE0, 0x80, 0xBF, 1⟩
  else if b = 0xF0 then some ⟨0, 0x90, 0xBF, 2⟩
  else if b ≤ 0xF3 then some ⟨b.toNat - 0xF0, 0x80, 0xBF, 2⟩
  else if b = 0xF4 then some ⟨4, 0x80, 0x8F, 2⟩
  else none

/-- Six more bits from each of `n` continuation bytes; nothing if one of them is missing.  The
    bytes that did fit are used up either way. -/
def tails : Nat → Nat → Bytes → Option Nat × Bytes
  | 0, acc, bs => (some acc, bs)
  | _ + 1, _, [] => (none, [])
  | n + 1, acc, b :: bs =>
    if 0x80 ≤ b ∧ b ≤ 0xBF then tails n (acc * 64 + b.toNat % 64) bs else (none, b :: bs)

/-- Continuation bytes are used up and none are made. -/
theorem length_tails_le (n acc : Nat) (bs : Bytes) : (tails n acc bs).2.length ≤ bs.length := by
  induction n generalizing acc bs with
  | zero => simp [tails]
  | succ n ih =>
    cases bs with
    | nil => simp [tails]
    | cons b bs =>
      unfold tails
      split
      · exact Nat.le_trans (ih _ _) (by simp)
      · simp

/-- The character that the byte `b` opens, and the bytes that are left. -/
def next (b : UInt8) (bs : Bytes) : Char × Bytes :=
  if b < 0x80 then (Char.ofNat b.toNat, bs)
  else
    match lead? b, bs with
    | some l, c :: rest =>
      if l.low ≤ c ∧ c ≤ l.high then
        match tails l.tails (l.bits * 64 + c.toNat % 64) rest with
        | (some n, rest) => (Char.ofNat n, rest)
        | (none, rest) => (replacement, rest)
      else (replacement, bs)
    | _, _ => (replacement, bs)

/-- No more bytes are left than stood behind the first, which is why reading a text comes to an
    end. -/
theorem length_next_le (b : UInt8) (bs : Bytes) : (next b bs).2.length ≤ bs.length := by
  unfold next
  split
  · simp
  · split
    · split
      · rename_i l c rest _ _
        have h := length_tails_le l.tails (l.bits * 64 + c.toNat % 64) rest
        split <;> rename_i e <;> rw [e] at h <;> simp at h ⊢ <;> omega
      · simp
    · simp

/-- The characters of a byte sequence, a replacement for each maximal ill-formed piece.  It is
    total: there is no input for which decoding fails. -/
def chars : Bytes → List Char
  | [] => []
  | b :: bs =>
    let r := next b bs
    r.1 :: chars r.2
termination_by bs => bs.length
decreasing_by exact Nat.lt_succ_of_le (length_next_le b bs)

/-- The text that bytes stand for.  It is total: whatever a device sends can be shown, and what is
    well-formed comes out as it was sent. -/
def decode (bs : Bytes) : String := String.ofList (chars bs)

end Utf8
end AtModem
