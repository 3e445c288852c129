/-
  Bytes as hexadecimal text: two lower-case digits a byte, and the bytes that such a text stands for.
-/
import AtModem.Text.Utf8

namespace AtModem.Hex

/-- The digit of a value below sixteen. -/
def digit (n : Nat) : Char := if n < 10 then Char.ofNat (n + 48) else Char.ofNat (n + 87)

/-- Every byte as two digits, the higher half first, one byte behind the other. -/
def encode (bs : Bytes) : String :=
  String.ofList (bs.flatMap fun b => [digit (b.toNat / 16), digit (b.toNat % 16)])

example : encode [0x4F, 0x4B, 0x0D, 0x0A] = "4f4b0d0a" := by decide

/-- The value of a digit. -/
def value (c : Char) : Option Nat :=
  if '0' ≤ c ∧ c ≤ '9' then some (c.toNat - 48)
  else if 'a' ≤ c ∧ c ≤ 'f' then some (c.toNat - 87)
  else none

/-- Two digits a byte, the higher half first; an odd digit at the end is no byte. -/
def bytes : List Char → Option Bytes
  | [] => some []
  | high :: low :: rest => do
    return UInt8.ofNat ((← value high) * 16 + (← value low)) :: (← bytes rest)
  | [_] => none

/-- Reads a text back, if it is digits in pairs. -/
def decode (text : String) : Option Bytes := bytes text.toList

/-- A digit has the value that it was written for. -/
theorem value_digit : ∀ n < 16, value (digit n) = some n := by decide

/-- What was written is read back as it was. -/
theorem decode_encode (bs : Bytes) : decode (encode bs) = some bs := by
  rw [decode, encode, String.toList_ofList]
  induction bs with
  | nil => rfl
  | cons b bs ih =>
    have := b.toNat_lt
    have whole : b.toNat / 16 * 16 + b.toNat % 16 = b.toNat := by omega
    rw [List.flatMap_cons, List.cons_append, List.cons_append, List.nil_append, bytes,
      value_digit _ (by omega), value_digit _ (by omega), ih]
    show some (UInt8.ofNat (b.toNat / 16 * 16 + b.toNat % 16) :: bs) = _
    rw [whole, UInt8.ofNat_toNat]

end AtModem.Hex
