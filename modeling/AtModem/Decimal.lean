/-
  Decimal numbers on the wire.  A number is a run of ASCII digits; its value is read from the most
  significant digit on, and the device's integers have 64 bits with a sign.
-/
import AtModem.Text.Utf8

namespace AtModem.Decimal

/-- Whether a byte is one of the ten ASCII digits.  Digits of other scripts are not numbers to the
    device. -/
def isDigit (b : UInt8) : Bool := 0x30 ≤ b && b ≤ 0x39

/-- What a digit counts for.  Of a byte that is no digit it says nothing of use, but it is never
    more than the byte itself. -/
def digit (b : UInt8) : Nat := b.toNat - 0x30

/-- The value of a run of digits appended to a number already read. -/
def extend (v : Nat) (ds : Bytes) : Nat := ds.foldl (fun v b => v * 10 + digit b) v

/-- The number that a run of digits is written for, leading zeros or not. -/
def value (ds : Bytes) : Nat := extend 0 ds

/-- The greatest 64-bit integer. -/
def maxInt : Nat := 0x7fffffffffffffff

/-- Digits can be appended all at once or in two parts, since each step needs only the value so
    far. -/
theorem extend_append (v : Nat) (ds es : Bytes) :
    extend v (ds ++ es) = extend (extend v ds) es := by
  simp [extend]

/-- A digit more never makes a number smaller, so a number that has outgrown 64 bits stays too
    great. -/
theorem le_extend (v : Nat) (ds : Bytes) : v ≤ extend v ds := by
  induction ds generalizing v with
  | nil => exact Nat.le_refl v
  | cons d ds ih => exact Nat.le_trans (by omega) (ih (v * 10 + digit d))

/-- The value of a run of digits is that of its first one, with the others appended. -/
theorem extend_digit (d : UInt8) (ds : Bytes) : extend (digit d) ds = value (d :: ds) := by
  simp [value, extend]

theorem toNat_le_maxInt (b : UInt8) : b.toNat ≤ maxInt := by
  have small := b.toNat_lt
  unfold maxInt
  omega

end AtModem.Decimal
