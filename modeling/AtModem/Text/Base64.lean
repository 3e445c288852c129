/-
  Base64 with padding: three bytes become four letters of six bits each, and a last group of one
  or two bytes is filled up with `=`.

  The letters say which bytes they stand for: `decode` takes them back a group at a time, and it gives
  back every list of bytes as it was (`decode_encode`).
-/
import AtModem.Text.Utf8

namespace AtModem.Base64

/-! ## Writing -/

/-- The letter of a six-bit value. -/
def letter (n : Nat) : Char :=
  if n < 26 then Char.ofNat (n + 65)
  else if n < 52 then Char.ofNat (n + 71)
  else if n < 62 then Char.ofNat (n - 4)
  else if n = 62 then '+'
  else '/'

/-- Twenty-four bits at a time, most significant first; the bits that a short last group has to spare
    are zero. -/
def letters : Bytes → List Char
  | [] => []
  | [a] => [letter (a.toNat / 4), letter (a.toNat % 4 * 16), '=', '=']
  | [a, b] =>
    [letter (a.toNat / 4), letter (a.toNat % 4 * 16 + b.toNat / 16), letter (b.toNat % 16 * 4), '=']
  | a :: b :: c :: rest =>
    letter (a.toNat / 4) :: letter (a.toNat % 4 * 16 + b.toNat / 16)
      :: letter (b.toNat % 16 * 4 + c.toNat / 64) :: letter (c.toNat % 64) :: letters rest

/-- The whole text.  It is a third longer than the bytes, rounded up to a group of four letters. -/
def encode (bs : Bytes) : String := String.ofList (letters bs)

example : encode (Utf8.encode "user:pass") = "dXNlcjpwYXNz" := by decide
example : encode (Utf8.encode "a:b") = "YTpi" := by decide
example : encode (Utf8.encode "ab") = "YWI=" := by decide
example : encode (Utf8.encode "a") = "YQ==" := by decide

/-! ## Reading back -/

/-- The six-bit value of a letter; the fill letter has none. -/
def value (c : Char) : Option Nat :=
  if 'A' ≤ c ∧ c ≤ 'Z' then some (c.toNat - 65)
  else if 'a' ≤ c ∧ c ≤ 'z' then some (c.toNat - 71)
  else if '0' ≤ c ∧ c ≤ '9' then some (c.toNat + 4)
  else if c = '+' then some 62
  else if c = '/' then some 63
  else none

/-- The bytes of one group, as many as it has not been filled up for.  A fill letter in any other
    place is no letter, and then there are no bytes. -/
def group (a b c d : Char) : Option Bytes := do
  let a ← value a
  let b ← value b
  let first := UInt8.ofNat (a * 4 + b / 16)
  if c = '=' ∧ d = '=' then return [first]
  let c ← value c
  let second := UInt8.ofNat (b * 16 + c / 4)
  if d = '=' then return [first, second]
  let d ← value d
  return [first, second, UInt8.ofNat (c * 64 + d)]

/-- The bytes of the letters; only the last group can have been filled up. -/
def bytes : List Char → Option Bytes
  | [] => some []
  | a :: b :: c :: d :: rest => do
    let taken ← group a b c d
    if d = '=' ∧ rest ≠ [] then none
    return taken ++ (← bytes rest)
  | _ => none

/-- Reads a text back, if it is one that bytes are written as: whole groups of letters, of which
    only the last is filled up. -/
def decode (text : String) : Option Bytes := bytes text.toList

/-- A letter has the value that it was written for, which is all that ties the two tables
    together. -/
theorem value_letter : ∀ n < 64, value (letter n) = some n := by decide

/-- The fill letter stands for no value, so it can be told from a letter of the last group. -/
theorem letter_ne_fill : ∀ n < 64, letter n ≠ '=' := by decide

section

variable {x y z w : Nat}

/-! What a group says, by how far it was filled up. -/

/-- A group that was not filled up holds three bytes. -/
theorem group_three (hx : x < 64) (hy : y < 64) (hz : z < 64) (hw : w < 64) :
    group (letter x) (letter y) (letter z) (letter w) =
      some [UInt8.ofNat (x * 4 + y / 16), UInt8.ofNat (y * 16 + z / 4), UInt8.ofNat (z * 64 + w)] := by
  simp only [group, value_letter x hx, value_letter y hy, value_letter z hz, value_letter w hw,
    letter_ne_fill w hw, and_false, ↓reduceIte]
  rfl

theorem group_two (hx : x < 64) (hy : y < 64) (hz : z < 64) :
    group (letter x) (letter y) (letter z) '=' =
      some [UInt8.ofNat (x * 4 + y / 16), UInt8.ofNat (y * 16 + z / 4)] := by
  simp only [group, value_letter x hx, value_letter y hy, value_letter z hz, letter_ne_fill z hz,
    false_and, ↓reduceIte]
  rfl

/-- Two fill letters leave one, and its last four bits are ignored. -/
theorem group_one (hx : x < 64) (hy : y < 64) :
    group (letter x) (letter y) '=' '=' = some [UInt8.ofNat (x * 4 + y / 16)] := by
  simp only [group, value_letter x hx, value_letter y hy, and_self, ↓reduceIte]
  rfl

end

/-- A byte is put together from any number that agrees with it in eight bits. -/
theorem ofNat_eq {b : UInt8} {n : Nat} (h : n % 256 = b.toNat) : UInt8.ofNat n = b := by
  rw [← UInt8.toNat_inj, UInt8.toNat_ofNat']
  exact h

/-- The groups are cut as they were joined, and the bits of each make the bytes that they came from. -/
theorem bytes_letters (bs : Bytes) : bytes (letters bs) = some bs := by
  -- one case for each length of the last group, and one for a group that others follow
  fun_induction letters bs with
  | case1 => rfl
  | case2 a =>
    have := a.toNat_lt
    have first : UInt8.ofNat (a.toNat / 4 * 4 + a.toNat % 4 * 16 / 16) = a := ofNat_eq (by omega)
    rw [bytes, group_one (by omega) (by omega), first]
    rfl
  | case3 a b =>
    have := a.toNat_lt
    have := b.toNat_lt
    have first : UInt8.ofNat (a.toNat / 4 * 4 + (a.toNat % 4 * 16 + b.toNat / 16) / 16) = a :=
      ofNat_eq (by omega)
    have second : UInt8.ofNat ((a.toNat % 4 * 16 + b.toNat / 16) * 16 + b.toNat % 16 * 4 / 4) = b :=
      ofNat_eq (by omega)
    rw [bytes, group_two (by omega) (by omega) (by omega), first, second]
    rfl
  | case4 a b c rest ih =>
    have := a.toNat_lt
    have := b.toNat_lt
    have := c.toNat_lt
    have first : UInt8.ofNat (a.toNat / 4 * 4 + (a.toNat % 4 * 16 + b.toNat / 16) / 16) = a :=
      ofNat_eq (by omega)
    have second : UInt8.ofNat ((a.toNat % 4 * 16 + b.toNat / 16) * 16 +
        (b.toNat % 16 * 4 + c.toNat / 64) / 4) = b := ofNat_eq (by omega)
    have third : UInt8.ofNat ((b.toNat % 16 * 4 + c.toNat / 64) * 64 + c.toNat % 64) = c :=
      ofNat_eq (by omega)
    have unfilled := letter_ne_fill (c.toNat % 64) (by omega)
    rw [bytes, group_three (by omega) (by omega) (by omega) (by omega), first, second, third, ih]
    simp only [unfilled, false_and, ↓reduceIte]
    rfl

/-- What was written is read back as it was. -/
theorem decode_encode (bs : Bytes) : decode (encode bs) = some bs := by
  rw [decode, encode, String.toList_ofList]
  exact bytes_letters bs

example : decode "YWI=" = some (Utf8.encode "ab") := by decide

end AtModem.Base64
