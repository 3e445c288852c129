/-
  What a plain scalar means.

  A document's leaves are text.  Whether such a text is a number, a truth value or nothing at all is
  asked only where one is wanted, and only of a plain scalar: a quoted one is always text.
-/

namespace AtModem.Yaml

/-- A leaf of a document: its text, and whether it was written without quotes. -/
structure Scalar where
  plain : Bool
  text : String
  deriving DecidableEq, Repr

namespace Scalar

/-- A plain scalar without any text, which is also what stands where a value was left out. -/
def blank : Scalar := ⟨true, ""⟩

/-- Whether a value was left out, or there is nothing in it. -/
def isBlank (s : Scalar) : Bool := s.plain && s.text.isEmpty

/-- Whether the scalar is the null value, or left out. -/
def isNull (s : Scalar) : Bool := s.plain && ["", "~", "null", "Null", "NULL"].contains s.text

/-- The truth value that a plain scalar is written for; three spellings of each. -/
def bool? (s : Scalar) : Option Bool :=
  if !s.plain then none
  else if ["true", "True", "TRUE"].contains s.text then some true
  else if ["false", "False", "FALSE"].contains s.text then some false
  else none

/-! ## Integers -/

/-- The value of a digit in some base. -/
def digit? (base : Nat) (c : Char) : Option Nat :=
  let n :=
    if '0' ≤ c ∧ c ≤ '9' then c.toNat - 48
    else if 'a' ≤ c ∧ c ≤ 'z' then c.toNat - 87
    else if 'A' ≤ c ∧ c ≤ 'Z' then c.toNat - 55
    else base
  if n < base then some n else none

/-- The value of a text made of digits only, at least one. -/
def digits? (base : Nat) : List Char → Option Nat
  | [] => none
  | cs => cs.foldlM (fun v c => (digit? base c).map (v * base + ·)) 0

/-- A zero before further decimal digits makes a text, not a number. -/
def hasLeadingZero : List Char → Bool
  | '0' :: c :: cs => (c :: cs).all fun c => '0' ≤ c && c ≤ '9'
  | _ => false

/-- Digits after a mark that tells the base, or decimal ones. -/
def magnitude? : List Char → Option Nat
  | '0' :: 'x' :: cs => digits? 16 cs
  | '0' :: 'o' :: cs => digits? 8 cs
  | '0' :: 'b' :: cs => digits? 2 cs
  | cs => if hasLeadingZero cs then none else digits? 10 cs

/-- A number without a minus sign. -/
def nat? (s : Scalar) : Option Nat :=
  if !s.plain then none
  else
    match s.text.toList with
    | '+' :: cs => magnitude? cs
    | cs => magnitude? cs

/-- A number with or without a sign. -/
def int? (s : Scalar) : Option Int :=
  match s.nat? with
  | some n => some n
  | none =>
    if !s.plain then none
    else
      match s.text.toList with
      | '-' :: cs => (magnitude? cs).map fun n => -(n : Int)
      | _ => none

example : nat? ⟨true, "0x10"⟩ = some 16 := by decide
example : nat? ⟨true, "+5"⟩ = some 5 := by decide
example : nat? ⟨true, "007"⟩ = none := by decide
example : nat? ⟨true, "1.5"⟩ = none := by decide
example : int? ⟨true, "-0"⟩ = some 0 := by decide
example : nat? ⟨false, "4"⟩ = none := by decide

end Scalar
end AtModem.Yaml
