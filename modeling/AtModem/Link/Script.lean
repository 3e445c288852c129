/-
  A device that answers from a script.

  The script is a list of rules.  A rule tests the text of a line and holds a reply; it may be good
  for a limited number of answers.  The first rule that fits and is not used up answers; if there is
  none, a fixed fallback does, at once.
-/
import AtModem.Link

namespace AtModem

/-- What a rule asks of a line. -/
inductive LineTest where
  | exact (text : String)
  | startsWith (text : String)
  | contains (text : String)

/-- Whether `p` stands somewhere in a text. -/
def occursIn (p : List Char) : List Char → Bool
  | [] => p.isEmpty
  | c :: cs => p.isPrefixOf (c :: cs) || occursIn p cs

/-- Whether a line passes the test; a line is compared as text. -/
def LineTest.fits (line : String) : LineTest → Bool
  | exact text => line == text
  | startsWith text => text.toList.isPrefixOf line.toList
  | contains text => occursIn text.toList line.toList

/-- One rule of a script: which lines it is for, what it answers, and how often.  A rule that is
    used up is passed over from then on. -/
structure Rule where
  test : LineTest
  reply : Reply
  /-- How many more answers the rule is good for; `none` is any number. -/
  remaining : Option Nat

namespace Rule

/-- Whether a rule answers a line: it is for it, and it is not used up. -/
def applies (line : String) (r : Rule) : Bool := r.remaining != some 0 && r.test.fits line

/-- The rule after it has answered once. -/
def used (r : Rule) : Rule := { r with remaining := r.remaining.map (· - 1) }

end Rule

/-- A script with the bytes that are answered to every line that no rule is for. -/
structure Script where
  rules : List Rule
  fallback : Bytes

namespace Script

/-- A device that never answers. -/
def silent : Script := ⟨[], []⟩

/-- The reply of the first rule that applies, and the rules after that.  Only the rule that answers
    is changed. -/
def consult (line : String) : List Rule → Option (Reply × List Rule)
  | [] => none
  | r :: rs =>
    if r.applies line then some (r.reply, r.used :: rs)
    else (consult line rs).map fun (reply, rs) => (reply, r :: rs)

/-- The device looks its rules through from the first on, and the one that answers is counted
    down. -/
def answer (s : Script) (line : Bytes) : Script × Reply :=
  match consult (Utf8.decode line) s.rules with
  | some (reply, rules) => ({ s with rules }, reply)
  | none => (s, .now s.fallback)

instance : Device Script where
  answer := answer

end Script
end AtModem
