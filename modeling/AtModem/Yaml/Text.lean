/-
  The characters of a document, and where they stand.

  A line ends at a line feed, a carriage return, both together, or a next-line character, and these
  are all one; or at a line or a paragraph separator, which stay what they are.  A mark of the byte
  order may open a line, where it takes a column of its own.
-/

namespace AtModem.Yaml

/-! ## Characters -/

/-- The characters a document may hold. -/
def isAllowed (c : Char) : Bool :=
  let n := c.toNat
  n = 0x09 || n = 0x0A || n = 0x0D || (0x20 ≤ n && n ≤ 0x7E) || n = 0x85
    || (0xA0 ≤ n && n ≤ 0xFFFD) || 0x10000 ≤ n

/-- The text with every line's end that has no meaning of its own as a line feed. -/
def unifyBreaks : List Char → List Char
  | [] => []
  | '\r' :: '\n' :: cs => '\n' :: unifyBreaks cs
  | c :: cs => (if c = '\r' || c = '\u0085' then '\n' else c) :: unifyBreaks cs

/-- What ends a line, once the other forms of it are unified. -/
def isBreak (c : Char) : Bool := c = '\n' || c = '\u2028' || c = '\u2029'

/-- What stands between words on one line. -/
def isSpace (c : Char) : Bool := c = ' ' || c = '\t'

/-- The mark of the byte order. -/
def isOrderMark (c : Char) : Bool := c = '\uFEFF'

/-- Whether blank space, a line's end or the text's end comes next. -/
def endsHere : List Char → Bool
  | [] => true
  | c :: _ => isSpace c || isBreak c

/-- Whether three of the character come next, by themselves. -/
def isTriple (c : Char) (cs : List Char) : Bool :=
  [c, c, c].isPrefixOf cs && endsHere (cs.drop 3)

/-- Whether a mark comes next that opens or ends a document, if it is at the start of a line. -/
def isDocumentMark (cs : List Char) : Bool := isTriple '-' cs || isTriple '.' cs

/-- The brackets and the comma, which mean something anywhere inside brackets. -/
def isFlowMark (c : Char) : Bool := [',', '[', ']', '{', '}'].contains c

/-- The marks with which a plain scalar cannot begin. -/
def isMark (c : Char) : Bool :=
  isFlowMark c || ['#', '&', '*', '!', '|', '>', '\'', '"', '%', '@', '\x60'].contains c

/-! ## Places -/

/-- Where a character stands. -/
structure Place where
  line : Nat
  /-- How many characters come before it on its line. -/
  column : Nat
  /-- How many bytes these characters take in UTF-8. -/
  offset : Nat
  deriving DecidableEq, Repr

namespace Place

/-- The beginning of a text. -/
def start : Place := ⟨0, 0, 0⟩

/-- The place behind a character that does not end the line. -/
def past (p : Place) (c : Char) : Place :=
  { p with column := p.column + 1, offset := p.offset + c.utf8Size }

/-- The place behind `n` characters of ASCII on the same line. -/
def move (p : Place) (n : Nat) : Place := { p with column := p.column + n, offset := p.offset + n }

/-- The place behind a line's end. -/
def nextLine (p : Place) : Place := ⟨p.line + 1, 0, 0⟩

end Place

/-- What is left of a text, and where it stands. -/
structure Cursor where
  place : Place
  rest : List Char

/-- What is left behind the next `n` characters, which are of ASCII and hold no line's end. -/
def Cursor.move (here : Cursor) (n : Nat) : Cursor := ⟨here.place.move n, here.rest.drop n⟩

end AtModem.Yaml
