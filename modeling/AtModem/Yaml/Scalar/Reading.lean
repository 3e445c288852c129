/-
  The text of a scalar.

  A scalar may go on over several lines.  The end of a line inside it is a space, or as many line
  feeds as empty lines follow; the blank space around a line's end does not count.

  A plain scalar ends before a colon or a comment that stands for itself, before a mark of the
  document, where the indentation ends, and inside brackets also before their marks.  A quoted one
  ends at its quote.
-/
import AtModem.Yaml.Scalar
import AtModem.Yaml.Text

namespace AtModem.Yaml

/-! ## Between the words -/

/-- What stands between two stretches of a scalar's text. -/
inductive Gap where
  /-- Blank space on one line, newest first. -/
  | blank (cs : List Char)
  /-- The end of a line, unless it is escaped, and those of the empty lines behind, newest first. -/
  | lines (first : Option Char) (more : List Char)

namespace Gap

/-- Two stretches of text with nothing between them. -/
def empty : Gap := .blank []

/-- Whether the two stretches stand side by side. -/
def isEmpty : Gap → Bool
  | .blank cs => cs.isEmpty
  | .lines _ _ => false

/-- Whether the text goes on on another line. -/
def crossesLine : Gap → Bool
  | .blank _ => false
  | .lines _ _ => true

/-- One more blank.  Behind a line's end it is indentation and does not count. -/
def addSpace (c : Char) : Gap → Gap
  | .blank cs => .blank (c :: cs)
  | gap => gap

/-- One more line's end.  Blanks before it were the end of their line and do not count either. -/
def addBreak (c : Char) : Gap → Gap
  | .blank _ => .lines (some c) []
  | .lines first more => .lines first (c :: more)

/-- What the gap leaves in the text, newest first. -/
def folded : Gap → List Char
  | .blank cs => cs
  | .lines (some '\n') [] => [' ']
  | .lines (some '\n') more => more
  | .lines first more => more ++ first.toList

end Gap

namespace Scalar

/-- A scalar, whether it took up the end of a line behind it, and what is left. -/
structure Reading where
  scalar : Scalar
  crossedLine : Bool
  cursor : Cursor

/-! ## Plain scalars -/

/-- Reads on in a plain scalar whose text so far is given newest first.  On a further line it has to
    stand at the column `margin` or behind. -/
def plainFrom (inFlow : Bool) (margin : Nat) (p : Place) (gap : Gap) (text : List Char) :
    List Char → Option Reading
  | [] => some ⟨⟨true, String.ofList text.reverse⟩, gap.crossesLine, p, []⟩
  | c :: cs =>
    let stop := some ⟨⟨true, String.ofList text.reverse⟩, gap.crossesLine, p, c :: cs⟩
    if isSpace c then
      if c = '\t' && gap.crossesLine && p.column < margin then none
      else plainFrom inFlow margin (p.past c) (gap.addSpace c) text cs
    else if isBreak c then plainFrom inFlow margin p.nextLine (gap.addBreak c) text cs
    else if !gap.isEmpty && (c = '#' || (!inFlow && p.column < margin)) then stop
    else if p.column = 0 && isDocumentMark (c :: cs) then stop
    else if inFlow && c = ':' && cs.head?.any fun d => isFlowMark d || d = '?' then none
    else if c = ':' && endsHere cs || inFlow && isFlowMark c then stop
    else plainFrom inFlow margin (p.past c) .empty (c :: (gap.folded ++ text)) cs

/-- Whether a plain scalar can begin here. -/
def beginsPlain (inFlow : Bool) : List Char → Bool
  | [] => false
  | c :: cs =>
    if c = '-' then !endsHere cs
    else if c = '?' || c = ':' then !inFlow && !endsHere cs
    else !isSpace c && !isBreak c && !isMark c

/-- The plain scalar that begins here. -/
def plainAt? (inFlow : Bool) (margin : Nat) (here : Cursor) : Option Reading :=
  plainFrom inFlow margin here.place .empty [] here.rest

/-! ## Quoted scalars -/

/-- Reads on between single quotes, where a doubled quote stands for one. -/
def singleFrom (p : Place) (gap : Gap) (text : List Char) : List Char → Option Reading
  | [] => none
  | '\'' :: '\'' :: cs => singleFrom (p.move 2) .empty ('\'' :: (gap.folded ++ text)) cs
  | c :: cs =>
    if isSpace c then singleFrom (p.past c) (gap.addSpace c) text cs
    else if isBreak c then singleFrom p.nextLine (gap.addBreak c) text cs
    else if p.column = 0 && isDocumentMark (c :: cs) then none
    else if c = '\'' then
      some ⟨⟨false, String.ofList (gap.folded ++ text).reverse⟩, false, p.move 1, cs⟩
    else singleFrom (p.past c) .empty (c :: (gap.folded ++ text)) cs

/-- The character of a one-letter escape. -/
def escaped? (c : Char) : Option Char :=
  [('0', '\x00'), ('a', '\x07'), ('b', '\x08'), ('t', '\t'), ('\t', '\t'), ('n', '\n'),
    ('v', '\x0B'), ('f', '\x0C'), ('r', '\r'), ('e', '\x1B'), (' ', ' '), ('"', '"'), ('/', '/'),
    ('\\', '\\'), ('N', '\u0085'), ('_', '\u00A0'), ('L', '\u2028'), ('P', '\u2029')].lookup c

/-- How many hexadecimal digits an escape takes. -/
def escapeWidth? (c : Char) : Option Nat := [('x', 2), ('u', 4), ('U', 8)].lookup c

/-- The character that hexadecimal digits stand for, as many as an escape takes. -/
def charOfDigits? (width : Nat) (cs : List Char) : Option Char :=
  match digits? 16 cs with
  | some n => if cs.length = width ∧ n.isValidChar then some (Char.ofNat n) else none
  | none => none

/-- Reads on between double quotes.  A backslash before a line's end joins the lines. -/
def doubleFrom (p : Place) (gap : Gap) (text : List Char) : List Char → Option Reading
  | [] => none
  | '\\' :: c :: cs =>
    let text := gap.folded ++ text
    if isBreak c then doubleFrom p.nextLine (.lines none []) text cs
    else
      match escaped? c, escapeWidth? c with
      | some d, _ => doubleFrom (p.move 2) .empty (d :: text) cs
      | none, some width =>
        match charOfDigits? width (cs.take width) with
        | some d => doubleFrom (p.move (2 + width)) .empty (d :: text) (cs.drop width)
        | none => none
      | none, none => none
  | c :: cs =>
    if isSpace c then doubleFrom (p.past c) (gap.addSpace c) text cs
    else if isBreak c then doubleFrom p.nextLine (gap.addBreak c) text cs
    else if c = '\\' || (p.column = 0 && isDocumentMark (c :: cs)) then none
    else if c = '"' then
      some ⟨⟨false, String.ofList (gap.folded ++ text).reverse⟩, false, p.move 1, cs⟩
    else doubleFrom (p.past c) .empty (c :: (gap.folded ++ text)) cs
termination_by cs => cs.length
decreasing_by all_goals (simp_wf <;> omega)

/-- The scalar that a quote opens. -/
def quotedAt? (here : Cursor) : Option Reading :=
  match here.rest with
  | '\'' :: cs => singleFrom (here.place.move 1) .empty [] cs
  | '"' :: cs => doubleFrom (here.place.move 1) .empty [] cs
  | _ => none

end Scalar
end AtModem.Yaml
