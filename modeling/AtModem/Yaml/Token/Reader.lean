/-
  From text to tokens.

  A key is known only by the colon behind it.  So wherever one may begin, the reader keeps that
  place in mind, one for every open bracket and one outside them, and when it meets a colon it puts
  the mark of a key in at the place it has in mind there.  Such a key has to end on its line, and
  its colon may not come more than 1024 bytes behind its beginning.

  Outside brackets a collection begins where an item or a key stands in a column further right than
  the collection around it, and ends before a token that stands further left than its own column.  A
  key or an item in block style has to be the first thing on its line, or stand right behind a dash
  or a question mark.  What stands in the column of a mapping has to be a key.

  Tabs may not stand where a line's indentation is, or wherever a key may begin outside brackets.
-/
import AtModem.Yaml.Scalar.Reading
import AtModem.Yaml.Token

namespace AtModem.Yaml

/-- A place where a key may have begun. -/
structure Candidate where
  place : Place
  /-- How many tokens come before it. -/
  position : Nat
  /-- Whether there has to be a key. -/
  required : Bool

namespace Candidate

/-- How many bytes behind the beginning of a key its colon may stand. -/
def reach : Nat := 1024

/-- Whether it is too late for a colon to make this a key. -/
def isOver (k : Candidate) (p : Place) : Bool :=
  k.place.line < p.line || k.place.offset + reach < p.offset

/-- Gives up a candidate; `none` if it has to be a key. -/
def giveUp : Option Candidate → Option (Option Candidate)
  | none => some none
  | some k => if k.required then none else some none

/-- Gives up a candidate for which it is too late. -/
def review (p : Place) : Option Candidate → Option (Option Candidate)
  | none => some none
  | some k => if k.isOver p then giveUp (some k) else some (some k)

end Candidate

/-- What the reader knows at some place in the text. -/
structure Reader where
  here : Cursor
  tokens : Array Token
  /-- The columns of the open collections in block style, innermost first. -/
  columns : List Nat
  /-- The place kept in mind since the innermost open bracket, or outside of all brackets. -/
  candidate : Option Candidate
  /-- The places kept in mind outside of each open bracket, innermost first. -/
  outer : List (Option Candidate)
  /-- Whether a key may begin here. -/
  keyAllowed : Bool

namespace Reader

/-- A reader at the beginning of a text, where a key may begin. -/
def ofText (cs : List Char) : Reader := ⟨⟨.start, cs⟩, #[], [], none, [], true⟩

/-- Whether the reader is inside brackets, where columns mean nothing. -/
def inFlow (r : Reader) : Bool := !r.outer.isEmpty

/-- The column in which the reader stands. -/
def column (r : Reader) : Nat := r.here.place.column

/-- The first column that stands further right than the innermost collection. -/
def margin (r : Reader) : Nat :=
  match r.columns with
  | [] => 0
  | c :: _ => c + 1

/-- Adds a token behind the others. -/
def push (r : Reader) (t : Token) : Reader := { r with tokens := r.tokens.push t }

/-- Goes on behind some characters of ASCII. -/
def move (r : Reader) (n : Nat) : Reader := { r with here := r.here.move n }

/-! ## Between tokens -/

/-- What is left behind blank space and comments, and whether a key may begin there. -/
def skipBlank (inFlow : Bool) (keyAllowed : Bool) (inComment : Bool) (p : Place) :
    List Char → Bool × Cursor
  | [] => (keyAllowed, ⟨p, []⟩)
  | c :: cs =>
    if isBreak c then skipBlank inFlow (keyAllowed || !inFlow) false p.nextLine cs
    else if inComment || c = ' ' || c = '#' || (c = '\t' && (inFlow || !keyAllowed))
        || (isOrderMark c && p.column = 0) then
      skipBlank inFlow keyAllowed (inComment || c = '#') (p.past c) cs
    else (keyAllowed, ⟨p, c :: cs⟩)

/-- Goes on to where the next token begins. -/
def atToken (r : Reader) : Reader :=
  let (keyAllowed, here) := skipBlank r.inFlow r.keyAllowed false r.here.place r.here.rest
  { r with keyAllowed, here }

/-! ## Collections in block style -/

/-- Ends the collections that stand further right than a column. -/
def closeBlocks (r : Reader) (ends : Nat → Bool) : Reader :=
  if r.inFlow then r
  else
    let ended := r.columns.takeWhile ends
    { r with
      columns := r.columns.dropWhile ends
      tokens := ended.foldl (fun ts _ => ts.push .blockEnd) r.tokens }

/-- Begins a collection before the token at a position, if the column stands further right than the
    collection around it. -/
def openBlock (r : Reader) (column position : Nat) (t : Token) : Reader :=
  if r.inFlow || column < r.margin then r
  else { r with columns := column :: r.columns, tokens := r.tokens.insertIdxIfInBounds position t }

/-! ## Keys -/

/-- Gives up the place that was kept in mind, since what comes now cannot be its colon; `none` if
    there had to be a key. -/
def dropCandidate (r : Reader) : Option Reader :=
  (Candidate.giveUp r.candidate).map fun candidate => { r with candidate }

/-- Gives up the candidates for which it is too late. -/
def dropOver (r : Reader) : Option Reader := do
  let candidate ← Candidate.review r.here.place r.candidate
  let outer ← r.outer.mapM (Candidate.review r.here.place)
  return { r with candidate, outer }

/-- Keeps this place in mind, if a key may begin here. -/
def offerKey (r : Reader) : Option Reader :=
  if r.keyAllowed then
    r.dropCandidate.map fun r =>
      let required := !r.inFlow && r.columns.head? = some r.column
      { r with candidate := some ⟨r.here.place, r.tokens.size, required⟩ }
  else some r

/-! ## The marks -/

/-- A mark of the document ends all collections and stands for itself. -/
def documentMark (r : Reader) (t : Token) : Option Reader :=
  (r.closeBlocks fun _ => true).dropCandidate.map fun r =>
    ({ r with keyAllowed := false }.push t).move 3

/-- An opening bracket may begin a key itself, and a place is kept in mind on either side of it. -/
def openBracket (r : Reader) (t : Token) : Option Reader :=
  r.offerKey.map fun r =>
    let outer := r.candidate :: r.outer
    ({ r with candidate := none, outer, keyAllowed := true }.push t).move 1

/-- A closing bracket goes back to the place that was kept in mind outside of it. -/
def closeBracket (r : Reader) (t : Token) : Option Reader :=
  r.dropCandidate.map fun r =>
    let candidate := r.outer.head?.join
    ({ r with candidate, outer := r.outer.tail, keyAllowed := false }.push t).move 1

/-- A comma ends an entry, and the next one may begin with a key. -/
def comma (r : Reader) : Option Reader :=
  r.dropCandidate.map fun r => ({ r with keyAllowed := true }.push .comma).move 1

/-- A mark that begins something in block style. -/
def blockMark (r : Reader) (collection mark : Token) (keyAllowed : Bool) : Option Reader :=
  if !r.inFlow && !r.keyAllowed then none
  else
    (r.openBlock r.column r.tokens.size collection).dropCandidate.map fun r =>
      ({ r with keyAllowed }.push mark).move 1

/-- A colon, behind a key without a mark of its own or behind one that has it. -/
def colon (r : Reader) : Option Reader :=
  match r.candidate with
  | some k =>
    let r := { r with tokens := r.tokens.insertIdxIfInBounds k.position .key }
    let r := r.openBlock k.place.column k.position .blockMap
    some (({ r with candidate := none, keyAllowed := false }.push .value).move 1)
  | none => r.blockMark .blockMap .value (!r.inFlow)

/-- A scalar may turn out to be a key, so its place is kept in mind before it is read. -/
def scalar (r : Reader) (read : Cursor → Option Scalar.Reading) : Option Reader := do
  let r ← r.offerKey
  let found ← read r.here
  return { r.push (.scalar found.scalar) with
    here := found.cursor, keyAllowed := found.crossedLine }

/-! ## The whole text -/

/-- Reads the token that begins here. -/
def token (r : Reader) : Option Reader :=
  let p := r.here.place
  match r.here.rest with
  | [] => some r
  | c :: cs =>
    if p.column = 0 && isTriple '-' (c :: cs) then r.documentMark .documentStart
    else if p.column = 0 && isTriple '.' (c :: cs) then r.documentMark .documentEnd
    else
      match c with
      | '[' => r.openBracket .openSeq
      | '{' => r.openBracket .openMap
      | ']' => r.closeBracket .closeSeq
      | '}' => r.closeBracket .closeMap
      | ',' => r.comma
      | '\'' => r.scalar Scalar.quotedAt?
      | '"' => r.scalar Scalar.quotedAt?
      | _ =>
        if c = '-' && endsHere cs then r.blockMark .blockSeq .dash true
        else if c = '?' && (r.inFlow || endsHere cs) then r.blockMark .blockMap .key (!r.inFlow)
        else if c = ':' && (r.inFlow || endsHere cs) then r.colon
        else if Scalar.beginsPlain r.inFlow (c :: cs) then
          r.scalar (Scalar.plainAt? r.inFlow r.margin)
        else none

/-- The reader behind the last token, at most `fuel` tokens away. -/
def run : Nat → Reader → Option Reader
  | 0, _ => none
  | fuel + 1, r =>
    match r.atToken.dropOver with
    | none => none
    | some r =>
      if r.here.rest.isEmpty then (r.closeBlocks fun _ => true).dropCandidate
      else
        match (r.closeBlocks fun c => r.column < c).token with
        | none => none
        | some r => run fuel r

end Reader

/-- The tokens of a text.  Each takes at least one character, so as many as there are characters are
    enough. -/
def Token.ofText? (text : String) : Option (List Token) :=
  let cs := text.toList
  if cs.all isAllowed then
    let cs := unifyBreaks cs
    ((Reader.ofText cs).run (cs.length + 1)).map fun r => r.tokens.toList
  else none

end AtModem.Yaml
