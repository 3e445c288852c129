/-
  From tokens to a document.

  A node is a scalar, a sequence or a mapping.  The tokens tell where a collection begins and ends,
  so a node is read by looking at one token at a time.  Where an item, a key or a value is left out,
  a scalar without text stands in its place.

  Three things are less regular.  A sequence that is a key or a value may come without tokens for
  its begin and its end.  Inside brackets an item of a sequence may be a mapping of one entry.  And
  in such a mapping the mark that comes where the key is left out is passed over with it.
-/
import AtModem.Yaml.Token.Reader

namespace AtModem.Yaml

/-- A document as a tree.  What a scalar means is not decided here, and a mapping keeps its entries
    in the order in which they stand, also where a key comes twice. -/
inductive Node where
  | scalar (s : Scalar)
  | seq (items : List Node)
  | map (entries : List (Node × Node))

namespace Node

/-- What stands where a node was left out. -/
def blank : Node := .scalar .blank

instance : Inhabited Node := ⟨blank⟩

/-- A node and the tokens that are left. -/
abbrev Taken := Node × List Token

/-- Where a node stands, which decides what it may be. -/
inductive Site where
  /-- Inside brackets: no collection in block style. -/
  | flow
  | block
  /-- In block style, where the dashes of a sequence may come without a token for its begin. -/
  | entry
  deriving DecidableEq, Repr

/-- Whether one of these tokens comes next. -/
def comesNext (kinds : List Token) (ts : List Token) : Bool := ts.head?.any kinds.contains

/-- The tokens behind the comma between two entries; before the first there is none. -/
def behindComma (isFirst : Bool) (ts : List Token) : Option (List Token) :=
  if isFirst then some ts
  else
    match ts with
    | .comma :: ts => some ts
    | _ => none

mutual

/-- The node that begins with the next token. -/
def take (fuel : Nat) (site : Site) (ts : List Token) : Option Taken :=
  match fuel, ts with
  | fuel + 1, t :: ts =>
    match t with
    | .scalar s => some (.scalar s, ts)
    | .openSeq => flowSeq fuel [] ts
    | .openMap => flowMap fuel [] ts
    | .blockSeq => if site = .flow then none else blockSeq fuel [] ts
    | .blockMap => if site = .flow then none else blockMap fuel [] ts
    | .dash => if site = .entry then looseSeq fuel [] (.dash :: ts) else none
    | _ => none
  | _, _ => none

/-- A node, or a blank one if one of the tokens comes next that cannot belong to it. -/
def takeOrBlank (fuel : Nat) (site : Site) (ends ts : List Token) : Option Taken :=
  match fuel with
  | 0 => none
  | fuel + 1 => if comesNext ends ts then some (blank, ts) else take fuel site ts

/-- The mark of a value and the value, or a blank one if there is no mark. -/
def takeValue (fuel : Nat) (site : Site) (ends ts : List Token) : Option Taken :=
  match fuel, ts with
  | 0, _ => none
  | fuel + 1, .value :: ts => takeOrBlank fuel site ends ts
  | _, ts => some (blank, ts)

/-- The items of a sequence in block style, the ones before newest first. -/
def blockSeq (fuel : Nat) (items : List Node) (ts : List Token) : Option Taken :=
  match fuel, ts with
  | _, .blockEnd :: ts => some (.seq items.reverse, ts)
  | fuel + 1, .dash :: ts =>
    match takeOrBlank fuel .block [.dash, .blockEnd] ts with
    | some (item, ts) => blockSeq fuel (item :: items) ts
    | none => none
  | _, _ => none

/-- The items of a sequence in block style whose end is not marked. -/
def looseSeq (fuel : Nat) (items : List Node) (ts : List Token) : Option Taken :=
  match fuel, ts with
  | 0, _ => none
  | fuel + 1, .dash :: ts =>
    match takeOrBlank fuel .block [.dash, .key, .value, .blockEnd] ts with
    | some (item, ts) => looseSeq fuel (item :: items) ts
    | none => none
  | _, ts => some (.seq items.reverse, ts)

/-- The entries of a mapping in block style. -/
def blockMap (fuel : Nat) (entries : List (Node × Node)) (ts : List Token) : Option Taken :=
  match fuel, ts with
  | _, .blockEnd :: ts => some (.map entries.reverse, ts)
  | fuel + 1, .key :: ts =>
    let ends := [.key, .value, .blockEnd]
    match takeOrBlank fuel .entry ends ts with
    | some (key, ts) =>
      match takeValue fuel .entry ends ts with
      | some (value, ts) => blockMap fuel ((key, value) :: entries) ts
      | none => none
    | none => none
  | _, _ => none

/-- The items of a sequence in brackets. -/
def flowSeq (fuel : Nat) (items : List Node) (ts : List Token) : Option Taken :=
  match fuel, ts with
  | _, .closeSeq :: ts => some (.seq items.reverse, ts)
  | fuel + 1, ts =>
    match behindComma items.isEmpty ts with
    | some (.closeSeq :: ts) => some (.seq items.reverse, ts)
    | some (.key :: ts) =>
      match flowPair fuel ts with
      | some (item, ts) => flowSeq fuel (item :: items) ts
      | none => none
    | some ts =>
      match take fuel .flow ts with
      | some (item, ts) => flowSeq fuel (item :: items) ts
      | none => none
    | none => none
  | _, _ => none

/-- The one entry of a mapping that is an item in brackets. -/
def flowPair (fuel : Nat) (ts : List Token) : Option Taken :=
  match fuel with
  | 0 => none
  | fuel + 1 =>
    let key :=
      if comesNext [.value, .comma, .closeSeq] ts then some (blank, ts.tail)
      else take fuel .flow ts
    match key with
    | some (key, ts) =>
      match takeValue fuel .flow [.comma, .closeSeq] ts with
      | some (value, ts) => some (.map [(key, value)], ts)
      | none => none
    | none => none

/-- The entries of a mapping in brackets.  A key without a mark has no value. -/
def flowMap (fuel : Nat) (entries : List (Node × Node)) (ts : List Token) : Option Taken :=
  match fuel, ts with
  | _, .closeMap :: ts => some (.map entries.reverse, ts)
  | fuel + 1, ts =>
    match behindComma entries.isEmpty ts with
    | some (.closeMap :: ts) => some (.map entries.reverse, ts)
    | some (.key :: ts) =>
      match takeOrBlank fuel .flow [.value, .comma, .closeMap] ts with
      | some (key, ts) =>
        match takeValue fuel .flow [.comma, .closeMap] ts with
        | some (value, ts) => flowMap fuel ((key, value) :: entries) ts
        | none => none
      | none => none
    | some ts =>
      match take fuel .flow ts with
      | some (key, ts) => flowMap fuel ((key, blank) :: entries) ts
      | none => none
    | none => none
  | _, _ => none

end

/-! ## The document -/

/-- The node that begins the tokens.  Of the calls inside one another, at least every fourth takes a
    token. -/
def ofTokens? (ts : List Token) : Option Taken := take (4 * ts.length + 4) .block ts

/-- The document of the tokens and what comes behind it.  One that a mark opens may be empty. -/
def document? : List Token → Option Taken
  | .documentStart :: ts =>
    if ts.isEmpty || comesNext [.documentStart, .documentEnd] ts then some (blank, ts)
    else ofTokens? ts
  | ts => ofTokens? ts

/-- The one document of a text: nothing if there is none; `none` if it is malformed. -/
def ofText? (text : String) : Option (Option Node) :=
  match Token.ofText? text with
  | none => none
  | some [] => some none
  | some ts =>
    match document? ts with
    | some (n, behind) => if behind.all (· == .documentEnd) then some (some n) else none
    | none => none

end Node
end AtModem.Yaml
