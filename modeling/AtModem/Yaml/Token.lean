/-
  The tokens of a document.

  Besides the scalars and the marks that stand in the text, there are tokens for what only the
  columns tell: where a collection in block style begins and where it ends, and that a node is a
  key.  With them, columns no longer matter.
-/
import AtModem.Yaml.Scalar

namespace AtModem.Yaml

/-- The tokens that a document is made of.  Two of them have no mark in the text at all and are put
    in by the reader. -/
inductive Token where
  | scalar (s : Scalar)
  /-- A sequence in block style begins. -/
  | blockSeq
  /-- A mapping in block style begins. -/
  | blockMap
  /-- The innermost collection in block style ends. -/
  | blockEnd
  /-- A dash, which opens an item. -/
  | dash
  /-- A key follows. -/
  | key
  /-- A colon: a value follows. -/
  | value
  | comma
  | openSeq
  | closeSeq
  | openMap
  | closeMap
  /-- Three dashes at the start of a line. -/
  | documentStart
  /-- Three dots at the start of a line. -/
  | documentEnd
  deriving DecidableEq, Repr

end AtModem.Yaml
