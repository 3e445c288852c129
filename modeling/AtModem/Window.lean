/-
  The rolling window over the most recent bytes of the response stream.

  A pattern matches when the stream so far ends with it, and this is asked after every single byte.
  So the window only ever needs the tail of the stream: it keeps as many bytes as its capacity
  allows, newest first, and lets the oldest go.  "Ends with `p`" is then "the reversed pattern is an
  initial segment of what is kept".
-/
import AtModem.Text.Utf8

namespace AtModem

/-- The last bytes of the stream, as many as there is room for.  The bounds are part of the window,
    so no lemma has to carry them. -/
structure Window where
  /-- How many bytes are kept, at least one. -/
  capacity : Nat
  /-- The kept bytes, newest first. -/
  recent : Bytes
  capacity_pos : 0 < capacity
  length_le : recent.length ≤ capacity

namespace Window

/-- The room of a window when nothing else is asked for.  It bounds the patterns that can ever
    match. -/
def defaultCapacity : Nat := 64

/-- An empty window.  A capacity of zero is raised to one.  A window without room could hold no
    pattern at all. -/
def ofCapacity (capacity : Nat) : Window where
  capacity := max capacity 1
  recent := []
  capacity_pos := Nat.le_max_right _ _
  length_le := Nat.zero_le _

/-- The kept bytes in the order they came. -/
def bytes (w : Window) : Bytes := w.recent.reverse

/-- Takes in a byte; when the window is full the oldest gives way.  What gives way can no longer be
    matched, so the capacity limits the length of what a wait can look for. -/
def push (w : Window) (b : UInt8) : Window :=
  { w with
    recent := (b :: w.recent).take w.capacity
    length_le := List.length_take_le _ _ }

/-- Takes in bytes, one after the other. -/
def pushAll (w : Window) (bs : Bytes) : Window := bs.foldl push w

/-- Whether the kept bytes end with `p`.  Nothing ends with the empty pattern. -/
def endsWith (w : Window) (p : Bytes) : Bool := !p.isEmpty && p.reverse.isPrefixOf w.recent

/-- Forgets what was kept.  What comes afterwards is not joined to it. -/
def clear (w : Window) : Window := { w with recent := [], length_le := Nat.zero_le _ }

/-- The kept bytes as text, for showing. -/
def text (w : Window) : String := Utf8.decode w.bytes

/-! ## The window as the tail of the stream -/

@[simp] theorem capacity_push (w : Window) (b : UInt8) : (w.push b).capacity = w.capacity := rfl

/-- The test on the reversed bytes says that the pattern is a suffix of what is kept.  This is how
    all theorems speak of matching; none of them opens the test itself. -/
theorem endsWith_iff (w : Window) (p : Bytes) : w.endsWith p = true ↔ p ≠ [] ∧ p <:+ w.bytes := by
  simp only [endsWith, bytes, Bool.and_eq_true, Bool.not_eq_true', List.isEmpty_eq_false_iff,
    List.isPrefixOf_iff_prefix]
  rw [← List.reverse_prefix, List.reverse_reverse]

end Window
end AtModem
