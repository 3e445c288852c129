/-
  What has passed through a stream.

  A stream shows what can still be read and not what was.  Statements about what becomes of a byte
  need both, so a stream carries a ledger of the bytes that were taken off the link and of those that
  its readers got.  No computation can look into the ledger: it is a ghost value, known to statements
  only, and when the program runs there is nothing of it.
-/
import AtModem.Text.Utf8

namespace AtModem

/-! ## Ghost values -/

/-- A value that only statements know: the predicate that holds of it and of nothing else.  A
    predicate has no representation when the program runs. -/
structure Ghost (α : Type) where
  is : α → Prop
  unique : ∃ a, is = (a = ·)

namespace Ghost

variable {α : Type}

/-- A ghost of a value that is at hand.  The predicate that it is is the value's own, so nothing is
    computed. -/
def of (a : α) : Ghost α := ⟨(a = ·), a, rfl⟩

/-- The value, in statements. -/
noncomputable def value (g : Ghost α) : α := Classical.choose g.unique

/-- The ghost of a value has that value: there is only one that its predicate holds of. -/
@[simp] theorem value_of (a : α) : (of a).value = a := by
  have h : (a = ·) = ((of a).value = ·) := Classical.choose_spec (of a).unique
  have k : (a = a) = ((of a).value = a) := congrFun h a
  exact k ▸ rfl

/-- The ghost of the changed value. -/
def update (g : Ghost α) (f : α → α) : Ghost α := ⟨(f g.value = ·), f g.value, rfl⟩

/-- Changing a ghost changes its value in the same way. -/
@[simp] theorem value_update (g : Ghost α) (f : α → α) : (g.update f).value = f g.value :=
  value_of (f g.value)

end Ghost

/-! ## The ledger -/

/-- What has gone through a stream since it was made.  As long as no byte that waited to be read
    again was overwritten, what came off the link is what readers got and that byte. -/
structure Ledger where
  /-- The bytes taken off the link, oldest first. -/
  popped : Bytes
  /-- The bytes that readers got and did not put back, oldest first. -/
  handed : Bytes
  /-- How often a byte was put back while another was still waiting to be read again. -/
  clobbered : Nat

namespace Ledger

/-- The ledger of a stream through which nothing has gone. -/
def blank : Ledger := ⟨[], [], 0⟩

/-- A byte comes off the link and goes to the reader. -/
def pop (b : UInt8) (l : Ledger) : Ledger :=
  { l with popped := l.popped ++ [b], handed := l.handed ++ [b] }

/-- The byte that was put back goes to the reader again. -/
def reread (b : UInt8) (l : Ledger) : Ledger := { l with handed := l.handed ++ [b] }

/-- The reader gives back the last byte it got; `pending` says whether there was one already. -/
def putBack (pending : Bool) (l : Ledger) : Ledger where
  popped := l.popped
  handed := l.handed.dropLast
  clobbered := if pending then l.clobbered + 1 else l.clobbered

end Ledger
end AtModem
