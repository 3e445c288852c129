/-
  The registered handlers.

  A registry has room for a fixed number of handlers and keeps them in the order in which they were
  registered.  Each registration is given a number, by which the handler can be taken out again; the
  numbers are 32-bit words and count up.  Taking one out leaves the others in their order.
-/
import AtModem.Text.Quoted
import AtModem.Urc.Handler

namespace AtModem

/-- The number of a registration.  It is a word of 32 bits, so numbers come round again after as
    many registrations. -/
abbrev HandlerId := UInt32

/-- A registered handler under its number. -/
structure Slot where
  id : HandlerId
  handler : Handler

/-- The registered handlers with their limit.  The order of the slots is the order in which handlers
    are asked, and no two of them have to differ. -/
structure Registry where
  capacity : Nat
  /-- Oldest registration first. -/
  slots : List Slot
  /-- The number of the next registration. -/
  nextId : HandlerId

namespace Registry

/-- A registry with nothing in it, whose first registration will have number zero. -/
def ofCapacity (capacity : Nat) : Registry := ⟨capacity, [], 0⟩

/-- The handlers without their numbers, in the order in which they have their turn. -/
def handlers (r : Registry) : List Handler := r.slots.map Slot.handler

/-- The announcements, in the order in which they are tested. -/
def patterns (r : Registry) : List String := r.handlers.map Handler.pattern

/-- Adds a handler behind the others. -/
def register (r : Registry) (h : Handler) : Except AtError (HandlerId × Registry) :=
  if r.capacity ≤ r.slots.length then .error (.registryFull r.capacity)
  else .ok (r.nextId, { r with slots := r.slots ++ [⟨r.nextId, h⟩], nextId := r.nextId + 1 })

/-- Takes out the handler with a number, if it is there. -/
def deregister (r : Registry) (id : HandlerId) : Option Handler × Registry :=
  ((r.slots.find? (·.id = id)).map Slot.handler,
    { r with slots := r.slots.eraseP (·.id = id) })

/-- The registry in one line. -/
def describe (r : Registry) : String :=
  "UrcRegistry \x7b patterns: " ++ Quoted.quoteAll r.patterns ++ ", capacity: "
    ++ toString r.capacity ++ " \x7d"

end Registry
end AtModem
