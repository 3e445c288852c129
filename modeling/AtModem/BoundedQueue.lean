/-
  First-in first-out queues of fixed capacity.

  A handler cannot hand anything to the wait that triggered it, so what it decodes is left in one of
  these queues until its owner collects it.  When the queue is full something has to go: either the
  newcomer or the oldest element, as the policy says.  Every loss is counted.
-/

namespace AtModem

/-- Which element is lost when a full queue is pushed to. -/
inductive OverflowPolicy where
  | dropNewest
  | dropOldest
  deriving DecidableEq, Repr

namespace OverflowPolicy

/-- The word for a policy in a configuration; `ofName?` is its inverse, so the two cannot drift
    apart. -/
def name : OverflowPolicy → String
  | dropNewest => "drop_newest"
  | dropOldest => "drop_oldest"

/-- The policy with a name. -/
def ofName? (s : String) : Option OverflowPolicy :=
  [dropNewest, dropOldest].find? fun p => p.name = s

end OverflowPolicy

/-- A queue with its limit, its policy and its losses.  That the limit is kept is no field of it but
    an invariant of its operations (`Follows`). -/
structure BoundedQueue (α : Type) where
  capacity : Nat
  policy : OverflowPolicy
  /-- Oldest first. -/
  items : List α
  /-- How many elements the overflow policy has cost so far. -/
  dropped : Nat

namespace BoundedQueue

variable {α : Type}

/-- A queue in which nothing has been put and from which nothing was lost. -/
def empty (capacity : Nat) (policy : OverflowPolicy) : BoundedQueue α := ⟨capacity, policy, [], 0⟩

/-- Whether the next element will cost one, be it the newcomer or the oldest. -/
def isFull (q : BoundedQueue α) : Bool := q.capacity ≤ q.items.length

/-- Appends an element and says whether it was kept.  On a full queue the policy decides what is
    lost; a queue without room for a single element loses every newcomer. -/
def push (q : BoundedQueue α) (a : α) : Bool × BoundedQueue α :=
  if q.isFull then
    match q.policy, q.items with
    | .dropOldest, _ :: rest => (true, { q with items := rest ++ [a], dropped := q.dropped + 1 })
    | _, _ => (false, { q with dropped := q.dropped + 1 })
  else (true, { q with items := q.items ++ [a] })

/-- Takes the oldest element.  Taking out of an empty queue changes nothing and is no error. -/
def pop (q : BoundedQueue α) : Option α × BoundedQueue α :=
  match q.items with
  | [] => (none, q)
  | a :: rest => (some a, { q with items := rest })

/-- The element that `pop` would take, left where it is. -/
def peek (q : BoundedQueue α) : Option α := q.items.head?

/-- Throws the contents away.  They are not lost to the policy, so the count of losses stays. -/
def clear (q : BoundedQueue α) : BoundedQueue α := { q with items := [] }

/-! ## What an operation does to the contents -/

/-- While there is room nothing is lost and the order of arrival is the order in the queue. -/
theorem push_of_room {q : BoundedQueue α} (h : q.isFull = false) (a : α) :
    q.push a = (true, { q with items := q.items ++ [a] }) := by
  simp [push, h]

/-- Pushing never changes how many elements there is room for, whatever the policy does. -/
theorem capacity_push (q : BoundedQueue α) (a : α) : (q.push a).2.capacity = q.capacity := by
  unfold push
  split
  · split <;> rfl
  · rfl

/-! ## What stays true of a queue in use -/

/-- `r` can come after `q`: room and policy are the same, and it holds no more than there is room for if
    that was so before. -/
structure Follows (q r : BoundedQueue α) : Prop where
  capacity : r.capacity = q.capacity
  policy : r.policy = q.policy
  fits : q.items.length ≤ q.capacity → r.items.length ≤ r.capacity

theorem Follows.refl (q : BoundedQueue α) : Follows q q := ⟨rfl, rfl, id⟩

/-- What follows a follower follows, so the invariant goes through any number of operations. -/
theorem Follows.trans {q r s : BoundedQueue α} (h : Follows q r) (k : Follows r s) : Follows q s :=
  ⟨k.capacity.trans h.capacity, k.policy.trans h.policy, k.fits ∘ h.fits⟩

/-- Whatever the policy gives up for the newcomer, the queue stays within its room: either it had
    room, or as many elements leave it as come in. -/
theorem follows_push (q : BoundedQueue α) (a : α) : Follows q (q.push a).2 := by
  unfold push
  split
  · split
    · rename_i items
      refine ⟨rfl, rfl, fun fits => ?_⟩
      rw [items] at fits
      simpa using fits
    · exact ⟨rfl, rfl, id⟩
  · rename_i room
    simp only [isFull, decide_eq_true_eq, Nat.not_le] at room
    refine ⟨rfl, rfl, fun _ => ?_⟩
    rw [List.length_append]
    exact room

theorem follows_pop (q : BoundedQueue α) : Follows q q.pop.2 := by
  unfold pop
  split
  · exact .refl q
  · rename_i items
    refine ⟨rfl, rfl, fun fits => ?_⟩
    rw [items, List.length_cons] at fits
    exact Nat.le_of_succ_le fits

theorem follows_clear (q : BoundedQueue α) : Follows q q.clear := ⟨rfl, rfl, fun _ => Nat.zero_le _⟩

end BoundedQueue
end AtModem
