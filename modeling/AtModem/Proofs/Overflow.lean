/-
  What becomes of the elements of a bounded queue.

  A queue knows its contents and how many elements it has lost, and no more.  What has become of an
  element can be said only with all that has been done at hand, so a journal goes beside the queue: every
  push with its answer, and every element that the owner has taken out, in the order in which they went.
  Nothing in the journal is made up; it holds what the operations have answered and, for `clear`, what was
  there.

  What a push can do is said once (`push_cases`): it finds room, or it puts the oldest element out, or the
  element itself is lost.  From this comes what each operation keeps (`Accounts`), and what holds of every
  run.  The two policies part in one point.  If the newest element gives way, those that were kept are the
  ones taken out and then the ones still there, without a gap; if the oldest gives way, what is there is
  the end of all that has been pushed.
-/
import AtModem.BoundedQueue
import Mathlib.Data.List.Basic

namespace AtModem.BoundedQueue

variable {α : Type}

/-! ## The journal -/

/-- What can be done to a queue. -/
inductive Op (α : Type) where
  | push (a : α)
  | pop
  | clear

/-- A push as it went: the element, and whether the queue answered that it kept it. -/
structure Pushed (α : Type) where
  element : α
  /-- Whether the queue had room for one more. -/
  room : Bool
  /-- What the push has answered. -/
  kept : Bool

/-- An element that its owner has taken out, alone or with all the others. -/
structure Taken (α : Type) where
  element : α
  alone : Bool

/-- A queue and what has been done to it so far.  The queue does not look at it; it is kept so that
    there is something to be accounted for. -/
structure Journal (α : Type) where
  queue : BoundedQueue α
  /-- Oldest first. -/
  pushes : List (Pushed α)
  /-- In the order in which they went. -/
  takings : List (Taken α)

namespace Journal

/-- The journal of a queue begins empty. -/
def ofQueue (q : BoundedQueue α) : Journal α := ⟨q, [], []⟩

/-- An operation, entered as the queue answers it.  Each case is one of the three lemmas above; a
    run is then an induction on its operations. -/
def step (j : Journal α) : Op α → Journal α
  | .push a =>
    let (kept, queue) := j.queue.push a
    { j with queue, pushes := j.pushes ++ [⟨a, j.queue.items.length < j.queue.capacity, kept⟩] }
  | .pop =>
    let (oldest, queue) := j.queue.pop
    { j with queue, takings := j.takings ++ oldest.toList.map (⟨·, true⟩) }
  | .clear =>
    { j with
      queue := j.queue.clear
      takings := j.takings ++ j.queue.items.map (⟨·, false⟩) }

/-- Operations one after another. -/
def run (j : Journal α) (ops : List (Op α)) : Journal α := ops.foldl step j

/-- All that has been pushed, in its order, kept or not. -/
def pushed (j : Journal α) : List α := j.pushes.map Pushed.element

/-- What of it was kept at first; a later push may still have put it out. -/
def kept (j : Journal α) : List α := (j.pushes.filter Pushed.kept).map Pushed.element

/-- All that has been taken out, in the order in which it went. -/
def taken (j : Journal α) : List α := j.takings.map Taken.element

/-- What of it went alone. -/
def popped (j : Journal α) : List α := (j.takings.filter Taken.alone).map Taken.element

/-- What of it went with all the others. -/
def cleared (j : Journal α) : List α := (j.takings.filter (! Taken.alone ·)).map Taken.element

end Journal

/-! ## A push -/

/-- A push finds room, or it puts the oldest element out, or it keeps nothing of the element.  The last
    comes about only if the newest element is to give way, or if there is no oldest one. -/
theorem push_cases (q : BoundedQueue α) (a : α) :
    (q.items.length < q.capacity ∧ q.push a = (true, { q with items := q.items ++ [a] })) ∨
    (q.capacity ≤ q.items.length ∧ q.policy = .dropOldest ∧ ∃ oldest rest, q.items = oldest :: rest ∧
      q.push a = (true, { q with items := rest ++ [a], dropped := q.dropped + 1 })) ∨
    (q.capacity ≤ q.items.length ∧ (q.policy = .dropOldest → q.items = []) ∧
      q.push a = (false, { q with dropped := q.dropped + 1 })) := by
  rcases Nat.lt_or_ge q.items.length q.capacity with room | full
  -- there is room
  · left
    exact ⟨room, push_of_room (by simpa [isFull] using room) a⟩
  · right
    have isFull : q.isFull = true := decide_eq_true full
    rcases policy : q.policy with _ | _
    -- there is none, and the newest element is to give way
    · right
      refine ⟨full, ?_, ?_⟩
      · intro oldest
        cases oldest
      · rw [push, if_pos isFull, policy]
    · rcases items : q.items with _ | ⟨oldest, rest⟩
      -- the oldest is to give way, but there is none: the capacity is zero
      · right
        rw [items] at full
        refine ⟨full, fun _ => rfl, ?_⟩
        rw [push, if_pos isFull, policy, items]
      -- the oldest gives way
      · left
        rw [items] at full
        refine ⟨full, rfl, oldest, rest, rfl, ?_⟩
        rw [push, if_pos isFull, policy, items]

/-! ## What every operation keeps -/

/-- The journal and the queue agree: the numbers add up, nothing is out of order, and each policy
    has kept what it promises to keep.  Either policy has a promise of its own, since what the one
    keeps the other gives up. -/
structure Accounts (j : Journal α) : Prop where
  fits : j.queue.items.length ≤ j.queue.capacity
  total : j.pushes.length = j.takings.length + j.queue.dropped + j.queue.items.length
  order : (j.taken ++ j.queue.items).Sublist j.pushed
  newest : j.queue.policy = .dropNewest →
    (∀ p ∈ j.pushes, p.kept = p.room) ∧ j.taken ++ j.queue.items = j.kept
  oldest : j.queue.policy = .dropOldest →
    (∀ p ∈ j.pushes, p.kept = decide (0 < j.queue.capacity)) ∧ j.queue.items <:+ j.pushed

namespace Accounts

variable {j : Journal α}

/-- A push that keeps the element adds it behind the others, with the oldest one gone or not.  It
    covers a push into a free place and one that puts the oldest element out, which differ in `lost`
    and `rest` only. -/
theorem kept_push (h : Accounts j) (a : α) (room : Bool) (lost : Nat) {rest : List α}
    (size : rest.length + lost = j.queue.items.length) (fits : rest.length < j.queue.capacity)
    (suffix : rest <:+ j.queue.items)
    (newest : j.queue.policy = .dropNewest → room = true ∧ rest = j.queue.items) :
    Accounts { j with
      queue := { j.queue with items := rest ++ [a], dropped := j.queue.dropped + lost }
      pushes := j.pushes ++ [⟨a, room, true⟩] } where
  fits := by
    show (rest ++ [a]).length ≤ j.queue.capacity
    rw [List.length_append]
    exact fits
  total := by
    have total := h.total
    show (j.pushes ++ _).length = j.takings.length + (j.queue.dropped + lost) + (rest ++ [a]).length
    rw [List.length_append, List.length_append, total, ← size]
    simp only [List.length_singleton]
    omega
  order := by
    show (j.taken ++ (rest ++ [a])).Sublist ((j.pushes ++ _).map Pushed.element)
    rw [List.map_append, ← List.append_assoc]
    exact (((List.Sublist.refl j.taken).append suffix.sublist).trans h.order).append (.refl [a])
  -- the newest gives way: then the element found room, and is kept behind the others
  newest policy := by
    obtain ⟨rooms, kept⟩ := h.newest policy
    obtain ⟨rfl, rfl⟩ := newest policy
    constructor
    · intro p hp
      rcases List.mem_append.mp hp with hp | hp
      · exact rooms p hp
      · rw [List.mem_singleton.mp hp]
    · show j.taken ++ (j.queue.items ++ [a]) = ((j.pushes ++ _).filter _).map _
      rw [List.filter_append, List.map_append, ← List.append_assoc, kept]
      rfl
  -- the oldest gives way: what is there is still the end of all that was pushed
  oldest policy := by
    obtain ⟨answers, last⟩ := h.oldest policy
    constructor
    · intro p hp
      rcases List.mem_append.mp hp with hp | hp
      · exact answers p hp
      · rw [List.mem_singleton.mp hp]
        exact (decide_eq_true (Nat.zero_lt_of_lt fits)).symm
    · show rest ++ [a] <:+ (j.pushes ++ _).map Pushed.element
      rw [List.map_append]
      exact List.suffix_append_self_iff.mpr (suffix.trans last)

/-- A push that keeps nothing of the element costs that and changes nothing else.  With room for
    nothing both policies come to this. -/
theorem lost_push (h : Accounts j) (a : α) (full : j.queue.capacity ≤ j.queue.items.length)
    (oldest : j.queue.policy = .dropOldest → j.queue.items = []) :
    Accounts { j with
      queue := { j.queue with dropped := j.queue.dropped + 1 }
      pushes := j.pushes ++ [⟨a, false, false⟩] } where
  fits := h.fits
  total := by
    have total := h.total
    show (j.pushes ++ _).length = j.takings.length + (j.queue.dropped + 1) + j.queue.items.length
    rw [List.length_append, total, List.length_singleton]
    omega
  order := by
    show (j.taken ++ j.queue.items).Sublist ((j.pushes ++ _).map Pushed.element)
    rw [List.map_append]
    exact h.order.trans (List.sublist_append_left _ _)
  -- the newest gives way, and it is the element itself
  newest policy := by
    obtain ⟨rooms, kept⟩ := h.newest policy
    constructor
    · intro p hp
      rcases List.mem_append.mp hp with hp | hp
      · exact rooms p hp
      · rw [List.mem_singleton.mp hp]
    · show j.taken ++ j.queue.items = ((j.pushes ++ _).filter _).map _
      rw [List.filter_append, List.map_append, kept]
      exact (List.append_nil _).symm
  -- the oldest would give way, so there is no room for any element at all
  oldest policy := by
    obtain ⟨answers, -⟩ := h.oldest policy
    have empty := oldest policy
    rw [empty, List.length_nil] at full
    constructor
    · intro p hp
      rcases List.mem_append.mp hp with hp | hp
      · exact answers p hp
      · rw [List.mem_singleton.mp hp]
        exact (decide_eq_false (Nat.not_lt_of_le full)).symm
    · show j.queue.items <:+ _
      rw [empty]
      exact List.nil_suffix

/-- What is taken out was there first, and goes to the end of what was taken.  Popping takes one
    element in this way, and clearing takes all of them. -/
theorem take (h : Accounts j) (alone : Bool) (out : List α) {rest : List α}
    (split : j.queue.items = out ++ rest) :
    Accounts { j with
      queue := { j.queue with items := rest }
      takings := j.takings ++ out.map (⟨·, alone⟩) } := by
  obtain ⟨fits, total, order, newest, oldest⟩ := h
  -- what has been taken out and what is there are the same elements as before, in the same order
  have same : (j.takings ++ out.map (Taken.mk · alone)).map Taken.element ++ rest =
      j.taken ++ j.queue.items := by
    rw [split, List.map_append, List.map_map, List.append_assoc]
    exact congrArg (j.taken ++ ·) (congrArg (· ++ rest) (List.map_id out))
  have size : j.queue.items.length = out.length + rest.length := by rw [split, List.length_append]
  constructor
  · show rest.length ≤ j.queue.capacity
    omega
  · show j.pushes.length = (j.takings ++ _).length + j.queue.dropped + rest.length
    rw [List.length_append, List.length_map]
    omega
  · exact same ▸ order
  · intro policy
    obtain ⟨rooms, kept⟩ := newest policy
    exact ⟨rooms, same.trans kept⟩
  · intro policy
    obtain ⟨answers, last⟩ := oldest policy
    exact ⟨answers, (split ▸ List.suffix_append out rest).trans last⟩

/-- Every operation keeps the account: a push by what it can do, the others by what they take. -/
theorem step (h : Accounts j) (op : Op α) : Accounts (j.step op) := by
  cases op with
  | push a =>
    rcases j.queue.push_cases a with ⟨room, pushed⟩ | ⟨full, policy, oldest, rest, items, pushed⟩ |
      ⟨full, empty, pushed⟩
    -- the three ways in which a push can end
    · have kept := h.kept_push a true 0 rfl room List.suffix_rfl fun _ => ⟨rfl, rfl⟩
      simp only [Journal.step, pushed, decide_eq_true room]
      exact kept
    · have size : rest.length + 1 = j.queue.items.length := by rw [items, List.length_cons]
      have within := h.fits
      have kept := h.kept_push a false 1 size (by omega) (items ▸ List.suffix_cons oldest rest) fun other => by
        rw [policy] at other
        cases other
      simp only [Journal.step, pushed, decide_eq_false (Nat.not_lt_of_le full)]
      exact kept
    · have lost := h.lost_push a full empty
      simp only [Journal.step, pushed, decide_eq_false (Nat.not_lt_of_le full)]
      exact lost
  | pop =>
    rcases items : j.queue.items with _ | ⟨oldest, rest⟩
    -- nothing is there to be popped
    · have nothing := h.take true [] rfl
      simp only [Journal.step, BoundedQueue.pop, items]
      exact nothing
    · have one := h.take true [oldest] items
      simp only [Journal.step, BoundedQueue.pop, items]
      exact one
  | clear => exact h.take false _ (List.append_nil _).symm

theorem run (h : Accounts j) (ops : List (Op α)) : Accounts (j.run ops) := by
  induction ops generalizing j with
  | nil => exact h
  | cons op ops ih => exact ih (h.step op)

theorem ofEmpty (capacity : Nat) (policy : OverflowPolicy) :
    Accounts (Journal.ofQueue (empty capacity policy : BoundedQueue α)) where
  fits := Nat.zero_le _
  total := rfl
  order := .slnil
  newest _ := ⟨nofun, rfl⟩
  oldest _ := ⟨nofun, List.suffix_rfl⟩

end Accounts

/-! ## Every run -/

/-- An operation leaves capacity and policy as they are, and never takes back a loss. -/
theorem follows_step (j : Journal α) (op : Op α) : Follows j.queue (j.step op).queue := by
  cases op with
  | push a => exact follows_push j.queue a
  | pop => exact follows_pop j.queue
  | clear => exact follows_clear j.queue

theorem follows_run (j : Journal α) (ops : List (Op α)) : Follows j.queue (j.run ops).queue := by
  induction ops generalizing j with
  | nil => exact .refl _
  | cons op ops ih => exact (follows_step j op).trans (ih (j.step op))

/-- What has been taken out has been popped or cleared, and not both. -/
theorem length_takings (j : Journal α) : j.takings.length = j.popped.length + j.cleared.length := by
  have apart := List.length_eq_length_filter_add (l := j.takings) Taken.alone
  rw [Journal.popped, Journal.cleared, List.length_map, List.length_map]
  simpa using apart

/-- What was popped keeps its order among all that was taken. -/
theorem popped_sublist_taken (j : Journal α) : j.popped.Sublist j.taken :=
  List.filter_sublist.map Taken.element

/-- Whatever has been pushed, popped and cleared, and in whatever order: there are never more elements
    than there is room for; each element that was pushed has been popped, cleared or lost or is still
    there; and those that were popped and those still there came in this order.  If the oldest gives way,
    what is there is what came last, and a push keeps its element unless there is no room at all.  If the
    newest gives way, a push keeps its element just if there was room, and the elements that were kept
    are those taken out and those still there, so none of them was put out. -/
theorem accounts_for_every_element (capacity : Nat) (policy : OverflowPolicy) (ops : List (Op α)) :
    let j := (Journal.ofQueue (empty capacity policy)).run ops
    j.queue.items.length ≤ capacity ∧
    j.pushed.length = j.popped.length + j.cleared.length + j.queue.dropped + j.queue.items.length ∧
    (j.popped ++ j.queue.items).Sublist j.pushed ∧
    match policy with
    | .dropOldest =>
      j.queue.items <:+ j.pushed ∧ ∀ p ∈ j.pushes, p.kept = decide (0 < capacity)
    | .dropNewest => (∀ p ∈ j.pushes, p.kept = p.room) ∧ j.taken ++ j.queue.items = j.kept := by
  intro j
  have h : Accounts j := (Accounts.ofEmpty capacity policy).run ops
  have queue : Follows (empty capacity policy) j.queue := follows_run (.ofQueue _) ops
  have room : j.queue.capacity = capacity := queue.capacity
  refine ⟨room ▸ h.fits, ?_, ?_, ?_⟩
  · rw [Journal.pushed, List.length_map, h.total, length_takings]
  · exact ((popped_sublist_taken j).append (.refl j.queue.items)).trans h.order
  · cases policy with
    | dropOldest =>
      obtain ⟨answers, last⟩ := h.oldest queue.policy
      refine ⟨last, fun p hp => ?_⟩
      rw [answers p hp, room]
    | dropNewest => exact h.newest queue.policy

/-- Of three elements two find room; the policy decides which of them go. -/
example :
    let ops : List (Op Nat) := [.push 1, .push 2, .push 3, .pop, .push 4, .push 5, .clear, .push 6]
    let newest := (Journal.ofQueue (empty 2 .dropNewest)).run ops
    let oldest := (Journal.ofQueue (empty 2 .dropOldest)).run ops
    (newest.popped = [1] ∧ newest.cleared = [2, 4] ∧ newest.queue.items = [6] ∧
      newest.queue.dropped = 2) ∧
    oldest.popped = [2] ∧ oldest.cleared = [4, 5] ∧ oldest.queue.items = [6] ∧
      oldest.queue.dropped = 2 := by
  decide

end AtModem.BoundedQueue
