/-
  Bytes that are still on their way.

  A schedule holds bytes with the times at which they arrive, in order of time.  Bytes that are
  scheduled for the same time arrive in the order in which they were scheduled, so a new reply is
  merged behind what is already there.  The order is part of the type: every schedule is sorted, and
  what is due at some time is an initial segment.
-/
import AtModem.Text.Utf8

namespace AtModem

/-- A byte and the time from which on it can be read. -/
structure Arrival where
  time : Nat
  byte : UInt8
  deriving DecidableEq, Repr

/-- Whether one arrival comes before another or at the same time, as the merge of two replies
    compares them. -/
def Arrival.notAfter (a b : Arrival) : Bool := a.time ≤ b.time

/-- Bytes on their way in the order of their times.  The order is part of the schedule, so no reader
    has to search it. -/
structure Schedule where
  arrivals : List Arrival
  ordered : arrivals.Pairwise (fun a b => a.notAfter b = true)

namespace Schedule

/-- Nothing is on its way. -/
def empty : Schedule := ⟨[], .nil⟩

/-- The bytes of a reply, the first at `start` and each of the others `gap` after the one before. -/
def spaced (gap : Nat) : Nat → Bytes → List Arrival
  | _, [] => []
  | start, b :: bs => ⟨start, b⟩ :: spaced gap (start + gap) bs

/-- No byte of a reply arrives before its first one. -/
theorem le_of_mem_spaced {gap start : Nat} {bs : Bytes} {a : Arrival}
    (h : a ∈ spaced gap start bs) : start ≤ a.time := by
  induction bs generalizing start with
  | nil => simp [spaced] at h
  | cons b bs ih =>
    simp only [spaced, List.mem_cons] at h
    rcases h with rfl | h
    · exact Nat.le_refl _
    · have := ih h
      omega

/-- The bytes of a reply arrive in the order in which they stand, since no gap is negative. -/
theorem spaced_ordered (gap start : Nat) (bs : Bytes) :
    (spaced gap start bs).Pairwise (fun a b => a.notAfter b = true) := by
  induction bs generalizing start with
  | nil => exact .nil
  | cons b bs ih =>
    refine .cons (fun a h => ?_) (ih _)
    have := le_of_mem_spaced h
    simp [Arrival.notAfter]
    omega

/-- Merges a reply in, behind everything that arrives no later.  Bytes that arrive at the same time
    keep the order of their replies. -/
def insert (s : Schedule) (start gap : Nat) (bs : Bytes) : Schedule where
  arrivals := s.arrivals.merge (spaced gap start bs) Arrival.notAfter
  ordered := List.pairwise_merge
    (by simp only [Arrival.notAfter, decide_eq_true_eq]; omega)
    (by simp only [Arrival.notAfter, Bool.or_eq_true, decide_eq_true_eq]; omega)
    _ _ s.ordered (spaced_ordered gap start bs)

/-- The bytes that have arrived by `now`, first arrival first. -/
def due (s : Schedule) (now : Nat) : Bytes :=
  (s.arrivals.takeWhile (·.time ≤ now)).map Arrival.byte

/-- What is still on its way after `now`. -/
def after (s : Schedule) (now : Nat) : Schedule where
  arrivals := s.arrivals.dropWhile (·.time ≤ now)
  ordered := s.ordered.sublist (List.dropWhile_suffix _).sublist

/-- How many bytes are on their way. -/
def size (s : Schedule) : Nat := s.arrivals.length

/-- What is due and what is still on its way are together what was on its way: no byte is lost at a
    moment, and none is given twice. -/
theorem size_due_add_after (s : Schedule) (now : Nat) :
    (s.due now).length + (s.after now).size = s.size := by
  simp only [due, after, size, List.length_map]
  rw [← List.length_append, List.takeWhile_append_dropWhile]

/-- When nothing has arrived, all of it is still on its way. -/
theorem after_of_due_eq_nil {s : Schedule} {now : Nat} (h : s.due now = []) : s.after now = s := by
  obtain ⟨arrivals, ordered⟩ := s
  cases arrivals with
  | nil => rfl
  | cons a as =>
    by_cases d : a.time ≤ now
    · simp [due, d] at h
    · simp [after, d]

end Schedule
end AtModem
