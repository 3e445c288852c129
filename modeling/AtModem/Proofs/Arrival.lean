/-
  When bytes arrive, and which of them a read can see.

  A read polls the link, and idles for one step of the clock between two polls, until it gets a byte or
  a poll at or after its deadline finds none.  So whatever it does, its polls fall on the same times,
  and the last of them is known beforehand: `lastPoll`.  What has arrived by then is what reads with
  that deadline can get, in the order of arrival; what they leave, and what arrives later, stays
  unread, in the same order.
-/
import Mathlib.Data.List.TakeWhile
import AtModem.Stream

namespace AtModem

namespace Schedule

/-- What is due later is due already or still on its way, and the parts come in this order.  So
    looking now and again later gives what looking once would have given. -/
theorem due_append_due_after (s : Schedule) {now later : Nat} (h : now ≤ later) :
    s.due now ++ (s.after now).due later = s.due later := by
  unfold due after
  rw [← List.map_append]
  congr 1
  show _ ++ (s.arrivals.dropWhile fun a => a.time ≤ now).takeWhile (fun a => a.time ≤ later) = _
  induction s.arrivals with
  | nil => rfl
  | cons a as ih =>
    by_cases d : a.time ≤ now
    · have d' : a.time ≤ later := Nat.le_trans d h
      simp only [List.takeWhile_cons, List.dropWhile_cons, d, d', decide_true, ↓reduceIte,
        List.cons_append, ih]
    · simp only [List.takeWhile_cons, List.dropWhile_cons, d, decide_false, Bool.false_eq_true,
        ↓reduceIte, List.nil_append]

/-- All that is on its way, first arrival first, whenever it comes. -/
def bytes (s : Schedule) : Bytes := s.arrivals.map Arrival.byte

/-- What has arrived and what is on its way are all that was scheduled, in the same order. -/
theorem due_append_bytes_after (s : Schedule) (now : Nat) :
    s.due now ++ (s.after now).bytes = s.bytes := by
  unfold due after bytes
  rw [← List.map_append, List.takeWhile_append_dropWhile]

end Schedule

namespace Stream

variable {σ : Type}

/-- What there is to read by some time, in the order of arrival: the byte that was put back, the
    queue, and what is due.  It only grows with time, and a read with a deadline is decided by it
    alone. -/
def arrivedBy (time : Nat) (s : Stream σ) : Bytes :=
  s.lookahead.toList ++ (s.link.queued ++ s.link.scheduled.due time)

/-- What there is to read, now or later, in the order of arrival.  Reading takes its first byte and
    idling leaves it as it is. -/
def unread (s : Stream σ) : Bytes :=
  s.lookahead.toList ++ (s.link.queued ++ s.link.scheduled.bytes)

/-- When nothing is on its way any more, all there is to read has arrived, and waiting longer gives
    no more. -/
theorem arrivedBy_of_arrived {s : Stream σ} {time : Nat}
    (arrived : ∀ a ∈ s.link.scheduled.arrivals, a.time ≤ time) : s.arrivedBy time = s.unread := by
  have due : s.link.scheduled.due time = s.link.scheduled.bytes := by
    unfold Schedule.due Schedule.bytes
    rw [List.takeWhile_eq_self_iff.mpr fun a ha => decide_eq_true (arrived a ha)]
  rw [arrivedBy, unread, due]

/-- A byte that was put back comes before everything else, at whatever time one looks. -/
theorem arrivedBy_pushBack {s : Stream σ} (empty : s.lookahead = none) (b : UInt8) (time : Nat) :
    (s.pushBack b).arrivedBy time = b :: s.arrivedBy time := by
  simp [arrivedBy, pushBack, empty]

theorem unread_pushBack {s : Stream σ} (empty : s.lookahead = none) (b : UInt8) :
    (s.pushBack b).unread = b :: s.unread := by
  simp [unread, pushBack, empty]

/-! ## One poll -/

/-- `t` is `s` after the byte `b` was read from it: the clock, the measures and all that is behind
    the byte are as they were.  It is all that later proofs need to know of a read that has got a
    byte, so none of them opens the reader again. -/
structure Took (b : UInt8) (s t : Stream σ) : Prop where
  unread : s.unread = b :: t.unread
  arrivedBy : ∀ time, t.now ≤ time → s.arrivedBy time = b :: t.arrivedBy time
  lookahead : t.lookahead = none
  pollInterval : t.pollInterval = s.pollInterval

/-- A byte that is taken is the first of those to be read, and taking it changes nothing else.  The
    byte that was put back comes first, then the queue, then what is due by now. -/
theorem took_tryRead {s t : Stream σ} {b : UInt8} (h : s.tryRead = some (b, t)) : Took b s t := by
  have l := lookahead_tryRead h
  unfold tryRead at h
  split at h
  · rename_i e
    cases h
    refine ⟨?_, fun time _ => ?_, rfl, rfl⟩
    · simp [unread, e]
    · simp [arrivedBy, e]
  · rename_i e
    simp only [Option.map_eq_some_iff, Prod.exists, Prod.mk.injEq] at h
    obtain ⟨b, link, r, rfl, rfl⟩ := h
    unfold Link.read? at r
    split at r
    · cases r
    · rename_i c rest q
      cases r
      rw [Link.deliver_eq] at q
      replace q : s.link.queued ++ s.link.scheduled.due s.link.now = b :: rest := q
      refine ⟨?_, fun time late => ?_, e, rfl⟩
      · -- delivery moves what is due from the schedule to the queue, in order
        have d := s.link.scheduled.due_append_bytes_after s.link.now
        simp only [unread, e, Link.deliver_eq, Option.toList_none, List.nil_append]
        rw [← d, ← List.append_assoc, q]
        rfl
      · replace late : s.link.now ≤ time := by simpa [now, Link.deliver_eq] using late
        have d := s.link.scheduled.due_append_due_after late
        simp only [arrivedBy, e, Link.deliver_eq, Option.toList_none, List.nil_append]
        rw [← d, ← List.append_assoc, q]
        rfl

/-- A poll that finds nothing says that nothing has arrived, neither in the queue nor by the
    schedule nor put back. -/
theorem arrivedBy_of_tryRead {s : Stream σ} (h : s.tryRead = none) : s.arrivedBy s.now = [] := by
  unfold tryRead at h
  split at h
  · cases h
  · rename_i e
    rw [Option.map_eq_none_iff] at h
    unfold Link.read? at h
    split at h
    · rename_i q
      rw [Link.deliver_eq] at q
      simp only [arrivedBy, e, Option.toList_none, List.nil_append]
      exact q
    · cases h

/-! ## A read -/

/-- The time of the last poll of reads that begin now and have this deadline: the first poll that is
    not before the deadline.  A byte that arrives between the deadline and this poll still counts,
    and so a wait can return something after its deadline. -/
def lastPoll (deadline : Nat) (s : Stream σ) : Nat :=
  s.now + s.step * ((deadline - s.now + s.step - 1) / s.step)

/-- The last poll of a read is no earlier than its beginning. -/
theorem now_le_lastPoll (deadline : Nat) (s : Stream σ) : s.now ≤ s.lastPoll deadline :=
  Nat.le_add_right _ _

/-- Nor is it before the deadline, since a read gives up only at a poll that comes at its deadline
    or later. -/
theorem deadline_le_lastPoll (deadline : Nat) (s : Stream σ) : deadline ≤ s.lastPoll deadline := by
  have p := s.step_pos
  have h := Nat.div_add_mod (deadline - s.now + s.step - 1) s.step
  have m := Nat.mod_lt (deadline - s.now + s.step - 1) p
  unfold lastPoll
  omega

/-- A deadline that has passed leaves a single poll, which is now. -/
theorem lastPoll_of_le {deadline : Nat} {s : Stream σ} (h : deadline ≤ s.now) :
    s.lastPoll deadline = s.now := by
  have p := s.step_pos
  have z : (deadline - s.now + s.step - 1) / s.step = 0 := Nat.div_eq_of_lt (by omega)
  rw [lastPoll, z, Nat.mul_zero, Nat.add_zero]

/-- The last poll is the same from one idle step to the next, which is why it is known beforehand.
    Both count in steps from where they begin, and an idle step is one of them. -/
theorem lastPoll_idle {deadline : Nat} {s : Stream σ} (h : s.now < deadline) :
    s.idle.lastPoll deadline = s.lastPoll deadline := by
  have p := s.step_pos
  have n : s.idle.now = s.now + s.step := rfl
  have z : s.idle.step = s.step := rfl
  unfold lastPoll
  rw [n, z]
  -- the poll after this one is still not late, or it is the last
  by_cases c : s.now + s.step ≤ deadline
  · have e : deadline - s.now + s.step - 1 = deadline - (s.now + s.step) + s.step - 1 + s.step := by
      omega
    rw [e, Nat.add_div_right _ p, Nat.mul_succ]
    omega
  · have e₁ : (deadline - (s.now + s.step) + s.step - 1) / s.step = 0 :=
      Nat.div_eq_of_lt (by omega)
    have e₂ : (deadline - s.now + s.step - 1) / s.step = 1 :=
      Nat.div_eq_of_lt_le (by omega) (by omega)
    rw [e₁, e₂]
    omega

/-- It depends on the time and the interval and on nothing else, so two streams that agree in these
    have it in common. -/
theorem lastPoll_congr {deadline : Nat} {s t : Stream σ} (now : t.now = s.now)
    (interval : t.pollInterval = s.pollInterval) : t.lastPoll deadline = s.lastPoll deadline := by
  unfold lastPoll step
  rw [now, interval]

/-- What is known after a read: either a byte was there in time and was taken, or only time has passed
    and by the last poll nothing has arrived. -/
theorem readBy_arrival (deadline : Nat) (s : Stream σ) :
    let (r, t) := s.readBy deadline
    t.lastPoll deadline = s.lastPoll deadline ∧
      match r with
      | some b => Took b s t
      | none =>
        t = { s with link := { s.link with now := s.lastPoll deadline } } ∧
          s.arrivedBy (s.lastPoll deadline) = [] := by
  fun_induction readBy deadline s with
  | case1 s b t h =>
    -- the byte is there at the poll
    have k := took_tryRead h
    exact ⟨lastPoll_congr (now_tryRead h) k.pollInterval, k⟩
  | case2 s h d =>
    -- the deadline has come and nothing is there
    rw [lastPoll_of_le d]
    exact ⟨lastPoll_of_le d, rfl, arrivedBy_of_tryRead h⟩
  | case3 s h d ih =>
    -- one step later, with the deadline where it was
    rw [lastPoll_idle (by omega)] at ih
    revert ih
    cases s.idle.readBy deadline with
    | mk r t =>
      rintro ⟨l, ih⟩
      refine ⟨l, ?_⟩
      cases r with
      | some b => exact ⟨ih.unread, ih.arrivedBy, ih.lookahead, ih.pollInterval⟩
      | none => exact ih

/-- When there is nothing to come, a read lasts until its last poll and ends without a byte.  Of the
    two ways in which a read can go, the other one takes a byte. -/
theorem readBy_of_nothing {s : Stream σ} (nothing : s.unread = []) (deadline : Nat) :
    ∃ t, s.readBy deadline = (none, t) ∧ t.now = s.lastPoll deadline ∧ t.unread = [] := by
  have read := readBy_arrival deadline s
  cases r : s.readBy deadline with
  | mk o t =>
    rw [r] at read
    cases o with
    | some b =>
      have took := read.2.unread
      rw [nothing] at took
      cases took
    | none =>
      obtain ⟨_, late, _⟩ := read
      rw [late]
      exact ⟨_, rfl, rfl, nothing⟩

end Stream
end AtModem
