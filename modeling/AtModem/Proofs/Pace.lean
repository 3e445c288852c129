/-
  Reading bytes as they come.

  A read gets the next byte if that is there by the deadline, wherever the polls fall, and whatever time
  the clock is past the deadline when it gives up (`Awaits`).  So where no byte comes later than the byte
  timeout after the one before it, what gives each byte the byte timeout never misses one: it reads what it
  would read if all of them were there, and times out only where they end.

  Two streams with the same bytes to read are therefore read in lock step, however differently the bytes
  come and however often the links are polled (`Alongside`).  Each reading function that gives every byte
  the byte timeout has one lemma that says so, and longer ones are put together from them by `Alike.bind`.
-/
import AtModem.Proofs.Consumption
import Mathlib.Data.List.Chain

namespace AtModem

/-! ## Computations on two states -/

/-- Two results that say the same, in states that `R` relates: the same value, or the same error. -/
inductive Agree {ε σ τ α : Type} (R : σ → τ → Prop) :
    EStateM.Result ε σ α → EStateM.Result ε τ α → Prop
  | ok (a : α) {s : σ} {t : τ} : R s t → Agree R (.ok a s) (.ok a t)
  | error (err : ε) {s : σ} {t : τ} : R s t → Agree R (.error err s) (.error err t)

/-- From states that `R` relates the computation comes to results that say the same.  It is how two
    runs at different paces are compared: the computation is the same one, and the states differ in
    their times only. -/
def Alike {ε σ α : Type} (R : σ → σ → Prop) (x : EStateM ε σ α) : Prop :=
  ∀ s t, R s t → Agree R (x s) (x t)

namespace Alike

variable {ε σ α β : Type} {R : σ → σ → Prop}

protected theorem pure (a : α) : Alike R (pure a : EStateM ε σ α) := fun _ _ h => .ok a h

protected theorem throw (err : ε) : Alike R (throw err : EStateM ε σ α) := fun _ _ h => .error err h

/-- Computations that are alike may be put one behind the other, since what the second one gets from
    the first is the same. -/
protected theorem bind {x : EStateM ε σ α} {f : α → EStateM ε σ β} (hx : Alike R x)
    (hf : ∀ a, Alike R (f a)) : Alike R (x >>= f) := by
  intro s t h
  have first := hx s t h
  generalize r : x s = p at first
  generalize r' : x t = q at first
  cases first with
  | ok a k =>
    rw [bind_of_ok r, bind_of_ok r']
    exact hf a _ _ k
  | error err k =>
    rw [bind_of_error r, bind_of_error r']
    exact .error err k

end Alike

namespace Schedule

/-! ## Bytes at equal intervals -/

/-- Whatever the intervals, the bytes are the bytes. -/
theorem map_byte_spaced (gap start : Nat) (bs : Bytes) :
    (spaced gap start bs).map Arrival.byte = bs := by
  induction bs generalizing start with
  | nil => rfl
  | cons b bs ih => exact congrArg (b :: ·) (ih (start + gap))

/-- The second part begins where the intervals of the first have passed. -/
theorem spaced_append (gap start : Nat) (xs ys : Bytes) :
    spaced gap start (xs ++ ys) = spaced gap start xs ++ spaced gap (start + gap * xs.length) ys := by
  induction xs generalizing start with
  | nil => rfl
  | cons x xs ih =>
    have further : start + gap + gap * xs.length = start + gap * (xs.length + 1) := by
      rw [Nat.mul_succ]
      omega
    rw [List.cons_append, spaced, ih, further]
    rfl

/-- The last of them comes when all the intervals between them have passed, and the others before
    that. -/
theorem time_le_of_mem_spaced {gap start : Nat} {bs : Bytes} {a : Arrival}
    (h : a ∈ spaced gap start bs) : a.time ≤ start + gap * bs.length := by
  induction bs generalizing start with
  | nil => cases h
  | cons b bs ih =>
    rw [List.length_cons, Nat.mul_succ]
    rcases List.mem_cons.mp h with rfl | later
    · exact Nat.le_add_right _ _
    · have := ih later
      omega

/-- Each comes one interval after the one before it. -/
theorem isChain_spaced {gap limit : Nat} (le : gap ≤ limit) (start : Nat) (bs : Bytes) :
    (spaced gap start bs).IsChain fun a b => b.time ≤ a.time + limit := by
  induction bs generalizing start with
  | nil => exact .nil
  | cons b bs ih =>
    refine List.isChain_cons.mpr ⟨fun a ha => ?_, ih (start + gap)⟩
    cases bs with
    | nil => cases ha
    | cons c bs =>
      obtain rfl : ⟨start + gap, c⟩ = a := Option.some.inj ha
      exact Nat.add_le_add_left le start

end Schedule

namespace Stream

variable {σ α β : Type} {all all' as as' : List Arrival} {s s' t : Stream σ} {b : UInt8}

/-! ## The times of the polls -/

/-- From `s` to `t` the polls keep the times at which they fall, as far as they come no earlier than the
    bytes of `as`. -/
def SamePolls (as : List Arrival) (s t : Stream σ) : Prop :=
  ∀ time, (∀ a ∈ as, a.time ≤ s.lastPoll time) → t.lastPoll time = s.lastPoll time

/-- Where the read of one byte leaves the later polls alone, and the reads behind it do, all of them
    together do. -/
theorem SamePolls.cons {a : Arrival} {u : Stream σ} (first : SamePolls [a] s t)
    (others : SamePolls as t u) : SamePolls (a :: as) s u := by
  intro time due
  obtain ⟨soon, later⟩ := List.forall_mem_cons.mp due
  have same : t.lastPoll time = s.lastPoll time := first time (by simpa using soon)
  rw [← same] at later
  exact (others time later).trans same

/-! ## What is still to come -/

/-- What there is to read, with the times at which it arrives.  What is there already arrives now. -/
def arrivals (s : Stream σ) : List Arrival :=
  (s.lookahead.toList ++ s.link.queued).map (Arrival.mk s.now) ++ s.link.scheduled.arrivals

/-- Of the bytes that arrive as `all` says, those of `as` are still to be read; the others have
    come.  Reading moves along the list and leaves it as it is otherwise, so the times that were
    fixed at the beginning stay those of the bytes to come. -/
structure Awaits (all as : List Arrival) (s : Stream σ) : Prop where
  unread : s.unread = as.map Arrival.byte
  arrivedBy : ∀ time, s.now ≤ time →
    s.arrivedBy time = (as.takeWhile (·.time ≤ time)).map Arrival.byte
  past : ∃ front, all = front ++ as ∧ ∀ a ∈ front, a.time ≤ s.now

/-- To begin with, all that is to come is still to come. -/
theorem awaits_arrivals (s : Stream σ) : Awaits s.arrivals s.arrivals s where
  unread := by
    simp [Stream.unread, arrivals, Schedule.bytes, Function.comp_def]
  arrivedBy time late := by
    have here : ∀ a ∈ (s.lookahead.toList ++ s.link.queued).map (Arrival.mk s.now),
        decide (a.time ≤ time) = true := by
      intro a ha
      obtain ⟨b, -, rfl⟩ := List.mem_map.mp ha
      exact decide_eq_true late
    rw [arrivals, List.takeWhile_append_of_pos here]
    simp [Stream.arrivedBy, Schedule.due, Function.comp_def]
  past := ⟨[], rfl, by simp⟩

/-- What is read before another byte arrives no later than that, or is there already.  What has come
    already is read first, whatever time it came at. -/
theorem pairwise_arrivals (s : Stream σ) :
    s.arrivals.Pairwise fun a b => a.time ≤ max s.now b.time := by
  have here : ∀ a ∈ (s.lookahead.toList ++ s.link.queued).map (Arrival.mk s.now), a.time = s.now := by
    intro a ha
    obtain ⟨b, -, rfl⟩ := List.mem_map.mp ha
    rfl
  refine List.pairwise_append.mpr ⟨?_, ?_, ?_⟩
  · refine (List.pairwise_of_forall (R := fun _ _ => True) fun _ _ => trivial).imp_of_mem ?_
    intro a b ha _ _
    have := here a ha
    omega
  · refine s.link.scheduled.ordered.imp fun {a b} ordered => ?_
    have : a.time ≤ b.time := by simpa [Arrival.notAfter] using ordered
    omega
  · intro a ha b _
    have := here a ha
    omega

namespace Awaits

/-- The byte that was taken is the next one, and it has come; putting it back makes it the next one
    again.  Putting it back does not change the list, as its time has passed. -/
theorem of_took (h : Awaits all as s) (took : Took b s t) (later : s.now ≤ t.now) :
    ∃ a rest, as = a :: rest ∧ a.byte = b ∧ a.time ≤ t.now ∧ Awaits all rest t ∧
      Awaits all as (t.pushBack b) := by
  have unread := h.unread
  rw [took.unread] at unread
  cases as with
  | nil => cases unread
  | cons a rest =>
    obtain ⟨rfl, others⟩ := List.cons.inj unread
    -- from now on the first byte has arrived, so what has arrived by any later time is it and more
    have come : ∀ time, t.now ≤ time → a.time ≤ time ∧
        t.arrivedBy time = (rest.takeWhile (·.time ≤ time)).map Arrival.byte := by
      intro time late
      have arrived := h.arrivedBy time (Nat.le_trans later late)
      rw [took.arrivedBy time late] at arrived
      by_cases early : a.time ≤ time
      · rw [List.takeWhile_cons_of_pos (by simpa using early)] at arrived
        exact ⟨early, (List.cons.inj arrived).2⟩
      · rw [List.takeWhile_cons_of_neg (by simpa using early)] at arrived
        cases arrived
    have now := (come t.now (Nat.le_refl _)).1
    obtain ⟨front, split, past⟩ := h.past
    refine ⟨a, rest, rfl, rfl, now, ⟨others, fun time late => (come time late).2, front ++ [a], ?_, ?_⟩,
      ⟨?_, fun time late => ?_, front, split, fun c hc => Nat.le_trans (past c hc) later⟩⟩
    -- what is gone has been read, the byte included
    · rw [split, List.append_assoc, List.singleton_append]
    · intro c hc
      rcases List.mem_append.mp hc with hc | hc
      · exact Nat.le_trans (past c hc) later
      · rwa [List.mem_singleton.mp hc]
    -- put back, the byte is the first of what is to come
    · rw [unread_pushBack_of_took took]
      exact h.unread
    · rw [← h.arrivedBy time (Nat.le_trans later late), took.arrivedBy time late]
      simp [Stream.arrivedBy, pushBack, took.lookahead]

/-- A read that gets a byte gets the next one that was to come.  This is the step for everything
    that reads at such a pace; no read of this kind is in vain before the bytes end. -/
theorem of_some {deadline : Nat} (h : Awaits all as s) (r : s.readBy deadline = (some b, t)) :
    ∃ a rest, as = a :: rest ∧ a.byte = b ∧ a.time ≤ t.now ∧ Awaits all rest t ∧
      Awaits all as (t.pushBack b) := by
  have later := (readBy_spec deadline s).1
  rw [r] at later
  exact h.of_took (took_readBy r) later

/-- Nothing has come by the last poll of a read that gives up, so the next byte comes behind its
    deadline.  Its last poll is at the deadline or after it, and it looked for bytes up to there. -/
theorem of_none {deadline : Nat} (h : Awaits all as s) (r : s.readBy deadline = (none, t)) :
    (∀ a ∈ as.head?, deadline < a.time) ∧ Awaits all as t := by
  have read := readBy_arrival deadline s
  rw [r] at read
  obtain ⟨-, rfl, nothing⟩ := read
  have later := s.now_le_lastPoll deadline
  refine ⟨fun a ha => ?_, h.unread, fun time late => h.arrivedBy time (Nat.le_trans later late), ?_⟩
  · rw [h.arrivedBy _ later] at nothing
    obtain ⟨rest, rfl⟩ := List.head?_eq_some_iff.mp ha
    by_contra early
    have due : a.time ≤ s.lastPoll deadline :=
      Nat.le_trans (Nat.le_of_not_lt early) (s.deadline_le_lastPoll deadline)
    rw [List.takeWhile_cons_of_pos (by simpa using due)] at nothing
    cases nothing
  · obtain ⟨front, split, past⟩ := h.past
    exact ⟨front, split, fun a ha => Nat.le_trans (past a ha) later⟩

/-- The byte that is read does not move the polls that come no earlier than it.  Reading takes no
    time of its own, and idling goes on in the same steps. -/
theorem samePolls {a : Arrival} {deadline : Nat} (h : Awaits all (a :: as) s)
    (r : s.readBy deadline = (some b, t)) : SamePolls [a] s t := by
  fun_induction Stream.readBy deadline s with
  | case1 s c u e =>
    -- it was there, and no time has passed
    cases r
    exact fun time _ => lastPoll_congr (now_tryRead e) (took_tryRead e).pollInterval
  | case2 s e d => cases r
  | case3 s e d ih =>
    -- nothing was there, so the byte is still to come, and so is the poll that is asked for
    have absent : s.now < a.time := by
      have nothing := arrivedBy_of_tryRead e
      rw [h.arrivedBy s.now (Nat.le_refl _)] at nothing
      by_contra come
      rw [List.takeWhile_cons_of_pos (by simpa using come)] at nothing
      cases nothing
    have later := s.now_le_idle
    obtain ⟨front, split, past⟩ := h.past
    have waits : Awaits all (a :: as) s.idle :=
      ⟨h.unread, fun time late => h.arrivedBy time (Nat.le_trans later late), front, split,
        fun c hc => Nat.le_trans (past c hc) later⟩
    intro time due
    have ahead : s.now < time := by
      have poll := due a List.mem_cons_self
      by_contra behind
      rw [lastPoll_of_le (by omega)] at poll
      omega
    rw [← lastPoll_idle ahead] at due ⊢
    exact ih waits r time due

/-- A byte that is there by the last poll is read, wherever the polls before that fall. -/
theorem readBy {a : Arrival} {deadline : Nat} (h : Awaits all (a :: as) s)
    (inTime : a.time ≤ s.lastPoll deadline) :
    ∃ t, s.readBy deadline = (some a.byte, t) ∧ Awaits all as t ∧ SamePolls [a] s t := by
  rcases r : s.readBy deadline with ⟨_ | b, t⟩
  · have read := readBy_arrival deadline s
    rw [r] at read
    obtain ⟨-, -, nothing⟩ := read
    rw [h.arrivedBy _ (s.now_le_lastPoll deadline),
      List.takeWhile_cons_of_pos (by simpa using inTime)] at nothing
    cases nothing
  · obtain ⟨a', rest, same, byte, -, k, -⟩ := h.of_some r
    obtain ⟨rfl, rfl⟩ := List.cons.inj same
    exact ⟨t, by rw [byte], k, h.samePolls r⟩

/-- A byte that comes after the last poll is not, and the read gives up at that poll. -/
theorem readBy_late {deadline : Nat} (h : Awaits all as s)
    (late : ∀ a ∈ as.head?, s.lastPoll deadline < a.time) :
    ∃ t, s.readBy deadline = (none, t) ∧ Awaits all as t ∧ t.now = s.lastPoll deadline := by
  have read := readBy_arrival deadline s
  rcases r : s.readBy deadline with ⟨_ | b, t⟩
  · rw [r] at read
    obtain ⟨-, rfl, -⟩ := read
    exact ⟨_, rfl, (h.of_none r).2, rfl⟩
  · obtain ⟨a, rest, rfl, -, come, -⟩ := h.of_some r
    rw [r] at read
    have last := t.now_le_lastPoll deadline
    have := late a rfl
    omega

end Awaits

/-! ## At a steady pace -/

/-- No byte comes later than the byte timeout after the one before it, the next one not later than
    that after now.  At such a pace no byte comes too late to be read, so what a reader does is
    decided by the bytes. -/
structure Steady (all as : List Arrival) (s : Stream σ) : Prop extends Awaits all as s where
  next : ∀ a ∈ as.head?, a.time ≤ s.byteDeadline
  spaced : as.IsChain fun a b => b.time ≤ a.time + s.byteTimeout

namespace Steady

/-- At a steady pace a read gets the next byte, and the pace behind it is as steady. -/
theorem of_some (h : Steady all as s) (r : s.readBy s.byteDeadline = (some b, t)) :
    ∃ a rest, as = a :: rest ∧ a.byte = b ∧ Steady all rest t ∧ Steady all as (t.pushBack b) := by
  obtain ⟨a, rest, rfl, byte, come, k, back⟩ := h.toAwaits.of_some r
  have onward := keptByReading_onward.readBy s.byteDeadline s
  rw [r] at onward
  have timeout : t.byteTimeout = s.byteTimeout := onward.byteTimeout
  have spaced := h.spaced
  rw [← timeout] at spaced
  obtain ⟨gap, others⟩ := List.isChain_cons.mp spaced
  refine ⟨a, rest, rfl, byte, ⟨k, fun c hc => ?_, others⟩, ⟨back, fun c hc => ?_, spaced⟩⟩
  · have := gap c hc
    show c.time ≤ t.now + t.byteTimeout
    omega
  · obtain rfl : a = c := Option.some.inj hc
    show a.time ≤ t.now + t.byteTimeout
    omega

/-- A read gives up only where the bytes end, since each comes within the byte timeout of the one
    before. -/
theorem of_none (h : Steady all as s) (r : s.readBy s.byteDeadline = (none, t)) :
    as = [] ∧ Steady all [] t := by
  obtain ⟨late, k⟩ := h.toAwaits.of_none r
  cases as with
  | nil => exact ⟨rfl, k, by simp, .nil⟩
  | cons a rest =>
    have := late a rfl
    have := h.next a rfl
    omega

end Steady

/-! ## In lock step -/

/-- The same bytes are to be read from both streams, and from both they come at a steady pace. -/
def Alongside (all all' : List Arrival) (s s' : Stream σ) : Prop :=
  ∃ as as', Steady all as s ∧ Steady all' as' s' ∧ as.map Arrival.byte = as'.map Arrival.byte

namespace Alongside

/-- Two streams alongside have the same bytes to read. -/
theorem unread (h : Alongside all all' s s') : s.unread = s'.unread := by
  obtain ⟨as, as', k, k', same⟩ := h
  rw [k.unread, k'.unread, same]

/-- What one of them reads the other reads too, at a time of its own. -/
theorem of_some (h : Alongside all all' s s') (r : s.readBy s.byteDeadline = (some b, t)) :
    ∃ t', s'.readBy s'.byteDeadline = (some b, t') ∧ Alongside all all' t t' ∧
      Alongside all all' (t.pushBack b) (t'.pushBack b) := by
  obtain ⟨as, as', k, k', same⟩ := h
  obtain ⟨a, rest, rfl, rfl, m, back⟩ := k.of_some r
  rcases r' : s'.readBy s'.byteDeadline with ⟨_ | c, t'⟩
  · obtain ⟨rfl, -⟩ := k'.of_none r'
    cases same
  · obtain ⟨a', rest', rfl, rfl, m', back'⟩ := k'.of_some r'
    obtain ⟨byte, others⟩ := List.cons.inj same
    rw [← byte] at back' ⊢
    exact ⟨t', rfl, ⟨rest, rest', m, m', others⟩, ⟨a :: rest, a' :: rest', back, back', same⟩⟩

/-- Where one of them gives up the other does, since both have come to the end. -/
theorem of_none (h : Alongside all all' s s') (r : s.readBy s.byteDeadline = (none, t)) :
    ∃ t', s'.readBy s'.byteDeadline = (none, t') ∧ Alongside all all' t t' := by
  obtain ⟨as, as', k, k', same⟩ := h
  obtain ⟨rfl, m⟩ := k.of_none r
  rcases r' : s'.readBy s'.byteDeadline with ⟨_ | c, t'⟩
  · obtain ⟨rfl, m'⟩ := k'.of_none r'
    exact ⟨t', rfl, [], [], m, m', rfl⟩
  · obtain ⟨a', rest', rfl, -⟩ := k'.of_some r'
    cases same

end Alongside

/-! ## Folds -/

theorem scan_of_none {deadline : Stream σ → Nat} {next : α → UInt8 → Scan α β} {a : α}
    (r : s.readBy (deadline s) = (none, t)) : s.scan deadline next a = (.more a, t) := by
  rw [scan]
  split <;> rename_i e <;> rw [r] at e <;> cases e
  rfl

/-- A fold that gets a byte goes on with what comes of it. -/
theorem scan_of_some {deadline : Stream σ → Nat} {next : α → UInt8 → Scan α β} {a : α}
    (r : s.readBy (deadline s) = (some b, t)) :
    s.scan deadline next a =
      match next a b with
      | .stop r => (.stop r, t)
      | .more a => t.scan deadline next a := by
  rw [scan]
  split <;> rename_i e <;> rw [r] at e <;> cases e
  rfl

/-- Both folds come to the same, and so they do if the byte at which they stopped is put back.  By
    induction along the fold on one side, with the other side reading the same byte at each step. -/
theorem Alongside.scan (h : Alongside all all' s s') (next : α → UInt8 → Scan α β) (a : α) :
    ∃ r t t', s.scan byteDeadline next a = (r, t) ∧ s'.scan byteDeadline next a = (r, t') ∧
      Alongside all all' t t' ∧
      ∀ o b, r = .stop o → (∀ a c, next a c = .stop o → c = b) →
        Alongside all all' (t.pushBack b) (t'.pushBack b) := by
  generalize hd : byteDeadline (σ := σ) = deadline
  fun_induction Stream.scan deadline next a s generalizing s' with
  | case1 a s t r =>
    subst hd
    -- no byte comes on either side
    obtain ⟨t', r', k⟩ := h.of_none r
    exact ⟨.more a, t, t', rfl, scan_of_none r', k, by simp⟩
  | case2 a s b t r o stop =>
    subst hd
    -- the same byte comes on both, and both stop; only it may be put back
    obtain ⟨t', r', k, back⟩ := h.of_some r
    refine ⟨.stop o, t, t', rfl, by rw [scan_of_some r', stop], k, fun o' c same last => ?_⟩
    cases same
    rwa [← last a b stop]
  | case3 a s b t r a' more ih =>
    subst hd
    -- the same byte comes on both, and both go on
    obtain ⟨t', r', k, -⟩ := h.of_some r
    obtain ⟨o, u, u', e, e', rest⟩ := ih k
    exact ⟨o, u, u', e, by rw [scan_of_some r', more]; exact e', rest⟩

/-! ## What reads in lock step -/

/-- Looking for a byte reads in lock step; by induction on what one side reads. -/
theorem alike_find (target : UInt8) : Alike (Alongside all all') (find (σ := σ) target) := by
  intro s s' h
  obtain ⟨r, t, t', e, e', k, -⟩ := h.scan (fun () b => if b = target then .stop () else .more ()) ()
  unfold find
  rw [e, e']
  cases r with
  | stop => exact .ok () k
  | more => exact .error AtError.timedOut k

/-- So do the digits of a number, which may end where the bytes do on both sides. -/
theorem alike_parseDigits (v : Nat) : Alike (Alongside all all') (parseDigits (σ := σ) v) := by
  intro s s' h
  obtain ⟨r, t, t', e, e', k, back⟩ := h.scan takeDigit v
  unfold parseDigits
  rw [e, e']
  rcases r with (_ | ⟨w, b⟩) | w
  · exact .error _ k
  · exact .ok w (back _ b rfl fun _ _ stop => (takeDigit_eq_stop stop).2.2.symm)
  · exact .ok w k

theorem parseSign_of_none (r : s.readBy s.byteDeadline = (none, t)) :
    s.parseSign = .error .timedOut t := by
  rw [parseSign]
  split <;> rename_i e <;> rw [r] at e <;> cases e
  rfl

/-- One byte of the search for a number: a digit, a minus sign with what is behind it, or something
    to be skipped. -/
theorem parseSign_of_some (r : s.readBy s.byteDeadline = (some b, t)) :
    s.parseSign =
      if Decimal.isDigit b then .ok (false, Decimal.digit b) t
      else if b = Ascii.minus then
        match t.readBy t.byteDeadline with
        | (none, u) => .error .timedOut u
        | (some c, u) =>
          if Decimal.isDigit c then .ok (true, Decimal.digit c) u else (u.pushBack c).parseSign
      else t.parseSign := by
  rw [parseSign]
  split <;> rename_i e <;> rw [r] at e <;> cases e
  split
  · rfl
  · split
    · split <;> rename_i e' <;> rw [e']
    · rfl

/-- The search for a number reads in lock step, the byte put back behind a minus sign included.  By
    induction along the recursion on one side, with the other side following it. -/
theorem alike_parseSign : Alike (Alongside all all') (parseSign (σ := σ)) := by
  intro s s' h
  fun_induction parseSign s generalizing s' with
  | case1 s t r =>
    -- no byte comes
    obtain ⟨t', r', k⟩ := h.of_none r
    rw [parseSign_of_none r']
    exact .error _ k
  | case2 s b t r digit =>
    -- a digit comes
    obtain ⟨t', r', k, -⟩ := h.of_some r
    rw [parseSign_of_some r', if_pos digit]
    exact .ok _ k
  | case3 s t u q r other =>
    -- a minus sign comes, and nothing behind it
    obtain ⟨t', r', k, -⟩ := h.of_some r
    obtain ⟨u', q', m⟩ := k.of_none q
    rw [parseSign_of_some r', if_neg other, if_pos rfl, q']
    exact .error _ m
  | case4 s t c u q digit r other =>
    -- a minus sign comes, and a digit behind it
    obtain ⟨t', r', k, -⟩ := h.of_some r
    obtain ⟨u', q', m, -⟩ := k.of_some q
    rw [parseSign_of_some r', if_neg other, if_pos rfl, q']
    show Agree _ _ (if Decimal.isDigit c = true then _ else _)
    rw [if_pos digit]
    exact .ok _ m
  | case5 s t c u q noDigit r other ih =>
    -- a minus sign comes, and something else behind it, which is put back and looked at again
    obtain ⟨t', r', k, -⟩ := h.of_some r
    obtain ⟨u', q', -, back⟩ := k.of_some q
    rw [parseSign_of_some r', if_neg other, if_pos rfl, q']
    show Agree _ _ (if Decimal.isDigit c = true then _ else _)
    rw [if_neg noDigit]
    exact ih _ back
  | case6 s b t r other noMinus ih =>
    -- another byte comes and is passed over
    obtain ⟨t', r', k, -⟩ := h.of_some r
    rw [parseSign_of_some r', if_neg other, if_neg noMinus]
    exact ih _ k

/-- A number does, as its search and its digits do. -/
theorem alike_parseInt : Alike (Alongside all all') (parseInt (σ := σ)) :=
  alike_parseSign.bind fun _ => (alike_parseDigits _).bind fun _ => .pure _

theorem alike_parseLen : Alike (Alongside all all') (parseLen (σ := σ)) := by
  refine alike_parseInt.bind fun n => ?_
  split
  · exact .throw _
  · exact .pure _

/-- Both get the same bytes of a payload, and as many. -/
theorem Alongside.gather (h : Alongside all all' s s') (count : Nat) :
    ∃ got t t', s.gather count = (got, t) ∧ s'.gather count = (got, t') ∧ Alongside all all' t t' := by
  induction count generalizing s s' with
  | zero => exact ⟨[], s, s', rfl, rfl, h⟩
  | succ count ih =>
    rcases r : s.readBy s.byteDeadline with ⟨_ | b, t⟩
    · obtain ⟨t', r', k⟩ := h.of_none r
      exact ⟨[], t, t', by rw [gather_succ, r], by rw [gather_succ, r'], k⟩
    · obtain ⟨t', r', k, -⟩ := h.of_some r
      obtain ⟨got, u, u', e, e', m⟩ := ih k
      exact ⟨b :: got, u, u', by rw [gather_succ, r]; simp only [e], by rw [gather_succ, r']; simp only [e'], m⟩

/-- What has been gathered came before what is left, and nothing is between them. -/
theorem unread_gather (count : Nat) (s : Stream σ) :
    s.unread = (s.gather count).1 ++ (s.gather count).2.unread := by
  induction count generalizing s with
  | zero => rfl
  | succ count ih =>
    rw [gather_succ]
    rcases r : s.readBy s.byteDeadline with ⟨_ | b, t⟩
    · exact (unread_of_readBy_none r).symm
    · rw [(took_readBy r).unread, ih t]
      rfl

/-! ## What a length stands in -/

/-- A line with a number in it that can be a length: what comes before the number, the number, and
    the rest of the line.  Where such a line comes at a steady pace, the length is read and so is
    the rest of the line. -/
def LengthLine (n : Nat) (line : Bytes) : Prop :=
  ∃ skipped digits aside, Numeral n skipped digits ∧
    (∀ b ∈ aside.head?, Decimal.isDigit b = false) ∧ Ascii.lf ∉ aside ∧
    line = skipped ++ digits ++ aside ++ [Ascii.lf]

/-- At a steady pace the digits of a number end where another byte comes, and that was put back.
    Silence ends them only where no more bytes come at all, and then nothing is put back. -/
theorem Steady.parseDigits_ends {v w : Nat} (h : Steady all as s) (p : parseDigits v s = .ok w t) :
    t.lookahead = t.unread.head? ∧ ∀ b ∈ t.unread.head?, Decimal.isDigit b = false := by
  unfold parseDigits at p
  generalize hd : byteDeadline (σ := σ) = deadline at p
  generalize hn : takeDigit = next at p
  fun_induction Stream.scan deadline next v s generalizing as with
  | case1 v s t' r =>
    -- the digits end where all there is has been read
    subst hd
    cases p
    obtain ⟨-, k⟩ := h.of_none r
    have nothing : t.unread = [] := k.unread
    refine ⟨?_, by simp [nothing]⟩
    rw [nothing]
    rw [Stream.unread, List.append_eq_nil_iff] at nothing
    exact Option.toList_eq_nil_iff.mp nothing.1
  | case2 v s b t' r result stop =>
    subst hn
    rcases result with _ | ⟨w', c⟩
    · cases p
    -- they end at a byte that is put back
    · obtain ⟨other, -, rfl⟩ := takeDigit_eq_stop stop
      cases p
      rw [unread_pushBack (took_readBy r).lookahead]
      exact ⟨rfl, by simpa using other⟩
  | case3 v s b t' r v' more ih =>
    subst hd
    -- a digit, and the pace goes on behind it
    obtain ⟨a, rest, -, -, k, -⟩ := h.of_some r
    exact ih k p

/-- Behind the first digit of a number the pace is as steady as before. -/
theorem Steady.parseSign {p : Bool × Nat} (h : Steady all as s) (sign : s.parseSign = .ok p t) :
    ∃ rest, Steady all rest t := by
  have both := alike_parseSign s s ⟨as, as, h, h, rfl⟩
  rw [sign] at both
  cases both with
  | ok _ k =>
    obtain ⟨rest, -, k, -⟩ := k
    exact ⟨rest, k⟩

/-- What ends a number was put back, so the first byte behind it is no digit. -/
theorem Steady.parseInt_ends {n : Int} (h : Steady all as s) (number : parseInt s = .ok n t) :
    t.lookahead = t.unread.head? ∧ ∀ b ∈ t.unread.head?, Decimal.isDigit b = false := by
  obtain ⟨p, u, sign, number⟩ := bind_eq_ok number
  obtain ⟨w, v, value, same⟩ := bind_eq_ok number
  cases same
  obtain ⟨rest, k⟩ := h.parseSign sign
  exact k.parseDigits_ends value

/-- Where a length has been read and the rest of its line skipped, the bytes up to there are such a line. -/
theorem Steady.lengthLine {n : Nat} {u : Stream σ} (h : Steady all as s) (length : parseLen s = .ok n t)
    (skipped : find Ascii.lf t = .ok () u) :
    ∃ line, LengthLine n line ∧ s.unread = line ++ u.unread := by
  have number := parseLen_eq_ok length
  have ends := (h.parseInt_ends number).2
  obtain ⟨front, digits, numeral, before, -⟩ := parseInt_eq_ok number
  obtain ⟨aside, oneLine, behind⟩ := find_eq_ok skipped
  refine ⟨front ++ digits ++ aside ++ [Ascii.lf], ⟨front, digits, aside, numeral, ?_, oneLine, rfl⟩, ?_⟩
  · intro b hb
    obtain ⟨others, rfl⟩ := List.head?_eq_some_iff.mp hb
    exact ends b (by rw [behind]; rfl)
  · rw [before, behind]
    simp only [List.append_assoc, List.singleton_append]

end Stream
end AtModem
