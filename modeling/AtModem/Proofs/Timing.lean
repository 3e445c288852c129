/-
  When a wait ends.

  A wait looks at its deadline only when a poll has found nothing, and between two polls the clock takes a
  whole step.  So it does not end when its deadline has come, but at the first poll from there on; and a
  byte is heard at the first poll from its arrival on, be that behind the deadline.

  The polls fall on times that are known when the wait begins, and reading does not move them (`SamePolls`).
  What is there by the last of them is heard, in the order of arrival, as far as the first byte that
  completes a candidate (`Waiting.waitUntil`).  The poll at which that byte is found is the end of the wait;
  if there is none, the last poll is.
-/
import AtModem.Proofs.Midway
import AtModem.Proofs.Notifications
import AtModem.Proofs.Pace
import Mathlib.Algebra.Order.Floor.Div

namespace AtModem

namespace Engine

open AtModem.Stream

variable {σ : Type} {all as as' : List Arrival} {f g : Engine σ} {X : Bytes}

/-! ## Waiting for bytes as they come -/

/-- `g` is `f` but for what has been read and heard. -/
def OnlyHeard (f g : Engine σ) : Prop :=
  g = { f with stream := g.stream, window := g.window, heard := g.heard }

namespace OnlyHeard

theorem withStream (h : OnlyHeard f g) (t : Stream σ) : OnlyHeard f { g with stream := t } := by
  unfold OnlyHeard at h ⊢
  rw [h]

theorem hear (h : OnlyHeard f g) (b : UInt8) : OnlyHeard f (g.hear b) := by
  unfold OnlyHeard at h ⊢
  rw [h]
  rfl

/-- In particular the same handlers are registered. -/
theorem handlers (h : OnlyHeard f g) : g.registry.handlers = f.registry.handlers := by rw [h]

/-- And the timeout of a wait that is given none is the same. -/
theorem defaultTimeout (h : OnlyHeard f g) : g.defaultTimeout = f.defaultTimeout := by rw [h]

end OnlyHeard

/-- `g` is `f` after a wait has heard it up to the end of `X`; the bytes of `as` are still to come.
    A byte that is heard moves from `as` to the end of `X`; nothing else moves, and so the times
    stay attached to their bytes. -/
structure Waiting (all as : List Arrival) (X : Bytes) (f g : Engine σ) : Prop where
  only : OnlyHeard f g
  window : g.window.EndOf X
  capacity : g.window.capacity = f.window.capacity
  byteTimeout : g.stream.byteTimeout = f.stream.byteTimeout
  stream : Awaits all as g.stream

namespace Waiting

theorem refl (h : Awaits all as f.stream) : Waiting all as f.window.bytes f f :=
  ⟨rfl, f.window.endOf_bytes, rfl, rfl, h⟩

/-- A byte that was read is heard, and the bytes to come are those behind it. -/
theorem hear {b : UInt8} {t : Stream σ} {deadline : Nat} (h : Waiting all as X f g)
    (r : g.stream.readBy deadline = (some b, t)) (k : Awaits all as' t) :
    Waiting all as' (X ++ [b]) f ({ g with stream := t }.hear b) := by
  have onward := keptByReading_onward.readBy deadline g.stream
  rw [r] at onward
  exact ⟨(h.only.withStream t).hear b, h.window.push b, h.capacity,
    onward.byteTimeout.trans h.byteTimeout, k⟩

/-- A read in vain moves the clock and nothing else. -/
theorem late {t : Stream σ} {deadline : Nat} (h : Waiting all as X f g)
    (r : g.stream.readBy deadline = (none, t)) (k : Awaits all as t) :
    Waiting all as X f { g with stream := t } := by
  have onward := keptByReading_onward.readBy deadline g.stream
  rw [r] at onward
  exact ⟨h.only.withStream t, h.window, h.capacity, onward.byteTimeout.trans h.byteTimeout, k⟩

/-- A wait goes as far as the first reply to what comes by its last poll; if there is none, it goes through
    all of that and times out there.  Until then its polls keep their times. -/
theorem waitUntil {here later : List Arrival} {deadline : Nat} (h : Waiting all (here ++ later) X f g)
    (silent : f.registry.handlers = []) (inTime : ∀ a ∈ here, a.time ≤ g.stream.lastPoll deadline)
    (cs : List (Bytes × MatchOutcome)) :
    match firstReply (reply f.window.capacity cs) X (here.map Arrival.byte) with
    | some (o, tail) => ∃ taken back g', here = taken ++ back ∧ tail = back.map Arrival.byte ∧
        g.waitUntil deadline cs = (o, g') ∧
        Waiting all (back ++ later) (X ++ taken.map Arrival.byte) f g' ∧
        SamePolls taken g.stream g'.stream
    | none => (∀ a ∈ later.head?, g.stream.lastPoll deadline < a.time) →
        ∃ g', g.waitUntil deadline cs = (.timedOut, g') ∧
          Waiting all later (X ++ here.map Arrival.byte) f g' ∧
          g'.now = g.stream.lastPoll deadline := by
  induction here generalizing X g with
  | nil =>
    intro late
    obtain ⟨t, r, k, last⟩ := h.stream.readBy_late late
    refine ⟨{ g with stream := t }, waitUntil_of_none r, ?_, last⟩
    rw [List.map_nil, List.append_nil]
    exact h.late r k
  | cons a here ih =>
    obtain ⟨first, others⟩ := List.forall_mem_cons.mp inTime
    obtain ⟨t, r, k, polls⟩ := h.stream.readBy first
    have next := h.hear r k
    -- the last poll is where it was, and what came before it still does
    have last : t.lastPoll deadline = g.stream.lastPoll deadline := polls deadline (by simpa using first)
    rw [← last] at others
    rw [waitUntil_of_some r, accept_of_no_handlers (e := { g with stream := t }) (h.only.handlers.trans silent),
      classify_eq_reply next.window, next.capacity, List.map_cons, firstReply]
    have behind (bs : Bytes) : X ++ [a.byte] ++ bs = X ++ a.byte :: bs := by simp
    cases found : reply f.window.capacity cs (X ++ [a.byte]) with
    | some o => exact ⟨[a], here, _, rfl, rfl, rfl, next, polls⟩
    | none =>
      have rest := ih next others
      cases q : firstReply (reply f.window.capacity cs) (X ++ [a.byte]) (here.map Arrival.byte) with
      | some found =>
        simp only [q] at rest ⊢
        obtain ⟨taken, back, g', split, tail, stop, k, more⟩ := rest
        rw [behind] at k
        exact ⟨a :: taken, back, g', by rw [split]; rfl, tail, stop, k, polls.cons more⟩
      | none =>
        simp only [q] at rest ⊢
        intro late
        obtain ⟨g', stop, k, now⟩ := rest (by
          intro c hc
          show t.lastPoll deadline < c.time
          rw [last]
          exact late c hc)
        rw [behind] at k
        exact ⟨g', stop, k, now.trans last⟩

end Waiting

/-! ## The byte that completes a candidate -/

/-- Behind the bytes of `before` the one of `a` is the first with which the window ends with a
    candidate; of those that it then ends with, `o` is the outcome of the first.  No earlier byte
    completes any candidate, so this is where a wait stops if it comes so far in time. -/
structure Completes (cs : List (Bytes × MatchOutcome)) (w : Window) (before : List Arrival) (a : Arrival)
    (o : MatchOutcome) : Prop where
  answer : reply w.capacity cs (w.bytes ++ (before ++ [a]).map Arrival.byte) = some o
  first : ∀ q, q <+: before.map Arrival.byte → q ≠ [] → reply w.capacity cs (w.bytes ++ q) = none

section

variable {cs : List (Bytes × MatchOutcome)} {w : Window} {before after here later : List Arrival}
  {a : Arrival} {o : MatchOutcome}

/-- The byte that completes a candidate brings the first reply, and it brings it at the end. -/
theorem Completes.firstReply (h : Completes cs w before a o) :
    firstReply (reply w.capacity cs) w.bytes ((before ++ [a]).map Arrival.byte) = some (o, []) := by
  refine firstReply_of_whole (fun q hq more part => ?_) (by simp) h.answer
  rw [List.map_append] at hq part
  rcases List.prefix_concat_iff.mp hq with whole | inside
  · exact absurd whole part
  · exact h.first q inside more

/-- Where there is a first reply, a candidate is completed, at the last byte that the reply
    needed. -/
theorem exists_completes {rest : Bytes}
    (h : Engine.firstReply (reply w.capacity cs) w.bytes (here.map Arrival.byte) = some (o, rest)) :
    ∃ before a after, here = before ++ a :: after ∧ Completes cs w before a o := by
  obtain ⟨front, b, split, answer, first⟩ := firstReply_first h
  obtain ⟨before, others, rfl, rfl, back⟩ := List.map_eq_append_iff.mp split
  obtain ⟨a, after, rfl, rfl, -⟩ := List.map_eq_cons_iff.mp back
  refine ⟨before, a, after, rfl, ?_, first⟩
  rwa [List.map_append]

/-! ## The two ways to end -/

/-- Handlers of notifications leave events, and nothing else is different with them. -/
theorem waitUntil_unattended (only : ∀ h ∈ f.registry.handlers, h.IsNotification) (deadline : Nat)
    (cs : List (Bytes × MatchOutcome)) :
    (f.waitUntil deadline cs).1 = (f.unattended.waitUntil deadline cs).1 ∧
      (f.waitUntil deadline cs).2.stream = (f.unattended.waitUntil deadline cs).2.stream := by
  obtain ⟨_, -, -, same⟩ := waitUntil_attended only deadline cs (e := f.unattended) rfl f.events
  replace same : f.waitUntil deadline cs = _ := same
  rw [same]
  exact ⟨rfl, rfl⟩

/-- A wait that finds its answer ends with the first poll from the arrival of its last byte on.  The
    handlers change neither bytes nor times, and so the wait is compared with one that has none. -/
theorem waitUntil_of_completes (only : ∀ h ∈ f.registry.handlers, h.IsNotification)
    (split : f.stream.arrivals = before ++ a :: after) (done : Completes cs f.window before a o)
    {deadline : Nat} (inTime : a.time ≤ f.stream.lastPoll deadline) :
    (f.waitUntil deadline cs).1 = o ∧ (f.waitUntil deadline cs).2.now = f.stream.lastPoll a.time ∧
      (f.waitUntil deadline cs).2.stream.unread = after.map Arrival.byte := by
  -- what stands before the byte has arrived no later, or had arrived before the wait
  have order : ∀ c ∈ before ++ [a], c.time ≤ max f.stream.now a.time := by
    have pairs := pairwise_arrivals f.stream
    rw [split] at pairs
    intro c hc
    rcases List.mem_append.mp hc with hc | hc
    · exact (List.pairwise_append.mp pairs).2.2 c hc a List.mem_cons_self
    · rw [List.mem_singleton.mp hc]
      omega
  have start : Waiting f.stream.arrivals f.stream.arrivals f.window.bytes f.unattended f.unattended :=
    .refl (f := f.unattended) (awaits_arrivals f.stream)
  have all : f.stream.arrivals = before ++ [a] ++ after := by rw [split, List.append_assoc]; rfl
  rw [all] at start
  have early : ∀ c ∈ before ++ [a], c.time ≤ f.stream.lastPoll deadline := by
    intro c hc
    have := order c hc
    have := f.stream.now_le_lastPoll deadline
    omega
  have walk := start.waitUntil rfl early cs
  rw [show f.unattended.window = f.window from rfl, done.firstReply] at walk
  obtain ⟨taken, back, g, parts, nothing, stop, k, polls⟩ := walk
  obtain rfl : back = [] := List.map_eq_nil_iff.mp nothing.symm
  rw [List.append_nil] at parts
  subst parts
  obtain ⟨outcome, stream⟩ := waitUntil_unattended only deadline cs
  rw [stop] at outcome stream
  show _ ∧ (f.waitUntil deadline cs).2.stream.now = _ ∧ _
  rw [stream]
  refine ⟨outcome, ?_, k.stream.unread⟩
  -- the poll for that byte is where it was, and it has come
  have same : g.stream.lastPoll a.time = f.stream.lastPoll a.time := by
    refine polls a.time fun c hc => ?_
    show c.time ≤ f.stream.lastPoll a.time
    have := order c hc
    have := f.stream.now_le_lastPoll a.time
    have := f.stream.deadline_le_lastPoll a.time
    omega
  obtain ⟨front, parts, past⟩ := k.stream.past
  obtain rfl : before ++ [a] = front := List.append_cancel_right parts
  rwa [lastPoll_of_le (past a (by simp))] at same

/-- A wait for which no candidate is completed in time ends with its last poll, and has heard all
    that came by then. -/
theorem waitUntil_of_not_completes (only : ∀ h ∈ f.registry.handlers, h.IsNotification)
    (split : f.stream.arrivals = here ++ later) (deadline : Nat)
    (inTime : ∀ a ∈ here, a.time ≤ f.stream.lastPoll deadline)
    (late : ∀ a ∈ later, f.stream.lastPoll deadline < a.time)
    (missed : ∀ before a after o, here = before ++ a :: after → ¬Completes cs f.window before a o) :
    (f.waitUntil deadline cs).1 = .timedOut ∧
      (f.waitUntil deadline cs).2.now = f.stream.lastPoll deadline ∧
      (f.waitUntil deadline cs).2.stream.unread = later.map Arrival.byte := by
  have start : Waiting f.stream.arrivals f.stream.arrivals f.window.bytes f.unattended f.unattended :=
    .refl (f := f.unattended) (awaits_arrivals f.stream)
  rw [split] at start
  have walk := start.waitUntil rfl inTime cs
  rw [show f.unattended.window = f.window from rfl] at walk
  cases r : Engine.firstReply (reply f.window.capacity cs) f.window.bytes (here.map Arrival.byte) with
  -- a candidate would be completed in time, which was excluded
  | some found =>
    obtain ⟨o, rest⟩ := found
    obtain ⟨before, a, after, parts, done⟩ := exists_completes r
    exact absurd done (missed before a after o parts)
  -- nothing is completed, and the handlers that run meanwhile change neither outcome nor bytes
  | none =>
    simp only [r] at walk
    obtain ⟨g, stop, k, last⟩ := walk fun a ha => late a (List.mem_of_mem_head? ha)
    obtain ⟨outcome, stream⟩ := waitUntil_unattended only deadline cs
    rw [stop] at outcome stream
    show _ ∧ (f.waitUntil deadline cs).2.stream.now = _ ∧ _
    rw [stream]
    exact ⟨outcome, last, k.stream.unread⟩

end

/-- What arrives by some time comes before what arrives later.  Arrivals are in order, apart from
    those that are there already. -/
theorem split_arrivals (s : Stream σ) {time : Nat} (h : s.now ≤ time) :
    ∃ here later, s.arrivals = here ++ later ∧ (∀ a ∈ here, a.time ≤ time) ∧
      ∀ a ∈ later, time < a.time := by
  let due : Arrival → Bool := fun a => a.time ≤ time
  have split : s.arrivals = s.arrivals.takeWhile due ++ s.arrivals.dropWhile due :=
    List.takeWhile_append_dropWhile.symm
  refine ⟨_, _, split, ?_, ?_⟩
  -- what is taken is due
  · intro a ha
    simpa [due] using List.mem_takeWhile_imp ha
  -- the first that is left is not due, and the others come no earlier
  · have order := pairwise_arrivals s
    rw [split] at order
    replace order := (List.pairwise_append.mp order).2.1
    generalize e : s.arrivals.dropWhile due = later at order
    cases later with
    | nil => simp
    | cons a later =>
      have first : time < a.time := by
        have stopped := List.head?_dropWhile_not due s.arrivals
        rw [e] at stopped
        simpa [due] using stopped
      intro c hc
      rcases List.mem_cons.mp hc with rfl | hc
      · exact first
      · have := (List.pairwise_cons.mp order).1 c hc
        omega

/-- The last poll is the first one from the deadline on: as many steps behind the start as it takes
    to get there. -/
theorem lastPoll_eq_ceilDiv (deadline : Nat) (s : Stream σ) :
    s.lastPoll deadline = s.now + s.step * ((deadline - s.now) ⌈/⌉ s.step) := by
  rw [Nat.ceilDiv_eq_add_pred_div]
  rfl

/-! ## When a wait ends -/

/-- When a wait ends on an engine with handlers of notifications only, to the millisecond.  If a candidate
    is completed by the last poll, the wait returns it with the first poll from then on, and leaves what
    comes behind it.  If none is, the wait times out with the last poll, and leaves what arrives after
    that.  A wait without time does not let any pass. -/
theorem wait_ends_with_poll (e : Engine σ) (only : ∀ h ∈ e.registry.handlers, h.IsNotification)
    (patterns : List Bytes) (timeout : Nat) (ok error : Bool) :
    let start := e.now
    let step := if e.stream.pollInterval = 0 then 1 else e.stream.pollInterval
    let last := start + step * (timeout ⌈/⌉ step)
    let cs := candidates patterns ok error
    let ended := e.wait patterns timeout ok error
    (∀ before a after o, e.stream.arrivals = before ++ a :: after → Completes cs e.window before a o →
        a.time ≤ last →
        ended.1 = o ∧
          ended.2.now = (if a.time ≤ start then start
            else start + step * ((a.time - start) ⌈/⌉ step)) ∧
          ended.2.stream.unread = after.map Arrival.byte) ∧
      ((∀ before a after o, e.stream.arrivals = before ++ a :: after →
          Completes cs e.window before a o → last < a.time) →
        ended.1 = .timedOut ∧ ended.2.now = last ∧
          ∃ here later, e.stream.arrivals = here ++ later ∧ (∀ a ∈ here, a.time ≤ last) ∧
            (∀ a ∈ later, last < a.time) ∧ ended.2.stream.unread = later.map Arrival.byte) ∧
      (timeout = 0 → ended.2.now = start) := by
  intro start step last cs ended
  -- the polls as the stream counts them
  have steps : step = e.stream.step := by
    simp only [step, Stream.step]
    split <;> omega
  have poll (time : Nat) : start + step * ((time - start) ⌈/⌉ step) = e.stream.lastPoll time := by
    rw [lastPoll_eq_ceilDiv, steps]
    rfl
  have lasts : last = e.stream.lastPoll (e.now + timeout) := by
    rw [← poll, Nat.add_sub_cancel_left]
  have found : ∀ before a after o, e.stream.arrivals = before ++ a :: after →
      Completes cs e.window before a o → a.time ≤ last →
      ended.1 = o ∧ ended.2.now = e.stream.lastPoll a.time ∧
        ended.2.stream.unread = after.map Arrival.byte :=
    fun before a after o split done inTime => waitUntil_of_completes only split done (lasts ▸ inTime)
  have missed : (∀ before a after o, e.stream.arrivals = before ++ a :: after →
      Completes cs e.window before a o → last < a.time) →
      ended.1 = .timedOut ∧ ended.2.now = last ∧
        ∃ here later, e.stream.arrivals = here ++ later ∧ (∀ a ∈ here, a.time ≤ last) ∧
          (∀ a ∈ later, last < a.time) ∧ ended.2.stream.unread = later.map Arrival.byte := by
    intro none
    obtain ⟨here, later, split, inTime, late⟩ :=
      split_arrivals e.stream (Nat.le_add_right _ _ : e.stream.now ≤ last)
    have absent : ∀ before a after o, here = before ++ a :: after → ¬Completes cs e.window before a o := by
      rintro before a after o rfl done
      have late := none before a (after ++ later) o (by rw [split]; simp) done
      exact absurd (inTime a (by simp)) (Nat.not_le.mpr late)
    obtain ⟨outcome, now, unread⟩ := waitUntil_of_not_completes only split (e.now + timeout)
      (lasts ▸ inTime) (lasts ▸ late) absent
    exact ⟨outcome, now.trans lasts.symm, here, later, split, inTime, late, unread⟩
  refine ⟨?_, missed, ?_⟩
  · intro before a after o split done inTime
    obtain ⟨outcome, now, unread⟩ := found before a after o split done inTime
    refine ⟨outcome, ?_, unread⟩
    rw [now, poll]
    split
    · rename_i early
      exact lastPoll_of_le early
    · rfl
  · rintro rfl
    have none : last = start := by
      simp only [last, zero_ceilDiv, Nat.mul_zero, Nat.add_zero]
    by_cases completed : ∃ before a after o, e.stream.arrivals = before ++ a :: after ∧
        Completes cs e.window before a o ∧ a.time ≤ last
    · obtain ⟨before, a, after, o, split, done, inTime⟩ := completed
      rw [(found before a after o split done inTime).2.1]
      exact lastPoll_of_le (Nat.le_trans inTime (Nat.le_of_eq none))
    · rw [(missed fun before a after o split done => ?_).2.1, none]
      by_contra early
      exact completed ⟨before, a, after, o, split, done, by omega⟩

/-- The terminator is completed when the deadline has passed, in time for the last poll; a byte that comes
    behind it is left.  A handler is announced by the terminator. -/
theorem wait_ends_with_poll_overdue :
    let arrivals : List Arrival := [⟨5, 0x4F⟩, ⟨13, 0x4B⟩, ⟨14, Ascii.cr⟩, ⟨21, Ascii.lf⟩, ⟨21, 0x3E⟩]
    let link : Link Script := { Link.ofDevice .silent with scheduled := ⟨arrivals, by decide⟩ }
    let e := (ofLink { EngineConfig.standard with pollInterval := 7 } link).session
      [.register (.notification "OK\r\n" .sslPeerClosed)]
    let ended := e.wait [] 20 true true
    (∀ h ∈ e.registry.handlers, h.IsNotification) ∧
      Completes (candidates [] true true) e.window (arrivals.take 3) ⟨21, Ascii.lf⟩ .success ∧
      ended.1 = .success ∧ ended.2.now = 21 ∧ ended.2.stream.unread = [0x3E] := by
  intro arrivals link e ended
  have only : ∀ h ∈ e.registry.handlers, h.IsNotification := by
    rintro h (_ | ⟨_, ⟨⟩⟩)
    exact ⟨_, _, rfl⟩
  have early : ∀ q ∈ ((arrivals.take 3).map Arrival.byte).inits, q ≠ [] →
      reply 64 (candidates [] true true) q = none := by
    decide
  have done : Completes (candidates [] true true) e.window (arrivals.take 3) ⟨21, Ascii.lf⟩ .success :=
    ⟨by decide, fun q hq => early q ((List.mem_inits _ _).mpr hq)⟩
  obtain ⟨found, -⟩ := wait_ends_with_poll e only [] 20 true true
  obtain ⟨outcome, now, unread⟩ :=
    found (arrivals.take 3) ⟨21, Ascii.lf⟩ [⟨21, 0x3E⟩] .success rfl done (by decide)
  exact ⟨only, done, outcome, now.trans (by decide), unread⟩

end Engine
end AtModem
