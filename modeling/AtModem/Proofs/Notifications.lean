/-
  Notifications do not disturb a wait.

  A handler of notifications has nothing to read: it leaves the stream, the window and the inboxes as
  they are, and all there is of it is an event.  So an engine with such handlers and one without, side by
  side on the same stream, take the same bytes at the same times, and their windows stay the same; that
  is the invariant, and the events are all in which they come to differ.  Which events these are can be
  read off the bytes that were taken: after each byte, those of the handlers whose announcement the
  window ends with, in the order of registration, also after the byte that ends the wait.

  The queue of events is bounded and the oldest give way, so of all the events the last remain.
-/
import AtModem.Link.Script
import AtModem.Proofs.Arrival
import AtModem.Proofs.Session
import AtModem.Proofs.Utf8
import AtModem.Proofs.Window

namespace AtModem

/-! ## The last elements of a queue -/

namespace BoundedQueue

variable {α : Type}

/-- Pushes several elements, one after the other, whatever the queue makes of each. -/
def pushAll (q : BoundedQueue α) (as : List α) : BoundedQueue α :=
  as.foldl (fun q a => (q.push a).2) q

theorem pushAll_append (q : BoundedQueue α) (as bs : List α) :
    q.pushAll (as ++ bs) = (q.pushAll as).pushAll bs :=
  List.foldl_append

/-- What was not among the last elements is not among the last after more have come. -/
theorem rtake_rtake_append (as bs : List α) (n : Nat) :
    (as.rtake n ++ bs).rtake n = (as ++ bs).rtake n := by
  simp only [List.rtake_eq_reverse_take_reverse, List.reverse_append, List.reverse_reverse]
  rw [List.take_append, List.take_append, List.take_take]
  congr 3
  omega

/-- A queue whose oldest element gives way keeps the last elements, as many as it has room for.  So
    which events are left can be read off the last ones, and the losses need not be followed. -/
theorem items_push {q : BoundedQueue α} (oldest : q.policy = .dropOldest)
    (fits : q.items.length ≤ q.capacity) (a : α) :
    (q.push a).2.items = (q.items ++ [a]).rtake q.capacity := by
  have size : (q.items ++ [a]).length = q.items.length + 1 := List.length_append
  unfold push isFull
  rw [oldest, List.rtake, size]
  by_cases full : q.capacity ≤ q.items.length
  · have excess : q.items.length + 1 - q.capacity = 1 := by omega
    rw [excess, decide_eq_true full]
    cases q.items with
    | nil => rfl
    | cons first rest => rfl
  · have excess : q.items.length + 1 - q.capacity = 0 := by omega
    rw [excess, decide_eq_false full]
    rfl

/-- The same after any number of pushes, by induction on them: what the first ones cost does not
    matter to the last. -/
theorem items_pushAll {q : BoundedQueue α} (oldest : q.policy = .dropOldest)
    (fits : q.items.length ≤ q.capacity) (as : List α) :
    (q.pushAll as).items = (q.items ++ as).rtake q.capacity := by
  -- one element after the other; what the first ones have cost does not matter to the last
  induction as generalizing q with
  | nil =>
    have whole : q.items.length - q.capacity = 0 := by omega
    rw [List.append_nil, List.rtake, whole]
    rfl
  | cons a as ih =>
    have next := q.follows_push a
    have rest := ih (next.policy.trans oldest) (next.fits fits)
    rw [next.capacity, items_push oldest fits, rtake_rtake_append, List.append_assoc] at rest
    exact rest

end BoundedQueue

/-! ## Which events there are -/

namespace Handler

/-- Handlers that have nothing to read: they leave their event and are done.  They take no byte from
    the wait that they interrupt, which is why two runs with and without them read alike. -/
def IsNotification (h : Handler) : Prop := ∃ announcement event, h = notification announcement event

/-- The window ends with the announcement; nothing is announced by an empty one. -/
def Announced (h : Handler) (w : Window) : Prop := h.pattern ≠ "" ∧ Utf8.encode h.pattern <:+ w.bytes

instance (h : Handler) (w : Window) : Decidable (h.Announced w) := inferInstanceAs (Decidable (_ ∧ _))

/-- That is what the test after each byte finds out: a suffix of the window, and not the empty
    one. -/
theorem endsWith_pattern_iff (h : Handler) (w : Window) :
    w.endsWith h.pattern = true ↔ h.Announced w := by
  rw [Window.endsWith_iff, Announced]
  exact and_congr_left' (Utf8.encode_eq_nil_iff h.pattern).not

/-- The events of the handlers whose announcement the window ends with, in the order of
    registration. -/
def eventsFor (handlers : List Handler) (w : Window) : List UrcEvent :=
  handlers.filterMap fun h => if h.Announced w then h.event else none

/-- The events as the bytes come, one after the other, into the window; a reference that no stream
    and no wait occurs in. -/
def eventsAlong (handlers : List Handler) : Window → Bytes → List UrcEvent
  | _, [] => []
  | w, b :: bs => eventsFor handlers (w.push b) ++ eventsAlong handlers (w.push b) bs

end Handler

open Handler

namespace Engine

variable {σ : Type}

/-! ## With handlers and without -/

/-- The engine with these handlers, and with these events waiting to be collected. -/
def attended (registry : Registry) (events : BoundedQueue UrcEvent) (e : Engine σ) : Engine σ :=
  { e with registry, events }

/-- The engine as it would be if nobody had registered; all else is as it is.  It is the other one
    of the two runs that are compared. -/
def unattended (e : Engine σ) : Engine σ :=
  { e with registry := { e.registry with slots := [] } }

/-- The turn of one handler leaves an event at most, and nothing else. -/
theorem notify_notification {h : Handler} (only : h.IsNotification) (e : Engine σ) :
    e.notify h = { e with events := e.events.pushAll (eventsFor [h] e.window) } := by
  obtain ⟨announcement, event, rfl⟩ := only
  have read : (notification announcement event).process e.stream = .ok .nothing e.stream := rfl
  unfold notify eventsFor
  rw [List.filterMap_cons]
  by_cases announced : (notification announcement event).Announced e.window
  · rw [if_pos ((endsWith_pattern_iff _ _).mpr announced), if_pos announced, read]
    rfl
  · rw [if_neg (mt (endsWith_pattern_iff _ _).mp announced), if_neg announced]
    rfl

/-- The turns of all leave the events that the window calls for. -/
theorem foldl_notify_notifications {handlers : List Handler} (only : ∀ h ∈ handlers, h.IsNotification)
    (e : Engine σ) :
    handlers.foldl notify e =
      { e with events := e.events.pushAll (eventsFor handlers e.window) } := by
  induction handlers generalizing e with
  | nil => rfl
  | cons h hs ih =>
    have split : eventsFor (h :: hs) e.window = eventsFor [h] e.window ++ eventsFor hs e.window :=
      List.filterMap_append (l := [h])
    rw [List.foldl_cons, notify_notification (only h List.mem_cons_self),
      ih fun h' mem => only h' (List.mem_cons_of_mem h mem), split, BoundedQueue.pushAll_append]

section

variable {registry : Registry} (only : ∀ h ∈ registry.handlers, h.IsNotification)

include only in
/-- One byte is taken in alike with handlers and without; the events are all that they come to
    differ in. -/
theorem accept_attended {e : Engine σ} (alone : e.registry.handlers = [])
    (events : BoundedQueue UrcEvent) (b : UInt8) :
    (e.attended registry events).accept b =
      (e.accept b).attended registry
        (events.pushAll (eventsFor registry.handlers (e.window.push b))) := by
  rw [accept_of_no_handlers alone]
  exact foldl_notify_notifications only _

include only in
/-- What a wait does with one byte; the handlers have had their turn before it is known whether the
    byte was the last.  The handlers leave events only, and so the two runs stay beside each other.
    -/
theorem waitUntil_attended_of_some {deadline : Nat} (cs : List (Bytes × MatchOutcome)) {e : Engine σ}
    (alone : e.registry.handlers = []) (events : BoundedQueue UrcEvent) {b : UInt8} {t : Stream σ}
    (h : e.stream.readBy deadline = (some b, t)) :
    let e' := { e with stream := t }.accept b
    let events' := events.pushAll (eventsFor registry.handlers (e.window.push b))
    (e'.registry.handlers = [] ∧ e.stream.unread = b :: e'.stream.unread ∧
        e'.window = e.window.push b) ∧
      (e.attended registry events).waitUntil deadline cs =
        match classify e'.window cs with
        | some o => (o, e'.attended registry events')
        | none => (e'.attended registry events').waitUntil deadline cs := by
  intro e' events'
  have read := Stream.readBy_arrival deadline e.stream
  rw [h] at read
  constructor
  · have heard : e' = { e with stream := t }.hear b :=
      accept_of_no_handlers (e := { e with stream := t }) alone b
    rw [heard]
    exact ⟨alone, read.2.unread, rfl⟩
  · have h' : (e.attended registry events).stream.readBy deadline = (some b, t) := h
    have same : { e.attended registry events with stream := t }.accept b = e'.attended registry events' :=
      accept_attended only (e := { e with stream := t }) alone events b
    rw [waitUntil_of_some h', same]
    rfl

include only in
/-- A whole wait: it takes the same bytes with handlers and without, and the bytes it takes say
    which events there are.  By induction along the wait; the reference `eventsAlong` goes along
    with the bytes that are taken. -/
theorem waitUntil_attended (deadline : Nat) (cs : List (Bytes × MatchOutcome)) {e : Engine σ}
    (alone : e.registry.handlers = []) (events : BoundedQueue UrcEvent) :
    ∃ taken, e.stream.unread = taken ++ (e.waitUntil deadline cs).2.stream.unread ∧
      (e.waitUntil deadline cs).2.window = e.window.pushAll taken ∧
      (e.attended registry events).waitUntil deadline cs =
        ((e.waitUntil deadline cs).1, (e.waitUntil deadline cs).2.attended registry
          (events.pushAll (eventsAlong registry.handlers e.window taken))) := by
  -- on the run without handlers; the other one is beside it, with the events it has had so far
  fun_induction waitUntil deadline cs e generalizing events with
  | case1 e t r =>
    have read := Stream.readBy_arrival deadline e.stream
    rw [r] at read
    obtain ⟨-, rfl, -⟩ := read
    have r' : (e.attended registry events).stream.readBy deadline = _ := r
    exact ⟨[], rfl, rfl, waitUntil_of_none r'⟩
  | case2 e b t r e' o ho =>
    obtain ⟨⟨-, unread, window⟩, turn⟩ := waitUntil_attended_of_some only cs alone events r
    refine ⟨[b], unread, window, ?_⟩
    rw [turn]
    show (match classify e'.window cs with | some o => _ | none => _) = _
    rw [ho, eventsAlong, eventsAlong, List.append_nil]
  | case3 e b t r e' ho ih =>
    obtain ⟨⟨alone', unread, window⟩, turn⟩ :=
      waitUntil_attended_of_some only cs alone events r
    obtain ⟨taken, unread', window', rest⟩ := ih alone' _
    refine ⟨b :: taken, ?_, ?_, ?_⟩
    · rw [unread]
      exact congrArg (b :: ·) unread'
    · rw [window', window]
      rfl
    · rw [turn]
      show (match classify e'.window cs with | some o => _ | none => _) = _
      rw [ho, eventsAlong, BoundedQueue.pushAll_append, ← window]
      exact rest

end

/-! ## Sessions -/

/-- Nothing in a session changes the room for events or which of them give way, or makes them more
    than there is room for.  So the room for events in any session is the one that it began with. -/
theorem keptBySession_events [Device σ] :
    KeptBySession (fun _ _ : Stream σ => True) fun e f => e.events.Follows f.events where
  reading := by constructor <;> intros <;> trivial
  trans _ _ _ := .trans
  stream _ := .refl _
  hear _ _ := .refl _
  mail _ _ _ h := h
  print data e := by
    unfold print
    split
    · exact .refl _
    · exact .refl _
  register h e := by
    unfold register
    split
    · exact .refl _
    · exact .refl _
  deregister _ _ := .refl _
  link _ _ := .refl _

/-- After any calls on a fresh engine, with handlers of notifications only, a wait does what it does
    without them: it ends in the same way at the same time, and what is left to read, the window and the
    inboxes are the same.  The events after it are the last of those before it and of those for the bytes
    it has taken. -/
theorem wait_ignores_notifications [Device σ] (config : EngineConfig) (l : Link σ)
    (calls : List (Call σ)) :
    let e := (ofLink config l).session calls
    (∀ h ∈ e.registry.handlers, h.IsNotification) →
      ∀ (patterns : List Bytes) (timeout : Nat) (ok error : Bool),
        let alone := e.unattended.wait patterns timeout ok error
        let listened := e.wait patterns timeout ok error
        listened = (alone.1, alone.2.attended e.registry listened.2.events) ∧
          ∃ taken, e.stream.unread = taken ++ listened.2.stream.unread ∧
            listened.2.window = e.window.pushAll taken ∧
            listened.2.events.items =
              (e.events.items ++ eventsAlong e.registry.handlers e.window taken).rtake
                config.urcQueueCapacity := by
  intro e only patterns timeout ok error alone listened
  obtain ⟨taken, unread, window, same⟩ := waitUntil_attended only (e.now + timeout)
    (candidates patterns ok error) (e := e.unattended) rfl e.events
  replace same : listened = (alone.1, alone.2.attended e.registry
      (e.events.pushAll (eventsAlong e.registry.handlers e.window taken))) := same
  have queue : BoundedQueue.Follows _ e.events := keptBySession_events.session calls (ofLink config l)
  have room : e.events.capacity = config.urcQueueCapacity := queue.capacity
  rw [same]
  refine ⟨rfl, taken, unread, window, ?_⟩
  rw [← room]
  exact BoundedQueue.items_pushAll queue.policy (queue.fits (Nat.zero_le _)) _

/-- Handlers that are announced within an answer, by its end and by nothing; there is room for one
    event.  The answer is found all the same, and of the events the last one is kept. -/
theorem wait_ignores_notifications_within_answer :
    let calls : List (Call Script) :=
      [.register (.notification "OK\r\n" .sslPeerClosed), .register (.notification "" .httpNoNet),
        .register (.notification "O" .mqttNoNet),
        .link fun l => l.receive (.now (Utf8.encode "RING\r\nOK\r\n"))]
    let config := { EngineConfig.standard with urcQueueCapacity := 1 }
    let e := (ofLink config (.ofDevice .silent)).session calls
    let alone := e.unattended.wait [] 1000 true true
    let listened := e.wait [] 1000 true true
    (∀ h ∈ e.registry.handlers, h.IsNotification) ∧
      listened = (alone.1, alone.2.attended e.registry listened.2.events) ∧
        ∃ taken, e.stream.unread = taken ++ listened.2.stream.unread ∧
          listened.2.window = e.window.pushAll taken ∧
          listened.2.events.items =
            (e.events.items ++ eventsAlong e.registry.handlers e.window taken).rtake
              config.urcQueueCapacity := by
  intro calls config e alone listened
  have only : ∀ h ∈ e.registry.handlers, h.IsNotification := by
    rintro h (_ | ⟨_, _ | ⟨_, _ | ⟨_, ⟨⟩⟩⟩⟩) <;> exact ⟨_, _, rfl⟩
  have any := wait_ignores_notifications config (.ofDevice .silent) calls
  exact ⟨only, any only [] 1000 true true⟩

example :
    eventsAlong [notification "OK\r\n" .sslPeerClosed, notification "" .httpNoNet,
      notification "O" .mqttNoNet] (.ofCapacity 64) (Utf8.encode "RING\r\nOK\r\n") =
      [.mqttNoNet, .sslPeerClosed] := by
  decide

end Engine
end AtModem
