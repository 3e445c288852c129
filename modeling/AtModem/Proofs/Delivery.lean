/-
  Who gets a message.

  A block says which client it is for, but no handler asks.  The announcement calls every handler for
  messages, in the order in which they were registered, and the window does not change between them.  So
  of two clients on one engine the outer one, which came first, gets the message, whoever it is for.  Then
  the handler of the inner one has its turn, and takes what stands behind the block for another block:
  it looks for a number.  If another block is there, it is the inner client's, again whoever it is for.
  If there is no digit, as in the answer to a command, all that has come is read in vain, and the wait in
  progress finds nothing.

  A wait comes to the announcement byte by byte (`Midway.walk`) unless it is answered before; at the last
  byte the handlers have their turns (`Nested.dispatch_eq`), and what one of them does is said in `Midway.take`
  and `Midway.take_in_vain`.
-/
import AtModem.Proofs.Facades
import AtModem.Proofs.Integer
import AtModem.Proofs.Transparency
import Mathlib.Data.Bool.AllAny

namespace AtModem

namespace Mqtt

/-- A message as the device sends it: the client it is for, and its two parts. -/
structure Inbound where
  client : Nat
  topic : Bytes
  payload : Bytes
  client_le : client ≤ Decimal.maxInt
  topic_le : topic.length ≤ Decimal.maxInt
  payload_le : payload.length ≤ Decimal.maxInt

namespace Inbound

/-- Its block, among the reports that a device can make. -/
def report (m : Inbound) : Report :=
  .message m.client m.topic m.payload m.client_le m.topic_le m.payload_le

/-- What of it comes into an inbox, where each part is cut to its storage. -/
def message (m : Inbound) : Message where
  client := Message.clientOf m.client
  topic := .ofBytes topicCapacity m.topic
  payload := .ofBytes payloadCapacity m.payload

/-- What stands before the first number; it goes through the window, and all the rest is read by a
    handler. -/
def heading : Bytes := crlf ++ Utf8.encode Message.announcement

/-- A block is what announces it, and the body that a handler reads. -/
theorem bytes_report (m : Inbound) : m.report.bytes = heading ++ m.report.body := rfl

end Inbound

/-! ## The inbox of a client -/

namespace Client

variable {c : Client} {boxes : Inboxes}

/-- The messages in the inbox, oldest first; a client without an inbox has none. -/
def waiting (c : Client) (boxes : Inboxes) : List Message :=
  match boxes.messages[c.inbox]? with
  | some q => q.items
  | none => []

/-- Whether the inbox takes one more message without losing any. -/
def HasRoom (c : Client) (boxes : Inboxes) : Prop :=
  ∃ q, boxes.messages[c.inbox]? = some q ∧ q.isFull = false

/-- A message for this inbox comes behind those that wait there, if there is room. -/
theorem waiting_post (room : c.HasRoom boxes) (m : Message) :
    c.waiting (boxes.post (.message c.inbox m)) = c.waiting boxes ++ [m] := by
  obtain ⟨q, there, free⟩ := room
  have posted : (boxes.post (.message c.inbox m)).messages[c.inbox]? = some (q.push m).2 := by
    show (boxes.messages.modify c.inbox fun q => (q.push m).2)[c.inbox]? = _
    rw [List.getElem?_modify_eq, there]
    rfl
  rw [waiting, waiting, posted, there, BoundedQueue.push_of_room free]

/-- A message for another inbox leaves this one alone, whether or not that other one exists. -/
theorem messages_post_of_ne {place : Nat} (other : place ≠ c.inbox) (m : Message) :
    (boxes.post (.message place m)).messages[c.inbox]? = boxes.messages[c.inbox]? :=
  List.getElem?_modify_ne _ _ other

theorem waiting_post_of_ne {place : Nat} (other : place ≠ c.inbox) (m : Message) :
    c.waiting (boxes.post (.message place m)) = c.waiting boxes := by
  rw [waiting, waiting, messages_post_of_ne other]

theorem hasRoom_post_of_ne {place : Nat} (other : place ≠ c.inbox) (m : Message)
    (room : c.HasRoom boxes) : c.HasRoom (boxes.post (.message place m)) := by
  obtain ⟨q, there, free⟩ := room
  exact ⟨q, (messages_post_of_ne other m).trans there, free⟩

end Client
end Mqtt

open Mqtt Engine

variable {σ : Type}

/-! ## Reading what stands behind -/

namespace Stream

/-- A message is read whatever stands before its first number, but digits and minus signs. -/
theorem Holds.read_message {gap behind : Bytes} {m : Inbound} {origin s : Stream σ}
    (h : Holds origin (gap ++ (m.report.body ++ behind)) s)
    (other : ∀ b ∈ gap, Decimal.isDigit b = false ∧ b ≠ Ascii.minus) :
    ∃ t, Message.read s = .ok m.message t ∧ Holds origin behind t := by
  obtain ⟨u, same, k⟩ := h.parseSign_skip other
  obtain ⟨t, read, k'⟩ := reads_message m.client_le m.topic_le m.payload_le behind _
    (serves_holds origin) u k
  refine ⟨t, ?_, k'⟩
  have skipped : Message.read s = Message.read u := bind_of_eq (bind_of_eq same _) _
  exact skipped.trans read

/-- Without a digit there is no message, and nothing is left: all that has come is read in the
    search for one. -/
theorem Holds.read_in_vain {bs : Bytes} {origin s : Stream σ} (h : Holds origin bs s)
    (noDigit : ∀ b ∈ bs, Decimal.isDigit b = false) :
    ∃ t, Message.read s = .error .timedOut t ∧ t.unread = [] := by
  have arrived : ∀ a ∈ s.link.scheduled.arrivals, a.time ≤ s.now := by
    rw [h.scheduled]
    simp
  rw [← h.unread] at noDigit
  obtain ⟨t, none, nothing⟩ := (Steady.of_arrived arrived).parseInt_in_vain noDigit
  exact ⟨t, bind_of_error none, nothing⟩

end Stream

/-! ## Two clients on one engine -/

/-- Of two texts neither of which ends with the other, none ends a stream that ends with the other,
    however it began. -/
theorem not_suffix_append {p q : Bytes} (h : ¬p <:+ q) (k : ¬q <:+ p) (X : Bytes) : ¬p <:+ X ++ q := by
  intro s
  rcases List.suffix_or_suffix_of_suffix s (List.suffix_append X q) with s | s
  · exact h s
  · exact k s

/-- The handler has nothing to do with messages: it is meant nowhere in what announces one, whatever
    stood before.  Wherever such a handler stands between the others, a message fares the same. -/
def Handler.Elsewhere (h : Handler) : Prop :=
  ∀ X q, q <+: Inbound.heading → q ≠ [] → ¬Utf8.encode h.pattern <:+ X ++ q

/-- A handler has nothing to do with messages if its announcement is nowhere on the way to theirs;
    this can be checked on the texts alone. -/
theorem Handler.Elsewhere.of_inits {h : Handler}
    (all : ∀ q ∈ Inbound.heading.inits, q ≠ [] →
      ¬Utf8.encode h.pattern <:+ q ∧ ¬q <:+ Utf8.encode h.pattern) : h.Elsewhere := by
  intro X q hq some
  obtain ⟨inside, reaching⟩ := all q ((List.mem_inits q _).mpr hq) some
  exact not_suffix_append inside reaching X

/-- What else a client listens for has nothing to do with messages. -/
theorem elsewhere_of_mem_reports {inbox : Nat} {h : Handler} (mem : h ∈ Client.reports inbox) :
    h = .message inbox ∨ h.Elsewhere := by
  simp only [Client.reports, List.mem_cons, List.not_mem_nil, or_false] at mem
  rcases mem with rfl | rfl | rfl
  · exact .inl rfl
  · exact .inr (.of_inits (by decide))
  · exact .inr (.of_inits (by decide))

/-- Two clients stand on the engine, the inner one set up after the outer one.  There may be other
    handlers, before, between and behind theirs.  The order of registration decides which of the two
    has its turn first, and it is the order in which they were set up. -/
structure Nested (outer inner : Client) (e : Engine σ) : Prop where
  handlers : ∃ before between behind,
    e.registry.handlers = before ++ Client.reports outer.inbox ++ between ++
      Client.reports inner.inbox ++ behind ∧
    ∀ h ∈ before ++ between ++ behind, h.Elsewhere
  inboxes : outer.inbox ≠ inner.inbox

section

variable {w : Window} {X : Bytes}

/-- When the heading has been heard, the window ends with the announcement. -/
theorem endsWith_announcement (h : w.EndOf (X ++ Inbound.heading)) (room : 15 ≤ w.capacity) :
    w.endsWith Message.announcement = true := by
  have sized : Utf8.encode Message.announcement ≠ [] ∧
      (Utf8.encode Message.announcement).length ≤ 15 := by decide
  refine (h.endsWith_iff _).mpr ⟨sized.1, Nat.le_trans sized.2 room, ?_⟩
  exact (List.suffix_append crlf _).trans (List.suffix_append X _)

theorem filter_elsewhere (h : w.EndOf (X ++ Inbound.heading)) {hs : List Handler}
    (elsewhere : ∀ hd ∈ hs, hd.Elsewhere) : hs.filter (fun hd => w.endsWith hd.pattern) = [] := by
  refine List.filter_eq_nil_iff.mpr fun hd mem ends => ?_
  exact elsewhere hd mem X Inbound.heading List.prefix_rfl (by decide)
    ((h.endsWith_iff _).mp ends).2.2

/-- Of the handlers of a client just the one for messages is. -/
theorem filter_reports (h : w.EndOf (X ++ Inbound.heading)) (room : 15 ≤ w.capacity) (inbox : Nat) :
    (Client.reports inbox).filter (fun hd => w.endsWith hd.pattern) = [.message inbox] := by
  have others : ∀ hd ∈ (Client.reports inbox).tail, hd.Elsewhere := by
    intro hd mem
    refine (elsewhere_of_mem_reports (List.mem_of_mem_tail mem)).resolve_left ?_
    rintro rfl
    -- the others record something else
    rcases List.mem_pair.mp mem with same | same <;> cases congrArg Handler.event same
  have meant : w.endsWith (Handler.message inbox).pattern = true := endsWith_announcement h room
  rw [Client.reports, List.filter_cons, if_pos meant]
  exact congrArg _ (filter_elsewhere h others)

end

namespace Nested

variable {outer inner : Client} {e e₁ f : Engine σ} {X : Bytes}

/-- A client that is set up on an engine where one stands already is the inner one. -/
theorem of_create {id id' : String} {ssl ssl' : Bool} {options options' : Options}
    {ctx ctx' : ContextIndex} (others : ∀ h ∈ e.registry.handlers, h.Elsewhere)
    (made : Client.create id ssl options ctx e = .ok outer e₁)
    (made' : Client.create id' ssl' options' ctx' e₁ = .ok inner f) : Nested outer inner f := by
  obtain ⟨first, r, n, handlers, rfl⟩ := Client.create_eq_ok made
  obtain ⟨second, r', n', handlers', rfl⟩ := Client.create_eq_ok made'
  refine ⟨⟨e.registry.handlers, [], [], ?_, by simpa using others⟩, ?_⟩
  · rw [handlers', handlers, List.append_nil, List.append_nil]
  · rw [first, second, List.length_append]
    simp

/-- On an engine with two clients every handler is for messages or for something else altogether. -/
theorem cases_of_mem (n : Nested outer inner e) {h : Handler} (mem : h ∈ e.registry.handlers) :
    (∃ inbox, h = .message inbox) ∨ h.Elsewhere := by
  obtain ⟨before, between, behind, all, others⟩ := n.handlers
  simp only [all, List.mem_append, or_assoc] at mem others
  rcases mem with mem | mem | mem | mem | mem
  · exact .inr (others h (.inl mem))
  · exact (elsewhere_of_mem_reports mem).imp_left fun e => ⟨_, e⟩
  · exact .inr (others h (.inr (.inl mem)))
  · exact (elsewhere_of_mem_reports mem).imp_left fun e => ⟨_, e⟩
  · exact .inr (others h (.inr (.inr mem)))

/-- Before the announcement is complete no handler is meant, so the heading is only heard. -/
theorem quiet (n : Nested outer inner e) (X : Bytes) {q : Bytes}
    (hq : q <+: Inbound.heading.dropLast) (some : q ≠ []) :
    ∀ h ∈ e.registry.handlers, ¬Utf8.encode h.pattern <:+ X ++ q := by
  intro h mem
  rcases n.cases_of_mem mem with ⟨inbox, rfl⟩ | elsewhere
  · have all : ∀ q ∈ Inbound.heading.dropLast.inits, q ≠ [] →
        ¬Utf8.encode Message.announcement <:+ q ∧ ¬q <:+ Utf8.encode Message.announcement := by
      decide
    obtain ⟨inside, reaching⟩ := all q ((List.mem_inits q _).mpr hq) some
    exact not_suffix_append inside reaching X
  · exact elsewhere X q (hq.trans (List.dropLast_prefix _)) some

/-- The announcement calls the two handlers for messages, the outer client's first. -/
theorem calls (n : Nested outer inner e) {w : Window} (h : w.EndOf (X ++ Inbound.heading))
    (room : 15 ≤ w.capacity) :
    e.registry.handlers.filter (fun h => w.endsWith h.pattern) =
      [.message outer.inbox, .message inner.inbox] := by
  obtain ⟨before, between, behind, all, others⟩ := n.handlers
  simp only [List.mem_append, or_assoc] at others
  have none₁ := filter_elsewhere h fun hd mem => others hd (.inl mem)
  have none₂ := filter_elsewhere h fun hd mem => others hd (.inr (.inl mem))
  have none₃ := filter_elsewhere h fun hd mem => others hd (.inr (.inr mem))
  simp only [all, List.filter_append, filter_reports h room, none₁, none₂, none₃]
  rfl

/-- Where the announcement is complete, the outer client's handler has its turn, and then the inner
    one's. -/
theorem dispatch_eq (n : Nested outer inner e) (h : e.window.EndOf (X ++ Inbound.heading))
    (room : 15 ≤ e.window.capacity) :
    e.dispatch = (e.notify (.message outer.inbox)).notify (.message inner.inbox) := by
  rw [dispatch, foldl_notify_eq_filter, n.calls h room]
  rfl

/-- Only the handlers matter, so the situation is the same after anything that leaves them alone. -/
theorem congr (n : Nested outer inner e) (same : f.registry = e.registry) : Nested outer inner f :=
  ⟨same ▸ n.handlers, n.inboxes⟩

end Nested

/-! ## One handler's turn -/

/-- What a message adds to an inbox and to the events. -/
def Mqtt.Inbound.post (inbox : Nat) (mail : Inboxes × BoundedQueue UrcEvent) (m : Inbound) :
    Inboxes × BoundedQueue UrcEvent :=
  (mail.1.post (.message inbox m.message), (mail.2.push .mqttMessageRx).2)

namespace Engine

variable {e f : Engine σ} {X rest : Bytes} {mail : Inboxes × BoundedQueue UrcEvent}

/-- The first message that there is to read is taken by the handler whose turn it is, whoever the
    message is for. -/
theorem Midway.take {gap behind : Bytes} {m : Inbound}
    (h : Midway e (X ++ Inbound.heading) (gap ++ (m.report.body ++ behind)) mail f)
    (room : 15 ≤ e.window.capacity)
    (other : ∀ b ∈ gap, Decimal.isDigit b = false ∧ b ≠ Ascii.minus) (inbox : Nat) :
    Midway e (X ++ Inbound.heading) behind (m.post inbox mail) (f.notify (.message inbox)) := by
  obtain ⟨t, read, k⟩ := h.stream.read_message other
  have process : (Handler.message inbox).process f.stream = .ok (.message inbox m.message) t := by
    rw [Handler.process_message]
    exact bind_of_ok read
  rw [notify_of_delivered (endsWith_announcement h.window (h.capacity ▸ room)) process]
  refine ⟨k, h.window, h.capacity, h.registry, ?_⟩
  rw [← h.mail]
  rfl

/-- If there is none, all there is to read is gone, and nothing is delivered. -/
theorem Midway.take_in_vain (h : Midway e (X ++ Inbound.heading) rest mail f)
    (room : 15 ≤ e.window.capacity) (noDigit : ∀ b ∈ rest, Decimal.isDigit b = false) (inbox : Nat) :
    ∃ t, f.notify (.message inbox) = { f with stream := t } ∧ t.unread = [] := by
  obtain ⟨t, none, nothing⟩ := h.stream.read_in_vain noDigit
  have process : (Handler.message inbox).process f.stream = .error .timedOut t := by
    rw [Handler.process_message]
    exact bind_of_error none
  exact ⟨t, notify_of_failed (endsWith_announcement h.window (h.capacity ▸ room)) process, nothing⟩

/-- Whatever a handler reads, it does not come into another client's inbox. -/
theorem waiting_notify_of_ne {c : Client} {inbox : Nat} (other : inbox ≠ c.inbox) (f : Engine σ) :
    c.waiting (f.notify (.message inbox)).inboxes = c.waiting f.inboxes := by
  unfold notify
  split
  · split
    · rename_i d t process
      rw [Handler.process_message] at process
      obtain ⟨m, u, read, done⟩ := bind_eq_ok process
      cases done
      exact Client.waiting_post_of_ne other m
    · rfl
  · rfl

/-! ## A message for one of two clients -/

/-- A wait that comes to a message is answered before its announcement is complete, or the two handlers
    have their turns there and the wait goes on. -/
theorem reach_announcement {outer inner : Client} (n : Nested outer inner e) {m : Inbound}
    (h : Midway e X (m.report.bytes ++ rest) mail f) (room : 15 ≤ e.window.capacity) (deadline : Nat)
    (cs : List (Bytes × MatchOutcome)) :
    (∃ taken tail o g, Inbound.heading = taken ++ tail ∧ tail ≠ [] ∧
        reply e.window.capacity cs (X ++ taken) = some o ∧ f.waitUntil deadline cs = (o, g) ∧
        Midway e (X ++ taken) (tail ++ (m.report.body ++ rest)) mail g) ∨
      ∃ heard g, Midway e (X ++ Inbound.heading) (m.report.body ++ rest) mail heard ∧
        g = (heard.notify (.message outer.inbox)).notify (.message inner.inbox) ∧
        f.waitUntil deadline cs =
          match classify g.window cs with
          | some o => (o, g)
          | none => g.waitUntil deadline cs := by
  obtain ⟨before, b, whole⟩ : ∃ before b, Inbound.heading = before ++ [b] :=
    ⟨Inbound.heading.dropLast, 0x20, by decide⟩
  have short : before = Inbound.heading.dropLast := by rw [whole, List.dropLast_concat]
  have text : m.report.bytes ++ rest = before ++ b :: (m.report.body ++ rest) := by
    rw [m.bytes_report, whole]
    simp
  rw [text] at h
  rcases h.comeTo (fun q hq some => n.quiet X (short ▸ hq) some) deadline cs with
    ⟨taken, tail, o, g, split, -, answer, stop, h'⟩ | ⟨heard, h', turn⟩
  · refine .inl ⟨taken, tail ++ [b], o, g, ?_, by simp, answer, stop, by simpa using h'⟩
    rw [whole, split, List.append_assoc]
  · rw [← whole] at h'
    have turns := (n.congr h'.registry).dispatch_eq h'.window (h'.capacity ▸ room)
    exact .inr ⟨heard, heard.dispatch, h', turns, turn⟩

/-- Of two clients on one engine the outer one gets a message, whoever it is for, unless the wait is
    answered before the announcement is complete.  The inner one's handler then takes what comes behind
    it: without a digit there all of it is lost and the wait times out, and if there is another message,
    that is the inner client's. -/
theorem message_goes_to_outer_client {outer inner : Client} {f : Engine σ}
    (nested : Nested outer inner f) (capacity : 15 ≤ f.window.capacity)
    (room : outer.HasRoom f.inboxes) (room' : inner.HasRoom f.inboxes) (m : Inbound) (rest : Bytes)
    (buffered : Stream.Holds f.stream (m.report.bytes ++ rest) f.stream) (deadline : Nat)
    (cs : List (Bytes × MatchOutcome)) :
    (∃ taken tail o g, Inbound.heading = taken ++ tail ∧ tail ≠ [] ∧
        reply f.window.capacity cs (f.window.bytes ++ taken) = some o ∧
        f.waitUntil deadline cs = (o, g) ∧ g.stream.unread = tail ++ (m.report.body ++ rest) ∧
        (g.inboxes, g.events) = (f.inboxes, f.events)) ∨
      ∃ g, g.window.EndOf (f.window.bytes ++ Inbound.heading) ∧
        f.waitUntil deadline cs =
          (match classify g.window cs with
          | some o => (o, g)
          | none => g.waitUntil deadline cs) ∧
        outer.waiting g.inboxes = outer.waiting f.inboxes ++ [m.message] ∧
        ((∀ b ∈ rest, Decimal.isDigit b = false) →
          inner.waiting g.inboxes = inner.waiting f.inboxes ∧
          g.events = (f.events.push .mqttMessageRx).2 ∧ g.stream.unread = [] ∧
          (classify g.window cs = none → ∃ t, t.unread = [] ∧
            f.waitUntil deadline cs = (.timedOut, { g with stream := t }))) ∧
        ∀ gap (next : Inbound) behind, rest = gap ++ (next.report.bytes ++ behind) →
          (∀ b ∈ gap, Decimal.isDigit b = false ∧ b ≠ Ascii.minus) →
          inner.waiting g.inboxes = inner.waiting f.inboxes ++ [next.message] ∧
          g.events = ((f.events.push .mqttMessageRx).2.push .mqttMessageRx).2 ∧
          g.stream.unread = behind := by
  have start : Midway f f.window.bytes (m.report.bytes ++ rest) (f.inboxes, f.events) f :=
    ⟨buffered, f.window.endOf_bytes, rfl, rfl, rfl⟩
  rcases reach_announcement nested start capacity deadline cs with
    ⟨taken, tail, o, g, split, more, answer, stop, h⟩ | ⟨heard, g, h, turns, goes⟩
  · exact .inl ⟨taken, tail, o, g, split, more, answer, stop, h.stream.unread, h.mail⟩
  -- what the outer client has got
  let one := heard.notify (.message outer.inbox)
  replace turns : g = one.notify (.message inner.inbox) := turns
  have first : Midway f (f.window.bytes ++ Inbound.heading) rest
      (m.post outer.inbox (f.inboxes, f.events)) one := by
    have ready : Midway f (f.window.bytes ++ Inbound.heading) ([] ++ (m.report.body ++ rest))
        (f.inboxes, f.events) heard := h
    exact ready.take capacity (fun b mem => by cases mem) outer.inbox
  have inboxes : one.inboxes = f.inboxes.post (.message outer.inbox m.message) :=
    congrArg Prod.fst first.mail
  have events : one.events = (f.events.push .mqttMessageRx).2 := congrArg Prod.snd first.mail
  have kept : inner.waiting one.inboxes = inner.waiting f.inboxes := by
    rw [inboxes, Client.waiting_post_of_ne nested.inboxes]
  refine .inr ⟨g, ?_, goes, ?_, fun noDigit => ?_, fun gap next behind text other => ?_⟩
  · rw [turns, window_notify]
    exact first.window
  · rw [turns, waiting_notify_of_ne nested.inboxes.symm, inboxes, Client.waiting_post room]
  · -- the inner one's handler finds no number
    obtain ⟨t, vain, nothing⟩ := first.take_in_vain capacity noDigit inner.inbox
    rw [vain] at turns
    subst turns
    refine ⟨kept, events, nothing, fun unanswered => ?_⟩
    rw [unanswered] at goes
    obtain ⟨u, none, -, nothing'⟩ := Stream.readBy_of_nothing nothing deadline
    exact ⟨u, nothing', goes.trans (waitUntil_of_none none)⟩
  · -- it finds the one of the next message
    have opening : ∀ b ∈ Inbound.heading, Decimal.isDigit b = false ∧ b ≠ Ascii.minus :=
      List.all_iff_forall_prop.mp (by decide)
    have free : inner.HasRoom one.inboxes :=
      inboxes ▸ Client.hasRoom_post_of_ne nested.inboxes _ room'
    have ready : Midway f (f.window.bytes ++ Inbound.heading)
        ((gap ++ Inbound.heading) ++ (next.report.body ++ behind)) (one.inboxes, one.events) one := by
      rw [text, next.bytes_report, ← first.mail] at first
      simpa using first
    have second := ready.take capacity (fun b mem => by
      rcases List.mem_append.mp mem with mem | mem
      · exact other b mem
      · exact opening b mem) inner.inbox
    rw [← turns] at second
    have inboxes' : g.inboxes = one.inboxes.post (.message inner.inbox next.message) :=
      congrArg Prod.fst second.mail
    refine ⟨?_, ?_, second.stream.unread⟩
    · rw [inboxes', Client.waiting_post free, kept]
    · rw [← events]
      exact congrArg Prod.snd second.mail

/-- A message for the client with index one, which is the inner one, and the answer to a command behind
    it: the other client gets the message and the wait for the answer times out. -/
theorem message_goes_to_outer_client_for_inner :
    let e : Engine Script := ofLink .standard (.ofDevice .silent)
    let second : Options := { Options.standard with client := 1 }
    let outer : Client := ⟨"outer", false, .standard, .ofIndex 0, 0, [0, 1, 2]⟩
    let inner : Client := ⟨"inner", false, second, .ofIndex 0, 1, [3, 4, 5]⟩
    let m : Inbound := ⟨1, Utf8.encode "t", Utf8.encode "hi", by decide, by decide, by decide⟩
    let answer := Utf8.encode "\r\nOK\r\n"
    ∃ e₁ e₂, (Client.create "outer" false .standard 0 e = .ok outer e₁ ∧
        Client.create "inner" false second 0 e₁ = .ok inner e₂) ∧
      let f := e₂.given (m.report.bytes ++ answer)
      (Nested outer inner f ∧ 15 ≤ f.window.capacity ∧ outer.HasRoom f.inboxes ∧
        inner.HasRoom f.inboxes ∧ Stream.Holds f.stream (m.report.bytes ++ answer) f.stream) ∧
      ∃ g, f.wait [] 1000 true true = (.timedOut, g) ∧ g.stream.unread = [] ∧
        outer.waiting g.inboxes = [m.message] ∧ inner.waiting g.inboxes = [] ∧
        g.events.items = [.mqttMessageRx] := by
  intro e second outer inner m answer
  obtain ⟨e₁, e₂, made, made'⟩ : ∃ e₁ e₂,
      Client.create "outer" false .standard 0 e = .ok outer e₁ ∧
        Client.create "inner" false second 0 e₁ = .ok inner e₂ := by
    let e₁ := endState (Client.create "outer" false .standard 0 e)
    exact ⟨e₁, endState (Client.create "inner" false second 0 e₁), rfl, rfl⟩
  have standing : Nested outer inner e₂ := .of_create (fun h mem => by cases mem) made made'
  obtain ⟨-, _, _, -, rfl⟩ := Client.create_eq_ok made
  obtain ⟨-, _, _, -, rfl⟩ := Client.create_eq_ok made'
  refine ⟨_, _, ⟨made, made'⟩, ?_⟩
  intro f
  have nested : Nested outer inner f := standing.congr rfl
  have window : f.window = .ofCapacity Window.defaultCapacity := rfl
  have capacity : 15 ≤ f.window.capacity := by
    rw [window]
    decide
  have room : outer.HasRoom f.inboxes := ⟨_, rfl, rfl⟩
  have room' : inner.HasRoom f.inboxes := ⟨_, rfl, rfl⟩
  have buffered : Stream.Holds f.stream (m.report.bytes ++ answer) f.stream := ⟨rfl, rfl, rfl⟩
  refine ⟨⟨nested, capacity, room, room', buffered⟩, ?_⟩
  -- nothing the wait looks for is in an announcement
  have unheard : ∀ q, q <+: Inbound.heading → ∀ n, reply n (candidates [] true true) q = none := by
    have all : ∀ q ∈ Inbound.heading.inits, ∀ c ∈ candidates [] true true, ¬c.1 <:+ q := by decide
    intro q hq n
    exact reply_eq_none fun c hc _ => all q ((List.mem_inits q _).mpr hq) c hc
  rcases message_goes_to_outer_client nested capacity room room' m answer buffered (f.now + 1000)
    (candidates [] true true) with
    ⟨taken, tail, o, g, split, -, answered, -⟩ | ⟨g, heard, -, got, lost, -⟩
  · have none := unheard taken ⟨tail, split.symm⟩ f.window.capacity
    rw [show taken = f.window.bytes ++ taken from rfl, answered] at none
    cases none
  · obtain ⟨kept, events, -, timesOut⟩ := lost (List.all_iff_forall_prop.mp (by decide))
    obtain ⟨t, nothing, out⟩ := timesOut
      ((classify_eq_reply heard _).trans (unheard _ List.prefix_rfl _))
    refine ⟨_, out, nothing, got, kept, ?_⟩
    show g.events.items = _
    rw [events]
    rfl

end Engine
end AtModem
