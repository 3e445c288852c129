/-
  Where a message comes from.

  A handler for messages reads in nine steps, and any of them may fail.  If none does, the bytes that were
  taken fall into as many parts (`Taken`): the three numbers, and for each block and for the closing line
  the bytes up to the end of its heading line; topic and payload are two of the parts, and their lengths
  are the numbers that were announced for them.  Each part is found by reading back one step, so the theorem
  about the whole (`readMessage_eq_ok`) follows the steps in order; the arrival of the bytes plays no role.

  Only then is anything delivered: the handler's turn puts one message into the inbox and one event to the
  events, or does nothing but move the stream on (`notify_message`).  That holds of its turn among any
  other handlers, since those before it leave the window alone.
-/
import AtModem.Proofs.Delivery
import AtModem.Proofs.Search
import AtModem.Proofs.Truncation

namespace AtModem

namespace Mqtt

/-! ## The bytes of a message -/

/-- The first place where the heading stands, and the rest of its line: what is skipped before a
    block.  Bytes that look like the heading a second time are behind the first place and do no
    harm. -/
def HeadingLine (heading line : Bytes) : Prop :=
  ∃ before aside, line = before ++ heading ++ aside ++ [Ascii.lf] ∧ Ascii.lf ∉ aside ∧
    ∀ q, q <+: before ++ heading → heading <:+ q → q = before ++ heading

/-- A number and what was skipped before it; the number is read where the bytes end it or another
    byte does. -/
def Announced (n : Int) (text : Bytes) : Prop :=
  ∃ skipped digits, Stream.Numeral n skipped digits ∧ text = skipped ++ digits

/-- The same up to the next comma, as the numbers of an announcement stand. -/
def AnnouncedInList (n : Int) (text : Bytes) : Prop :=
  ∃ number aside, Announced n number ∧ Ascii.comma ∉ aside ∧ text = number ++ aside ++ [Ascii.comma]

/-- What was taken off a stream for a message, in order; the heading parts run to the end of their
    lines, so nothing lies between two parts. -/
structure Taken where
  client : Bytes
  topicLength : Bytes
  payloadLength : Bytes
  topicHeading : Bytes
  topic : Bytes
  payloadHeading : Bytes
  payload : Bytes
  closing : Bytes

/-- All of it in one. -/
def Taken.bytes (p : Taken) : Bytes :=
  p.client ++ p.topicLength ++ p.payloadLength ++ p.topicHeading ++ p.topic ++ p.payloadHeading ++
    p.payload ++ p.closing

/-- The message is what these bytes say: its client and lengths are the numbers announced, its topic
    and payload the parts so long.  The announced lengths are those of the parts, so no byte of a
    topic has been read as one of the payload, whatever the bytes look like. -/
structure Taken.Of (p : Taken) (m : Message) : Prop where
  client : ∃ n, AnnouncedInList n p.client ∧ m.client = Message.clientOf n
  topicLength : AnnouncedInList p.topic.length p.topicLength
  payloadLength : Announced p.payload.length p.payloadLength
  topicHeading : HeadingLine "+CMQTTRXTOPIC: " p.topicHeading
  topic : m.topic = .ofBytes topicCapacity p.topic
  payloadHeading : HeadingLine "+CMQTTRXPAYLOAD: " p.payloadHeading
  payload : m.payload = .ofBytes payloadCapacity p.payload
  closing : HeadingLine "+CMQTTRXEND: " p.closing

end Mqtt

open Mqtt Engine

variable {σ : Type}

namespace Stream

variable {s t u : Stream σ}

/-! ## Reading back the steps -/

/-- A number that was read has been taken off the front, with what stood before it. -/
theorem announced_of_parseInt {n : Int} (h : parseInt s = .ok n t) :
    ∃ text, Announced n text ∧ s.unread = text ++ t.unread := by
  obtain ⟨skipped, digits, numeral, before, -⟩ := parseInt_eq_ok h
  exact ⟨skipped ++ digits, ⟨skipped, digits, numeral, rfl⟩, before⟩

/-- A number and the comma behind it have been taken together. -/
theorem announcedInList_of_parseInt {n : Int} (h : parseInt s = .ok n t)
    (comma : find Ascii.comma t = .ok () u) :
    ∃ text, AnnouncedInList n text ∧ s.unread = text ++ u.unread := by
  obtain ⟨number, announced, before⟩ := announced_of_parseInt h
  obtain ⟨aside, none, behind⟩ := find_eq_ok comma
  refine ⟨number ++ aside ++ [Ascii.comma], ⟨number, aside, announced, none, rfl⟩, ?_⟩
  rw [before, behind]
  simp

/-- A heading that was found, and the rest of its line, have been taken together. -/
theorem headingLine_of_waitFor {heading : Bytes} {timeout : Nat} (some : heading ≠ [])
    (found : waitFor heading timeout s = .ok () t) (line : find Ascii.lf t = .ok () u) :
    ∃ text, HeadingLine heading text ∧ s.unread = text ++ u.unread := by
  obtain ⟨_, before, ⟨front, rfl⟩, first⟩ := waitFor_eq_ok some found
  obtain ⟨aside, none, behind⟩ := find_eq_ok line
  refine ⟨front ++ heading ++ aside ++ [Ascii.lf], ⟨front, aside, rfl, none, first⟩, ?_⟩
  rw [before, behind]
  simp

/-- A block that was read is a heading line and as many bytes as were announced, of which the field
    keeps what it has room for. -/
theorem readBlock_eq_ok {heading : String} {timeout capacity declared : Nat} {f : FixedField}
    (some : Utf8.encode heading ≠ [])
    (h : Message.readBlock heading timeout capacity declared s = .ok f t) :
    ∃ text data, HeadingLine heading text ∧ data.length = declared ∧ f = .ofBytes capacity data ∧
      s.unread = text ++ data ++ t.unread := by
  obtain ⟨⟨⟩, u, found, h⟩ := bind_eq_ok h
  obtain ⟨⟨⟩, v, line, read⟩ := bind_eq_ok h
  obtain ⟨text, heading, before⟩ := headingLine_of_waitFor some found line
  obtain ⟨data, length, yields, field⟩ := readField_eq_ok_iff.mp read
  refine ⟨text, data, heading, length, field, ?_⟩
  rw [before, yields.unread, List.append_assoc]

/-- A message that was read is what the bytes taken for it say; one step of the reading for each
    part, in order.  It holds on every stream, well-formed blocks or not, and says what a success
    amounts to. -/
theorem readMessage_eq_ok {m : Message} (h : Message.read s = .ok m t) :
    ∃ parts : Taken, parts.Of m ∧ s.unread = parts.bytes ++ t.unread := by
  obtain ⟨client, s₁, number, h⟩ := bind_eq_ok h
  obtain ⟨⟨⟩, s₂, comma, h⟩ := bind_eq_ok h
  obtain ⟨topicLength, s₃, number', h⟩ := bind_eq_ok h
  obtain ⟨⟨⟩, s₄, comma', h⟩ := bind_eq_ok h
  obtain ⟨payloadLength, s₅, number'', h⟩ := bind_eq_ok h
  obtain ⟨_, _, ⟨⟩, h⟩ := bind_eq_ok h
  obtain ⟨topic, s₆, block, h⟩ := bind_eq_ok h
  obtain ⟨payload, s₇, block', h⟩ := bind_eq_ok h
  obtain ⟨⟨⟩, s₈, found, h⟩ := bind_eq_ok h
  obtain ⟨⟨⟩, s₉, line, same⟩ := bind_eq_ok h
  cases same
  -- what each step has taken, in the order of the parts
  obtain ⟨text₁, announced, before₁⟩ := announcedInList_of_parseInt number comma
  obtain ⟨text₂, announced', before₂⟩ := announcedInList_of_parseInt (parseLen_eq_ok number') comma'
  obtain ⟨text₃, announced'', before₃⟩ := announced_of_parseInt (parseLen_eq_ok number'')
  obtain ⟨text₄, data, heading, rfl, field, before₄⟩ := readBlock_eq_ok (by decide) block
  obtain ⟨text₅, data', heading', rfl, field', before₅⟩ := readBlock_eq_ok (by decide) block'
  obtain ⟨text₆, closing, before₆⟩ := headingLine_of_waitFor (by decide) found line
  refine ⟨⟨text₁, text₂, text₃, text₄, data, text₅, data', text₆⟩,
    ⟨⟨client, announced, rfl⟩, announced', announced'', heading, field, heading', field', closing⟩,
    ?_⟩
  rw [before₁, before₂, before₃, before₄, before₅, before₆, Taken.bytes]
  simp only [List.append_assoc]

/-- A block that is there is read to its end and no further, whatever the topic and the payload look like. -/
theorem process_message (inbox : Nat) {m : Inbound} {rest : Bytes} (there : m.report.body <+: s.arrivedBy s.now)
    (whole : s.unread = m.report.body ++ rest) :
    ∃ t, (Handler.message inbox).process s = .ok (.message inbox m.message) t ∧ t.unread = rest := by
  obtain ⟨t, read, k⟩ := reads_message m.client_le m.topic_le m.payload_le [] _
    (serves_present s.now rest) s ⟨rfl, by rwa [List.append_nil], by rwa [List.append_nil]⟩
  refine ⟨t, ?_, k.unread⟩
  rw [Handler.process_message]
  exact bind_of_ok read

end Stream

namespace Mqtt

/-- The numbers of clients are bytes, and one that is announced as such is kept. -/
theorem toNat_clientOf {n : Nat} (small : n ≤ 255) : (Message.clientOf n).toNat = n := by
  have fits : (0 : Int) ≤ n ∧ (n : Int) ≤ 255 := by omega
  rw [Message.clientOf, if_pos fits, Int.toNat_natCast, Nat.toUInt8, UInt8.toNat_ofNat']
  omega

end Mqtt

namespace Engine

variable {e : Engine σ} {inbox : Nat}

/-- A turn of a handler for messages: all of a message is delivered, or nothing. -/
inductive MessageTurn (inbox : Nat) (e : Engine σ) : Engine σ → Prop
  | delivered {m : Message} {t : Stream σ} (parts : Taken) :
      (Handler.message inbox).process e.stream = .ok (.message inbox m) t → parts.Of m →
      e.stream.unread = parts.bytes ++ t.unread →
      MessageTurn inbox e { e with
        stream := t
        inboxes := { e.inboxes with
          messages := e.inboxes.messages.modify inbox fun q => (q.push m).2 }
        events := (e.events.push .mqttMessageRx).2 }
  | failed {err : AtError} {t : Stream σ} :
      (Handler.message inbox).process e.stream = .error err t →
      MessageTurn inbox e { e with stream := t }

/-- A turn of the handler puts the whole message into the inbox and one event to the events, or only
    moves the stream on. -/
theorem notify_message (announced : e.window.endsWith (Utf8.encode Message.announcement) = true) :
    MessageTurn inbox e (e.notify (.message inbox)) := by
  rcases r : (Handler.message inbox).process e.stream with ⟨d, t⟩ | ⟨err, t⟩
  · have steps := r
    rw [Handler.process_message] at steps
    obtain ⟨m, u, read, same⟩ := bind_eq_ok steps
    cases same
    obtain ⟨parts, made, taken⟩ := Stream.readMessage_eq_ok read
    rw [notify_of_delivered announced r]
    exact .delivered parts r made taken
  · rw [notify_of_failed announced r]
    exact .failed r

/-- Where a message is announced, each handler for messages has its turn, in its place among the others;
    and if a whole block is there then, all of it and no more is taken, and what is delivered of it are
    the client and the tails of topic and payload. -/
theorem dispatch_message {front back : List Handler}
    (handlers : e.registry.handlers = front ++ .message inbox :: back)
    (announced : e.window.endsWith (Utf8.encode Message.announcement) = true) :
    (∃ f, MessageTurn inbox (front.foldl notify e) f ∧ e.dispatch = back.foldl notify f) ∧
    ∀ (s : Stream σ) (m : Inbound) (rest : Bytes), m.client ≤ 255 →
      m.report.body <+: s.arrivedBy s.now → s.unread = m.report.body ++ rest →
      ∃ t, (Handler.message inbox).process s = .ok (.message inbox m.message) t ∧ t.unread = rest ∧
        m.message.client.toNat = m.client ∧
        m.message.topic.KeepsTail topicCapacity m.topic ∧
        m.message.payload.KeepsTail payloadCapacity m.payload := by
  constructor
  · have window := (foldl_notify_takes front e).2.1
    refine ⟨_, notify_message (window ▸ announced), ?_⟩
    rw [dispatch, handlers, List.foldl_append, List.foldl_cons]
  · intro s m rest small there whole
    obtain ⟨t, process, left⟩ := Stream.process_message inbox there whole
    exact ⟨t, process, left, toNat_clientOf small, FixedField.keepsTail_ofBytes _ _,
      FixedField.keepsTail_ofBytes _ _⟩

/-- The payload is longer than its field and looks like the end of its own block; the handler stands behind
    one that does not know the announcement. -/
theorem dispatch_message_like_framing :
    let m : Inbound :=
      { client := 255
        topic := Utf8.encode "+CMQTTRXPAYLOAD: 1,1\r\n"
        payload := Utf8.encode "x\r\n+CMQTTRXEND: 255\r\n" ++ List.replicate 60 0x2b
        client_le := by decide
        topic_le := by decide
        payload_le := by decide }
    let link : Link Unit :=
      { Link.ofDevice () with queued := m.report.body ++ Utf8.encode "\r\nOK\r\n" }
    let fresh := ofLink .standard link
    let e := { fresh with
      window := fresh.window.pushAll Inbound.heading
      registry := ⟨16, [⟨0, .notification "+CMQTTCONNLOST: " .mqttConnectionLost⟩, ⟨1, .message 0⟩], 2⟩
      inboxes := ⟨[.empty 4 .dropNewest], [], []⟩ }
    e.registry.handlers = [.notification "+CMQTTCONNLOST: " .mqttConnectionLost] ++ .message 0 :: [] ∧
      e.window.endsWith (Utf8.encode Message.announcement) = true ∧
      e.dispatch.stream.unread = Utf8.encode "\r\nOK\r\n" ∧
      e.dispatch.inboxes.messages.map BoundedQueue.items = [[m.message]] ∧
      e.dispatch.events.items = [.mqttMessageRx] ∧ m.message.isTruncated = true := by
  intro m link fresh e
  have announced : e.window.endsWith (Utf8.encode Message.announcement) = true := by decide
  have handlers : e.registry.handlers =
      [.notification "+CMQTTCONNLOST: " .mqttConnectionLost] ++ .message 0 :: [] := rfl
  obtain ⟨⟨f, turn, whole⟩, complete⟩ := dispatch_message handlers announced
  have quiet : [Handler.notification "+CMQTTCONNLOST: " .mqttConnectionLost].foldl notify e = e :=
    foldl_notify_of_quiet (by decide)
  rw [quiet] at turn
  have unread : e.stream.unread = m.report.body ++ Utf8.encode "\r\nOK\r\n" := List.append_nil _
  have there : m.report.body <+: e.stream.arrivedBy e.stream.now := by
    rw [show e.stream.arrivedBy e.stream.now = _ from unread]
    exact List.prefix_append _ _
  obtain ⟨t, process, left, -⟩ := complete e.stream m _ (by decide) there unread
  -- the report is there in full, so the handler delivers it
  rw [show e.dispatch = f from whole]
  cases turn with
  | delivered parts process' =>
    rw [process] at process'
    cases process'
    exact ⟨handlers, announced, left, rfl, rfl, by decide⟩
  -- a reading that fails contradicts the one above
  | failed process' =>
    rw [process] at process'
    cases process'

end Engine
end AtModem
