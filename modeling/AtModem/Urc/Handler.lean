/-
  Handlers of unsolicited result codes.

  The device reports what nobody asked for in the middle of its answers.  A handler names the text
  that announces such a report, the event to record when it has been dealt with, and how the rest of
  the report is read.  What it reads is delivered to an inbox; nothing goes back to the wait that was
  in progress.  A handler either delivers a whole report or fails and delivers nothing.
-/
import AtModem.BoundedQueue
import AtModem.Urc.Reading

namespace AtModem

/-- What is recorded once a report has been dealt with. -/
inductive UrcEvent where
  | mqttMessageRx
  | mqttConnectionLost
  | mqttNoNet
  | httpPeerClosed
  | httpNoNet
  | gnssSentence
  | sslPeerClosed
  deriving DecidableEq, Repr

namespace UrcEvent

/-- All events, in the order in which they are listed anywhere. -/
def all : List UrcEvent :=
  [mqttMessageRx, mqttConnectionLost, mqttNoNet, httpPeerClosed, httpNoNet, gnssSentence,
    sslPeerClosed]

/-- The word for an event. -/
def name : UrcEvent → String
  | mqttMessageRx => "MqttMessageRx"
  | mqttConnectionLost => "MqttConnectionLost"
  | mqttNoNet => "MqttNoNet"
  | httpPeerClosed => "HttpPeerClosed"
  | httpNoNet => "HttpNoNet"
  | gnssSentence => "GnssSentence"
  | sslPeerClosed => "SslPeerClosed"

/-- The event with a name. -/
def ofName? (s : String) : Option UrcEvent := all.find? fun e => e.name = s

end UrcEvent

/-- What a handler has read, and the inbox it goes to. -/
inductive Delivery where
  | nothing
  | message (inbox : Nat) (message : Mqtt.Message)
  | sentence (inbox : Nat) (sentence : Gnss.Sentence)
  | field (inbox : Nat) (field : FixedField)

/-- A handler is what it listens for, what it records, and how it reads; it keeps no state of its own, and
    nothing else is known of it where it is called. -/
structure Handler where
  /-- The text that announces the report. -/
  pattern : String
  /-- What is recorded when the report has been read, if anything is. -/
  event : Option UrcEvent
  /-- How the rest of the report is read. -/
  reading : Reading Delivery

namespace Handler

/-- Records an event; the report has nothing more to read. -/
def notification (announcement : String) (event : UrcEvent) : Handler where
  pattern := announcement
  event := some event
  reading := return .nothing

/-- Reads an MQTT message. -/
def message (inbox : Nat) : Handler where
  pattern := Mqtt.Message.announcement
  event := some .mqttMessageRx
  reading := return .message inbox (← .of .message)

/-- Reads an NMEA sentence of one talker. -/
def sentence (talker : String) (inbox : Nat) : Handler where
  pattern := talker
  event := some .gnssSentence
  reading := return .sentence inbox (← .of (.sentence talker))

/-- Reads a length, the rest of its line, and a field of that many bytes. -/
def field (announcement : String) (event : Option UrcEvent) (capacity inbox : Nat) : Handler where
  pattern := announcement
  event := event
  reading := do
    let length ← .of .length
    Reading.of (.find Ascii.lf)
    return .field inbox (← .of (.field capacity length))

/-- Reads the rest of the report. -/
def process {σ : Type} (h : Handler) : StreamM σ Delivery := h.reading.run

/-! ## The handlers that are registered by the facades, on a stream -/

section

variable {σ : Type}

/-- A notification reads nothing, so it can neither fail nor take a byte away from the answer behind
    it. -/
theorem process_notification (announcement : String) (event : UrcEvent) :
    (notification announcement event).process (σ := σ) = pure .nothing := rfl

/-- A message handler is the reader of messages and nothing more. -/
theorem process_message (inbox : Nat) :
    (message inbox).process (σ := σ) = do return .message inbox (← Mqtt.Message.read) := by
  unfold process message
  rw [Reading.run_bind, Reading.run_of .message]
  rfl

/-- A sentence handler is the reader of sentences for its talker. -/
theorem process_sentence (talker : String) (inbox : Nat) :
    (sentence talker inbox).process (σ := σ) =
      do return .sentence inbox (← Gnss.Sentence.read talker) := by
  unfold process sentence
  rw [Reading.run_bind, Reading.run_of (.sentence talker)]
  rfl

/-- A field handler reads the length, the rest of that line, and then the field. -/
theorem process_field (announcement : String) (event : Option UrcEvent) (capacity inbox : Nat) :
    (field announcement event capacity inbox).process (σ := σ) = do
      let length ← Stream.parseLen
      Stream.find Ascii.lf
      return .field inbox (← FixedField.read capacity length) := by
  unfold process field
  simp only [Reading.run_bind, Reading.run_of .length, Reading.run_of (.find _), Reading.run_of (.field _ _)]
  rfl

end

end Handler

theorem Stream.KeptByReading.process {σ : Type} {R : Stream σ → Stream σ → Prop}
    (k : KeptByReading R) (h : Handler) : Along R (h.process (σ := σ)) :=
  k.run h.reading

/-- The inboxes, by kind of content; an inbox is known by its place. -/
structure Inboxes where
  messages : List (BoundedQueue Mqtt.Message)
  sentences : List (BoundedQueue Gnss.Sentence)
  fields : List (BoundedQueue FixedField)

namespace Inboxes

/-- No inbox at all; a delivery to a place that there is not is lost. -/
def none : Inboxes := ⟨[], [], []⟩

/-- Pushes an element into the queue at a place. -/
def pushAt {α : Type} (place : Nat) (a : α) (queues : List (BoundedQueue α)) :
    List (BoundedQueue α) :=
  queues.modify place fun q => (q.push a).2

/-- Takes the oldest element of the queue at a place. -/
def popAt {α : Type} (place : Nat) (queues : List (BoundedQueue α)) :
    Option α × List (BoundedQueue α) :=
  match queues[place]? with
  | some q => (q.pop.1, queues.set place q.pop.2)
  | Option.none => (Option.none, queues)

/-- Puts a delivery into its inbox. -/
def post (boxes : Inboxes) : Delivery → Inboxes
  | .nothing => boxes
  | .message inbox m => { boxes with messages := pushAt inbox m boxes.messages }
  | .sentence inbox s => { boxes with sentences := pushAt inbox s boxes.sentences }
  | .field inbox f => { boxes with fields := pushAt inbox f boxes.fields }

end Inboxes
end AtModem
