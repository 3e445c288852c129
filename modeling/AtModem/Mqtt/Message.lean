/-
  Inbound MQTT messages.

  The device announces a message with `+CMQTTRXSTART: <client>,<topic length>,<payload length>` and
  sends topic and payload as raw blocks, each under a heading line of its own; `+CMQTTRXEND: ` closes
  it.  `Message.read` takes up the stream right after the announcement and reads to the end of the
  closing line.
-/
import AtModem.FixedField
import AtModem.Stream.Line
import AtModem.Stream.Number

namespace AtModem
namespace Mqtt

/-- The storage of a topic, and of a payload. -/
def topicCapacity : Nat := 32

/-- The storage of a payload, one cell of which stays free. -/
def payloadCapacity : Nat := 64

/-- A message as it is delivered: each part in storage of its own, and cut from the front if it is
    too long for that. -/
structure Message where
  /-- The client it is addressed to. -/
  client : UInt8
  topic : FixedField
  payload : FixedField
  deriving DecidableEq, Repr

namespace Message

/-- What announces a message. -/
def announcement : String := "+CMQTTRXSTART: "

/-- A client number that is no byte is taken for the highest one. -/
def clientOf (n : Int) : UInt8 := if 0 ≤ n ∧ n ≤ 255 then n.toNat.toUInt8 else 255

/-- Whether topic or payload lost bytes. -/
def isTruncated (m : Message) : Bool := m.topic.isTruncated || m.payload.isTruncated

/-- One raw block: the heading, the rest of its line, the bytes.  The bytes are counted, and so they
    can be anything. -/
def readBlock {σ : Type} (heading : String) (timeout capacity declared : Nat) :
    StreamM σ FixedField := do
  Stream.waitFor heading timeout
  Stream.find Ascii.lf
  FixedField.read capacity declared

/-- Reads a message that was announced: its lengths, then topic and payload, then the closing line.
    All of it is read before anything of it is delivered. -/
def read {σ : Type} : StreamM σ Message := do
  let client ← Stream.parseInt
  Stream.find Ascii.comma
  let topicLength ← Stream.parseLen
  Stream.find Ascii.comma
  let payloadLength ← Stream.parseLen
  let timeout := (← get).byteTimeout
  let topic ← readBlock "+CMQTTRXTOPIC: " timeout topicCapacity topicLength
  let payload ← readBlock "+CMQTTRXPAYLOAD: " timeout payloadCapacity payloadLength
  Stream.waitFor "+CMQTTRXEND: " timeout
  Stream.find Ascii.lf
  return { client := clientOf client, topic, payload }

end Message
end Mqtt

namespace Stream.KeptByReading

variable {σ : Type} {R : Stream σ → Stream σ → Prop}

/-- A block keeps what a wait for its heading, the search for its line end and the reading of its
    bytes keep. -/
theorem readBlock (k : KeptByReading R) (heading : String) (timeout capacity declared : Nat) :
    Along R (Mqtt.Message.readBlock heading timeout capacity declared) :=
  k.bind (k.waitFor _ _) fun _ => k.bind (k.find _) fun _ => k.readField _ _

/-- Reading a message is a chain of reads of the stream, none of which looks at what is kept
    elsewhere. -/
theorem readMessage (k : KeptByReading R) : Along R (Mqtt.Message.read (σ := σ)) :=
  k.bind k.parseInt fun _ => k.bind (k.find _) fun _ => k.bind k.parseLen fun _ =>
  k.bind (k.find _) fun _ => k.bind k.parseLen fun _ => k.bind k.get fun _ =>
  k.bind (k.readBlock _ _ _ _) fun _ => k.bind (k.readBlock _ _ _ _) fun _ =>
  k.bind (k.waitFor _ _) fun _ => k.bind (k.find _) fun _ => k.pure _

end Stream.KeptByReading
end AtModem
