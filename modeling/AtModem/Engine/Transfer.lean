/-
  Raw bytes inside the exchange of lines.

  An upload announces a number of bytes, waits for the device's prompt, writes the bytes and waits for
  them to be confirmed.  A download waits for a header, takes the number after it, reads exactly that
  many bytes and consumes what closes the answer.  While raw bytes move nothing is matched, so a
  payload that looks like a terminator is still a payload.

  A download whose payload does not fit the storage still reads all of it and its trailer, so that the
  stream is left where the next command needs it.
-/
import AtModem.Engine.Command
import AtModem.Stream.Raw

namespace AtModem

/-- The time allowed for a prompt or a header, unless told otherwise. -/
def transferTimeout : Nat := 9000

/-- How the device confirms an upload. -/
inductive Confirm where
  /-- By a terminator. -/
  | terminator
  /-- By a line `<pattern><index>,<code>`. -/
  | resultCode (pattern : Bytes)

/-- What closes the answer to a download. -/
inductive Trailer where
  | terminator
  | pattern (pattern : Bytes)
  /-- Nothing; the payload is the end. -/
  | nothing

/-- All that distinguishes one upload from another: the command line, the data, what prompts for it,
    what may come in place of the prompt, and how it is confirmed. -/
structure Upload where
  /-- The command line; it has to announce the number of bytes. -/
  command : String
  data : Bytes
  prompt : Bytes := Utf8.encode ">"
  /-- A result line `<pattern><index>,<code>` that may come in place of the prompt. -/
  inlineError : Option Bytes := none
  promptTimeout : Nat := transferTimeout
  confirm : Confirm := .terminator
  /-- The time for the confirmation, if not the plain one. -/
  confirmTimeout : Option Nat := none

/-- All that distinguishes one download from another: the command line, what the length follows, the
    length that is expected if one is, and what closes the answer. -/
structure Download where
  command : String
  /-- What the length follows. -/
  header : Bytes
  /-- The length that was asked for, if one was. -/
  expected : Option Nat := none
  headerTimeout : Nat := transferTimeout
  trailer : Trailer := .terminator
  /-- The time for the trailer, if not the plain one. -/
  trailerTimeout : Option Nat := none

namespace Engine

variable {σ : Type}

/-! ## Uploads -/

/-- That nothing of an upload was moved. -/
def unmoved (u : Upload) : AtError := .transferLengthMismatch u.data.length 0

/-- Reads a result line in place of the prompt to its end, together with the terminator that follows
    it.  Even a zero code means that nothing was moved. -/
def readRefusal (u : Upload) : EngineM σ Unit := do
  let code ← indexedCode
  plainClear
  ofResult (checkCode code)
  throw (unmoved u)

/-- Waits for the prompt.  A success in place of the prompt means that the device does not want the
    data, and so nothing was moved. -/
def awaitPrompt (u : Upload) : EngineM σ Unit := do
  match ← await (u.prompt :: u.inlineError.toList) u.promptTimeout true true with
  | .pattern 1 => return
  | .pattern _ => readRefusal u
  | .failure => throw .deviceReportedFailure
  | .success => throw (unmoved u)
  | .timedOut => throw (unmoved u)

/-- Waits for a result line `<pattern><index>,<code>` and reads it to its end. -/
def awaitCode (pattern : Bytes) (timeout : Nat) : EngineM σ Unit := do
  match ← await [pattern] timeout false true with
  | .pattern _ => indexedCodeLine
  | other => ofResult other.expectSuccess

/-- Waits for the confirmation.  Nothing is read beyond it. -/
def awaitConfirm (u : Upload) : EngineM σ Unit := do
  let plain ← plainTimeout
  let timeout := u.confirmTimeout.getD plain
  match u.confirm with
  | .terminator => waitOk timeout
  | .resultCode pattern => awaitCode pattern timeout

/-- Announces the data, waits for the prompt, writes the data and waits for it to be confirmed.
    Each step can fail and ends the upload there, so nothing is written behind a prompt that did not
    come. -/
def upload [Device σ] (u : Upload) : EngineM σ Unit := do
  send u.command
  awaitPrompt u
  print u.data
  awaitConfirm u

/-! ## Downloads -/

/-- Sends the command and reads the header line; returns the announced length.  A length without its
    line end is no header yet, so both are read before anything is decided. -/
def openDownload [Device σ] (d : Download) : EngineM σ Nat := do
  send d.command
  match ← await [d.header] d.headerTimeout false true with
  | .pattern _ =>
    let declared ← onStream Stream.parseLen
    onStream (Stream.find Ascii.lf)
    return declared
  | .failure => throw .deviceReportedFailure
  | _ => throw .timedOut

/-- Consumes what closes the answer. -/
def finishTrailer (d : Download) : EngineM σ Unit := do
  let plain ← plainTimeout
  let timeout := d.trailerTimeout.getD plain
  match d.trailer with
  | .terminator => waitOk timeout
  | .pattern pattern => ofResult (← await [pattern] timeout false true).expectSuccess
  | .nothing => return

/-- Consumes a payload that does not fit, with its trailer.  The trailer may be missing; the error
    is that there was no room, all the same. -/
def rejectDownload {α : Type} (d : Download) (declared capacity : Nat) : EngineM σ α := do
  onStream (Stream.skip declared)
  try finishTrailer d catch _ => pure ()
  throw (.outOfStorage capacity declared)

/-- Consumes the trailer and compares the announced length with the one asked for.  A length that
    was not expected is found out after everything has been read. -/
def closeDownload (d : Download) (declared : Nat) : EngineM σ Unit := do
  finishTrailer d
  match d.expected with
  | some expected =>
    if expected = declared then return else throw (.transferLengthMismatch expected declared)
  | none => return

/-- Downloads into a value of its own.  The limit is looked at before any byte of the payload is
    kept. -/
def download [Device σ] (d : Download) : EngineM σ Bytes := do
  let declared ← openDownload d
  let capacity := (← get).maxDownload
  if capacity < declared then
    rejectDownload d declared capacity
  else
    let data ← onStream (Stream.readExact declared)
    closeDownload d declared
    return data

end Engine

/-! ## Into storage of the caller -/

/-- A computation that also fills a buffer. -/
abbrev BufferM (ε σ : Type) := EStateM ε (Buffer × Engine σ)

namespace Engine

variable {σ : Type}

/-- A computation on the engine that leaves the buffer alone. -/
def besideBuffer {ε α : Type} (x : EStateM ε (Engine σ) α) : BufferM ε σ α := fun (b, e) =>
  match x e with
  | .ok a e => .ok a (b, e)
  | .error err e => .error err (b, e)

/-- Reads bytes of the stream into the buffer. -/
def fill (count : Nat) : BufferM AtError σ Unit := fun (b, e) =>
  match Buffer.fill count (b, e.stream) with
  | .ok () (b, stream) => .ok () (b, { e with stream })
  | .error err (b, stream) => .error err (b, { e with stream })

/-- Downloads into a buffer; returns the number of bytes.  An error in the payload leaves in the
    buffer what had come of it. -/
def downloadInto [Device σ] (d : Download) : BufferM AtError σ Nat := do
  let declared ← besideBuffer (openDownload d)
  let capacity := (← get).1.size
  if capacity < declared then
    besideBuffer (rejectDownload d declared capacity)
  else
    fill declared
    besideBuffer (closeDownload d declared)
    return declared

end Engine
end AtModem
