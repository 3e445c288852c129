/-
  Receiving on a socket session.

  The device hands out what it keeps in chunks, each under a heading with its length.  An empty chunk
  or a heading with a code ends the receive.  The chunks fill the caller's buffer from the front; what
  does not fit is read and dropped, and then the receive fails, but only once the last chunk is in, so
  that nothing of it is left in the stream.
-/
import AtModem.Engine.Progress
import AtModem.Ssl.Commands

namespace AtModem.Ssl

open Engine ClientM

variable {σ : Type}

/-! ## One chunk -/

/-- Reads `<session>,<code>` and the rest of the line. -/
def sessionCode : EngineM σ Int := onStream do
  let _ ← Stream.parseInt
  Stream.find Ascii.comma
  let code ← Stream.parseInt
  Stream.find Ascii.lf
  return code

/-- The letter that opens the heading of a chunk. -/
def letterD : UInt8 := 0x44

/-- What a line `+CCHRECV: ` goes on to say: a chunk of this length, or a closing code. -/
inductive ChunkHeading where
  | data (length : Nat)
  | closing (code : Int)

/-- Reads the rest of a heading: `DATA,<session>,<length>` or `<session>,<code>`. -/
def readHeading : EngineM σ ChunkHeading := do
  let first ← onStream (Stream.readWanted (· = letterD))
  if first = letterD then
    onStream do
      Stream.find Ascii.comma
      let _ ← Stream.parseInt
      Stream.find Ascii.comma
      let length ← Stream.parseLen
      Stream.find Ascii.lf
      return .data length
  else
    return .closing (← sessionCode)

/-- Reads a chunk of `length` bytes into the buffer.  What does not fit is read all the same; returns
    how many bytes that was. -/
def readChunk (length : Nat) : BufferM AtError σ Nat := do
  let room := (← get).1.room
  if room < length then
    fill room
    besideBuffer (onStream (Stream.skip (length - room)))
    return length - room
  else
    fill length
    return 0

/-- What one heading led to: a chunk with so many bytes too many, or the end.  An empty chunk and a
    closing line without an error mean the same. -/
def takeChunk : BufferM AtError σ (Option Nat) := do
  match ← besideBuffer readHeading with
  | .data 0 => return none
  | .data length => return some (← readChunk length)
  | .closing code =>
    besideBuffer (ofResult (checkCode code))
    return none

/-- Waits for the next heading and takes what follows it.  A terminator in the payload of a chunk is
    not heard here, as chunks are read by their length. -/
def nextChunk : BufferM AtError σ (Option Nat) := fun (b, e) =>
  match e.wait [Utf8.encode "+CCHRECV: "] chunkTimeout false true with
  | (.pattern _, e) => takeChunk (b, e)
  | (.failure, e) => .error .deviceReportedFailure (b, e)
  | (_, e) => .error .timedOut (b, e)

/-! ## All chunks -/

section

variable {S : Stream σ → Stream σ → Prop} {R : Engine σ → Engine σ → Prop}

theorem kept_sessionCode (k : KeptByListening S R) : Along R (sessionCode (σ := σ)) :=
  k.onStream (k.reading.bind k.reading.parseInt fun _ => k.reading.bind (k.reading.find _) fun _ =>
    k.reading.bind k.reading.parseInt fun _ => k.reading.bind (k.reading.find _) fun _ =>
      k.reading.pure _)

theorem kept_readHeading (k : KeptByListening S R) : Along R (readHeading (σ := σ)) := by
  refine k.bind (k.onStream (k.reading.readWanted _)) fun b => ?_
  split
  · exact k.onStream (k.reading.bind (k.reading.find _) fun _ => k.reading.bind k.reading.parseInt
      fun _ => k.reading.bind (k.reading.find _) fun _ => k.reading.bind k.reading.parseLen
        fun _ => k.reading.bind (k.reading.find _) fun _ => k.reading.pure _)
  · exact k.bind (kept_sessionCode k) fun _ => k.pure _

/-- A chunk is read to its end, in part into the buffer and in part past it. -/
theorem kept_readChunk (k : KeptByListening S R) (length : Nat) :
    Along (Beside R) (readChunk length : BufferM AtError σ Nat) := by
  refine k.beside_bind k.beside_get fun s => ?_
  show Along (Beside R) (if s.1.room < length then _ else _)
  split
  · exact k.beside_bind (k.fill _) fun _ => k.beside_bind
      (along_besideBuffer (k.onStream (k.reading.skip _))) fun _ => k.beside_pure _
  · exact k.beside_bind (k.fill _) fun _ => k.beside_pure _

/-- What a heading leads to is reading as well, or a verdict. -/
theorem kept_takeChunk (k : KeptByListening S R) :
    Along (Beside R) (takeChunk : BufferM AtError σ (Option Nat)) := by
  refine k.beside_bind (along_besideBuffer (kept_readHeading k)) fun h => ?_
  split
  · exact k.beside_pure _
  · exact k.beside_bind (kept_readChunk k _) fun _ => k.beside_pure _
  · exact k.beside_bind (along_besideBuffer (k.ofResult _)) fun _ => k.beside_pure _

/-- The next chunk: a wait for its heading, and what follows that. -/
theorem kept_nextChunk (k : KeptByListening S R) :
    Along (Beside R) (nextChunk : BufferM AtError σ (Option Nat)) := by
  intro (b, e)
  have w := k.await [Utf8.encode "+CCHRECV: "] chunkTimeout false true e
  unfold nextChunk
  simp only
  split <;> rename_i r <;> simp only [await, r, endState_ok] at w
  · exact k.trans _ _ _ w (kept_takeChunk k (b, _))
  · exact w
  · exact w

end

/-- A chunk that was found has used up bytes of the stream. -/
theorem backlog_nextChunk {s t : Buffer × Engine σ} {r : Option Nat}
    (h : nextChunk s = .ok r t) : t.2.backlog < s.2.backlog := by
  obtain ⟨b, e⟩ := s
  unfold nextChunk at h
  simp only at h
  split at h
  · rename_i i f w
    have k := backlog_waitUntil w (by simp)
    have m := Stream.After.backlog_le (kept_takeChunk keptByListening_after (b, f))
    rw [h] at m
    simp only [endState_ok, backlog] at *
    omega
  · cases h
  · cases h

/-- Takes chunks until the end; returns how many bytes were too many, beginning with `excess`.  It
    ends because each heading takes bytes off the backlog. -/
def takeChunks (excess : Nat) (s : Buffer × Engine σ) :
    EStateM.Result AtError (Buffer × Engine σ) Nat :=
  match _h : nextChunk s with
  | .error err t => .error err t
  | .ok none t => .ok excess t
  | .ok (some more) t => takeChunks (excess + more) t
termination_by s.2.backlog
decreasing_by exact backlog_nextChunk _h

/-! ## The command -/

/-- Reads the answer to the command itself: `OK`, or at once a closing code. -/
def openReceive [Device σ] (session : SessionId) (size : Nat) : EngineM σ Unit := do
  send s!"AT+CCHRECV={session},{size}"
  match ← await [Utf8.encode "+CCHRECV: "] socketTimeout true true with
  | .success => return
  | .pattern _ =>
    let code ← sessionCode
    plainClear
    ofResult (checkCode code)
    throw .deviceReportedFailure
  | .failure => throw .deviceReportedFailure
  | .timedOut => throw .timedOut

/-- Receives what the device keeps for a session, at most a buffer full; returns the number of bytes
    placed.  What had no room was read and dropped, and the error says how much there was in all. -/
def receive [Device σ] (session : SessionId) : BufferM AtError σ Nat := do
  let size := (← get).1.size
  besideBuffer (openReceive session size)
  let excess ← takeChunks 0
  let placed := (← get).1.placed.length
  if excess = 0 then return placed
  else throw (.outOfStorage size (placed + excess))

end AtModem.Ssl
