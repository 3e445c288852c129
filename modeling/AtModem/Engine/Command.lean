/-
  Commands and their plain answers.

  A command is a line; its answer is a terminator, or a result line that carries a code, or a value
  to be picked out of the stream.
-/
import AtModem.Engine.Wait
import AtModem.Stream.Number

namespace AtModem.Engine

variable {σ : Type}

/-- `wait` as a step of a longer exchange.  Timing out is an outcome like the others here; what it
    means is up to the exchange. -/
def await (patterns : List Bytes) (timeout : Nat) (ok error : Bool) : EngineM σ MatchOutcome :=
  fun e =>
    let (outcome, e) := e.wait patterns timeout ok error
    .ok outcome e

/-- A step of an exchange is the wait itself: it never fails, and a timeout is an outcome like any
    other. -/
theorem await_of_wait {patterns : List Bytes} {timeout : Nat} {ok error : Bool} {e f : Engine σ}
    {o : MatchOutcome} (w : e.wait patterns timeout ok error = (o, f)) :
    await patterns timeout ok error e = .ok o f := by
  unfold await
  rw [w]

/-- Goes on from a plain result. -/
def ofResult {α : Type} : Except AtError α → EngineM σ α
  | .ok a => pure a
  | .error err => throw err

/-- The time allowed for a plain answer. -/
def plainTimeout : EngineM σ Nat := do return (← get).defaultTimeout

/-- Waits for a terminator. -/
def waitOk (timeout : Nat) : EngineM σ Unit := do
  ofResult (← await [] timeout true true).expectSuccess

/-- Sends a command and waits for its terminator.  Everything before the terminator is passed over.
    -/
def command [Device σ] (line : String) (timeout : Nat) : EngineM σ Unit := do
  send line
  waitOk timeout

/-- Sends a command and gives it the plain time to be answered. -/
def plainCommand [Device σ] (line : String) : EngineM σ Unit := do
  let timeout ← plainTimeout
  command line timeout

/-- Lets reports come in for a time, looking for nothing else. -/
def listen (timeout : Nat) : EngineM σ Unit := do
  let _ ← await [] timeout false false

/-- Consumes the stream to the next terminator, whichever it is. -/
def clear (timeout : Nat) : EngineM σ Unit := do
  let _ ← await [] timeout true true

/-- Consumes the stream to the next terminator within the plain time.  It is what follows a line
    that was found, so that the next command does not take the terminator for its own. -/
def plainClear : EngineM σ Unit := do
  let timeout ← plainTimeout
  clear timeout

/-- Picks an integer out of an answer and consumes the rest of the answer.  The number is kept even
    though the terminator comes after it; without the terminator there is no result. -/
def parseIntClear (timeout : Nat) : EngineM σ Int := do
  let n ← onStream Stream.parseInt
  clear timeout
  return n

/-- Reads `<code>` and the rest of its line.  The line is read to its end before the code is looked
    at, so an error leaves nothing of it behind. -/
def codeLine : EngineM σ Unit := do
  let code ← onStream Stream.parseInt
  onStream (Stream.find Ascii.lf)
  ofResult (checkCode code)

/-- Reads up to a comma, then a code, then the rest of the line.  The index is skipped and not
    looked at. -/
def indexedCode : EngineM σ Int := onStream do
  Stream.find Ascii.comma
  let code ← Stream.parseInt
  Stream.find Ascii.lf
  return code

/-- Reads `<index>,<code>` and the rest of its line. -/
def indexedCodeLine : EngineM σ Unit := do
  let code ← indexedCode
  ofResult (checkCode code)

end AtModem.Engine
