/-
  One command and its answer, as they are.

  The answer is read off the stream and not waited for: no handler runs meanwhile and nothing goes
  through the window, so reports that come in between are part of what is printed.

  As in every other loop with a deadline, times are unbounded.  A real clock could refuse to add up the
  time of the call and a timeout that leads beyond its range, and the command would not begin; a timeout
  given in 64 bits of milliseconds does not lead there.
-/
import AtModem.Engine.Wait
import AtModem.Text.Hex
import AtModem.Tool.Console

namespace AtModem.Tool

/-- How an answer is printed: as it is, or as one line of hexadecimal digits. -/
inductive Echo where
  | text
  | hex
  deriving DecidableEq, Repr

/-- The answer so far, newest byte first, until it ends with a terminator; with it, whether that was
    `OK`. -/
def answerByte (acc : Bytes) (b : UInt8) : Stream.Scan Bytes (Bool × Bytes) :=
  let acc := b :: acc
  if Engine.okLine.reverse.isPrefixOf acc then .stop (true, acc.reverse)
  else if Engine.errorLine.reverse.isPrefixOf acc then .stop (false, acc.reverse)
  else .more acc

/-- Reads an answer to its terminator. -/
def readAnswer {σ : Type} (timeout : Nat) : StreamM σ (Bool × Bytes) := fun s =>
  let deadline := s.now + timeout
  match s.scan (fun _ => deadline) answerByte [] with
  | (.stop answer, s) => .ok answer s
  | (.more _, s) => .error .timedOut s

/-- The bytes that are printed for an answer. -/
def Echo.render : Echo → Bytes → Bytes
  | .text, answer => answer
  | .hex, answer => Utf8.encode (Hex.encode answer) ++ [Ascii.lf]

open ToolM in
/-- Sends a command, prints the answer, and says whether it was `OK`. -/
def ask {σ : Type} [Device σ] (command : String) (timeout : Nat) (echo : Echo) : ToolM σ Bool := do
  ofEngine (Engine.send command)
  let (ok, answer) ← ofEngine (Engine.onStream (readAnswer timeout))
  write (echo.render answer)
  return ok

end AtModem.Tool
