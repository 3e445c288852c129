/-
  The commands of the satellite receiver.
-/
import AtModem.Client

namespace AtModem.Gnss

open Engine ClientM

variable {σ : Type} [Device σ]

/-- The time allowed for the receiver's commands. -/
def commandTimeout : Nat := 9000

/-- How much the receiver remembers when it starts. -/
inductive StartMode where
  | cold
  | warm
  | hot
  deriving DecidableEq, Repr

/-- The word for a mode in a configuration. -/
def StartMode.name : StartMode → String
  | .cold => "cold"
  | .warm => "warm"
  | .hot => "hot"

/-- The mode with a name. -/
def StartMode.ofName? (s : String) : Option StartMode :=
  [.cold, .warm, .hot].find? fun m : StartMode => m.name = s

/-- The command line for each mode. -/
def StartMode.command : StartMode → String
  | .cold => "AT+CGPSCOLD"
  | .warm => "AT+CGPSWARM"
  | .hot => "AT+CGPSHOT"

/-- A command of the receiver. -/
def order (line : String) : ClientM σ Unit := ofEngine (command line commandTimeout)

/-- Powers the receiver on; says whether it has reported ready in time. -/
def powerOn (readyTimeout : Nat) : ClientM σ Bool := do
  order "AT+CGNSSPWR=1"
  ofEngine do
    match ← await [Utf8.encode "+CGNSSPWR: READY!"] readyTimeout false true with
    | .pattern _ => return true
    | .failure => throw .deviceReportedFailure
    | _ => return false

/-- Powers the receiver off. -/
def powerOff : ClientM σ Unit := order "AT+CGNSSPWR=0"

/-- Selects the constellations. -/
def setSupportMode (mode : Nat) : ClientM σ Unit := order s!"AT+CGNSSMODE={mode}"

/-- How often the receiver reports, in times a second. -/
def setNmeaRate (hz : Nat) : ClientM σ Unit := order s!"AT+CGPSNMEARATE={hz}"

/-- Starts the receiver in one of its modes. -/
def start (mode : StartMode) : ClientM σ Unit := order mode.command

/-- Sends the sentences to the port of the commands. -/
def selectOutputPort : ClientM σ Unit := order "AT+CGNSSPORTSWITCH=0,1"

/-- Whether the receiver sends its sentences to the port. -/
def setNmeaOutput (enable : Bool) : ClientM σ Unit :=
  let on := flag enable
  order s!"AT+CGNSSTST={on}"

end AtModem.Gnss
