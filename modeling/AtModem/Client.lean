/-
  What the services of the device have in common: their errors, and how their commands are built.

  The device knows SSL contexts, MQTT clients and sessions by small numbers.  Text that goes between
  quotes in a command line must not end the quotation or the line, so a text argument is checked
  before its command is sent.
-/
import AtModem.Engine.Transfer
import AtModem.Text.Quoted

namespace AtModem

/-- An SSL configuration context, 0 to 9. -/
abbrev ContextIndex := UInt8

/-- An MQTT client, 0 or 1. -/
abbrev ClientIndex := UInt8

/-- An MQTT or SSL session, 0 or 1. -/
abbrev SessionId := UInt8

/-- Why an argument cannot be put into a command. -/
inductive ArgumentFault where
  | slotName (slot : String)
  | host (host : String)
  | emptyData (command : String)
  | emptyTopic
  | unquotable (text : String)
  | unquotableParameter (key value : String)
  /-- A question about a request when none was made. -/
  | noRequest
  deriving DecidableEq, Repr

/-- The text that is shown for a refused argument; it quotes the argument, so that a line end in it
    is seen and not printed. -/
def ArgumentFault.message : ArgumentFault → String
  | .slotName slot => "invalid certificate slot name " ++ Quoted.quote slot
  | .host name => "invalid host " ++ Quoted.quote name
  | .emptyData command => "empty data for " ++ command
  | .emptyTopic => "empty topic"
  | .unquotable text => Quoted.quote text ++ " cannot be quoted in a command"
  | .unquotableParameter key value => key ++ " value " ++ Quoted.quote value ++ " cannot be quoted"
  | .noRequest => "no request made"

/-- Why a call of a service has failed: either the exchange with the device did, or the call was
    refused before anything was sent, or the device has answered something that the service has a
    name for. -/
inductive ClientError where
  /-- The exchange with the device failed. -/
  | link (error : AtError)
  | mqttAlreadyStarted
  | mqttAlreadyStopped
  /-- The request ended with a status other than 2xx. -/
  | httpStatus (status : Nat)
  /-- The request headers together would be longer than the device takes. -/
  | headerTooLong (max : Nat)
  | invalidArgument (fault : ArgumentFault)
  deriving DecidableEq, Repr

namespace ClientError

/-- The text that is shown for an error.  An error of the link is worded as the link words it. -/
def message : ClientError → String
  | link error => error.message
  | mqttAlreadyStarted => "MQTT service already started"
  | mqttAlreadyStopped => "MQTT service already stopped"
  | httpStatus status => s!"HTTP request failed with status {status}"
  | headerTooLong max => s!"HTTP headers exceed {max} bytes"
  | invalidArgument fault => "invalid argument: " ++ fault.message

/-- Whether the error is a deadline that passed. -/
def isTimeout : ClientError → Bool
  | link error => error.isTimeout
  | _ => false

end ClientError

/-- An exchange of a service with the device. -/
abbrev ClientM (σ : Type) := EStateM ClientError (Engine σ)

/-- An exchange together with the state of whoever leads it.  An error keeps the state of the leader
    as it was when the error arose, too. -/
abbrev OwnerM (α σ : Type) := EStateM ClientError (α × Engine σ)

namespace ClientM

variable {σ α β : Type}

/-- A plain exchange as an exchange of a service.  Errors of the link keep their wording. -/
def ofEngine (x : EngineM σ α) : ClientM σ α := fun e =>
  match x e with
  | .ok a e => .ok a e
  | .error err e => .error (.link err) e

/-- An exchange that leaves the state of its leader alone. -/
def beside (x : ClientM σ α) : OwnerM β σ α := fun (b, e) =>
  match x e with
  | .ok a e => .ok a (b, e)
  | .error err e => .error err (b, e)

/-- Refuses an argument. -/
def refuse (fault : ArgumentFault) : ClientM σ α := throw (.invalidArgument fault)

end ClientM

/-- Whether a text may stand between quotes in a command line. -/
def quotable (text : String) : Bool :=
  text.toList.all fun c => c != '"' && c != '\r' && c != '\n'

/-- The three characters that a quoted text must not have: two would end the line and one the
    quotation. -/
theorem quotable_iff {text : String} :
    quotable text = true ↔ ∀ c ∈ text.toList, c ≠ '"' ∧ c ≠ '\r' ∧ c ≠ '\n' := by
  simp only [quotable, List.all_eq_true, Bool.and_eq_true, bne_iff_ne, ne_eq, and_assoc]

/-- A text between quotes. -/
def inQuotes (text : String) : String := "\"" ++ text ++ "\""

/-- A flag as the device writes it. -/
def flag (b : Bool) : String := if b then "1" else "0"

end AtModem
