/-
  The engine: a stream, the rolling window over what has been waited through, the registered handlers
  and what they have left behind.

  The window belongs to the engine and not to a single wait.  A wait that times out leaves it as it
  is, so a terminator that comes a little late is still recognised by the next wait.
-/
import AtModem.Urc.Registry
import AtModem.Window

namespace AtModem

/-- The measures of an engine.  Times are in milliseconds. -/
structure EngineConfig where
  /-- The bytes the rolling window keeps. -/
  windowCapacity : Nat
  /-- The number of handler slots. -/
  maxHandlers : Nat
  /-- The events that are kept until somebody collects them. -/
  urcQueueCapacity : Nat
  /-- The pause between polls of an idle link. -/
  pollInterval : Nat
  /-- The time allowed for a plain answer. -/
  defaultTimeout : Nat
  /-- The time allowed for each byte of a raw read or a parse. -/
  byteTimeout : Nat
  /-- The longest payload that is read into a value of its own. -/
  maxDownload : Nat
  deriving DecidableEq, Repr

/-- The measures that are used when nothing else is asked for. -/
def EngineConfig.standard : EngineConfig where
  windowCapacity := Window.defaultCapacity
  maxHandlers := 16
  urcQueueCapacity := 8
  pollInterval := 1
  defaultTimeout := 1000
  byteTimeout := 1000
  maxDownload := 65536

/-- Everything that an exchange with the device works on.  The ghosts record what has gone through
    the window and how often a handler was registered; no computation can look at them. -/
structure Engine (σ : Type) where
  stream : Stream σ
  window : Window
  /-- All that has gone through the window, oldest first. -/
  heard : Ghost Bytes
  registry : Registry
  /-- How often a handler has been registered. -/
  registered : Ghost Nat
  /-- The events of reports dealt with; the oldest gives way when there are too many. -/
  events : BoundedQueue UrcEvent
  inboxes : Inboxes
  defaultTimeout : Nat
  maxDownload : Nat

/-- A computation on an engine.  An error leaves the engine as it was when it arose. -/
abbrev EngineM (σ : Type) := EStateM AtError (Engine σ)

namespace Engine

variable {σ : Type}

/-- An engine on a link, with nothing read and nothing registered. -/
def ofLink (config : EngineConfig) (link : Link σ) : Engine σ where
  stream :=
    { link, lookahead := none, pollInterval := config.pollInterval,
      byteTimeout := config.byteTimeout, ledger := .of .blank }
  window := .ofCapacity config.windowCapacity
  heard := .of []
  registry := .ofCapacity config.maxHandlers
  registered := .of 0
  events := .empty config.urcQueueCapacity .dropOldest
  inboxes := .none
  defaultTimeout := config.defaultTimeout
  maxDownload := config.maxDownload

/-- The engine has no clock of its own: its time is that of the link it reads. -/
def now (e : Engine σ) : Nat := e.stream.now

/-- The bytes that are yet to be read.  Every loop that listens is bounded by it, since listening
    gives the device no reason to send more. -/
def backlog (e : Engine σ) : Nat := e.stream.backlog

/-- The engine in one line: its window, its handlers, and how many events wait.  What it shows of
    the window is text, whatever bytes came. -/
def describe (e : Engine σ) : String :=
  "ModemSerial \x7b window: " ++ Quoted.quote e.window.text ++ ", registry: " ++ e.registry.describe
    ++ ", urc_pending: " ++ toString e.events.items.length ++ " \x7d"

/-- A computation on the engine's stream. -/
def onStream {α : Type} (x : StreamM σ α) : EngineM σ α := fun e =>
  match x e.stream with
  | .ok a stream => .ok a { e with stream }
  | .error err stream => .error err { e with stream }

/-! ## Writing -/

/-- Writes raw bytes. -/
def print [Device σ] (data : Bytes) : EngineM σ Unit := fun e =>
  match e.stream.link.write data with
  | .ok link => .ok () { e with stream := { e.stream with link } }
  | .error fault => .error (.io fault) e

/-- Writes a command line. -/
def send [Device σ] (command : String) : EngineM σ Unit := do
  print command
  print [Ascii.cr, Ascii.lf]

/-! ## Handlers and what they leave behind -/

/-- Registers a handler and returns its number.  If there is no room the engine stays as it is; the
    ghost counts the registrations that succeeded. -/
def register (h : Handler) : EngineM σ HandlerId := fun e =>
  match e.registry.register h with
  | .ok (id, registry) => .ok id { e with registry, registered := e.registered.update (· + 1) }
  | .error err => .error err e

/-- Takes out the handler with this number and returns it, or returns nothing if it is not there;
    neither is an error. -/
def deregister (id : HandlerId) : EngineM σ (Option Handler) := fun e =>
  let (h, registry) := e.registry.deregister id
  .ok h { e with registry }

/-- Takes out several handlers. -/
def deregisterAll : List HandlerId → EngineM σ Unit
  | [] => pure ()
  | id :: ids => do
    let _ ← deregister id
    deregisterAll ids

/-- Registers several handlers in order, or none of them: if there is no room for all, those that
    were registered are taken out again. -/
def registerAll : List Handler → EngineM σ (List HandlerId)
  | [] => pure []
  | h :: hs => do
    let id ← register h
    try
      let ids ← registerAll hs
      pure (id :: ids)
    catch err =>
      let _ ← deregister id
      throw err

/-- Takes the oldest event. -/
def popEvent : EngineM σ (Option UrcEvent) := fun e =>
  let (event, events) := e.events.pop
  .ok event { e with events }

/-- Opens an inbox for messages. -/
def openMessages (capacity : Nat) (policy : OverflowPolicy) : EngineM σ Nat := fun e =>
  let messages := e.inboxes.messages
  .ok messages.length
    { e with inboxes := { e.inboxes with messages := messages ++ [.empty capacity policy] } }

/-- Opens an inbox for sentences. -/
def openSentences (capacity : Nat) (policy : OverflowPolicy) : EngineM σ Nat := fun e =>
  let sentences := e.inboxes.sentences
  .ok sentences.length
    { e with inboxes := { e.inboxes with sentences := sentences ++ [.empty capacity policy] } }

/-- Opens an inbox for fields. -/
def openFields (capacity : Nat) (policy : OverflowPolicy) : EngineM σ Nat := fun e =>
  let fields := e.inboxes.fields
  .ok fields.length
    { e with inboxes := { e.inboxes with fields := fields ++ [.empty capacity policy] } }

/-- Takes the oldest message out of the inbox at this place. -/
def popMessage (inbox : Nat) : EngineM σ (Option Mqtt.Message) := fun e =>
  let (m, messages) := Inboxes.popAt inbox e.inboxes.messages
  .ok m { e with inboxes := { e.inboxes with messages } }

/-- Takes the oldest sentence out of the inbox at this place. -/
def popSentence (inbox : Nat) : EngineM σ (Option Gnss.Sentence) := fun e =>
  let (s, sentences) := Inboxes.popAt inbox e.inboxes.sentences
  .ok s { e with inboxes := { e.inboxes with sentences } }

/-- Takes the oldest field out of the inbox at this place. -/
def popField (inbox : Nat) : EngineM σ (Option FixedField) := fun e =>
  let (f, fields) := Inboxes.popAt inbox e.inboxes.fields
  .ok f { e with inboxes := { e.inboxes with fields } }

/-- Throws away what is in an inbox for sentences. -/
def clearSentences (inbox : Nat) : EngineM σ Unit := fun e =>
  let sentences := e.inboxes.sentences.modify inbox BoundedQueue.clear
  .ok () { e with inboxes := { e.inboxes with sentences } }

end Engine
end AtModem
