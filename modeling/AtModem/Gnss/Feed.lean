/-
  The feed of sentences from the receiver.

  While a feed is enabled it has one handler for each talker registered, and all of them leave their
  sentences in its inbox.  Enabling either registers all of them and turns the output on, or leaves
  none; disabling takes them out whatever the device answers.
-/
import AtModem.Gnss.Commands

namespace AtModem.Gnss

/-- The talkers of the receiver. -/
def talkers : List String := ["$GP", "$GA", "$GB", "$GN", "$GL", "$BD"]

/-- The sentences that are kept; then the oldest gives way. -/
def inboxCapacity : Nat := 8

/-- A feed is enabled just as long as it has handlers registered, so there is no flag that could say
    otherwise. -/
structure Feed where
  /-- The place of the inbox. -/
  inbox : Nat
  /-- The registered handlers. -/
  handlers : List HandlerId

namespace Feed

open Engine ClientM

variable {σ : Type} [Device σ]

/-- What a feed listens for. -/
def reports (inbox : Nat) : List Handler := talkers.map (.sentence · inbox)

/-- A feed that is off, with an inbox of its own.  Its inbox keeps the newest sentences, since an
    old position is of no use. -/
def create : EngineM σ Feed := do
  let inbox ← openSentences inboxCapacity .dropOldest
  return { inbox, handlers := [] }

/-- Whether the feed has its handlers registered. -/
def isEnabled (f : Feed) : Bool := !f.handlers.isEmpty

/-- Registers the handlers of a feed and turns the output on, or leaves none of them. -/
def turnOn (inbox : Nat) : ClientM σ (List HandlerId) := do
  selectOutputPort
  let handlers ← ofEngine (registerAll (reports inbox))
  try
    setNmeaOutput true
    pure handlers
  catch err =>
    ofEngine (deregisterAll handlers)
    throw err

/-- Turns the feed on, unless it is on. -/
def enable : OwnerM Feed σ Unit := do
  let (f, _) ← get
  if f.isEnabled then return
  let handlers ← beside (turnOn f.inbox)
  modify fun (f, e) => ({ f with handlers }, e)

/-- Turns the feed off and takes its handlers out; `exhaust` also throws away what it has kept.  The
    handlers go even if the command fails. -/
def disable (exhaust : Bool) : OwnerM Feed σ Unit := do
  let (f, _) ← get
  try
    beside (setNmeaOutput false)
  finally
    beside (ofEngine (deregisterAll f.handlers))
    modify fun (f, e) => ({ f with handlers := [] }, e)
    if exhaust then beside (ofEngine (clearSentences f.inbox))

/-- Takes the oldest sentence that was kept. -/
def pop (f : Feed) : EngineM σ (Option Sentence) := popSentence f.inbox

/-- How many sentences wait in the inbox. -/
def available (f : Feed) (e : Engine σ) : Nat :=
  match e.inboxes.sentences[f.inbox]? with
  | some q => q.items.length
  | none => 0

end Feed
end AtModem.Gnss
