/-
  Listening: printing whatever comes in, for a time.

  The time is spent in turns.  In each of them reports are let in for a tenth of a second, then the
  events are counted and the sentences printed, then the messages, if the broker is listened to.  A
  turn looks for nothing but reports, so it lasts as long as it is told to, and the turns come to an
  end.

  The feed of sentences, if it is asked for, is on from the start and turned off at the end whatever
  has happened.
-/
import AtModem.Engine.Progress
import AtModem.Gnss.Feed
import AtModem.Tool.Broker

namespace AtModem.Tool

/-- What came in. -/
structure Summary where
  messages : Nat
  sentences : Nat
  events : Nat
  deriving DecidableEq, Repr

namespace Summary

/-- Nothing came in. -/
def zero : Summary := ⟨0, 0, 0⟩

/-- What came in, and what came in after that. -/
def add (s t : Summary) : Summary :=
  ⟨s.messages + t.messages, s.sentences + t.sentences, s.events + t.events⟩

end Summary

open ToolM

variable {σ : Type}

/-- How long reports are let in at a time, in milliseconds. -/
def slice : Nat := 100

/-! ## One turn -/

/-- Prints at most `n` of the lines that `take` yields and counts them. -/
def printLines (take : EngineM σ (Option String)) : Nat → ToolM σ Nat
  | 0 => pure 0
  | n + 1 => do
    match ← ofEngine take with
    | none => pure 0
    | some line => do
      writeLine line
      return (← printLines take n) + 1

/-- Takes all events and counts them. -/
def countEvents : EngineM σ Nat := fun e =>
  .ok e.events.items.length { e with events := e.events.clear }

/-- Takes the oldest sentence as a line. -/
def sentenceLine (feed : Gnss.Feed) : EngineM σ (Option String) := do
  return (← feed.pop).map Gnss.Sentence.text

/-- Takes the oldest message as a line: its topic, a space, its payload. -/
def messageLine (client : Mqtt.Client) : EngineM σ (Option String) := do
  return (← client.popMessage).map fun m => m.topic.text ++ " " ++ m.payload.text

/-- Counts the events and prints the sentences. -/
def printSentences (feed : Gnss.Feed) : ToolM σ Summary := do
  let events ← ofEngine countEvents
  let waiting := feed.available (← get).engine
  let sentences ← printLines (sentenceLine feed) waiting
  return { Summary.zero with events, sentences }

/-- Prints the messages. -/
def printMessages (client : Mqtt.Client) : ToolM σ Summary := do
  let waiting := client.available (← get).engine
  let messages ← printLines (messageLine client) waiting
  return { Summary.zero with messages }

/-- Does one after the other, the second also if the first fails; the first failure counts. -/
def both (x y : ToolM σ Summary) : ToolM σ Summary := fun c =>
  match x c with
  | .ok s c =>
    match y c with
    | .ok t c => .ok (s.add t) c
    | .error err c => .error err c
  | .error err c => .error err (endState (y c))

/-- Lets reports in for a slice, and goes on. -/
def afterSlice (x : ToolM σ Summary) : ToolM σ Summary := do
  ofEngine (Engine.listen slice)
  x

/-- A turn, with or without a broker. -/
def turn (feed : Gnss.Feed) : Option Mqtt.Client → ToolM σ Summary
  | none => afterSlice (printSentences feed)
  | some client => afterSlice (both (printSentences feed) (printMessages client))

/-! ## A turn takes time -/

/-- An answer that is given without doing anything takes no time. -/
theorem notEarlier_pure {α : Type} (a : α) : Along NotEarlier (pure a : ToolM σ α) :=
  Along.pure NotEarlier.refl a

/-- Neither of two parts turns the clock back, and so neither do both. -/
theorem notEarlier_bind {α β : Type} {x : ToolM σ α} {f : α → ToolM σ β} (hx : Along NotEarlier x)
    (hf : ∀ a, Along NotEarlier (f a)) : Along NotEarlier (x >>= f) :=
  Along.bind NotEarlier.trans hx hf

/-- Taking lines out and printing them takes no time at all; by induction on how many there are to
    be. -/
theorem notEarlier_printLines {take : EngineM σ (Option String)}
    (h : Along (fun e f => e.now ≤ f.now) take) (n : Nat) :
    Along NotEarlier (printLines take n) := by
  induction n with
  | zero => exact notEarlier_pure _
  | succ n ih =>
    refine notEarlier_bind (notEarlier_ofEngine h) fun line => ?_
    cases line with
    | none => exact notEarlier_pure _
    | some line =>
      exact notEarlier_bind (notEarlier_write _) fun _ => notEarlier_bind ih fun _ =>
        notEarlier_pure _

/-- Printing the sentences of a turn does not turn the clock back. -/
theorem notEarlier_printSentences (feed : Gnss.Feed) :
    Along NotEarlier (printSentences feed : ToolM σ Summary) :=
  notEarlier_bind (notEarlier_ofEngine fun _ => Nat.le_refl _) fun _ =>
    notEarlier_bind (Along.get NotEarlier.refl) fun _ =>
      notEarlier_bind (notEarlier_printLines (fun _ => Nat.le_refl _) _) fun _ => notEarlier_pure _

theorem notEarlier_printMessages (client : Mqtt.Client) :
    Along NotEarlier (printMessages client : ToolM σ Summary) :=
  notEarlier_bind (Along.get NotEarlier.refl) fun _ =>
    notEarlier_bind (notEarlier_printLines (fun _ => Nat.le_refl _) _) fun _ => notEarlier_pure _

theorem notEarlier_both {x y : ToolM σ Summary} (hx : Along NotEarlier x)
    (hy : Along NotEarlier y) : Along NotEarlier (both x y) := by
  intro c
  have h := hx c
  unfold both
  split <;> rename_i d r <;> rw [r] at h
  · have k := hy d
    split <;> rename_i r' <;> rw [r'] at k <;> exact Nat.le_trans h k
  · exact Nat.le_trans h (hy d)

/-- Letting reports in for a slice takes as long as the slice, since that wait looks for nothing
    that could end it early.  So whatever comes behind it, the clock has moved. -/
theorem now_lt_afterSlice {x : ToolM σ Summary} (h : Along NotEarlier x) (c : Console σ) :
    c.engine.now < (endState (afterSlice x c)).engine.now := by
  have k := Engine.now_add_le_listen slice c.engine
  have m := h { c with engine := (c.engine.wait [] slice false false).2 }
  have s : 0 < slice := by decide
  calc c.engine.now < c.engine.now + slice := Nat.lt_add_of_pos_right s
    _ ≤ (c.engine.wait [] slice false false).2.now := k
    _ ≤ _ := m

theorem now_lt_turn (feed : Gnss.Feed) (client : Option Mqtt.Client) (c : Console σ) :
    c.engine.now < (endState (turn feed client c)).engine.now := by
  cases client with
  | none => exact now_lt_afterSlice (notEarlier_printSentences feed) c
  | some client =>
    exact now_lt_afterSlice
      (notEarlier_both (notEarlier_printSentences feed) (notEarlier_printMessages client)) c

/-! ## The subcommand -/

/-- Takes turns until the deadline, or until one fails.  Before its `n`-th turn it looks whether it is
    still `running n`. -/
def turns (feed : Gnss.Feed) (client : Option Mqtt.Client) (deadline : Nat) (running : Nat → Bool)
    (total : Summary) : ToolM σ Summary := fun c =>
  if running 0 ∧ c.engine.now < deadline then
    match _h : turn feed client c with
    | .ok s d => turns feed client deadline (fun n => running (n + 1)) (total.add s) d
    | .error err d => .error err d
  else .ok total c
termination_by c => deadline - c.engine.now
decreasing_by
  rename_i c _
  have := now_lt_turn feed client c
  rw [_h] at this
  simp only [endState_ok] at this
  omega

variable [Device σ]

/-- Subscribes to all topics. -/
def subscribeAll (client : Mqtt.Client) : List String → ToolM σ Unit
  | [] => pure ()
  | topic :: topics => do
    ofClient (client.subscribe topic 1)
    subscribeAll client topics

/-- Listens with a connection to the broker.  The connection is closed after the last turn; one that
    cannot be opened, or on which a subscription is refused, is left as it is. -/
def listenToBroker (config : Config) (feed : Gnss.Feed) (deadline : Nat) (running : Nat → Bool) :
    ToolM σ Summary :=
  withClient config fun client => do
    openBroker config.mqtt client
    subscribeAll client config.mqtt.subscribe
    try
      turns feed (some client) deadline running .zero
    finally
      closeBroker client

/-- Listens for some milliseconds, with a connection to the broker if there are topics to subscribe
    to. -/
def listenFor (config : Config) (duration : Nat) (running : Nat → Bool) (feed : Gnss.Feed) :
    ToolM σ Summary := do
  let deadline := (← get).engine.now + duration
  if config.mqtt.subscribe.isEmpty then turns feed none deadline running .zero
  else listenToBroker config feed deadline running

/-- Lends out a feed that is on. -/
def withFeed {α : Type} (feed : Gnss.Feed) (use : Gnss.Feed → ToolM σ α) : ToolM σ α := do
  let feed ← ofOwner feed Gnss.Feed.enable
  try
    use feed
  finally
    let _ ← ofOwner feed (Gnss.Feed.disable true)

/-- Listens as long as it is running, with the feed of sentences if `gnss` is set. -/
def listenWhile (config : Config) (duration : Nat) (gnss : Bool) (running : Nat → Bool) :
    ToolM σ Summary := do
  let feed ← ofEngine Gnss.Feed.create
  if gnss then withFeed feed (listenFor config duration running)
  else listenFor config duration running feed

/-- Listens all the time, or not at all. -/
def listen (config : Config) (duration : Nat) (gnss running : Bool) : ToolM σ Summary :=
  listenWhile config duration gnss fun _ => running

end AtModem.Tool
