/-
  What the exchanges of the command line keep.

  Writing to the output is nothing to the engine, and the rest of a subcommand is exchanges of the engine
  and of the services.  So what holds across every step of an exchange holds across turns of listening
  and across opening and closing a connection, whether the output takes what is written or not.
-/
import AtModem.Proofs.Exchange.Owners
import AtModem.Tool.Listen
import AtModem.Tool.Publish

namespace AtModem

open Tool ToolM

variable {σ α β ε : Type} {R : Engine σ → Engine σ → Prop}

/-- A relation between engines, between consoles with them. -/
def Tool.On (R : Engine σ → Engine σ → Prop) (c d : Console σ) : Prop := R c.engine d.engine

namespace Tool

/-- A relation between engines, seen on the console that drives them: what the engine does, the
    console does. -/
theorem along_ofEngine {x : EngineM σ α} (h : Along R x) : Along (On R) (ToolM.ofEngine x) := by
  intro c
  have k := h c.engine
  unfold ToolM.ofEngine
  split <;> rename_i r <;> rw [r] at k <;> exact k

/-- What the engine answers is the answer on the console, and what was printed before stays. -/
theorem ofEngine_of_ok {x : EngineM σ α} {c : Console σ} {a : α} {f : Engine σ}
    (h : x c.engine = .ok a f) : ToolM.ofEngine x c = .ok a { c with engine := f } := by
  unfold ToolM.ofEngine
  rw [h]

/-- An error of the engine ends the command of the console, in the engine's last state. -/
theorem ofEngine_of_error {x : EngineM σ α} {c : Console σ} {err : AtError} {f : Engine σ}
    (h : x c.engine = .error err f) :
    ToolM.ofEngine x c = .error (.link err) { c with engine := f } := by
  unfold ToolM.ofEngine
  rw [h]

theorem along_ofClient {x : ClientM σ α} (h : Along R x) : Along (On R) (ToolM.ofClient x) := by
  intro c
  have k := h c.engine
  unfold ToolM.ofClient
  split <;> rename_i r <;> rw [r] at k <;> exact k

theorem engine_ofOwner (b : β) (x : OwnerM β σ Unit) (c : Console σ) :
    (endState (ToolM.ofOwner b x c)).engine = (endState (x (b, c.engine))).2 := by
  unfold ToolM.ofOwner
  split <;> rename_i r <;> rw [r] <;> rfl

end Tool

namespace Engine.KeptByListening

variable {S : Stream σ → Stream σ → Prop}

/-- Steps on the console compose as those on the engine do, since the relation does not look at what
    was printed. -/
theorem on_trans (k : KeptByListening S R) (c d f : Console σ) (h : On R c d) (h' : On R d f) :
    On R c f := k.trans _ _ _ h h'

/-- An answer that is given without doing anything keeps everything. -/
theorem on_pure (k : KeptByListening S R) (a : α) :
    Along (On R) (pure a : EStateM ε (Console σ) α) :=
  Along.pure (fun c => k.refl c.engine) a

theorem on_get (k : KeptByListening S R) :
    Along (On R) (get : EStateM ε (Console σ) (Console σ)) :=
  Along.get fun c => k.refl c.engine

theorem on_bind (k : KeptByListening S R) {x : EStateM ε (Console σ) α}
    {f : α → EStateM ε (Console σ) β} (hx : Along (On R) x) (hf : ∀ a, Along (On R) (f a)) :
    Along (On R) (x >>= f) :=
  Along.bind k.on_trans hx hf

/-! ## Output -/

/-- Printing goes to the console and not to the device: the engine stays the same. -/
theorem write (k : KeptByListening S R) (data : Bytes) :
    Along (On R) (ToolM.write data : ToolM σ Unit) := by
  intro c
  unfold ToolM.write
  split <;> exact k.refl c.engine

/-- Lines that are taken off the engine and printed one by one, at most a number of them; by
    induction on that number. -/
theorem printLines (k : KeptByListening S R) {take : EngineM σ (Option String)} (h : Along R take)
    (n : Nat) : Along (On R) (Tool.printLines take n) := by
  induction n with
  | zero => exact k.on_pure _
  | succ n ih =>
    refine k.on_bind (along_ofEngine h) fun line => ?_
    cases line with
    | none => exact k.on_pure _
    | some line => exact k.on_bind (k.write _) fun _ => k.on_bind ih fun _ => k.on_pure _

/-! ## Turns of listening -/

/-- The sentences of a turn are taken out of their inbox and printed. -/
theorem printSentences (k : KeptByListening S R) (feed : Gnss.Feed) :
    Along (On R) (Tool.printSentences feed : ToolM σ Summary) :=
  k.on_bind (along_ofEngine fun e => k.mail _ _ _ e.events.follows_clear) fun _ => k.on_bind k.on_get fun _ =>
    k.on_bind (k.printLines (fun _ => k.mail _ _ _ (.refl _)) _) fun _ => k.on_pure _

theorem printMessages (k : KeptByListening S R) (client : Mqtt.Client) :
    Along (On R) (Tool.printMessages client : ToolM σ Summary) :=
  k.on_bind k.on_get fun _ => k.on_bind (k.printLines (fun _ => k.mail _ _ _ (.refl _)) _) fun _ =>
    k.on_pure _

/-- Both kinds in one turn, the second also if the first has failed: either way the engine ends
    where the second left it. -/
theorem both (k : KeptByListening S R) {x y : ToolM σ Summary} (hx : Along (On R) x)
    (hy : Along (On R) y) : Along (On R) (Tool.both x y) := by
  intro c
  have h := hx c
  unfold Tool.both
  split <;> rename_i d r <;> rw [r] at h
  · have h' := hy d
    split <;> rename_i r' <;> rw [r'] at h' <;> exact k.on_trans _ _ _ h h'
  · exact k.on_trans _ _ _ h (hy d)

/-- A turn lets reports in for a while, counts the events and prints what came.  It looks for
    nothing, so it writes nothing. -/
theorem turn (k : KeptByListening S R) (feed : Gnss.Feed) (client : Option Mqtt.Client) :
    Along (On R) (Tool.turn feed client : ToolM σ Summary) := by
  cases client with
  | none => exact k.on_bind (along_ofEngine (k.listen _)) fun _ => k.printSentences feed
  | some client =>
    exact k.on_bind (along_ofEngine (k.listen _)) fun _ =>
      k.both (k.printSentences feed) (k.printMessages client)

/-- Turns follow one another until the time is over or the user has had enough.  By induction on
    what is left of the time, since each turn lasts. -/
theorem turns (k : KeptByListening S R) (feed : Gnss.Feed) (client : Option Mqtt.Client)
    (deadline : Nat) (running : Nat → Bool) (total : Summary) :
    Along (On R) (Tool.turns feed client deadline running total : ToolM σ Summary) := by
  intro c
  -- turn after turn, each from the console the last one left
  fun_induction Tool.turns feed client deadline running total c with
  | case1 running total c on s d h ih =>
    have one := k.turn feed client c
    rw [h] at one
    exact k.on_trans _ _ _ one ih
  | case2 running total c on err d h =>
    have one := k.turn feed client c
    rw [h] at one
    exact one
  | case3 running total c off => exact k.refl c.engine

end Engine.KeptByListening

namespace Engine.KeptByExchange

variable [Device σ] {S : Stream σ → Stream σ → Prop}

/-! ## Connections to the broker -/

/-- A step that is tried has ended in the engine in which the step itself ended, well or badly. -/
theorem attempt (k : KeptByExchange S R) {x : ClientM σ Unit} (h : Along R x) :
    Along (On R) (Tool.attempt x) :=
  Along.tryCatch k.on_trans (along_ofClient h) fun _ => k.on_pure _

/-- A connection is opened by the start of the client and the connection to the broker, one after
    the other. -/
theorem openBroker (k : KeptByExchange S R) (config : MqttConfig) (client : Mqtt.Client) :
    Along (On R) (Tool.openBroker (σ := σ) config client) :=
  k.on_bind (along_ofClient (k.beginMqtt client)) fun _ =>
    along_ofClient (k.connectToBroker client _ _ _ _)

/-- A connection is closed by two steps that are both tried, whatever became of the first. -/
theorem closeBroker (k : KeptByExchange S R) (client : Mqtt.Client) :
    Along (On R) (Tool.closeBroker (σ := σ) client) :=
  k.on_bind (k.attempt (k.disconnectMqtt _ _)) fun _ => k.attempt (k.endMqtt client)

/-- The topics are subscribed to one after another. -/
theorem subscribeAll (k : KeptByExchange S R) (client : Mqtt.Client) (topics : List String) :
    Along (On R) (Tool.subscribeAll (σ := σ) client topics) := by
  induction topics with
  | nil => exact k.on_pure _
  | cons topic topics ih =>
    exact k.on_bind (along_ofClient (k.subscribe _ _ _)) fun _ => ih

end Engine.KeptByExchange
end AtModem
