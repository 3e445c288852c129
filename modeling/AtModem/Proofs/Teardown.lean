/-
  What a subcommand leaves behind at the broker.

  Publishing and listening hold a connection in the same way (`connected`).  The service is started and
  a client acquired (`enter`), the rest of the connection is made ready (`settle`), then the connection
  is used, and it is closed however that went.  So once it is ready the device is told to disconnect
  and to release the client, whatever has become of the use.  It is told to stop the service only if it
  has let the client go.

  Closing waits for the connection to be ready, though, and not for the client to be acquired: where the
  device has given the client and then refuses the context, the connection or a topic, nothing is
  written any more that has to do with the broker.
-/
import AtModem.Link.Script
import AtModem.Proofs.Exchange.Console
import AtModem.Proofs.Injection
import AtModem.Proofs.Upload

namespace AtModem

open Engine

variable {σ α : Type}

/-! ## A link that works -/

namespace Engine

/-- A link that works goes on to work. -/
def StaysWorking (e f : Engine σ) : Prop :=
  e.stream.link.failWrites = false → f.stream.link.failWrites = false

/-- Nothing that the library does makes a link refuse writes.  Only the link itself can be told to,
    and the library has no such call. -/
theorem keptByHandling_working [Device σ] :
    KeptByHandling (fun s t : Stream σ => s.link.failWrites = false → t.link.failWrites = false)
      (StaysWorking (σ := σ)) where
  reading :=
    { refl := fun _ works => works
      trans := fun _ _ _ h k works => k (h works)
      idle := fun _ works => works
      look := fun s works => (Link.SameFarEnd.deliver s.link).failWrites.trans works
      take := fun h works => (Stream.sameFarEnd_tryRead h).failWrites.trans works
      putBack := fun h works => (Stream.sameFarEnd_tryRead h).failWrites.trans works }
  trans _ _ _ h k works := k (h works)
  stream h := h
  hear _ _ works := works
  mail _ _ _ _ works := works
  print data _ works := (print_of_working works data).2.works
  register h e := by
    unfold Engine.register
    split <;> exact fun works => works
  deregister _ _ works := works

/-- An exchange whose first part has written something, and which only listens after it. -/
theorem Wrote.then_listening {ε β : Type} {bytes : Bytes} {e : Engine σ} {x : EStateM ε (Engine σ) α}
    {f : α → EStateM ε (Engine σ) β} (h : Wrote bytes e (endState (x e)))
    (hf : ∀ a, Along (fun e f : Engine σ => e.stream.link.SameFarEnd f.stream.link) (f a)) :
    Wrote bytes e (endState ((x >>= f) e)) := by
  cases r : x e with
  | ok a t =>
    rw [r] at h
    rw [bind_of_ok r]
    exact h.listened (hf a t)
  | error err t =>
    rw [r] at h
    rw [bind_of_error r]
    exact h

variable [Device σ] {e : Engine σ}

/-- A line of a service, and an answer to it: the line is all that is written. -/
theorem wrote_line {ε β : Type} (works : e.stream.link.failWrites = false) (text : String)
    {x : EStateM ε (Engine σ) Unit} (sends : endState (x e) = endState (send text e))
    {f : Unit → EStateM ε (Engine σ) β}
    (hf : ∀ a, Along (fun e f : Engine σ => e.stream.link.SameFarEnd f.stream.link) (f a)) :
    Wrote (Piece.line text []).bytes e (endState ((x >>= f) e)) := by
  refine Wrote.then_listening ?_ hf
  rw [sends]
  exact (send_of_working works text).2

end Engine

/-! ## Giving a connection up -/

/-- Whether a computation has ended well. -/
def endedWell {ε τ : Type} : EStateM.Result ε τ α → Bool
  | .ok _ _ => true
  | .error _ _ => false

theorem endedWell_iff {ε τ : Type} {r : EStateM.Result ε τ α} :
    endedWell r = true ↔ ∃ a t, r = .ok a t := by
  cases r <;> simp [endedWell]

namespace Mqtt

open ClientM

variable [Device σ] {e : Engine σ}

omit [Device σ] in
/-- Waiting for a result line and reading its code only listens. -/
theorem listens_codeAwaited (tag : Bytes) (timeout : Nat) (ok error : Bool) :
    Along (fun e f : Engine σ => e.stream.link.SameFarEnd f.stream.link)
      (Engine.await [tag] timeout ok error >>= indexedCodeAfter) :=
  keptByListening_farEnd.bind (keptByListening_farEnd.await _ _ _ _) keptByListening_farEnd.indexedCodeAfter

/-- Disconnecting is one line to the device, whatever it answers. -/
theorem wrote_disconnect (works : e.stream.link.failWrites = false) (client : ClientIndex) (secs : Nat) :
    Wrote (Piece.line s!"AT+CMQTTDISC={client},{secs}" []).bytes e
      (endState (disconnect client secs e)) := by
  unfold disconnect
  rw [endState_ofEngine]
  exact wrote_line works _ rfl fun _ => listens_codeAwaited _ _ _ _

theorem wrote_releaseClient (works : e.stream.link.failWrites = false) (client : ClientIndex) :
    Wrote (Piece.line s!"AT+CMQTTREL={client}" []).bytes e (endState (releaseClient client e)) := by
  unfold releaseClient
  rw [endState_ofEngine]
  exact wrote_line works _ rfl fun _ => listens_codeAwaited _ _ _ _

theorem wrote_stop (works : e.stream.link.failWrites = false) :
    Wrote (Piece.line "AT+CMQTTSTOP" []).bytes e (endState (stop e)) := by
  have k := keptByListening_farEnd (σ := σ)
  refine wrote_line works _ (endState_ofEngine _ e) fun _ => ?_
  refine k.bind (along_ofEngine (k.await _ _ _ _)) fun outcome => ?_
  split
  · exact k.throw _
  · exact along_ofEngine (k.codeAfter _)

/-- What is written when a client is given up: that it is released and, if the device has done so,
    that the service is to stop. -/
def Client.farewell (c : Client) (released : Bool) : List Piece :=
  .line s!"AT+CMQTTREL={c.options.client}" [] ::
    if released then [.line "AT+CMQTTSTOP" []] else []

/-- Giving a client up is the line that releases it, and the one that stops the service only if the
    device let the client go.  Whether it did is decided by its answer, so the bytes written depend
    on what was read. -/
theorem Client.wrote_stop (works : e.stream.link.failWrites = false) (c : Client) :
    Wrote ((c.farewell (endedWell (releaseClient c.options.client e))).flatMap Piece.bytes) e
      (endState (c.stop e)) := by
  have released := wrote_releaseClient works c.options.client
  unfold stop
  cases r : releaseClient c.options.client e with
  | error err f =>
    rw [r] at released
    rw [bind_of_error r]
    simpa [farewell, endedWell] using released
  | ok a f =>
    rw [r] at released
    have stopped := released.trans (Mqtt.wrote_stop released.works)
    rw [bind_of_ok r]
    rw [endState_tryCatch]
    · simpa [farewell, endedWell] using stopped
    · intro err t
      cases err <;> rfl

end Mqtt

namespace Tool

open ToolM

/-- Led by the tool an exchange leaves the engine where it leaves it alone. -/
theorem engine_ofClient (x : ClientM σ α) (c : Console σ) :
    (endState (ToolM.ofClient x c)).engine = endState (x c.engine) := by
  unfold ToolM.ofClient
  split <;> rename_i r <;> rw [r] <;> rfl

/-- An exchange that ends well does so for the tool. -/
theorem ofClient_of_ok {x : ClientM σ α} {c : Console σ} {a : α} {f : Engine σ}
    (h : x c.engine = .ok a f) : ToolM.ofClient x c = .ok a { c with engine := f } := by
  unfold ToolM.ofClient
  rw [h]

/-- One that fails does so with an error of the tool's. -/
theorem ofClient_of_error {x : ClientM σ α} {c : Console σ} {err : ClientError} {f : Engine σ}
    (h : x c.engine = .error err f) :
    ToolM.ofClient x c = .error (.client err) { c with engine := f } := by
  unfold ToolM.ofClient
  rw [h]

/-- Parts of an exchange that are done one after the other may be led one after the other. -/
theorem ofClient_bind {β : Type} (x : ClientM σ α) (f : α → ClientM σ β) :
    ToolM.ofClient (x >>= f) = ToolM.ofClient x >>= fun a => ToolM.ofClient (f a) := by
  funext c
  cases r : x c.engine with
  | ok a e =>
    rw [bind_of_ok (ofClient_of_ok r)]
    unfold ToolM.ofClient
    rw [bind_of_ok r]
  | error err e =>
    rw [bind_of_error (ofClient_of_error r)]
    exact ofClient_of_error (bind_of_error r)

/-- An attempt never fails; what it did to the engine stays. -/
theorem attempt_eq_ok (x : ClientM σ Unit) (c : Console σ) :
    attempt x c = .ok () { c with engine := endState (x c.engine) } := by
  unfold attempt
  cases r : x c.engine with
  | ok a f => exact tryCatch_of_ok (ofClient_of_ok r)
  | error err f => exact tryCatch_of_error (ofClient_of_error r)

/-- Led by the tool an exchange writes what it writes alone. -/
theorem issues_ofClient {Q : Piece → Prop} {ps : List Piece} {x : ClientM σ α} {c : Console σ}
    (h : Issues Q id ps x c.engine) : Issues Q Console.engine ps (ToolM.ofClient x) c where
  sent := by
    rw [engine_ofClient]
    exact h.sent
  all {a t} k := by
    cases r : x c.engine with
    | ok b f => exact h.all r
    | error err f =>
      rw [ofClient_of_error r] at k
      cases k

variable [Device σ]

/-- What is written when a connection is closed: the client is disconnected and released, and the
    service stopped if it was. -/
def closing (client : Mqtt.Client) (released : Bool) : List Piece :=
  .line s!"AT+CMQTTDISC={client.options.client},{disconnectSecs}" [] :: client.farewell released

/-- Whether the device lets a client go that has been disconnected. -/
def letsGo (client : Mqtt.Client) (e : Engine σ) : Bool :=
  endedWell (Mqtt.releaseClient client.options.client (endState (client.disconnect disconnectSecs e)))

/-- Closing writes just that, whatever the device answers. -/
theorem wrote_closeBroker (client : Mqtt.Client) {c : Console σ}
    (works : c.engine.stream.link.failWrites = false) :
    Wrote ((closing client (letsGo client c.engine)).flatMap Piece.bytes) c.engine
      (endState (closeBroker client c)).engine := by
  have told := Mqtt.wrote_disconnect works client.options.client disconnectSecs
  have whole := told.trans (client.wrote_stop told.works)
  unfold closeBroker
  rw [bind_of_ok (attempt_eq_ok _ c), attempt_eq_ok]
  exact whole

/-! ## A connection, from end to end -/

end Tool

/-- Starts the service, unless it runs already, and acquires the client; until this has succeeded
    there is nothing to tear down. -/
def Mqtt.Client.enter [Device σ] (c : Client) : ClientM σ Unit := do
  try Mqtt.start catch err => if err = .mqttAlreadyStarted then pure () else throw err
  acquire c.options.client c.clientId c.useSsl

namespace Tool

open ToolM

variable [Device σ]

/-- Makes the connection ready once the client has been acquired: the context, the connection and
    the topics.  Any of these may be refused, and then the connection is given up without a word to
    the device. -/
def settle (config : MqttConfig) (topics : List String) (client : Mqtt.Client) : ToolM σ Unit := do
  ofClient (if client.useSsl then Mqtt.setSslContext client.options.session client.secure.index
    else pure ())
  ofClient (client.connect config.server config.port config.connectParams none)
  subscribeAll client topics

/-- Opens a connection, puts it to a use, and closes it; the use is protected, the opening is not.
    This is the form that both subcommands come to, so what is said of closing needs to be proved
    once. -/
def connected (config : MqttConfig) (topics : List String) (use : ToolM σ α) (client : Mqtt.Client) :
    ToolM σ α := do
  ofClient client.enter
  settle config topics client
  try
    use
  finally
    closeBroker client

/-- Starting a client is entering and binding the context. -/
theorem start_eq (client : Mqtt.Client) :
    client.start (σ := σ) = client.enter >>= fun _ =>
      if client.useSsl then Mqtt.setSslContext client.options.session client.secure.index
      else pure () := by
  unfold Mqtt.Client.start Mqtt.Client.enter
  rw [bind_assoc]
  refine congrArg (· >>= _) (congrArg (tryCatch Mqtt.start) (funext fun err => ?_))
  cases err <;> rfl

theorem connected_eq (config : MqttConfig) (topics : List String) (use : ToolM σ α)
    (client : Mqtt.Client) :
    connected config topics use client = (do
      openBroker config client
      subscribeAll client topics
      try use finally closeBroker client) := by
  unfold connected settle openBroker
  rw [start_eq, ofClient_bind]
  simp only [bind_assoc]

/-- Any piece may be written. -/
def AnyPiece (_ : Piece) : Prop := True

/-- What an upload writes: its line and its data, if the arguments are not refused. -/
def uploading (call : UploadCall) : List Piece :=
  match call.request with
  | .ok u => [.line u.command [], .data u.data]
  | .error _ => []

theorem issues_uploadCall (call : UploadCall) (e : Engine σ) :
    Issues AnyPiece id (uploading call) call.run e := by
  rw [call.run_eq]
  unfold uploading
  cases call.request with
  | ok u => exact (Issues.upload (u := u) trivial trivial).ofEngine
  | error fault => exact .of_error rfl

/-- What is written to make a connection ready: the context for its session, the address of the broker
    and the topics. -/
def settling (config : MqttConfig) (topics : List String) (client : Mqtt.Client) : List Piece :=
  let index := client.options.client
  (if client.useSsl then [.line s!"AT+CMQTTSSLCFG={client.options.session},{client.secure.index}" []]
    else []) ++
    ([QuotingMethod.connection index config.server config.port config.connectParams] ++
      topics.flatMap fun topic => uploading (.subscription index topic 1))

theorem issues_subscribeAll (client : Mqtt.Client) (topics : List String) (c : Console σ) :
    Issues AnyPiece Console.engine
      (topics.flatMap fun topic => uploading (.subscription client.options.client topic 1))
      (subscribeAll client topics) c := by
  induction topics generalizing c with
  | nil => exact .skip rfl fun _ _ => trivial
  | cons topic topics ih =>
    rw [List.flatMap_cons]
    exact (issues_ofClient (issues_uploadCall _ c.engine)).bind fun _ d _ => ih d

/-- Making a connection ready writes no more than what belongs to it; the pieces are known
    beforehand. -/
theorem issues_settle (config : MqttConfig) (topics : List String) (client : Mqtt.Client)
    (c : Console σ) :
    Issues AnyPiece Console.engine (settling config topics client) (settle config topics client) c := by
  refine Issues.bind (issues_ofClient ?_) fun _ d _ => ?_
  · split
    · exact (Issues.plainCommand trivial).ofEngine
    · exact .skip rfl fun _ h => (nomatch h)
  · have connects : Issues AnyPiece id [QuotingMethod.connection client.options.client config.server
        config.port config.connectParams]
        (client.connect config.server config.port config.connectParams none) d.engine :=
      (obeys_connect fun _ => trivial).issues
    exact (issues_ofClient connects).bind fun _ f _ => issues_subscribeAll client topics f

/-! ## The two subcommands -/

/-- The subcommands that hold a connection.  They differ in what they use the connection for, and in
    what they have to do around it. -/
inductive Errand where
  | publish (topic : String) (message : Bytes) (qos : Nat)
  | listen (duration : Nat) (gnss : Bool) (running : Nat → Bool)

namespace Errand

/-- Runs the subcommand; what it has found out is nothing to the device. -/
def run (config : Config) : Errand → ToolM σ Unit
  | publish topic message qos => Tool.publish config topic message qos
  | listen duration gnss running => do
    let _ ← listenWhile config duration gnss running

/-- The topics that are subscribed to. -/
def topics (config : Config) : Errand → List String
  | publish .. => []
  | listen .. => config.mqtt.subscribe

/-- Listening needs no broker if there is no topic. -/
def Connects (config : Config) : Errand → Prop
  | publish .. => True
  | listen .. => config.mqtt.subscribe ≠ []

/-- Makes the client that a configuration describes. -/
def makeClient (config : Config) : ToolM σ Mqtt.Client :=
  ofClient (.ofEngine
    (Mqtt.Client.create config.mqtt.clientId config.mqtt.useSsl config.mqtt.options
      config.ssl.context))

/-- What comes before the connection is listened to: the client, and that it is listened to. -/
def lineUp (config : Config) (duration : Nat) (running : Nat → Bool) (feed : Gnss.Feed) :
    ToolM σ (Mqtt.Client × ToolM σ Unit) := do
  let deadline := (← get).engine.now + duration
  let client ← makeClient config
  return (client, do let _ ← turns feed (some client) deadline running .zero)

/-- What comes before the connection: the client is made, and it is settled what the connection will be
    used for. -/
def begin (config : Config) : Errand → ToolM σ (Mqtt.Client × ToolM σ Unit)
  | publish topic message qos => do
    let client ← makeClient config
    return (client, ofClient (client.publish topic message { qos }))
  | listen duration gnss running => do
    let feed ← ofEngine Gnss.Feed.create
    if gnss then
      let feed ← ofOwner feed Gnss.Feed.enable
      lineUp config duration running feed
    else lineUp config duration running feed

/-- What may be written while the connection is used. -/
def inUse (client : Mqtt.Client) : Errand → List Piece
  | publish topic message qos =>
    let index := client.options.client
    uploading (.topic index topic) ++ (uploading (.payload index message) ++
      [.line s!"AT+CMQTTPUB={index},{qos},{60},{flag false},{flag false}" []])
  | listen .. => []

/-- What is written after all that has to do with the broker: listening turns its feed off, if it
    has one. -/
def after : Errand → List Piece
  | listen _ true _ => [.line "AT+CGNSSTST=0" []]
  | _ => []

end Errand

/-! ## What comes around a connection -/

end Tool

/-- Handlers come and go without a word to the device. -/
theorem Engine.deregisterAll_stream (ids : List HandlerId) (e : Engine σ) :
    ∃ f, deregisterAll ids e = .ok () f ∧ f.stream = e.stream := by
  induction ids generalizing e with
  | nil => exact ⟨e, rfl, rfl⟩
  | cons id ids ih =>
    obtain ⟨f, gone, same⟩ := ih (endState (deregister id e))
    exact ⟨f, gone, same⟩

namespace Gnss.Feed

open ClientM

variable [Device σ]

theorem wrote_disable (exhaust : Bool) (feed : Feed) {e : Engine σ}
    (works : e.stream.link.failWrites = false) :
    Wrote (Piece.line "AT+CGNSSTST=0" []).bytes e (endState (disable exhaust (feed, e))).2 := by
  let told := endState (order "AT+CGNSSTST=0" e)
  -- the feed is switched off, whatever the device says to it
  have wrote : Wrote (Piece.line "AT+CGNSSTST=0" []).bytes e told := by
    show Wrote _ e (endState (ofEngine (command "AT+CGNSSTST=0" commandTimeout) e))
    rw [endState_ofEngine]
    exact wrote_line works _ rfl fun _ => keptByListening_farEnd.waitOk _
  -- then its handlers are taken out, which writes nothing
  obtain ⟨f, gone, same⟩ := deregisterAll_stream feed.handlers told
  let leaving : OwnerM Feed σ Unit := do
    beside (ofEngine (deregisterAll feed.handlers))
    modify fun p => ({ p.1 with handlers := [] }, p.2)
    if exhaust then beside (ofEngine (clearSentences feed.inbox))
  have left : leaving (feed, told) =
      (modify (fun p => ({ p.1 with handlers := [] }, p.2)) >>= fun _ =>
        if exhaust then beside (ofEngine (clearSentences feed.inbox)) else pure ()) (feed, f) :=
    bind_of_ok (beside_of_ok _ (ofEngine_of_ok gone))
  show Wrote _ e (endState (tryFinally (beside (order "AT+CGNSSTST=0")) leaving _)).2
  -- and the inbox may be emptied
  rw [endState_tryFinally, endState_beside, left]
  have quiet : Wrote (Piece.line "AT+CGNSSTST=0" []).bytes e f :=
    wrote.listened (by rw [same]; exact .refl _)
  cases exhaust with
  | false => exact quiet
  | true => exact ⟨quiet.written, quiet.works⟩

end Gnss.Feed

namespace Tool

open ToolM

/-- The tool's own steps leave the engine where these leave it. -/
theorem engine_ofEngine (x : EngineM σ α) (c : Console σ) :
    (endState (ToolM.ofEngine x c)).engine = endState (x c.engine) := by
  unfold ToolM.ofEngine
  split <;> rename_i r <;> rw [r] <;> rfl

variable [Device σ] {c d : Console σ} {client : Mqtt.Client}

/-! ### The course of a connection -/

/-- Where the client could not be acquired, that is all that happens. -/
theorem connected_of_enter_error {config : MqttConfig} {topics : List String} {use : ToolM σ α}
    {err : ToolError} {a : Console σ} (h : ofClient client.enter d = .error err a) :
    endState (connected config topics use client d) = a :=
  congrArg endState (bind_of_error h)

/-- Where the client was acquired and the connection did not become ready, that is all as well:
    nothing is closed. -/
theorem connected_of_settle_error {config : MqttConfig} {topics : List String} {use : ToolM σ α}
    {err : ToolError} {a g : Console σ} (h : ofClient client.enter d = .ok () a)
    (k : settle config topics client a = .error err g) :
    endState (connected config topics use client d) = g := by
  unfold connected
  rw [bind_of_ok h, bind_of_error k]
  rfl

/-- Once the connection is ready it is used and closed, whatever has become of the use. -/
theorem connected_of_settled {config : MqttConfig} {topics : List String} {use : ToolM σ α}
    {a g : Console σ} (h : ofClient client.enter d = .ok () a)
    (k : settle config topics client a = .ok () g) :
    endState (connected config topics use client d) =
      endState (closeBroker client (endState (use g))) := by
  unfold connected
  rw [bind_of_ok h, bind_of_ok k, endState_tryFinally]

/-- What the use of a connection results in is nothing to the device. -/
theorem endState_connected_discard (config : MqttConfig) (topics : List String) (use : ToolM σ α) :
    endState (connected config topics (do let _ ← use) client d) =
      endState (connected config topics use client d) := by
  have same : ∀ g, endState ((do let _ ← use : ToolM σ Unit) g) = endState (use g) :=
    fun _ => endState_bind_pure _
  cases h : ofClient client.enter d with
  | error err a => rw [connected_of_enter_error h, connected_of_enter_error h]
  | ok _ a =>
    cases k : settle config topics client a with
    | error err g => rw [connected_of_settle_error h k, connected_of_settle_error h k]
    | ok _ g => rw [connected_of_settled h k, connected_of_settled h k, same]

/-- A link that works goes on to work while a client is acquired. -/
theorem working_enter (client : Mqtt.Client) : Along StaysWorking (client.enter (σ := σ)) := by
  have k := (keptByHandling_working (σ := σ)).toKeptByExchange
  refine k.bind (Along.tryCatch k.trans k.startMqtt fun err => ?_) fun _ => k.acquire _ _ _
  split
  · exact k.pure _
  · exact k.throw _

theorem working_settle (config : MqttConfig) (topics : List String) (client : Mqtt.Client) :
    Along (On StaysWorking) (settle (σ := σ) config topics client) := by
  have k := (keptByHandling_working (σ := σ)).toKeptByExchange
  refine k.on_bind (along_ofClient ?_) fun _ =>
    k.on_bind (along_ofClient (k.connectToBroker _ _ _ _ _)) fun _ => k.subscribeAll _ _
  split
  · exact ClientM.along_ofEngine (k.plainCommand _)
  · exact k.pure _

/-- It does through the whole connection, if it does through the use. -/
theorem working_connected (config : MqttConfig) (topics : List String) {use : ToolM σ α}
    (h : Along (On StaysWorking) use) (client : Mqtt.Client) :
    Along (On StaysWorking) (connected config topics use client) := by
  have k := (keptByHandling_working (σ := σ)).toKeptByExchange
  refine k.on_bind (along_ofClient (working_enter client)) fun _ =>
    k.on_bind (working_settle config topics client) fun _ => ?_
  exact Along.tryFinally k.on_trans h (k.closeBroker client)

/-! ### What comes before and after it -/

omit [Device σ] in
/-- A client that was lent out is given up without a word. -/
theorem wrote_withClient {config : Config} (made : Errand.makeClient config c = .ok client d)
    (use : Mqtt.Client → ToolM σ α)
    (works : (endState (use client d)).engine.stream.link.failWrites = false) :
    Wrote [] (endState (use client d)).engine (endState (withClient config use c)).engine := by
  obtain ⟨f, gone, same⟩ := deregisterAll_stream client.handlers (endState (use client d)).engine
  have ended : (endState (withClient config use c)).engine = f := by
    unfold withClient
    rw [bind_of_ok (show ofClient _ c = .ok client d from made), endState_tryFinally, engine_ofEngine]
    show endState (deregisterAll client.handlers _) = f
    rw [gone]
    rfl
  rw [ended]
  exact ⟨by rw [same, List.append_nil], by rw [same]; exact works⟩

/-- A feed that was turned on is turned off by one line, whatever came in between. -/
theorem wrote_withFeed {feed on : Gnss.Feed} (enabled : ofOwner feed Gnss.Feed.enable c = .ok on d)
    (use : Gnss.Feed → ToolM σ α)
    (works : (endState (use on d)).engine.stream.link.failWrites = false) :
    Wrote (Piece.line "AT+CGNSSTST=0" []).bytes (endState (use on d)).engine
      (endState (withFeed feed use c)).engine := by
  unfold withFeed
  rw [bind_of_ok enabled, endState_tryFinally, endState_bind_pure, engine_ofOwner]
  exact on.wrote_disable true works

/-- Making a client does not make the link refuse writes. -/
theorem working_makeClient (config : Config) :
    Along (On StaysWorking) (Errand.makeClient (σ := σ) config) :=
  along_ofClient (ClientM.along_ofEngine (keptByHandling_working.createMqtt _ _ _ _))

/-- A connection of a client that is lent out is followed by no further word. -/
theorem wrote_lentOut {config : Config} (topics : List String)
    (works : c.engine.stream.link.failWrites = false) (made : Errand.makeClient config c = .ok client d)
    (use : Mqtt.Client → ToolM σ α) (h : ∀ client, Along (On StaysWorking) (use client)) :
    Wrote [] (endState (connected config.mqtt topics (use client) client d)).engine
      (endState (withClient config (fun client => connected config.mqtt topics (use client) client)
        c)).engine := by
  have working := working_makeClient config c
  rw [made] at working
  exact wrote_withClient made (fun client => connected config.mqtt topics (use client) client)
    (working_connected _ _ (h client) client d (working works))

theorem wrote_lineUp {config : Config} {duration : Nat} {running : Nat → Bool} {feed : Gnss.Feed}
    {use : ToolM σ Unit} (lined : Errand.lineUp config duration running feed c = .ok (client, use) d)
    (works : c.engine.stream.link.failWrites = false) (topics : config.mqtt.subscribe ≠ []) :
    Wrote [] (endState (connected config.mqtt config.mqtt.subscribe use client d)).engine
      (endState (listenFor config duration running feed c)).engine := by
  obtain ⟨_, _, now, rest⟩ := bind_eq_ok lined
  cases now
  obtain ⟨_, _, made, rest⟩ := bind_eq_ok rest
  cases rest
  let take (client : Mqtt.Client) : ToolM σ Summary :=
    turns feed (some client) (c.engine.now + duration) running .zero
  have some : config.mqtt.subscribe.isEmpty = false := by simpa using topics
  have course : listenFor config duration running feed c = withClient config (fun client =>
      connected config.mqtt config.mqtt.subscribe (take client) client) c := by
    simp only [connected_eq]
    show (if config.mqtt.subscribe.isEmpty then _ else listenToBroker config feed _ running) c = _
    rw [some]
    rfl
  rw [course, endState_connected_discard]
  exact wrote_lentOut _ works made take fun _ => (keptByHandling_working (σ := σ)).turns _ _ _ _ _

/-- The connection to which a subcommand comes is closed before its feed is.  Both are torn down
    however the use of the connection has ended. -/
theorem Errand.wrote_after (config : Config) (errand : Errand) {use : ToolM σ Unit}
    (works : c.engine.stream.link.failWrites = false) (connects : errand.Connects config)
    (begun : errand.begin config c = .ok (client, use) d) :
    Wrote (errand.after.flatMap Piece.bytes)
      (endState (connected config.mqtt (errand.topics config) use client d)).engine
      (endState (errand.run config c)).engine := by
  have k := keptByHandling_working (σ := σ)
  cases errand with
  -- a publish has nothing behind the connection
  | publish topic message qos =>
    obtain ⟨_, _, made, rest⟩ := bind_eq_ok begun
    cases rest
    let use (client : Mqtt.Client) : ToolM σ Unit := ofClient (client.publish topic message { qos })
    have course : Tool.publish config topic message qos = withClient config fun client =>
        connected config.mqtt [] (use client) client := by
      simp only [connected_eq]
      rfl
    show Wrote [] _ (endState (Tool.publish config topic message qos c)).engine
    rw [course]
    exact wrote_lentOut _ works made use fun _ => along_ofClient (k.publishMessage _ _ _ _)
  -- a listen has its feed around the connection, if it was asked for one
  | listen duration gnss running =>
    obtain ⟨feed, opened, created, begun⟩ := bind_eq_ok begun
    have opens : opened.engine.stream.link.failWrites = false := by
      cases created
      exact works
    have whole : endState (run config (.listen duration gnss running) c) =
        endState (listenWhile config duration gnss running c) := endState_bind_pure _
    rw [whole]
    unfold listenWhile
    rw [bind_of_ok created]
    cases gnss with
    | false => exact wrote_lineUp begun opens connects
    | true =>
      obtain ⟨on, b, enabled, begun⟩ := bind_eq_ok begun
      have enabling : StaysWorking opened.engine (endState (ofOwner feed Gnss.Feed.enable opened)).engine := by
        rw [engine_ofOwner]
        exact k.enableFeed (feed, opened.engine)
      rw [enabled] at enabling
      have listened := wrote_lineUp begun (enabling opens) connects
      have told := listened.trans (wrote_withFeed enabled _ listened.works)
      simpa [after, topics] using told

/-- A link that works goes on to work up to there. -/
theorem Errand.working_begin (config : Config) (errand : Errand) :
    Along (On StaysWorking) (errand.begin (σ := σ) config) := by
  have k := keptByHandling_working (σ := σ)
  have lined : ∀ duration running feed,
      Along (On StaysWorking) (lineUp (σ := σ) config duration running feed) := fun _ _ _ =>
    k.on_bind k.on_get fun _ => k.on_bind (working_makeClient config) fun _ => k.on_pure _
  cases errand with
  | publish topic message qos => exact k.on_bind (working_makeClient config) fun _ => k.on_pure _
  | listen duration gnss running =>
    refine k.on_bind (along_ofEngine k.createFeed) fun feed => ?_
    cases gnss with
    | false => exact lined _ _ _
    | true =>
      refine k.on_bind (fun c => ?_) fun on => lined _ _ _
      show StaysWorking _ (endState (ofOwner feed Gnss.Feed.enable c)).engine
      rw [engine_ofOwner]
      exact k.enableFeed (feed, c.engine)

/-- What the connection of an errand is used for. -/
def Errand.Uses (client : Mqtt.Client) (use : ToolM σ Unit) : Errand → Prop
  | publish topic message qos => use = ofClient (client.publish topic message { qos })
  | listen _ _ running =>
    ∃ feed deadline, use = (do let _ ← turns feed (some client) deadline running .zero)

theorem Errand.uses_of_begin {config : Config} {errand : Errand} {use : ToolM σ Unit}
    (begun : errand.begin config c = .ok (client, use) d) : errand.Uses client use := by
  cases errand with
  -- the use of a publish is the message
  | publish topic message qos =>
    obtain ⟨_, _, -, rest⟩ := bind_eq_ok begun
    cases rest
    rfl
  | listen duration gnss running =>
    -- the use of a listen is its turns, with a feed or without
    have lined : ∀ {feed : Gnss.Feed} {b : Console σ},
        lineUp config duration running feed b = .ok (client, use) d →
          Uses client use (.listen duration gnss running) := by
      intro feed b lined
      obtain ⟨_, _, -, rest⟩ := bind_eq_ok lined
      obtain ⟨_, _, -, rest⟩ := bind_eq_ok rest
      cases rest
      exact ⟨_, _, rfl⟩
    obtain ⟨feed, opened, -, begun⟩ := bind_eq_ok begun
    cases gnss with
    | false => exact lined begun
    | true =>
      obtain ⟨on, b, -, begun⟩ := bind_eq_ok begun
      exact lined begun

/-- A link that works goes on to work through any such use. -/
theorem Errand.working_use {errand : Errand} {use : ToolM σ Unit} (uses : errand.Uses client use) :
    Along (On StaysWorking) use := by
  have k := keptByHandling_working (σ := σ)
  cases errand with
  | publish topic message qos =>
    obtain rfl := uses
    exact along_ofClient (k.publishMessage _ _ _ _)
  | listen duration gnss running =>
    obtain ⟨feed, deadline, rfl⟩ := uses
    exact k.on_bind (k.turns _ _ _ _ _) fun _ => k.on_pure _

/-- While the connection is used, only what it is used for is written, whatever comes in.  Listening
    only reads, and publishing writes its two parts and the command. -/
theorem Errand.issues_use {errand : Errand} {use : ToolM σ Unit} (uses : errand.Uses client use) (g : Console σ) :
    Issues AnyPiece Console.engine (errand.inUse client) use g := by
  cases errand with
  | publish topic message qos =>
    obtain rfl := uses
    refine issues_ofClient ?_
    refine Issues.bind (issues_uploadCall (.topic client.options.client topic) _) fun _ e _ => ?_
    refine Issues.bind (issues_uploadCall (.payload client.options.client message) e) fun _ f _ => ?_
    exact ((Issues.line trivial).then_listening fun _ =>
      Mqtt.listens_codeAwaited _ _ _ _).ofEngine
  | listen duration gnss running =>
    obtain ⟨feed, deadline, rfl⟩ := uses
    refine .skip ?_ fun _ h => (nomatch h)
    rw [endState_bind_pure]
    exact (keptByListening_farEnd.turns feed (some client) deadline running .zero g).written

/-- Whatever the device answers and whatever is configured, on a link that works: if the device does
    not give the client, nothing more is written that has to do with the broker.  If it gives it and
    the connection becomes ready, then however the connection is used the device is told afterwards to
    disconnect and to release the client, and if it lets the client go to stop the service.  If the
    context, the connection or a topic is refused, none of that is written. -/
theorem teardown_once_settled (config : Config) (errand : Errand) {use : ToolM σ Unit}
    (works : c.engine.stream.link.failWrites = false) (connects : errand.Connects config)
    (begun : errand.begin config c = .ok (client, use) d) :
    let topics := errand.topics config
    let last := (endState (errand.run config c)).engine
    let WroteLast (ps : List Piece) (e : Engine σ) :=
      Wrote ((ps ++ errand.after).flatMap Piece.bytes) e last
    (∀ err a, ofClient client.enter d = .error err a → WroteLast [] a.engine) ∧
    ∀ a, ofClient client.enter d = .ok () a →
      (∀ err g, settle config.mqtt topics client a = .error err g →
        Sent AnyPiece (settling config.mqtt topics client) a.engine g.engine ∧
          WroteLast [] g.engine) ∧
      ∀ g, settle config.mqtt topics client a = .ok () g →
        let used := (endState (use g)).engine
        Sent AnyPiece (settling config.mqtt topics client) a.engine g.engine ∧
          Sent AnyPiece (errand.inUse client) g.engine used ∧
          WroteLast (closing client (letsGo client used)) used := by
  intro topics last WroteLast
  have after := Errand.wrote_after config errand works connects begun
  have working := Errand.working_begin config errand c
  rw [begun] at working
  refine ⟨fun err a refused => ?_, fun a entered => ⟨fun err g refused => ?_, fun g settled => ?_⟩⟩
  -- the context is refused
  · rw [connected_of_enter_error refused] at after
    exact after
  -- the connection or a topic is refused
  · have ready := (issues_settle config.mqtt topics client a).sent
    rw [refused] at ready
    rw [connected_of_settle_error entered refused] at after
    exact ⟨ready, after⟩
  -- all is settled, and the connection is used
  · have ready := (issues_settle config.mqtt topics client a).sent
    rw [settled] at ready
    have uses := Errand.uses_of_begin begun
    have entering := along_ofClient (working_enter client) d
    rw [entered] at entering
    have settling := working_settle config.mqtt topics client a
    rw [settled] at settling
    have opened : g.engine.stream.link.failWrites = false := settling (entering (working works))
    have closed := wrote_closeBroker client (Errand.working_use uses g opened)
    rw [connected_of_settled entered settled] at after
    refine ⟨ready, (Errand.issues_use uses g).sent, ?_⟩
    show Wrote _ _ _
    rw [List.flatMap_append]
    exact closed.trans after

/-- An errand up to when its connection is ready. -/
def Errand.opening (config : Config) (errand : Errand) : ToolM σ Unit := do
  let p ← errand.begin config
  ofClient p.1.enter
  settle config.mqtt (errand.topics config) p.1

/-- A console whose device gives the client and refuses the connection. -/
def unconnected : Console Script where
  engine := .ofLink .standard (.ofDevice
    ⟨[⟨.startsWith "AT+CMQTTSTART", .now (Utf8.encode "\r\nOK\r\n\r\n+CMQTTSTART: 0\r\n"), none⟩,
      ⟨.startsWith "AT+CMQTTCONNECT", .now (Utf8.encode "\r\nOK\r\n\r\n+CMQTTCONNECT: 0,3\r\n"), none⟩],
      Utf8.encode "\r\nOK\r\n"⟩)
  output := .fresh false

/-- The client is given and the connection is not: the command to connect is the last one.  Neither
    the disconnection nor the release is written, though the client was given. -/
theorem teardown_once_settled_unconnected :
    let errand : Errand := .publish "t" (Utf8.encode "m") 0
    unconnected.engine.stream.link.failWrites = false ∧ errand.Connects .standard ∧
      ∃ client use d a err g, errand.begin .standard unconnected = .ok (client, use) d ∧
        ofClient client.enter d = .ok () a ∧ settle Config.standard.mqtt [] client a = .error err g ∧
        g.engine.stream.link.written =
          Utf8.encode "AT+CMQTTSTART\r\nAT+CMQTTACCQ=0,\"a76xx\",0\r\n" ++
            Utf8.encode "AT+CMQTTCONNECT=0,\"tcp://test.mosquitto.org:1883\",60,1\r\n" ∧
        Wrote [] g.engine (endState (errand.run .standard unconnected)).engine := by
  -- the client is given, and what follows is refused
  have given : endedWell ((do
      let p ← (Errand.publish "t" (Utf8.encode "m") 0).begin .standard
      ofClient p.1.enter : ToolM Script Unit) unconnected) = true := by decide +kernel
  have refused : endedWell
      ((Errand.publish "t" (Utf8.encode "m") 0).opening .standard unconnected) = false := by
    decide +kernel
  have written : (endState ((Errand.publish "t" (Utf8.encode "m") 0).opening .standard
      unconnected)).engine.stream.link.written =
      Utf8.encode "AT+CMQTTSTART\r\nAT+CMQTTACCQ=0,\"a76xx\",0\r\n" ++
        Utf8.encode "AT+CMQTTCONNECT=0,\"tcp://test.mosquitto.org:1883\",60,1\r\n" := by
    decide +kernel
  obtain ⟨_, a, whole⟩ := endedWell_iff.mp given
  obtain ⟨⟨client, use⟩, d, begun, entered⟩ := bind_eq_ok whole
  unfold Errand.opening at refused written
  rw [bind_of_ok begun, bind_of_ok entered] at refused written
  dsimp only [Errand.topics] at refused written
  -- the state in between is the one that the theorem speaks of
  cases settled : settle Config.standard.mqtt [] client a with
  | ok _ g =>
    rw [settled] at refused
    cases refused
  | error err g =>
    rw [settled] at written
    have all := teardown_once_settled .standard (.publish "t" (Utf8.encode "m") 0) rfl trivial begun
    exact ⟨rfl, trivial, client, use, d, a, err, g, begun, entered, settled, written,
      ((all.2 a entered).1 err g settled).2⟩

end Tool
end AtModem
