/-
  What the exchanges of those who lead them keep.

  Contexts, sockets, clients and feeds have a state of their own beside the engine and lead several
  commands of a service as one.  Their own state is none of the engine's, so what holds across the
  commands holds across what is led, whatever the leader remembers.
-/
import AtModem.Proofs.Exchange.Services

namespace AtModem.Engine.KeptByExchange

open ClientM

variable {σ α β : Type} [Device σ] {S : Stream σ → Stream σ → Prop} {R : Engine σ → Engine σ → Prop}

/-- What a leader does to its own state is nothing to the engine. -/
theorem modifyOwner (k : KeptByExchange S R) {f : β × Engine σ → β × Engine σ}
    (h : ∀ p, (f p).2 = p.2) : Along (Beside R) (modify f : OwnerM β σ PUnit) := by
  intro p
  show R p.2 (f p).2
  rw [h p]
  exact k.refl p.2

/-! ## Contexts -/

section SecureContext

/-- The mode of authentication follows from what the context holds, and setting it is one command;
    the context itself is not written to. -/
theorem applyAuthMode (k : KeptByExchange S R) :
    Along (Beside R) (SecureContext.applyAuthMode (σ := σ)) :=
  k.beside_bind k.beside_get fun _ => along_beside (k.configure _ _ _)

/-- An authority is named to the device and noted in the context, then the mode is set. -/
theorem setCaCert (k : KeptByExchange S R) (slot : String) :
    Along (Beside R) (SecureContext.setCaCert (σ := σ) slot) :=
  k.beside_bind k.beside_get fun _ => k.beside_bind (along_beside (k.configure _ _ _)) fun _ =>
    k.beside_bind (k.modifyOwner fun _ => rfl) fun _ => k.applyAuthMode

theorem writeCaCert (k : KeptByExchange S R) (cert : Bytes) (slot : String) :
    Along (Beside R) (SecureContext.writeCaCert (σ := σ) cert slot) :=
  k.beside_bind (along_beside (k.certOverwrite _ _)) fun _ => k.setCaCert slot

/-- The three slots of a client are named to the device one after another, and noted together when
    it has taken all of them. -/
theorem setClient (k : KeptByExchange S R) (slots : ClientSlots) :
    Along (Beside R) (SecureContext.setClient (σ := σ) slots) :=
  k.beside_bind k.beside_get fun _ => k.beside_bind (along_beside (k.configure _ _ _)) fun _ =>
    k.beside_bind (along_beside (k.configure _ _ _)) fun _ =>
      k.beside_bind (along_beside (k.configure _ _ _)) fun _ =>
        k.beside_bind (k.modifyOwner fun _ => rfl) fun _ => k.applyAuthMode

theorem writeClient (k : KeptByExchange S R) (cert key password : Bytes) (slots : ClientSlots) :
    Along (Beside R) (SecureContext.writeClient (σ := σ) cert key password slots) :=
  k.beside_bind (along_beside (k.certOverwrite _ _)) fun _ =>
    k.beside_bind (along_beside (k.certOverwrite _ _)) fun _ =>
      k.beside_bind (along_beside (k.certOverwrite _ _)) fun _ => k.setClient slots

theorem setCerts (k : KeptByExchange S R) (caSlot : String) (slots : ClientSlots) :
    Along (Beside R) (SecureContext.setCerts (σ := σ) caSlot slots) :=
  k.beside_bind (k.setCaCert caSlot) fun _ => k.setClient slots

/-- The settings of the handshake, each of them one command. -/
theorem configureContext (k : KeptByExchange S R) (c : SecureContext) (settings : SslSettings) :
    Along R (SecureContext.configure (σ := σ) c settings) :=
  k.bind (k.configure _ _ _) fun _ => k.bind (k.configure _ _ _) fun _ => k.configure _ _ _

end SecureContext

/-! ## Sockets -/

section Socket

/-- A socket begins with the modes of reception, the start of its service and the binding of its
    context: four exchanges in a row. -/
theorem startSocket (k : KeptByExchange S R) (s : Socket) : Along R (Socket.start (σ := σ) s) :=
  k.bind (along_ofEngine (k.command _ _)) fun _ => k.bind (along_ofEngine (k.command _ _)) fun _ =>
    k.bind k.startSsl fun _ => along_ofEngine (k.plainCommand _)

/-- A connection of a socket is an exchange, and if it succeeds the socket is marked open. -/
theorem connectSocket (k : KeptByExchange S R) (host : String) (port : Nat) :
    Along (Beside R) (Socket.connect (σ := σ) host port) :=
  k.beside_bind k.beside_get fun _ => k.beside_bind (along_beside (k.openSession _ _ _)) fun _ =>
    k.modifyOwner fun _ => rfl

/-- A socket is marked closed first and then closed; the first is no exchange, the second is one. -/
theorem disconnectSocket (k : KeptByExchange S R) :
    Along (Beside R) (Socket.disconnect (σ := σ)) :=
  k.beside_bind (k.modifyOwner fun _ => rfl) fun _ => k.beside_bind k.beside_get fun _ =>
    along_beside (k.closeSession _)

end Socket

/-! ## MQTT clients -/

section Mqtt

/-- A new inbox is put beside those that are there.  That is no exchange, but what listening may do
    to the inboxes includes it. -/
theorem openMessages (k : KeptByExchange S R) (capacity : Nat) (policy : OverflowPolicy) :
    Along R (Engine.openMessages (σ := σ) capacity policy) :=
  fun _ => k.mail _ _ _ (.refl _)

/-- The service is started, unless it runs already, then the client is acquired and bound to its
    context. -/
theorem beginMqtt (k : KeptByExchange S R) (c : Mqtt.Client) :
    Along R (Mqtt.Client.start (σ := σ) c) := by
  have started : Along R (do
      Mqtt.acquire (σ := σ) c.options.client c.clientId c.useSsl
      if c.useSsl then Mqtt.setSslContext c.options.session c.secure.index) := by
    refine k.bind (k.acquire _ _ _) fun _ => ?_
    split
    · exact along_ofEngine (k.plainCommand _)
    · exact k.pure _
  -- a service that runs already is no reason to stop
  refine k.bind (Along.tryCatch k.trans k.startMqtt fun err => ?_) fun _ => started
  split
  · exact k.pure _
  · exact k.throw _

/-- A connection to a broker: the last will is given first, in two uploads, then the connection is
    made. -/
theorem connectToBroker (k : KeptByExchange S R) (c : Mqtt.Client) (server : String) (port : Nat)
    (params : Mqtt.ConnectParams) (will : Option Mqtt.Will) :
    Along R (Mqtt.Client.connect (σ := σ) c server port params will) := by
  cases will with
  | none => exact k.connectMqtt _ _ _ _
  | some w =>
    exact k.bind (k.uploadUnder _ _ _) fun _ => k.bind (k.uploadUnder _ _ _) fun _ =>
      k.connectMqtt _ _ _ _

/-- A message is published in three exchanges: its topic, its payload, and the order to publish. -/
theorem publishMessage (k : KeptByExchange S R) (c : Mqtt.Client) (topic : String) (payload : Bytes)
    (params : Mqtt.PublishParams) :
    Along R (Mqtt.Client.publish (σ := σ) c topic payload params) :=
  k.bind (k.uploadUnder _ _ _) fun _ => k.bind (k.uploadUnder _ _ _) fun _ => k.publish _ _

/-- The client is released and the service stopped, unless it has stopped already. -/
theorem endMqtt (k : KeptByExchange S R) (c : Mqtt.Client) :
    Along R (Mqtt.Client.stop (σ := σ) c) := by
  refine k.bind (k.releaseClient _) fun _ => Along.tryCatch k.trans k.stopMqtt fun err => ?_
  split
  · exact k.pure _
  · exact k.throw _

end Mqtt

/-! ## HTTP clients -/

section Http

/-- The service is started, and bound to a context if the client is to use one. -/
theorem beginHttp (k : KeptByExchange S R) (c : Http.Client) :
    Along R (Http.Client.start (σ := σ) c) := by
  refine k.bind (along_ofEngine (k.plainCommand _)) fun _ => ?_
  split
  · exact k.setNumber _ _
  · exact k.pure _

/-- A request sets its parameters, uploads its body if there is one, and is run; only the outcome is
    kept by the client itself. -/
theorem request (k : KeptByExchange S R) (method : Http.Method) (path : String) (body : Bytes)
    (contentType accept : Option String) :
    Along (Beside R) (Http.Client.request (σ := σ) method path body contentType accept) := by
  refine k.beside_bind (k.modifyOwner fun _ => rfl) fun _ => k.beside_bind k.beside_get fun (c, _) =>
    k.beside_bind (along_beside ?_) fun _ => k.beside_bind (k.modifyOwner fun _ => rfl) fun _ =>
      k.beside_pure _
  refine k.bind (k.setText _ _) fun _ => k.bind (k.setText _ _) fun _ => k.bind (k.setText _ _)
    fun _ => k.bind (k.setText _ _) fun _ => ?_
  split
  · exact k.bind (k.data _ _) fun _ => k.action _
  · exact k.action _

theorem responseHeader (k : KeptByExchange S R) (c : Http.Client) :
    Along R (Http.Client.responseHeader (σ := σ) c) :=
  k.bind (along_ofEngine (k.download _)) fun _ => k.pure _

theorem responseBody (k : KeptByExchange S R) (c : Http.Client) :
    Along R (Http.Client.responseBody (σ := σ) c) := by
  unfold Http.Client.responseBody
  split
  · exact k.pure _
  · exact along_ofEngine (k.download _)

end Http

/-! ## Feeds -/

section Gnss

/-- A new inbox for sentences, like one for messages. -/
theorem openSentences (k : KeptByExchange S R) (capacity : Nat) (policy : OverflowPolicy) :
    Along R (Engine.openSentences (σ := σ) capacity policy) :=
  fun _ => k.mail _ _ _ (.refl _)

/-- What has been collected is thrown away, and the inboxes are all that changes. -/
theorem clearSentences (k : KeptByExchange S R) (inbox : Nat) :
    Along R (Engine.clearSentences (σ := σ) inbox) :=
  fun _ => k.mail _ _ _ (.refl _)

/-- A feed comes with an inbox, and has no handler yet. -/
theorem createFeed (k : KeptByExchange S R) : Along R (Gnss.Feed.create (σ := σ)) :=
  k.bind (k.openSentences _ _) fun _ => k.pure _

end Gnss

end AtModem.Engine.KeptByExchange

/-! ## Those who bring handlers -/

namespace AtModem.Engine.KeptByHandling

open ClientM

variable {σ : Type} [Device σ] {S : Stream σ → Stream σ → Prop} {R : Engine σ → Engine σ → Prop}

/-- A socket brings the handler that tells of the far end's closing. -/
theorem createSocket (k : KeptByHandling S R) (session : SessionId) (ctx : ContextIndex) :
    Along R (Socket.create (σ := σ) session ctx) :=
  k.bind (k.registerAll _) fun _ => k.pure _

/-- A client brings an inbox, the handler that takes its messages, and those that tell of a lost
    connection. -/
theorem createMqtt (k : KeptByHandling S R) (clientId : String) (useSsl : Bool)
    (options : Mqtt.Options) (ctx : ContextIndex) :
    Along R (Mqtt.Client.create (σ := σ) clientId useSsl options ctx) :=
  k.bind (k.openMessages _ _) fun _ => k.bind (k.registerAll _) fun _ => k.pure _

/-- A client for requests brings the handlers that tell of a lost server and a lost network. -/
theorem createHttp (k : KeptByHandling S R) (server : String) (port : Nat) (useSsl : Bool)
    (userAgent : Option String) (ctx : ContextIndex) :
    Along R (Http.Client.create (σ := σ) server port useSsl userAgent ctx) :=
  k.bind (k.registerAll _) fun _ => k.pure _

/-- The port is selected, the handlers are registered, and the output is turned on.  If the last
    fails the handlers are taken out again, which is handling as well. -/
theorem turnOnFeed (k : KeptByHandling S R) (inbox : Nat) :
    Along R (Gnss.Feed.turnOn (σ := σ) inbox) := by
  -- the handlers go again if the receiver refuses its output
  refine k.bind (k.order _) fun _ => k.bind (along_ofEngine (k.registerAll _)) fun ids =>
    Along.tryCatch k.trans (k.bind (k.order _) fun _ => k.pure _) fun err => ?_
  exact k.bind (along_ofEngine (k.deregisterAll ids)) fun _ => k.throw _

/-- A feed that is on already stays as it is, and one that is off is turned on. -/
theorem enableFeed (k : KeptByHandling S R) : Along (Beside R) (Gnss.Feed.enable (σ := σ)) := by
  refine k.beside_bind k.beside_get fun (f, _) => ?_
  dsimp only
  split
  · exact k.beside_pure _
  · exact k.beside_bind (along_beside (k.turnOnFeed _)) fun _ => k.modifyOwner fun _ => rfl

/-- The output is turned off, and whatever came of that, the handlers are taken out and the inbox
    may be emptied. -/
theorem disableFeed (k : KeptByHandling S R) (exhaust : Bool) :
    Along (Beside R) (Gnss.Feed.disable (σ := σ) exhaust) := by
  refine k.beside_bind k.beside_get fun (f, _) => ?_
  refine Along.tryFinally (fun p q r => k.trans p.2 q.2 r.2) (along_beside (k.order _)) ?_
  refine k.beside_bind (along_beside (along_ofEngine (k.deregisterAll _))) fun _ =>
    k.beside_bind (k.modifyOwner fun _ => rfl) fun _ => ?_
  split
  · exact along_beside (along_ofEngine (k.clearSentences _))
  · exact k.beside_pure _

end AtModem.Engine.KeptByHandling
