/-
  An MQTT client.

  A client has an inbox of its own.  When it is made it registers the handler that decodes messages
  into the inbox and those that record a lost connection or network; when it is given up it takes
  them out again.
-/
import AtModem.Mqtt.Commands
import AtModem.Ssl.Context

namespace AtModem.Mqtt

/-- The handles of a client and the size of its inbox. -/
structure Options where
  client : ClientIndex
  session : SessionId
  inboxCapacity : Nat
  inboxPolicy : OverflowPolicy
  deriving DecidableEq, Repr

/-- The measures of a client when nothing else is asked for. -/
def Options.standard : Options := ⟨0, 0, 8, .dropNewest⟩

/-- What the broker publishes when the connection is lost. -/
structure Will where
  topic : String
  message : String
  qos : Nat

/-- A client is what it has been told: its name and options, the context it is bound to, its inbox
    and its handlers.  Whether it is connected only the device knows. -/
structure Client where
  clientId : String
  useSsl : Bool
  options : Options
  secure : SecureContext
  /-- The place of the inbox. -/
  inbox : Nat
  /-- The registered handlers. -/
  handlers : List HandlerId

namespace Client

open Engine ClientM

variable {σ : Type} [Device σ]

/-- What a client listens for. -/
def reports (inbox : Nat) : List Handler :=
  [.message inbox,
    .notification "+CMQTTCONNLOST: " .mqttConnectionLost,
    .notification "+CMQTTNONET" .mqttNoNet]

/-- A client with an inbox of its own and its handlers registered.  If there is no room for all of
    them none is registered. -/
def create (clientId : String) (useSsl : Bool) (options : Options) (ctx : ContextIndex) :
    EngineM σ Client := do
  let inbox ← openMessages options.inboxCapacity options.inboxPolicy
  let handlers ← registerAll (reports inbox)
  return { clientId, useSsl, options, secure := .ofIndex ctx, inbox, handlers }

/-- Takes the handlers out again. -/
def release (c : Client) : EngineM σ Unit := deregisterAll c.handlers

/-- Starts the service, unless it runs already, and acquires the client.  A service that runs is no
    error, since another client may have started it. -/
def start (c : Client) : ClientM σ Unit := do
  try Mqtt.start catch
    | .mqttAlreadyStarted => pure ()
    | err => throw err
  acquire c.options.client c.clientId c.useSsl
  if c.useSsl then setSslContext c.options.session c.secure.index

/-- Connects; the will, if there is one, is registered first.  A will that is refused ends the rest,
    and there is no connection then. -/
def connect (c : Client) (server : String) (port : Nat) (params : ConnectParams)
    (will : Option Will) : ClientM σ Unit := do
  if let some w := will then
    setWillTopic c.options.client w.topic
    setWillMessage c.options.client w.message w.qos
  Mqtt.connect c.options.client server port params

/-- Sets topic and payload and has them published.  They are uploads of their own, and one that
    fails ends the rest. -/
def publish (c : Client) (topic : String) (payload : Bytes) (params : PublishParams) :
    ClientM σ Unit := do
  setTopic c.options.client topic
  setPayload c.options.client payload
  Mqtt.publish c.options.client params

/-- Asks the broker for the messages of a topic. -/
def subscribe (c : Client) (topic : String) (qos : Nat) : ClientM σ Unit :=
  Mqtt.subscribe c.options.client topic qos

/-- Asks the device whether the client is connected. -/
def isConnected (c : Client) : ClientM σ Bool := Mqtt.isConnected c.options.client

/-- Ends the connection; the broker has so many seconds to say so too. -/
def disconnect (c : Client) (timeoutSecs : Nat) : ClientM σ Unit :=
  Mqtt.disconnect c.options.client timeoutSecs

/-- Releases the client and stops the service, unless it has stopped already.  Where the release is
    refused, the service is left running. -/
def stop (c : Client) : ClientM σ Unit := do
  releaseClient c.options.client
  try Mqtt.stop catch
    | .mqttAlreadyStopped => pure ()
    | err => throw err

/-- Takes the oldest message out of the client's inbox. -/
def popMessage (c : Client) : EngineM σ (Option Message) := Engine.popMessage c.inbox

/-- How many messages wait in the inbox. -/
def available (c : Client) (e : Engine σ) : Nat :=
  match e.inboxes.messages[c.inbox]? with
  | some q => q.items.length
  | none => 0

end Client
end AtModem.Mqtt
