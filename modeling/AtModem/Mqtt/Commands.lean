/-
  The commands of the device's MQTT client.

  Topics and payloads are uploaded.  Most answers are a result line `<tag>: <client>,<code>`.  Where
  such a line comes in place of a prompt, the terminator behind it is consumed with it; where it comes
  in place of `OK`, to acquire or to release a client, a terminator behind it is left.
-/
import AtModem.Client

namespace AtModem.Mqtt

open Engine ClientM

variable {σ : Type} [Device σ]

/-- The time allowed for the service and connection commands. -/
def commandTimeout : Nat := 12000

/-- What is added to a time limit of the device before its result line is given up. -/
def responseMargin : Nat := 2000

/-- How to connect to a broker. -/
structure ConnectParams where
  keepaliveSecs : Nat := 60
  cleanSession : Bool := true
  /-- User name and password. -/
  credentials : Option (String × String) := none

/-- How to publish. -/
structure PublishParams where
  qos : Nat := 0
  /-- The time the broker has to acknowledge, in seconds. -/
  timeoutSecs : Nat := 60
  retained : Bool := false
  dup : Bool := false

/-- Refuses a text that cannot be quoted. -/
def checkText (text : String) : ClientM σ Unit :=
  if quotable text then pure () else refuse (.unquotable text)

/-- The result line `<code>` of a command, or its terminator. -/
def codeAfter (outcome : MatchOutcome) : EngineM σ Unit :=
  match outcome with
  | .pattern _ => codeLine
  | other => ofResult other.expectSuccess

/-- The result line `<client>,<code>` of a command, or its terminator. -/
def indexedCodeAfter (outcome : MatchOutcome) : EngineM σ Unit :=
  match outcome with
  | .pattern _ => indexedCodeLine
  | other => ofResult other.expectSuccess

/-! ## The service and its clients -/

/-- Starts the service; an error line means that it runs already. -/
def start : ClientM σ Unit := do
  ofEngine (send "AT+CMQTTSTART")
  match ← ofEngine (await [Utf8.encode "+CMQTTSTART: "] commandTimeout false true) with
  | .failure => throw .mqttAlreadyStarted
  | outcome => ofEngine (codeAfter outcome)

/-- Stops the service; an error line means that it does not run. -/
def stop : ClientM σ Unit := do
  ofEngine (send "AT+CMQTTSTOP")
  match ← ofEngine (await [Utf8.encode "+CMQTTSTOP: "] commandTimeout false true) with
  | .failure => throw .mqttAlreadyStopped
  | outcome => ofEngine (codeAfter outcome)

/-- Acquires a client under a name.  A refusal comes as a result line in place of `OK`, with its
    terminator behind it. -/
def acquire (client : ClientIndex) (clientId : String) (useSsl : Bool) : ClientM σ Unit := do
  checkText clientId
  let ssl := flag useSsl
  ofEngine do
    send s!"AT+CMQTTACCQ={client},\"{clientId}\",{ssl}"
    indexedCodeAfter (← await [Utf8.encode "+CMQTTACCQ: "] commandTimeout true true)

/-- Gives a client back to the device.  What stands behind a result line that comes in place of `OK`
    is left in the stream. -/
def releaseClient (client : ClientIndex) : ClientM σ Unit := ofEngine do
  send s!"AT+CMQTTREL={client}"
  indexedCodeAfter (← await [Utf8.encode "+CMQTTREL: "] commandTimeout true true)

/-- Binds an SSL context to a session. -/
def setSslContext (session : SessionId) (ctx : ContextIndex) : ClientM σ Unit :=
  ofEngine (plainCommand s!"AT+CMQTTSSLCFG={session},{ctx}")

/-! ## Uploads -/

/-- Uploads data that is not empty; `tag` opens the result line that may come in place of the
    prompt. -/
def uploadUnder (tag : String) (command : String) (data : Bytes) : ClientM σ Unit := do
  if data.isEmpty then refuse (.emptyData command)
  ofEngine (upload { command, data, inlineError := some (Utf8.encode tag) })

/-- Uploads the topic of the last will. -/
def setWillTopic (client : ClientIndex) (topic : String) : ClientM σ Unit :=
  let data := Utf8.encode topic
  let size := data.length
  uploadUnder "+CMQTTWILLTOPIC: " s!"AT+CMQTTWILLTOPIC={client},{size}" data

/-- Uploads the text of the last will. -/
def setWillMessage (client : ClientIndex) (message : String) (qos : Nat) : ClientM σ Unit :=
  let data := Utf8.encode message
  let size := data.length
  uploadUnder "+CMQTTWILLMSG: " s!"AT+CMQTTWILLMSG={client},{size},{qos}" data

/-- Uploads the topic that the next message is published under. -/
def setTopic (client : ClientIndex) (topic : String) : ClientM σ Unit :=
  let data := Utf8.encode topic
  let size := data.length
  uploadUnder "+CMQTTTOPIC: " s!"AT+CMQTTTOPIC={client},{size}" data

/-- Uploads the payload of the next message; it may be any bytes. -/
def setPayload (client : ClientIndex) (payload : Bytes) : ClientM σ Unit :=
  let size := payload.length
  uploadUnder "+CMQTTPAYLOAD: " s!"AT+CMQTTPAYLOAD={client},{size}" payload

/-- Subscribes to a topic.  The same tag opens the refusal and the confirmation.  The empty topic is
    refused here, as the device would take no data for it. -/
def subscribe (client : ClientIndex) (topic : String) (qos : Nat) : ClientM σ Unit := do
  if topic.isEmpty then refuse .emptyTopic
  let data := Utf8.encode topic
  let size := data.length
  let tag := Utf8.encode "+CMQTTSUB: "
  ofEngine (upload
    { command := s!"AT+CMQTTSUB={client},{size},{qos}"
      data
      inlineError := some tag
      confirm := .resultCode tag
      confirmTimeout := some commandTimeout })

/-! ## Connections -/

/-- The address of a broker; without a scheme of its own it is reached by TCP. -/
def brokerAddress (server : String) (port : Nat) : String :=
  if hasScheme server.toList then s!"{server}:{port}" else s!"tcp://{server}:{port}"
where
  /-- Whether `://` stands somewhere in the text. -/
  hasScheme : List Char → Bool
  | [] => false
  | c :: cs => [':', '/', '/'].isPrefixOf (c :: cs) || hasScheme cs

/-- Connects a client to a broker.  The texts are all checked before the first byte is sent, and the
    time for the answer grows with the keepalive that was asked for. -/
def connect (client : ClientIndex) (server : String) (port : Nat) (params : ConnectParams) :
    ClientM σ Unit := do
  checkText server
  let address := brokerAddress server port
  let keepalive := params.keepaliveSecs
  let clean := flag params.cleanSession
  let login ← match params.credentials with
    | none => pure ""
    | some (user, password) =>
      checkText user
      checkText password
      pure s!",\"{user}\",\"{password}\""
  ofEngine do
    send s!"AT+CMQTTCONNECT={client},\"{address}\",{keepalive},{clean}{login}"
    let timeout := params.keepaliveSecs * 1000 + responseMargin
    indexedCodeAfter (← await [Utf8.encode "+CMQTTCONNECT: "] timeout false true)

/-- Whether a client is connected, by the first entry of the listing that names it.  The comma is
    part of what is looked for, so client 1 is not taken for client 10. -/
def isConnected (client : ClientIndex) : ClientM σ Bool := ofEngine do
  send "AT+CMQTTDISC?"
  match ← await [Utf8.encode s!"+CMQTTDISC: {client},"] commandTimeout true true with
  | .pattern _ =>
    let timeout ← plainTimeout
    return (← parseIntClear timeout) == 0
  | .timedOut => throw .timedOut
  | _ => return false

/-- Disconnects; the broker has so many seconds to acknowledge. -/
def disconnect (client : ClientIndex) (timeoutSecs : Nat) : ClientM σ Unit := ofEngine do
  send s!"AT+CMQTTDISC={client},{timeoutSecs}"
  let timeout := timeoutSecs * 1000 + responseMargin
  indexedCodeAfter (← await [Utf8.encode "+CMQTTDISC: "] timeout false true)

/-- Publishes the topic and payload that were set before.  It is the result line that counts, and it
    may come late, so its time is the broker's and a margin. -/
def publish (client : ClientIndex) (params : PublishParams) : ClientM σ Unit := ofEngine do
  let qos := params.qos
  let secs := params.timeoutSecs
  let retained := flag params.retained
  let dup := flag params.dup
  send s!"AT+CMQTTPUB={client},{qos},{secs},{retained},{dup}"
  let timeout := params.timeoutSecs * 1000 + responseMargin
  indexedCodeAfter (← await [Utf8.encode "+CMQTTPUB: "] timeout false true)

end AtModem.Mqtt
