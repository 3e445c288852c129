/-
  Sessions: the library is called, one operation after another, in any order.

  A call is any operation of the library with any arguments: of the stream, of the engine, of the
  services of the device and of those who lead them, whose own state may be any at all.  The one
  operation that is no call is putting back a byte of one's own choosing.  Between two calls anything
  may happen to the link: bytes arrive, time passes, writes come to be refused, the device changes.

  What is kept by every step of an exchange, and by what happens to the link, is kept by a session.
-/
import AtModem.Proofs.Exchange.Owners

namespace AtModem

variable {σ : Type}

/-! ## Calls -/

/-- The operations of a stream. -/
inductive Stream.Call where
  | poll
  | hasData
  | readByte
  | readWithin (timeout : Nat)
  | find (target : UInt8)
  | parseInt
  | parseLen
  | skip (count : Nat)
  | readExact (count : Nat)
  | readInto (storage : Buffer) (count : Nat)
  | readLine (max : Nat)
  | waitFor (p : Bytes) (timeout : Nat)
  | readField (capacity declared : Nat)

/-- The stream after one of them, whatever it has returned. -/
def Stream.Call.run (s : Stream σ) : Stream.Call → Stream σ
  | poll => endState (Stream.poll s)
  | hasData => endState (Stream.hasData s)
  | readByte => endState (Stream.readByte s)
  | readWithin timeout => endState (Stream.readWithin timeout s)
  | find target => endState (Stream.find target s)
  | parseInt => endState (Stream.parseInt s)
  | parseLen => endState (Stream.parseLen s)
  | skip count => endState (Stream.skip count s)
  | readExact count => endState (Stream.readExact count s)
  | readInto storage count => (endState (Buffer.fill count (storage, s))).2
  | readLine max => endState (Stream.readLine max s)
  | waitFor p timeout => endState (Stream.waitFor p timeout s)
  | readField capacity declared => endState (FixedField.read capacity declared s)

/-- The operations of the certificate store, of contexts and of the socket service. -/
inductive Ssl.Call where
  /-- Any of the parameters of a context. -/
  | configure (key : String) (ctx : ContextIndex) (value : String)
  | certDownload (data : Bytes) (slot : String)
  | certExists (slot : String)
  | certDelete (slot : String)
  | certOverwrite (data : Bytes) (slot : String)
  | setSessionContext (session : SessionId) (ctx : ContextIndex)
  | setReportMode (report cache : Bool)
  | setDataMode (transparent : Bool)
  | start
  | stop
  | openSession (session : SessionId) (host : String) (port : Nat)
  | close (session : SessionId)
  | sendData (session : SessionId) (data : Bytes)
  | available (session : SessionId)
  | receive (session : SessionId) (storage : Buffer)
  | setCaCert (c : SecureContext) (slot : String)
  | writeCaCert (c : SecureContext) (cert : Bytes) (slot : String)
  | setClient (c : SecureContext) (slots : ClientSlots)
  | writeClient (c : SecureContext) (cert key password : Bytes) (slots : ClientSlots)
  | setCerts (c : SecureContext) (caSlot : String) (slots : ClientSlots)
  | configureContext (c : SecureContext) (settings : SslSettings)
  | createSocket (session : SessionId) (ctx : ContextIndex)
  | releaseSocket (s : Socket)
  | startSocket (s : Socket)
  | connectSocket (s : Socket) (host : String) (port : Nat)
  | disconnectSocket (s : Socket)

/-- The engine after an operation of the secure service, whatever it has returned; who leads it is
    taken along. -/
def Ssl.Call.run [Device σ] (e : Engine σ) : Ssl.Call → Engine σ
  | configure key ctx value => endState (Ssl.configure key ctx value e)
  | certDownload data slot => endState (Ssl.certDownload data slot e)
  | certExists slot => endState (Ssl.certExists slot e)
  | certDelete slot => endState (Ssl.certDelete slot e)
  | certOverwrite data slot => endState (Ssl.certOverwrite data slot e)
  | setSessionContext session ctx => endState (Ssl.setSessionContext session ctx e)
  | setReportMode report cache => endState (Ssl.setReportMode report cache e)
  | setDataMode transparent => endState (Ssl.setDataMode transparent e)
  | start => endState (Ssl.start e)
  | stop => endState (Ssl.stop e)
  | openSession session host port => endState (Ssl.openSession session host port e)
  | close session => endState (Ssl.close session e)
  | sendData session data => endState (Ssl.sendData session data e)
  | available session => endState (Ssl.available session e)
  | receive session storage => (endState (Ssl.receive session (storage, e))).2
  | setCaCert c slot => (endState (SecureContext.setCaCert slot (c, e))).2
  | writeCaCert c cert slot => (endState (SecureContext.writeCaCert cert slot (c, e))).2
  | setClient c slots => (endState (SecureContext.setClient slots (c, e))).2
  | writeClient c cert key password slots =>
    (endState (SecureContext.writeClient cert key password slots (c, e))).2
  | setCerts c caSlot slots => (endState (SecureContext.setCerts caSlot slots (c, e))).2
  | configureContext c settings => endState (SecureContext.configure c settings e)
  | createSocket session ctx => endState (Socket.create session ctx e)
  | releaseSocket s => endState (Socket.release s e)
  | startSocket s => endState (Socket.start s e)
  | connectSocket s host port => (endState (Socket.connect host port (s, e))).2
  | disconnectSocket s => (endState (Socket.disconnect (s, e))).2

/-- The operations of the MQTT service and of its clients. -/
inductive Mqtt.Call where
  | start
  | stop
  | acquire (client : ClientIndex) (clientId : String) (useSsl : Bool)
  | releaseClient (client : ClientIndex)
  | setSslContext (session : SessionId) (ctx : ContextIndex)
  | setWillTopic (client : ClientIndex) (topic : String)
  | setWillMessage (client : ClientIndex) (message : String) (qos : Nat)
  | setTopic (client : ClientIndex) (topic : String)
  | setPayload (client : ClientIndex) (payload : Bytes)
  | subscribe (client : ClientIndex) (topic : String) (qos : Nat)
  | connect (client : ClientIndex) (server : String) (port : Nat) (params : ConnectParams)
  | isConnected (client : ClientIndex)
  | disconnect (client : ClientIndex) (timeoutSecs : Nat)
  | publish (client : ClientIndex) (params : PublishParams)
  | createClient (clientId : String) (useSsl : Bool) (options : Options) (ctx : ContextIndex)
  | releaseOf (c : Client)
  | startOf (c : Client)
  | connectOf (c : Client) (server : String) (port : Nat) (params : ConnectParams)
      (will : Option Will)
  | publishOf (c : Client) (topic : String) (payload : Bytes) (params : PublishParams)
  | stopOf (c : Client)

/-- The engine after one of them, however it ended. -/
def Mqtt.Call.run [Device σ] (e : Engine σ) : Mqtt.Call → Engine σ
  | start => endState (Mqtt.start e)
  | stop => endState (Mqtt.stop e)
  | acquire client clientId useSsl => endState (Mqtt.acquire client clientId useSsl e)
  | releaseClient client => endState (Mqtt.releaseClient client e)
  | setSslContext session ctx => endState (Mqtt.setSslContext session ctx e)
  | setWillTopic client topic => endState (Mqtt.setWillTopic client topic e)
  | setWillMessage client message qos => endState (Mqtt.setWillMessage client message qos e)
  | setTopic client topic => endState (Mqtt.setTopic client topic e)
  | setPayload client payload => endState (Mqtt.setPayload client payload e)
  | subscribe client topic qos => endState (Mqtt.subscribe client topic qos e)
  | connect client server port params => endState (Mqtt.connect client server port params e)
  | isConnected client => endState (Mqtt.isConnected client e)
  | disconnect client timeoutSecs => endState (Mqtt.disconnect client timeoutSecs e)
  | publish client params => endState (Mqtt.publish client params e)
  | createClient clientId useSsl options ctx =>
    endState (Client.create clientId useSsl options ctx e)
  | releaseOf c => endState (c.release e)
  | startOf c => endState (c.start e)
  | connectOf c server port params will => endState (c.connect server port params will e)
  | publishOf c topic payload params => endState (c.publish topic payload params e)
  | stopOf c => endState (c.stop e)

/-- The operations of the HTTP service and of its clients. -/
inductive Http.Call where
  | init
  | term
  /-- Any of the parameters of a request. -/
  | setText (key value : String)
  | setNumber (key : String) (value : Nat)
  | data (body : Bytes) (timeoutSecs : Nat)
  | action (method : Method)
  | head
  | read (length : Nat)
  | contentLength
  | createClient (server : String) (port : Nat) (useSsl : Bool) (userAgent : Option String)
      (ctx : ContextIndex)
  | releaseOf (c : Client)
  | startOf (c : Client)
  | stopOf (c : Client)
  | requestOf (c : Client) (method : Method) (path : String) (body : Bytes)
      (contentType accept : Option String)
  | responseHeaderOf (c : Client)
  | responseBodyOf (c : Client)

/-- The engine after one of them, however it ended. -/
def Http.Call.run [Device σ] (e : Engine σ) : Http.Call → Engine σ
  | init => endState (Http.init e)
  | term => endState (Http.term e)
  | setText key value => endState (Http.setText key value e)
  | setNumber key value => endState (Http.setNumber key value e)
  | data body timeoutSecs => endState (Http.data body timeoutSecs e)
  | action method => endState (Http.action method e)
  | head => endState (Http.head e)
  | read length => endState (Http.read length e)
  | contentLength => endState (Http.contentLength e)
  | createClient server port useSsl userAgent ctx =>
    endState (Client.create server port useSsl userAgent ctx e)
  | releaseOf c => endState (c.release e)
  | startOf c => endState (c.start e)
  | stopOf c => endState (c.stop e)
  | requestOf c method path body contentType accept =>
    (endState (Client.request method path body contentType accept (c, e))).2
  | responseHeaderOf c => endState (c.responseHeader e)
  | responseBodyOf c => endState (c.responseBody e)

/-- The operations of the receiver and of its feeds. -/
inductive Gnss.Call where
  /-- Any of the receiver's plain commands. -/
  | order (line : String)
  | powerOn (readyTimeout : Nat)
  | createFeed
  | enable (f : Feed)
  | disable (f : Feed) (exhaust : Bool)

/-- The engine after one of them, however it ended. -/
def Gnss.Call.run [Device σ] (e : Engine σ) : Gnss.Call → Engine σ
  | order line => endState (Gnss.order line e)
  | powerOn readyTimeout => endState (Gnss.powerOn readyTimeout e)
  | createFeed => endState (Feed.create e)
  | enable f => (endState (Feed.enable (f, e))).2
  | disable f exhaust => (endState (Feed.disable exhaust (f, e))).2

/-- The operations of the library, and what happens to the link between them.  The link may change
    in any way between them: bytes may arrive, and writes may begin to fail or to work again. -/
inductive Call (σ : Type) where
  | link (f : Link σ → Link σ)
  | stream (call : Stream.Call)
  | print (data : Bytes)
  | send (line : String)
  | wait (patterns : List Bytes) (timeout : Nat) (ok error : Bool)
  | waitOk (timeout : Nat)
  | command (line : String) (timeout : Nat)
  | listen (timeout : Nat)
  | clear (timeout : Nat)
  | parseIntClear (timeout : Nat)
  | codeLine
  | indexedCodeLine
  | upload (u : Upload)
  | download (d : Download)
  | downloadInto (d : Download) (storage : Buffer)
  | register (h : Handler)
  | deregister (id : HandlerId)
  | popEvent
  | openMessages (capacity : Nat) (policy : OverflowPolicy)
  | openSentences (capacity : Nat) (policy : OverflowPolicy)
  | openFields (capacity : Nat) (policy : OverflowPolicy)
  | popMessage (inbox : Nat)
  | popSentence (inbox : Nat)
  | popField (inbox : Nat)
  | ssl (call : Ssl.Call)
  | mqtt (call : Mqtt.Call)
  | http (call : Http.Call)
  | gnss (call : Gnss.Call)

/-- The engine after a call, however the call ended. -/
def Call.run [Device σ] (e : Engine σ) : Call σ → Engine σ
  | link f => { e with stream := { e.stream with link := f e.stream.link } }
  | stream call => { e with stream := call.run e.stream }
  | print data => endState (Engine.print data e)
  | send line => endState (Engine.send line e)
  | wait patterns timeout ok error => (e.wait patterns timeout ok error).2
  | waitOk timeout => endState (Engine.waitOk timeout e)
  | command line timeout => endState (Engine.command line timeout e)
  | listen timeout => endState (Engine.listen timeout e)
  | clear timeout => endState (Engine.clear timeout e)
  | parseIntClear timeout => endState (Engine.parseIntClear timeout e)
  | codeLine => endState (Engine.codeLine e)
  | indexedCodeLine => endState (Engine.indexedCodeLine e)
  | upload u => endState (Engine.upload u e)
  | download d => endState (Engine.download d e)
  | downloadInto d storage => (endState (Engine.downloadInto d (storage, e))).2
  | register h => endState (Engine.register h e)
  | deregister id => endState (Engine.deregister id e)
  | popEvent => endState (Engine.popEvent e)
  | openMessages capacity policy => endState (Engine.openMessages capacity policy e)
  | openSentences capacity policy => endState (Engine.openSentences capacity policy e)
  | openFields capacity policy => endState (Engine.openFields capacity policy e)
  | popMessage inbox => endState (Engine.popMessage inbox e)
  | popSentence inbox => endState (Engine.popSentence inbox e)
  | popField inbox => endState (Engine.popField inbox e)
  | ssl call => call.run e
  | mqtt call => call.run e
  | http call => call.run e
  | gnss call => call.run e

/-- The engine after some calls, one after another.  The calls are arbitrary, so what is proved for
    sessions holds whichever way the operations are mixed. -/
def Engine.session [Device σ] (e : Engine σ) (calls : List (Call σ)) : Engine σ :=
  calls.foldl Call.run e

/-! ## What calls keep -/

/-- What every read keeps, each operation of a stream does. -/
theorem Stream.KeptByReading.call {R : Stream σ → Stream σ → Prop} (k : KeptByReading R)
    (call : Stream.Call) (s : Stream σ) : R s (call.run s) := by
  cases call with
  | poll => exact k.poll s
  | hasData => exact k.hasData s
  | readByte => exact k.readByte s
  | readWithin timeout => exact k.readWithin timeout s
  | find target => exact k.find target s
  | parseInt => exact k.parseInt s
  | parseLen => exact k.parseLen s
  | skip count => exact k.skip count s
  | readExact count => exact k.readExact count s
  | readInto storage count =>
    have h := k.gather count s
    simp only [Stream.Call.run, Buffer.fill]
    split <;> exact h
  | readLine max => exact k.readLine max s
  | waitFor p timeout => exact k.waitFor p timeout s
  | readField capacity declared => exact k.readField capacity declared s

namespace Engine

/-- A relation between engines that holds across every step of an exchange and across anything that
    happens to the link.  It is proved once for each relation by giving the steps, and then holds of
    all sessions by induction on their calls. -/
structure KeptBySession [Device σ] (S : Stream σ → Stream σ → Prop) (R : Engine σ → Engine σ → Prop) :
    Prop extends KeptByHandling S R where
  link : ∀ (e : Engine σ) l, R e { e with stream := { e.stream with link := l } }

variable [Device σ] {S : Stream σ → Stream σ → Prop} {R : Engine σ → Engine σ → Prop}

namespace KeptByHandling

open ClientM

/-- What every step of an exchange keeps, each operation of the secure service does; one case for
    each.  Some of them register handlers or take them out, so the relation has to be kept by that
    as well. -/
theorem sslCall (k : KeptByHandling S R) (call : Ssl.Call) (e : Engine σ) : R e (call.run e) := by
  cases call with
  | configure key ctx value => exact k.configure key ctx value e
  | certDownload data slot => exact k.certDownload data slot e
  | certExists slot => exact k.certExists slot e
  | certDelete slot => exact k.certDelete slot e
  | certOverwrite data slot => exact k.certOverwrite data slot e
  | setSessionContext session ctx => exact along_ofEngine (k.plainCommand _) e
  | setReportMode report cache => exact along_ofEngine (k.command _ _) e
  | setDataMode transparent => exact along_ofEngine (k.command _ _) e
  | start => exact k.startSsl e
  | stop => exact k.stopSsl e
  | openSession session host port => exact k.openSession session host port e
  | close session => exact k.closeSession session e
  | sendData session data => exact k.sendData session data e
  | available session => exact k.available session e
  | receive session storage => exact k.receive session (storage, e)
  | setCaCert c slot => exact k.setCaCert slot (c, e)
  | writeCaCert c cert slot => exact k.writeCaCert cert slot (c, e)
  | setClient c slots => exact k.setClient slots (c, e)
  | writeClient c cert key password slots => exact k.writeClient cert key password slots (c, e)
  | setCerts c caSlot slots => exact k.setCerts caSlot slots (c, e)
  | configureContext c settings => exact k.configureContext c settings e
  | createSocket session ctx => exact k.createSocket session ctx e
  | releaseSocket s => exact k.deregisterAll s.handlers e
  | startSocket s => exact k.startSocket s e
  | connectSocket s host port => exact k.connectSocket host port (s, e)
  | disconnectSocket s => exact k.disconnectSocket (s, e)

theorem mqttCall (k : KeptByHandling S R) (call : Mqtt.Call) (e : Engine σ) : R e (call.run e) := by
  cases call with
  | start => exact k.startMqtt e
  | stop => exact k.stopMqtt e
  | acquire client clientId useSsl => exact k.acquire client clientId useSsl e
  | releaseClient client => exact k.releaseClient client e
  | setSslContext session ctx => exact along_ofEngine (k.plainCommand _) e
  | setWillTopic client topic => exact k.uploadUnder _ _ _ e
  | setWillMessage client message qos => exact k.uploadUnder _ _ _ e
  | setTopic client topic => exact k.uploadUnder _ _ _ e
  | setPayload client payload => exact k.uploadUnder _ _ _ e
  | subscribe client topic qos => exact k.subscribe client topic qos e
  | connect client server port params => exact k.connectMqtt client server port params e
  | isConnected client => exact k.isConnected client e
  | disconnect client timeoutSecs => exact k.disconnectMqtt client timeoutSecs e
  | publish client params => exact k.publish client params e
  | createClient clientId useSsl options ctx => exact k.createMqtt clientId useSsl options ctx e
  | releaseOf c => exact k.deregisterAll c.handlers e
  | startOf c => exact k.beginMqtt c e
  | connectOf c server port params will => exact k.connectToBroker c server port params will e
  | publishOf c topic payload params => exact k.publishMessage c topic payload params e
  | stopOf c => exact k.endMqtt c e

theorem httpCall (k : KeptByHandling S R) (call : Http.Call) (e : Engine σ) : R e (call.run e) := by
  cases call with
  | init => exact along_ofEngine (k.plainCommand _) e
  | term => exact along_ofEngine (k.plainCommand _) e
  | setText key value => exact k.setText key value e
  | setNumber key value => exact k.setNumber key value e
  | data body timeoutSecs => exact k.data body timeoutSecs e
  | action method => exact k.action method e
  | head => exact along_ofEngine (k.download _) e
  | read length => exact along_ofEngine (k.download _) e
  | contentLength => exact k.contentLength e
  | createClient server port useSsl userAgent ctx =>
    exact k.createHttp server port useSsl userAgent ctx e
  | releaseOf c => exact k.deregisterAll c.handlers e
  | startOf c => exact k.beginHttp c e
  | stopOf c => exact along_ofEngine (k.plainCommand _) e
  | requestOf c method path body contentType accept =>
    exact k.request method path body contentType accept (c, e)
  | responseHeaderOf c => exact k.responseHeader c e
  | responseBodyOf c => exact k.responseBody c e

theorem gnssCall (k : KeptByHandling S R) (call : Gnss.Call) (e : Engine σ) : R e (call.run e) := by
  cases call with
  | order line => exact k.order line e
  | powerOn readyTimeout => exact k.powerOn readyTimeout e
  | createFeed => exact k.createFeed e
  | enable f => exact k.enableFeed (f, e)
  | disable f exhaust => exact k.disableFeed exhaust (f, e)

end KeptByHandling

namespace KeptBySession

/-- What one call keeps, of the library or of the link between two calls.  By cases on the service
    that it belongs to. -/
theorem call (k : KeptBySession S R) (call : Call σ) (e : Engine σ) : R e (call.run e) := by
  cases call with
  | link f => exact k.link e (f e.stream.link)
  | stream call => exact k.stream (k.reading.call call e.stream)
  | print data => exact k.print data e
  | send line => exact k.send line e
  | wait patterns timeout ok error => exact k.await patterns timeout ok error e
  | waitOk timeout => exact k.waitOk timeout e
  | command line timeout => exact k.command line timeout e
  | listen timeout => exact k.listen timeout e
  | clear timeout => exact k.clear timeout e
  | parseIntClear timeout => exact k.parseIntClear timeout e
  | codeLine => exact k.codeLine e
  | indexedCodeLine => exact k.indexedCodeLine e
  | upload u => exact k.upload u e
  | download d => exact k.download d e
  | downloadInto d storage => exact k.downloadInto d (storage, e)
  | register h => exact k.register h e
  | deregister id => exact k.deregister id e
  | popEvent => exact k.mail _ _ _ e.events.follows_pop
  | openMessages capacity policy => exact k.mail _ _ _ (.refl _)
  | openSentences capacity policy => exact k.mail _ _ _ (.refl _)
  | openFields capacity policy => exact k.mail _ _ _ (.refl _)
  | popMessage inbox => exact k.mail _ _ _ (.refl _)
  | popSentence inbox => exact k.mail _ _ _ (.refl _)
  | popField inbox => exact k.mail _ _ _ (.refl _)
  | ssl call => exact k.sslCall call e
  | mqtt call => exact k.mqttCall call e
  | http call => exact k.httpCall call e
  | gnss call => exact k.gnssCall call e

/-- What a whole session keeps; by induction on the calls. -/
theorem session (k : KeptBySession S R) (calls : List (Call σ)) (e : Engine σ) :
    R e (e.session calls) := by
  -- on the calls, from the engine as it is before the first of them
  induction calls generalizing e with
  | nil => exact k.refl e
  | cons c cs ih => exact k.trans _ _ _ (k.call c e) (ih (c.run e))

end KeptBySession
end Engine
end AtModem
