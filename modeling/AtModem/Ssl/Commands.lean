/-
  The certificate store, SSL contexts and the socket service.

  Certificates lie in named slots of the device's store.  A context refers to slots by name and
  carries the mode of authentication.  A socket session is bound to a context and moves raw bytes.
-/
import AtModem.Client

namespace AtModem

/-- Which ends of a connection prove who they are. -/
inductive AuthMode where
  | none
  /-- The server, by a certificate of the authority. -/
  | serverOnly
  /-- Both ends. -/
  | both
  | clientOnly
  deriving DecidableEq, Repr

namespace AuthMode

/-- The word for a mode in a configuration. -/
def name : AuthMode → String
  | none => "none"
  | serverOnly => "server_only"
  | both => "mutual"
  | clientOnly => "client_only"

/-- The mode with a name. -/
def ofName? (s : String) : Option AuthMode :=
  [none, serverOnly, both, clientOnly].find? fun m => m.name = s

/-- The mode's number in a command. -/
def code : AuthMode → Nat
  | none => 0
  | serverOnly => 1
  | both => 2
  | clientOnly => 3

/-- The mode of a context, by what has been bound to it. -/
def forSlots (ca client : Bool) : AuthMode :=
  match ca, client with
  | false, false => none
  | true, false => serverOnly
  | false, true => clientOnly
  | true, true => both

end AuthMode

namespace Ssl

open Engine ClientM

variable {σ : Type} [Device σ]

/-- The time allowed for the commands of the certificate store, and for those of the socket
    service. -/
def storeTimeout : Nat := 120000

/-- The time allowed for the commands of the socket service. -/
def socketTimeout : Nat := 120000

/-- The time between the chunks of one receive. -/
def chunkTimeout : Nat := 1000

/-! ## Contexts -/

/-- Sets one value of a context.  The value is put into the line as it is; where it is a text it is
    the caller's to see that it can stand there. -/
def configure (key : String) (ctx : ContextIndex) (value : String) : ClientM σ Unit :=
  ofEngine (plainCommand s!"AT+CSSLCFG=\"{key}\",{ctx},{value}")

/-- Which protocol versions are allowed. -/
def setVersion (ctx : ContextIndex) (version : Nat) : ClientM σ Unit :=
  configure "sslversion" ctx (toString version)

/-- Which ends of the connection have to prove who they are. -/
def setAuthMode (ctx : ContextIndex) (mode : AuthMode) : ClientM σ Unit :=
  configure "authmode" ctx (toString mode.code)

/-- Whether certificates are accepted whatever the device's clock says. -/
def setIgnoreLocalTime (ctx : ContextIndex) (ignore : Bool) : ClientM σ Unit :=
  configure "ignorelocaltime" ctx (flag ignore)

/-- The time allowed for the handshake, in seconds. -/
def setNegotiateTime (ctx : ContextIndex) (seconds : Nat) : ClientM σ Unit :=
  configure "negotiatetime" ctx (toString seconds)

/-- Names the slot with the certificate of the authority.  The name is quoted as it is. -/
def setCaCert (ctx : ContextIndex) (slot : String) : ClientM σ Unit :=
  configure "cacert" ctx (inQuotes slot)

/-- Names the slot with the client's certificate. -/
def setClientCert (ctx : ContextIndex) (slot : String) : ClientM σ Unit :=
  configure "clientcert" ctx (inQuotes slot)

/-- Names the slot with the client's key. -/
def setClientKey (ctx : ContextIndex) (slot : String) : ClientM σ Unit :=
  configure "clientkey" ctx (inQuotes slot)

/-- Names the slot with the password of the key. -/
def setPassword (ctx : ContextIndex) (slot : String) : ClientM σ Unit :=
  configure "password" ctx (inQuotes slot)

/-- Whether the server is told which name was asked for. -/
def setSni (ctx : ContextIndex) (enable : Bool) : ClientM σ Unit :=
  configure "enableSNI" ctx (flag enable)

/-! ## The certificate store -/

/-- A slot needs a name, and one that can be quoted. -/
def checkSlot (slot : String) : ClientM σ Unit :=
  if slot.isEmpty || !quotable slot then refuse (.slotName slot) else pure ()

omit [Device σ] in
theorem checkSlot_eq_ok_iff (slot : String) (e : Engine σ) :
    checkSlot slot e = .ok () e ↔ slot ≠ "" ∧ quotable slot = true := by
  have empty : slot.isEmpty = true ↔ slot = "" := String.isEmpty_iff
  unfold checkSlot
  split
  · rename_i refused
    refine ⟨fun h => (nomatch h), fun ⟨named, ok⟩ => ?_⟩
    simp [ok, empty, named] at refused
  · rename_i accepted
    refine ⟨fun _ => ?_, fun _ => rfl⟩
    simpa [empty] using accepted

/-- Stores data in a slot; the device refuses a slot that is taken.  Nothing asks before whether it
    is; who wants to be sure overwrites. -/
def certDownload (data : Bytes) (slot : String) : ClientM σ Unit := do
  checkSlot slot
  let size := data.length
  let name := inQuotes slot
  ofEngine (upload
    { command := s!"AT+CCERTDOWN={name},{size}", data, promptTimeout := storeTimeout })

/-- Whether the store's listing names the slot.  A listing without the name ends with its
    terminator, and then the answer is no. -/
def certExists (slot : String) : ClientM σ Bool := do
  checkSlot slot
  ofEngine do
    send "AT+CCERTLIST"
    match ← await [Utf8.encode (inQuotes slot)] storeTimeout true true with
    | .pattern _ =>
      plainClear
      return true
    | .success => return false
    | .failure => throw .deviceReportedFailure
    | .timedOut => throw .timedOut

/-- Removes a slot from the store. -/
def certDelete (slot : String) : ClientM σ Unit := do
  checkSlot slot
  let name := inQuotes slot
  ofEngine (command s!"AT+CCERTDELE={name}" storeTimeout)

/-- Puts data into a slot, whatever it held.  If this fails after the old content was removed, the
    slot is empty, and doing it again puts that right. -/
def certOverwrite (data : Bytes) (slot : String) : ClientM σ Unit := do
  if ← certExists slot then certDelete slot
  certDownload data slot

/-! ## The socket service -/

/-- Binds a context to a session. -/
def setSessionContext (session : SessionId) (ctx : ContextIndex) : ClientM σ Unit :=
  ofEngine (plainCommand s!"AT+CCHSSLCFG={session},{ctx}")

/-- Whether each send is reported, and whether received data is kept by the device until it is
    asked for. -/
def setReportMode (report cache : Bool) : ClientM σ Unit :=
  let r := flag report
  let c := flag cache
  ofEngine (command s!"AT+CCHSET={r},{c}" socketTimeout)

/-- Whether the link is to carry socket data only. -/
def setDataMode (transparent : Bool) : ClientM σ Unit :=
  let t := flag transparent
  ofEngine (command s!"AT+CCHMODE={t}" socketTimeout)

/-- Starts the service.  An error line may still be followed by a result line that says more. -/
def start : ClientM σ Unit := ofEngine do
  send "AT+CCHSTART"
  match ← await [Utf8.encode "+CCHSTART: "] socketTimeout false true with
  | .pattern _ => codeLine
  | .failure =>
    match ← await [Utf8.encode "+CCHSTART: "] 100 false true with
    | .pattern _ => codeLine
    | _ => throw .deviceReportedFailure
  | other => ofResult other.expectSuccess

/-- Stops the service and reads its result line. -/
def stop : ClientM σ Unit := ofEngine do
  send "AT+CCHSTOP"
  match ← await [Utf8.encode "+CCHSTOP: "] socketTimeout false true with
  | .pattern _ => codeLine
  | other => ofResult other.expectSuccess

/-- The answer `<tag><session>,<code>` of a session command. -/
def sessionResult (tag : String) : EngineM σ Unit := do
  match ← await [Utf8.encode tag] socketTimeout false true with
  | .pattern _ => indexedCodeLine
  | other => ofResult other.expectSuccess

/-- Connects a session.  The host stands between quotes, and so it is checked for what would end
    them. -/
def openSession (session : SessionId) (host : String) (port : Nat) : ClientM σ Unit := do
  if host.isEmpty || !quotable host then refuse (.host host)
  ofEngine do
    send s!"AT+CCHOPEN={session},\"{host}\",{port}"
    sessionResult "+CCHOPEN: "

/-- Closes a session. -/
def close (session : SessionId) : ClientM σ Unit := ofEngine do
  send s!"AT+CCHCLOSE={session}"
  sessionResult "+CCHCLOSE: "

/-- Sends data on a session. -/
def sendData (session : SessionId) (data : Bytes) : ClientM σ Unit := do
  if data.isEmpty then refuse (.emptyData "AT+CCHSEND")
  let size := data.length
  ofEngine (upload { command := s!"AT+CCHSEND={session},{size}", data })

/-- How many bytes the device keeps for a session.  The answer lists two sessions; any session but
    the first is taken for the second. -/
def available (session : SessionId) : ClientM σ Nat := ofEngine do
  send "AT+CCHRECV?"
  match ← await [Utf8.encode "+CCHRECV: LEN,"] transferTimeout false true with
  | .pattern _ => pure ()
  | other =>
    ofResult other.expectSuccess
    throw .timedOut
  let (first, second) ← onStream do
    let first ← Stream.parseLen
    Stream.find Ascii.comma
    return (first, ← Stream.parseLen)
  plainClear
  return if session = 0 then first else second

end Ssl
end AtModem
