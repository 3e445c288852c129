/-
  An HTTP client for one server.

  The client keeps the headers of its requests as one text, ready to be sent: each entry is
  `name: value` followed by the four characters backslash, r, backslash, n, which is how the device
  wants a line end written.  The device takes a limited number of bytes, so an entry that would pass
  the limit is refused and the headers stay as they are.
-/
import AtModem.Http.Commands
import AtModem.Ssl.Context
import AtModem.Text.Base64

namespace AtModem.Http

/-- The bytes of headers that the device takes. -/
def maxHeaderLength : Nat := 256

/-- What ends a header entry. -/
def headerEnd : String := "\\r\\n"

/-- A client keeps what its next request is made of, and the outcome of the last one.  The headers
    are one text in the form in which they will be sent. -/
structure Client where
  server : String
  port : Nat
  useSsl : Bool
  userAgent : Option String
  headers : String
  secure : SecureContext
  /-- The registered handlers. -/
  handlers : List HandlerId
  /-- The outcome of the last request, if it came to one. -/
  last : Option ActionResult

namespace Client

open Engine ClientM

/-! ## Addresses -/

/-- The text behind a given beginning. -/
def behind (start text : String) : Option String :=
  if start.toList.isPrefixOf text.toList then
    some (String.ofList (text.toList.drop start.toList.length))
  else none

/-- The server without its scheme. -/
def host (c : Client) : String :=
  (behind "https://" c.server <|> behind "http://" c.server).getD c.server

/-- The server with its scheme, or with the one that fits. -/
def baseUrl (c : Client) : String :=
  if (behind "http://" c.server).isSome || (behind "https://" c.server).isSome then c.server
  else if c.useSsl then "https://" ++ c.server
  else "http://" ++ c.server

/-! ## Headers -/

/-- One header as the device takes it: name and value, and a line end that is written out as four
    characters. -/
def entry (name value : String) : String := name ++ ": " ++ value ++ headerEnd

/-- The headers every request begins with. -/
def defaultHeaders (c : Client) : String :=
  entry "Host" c.host ++
    match c.userAgent with
    | some agent => entry "User-Agent" agent
    | none => ""

/-- Back to the headers that every request begins with.  They are not measured: a long server name
    or agent may make them longer than the device takes. -/
def resetHeader (c : Client) : Client := { c with headers := c.defaultHeaders }

/-- Adds an entry, if the device will take the headers with it.  A refused entry leaves the client
    as it was. -/
def addHeader (name value : String) (c : Client) : Except ClientError Client :=
  let headers := c.headers ++ entry name value
  if maxHeaderLength < headers.utf8ByteSize then .error (.headerTooLong maxHeaderLength)
  else .ok { c with headers }

/-- Adds the header that proves who the user is.  The token is longer than its parts, and it is what
    is measured. -/
def addBasicAuth (user password : String) (c : Client) : Except ClientError Client :=
  let token := Base64.encode (Utf8.encode (user ++ ":" ++ password))
  c.addHeader "Authorization" ("Basic " ++ token)

/-! ## The client's life -/

variable {σ : Type} [Device σ]

/-- What a client listens for. -/
def reports : List Handler :=
  [.notification "+HTTP_PEER_CLOSED" .httpPeerClosed,
    .notification "+HTTP_NONET_EVENT" .httpNoNet]

/-- A client that has made no request yet, with its handlers registered and its default headers
    set. -/
def create (server : String) (port : Nat) (useSsl : Bool) (userAgent : Option String)
    (ctx : ContextIndex) : EngineM σ Client := do
  let handlers ← registerAll reports
  let c : Client :=
    { server, port, useSsl, userAgent, headers := "", secure := .ofIndex ctx, handlers,
      last := none }
  return c.resetHeader

/-- Takes the handlers out again. -/
def release (c : Client) : EngineM σ Unit := deregisterAll c.handlers

/-- Starts the service of the device, and binds the context if the connection is to be a secure
    one. -/
def start (c : Client) : ClientM σ Unit := do
  init
  if c.useSsl then setSslContext c.secure.index

/-- Stops the service of the device. -/
def stop (_ : Client) : ClientM σ Unit := term

/-! ## Requests -/

/-- Runs a request; returns its status.  An empty body is not uploaded. -/
def request (method : Method) (path : String) (body : Bytes) (contentType accept : Option String) :
    OwnerM Client σ Nat := do
  modify fun (c, e) => ({ c with last := none }, e)
  let (c, _) ← get
  let base := c.baseUrl
  let port := c.port
  let result ← beside do
    setUrl s!"{base}:{port}/{path}"
    setContentType (contentType.getD "text/plain")
    setAccept (accept.getD "*/*")
    setUserData c.headers
    if !body.isEmpty then data body 30
    action method
  modify fun (c, e) => ({ c with last := some result }, e)
  return result.status

/-- `GET` of a path without its leading slash. -/
def get (path : String) (accept : Option String) : OwnerM Client σ Nat :=
  request .get path [] none accept

/-- Sends a body to a path and returns the status. -/
def post (path : String) (body : Bytes) (contentType accept : Option String) :
    OwnerM Client σ Nat :=
  request .post path body contentType accept

/-! ## Responses -/

/-- The status of the last request, if there was one that came to an end. -/
def responseStatus (c : Client) : Option Nat := c.last.map ActionResult.status

/-- How many bytes the last body has, if there is one. -/
def responseBodyLength (c : Client) : Option Nat := c.last.map ActionResult.bodyLength

/-- The last status, if it is one of success. -/
def errorForStatus (c : Client) : Except ClientError Nat :=
  match c.responseStatus with
  | some status => if 200 ≤ status ∧ status < 300 then .ok status else .error (.httpStatus status)
  | none => .error (.invalidArgument .noRequest)

/-- The headers of the last response as text, whatever bytes they are. -/
def responseHeader (_ : Client) : ClientM σ String := do return Utf8.decode (← head)

/-- The last body; nothing is asked of the device if there is none. -/
def responseBody (c : Client) : ClientM σ Bytes :=
  match c.responseBodyLength.getD 0 with
  | 0 => pure []
  | length => read length

end Client
end AtModem.Http
