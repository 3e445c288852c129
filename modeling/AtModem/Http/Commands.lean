/-
  The commands of the device's HTTP client.

  A request is described by parameters, run by one action whose result line gives the status and the
  length of the body, and its response is then downloaded: headers as one piece, the body as far as
  it is asked for.
-/
import AtModem.Client

namespace AtModem.Http

open Engine ClientM

variable {σ : Type} [Device σ]

/-- The time the device has for a request. -/
def actionTimeout : Nat := 120000

/-- The methods that the device knows. -/
inductive Method where
  | get
  | post
  | head
  | delete
  | put
  deriving DecidableEq, Repr

/-- The word for a method. -/
def Method.name : Method → String
  | .get => "GET"
  | .post => "POST"
  | .head => "HEAD"
  | .delete => "DELETE"
  | .put => "PUT"

/-- The method with a name. -/
def Method.ofName? (s : String) : Option Method :=
  [.get, .post, .head, .delete, .put].find? fun m : Method => m.name = s

/-- The method's number in a command. -/
def Method.code : Method → Nat
  | .get => 0
  | .post => 1
  | .head => 2
  | .delete => 3
  | .put => 4

/-- The outcome of a request. -/
structure ActionResult where
  status : Nat
  bodyLength : Nat
  deriving DecidableEq, Repr

/-- Starts the service. -/
def init : ClientM σ Unit := ofEngine (plainCommand "AT+HTTPINIT")

/-- Stops the service. -/
def term : ClientM σ Unit := ofEngine (plainCommand "AT+HTTPTERM")

/-! ## Parameters -/

/-- Sets a parameter that is a text.  A text that would end the quotation or the line is refused
    before anything is sent. -/
def setText (key value : String) : ClientM σ Unit := do
  if !quotable value then refuse (.unquotableParameter key value)
  ofEngine (plainCommand s!"AT+HTTPPARA=\"{key}\",\"{value}\"")

/-- Sets a parameter that is a number, which needs no check. -/
def setNumber (key : String) (value : Nat) : ClientM σ Unit :=
  ofEngine (plainCommand s!"AT+HTTPPARA=\"{key}\",{value}")

/-- Where the request goes. -/
def setUrl (url : String) : ClientM σ Unit := setText "URL" url

/-- What kind of body is sent. -/
def setContentType (contentType : String) : ClientM σ Unit := setText "CONTENT" contentType

/-- What kind of body is accepted. -/
def setAccept (accept : String) : ClientM σ Unit := setText "ACCEPT" accept

/-- The request headers. -/
def setUserData (headers : String) : ClientM σ Unit := setText "USERDATA" headers

/-- In seconds, 20 to 120. -/
def setConnectTimeout (seconds : Nat) : ClientM σ Unit := setNumber "CONNECTTO" seconds

/-- In seconds, 2 to 120. -/
def setReceiveTimeout (seconds : Nat) : ClientM σ Unit := setNumber "RECVTO" seconds

/-- Which context secures the connection. -/
def setSslContext (ctx : ContextIndex) : ClientM σ Unit := setNumber "SSLCFG" ctx.toNat

/-- In which way the device hands out a body. -/
def setReadMode (mode : Nat) : ClientM σ Unit := setNumber "READMODE" mode

/-! ## Requests -/

/-- Uploads the body of a request; the device has so many seconds to take it. -/
def data (body : Bytes) (timeoutSecs : Nat) : ClientM σ Unit :=
  let size := body.length
  ofEngine (upload
    { command := s!"AT+HTTPDATA={size},{timeoutSecs}"
      data := body
      prompt := Utf8.encode "DOWNLOAD"
      promptTimeout := 10000
      confirmTimeout := some (timeoutSecs * 1000 + 1000) })

/-- Reads `<method>,<status>,<length>` and the rest of the line.  The method is skipped; a status
    that is no 16-bit number is refused. -/
def readResult : StreamM σ ActionResult := do
  Stream.find Ascii.comma
  let status ← Stream.parseInt
  Stream.find Ascii.comma
  let bodyLength ← Stream.parseLen
  Stream.find Ascii.lf
  if 0 ≤ status ∧ status < 0x10000 then return { status := status.toNat, bodyLength }
  else throw (.parse (.invalidStatus status))

/-- Runs a request.  The command is acknowledged at once, and the result comes when the server has
    answered. -/
def action (method : Method) : ClientM σ ActionResult := ofEngine do
  let code := method.code
  plainCommand s!"AT+HTTPACTION={code}"
  match ← await [Utf8.encode "+HTTPACTION: "] actionTimeout false true with
  | .pattern _ => onStream readResult
  | other =>
    ofResult other.expectSuccess
    throw .timedOut

/-! ## Responses -/

/-- The headers of the last response. -/
def headRequest : Download where
  command := "AT+HTTPHEAD"
  header := Utf8.encode "+HTTPHEAD: "
  headerTimeout := actionTimeout
  trailer := .terminator

/-- The first `length` bytes of the last body. -/
def readRequest (length : Nat) : Download where
  command := s!"AT+HTTPREAD=0,{length}"
  header := Utf8.encode "+HTTPREAD: "
  expected := some length
  headerTimeout := actionTimeout
  trailer := .pattern (Utf8.encode "+HTTPREAD: 0")

/-- Downloads the headers of the last response. -/
def head : ClientM σ Bytes := ofEngine (download headRequest)

/-- Downloads the first `length` bytes of the last body. -/
def read (length : Nat) : ClientM σ Bytes := ofEngine (download (readRequest length))

/-- How much of the last body has not been read. -/
def contentLength : ClientM σ Nat := ofEngine do
  send "AT+HTTPREAD?"
  let timeout ← plainTimeout
  match ← await [Utf8.encode "+HTTPREAD: LEN,"] timeout false true with
  | .pattern _ =>
    let length ← parseIntClear timeout
    if length < 0 then throw (.parse (.invalidLength length)) else return length.toNat
  | other =>
    ofResult other.expectSuccess
    throw .timedOut

end AtModem.Http
