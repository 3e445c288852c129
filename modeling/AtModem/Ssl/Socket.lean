/-
  A socket session with its SSL context.

  A socket registers a handler for the far end's closing when it is made and takes it out when it is
  given up.  Whether it is connected is what it has been told itself: a closing by the far end shows
  only as an event.
-/
import AtModem.Ssl.Context
import AtModem.Ssl.Receive

namespace AtModem

/-- A socket is its session with the context that secures it.  Its flag says what the client has
    been told, and not whether the far end is still there. -/
structure Socket where
  session : SessionId
  secure : SecureContext
  /-- The registered handlers. -/
  handlers : List HandlerId
  connected : Bool

namespace Socket

open Engine ClientM

variable {σ : Type} [Device σ]

/-- The report that the far end has closed. -/
def peerClosed : Handler := .notification "+CCH_PEER_CLOSED: " .sslPeerClosed

/-- A socket that is not connected, with its handler registered. -/
def create (session : SessionId) (ctx : ContextIndex) : EngineM σ Socket := do
  let handlers ← registerAll [peerClosed]
  return { session, secure := .ofIndex ctx, handlers, connected := false }

/-- Takes the handler out again. -/
def release (s : Socket) : EngineM σ Unit := deregisterAll s.handlers

/-- Makes the device keep what it receives, starts the service and binds the context. -/
def start (s : Socket) : ClientM σ Unit := do
  Ssl.setReportMode false true
  Ssl.setDataMode false
  Ssl.start
  Ssl.setSessionContext s.session s.secure.index

/-- Connects the session, and notes that only if the device says so.  A refusal leaves it as it was.
    -/
def connect (host : String) (port : Nat) : OwnerM Socket σ Unit := do
  let (s, _) ← get
  beside (Ssl.openSession s.session host port)
  modify fun (s, e) => ({ s with connected := true }, e)

/-- Closes the session.  Whatever the device answers, the socket is no longer connected. -/
def disconnect : OwnerM Socket σ Unit := do
  modify fun (s, e) => ({ s with connected := false }, e)
  let (s, _) ← get
  beside (Ssl.close s.session)

end Socket
end AtModem
