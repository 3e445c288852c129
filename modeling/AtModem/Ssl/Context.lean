/-
  An SSL context and what is bound to it.

  A context remembers which slots the device has taken over: the authority's certificate, and the
  client's certificate, key and password, which count only all together.  What is bound decides the
  mode of authentication, and the mode is sent after each change.
-/
import AtModem.Ssl.Commands

namespace AtModem

/-- The handshake of a context. -/
structure SslSettings where
  /-- 0 is SSL 3.0, 1 to 3 are TLS 1.0 to 1.2, 4 is any. -/
  version : Nat
  /-- Whether certificates are accepted whatever the device's clock says. -/
  ignoreLocalTime : Bool
  /-- The time allowed for the handshake, in seconds. -/
  negotiateTime : Nat
  deriving DecidableEq, Repr

/-- The settings that are used when nothing else is asked for. -/
def SslSettings.standard : SslSettings := ⟨4, true, 300⟩

/-- The slots a client proves itself with. -/
structure ClientSlots where
  cert : String
  key : String
  password : String
  deriving DecidableEq, Repr

/-- A context and what was bound to it.  It notes a slot once the device has taken it, so what it
    notes is what the device has. -/
structure SecureContext where
  index : ContextIndex
  ca : Option String
  client : Option ClientSlots
  deriving DecidableEq, Repr

namespace SecureContext

open Engine ClientM

variable {σ : Type} [Device σ]

/-- A context with nothing bound. -/
def ofIndex (index : ContextIndex) : SecureContext := ⟨index, none, none⟩

/-- The mode that fits what is bound. -/
def authMode (c : SecureContext) : AuthMode := .forSlots c.ca.isSome c.client.isSome

/-- Sends the mode that fits.  It follows every change of the slots, so that the device and the
    context have the same mode. -/
def applyAuthMode : OwnerM SecureContext σ Unit := do
  let (c, _) ← get
  beside (Ssl.setAuthMode c.index c.authMode)

/-- Binds a certificate of the authority that is already stored.  The slot is noted as soon as the
    device has taken it, before the mode is sent. -/
def setCaCert (slot : String) : OwnerM SecureContext σ Unit := do
  let (c, _) ← get
  beside (Ssl.setCaCert c.index slot)
  modify fun (c, e) => ({ c with ca := some slot }, e)
  applyAuthMode

/-- Stores a certificate of the authority and binds it.  Whatever was in the slot before is gone. -/
def writeCaCert (cert : Bytes) (slot : String) : OwnerM SecureContext σ Unit := do
  beside (Ssl.certOverwrite cert slot)
  setCaCert slot

/-- Binds credentials that are already stored.  The slots are noted together, when the device has
    taken all three. -/
def setClient (slots : ClientSlots) : OwnerM SecureContext σ Unit := do
  let (c, _) ← get
  beside (Ssl.setClientCert c.index slots.cert)
  beside (Ssl.setClientKey c.index slots.key)
  beside (Ssl.setPassword c.index slots.password)
  modify fun (c, e) => ({ c with client := some slots }, e)
  applyAuthMode

/-- Stores credentials and binds them.  The three files go into three slots, one after the other,
    and nothing is bound before all of them are there. -/
def writeClient (cert key password : Bytes) (slots : ClientSlots) :
    OwnerM SecureContext σ Unit := do
  beside (Ssl.certOverwrite cert slots.cert)
  beside (Ssl.certOverwrite key slots.key)
  beside (Ssl.certOverwrite password slots.password)
  setClient slots

/-- Binds both sides' credentials.  The mode is sent twice, since each side sends the one that fits
    what is bound by then. -/
def setCerts (caSlot : String) (slots : ClientSlots) : OwnerM SecureContext σ Unit := do
  setCaCert caSlot
  setClient slots

/-- Sends the handshake settings. -/
def configure (c : SecureContext) (settings : SslSettings) : ClientM σ Unit := do
  Ssl.setVersion c.index settings.version
  Ssl.setIgnoreLocalTime c.index settings.ignoreLocalTime
  Ssl.setNegotiateTime c.index settings.negotiateTime

end SecureContext
end AtModem
