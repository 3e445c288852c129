/-
  Storing certificates.

  The handshake settings are sent first.  Then each file named by the configuration goes into its slot
  and is bound, the authority's before the client's; the client's files are all read before the first
  of them is stored.
-/
import AtModem.Tool.Config
import AtModem.Tool.Console

namespace AtModem.Tool

/-- The files there are. -/
abbrev Files := String → Option Bytes

variable {σ : Type}

/-- The bytes of a file, or the error that names its path. -/
def readFile (files : Files) (path : String) : ToolM σ Bytes :=
  match files path with
  | some data => pure data
  | none => throw (.unreadable path .noSuchFile)

open ToolM

variable [Device σ]

/-- Stores and binds the authority's certificate. -/
def provisionCa (files : Files) (ca : CertFile) (c : SecureContext) : ToolM σ SecureContext := do
  let cert ← readFile files ca.path
  ofOwner c (SecureContext.writeCaCert cert ca.slot)

/-- Stores and binds the client's credentials. -/
def provisionClient (files : Files) (own : ClientFiles) (c : SecureContext) :
    ToolM σ SecureContext := do
  let cert ← readFile files own.cert.path
  let key ← readFile files own.key.path
  let password ← readFile files own.password.path
  ofOwner c (SecureContext.writeClient cert key password
    ⟨own.cert.slot, own.key.slot, own.password.slot⟩)

/-- Stores and binds what the configuration names; the result is the mode of authentication that
    follows from it. -/
def provision (files : Files) (config : SslConfig) : ToolM σ AuthMode := do
  if config.ca.isNone && config.client.isNone then throw .noCertificates
  let context := SecureContext.ofIndex config.context
  ofClient (context.configure config.settings)
  let context ← match config.ca with
    | some ca => provisionCa files ca context
    | none => pure context
  let context ← match config.client with
    | some own => provisionClient files own context
    | none => pure context
  return context.authMode

end AtModem.Tool
