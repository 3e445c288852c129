/-
  Reading a configuration file.

  A section is a mapping, or nothing at all.  Its keys are taken as they are written; one that is not
  known is passed over, and a known one may stand only once.  What an entry may hold depends on its
  key: a text is any scalar, a number and a truth value are plain scalars of that form, and an entry
  that may be absent is absent if it is null.

  Whatever breaks one of these rules makes the whole file unreadable.
-/
import AtModem.Tool.Config
import AtModem.Yaml.Node

namespace AtModem.Tool

open Yaml (Node Scalar)

/-! ## Entries -/

/-- The entries of a section, by key. -/
abbrev Section := List (String × Node)

namespace Section

/-- A key is any scalar, taken as the text that stands there; a collection is no key. -/
def key? : Node → Option String
  | .scalar s => some s.text
  | _ => none

/-- A node as a section: a mapping whose keys are scalars, or a scalar that was left out, which is a
    section without entries. -/
def ofNode? : Node → Option Section
  | .map entries => entries.mapM fun (k, v) => (key? k).map (·, v)
  | .scalar s => if s.isBlank then some [] else none
  | .seq _ => none

/-- The entry of a key: nothing if there is none, `none` if there are several. -/
def entry? (s : Section) (key : String) : Option (Option Node) :=
  match s.filter fun e => e.1 = key with
  | [] => some none
  | [(_, v)] => some (some v)
  | _ => none

/-- What an entry says, or `standard` where it is left out. -/
def read? {α : Type} (s : Section) (key : String) (standard : α) (read : Node → Option α) :
    Option α :=
  match s.entry? key with
  | some none => some standard
  | some (some v) => read v
  | none => none

/-- What an entry says that may not be left out. -/
def need? {α : Type} (s : Section) (key : String) (read : Node → Option α) : Option α :=
  match s.entry? key with
  | some (some v) => read v
  | _ => none

end Section

/-! ## Values -/

/-- A text is any scalar, also one that looks like a number. -/
def text? : Node → Option String
  | .scalar s => some s.text
  | _ => none

/-- A number below `bound`. -/
def below? (bound : Nat) : Node → Option Nat
  | .scalar s => s.nat?.filter (· < bound)
  | _ => none

/-- A number of eight bits. -/
def byte? (n : Node) : Option UInt8 := (below? 0x100 n).map Nat.toUInt8

/-- A number of sixteen bits. -/
def short? : Node → Option Nat := below? 0x10000

/-- A number of sixty-four bits. -/
def long? : Node → Option Nat := below? 0x10000000000000000

/-- A truth value is a plain scalar that says so; a quoted one is text. -/
def bool? : Node → Option Bool
  | .scalar s => s.bool?
  | _ => none

/-- A value that may be null. -/
def orNull? {α : Type} (read : Node → Option α) : Node → Option (Option α)
  | .scalar s => if s.isNull then some none else (read (.scalar s)).map some
  | n => (read n).map some

/-- A list of texts, or nothing at all, which is a list without any. -/
def texts? : Node → Option (List String)
  | .seq items => items.mapM text?
  | .scalar s => if s.isBlank then some [] else none
  | .map _ => none

/-! ## Sections -/

/-- The measures of the engine.  Each entry that is left out has its standard value. -/
def engine? (n : Node) : Option EngineConfig := do
  let s ← Section.ofNode? n
  let d := EngineConfig.standard
  return {
    windowCapacity := ← s.read? "window_capacity" d.windowCapacity long?
    maxHandlers := ← s.read? "max_handlers" d.maxHandlers long?
    urcQueueCapacity := ← s.read? "urc_queue_capacity" d.urcQueueCapacity long?
    pollInterval := ← s.read? "poll_interval_ms" d.pollInterval long?
    defaultTimeout := ← s.read? "default_timeout_ms" d.defaultTimeout long?
    byteTimeout := ← s.read? "byte_timeout_ms" d.byteTimeout long?
    maxDownload := ← s.read? "max_download_len" d.maxDownload long? }

/-- The settings of the handshake. -/
def settings? (n : Node) : Option SslSettings := do
  let s ← Section.ofNode? n
  let d := SslSettings.standard
  return {
    version := ← s.read? "version" d.version (below? 0x100)
    ignoreLocalTime := ← s.read? "ignore_local_time" d.ignoreLocalTime bool?
    negotiateTime := ← s.read? "negotiate_time" d.negotiateTime short? }

/-- A file and its slot; neither may be left out. -/
def certFile? (n : Node) : Option CertFile := do
  let s ← Section.ofNode? n
  return { path := ← s.need? "path" text?, slot := ← s.need? "slot" text? }

/-- The three files of a client; a client that proves itself needs all of them. -/
def clientFiles? (n : Node) : Option ClientFiles := do
  let s ← Section.ofNode? n
  return {
    cert := ← s.need? "cert" certFile?
    key := ← s.need? "key" certFile?
    password := ← s.need? "password" certFile? }

/-- The section on certificates.  Each side may be left out or be null, and neither is then
    stored. -/
def ssl? (n : Node) : Option SslConfig := do
  let s ← Section.ofNode? n
  let d := SslConfig.standard
  return {
    context := ← s.read? "context" d.context byte?
    settings := ← s.read? "settings" d.settings settings?
    ca := ← s.read? "ca" d.ca (orNull? certFile?)
    client := ← s.read? "client" d.client (orNull? clientFiles?) }

/-! ## The client's options

They stand among the entries of the section on the broker.  Every entry there that is not one of the
broker's own is looked at, whatever its key.  It may not hold an integer too wide for 64 bits, where
an integer too wide for 128 bits is a text again, and its collections may not lie too deep inside one
another. -/

/-- The keys of the broker's own entries. -/
def brokerKeys : List String :=
  ["server", "port", "client_id", "use_ssl", "keepalive_secs", "clean_session", "username",
    "password", "subscribe"]

/-- Whether a scalar is an integer between 64 and 128 bits wide. -/
def isWideInt (s : Scalar) : Bool :=
  match s.int? with
  | some n =>
    (Int.pow 2 64 ≤ n && n < Int.pow 2 128) || (n < -Int.pow 2 63 && -Int.pow 2 127 ≤ n)
  | none => false

mutual

/-- Whether there is no such integer in a value, and no collection inside of more than `room`. -/
def isModest (room : Nat) : Node → Bool
  | .scalar s => !isWideInt s
  | .seq items => room != 0 && areModest (room - 1) items
  | .map entries => room != 0 && areModestPairs (room - 1) entries

/-- The same of every item of a sequence. -/
def areModest (room : Nat) : List Node → Bool
  | [] => true
  | n :: ns => isModest room n && areModest room ns

/-- The same of every key and every value of a mapping. -/
def areModestPairs (room : Nat) : List (Node × Node) → Bool
  | [] => true
  | (k, v) :: es => isModest room k && isModest room v && areModestPairs room es

end

/-- How many collections may lie inside one another in an entry.  The file and the section around it
    are two more. -/
def entryRoom : Nat := 128 - 2

/-- A number below `bound`, which may be written as minus zero. -/
def signedBelow? (bound : Nat) : Node → Option Nat
  | .scalar s => (s.int?.bind fun n => if 0 ≤ n then some n.toNat else none).filter (· < bound)
  | _ => none

/-- The policy that a key stands for, by its name or by its number. -/
def policyOfKey? (s : Scalar) : Option OverflowPolicy :=
  match s.nat? with
  | some n => [.dropNewest, .dropOldest][n]?
  | none => OverflowPolicy.ofName? s.text

/-- A policy is a name, or a mapping of one key to nothing. -/
def policy? : Node → Option OverflowPolicy
  | .scalar s => OverflowPolicy.ofName? s.text
  | .map [(.scalar s, .scalar v)] => if v.isNull then policyOfKey? s else none
  | .map [(.scalar s, .map [])] => policyOfKey? s
  | _ => none

/-- The options of the client, out of the entries that are not the broker's own. -/
def options? (s : Section) : Option Mqtt.Options := do
  let s : Section := s.filter fun e => !brokerKeys.contains e.1
  let d := Mqtt.Options.standard
  if !s.all fun e => isModest entryRoom e.2 then none
  return {
    client := ← s.read? "client_index" d.client fun n => (signedBelow? 0x100 n).map Nat.toUInt8
    session := ← s.read? "session_id" d.session fun n => (signedBelow? 0x100 n).map Nat.toUInt8
    inboxCapacity := ← s.read? "inbox_capacity" d.inboxCapacity (signedBelow? 0x10000000000000000)
    inboxPolicy := ← s.read? "inbox_policy" d.inboxPolicy policy? }

/-- The section on the broker, with the options of the client among its entries. -/
def mqtt? (n : Node) : Option MqttConfig := do
  let s ← Section.ofNode? n
  let d := MqttConfig.standard
  return {
    server := ← s.read? "server" d.server text?
    port := ← s.read? "port" d.port short?
    clientId := ← s.read? "client_id" d.clientId text?
    useSsl := ← s.read? "use_ssl" d.useSsl bool?
    keepaliveSecs := ← s.read? "keepalive_secs" d.keepaliveSecs short?
    cleanSession := ← s.read? "clean_session" d.cleanSession bool?
    username := ← s.read? "username" d.username (orNull? text?)
    password := ← s.read? "password" d.password (orNull? text?)
    subscribe := ← s.read? "subscribe" d.subscribe texts?
    options := ← options? s }

/-! ## The file -/

/-- The whole file, section by section. -/
def Config.ofNode? (n : Node) : Option Config := do
  let s ← Section.ofNode? n
  let d := Config.standard
  return {
    address := ← s.read? "address" d.address text?
    connectTimeout := ← s.read? "connect_timeout_ms" d.connectTimeout long?
    engine := ← s.read? "engine" d.engine engine?
    ssl := ← s.read? "ssl" d.ssl ssl?
    mqtt := ← s.read? "mqtt" d.mqtt mqtt? }

/-- The configuration that a text describes; one without a document is the standard one. -/
def Config.ofYaml? (text : String) : Option Config := do
  match ← Node.ofText? text with
  | none => some .standard
  | some n => Config.ofNode? n

end AtModem.Tool
