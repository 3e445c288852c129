/-
  What the tool is told by its configuration file.

  Every section of the file and every entry of a section may be left out; `standard` is what then
  holds.  Only a file to be stored in a slot has to be described in full.
-/
import AtModem.Mqtt.Client

namespace AtModem.Tool

/-- A file and the slot it is stored in. -/
structure CertFile where
  path : String
  slot : String
  deriving DecidableEq, Repr

/-- The files a client proves itself with. -/
structure ClientFiles where
  cert : CertFile
  key : CertFile
  password : CertFile
  deriving DecidableEq, Repr

/-- What is stored in the device and bound to a context: the settings of the handshake, and the
    files of either side, as far as there are any. -/
structure SslConfig where
  context : ContextIndex
  settings : SslSettings
  /-- The authority's certificate. -/
  ca : Option CertFile
  client : Option ClientFiles
  deriving DecidableEq, Repr

/-- The broker, and how the client presents itself there. -/
structure MqttConfig where
  server : String
  port : Nat
  clientId : String
  useSsl : Bool
  keepaliveSecs : Nat
  cleanSession : Bool
  username : Option String
  password : Option String
  /-- The topics to listen to. -/
  subscribe : List String
  options : Mqtt.Options
  deriving DecidableEq, Repr

/-- All that the tool is told.  Each section has a standard of its own, so a file may say as little
    as it likes. -/
structure Config where
  /-- Where the modem's serial line can be reached, as `host:port`. -/
  address : String
  /-- The time allowed for the connection, in milliseconds. -/
  connectTimeout : Nat
  engine : EngineConfig
  ssl : SslConfig
  mqtt : MqttConfig
  deriving DecidableEq, Repr

/-- Nothing to be stored, on the first context. -/
def SslConfig.standard : SslConfig where
  context := 0
  settings := .standard
  ca := none
  client := none

/-- An open broker for trying things out, with no login and nothing to listen to. -/
def MqttConfig.standard : MqttConfig where
  server := "test.mosquitto.org"
  port := 1883
  clientId := "a76xx"
  useSsl := false
  keepaliveSecs := 60
  cleanSession := true
  username := none
  password := none
  subscribe := []
  options := .standard

/-- What holds where the file says nothing, and where there is no file. -/
def Config.standard : Config where
  address := "127.0.0.1:3000"
  connectTimeout := 5000
  engine := .standard
  ssl := .standard
  mqtt := .standard

/-- How the broker is connected to.  A user name without a password, or a password without a user
    name, is not sent. -/
def MqttConfig.connectParams (m : MqttConfig) : Mqtt.ConnectParams where
  keepaliveSecs := m.keepaliveSecs
  cleanSession := m.cleanSession
  credentials :=
    match m.username, m.password with
    | some user, some password => some (user, password)
    | _, _ => none

end AtModem.Tool
