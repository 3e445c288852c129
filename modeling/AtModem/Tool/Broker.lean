/-
  A connection to the broker, as long as a subcommand needs it.

  The client is lent to whoever uses it and its handlers are taken out again whatever happens.
  Opening and closing are separate: a connection is closed as well as that can be done, and what goes
  wrong then is not heard of.
-/
import AtModem.Tool.Config
import AtModem.Tool.Console

namespace AtModem.Tool

open ToolM

variable {σ α : Type} [Device σ]

/-- The time the broker has to acknowledge the end of a connection, in seconds. -/
def disconnectSecs : Nat := 10

/-- Lends out the client that a configuration describes. -/
def withClient (config : Config) (use : Mqtt.Client → ToolM σ α) : ToolM σ α := do
  let client ← ofClient (.ofEngine
    (Mqtt.Client.create config.mqtt.clientId config.mqtt.useSsl config.mqtt.options
      config.ssl.context))
  try
    use client
  finally
    ofEngine client.release

/-- Starts the service and connects to the broker. -/
def openBroker (config : MqttConfig) (client : Mqtt.Client) : ToolM σ Unit := do
  ofClient client.start
  ofClient (client.connect config.server config.port config.connectParams none)

/-- An exchange whose failure is of no interest. -/
def attempt (x : ClientM σ Unit) : ToolM σ Unit := do
  try ofClient x catch _ => pure ()

/-- Disconnects and stops the service. -/
def closeBroker (client : Mqtt.Client) : ToolM σ Unit := do
  attempt (client.disconnect disconnectSecs)
  attempt client.stop

end AtModem.Tool
