/-
  Publishing one message: connect, publish, and disconnect whether or not that worked.
-/
import AtModem.Tool.Broker

namespace AtModem.Tool

open ToolM in
/-- Connects, publishes one message, and closes the connection whether or not that worked. -/
def publish {σ : Type} [Device σ] (config : Config) (topic : String) (message : Bytes) (qos : Nat) :
    ToolM σ Unit :=
  withClient config fun client => do
    openBroker config.mqtt client
    try
      ofClient (client.publish topic message { qos })
    finally
      closeBroker client

end AtModem.Tool
