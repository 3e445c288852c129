/-
  The command line.

  A recorded session is played back as the device: all its bytes are there from the start, and what
  is written to it is dropped.
-/
import AtModem.Link.Script
import AtModem.Tool.Config.Reading
import AtModem.Tool.Request

namespace AtModem.Tool

/-- The text that is shown for words that make no request. -/
def usage : String :=
  "usage: [-c CONFIG] [-r RECORDING] COMMAND\n"
    ++ "commands:\n"
    ++ "  at COMMAND [-t MILLISECONDS] [--hex]\n"
    ++ "  provision\n"
    ++ "  listen [-s SECONDS] [--gnss]\n"
    ++ "  publish -t TOPIC -m MESSAGE [-q QOS]"

/-- The bytes of a file, if it can be read. -/
def bytesOfFile (path : String) : IO (Option Bytes) := do
  try
    return some (← IO.FS.readBinFile path).toList
  catch _ =>
    return none

/-- The files at some paths, read beforehand. -/
def filesAt : List String → IO Files
  | [] => return fun _ => none
  | path :: paths => do
    let data ← bytesOfFile path
    let files ← filesAt paths
    return fun p => if p = path then data else files p

/-- The configuration that is asked for. -/
def loadConfig : Option String → IO (Except ToolError Config)
  | none => return .ok .standard
  | some path => do
    match ← bytesOfFile path with
    | none => return .error (.unreadable path .noSuchFile)
    | some data =>
      match Config.ofYaml? (Utf8.decode data) with
      | some config => return .ok config
      | none => return .error .configuration

/-- Does a request and prints what comes of it. -/
def serve (request : Request) : IO (Except ToolError Unit) := do
  match ← loadConfig request.config with
  | .error err => return .error err
  | .ok config =>
    let recording ← match request.replay with
      | some path => bytesOfFile path
      | none => pure none
    let link := { Link.ofDevice Script.silent with queued := recording.getD [] }
    let console : Console Script := ⟨.ofLink config.engine link, .fresh false⟩
    let files ← filesAt (request.job.paths config)
    let out ← IO.getStdout
    match request.job.run config files console with
    | .ok () c => do
      out.write ⟨c.output.bytes.toArray⟩
      return .ok ()
    | .error err c => do
      out.write ⟨c.output.bytes.toArray⟩
      return .error err

end AtModem.Tool

open AtModem.Tool in
def main (words : List String) : IO UInt32 := do
  match Request.ofWords? words with
  | none => do
    IO.eprintln usage
    return 2
  | some request => do
    match ← serve request with
    | .ok () => return 0
    | .error err => do
      IO.eprintln err.message
      return 1
