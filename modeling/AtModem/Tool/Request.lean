/-
  What is asked of the tool, as words of a command line.

  Options may stand before and after the subcommand.  An option is written in full or with its first
  letter, and its value follows it as a word of its own.
-/
import AtModem.Tool.Ask
import AtModem.Tool.Listen
import AtModem.Tool.Provision
import AtModem.Tool.Publish

namespace AtModem.Tool

/-- The subcommands. -/
inductive Job where
  | ask (command : String) (timeout : Nat) (echo : Echo)
  | provision
  | listen (seconds : Nat) (gnss : Bool)
  | publish (topic message : String) (qos : Nat)
  deriving DecidableEq, Repr

/-- What a command line asks for: where the configuration and the recording are, and what is to be
    done. -/
structure Request where
  /-- The configuration file. -/
  config : Option String
  /-- The recorded session that is played back as the device. -/
  replay : Option String
  job : Job
  deriving DecidableEq, Repr

/-- The words of a command line, sorted. -/
structure Words where
  /-- The words that are no options, newest first. -/
  plain : List String
  /-- The options with their values; a flag has none. -/
  options : List (String × Option String)

namespace Words

/-- The options with a value, by short name. -/
def valued : List (String × String) :=
  [("-c", "--config"), ("-r", "--replay"), ("-t", "--timeout"), ("-s", "--seconds"),
    ("-m", "--message"), ("-q", "--qos")]

/-- The options without a value. -/
def flags : List String := ["--hex", "--gnss"]

/-- An option by its full name.  A subcommand with a topic takes `-t` for that. -/
def fullName (w : Words) (word : String) : String :=
  if word = "-t" && w.plain.contains "publish" then "--topic"
  else (valued.lookup word).getD word

/-- Whether an option takes the next word as its value. -/
def isValued (name : String) : Bool :=
  name = "--topic" || valued.any fun v => v.2 = name

/-- Sorts words; `none` if one is an option that there is not, or lacks its value. -/
def sort? (w : Words) : List String → Option Words
  | [] => some w
  | word :: rest =>
    let name := w.fullName word
    if flags.contains name then sort? { w with options := (name, none) :: w.options } rest
    else if isValued name then
      match rest with
      | value :: rest => sort? { w with options := (name, some value) :: w.options } rest
      | [] => none
    else if word.toList.head? = some '-' then none
    else sort? { w with plain := word :: w.plain } rest

/-- Whether an option was given. -/
def has (w : Words) (name : String) : Bool := w.options.any fun o => o.1 = name

/-- The value of an option. -/
def value? (w : Words) (name : String) : Option String := (w.options.lookup name).join

/-- The value of an option that is a number. -/
def number? (w : Words) (name : String) (standard : Nat) : Option Nat :=
  match w.value? name with
  | some text => text.toNat?
  | none => some standard

end Words

/-- The job that the words name, with the values of its options; a value that is missing or no
    number makes it none. -/
def Job.ofWords? (w : Words) : Option Job := do
  match w.plain.reverse with
  | ["at", command] =>
    return .ask command (← w.number? "--timeout" 5000) (if w.has "--hex" then .hex else .text)
  | ["provision"] => return .provision
  | ["listen"] => return .listen (← w.number? "--seconds" 60) (w.has "--gnss")
  | ["publish"] =>
    return .publish (← w.value? "--topic") (← w.value? "--message") (← w.number? "--qos" 0)
  | _ => none

/-- The request that the words of a command line make. -/
def Request.ofWords? (words : List String) : Option Request := do
  let w ← Words.sort? ⟨[], []⟩ words
  return { config := w.value? "--config", replay := w.value? "--replay", job := ← Job.ofWords? w }

/-- Does what is asked for. -/
def Job.run {σ : Type} [Device σ] (config : Config) (files : Files) : Job → ToolM σ Unit
  | .ask command timeout echo => do
    let _ ← Tool.ask command timeout echo
  | .provision => do
    let _ ← Tool.provision files config.ssl
  | .listen seconds gnss => do
    let _ ← Tool.listen config (seconds * 1000) gnss true
  | .publish topic message qos => Tool.publish config topic (Utf8.encode message) qos

/-- The files a job may read. -/
def Job.paths (config : Config) : Job → List String
  | .provision =>
    (config.ssl.ca.map CertFile.path).toList ++
      match config.ssl.client with
      | some own => [own.cert.path, own.key.path, own.password.path]
      | none => []
  | _ => []

end AtModem.Tool
