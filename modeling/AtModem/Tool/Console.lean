/-
  What a subcommand works with: an engine, an output, and the ways to fail.

  Subcommands are computations on a console.  They use the exchanges of the engine and of the services
  by way of `ofEngine`, `ofClient` and `ofOwner`, which leave the output alone, and write text by way
  of `write`, which leaves the engine alone.
-/
import AtModem.Client

namespace AtModem.Tool

/-! ## Errors -/

/-- Why a subcommand has ended early.  Each kind says where it went wrong: on the way out, on the
    way in, with the device, or in what was asked. -/
inductive ToolError where
  /-- The output takes nothing more. -/
  | io (fault : IoFault)
  | unreadable (path : String) (fault : IoFault)
  /-- The text of the configuration does not describe one. -/
  | configuration
  | link (error : AtError)
  | client (error : ClientError)
  /-- There is nothing to be stored. -/
  | noCertificates
  deriving DecidableEq, Repr

/-- The text that is shown for an error; what came from below keeps its own wording. -/
def ToolError.message : ToolError → String
  | .io fault => "I/O error: " ++ fault.message
  | .unreadable path fault => "failed to read " ++ path ++ ": " ++ fault.message
  | .configuration => "invalid configuration"
  | .link error => error.message
  | .client error => error.message
  | .noCertificates => "no certificates configured under ssl.ca or ssl.client"

/-! ## The output -/

/-- The output so far.  It may be closed from the other side, and then takes nothing more.  What was
    written before that stays written. -/
structure Output where
  /-- All that was written. -/
  bytes : Bytes
  /-- Whether it refuses whatever is written from now on. -/
  closed : Bool
  deriving DecidableEq, Repr

namespace Output

/-- An output to which nothing was written yet. -/
def fresh (closed : Bool) : Output := ⟨[], closed⟩

/-- Writes bytes.  Writing none succeeds even if the output is closed. -/
def write (o : Output) (data : Bytes) : Except IoFault Output :=
  if o.closed && !data.isEmpty then .error .outputClosed
  else .ok { o with bytes := o.bytes ++ data }

end Output

/-! ## The console -/

/-- The engine and the output, which are all that a subcommand works on. -/
structure Console (σ : Type) where
  engine : Engine σ
  output : Output

/-- A computation on a console. -/
abbrev ToolM (σ : Type) := EStateM ToolError (Console σ)

namespace ToolM

variable {σ α β : Type}

/-- An exchange of the engine. -/
def ofEngine (x : EngineM σ α) : ToolM σ α := fun c =>
  match x c.engine with
  | .ok a engine => .ok a { c with engine }
  | .error err engine => .error (.link err) { c with engine }

/-- An exchange of a service. -/
def ofClient (x : ClientM σ α) : ToolM σ α := fun c =>
  match x c.engine with
  | .ok a engine => .ok a { c with engine }
  | .error err engine => .error (.client err) { c with engine }

/-- An exchange that changes its leader; the result is the leader as it is afterwards. -/
def ofOwner (b : β) (x : OwnerM β σ Unit) : ToolM σ β := fun c =>
  match x (b, c.engine) with
  | .ok () (b, engine) => .ok b { c with engine }
  | .error err (_, engine) => .error (.client err) { c with engine }

/-- Writes bytes to the output. -/
def write (data : Bytes) : ToolM σ Unit := fun c =>
  match c.output.write data with
  | .ok output => .ok () { c with output }
  | .error fault => .error (.io fault) c

/-- Writes a line of text to the output. -/
def writeLine (text : String) : ToolM σ Unit := write (Utf8.encode text ++ [Ascii.lf])

/-! ## The clock -/

/-- `d` is no earlier than `c`. -/
def NotEarlier (c d : Console σ) : Prop := c.engine.now ≤ d.engine.now

theorem NotEarlier.refl (c : Console σ) : NotEarlier c c := Nat.le_refl _

theorem NotEarlier.trans (c d f : Console σ) (h : NotEarlier c d) (k : NotEarlier d f) :
    NotEarlier c f := Nat.le_trans h k

theorem notEarlier_write (data : Bytes) : Along NotEarlier (write data : ToolM σ Unit) := by
  intro c
  unfold write
  split <;> exact Nat.le_refl _

/-- An exchange that does not turn the engine's clock back does not turn it back on the console
    either. -/
theorem notEarlier_ofEngine {x : EngineM σ α} (h : Along (fun e f => e.now ≤ f.now) x) :
    Along NotEarlier (ofEngine x) := by
  intro c
  have k := h c.engine
  unfold ofEngine
  split <;> rename_i r <;> rw [r] at k <;> exact k

end ToolM
end AtModem.Tool
