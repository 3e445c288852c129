/-
  What can go wrong between the engine and the device, by cause.

  Each error says what happened; its wording is one function, `AtError.message`.
-/

namespace AtModem

/-- Why bytes could not be moved to or from something outside the program. -/
inductive IoFault where
  /-- The link to the device refuses writes. -/
  | linkBroken
  /-- The output no longer takes anything. -/
  | outputClosed
  /-- There is no file of that name. -/
  | noSuchFile
  deriving DecidableEq, Repr

/-- The wording of a fault, as the system that reports it words it. -/
def IoFault.message : IoFault → String
  | .linkBroken => "mock write failure"
  | .outputClosed => "output closed"
  | .noSuchFile => "No such file or directory (os error 2)"

/-- Why a number in a response cannot be what the command needs.  Each carries the number as it was
    read, where there is one. -/
inductive ParseFault where
  | integerOverflow
  | invalidLength (n : Int)
  | codeOutOfRange (n : Int)
  | invalidStatus (n : Int)
  deriving DecidableEq, Repr

/-- The wording of a fault, with the number that could not be used. -/
def ParseFault.message : ParseFault → String
  | .integerOverflow => "integer overflow"
  | .invalidLength n => s!"invalid length {n}"
  | .codeOutOfRange n => s!"error code {n} out of range"
  | .invalidStatus n => s!"invalid HTTP status {n}"

/-- What an exchange of the engine can end with.  Each carries the numbers that say what happened,
    and no error carries a text of its own. -/
inductive AtError where
  /-- No terminator, pattern or byte came before the deadline. -/
  | timedOut
  /-- The device answered `ERROR`. -/
  | deviceReportedFailure
  /-- A result line carried this nonzero code. -/
  | deviceCode (code : Int)
  /-- A raw transfer moved `actual` bytes instead of `expected`.  An upload that never saw its
      prompt has moved none. -/
  | transferLengthMismatch (expected actual : Nat)
  /-- A declared length does not fit the storage offered for it. -/
  | outOfStorage (capacity declared : Nat)
  | parse (fault : ParseFault)
  /-- Every handler slot is taken. -/
  | registryFull (capacity : Nat)
  | io (fault : IoFault)
  deriving DecidableEq, Repr

namespace AtError

/-- The wording of an error.  It is made of the error alone, so two errors that are equal are shown
    alike. -/
def message : AtError → String
  | timedOut => "timeout waiting for modem response"
  | deviceReportedFailure => "modem reported failure"
  | deviceCode code => s!"modem returned error code {code}"
  | transferLengthMismatch expected actual =>
    s!"transfer length mismatch: expected {expected} bytes, got {actual}"
  | outOfStorage capacity declared =>
    s!"out of storage: capacity {capacity} bytes, declared {declared}"
  | parse fault => "failed to parse response: " ++ fault.message
  | registryFull capacity => s!"handler registry full: max {capacity} handlers"
  | io fault => "I/O error: " ++ fault.message

/-- Whether the error is a deadline that passed. -/
def isTimeout : AtError → Bool
  | timedOut => true
  | _ => false

end AtError

/-- A result code is zero for success; any other code is the device's error, provided it is a 32-bit
    integer.  So no code of a device can be lost by being cut to a smaller type. -/
def checkCode (code : Int) : Except AtError Unit :=
  if code = 0 then .ok ()
  else if -0x80000000 ≤ code ∧ code < 0x80000000 then .error (.deviceCode code)
  else .error (.parse (.codeOutOfRange code))

example : checkCode 0 = .ok () := rfl
example : checkCode 0x80000000 = .error (.parse (.codeOutOfRange 0x80000000)) := rfl
example : checkCode (-0x80000000) = .error (.deviceCode (-0x80000000)) := rfl

end AtModem
