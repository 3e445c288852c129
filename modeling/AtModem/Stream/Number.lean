/-
  Picking values out of a response.

  `find` skips to a byte.  `parseInt` reads a decimal integer in two parts.  The first looks for a
  digit and skips whatever else comes before the number.  A minus sign counts only if a digit comes
  right behind it; any other byte there is put back and looked at again.  The second part takes the
  digits that follow.  The number ends at the first byte that is no digit, which is put back so that
  it can still be found, or when no byte comes in time.
-/
import AtModem.Decimal
import AtModem.Stream

namespace AtModem.Stream

variable {σ : Type}

/-- Reads up to and including the first `target`.  Every byte of what is skipped has the byte
    timeout to come, so a search through a long line may take longer than any single read. -/
def find (target : UInt8) : StreamM σ Unit := fun s =>
  match s.scan byteDeadline (fun () b => if b = target then .stop () else .more ()) () with
  | (.stop (), s) => .ok () s
  | (.more (), s) => .error .timedOut s

/-- Taking one more digit.  The fold stops at a byte that is no digit and hands it back, or when the
    number outgrows 64 bits. -/
def takeDigit (v : Nat) (b : UInt8) : Scan Nat (Option (Nat × UInt8)) :=
  if Decimal.isDigit b then
    let v := v * 10 + Decimal.digit b
    if v ≤ Decimal.maxInt then .more v else .stop none
  else .stop (some (v, b))

/-- The rest of a number whose digits so far have the value `v`.  Overflow leaves the remaining
    digits unread. -/
def parseDigits (v : Nat) : StreamM σ Nat := fun s =>
  match s.scan byteDeadline takeDigit v with
  | (.more v, s) => .ok v s
  | (.stop (some (v, b)), s) => .ok v (s.pushBack b)
  | (.stop none, s) => .error (.parse .integerOverflow) s

/-- Everything up to the first digit: whether a minus sign stood right before it, and its value.  A
    byte behind a minus sign that is no digit may be a minus sign itself, which is why it is put
    back and looked at again. -/
def parseSign (s : Stream σ) : EStateM.Result AtError (Stream σ) (Bool × Nat) :=
  match _h : s.readBy s.byteDeadline with
  | (none, t) => .error .timedOut t
  | (some b, t) =>
    if Decimal.isDigit b then .ok (false, Decimal.digit b) t
    else if b = Ascii.minus then
      match _k : t.readBy t.byteDeadline with
      | (none, u) => .error .timedOut u
      | (some c, u) =>
        if Decimal.isDigit c then .ok (true, Decimal.digit c) u
        else parseSign (u.pushBack c)
    else parseSign t
termination_by s.backlog
decreasing_by
  · have h := backlog_readBy_some _h
    have k := (keptByReading_after.pushBack_readBy _k).backlog_le
    omega
  · have h := backlog_readBy_some _h
    omega

/-- Reads a decimal integer, with a minus sign only if it stands right before the digits.
    Everything before the number is skipped, however much it is. -/
def parseInt : StreamM σ Int := do
  let (minus, v) ← parseSign
  let v ← parseDigits v
  return if minus then -(v : Int) else v

/-- Reads an integer that must be a length.  A negative number is read to its end before it is
    refused. -/
def parseLen : StreamM σ Nat := do
  let n ← parseInt
  if n < 0 then throw (.parse (.invalidLength n)) else return n.toNat

/-! ## These only read -/

namespace KeptByReading

variable {R : Stream σ → Stream σ → Prop}

theorem find (k : KeptByReading R) (target : UInt8) : Along R (Stream.find target) := by
  intro s
  have h := k.scan byteDeadline (fun () b => if b = target then .stop () else .more ()) () s
  unfold Stream.find
  split <;> rename_i e <;> rw [e] at h <;> exact h

/-- The digits are a fold too, and the byte that ends it is put back. -/
theorem parseDigits (k : KeptByReading R) (v : Nat) : Along R (Stream.parseDigits v) := by
  intro s
  have h := k.scan byteDeadline takeDigit v s
  unfold Stream.parseDigits
  split <;> rename_i e
  · rw [e] at h
    exact h
  · rename_i v' b t
    refine k.pushBack_scan e fun a c hc => ?_
    -- the fold hands back the byte at which it stopped
    simp only [takeDigit] at hc
    split at hc
    · split at hc <;> cases hc
    · cases hc
      rfl
  · rw [e] at h
    exact h

/-- The beginning of a number may put a byte back and go on from there; the proof follows the
    recursion, case by case. -/
theorem parseSign (k : KeptByReading R) : Along R (Stream.parseSign (σ := σ)) := by
  intro s
  fun_induction Stream.parseSign s with
  -- no byte comes
  | case1 s t h =>
    have := k.readBy s.byteDeadline s
    rwa [h] at this
  -- a digit without a sign
  | case2 s b t h _ =>
    have := k.readBy s.byteDeadline s
    rwa [h] at this
  -- a sign, and then no byte comes
  | case3 s t u e h _ =>
    have h₁ := k.readBy s.byteDeadline s
    have h₂ := k.readBy t.byteDeadline t
    rw [h] at h₁
    rw [e] at h₂
    exact k.trans _ _ _ h₁ h₂
  -- a sign and a digit
  | case4 s t c u e _ h _ =>
    have h₁ := k.readBy s.byteDeadline s
    have h₂ := k.readBy t.byteDeadline t
    rw [h] at h₁
    rw [e] at h₂
    exact k.trans _ _ _ h₁ h₂
  -- a sign that does not belong to a digit; the byte behind it is looked at again
  | case5 s t c u e _ h _ ih =>
    have h₁ := k.readBy s.byteDeadline s
    rw [h] at h₁
    exact k.trans _ _ _ h₁ (k.trans _ _ _ (k.pushBack_readBy e) ih)
  -- a byte that is neither
  | case6 s b t h _ _ ih =>
    have h₁ := k.readBy s.byteDeadline s
    rw [h] at h₁
    exact k.trans _ _ _ h₁ ih

theorem parseInt (k : KeptByReading R) : Along R (Stream.parseInt (σ := σ)) :=
  k.bind k.parseSign fun _ => k.bind (k.parseDigits _) fun _ => k.pure _

theorem parseLen (k : KeptByReading R) : Along R (Stream.parseLen (σ := σ)) := by
  refine k.bind k.parseInt fun n => ?_
  split
  · exact k.throw _
  · exact k.pure _

end KeptByReading
end AtModem.Stream
