/-
  Reading to a mark: the end of a line, or the end of a pattern.

  A line ends at a carriage return; a line feed right after it belongs to it, any other byte there is
  put back.  Only the first bytes of an overlong line are kept, but all of it is read.

  `waitFor` reads until the bytes it has read end with a pattern.  It has a window of its own, just as
  long as the pattern, so it sees nothing that was read before, and no handler runs meanwhile.
-/
import AtModem.Stream
import AtModem.Window

namespace AtModem.Stream

variable {σ : Type}

/-- The bytes of a line so far, newest first, until its carriage return. -/
def lineByte (acc : Bytes) (b : UInt8) : Scan Bytes Bytes :=
  if b = Ascii.cr then .stop acc else .more (b :: acc)

/-- Reads a line as bytes and keeps at most `max` of them.  The line is read to its end whether or
    not it is kept, so that the next reader begins behind it. -/
def readLineBytes (max : Nat) : StreamM σ Bytes := fun s =>
  match s.scan byteDeadline lineByte [] with
  | (.more _, s) => .error .timedOut s
  | (.stop acc, s) =>
    let line := acc.reverse.take max
    match s.readBy s.byteDeadline with
    | (none, s) => .ok line s
    | (some b, s) => .ok line (if b = Ascii.lf then s else s.pushBack b)

/-- Reads a line as text. -/
def readLine (max : Nat) : StreamM σ String := do
  return Utf8.decode (← readLineBytes max)

/-- One more byte of a search for `p`. -/
def searchByte (p : Bytes) (w : Window) (b : UInt8) : Scan Window Unit :=
  let w := w.push b
  if w.endsWith p then .stop () else .more w

/-- Reads until the bytes read from here on end with `p`.  The window is one of its own and begins
    empty, so bytes that were read before do not count. -/
def waitFor (p : Bytes) (timeout : Nat) : StreamM σ Unit := fun s =>
  let deadline := s.now + timeout
  match s.scan (fun _ => deadline) (searchByte p) (.ofCapacity p.length) with
  | (.stop (), s) => .ok () s
  | (.more _, s) => .error .timedOut s

/-! ## These only read -/

namespace KeptByReading

variable {R : Stream σ → Stream σ → Prop}

/-- A line is a fold and one read more, whose byte is put back if it does not belong to the line. -/
theorem readLineBytes (k : KeptByReading R) (max : Nat) : Along R (Stream.readLineBytes max) := by
  intro s
  have h := k.scan byteDeadline lineByte [] s
  unfold Stream.readLineBytes
  split <;> rename_i e <;> rw [e] at h
  · exact h
  · rename_i acc t
    have h₂ := k.readBy t.byteDeadline t
    split
    · rename_i e'
      rw [e'] at h₂
      exact k.trans _ _ _ h h₂
    · rename_i b u e'
      rw [e'] at h₂
      split
      · exact k.trans _ _ _ h h₂
      · exact k.trans _ _ _ h (k.pushBack_readBy e')

theorem readLine (k : KeptByReading R) (max : Nat) : Along R (Stream.readLine max) :=
  k.bind (k.readLineBytes max) fun _ => k.pure _

/-- A search is a fold over a window of its own, and nothing but the stream is touched by it. -/
theorem waitFor (k : KeptByReading R) (p : Bytes) (timeout : Nat) :
    Along R (Stream.waitFor p timeout) := by
  intro s
  have h := k.scan (fun _ => s.now + timeout) (searchByte p) (.ofCapacity p.length) s
  simp only [Stream.waitFor]
  split <;> rename_i e <;> rw [e] at h <;> exact h

end KeptByReading
end AtModem.Stream
