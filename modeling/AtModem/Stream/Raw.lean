/-
  Raw bytes of a known number.

  `gather` reads up to `count` bytes and stops early when one does not come in time; skipping,
  reading into storage and reading to a new value are all that, and all report a short read as a
  mismatch between the number asked for and the number read.

  `Buffer` is storage that a caller offers: what has been put into it so far fills it from the front,
  and it is kept when a read fails half way.
-/
import AtModem.Stream

namespace AtModem

namespace Stream

variable {σ : Type}

/-- Bytes read so far, newest first, then up to `count` more. -/
def gatherOnto : Nat → Bytes → Stream σ → Bytes × Stream σ
  | 0, acc, s => (acc, s)
  | count + 1, acc, s =>
    match s.readBy s.byteDeadline with
    | (none, s) => (acc, s)
    | (some b, s) => gatherOnto count (b :: acc) s

/-- Reads `count` bytes, or as many as come, each within the byte timeout of the one before.  That
    fewer have come is no error here; it is for the caller to say what that means. -/
def gather (count : Nat) (s : Stream σ) : Bytes × Stream σ :=
  let r := s.gatherOnto count []
  (r.1.reverse, r.2)

/-- Reads a byte if one comes within `timeout`.  Nothing in time is an answer here, and no error. -/
def readWithin (timeout : Nat) : StreamM σ (Option UInt8) := fun s =>
  let (b, s) := s.readBy (s.now + timeout)
  .ok b s

/-- Reads a byte that has to come within the byte timeout. -/
def readByte : StreamM σ UInt8 := fun s =>
  match s.readBy s.byteDeadline with
  | (some b, s) => .ok b s
  | (none, s) => .error .timedOut s

/-- Reads a byte, and puts it back if it is not wanted.  So a reader can look at what comes next and
    leave it for another one. -/
def readWanted (wanted : UInt8 → Bool) : StreamM σ UInt8 := fun s =>
  match s.readBy s.byteDeadline with
  | (some b, s) => .ok b (if wanted b then s else s.pushBack b)
  | (none, s) => .error .timedOut s

/-- Reads a byte if one is there.  It neither waits nor moves the clock. -/
def poll : StreamM σ (Option UInt8) := fun s =>
  match s.tryRead with
  | some (b, s) => .ok (some b) s
  | none => .ok none s

/-- Whether a byte is there.  Looking lets what is due join the queue, and takes nothing from it. -/
def hasData : StreamM σ Bool := fun s =>
  match s.lookahead with
  | some _ => .ok true s
  | none =>
    let link := s.link.deliver
    .ok (!link.queued.isEmpty) { s with link }

/-- Reads exactly `count` bytes.  If they do not all come, those that came are gone, and the error
    says how many they were. -/
def readExact (count : Nat) : StreamM σ Bytes := fun s =>
  let (got, s) := s.gather count
  if got.length = count then .ok got s
  else .error (.transferLengthMismatch count got.length) s

/-- Discards exactly `count` bytes. -/
def skip (count : Nat) : StreamM σ Unit := do
  let _ ← readExact count

/-- The bytes that were there before only stand behind the new ones, so a gathering that goes on is
    a gathering of its own. -/
theorem gatherOnto_eq (count : Nat) (acc : Bytes) (s : Stream σ) :
    s.gatherOnto count acc = ((s.gatherOnto count []).1 ++ acc, (s.gatherOnto count []).2) := by
  induction count generalizing acc s with
  | zero => rfl
  | succ count ih =>
    unfold gatherOnto
    split
    · rfl
    · rename_i b t _
      rw [ih (b :: acc) t, ih [b] t]
      simp

theorem gather_succ (count : Nat) (s : Stream σ) :
    s.gather (count + 1) =
      match s.readBy s.byteDeadline with
      | (none, t) => ([], t)
      | (some b, t) => (b :: (t.gather count).1, (t.gather count).2) := by
  unfold gather
  rw [gatherOnto]
  cases s.readBy s.byteDeadline with
  | mk o t =>
    cases o with
    | none => rfl
    | some b =>
      simp only
      rw [gatherOnto_eq count [b] t]
      simp

/-- Nothing is asked for and nothing is read, not even looked for. -/
theorem gather_zero (s : Stream σ) : s.gather 0 = ([], s) := rfl

theorem length_gather_le (count : Nat) (s : Stream σ) : (s.gather count).1.length ≤ count := by
  induction count generalizing s with
  | zero => exact Nat.le_refl _
  | succ count ih =>
    rw [gather_succ]
    split
    · exact Nat.zero_le _
    · exact Nat.succ_le_succ (ih _)

namespace KeptByReading

variable {R : Stream σ → Stream σ → Prop}

/-- Gathering is reading byte after byte; by induction on how many there are to be. -/
theorem gather (k : KeptByReading R) (count : Nat) (s : Stream σ) : R s (s.gather count).2 := by
  induction count generalizing s with
  | zero => exact k.refl s
  | succ count ih =>
    rw [gather_succ]
    have h := k.readBy s.byteDeadline s
    split <;> rename_i e <;> rw [e] at h
    · exact h
    · exact k.trans _ _ _ h (ih _)

theorem readWithin (k : KeptByReading R) (timeout : Nat) : Along R (Stream.readWithin timeout) :=
  fun s => k.readBy (s.now + timeout) s

theorem readByte (k : KeptByReading R) : Along R (Stream.readByte (σ := σ)) := by
  intro s
  have h := k.readBy s.byteDeadline s
  unfold Stream.readByte
  split <;> rename_i e <;> rw [e] at h <;> exact h

/-- A byte that is put back if it is not wanted: the one place where a single read gives its byte
    back. -/
theorem readWanted (k : KeptByReading R) (wanted : UInt8 → Bool) :
    Along R (Stream.readWanted wanted) := by
  intro s
  have h := k.readBy s.byteDeadline s
  unfold Stream.readWanted
  split
  · rename_i b t e
    rw [e] at h
    split
    · exact h
    · exact k.pushBack_readBy e
  · rename_i t e
    rw [e] at h
    exact h

/-- A byte if there is one; otherwise nothing has happened at all. -/
theorem poll (k : KeptByReading R) : Along R (Stream.poll (σ := σ)) := by
  intro s
  unfold Stream.poll
  split
  · rename_i e
    exact k.take e
  · exact k.refl s

/-- Looking lets the bytes that are due join the queue, and takes none. -/
theorem hasData (k : KeptByReading R) : Along R (Stream.hasData (σ := σ)) := by
  intro s
  unfold Stream.hasData
  split
  · exact k.refl s
  · exact k.look s

/-- Reading a number of bytes is gathering them, with a verdict on how many there were. -/
theorem readExact (k : KeptByReading R) (count : Nat) : Along R (Stream.readExact count) := by
  intro s
  have h := k.gather count s
  show R s (endState (if _ then _ else _))
  split <;> exact h

/-- Skipping them is the same, with the bytes thrown away. -/
theorem skip (k : KeptByReading R) (count : Nat) : Along R (Stream.skip count) :=
  k.bind (k.readExact count) fun _ => k.pure _

end KeptByReading
end Stream

/-- Storage of a fixed size, filled from the front.  What it held beyond that is not part of it, as
    it is never looked at. -/
structure Buffer where
  size : Nat
  placed : Bytes

namespace Buffer

/-- A buffer in which nothing has been put. -/
def ofSize (size : Nat) : Buffer := ⟨size, []⟩

/-- How many more bytes fit. -/
def room (b : Buffer) : Nat := b.size - b.placed.length

/-- Puts bytes behind those that are there already; the caller sees to it that they fit. -/
def put (b : Buffer) (bs : Bytes) : Buffer := { b with placed := b.placed ++ bs }

/-- The storage as its owner sees it: what was placed, then what it held before. -/
def «over» (b : Buffer) (before : Bytes) : Bytes := b.placed ++ before.drop b.placed.length

/-- Reads exactly `count` bytes into a buffer.  What was read of them stays in it even when the rest
    does not come.  The count in the error is that of this read alone, whatever the buffer held
    before. -/
def fill {σ : Type} (count : Nat) : EStateM AtError (Buffer × Stream σ) Unit := fun (b, s) =>
  let (got, s) := s.gather count
  if got.length = count then .ok () (b.put got, s)
  else .error (.transferLengthMismatch count got.length) (b.put got, s)

end Buffer
end AtModem
