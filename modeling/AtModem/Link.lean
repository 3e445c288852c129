/-
  The link to the device: two byte streams, a clock and a device at the far end.

  Toward the device the link keeps everything ever written.  The device hears lines: each time a byte
  completes a line (ended by CR LF), the device is given its bytes without the line end and answers.
  Raw payload bytes that end no line stay in front of the next line, unless the device is in the middle
  of taking bytes as they are; then it is given each of them at once.

  From the device, bytes wait in a queue until they are read.  An answer is queued at once, or, if
  it comes with a delay or with gaps between its bytes, put on the schedule; scheduled bytes that
  have become due join the queue when somebody looks at it.

  Nothing here runs by itself: time moves only when the reader idles (`advance`).
-/
import AtModem.Error
import AtModem.Link.Schedule

namespace AtModem

/-- An answer of the device: its bytes, the delay of the first one, and the gap between each byte
    and the next.  With neither a delay nor a gap it is there at once. -/
structure Reply where
  bytes : Bytes
  after : Nat
  gap : Nat

/-- A reply that is there at once. -/
def Reply.now (bytes : Bytes) : Reply := ⟨bytes, 0, 0⟩

/-- Anything that answers lines, with whatever state it keeps between them.  The defaults are those
    of a device that hears nothing but lines. -/
class Device (σ : Type) where
  answer : σ → Bytes → σ × Reply
  /-- Whether the next byte is taken as it is and belongs to no line. -/
  takesRaw : σ → Bool := fun _ => false
  take : σ → UInt8 → σ × Reply := fun d _ => (d, .now [])

/-- The link with everything that can be said of it at a moment: what is there to be read and what
    is on its way, what was written and how far the device has got with it, and the time. -/
structure Link (σ : Type) where
  device : σ
  /-- Bytes that can be read now, oldest first. -/
  queued : Bytes
  scheduled : Schedule
  /-- The time, in milliseconds. -/
  now : Nat
  /-- Everything written so far. -/
  written : Bytes
  /-- The bytes of the line that is not complete yet, newest first. -/
  unfinished : Bytes
  /-- Whether writes are refused. -/
  failWrites : Bool

namespace Link

variable {σ : Type}

/-- A link on which nothing has happened. -/
def ofDevice (device : σ) : Link σ := ⟨device, [], .empty, 0, [], [], false⟩

/-! ## From the device -/

/-- Lets the bytes that are due join the queue.  It is done before each look at the queue, so the
    queue is always up to date when it is looked at. -/
def deliver (l : Link σ) : Link σ :=
  match l.scheduled.due l.now with
  | [] => l
  | due => { l with queued := l.queued ++ due, scheduled := l.scheduled.after l.now }

/-- Letting the due bytes join the queue, in one equation for the two cases: if nothing is due, the
    schedule is as it was. -/
theorem deliver_eq (l : Link σ) :
    l.deliver =
      { l with
        queued := l.queued ++ l.scheduled.due l.now
        scheduled := l.scheduled.after l.now } := by
  unfold deliver
  split
  · rename_i h
    rw [h, List.append_nil, Schedule.after_of_due_eq_nil h]
  · rfl

/-- Takes the oldest byte that has arrived, if there is one. -/
def read? (l : Link σ) : Option (UInt8 × Link σ) :=
  match l.deliver.queued with
  | [] => none
  | b :: rest => some (b, { l.deliver with queued := rest })

/-- Lets `ms` milliseconds pass. -/
def advance (l : Link σ) (ms : Nat) : Link σ := { l with now := l.now + ms }

/-- Takes in an answer: at once if it has neither delay nor gaps, else by the schedule.  An answer
    may so arrive in between the bytes of an earlier one that is slower. -/
def receive (l : Link σ) (r : Reply) : Link σ :=
  if r.after = 0 ∧ r.gap = 0 then { l with queued := l.queued ++ r.bytes }
  else { l with scheduled := l.scheduled.insert (l.now + r.after) r.gap r.bytes }

/-- How many bytes are yet to be read, whether they have arrived or not. -/
def backlog (l : Link σ) : Nat := l.queued.length + l.scheduled.size

/-- A byte that has become due changes its place and not its number, so looking at the link never
    makes the backlog greater. -/
theorem backlog_deliver (l : Link σ) : l.deliver.backlog = l.backlog := by
  have := l.scheduled.size_due_add_after l.now
  simp [deliver_eq, backlog]
  omega

theorem backlog_read {l l' : Link σ} {b : UInt8} (h : l.read? = some (b, l')) :
    l'.backlog + 1 = l.backlog := by
  rw [← backlog_deliver l]
  unfold read? at h
  split at h
  · cases h
  · rename_i e
    cases h
    simp [backlog, e]
    omega

theorem now_read {l l' : Link σ} {b : UInt8} (h : l.read? = some (b, l')) : l'.now = l.now := by
  unfold read? at h
  split at h
  · cases h
  · cases h
    show l.deliver.now = l.now
    rw [deliver_eq]

/-! ## Toward the device -/

/-- The device hears one line. -/
def hear [Device σ] (l : Link σ) (line : Bytes) : Link σ :=
  let (device, reply) := Device.answer l.device line
  { l with device }.receive reply

/-- The device takes one byte as it is. -/
def take [Device σ] (l : Link σ) (b : UInt8) : Link σ :=
  let (device, reply) := Device.take l.device b
  { l with device }.receive reply

/-- A byte belongs to the line that is not complete yet, and completes it or not.  Only the two
    bytes of a line end together complete a line. -/
def extend [Device σ] (l : Link σ) (b : UInt8) : Link σ :=
  match l.unfinished, b with
  | 0x0D :: line, 0x0A => { l with unfinished := [] }.hear line.reverse
  | line, b => { l with unfinished := b :: line }

/-- A byte that was written arrives at the device. -/
def absorb [Device σ] (l : Link σ) (b : UInt8) : Link σ :=
  if Device.takesRaw l.device then l.take b else l.extend b

/-- Bytes arrive at the device one after another. -/
def absorbAll [Device σ] (l : Link σ) (data : Bytes) : Link σ := data.foldl absorb l

/-- Writes bytes.  A refused write changes nothing.  The device hears each line as it is completed,
    and may have answered before the rest is written. -/
def write [Device σ] (l : Link σ) (data : Bytes) : Except IoFault (Link σ) :=
  if l.failWrites then .error .linkBroken
  else .ok ({ l with written := l.written ++ data }.absorbAll data)

/-- What the device answers has nothing to do with what was written. -/
@[simp] theorem written_receive (l : Link σ) (r : Reply) : (l.receive r).written = l.written := by
  unfold receive
  split <;> rfl

@[simp] theorem failWrites_receive (l : Link σ) (r : Reply) :
    (l.receive r).failWrites = l.failWrites := by
  unfold receive
  split <;> rfl

section

variable [Device σ]

/-- The device may do with a byte what it likes: the record of the writing stays. -/
@[simp] theorem written_absorb (l : Link σ) (b : UInt8) : (l.absorb b).written = l.written := by
  unfold absorb
  split
  · exact written_receive _ _
  · unfold extend
    split
    · exact written_receive _ _
    · rfl

@[simp] theorem failWrites_absorb (l : Link σ) (b : UInt8) :
    (l.absorb b).failWrites = l.failWrites := by
  unfold absorb
  split
  · exact failWrites_receive _ _
  · unfold extend
    split
    · exact failWrites_receive _ _
    · rfl

/-- Nothing was written, so the device hears nothing. -/
@[simp] theorem absorbAll_nil (l : Link σ) : l.absorbAll [] = l := rfl

/-- The device takes the bytes one by one, from the first on. -/
@[simp] theorem absorbAll_cons (l : Link σ) (b : UInt8) (bs : Bytes) :
    l.absorbAll (b :: bs) = (l.absorb b).absorbAll bs := rfl

/-- What the device does with the bytes leaves the record of them alone. -/
@[simp] theorem written_absorbAll (l : Link σ) (data : Bytes) :
    (l.absorbAll data).written = l.written := by
  induction data generalizing l with
  | nil => rfl
  | cons b bs ih => rw [absorbAll_cons, ih, written_absorb]

@[simp] theorem failWrites_absorbAll (l : Link σ) (data : Bytes) :
    (l.absorbAll data).failWrites = l.failWrites := by
  induction data generalizing l with
  | nil => rfl
  | cons b bs ih => rw [absorbAll_cons, ih, failWrites_absorb]

/-- On a link that works a write succeeds: the bytes are recorded as a whole, and the device makes
    of them what it will. -/
theorem write_of_working {l : Link σ} (h : l.failWrites = false) (data : Bytes) :
    l.write data = .ok ({ l with written := l.written ++ data }.absorbAll data) := by
  unfold write
  rw [h]
  rfl

end

/-- Takes the record of what was written and forgets the start of an unfinished line. -/
def takeWritten (l : Link σ) : Bytes × Link σ :=
  (l.written, { l with written := [], unfinished := [] })

/-! ## Showing a link -/

/-- The link in one line: how many bytes wait to be read, and how many were written. -/
def describe (l : Link σ) : String :=
  "MockTransport \x7b pending: " ++ toString l.queued.length ++ ", written: "
    ++ toString l.written.length ++ " \x7d"

end Link
end AtModem
