/-
  What a handler may do with the stream.

  A handler reads the rest of its report by asking the stream for one thing after another: a byte, a
  number, the end of a line, so and so many bytes.  What it asks for next may depend on every answer it
  has had so far, also on those that were refused.  `Reading` is such a course of questions as a tree, with
  one branch for each answer; no branch of it is infinite, so a reading always comes to an end.

  A reading says nothing of the link it will be run on.  What holds of every single question holds of it
  whatever it asks (`Stream.KeptByReading.run`), and with that of every handler there can be.
-/
import AtModem.Gnss.Sentence
import AtModem.Mqtt.Message

namespace AtModem

/-- What can be asked of a stream: everything that reads, and nothing that writes.  A handler has
    nothing but these, so it can neither write nor look at the engine. -/
inductive Query where
  /-- The time that is allowed for each byte. -/
  | byteTimeout
  /-- Whether a byte is there. -/
  | hasData
  /-- A byte, if one is there. -/
  | poll
  /-- A byte, if one comes in time. -/
  | within (timeout : Nat)
  /-- A byte that has to come. -/
  | byte
  /-- A byte that has to come and is put back if it is not wanted. -/
  | wanted (test : UInt8 → Bool)
  /-- All up to a byte. -/
  | find (target : UInt8)
  | integer
  /-- An integer that is not negative. -/
  | length
  /-- So many bytes, which are dropped. -/
  | skip (count : Nat)
  /-- So many bytes. -/
  | exactly (count : Nat)
  /-- A line, of which no more than `max` bytes are kept. -/
  | line (max : Nat)
  /-- All up to a pattern. -/
  | pattern (bytes : Bytes) (timeout : Nat)
  | field (capacity declared : Nat)
  | message
  | sentence (talker : String)

namespace Query

/-- What is answered if the stream has it. -/
abbrev Answer : Query → Type
  | byteTimeout => Nat
  | hasData => Bool
  | poll => Option UInt8
  | within _ => Option UInt8
  | byte => UInt8
  | wanted _ => UInt8
  | find _ => Unit
  | integer => Int
  | length => Nat
  | skip _ => Unit
  | exactly _ => Bytes
  | line _ => String
  | pattern _ _ => Unit
  | field _ _ => FixedField
  | message => Mqtt.Message
  | sentence _ => Gnss.Sentence

/-- A question put to a stream.  Each is answered by the one reader that there is for it. -/
def run {σ : Type} : (q : Query) → StreamM σ q.Answer
  | byteTimeout => fun s => .ok s.byteTimeout s
  | hasData => Stream.hasData
  | poll => Stream.poll
  | within timeout => Stream.readWithin timeout
  | byte => Stream.readByte
  | wanted test => Stream.readWanted test
  | find target => Stream.find target
  | integer => Stream.parseInt
  | length => Stream.parseLen
  | skip count => Stream.skip count
  | exactly count => Stream.readExact count
  | line max => Stream.readLine max
  | pattern bytes timeout => Stream.waitFor bytes timeout
  | field capacity declared => FixedField.read capacity declared
  | message => Mqtt.Message.read
  | sentence talker => Gnss.Sentence.read talker

end Query

/-- A course of questions that ends in a result or in an error.  The tree is all that is known of a
    handler, and what holds of every tree holds of every handler. -/
inductive Reading (α : Type) where
  | done (a : α)
  | failed (err : AtError)
  /-- Asks, and goes on with the answer or with the reason why there was none. -/
  | ask (q : Query) (next : Except AtError q.Answer → Reading α)

namespace Reading

variable {σ α β : Type}

/-- Asks one thing; where it is refused, that is the error. -/
def of (q : Query) : Reading q.Answer :=
  .ask q fun
    | .ok a => .done a
    | .error err => .failed err

/-- Goes on with the result of a reading.  An error before that ends both. -/
protected def bind : Reading α → (α → Reading β) → Reading β
  | .done a, f => f a
  | .failed err, _ => .failed err
  | .ask q next, f => .ask q fun answer => (next answer).bind f

instance : Monad Reading where
  pure := .done
  bind := .bind

/-- A course of questions put to a stream, each where the one before has left it; a refusal does not
    end the course, it only leads to another branch. -/
def run : Reading α → StreamM σ α
  | .done a => pure a
  | .failed err => throw err
  | .ask q next => fun s =>
    match q.run s with
    | .ok a t => (next (.ok a)).run t
    | .error err t => (next (.error err)).run t

variable {q : Query} {next : Except AtError q.Answer → Reading α} {s t : Stream σ}

/-- A question that is answered leads into the branch of its answer. -/
theorem run_ask_of_ok {a : q.Answer} (h : q.run s = .ok a t) : (ask q next).run s = (next (.ok a)).run t := by
  rw [run]
  show (match q.run s with
    | .ok a t => (next (.ok a)).run t
    | .error err t => (next (.error err)).run t) = _
  split <;> rename_i r <;> cases r.symm.trans h
  rfl

/-- One that is refused leads into the branch of the error, and the stream is where the refused read
    has left it. -/
theorem run_ask_of_error {err : AtError} (h : q.run s = .error err t) :
    (ask q next).run s = (next (.error err)).run t := by
  rw [run]
  show (match q.run s with
    | .ok a t => (next (.ok a)).run t
    | .error err t => (next (.error err)).run t) = _
  split <;> rename_i r <;> cases r.symm.trans h
  rfl

/-- A reading that asks nothing leaves the stream as it is. -/
@[simp] theorem run_pure (a : α) : (pure a : Reading α).run (σ := σ) = pure a := rfl

/-- A single question is the reader that answers it. -/
@[simp] theorem run_of (q : Query) : (of q).run (σ := σ) = q.run := by
  funext s
  cases h : q.run s with
  | ok a t => exact run_ask_of_ok h
  | error err t => exact run_ask_of_error h

/-- Readings are run one behind the other, so a reading is known by the questions it is made of. -/
@[simp] theorem run_bind (x : Reading α) (f : α → Reading β) :
    (x >>= f).run (σ := σ) = x.run >>= fun a => (f a).run := by
  induction x with
  | done a => rfl
  | failed err => rfl
  | ask q next ih =>
    funext s
    -- both sides put the same question first and go on from the same answer
    cases h : q.run s with
    | ok a t =>
      have whole : (ask q next >>= f).run s = (next (.ok a) >>= f).run t := run_ask_of_ok h
      rw [whole, ih]
      exact (bind_of_eq (run_ask_of_ok h) _).symm
    | error err t =>
      have whole : (ask q next >>= f).run s = (next (.error err) >>= f).run t := run_ask_of_error h
      rw [whole, ih]
      exact (bind_of_eq (run_ask_of_error h) _).symm

end Reading

namespace Stream.KeptByReading

variable {σ α : Type} {R : Stream σ → Stream σ → Prop}

/-- Every question is one of the readers of a stream, so this is a case for each of them and nothing
    else. -/
theorem answer (k : KeptByReading R) (q : Query) : Along R (q.run (σ := σ)) := by
  cases q with
  | byteTimeout => exact fun s => k.refl s
  | hasData => exact k.hasData
  | poll => exact k.poll
  | within timeout => exact k.readWithin timeout
  | byte => exact k.readByte
  | wanted test => exact k.readWanted test
  | find target => exact k.find target
  | integer => exact k.parseInt
  | length => exact k.parseLen
  | skip count => exact k.skip count
  | exactly count => exact k.readExact count
  | line max => exact k.readLine max
  | pattern bytes timeout => exact k.waitFor bytes timeout
  | field capacity declared => exact k.readField capacity declared
  | message => exact k.readMessage
  | sentence talker => exact k.readSentence talker

/-- What every question keeps is kept by a whole reading, whatever the answers are. -/
theorem run (k : KeptByReading R) (r : Reading α) : Along R (r.run (σ := σ)) := by
  induction r with
  | done a => exact k.pure a
  | failed err => exact k.throw err
  | ask q next ih =>
    intro s
    have asked := k.answer q s
    cases h : q.run s with
    | ok a t =>
      rw [h] at asked
      rw [Reading.run_ask_of_ok h]
      exact k.trans _ _ _ asked (ih _ t)
    | error err t =>
      rw [h] at asked
      rw [Reading.run_ask_of_error h]
      exact k.trans _ _ _ asked (ih _ t)

end Stream.KeptByReading
end AtModem
