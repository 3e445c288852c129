/-
  Reading the link one byte at a time.

  A stream is a link together with one byte of look-ahead, the interval at which an idle link is
  polled, and the time allowed for each byte of a read.  All reads come down to one loop, `readBy`:
  poll; if there is no byte and the deadline has come, give up; otherwise idle for one step of the
  clock and poll again.  It ends because every step of the clock is at least one millisecond, and
  because there always is a deadline: times are unbounded, and a timeout that leads beyond the range of
  a real clock, with which a read would poll until a byte comes, is left out.

  Everything longer is a fold over bytes read that way (`scan`), which ends because each byte that
  is read is one fewer to come.  The number of bytes to come is `backlog`; that the operations of a
  stream never raise it and never turn the clock back is `After`, and it is what makes the loops
  built on them terminate.

  `KeptByReading` is the general form of that: a relation that holds across idling, across taking a
  byte, and across taking a byte and putting it back holds across everything that is built on them,
  and each reading function has one lemma that says so.
-/
import AtModem.Ledger
import AtModem.Link

namespace AtModem

/-- The reading end of the link, with the byte that a reader may have put back.  The ledger is a
    ghost: it records what has passed, and no reader can look at it. -/
structure Stream (σ : Type) where
  link : Link σ
  /-- A byte that was read and put back; the next read returns it. -/
  lookahead : Option UInt8
  /-- The time between polls of an idle link, in milliseconds. -/
  pollInterval : Nat
  /-- The time allowed for each byte of a raw read or a parse. -/
  byteTimeout : Nat
  /-- What has passed through. -/
  ledger : Ghost Ledger

/-- A computation on a stream.  An error leaves the stream as it was when it arose.  So a caller
    that goes on after an error goes on from the byte at which it arose. -/
abbrev StreamM (σ : Type) := EStateM AtError (Stream σ)

/-- The state in which a computation ended, well or badly. -/
def endState {ε σ α : Type} : EStateM.Result ε σ α → σ
  | .ok _ s => s
  | .error _ s => s

/-- After a success the state is the one that came with the value. -/
@[simp] theorem endState_ok {ε σ α : Type} (a : α) (s : σ) :
    endState (.ok a s : EStateM.Result ε σ α) = s := rfl

/-- After a failure it is the one in which the error arose; nothing is rolled back. -/
@[simp] theorem endState_error {ε σ α : Type} (e : ε) (s : σ) :
    endState (.error e s : EStateM.Result ε σ α) = s := rfl

/-- Where the first part of a computation ends well, the rest goes on. -/
theorem bind_of_ok {ε σ α β : Type} {x : EStateM ε σ α} {f : α → EStateM ε σ β} {a : α} {s t : σ}
    (h : x s = .ok a t) : (x >>= f) s = f a t := by
  show EStateM.bind x f s = f a t
  unfold EStateM.bind
  rw [h]

theorem bind_of_error {ε σ α β : Type} {x : EStateM ε σ α} {f : α → EStateM ε σ β} {err : ε} {s t : σ}
    (h : x s = .error err t) : (x >>= f) s = .error err t := by
  show EStateM.bind x f s = .error err t
  unfold EStateM.bind
  rw [h]

/-- Where its first part does the same, so does all of it. -/
theorem bind_of_eq {ε σ α β : Type} {x y : EStateM ε σ α} {s t : σ} (h : x s = y t)
    (f : α → EStateM ε σ β) : (x >>= f) s = (y >>= f) t := by
  show EStateM.bind x f s = EStateM.bind y f t
  unfold EStateM.bind
  rw [h]

/-- What ends well has first come through its first part. -/
theorem bind_eq_ok {ε σ α β : Type} {x : EStateM ε σ α} {f : α → EStateM ε σ β} {b : β} {s u : σ}
    (h : (x >>= f) s = .ok b u) : ∃ a t, x s = .ok a t ∧ f a t = .ok b u := by
  cases e : x s with
  | ok a t =>
    rw [bind_of_ok e] at h
    exact ⟨a, t, rfl, h⟩
  | error err t =>
    rw [bind_of_error e] at h
    cases h

theorem bind_eq_error {ε σ α β : Type} {x : EStateM ε σ α} {f : α → EStateM ε σ β} {err : ε} {s u : σ}
    (h : (x >>= f) s = .error err u) :
    x s = .error err u ∨ ∃ a t, x s = .ok a t ∧ f a t = .error err u := by
  cases r : x s with
  | ok a t =>
    rw [bind_of_ok r] at h
    exact .inr ⟨a, t, rfl, h⟩
  | error err' t =>
    rw [bind_of_error r] at h
    cases h
    exact .inl rfl

/-- However a computation ends, the state it ends in is related by `R` to the one it began in. -/
def Along {ε σ α : Type} (R : σ → σ → Prop) (x : EStateM ε σ α) : Prop := ∀ s, R s (endState (x s))

namespace Along

variable {ε σ α β : Type} {R : σ → σ → Prop}

/-- A value given out leaves the state as it is, so any reflexive relation holds. -/
protected theorem pure (refl : ∀ s, R s s) (a : α) : Along R (pure a : EStateM ε σ α) := refl

protected theorem throw (refl : ∀ s, R s s) (e : ε) : Along R (throw e : EStateM ε σ α) := refl

protected theorem get (refl : ∀ s, R s s) : Along R (get : EStateM ε σ σ) := refl

/-- A transitive relation goes through two parts, or through the first alone if that fails. -/
protected theorem bind (trans : ∀ s t u, R s t → R t u → R s u) {x : EStateM ε σ α}
    {f : α → EStateM ε σ β} (hx : Along R x) (hf : ∀ a, Along R (f a)) : Along R (x >>= f) := by
  intro s
  have h := hx s
  cases e : x s with
  | ok a t =>
    rw [e] at h
    rw [bind_of_ok e]
    exact trans _ _ _ h (hf a t)
  | error err t =>
    rw [e] at h
    rw [bind_of_error e]
    exact h

end Along

namespace Stream

variable {σ : Type}

/-- The time, in milliseconds since some beginning.  A stream reads it off its link. -/
def now (s : Stream σ) : Nat := s.link.now

/-- How far the clock moves between two polls.  Polling without a pause still takes a
    millisecond. -/
def step (s : Stream σ) : Nat := max s.pollInterval 1

/-- Time passes with every step, which is why polling comes to an end. -/
theorem step_pos (s : Stream σ) : 0 < s.step := by
  unfold step
  omega

/-- How many bytes are yet to be read, now or later. -/
def backlog (s : Stream σ) : Nat := s.lookahead.toList.length + s.link.backlog

/-- Reads a byte if there is one.  The byte that was put back goes before anything that the link
    has. -/
def tryRead (s : Stream σ) : Option (UInt8 × Stream σ) :=
  match s.lookahead with
  | some b => some (b, { s with lookahead := none, ledger := s.ledger.update (.reread b) })
  | none =>
    s.link.read?.map fun (b, link) => (b, { s with link, ledger := s.ledger.update (.pop b) })

/-- Puts a byte back, so that the next read returns it.  There is room for one; a byte that was put
    back before is lost. -/
def pushBack (b : UInt8) (s : Stream σ) : Stream σ :=
  { s with lookahead := some b, ledger := s.ledger.update (.putBack s.lookahead.isSome) }

/-- Lets the time between two polls pass. -/
def idle (s : Stream σ) : Stream σ := { s with link := s.link.advance s.step }

/-- Reads a byte, polling until `deadline`.  The link is polled at least once, however early the
    deadline.  It ends because every idle step brings the clock nearer to the deadline, and always
    takes at least a millisecond. -/
def readBy (deadline : Nat) (s : Stream σ) : Option UInt8 × Stream σ :=
  match s.tryRead with
  | some (b, s) => (some b, s)
  | none => if deadline ≤ s.now then (none, s) else readBy deadline s.idle
termination_by deadline - s.now
decreasing_by
  have := s.step_pos
  simp only [now, idle, Link.advance] at *
  omega

/-! ## The state after a read -/

/-- `t` can come after `s`: no more bytes to come, and no earlier.  Both are what termination is
    proved by: loops end because the backlog or the time to a deadline gets smaller. -/
structure After (s t : Stream σ) : Prop where
  backlog_le : t.backlog ≤ s.backlog
  now_le : s.now ≤ t.now

theorem After.refl (s : Stream σ) : After s s := ⟨Nat.le_refl _, Nat.le_refl _⟩

theorem After.trans {s t u : Stream σ} (h : After s t) (k : After t u) : After s u :=
  ⟨Nat.le_trans k.1 h.1, Nat.le_trans h.2 k.2⟩

/-- Each byte that is taken is one fewer to come, be it from the link or one that was put back. -/
theorem backlog_tryRead {s t : Stream σ} {b : UInt8} (h : s.tryRead = some (b, t)) :
    t.backlog + 1 = s.backlog := by
  unfold tryRead at h
  split at h
  · rename_i e
    cases h
    simp [backlog, e]
    omega
  · rename_i e
    simp only [Option.map_eq_some_iff, Prod.exists, Prod.mk.injEq] at h
    obtain ⟨_, l, hl, rfl, rfl⟩ := h
    have := Link.backlog_read hl
    simp [backlog, e]
    omega

theorem now_tryRead {s t : Stream σ} {b : UInt8} (h : s.tryRead = some (b, t)) : t.now = s.now := by
  unfold tryRead at h
  split at h
  · cases h
    rfl
  · simp only [Option.map_eq_some_iff, Prod.exists, Prod.mk.injEq] at h
    obtain ⟨_, l, hl, rfl, rfl⟩ := h
    exact Link.now_read hl

theorem lookahead_tryRead {s t : Stream σ} {b : UInt8} (h : s.tryRead = some (b, t)) :
    t.lookahead = none := by
  unfold tryRead at h
  split at h
  · cases h
    rfl
  · rename_i e
    simp only [Option.map_eq_some_iff, Prod.exists, Prod.mk.injEq] at h
    obtain ⟨_, l, _, rfl, rfl⟩ := h
    exact e

theorem now_le_idle (s : Stream σ) : s.now ≤ s.idle.now := Nat.le_add_right _ _

/-- A read that yields a byte leaves one fewer to come and nothing put back; one that gives up has
    reached its deadline. -/
theorem readBy_spec (deadline : Nat) (s : Stream σ) :
    s.now ≤ (s.readBy deadline).2.now ∧
      match (s.readBy deadline).1 with
      | some _ =>
        (s.readBy deadline).2.backlog + 1 = s.backlog ∧ (s.readBy deadline).2.lookahead = none
      | none =>
        (s.readBy deadline).2.backlog = s.backlog ∧ deadline ≤ (s.readBy deadline).2.now := by
  fun_induction readBy deadline s with
  | case1 s b t h =>
    exact ⟨Nat.le_of_eq (now_tryRead h).symm, backlog_tryRead h, lookahead_tryRead h⟩
  | case2 s _ h => exact ⟨Nat.le_refl _, rfl, h⟩
  | case3 s _ _ ih => exact ⟨Nat.le_trans s.now_le_idle ih.1, ih.2⟩

/-- A read that yields a byte leaves one fewer to come, however long it has polled. -/
theorem backlog_readBy_some {deadline : Nat} {s t : Stream σ} {b : UInt8}
    (h : s.readBy deadline = (some b, t)) : t.backlog + 1 = s.backlog := by
  have := (readBy_spec deadline s).2
  simp only [h] at this
  exact this.1

/-! ## Folding over bytes -/

/-- What a fold does with a byte: stop with a result, or go on from a new state.  All readers of
    more than a byte are such folds, and so what holds of folds is proved once for them. -/
inductive Scan (α β : Type) where
  | stop (result : β)
  | more (state : α)

/-- The deadline of a byte that has the byte timeout to come. -/
def byteDeadline (s : Stream σ) : Nat := s.now + s.byteTimeout

/-- Reads byte after byte, each by its own deadline, until `next` stops.  If a byte does not come in
    time, the state reached so far is returned. -/
def scan {α β : Type} (deadline : Stream σ → Nat) (next : α → UInt8 → Scan α β) (a : α)
    (s : Stream σ) : Scan α β × Stream σ :=
  match _h : s.readBy (deadline s) with
  | (none, t) => (.more a, t)
  | (some b, t) =>
    match next a b with
    | .stop r => (.stop r, t)
    | .more a => scan deadline next a t
termination_by s.backlog
decreasing_by
  have := backlog_readBy_some _h
  omega

/-! ## What reading keeps -/

/-- A relation between a stream before and after that holds across every single read.  Six facts
    about single steps carry everything that readers are built of. -/
structure KeptByReading (R : Stream σ → Stream σ → Prop) : Prop where
  refl : ∀ s, R s s
  trans : ∀ s t u, R s t → R t u → R s u
  idle : ∀ s, R s s.idle
  /-- Looking whether something has come lets the bytes that are due join the queue. -/
  look : ∀ s, R s { s with link := s.link.deliver }
  take : ∀ {s t b}, s.tryRead = some (b, t) → R s t
  /-- The byte that was just taken may be put back. -/
  putBack : ∀ {s t b}, s.tryRead = some (b, t) → R s (t.pushBack b)

namespace KeptByReading

variable {R : Stream σ → Stream σ → Prop} {α β : Type}

/-- Polling keeps what one step of it keeps, by induction along the loop. -/
theorem readBy (k : KeptByReading R) (deadline : Nat) (s : Stream σ) :
    R s (s.readBy deadline).2 := by
  fun_induction Stream.readBy deadline s with
  | case1 s b t h => exact k.take h
  | case2 s _ _ => exact k.refl s
  | case3 s _ _ ih => exact k.trans _ _ _ (k.idle s) ih

/-- The byte that a read has yielded may be put back.  This is no case of `readBy`, because the byte
    that is put back has to be the one that was taken last. -/
theorem pushBack_readBy (k : KeptByReading R) {deadline : Nat} {s t : Stream σ} {b : UInt8}
    (h : s.readBy deadline = (some b, t)) : R s (t.pushBack b) := by
  fun_induction Stream.readBy deadline s with
  | case1 s c u e =>
    cases h
    exact k.putBack e
  | case2 s _ _ => cases h
  | case3 s _ _ ih => exact k.trans _ _ _ (k.idle s) (ih h)

/-- A fold keeps what its reads keep, wherever it stops. -/
theorem scan (k : KeptByReading R) (deadline : Stream σ → Nat) (next : α → UInt8 → Scan α β) (a : α)
    (s : Stream σ) : R s (s.scan deadline next a).2 := by
  fun_induction Stream.scan deadline next a s with
  | case1 a s t h =>
    have := k.readBy (deadline s) s
    rwa [h] at this
  | case2 a s b t h r _ =>
    have := k.readBy (deadline s) s
    rwa [h] at this
  | case3 a s b t h a' _ ih =>
    have := k.readBy (deadline s) s
    rw [h] at this
    exact k.trans _ _ _ this ih

/-- A fold that stopped did so at the byte it read last, so that byte may be put back. -/
theorem pushBack_scan (k : KeptByReading R) {deadline : Stream σ → Nat}
    {next : α → UInt8 → Scan α β} {a : α} {s t : Stream σ} {r : β}
    (h : s.scan deadline next a = (.stop r, t)) {b : UInt8}
    (last : ∀ a c, next a c = .stop r → c = b) : R s (t.pushBack b) := by
  fun_induction Stream.scan deadline next a s with
  | case1 a s t' _ => cases h
  | case2 a s c t' e r' hr =>
    cases h
    obtain rfl := last a c hr
    exact k.pushBack_readBy e
  | case3 a s c t' e a' _ ih =>
    have := k.readBy (deadline s) s
    rw [e] at this
    exact k.trans _ _ _ this (ih h)

protected theorem pure (k : KeptByReading R) (a : α) : Along R (pure a : StreamM σ α) :=
  Along.pure k.refl a

protected theorem throw (k : KeptByReading R) (e : AtError) : Along R (throw e : StreamM σ α) :=
  Along.throw k.refl e

protected theorem get (k : KeptByReading R) : Along R (get : StreamM σ (Stream σ)) :=
  Along.get k.refl

protected theorem bind (k : KeptByReading R) {x : StreamM σ α} {f : α → StreamM σ β}
    (hx : Along R x) (hf : ∀ a, Along R (f a)) : Along R (x >>= f) :=
  Along.bind k.trans hx hf

end KeptByReading

/-- Reading leaves no more bytes to come than before, and no earlier time. -/
theorem keptByReading_after : KeptByReading (After (σ := σ)) where
  refl := After.refl
  trans _ _ _ := After.trans
  idle s := ⟨Nat.le_refl _, s.now_le_idle⟩
  look s := by
    constructor
    · have := s.link.backlog_deliver
      simp only [backlog, this, Nat.le_refl]
    · simp only [now, Link.deliver_eq, Nat.le_refl]
  take h := ⟨Nat.le_of_lt (by have := backlog_tryRead h; omega), Nat.le_of_eq (now_tryRead h).symm⟩
  putBack {s t b} h := by
    refine ⟨?_, Nat.le_of_eq (now_tryRead h).symm⟩
    have e := backlog_tryRead h
    have l := lookahead_tryRead h
    simp only [backlog, pushBack, l, Option.toList] at e ⊢
    simp only [List.length_nil, List.length_singleton] at e ⊢
    omega

end Stream
end AtModem
