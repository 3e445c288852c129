/-
  Reading what is already there.

  When the input has arrived, the time allowed for a byte does not matter: a read never idles, and what
  it yields depends on the bytes alone.  There are two ways to say which bytes those are.  `Holds origin
  bs s` says that `s` is the stream `origin` with the bytes `bs` to read and nothing on its way; `Present
  time rest bs s` says that `bs` have arrived and that `rest` comes behind them, now or later.  Where they
  lie, in the queue or one of them put back, makes no difference.  All that matters of either is that a
  read takes the first of the bytes and that a byte which is put back is the first again (`Serves`).

  `Reads x a before after` says that the computation `x` takes a stream with `before` to read, in any
  such way, to one with `after` and yields `a`.  Each reading function has one lemma of this form, and
  longer ones are put together from them by `Reads.bind`.
-/
import AtModem.Mqtt.Message
import AtModem.Gnss.Sentence
import AtModem.Proofs.Arrival
import AtModem.Proofs.Window

namespace AtModem.Stream

variable {σ α β : Type}

/-- `s` is `origin` with just these bytes to read: nothing is on its way, and all else is as it was.
    So the stream after a computation is known from its beginning and from what is left. -/
structure Holds (origin : Stream σ) (bs : Bytes) (s : Stream σ) : Prop where
  quiet : origin.link.scheduled.arrivals = []
  bytes : s.lookahead.toList ++ s.link.queued = bs
  same : s = { origin with
    lookahead := s.lookahead
    link := { origin.link with queued := s.link.queued }
    ledger := s.ledger }

/-! ## Single bytes -/

/-- Nothing is on its way to a stream that holds its bytes. -/
theorem Holds.scheduled {origin s : Stream σ} {bs : Bytes} (h : Holds origin bs s) :
    s.link.scheduled.arrivals = [] := by
  rw [h.same]
  exact h.quiet

/-- All that is to be read is what the stream holds. -/
theorem Holds.unread {origin s : Stream σ} {bs : Bytes} (h : Holds origin bs s) : s.unread = bs := by
  rw [Stream.unread, Schedule.bytes, h.scheduled, List.map_nil, List.append_nil, h.bytes]

/-- Looking at the link changes nothing, since nothing is due. -/
theorem Holds.deliver {origin s : Stream σ} {bs : Bytes} (h : Holds origin bs s) :
    s.link.deliver = s.link := by
  have d : s.link.scheduled.due s.link.now = [] := by
    rw [Schedule.due, h.scheduled]
    rfl
  unfold Link.deliver
  rw [d]

/-- The first of the bytes is taken, the others are held, and no byte is put back any more.  This is
    what a read does on such a stream, and with putting back it is all that a reader can do. -/
theorem Holds.tryRead_cons {origin s : Stream σ} {b : UInt8} {bs : Bytes}
    (h : Holds origin (b :: bs) s) :
    ∃ t, s.tryRead = some (b, t) ∧ Holds origin bs t ∧ t.lookahead = none := by
  unfold tryRead
  cases l : s.lookahead with
  | some c =>
    -- the byte that was put back is the first of them
    have e := h.bytes
    rw [l] at e
    obtain ⟨rfl, rest⟩ := List.cons.inj e
    refine ⟨_, rfl, ⟨h.quiet, rest, ?_⟩, rfl⟩
    have same := h.same
    rw [same]
  | none =>
    -- there is none, so the first byte is the first on the link
    have e : s.link.queued = b :: bs := by
      have e := h.bytes
      rwa [l] at e
    have r : s.link.read? = some (b, { s.link with queued := bs }) := by
      unfold Link.read?
      rw [h.deliver, e]
    refine ⟨{ s with
      lookahead := none
      link := { s.link with queued := bs }
      ledger := s.ledger.update (.pop b) }, by rw [r]; rfl, ⟨h.quiet, rfl, ?_⟩, rfl⟩
    have same := h.same
    rw [same]

/-- A byte that is put back is the first again.  There must not be one already, since there is room
    for one only. -/
theorem Holds.pushBack {origin s : Stream σ} {bs : Bytes} (h : Holds origin bs s)
    (l : s.lookahead = none) (b : UInt8) : Holds origin (b :: bs) (s.pushBack b) := by
  have e := h.bytes
  rw [l] at e
  refine ⟨h.quiet, ?_, ?_⟩
  · show b :: s.link.queued = b :: bs
    rw [show s.link.queued = bs from e]
  · have same := h.same
    rw [same]
    rfl

/-- `bs` have arrived by this time, which it is now, and `rest` comes behind them.  Unlike `Holds`
    it allows for more to be on its way, at the price of holding the clock still. -/
structure Present (time : Nat) (rest bs : Bytes) (s : Stream σ) : Prop where
  now : s.now = time
  arrived : bs <+: s.arrivedBy time
  unread : s.unread = bs ++ rest

/-- The first of the bytes that have arrived is taken, whatever else is on its way.  What comes
    later stays behind the bytes that are there, so it is not reached before they are read. -/
theorem Present.tryRead_cons {time : Nat} {s : Stream σ} {b : UInt8} {rest bs : Bytes}
    (h : Present time rest (b :: bs) s) :
    ∃ t, s.tryRead = some (b, t) ∧ Present time rest bs t ∧ t.lookahead = none := by
  cases r : s.tryRead with
  | none =>
    -- what has arrived by now is not empty, so a read cannot find nothing
    have nothing := arrivedBy_of_tryRead r
    rw [h.now] at nothing
    have arrived := h.arrived
    rw [nothing] at arrived
    cases List.prefix_nil.mp arrived
  | some p =>
    obtain ⟨c, t⟩ := p
    -- the byte that was read is the first of what there is to read
    have took := took_tryRead r
    have now : t.now = time := (now_tryRead r).trans h.now
    have unread := h.unread
    have arrived := h.arrived
    rw [took.unread] at unread
    rw [took.arrivedBy time (Nat.le_of_eq now)] at arrived
    obtain ⟨rfl, others⟩ := List.cons.inj unread
    exact ⟨t, rfl, ⟨now, (List.cons_prefix_cons.mp arrived).2, others⟩, took.lookahead⟩

theorem Present.pushBack {time : Nat} {s : Stream σ} {rest bs : Bytes} (h : Present time rest bs s)
    (l : s.lookahead = none) (b : UInt8) : Present time rest (b :: bs) (s.pushBack b) := by
  refine ⟨h.now, ?_, ?_⟩
  · rw [arrivedBy_pushBack l]
    exact List.cons_prefix_cons.mpr ⟨rfl, h.arrived⟩
  · rw [unread_pushBack l, h.unread]
    rfl

/-- A way to say which bytes are there to read: a read takes the first of them, and a byte that is
    put back is the first again.  A reader that is specified for all such ways is specified for
    `Holds` and for `Present` at once. -/
structure Serves (P : Bytes → Stream σ → Prop) : Prop where
  tryRead_cons : ∀ {s b bs}, P (b :: bs) s →
    ∃ t, s.tryRead = some (b, t) ∧ P bs t ∧ t.lookahead = none
  pushBack : ∀ {s bs}, P bs s → s.lookahead = none → ∀ b, P (b :: bs) (s.pushBack b)

/-- A stream that holds its bytes serves them in order. -/
theorem serves_holds (origin : Stream σ) : Serves (Holds origin) :=
  ⟨Holds.tryRead_cons, Holds.pushBack⟩

/-- A stream on which they have arrived does too, and what comes later does not get in between. -/
theorem serves_present (time : Nat) (rest : Bytes) : Serves (Present (σ := σ) time rest) :=
  ⟨Present.tryRead_cons, Present.pushBack⟩

/-- A read takes the first byte at once, so its deadline does not matter. -/
theorem Serves.readBy {P : Bytes → Stream σ → Prop} (serves : Serves P) {s : Stream σ} {b : UInt8}
    {bs : Bytes} (h : P (b :: bs) s) (deadline : Nat) :
    ∃ t, s.readBy deadline = (some b, t) ∧ P bs t ∧ t.lookahead = none := by
  obtain ⟨t, r, k, l⟩ := serves.tryRead_cons h
  refine ⟨t, ?_, k, l⟩
  unfold Stream.readBy
  rw [r]

theorem Holds.readBy {origin s : Stream σ} {b : UInt8} {bs : Bytes} (h : Holds origin (b :: bs) s)
    (deadline : Nat) :
    ∃ t, s.readBy deadline = (some b, t) ∧ Holds origin bs t ∧ t.lookahead = none :=
  (serves_holds origin).readBy h deadline

/-! ## Computations -/

/-- The computation yields `a` on every stream with `before` to read, and leaves it with `after`.
    What one reader leaves is what the next one begins with, so the readers of a line are put
    together from those of its parts. -/
def Reads (x : StreamM σ α) (a : α) (before after : Bytes) : Prop :=
  ∀ P, Serves P → ∀ s, P before s → ∃ t, x s = .ok a t ∧ P after t

namespace Reads

protected theorem pure (a : α) (bs : Bytes) : Reads (pure a : StreamM σ α) a bs bs :=
  fun _ _ s h => ⟨s, rfl, h⟩

/-- Two readers, one behind the other: what the first one leaves is what the second one finds. -/
protected theorem bind {x : StreamM σ α} {f : α → StreamM σ β} {a : α} {b : β}
    {before between after : Bytes} (hx : Reads x a before between)
    (hf : Reads (f a) b between after) : Reads (x >>= f) b before after := by
  intro P serves s h
  obtain ⟨t, e, k⟩ := hx P serves s h
  obtain ⟨u, e', m⟩ := hf P serves t k
  exact ⟨u, (bind_of_ok e).trans e', m⟩

/-- What is learned about the stream itself does not matter, if the rest reads the same whatever it
    is. -/
protected theorem get {f : Stream σ → StreamM σ α} {a : α} {before after : Bytes}
    (h : ∀ s, Reads (f s) a before after) : Reads (get >>= f) a before after :=
  fun P serves s k => h s P serves s k

end Reads

/-! ### Folds -/

/-- A fold over bytes that are there: its result, and the bytes behind the one at which it stops.
    It is the reference for every fold over a stream: it sees bytes and no times. -/
def consume (next : α → UInt8 → Scan α β) : α → Bytes → Option (β × Bytes)
  | _, [] => none
  | a, b :: bs =>
    match next a b with
    | .stop r => some (r, bs)
    | .more a => consume next a bs

/-- A fold over a stream that serves its bytes is the fold over these bytes as a list (`consume`),
    so that what it stops at can be found out without any stream. -/
theorem Serves.scan {P : Bytes → Stream σ → Prop} (serves : Serves P) {next : α → UInt8 → Scan α β}
    {a : α} {before after : Bytes} {r : β} (e : consume next a before = some (r, after)) {s : Stream σ}
    (h : P before s) (deadline : Stream σ → Nat) :
    ∃ t, s.scan deadline next a = (.stop r, t) ∧ P after t ∧ t.lookahead = none := by
  -- on the bytes that are there; the fold cannot run out of them, since it stops
  induction before generalizing a s with
  | nil => cases e
  | cons b bs ih =>
    obtain ⟨t, g, k, l⟩ := serves.readBy h (deadline s)
    unfold Stream.scan
    rw [g]
    rw [consume] at e
    dsimp only
    cases n : next a b with
    | stop r' =>
      rw [n] at e
      cases e
      exact ⟨t, rfl, k, l⟩
    | more a' =>
      rw [n] at e
      exact ih e k

/-- A fold goes on over bytes at which it does not stop, and then begins the rest in the state that
    they have led to. -/
theorem consume_append {next : α → UInt8 → Scan α β} (step : α → UInt8 → α) {a : α} {bs : Bytes}
    (more : ∀ before b after, bs = before ++ b :: after →
      next (before.foldl step a) b = .more ((before ++ [b]).foldl step a)) (rest : Bytes) :
    consume next a (bs ++ rest) = consume next (bs.foldl step a) rest := by
  induction bs generalizing a with
  | nil => rfl
  | cons b bs ih =>
    rw [List.cons_append, consume, show next a b = .more (step a b) from more [] b bs rfl]
    refine ih fun before c after h => ?_
    exact more (b :: before) c after (by rw [h]; rfl)

/-! ### Numbers -/

/-- A search takes all up to the first such byte, and that byte.  By induction on the bytes before
    it, each of which is passed over. -/
theorem reads_find {target : UInt8} {before : Bytes} (h : target ∉ before) (after : Bytes) :
    Reads (find (σ := σ) target) () (before ++ target :: after) after := by
  intro P serves s k
  have e : consume (fun () b => if b = target then Scan.stop () else .more ()) ()
      (before ++ target :: after) = some ((), after) := by
    rw [consume_append fun _ _ => ()]
    · simp [consume]
    · rintro pre b post rfl
      have ne : b ≠ target := fun e => h (by simp [e])
      simp [ne]
  obtain ⟨t, r, m, -⟩ := serves.scan e k byteDeadline
  refine ⟨t, ?_, m⟩
  unfold find
  rw [r]

/-- The digits of a number are read to the byte behind them, as long as the number is not too great.
    The byte that ends it has been taken by then, and is put back. -/
theorem reads_parseDigits {v : Nat} {ds : Bytes} (digits : ∀ d ∈ ds, Decimal.isDigit d = true)
    (fits : Decimal.extend v ds ≤ Decimal.maxInt) {c : UInt8} (stop : Decimal.isDigit c = false)
    (after : Bytes) :
    Reads (parseDigits (σ := σ) v) (Decimal.extend v ds) (ds ++ c :: after) (c :: after) := by
  intro P serves s k
  have e : consume takeDigit v (ds ++ c :: after) = some (some (Decimal.extend v ds, c), after) := by
    rw [consume_append fun v b => v * 10 + Decimal.digit b]
    · show consume takeDigit (Decimal.extend v ds) (c :: after) = _
      simp [consume, takeDigit, stop]
    · rintro before b rest rfl
      have d : Decimal.isDigit b = true := digits b (by simp)
      -- the number only grows, so it is not too great before the end either
      have le : Decimal.extend v (before ++ [b]) ≤ Decimal.maxInt := by
        refine Nat.le_trans (Decimal.le_extend _ rest) ?_
        rwa [← Decimal.extend_append, List.append_assoc]
      rw [Decimal.extend_append] at le
      rw [List.foldl_append]
      show takeDigit (Decimal.extend v before) b = _
      unfold takeDigit
      rw [if_pos d]
      exact if_pos le
  obtain ⟨t, r, m, l⟩ := serves.scan e k byteDeadline
  refine ⟨t.pushBack c, ?_, serves.pushBack m l c⟩
  unfold parseDigits
  rw [r]

/-- The digits of a number behind its first one.  The byte behind them is read to see that it is
    none, and put back. -/
theorem reads_value {d : UInt8} {ds : Bytes} (digits : ∀ x ∈ d :: ds, Decimal.isDigit x = true)
    (fits : Decimal.value (d :: ds) ≤ Decimal.maxInt) {c : UInt8} (stop : Decimal.isDigit c = false)
    (after : Bytes) :
    Reads (parseDigits (σ := σ) (Decimal.digit d)) (Decimal.value (d :: ds)) (ds ++ c :: after)
      (c :: after) := by
  rw [← Decimal.extend_digit] at fits ⊢
  exact reads_parseDigits (fun x hx => digits x (by simp [hx])) fits stop after

/-- A number that begins with its first digit has no sign. -/
theorem reads_parseSign {d : UInt8} (digit : Decimal.isDigit d = true) (after : Bytes) :
    Reads (parseSign (σ := σ)) (false, Decimal.digit d) (d :: after) after := by
  intro P serves s k
  obtain ⟨t, r, m, -⟩ := serves.readBy k s.byteDeadline
  refine ⟨t, ?_, m⟩
  unfold parseSign
  split <;> rename_i e <;> rw [r] at e <;> cases e
  exact if_pos digit

theorem reads_parseSign_minus {d : UInt8} (digit : Decimal.isDigit d = true) (after : Bytes) :
    Reads (parseSign (σ := σ)) (true, Decimal.digit d) (Ascii.minus :: d :: after) after := by
  intro P serves s k
  obtain ⟨t, r, m, -⟩ := serves.readBy k s.byteDeadline
  obtain ⟨u, r', m', -⟩ := serves.readBy m t.byteDeadline
  refine ⟨u, ?_, m'⟩
  unfold parseSign
  split <;> rename_i e <;> rw [r] at e <;> cases e
  rw [if_neg (by decide), if_pos rfl]
  split <;> rename_i e' <;> rw [r'] at e' <;> cases e'
  exact if_pos digit

/-- What is no digit and no minus sign does not count for the number behind it.  Said as an equation
    of the two searches, so it can be used under whatever comes next. -/
theorem Holds.parseSign_skip {gap bs : Bytes} {origin s : Stream σ} (h : Holds origin (gap ++ bs) s)
    (other : ∀ b ∈ gap, Decimal.isDigit b = false ∧ b ≠ Ascii.minus) :
    ∃ t, s.parseSign = t.parseSign ∧ Holds origin bs t := by
  induction gap generalizing s with
  | nil => exact ⟨s, rfl, h⟩
  | cons b gap ih =>
    obtain ⟨t, r, k, -⟩ := h.readBy s.byteDeadline
    obtain ⟨noDigit, noMinus⟩ := other b List.mem_cons_self
    have skipped : s.parseSign = t.parseSign := by
      rw [parseSign]
      split <;> rename_i e <;> rw [r] at e <;> cases e
      rw [if_neg (by simp [noDigit]), if_neg noMinus]
    obtain ⟨u, same, m⟩ := ih k fun c hc => other c (List.mem_cons_of_mem b hc)
    exact ⟨u, skipped.trans same, m⟩

/-- A number at the head of what there is to read: its digits are taken, and the byte behind them is
    still there. -/
theorem reads_parseInt {ds : Bytes} (some : ds ≠ []) (digits : ∀ d ∈ ds, Decimal.isDigit d = true)
    (fits : Decimal.value ds ≤ Decimal.maxInt) {c : UInt8} (stop : Decimal.isDigit c = false)
    (after : Bytes) :
    Reads (parseInt (σ := σ)) (Decimal.value ds : Int) (ds ++ c :: after) (c :: after) := by
  obtain ⟨d, ds, rfl⟩ := List.exists_cons_of_ne_nil some
  exact (reads_parseSign (digits d (by simp)) _).bind
    ((reads_value digits fits stop after).bind (Reads.pure _ _))

/-- A number with a minus sign, read to the same point. -/
theorem reads_parseInt_minus {ds : Bytes} (some : ds ≠ [])
    (digits : ∀ d ∈ ds, Decimal.isDigit d = true) (fits : Decimal.value ds ≤ Decimal.maxInt) {c : UInt8}
    (stop : Decimal.isDigit c = false) (after : Bytes) :
    Reads (parseInt (σ := σ)) (-(Decimal.value ds : Int)) (Ascii.minus :: ds ++ c :: after)
      (c :: after) := by
  obtain ⟨d, ds, rfl⟩ := List.exists_cons_of_ne_nil some
  exact (reads_parseSign_minus (digits d (by simp)) _).bind
    ((reads_value digits fits stop after).bind (Reads.pure _ _))

/-- A number that is no less than zero is a length. -/
theorem reads_parseLen {ds : Bytes} (some : ds ≠ []) (digits : ∀ d ∈ ds, Decimal.isDigit d = true)
    (fits : Decimal.value ds ≤ Decimal.maxInt) {c : UInt8} (stop : Decimal.isDigit c = false)
    (after : Bytes) :
    Reads (parseLen (σ := σ)) (Decimal.value ds) (ds ++ c :: after) (c :: after) := by
  refine (reads_parseInt some digits fits stop after).bind ?_
  rw [if_neg (by omega)]
  exact Reads.pure _ _

/-! ### Raw bytes -/

/-- As many bytes as are asked for are taken if that many are there, and no look is taken at the one
    behind them. -/
theorem Serves.gather {P : Bytes → Stream σ → Prop} (serves : Serves P) {bs after : Bytes}
    {s : Stream σ} (h : P (bs ++ after) s) : ∃ t, s.gather bs.length = (bs, t) ∧ P after t := by
  induction bs generalizing s with
  | nil => exact ⟨s, gather_zero s, h⟩
  | cons b bs ih =>
    obtain ⟨t, r, k, -⟩ := serves.readBy h s.byteDeadline
    obtain ⟨u, g, m⟩ := ih k
    refine ⟨u, ?_, m⟩
    rw [List.length_cons, gather_succ, r]
    simp only [g]

/-- A block of bytes is read as it is, whatever the bytes mean elsewhere. -/
theorem reads_readExact (bs after : Bytes) :
    Reads (readExact (σ := σ) bs.length) bs (bs ++ after) after := by
  intro P serves s h
  obtain ⟨t, g, k⟩ := serves.gather h
  refine ⟨t, ?_, k⟩
  simp only [readExact, g, ↓reduceIte]

theorem reads_skip (bs after : Bytes) : Reads (skip (σ := σ) bs.length) () (bs ++ after) after :=
  (reads_readExact bs after).bind (Reads.pure _ _)

/-- A field keeps the end of its payload, and the stream has gone by all of it. -/
theorem reads_readField (capacity : Nat) (bs after : Bytes) :
    Reads (FixedField.read (σ := σ) capacity bs.length) (.ofBytes capacity bs) (bs ++ after)
      after := by
  let keep := FixedField.kept capacity bs.length
  -- the front is skipped, the end is kept
  have skipped := reads_skip (σ := σ) (bs.take (bs.length - keep))
    (bs.drop (bs.length - keep) ++ after)
  have read := reads_readExact (σ := σ) (bs.drop (bs.length - keep)) after
  rw [FixedField.length_take_sub_kept, ← List.append_assoc, List.take_append_drop] at skipped
  rw [FixedField.length_drop_sub_kept] at read
  exact skipped.bind (read.bind (Reads.pure _ _))

/-! ### Lines and headings -/

/-- A line is read to its end and cut to the room there is for it.  The line feed belongs to the end
    of the line and is taken with it. -/
theorem reads_readLineBytes (max : Nat) {line : Bytes} (h : Ascii.cr ∉ line) (after : Bytes) :
    Reads (readLineBytes (σ := σ) max) (line.take max) (line ++ [Ascii.cr, Ascii.lf] ++ after)
      after := by
  intro P serves s k
  have e : consume lineByte [] (line ++ ([Ascii.cr, Ascii.lf] ++ after)) =
      some (line.reverse, Ascii.lf :: after) := by
    rw [consume_append fun acc b => b :: acc]
    · have r : line.foldl (fun acc b => b :: acc) [] = line.reverse := by simp
      rw [r]
      rfl
    · rintro pre b post rfl
      have ne : b ≠ Ascii.cr := fun e => h (by simp [e])
      rw [List.foldl_append]
      exact if_neg ne
  rw [List.append_assoc] at k
  obtain ⟨t, r, m, -⟩ := serves.scan e k byteDeadline
  obtain ⟨u, g, n, -⟩ := serves.readBy m t.byteDeadline
  refine ⟨u, ?_, n⟩
  simp only [readLineBytes, r, g, List.reverse_reverse, ↓reduceIte]

/-- A search stops at the first byte at which what it has seen ends with the pattern.  `seen` is
    what the window has heard before, so this covers a search that begins in the middle. -/
theorem consume_searchByte {p : Bytes} {w : Window} {seen todo : Bytes} (h : w.EndOf seen)
    (fits : p.length ≤ w.capacity) (some : p ≠ []) (more : todo ≠ []) (last : p <:+ seen ++ todo)
    (first : ∀ q, q <+: todo → q ≠ [] → p <:+ seen ++ q → q = todo) (after : Bytes) :
    consume (searchByte p) w (todo ++ after) = .some ((), after) := by
  induction todo generalizing w seen with
  | nil => exact absurd rfl more
  | cons b todo ih =>
    have h' := h.push b
    have ends : (w.push b).endsWith p = true ↔ p <:+ seen ++ [b] := by
      rw [h'.endsWith_iff]
      exact ⟨fun e => e.2.2, fun e => ⟨some, fits, e⟩⟩
    rw [List.cons_append, consume, searchByte]
    -- at the first byte that ends the pattern there is nothing more to do
    by_cases c : p <:+ seen ++ [b]
    · rw [if_pos (ends.mpr c)]
      have one : [b] = b :: todo := first [b] (by simp) (by simp) c
      rw [(List.cons.inj one).2.symm, List.nil_append]
    · rw [if_neg (fun e => c (ends.mp e))]
      have rest : todo ≠ [] := by
        rintro rfl
        exact c last
      refine ih h' fits rest ?_ fun q hq hne hs => ?_
      · rwa [List.append_assoc]
      · rw [List.append_assoc] at hs
        exact (List.cons.inj (first (b :: q) (by simpa using hq) (by simp) hs)).2

/-- `waitFor` reads up to the first place where what it has read ends with the pattern. -/
theorem reads_waitFor {p before : Bytes} (some : p ≠ [])
    (first : ∀ q, q <+: before ++ p → p <:+ q → q = before ++ p) (timeout : Nat) (after : Bytes) :
    Reads (waitFor (σ := σ) p timeout) () (before ++ p ++ after) after := by
  intro P serves s k
  have e : consume (searchByte p) (.ofCapacity p.length) (before ++ p ++ after) = .some ((), after) :=
    consume_searchByte (Window.endOf_ofCapacity _) (Nat.le_max_left _ _) some (by simp [some])
      (List.suffix_append before p) (fun q hq _ hs => first q hq hs) after
  obtain ⟨t, r, m, -⟩ := serves.scan e k fun _ => s.now + timeout
  refine ⟨t, ?_, m⟩
  simp only [waitFor, r]

end AtModem.Stream
