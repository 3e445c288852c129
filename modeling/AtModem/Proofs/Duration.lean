/-
  How long a wait can last.

  A read gives its byte the byte timeout to come and looks once in a step, so it never takes longer than
  the two together: that is the stream's patience.  The time that passes is paid for, one patience each,
  by the bytes that come off the link and by the reads that get none (`Paid`).  A byte that was put back
  has been paid for and is there at once when it is read again, so what pays is the link's backlog and
  not the stream's.

  A reader may take a read in vain for the end of a number or of a line and go on, or it may give up;
  what it owes is counted apart for the two ways it can end (`Spends`), and the two counts compose along
  `bind`.  What a handler can owe follows from what it reads, and those that the library registers owe no
  more than four reads in vain.  The wait itself idles only before its deadline, however often it is
  interrupted, so its own reads cost no more than one timeout and one step in all.  Everything else is
  paid for by the bytes (`now_waitUntil_le`).
-/
import AtModem.Engine.Wait
import Mathlib.Tactic.Ring

namespace AtModem

namespace Stream

variable {σ : Type} {s t u : Stream σ} {b : UInt8} {d : Nat}

/-- The longest that the read of one byte can take: the byte timeout, and one step more since the
    deadline is looked at once in a step. -/
def patience (s : Stream σ) : Nat := s.byteTimeout + s.step

/-! ## Reading goes on -/

/-- `t` can come after `s`; the measures of the stream are the same, and nothing has come back onto
    the link.  Every read and every handler goes onward, and so bounds by what is left on the link
    stay valid. -/
structure Onward (s t : Stream σ) : Prop extends After s t where
  pollInterval : t.pollInterval = s.pollInterval
  byteTimeout : t.byteTimeout = s.byteTimeout
  link_le : t.link.backlog ≤ s.link.backlog

theorem Onward.refl (s : Stream σ) : Onward s s := ⟨After.refl s, rfl, rfl, Nat.le_refl _⟩

theorem Onward.trans (h : Onward s t) (k : Onward t u) : Onward s u where
  toAfter := h.toAfter.trans k.toAfter
  pollInterval := k.pollInterval.trans h.pollInterval
  byteTimeout := k.byteTimeout.trans h.byteTimeout
  link_le := Nat.le_trans k.link_le h.link_le

/-- Neither the byte timeout nor the step changes while a reader goes on, so the price of a read
    stays. -/
theorem Onward.patience (h : Onward s t) : t.patience = s.patience := by
  unfold Stream.patience step
  rw [h.byteTimeout, h.pollInterval]

/-- A byte that was put back comes first and costs the link nothing: it was paid for when it was
    first read. -/
theorem tryRead_of_lookahead (h : s.lookahead = some b) :
    ∃ t, s.tryRead = some (b, t) ∧ t.link = s.link ∧ t.pollInterval = s.pollInterval ∧
      t.byteTimeout = s.byteTimeout := by
  unfold tryRead
  rw [h]
  exact ⟨_, rfl, rfl, rfl, rfl⟩

/-- A read that gets its byte has gone on, since what it took off the link it took off the backlog.
    The byte that was put back counts for the stream but not for the link, which is why the two are
    told apart. -/
theorem onward_tryRead (h : s.tryRead = some (b, t)) : Onward s t := by
  have later := keptByReading_after.take h
  cases ahead : s.lookahead with
  | some c =>
    obtain ⟨u, read, link, interval, timeout⟩ := tryRead_of_lookahead ahead
    rw [h] at read
    cases read
    exact ⟨later, interval, timeout, Nat.le_of_eq (congrArg Link.backlog link)⟩
  | none =>
    unfold tryRead at h
    rw [ahead] at h
    simp only [Option.map_eq_some_iff, Prod.exists, Prod.mk.injEq] at h
    obtain ⟨_, l, hl, rfl, rfl⟩ := h
    exact ⟨later, rfl, rfl, Nat.le_of_succ_le (Nat.le_of_eq (Link.backlog_read hl))⟩

/-- Everything that reads goes on: the relation has only to be checked for the steps that readers
    are made of. -/
theorem keptByReading_onward : KeptByReading (Onward (σ := σ)) where
  refl := Onward.refl
  trans _ _ _ := Onward.trans
  idle s := ⟨keptByReading_after.idle s, rfl, rfl, Nat.le_refl _⟩
  look s := ⟨keptByReading_after.look s, rfl, rfl, Nat.le_of_eq s.link.backlog_deliver⟩
  take := onward_tryRead
  putBack h := by
    have k := onward_tryRead h
    exact ⟨keptByReading_after.putBack h, k.pollInterval, k.byteTimeout, k.link_le⟩

/-! ## One read -/

/-- A read ends at most one step behind its deadline, unless it began later. -/
theorem now_readBy_le (d : Nat) (s : Stream σ) : (s.readBy d).2.now ≤ max s.now (d + s.step) := by
  fun_induction readBy d s with
  | case1 s b t h => exact Nat.le_trans (Nat.le_of_eq (now_tryRead h)) (Nat.le_max_left _ _)
  | case2 s none late => exact Nat.le_max_left _ _
  | case3 s none early ih =>
    have tick : s.idle.now = s.now + s.step := rfl
    have same : s.idle.step = s.step := rfl
    omega

/-- Between `s` and `t` no more time has passed than what came off the link and `n` reads in vain
    pay for.  This is the account behind the bound on a wait: a byte that is read pays for its read
    since it never comes off the link again, and each read in vain is entered as a debt. -/
def Paid (n : Nat) (s t : Stream σ) : Prop :=
  t.now + s.patience * t.link.backlog ≤ s.now + s.patience * s.link.backlog + n * s.patience

theorem Paid.refl (s : Stream σ) : Paid 0 s s := by
  unfold Paid
  omega

theorem Paid.mono {n m : Nat} (h : Paid n s t) (le : n ≤ m) : Paid m s t := by
  have := Nat.mul_le_mul_right s.patience le
  unfold Paid at *
  omega

/-- Debts add up along a run, and the backlog's share is counted once because it only falls. -/
theorem Paid.trans {n m : Nat} (h : Paid n s t) (o : Onward s t) (k : Paid m t u) :
    Paid (n + m) s u := by
  unfold Paid at *
  rw [o.patience] at k
  rw [Nat.add_mul]
  omega

/-- What happens to the byte that was read last is nothing to the link, which is what the time is
    counted against. -/
theorem Paid.pushBack {n : Nat} (h : Paid n s t) (b : UInt8) : Paid n s (t.pushBack b) := h

/-- A read that began before its deadline, and had no more than a byte's time, takes no longer than the
    stream's patience. -/
theorem now_le_of_readBy {o : Option UInt8} (early : d ≤ s.byteDeadline) (h : s.readBy d = (o, t)) :
    t.now ≤ s.now + s.patience := by
  have late : t.now ≤ max s.now (d + s.step) := by
    have late := now_readBy_le d s
    rwa [h] at late
  unfold byteDeadline at early
  unfold patience
  omega

/-- A read that gets its byte within the patience is paid for by that byte.  It may have come off
    the link before and have been put back; then it takes no time at all. -/
theorem paid_readBy_some (early : d ≤ s.byteDeadline) (h : s.readBy d = (some b, t)) : Paid 0 s t := by
  have late := now_le_of_readBy early h
  unfold Paid
  cases put : s.lookahead with
  | some c =>
    obtain ⟨u, read, link, -⟩ := tryRead_of_lookahead put
    rw [readBy, read] at h
    cases h
    unfold now
    rw [link]
    omega
  | none =>
    -- the byte has come off the link and pays for the read
    obtain ⟨-, fewer⟩ := readBy_spec d s
    rw [h] at fewer
    obtain ⟨fewer, ahead⟩ : t.backlog + 1 = s.backlog ∧ t.lookahead = none := fewer
    have one : t.link.backlog + 1 = s.link.backlog := by
      simpa [backlog, put, ahead] using fewer
    rw [← one, Nat.mul_add, Nat.mul_one]
    omega

/-- A read in vain costs one patience, which is what it is counted as. -/
theorem paid_readBy_none (early : d ≤ s.byteDeadline) (h : s.readBy d = (none, t)) : Paid 1 s t := by
  have late := now_le_of_readBy early h
  have link : t.link.backlog ≤ s.link.backlog := by
    have onward := keptByReading_onward.readBy d s
    rw [h] at onward
    exact onward.link_le
  have fewer := Nat.mul_le_mul_left s.patience link
  unfold Paid
  omega

/-! ## Readers -/

/-- What is owed for a fold: it is in vain only where it runs out of bytes. -/
def ScanOwes {α β : Type} (s : Stream σ) : Scan α β × Stream σ → Prop
  | (.stop _, t) => Paid 0 s t
  | (.more _, t) => Paid 1 s t

/-- A paid step before a fold adds nothing to what the fold owes. -/
theorem ScanOwes.after {α β : Type} {p : Scan α β × Stream σ} (h : Paid 0 s t) (o : Onward s t)
    (k : ScanOwes t p) : ScanOwes s p := by
  obtain ⟨r, u⟩ := p
  cases r with
  | stop _ => exact h.trans o k
  | more _ => exact h.trans o k

/-- A fold owes at most one read in vain, since it ends at the first; by induction on its bytes. -/
theorem scan_owes {α β : Type} {deadline : Stream σ → Nat} (next : α → UInt8 → Scan α β) (a : α)
    (early : ∀ t, Onward s t → deadline t ≤ t.byteDeadline) : ScanOwes s (s.scan deadline next a) := by
  fun_induction scan deadline next a s with
  | case1 a s u none => exact paid_readBy_none (early s (.refl s)) none
  | case2 a s u b some r stop => exact paid_readBy_some (early s (.refl s)) some
  | case3 a s u b some a' more ih =>
    have onward := keptByReading_onward.readBy (deadline s) s
    rw [some] at onward
    exact .after (paid_readBy_some (early s (.refl s)) some) onward
      (ih fun t k => early t (onward.trans k))

/-- What is owed where a reader has ended: `n` reads in vain if it ended well, `m` if it failed. -/
def Owes {α : Type} (n m : Nat) (s : Stream σ) : EStateM.Result AtError (Stream σ) α → Prop
  | .ok _ t => Paid n s t
  | .error _ t => Paid m s t

/-- A reader owes no more than that, wherever it begins with this time for each byte.  The two
    numbers differ because a failure mostly is a read in vain, while an ending without one costs
    nothing. -/
structure Spends {α : Type} (time n m : Nat) (x : StreamM σ α) : Prop where
  onward : Along Onward x
  owes : ∀ s, s.byteTimeout = time → Owes n m s (x s)

section

variable {α β : Type} {time n m n' m' : Nat}

theorem Owes.mono {r : EStateM.Result AtError (Stream σ) α} (h : Owes n m s r) (le : n ≤ n')
    (le' : m ≤ m') : Owes n' m' s r := by
  cases r with
  | ok a t => exact Paid.mono h le
  | error err t => exact Paid.mono h le'

/-- What was paid for before a result is added to what the result owes, whichever way it ended. -/
theorem Owes.after {r : EStateM.Result AtError (Stream σ) α} (h : Paid n s t) (o : Onward s t)
    (k : Owes n' m' t r) : Owes (n + n') (n + m') s r := by
  cases r with
  | ok a u => exact h.trans o k
  | error err u => exact h.trans o k

namespace Spends

protected theorem mono {x : StreamM σ α} (h : Spends time n m x) (le : n ≤ n') (le' : m ≤ m') :
    Spends time n' m' x :=
  ⟨h.onward, fun s timed => (h.owes s timed).mono le le'⟩

protected theorem pure (a : α) : Spends time n m (pure a : StreamM σ α) :=
  ⟨keptByReading_onward.pure a, fun s _ => (Paid.refl s).mono (Nat.zero_le n)⟩

protected theorem throw (e : AtError) : Spends time n m (throw e : StreamM σ α) :=
  ⟨keptByReading_onward.throw e, fun s _ => (Paid.refl s).mono (Nat.zero_le m)⟩

/-- A reader that looks at its stream first owes what it owes on the stream it then sees. -/
theorem get_bind {f : Stream σ → StreamM σ β} (onward : ∀ s, Along Onward (f s))
    (hf : ∀ s, s.byteTimeout = time → Spends time n m (f s)) : Spends time n m (get >>= f) where
  onward := keptByReading_onward.bind keptByReading_onward.get onward
  owes s timed := (hf s timed).owes s timed

/-- What the first part owes stays owed however the second one ends, so that one has the less to spend;
    if the first one fails, nothing else is owed. -/
protected theorem bind {x : StreamM σ α} {f : α → StreamM σ β} (hx : Spends time n m x)
    (hf : ∀ a, Spends time (n' - n) (m' - n) (f a)) (le : n ≤ n') (le' : max n m ≤ m') :
    Spends time n' m' (x >>= f) where
  onward := keptByReading_onward.bind hx.onward fun a => (hf a).onward
  owes s timed := by
    have first := hx.owes s timed
    have onward := hx.onward s
    cases e : x s with
    | ok a t =>
      rw [e] at first onward
      have rest := (hf a).owes t (onward.byteTimeout.trans timed)
      rw [bind_of_ok e]
      exact (Owes.after first onward rest).mono (by omega) (by omega)
    | error err t =>
      rw [e] at first
      rw [bind_of_error e]
      exact Paid.mono first (by omega)

end Spends
end

variable {time : Nat}

/-- Looking for a byte is in vain only where it fails. -/
theorem spends_find (target : UInt8) : Spends time 0 1 (find target : StreamM σ Unit) where
  onward := keptByReading_onward.find target
  owes s _ := by
    have owes := scan_owes (s := s) (fun () b => if b = target then .stop () else .more ()) ()
      fun t _ => Nat.le_refl t.byteDeadline
    unfold find
    split <;> rename_i scanned <;> rw [scanned] at owes <;> exact owes

/-- A single byte that is waited for no longer than the byte timeout; going without it is a success
    and costs one. -/
theorem spends_readWithin {timeout : Nat} (short : timeout ≤ time) :
    Spends time 1 0 (readWithin timeout : StreamM σ (Option UInt8)) where
  onward := keptByReading_onward.readWithin timeout
  owes s timed := by
    have early : s.now + timeout ≤ s.byteDeadline := by
      unfold byteDeadline
      omega
    show Paid 1 s (s.readBy (s.now + timeout)).2
    rcases read : s.readBy (s.now + timeout) with ⟨_ | b, t⟩
    · exact paid_readBy_none early read
    · exact (paid_readBy_some early read).mono (Nat.zero_le 1)

/-- A byte that must come: its absence is the failure. -/
theorem spends_readByte : Spends time 0 1 (readByte (σ := σ)) where
  onward := keptByReading_onward.readByte
  owes s _ := by
    unfold readByte
    split <;> rename_i read
    · exact paid_readBy_some (Nat.le_refl _) read
    · exact paid_readBy_none (Nat.le_refl _) read

/-- A byte that must come and be wanted; an unwanted one is put back, and it has paid for its
    read. -/
theorem spends_readWanted (wanted : UInt8 → Bool) : Spends time 0 1 (readWanted (σ := σ) wanted) where
  onward := keptByReading_onward.readWanted wanted
  owes s _ := by
    unfold readWanted
    split <;> rename_i read
    · have paid := paid_readBy_some (Nat.le_refl _) read
      split
      · exact paid
      · exact paid.pushBack _
    · exact paid_readBy_none (Nat.le_refl _) read

/-- Whoever does not wait for a byte owes nothing. -/
theorem spends_poll : Spends time 0 0 (poll (σ := σ)) where
  onward := keptByReading_onward.poll
  owes s _ := by
    unfold poll
    split
    · rename_i b t found
      have read : s.readBy s.byteDeadline = (some b, t) := by rw [readBy, found]
      exact paid_readBy_some (Nat.le_refl _) read
    · exact .refl s

/-- Asking whether a byte has arrived takes no time. -/
theorem spends_hasData : Spends time 0 0 (hasData (σ := σ)) where
  onward := keptByReading_onward.hasData
  owes s _ := by
    unfold hasData
    split
    · exact .refl s
    · -- what is due has only moved from the schedule to the queue
      have same := s.link.backlog_deliver
      have still : s.link.deliver.now = s.link.now := by rw [Link.deliver_eq]
      show s.link.deliver.now + s.patience * s.link.deliver.backlog ≤ _
      rw [same, still]
      exact Nat.le_add_right _ _

/-- A pattern is waited for no longer than for a byte, so that its failure is one read in vain. -/
theorem spends_waitFor (p : Bytes) {timeout : Nat} (short : timeout ≤ time) :
    Spends time 0 1 (waitFor p timeout : StreamM σ Unit) where
  onward := keptByReading_onward.waitFor p timeout
  owes s timed := by
    have early : ∀ t, Onward s t → s.now + timeout ≤ t.byteDeadline := by
      intro t onward
      have now := onward.now_le
      have same := onward.byteTimeout
      unfold byteDeadline
      omega
    have owes := scan_owes (searchByte p) (.ofCapacity p.length) early
    simp only [waitFor]
    split <;> rename_i scanned <;> rw [scanned] at owes <;> exact owes

/-- Looking for a number does not survive a read in vain.  So it ends well at no cost, however many
    bytes it has passed over. -/
theorem spends_parseSign : Spends time 0 1 (parseSign (σ := σ)) where
  onward := keptByReading_onward.parseSign
  owes s timed := by
    have step : ∀ {s t : Stream σ} {b}, s.readBy s.byteDeadline = (some b, t) →
        Paid 0 s t ∧ Onward s t := by
      intro s t b h
      have onward := keptByReading_onward.readBy s.byteDeadline s
      rw [h] at onward
      exact ⟨paid_readBy_some (Nat.le_refl _) h, onward⟩
    fun_induction parseSign s with
    | case1 s t none => exact paid_readBy_none (Nat.le_refl _) none
    | case2 s b t some _ => exact (step some).1
    | case3 s t u none some _ =>
      exact (step some).1.trans (step some).2 (paid_readBy_none (Nat.le_refl _) none)
    | case4 s t c u some' _ some _ => exact (step some).1.trans (step some).2 (step some').1
    | case5 s t c u some' _ some _ ih =>
      -- the byte behind the minus sign is put back and looked at again
      have onward := (step some).2.trans (keptByReading_onward.pushBack_readBy some')
      have paid := ((step some).1.trans (step some).2 (step some').1).pushBack c
      have rest := ih (onward.byteTimeout.trans timed)
      exact (Owes.after paid onward rest).mono (Nat.le_refl _) (Nat.le_refl _)
    | case6 s b t some _ _ ih =>
      have rest := ih ((step some).2.byteTimeout.trans timed)
      exact (Owes.after (step some).1 (step some).2 rest).mono (Nat.le_refl _) (Nat.le_refl _)

theorem spends_parseDigits (v : Nat) : Spends time 1 0 (parseDigits v : StreamM σ Nat) where
  onward := keptByReading_onward.parseDigits v
  owes s _ := by
    have owes := scan_owes (s := s) takeDigit v fun t _ => Nat.le_refl t.byteDeadline
    unfold parseDigits
    split <;> rename_i scanned <;> rw [scanned] at owes
    · exact owes
    · rename_i w b t
      exact (Paid.mono owes (Nat.zero_le 1)).pushBack b
    · exact owes

/-- The search for a number may fail in vain, its digits may end in vain, and no run does both. -/
theorem spends_parseInt : Spends time 1 1 (parseInt (σ := σ)) := by
  refine Spends.bind spends_parseSign (fun _ => ?_) (by decide) (by decide)
  exact Spends.bind (spends_parseDigits _) (fun _ => .pure _) (by decide) (by decide)

/-- A length is a number that is checked, and checking takes no time. -/
theorem spends_parseLen : Spends time 1 1 (parseLen (σ := σ)) := by
  refine Spends.bind spends_parseInt (fun n => ?_) (by decide) (by decide)
  split
  · exact .throw _
  · exact .pure _

/-- A gathered payload is paid for by its bytes, and one that came short owes the read that ended
    it. -/
theorem gather_paid (count : Nat) (s : Stream σ) :
    Paid (if (s.gather count).1.length = count then 0 else 1) s (s.gather count).2 := by
  induction count generalizing s with
  | zero => exact .refl s
  | succ count ih =>
    have onward := keptByReading_onward.readBy s.byteDeadline s
    rw [gather_succ]
    rcases read : s.readBy s.byteDeadline with ⟨_ | b, t⟩
    · exact paid_readBy_none (Nat.le_refl _) read
    · rw [read] at onward
      have whole := (paid_readBy_some (Nat.le_refl _) read).trans onward (ih t)
      simpa using whole

/-- A payload that came short is a failure, and it stopped at its first read in vain. -/
theorem spends_readExact (count : Nat) : Spends time 0 1 (readExact count : StreamM σ Bytes) where
  onward := keptByReading_onward.readExact count
  owes s _ := by
    have paid := gather_paid count s
    show Owes 0 1 s (if (s.gather count).1.length = count then .ok _ (s.gather count).2 else
      .error _ (s.gather count).2)
    by_cases h : (s.gather count).1.length = count
    · rw [if_pos h] at paid ⊢
      exact paid
    · rw [if_neg h] at paid ⊢
      exact paid

/-- Skipping is reading without keeping, and owes the same. -/
theorem spends_skip (count : Nat) : Spends time 0 1 (skip count : StreamM σ Unit) :=
  Spends.bind (spends_readExact count) (fun _ => .pure _) (by decide) (by decide)

/-- The skipped head and the kept tail are read one after the other, and either failure ends the
    field. -/
theorem spends_readField (capacity declared : Nat) :
    Spends time 0 1 (FixedField.read capacity declared : StreamM σ FixedField) := by
  refine Spends.bind (spends_skip _) (fun _ => ?_) (by decide) (by decide)
  exact Spends.bind (spends_readExact _) (fun _ => .pure _) (by decide) (by decide)

/-- A line has ended where no byte comes behind its carriage return; a line that fails has no end at
    all. -/
theorem spends_readLineBytes (max : Nat) : Spends time 1 1 (readLineBytes max : StreamM σ Bytes) where
  onward := keptByReading_onward.readLineBytes max
  owes s _ := by
    have owes := scan_owes (s := s) lineByte [] fun t _ => Nat.le_refl t.byteDeadline
    have onward := keptByReading_onward.scan byteDeadline lineByte [] s
    unfold readLineBytes
    split <;> rename_i scanned <;> rw [scanned] at owes onward
    -- the line is over because it ran out of bytes, or one came that does not fit
    · exact owes
    · rename_i acc t
      have line : Paid 0 s t := owes
      split
      · rename_i none
        -- no byte behind the carriage return: the read in vain is the one that a success may owe
        exact line.trans onward (paid_readBy_none (Nat.le_refl _) none)
      · rename_i b u some
        -- a byte behind it, which may be put back; it has paid for its read
        have whole := (line.trans onward (paid_readBy_some (Nat.le_refl _) some)).mono (Nat.zero_le 1)
        split
        · exact whole
        · exact whole.pushBack b

/-- Turning a line's bytes into text takes no time. -/
theorem spends_readLine (max : Nat) : Spends time 1 1 (readLine max : StreamM σ String) :=
  Spends.bind (spends_readLineBytes max) (fun _ => .pure _) (by decide) (by decide)

/-- A sentence is the rest of a line, and owes what the line owes. -/
theorem spends_readSentence (talker : String) :
    Spends time 1 1 (Gnss.Sentence.read (σ := σ) talker) :=
  Spends.bind (spends_readLine _) (fun _ => .pure _) (by decide) (by decide)

/-- Heading, line end and field are each in vain only where the block fails, and it fails once. -/
theorem spends_readBlock (heading : String) (capacity declared : Nat) :
    Spends time 0 1 (Mqtt.Message.readBlock (σ := σ) heading time capacity declared) := by
  refine Spends.bind (spends_waitFor _ (Nat.le_refl time)) (fun _ => ?_) (by decide) (by decide)
  exact Spends.bind (spends_find _) (fun _ => spends_readField _ _) (by decide) (by decide)

/-- Three numbers may end in vain, and whatever comes after them may fail.  A number may end in
    silence and be read all the same, and each of the three costs a byte timeout then. -/
theorem spends_readMessage : Spends time 3 4 (Mqtt.Message.read (σ := σ)) := by
  refine Spends.bind spends_parseInt (fun client => ?_) (by decide) (by decide)
  refine Spends.bind (spends_find _) (fun _ => ?_) (by decide) (by decide)
  refine Spends.bind spends_parseLen (fun topicLength => ?_) (by decide) (by decide)
  refine Spends.bind (spends_find _) (fun _ => ?_) (by decide) (by decide)
  refine Spends.bind spends_parseLen (fun payloadLength => ?_) (by decide) (by decide)
  refine .get_bind (fun s => ?_) fun s timed => ?_
  · have k := keptByReading_onward (σ := σ)
    exact k.bind (k.readBlock _ _ _ _) fun _ => k.bind (k.readBlock _ _ _ _) fun _ =>
      k.bind (k.waitFor _ _) fun _ => k.bind (k.find _) fun _ => k.pure _
  · rw [timed]
    refine Spends.bind (spends_readBlock _ _ _) (fun topic => ?_) (by decide) (by decide)
    refine Spends.bind (spends_readBlock _ _ _) (fun payload => ?_) (by decide) (by decide)
    refine Spends.bind (spends_waitFor _ (Nat.le_refl time)) (fun _ => ?_) (by decide) (by decide)
    exact Spends.bind (spends_find _) (fun _ => .pure _) (by decide) (by decide)

end Stream

/-! ## Handlers -/

/-- How many reads in vain an answer may have cost, however it was come by. -/
def Query.vain : Query → Nat
  | byteTimeout | hasData | poll => 0
  | message => 4
  | _ => 1

/-- The question brings no time of its own that is longer than the time for a byte. -/
def Query.InTime (time : Nat) : Query → Prop
  | within timeout => timeout ≤ time
  | pattern _ timeout => timeout ≤ time
  | _ => True

/-- Only one thing is known of a stream before it is asked: the time for a byte. -/
def Query.MayAnswer (time : Nat) : (q : Query) → Except AtError q.Answer → Prop
  | byteTimeout, answer => answer = .ok time
  | _, _ => True

/-- What a query answers on a stream is among the answers that its contract allows. -/
theorem Query.mayAnswer_of_ok {σ : Type} {time : Nat} (q : Query) {a : q.Answer} {s t : Stream σ}
    (timed : s.byteTimeout = time) (h : q.run s = .ok a t) : q.MayAnswer time (.ok a) := by
  cases q with
  | byteTimeout =>
    cases h
    exact congrArg Except.ok timed
  | _ => trivial

theorem Query.mayAnswer_of_error {σ : Type} {time : Nat} (q : Query) {err : AtError} {s t : Stream σ}
    (h : q.run s = .error err t) : q.MayAnswer time (.error err) := by
  cases q with
  | byteTimeout => cases h
  | _ => trivial

/-- Each query that keeps to its time owes no more than its share, whichever way it is answered.  It
    puts together what was shown of each reader, one case for each query. -/
theorem Query.spends {σ : Type} {time : Nat} {q : Query} (inTime : q.InTime time) :
    Stream.Spends time q.vain q.vain (q.run (σ := σ)) := by
  cases q with
  | byteTimeout => exact ⟨fun s => .refl s, fun s _ => .refl s⟩
  | hasData => exact Stream.spends_hasData
  | poll => exact Stream.spends_poll
  | within timeout => exact (Stream.spends_readWithin inTime).mono (Nat.le_refl 1) (Nat.zero_le 1)
  | byte => exact Stream.spends_readByte.mono (Nat.zero_le 1) (Nat.le_refl 1)
  | wanted test => exact (Stream.spends_readWanted test).mono (Nat.zero_le 1) (Nat.le_refl 1)
  | find target => exact (Stream.spends_find target).mono (Nat.zero_le 1) (Nat.le_refl 1)
  | integer => exact Stream.spends_parseInt
  | length => exact Stream.spends_parseLen
  | skip count => exact (Stream.spends_skip count).mono (Nat.zero_le 1) (Nat.le_refl 1)
  | exactly count => exact (Stream.spends_readExact count).mono (Nat.zero_le 1) (Nat.le_refl 1)
  | line max => exact Stream.spends_readLine max
  | pattern bytes timeout =>
    exact (Stream.spends_waitFor bytes inTime).mono (Nat.zero_le 1) (Nat.le_refl 1)
  | field capacity declared =>
    exact (Stream.spends_readField capacity declared).mono (Nat.zero_le 1) (Nat.le_refl 1)
  | message => exact Stream.spends_readMessage.mono (by decide) (Nat.le_refl 4)
  | sentence talker => exact Stream.spends_readSentence talker

namespace Reading

/-- However it is answered, the reading owes no more than `k` reads in vain: each question takes its
    share from what is left for the rest.  It is defined along the tree of questions, so for a given
    handler it is checked by going through them. -/
def OwesAtMost {α : Type} (time : Nat) : Nat → Reading α → Prop
  | _, .done _ => True
  | _, .failed _ => True
  | k, .ask q next =>
    q.InTime time ∧ q.vain ≤ k ∧ ∀ answer, q.MayAnswer time answer → (next answer).OwesAtMost time (k - q.vain)

/-- The questions are paid for one after the other, from the root of the tree to the leaf that is
    come to.  By induction on the tree, where the share of the first question is taken off for the
    rest. -/
theorem OwesAtMost.spends {σ α : Type} {time k : Nat} {r : Reading α} (h : r.OwesAtMost time k) :
    Stream.Spends time k k (r.run (σ := σ)) := by
  induction r generalizing k with
  | done a => exact .pure a
  | failed err => exact .throw err
  | ask q next ih =>
    obtain ⟨inTime, enough, rest⟩ := h
    refine ⟨Stream.keptByReading_onward.run _, fun s timed => ?_⟩
    have paid := (Query.spends (σ := σ) inTime).owes s timed
    have onward := Stream.keptByReading_onward.answer q s
    -- whichever way the first question ends, the time for a byte is the same for those that follow
    cases asked : q.run s with
    | ok a t =>
      rw [asked] at paid onward
      have same : t.byteTimeout = time := onward.byteTimeout.trans timed
      have more := (ih (.ok a) (rest _ (q.mayAnswer_of_ok timed asked))).owes t same
      rw [run_ask_of_ok asked]
      exact (Stream.Owes.after paid onward more).mono (by omega) (by omega)
    | error err t =>
      rw [asked] at paid onward
      have same : t.byteTimeout = time := onward.byteTimeout.trans timed
      have more := (ih (.error err) (rest _ (q.mayAnswer_of_error asked))).owes t same
      rw [run_ask_of_error asked]
      exact (Stream.Owes.after paid onward more).mono (by omega) (by omega)

end Reading

namespace Handler

/-- The handlers that the facades register, and the one that reads a field; for these the debt is
    known, for a handler of one's own it is a hypothesis. -/
inductive BuiltIn : Handler → Prop
  | notification (announcement : String) (event : UrcEvent) : BuiltIn (.notification announcement event)
  | message (inbox : Nat) : BuiltIn (.message inbox)
  | sentence (talker : String) (inbox : Nat) : BuiltIn (.sentence talker inbox)
  | field (announcement : String) (event : Option UrcEvent) (capacity inbox : Nat) :
      BuiltIn (.field announcement event capacity inbox)

/-- None of these owes more than four reads in vain, and the message is the one that owes so many.
    With it the bound on a wait has no more hypotheses for the handlers that the library registers.
    -/
theorem BuiltIn.owesAtMost {h : Handler} (built : h.BuiltIn) (time : Nat) :
    h.reading.OwesAtMost time 4 := by
  cases built with
  | notification announcement event => trivial
  | message inbox =>
    refine ⟨trivial, by decide, fun answer _ => ?_⟩
    cases answer <;> trivial
  | sentence talker inbox =>
    refine ⟨trivial, show 1 ≤ 4 by decide, fun answer _ => ?_⟩
    cases answer <;> trivial
  | field announcement event capacity inbox =>
    -- the length, the end of its line, and the bytes
    refine ⟨trivial, by decide, fun answer _ => ?_⟩
    cases answer with
    | error err => trivial
    | ok length =>
      refine ⟨trivial, by decide, fun answer _ => ?_⟩
      cases answer with
      | error err => trivial
      | ok _ =>
        refine ⟨trivial, show 1 ≤ 2 by decide, fun answer _ => ?_⟩
        cases answer <;> trivial

end Handler

namespace Engine

variable {σ : Type} {e f : Engine σ}

open AtModem.Stream (Onward Paid)

/-- Listening goes on too: a handler reads, and the window and the inboxes are not the link. -/
theorem keptByListening_onward :
    KeptByListening (Onward (σ := σ)) fun e f => Onward e.stream f.stream where
  reading := Stream.keptByReading_onward
  trans _ _ _ := .trans
  stream h := h
  hear e _ := .refl e.stream
  mail e _ _ _ := .refl e.stream

/-- Nobody registers while the engine listens, so the number of handlers to pay for stays. -/
theorem keptByListening_registry :
    KeptByListening (fun _ _ : Stream σ => True) fun e f => f.registry = e.registry where
  reading := ⟨fun _ => trivial, fun _ _ _ _ _ => trivial, fun _ => trivial, fun _ => trivial,
    fun _ => trivial, fun _ => trivial⟩
  trans _ _ _ h k := k.trans h
  stream _ := rfl
  hear _ _ := rfl
  mail _ _ _ _ := rfl

/-- No handler of the engine owes more than `k` reads in vain each time it has its turn.  A wait
    neither registers handlers nor changes the byte timeout, so this holds all along it. -/
def Owing (k : Nat) (e : Engine σ) : Prop :=
  ∀ h ∈ e.registry.handlers, h.reading.OwesAtMost e.stream.byteTimeout k

/-- Running a handler costs what its reading owes. -/
theorem paid_notify {k : Nat} {h : Handler} {e : Engine σ}
    (owes : h.reading.OwesAtMost e.stream.byteTimeout k) : Paid k e.stream (e.notify h).stream := by
  have owes : Stream.Owes k k e.stream (h.process e.stream) := owes.spends.owes e.stream rfl
  unfold notify
  split
  · split <;> rename_i r <;> rw [r] at owes <;> exact owes
  · exact (Paid.refl _).mono (Nat.zero_le k)

/-- Running all handlers behind one byte costs that for each of them. -/
theorem paid_foldl_notify {k : Nat} {hs : List Handler} {e : Engine σ}
    (owes : ∀ h ∈ hs, h.reading.OwesAtMost e.stream.byteTimeout k) :
    Paid (k * hs.length) e.stream (hs.foldl notify e).stream := by
  induction hs generalizing e with
  | nil => exact .refl _
  | cons h hs ih =>
    have onward := keptByListening_onward.notify e h
    obtain ⟨first, others⟩ := List.forall_mem_cons.mp owes
    rw [← onward.byteTimeout] at others
    have whole := (paid_notify first).trans onward (ih others)
    exact whole.mono (by rw [List.length_cons, Nat.mul_add]; omega)

/-- The handlers have their turn within the time that they and the bytes they take are good for. -/
theorem Owing.paid_accept {k : Nat} {e : Engine σ} (owing : e.Owing k) (b : UInt8) :
    Paid (k * e.registry.handlers.length) e.stream (e.accept b).stream :=
  paid_foldl_notify (e := e.hear b) owing

/-- Nobody registers while the engine listens, and the time for a byte stays, so that what the
    handlers owe can be said once for the whole wait. -/
theorem Owing.of_onward {k : Nat} (owing : e.Owing k) (registry : f.registry = e.registry)
    (onward : Onward e.stream f.stream) : f.Owing k := by
  unfold Owing
  rw [registry, onward.byteTimeout]
  exact owing

/-! ## The wait -/

/-- The latest time at which a wait that stands at `e` can end, with handlers that owe `k` reads in vain.
    Its own reads end within a step of the deadline, if the handlers have not made it later than that
    already; each byte that is to come off the link is good for one patience, and each byte that is to be
    heard for `k` times as many as there are handlers. -/
def latest (k deadline : Nat) (e : Engine σ) : Nat :=
  max e.now (deadline + e.stream.step) + e.stream.patience * e.stream.link.backlog +
    k * e.registry.handlers.length * (e.stream.patience * e.backlog)

/-- The latest end of the wait is fixed when it begins: hearing a byte and what the handlers make of
    it never puts that off.  This is the step of the invariant; the wait itself is an induction with
    it. -/
theorem Owing.accept {k deadline : Nat} {b : UInt8} {t : Stream σ} (owing : e.Owing k)
    (read : e.stream.readBy deadline = (some b, t)) :
    ({ e with stream := t }.accept b).Owing k ∧
      ({ e with stream := t }.accept b).latest k deadline ≤ e.latest k deadline := by
  -- the read may end one step behind the deadline, if it did not begin behind it
  have late : t.now ≤ max e.now (deadline + e.stream.step) := by
    have late := Stream.now_readBy_le deadline e.stream
    rwa [read] at late
  have reading : Onward e.stream t := by
    have onward := Stream.keptByReading_onward.readBy deadline e.stream
    rwa [read] at onward
  -- what it took off the backlog pays for the turns of the handlers
  have one : t.backlog + 1 = e.backlog := Stream.backlog_readBy_some read
  have still : { e with stream := t }.Owing k := owing.of_onward rfl reading
  have paid := still.paid_accept b
  have turn := keptByListening_onward.accept { e with stream := t } b
  have registry := keptByListening_registry.accept { e with stream := t } b
  generalize { e with stream := t }.accept b = f at paid turn registry ⊢
  refine ⟨still.of_onward registry turn, ?_⟩
  have step : f.stream.step = e.stream.step := by
    unfold Stream.step
    rw [turn.pollInterval, reading.pollInterval]
  -- the arithmetic of the two debts; each patience is paid once
  have onLink := Nat.mul_le_mul_left e.stream.patience turn.link_le
  have off := Nat.mul_le_mul_left e.stream.patience reading.link_le
  have heard := Nat.mul_le_mul_left (k * e.registry.handlers.length)
    (Nat.mul_le_mul_left e.stream.patience turn.backlog_le)
  unfold Paid at paid
  unfold latest
  rw [step, registry, turn.patience, reading.patience, ← one, Nat.mul_add, Nat.mul_one, Nat.mul_add]
  rw [reading.patience] at paid
  simp only [now, backlog] at *
  omega

/-- A wait ends no later than its deadline and step and what the backlog can pay for; by induction
    along the wait, each byte heard paying for the handlers it wakes. -/
theorem Owing.now_waitUntil_le {k : Nat} (deadline : Nat) (cs : List (Bytes × MatchOutcome))
    (owing : e.Owing k) : (e.waitUntil deadline cs).2.now ≤ e.latest k deadline := by
  fun_induction waitUntil deadline cs e with
  | case1 e t none =>
    have late : t.now ≤ max e.now (deadline + e.stream.step) := by
      have late := Stream.now_readBy_le deadline e.stream
      rwa [none] at late
    show t.now ≤ e.latest k deadline
    unfold latest
    omega
  | case2 e b t read e' o stop =>
    have now : e'.now ≤ e'.latest k deadline := by
      unfold latest
      omega
    exact Nat.le_trans now (owing.accept read).2
  | case3 e b t read e' on ih =>
    obtain ⟨still, sooner⟩ := owing.accept read
    exact Nat.le_trans (ih still) sooner

/-- The same for the public wait, in terms of its timeout: one timeout, one step, and one patience
    per byte and handler debt. -/
theorem Owing.wait_le {k : Nat} (owing : e.Owing k) (patterns : List Bytes) (timeout : Nat)
    (ok error : Bool) :
    (e.wait patterns timeout ok error).2.now ≤ e.now + (timeout + e.stream.step +
      e.backlog * (1 + k * e.registry.handlers.length) * e.stream.patience) := by
  have late : (e.wait patterns timeout ok error).2.now ≤ e.latest k (e.now + timeout) :=
    owing.now_waitUntil_le _ _
  have link : e.stream.link.backlog ≤ e.backlog := Nat.le_add_left _ _
  have pays := Nat.mul_le_mul_left e.stream.patience link
  have whole : e.backlog * (1 + k * e.registry.handlers.length) * e.stream.patience =
      e.stream.patience * e.backlog +
        k * e.registry.handlers.length * (e.stream.patience * e.backlog) := by ring
  unfold latest at late
  omega

/-- However the bytes come, and whatever they are: a wait with `h` handlers that finds `n` bytes yet to
    be read ends within its timeout, one step, and `n * (1 + k * h)` times what a byte may take, where no
    handler owes more than `k` reads in vain; those that there are owe no more than four.  A wait that has
    timed out has lasted as long as it was told to. -/
theorem wait_lasts (e : Engine σ) (patterns : List Bytes) (timeout : Nat) (ok error : Bool) :
    let step := max e.stream.pollInterval 1
    let n := e.backlog
    let h := e.registry.handlers.length
    let f := (e.wait patterns timeout ok error).2
    (∀ k, (∀ h ∈ e.registry.handlers, h.reading.OwesAtMost e.stream.byteTimeout k) →
      f.now ≤ e.now + (timeout + step + n * (1 + k * h) * (e.stream.byteTimeout + step))) ∧
    ((∀ h ∈ e.registry.handlers, h.BuiltIn) →
      f.now ≤ e.now + (timeout + step + n * (1 + 4 * h) * (e.stream.byteTimeout + step))) ∧
    ((e.wait patterns timeout ok error).1 = .timedOut → e.now + timeout ≤ f.now) := by
  intro step n h f
  have bound (k : Nat) (owing : e.Owing k) :
      f.now ≤ e.now + (timeout + step + n * (1 + k * h) * (e.stream.byteTimeout + step)) :=
    owing.wait_le patterns timeout ok error
  refine ⟨bound, fun built => bound 4 fun hd mem => (built hd mem).owesAtMost _, ?_⟩
  exact le_now_of_timedOut fun _ => candidate_ne_timedOut

end Engine
end AtModem
