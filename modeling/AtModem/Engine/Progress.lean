/-
  Exchanges that only read.

  An exchange that writes nothing cannot give itself more to read: afterwards no more bytes are to
  come than before, and it is no earlier.  That is one relation kept by listening; the others pass in
  the same way to everything that is put together from reading steps, with or without a buffer beside
  the engine.  A loop whose every turn waits for something that is never the device's silence
  therefore comes to an end.
-/
import AtModem.Engine.Transfer

namespace AtModem.Engine

variable {σ : Type}

/-- A relation between engines, between engines that stand beside something else. -/
def Beside {β : Type} (R : Engine σ → Engine σ → Prop) (p q : β × Engine σ) : Prop := R p.2 q.2

namespace KeptByListening

variable {S : Stream σ → Stream σ → Prop} {R : Engine σ → Engine σ → Prop} {α β γ ε : Type}

/-- A plain result is nothing to the engine, be it a value or an error. -/
theorem ofResult (k : KeptByListening S R) (r : Except AtError α) :
    Along R (Engine.ofResult r) := by
  cases r with
  | ok a => exact k.pure a
  | error err => exact k.throw err

/-- A wait keeps what each of its steps keeps, from the first byte to its end. -/
theorem await (k : KeptByListening S R) (patterns : List Bytes) (timeout : Nat) (ok error : Bool) :
    Along R (Engine.await patterns timeout ok error) :=
  fun e => k.waitUntil (e.now + timeout) (candidates patterns ok error) e

/-! ## Beside a buffer -/

/-- A value that is given out beside a buffer leaves engine and buffer alone. -/
theorem beside_pure (k : KeptByListening S R) (a : α) :
    Along (Beside R) (pure a : EStateM ε (β × Engine σ) α) :=
  Along.pure (fun p => k.refl p.2) a

theorem beside_throw (k : KeptByListening S R) (err : ε) :
    Along (Beside R) (throw err : EStateM ε (β × Engine σ) α) :=
  Along.throw (fun p => k.refl p.2) err

theorem beside_get (k : KeptByListening S R) :
    Along (Beside R) (get : EStateM ε (β × Engine σ) (β × Engine σ)) :=
  Along.get fun p => k.refl p.2

/-- Two computations beside a buffer, one after the other: the relation speaks of the engines and
    composes as it does without the buffer. -/
theorem beside_bind (k : KeptByListening S R) {x : EStateM ε (β × Engine σ) α}
    {f : α → EStateM ε (β × Engine σ) γ} (hx : Along (Beside R) x)
    (hf : ∀ a, Along (Beside R) (f a)) : Along (Beside R) (x >>= f) :=
  Along.bind (fun p q r => k.trans p.2 q.2 r.2) hx hf

/-- Reading into a buffer is reading; whether all the bytes came or not, the stream is where they
    have been read. -/
theorem fill (k : KeptByListening S R) (count : Nat) :
    Along (Beside R) (Engine.fill count : BufferM AtError σ Unit) := by
  intro (b, e)
  have h := k.stream (k.reading.gather count e.stream)
  unfold Engine.fill Buffer.fill
  by_cases c : (e.stream.gather count).1.length = count
  · simp only [c, ↓reduceIte]
    exact h
  · simp only [c, ↓reduceIte]
    exact h

end KeptByListening

/-- A computation that does not know the buffer keeps on the pair what it keeps on the engine. -/
theorem along_besideBuffer {R : Engine σ → Engine σ → Prop} {α ε : Type}
    {x : EStateM ε (Engine σ) α} (h : Along R x) : Along (Beside R) (besideBuffer x) := by
  intro (b, e)
  have k := h e
  unfold besideBuffer
  simp only
  split <;> rename_i r <;> rw [r] at k <;> exact k

/-! ## Waits that find something, and waits that look for nothing -/

/-- A wait that finds something has read at least a byte. -/
theorem backlog_waitUntil {deadline : Nat} {cs : List (Bytes × MatchOutcome)} {e f : Engine σ}
    {o : MatchOutcome} (h : e.waitUntil deadline cs = (o, f)) (ho : o ≠ .timedOut) :
    f.backlog < e.backlog := by
  unfold waitUntil at h
  split at h
  -- a wait that gets no byte times out, which is excluded
  · cases h
    exact absurd rfl ho
  · rename_i b t r
    -- the byte that was heard has left the backlog; the handlers it wakes can only take more
    have k := Stream.backlog_readBy_some r
    have m := (keptByListening_after.accept { e with stream := t } b).backlog_le
    simp only at h
    split at h
    · cases h
      simp only [backlog] at *
      omega
    · have n := (keptByListening_after.waitUntil deadline cs
        ({ e with stream := t }.accept b)).backlog_le
      rw [h] at n
      simp only [backlog] at *
      omega

/-- A wait that looks for nothing lasts as long as it was told to. -/
theorem now_add_le_listen (timeout : Nat) (e : Engine σ) :
    e.now + timeout ≤ (e.wait [] timeout false false).2.now := by
  refine le_now_of_timedOut (by simp [candidates]) ?_
  suffices ∀ f : Engine σ, ∀ d, (f.waitUntil d []).1 = .timedOut from this e _
  intro f d
  generalize hc : ([] : List (Bytes × MatchOutcome)) = cs
  fun_induction waitUntil d cs f with
  | case1 => rfl
  | case2 e b t h e' o ho =>
    subst hc
    cases ho
  | case3 e b t h e' ho ih => exact ih

end AtModem.Engine
