/-
  Waiting for an answer.

  A wait consumes the stream byte by byte.  Each byte goes into the window; then every handler whose
  announcement the window now ends with reads its report off the stream; then the candidates are
  tested: up to three patterns of the caller in order, then `ERROR`, then `OK`, as far as they are
  asked for.  The first candidate that the window ends with is the outcome.

  What a handler reads does not go through the window, so after a report the window still ends with
  the announcement.  A handler that fails is not heard of: the wait has an answer of its own to give.

  The deadline is the time of the call and the timeout added up, and since times are unbounded numbers of
  milliseconds it is always there.  A clock of bounded range has no such moment for a timeout that leads
  beyond its range; a wait with such a timeout would have no deadline and go on for as long as nothing
  matches.  That case, which no timeout of 64 bits of milliseconds comes near, is left out.
-/
import AtModem.Engine

namespace AtModem

/-- How a wait has ended.  Which of the caller's patterns it was is told by its place, so that equal
    patterns stay apart. -/
inductive MatchOutcome where
  /-- The caller's pattern at this place, counted from one. -/
  | pattern (index : Nat)
  /-- `OK`. -/
  | success
  /-- `ERROR`. -/
  | failure
  /-- Nothing before the deadline. -/
  | timedOut
  deriving DecidableEq, Repr

namespace MatchOutcome

/-- Whether a wait has ended with the pattern at this place. -/
def isPattern (o : MatchOutcome) (index : Nat) : Bool := o == pattern index

/-- The outcome as the answer to a plain command; a pattern counts as success. -/
def expectSuccess : MatchOutcome → Except AtError Unit
  | pattern _ => .ok ()
  | success => .ok ()
  | failure => .error .deviceReportedFailure
  | timedOut => .error .timedOut

end MatchOutcome

namespace Engine

variable {σ : Type}

/-- The line that ends a successful answer.  It is looked for with its line end, so that a word that
    only begins like it is not taken for it. -/
def okLine : Bytes := Utf8.encode "OK\r\n"

/-- The line that ends an answer of failure. -/
def errorLine : Bytes := Utf8.encode "ERROR\r\n"

/-- How many patterns of the caller are tested; the others are ignored. -/
def maxPatterns : Nat := 3

/-- What a wait looks for, in order of precedence.  The caller's patterns come first, in their
    order; an error is looked for before a success. -/
def candidates (patterns : List Bytes) (ok error : Bool) : List (Bytes × MatchOutcome) :=
  ((patterns.take maxPatterns).zipIdx 1).map (fun (p, i) => (p, .pattern i))
    ++ (if error then [(errorLine, .failure)] else [])
    ++ (if ok then [(okLine, .success)] else [])

/-- A candidate is one of the caller's patterns or one of the two terminators. -/
theorem cases_of_mem_candidates {patterns : List Bytes} {ok error : Bool} {c : Bytes × MatchOutcome}
    (h : c ∈ candidates patterns ok error) :
    (∃ p ∈ patterns.take maxPatterns, ∃ i, c = (p, .pattern i)) ∨
      c = (errorLine, .failure) ∨ c = (okLine, .success) := by
  simp only [candidates, List.mem_append, List.mem_map] at h
  rcases h with (⟨⟨p, i⟩, mem, rfl⟩ | h) | h
  · exact .inl ⟨p, List.fst_mem_of_mem_zipIdx mem, i, rfl⟩
  · cases error <;> simp at h
    exact .inr (.inl h)
  · cases ok <;> simp at h
    exact .inr (.inr h)

/-- No candidate stands for a wait that found nothing. -/
theorem candidate_ne_timedOut {patterns : List Bytes} {ok error : Bool} {c : Bytes × MatchOutcome}
    (hc : c ∈ candidates patterns ok error) : c.2 ≠ .timedOut := by
  rcases cases_of_mem_candidates hc with ⟨p, _, i, rfl⟩ | rfl | rfl <;> simp

/-- The first candidate that the window ends with. -/
def classify (w : Window) (cs : List (Bytes × MatchOutcome)) : Option MatchOutcome :=
  (cs.find? fun c => w.endsWith c.1).map Prod.snd

/-- Lets one handler read its report, if the window ends with its announcement.  A handler that
    fails delivers nothing and records no event, but what it has read is gone. -/
def notify (e : Engine σ) (h : Handler) : Engine σ :=
  if e.window.endsWith h.pattern then
    match h.process e.stream with
    | .ok delivery stream =>
      { e with
        stream
        inboxes := e.inboxes.post delivery
        events := match h.event with
          | some event => (e.events.push event).2
          | none => e.events }
    | .error _ stream => { e with stream }
  else e

/-- Takes a byte that was read into the window. -/
def hear (e : Engine σ) (b : UInt8) : Engine σ :=
  { e with window := e.window.push b, heard := e.heard.update (· ++ [b]) }

/-- Takes in a byte and lets the handlers have their turn. -/
def accept (e : Engine σ) (b : UInt8) : Engine σ := e.registry.handlers.foldl notify (e.hear b)

theorem accept_of_no_handlers {e : Engine σ} (h : e.registry.handlers = []) (b : UInt8) :
    e.accept b = e.hear b := by
  rw [accept, h]
  rfl

/-! ## What listening keeps -/

/-- A relation between an engine before and after that holds across every step that only listens:
    across what its stream does under `S`, across taking a byte into the window, and across whatever
    happens to the inboxes and what can happen to the events.  A proof about waits then never has to
    look at what handlers read, only at these five facts. -/
structure KeptByListening (S : Stream σ → Stream σ → Prop) (R : Engine σ → Engine σ → Prop) :
    Prop where
  reading : Stream.KeptByReading S
  trans : ∀ e f g, R e f → R f g → R e g
  stream : ∀ {e t}, S e.stream t → R e { e with stream := t }
  hear : ∀ e b, R e (e.hear b)
  mail : ∀ e inboxes events, e.events.Follows events → R e { e with inboxes, events }

namespace KeptByListening

variable {S : Stream σ → Stream σ → Prop} {R : Engine σ → Engine σ → Prop} {α β ε : Type}

/-- An engine on which nothing happens has had an empty delivery, so the relation is reflexive. -/
theorem refl (k : KeptByListening S R) (e : Engine σ) : R e e :=
  k.mail e e.inboxes e.events (.refl _)

/-- One handler, whether or not it is meant: if the window does not end with its announcement
    nothing happens; otherwise it reads, and only if it succeeds is there a delivery. -/
theorem notify (k : KeptByListening S R) (e : Engine σ) (h : Handler) : R e (e.notify h) := by
  unfold Engine.notify
  split
  · have s := k.reading.process h e.stream
    split
    · rename_i d t r
      rw [r] at s
      refine k.trans _ _ _ (k.stream s) (k.mail _ _ _ ?_)
      cases h.event with
      | none => exact .refl _
      | some event => exact e.events.follows_push event
    · rename_i r
      rw [r] at s
      exact k.stream s
  · exact k.refl e

/-- All handlers in turn, by induction on how many there are; each begins in the engine that the one
    before has left. -/
theorem foldl_notify (k : KeptByListening S R) (hs : List Handler) (e : Engine σ) :
    R e (hs.foldl Engine.notify e) := by
  induction hs generalizing e with
  | nil => exact k.refl e
  | cons h hs ih => exact k.trans _ _ _ (k.notify e h) (ih (e.notify h))

/-- A byte is heard, and then the handlers have their turn. -/
theorem accept (k : KeptByListening S R) (e : Engine σ) (b : UInt8) : R e (e.accept b) :=
  k.trans _ _ _ (k.hear e b) (k.foldl_notify e.registry.handlers (e.hear b))

protected theorem pure (k : KeptByListening S R) (a : α) :
    Along R (pure a : EStateM ε (Engine σ) α) :=
  Along.pure k.refl a

protected theorem throw (k : KeptByListening S R) (err : ε) :
    Along R (throw err : EStateM ε (Engine σ) α) :=
  Along.throw k.refl err

protected theorem get (k : KeptByListening S R) :
    Along R (get : EStateM ε (Engine σ) (Engine σ)) :=
  Along.get k.refl

protected theorem bind (k : KeptByListening S R) {x : EStateM ε (Engine σ) α}
    {f : α → EStateM ε (Engine σ) β} (hx : Along R x) (hf : ∀ a, Along R (f a)) :
    Along R (x >>= f) :=
  Along.bind k.trans hx hf

/-- A computation on the stream keeps on the engine what it keeps on the stream. -/
theorem onStream (k : KeptByListening S R) {x : StreamM σ α} (h : Along S x) :
    Along R (Engine.onStream x) := by
  intro e
  have s := h e.stream
  unfold Engine.onStream
  split <;> rename_i r <;> rw [r] at s <;> exact k.stream s

end KeptByListening

/-- `f` can come after `e` when only reading has happened.  It is the relation by which a wait is
    seen to end. -/
abbrev After (e f : Engine σ) : Prop := Stream.After e.stream f.stream

/-- Listening never leaves more bytes to come than before and never turns the clock back, which is
    why every loop of waits comes to an end. -/
theorem keptByListening_after : KeptByListening (Stream.After (σ := σ)) After where
  reading := Stream.keptByReading_after
  trans _ _ _ := Stream.After.trans
  stream h := h
  hear _ _ := .refl _
  mail _ _ _ _ := .refl _

/-! ## The wait -/

/-- Consumes the stream until a candidate matches or a byte fails to come by the deadline.  Each
    byte goes to the handlers before it is compared with the candidates, and what they read is not
    compared at all. -/
def waitUntil (deadline : Nat) (cs : List (Bytes × MatchOutcome)) (e : Engine σ) :
    MatchOutcome × Engine σ :=
  match _h : e.stream.readBy deadline with
  | (none, stream) => (.timedOut, { e with stream })
  | (some b, stream) =>
    let next := { e with stream }.accept b
    match classify next.window cs with
    | some outcome => (outcome, next)
    | none => waitUntil deadline cs next
termination_by e.backlog
decreasing_by
  have h₁ := Stream.backlog_readBy_some _h
  have h₂ := (keptByListening_after.accept { e with stream } b).backlog_le
  simp only [backlog] at *
  omega

theorem waitUntil_of_none {deadline : Nat} {cs : List (Bytes × MatchOutcome)} {e : Engine σ}
    {t : Stream σ} (h : e.stream.readBy deadline = (none, t)) :
    e.waitUntil deadline cs = (.timedOut, { e with stream := t }) := by
  unfold waitUntil
  rw [h]

/-- A byte has come: the wait ends with it or goes on. -/
theorem waitUntil_of_some {deadline : Nat} {cs : List (Bytes × MatchOutcome)} {e : Engine σ}
    {b : UInt8} {t : Stream σ} (h : e.stream.readBy deadline = (some b, t)) :
    e.waitUntil deadline cs =
      match classify ({ e with stream := t }.accept b).window cs with
      | some o => (o, { e with stream := t }.accept b)
      | none => ({ e with stream := t }.accept b).waitUntil deadline cs := by
  rw [waitUntil, h]

/-- Waits for one of `patterns`, for `ERROR` if `error` is set and for `OK` if `ok` is set.  What has
    already arrived is always consumed, however short the time allowed. -/
def wait (patterns : List Bytes) (timeout : Nat) (ok error : Bool) (e : Engine σ) :
    MatchOutcome × Engine σ :=
  e.waitUntil (e.now + timeout) (candidates patterns ok error)

/-- A whole wait keeps what its steps keep.  The proof follows the recursion of the wait: no byte
    came, or a byte came and was the last, or it goes on. -/
theorem KeptByListening.waitUntil {S : Stream σ → Stream σ → Prop} {R : Engine σ → Engine σ → Prop}
    (k : KeptByListening S R) (deadline : Nat) (cs : List (Bytes × MatchOutcome)) (e : Engine σ) :
    R e (e.waitUntil deadline cs).2 := by
  fun_induction Engine.waitUntil deadline cs e with
  | case1 e t h =>
    have s := k.reading.readBy deadline e.stream
    rw [h] at s
    exact k.stream s
  | case2 e b t h e' o ho =>
    have s := k.reading.readBy deadline e.stream
    rw [h] at s
    exact k.trans _ _ _ (k.stream s) (k.accept _ b)
  | case3 e b t h e' ho ih =>
    have s := k.reading.readBy deadline e.stream
    rw [h] at s
    exact k.trans _ _ _ (k.trans _ _ _ (k.stream s) (k.accept _ b)) ih

/-- A wait ends with one of its candidates, or times out. -/
theorem outcome_waitUntil (deadline : Nat) (cs : List (Bytes × MatchOutcome)) (e : Engine σ) :
    (e.waitUntil deadline cs).1 = .timedOut ∨ ∃ c ∈ cs, (e.waitUntil deadline cs).1 = c.2 := by
  fun_induction waitUntil deadline cs e with
  | case1 e t r => exact .inl rfl
  | case2 e b t r e' o ho =>
    simp only [classify, Option.map_eq_some_iff] at ho
    obtain ⟨c, hc, rfl⟩ := ho
    exact .inr ⟨c, List.mem_of_find?_eq_some hc, rfl⟩
  | case3 e b t r e' ho ih => exact ih

/-- A wait that times out has reached its deadline. -/
theorem le_now_of_timedOut {deadline : Nat} {cs : List (Bytes × MatchOutcome)} {e : Engine σ}
    (hcs : ∀ c ∈ cs, c.2 ≠ .timedOut) (h : (e.waitUntil deadline cs).1 = .timedOut) :
    deadline ≤ (e.waitUntil deadline cs).2.now := by
  fun_induction waitUntil deadline cs e with
  | case1 e t r =>
    have d := (Stream.readBy_spec deadline e.stream).2
    rw [r] at d
    exact d.2
  | case2 e b t r e' o ho =>
    simp only [classify, Option.map_eq_some_iff] at ho
    obtain ⟨c, hc, rfl⟩ := ho
    exact absurd h (hcs c (List.mem_of_find?_eq_some hc))
  | case3 e b t r e' ho ih => exact ih h

end Engine
end AtModem
