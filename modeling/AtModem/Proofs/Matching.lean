/-
  Matching against the window is matching against the whole stream.

  The window forgets, and it outlives the waits: what one wait has heard without finding anything may be
  the beginning of what the next one looks for.  So the reference is not what a wait has read but all
  that waits have ever read, `heard`, and the invariant is that the window is the end of it, as much as
  the capacity holds.  Bytes that handlers, parsers and transfers take off the stream go neither into
  the window nor into `heard`, so the invariant survives everything.

  A candidate that fits into the window therefore ends the window exactly when it ends `heard`, and a
  wait on which no handler gets in between does what a reader of the whole stream would do.
-/
import AtModem.Link.Script
import AtModem.Proofs.Arrival
import AtModem.Proofs.Session
import AtModem.Proofs.Window

namespace AtModem

/-! ## What a reader of the whole stream answers -/

namespace Engine

variable {σ : Type}

/-- The answer to all that was heard: the first of the caller's patterns that it ends with, else
    `ERROR`, else `OK`, as far as they are asked for.  No window occurs here: this is the reference
    with which waits are compared. -/
def answer (patterns : List Bytes) (ok error : Bool) (heard : Bytes) : Option MatchOutcome :=
  match (patterns.take maxPatterns).findIdx? fun p => !p.isEmpty && p.isSuffixOf heard with
  | some i => some (.pattern (i + 1))
  | none =>
    if error && errorLine.isSuffixOf heard then some .failure
    else if ok && okLine.isSuffixOf heard then some .success
    else none

/-- Looking through numbered patterns finds the first that passes, with its number. -/
theorem find_pattern (q : Bytes → Bool) (patterns : List Bytes) (first : Nat) :
    (((patterns.zipIdx first).map fun (p, i) => (p, MatchOutcome.pattern i)).find? fun c => q c.1) =
      (patterns.findIdx? q).map fun i => (patterns[i]!, MatchOutcome.pattern (i + first)) := by
  induction patterns generalizing first with
  | nil => rfl
  | cons p ps ih =>
    simp only [List.zipIdx_cons, List.map_cons, List.find?_cons, List.findIdx?_cons]
    cases q p with
    | true => simp
    | false =>
      simp only [ih, Bool.false_eq_true, ↓reduceIte, Option.map_map]
      congr 1
      funext i
      simp
      omega

/-- The window answers as the whole stream does, as long as it can hold what is looked for.  The
    order of the candidates is that of the answer: the patterns, then the error, then the success.
    -/
theorem classify_eq_answer {w : Window} {heard : Bytes} (h : w.EndOf heard) {patterns : List Bytes}
    {ok error : Bool} (fits : ∀ c ∈ candidates patterns ok error, c.1.length ≤ w.capacity) :
    classify w (candidates patterns ok error) = answer patterns ok error heard := by
  -- no candidate is too long for the window, so what fits is no condition
  have same : (candidates patterns ok error).find? (fun c =>
        !c.1.isEmpty && (c.1.length ≤ w.capacity && c.1.isSuffixOf heard)) =
      (candidates patterns ok error).find? fun c => !c.1.isEmpty && c.1.isSuffixOf heard := by
    rw [← List.head?_filter, ← List.head?_filter, List.filter_congr fun c hc => ?_]
    rw [decide_eq_true (fits c hc), Bool.true_and]
  rw [classify_eq_reply h, reply, same]
  unfold candidates answer
  rw [List.find?_append, List.find?_append, find_pattern fun p => !p.isEmpty && p.isSuffixOf heard]
  cases (patterns.take maxPatterns).findIdx? fun p => !p.isEmpty && p.isSuffixOf heard with
  | some i => rfl
  | none =>
    -- the terminators come behind the patterns, the error first
    have e₁ : errorLine.isEmpty = false := by decide
    have e₂ : okLine.isEmpty = false := by decide
    cases error <;> cases ok <;>
      simp only [Option.map_none, Option.none_or, List.find?_cons, List.find?_nil, e₁, e₂,
        Bool.not_false, Bool.true_and, Bool.false_and, Bool.false_eq_true, ↓reduceIte] <;>
      cases errorLine.isSuffixOf heard <;> cases okLine.isSuffixOf heard <;> rfl

/-! ## A wait on which nothing gets in between -/

/-- What a wait does with what arrives: it takes it from the oldest byte on, and no more than the
    byte that completes an answer; if none does, it takes all that arrives by its last poll.
    Nothing is said of how the bytes are spread over the time before the last poll, since nothing
    depends on it. -/
structure Answers (answer : Bytes → Option MatchOutcome) (deadline : Nat) (e f : Engine σ)
    (outcome : MatchOutcome) (taken rest : Bytes) : Prop where
  arrived : e.stream.arrivedBy (e.stream.lastPoll deadline) = taken ++ rest
  unread : e.stream.unread = taken ++ f.stream.unread
  heard : f.heard.value = e.heard.value ++ taken
  first : ∀ p, p <+: taken → p ≠ [] → p ≠ taken → answer (e.heard.value ++ p) = none
  found : outcome ≠ .timedOut → taken ≠ [] ∧ answer f.heard.value = some outcome
  timedOut : outcome = .timedOut →
    rest = [] ∧ (taken ≠ [] → answer f.heard.value = none) ∧ f.now = e.stream.lastPoll deadline

/-- A byte that is heard goes behind all that has been heard, however little of that the window
    still has. -/
theorem heard_hear (e : Engine σ) (b : UInt8) : (e.hear b).heard.value = e.heard.value ++ [b] :=
  Ghost.value_update _ _

/-- No reference answer is a timeout: that is only for a wait to say. -/
theorem ne_timedOut_of_answer {patterns : List Bytes} {ok error : Bool} {heard : Bytes}
    {o : MatchOutcome} (h : answer patterns ok error heard = some o) : o ≠ .timedOut := by
  rintro rfl
  unfold answer at h
  split at h
  · cases h
  · split at h
    · cases h
    · split at h <;> cases h

/-- `f` is `e` after it has heard the byte `b`, which was there by the deadline. -/
structure Hears (deadline : Nat) (b : UInt8) (e f : Engine σ) : Prop where
  took : Stream.Took b e.stream f.stream
  poll : f.stream.lastPoll deadline = e.stream.lastPoll deadline
  heard : f.heard.value = e.heard.value ++ [b]

/-- A byte that was heard is the first of those that arrived by the deadline. -/
theorem Hears.arrivedBy {deadline : Nat} {b : UInt8} {e f : Engine σ} (h : Hears deadline b e f) :
    e.stream.arrivedBy (e.stream.lastPoll deadline) =
      b :: f.stream.arrivedBy (f.stream.lastPoll deadline) := by
  rw [← h.poll]
  exact h.took.arrivedBy _ (f.stream.now_le_lastPoll deadline)

namespace Answers

variable {answer : Bytes → Option MatchOutcome} {deadline : Nat} {b : UInt8} {e f g : Engine σ}
  {outcome : MatchOutcome} {taken rest : Bytes}

/-- A byte that completes an answer is the last that the wait takes. -/
theorem stop (h : Hears deadline b e f) (found : answer f.heard.value = some outcome)
    (late : outcome ≠ .timedOut) :
    Answers answer deadline e f outcome [b] (f.stream.arrivedBy (f.stream.lastPoll deadline)) where
  arrived := h.arrivedBy
  unread := h.took.unread
  heard := h.heard
  first p hp hne hne' := by
    -- there is nothing between the empty prefix and the whole of a single byte
    rcases List.prefix_cons_iff.mp hp with rfl | ⟨q, rfl, hq⟩
    · exact absurd rfl hne
    · rw [List.prefix_nil.mp hq] at hne'
      exact absurd rfl hne'
  found _ := ⟨List.cons_ne_nil _ _, found⟩
  timedOut h := absurd h late

/-- After a byte that completes none, the wait goes on as if it began there. -/
theorem cons (h : Hears deadline b e f) (more : answer f.heard.value = none)
    (a : Answers answer deadline f g outcome taken rest) :
    Answers answer deadline e g outcome (b :: taken) rest where
  arrived := by
    rw [h.arrivedBy, a.arrived]
    rfl
  unread := by
    rw [h.took.unread, a.unread]
    rfl
  heard := by
    rw [a.heard, h.heard, List.append_assoc]
    rfl
  first p hp hne hne' := by
    -- the beginnings of what was taken are those of the rest with the byte in front, and the empty
    -- one
    rcases List.prefix_cons_iff.mp hp with rfl | ⟨q, rfl, hq⟩
    · exact absurd rfl hne
    · by_cases empty : q = []
      · rw [empty, ← h.heard]
        exact more
      · have k := a.first q hq empty fun h => hne' (by rw [h])
        rwa [h.heard, List.append_assoc] at k
  found o := ⟨List.cons_ne_nil _ _, (a.found o).2⟩
  timedOut o := by
    obtain ⟨all, none, late⟩ := a.timedOut o
    refine ⟨all, fun _ => ?_, h.poll ▸ late⟩
    by_cases empty : taken = []
    · rw [a.heard, empty, List.append_nil]
      exact more
    · exact none empty

end Answers

/-- Where a wait stands when no handler gets in between and the candidates fit.  It is kept by every
    byte that is heard, and with it the window answers just what the whole history would. -/
structure Attentive (patterns : List Bytes) (ok error : Bool) (e : Engine σ) : Prop where
  quiet : e.registry.handlers = []
  window : e.window.EndOf e.heard.value
  fits : ∀ c ∈ candidates patterns ok error, c.1.length ≤ e.window.capacity

/-- A byte is heard, and after it the wait stands as before: on the end of all that was heard, with
    no handler to get in between.  By it the correctness of a wait is an induction over the bytes
    that it hears. -/
theorem Attentive.accept {patterns : List Bytes} {ok error : Bool} {deadline : Nat} {e : Engine σ}
    {b : UInt8} {t : Stream σ} (a : Attentive patterns ok error e)
    (h : e.stream.readBy deadline = (some b, t)) :
    Hears deadline b e ({ e with stream := t }.accept b) ∧
      Attentive patterns ok error ({ e with stream := t }.accept b) := by
  have k := Stream.readBy_arrival deadline e.stream
  rw [h] at k
  obtain ⟨poll, took⟩ := k
  rw [accept_of_no_handlers (e := { e with stream := t }) a.quiet b]
  have window : ({ e with stream := t }.hear b).window.EndOf
      ({ e with stream := t }.hear b).heard.value := by
    rw [heard_hear]
    exact a.window.push b
  exact ⟨⟨took, poll, heard_hear _ b⟩, a.quiet, window, a.fits⟩

/-- The wait that `Answers` describes, by the reference instead of the window; by induction along
    the wait, with `Attentive` as its invariant. -/
theorem waitUntil_answers {patterns : List Bytes} {ok error : Bool} (deadline : Nat) {e : Engine σ}
    (a : Attentive patterns ok error e) :
    ∃ taken rest, Answers (answer patterns ok error) deadline e
      (e.waitUntil deadline (candidates patterns ok error)).2
      (e.waitUntil deadline (candidates patterns ok error)).1 taken rest := by
  generalize hcs : candidates patterns ok error = cs
  fun_induction waitUntil deadline cs e with
  | case1 e t h =>
    -- the last poll has found nothing, so nothing was taken
    have k := Stream.readBy_arrival deadline e.stream
    rw [h] at k
    obtain ⟨_, rfl, none⟩ := k
    refine ⟨[], [], none, rfl, (List.append_nil _).symm, ?_, fun h => absurd rfl h, fun _ => ?_⟩
    · intro p hp hne _
      exact absurd (List.prefix_nil.mp hp) hne
    · exact ⟨rfl, fun h => absurd rfl h, rfl⟩
  | case2 e b t h e' o ho =>
    obtain ⟨heard, a'⟩ := a.accept h
    rw [← hcs, classify_eq_answer a'.window a'.fits] at ho
    exact ⟨_, _, .stop heard ho (ne_timedOut_of_answer ho)⟩
  | case3 e b t h e' ho ih =>
    obtain ⟨heard, a'⟩ := a.accept h
    rw [← hcs, classify_eq_answer a'.window a'.fits] at ho
    obtain ⟨taken, rest, later⟩ := ih a'
    exact ⟨_, _, .cons heard ho later⟩

/-! ## Sessions -/

/-- The window of `f` has the size of that of `e`, and if that one was the end of all that was
    heard, so is this.  Every operation keeps it, and so in any session the window is the end of all
    that was heard. -/
def KeepsWindow (e f : Engine σ) : Prop :=
  f.window.capacity = e.window.capacity ∧
    (e.window.EndOf e.heard.value → f.window.EndOf f.heard.value)

/-- Who touches neither the window nor what was heard keeps the one the end of the other. -/
theorem keepsWindow_of_same {e f : Engine σ} (w : f.window = e.window) (h : f.heard = e.heard) :
    KeepsWindow e f := by
  unfold KeepsWindow
  rw [w, h]
  exact ⟨rfl, id⟩

/-- Nothing but hearing a byte concerns the window, whatever the stream is read for.  Reads of every
    kind pass the window by, and so do writes and registrations. -/
theorem keptBySession_window [Device σ] :
    KeptBySession (fun _ _ : Stream σ => True) KeepsWindow where
  reading := by constructor <;> intros <;> trivial
  trans _ _ _ h k := ⟨k.1.trans h.1, k.2 ∘ h.2⟩
  stream _ := keepsWindow_of_same rfl rfl
  hear e b := by
    refine ⟨rfl, fun h => ?_⟩
    rw [heard_hear]
    exact h.push b
  mail _ _ _ _ := keepsWindow_of_same rfl rfl
  print data e := by
    unfold print
    split
    · exact keepsWindow_of_same rfl rfl
    · exact keepsWindow_of_same rfl rfl
  register h e := by
    unfold register
    split
    · exact keepsWindow_of_same rfl rfl
    · exact keepsWindow_of_same rfl rfl
  deregister _ _ := keepsWindow_of_same rfl rfl
  link _ _ := keepsWindow_of_same rfl rfl

/-- After any calls on a fresh engine the window is the end of all that waits have heard, as much of it
    as the capacity holds.  So a wait on which no handler gets in between, for candidates that fit into
    the window, answers as a reader of the whole stream would, and takes no byte that this reader
    would leave. -/
theorem wait_answers_whole_stream [Device σ] (config : EngineConfig) (l : Link σ)
    (calls : List (Call σ)) :
    let e := (ofLink config l).session calls
    let heard := e.heard.value
    e.window.bytes = heard.rtake (min (max config.windowCapacity 1) heard.length) ∧
      ∀ (patterns : List Bytes) (timeout : Nat) (ok error : Bool), e.registry.handlers = [] →
        (∀ c ∈ candidates patterns ok error, c.1.length ≤ max config.windowCapacity 1) →
        ∃ taken rest, Answers (answer patterns ok error) (e.now + timeout) e
          (e.wait patterns timeout ok error).2 (e.wait patterns timeout ok error).1 taken rest := by
  intro e heard
  -- a fresh engine has heard nothing and holds nothing
  have fresh : (ofLink config l).window.EndOf (ofLink config l).heard.value := by
    simp [ofLink, Window.EndOf, Window.bytes, Window.ofCapacity, List.rtake]
  obtain ⟨size, kept⟩ := keptBySession_window.session calls (ofLink config l)
  replace kept : e.window.EndOf heard := kept fresh
  replace size : e.window.capacity = max config.windowCapacity 1 := size
  refine ⟨?_, fun patterns timeout ok error quiet fits => ?_⟩
  · -- a history shorter than the window is kept whole
    rw [kept, size, List.rtake, List.rtake]
    congr 1
    omega
  · exact waitUntil_answers _ ⟨quiet, kept, size ▸ fits⟩

/-- A handler that came and went, and then an answer: a run that meets every hypothesis.  It shows
    that the hypotheses do not exclude sessions in which handlers were at work. -/
theorem wait_answers_whole_stream_silent :
    let calls : List (Call Script) :=
      [.register (.notification "RING" .sslPeerClosed), .deregister 0,
        .link fun l => l.receive (.now (Utf8.encode "+X: 1\r\nOK\r\n"))]
    let e := (ofLink .standard (.ofDevice .silent)).session calls
    let patterns := [Utf8.encode "+X: "]
    e.registry.handlers = [] ∧
      (∀ c ∈ candidates patterns true true, c.1.length ≤ max EngineConfig.standard.windowCapacity 1) ∧
      ∃ taken rest, Answers (answer patterns true true) (e.now + 1000) e
        (e.wait patterns 1000 true true).2 (e.wait patterns 1000 true true).1 taken rest := by
  intro calls e patterns
  have quiet : e.registry.handlers = [] := rfl
  have fits : ∀ c ∈ candidates patterns true true,
      c.1.length ≤ max EngineConfig.standard.windowCapacity 1 := by decide
  obtain ⟨_, answers⟩ := wait_answers_whole_stream .standard (.ofDevice .silent) calls
  exact ⟨quiet, fits, answers patterns 1000 true true quiet fits⟩

end Engine
end AtModem
