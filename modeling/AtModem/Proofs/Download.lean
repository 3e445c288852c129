/-
  What a download does to the link does not depend on where its payload goes.

  A download sends its command, reads the header line, reads as many bytes as that announces and then
  consumes the trailer.  Whether the payload fits the storage, and whether its length is the one that
  was asked for, is known by then, and an answer that will be refused could be given up at any of these
  points; but then the rest of it would be in the way of the next command.  So the course of a download
  is the same for every storage and every expectation: `course` says what it is without either, and
  `Course.verdict` and `Course.stored` what is made of it.
-/
import AtModem.Engine.Transfer

namespace AtModem

/-! ## The limit of an engine -/

/-- A result with another state: what was returned or thrown stays, only the state behind it is
    replaced. -/
def mapState {ε σ τ α : Type} (f : σ → τ) : EStateM.Result ε σ α → EStateM.Result ε τ α
  | .ok a s => .ok a (f s)
  | .error err s => .error err (f s)

/-- A plain outcome as the end of a computation, with the state it leaves behind whichever way it
    ended. -/
def settle {ε σ α : Type} (s : σ) : Except ε α → EStateM.Result ε σ α
  | .ok a => .ok a s
  | .error err => .error err s

/-- How a computation ended, without the state: the part of a result that a caller can see. -/
def outcome {ε σ α : Type} : EStateM.Result ε σ α → Except ε α
  | .ok a _ => .ok a
  | .error err _ => .error err

namespace Engine

variable {σ α β : Type}

/-- The engine with another limit for the payloads that it reads into values of their own. -/
def withLimit (maxDownload : Nat) (e : Engine σ) : Engine σ := { e with maxDownload }

/-- The computation does the same under every limit, and leaves the limit as it is.  All steps of a
    download but one are such, and so the place where the limit counts is singled out. -/
def IgnoresLimit (x : EngineM σ α) : Prop :=
  ∀ limit e, x (e.withLimit limit) = mapState (withLimit limit) (x e)

/-! ### Waiting ignores the limit -/

@[simp] theorem stream_withLimit (limit : Nat) (e : Engine σ) :
    (e.withLimit limit).stream = e.stream := rfl

@[simp] theorem window_withLimit (limit : Nat) (e : Engine σ) :
    (e.withLimit limit).window = e.window := rfl

/-- A handler reads the stream and pushes into its inbox; the limit on downloads is nothing to
    it. -/
theorem notify_withLimit (limit : Nat) (e : Engine σ) (h : Handler) :
    (e.withLimit limit).notify h = (e.notify h).withLimit limit := by
  unfold notify
  rw [window_withLimit, stream_withLimit]
  by_cases w : e.window.endsWith h.pattern = true
  · rw [if_pos w, if_pos w]
    cases h.process e.stream <;> rfl
  · rw [if_neg w, if_neg w]

/-- Hearing a byte moves the window and runs handlers, and neither looks at the limit. -/
theorem accept_withLimit (limit : Nat) (e : Engine σ) (b : UInt8) :
    (e.withLimit limit).accept b = (e.accept b).withLimit limit := by
  suffices ∀ (hs : List Handler) (f : Engine σ),
      hs.foldl notify (f.withLimit limit) = (hs.foldl notify f).withLimit limit from
    this e.registry.handlers (e.hear b)
  intro hs
  induction hs with
  | nil => exact fun _ => rfl
  | cons h hs ih =>
    intro f
    rw [List.foldl_cons, List.foldl_cons, notify_withLimit]
    exact ih (f.notify h)

/-- A wait has the same outcome under every limit, by induction along its own recursion.  No step of
    it looks at the limit, which the handlers leave alone as well. -/
theorem waitUntil_withLimit (limit deadline : Nat) (cs : List (Bytes × MatchOutcome))
    (e : Engine σ) :
    (e.withLimit limit).waitUntil deadline cs =
      ((e.waitUntil deadline cs).1, (e.waitUntil deadline cs).2.withLimit limit) := by
  fun_induction waitUntil deadline cs e with
  | case1 e t h => exact waitUntil_of_none h
  | case2 e b t h e' o ho =>
    have a : ({ e.withLimit limit with stream := t }.accept b) = e'.withLimit limit :=
      accept_withLimit limit { e with stream := t } b
    have h' : (e.withLimit limit).stream.readBy deadline = (some b, t) := h
    rw [waitUntil_of_some h', a, window_withLimit, ho]
  | case3 e b t h e' ho ih =>
    have a : ({ e.withLimit limit with stream := t }.accept b) = e'.withLimit limit :=
      accept_withLimit limit { e with stream := t } b
    have h' : (e.withLimit limit).stream.readBy deadline = (some b, t) := h
    rw [waitUntil_of_some h', a, window_withLimit, ho]
    exact ih

namespace IgnoresLimit

theorem pure (a : α) : IgnoresLimit (pure a : EngineM σ α) := fun _ _ => rfl

theorem throw (err : AtError) : IgnoresLimit (throw err : EngineM σ α) := fun _ _ => rfl

/-- Ignoring the limit composes, so that a sequence is settled by its steps. -/
theorem bind {x : EngineM σ α} {f : α → EngineM σ β} (hx : IgnoresLimit x)
    (hf : ∀ a, IgnoresLimit (f a)) : IgnoresLimit (x >>= f) := by
  intro limit e
  have h := hx limit e
  cases r : x e with
  | ok a t =>
    rw [r] at h
    rw [bind_of_ok r, bind_of_ok h]
    exact hf a limit t
  | error err t =>
    rw [r] at h
    rw [bind_of_error r, bind_of_error h]
    rfl

/-- What only reads the stream cannot see the limit. -/
theorem onStream (x : StreamM σ α) : IgnoresLimit (Engine.onStream x) := by
  intro limit e
  unfold Engine.onStream
  rw [stream_withLimit]
  cases x e.stream <;> rfl

theorem print [Device σ] (data : Bytes) : IgnoresLimit (Engine.print (σ := σ) data) := by
  intro limit e
  unfold Engine.print
  rw [stream_withLimit]
  cases e.stream.link.write data <;> rfl

theorem send [Device σ] (line : String) : IgnoresLimit (Engine.send (σ := σ) line) :=
  bind (print _) fun _ => print _

theorem await (patterns : List Bytes) (timeout : Nat) (ok error : Bool) :
    IgnoresLimit (Engine.await (σ := σ) patterns timeout ok error) := by
  intro limit e
  have h := waitUntil_withLimit limit (e.now + timeout) (candidates patterns ok error) e
  have h' : (e.withLimit limit).wait patterns timeout ok error =
      ((e.wait patterns timeout ok error).1, (e.wait patterns timeout ok error).2.withLimit limit) := h
  simp only [Engine.await, h', mapState]

theorem ofResult (r : Except AtError α) : IgnoresLimit (Engine.ofResult (σ := σ) r) := by
  cases r with
  | ok a => exact pure a
  | error err => exact throw err

theorem plainTimeout : IgnoresLimit (Engine.plainTimeout (σ := σ)) := fun _ _ => rfl

theorem waitOk (timeout : Nat) : IgnoresLimit (Engine.waitOk (σ := σ) timeout) :=
  bind (await _ _ _ _) fun _ => ofResult _

/-- Opening a download reads the announced length but does not judge it, so the limit is not
    asked. -/
theorem openDownload [Device σ] (d : Download) : IgnoresLimit (Engine.openDownload (σ := σ) d) := by
  refine bind (send _) fun _ => bind (await _ _ _ _) fun outcome => ?_
  split
  · exact bind (onStream _) fun _ => bind (onStream _) fun _ => pure _
  · exact throw _
  · exact throw _

/-- The trailer is awaited whatever the limit is; only the verdict before it depends on that. -/
theorem finishTrailer (d : Download) : IgnoresLimit (Engine.finishTrailer (σ := σ) d) := by
  refine bind plainTimeout fun plain => ?_
  dsimp only
  split
  · exact waitOk _
  · exact bind (await _ _ _ _) fun _ => ofResult _
  · exact pure _

end IgnoresLimit
end Engine

/-! ## The course of a download -/

/-- How a download went, apart from what is made of it: it failed before its payload, the payload
    came short, or the payload was whole and the trailer ended one way or the other.  The four ways
    to take in a payload differ in what they make of the course, and not in the course itself. -/
inductive Course where
  /-- It failed before its payload. -/
  | failed (err : AtError)
  /-- Of so many bytes only these came. -/
  | short (declared : Nat) (got : Bytes) (cut : got.length < declared)
  /-- All of the payload came, and after it the trailer, or what was wrong with it. -/
  | whole (data : Bytes) (trailer : Except AtError Unit)

namespace Course

/-- What is made of it where there is room for `capacity` bytes and so many are expected.  The tests
    stand in the order in which they decide: first the room, then the trailer, last the expected
    length. -/
def verdict (capacity : Nat) (expected : Option Nat) : Course → Except AtError Bytes
  | failed err => .error err
  | short declared got _ => .error (.transferLengthMismatch declared got.length)
  | whole data trailer =>
    if capacity < data.length then .error (.outOfStorage capacity data.length)
    else
      match trailer, expected with
      | .error err, _ => .error err
      | .ok (), some e =>
        if e = data.length then .ok data else .error (.transferLengthMismatch e data.length)
      | .ok (), none => .ok data

/-- A payload that storage cannot take is refused as such, however its trailer went and whatever was
    expected. -/
theorem verdict_of_big {capacity : Nat} {data : Bytes} (big : capacity < data.length)
    (trailer : Except AtError Unit) (expected : Option Nat) :
    (whole data trailer).verdict capacity expected = .error (.outOfStorage capacity data.length) :=
  if_pos big

/-- What is handed over of a whole payload is the payload: a verdict may refuse it but never cuts
    it. -/
theorem eq_of_verdict_eq_ok {capacity : Nat} {expected : Option Nat} {data got : Bytes}
    {trailer : Except AtError Unit} (h : (whole data trailer).verdict capacity expected = .ok got) :
    got = data := by
  simp only [verdict] at h
  split at h
  · cases h
  · split at h
    · cases h
    · split at h <;> cases h
      rfl
    · cases h
      rfl

/-- What the course leaves in storage that held `before`: what came, in front of what was there,
    unless the announced length does not fit, in which case storage is not touched. -/
def stored (before : Bytes) : Course → Bytes
  | failed _ => before
  | short declared got _ =>
    if before.length < declared then before else got ++ before.drop got.length
  | whole data _ =>
    if before.length < data.length then before else data ++ before.drop data.length

/-- The length that was announced, if it came to that; storage behind it is never written. -/
def declared : Course → Option Nat
  | failed _ => none
  | short declared _ _ => some declared
  | whole data _ => some data.length

/-- Behind the announced length storage stays as it was, on every course.  A payload is put in front
    of what was there, and is no longer than was announced. -/
theorem drop_stored {c : Course} {n : Nat} (h : c.declared = some n) (before : Bytes) :
    (c.stored before).drop n = before.drop n := by
  cases c with
  | failed err => cases h
  | short declared got cut =>
    obtain rfl : declared = n := Option.some.inj h
    simp only [stored]
    split
    · rfl
    · have rest : got.length + (declared - got.length) = declared := by omega
      rw [List.drop_append, List.drop_eq_nil_of_le (Nat.le_of_lt cut), List.nil_append,
        List.drop_drop, rest]
  | whole data trailer =>
    obtain rfl : data.length = n := Option.some.inj h
    simp only [stored]
    split
    · rfl
    · rw [List.drop_left]

end Course

namespace Engine

variable {σ : Type}

/-- The course of a download, and the engine after it: neither the limit nor the expected length
    occurs here. -/
def course [Device σ] (d : Download) (e : Engine σ) : Course × Engine σ :=
  match openDownload d e with
  | .error err f => (.failed err, f)
  | .ok declared f =>
    let got := f.stream.gather declared
    let f := { f with stream := got.2 }
    if cut : got.1.length < declared then (.short declared got.1 cut, f)
    else
      match finishTrailer d f with
      | .ok () g => (.whole got.1 (.ok ()), g)
      | .error err g => (.whole got.1 (.error err), g)

/-! ### Ways to go -/

section

variable [Device σ] {d : Download} {e f : Engine σ} {declared : Nat} {err : AtError}

/-- A download whose header did not come ends there, with the engine as the header's wait left
    it. -/
theorem course_of_failed (o : openDownload d e = .error err f) : course d e = (.failed err, f) := by
  unfold course
  rw [o]

/-- A payload that comes short ends the course with its bytes taken off the link, and no trailer is
    awaited. -/
theorem course_of_cut (o : openDownload d e = .ok declared f)
    (cut : (f.stream.gather declared).1.length < declared) :
    course d e =
      (.short declared (f.stream.gather declared).1 cut,
        { f with stream := (f.stream.gather declared).2 }) := by
  unfold course
  rw [o]
  exact dif_pos cut

/-- Behind a whole payload the trailer is awaited, and how that went is part of the course. -/
theorem course_of_whole (o : openDownload d e = .ok declared f)
    (all : (f.stream.gather declared).1.length = declared) :
    let r := finishTrailer d { f with stream := (f.stream.gather declared).2 }
    course d e = (.whole (f.stream.gather declared).1 (outcome r), endState r) := by
  intro r
  unfold course
  rw [o]
  refine (dif_neg (by omega)).trans ?_
  show (match r with
    | .ok () g => (Course.whole (f.stream.gather declared).1 (.ok ()), g)
    | .error err g => (Course.whole (f.stream.gather declared).1 (.error err), g)) = _
  cases r <;> rfl

end

/-- The course does not depend on the limit: opening, gathering and the trailer all ignore it.  So
    two downloads that differ in their limits differ only in the verdict. -/
theorem course_withLimit [Device σ] (limit : Nat) (d : Download) (e : Engine σ) :
    course d (e.withLimit limit) = ((course d e).1, (course d e).2.withLimit limit) := by
  have h := IgnoresLimit.openDownload d limit e
  cases o : openDownload d e with
  | error err f =>
    rw [o] at h
    -- a header that does not come fails alike
    rw [course_of_failed o, course_of_failed h]
  | ok declared f =>
    rw [o] at h
    have le := Stream.length_gather_le declared f.stream
    by_cases cut : (f.stream.gather declared).1.length < declared
    -- the payload is cut at the same byte
    · rw [course_of_cut o cut]
      exact course_of_cut h cut
    · have all : (f.stream.gather declared).1.length = declared := by omega
      -- the trailer is the same computation on the same engine
      have t := IgnoresLimit.finishTrailer d limit { f with stream := (f.stream.gather declared).2 }
      rw [course_of_whole o all]
      refine (course_of_whole h all).trans ?_
      refine (congrArg (fun r => (Course.whole _ (outcome r), endState r)) t).trans ?_
      cases finishTrailer d { f with stream := (f.stream.gather declared).2 } <;> rfl

/-! ### Parts of a download -/

/-- What ignores the limit leaves it alone, since running under another limit must come to the same
    engine. -/
theorem IgnoresLimit.maxDownload_eq {α : Type} {x : EngineM σ α} (h : IgnoresLimit x) (e : Engine σ) :
    (endState (x e)).maxDownload = e.maxDownload := by
  -- giving it the limit that it has changes nothing
  have k : x e = mapState (withLimit e.maxDownload) (x e) := h e.maxDownload e
  rw [k]
  cases x e <;> rfl

/-- Reading a payload exactly is gathering it and failing if it came short. -/
theorem onStream_readExact (count : Nat) (f : Engine σ) :
    onStream (Stream.readExact count) f =
      let got := f.stream.gather count
      let g := { f with stream := got.2 }
      if got.1.length = count then .ok got.1 g
      else .error (.transferLengthMismatch count got.1.length) g := by
  simp only [onStream, Stream.readExact]
  by_cases c : (f.stream.gather count).1.length = count
  · simp only [if_pos c]
  · simp only [if_neg c]

/-- Skipping a payload takes the same bytes off the link as reading it would, and fails on the same
    counts. -/
theorem onStream_skip (count : Nat) (f : Engine σ) :
    onStream (Stream.skip count) f =
      let got := f.stream.gather count
      let g := { f with stream := got.2 }
      if got.1.length = count then .ok () g
      else .error (.transferLengthMismatch count got.1.length) g := by
  simp only [onStream, Stream.skip, Stream.readExact, bind, EStateM.bind]
  by_cases c : (f.stream.gather count).1.length = count
  · simp only [if_pos c]
    rfl
  · simp only [if_neg c]

/-- A payload that is refused is read all the same, and so is its trailer: this is why a refused
    download leaves the link where an accepted one does. -/
theorem rejectDownload_eq {α : Type} (d : Download) (declared capacity : Nat) (f : Engine σ) :
    rejectDownload (α := α) d declared capacity f =
      let got := f.stream.gather declared
      let g := { f with stream := got.2 }
      if got.1.length = declared then
        .error (.outOfStorage capacity declared) (endState (finishTrailer d g))
      else .error (.transferLengthMismatch declared got.1.length) g := by
  have skipped := onStream_skip declared f
  dsimp only at skipped ⊢
  by_cases c : (f.stream.gather declared).1.length = declared
  · rw [if_pos c] at skipped ⊢
    refine (bind_of_ok skipped).trans ?_
    -- the error stands already, whatever is wrong with the trailer
    show EStateM.bind (EStateM.tryCatch (finishTrailer d) _) _ _ = _
    unfold EStateM.bind EStateM.tryCatch
    cases finishTrailer d { f with stream := (f.stream.gather declared).2 } <;> rfl
  · rw [if_neg c] at skipped ⊢
    exact bind_of_error skipped

/-- A payload for which there is room is closed as the verdict on its course says, and the engine is
    the one its trailer left.  The expected length is looked at after the trailer, so an error there
    comes first. -/
theorem closeDownload_eq (d : Download) {data : Bytes} {capacity : Nat}
    (fits : ¬capacity < data.length) (g : Engine σ) :
    closeDownload d data.length g =
      settle (endState (finishTrailer d g))
        (((Course.whole data (outcome (finishTrailer d g))).verdict capacity d.expected).map
          fun _ => ()) := by
  simp only [Course.verdict, if_neg fits]
  cases t : finishTrailer d g with
  | error err h => exact bind_of_error t
  | ok _ h =>
    refine (bind_of_ok t).trans ?_
    cases d.expected with
    | none => rfl
    | some e =>
      by_cases c : e = data.length
      · simp only [if_pos c, outcome]
        rfl
      · simp only [if_neg c, outcome]
        rfl

/-- A computation beside a buffer is the computation itself, with the buffer carried along. -/
theorem besideBuffer_eq {ε α : Type} (x : EStateM ε (Engine σ) α) (b : Buffer) (e : Engine σ) :
    besideBuffer x (b, e) = mapState (b, ·) (x e) := by
  simp only [besideBuffer]
  cases x e <;> rfl

theorem besideBuffer_of_ok {ε α : Type} {x : EStateM ε (Engine σ) α} {a : α} {e f : Engine σ}
    (r : x e = .ok a f) (b : Buffer) : besideBuffer x (b, e) = .ok a (b, f) := by
  rw [besideBuffer_eq, r]
  rfl

theorem besideBuffer_of_error {ε α : Type} {x : EStateM ε (Engine σ) α} {err : ε} {e f : Engine σ}
    (r : x e = .error err f) (b : Buffer) : besideBuffer x (b, e) = .error err (b, f) := by
  rw [besideBuffer_eq, r]
  rfl

/-- Filling places all that comes, even if it is too little; it fails only after storing the bytes
    it got. -/
theorem fill_eq (count : Nat) (b : Buffer) (f : Engine σ) :
    fill count (b, f) =
      let got := f.stream.gather count
      let p : Buffer × Engine σ := (b.put got.1, { f with stream := got.2 })
      if got.1.length = count then .ok () p
      else .error (.transferLengthMismatch count got.1.length) p := by
  simp only [fill, Buffer.fill]
  by_cases c : (f.stream.gather count).1.length = count
  · simp only [if_pos c]
  · simp only [if_neg c]

/-- Storage into which nothing was put before holds just what came. -/
theorem fill_ofSize (size count : Nat) (f : Engine σ) :
    fill count (.ofSize size, f) =
      let got := f.stream.gather count
      let p : Buffer × Engine σ := (⟨size, got.1⟩, { f with stream := got.2 })
      if got.1.length = count then .ok () p
      else .error (.transferLengthMismatch count got.1.length) p := by
  simp only [fill_eq, Buffer.put, Buffer.ofSize, List.nil_append]

/-! ### Both downloads take this course -/

/-- What a download into a value of its own comes to: the verdict on its course under the engine's
    own limit. -/
theorem download_eq_course [Device σ] (d : Download) (e : Engine σ) :
    download d e = settle (course d e).2 ((course d e).1.verdict e.maxDownload d.expected) := by
  have limit := (IgnoresLimit.openDownload d).maxDownload_eq e
  cases o : openDownload d e with
  | error err f =>
    rw [course_of_failed o]
    exact bind_of_error o
  | ok declared f =>
    rw [o] at limit
    replace limit : f.maxDownload = e.maxDownload := limit
    refine (bind_of_ok o).trans ?_
    -- the limit is read only now, but the header has left it as it was
    show (if f.maxDownload < declared then _ else _ : EngineM σ Bytes) f = _
    rw [limit]
    have le := Stream.length_gather_le declared f.stream
    have read := onStream_readExact declared f
    by_cases cut : (f.stream.gather declared).1.length < declared
    · -- the payload breaks off: all the same whether it was to be kept or not
      have short : ¬(f.stream.gather declared).1.length = declared := by omega
      rw [course_of_cut o cut]
      by_cases big : e.maxDownload < declared
      · rw [if_pos big]
        exact (rejectDownload_eq ..).trans (if_neg short)
      · rw [if_neg big]
        exact bind_of_error (read.trans (if_neg short))
    · have all : (f.stream.gather declared).1.length = declared := by omega
      rw [course_of_whole o all]
      by_cases big : e.maxDownload < declared
      · rw [if_pos big]
        refine (rejectDownload_eq ..).trans ((if_pos all).trans ?_)
        have big' : e.maxDownload < (f.stream.gather declared).1.length := by omega
        rw [Course.verdict_of_big big', all]
        rfl
      · -- the verdict on a payload for which there is room is made in closing
        rw [if_neg big]
        refine (bind_of_ok (read.trans (if_pos all))).trans ?_
        have fits : ¬e.maxDownload < (f.stream.gather declared).1.length := by omega
        have closed := closeDownload_eq d fits { f with stream := (f.stream.gather declared).2 }
        rw [all] at closed
        cases v : (Course.whole (f.stream.gather declared).1 _).verdict e.maxDownload d.expected with
        | error err =>
          rw [v] at closed
          exact bind_of_error closed
        | ok data =>
          rw [v] at closed
          rw [Course.eq_of_verdict_eq_ok v]
          exact bind_of_ok closed

/-- What a download into fresh storage comes to, and what the storage is like after it.  The storage
    is given by its size; what it held before enters only at the end, when it is written over. -/
theorem downloadInto_eq_course [Device σ] (d : Download) (before : Bytes) (e : Engine σ) :
    ∃ storage, storage.«over» before = (course d e).1.stored before ∧
      downloadInto d (.ofSize before.length, e) =
        settle (storage, (course d e).2)
          (((course d e).1.verdict before.length d.expected).map List.length) := by
  have opened := besideBuffer_eq (openDownload d) (.ofSize before.length) e
  cases o : openDownload d e with
  | error err f =>
    rw [o] at opened
    rw [course_of_failed o]
    exact ⟨.ofSize before.length, rfl, bind_of_error opened⟩
  | ok declared f =>
    rw [o] at opened
    -- with the length known, what is left is the choice between refusing and filling
    have entered (r) (h : (if before.length < declared then _ else _ : BufferM AtError σ Nat)
        (.ofSize before.length, f) = r) : downloadInto d (.ofSize before.length, e) = r :=
      (bind_of_ok opened).trans h
    have le := Stream.length_gather_le declared f.stream
    have filled := fill_ofSize before.length declared f
    have rejected := besideBuffer_eq (rejectDownload (α := Nat) d declared before.length)
      (.ofSize before.length) f
    rw [rejectDownload_eq] at rejected
    by_cases cut : (f.stream.gather declared).1.length < declared
    · have short : ¬(f.stream.gather declared).1.length = declared := by omega
      rw [course_of_cut o cut]
      by_cases big : before.length < declared
      · refine ⟨.ofSize before.length, (if_pos big).symm, entered _ ?_⟩
        rw [if_pos big]
        refine rejected.trans ?_
        rw [if_neg short]
        rfl
      · -- what came of the payload stays in the storage
        refine ⟨⟨before.length, (f.stream.gather declared).1⟩, (if_neg big).symm, entered _ ?_⟩
        rw [if_neg big]
        exact bind_of_error (filled.trans (if_neg short))
    · have all : (f.stream.gather declared).1.length = declared := by omega
      rw [course_of_whole o all]
      by_cases big : before.length < declared
      · have big' : before.length < (f.stream.gather declared).1.length := by omega
        refine ⟨.ofSize before.length, (if_pos big').symm, entered _ ?_⟩
        rw [if_pos big]
        refine rejected.trans ?_
        rw [if_pos all, Course.verdict_of_big big', all]
        rfl
      · have fits : ¬before.length < (f.stream.gather declared).1.length := by omega
        refine ⟨⟨before.length, (f.stream.gather declared).1⟩, (if_neg fits).symm, entered _ ?_⟩
        rw [if_neg big]
        refine (bind_of_ok (filled.trans (if_pos all))).trans ?_
        have closed := closeDownload_eq d fits { f with stream := (f.stream.gather declared).2 }
        have beside := besideBuffer_eq (closeDownload d declared)
          ⟨before.length, (f.stream.gather declared).1⟩
          { f with stream := (f.stream.gather declared).2 }
        rw [all] at closed
        rw [closed] at beside
        cases v : (Course.whole (f.stream.gather declared).1 _).verdict before.length d.expected with
        | error err =>
          rw [v] at beside
          exact bind_of_error beside
        | ok data =>
          rw [v] at beside
          refine (bind_of_ok beside).trans ?_
          rw [Course.eq_of_verdict_eq_ok v]
          exact congrArg (EStateM.Result.ok · _) all.symm

/-- Whatever a download is to do with its payload, it takes the same course and leaves the same engine
    and the same link.  Under any limit and into any storage, with any expectation or none, only the
    verdict on that course differs, and storage behind the announced length is never touched. -/
theorem download_course_independent [Device σ] (d : Download) (e : Engine σ) (limit : Nat)
    (expected : Option Nat) (before : Bytes) :
    let c := (course d e).1
    let f := (course d e).2
    download { d with expected } (e.withLimit limit) =
        settle (f.withLimit limit) (c.verdict limit expected) ∧
      ∃ storage : Buffer,
        downloadInto { d with expected } (.ofSize before.length, e.withLimit limit) =
            settle (storage, f.withLimit limit)
              ((c.verdict before.length expected).map List.length) ∧
          storage.«over» before = c.stored before ∧
          ∀ n, c.declared = some n → (storage.«over» before).drop n = before.drop n := by
  have same : course { d with expected } (e.withLimit limit) =
      ((course d e).1, (course d e).2.withLimit limit) := course_withLimit limit d e
  constructor
  · have h := download_eq_course { d with expected } (e.withLimit limit)
    rw [same] at h
    exact h
  · obtain ⟨storage, held, h⟩ := downloadInto_eq_course { d with expected } before (e.withLimit limit)
    rw [same] at h held
    refine ⟨storage, h, held, fun n hn => ?_⟩
    rw [held]
    exact Course.drop_stored hn before

end Engine
end AtModem
