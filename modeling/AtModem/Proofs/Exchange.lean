/-
  What exchanges keep.

  An exchange with the device listens and writes.  A relation between engines that holds across every
  step of listening and across every write holds across whole exchanges: across commands, uploads and
  downloads, however they end.  If it also holds across the coming and going of a handler, it holds
  across that of several.  The lemmas here say so once for every such relation; an invariant of the
  engine then only has to be shown for single steps.
-/
import AtModem.Engine.Progress

namespace AtModem

/-! ## Errors that are caught -/

section

variable {ε τ α β : Type} {x : EStateM ε τ α} {s t : τ}

/-- A computation that succeeds is not disturbed by a handler for its errors: the result and the
    state are its own. -/
theorem tryCatch_of_ok {handle : ε → EStateM ε τ α} {a : α} (h : x s = .ok a t) :
    tryCatch x handle s = .ok a t := by
  show EStateM.tryCatch x handle s = .ok a t
  unfold EStateM.tryCatch
  rw [h]

/-- The state in which the error arose is the one its handler begins in. -/
theorem tryCatch_of_error {handle : ε → EStateM ε τ α} {err : ε} (h : x s = .error err t) :
    tryCatch x handle s = handle err t := by
  show EStateM.tryCatch x handle s = handle err t
  unfold EStateM.tryCatch
  rw [h]
  rfl

/-- A handler that does nothing but answer is nothing to the state. -/
theorem endState_tryCatch {handle : ε → EStateM ε τ α}
    (answers : ∀ err t, endState (handle err t) = t) :
    endState (tryCatch x handle s) = endState (x s) := by
  cases h : x s with
  | ok a t => rw [tryCatch_of_ok h]
  | error err t =>
    rw [tryCatch_of_error h]
    exact answers err t

/-- What comes finally begins in the state in which the rest ended, however that was. -/
theorem endState_tryFinally (f : EStateM ε τ β) :
    endState (tryFinally x f s) = endState (f (endState (x s))) := by
  show endState (EStateM.map Prod.fst (tryFinally' x fun _ => f) s) = _
  unfold EStateM.map
  simp only [tryFinally']
  cases h : x s with
  | ok a t => cases k : f t <;> simp only [k, endState_ok, endState_error]
  | error err t => cases k : f t <;> simp only [k, endState_ok, endState_error]

/-- What is made of a result is nothing to the state. -/
theorem endState_bind_pure (f : α → β) :
    endState ((x >>= fun a => pure (f a)) s) = endState (x s) := by
  cases h : x s with
  | ok a t =>
    rw [bind_of_ok h]
    rfl
  | error err t =>
    rw [bind_of_error h]
    rfl

end

namespace Along

variable {ε τ α β : Type} {R : τ → τ → Prop}

/-- If a transitive relation holds along a computation and along whatever is done about each of its
    errors, it holds along the two together; where no error arises the second part is not needed. -/
protected theorem tryCatch (trans : ∀ s t u, R s t → R t u → R s u) {x : EStateM ε τ α}
    {handle : ε → EStateM ε τ α} (hx : Along R x) (hh : ∀ err, Along R (handle err)) :
    Along R (tryCatch x handle) := by
  intro s
  have h := hx s
  cases e : x s with
  | ok a t =>
    rw [e] at h
    rw [tryCatch_of_ok e]
    exact h
  | error err t =>
    rw [e] at h
    rw [tryCatch_of_error e]
    exact trans _ _ _ h (hh err t)

/-- The same for what is done finally: it runs after success and after failure alike, so the
    relation is extended by one step in both cases. -/
protected theorem tryFinally (trans : ∀ s t u, R s t → R t u → R s u) {x : EStateM ε τ α}
    {f : EStateM ε τ β} (hx : Along R x) (hf : Along R f) : Along R (tryFinally x f) := by
  intro s
  rw [endState_tryFinally]
  exact trans _ _ _ (hx s) (hf _)

end Along

namespace Engine

variable {σ : Type}

/-! ## Exchanges that only listen -/

namespace KeptByListening

variable {S : Stream σ → Stream σ → Prop} {R : Engine σ → Engine σ → Prop} {α : Type}

/-- Asking for the default timeout looks at the engine and leaves it as it is. -/
theorem plainTimeout (k : KeptByListening S R) : Along R (Engine.plainTimeout (σ := σ)) :=
  k.bind k.get fun _ => k.pure _

/-- Waiting for `OK` is one wait and a verdict on its outcome, and the verdict does not touch the
    engine. -/
theorem waitOk (k : KeptByListening S R) (timeout : Nat) : Along R (Engine.waitOk timeout) :=
  k.bind (k.await _ _ _ _) fun _ => k.ofResult _

/-- Listening for reports alone is a wait that looks for nothing. -/
theorem listen (k : KeptByListening S R) (timeout : Nat) : Along R (Engine.listen timeout) :=
  k.bind (k.await _ _ _ _) fun _ => k.pure _

/-- To clear away what is left of an answer is to wait for its terminator and to forget the outcome. -/
theorem clear (k : KeptByListening S R) (timeout : Nat) : Along R (Engine.clear timeout) :=
  k.bind (k.await _ _ _ _) fun _ => k.pure _

/-- The same with the default timeout, which is read off the engine first. -/
theorem plainClear (k : KeptByListening S R) : Along R (Engine.plainClear (σ := σ)) :=
  k.bind k.plainTimeout fun _ => k.clear _

/-- A number and the rest of its answer: the number is read off the stream, then the terminator is
    waited for. -/
theorem parseIntClear (k : KeptByListening S R) (timeout : Nat) :
    Along R (Engine.parseIntClear timeout) :=
  k.bind (k.onStream k.reading.parseInt) fun _ => k.bind (k.clear _) fun _ => k.pure _

/-- A code and the rest of its line are read off the stream without a wait, so nothing but the
    stream moves. -/
theorem codeLine (k : KeptByListening S R) : Along R (Engine.codeLine (σ := σ)) :=
  k.bind (k.onStream k.reading.parseInt) fun _ =>
    k.bind (k.onStream (k.reading.find _)) fun _ => k.ofResult _

/-- The index up to a comma, a code and the rest of the line: three reads of the stream in a row. -/
theorem indexedCode (k : KeptByListening S R) : Along R (Engine.indexedCode (σ := σ)) :=
  k.onStream (k.reading.bind (k.reading.find _) fun _ => k.reading.bind k.reading.parseInt fun _ =>
    k.reading.bind (k.reading.find _) fun _ => k.reading.pure _)

/-- A result line that is checked as well; the check is made on the number and not on the engine. -/
theorem indexedCodeLine (k : KeptByListening S R) : Along R (Engine.indexedCodeLine (σ := σ)) :=
  k.bind k.indexedCode fun _ => k.ofResult _

/-- A result line in place of a prompt is read and what follows it is cleared away, and then there
    is always an error, which changes no state. -/
theorem readRefusal (k : KeptByListening S R) (u : Upload) : Along R (Engine.readRefusal (σ := σ) u) :=
  k.bind k.indexedCode fun _ => k.bind k.plainClear fun _ => k.bind (k.ofResult _) fun _ => k.throw _

/-- Whatever comes in place of a prompt, it has only been listened to: the cases differ in the
    outcome, and in one of them a line is read behind it. -/
theorem awaitPrompt (k : KeptByListening S R) (u : Upload) :
    Along R (Engine.awaitPrompt (σ := σ) u) := by
  refine k.bind (k.await _ _ _ _) fun outcome => ?_
  split
  · exact k.pure _
  · exact k.readRefusal u
  · exact k.throw _
  · exact k.throw _
  · exact k.throw _

/-- The wait for a result line, and the line if it came. -/
theorem awaitCode (k : KeptByListening S R) (pattern : Bytes) (timeout : Nat) :
    Along R (Engine.awaitCode (σ := σ) pattern timeout) := by
  refine k.bind (k.await _ _ _ _) fun outcome => ?_
  split
  · exact k.indexedCodeLine
  · exact k.ofResult _

/-- Both kinds of confirmation only listen, the terminator by a wait and the result line by a wait
    and a read. -/
theorem awaitConfirm (k : KeptByListening S R) (u : Upload) :
    Along R (Engine.awaitConfirm (σ := σ) u) := by
  refine k.bind k.plainTimeout fun _ => ?_
  split
  · exact k.waitOk _
  · exact k.awaitCode _ _

/-- The end of a download listens, if anything is expected there at all. -/
theorem finishTrailer (k : KeptByListening S R) (d : Download) :
    Along R (Engine.finishTrailer (σ := σ) d) := by
  refine k.bind k.plainTimeout fun _ => ?_
  split
  · exact k.waitOk _
  · exact k.bind (k.await _ _ _ _) fun _ => k.ofResult _
  · exact k.pure _

/-- A download that is too long is passed over and then refused.  Nothing is written, since a device
    cannot be told to stop. -/
theorem rejectDownload (k : KeptByListening S R) (d : Download) (declared capacity : Nat) :
    Along R (Engine.rejectDownload (α := α) (σ := σ) d declared capacity) :=
  k.bind (k.onStream (k.reading.skip _)) fun _ =>
    k.bind (Along.tryCatch k.trans (k.finishTrailer d) fun _ => k.pure _) fun _ => k.throw _

/-- Behind the payload come the trailer and, for some downloads, a check of the length; neither
    writes. -/
theorem closeDownload (k : KeptByListening S R) (d : Download) (declared : Nat) :
    Along R (Engine.closeDownload (σ := σ) d declared) := by
  refine k.bind (k.finishTrailer d) fun _ => ?_
  split
  · split
    · exact k.pure _
    · exact k.throw _
  · exact k.pure _

end KeptByListening

/-! ## Exchanges -/

/-- A relation between an engine before and after that holds across every step of an exchange.  Each
    command of the library keeps such a relation, by one lemma that does not look at what the
    relation says. -/
structure KeptByExchange [Device σ] (S : Stream σ → Stream σ → Prop) (R : Engine σ → Engine σ → Prop) :
    Prop extends KeptByListening S R where
  print : ∀ data, Along R (print data)

namespace KeptByExchange

variable [Device σ] {S : Stream σ → Stream σ → Prop} {R : Engine σ → Engine σ → Prop}

/-- Sending a line is two writes, and the relation holds along each of them whether or not the link
    takes it. -/
theorem send (k : KeptByExchange S R) (line : String) : Along R (Engine.send line) :=
  k.bind (k.print _) fun _ => k.print _

/-- A command is sent and answered: two steps of which the second only listens. -/
theorem command (k : KeptByExchange S R) (line : String) (timeout : Nat) :
    Along R (Engine.command line timeout) :=
  k.bind (k.send _) fun _ => k.waitOk _

theorem plainCommand (k : KeptByExchange S R) (line : String) : Along R (Engine.plainCommand line) :=
  k.bind k.plainTimeout fun _ => k.command _ _

/-- An upload writes its command line and, if the prompt has come, its data; all that stands between
    the writes listens. -/
theorem upload (k : KeptByExchange S R) (u : Upload) : Along R (Engine.upload u) :=
  k.bind (k.send _) fun _ => k.bind (k.awaitPrompt u) fun _ => k.bind (k.print _) fun _ =>
    k.awaitConfirm u

/-- The first half of a download, up to its length: the command is written, and from there on the
    engine only listens. -/
theorem openDownload (k : KeptByExchange S R) (d : Download) : Along R (Engine.openDownload d) := by
  refine k.bind (k.send _) fun _ => k.bind (k.await _ _ _ _) fun outcome => ?_
  split
  · exact k.bind (k.onStream k.reading.parseLen) fun _ =>
      k.bind (k.onStream (k.reading.find _)) fun _ => k.pure _
  · exact k.throw _
  · exact k.throw _

/-- A whole download writes nothing behind its command, whether the payload fits, is too long or is
    cut short. -/
theorem download (k : KeptByExchange S R) (d : Download) : Along R (Engine.download d) := by
  refine k.bind (k.openDownload d) fun declared => k.bind k.get fun e => ?_
  dsimp only
  split
  · exact k.rejectDownload d declared _
  · exact k.bind (k.onStream (k.reading.readExact _)) fun _ => k.bind (k.closeDownload d _) fun _ =>
      k.pure _

/-- The same for a download into a buffer of the caller, which stands beside the engine and is not
    related to anything. -/
theorem downloadInto (k : KeptByExchange S R) (d : Download) :
    Along (Beside R) (Engine.downloadInto d) := by
  refine k.beside_bind (along_besideBuffer (k.openDownload d)) fun declared =>
    k.beside_bind k.beside_get fun p => ?_
  dsimp only
  split
  · exact along_besideBuffer (k.rejectDownload d declared _)
  · exact k.beside_bind (k.fill _) fun _ =>
      k.beside_bind (along_besideBuffer (k.closeDownload d _)) fun _ => k.beside_pure _

end KeptByExchange

/-! ## Handlers come and go -/

/-- A relation between an engine before and after that also holds across registering a handler and
    across taking one out.  The facades register handlers and take them out, so a relation has to be
    kept by this, too, to hold for them. -/
structure KeptByHandling [Device σ] (S : Stream σ → Stream σ → Prop) (R : Engine σ → Engine σ → Prop) :
    Prop extends KeptByExchange S R where
  register : ∀ h, Along R (register h)
  deregister : ∀ id, Along R (deregister id)

namespace KeptByHandling

variable [Device σ] {S : Stream σ → Stream σ → Prop} {R : Engine σ → Engine σ → Prop}

/-- Handlers that are registered one by one, each of them by a step along which the relation holds. -/
theorem registerAll (k : KeptByHandling S R) (hs : List Handler) :
    Along R (Engine.registerAll (σ := σ) hs) := by
  induction hs with
  | nil => exact k.pure _
  | cons h hs ih =>
    refine k.bind (k.register h) fun id => Along.tryCatch k.trans ?_ fun err => ?_
    · exact k.bind ih fun _ => k.pure _
    · exact k.bind (k.deregister id) fun _ => k.throw _

theorem deregisterAll (k : KeptByHandling S R) (ids : List HandlerId) :
    Along R (Engine.deregisterAll (σ := σ) ids) := by
  induction ids with
  | nil => exact k.pure _
  | cons id ids ih => exact k.bind (k.deregister id) fun _ => ih

end KeptByHandling
end Engine
end AtModem
