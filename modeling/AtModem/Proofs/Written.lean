/-
  What an exchange writes, piece by piece.

  What goes toward the device is command lines and blocks of raw data (`Piece`).  An exchange issues some
  pieces if all it writes are pieces of these, in their order and each of them whole (`Issues`).  That
  composes as exchanges do: one after the other issues the pieces of the one and then those of the
  other, and an exchange that stops early has left out the rest.

  A check that comes before a command has to be seen in what is written, so a condition goes with the
  pieces: it holds of every piece that has been written, and if the exchange succeeds, of all of them.
-/
import AtModem.Proofs.Exchange.Services
import AtModem.Proofs.FarEnd

namespace AtModem

variable {σ ε τ α β : Type}

/-! ## Pieces -/

/-- What goes toward the device at once: a command line with the texts quoted in it, or a block of
    data. -/
inductive Piece where
  /-- A command line, and the texts of the caller that are quoted in it. -/
  | line (text : String) (quoted : List String)
  | data (bytes : Bytes)

/-- The bytes of a piece; a line has its end. -/
def Piece.bytes : Piece → Bytes
  | line text _ => Utf8.encode text ++ [Ascii.cr, Ascii.lf]
  | data bytes => bytes

namespace Engine

/-- Between `e` and `f` some of these pieces have been written, in their order, and only such as are
    `Q`.  Where an exchange is broken off, what was sent is a front of its pieces, or leaves some
    out that were not called for. -/
def Sent (Q : Piece → Prop) (pieces : List Piece) (e f : Engine σ) : Prop :=
  ∃ sent : List Piece, sent.Sublist pieces ∧ (∀ p ∈ sent, Q p) ∧
    f.stream.link.written = e.stream.link.written ++ sent.flatMap Piece.bytes

namespace Sent

variable {Q : Piece → Prop} {ps qs : List Piece} {e f g : Engine σ}

theorem append (h : Sent Q ps e f) (k : Sent Q qs f g) : Sent Q (ps ++ qs) e g := by
  obtain ⟨xs, hx, qx, wx⟩ := h
  obtain ⟨ys, hy, qy, wy⟩ := k
  refine ⟨xs ++ ys, hx.append hy, fun p hp => ?_, ?_⟩
  · rcases List.mem_append.mp hp with hp | hp
    · exact qx p hp
    · exact qy p hp
  · rw [wy, wx, List.flatMap_append, List.append_assoc]

theorem mono (h : Sent Q ps e f) (le : ps.Sublist qs) : Sent Q qs e f := by
  obtain ⟨xs, hx, q, w⟩ := h
  exact ⟨xs, hx.trans le, q, w⟩

theorem nothing (h : f.stream.link.written = e.stream.link.written) : Sent Q [] e f :=
  ⟨[], .refl _, fun _ h => (nomatch h), h.trans (List.append_nil _).symm⟩

theorem prefix_written (h : Sent Q ps e f) : e.stream.link.written <+: f.stream.link.written := by
  obtain ⟨xs, -, -, w⟩ := h
  exact ⟨_, w.symm⟩

end Sent
end Engine

open Engine

/-! ## Exchanges -/

/-- Begun in `s`, an exchange writes of these pieces and only such as are `Q`; if it succeeds, all
    of them are.  The engine is seen through `view`.  Exchanges behind one another issue the pieces
    of all, and so the writing of a method is put together like its code. -/
structure Issues (Q : Piece → Prop) (view : τ → Engine σ) (pieces : List Piece) (x : EStateM ε τ α)
    (s : τ) : Prop where
  sent : Sent Q pieces (view s) (view (endState (x s)))
  all : ∀ {a t}, x s = .ok a t → ∀ p ∈ pieces, Q p

namespace Issues

variable {Q : Piece → Prop} {view : τ → Engine σ} {ps qs : List Piece} {s : τ}

theorem of_eq {x y : EStateM ε τ α} (same : x s = y s) (h : Issues Q view ps y s) :
    Issues Q view ps x s where
  sent := by
    rw [same]
    exact h.sent
  all := by
    rw [same]
    exact h.all

theorem get_bind {f : τ → EStateM ε τ α} (h : Issues Q view ps (f s) s) :
    Issues Q view ps (get >>= f) s :=
  of_eq (y := f s) rfl h

/-- One exchange behind another issues the pieces of both; where the first fails, those of the
    second are left out.  What is `Q` need only be shown for the pieces that are reached. -/
protected theorem bind {x : EStateM ε τ α} {f : α → EStateM ε τ β} (hx : Issues Q view ps x s)
    (hf : ∀ a t, x s = .ok a t → Issues Q view qs (f a) t) : Issues Q view (ps ++ qs) (x >>= f) s := by
  have first := hx.sent
  cases e : x s with
  -- the second is reached
  | ok a t =>
    rw [e] at first
    have rest := hf a t e
    constructor
    · rw [bind_of_ok e]
      exact first.append rest.sent
    · intro b u h p hp
      rw [bind_of_ok e] at h
      rcases List.mem_append.mp hp with hp | hp
      · exact hx.all e p hp
      · exact rest.all h p hp
  -- the first fails, and what it has issued is what there is
  | error err t =>
    rw [e] at first
    constructor
    · rw [bind_of_error e]
      exact first.mono (List.sublist_append_left ps qs)
    · intro b u h
      rw [bind_of_error e] at h
      cases h

theorem skip {x : EStateM ε τ α} (written : (view (endState (x s))).stream.link.written =
    (view s).stream.link.written) (all : ∀ p ∈ ps, Q p) : Issues Q view ps x s where
  sent := (Sent.nothing written).mono (List.nil_sublist ps)
  all _ := all

theorem mono {x : EStateM ε τ α} (h : Issues Q view qs x s) (le : qs.Sublist ps)
    (all : ∀ p ∈ ps, Q p) : Issues Q view ps x s where
  sent := h.sent.mono le
  all _ := all

/-- An exchange that fails at once has written nothing. -/
theorem of_error {x : EStateM ε τ α} {err : ε} (h : x s = .error err s) : Issues Q view ps x s where
  sent := by
    rw [h]
    exact (Sent.nothing rfl).mono (List.nil_sublist ps)
  all k := by
    rw [h] at k
    cases k

theorem of_listening {x : EStateM ε (Engine σ) α} {e : Engine σ}
    (h : Along (fun e f : Engine σ => e.stream.link.SameFarEnd f.stream.link) x) :
    Issues Q id [] x e :=
  skip (h e).written fun _ h => (nomatch h)

/-! ## Exchanges of the engine -/

section

variable {e : Engine σ}

/-- A write is done or refused as a whole, so that a piece is written or not. -/
theorem of_writing {x : EngineM σ Unit} {p : Piece} (ok : Q p)
    (works : e.stream.link.failWrites = false → Wrote p.bytes e (endState (x e)))
    (broken : e.stream.link.failWrites = true → ∃ err, x e = .error err e) :
    Issues Q id [p] x e := by
  have only : ∀ p' ∈ [p], Q p' := fun p' h => List.mem_singleton.mp h ▸ ok
  cases state : e.stream.link.failWrites with
  | false =>
    refine ⟨⟨[p], .refl _, only, ?_⟩, fun _ => only⟩
    rw [List.flatMap_singleton]
    exact (works state).written
  | true =>
    obtain ⟨err, refused⟩ := broken state
    exact of_error refused

theorem then_listening {x : EStateM ε (Engine σ) α} {f : α → EStateM ε (Engine σ) β}
    (hx : Issues Q id ps x e)
    (hf : ∀ a, Along (fun e f : Engine σ => e.stream.link.SameFarEnd f.stream.link) (f a)) :
    Issues Q id ps (x >>= f) e := by
  have whole : Issues Q id (ps ++ []) (x >>= f) e := hx.bind fun a _ _ => of_listening (hf a)
  rwa [List.append_nil] at whole

variable [Device σ]

theorem data {bytes : Bytes} (ok : Q (.data bytes)) : Issues Q id [.data bytes] (print bytes) e :=
  of_writing ok (fun works => (print_of_working works bytes).2)
    fun broken => ⟨_, print_of_broken broken bytes⟩

theorem line {text : String} {quoted : List String} (ok : Q (.line text quoted)) :
    Issues Q id [.line text quoted] (send text) e :=
  of_writing ok (fun works => (send_of_working works text).2)
    fun broken => ⟨_, bind_of_error (print_of_broken broken _)⟩

theorem command {text : String} {quoted : List String} (ok : Q (.line text quoted)) (timeout : Nat) :
    Issues Q id [.line text quoted] (Engine.command text timeout) e :=
  (line ok).then_listening fun _ => keptByListening_farEnd.waitOk timeout

theorem plainCommand {text : String} {quoted : List String} (ok : Q (.line text quoted)) :
    Issues Q id [.line text quoted] (Engine.plainCommand text) e :=
  (of_listening keptByListening_farEnd.plainTimeout).bind fun timeout _ _ => command ok timeout

/-- An upload once its command line has been written: its data, or nothing. -/
theorem announced {u : Upload} (carries : Q (.data u.data)) :
    Issues Q id [.data u.data] (awaitPrompt u >>= fun _ => print u.data >>= fun _ => awaitConfirm u) e :=
  (of_listening (keptByListening_farEnd.awaitPrompt u)).bind fun _ _ _ =>
    (data carries).then_listening fun _ => keptByListening_farEnd.awaitConfirm u

/-- An upload is its line and its data; the data is left out if the prompt does not come. -/
theorem upload {u : Upload} {quoted : List String} (announces : Q (.line u.command quoted))
    (carries : Q (.data u.data)) :
    Issues Q id [.line u.command quoted, .data u.data] (Engine.upload u) e :=
  (line announces).bind fun _ _ _ => announced carries

end

/-! ## Exchanges of the services -/

/-- Led by a client an exchange writes what it writes alone. -/
theorem ofEngine {x : EngineM σ α} {e : Engine σ} (h : Issues Q id ps x e) :
    Issues Q id ps (ClientM.ofEngine x) e where
  sent := by
    rw [ClientM.endState_ofEngine]
    exact h.sent
  all k := h.all ((ClientM.ofEngine_eq_ok_iff _ _ _ _).mp k)

theorem beside {x : ClientM σ α} {e : Engine σ} {b : β} (h : Issues Q id ps x e) :
    Issues Q Prod.snd ps (ClientM.beside x) (b, e) where
  sent := by
    rw [ClientM.endState_beside]
    exact h.sent
  all {a t} k := by
    cases r : x e with
    | ok a' f => exact h.all r
    | error err f =>
      rw [ClientM.beside_of_error b r] at k
      cases k

end Issues

/-! ## What is written first -/

/-- Begun in `s` on a link that works, an exchange writes this piece before anything else.  It
    excludes that a method holds for a trivial reason, by never writing anything. -/
def Leads (view : τ → Engine σ) (p : Piece) (x : EStateM ε τ α) (s : τ) : Prop :=
  (view s).stream.link.failWrites = false →
    (view s).stream.link.written ++ p.bytes <+: (view (endState (x s))).stream.link.written

namespace Leads

variable {Q : Piece → Prop} {view : τ → Engine σ} {p : Piece} {ps : List Piece} {s : τ}

/-- What comes later only adds to it, so the first piece stays first. -/
protected theorem bind {x : EStateM ε τ α} {f : α → EStateM ε τ β} (hx : Leads view p x s)
    (hf : ∀ a t, x s = .ok a t → Issues Q view ps (f a) t) : Leads view p (x >>= f) s := by
  intro works
  have first := hx works
  cases e : x s with
  | ok a t =>
    rw [e] at first
    rw [bind_of_ok e]
    exact first.trans (hf a t e).sent.prefix_written
  | error err t =>
    rw [e] at first
    rw [bind_of_error e]
    exact first

/-- Led by a client an exchange begins with what it begins with alone. -/
theorem ofEngine {x : EngineM σ α} {e : Engine σ} (h : Leads id p x e) :
    Leads id p (ClientM.ofEngine x) e := by
  intro works
  rw [ClientM.endState_ofEngine]
  exact h works

theorem beside {x : ClientM σ α} {e : Engine σ} {b : β} (h : Leads id p x e) :
    Leads Prod.snd p (ClientM.beside x) (b, e) := by
  intro works
  rw [ClientM.endState_beside]
  exact h works

/-- What comes after the writing only listens, so the piece has been written whatever is heard. -/
theorem then_listening {e : Engine σ} {x : EStateM ε (Engine σ) α} {f : α → EStateM ε (Engine σ) β}
    (hx : Leads id p x e)
    (hf : ∀ a, Along (fun e f : Engine σ => e.stream.link.SameFarEnd f.stream.link) (f a)) :
    Leads id p (x >>= f) e := by
  have rest : ∀ a t, x e = .ok a t → Issues (fun _ => True) id [] (f a) t :=
    fun a _ _ => .of_listening (hf a)
  exact hx.bind rest

variable [Device σ] {e : Engine σ}

/-- On a link that works a command line is written. -/
theorem line (text : String) (quoted : List String) : Leads id (.line text quoted) (send text) e := by
  intro works
  exact ⟨[], (List.append_nil _).trans (send_of_working works text).2.written.symm⟩

theorem command (text : String) (quoted : List String) (timeout : Nat) :
    Leads id (.line text quoted) (Engine.command text timeout) e :=
  (line text quoted).then_listening fun _ => keptByListening_farEnd.waitOk timeout

theorem plainCommand (text : String) (quoted : List String) :
    Leads id (.line text quoted) (Engine.plainCommand text) e :=
  command text quoted e.defaultTimeout

theorem upload (u : Upload) (quoted : List String) :
    Leads id (.line u.command quoted) (Engine.upload u) e :=
  (line u.command quoted).bind (Q := fun _ => True) fun _ _ _ => .announced trivial

end Leads
end AtModem
