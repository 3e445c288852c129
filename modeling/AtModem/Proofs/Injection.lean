/-
  What the methods that quote texts write.

  A method checks its texts, or it does not, and then goes from command to command.  Three things are
  known of each (`Obeys`): which pieces it writes and which of them not, what it refuses before it writes
  anything, and that it begins to write if it refuses nothing.  The check of a single command is followed
  through what the check says; a method of several commands is followed through its parts, where the
  success of one part says that its text has been checked.
-/
import AtModem.Proofs.Listing
import AtModem.Proofs.Quoting

namespace AtModem

open Engine ClientM

variable {σ τ α β : Type}

/-! ## Checks -/

/-- A check looks at an argument and leaves the engine alone: it refuses the fault that is found,
    and does nothing where there is none.  It comes before the first byte of its command, which is
    why a refused call leaves no trace at the device. -/
def Checks (fault? : Option ArgumentFault) (check : ClientM σ Unit) : Prop :=
  ∀ e, check e = match fault? with
    | none => .ok () e
    | some fault => .error (.invalidArgument fault) e

/-- What is known of a method that quotes texts, begun in `s`: the pieces that it goes through, what
    it refuses before it writes any of them, and that it begins to write if it refuses nothing.  It
    is kept when methods follow one another, so a method with several commands is treated like each
    of its parts. -/
structure Obeys (Q : Piece → Prop) (view : τ → Engine σ) (fault? : Option ArgumentFault)
    (pieces : List Piece) (x : EStateM ClientError τ α) (s : τ) : Prop where
  issues : Issues Q view pieces x s
  refused : ∀ fault, fault? = some fault → x s = .error (.invalidArgument fault) s
  leads : fault? = none → ∀ p, pieces.head? = some p → Leads view p x s

namespace Obeys

variable {Q : Piece → Prop} {view : τ → Engine σ} {fault? : Option ArgumentFault}
  {ps qs : List Piece} {s : τ} {e : Engine σ}

/-- A method that checks nothing refuses nothing, and what it writes is all there is to say. -/
theorem of_issues {x : EStateM ClientError τ α} (issues : Issues Q view ps x s)
    (leads : ∀ p, ps.head? = some p → Leads view p x s) : Obeys Q view none ps x s :=
  ⟨issues, fun _ h => (nomatch h), fun _ => leads⟩

/-- It is what a method does from here that counts, however it is put together. -/
theorem of_eq {x y : EStateM ClientError τ α} (same : x s = y s) (h : Obeys Q view fault? ps y s) :
    Obeys Q view fault? ps x s where
  issues := .of_eq same h.issues
  refused fault k := same.trans (h.refused fault k)
  leads none p hp := by
    intro works
    rw [same]
    exact h.leads none p hp works

/-- A method that begins with a check refuses what the check finds, and else what the rest does.
    The first fault that is found is the one that is reported, so the order of the checks counts. -/
theorem after_check {first second : Option ArgumentFault} {check : ClientM σ Unit} {x : ClientM σ α}
    (h : Checks first check) (hx : first = none → Obeys Q id second ps x e) :
    Obeys Q id (first.or second) ps (check >>= fun _ => x) e := by
  have looked := h e
  cases first with
  | none =>
    -- nothing is found: the method goes on as if the check were not there
    have same : (check >>= fun _ => x) e = x e := bind_of_ok looked
    obtain ⟨issues, refused, leads⟩ := hx rfl
    refine ⟨⟨?_, ?_⟩, fun fault k => ?_, fun free p hp works => ?_⟩
    · rw [same]
      exact issues.sent
    · rw [same]
      exact issues.all
    · rw [same]
      exact refused fault k
    · rw [same]
      exact leads free p hp works
  | some fault =>
    -- a fault is found: nothing is written
    have refused : (check >>= fun _ => x) e = .error (.invalidArgument fault) e := bind_of_error looked
    refine ⟨.of_error refused, fun _ k => ?_, fun k => (nomatch k)⟩
    cases k
    exact refused

/-- A method that makes one check and then does something may take for granted there what was
    checked. -/
theorem of_check {check : ClientM σ Unit} {x : ClientM σ α} (h : Checks fault? check)
    (issues : fault? = none → Issues Q id ps x e)
    (leads : ∀ p, ps.head? = some p → Leads id p x e) :
    Obeys Q id fault? ps (check >>= fun _ => x) e := by
  have whole : Obeys Q id (fault?.or none) ps (check >>= fun _ => x) e :=
    after_check h fun free => of_issues (issues free) leads
  rwa [Option.or_none] at whole

/-- The same for a method that refuses its text on a condition of its own. -/
theorem of_refusal {c : Prop} [Decidable c] {fault : ArgumentFault} {x : ClientM σ α}
    (issues : ¬c → Issues Q id ps x e) (leads : ∀ p, ps.head? = some p → Leads id p x e) :
    Obeys Q id (if c then some fault else none) ps
      (if c then refuse (α := Unit) fault >>= fun _ => x else x) e := by
  split
  · refine ⟨.of_error (bind_of_error rfl), fun _ h => ?_, fun h => (nomatch h)⟩
    cases h
    exact bind_of_error rfl
  · rename_i free
    exact ⟨issues free, fun _ h => (nomatch h), fun _ => leads⟩

/-- What comes first decides what is refused and what is written first; it must write something, or
    the second part would decide that. -/
protected theorem bind {x : EStateM ClientError τ α} {f : α → EStateM ClientError τ β}
    (hx : Obeys Q view fault? ps x s) (some : ps ≠ [])
    (hf : ∀ a t, x s = .ok a t → Issues Q view qs (f a) t) :
    Obeys Q view fault? (ps ++ qs) (x >>= f) s where
  issues := hx.issues.bind hf
  refused fault h := bind_of_error (hx.refused fault h)
  leads none p hp := by
    cases ps with
    | nil => exact absurd rfl some
    | cons first rest => exact (hx.leads none p hp).bind hf

/-- What a context leads obeys as the context's method just what it obeys alone. -/
theorem beside {x : ClientM σ α} {b : β} (h : Obeys Q id fault? ps x e) :
    Obeys Q Prod.snd fault? ps (ClientM.beside x) (b, e) where
  issues := h.issues.beside
  refused fault k := beside_of_error b (h.refused fault k)
  leads none p hp := (h.leads none p hp).beside

end Obeys

/-! ## Methods of one command -/

open QuotingMethod

section

variable {Q : Piece → Prop} {e : Engine σ}

/-- The check of a slot's name refuses an empty one and what cannot be quoted. -/
theorem checks_slot (slot : String) : Checks (σ := σ) (slotFault slot) (Ssl.checkSlot slot) := by
  intro e
  unfold slotFault Ssl.checkSlot
  split <;> rfl

theorem quotable_of_slotFault {slot : String} (h : slotFault slot = none) : quotable slot = true := by
  unfold slotFault at h
  split at h
  · cases h
  · rename_i ok
    simp only [Bool.or_eq_true, Bool.not_eq_true', not_or, Bool.not_eq_false] at ok
    exact ok.2

/-- The check of a broker's text refuses what cannot be quoted. -/
theorem checks_text (text : String) : Checks (σ := σ) (textFault text) (Mqtt.checkText text) := by
  intro e
  unfold textFault Mqtt.checkText
  split <;> rfl

theorem quotable_of_textFault {text : String} (h : textFault text = none) : quotable text = true := by
  unfold textFault at h
  split at h
  · assumption
  · cases h

variable [Device σ]

/-- Setting a parameter of a context is one command. -/
theorem issues_configure {key value : String} {ctx : ContextIndex} {quoted : List String}
    (ok : Q (configured key ctx value quoted)) :
    Issues Q id [configured key ctx value quoted] (Ssl.configure key ctx value) e :=
  (Issues.plainCommand ok).ofEngine

theorem leads_configure (key value : String) (ctx : ContextIndex) (quoted : List String) :
    Leads id (configured key ctx value quoted) (Ssl.configure key ctx value) e :=
  (Leads.plainCommand _ quoted).ofEngine

/-- Whatever the slot is bound as, the same command is sent for another parameter, and nothing is
    checked. -/
theorem bindSlot_eq (as : SlotUse) (ctx : ContextIndex) (slot : String) :
    bindSlot (σ := σ) ctx slot as = Ssl.configure as.parameter ctx (inQuotes slot) := by
  cases as <;> rfl

/-- Binding a slot writes the one command with the slot's name as it is. -/
theorem issues_bindSlot {as : SlotUse} {ctx : ContextIndex} {slot : String}
    (ok : Q (bound as ctx slot)) : Issues Q id [bound as ctx slot] (bindSlot ctx slot as) e := by
  rw [bindSlot_eq]
  exact issues_configure ok

/-- It is written at once, so that an unchecked name does reach the device. -/
theorem leads_bindSlot (as : SlotUse) (ctx : ContextIndex) (slot : String) :
    Leads id (bound as ctx slot) (bindSlot ctx slot as) e := by
  rw [bindSlot_eq]
  exact leads_configure _ _ _ _

/-- An upload checks the slot's name before its announcement. -/
theorem obeys_certDownload {slot : String} {data : Bytes}
    (ok : quotable slot = true → ∀ p ∈ storing data slot, Q p) :
    Obeys Q id (slotFault slot) (storing data slot) (Ssl.certDownload data slot) e := by
  let u : Upload :=
    { command := s!"AT+CCERTDOWN={inQuotes slot},{data.length}", data,
      promptTimeout := Ssl.storeTimeout }
  refine .of_check (x := ofEngine (upload u)) (checks_slot slot) (fun free => ?_) fun p hp => ?_
  · obtain ⟨announces, carries⟩ := List.forall_mem_cons.mp (ok (quotable_of_slotFault free))
    exact (Issues.upload (u := u) announces (List.forall_mem_singleton.mp carries)).ofEngine
  · cases hp
    exact (Leads.upload u [slot]).ofEngine

/-- A removal checks the slot's name before its command. -/
theorem obeys_certDelete {slot : String} (ok : quotable slot = true → Q (removal slot)) :
    Obeys Q id (slotFault slot) [removal slot] (Ssl.certDelete slot) e := by
  refine .of_check (checks_slot slot) (fun free => ?_) fun p hp => ?_
  · exact (Issues.command (ok (quotable_of_slotFault free)) _).ofEngine
  · cases hp
    exact (Leads.command _ [slot] _).ofEngine

/-- Opening a session checks the host, which may not be empty either. -/
theorem obeys_openSession {host : String} {session : SessionId} {port : Nat}
    (ok : quotable host = true → Q (.line s!"AT+CCHOPEN={session},\"{host}\",{port}" [host])) :
    Obeys Q id (if host.isEmpty || !quotable host then some (.host host) else none)
      [.line s!"AT+CCHOPEN={session},\"{host}\",{port}" [host]]
      (Ssl.openSession session host port) e := by
  refine .of_refusal (fun free => ?_) fun p hp => ?_
  · have fine : quotable host = true := by simp_all
    exact ((Issues.line (ok fine)).then_listening fun _ =>
      keptByListening_farEnd.sessionResult _).ofEngine
  · cases hp
    exact ((Leads.line _ [host]).then_listening fun _ =>
      keptByListening_farEnd.sessionResult _).ofEngine

theorem obeys_acquire {client : ClientIndex} {clientId : String} {useSsl : Bool}
    (ok : quotable clientId = true →
      Q (.line s!"AT+CMQTTACCQ={client},\"{clientId}\",{flag useSsl}" [clientId])) :
    Obeys Q id (textFault clientId)
      [.line s!"AT+CMQTTACCQ={client},\"{clientId}\",{flag useSsl}" [clientId]]
      (Mqtt.acquire client clientId useSsl) e := by
  have answered := fun (_ : Unit) => keptByListening_farEnd.bind
    (keptByListening_farEnd (σ := σ).await [Utf8.encode "+CMQTTACCQ: "] Mqtt.commandTimeout true true)
    keptByListening_farEnd.indexedCodeAfter
  refine .of_check (checks_text clientId) (fun free => ?_) fun p hp => ?_
  · exact ((Issues.line (ok (quotable_of_textFault free))).then_listening answered).ofEngine
  · cases hp
    exact ((Leads.line _ [clientId]).then_listening answered).ofEngine

/-- Describing a request checks the value, and the fault names the parameter. -/
theorem obeys_setText {key value : String}
    (ok : quotable value = true → Q (.line s!"AT+HTTPPARA=\"{key}\",\"{value}\"" [value])) :
    Obeys Q id (if !quotable value then some (.unquotableParameter key value) else none)
      [.line s!"AT+HTTPPARA=\"{key}\",\"{value}\"" [value]] (Http.setText key value) e := by
  refine .of_refusal (fun free => ?_) fun p hp => ?_
  · exact (Issues.plainCommand (ok (by simpa using free))).ofEngine
  · cases hp
    exact (Leads.plainCommand _ [value]).ofEngine

/-- What is found first in a row is found in its head, or else in the rest. -/
theorem findSome?_cons_eq_or {α β : Type} (f : α → Option β) (a : α) (as : List α) :
    (a :: as).findSome? f = (f a).or (as.findSome? f) := by
  rw [List.findSome?_cons]
  cases f a <;> rfl

/-- Connecting checks the server and then, one after the other, what the login consists of.  The
    line is only put together after that, and so it is clean whenever it is written. -/
theorem obeys_connect {client : ClientIndex} {server : String} {port : Nat}
    {params : Mqtt.ConnectParams}
    (ok : (∀ text ∈ server :: login params.credentials, quotable text = true) →
      Q (connection client server port params)) :
    Obeys Q id ((server :: login params.credentials).findSome? textFault)
      [connection client server port params] (Mqtt.connect client server port params) e := by
  -- the command is the same with a login and without
  have order : ∀ line timeout, (∀ text ∈ server :: login params.credentials, quotable text = true) →
      connection client server port params = .line line (server :: login params.credentials) →
      Obeys Q id none [connection client server port params] (ofEngine do
        Engine.send line
        Mqtt.indexedCodeAfter (← Engine.await [Utf8.encode "+CMQTTCONNECT: "] timeout false true)) e := by
    intro line timeout fine same
    have answered := fun (_ : Unit) => keptByListening_farEnd.bind
      (keptByListening_farEnd (σ := σ).await [Utf8.encode "+CMQTTCONNECT: "] timeout false true)
      keptByListening_farEnd.indexedCodeAfter
    have good := ok fine
    rw [same] at good ⊢
    refine .of_issues ((Issues.line good).then_listening answered).ofEngine fun p hp => ?_
    cases hp
    exact ((Leads.line line _).then_listening answered).ofEngine
  obtain ⟨keepalive, clean, credentials⟩ := params
  rcases credentials with _ | ⟨user, password⟩
  · rw [findSome?_cons_eq_or]
    exact .after_check (checks_text server) fun hs =>
      order _ _ (List.forall_mem_singleton.mpr (quotable_of_textFault hs)) rfl
  · rw [findSome?_cons_eq_or, login, findSome?_cons_eq_or, findSome?_cons_eq_or]
    refine .after_check (checks_text server) fun hs => .after_check (checks_text user) fun hu =>
      .after_check (checks_text password) fun hp => order _ _ ?_ rfl
    simp [login, quotable_of_textFault hs, quotable_of_textFault hu, quotable_of_textFault hp]

/-! ## Methods of several commands -/

omit [Device σ] in
theorem listens_searchListing (slot : String) :
    Along (fun e f : Engine σ => e.stream.link.SameFarEnd f.stream.link) (searchListing slot) := by
  refine keptByListening_farEnd.bind (keptByListening_farEnd.await _ _ _ _) fun outcome => ?_
  split
  · exact keptByListening_farEnd.bind keptByListening_farEnd.plainClear fun _ =>
      keptByListening_farEnd.pure _
  · exact keptByListening_farEnd.pure _
  · exact keptByListening_farEnd.throw _
  · exact keptByListening_farEnd.throw _

/-- Looking for a slot checks its name before the question for the listing. -/
theorem obeys_certExists {slot : String} (ok : Q listing) :
    Obeys Q id (slotFault slot) [listing] (Ssl.certExists slot) e := by
  have answered : ∀ _ : Unit, Along (fun e f : Engine σ => e.stream.link.SameFarEnd f.stream.link)
      (searchListing slot) := fun _ => listens_searchListing slot
  refine .of_check (checks_slot slot) (fun _ => ?_) fun p hp => ?_
  · exact ((Issues.line ok).then_listening answered).ofEngine
  · cases hp
    exact ((Leads.line _ []).then_listening answered).ofEngine

/-- A listing that was asked for says that the slot's name has passed the check. -/
theorem quotable_of_certExists {slot : String} {found : Bool} {f : Engine σ}
    (h : Ssl.certExists slot e = .ok found f) : quotable slot = true := by
  obtain ⟨_, g, passed, -⟩ := bind_eq_ok h
  have looked := checks_slot (σ := σ) slot e
  cases fault : slotFault slot with
  | none => exact quotable_of_slotFault fault
  | some why =>
    rw [fault, passed] at looked
    cases looked

/-- Overwriting begins with the look for the slot, whose check stands for all that follow. -/
theorem obeys_certOverwrite {slot : String} {data : Bytes} (asked : Q listing)
    (ok : quotable slot = true → ∀ p ∈ overwriting data slot, Q p) :
    Obeys Q id (slotFault slot) (overwriting data slot) (Ssl.certOverwrite data slot) e := by
  refine (obeys_certExists asked).bind (List.cons_ne_nil _ _) fun found f h => ?_
  obtain ⟨-, rest⟩ := List.forall_mem_cons.mp (ok (quotable_of_certExists h))
  obtain ⟨removed, stored⟩ := List.forall_mem_cons.mp rest
  have put : ∀ f : Engine σ, Issues Q id (storing data slot) (Ssl.certDownload data slot) f :=
    fun _ => (obeys_certDownload fun _ => stored).issues
  split
  · exact (obeys_certDelete fun _ => removed).issues.bind fun _ g _ => put g
  · -- there was nothing to remove
    exact (put f).mono (List.sublist_cons_self _ _) (List.forall_mem_cons.mpr ⟨removed, stored⟩)

/-- An overwriting that succeeded has had its slot's name checked on the way. -/
theorem quotable_of_certOverwrite {slot : String} {data : Bytes} {f : Engine σ}
    (h : Ssl.certOverwrite data slot e = .ok () f) : quotable slot = true := by
  obtain ⟨_, _, asked, -⟩ := bind_eq_ok h
  exact quotable_of_certExists asked

omit [Device σ] in
/-- What is led beside a context leaves the context as it is, and has done what it does alone. -/
theorem beside_eq_ok {x : ClientM σ α} {c : β} {a : α} {s : β × Engine σ}
    (h : ClientM.beside x (c, e) = .ok a s) : s.1 = c ∧ x e = .ok a s.2 := by
  cases r : x e with
  | ok a' f =>
    rw [beside_of_ok c r] at h
    cases h
    exact ⟨rfl, rfl⟩
  | error err f =>
    rw [beside_of_error c r] at h
    cases h

/-- Sending the mode is one command, and the mode is a number. -/
theorem issues_applyAuthMode {c : SecureContext} (ok : Q (authMode c)) :
    Issues Q Prod.snd [authMode c] SecureContext.applyAuthMode (c, e) := by
  have sent : SecureContext.applyAuthMode (c, e) =
      ClientM.beside (Ssl.configure "authmode" c.index (toString c.authMode.code)) (c, e) := rfl
  exact .of_eq sent (issues_configure ok).beside

theorem obeys_bindSlot {as : SlotUse} {ctx : ContextIndex} {slot : String} (ok : Q (bound as ctx slot)) :
    Obeys Q id none [bound as ctx slot] (bindSlot ctx slot as) e := by
  refine .of_issues (issues_bindSlot ok) fun p hp => ?_
  cases hp
  exact leads_bindSlot as ctx slot

omit [Device σ] in
/-- What an owner remembers is nothing to the device, so it may be skipped in the account of what is
    written. -/
theorem issues_modify {b b' : β} {g : β × Engine σ → β × Engine σ} {ps : List Piece} {x : OwnerM β σ α}
    (becomes : g (b, e) = (b', e)) (h : Issues Q Prod.snd ps x (b', e)) :
    Issues Q Prod.snd ps (modify g >>= fun _ => x) (b, e) := by
  have done : (modify g : OwnerM β σ PUnit) (b, e) = .ok () (b', e) := becomes ▸ rfl
  have silent : Issues Q Prod.snd [] (modify g : OwnerM β σ PUnit) (b, e) :=
    .skip (by rw [done]; rfl) fun _ h => (nomatch h)
  refine silent.bind fun _ t k => ?_
  rw [done] at k
  cases k
  exact h

/-- The authority's slot is bound, remembered, and then the mode is sent. -/
theorem setCaCert_steps (c : SecureContext) (slot : String) (e : Engine σ) :
    SecureContext.setCaCert slot (c, e) =
      (ClientM.beside (bindSlot c.index slot .authority) >>= fun _ =>
        modify (fun p => ({ p.1 with ca := some slot }, p.2)) >>= fun _ =>
          SecureContext.applyAuthMode) (c, e) := rfl

/-- The client's slots are bound one after another, remembered, and then the mode is sent. -/
theorem setClient_steps (c : SecureContext) (slots : ClientSlots) (e : Engine σ) :
    SecureContext.setClient slots (c, e) =
      (ClientM.beside (bindSlot c.index slots.cert .certificate) >>= fun _ =>
        ClientM.beside (bindSlot c.index slots.key .key) >>= fun _ =>
          ClientM.beside (bindSlot c.index slots.password .password) >>= fun _ =>
            modify (fun p => ({ p.1 with client := some slots }, p.2)) >>= fun _ =>
              SecureContext.applyAuthMode) (c, e) := rfl

/-- Setting the authority's slot writes the binding and the mode, and checks nothing. -/
theorem obeys_setCaCert {c : SecureContext} {slot : String} (ok : ∀ p ∈ caBound c slot, Q p) :
    Obeys Q Prod.snd none (caBound c slot) (SecureContext.setCaCert slot) (c, e) := by
  obtain ⟨named, rest⟩ := List.forall_mem_cons.mp ok
  refine .of_eq (setCaCert_steps c slot e) ((obeys_bindSlot named).beside.bind (List.cons_ne_nil _ _) fun _ s h => ?_)
  obtain ⟨c', f⟩ := s
  obtain ⟨rfl, -⟩ := beside_eq_ok h
  exact issues_modify rfl (issues_applyAuthMode (List.forall_mem_singleton.mp rest))

/-- Setting the client's slots writes their bindings and the mode, and checks nothing. -/
theorem obeys_setClient {c : SecureContext} {slots : ClientSlots} (ok : ∀ p ∈ clientBound c slots, Q p) :
    Obeys Q Prod.snd none (clientBound c slots) (SecureContext.setClient slots) (c, e) := by
  obtain ⟨cert, rest⟩ := List.forall_mem_cons.mp ok
  obtain ⟨key, rest⟩ := List.forall_mem_cons.mp rest
  obtain ⟨password, mode⟩ := List.forall_mem_cons.mp rest
  refine .of_eq (setClient_steps c slots e) ((obeys_bindSlot cert).beside.bind (List.cons_ne_nil _ _) fun _ s h => ?_)
  obtain ⟨c', f⟩ := s
  obtain ⟨rfl, -⟩ := beside_eq_ok h
  refine (issues_bindSlot key).beside.bind fun _ s h => ?_
  obtain ⟨c'', g⟩ := s
  obtain ⟨rfl, -⟩ := beside_eq_ok h
  refine (issues_bindSlot password).beside.bind fun _ s h => ?_
  obtain ⟨c'', g⟩ := s
  obtain ⟨rfl, -⟩ := beside_eq_ok h
  exact issues_modify rfl (issues_applyAuthMode (List.forall_mem_singleton.mp mode))

/-- A slot that was bound as the authority's is remembered, whatever was remembered before. -/
theorem setCaCert_eq_ok {c : SecureContext} {slot : String} {s : SecureContext × Engine σ}
    (h : SecureContext.setCaCert slot (c, e) = .ok () s) : s.1 = { c with ca := some slot } := by
  obtain ⟨_, ⟨c', f⟩, bound, rest⟩ := bind_eq_ok (x := ClientM.beside (Ssl.setCaCert c.index slot)) h
  obtain ⟨rfl, -⟩ := beside_eq_ok bound
  exact (beside_eq_ok (x := Ssl.setAuthMode c'.index (AuthMode.forSlots true c'.client.isSome)) rest).1

/-- Setting both is the one behind the other, the second with the authority remembered. -/
theorem obeys_setCerts {c : SecureContext} {ca : String} {slots : ClientSlots}
    (okCa : ∀ p ∈ caBound c ca, Q p)
    (okClient : ∀ p ∈ clientBound { c with ca := some ca } slots, Q p) :
    Obeys Q Prod.snd none (caBound c ca ++ clientBound { c with ca := some ca } slots)
      (SecureContext.setCerts ca slots) (c, e) := by
  refine (obeys_setCaCert okCa).bind (List.cons_ne_nil _ _) fun _ s h => ?_
  obtain ⟨c', f⟩ := s
  obtain rfl : c' = { c with ca := some ca } := setCaCert_eq_ok h
  exact (obeys_setClient okClient).issues

/-- Uploading the authority's certificate before binding it has the upload check the name. -/
theorem obeys_writeCaCert {c : SecureContext} {cert : Bytes} {slot : String} (asked : Q listing)
    (ok : quotable slot = true → ∀ p ∈ overwriting cert slot ++ caBound c slot, Q p) :
    Obeys Q Prod.snd (slotFault slot) (overwriting cert slot ++ caBound c slot)
      (SecureContext.writeCaCert cert slot) (c, e) := by
  have overwritten : Obeys Q id (slotFault slot) (overwriting cert slot)
      (Ssl.certOverwrite cert slot) e :=
    obeys_certOverwrite asked fun fine p hp => ok fine p (List.mem_append_left _ hp)
  refine overwritten.beside.bind (List.cons_ne_nil _ _) fun _ s h => ?_
  obtain ⟨c', f⟩ := s
  obtain ⟨rfl, put⟩ := beside_eq_ok h
  have fine := quotable_of_certOverwrite put
  exact (obeys_setCaCert fun p hp => ok fine p (List.mem_append_right _ hp)).issues

theorem obeys_writeClient {c : SecureContext} {cert key password : Bytes} {slots : ClientSlots}
    (asked : Q listing)
    (okCert : quotable slots.cert = true → ∀ p ∈ overwriting cert slots.cert, Q p)
    (okKey : quotable slots.key = true → ∀ p ∈ overwriting key slots.key, Q p)
    (okPassword : quotable slots.password = true → ∀ p ∈ overwriting password slots.password, Q p)
    (okBound : quotable slots.cert = true → quotable slots.key = true → quotable slots.password = true →
      ∀ p ∈ clientBound c slots, Q p) :
    Obeys Q Prod.snd (slotFault slots.cert)
      (overwriting cert slots.cert ++ (overwriting key slots.key ++
        (overwriting password slots.password ++ clientBound c slots)))
      (SecureContext.writeClient cert key password slots) (c, e) := by
  refine (obeys_certOverwrite asked okCert).beside.bind (List.cons_ne_nil _ _) fun _ s h => ?_
  obtain ⟨c₁, f₁⟩ := s
  obtain ⟨rfl, certPut⟩ := beside_eq_ok h
  refine (obeys_certOverwrite asked okKey).issues.beside.bind fun _ s h => ?_
  obtain ⟨c₂, f₂⟩ := s
  obtain ⟨rfl, keyPut⟩ := beside_eq_ok h
  refine (obeys_certOverwrite asked okPassword).issues.beside.bind fun _ s h => ?_
  obtain ⟨c₃, f₃⟩ := s
  obtain ⟨rfl, passwordPut⟩ := beside_eq_ok h
  exact (obeys_setClient (okBound (quotable_of_certOverwrite certPut)
    (quotable_of_certOverwrite keyPut) (quotable_of_certOverwrite passwordPut))).issues

end

/-! ## All of them -/

namespace QuotingMethod

/-- A name that can be quoted is clean where it is bound as the authority's. -/
theorem clean_caBound {slot : String} (h : quotable slot = true) (c : SecureContext) :
    ∀ p ∈ caBound c slot, p.Clean :=
  List.forall_mem_cons.mpr ⟨(clean_bound_iff _ _ _).mpr h,
    List.forall_mem_singleton.mpr (clean_authMode _)⟩

/-- Names that can be quoted are clean where they are bound as the client's. -/
theorem clean_clientBound {slots : ClientSlots} (cert : quotable slots.cert = true)
    (key : quotable slots.key = true) (password : quotable slots.password = true)
    (c : SecureContext) : ∀ p ∈ clientBound c slots, p.Clean :=
  List.forall_mem_cons.mpr ⟨(clean_bound_iff _ _ _).mpr cert,
    List.forall_mem_cons.mpr ⟨(clean_bound_iff _ _ _).mpr key,
      List.forall_mem_cons.mpr ⟨(clean_bound_iff _ _ _).mpr password,
        List.forall_mem_singleton.mpr (clean_authMode _)⟩⟩⟩

variable [Device σ]

/-- What a method writes is clean if the method checks its texts; each method is its check in front
    of its commands.  The methods that bind slots have no check, and for them the statement says
    what they write and no more. -/
theorem obeys (m : QuotingMethod) (c : SecureContext) (e : Engine σ) :
    Obeys (fun p => m.checked = true → p.Clean) Prod.snd m.fault? (m.pieces c) m.run (c, e) := by
  cases m with
  | bind as ctx slot => exact (obeys_bindSlot fun h => (nomatch h)).beside
  | certDownload data slot =>
    exact (obeys_certDownload fun fine p hp _ => clean_storing fine data p hp).beside
  | certDelete slot => exact (obeys_certDelete fun fine _ => clean_removal fine).beside
  | certOverwrite data slot =>
    exact (obeys_certOverwrite (fun _ => clean_listing) fun fine p hp _ =>
      clean_overwriting fine data p hp).beside
  | openSession session host port =>
    exact (obeys_openSession fun fine _ => clean_opening fine session port).beside
  | acquire client clientId useSsl =>
    exact (obeys_acquire fun fine _ => clean_acquiring fine client useSsl).beside
  | connect client server port params =>
    exact (obeys_connect fun fine _ => clean_connection fine client port).beside
  | describeRequest what value =>
    cases what <;> exact (obeys_setText fun fine _ => clean_describing fine _).beside
  | setCaCert slot => exact obeys_setCaCert fun _ _ h => (nomatch h)
  | setClient slots => exact obeys_setClient fun _ _ h => (nomatch h)
  | setCerts caSlot slots =>
    exact obeys_setCerts (fun _ _ h => (nomatch h)) fun _ _ h => (nomatch h)
  | writeCaCert cert slot =>
    refine obeys_writeCaCert (fun _ => clean_listing) fun fine p hp _ => ?_
    rcases List.mem_append.mp hp with hp | hp
    · exact clean_overwriting fine cert p hp
    · exact clean_caBound fine c p hp
  | writeClient cert key password slots =>
    exact obeys_writeClient (fun _ => clean_listing)
      (fun fine p hp _ => clean_overwriting fine cert p hp)
      (fun fine p hp _ => clean_overwriting fine key p hp)
      (fun fine p hp _ => clean_overwriting fine password p hp)
      fun hc hk hp p mem _ => clean_clientBound hc hk hp c p mem

omit [Device σ] in
/-- A method that checks nothing begins by binding a slot, so that it is there that a text can be
    smuggled in. -/
theorem head_of_unchecked {m : QuotingMethod} (h : m.checked = false) (c : SecureContext) :
    m.fault? = none ∧ ∃ as ctx slot, (m.pieces c).head? = some (bound as ctx slot) := by
  cases m with
  | bind as ctx slot => exact ⟨rfl, as, ctx, slot, rfl⟩
  | setCaCert slot => exact ⟨rfl, .authority, c.index, slot, rfl⟩
  | setClient slots => exact ⟨rfl, .certificate, c.index, slots.cert, rfl⟩
  | setCerts caSlot _ => exact ⟨rfl, .authority, c.index, caSlot, rfl⟩
  | _ => cases h

/-- What a method writes are pieces of its own, in their order.  A method that checks its texts writes
    clean ones only, all of its pieces are clean if it succeeds, and it has written nothing when it
    refuses an argument.  A method that checks nothing refuses nothing: it begins with a line that
    quotes the name of a slot whatever that is, and only a name that can be quoted makes it clean. -/
theorem written_clean_of_checked (m : QuotingMethod) (c : SecureContext) (e : Engine σ) :
    let f := (endState (m.run (c, e))).2
    Sent (fun p => m.checked = true → p.Clean) (m.pieces c) e f ∧
      (m.checked = true → (∃ s, m.run (c, e) = .ok () s) → ∀ p ∈ m.pieces c, p.Clean) ∧
      (∀ fault, m.fault? = some fault → m.run (c, e) = .error (.invalidArgument fault) (c, e)) ∧
      (m.fault? = none → e.stream.link.failWrites = false → ∀ p, (m.pieces c).head? = some p →
        e.stream.link.written ++ p.bytes <+: f.stream.link.written) ∧
      (m.checked = false → m.fault? = none ∧ ∃ as ctx slot,
        (m.pieces c).head? = some (bound as ctx slot) ∧
          ((bound as ctx slot).Clean ↔ quotable slot = true)) := by
  intro f
  obtain ⟨issues, refused, leads⟩ := m.obeys c e
  refine ⟨issues.sent, fun checks ⟨s, done⟩ p hp => ?_, refused, fun free works p hp => ?_, fun h => ?_⟩
  · exact issues.all done p hp checks
  · exact leads free p hp works
  · obtain ⟨free, as, ctx, slot, first⟩ := head_of_unchecked h c
    exact ⟨free, as, ctx, slot, first, clean_bound_iff as ctx slot⟩

/-- One name, two commands: a slot's name that closes its quote and begins another command is bound
    as it stands.  It is written in full, and the device hears two lines. -/
theorem written_clean_of_checked_smuggled :
    let m := QuotingMethod.bind .authority 0 "a\"\r\nAT+CCERTDELE=\"b"
    let c := SecureContext.ofIndex 0
    let e : Engine Script := ofLink .standard (.ofDevice .silent)
    m.fault? = none ∧ e.stream.link.failWrites = false ∧
      e.stream.link.written ++
          Utf8.encode "AT+CSSLCFG=\"cacert\",0,\"a\"\r\nAT+CCERTDELE=\"b\"\r\n" <+:
        (endState (m.run (c, e))).2.stream.link.written := by
  intro m c e
  have works : e.stream.link.failWrites = false := rfl
  obtain ⟨-, -, -, leads, -⟩ := written_clean_of_checked m c e
  have twoLines : (bound .authority 0 "a\"\r\nAT+CCERTDELE=\"b").bytes =
      Utf8.encode "AT+CSSLCFG=\"cacert\",0,\"a\"\r\nAT+CCERTDELE=\"b\"\r\n" := by decide
  exact ⟨rfl, works, twoLines ▸ leads rfl works _ rfl⟩

end QuotingMethod
end AtModem
