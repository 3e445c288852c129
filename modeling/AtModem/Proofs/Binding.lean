/-
  What the calls of a context can come to.

  A call binds slots by one command or by three and then sends the mode; it may have to store what the
  slots are to hold before that.  Any of the commands may be refused or not be answered, and the call
  stops there.  `Ensures` says what is known when a call has ended, of the context, of what the device was
  told meanwhile and of whether the call has succeeded; it is followed from command to command.  So what a
  call can come to is a short list of cases (`CaBound`, `ClientBound`, `Comes`).

  Slots that are only bound go into a line without a check.  A name that ends the line gives the device
  commands that the context knows nothing of, so such names are left out; what is written to a slot first
  has been checked by then.
-/
import AtModem.Proofs.Recorder

namespace AtModem

open Engine ClientM

/-! ## Lines that set a parameter -/

/-- How a line begins that sets a parameter of a context: everything before the value. -/
def settingHead (key : String) (ctx : ContextIndex) : String := s!"AT+CSSLCFG=\"{key}\",{ctx},"

/-- The line that sets a parameter of a context to a value. -/
def setting (key : String) (ctx : ContextIndex) (value : String) : String :=
  s!"AT+CSSLCFG=\"{key}\",{ctx},{value}"

/-- Such a line is its beginning and the value, with nothing in between. -/
theorem setting_eq (key : String) (ctx : ContextIndex) (value : String) :
    setting key ctx value = settingHead key ctx ++ value := rfl

/-- The beginning, with the quotes and the number of the context spelt out. -/
theorem settingHead_eq (key : String) (ctx : ContextIndex) :
    settingHead key ctx = "AT+CSSLCFG=\"" ++ (key ++ ("\"," ++ (toString ctx.toNat ++ ","))) := by
  rw [← String.append_assoc, ← String.append_assoc, ← String.append_assoc]
  rfl

/-! ## One command of a context -/

section

variable {n : Nat} {d : Recorder} {e : Engine Recorder} {key value : String} {ctx : ContextIndex}

/-- If key and value each stay on one line, so does the line; there is nothing else in it that could
    end it. -/
theorem oneLine_setting (hk : OneLine key) (hv : OneLine value) : OneLine (setting key ctx value) := by
  have head : OneLine (settingHead key ctx) := by
    rw [settingHead_eq]
    exact .append (by decide) (.append hk (.append (by decide) (.append (.toString _) (by decide))))
  rw [setting_eq]
  exact head.append hv

/-- Setting a parameter lists nothing and announces nothing, so the device answers it with a verdict
    and no more. -/
theorem plain_setting (d : Recorder) : d.Plain (setting key ctx value) := by
  have text : setting key ctx value =
      "AT+CSSLCFG=\"" ++ (key ++ ("\"," ++ (toString ctx.toNat ++ ",")) ++ value) := by
    rw [setting_eq, settingHead_eq, String.append_assoc]
  rw [text]
  apply Recorder.Plain.of_ne
  · exact CertStore.append_ne_of_isPrefixOf? (by decide) _
  · have other : "AT+CCERTDOWN=".toList.isPrefixOf? ("AT+CSSLCFG=\"" ++
        (key ++ ("\"," ++ (toString ctx.toNat ++ ",")) ++ value)).toList = none := by
      rw [String.toList_append]
      rfl
    exact congrArg (Option.elim · 0 _) other

/-- A parameter that is set when the device is ready: the device is told the line, says its verdict,
    and is ready again, and the verdict decides what the call comes to. -/
theorem Ready.configure (room : 7 ≤ n) (h : Ready n d e) (hk : OneLine key) (hv : OneLine value)
    (ctx : ContextIndex) :
    ∃ f, Ready n (d.tell (setting key ctx value)) f ∧ Ssl.configure key ctx value e =
      ofEngine (ofResult (d.said (setting key ctx value)).outcome.expectSuccess) f := by
  obtain ⟨f, ran, ready⟩ := h.command room (oneLine_setting hk hv) (plain_setting d)
    e.defaultTimeout
  refine ⟨f, ready, ?_⟩
  have sent : plainCommand (setting key ctx value) e = ofResult _ f := ran
  show ofEngine (plainCommand (setting key ctx value)) e = _
  unfold ofEngine
  rw [sent]

end

/-! ## What a call of a context comes to -/

/-- Whether a call has returned without an error.  An error says nothing about what the device has
    done before it. -/
def succeeded : EStateM.Result ClientError (SecureContext × Engine Recorder) Unit → Bool
  | .ok _ _ => true
  | .error _ _ => false

/-- A call that a context begins when the device is ready leaves the device ready, and `Q` is known
    of the context then, of what the device was told meanwhile and of whether the call has
    succeeded.  The part that was added to the record is bound existentially: two calls compose, and
    their parts stand one behind the other. -/
def Ensures (n : Nat) (Q : SecureContext → List Told → Bool → Prop) (x : OwnerM SecureContext Recorder Unit)
    (c : SecureContext) : Prop :=
  ∀ d e, Ready n d e → ∃ part, Ready n { d with log := d.log ++ part } (endState (x (c, e))).2 ∧
    Q (endState (x (c, e))).1 part (succeeded (x (c, e)))

namespace Ensures

variable {n : Nat} {Q Q' : SecureContext → List Told → Bool → Prop}
  {x y : OwnerM SecureContext Recorder Unit} {c : SecureContext}

theorem of_eq (same : ∀ e, x (c, e) = y (c, e)) (h : Ensures n Q y c) : Ensures n Q x c := by
  intro d e ready
  rw [same]
  exact h d e ready

theorem mono (h : Ensures n Q x c) (le : ∀ c' part ok, Q c' part ok → Q' c' part ok) :
    Ensures n Q' x c := by
  intro d e ready
  obtain ⟨part, ready, known⟩ := h d e ready
  exact ⟨part, ready, le _ _ _ known⟩

/-- One call after another: the second one is begun if the first one succeeds, and what the device
    was told is then the two parts in order.  Otherwise the whole ends with the first. -/
protected theorem bind (hx : Ensures n (fun c' part ok =>
      if ok then Ensures n (fun c'' later ok => Q c'' (part ++ later) ok) y c' else Q c' part false) x c) :
    Ensures n Q (x >>= fun _ => y) c := by
  intro d e ready
  obtain ⟨part, ready, known⟩ := hx d e ready
  cases r : x (c, e) with
  | ok _ s =>
    obtain ⟨c', f⟩ := s
    rw [r] at ready known
    obtain ⟨later, ready, known⟩ := known _ f ready
    rw [bind_of_ok r]
    exact ⟨part ++ later, by rwa [← List.append_assoc], known⟩
  | error err s =>
    rw [r] at ready known
    rw [bind_of_error r]
    exact ⟨part, ready, known⟩

/-- What a context remembers is nothing to the device: noting something is no command and adds
    nothing to the record. -/
theorem remember {g : SecureContext × Engine Recorder → SecureContext × Engine Recorder}
    {c' : SecureContext} (becomes : ∀ e, g (c, e) = (c', e)) (h : Ensures n Q x c') :
    Ensures n Q (modify g >>= fun _ => x) c := by
  refine .of_eq (y := fun s => x (c', s.2)) (fun e => ?_) h
  have done : (modify g : OwnerM SecureContext Recorder PUnit) (c, e) = .ok () (c', e) := becomes e ▸ rfl
  exact bind_of_ok done

/-- A parameter is set if the device says so, and in either case it was told one line.  The two
    hypotheses on the texts keep them on one line, and so the device hears one command. -/
theorem configure {key value : String} {ctx : ContextIndex} (room : 7 ≤ n) (hk : OneLine key)
    (hv : OneLine value) (h : ∀ v, Q c [⟨setting key ctx value, v⟩] (decide (v = .ok))) :
    Ensures n Q (beside (Ssl.configure key ctx value)) c := by
  intro d e ready
  obtain ⟨f, ready, ran⟩ := ready.configure room hk hv ctx
  have known := h (d.said (setting key ctx value))
  refine ⟨[⟨setting key ctx value, d.said (setting key ctx value)⟩], ?_⟩
  -- whatever the device says, it has been told this one line, and its record says what it said
  cases v : d.said (setting key ctx value) with
  | ok =>
    rw [v] at ran known
    rw [beside_of_ok c ran]
    exact ⟨v ▸ ready, known⟩
  | error =>
    rw [v] at ran known
    rw [beside_of_error c ran]
    exact ⟨v ▸ ready, known⟩
  | nothing =>
    rw [v] at ran known
    rw [beside_of_error c ran]
    exact ⟨v ▸ ready, known⟩

/-- The store may be told whatever it takes to overwrite a slot; if that succeeds, the slot's name
    has been checked.  Nothing else is known of the exchange, and nothing more is needed: no line of
    the store binds a slot. -/
theorem overwrite {data : Bytes} {slot : String} (room : 7 ≤ n)
    (h : ∀ part ok, (∀ t ∈ part, OfStore t.line) → (ok = true → quotable slot = true) → Q c part ok) :
    Ensures n Q (beside (Ssl.certOverwrite data slot)) c := by
  intro d e ready
  obtain ⟨part, store, ready⟩ := keepsReady_certOverwrite room data slot e d ready
  refine ⟨part, ?_⟩
  cases r : Ssl.certOverwrite data slot e with
  | ok _ f =>
    rw [r] at ready
    rw [beside_of_ok c r]
    exact ⟨ready, h part true store fun _ => quotable_of_certOverwrite r⟩
  | error err f =>
    rw [r] at ready
    rw [beside_of_error c r]
    exact ⟨ready, h part false store fun k => (nomatch k)⟩

end Ensures

/-! ## Binding -/

/-- The line that binds a slot, and what was said to it. -/
def bindingTold (as : SlotUse) (c : SecureContext) (slot : String) (v : Verdict) : Told :=
  ⟨setting as.parameter c.index (inQuotes slot), v⟩

/-- The line that sends the mode that fits the context, and what was said to it. -/
def modeTold (c : SecureContext) (v : Verdict) : Told :=
  ⟨setting "authmode" c.index (toString c.authMode.code), v⟩

/-- What binding the authority's certificate can come to: the slot is refused and nothing else
    happens, or it is noted and the mode is sent, which may be refused in its turn.  A slot stays
    noted when the mode is refused, since the context remembers what the device has agreed to. -/
inductive CaBound (c : SecureContext) (slot : String) : SecureContext → List Told → Bool → Prop
  | refused {v : Verdict} (h : v ≠ .ok) : CaBound c slot c [bindingTold .authority c slot v] false
  | bound (v : Verdict) : CaBound c slot { c with ca := some slot }
      [bindingTold .authority c slot .ok, modeTold { c with ca := some slot } v] (decide (v = .ok))

/-- What binding the client's slots can come to: one of the three is refused and the rest is not
    even tried, or all are noted and the mode is sent.  What was bound before the refusal is not
    noted by the context, though the device has it. -/
inductive ClientBound (c : SecureContext) (slots : ClientSlots) :
    SecureContext → List Told → Bool → Prop
  | noCert {v : Verdict} (h : v ≠ .ok) :
    ClientBound c slots c [bindingTold .certificate c slots.cert v] false
  | noKey {v : Verdict} (h : v ≠ .ok) : ClientBound c slots c
      [bindingTold .certificate c slots.cert .ok, bindingTold .key c slots.key v] false
  | noPassword {v : Verdict} (h : v ≠ .ok) : ClientBound c slots c
      [bindingTold .certificate c slots.cert .ok, bindingTold .key c slots.key .ok,
        bindingTold .password c slots.password v] false
  | bound (v : Verdict) : ClientBound c slots { c with client := some slots }
      [bindingTold .certificate c slots.cert .ok, bindingTold .key c slots.key .ok,
        bindingTold .password c slots.password .ok, modeTold { c with client := some slots } v]
      (decide (v = .ok))

section

variable {n : Nat} {c : SecureContext} {Q : SecureContext → List Told → Bool → Prop}

/-- Binding one slot: if it is refused the call ends there; otherwise the rest follows, and the line
    stands before whatever the rest adds to the record. -/
theorem ensures_bind {slot : String} {x : OwnerM SecureContext Recorder Unit} (as : SlotUse)
    (room : 7 ≤ n) (oneLine : OneLine slot)
    (refused : ∀ v, v ≠ .ok → Q c [bindingTold as c slot v] false)
    (goesOn : Ensures n (fun c' part ok => Q c' (bindingTold as c slot .ok :: part) ok) x c) :
    Ensures n Q (beside (QuotingMethod.bindSlot c.index slot as) >>= fun _ => x) c := by
  rw [bindSlot_eq]
  have key : OneLine as.parameter := .of_quotable (QuotingMethod.quotable_parameter as)
  have value : OneLine (inQuotes slot) := .append (.append (by decide) oneLine) (by decide)
  refine .bind (.configure room key value fun v => ?_)
  by_cases agreed : v = .ok
  · subst agreed
    exact goesOn
  · rw [decide_eq_false agreed]
    exact refused v agreed

/-- Sending the mode ends a call, with the verdict on it. -/
theorem ensures_applyAuthMode (room : 7 ≤ n) (h : ∀ v, Q c [modeTold c v] (decide (v = .ok))) :
    Ensures n Q SecureContext.applyAuthMode c :=
  .of_eq (y := beside (Ssl.configure "authmode" c.index (toString c.authMode.code))) (fun _ => rfl)
    (.configure room (by decide) (.toString _) h)

/-- Binding the authority's certificate comes to one of the cases of `CaBound`. -/
theorem ensures_setCaCert {slot : String} (room : 7 ≤ n) (oneLine : OneLine slot) :
    Ensures n (CaBound c slot) (SecureContext.setCaCert slot) c := by
  refine .of_eq (setCaCert_steps c slot) ?_
  refine ensures_bind .authority room oneLine (fun v h => .refused h) ?_
  exact .remember (fun _ => rfl) (ensures_applyAuthMode room fun v => .bound v)

/-- Binding a client comes to one of the cases of `ClientBound`; the three commands are followed one
    after another. -/
theorem ensures_setClient {slots : ClientSlots} (room : 7 ≤ n) (cert : OneLine slots.cert)
    (key : OneLine slots.key) (password : OneLine slots.password) :
    Ensures n (ClientBound c slots) (SecureContext.setClient slots) c := by
  refine .of_eq (setClient_steps c slots) ?_
  refine ensures_bind .certificate room cert (fun v h => .noCert h) ?_
  refine ensures_bind .key room key (fun v h => .noKey h) ?_
  refine ensures_bind .password room password (fun v h => .noPassword h) ?_
  exact .remember (fun _ => rfl) (ensures_applyAuthMode room fun v => .bound v)

end

/-! ## Calls -/

/-- The calls that bind slots to a context, with all their arguments.  A run is a list of these, so
    one induction covers every way to use a context. -/
inductive ContextCall where
  | setCa (slot : String)
  | writeCa (cert : Bytes) (slot : String)
  | setClient (slots : ClientSlots)
  | writeClient (cert key password : Bytes) (slots : ClientSlots)
  | setCerts (ca : String) (slots : ClientSlots)

namespace ContextCall

/-- The call itself. -/
def run {σ : Type} [Device σ] : ContextCall → OwnerM SecureContext σ Unit
  | setCa slot => SecureContext.setCaCert slot
  | writeCa cert slot => SecureContext.writeCaCert cert slot
  | setClient slots => SecureContext.setClient slots
  | writeClient cert key password slots => SecureContext.writeClient cert key password slots
  | setCerts ca slots => SecureContext.setCerts ca slots

/-- The slots that the call is to bind as the client's, if it binds a client at all. -/
def client? : ContextCall → Option ClientSlots
  | setCa _ => none
  | writeCa _ _ => none
  | setClient slots => some slots
  | writeClient _ _ _ slots => some slots
  | setCerts _ slots => some slots

/-- The names that go into a line without a check.  A name that is also written to has been checked
    by then. -/
def unchecked : ContextCall → List String
  | setCa slot => [slot]
  | writeCa _ _ => []
  | setClient slots => [slots.cert, slots.key, slots.password]
  | writeClient _ _ _ _ => []
  | setCerts ca slots => [ca, slots.cert, slots.key, slots.password]

end ContextCall

/-- What a call can come to: slots are stored first, if they are to be written, and then bound.
    There is one constructor for each way out of a call, and a proof about calls is a case split on
    it. -/
inductive Comes (c : SecureContext) : ContextCall → SecureContext → List Told → Bool → Prop
  | setCa {slot : String} {c' : SecureContext} {part : List Told} {ok : Bool}
    (h : CaBound c slot c' part ok) : Comes c (.setCa slot) c' part ok
  | caNotStored {cert : Bytes} {slot : String} {store : List Told} (h : ∀ t ∈ store, OfStore t.line) :
    Comes c (.writeCa cert slot) c store false
  | writeCa {cert : Bytes} {slot : String} {c' : SecureContext} {store part : List Told} {ok : Bool}
    (stored : ∀ t ∈ store, OfStore t.line) (h : CaBound c slot c' part ok) :
    Comes c (.writeCa cert slot) c' (store ++ part) ok
  | setClient {slots : ClientSlots} {c' : SecureContext} {part : List Told} {ok : Bool}
    (h : ClientBound c slots c' part ok) : Comes c (.setClient slots) c' part ok
  | clientNotStored {cert key password : Bytes} {slots : ClientSlots} {store : List Told}
    (h : ∀ t ∈ store, OfStore t.line) : Comes c (.writeClient cert key password slots) c store false
  | writeClient {cert key password : Bytes} {slots : ClientSlots} {c' : SecureContext}
    {store part : List Told} {ok : Bool} (stored : ∀ t ∈ store, OfStore t.line)
    (h : ClientBound c slots c' part ok) :
    Comes c (.writeClient cert key password slots) c' (store ++ part) ok
  | caRefused {ca : String} {slots : ClientSlots} {c' : SecureContext} {part : List Told}
    (h : CaBound c ca c' part false) : Comes c (.setCerts ca slots) c' part false
  | setCerts {ca : String} {slots : ClientSlots} {c' c'' : SecureContext} {part later : List Told}
    {ok : Bool} (h : CaBound c ca c' part true) (k : ClientBound c' slots c'' later ok) :
    Comes c (.setCerts ca slots) c'' (part ++ later) ok

section

variable {n : Nat} {c : SecureContext} {Q : SecureContext → List Told → Bool → Prop}

/-- A slot that is to be written is stored before anything else is done.  This is any number of
    commands of the store, and if one of them fails nothing was bound. -/
theorem ensures_stored {data : Bytes} {slot : String} {x : OwnerM SecureContext Recorder Unit}
    (room : 7 ≤ n) (failed : ∀ store, (∀ t ∈ store, OfStore t.line) → Q c store false)
    (goesOn : ∀ store, (∀ t ∈ store, OfStore t.line) → quotable slot = true →
      Ensures n (fun c' part ok => Q c' (store ++ part) ok) x c) :
    Ensures n Q (beside (Ssl.certOverwrite data slot) >>= fun _ => x) c := by
  refine .bind (.overwrite room fun store ok stored checked => ?_)
  cases ok with
  | true => exact goesOn store stored (checked rfl)
  | false => exact failed store stored

/-- Every call comes to one of the cases of `Comes`: the two bindings, each perhaps with uploads
    before it, and one behind the other for both sides. -/
theorem ensures_run (room : 7 ≤ n) (call : ContextCall)
    (oneLine : ∀ slot ∈ call.unchecked, OneLine slot) : Ensures n (Comes c call) call.run c := by
  cases call with
  | setCa slot =>
    exact (ensures_setCaCert room (oneLine slot (by simp [ContextCall.unchecked]))).mono
      fun _ _ _ h => .setCa h
  | writeCa cert slot =>
    -- storing may be refused, and then nothing is bound; else the name has been checked on the way
    refine ensures_stored (x := SecureContext.setCaCert slot) room (fun _ h => .caNotStored h) ?_
    intro store stored checked
    exact (ensures_setCaCert room (.of_quotable checked)).mono fun _ _ _ h => .writeCa stored h
  | setClient slots =>
    have cert := oneLine slots.cert (by simp [ContextCall.unchecked])
    have key := oneLine slots.key (by simp [ContextCall.unchecked])
    have password := oneLine slots.password (by simp [ContextCall.unchecked])
    exact (ensures_setClient room cert key password).mono fun _ _ _ h => .setClient h
  | writeClient cert key password slots =>
    -- three uploads, each of which may be the last thing that is told
    refine ensures_stored room (fun _ h => .clientNotStored h) fun s₁ stored₁ checkedCert => ?_
    refine ensures_stored room (fun _ h => .clientNotStored (List.forall_mem_append.mpr ⟨stored₁, h⟩))
      fun s₂ stored₂ checkedKey => ?_
    have before : ∀ t ∈ s₁ ++ s₂, OfStore t.line := List.forall_mem_append.mpr ⟨stored₁, stored₂⟩
    refine ensures_stored (x := SecureContext.setClient slots) room (fun s₃ h => ?_)
      fun s₃ stored₃ checkedPassword => ?_
    · rw [← List.append_assoc]
      exact .clientNotStored (List.forall_mem_append.mpr ⟨before, h⟩)
    · refine (ensures_setClient room (.of_quotable checkedCert) (.of_quotable checkedKey)
        (.of_quotable checkedPassword)).mono fun c' part ok h => ?_
      rw [← List.append_assoc, ← List.append_assoc]
      exact .writeClient (List.forall_mem_append.mpr ⟨before, stored₃⟩) h
  | setCerts ca slots =>
    have authority := oneLine ca (by simp [ContextCall.unchecked])
    have cert := oneLine slots.cert (by simp [ContextCall.unchecked])
    have key := oneLine slots.key (by simp [ContextCall.unchecked])
    have password := oneLine slots.password (by simp [ContextCall.unchecked])
    -- the client's slots are bound only if the authority's was
    refine .bind ((ensures_setCaCert room authority).mono fun c' part ok h => ?_)
    cases ok with
    | true =>
      rw [if_pos rfl]
      exact (ensures_setClient room cert key password).mono fun _ _ _ k => .setCerts h k
    | false => exact .caRefused h

end

end AtModem
