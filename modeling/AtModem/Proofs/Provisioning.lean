/-
  Storing certificates converges.

  To store what a configuration names is a row of steps: the settings of the handshake are sent, each
  file goes into its slot, the slots are bound, and the mode of authentication is sent last (`plan`).  The
  tool takes these steps and no others, until one of them is refused (`Performs`, `performs_provision`).
  What it leaves is therefore known, however far it has come: no slot has changed but those of the
  configuration, and nothing is left to read.  So the tool can be run again and again; when it is no
  longer refused an upload, everything is in place.
-/
import AtModem.Proofs.Keeper
import AtModem.Tool.Provision

namespace AtModem.Tool

open Engine CertStore ClientM

/-! ## Taking steps -/

section

variable {ε τ α β : Type} {n : Nat} {engine : τ → Engine Keeper}

/-- Begun where `P` holds and the device awaits a command, the computation takes these steps as far
    as the device agrees to them.  It ends well, and then `Q` holds, if that is all of them, and
    otherwise it fails.  Where it holds of two computations, it holds of one behind the other with
    the steps of both, and so it is followed through the tool from its commands up. -/
def Performs (n : Nat) (engine : τ → Engine Keeper) (P : τ → Prop) (x : EStateM ε τ α)
    (steps : List Step) (Q : α → τ → Prop) : Prop :=
  (∀ s ∈ steps, s.Fine n) → ∀ (i : Inventory) (t : τ), i.Listable → P t →
    AtRest n i.keeper (engine t) →
      AtRest n (i.after steps).2.keeper (engine (endState (x t))) ∧
        match x t with
        | .ok a t' => (i.after steps).1 = true ∧ Q a t'
        | .error _ _ => (i.after steps).1 = false

namespace Performs

variable {P : τ → Prop} {x y : EStateM ε τ α} {xs ys : List Step} {Q : α → τ → Prop}

/-- What takes no steps and always ends well, with the device left alone. -/
theorem of_ok (h : ∀ t, P t → ∃ a t', x t = .ok a t' ∧ engine t' = engine t ∧ Q a t') :
    Performs n engine P x [] Q := by
  intro _ i t _ known rest
  obtain ⟨a, t', ran, same, result⟩ := h t known
  rw [ran]
  exact ⟨same ▸ rest, rfl, result⟩

theorem of_eq (same : ∀ t, P t → x t = y t) (h : Performs n engine P y xs Q) :
    Performs n engine P x xs Q := by
  intro fine i t listable known rest
  rw [same t known]
  exact h fine i t listable known rest

theorem mono {Q' : α → τ → Prop} (h : Performs n engine P x xs Q) (le : ∀ a t, Q a t → Q' a t) :
    Performs n engine P x xs Q' := by
  intro fine i t listable known rest
  obtain ⟨rest, result⟩ := h fine i t listable known rest
  cases r : x t with
  | ok a t' =>
    rw [r] at rest result
    exact ⟨rest, result.1, le a t' result.2⟩
  | error err t' =>
    rw [r] at rest result
    exact ⟨rest, result⟩

/-- What holds whatever the state is may be known beforehand. -/
theorem given {p : Prop} (h : p → Performs n engine (fun _ => True) x xs Q) :
    Performs n engine (fun _ => p) x xs Q :=
  fun fine i t listable known rest => h known fine i t listable trivial rest

/-- One row of steps behind another: the second is begun only if all of the first were taken.  If a
    step of the first is refused the second is not begun, and the steps end there on both sides. -/
protected theorem bind {f : α → EStateM ε τ β} {R : β → τ → Prop} (hx : Performs n engine P x xs Q)
    (hf : ∀ a, Performs n engine (Q a) (f a) ys R) : Performs n engine P (x >>= f) (xs ++ ys) R := by
  intro fine i t listable known rest
  obtain ⟨first, later⟩ := List.forall_mem_append.mp fine
  obtain ⟨rest, result⟩ := hx first i t listable known rest
  rw [Inventory.after_append]
  cases r : x t with
  | ok a t' =>
    rw [r] at rest result
    obtain ⟨all, known⟩ := result
    rw [bind_of_ok r, if_pos all]
    exact hf a later _ t' (listable.after first) known rest
  | error err t' =>
    rw [r] at rest result
    rw [bind_of_error r, if_neg (by rw [result]; exact Bool.false_ne_true)]
    exact ⟨rest, rfl⟩

end Performs

end

/-! ## The exchanges -/

section

variable {n : Nat} {x : ClientM Keeper Unit} {steps : List Step} {c c' : SecureContext}

/-- An exchange with the device that takes these steps, whatever the state of its leader. -/
abbrev Exchanges (n : Nat) (x : ClientM Keeper Unit) (steps : List Step) : Prop :=
  Performs n id (fun _ => True) x steps fun _ _ => True

/-- An exchange that finds its leader in one state and leaves it in another, if it takes all its
    steps. -/
abbrev Leads (n : Nat) (c : SecureContext) (x : OwnerM SecureContext Keeper Unit) (steps : List Step)
    (c' : SecureContext) : Prop :=
  Performs n Prod.snd (fun t => t.1 = c) x steps fun _ t => t.1 = c'

/-- Setting a parameter is the one step of that name. -/
theorem exchanges_configure (room : 7 ≤ n) (key : String) (ctx : ContextIndex) (value : String) :
    Exchanges n (Ssl.configure key ctx value) [.set key ctx value] := by
  intro fine i e listable _ rest
  obtain ⟨hk, hv⟩ : OneLine key ∧ OneLine value := fine _ List.mem_cons_self
  obtain ⟨f, ran, rest⟩ := configure_inventory (e := e) room hk hv ctx rest
  rw [ran, Inventory.after_one]
  exact ⟨rest, rfl, trivial⟩

/-- Overwriting a slot is one step, whatever the slot held before. -/
theorem exchanges_overwrite (slot : String) (data : Bytes) :
    Exchanges n (Ssl.certOverwrite data slot) [.put slot data] := by
  intro fine i e listable _ rest
  obtain ⟨usable, some, sized⟩ : Ssl.Usable n slot ∧ _ := fine _ List.mem_cons_self
  obtain ⟨f, rest, ran⟩ := certOverwrite_inventory (e := e) usable listable some sized rest
  rw [ran, Inventory.after_one]
  unfold Step.taken
  cases i.refuses with
  | true => exact ⟨rest, rfl⟩
  | false => exact ⟨rest, rfl, trivial⟩

/-- Led beside a context an exchange takes the same steps, and the context stays. -/
theorem Exchanges.beside (h : Exchanges n x steps) (c : SecureContext) :
    Leads n c (beside x) steps c := by
  rintro fine i ⟨b, e⟩ listable rfl rest
  obtain ⟨rest, result⟩ := h fine i e listable trivial rest
  cases r : x e with
  | ok a f =>
    rw [r] at rest result
    rw [beside_of_ok b r]
    exact ⟨rest, result.1, rfl⟩
  | error err f =>
    rw [r] at rest result
    rw [beside_of_error b r]
    exact ⟨rest, result⟩

/-- An exchange that the tool asks for takes its steps there. -/
theorem Exchanges.ofClient (h : Exchanges n x steps) :
    Performs n Console.engine (fun _ => True) (ToolM.ofClient x) steps fun _ _ => True := by
  intro fine i t listable _ rest
  obtain ⟨rest, result⟩ := h fine i t.engine listable trivial rest
  unfold ToolM.ofClient
  cases r : x t.engine with
  | ok a f =>
    rw [r] at rest result
    exact ⟨rest, result⟩
  | error err f =>
    rw [r] at rest result
    exact ⟨rest, result⟩

theorem Leads.ofOwner {x : OwnerM SecureContext Keeper Unit} (h : Leads n c x steps c') :
    Performs n Console.engine (fun _ => True) (ToolM.ofOwner c x) steps fun b _ => b = c' := by
  intro fine i t listable _ rest
  obtain ⟨rest, result⟩ := h fine i (c, t.engine) listable rfl rest
  unfold ToolM.ofOwner
  cases r : x (c, t.engine) with
  | ok a s =>
    rw [r] at rest result
    exact ⟨rest, result⟩
  | error err s =>
    rw [r] at rest result
    exact ⟨rest, result⟩

end

/-! ## The calls of a context -/

/-- The step that binds a slot to a context. -/
def bindingStep (ctx : ContextIndex) (as : SlotUse) (slot : String) : Step :=
  .set as.parameter ctx (inQuotes slot)

/-- The step that sends the mode of authentication. -/
def modeStep (ctx : ContextIndex) (mode : AuthMode) : Step :=
  .set "authmode" ctx (toString mode.code)

section

variable {n : Nat} {c : SecureContext}

theorem leads_bindSlot (room : 7 ≤ n) (as : SlotUse) (slot : String) :
    Leads n c (beside (QuotingMethod.bindSlot c.index slot as)) [bindingStep c.index as slot] c := by
  rw [bindSlot_eq]
  exact (exchanges_configure room _ _ _).beside c

/-- Sending the mode sets that parameter, to what the context remembers. -/
theorem leads_applyAuthMode (room : 7 ≤ n) :
    Leads n c SecureContext.applyAuthMode [modeStep c.index c.authMode] c := by
  refine .of_eq ?_ ((exchanges_configure room "authmode" c.index (toString c.authMode.code)).beside c)
  rintro ⟨b, e⟩ rfl
  rfl

/-- What the context remembers is no step of the device's. -/
theorem leads_remember {g : SecureContext → SecureContext} :
    Leads n c (modify fun p => (g p.1, p.2)) [] (g c) := by
  refine .of_ok ?_
  rintro ⟨b, e⟩ rfl
  exact ⟨_, _, rfl, rfl, rfl⟩

/-- The authority's slot is bound, and behind that comes the mode that goes with it. -/
theorem leads_setCaCert (room : 7 ≤ n) (slot : String) :
    Leads n c (SecureContext.setCaCert slot)
      [bindingStep c.index .authority slot,
        modeStep c.index ({ c with ca := some slot } : SecureContext).authMode]
      { c with ca := some slot } := by
  refine .of_eq (fun t known => ?_) ((leads_bindSlot room .authority slot).bind fun _ =>
    (leads_remember (g := fun c => { c with ca := some slot })).bind fun _ => leads_applyAuthMode room)
  obtain ⟨b, e⟩ := t
  subst known
  exact setCaCert_steps b slot e

/-- The client's three slots are bound, and behind them comes the mode. -/
theorem leads_setClient (room : 7 ≤ n) (slots : ClientSlots) :
    Leads n c (SecureContext.setClient slots)
      [bindingStep c.index .certificate slots.cert, bindingStep c.index .key slots.key,
        bindingStep c.index .password slots.password,
        modeStep c.index ({ c with client := some slots } : SecureContext).authMode]
      { c with client := some slots } := by
  refine .of_eq (fun t known => ?_) ((leads_bindSlot room .certificate slots.cert).bind fun _ =>
    (leads_bindSlot room .key slots.key).bind fun _ =>
      (leads_bindSlot room .password slots.password).bind fun _ =>
        (leads_remember (g := fun c => { c with client := some slots })).bind fun _ =>
          leads_applyAuthMode room)
  obtain ⟨b, e⟩ := t
  subst known
  exact setClient_steps b slots e

/-- A certificate of the authority is stored before it is bound. -/
theorem leads_writeCaCert (room : 7 ≤ n) (cert : Bytes) (slot : String) :
    Leads n c (SecureContext.writeCaCert cert slot)
      [.put slot cert, bindingStep c.index .authority slot,
        modeStep c.index ({ c with ca := some slot } : SecureContext).authMode]
      { c with ca := some slot } :=
  ((exchanges_overwrite slot cert).beside c).bind fun _ => leads_setCaCert room slot

/-- All three files of the client are stored before any of them is bound. -/
theorem leads_writeClient (room : 7 ≤ n) (cert key password : Bytes) (slots : ClientSlots) :
    Leads n c (SecureContext.writeClient cert key password slots)
      [.put slots.cert cert, .put slots.key key, .put slots.password password,
        bindingStep c.index .certificate slots.cert, bindingStep c.index .key slots.key,
        bindingStep c.index .password slots.password,
        modeStep c.index ({ c with client := some slots } : SecureContext).authMode]
      { c with client := some slots } :=
  ((exchanges_overwrite slots.cert cert).beside c).bind fun _ =>
    ((exchanges_overwrite slots.key key).beside c).bind fun _ =>
      ((exchanges_overwrite slots.password password).beside c).bind fun _ => leads_setClient room slots

end

/-! ## The whole row -/

/-- The step that stores a file in its slot. -/
def putStep (files : Files) (f : CertFile) : Step := .put f.slot ((files f.path).getD [])

/-- The settings of the handshake, each as a step. -/
def handshake (config : SslConfig) : List Step :=
  [.set "sslversion" config.context (toString config.settings.version),
    .set "ignorelocaltime" config.context (flag config.settings.ignoreLocalTime),
    .set "negotiatetime" config.context (toString config.settings.negotiateTime)]

/-- The steps for the authority's file: it is stored and bound, and the mode is sent without a
    client. -/
def caSteps (files : Files) (config : SslConfig) (ca : CertFile) : List Step :=
  [putStep files ca, bindingStep config.context .authority ca.slot, modeStep config.context .serverOnly]

/-- The steps for the client's files: they are stored and bound, and the mode is sent with a
    client. -/
def clientSteps (files : Files) (config : SslConfig) (own : ClientFiles) : List Step :=
  [putStep files own.cert, putStep files own.key, putStep files own.password,
    bindingStep config.context .certificate own.cert.slot, bindingStep config.context .key own.key.slot,
    bindingStep config.context .password own.password.slot,
    modeStep config.context (.forSlots config.ca.isSome true)]

/-- What there is to be done to store what the configuration names, in the order in which the tool
    goes about it.  It depends on the configuration and on the files only, and not on what the
    device has in its slots. -/
def plan (files : Files) (config : SslConfig) : List Step :=
  handshake config ++ (config.ca.elim [] (caSteps files config) ++
    config.client.elim [] (clientSteps files config))

namespace SslConfig

/-- The files that the configuration names, the authority's first. -/
def files (config : SslConfig) : List CertFile :=
  config.ca.toList ++ config.client.elim [] fun own => [own.cert, own.key, own.password]

/-- The mode that goes with what is configured, which is the last that the device should be told. -/
def mode (config : SslConfig) : AuthMode := .forSlots config.ca.isSome config.client.isSome

end SslConfig

section

variable {n : Nat} {files : Files} {config : SslConfig}

/-- A file that is there is read, and the tool is not disturbed by it. -/
theorem readFile_eq {f : CertFile} {data : Bytes} (h : files f.path = some data) :
    readFile (σ := Keeper) files f.path = pure ((files f.path).getD []) := by
  unfold readFile
  rw [h]
  rfl

/-- The tool takes the authority's steps, on a context to which no client is bound yet. -/
theorem performs_provisionCa (config : SslConfig) (room : 7 ≤ n) {ca : CertFile} (readable : (files ca.path).isSome)
    {c : SecureContext} (index : c.index = config.context) (alone : c.client = none) :
    Performs n Console.engine (fun _ => True) (provisionCa files ca c) (caSteps files config ca)
      fun b _ => b = { c with ca := some ca.slot } := by
  obtain ⟨data, found⟩ := Option.isSome_iff_exists.mp readable
  have led := leads_writeCaCert (c := c) room ((files ca.path).getD []) ca.slot
  have mode : ({ c with ca := some ca.slot } : SecureContext).authMode = .serverOnly := by
    unfold SecureContext.authMode
    rw [alone]
    rfl
  unfold provisionCa
  rw [readFile_eq found, pure_bind, caSteps, ← index, ← mode]
  exact led.ofOwner

/-- The tool takes the client's steps, and the mode they end with is the one for all that is
    configured.  Whether there is an authority is known by then, since its part comes first. -/
theorem performs_provisionClient (room : 7 ≤ n) {own : ClientFiles}
    (readable : ∀ f ∈ [own.cert, own.key, own.password], (files f.path).isSome) {c : SecureContext}
    (index : c.index = config.context) (ca : c.ca.isSome = config.ca.isSome) :
    Performs n Console.engine (fun _ => True) (provisionClient files own c)
      (clientSteps files config own) fun b _ => b.authMode = .forSlots config.ca.isSome true := by
  obtain ⟨cert, foundCert⟩ := Option.isSome_iff_exists.mp (readable own.cert (by simp))
  obtain ⟨key, foundKey⟩ := Option.isSome_iff_exists.mp (readable own.key (by simp))
  obtain ⟨password, foundPassword⟩ := Option.isSome_iff_exists.mp (readable own.password (by simp))
  have led := leads_writeClient (c := c) room ((files own.cert.path).getD [])
    ((files own.key.path).getD []) ((files own.password.path).getD [])
    ⟨own.cert.slot, own.key.slot, own.password.slot⟩
  have mode : ({ c with client := some ⟨own.cert.slot, own.key.slot, own.password.slot⟩ } :
      SecureContext).authMode = .forSlots config.ca.isSome true := by
    rw [← ca]
    rfl
  unfold provisionClient
  rw [readFile_eq foundCert, readFile_eq foundKey, readFile_eq foundPassword, pure_bind, pure_bind,
    pure_bind, clientSteps, ← index, ← mode]
  exact led.ofOwner.mono fun b _ known => by rw [known]

/-- The authority's part, if there is one; otherwise nothing is done and nothing remembered. -/
theorem performs_caPart (files : Files) (config : SslConfig) (room : 7 ≤ n)
    (readable : ∀ ca, config.ca = some ca → (files ca.path).isSome) :
    Performs n Console.engine (fun _ => True)
      (match config.ca with
        | some ca => provisionCa files ca (.ofIndex config.context)
        | none => pure (.ofIndex config.context))
      (config.ca.elim [] (caSteps files config))
      fun c _ => c = ⟨config.context, config.ca.map CertFile.slot, none⟩ := by
  cases ca : config.ca with
  | none => exact .of_ok fun t _ => ⟨_, t, rfl, rfl, rfl⟩
  | some ca => exact performs_provisionCa config room (readable _ ca) rfl rfl

theorem performs_clientPart (files : Files) (config : SslConfig) (room : 7 ≤ n)
    (readable : ∀ own, config.client = some own →
      ∀ f ∈ [own.cert, own.key, own.password], (files f.path).isSome)
    {c : SecureContext} (known : c = ⟨config.context, config.ca.map CertFile.slot, none⟩) :
    Performs n Console.engine (fun _ => True)
      (match config.client with
        | some own => provisionClient files own c
        | none => pure c)
      (config.client.elim [] (clientSteps files config)) fun b _ => b.authMode = config.mode := by
  have ca : c.ca.isSome = config.ca.isSome := by
    rw [known]
    exact Option.isSome_map
  unfold SslConfig.mode
  cases client : config.client with
  | none => exact .of_ok fun t _ => ⟨_, t, rfl, rfl, by rw [← ca, known]; rfl⟩
  | some own => exact performs_provisionClient room (readable own client) (by rw [known]) ca

/-- What the tool does if anything is configured: the settings, then the two parts. -/
theorem provision_eq (some : config.files ≠ []) :
    provision (σ := Keeper) files config =
      ToolM.ofClient ((SecureContext.ofIndex config.context).configure config.settings) >>= fun _ =>
        (match config.ca with
          | .some ca => provisionCa files ca (.ofIndex config.context)
          | none => pure (.ofIndex config.context)) >>= fun c =>
          (match config.client with
            | .some own => provisionClient files own c
            | none => pure c) >>= fun c => pure c.authMode := by
  -- something is configured, so the tool does not stop at once
  have configured : ¬(config.ca.isNone && config.client.isNone) = true := by
    intro none
    obtain ⟨noCa, noClient⟩ := Bool.and_eq_true_iff.mp none
    apply some
    rw [SslConfig.files, Option.isNone_iff_eq_none.mp noCa, Option.isNone_iff_eq_none.mp noClient]
    rfl
  unfold provision
  rw [if_neg configured]
  -- the four ways in which the two parts are there or not
  obtain ⟨context, settings, ca, client⟩ := config
  cases ca with
  | none =>
    cases client with
    | none => rfl
    | some own => rfl
  | some ca =>
    cases client with
    | none => rfl
    | some own => rfl

/-- The tool takes the steps of the plan, and its result is the mode of the configuration.  This is
    so whatever the store has in its slots and whichever of the uploads it is going to refuse. -/
theorem performs_provision (room : 7 ≤ n) (some : config.files ≠ [])
    (readable : ∀ f ∈ config.files, (files f.path).isSome) :
    Performs n Console.engine (fun _ => True) (provision files config) (plan files config)
      fun mode _ => mode = config.mode := by
  have greeted : Exchanges n ((SecureContext.ofIndex config.context).configure config.settings)
      (handshake config) :=
    (exchanges_configure room _ _ _).bind fun _ =>
      (exchanges_configure room _ _ _).bind fun _ => exchanges_configure room _ _ _
  rw [provision_eq some]
  have authority := performs_caPart files config room fun ca h =>
    readable ca (by simp [SslConfig.files, h])
  have own := fun c => performs_clientPart files config room (c := c) fun own h f hf =>
    readable f (by simp only [SslConfig.files, h]; exact List.mem_append_right _ hf)
  have steps : plan files config = handshake config ++ (config.ca.elim [] (caSteps files config) ++
      (config.client.elim [] (clientSteps files config) ++ [])) := by
    rw [List.append_nil]
    rfl
  rw [steps]
  exact greeted.ofClient.bind fun _ => authority.bind fun c => .given fun known =>
    (own c known).bind fun b => .of_ok fun t known => ⟨b.authMode, t, rfl, rfl, known⟩

/-! ## What the plan comes to -/

/-- The slots that the plan overwrites are those of the files. -/
theorem slots_plan : (plan files config).filterMap Step.slot? = config.files.map CertFile.slot := by
  obtain ⟨context, settings, ca, client⟩ := config
  cases ca with
  | none =>
    cases client with
    | none => rfl
    | some own => rfl
  | some ca =>
    cases client with
    | none => rfl
    | some own => rfl

theorem putStep_mem_plan (files : Files) {f : CertFile} (named : f ∈ config.files) :
    putStep files f ∈ plan files config := by
  refine List.mem_append_right _ (List.mem_append.mpr ?_)
  rcases List.mem_append.mp named with authority | own
  -- the authority's file
  · left
    rw [Option.mem_toList.mp authority]
    exact List.mem_cons_self
  · right
    -- one of the client's files
    cases client : config.client with
    | none =>
      rw [client] at own
      cases own
    | some o =>
      rw [client] at own
      have one : f = o.cert ∨ f = o.key ∨ f = o.password := by simpa using own
      rcases one with rfl | rfl | rfl
      · exact List.mem_cons_self
      · exact List.mem_cons_of_mem _ List.mem_cons_self
      · exact List.mem_cons_of_mem _ (List.mem_cons_of_mem _ List.mem_cons_self)

/-- The mode is sent last, whichever of the two parts there are. -/
theorem plan_ends (files : Files) (some : config.files ≠ []) :
    ∃ steps, plan files config = steps ++ [modeStep config.context config.mode] := by
  obtain ⟨context, settings, ca, client⟩ := config
  cases client with
  | some own =>
    exact ⟨handshake _ ++ (ca.elim [] (caSteps files _) ++ (clientSteps files _ own).dropLast), by
      rw [List.append_assoc, List.append_assoc]; rfl⟩
  | none =>
    cases ca with
    | some ca => exact ⟨handshake _ ++ (caSteps files _ ca).dropLast, rfl⟩
    | none => exact absurd rfl some

theorem oneLine_flag (b : Bool) : OneLine (flag b) := by
  cases b with
  | true => decide
  | false => decide

theorem fine_binding (ctx : ContextIndex) (as : SlotUse) {slot : String} (u : Ssl.Usable n slot) :
    (bindingStep ctx as slot).Fine n :=
  ⟨.of_quotable (QuotingMethod.quotable_parameter as), .inQuotes u.quotable⟩

theorem fine_mode (ctx : ContextIndex) (mode : AuthMode) : (modeStep ctx mode).Fine n :=
  ⟨by decide, .toString _⟩

theorem fine_handshake : ∀ s ∈ handshake config, s.Fine n := by
  simp only [handshake, List.forall_mem_cons]
  exact ⟨⟨by decide, .toString _⟩, ⟨by decide, oneLine_flag _⟩, ⟨by decide, .toString _⟩,
    List.forall_mem_nil _⟩

/-- The file can be stored: its slot is named well, and there is something in it, though no more
    than can be counted in an announcement.  An empty file is none of these, since the store refuses
    an announcement of no bytes. -/
structure Storable (n : Nat) (files : Files) (f : CertFile) : Prop where
  usable : Ssl.Usable n f.slot
  readable : ∃ data, files f.path = some data ∧ data ≠ [] ∧ data.length < 2 ^ 64

theorem Storable.fine {f : CertFile} (h : Storable n files f) : (putStep files f).Fine n := by
  obtain ⟨data, found, some, sized⟩ := h.readable
  unfold putStep
  rw [found]
  exact ⟨h.usable, some, sized⟩

/-- If its file is storable, the authority's steps can be taken. -/
theorem fine_caSteps {ca : CertFile} (h : Storable n files ca) :
    ∀ s ∈ caSteps files config ca, s.Fine n := by
  simp only [caSteps, List.forall_mem_cons]
  exact ⟨h.fine, fine_binding _ _ h.usable, fine_mode _ _, List.forall_mem_nil _⟩

theorem fine_clientSteps {own : ClientFiles}
    (h : ∀ f ∈ [own.cert, own.key, own.password], Storable n files f) :
    ∀ s ∈ clientSteps files config own, s.Fine n := by
  simp only [List.forall_mem_cons] at h
  obtain ⟨cert, key, password, -⟩ := h
  simp only [clientSteps, List.forall_mem_cons]
  exact ⟨cert.fine, key.fine, password.fine, fine_binding _ _ cert.usable, fine_binding _ _ key.usable,
    fine_binding _ _ password.usable, fine_mode _ _, List.forall_mem_nil _⟩

/-- Every step can be taken if every file can be stored. -/
theorem fine_plan (storable : ∀ f ∈ config.files, Storable n files f) :
    ∀ s ∈ plan files config, s.Fine n := by
  obtain ⟨authority, own⟩ := List.forall_mem_append.mp storable
  refine List.forall_mem_append.mpr ⟨fine_handshake, List.forall_mem_append.mpr ⟨?_, ?_⟩⟩
  · cases found : config.ca with
    | none => exact List.forall_mem_nil _
    | some ca => exact fine_caSteps (authority ca (Option.mem_toList.mpr found))
  · cases found : config.client with
    | none => exact List.forall_mem_nil _
    | some own' =>
      rw [found] at own
      exact fine_clientSteps own

end

/-! ## Running the tool again and again -/

/-- A run of the tool: which of its uploads the store refuses, and whether the tool is started anew on
    the same link or goes on with the engine that it has. -/
structure Attempt where
  refusals : List Bool
  anew : Bool

namespace Attempt

/-- The engine that the run begins with: the device has been told which uploads to refuse. -/
def engine (a : Attempt) (e : Engine Keeper) : Engine Keeper :=
  let link := { e.stream.link with device := { e.stream.link.device with refusals := a.refusals } }
  if a.anew then .ofLink .standard link else { e with stream := { e.stream with link } }

/-- The tool as the run finds it. -/
def prepare (a : Attempt) (t : Console Keeper) : Console Keeper := { t with engine := a.engine t.engine }

/-- What the run leaves, however it ends. -/
def run (files : Files) (config : SslConfig) (t : Console Keeper) (a : Attempt) : Console Keeper :=
  endState (provision files config (a.prepare t))

end Attempt

/-- The tool before its first run, with a fresh engine on a link to a store. -/
def start (slots : Slots) (output : Output) : Console Keeper :=
  ⟨.ofLink .standard (.ofDevice ⟨.ofSlots slots, [], []⟩), output⟩

/-- The line sets the mode of authentication of some context, by how it begins. -/
def setsMode (line : String) : Bool := "AT+CSSLCFG=\"authmode\",".toList.isPrefixOf line.toList

/-- A setting of that parameter is such a line, for any context and mode. -/
theorem setsMode_setting (ctx : ContextIndex) (value : String) :
    setsMode (setting "authmode" ctx value) = true := by
  rw [setsMode, List.isPrefixOf_iff_prefix, setting_eq, settingHead_eq]
  refine ⟨(toString ctx.toNat ++ "," ++ value).toList, ?_⟩
  simp

namespace Attempt

variable {n : Nat} {files : Files} {config : SslConfig} {slots : Slots} {t : Console Keeper}

/-- The engine stands between two runs: the device awaits a command, and every slot that the
    configuration does not name is as it was at first.  Every run keeps it, refused or not, and so
    the last run begins where nothing stands in its way. -/
def Between (config : SslConfig) (slots : Slots) (t : Console Keeper) (i : Inventory) : Prop :=
  AtRest Window.defaultCapacity i.keeper t.engine ∧ i.Listable ∧
    ∀ name ∉ config.files.map CertFile.slot, i.slots.lookup name = slots.lookup name

/-- Before the first run no slot has changed, and nothing is left to read. -/
theorem between_start (names : ∀ name ∈ slots, quotable name = true) (output : Output) :
    Between config slots (start slots output) ⟨slots, [], []⟩ :=
  ⟨AtRest.ofLink .standard _, names, fun _ _ => rfl⟩

/-- A new engine has nothing to read either, since the old one has left nothing.  So it makes no
    difference to the store whether the tool is started again between two runs. -/
theorem Between.prepare {i : Inventory} (h : Between config slots t i) (a : Attempt) :
    Between config slots (a.prepare t) { i with refusals := a.refusals } := by
  obtain ⟨⟨X, ends, c⟩, listable, others⟩ := h
  refine ⟨?_, listable, others⟩
  have device : ({ t.engine.stream.link.device with refusals := a.refusals } : Keeper) =
      ({ i with refusals := a.refusals } : Inventory).keeper := by
    rw [c.device]
    rfl
  obtain ⟨-, queued⟩ := List.append_eq_nil_iff.mp c.unread
  show AtRest _ _ (a.engine t.engine)
  unfold engine
  cases a.anew with
  | true => exact ⟨[], .inl rfl, rfl, rfl, Window.endOf_ofCapacity _, device, c.scheduled, queued, c.unfinished, c.works⟩
  | false => exact ⟨X, ends, c.quiet, c.capacity, c.window, device, c.scheduled, c.unread, c.unfinished, c.works⟩

/-- A run takes the steps of the plan as far as the store agrees to them, and leaves the tool
    between two runs again.  A refused upload empties its slot, but only a slot that the
    configuration names. -/
theorem Between.run {i : Inventory} (h : Between config slots t i) (a : Attempt)
    (some : config.files ≠ []) (storable : ∀ f ∈ config.files, Storable Window.defaultCapacity files f) :
    let j := ({ i with refusals := a.refusals } : Inventory).after (plan files config)
    Between config slots (a.run files config t) j.2 ∧
      (j.1 = true → ∃ t', provision files config (a.prepare t) = .ok config.mode t') := by
  obtain ⟨rest, listable, others⟩ := h.prepare a
  intro j
  have readable : ∀ f ∈ config.files, (files f.path).isSome := by
    intro f named
    obtain ⟨data, found, -⟩ := (storable f named).readable
    rw [found]
    rfl
  have fine := fine_plan storable
  obtain ⟨rest, result⟩ := performs_provision (by decide) some readable fine _ (a.prepare t) listable
    trivial rest
  refine ⟨⟨rest, listable.after fine, fun name other => ?_⟩, fun all => ?_⟩
  -- no slot has changed but those of the plan
  · rw [Inventory.lookup_after_of_not_mem (by rw [slots_plan]; exact other)]
    exact others name other
  -- all steps were taken, so the tool ended well
  · cases r : provision files config (a.prepare t) with
    | ok mode t' =>
      rw [r] at result
      exact ⟨t', by rw [result.2]⟩
    | error err t' =>
      rw [r] at result
      cases all.symm.trans result

/-- Any number of runs, one after another; by induction on them, with `Between` as the invariant. -/
theorem between_foldl {i : Inventory} (h : Between config slots t i) (attempts : List Attempt)
    (some : config.files ≠ []) (storable : ∀ f ∈ config.files, Storable Window.defaultCapacity files f) :
    ∃ j, Between config slots (attempts.foldl (run files config) t) j := by
  induction attempts generalizing t i with
  | nil => exact ⟨i, h⟩
  | cons a attempts ih => exact ih (h.run a some storable).1

end Attempt

/-- The tool is run with one configuration again and again, on a link to any store, and the store refuses
    any number of the uploads.  A run in which it refuses none returns the mode that follows from the
    configuration.  Every slot of the configuration then holds what is in its file, every other slot is as
    it was at first, the last command that set a mode of authentication has set this one for the context
    of the configuration, and nothing is left to read. -/
theorem provision_converges (slots : Slots) (names : ∀ name ∈ slots, quotable name = true)
    (files : Files) (config : SslConfig) (some : config.files ≠ [])
    (distinct : (config.files.map CertFile.slot).Nodup)
    (storable : ∀ f ∈ config.files, Storable Window.defaultCapacity files f) (output : Output)
    (earlier : List Attempt) (last : Attempt) (accepted : ∀ r ∈ last.refusals, r = false) :
    let before := earlier.foldl (Attempt.run files config) (start slots output)
    let mode := AuthMode.forSlots config.ca.isSome config.client.isSome
    ∃ now, provision files config (last.prepare before) = .ok mode now ∧
      (∀ f ∈ config.files, now.engine.stream.link.device.store.slots.lookup f.slot = files f.path) ∧
      (∀ name ∉ config.files.map CertFile.slot,
        now.engine.stream.link.device.store.slots.lookup name = slots.lookup name) ∧
      (now.engine.stream.link.device.told.filter setsMode).getLast? =
        .some (setting "authmode" config.context (toString mode.code)) ∧
      now.engine.stream.unread = [] := by
  intro before mode
  obtain ⟨i, between⟩ := Attempt.between_foldl (Attempt.between_start names output) earlier some storable
  obtain ⟨⟨rest, -, others⟩, result⟩ := between.run last some storable
  let j : Inventory := { i with refusals := last.refusals }
  have all : (j.after (plan files config)).1 = true := Inventory.after_of_accepted accepted
  obtain ⟨now, ran⟩ := result all
  -- the last run leaves the tool where its result says
  have left : last.run files config before = now := by
    unfold Attempt.run
    rw [ran]
    rfl
  rw [left] at rest
  refine ⟨now, ran, ?_, ?_, ?_, rest.unread⟩
  -- each file is the last thing that was put into its slot
  · intro f named
    obtain ⟨data, found, -⟩ := (storable f named).readable
    have put := putStep_mem_plan files named
    rw [rest.device, found]
    refine Inventory.lookup_after_of_mem (by rw [slots_plan]; exact distinct) ?_ all
    unfold putStep at put
    rwa [found] at put
  -- no other slot has changed
  · intro name other
    rw [rest.device]
    exact others name other
  -- the mode is the last that was told
  · obtain ⟨steps, ends⟩ := plan_ends files some
    rw [ends, modeStep] at all rest
    obtain ⟨told, last⟩ := Inventory.told_after_concat all
    have record : now.engine.stream.link.device.told =
        told ++ [setting "authmode" config.context (toString mode.code)] := by
      rw [rest.device]
      exact last
    rw [record, List.filter_append, List.filter_cons_of_pos (setsMode_setting _ _), List.filter_nil,
      List.getLast?_concat]

/-- The authority's slot is taken at first.  The upload into it is refused, then that of the key, in a
    run that goes on with the engine of the first one; the third run is a new start. -/
theorem provision_converges_after_refusals :
    let slots : Slots := (Finmap.singleton "ca.bak" [1]).insert "ca" [2]
    let files : Files := fun path => some (Utf8.encode path)
    let config : SslConfig :=
      { SslConfig.standard with
        context := 3
        ca := some ⟨"/etc/ca.pem", "ca"⟩
        client := some ⟨⟨"/etc/cert.pem", "cert"⟩, ⟨"/etc/key.pem", "key"⟩, ⟨"OK\r\n", "password"⟩⟩ }
    let earlier : List Attempt := [⟨[true], true⟩, ⟨[false, false, true], false⟩]
    let last : Attempt := ⟨[], true⟩
    let before := earlier.foldl (Attempt.run files config) (start slots (.fresh true))
    (∀ name ∈ slots, quotable name = true) ∧ config.files ≠ [] ∧
      (config.files.map CertFile.slot).Nodup ∧
      (∀ f ∈ config.files, Storable Window.defaultCapacity files f) ∧
      (∀ r ∈ last.refusals, r = false) ∧
      ∃ now, provision files config (last.prepare before) = .ok .both now ∧
        now.engine.stream.link.device.store.slots.lookup "password" = some (Utf8.encode "OK\r\n") ∧
        now.engine.stream.link.device.store.slots.lookup "ca.bak" = some [1] ∧
        (now.engine.stream.link.device.told.filter setsMode).getLast? =
          some "AT+CSSLCFG=\"authmode\",3,2" := by
  intro slots files config earlier last before
  have names : ∀ name ∈ slots, quotable name = true := by
    intro name h
    rcases Finmap.mem_insert.mp h with rfl | h
    · decide
    · rw [(Finmap.mem_singleton name "ca.bak" [1]).mp h]
      decide
  have some : config.files ≠ [] := List.cons_ne_nil _ _
  have distinct : (config.files.map CertFile.slot).Nodup := by decide
  have storable : ∀ f ∈ config.files, Storable Window.defaultCapacity files f := by
    intro f named
    have usable : ∀ f ∈ config.files, f.slot ≠ "" ∧ quotable f.slot = true ∧ ',' ∉ f.slot.toList ∧
        (Utf8.encode (inQuotes f.slot)).length ≤ Window.defaultCapacity := by decide
    have readable : ∀ f ∈ config.files, Utf8.encode f.path ≠ [] ∧
        (Utf8.encode f.path).length < 2 ^ 64 := by decide
    obtain ⟨named', quotable, comma, fits⟩ := usable f named
    exact ⟨⟨named', quotable, comma, by decide, fits⟩, _, rfl, readable f named⟩
  have accepted : ∀ r ∈ last.refusals, r = false := List.forall_mem_nil _
  obtain ⟨now, ran, stored, others, mode, -⟩ :=
    provision_converges slots names files config some distinct storable (.fresh true) earlier last accepted
  have command : setting "authmode" 3 (toString AuthMode.both.code) = "AT+CSSLCFG=\"authmode\",3,2" := by
    decide
  refine ⟨names, some, distinct, storable, accepted, now, ran, ?_, ?_, mode.trans (congrArg _ command)⟩
  · exact stored ⟨"OK\r\n", "password"⟩ (by decide)
  · rw [others "ca.bak" (by decide), Finmap.lookup_insert_of_ne _ (by decide)]
    exact Finmap.lookup_singleton_eq

end AtModem.Tool
