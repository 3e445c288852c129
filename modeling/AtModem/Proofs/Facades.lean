/-
  Facades: what has handlers of its own from when it is set up until it is given up.

  There are four kinds: MQTT clients, HTTP clients, sockets and feeds.  What they add to a registry is
  `Joined`, and what they take out is what they `leave`; between the two anything may happen, and other
  facades may come and go.  What is set up and given up again inside one operation leaves the registry
  as it found it (`Restored`).  So do the two operations of the command line that lend out a client and
  turn a feed on, however they end.
-/
import AtModem.Link.Script
import AtModem.Proofs.Exchange.Console
import AtModem.Proofs.Handlers

namespace AtModem

open Engine

variable {σ : Type} {e f g : Engine σ} {own : List Slot} {hs : List Handler}

/-- What joins after an exchange has joined: an exchange leaves the registry as it was. -/
theorem Engine.Joined.of_same (s : SameHandlers e f) (j : Joined own hs f g) : Joined own hs e g where
  handlers := j.handlers
  slots := by rw [j.slots, s.registry]
  later := s.restored.later.trans j.later

theorem Engine.Joined.same (j : Joined own hs e f) (s : SameHandlers f g) : Joined own hs e g where
  handlers := j.handlers
  slots := by rw [s.registry, j.slots]
  later := j.later.trans s.restored.later

/-! ## Setting up -/

namespace Mqtt.Client

/-- A client that is created has all its handlers registered and knows their numbers; one that is
    refused leaves no handler behind. -/
theorem create_cases (clientId : String) (useSsl : Bool) (options : Options) (ctx : ContextIndex)
    (e : Engine σ) :
    (∃ c own f, create clientId useSsl options ctx e = .ok c f ∧ c.handlers = own.map Slot.id ∧
        Joined own (reports c.inbox) e f) ∨
      ∃ err f, create clientId useSsl options ctx e = .error err f ∧ Restored e f := by
  let opened := endState (openMessages options.inboxCapacity options.inboxPolicy e)
  have ready : openMessages options.inboxCapacity options.inboxPolicy e =
    .ok e.inboxes.messages.length opened := rfl
  have same : SameHandlers e opened := ⟨rfl, rfl⟩
  rcases registerAll_cases (reports e.inboxes.messages.length) opened with
    ⟨own, f, all, j⟩ | ⟨err, f, none, r⟩
  · exact .inl ⟨_, own, f, (bind_of_ok ready).trans (bind_of_ok all), rfl, j.of_same same⟩
  · exact .inr ⟨err, f, (bind_of_ok ready).trans (bind_of_error none), same.restored.trans r⟩

/-- A client that is set up has an inbox of its own and its handlers behind all others.  The inbox
    is a new one, so no client that was there before shares it. -/
theorem create_eq_ok {clientId : String} {useSsl : Bool} {options : Options}
    {ctx : ContextIndex} {c : Client} (made : create clientId useSsl options ctx e = .ok c f) :
    c.inbox = e.inboxes.messages.length ∧
      ∃ registry registered, registry.handlers = e.registry.handlers ++ reports c.inbox ∧
        f = { e with
          registry
          registered
          inboxes := { e.inboxes with
            messages := e.inboxes.messages ++
              [.empty options.inboxCapacity options.inboxPolicy] } } := by
  let opened := endState (openMessages options.inboxCapacity options.inboxPolicy e)
  have ready : openMessages options.inboxCapacity options.inboxPolicy e =
    .ok e.inboxes.messages.length opened := rfl
  unfold create at made
  -- the inbox is opened first, and that cannot fail
  rw [bind_of_ok ready] at made
  obtain ⟨ids, g, registered, made⟩ := bind_eq_ok made
  cases made
  obtain ⟨registry, count, kept⟩ := endState_registerAll (reports e.inboxes.messages.length) opened
  rw [registered] at kept
  replace kept : f = { opened with registry, registered := count } := kept
  -- of the two ways in which registering can end only the one without an error is left
  rcases registerAll_cases (reports e.inboxes.messages.length) opened with
    ⟨own, g, all, j⟩ | ⟨err, g, none, -⟩
  · rw [registered] at all
    cases all
    refine ⟨rfl, registry, count, ?_, kept⟩
    have same : registry = f.registry := by rw [kept]
    rw [same, Registry.handlers, j.slots, List.map_append, j.handlers]
    rfl
  · rw [registered] at none
    cases none

end Mqtt.Client

namespace Http.Client

/-- The same for an HTTP client, whose default headers are a local matter. -/
theorem create_cases (server : String) (port : Nat) (useSsl : Bool) (userAgent : Option String)
    (ctx : ContextIndex) (e : Engine σ) :
    (∃ c own f, create server port useSsl userAgent ctx e = .ok c f ∧
        c.handlers = own.map Slot.id ∧ Joined own reports e f) ∨
      ∃ err f, create server port useSsl userAgent ctx e = .error err f ∧ Restored e f := by
  rcases registerAll_cases reports e with ⟨own, f, all, j⟩ | ⟨err, f, none, r⟩
  · exact .inl ⟨_, own, f, bind_of_ok all, rfl, j⟩
  · exact .inr ⟨err, f, bind_of_error none, r⟩

end Http.Client

namespace Socket

/-- The same for a socket, which has the one handler that hears its peer close. -/
theorem create_cases (session : SessionId) (ctx : ContextIndex) (e : Engine σ) :
    (∃ s own f, create session ctx e = .ok s f ∧ s.handlers = own.map Slot.id ∧
        Joined own [peerClosed] e f) ∨
      ∃ err f, create session ctx e = .error err f ∧ Restored e f := by
  rcases registerAll_cases [peerClosed] e with ⟨own, f, all, j⟩ | ⟨err, f, none, r⟩
  · exact .inl ⟨_, own, f, bind_of_ok all, rfl, j⟩
  · exact .inr ⟨err, f, bind_of_error none, r⟩

end Socket

namespace Gnss.Feed

open ClientM

variable [Device σ]

/-- The receiver's commands are exchanges, so they never touch the registry, answered or not. -/
theorem order_cases (line : String) (e : Engine σ) :
    (∃ f, order line e = .ok () f ∧ SameHandlers e f) ∨
      ∃ err f, order line e = .error err f ∧ SameHandlers e f := by
  have same : SameHandlers e (endState (order line e)) := keptByExchange_handlers.order line e
  cases h : order line e with
  | ok _ f => exact .inl ⟨f, rfl, by rwa [h] at same⟩
  | error err f => exact .inr ⟨err, f, rfl, by rwa [h] at same⟩

/-- A feed is turned on with all its handlers or with none: a refused output command takes them out
    again.  The handlers come first and the command second, so that no sentence is missed. -/
theorem turnOn_cases (inbox : Nat) (e : Engine σ) :
    (∃ own f, turnOn inbox e = .ok (own.map Slot.id) f ∧ Joined own (reports inbox) e f) ∨
      ∃ err f, turnOn inbox e = .error err f ∧ Restored e f := by
  rcases order_cases "AT+CGNSSPORTSWITCH=0,1" e with ⟨e₁, port, s₁⟩ | ⟨err, f, port, s₁⟩
  swap
  · exact .inr ⟨err, f, bind_of_error port, s₁.restored⟩
  rcases registerAll_cases (reports inbox) e₁ with ⟨own, e₂, all, j⟩ | ⟨err, f, none, r⟩
  swap
  · refine .inr ⟨.link err, f, (bind_of_ok port).trans ?_, s₁.restored.trans r⟩
    exact bind_of_error (ofEngine_of_error none)
  let output : ClientM σ (List HandlerId) :=
    tryCatch (do setNmeaOutput true; pure (own.map Slot.id)) fun err => do
      ofEngine (deregisterAll (own.map Slot.id))
      throw err
  have begun : turnOn inbox e = output e₂ :=
    (bind_of_ok port).trans (bind_of_ok (ofEngine_of_ok all))
  rcases order_cases "AT+CGNSSTST=1" e₂ with ⟨f, on, s₂⟩ | ⟨err, f, on, s₂⟩
  · exact .inl ⟨own, f, begun.trans (tryCatch_of_ok (bind_of_ok on)), (j.of_same s₁).same s₂⟩
  · -- the receiver refuses its output
    refine .inr ⟨err, f.leave own, begun.trans ?_, s₁.restored.trans (j.restored_leave s₂.restored)⟩
    refine (tryCatch_of_error (bind_of_error on)).trans ?_
    exact bind_of_ok (ofEngine_of_ok (deregisterAll_eq_ok _ f))

/-- A feed that is off is turned on with all its handlers, or none of them stays. -/
theorem enable_cases (inbox : Nat) (e : Engine σ) :
    (∃ own f, enable (⟨inbox, []⟩, e) = .ok () (⟨inbox, own.map Slot.id⟩, f) ∧
        Joined own (reports inbox) e f) ∨
      ∃ err f, enable (⟨inbox, []⟩, e) = .error err (⟨inbox, []⟩, f) ∧ Restored e f := by
  have off : enable (⟨inbox, []⟩, e) =
      (beside (turnOn inbox) >>= fun handlers => modify fun p => ({ p.1 with handlers }, p.2))
        ((⟨inbox, []⟩ : Feed), e) := rfl
  rcases turnOn_cases inbox e with ⟨own, f, on, j⟩ | ⟨err, f, none, r⟩
  · exact .inl ⟨own, f, off.trans (bind_of_ok (beside_of_ok _ on)), j⟩
  · exact .inr ⟨err, f, off.trans (bind_of_error (beside_of_error _ none)), r⟩

/-- Whatever the receiver answers, a feed that is turned off leaves its slots: the command to it
    comes first, and its failure is passed on only behind them. -/
theorem disable_leaves (exhaust : Bool) (inbox : Nat) (own : List Slot) (g : Engine σ) :
    ∃ g', SameHandlers g g' ∧
      SameHandlers (g'.leave own)
        (endState (disable exhaust (⟨inbox, own.map Slot.id⟩, g))).2 := by
  let g' := endState (order "AT+CGNSSTST=0" g)
  refine ⟨g', keptByExchange_handlers.order _ g, ?_⟩
  let leaving : OwnerM Feed σ Unit := do
    beside (ofEngine (deregisterAll (own.map Slot.id)))
    modify fun p => ({ p.1 with handlers := [] }, p.2)
    if exhaust then beside (ofEngine (clearSentences inbox))
  have left : leaving (⟨inbox, own.map Slot.id⟩, g') =
      (modify (fun p => ({ p.1 with handlers := [] }, p.2)) >>= fun _ =>
        if exhaust then beside (ofEngine (clearSentences inbox)) else pure ())
        ((⟨inbox, own.map Slot.id⟩ : Feed), g'.leave own) :=
    bind_of_ok (beside_of_ok _ (ofEngine_of_ok (deregisterAll_eq_ok _ g')))
  show SameHandlers _ (endState (tryFinally (beside (order "AT+CGNSSTST=0")) leaving _)).2
  rw [endState_tryFinally, endState_beside, left]
  cases exhaust with
  | false => exact SameHandlers.refl _
  | true => exact ⟨rfl, rfl⟩

end Gnss.Feed

/-! ## Facades -/

/-- What has handlers of its own, with what it is set up with; what is common to the four is said of
    this type. -/
inductive Facade where
  | mqtt (clientId : String) (useSsl : Bool) (options : Mqtt.Options) (ctx : ContextIndex)
  | http (server : String) (port : Nat) (useSsl : Bool) (userAgent : Option String)
      (ctx : ContextIndex)
  | socket (session : SessionId) (ctx : ContextIndex)
  /-- A feed that is off; `exhaust` is how it will be turned off again. -/
  | feed (inbox : Nat) (exhaust : Bool)

/-- How many handlers a facade has, which is what it needs free in the registry. -/
def Facade.size : Facade → Nat
  | mqtt .. => 3
  | http .. => 2
  | socket .. => 1
  | feed .. => 6

/-- A facade that has been set up: what it listens for, and how it is given up.  The facades are
    compared by this alone, and so nesting them takes no case for each pair. -/
structure Standing (σ : Type) where
  reports : List Handler
  giveUp : Engine σ → Engine σ

/-- Sets a facade up; afterwards it stands, with the way to give it up, or it does not. -/
def Facade.setUp [Device σ] (e : Engine σ) : Facade → Option (Standing σ) × Engine σ
  | mqtt clientId useSsl options ctx =>
    match Mqtt.Client.create clientId useSsl options ctx e with
    | .ok c f => (some ⟨Mqtt.Client.reports c.inbox, fun g => endState (c.release g)⟩, f)
    | .error _ f => (none, f)
  | http server port useSsl userAgent ctx =>
    match Http.Client.create server port useSsl userAgent ctx e with
    | .ok c f => (some ⟨Http.Client.reports, fun g => endState (c.release g)⟩, f)
    | .error _ f => (none, f)
  | socket session ctx =>
    match Socket.create session ctx e with
    | .ok s f => (some ⟨[Socket.peerClosed], fun g => endState (s.release g)⟩, f)
    | .error _ f => (none, f)
  | feed inbox exhaust =>
    match Gnss.Feed.enable (⟨inbox, []⟩, e) with
    | .ok () (s, f) =>
      (some ⟨Gnss.Feed.reports inbox, fun g => (endState (Gnss.Feed.disable exhaust (s, g))).2⟩, f)
    | .error _ (_, f) => (none, f)

/-- A facade stands in the slots `own`: giving it up leaves them, and does no more to the handlers.
    What others have done in between does not matter, as long as the slots are still there. -/
def Standing.In (own : List Slot) (s : Standing σ) : Prop :=
  ∀ g, ∃ g', SameHandlers g g' ∧ SameHandlers (g'.leave own) (s.giveUp g)

/-- What is given up by the numbers it was given is registered under the slots that bear them. -/
theorem Standing.in_released {ids : List HandlerId} (h : ids = own.map Slot.id)
    (reports : List Handler) :
    (⟨reports, fun g : Engine σ => endState (deregisterAll ids g)⟩ : Standing σ).In own := by
  intro g
  rw [h]
  exact ⟨g, .refl g, .refl _⟩

variable [Device σ]

/-- A facade stands with all its handlers, or none of them stays: there is no half of one in the
    registry.  It is proved for each of the four, and from here on they are not told apart. -/
theorem Facade.setUp_cases (facade : Facade) (e : Engine σ) :
    (∃ s own f, facade.setUp e = (some s, f) ∧ Joined own s.reports e f ∧
        s.reports.length = facade.size ∧ s.In own) ∨
      ∃ f, facade.setUp e = (none, f) ∧ Restored e f := by
  cases facade with
  | mqtt clientId useSsl options ctx =>
    rcases Mqtt.Client.create_cases clientId useSsl options ctx e with
      -- what was registered is what the facade will give up by its numbers
      ⟨c, own, f, made, ids, j⟩ | ⟨err, f, none, r⟩
    · refine .inl ⟨⟨Mqtt.Client.reports c.inbox, _⟩, own, f, ?_, j, rfl, Standing.in_released ids _⟩
      simp only [setUp, made]
      rfl
    -- nothing was registered, or all of it was taken out again
    · exact .inr ⟨f, by simp only [setUp, none], r⟩
  | http server port useSsl userAgent ctx =>
    rcases Http.Client.create_cases server port useSsl userAgent ctx e with
      ⟨c, own, f, made, ids, j⟩ | ⟨err, f, none, r⟩
    · refine .inl ⟨⟨Http.Client.reports, _⟩, own, f, ?_, j, rfl, Standing.in_released ids _⟩
      simp only [setUp, made]
      rfl
    · exact .inr ⟨f, by simp only [setUp, none], r⟩
  | socket session ctx =>
    rcases Socket.create_cases session ctx e with ⟨s, own, f, made, ids, j⟩ | ⟨err, f, none, r⟩
    · refine .inl ⟨⟨[Socket.peerClosed], _⟩, own, f, ?_, j, rfl, Standing.in_released ids _⟩
      simp only [setUp, made]
      rfl
    · exact .inr ⟨f, by simp only [setUp, none], r⟩
  | feed inbox exhaust =>
    rcases Gnss.Feed.enable_cases inbox e with ⟨own, f, on, j⟩ | ⟨err, f, none, r⟩
    · refine .inl ⟨⟨Gnss.Feed.reports inbox, _⟩, own, f, ?_, j, rfl,
        Gnss.Feed.disable_leaves exhaust inbox own⟩
      simp only [setUp, on]
    · exact .inr ⟨f, by simp only [setUp, none], r⟩

open scoped Classical in
omit [Device σ] in
/-- Whatever happens while a facade stands, giving it up takes out its own slots and no others. -/
theorem Standing.In.slots_giveUp {s : Standing σ} (h : s.In own) (j : Joined own hs e f)
    (l : Later f g) (n : e.Numbered) (few : (s.giveUp g).registered.value ≤ 2 ^ 32) :
    (s.giveUp g).registry.slots = g.registry.slots.filter (· ∉ own) := by
  obtain ⟨g', same, given⟩ := h g
  have few' : g'.registered.value ≤ 2 ^ 32 := by
    rwa [given.registered, registered_leave] at few
  rw [given.registry, j.slots_leave (l.trans same.restored.later) n few', same.registry]

/-! ## The command line -/

namespace Tool

variable {α : Type} {c d : Console σ}

open ToolM

omit [Device σ] in
/-- A client that is lent out leaves no handler behind, whatever it is used for.  It covers failure
    as well as success, as what is created is released on the way out. -/
theorem restored_withClient (config : Config) {use : Mqtt.Client → ToolM σ α}
    (h : ∀ client, Along (On Restored) (use client)) :
    Along (On Restored) (withClient config use) := by
  intro c
  rcases Mqtt.Client.create_cases config.mqtt.clientId config.mqtt.useSsl config.mqtt.options
      config.ssl.context c.engine with ⟨client, own, f, made, ids, j⟩ | ⟨err, f, none, r⟩
  -- the client could be made: its use leaves the slots alone, and then its own are given up
  · let lent : Console σ := { c with engine := f }
    have made' : ToolM.ofClient (.ofEngine (Mqtt.Client.create config.mqtt.clientId
        config.mqtt.useSsl config.mqtt.options config.ssl.context)) c = .ok client lent := by
      unfold ToolM.ofClient
      rw [ClientM.ofEngine_of_ok made]
    have used : Restored f (endState (use client lent)).engine := h client lent
    have given : (endState (withClient config use c)).engine =
        (endState (use client lent)).engine.leave own := by
      unfold withClient
      rw [bind_of_ok made', endState_tryFinally]
      show (endState (ToolM.ofEngine (deregisterAll client.handlers) _)).engine = _
      unfold ToolM.ofEngine
      rw [ids, deregisterAll_eq_ok]
      rfl
    show Restored _ (endState (withClient config use c)).engine
    rw [given]
    exact j.restored_leave used
  -- it could not be made, and nothing was left registered
  · have none' : ToolM.ofClient (.ofEngine (Mqtt.Client.create config.mqtt.clientId
        config.mqtt.useSsl config.mqtt.options config.ssl.context)) c =
        .error (.client (.link err)) { c with engine := f } := by
      unfold ToolM.ofClient
      rw [ClientM.ofEngine_of_error none]
    unfold withClient
    rw [bind_of_error none']
    exact r

/-- Publishing lends out a client and gives it up again, whether publishing succeeded or not. -/
theorem restored_publish (config : Config) (topic : String) (message : Bytes) (qos : Nat) :
    Along (On Restored) (Tool.publish (σ := σ) config topic message qos) := by
  have k := keptByExchange_restored (σ := σ)
  refine restored_withClient config fun client => k.on_bind (k.openBroker _ _) fun _ => ?_
  exact Along.tryFinally k.on_trans (along_ofClient (k.publishMessage _ _ _ _)) (k.closeBroker _)

/-- Listening for a while lends a client out too, beside a feed that stands already. -/
theorem restored_listenFor (config : Config) (duration : Nat) (running : Nat → Bool)
    (feed : Gnss.Feed) :
    Along (On Restored) (Tool.listenFor (σ := σ) config duration running feed) := by
  have k := keptByExchange_restored (σ := σ)
  refine k.on_bind k.on_get fun _ => ?_
  dsimp only
  split
  · exact k.turns _ _ _ _ _
  · refine restored_withClient config fun client => k.on_bind (k.openBroker _ _) fun _ =>
      k.on_bind (k.subscribeAll _ _) fun _ => ?_
    exact Along.tryFinally k.on_trans (k.turns _ _ _ _ _) (k.closeBroker _)

/-- A feed that is turned on for something is turned off after it, also where the something fails.
    Turning it off may fail in its command, but its handlers go all the same. -/
theorem restored_withFeed (inbox : Nat) {use : Gnss.Feed → ToolM σ α}
    (h : ∀ feed, Along (On Restored) (use feed)) :
    Along (On Restored) (withFeed ⟨inbox, []⟩ use) := by
  intro c
  rcases Gnss.Feed.enable_cases inbox c.engine with ⟨own, f, on, j⟩ | ⟨err, f, none, r⟩
  -- the feed could be turned on; turning it off leaves the slots, whatever the receiver says
  · let feed : Gnss.Feed := ⟨inbox, own.map Slot.id⟩
    let lent : Console σ := { c with engine := f }
    have on' : ofOwner ⟨inbox, []⟩ Gnss.Feed.enable c = .ok feed lent := by
      simp only [ofOwner, on]
      rfl
    let used := (endState (use feed lent)).engine
    obtain ⟨g', same, left⟩ := Gnss.Feed.disable_leaves true inbox own used
    have given : (endState (withFeed ⟨inbox, []⟩ use c)).engine =
        (endState (Gnss.Feed.disable true (feed, used))).2 := by
      unfold withFeed
      rw [bind_of_ok on', endState_tryFinally, endState_bind_pure, engine_ofOwner]
    have back : Restored f used := h feed lent
    show Restored _ (endState (withFeed _ use c)).engine
    rw [given]
    exact (j.restored_leave (back.trans same.restored)).trans left.restored
  -- it could not, and nothing was left registered
  · have none' : ofOwner ⟨inbox, []⟩ Gnss.Feed.enable c = .error (.client err) { c with engine := f } := by
      simp only [ofOwner, none]
    unfold withFeed
    rw [bind_of_error none']
    exact r

/-- The whole of `listen`, with or without a feed, leaves the registry as it was.  It is put
    together from what its parts leave, one protected part inside the other. -/
theorem restored_listenWhile (config : Config) (duration : Nat) (gnss : Bool)
    (running : Nat → Bool) :
    Along (On Restored) (Tool.listenWhile (σ := σ) config duration gnss running) := by
  intro c
  let inbox := c.engine.inboxes.sentences.length
  let opened : Console σ := { c with engine := endState (Gnss.Feed.create c.engine) }
  have created : ToolM.ofEngine Gnss.Feed.create c = .ok (⟨inbox, []⟩ : Gnss.Feed) opened := rfl
  have same : SameHandlers c.engine opened.engine := ⟨rfl, rfl⟩
  unfold Tool.listenWhile
  rw [bind_of_ok created]
  refine same.restored.trans ?_
  cases gnss with
  | false => exact restored_listenFor config duration running _ opened
  | true => exact restored_withFeed inbox (restored_listenFor config duration running) opened

end Tool

/-! ## In a run -/

namespace Engine

open scoped Classical in
/-- As long as the numbers of handlers do not come round, whatever has been called before: a facade
    that is set up has its handlers in slots of its own behind all others, or it fails and the slots
    are what they were.  Whatever is called while it stands, giving it up takes out those slots and
    leaves the others in their order.  Listening and publishing end with the slots they began with,
    however they end. -/
theorem facades_restore_handlers (config : EngineConfig) (l : Link σ) (calls : List (Call σ)) :
    let e := (ofLink config l).session calls
    (∀ (facade : Facade) (f : Engine σ), f.registered.value < 2 ^ 32 →
      (facade.setUp e = (none, f) → f.registry.slots = e.registry.slots) ∧
      ∀ s, facade.setUp e = (some s, f) →
        ∃ own, own.map Slot.handler = s.reports ∧ own.length = facade.size ∧
          f.registry.slots = e.registry.slots ++ own ∧
          ∀ calls, (s.giveUp (f.session calls)).registered.value < 2 ^ 32 →
            (s.giveUp (f.session calls)).registry.slots =
              (f.session calls).registry.slots.filter (· ∉ own)) ∧
    (∀ cfg duration gnss running output,
      let d := (endState (Tool.listenWhile cfg duration gnss running ⟨e, output⟩)).engine
      d.registered.value < 2 ^ 32 → d.registry.slots = e.registry.slots) ∧
    ∀ cfg topic message qos output,
      let d := (endState (Tool.publish cfg topic message qos ⟨e, output⟩)).engine
      d.registered.value < 2 ^ 32 → d.registry.slots = e.registry.slots := by
  intro e
  have fresh := numbered_ofLink config l
  have run : Later (ofLink config l) e := keptBySession_later.session calls _
  refine ⟨fun facade f few => ?_, ?_, ?_⟩
  -- a facade that is set up now, with anything in between
  · have numbered (c : e.registered.value ≤ f.registered.value) : e.Numbered :=
      run.numbered fresh (Nat.le_trans c (Nat.le_of_lt few))
    rcases facade.setUp_cases e with ⟨s, own, f', up, j, size, stands⟩ | ⟨f', down, r⟩
    · refine ⟨fun down => by simp [up] at down, fun s' up' => ?_⟩
      obtain ⟨rfl, rfl⟩ : s = s' ∧ f' = f := by simpa [up] using up'
      have sizes : own.length = facade.size := by rw [← size, ← j.handlers, List.length_map]
      refine ⟨own, j.handlers, sizes, j.slots, fun calls few' => ?_⟩
      exact stands.slots_giveUp j (keptBySession_later.session calls f') (numbered j.later.counted)
        (Nat.le_of_lt few')
    · refine ⟨fun down' => ?_, fun s up => by simp [down] at up⟩
      obtain rfl : f' = f := by simpa [down] using down'
      exact r.slots (numbered r.counted) (Nat.le_of_lt few)
  -- the two operations of the command line
  · intro cfg duration gnss running output d few
    have r : Restored e d := Tool.restored_listenWhile cfg duration gnss running ⟨e, output⟩
    have few' : e.registered.value ≤ 2 ^ 32 := Nat.le_trans r.counted (Nat.le_of_lt few)
    exact r.slots (run.numbered fresh few') (Nat.le_of_lt few)
  · intro cfg topic message qos output d few
    have r : Restored e d := Tool.restored_publish cfg topic message qos ⟨e, output⟩
    have few' : e.registered.value ≤ 2 ^ 32 := Nat.le_trans r.counted (Nat.le_of_lt few)
    exact r.slots (run.numbered fresh few') (Nat.le_of_lt few)

open scoped Classical in
/-- On a link that takes nothing: an MQTT client is set up behind an HTTP client and given up after a
    socket was set up behind it, and a feed cannot be turned on. -/
theorem facades_restore_handlers_nested :
    let calls : List (Call Script) :=
      [.link fun l => { l with failWrites := true }, .http (.createClient "example.org" 80 false none 0)]
    let e := (ofLink .standard (.ofDevice .silent)).session calls
    let up := (Facade.mqtt "meter" false .standard 0).setUp e
    let g := up.2.session [.ssl (.createSocket 0 0)]
    let d := (endState (Tool.listenWhile .standard 0 true (fun _ => true) ⟨e, .fresh false⟩)).engine
    (up.2.registered.value < 2 ^ 32 ∧ g.registered.value < 2 ^ 32 ∧ d.registered.value < 2 ^ 32) ∧
      (∃ (s : Standing Script) (own : List Slot), up.1 = some s ∧ own.length = 3 ∧
        g.registry.handlers = Http.Client.reports ++ s.reports ++ [Socket.peerClosed] ∧
        (s.giveUp g).registry.slots = g.registry.slots.filter (· ∉ own)) ∧
      d.registry.slots = e.registry.slots := by
  intro calls e up g d
  -- how often has been registered by each of these engines
  have two : e.registered = .update (.update (.of 0) (· + 1)) (· + 1) := rfl
  have five : up.2.registered =
      .update (.update (.update e.registered (· + 1)) (· + 1)) (· + 1) := rfl
  have six : g.registered = .update up.2.registered (· + 1) := rfl
  have none : d.registered = e.registered := rfl
  have few : up.2.registered.value < 2 ^ 32 := by simp [five, two]
  have few' : g.registered.value < 2 ^ 32 := by simp [six, five, two]
  have few'' : d.registered.value < 2 ^ 32 := by simp [none, two]
  obtain ⟨facades, listening, _⟩ := facades_restore_handlers .standard (.ofDevice .silent) calls
  obtain ⟨own, _, size, _, given⟩ := (facades (.mqtt "meter" false .standard 0) up.2 few).2 _ rfl
  exact ⟨⟨few, few', few''⟩, ⟨_, own, rfl, size, rfl, given [.ssl (.createSocket 0 0)] few'⟩,
    listening .standard 0 true (fun _ => true) (.fresh false) few''⟩

end Engine
end AtModem
