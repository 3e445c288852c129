/-
  Handlers and their numbers.

  A registration gives its handler a number, and by that number the handler is taken out again.  So
  who can be taken out by whom hangs on the numbers being different.  They count up and are 32-bit
  words: as long as they have not come round, every number in a registry is smaller than the next one
  and no two are the same (`Numbered`).

  `Later e f` is what a run does to this: it goes on counting, the numbers stay different, and a slot of
  `f` is one of `e` or has a number that `e` had not given yet.  So whoever remembers the numbers of
  its own slots finds those slots by them however much later, and nothing else (`slots_leave`).
  `Restored e f` says more: that the slots are those of `e` again.
-/
import AtModem.Proofs.Session
import Mathlib.Algebra.Group.Nat.Defs
import Mathlib.Data.List.Nodup

namespace AtModem

/-! ## Numbers that have not come round -/

namespace Registry

/-- The registry after `n` registrations: every number in it is smaller than `n`, no two are the
    same, and `n` is given next.  It can last only as long as the count fits a word of 32 bits,
    since beyond that numbers come round. -/
structure Numbered (n : Nat) (r : Registry) : Prop where
  next : r.nextId = UInt32.ofNat n
  distinct : (r.slots.map Slot.id).Nodup
  given : ∀ s ∈ r.slots, s.id.toNat < n

theorem numbered_ofCapacity (capacity : Nat) : Numbered 0 (ofCapacity capacity) :=
  ⟨rfl, List.nodup_nil, fun _ h => by cases h⟩

namespace Numbered

variable {n : Nat} {r : Registry}

/-- A slot is known by its number, as no two in the registry are the same. -/
theorem eq_of_id_eq (k : Numbered n r) {s t : Slot} (hs : s ∈ r.slots) (ht : t ∈ r.slots)
    (h : s.id = t.id) : s = t :=
  List.inj_on_of_nodup_map k.distinct hs ht h

/-- As long as the words have not come round, the next number counts the registrations. -/
theorem toNat_next (k : Numbered n r) (few : n < 2 ^ 32) : r.nextId.toNat = n := by
  rw [k.next, UInt32.toNat_ofNat']
  exact Nat.mod_eq_of_lt few

/-- The next number is a new one, so that registering keeps the numbers different; this is where
    their coming round would tell.  Without the bound the new number could be that of a handler
    which is still there. -/
theorem add (k : Numbered n r) (few : n < 2 ^ 32) (h : Handler) :
    Numbered (n + 1)
      { r with slots := r.slots ++ [⟨r.nextId, h⟩], nextId := r.nextId + 1 } where
  next := by
    show r.nextId + 1 = UInt32.ofNat (n + 1)
    rw [k.next, UInt32.ofNat_add]
    rfl
  distinct := by
    rw [List.map_append, List.nodup_append]
    refine ⟨k.distinct, by simp, ?_⟩
    -- a number that was given before is smaller than the next one
    intro id hid id' hid' same
    obtain ⟨s, hs, rfl⟩ := List.mem_map.mp hid
    have last : id' = r.nextId := by simpa using hid'
    have lt := k.given s hs
    rw [same, last, k.toNat_next few] at lt
    omega
  given := by
    intro s hs
    -- an old slot, or the new one
    rcases List.mem_append.mp hs with hs | hs
    · have := k.given s hs
      omega
    · obtain rfl : s = ⟨r.nextId, h⟩ := List.mem_singleton.mp hs
      show r.nextId.toNat < n + 1
      rw [k.toNat_next few]
      omega

/-- Only the slot with that number goes, and the others keep their order.  As the numbers are
    different, taking out the first with a number is taking out the only one. -/
theorem slots_deregister (k : Numbered n r) (id : HandlerId) :
    (r.deregister id).2.slots = r.slots.filter (·.id ≠ id) := by
  show r.slots.eraseP (·.id = id) = _
  have distinct := k.distinct
  revert distinct
  induction r.slots with
  | nil => intro _; rfl
  | cons s ss ih =>
    intro distinct
    rw [List.map_cons, List.nodup_cons] at distinct
    by_cases h : s.id = id
    · -- none of the others has this number
      have others : ss.filter (·.id ≠ id) = ss := by
        refine List.filter_eq_self.mpr fun t ht => ?_
        have : t.id ≠ id := fun same => distinct.1 (h ▸ same ▸ List.mem_map_of_mem ht)
        simpa using this
      rw [List.eraseP_cons_of_pos (by simpa using h), List.filter_cons_of_neg (by simpa using h), others]
    · rw [List.eraseP_cons_of_neg (by simpa using h), List.filter_cons_of_pos (by simpa using h),
        ih distinct.2]

theorem remove (k : Numbered n r) (id : HandlerId) : Numbered n (r.deregister id).2 where
  next := k.next
  distinct := by
    rw [k.slots_deregister]
    exact k.distinct.sublist ((List.filter_sublist).map Slot.id)
  given s hs := by
    rw [k.slots_deregister] at hs
    exact k.given s (List.mem_filter.mp hs).1

end Numbered
end Registry

/-! ## In the course of a run -/

namespace Engine

variable {σ : Type}

/-- The registry of an engine has been numbered from the start, by its own count of
    registrations. -/
def Numbered (e : Engine σ) : Prop := e.registry.Numbered e.registered.value

theorem numbered_ofLink (config : EngineConfig) (l : Link σ) : (ofLink config l).Numbered := by
  have none : (ofLink config l).registered.value = 0 := Ghost.value_of 0
  unfold Numbered
  rw [none]
  exact Registry.numbered_ofCapacity _

/-- `f` comes after `e`.  As long as the numbers last, they stay different, and a slot of `f` was
    there in `e` or has a number that was given since.  It is reflexive and transitive, and every
    operation keeps it, those that fail among them. -/
structure Later (e f : Engine σ) : Prop where
  counted : e.registered.value ≤ f.registered.value
  numbered : e.Numbered → f.registered.value ≤ 2 ^ 32 → f.Numbered
  slots : e.Numbered → f.registered.value ≤ 2 ^ 32 →
    ∀ s ∈ f.registry.slots, s ∈ e.registry.slots ∨ e.registered.value ≤ s.id.toNat

/-- `f` comes after `e` and has the slots of `e`, in their order; numbers may have been given in
    between.  This is what a facade owes its caller at the end; as long as it stands there is only
    `Later`. -/
structure Restored (e f : Engine σ) : Prop where
  counted : e.registered.value ≤ f.registered.value
  numbered : e.Numbered → f.registered.value ≤ 2 ^ 32 → f.Numbered
  slots : e.Numbered → f.registered.value ≤ 2 ^ 32 → f.registry.slots = e.registry.slots

/-- Nothing has happened to the handlers, nor to the count of registrations. -/
structure SameHandlers (e f : Engine σ) : Prop where
  registry : f.registry = e.registry
  registered : f.registered = e.registered

variable {e f g : Engine σ}

/-- What comes later than what comes later comes later: a slot of `g` is one of `f`, and so one of
    `e` or newer. -/
theorem Later.trans (h : Later e f) (k : Later f g) : Later e g where
  counted := Nat.le_trans h.counted k.counted
  numbered n few := k.numbered (h.numbered n (Nat.le_trans k.counted few)) few
  slots n few s hs := by
    have few' : f.registered.value ≤ 2 ^ 32 := Nat.le_trans k.counted few
    rcases k.slots (h.numbered n few') few s hs with old | new
    · exact h.slots n few' s old
    · exact .inr (Nat.le_trans h.counted new)

theorem Restored.trans (h : Restored e f) (k : Restored f g) : Restored e g where
  counted := Nat.le_trans h.counted k.counted
  numbered n few := k.numbered (h.numbered n (Nat.le_trans k.counted few)) few
  slots n few := by
    have few' : f.registered.value ≤ 2 ^ 32 := Nat.le_trans k.counted few
    exact (k.slots (h.numbered n few') few).trans (h.slots n few')

theorem Restored.later (h : Restored e f) : Later e f where
  counted := h.counted
  numbered := h.numbered
  slots n few _ hs := .inl (h.slots n few ▸ hs)

theorem SameHandlers.refl (e : Engine σ) : SameHandlers e e := ⟨rfl, rfl⟩

theorem SameHandlers.trans (h : SameHandlers e f) (k : SameHandlers f g) : SameHandlers e g :=
  ⟨k.registry.trans h.registry, k.registered.trans h.registered⟩

/-- Handlers to which nothing has happened are there again. -/
theorem SameHandlers.restored (h : SameHandlers e f) : Restored e f where
  counted := Nat.le_of_eq (by rw [h.registered])
  numbered n _ := by
    unfold Numbered
    rw [h.registry, h.registered]
    exact n
  slots _ _ := by rw [h.registry]

variable [Device σ]

/-- An exchange leaves the handlers alone: registering is not among its steps. -/
theorem keptByExchange_handlers :
    KeptByExchange (fun _ _ : Stream σ => True) SameHandlers where
  reading := by constructor <;> intros <;> trivial
  trans _ _ _ := SameHandlers.trans
  stream _ := ⟨rfl, rfl⟩
  hear _ _ := ⟨rfl, rfl⟩
  mail _ _ _ _ := ⟨rfl, rfl⟩
  print data e := by
    unfold print
    split
    · exact ⟨rfl, rfl⟩
    · exact ⟨rfl, rfl⟩

/-- The same in terms of slots, for exchanges that stand between a registration and its end. -/
theorem keptByExchange_restored : KeptByExchange (fun _ _ : Stream σ => True) Restored where
  reading := keptByExchange_handlers.reading
  trans _ _ _ := Restored.trans
  stream h := (keptByExchange_handlers.stream h).restored
  hear e b := (keptByExchange_handlers.hear e b).restored
  mail e inboxes events h := (keptByExchange_handlers.mail e inboxes events h).restored
  print data e := (keptByExchange_handlers.print data e).restored

/-! ## One handler comes or goes -/

/-- The engine with one more handler, in the last slot and under the next number. -/
def withHandler (h : Handler) (e : Engine σ) : Engine σ :=
  { e with
    registry := { e.registry with
      slots := e.registry.slots ++ [⟨e.registry.nextId, h⟩]
      nextId := e.registry.nextId + 1 }
    registered := e.registered.update (· + 1) }

omit [Device σ] in
@[simp] theorem registered_withHandler (h : Handler) (e : Engine σ) :
    (e.withHandler h).registered.value = e.registered.value + 1 :=
  Ghost.value_update _ _

omit [Device σ] in
/-- A handler is registered under the next number, or there is no room and nothing has changed. -/
theorem register_cases (h : Handler) (e : Engine σ) :
    register h e = .error (.registryFull e.registry.capacity) e ∨
      register h e = .ok e.registry.nextId (e.withHandler h) := by
  unfold register Registry.register
  by_cases full : e.registry.capacity ≤ e.registry.slots.length
  · rw [if_pos full]
    exact .inl rfl
  · rw [if_neg full]
    exact .inr rfl

omit [Device σ] in
/-- The one slot that is new has a number that was not given before. -/
theorem later_withHandler (h : Handler) (e : Engine σ) : Later e (e.withHandler h) := by
  have count := registered_withHandler h e
  refine ⟨by omega, fun n few => ?_, fun n few s hs => ?_⟩
  · unfold Numbered
    rw [count]
    exact Registry.Numbered.add n (by omega) h
  · rcases List.mem_append.mp hs with old | new
    · exact .inl old
    · obtain rfl := List.mem_singleton.mp new
      refine .inr (Nat.le_of_eq ?_)
      exact (Registry.Numbered.toNat_next n (by omega)).symm

omit [Device σ] in
/-- Registering goes on counting, whether there was room or not. -/
theorem later_register (h : Handler) (e : Engine σ) : Later e (endState (register h e)) := by
  rcases register_cases h e with r | r
  · rw [r]
    exact (SameHandlers.refl e).restored.later
  · rw [r]
    exact later_withHandler h e

omit [Device σ] in
theorem later_deregister (id : HandlerId) (e : Engine σ) : Later e (endState (deregister id e)) where
  counted := Nat.le_refl _
  numbered n _ := Registry.Numbered.remove n id
  slots n _ s hs := by
    have left : s ∈ e.registry.slots.filter (·.id ≠ id) := by
      rw [← Registry.Numbered.slots_deregister n id]
      exact hs
    exact .inl (List.mem_filter.mp left).1

/-- Whatever a session does, it goes on counting: every step of it registers, takes out, or leaves
    the handlers alone. -/
theorem keptBySession_later : KeptBySession (fun _ _ : Stream σ => True) Later where
  reading := keptByExchange_restored.reading
  trans _ _ _ := Later.trans
  stream h := (keptByExchange_restored.stream h).later
  hear e b := (keptByExchange_restored.hear e b).later
  mail e inboxes events h := (keptByExchange_restored.mail e inboxes events h).later
  print data e := (keptByExchange_restored.print data e).later
  register := later_register
  deregister := later_deregister
  link e l :=
    have same : SameHandlers e { e with stream := { e.stream with link := l } } := ⟨rfl, rfl⟩
    same.restored.later

/-! ## Several handlers come or go -/

omit [Device σ] in
/-- Several handlers are taken out one after the other. -/
theorem deregisterAll_cons (id : HandlerId) (ids : List HandlerId) (e : Engine σ) :
    deregisterAll (id :: ids) e = deregisterAll ids (endState (deregister id e)) := rfl

omit [Device σ] in
/-- Taking handlers out does not fail, known or not. -/
theorem deregisterAll_eq_ok (ids : List HandlerId) (e : Engine σ) :
    deregisterAll ids e = .ok () (endState (deregisterAll ids e)) := by
  induction ids generalizing e with
  | nil => rfl
  | cons id ids ih =>
    rw [deregisterAll_cons]
    exact ih _

omit [Device σ] in
@[simp] theorem registered_deregisterAll (ids : List HandlerId) (e : Engine σ) :
    (endState (deregisterAll ids e)).registered = e.registered := by
  induction ids generalizing e with
  | nil => rfl
  | cons id ids ih =>
    rw [deregisterAll_cons, ih]
    rfl

omit [Device σ] in
/-- However many are taken out, the numbers of the rest are different. -/
theorem numbered_deregisterAll (ids : List HandlerId) {e : Engine σ} (n : e.Numbered) :
    (endState (deregisterAll ids e)).Numbered := by
  induction ids generalizing e with
  | nil => exact n
  | cons id ids ih =>
    rw [deregisterAll_cons]
    have one : (endState (deregister id e)).Numbered := Registry.Numbered.remove n id
    exact ih one

omit [Device σ] in
/-- Only the slots with those numbers go; by induction on the numbers, one filter after another. -/
theorem slots_deregisterAll (ids : List HandlerId) {e : Engine σ} (n : e.Numbered) :
    (endState (deregisterAll ids e)).registry.slots = e.registry.slots.filter (·.id ∉ ids) := by
  induction ids generalizing e with
  | nil => exact (List.filter_eq_self.mpr fun _ _ => by simp).symm
  | cons id ids ih =>
    have numbered : (endState (deregister id e)).Numbered := Registry.Numbered.remove n id
    have one : (endState (deregister id e)).registry.slots = e.registry.slots.filter (·.id ≠ id) :=
      Registry.Numbered.slots_deregister n id
    rw [deregisterAll_cons, ih numbered, one, List.filter_filter]
    refine List.filter_congr fun s _ => ?_
    simp [Bool.and_comm]

/-- Handlers have come in behind those of `e`, into the slots `own`, and each in its turn.  Since
    new slots only come in behind the others, giving them up again cannot disturb the order of
    those. -/
structure Joined (own : List Slot) (hs : List Handler) (e f : Engine σ) : Prop where
  handlers : own.map Slot.handler = hs
  slots : f.registry.slots = e.registry.slots ++ own
  later : Later e f

/-- The slots are left and found by the numbers that were given with them, as a facade does that has
    remembered these. -/
def leave (own : List Slot) (g : Engine σ) : Engine σ :=
  endState (deregisterAll (own.map Slot.id) g)

omit [Device σ] in
@[simp] theorem registered_leave (own : List Slot) (g : Engine σ) :
    (g.leave own).registered = g.registered := registered_deregisterAll _ g

namespace Joined

variable {own : List Slot} {hs : List Handler}

omit [Device σ]

/-- However much later, who has one of their numbers is one of them: a newer slot has a newer
    number.  So giving up the numbers that one was given takes out one's own handlers, and nobody
    else's. -/
theorem mem_iff (j : Joined own hs e f) (l : Later f g) (n : e.Numbered)
    (few : g.registered.value ≤ 2 ^ 32) {s : Slot} (hs : s ∈ g.registry.slots) :
    s.id ∈ own.map Slot.id ↔ s ∈ own := by
  have few' : f.registered.value ≤ 2 ^ 32 := Nat.le_trans l.counted few
  have n' : f.Numbered := j.later.numbered n few'
  refine ⟨fun h => ?_, fun h => List.mem_map_of_mem h⟩
  obtain ⟨t, ht, same⟩ := List.mem_map.mp h
  have ht' : t ∈ f.registry.slots := j.slots ▸ List.mem_append_right _ ht
  rcases l.slots n' few s hs with old | new
  · rwa [← Registry.Numbered.eq_of_id_eq n' ht' old same]
  · -- a number that was given later is none of theirs
    have := n'.given t ht'
    rw [same] at this
    omega

open scoped Classical in
/-- Whatever happens in between, exactly those slots are left, and nobody else's. -/
theorem slots_leave (j : Joined own hs e f) (l : Later f g) (n : e.Numbered)
    (few : g.registered.value ≤ 2 ^ 32) :
    (g.leave own).registry.slots = g.registry.slots.filter (· ∉ own) := by
  have n' : g.Numbered := (j.later.trans l).numbered n few
  unfold leave
  rw [slots_deregisterAll _ n']
  refine List.filter_congr fun s hs => ?_
  rw [decide_eq_decide, j.mem_iff l n few hs]

open scoped Classical in
/-- None of them was there before, so without them the slots of `e` remain. -/
theorem filter_slots (j : Joined own hs e f) (n : e.Numbered) (few : f.registered.value ≤ 2 ^ 32) :
    (e.registry.slots ++ own).filter (· ∉ own) = e.registry.slots := by
  have distinct := (j.later.numbered n few).distinct
  rw [j.slots, List.map_append, List.nodup_append] at distinct
  have old : e.registry.slots.filter (· ∉ own) = e.registry.slots := by
    refine List.filter_eq_self.mpr fun s hs => ?_
    have : s ∉ own := fun h =>
      distinct.2.2 s.id (List.mem_map_of_mem hs) s.id (List.mem_map_of_mem h) rfl
    simpa using this
  have new : own.filter (· ∉ own) = [] := by simp
  rw [List.filter_append, old, new, List.append_nil]

/-- If nothing is left of what happened in between, everything is as it was before they joined. -/
theorem restored_leave (j : Joined own hs e f) (r : Restored f g) : Restored e (g.leave own) where
  counted := by
    rw [registered_leave]
    exact (j.later.trans r.later).counted
  numbered n few := by
    rw [registered_leave] at few
    exact numbered_deregisterAll _ ((j.later.trans r.later).numbered n few)
  slots n few := by
    rw [registered_leave] at few
    have few' : f.registered.value ≤ 2 ^ 32 := Nat.le_trans r.counted few
    rw [j.slots_leave r.later n few, r.slots (j.later.numbered n few') few, j.slots,
      j.filter_slots n few']

end Joined

omit [Device σ] in
theorem joined_withHandler (h : Handler) (e : Engine σ) :
    Joined [⟨e.registry.nextId, h⟩] [h] e (e.withHandler h) :=
  ⟨rfl, rfl, later_withHandler h e⟩

omit [Device σ] in
/-- All handlers are registered, or none is: where the room ends, those that had joined are taken
    out again.  By induction on the handlers, where those that have joined so far are given up at
    the first that does not fit. -/
theorem registerAll_cases (hs : List Handler) (e : Engine σ) :
    (∃ own f, registerAll hs e = .ok (own.map Slot.id) f ∧ Joined own hs e f) ∨
      ∃ err f, registerAll hs e = .error err f ∧ Restored e f := by
  induction hs generalizing e with
  | nil =>
    exact .inl ⟨[], e, rfl, rfl, (List.append_nil _).symm, (SameHandlers.refl e).restored.later⟩
  | cons h hs ih =>
    rcases register_cases h e with full | ok
    · exact .inr ⟨_, e, bind_of_error full, (SameHandlers.refl e).restored⟩
    rcases ih (e.withHandler h) with ⟨own, f, all, j⟩ | ⟨err, f, none, r⟩
    · refine .inl ⟨⟨e.registry.nextId, h⟩ :: own, f, ?_, ?_, ?_, ?_⟩
      · exact (bind_of_ok ok).trans (tryCatch_of_ok (bind_of_ok all))
      · rw [List.map_cons, j.handlers]
      · rw [j.slots]
        exact (List.append_cons _ _ _).symm
      · exact (later_withHandler h e).trans j.later
    · -- the one that was registered goes again
      refine .inr ⟨err, f.leave [⟨e.registry.nextId, h⟩], ?_, (joined_withHandler h e).restored_leave r⟩
      exact (bind_of_ok ok).trans (tryCatch_of_error (bind_of_error none))

omit [Device σ] in
/-- Registering does nothing to the rest of the engine, whether there was room or not.  So what a
    facade does before and after need not be proved again for the inboxes and the stream. -/
theorem endState_registerAll (hs : List Handler) (e : Engine σ) :
    ∃ registry registered, endState (registerAll hs e) = { e with registry, registered } := by
  let Kept (e f : Engine σ) : Prop := ∃ registry registered, f = { e with registry, registered }
  have refl : ∀ e, Kept e e := fun _ => ⟨_, _, rfl⟩
  have trans : ∀ e f g, Kept e f → Kept f g → Kept e g := by
    rintro e f g ⟨_, _, rfl⟩ ⟨_, _, rfl⟩
    exact ⟨_, _, rfl⟩
  have kept : Along Kept (registerAll hs) := by
    induction hs with
    | nil => exact Along.pure refl _
    | cons h hs ih =>
      refine Along.bind trans (fun e => ?_) fun id => Along.tryCatch trans ?_ fun err => ?_
      · rcases register_cases h e with r | r <;> rw [r]
        · exact refl e
        · exact ⟨_, _, rfl⟩
      · exact Along.bind trans ih fun _ => Along.pure refl _
      · exact Along.bind trans (fun _ => ⟨_, _, rfl⟩) fun _ => Along.throw refl _
  exact kept e

end Engine
end AtModem
