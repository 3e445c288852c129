/-
  What a handler's number stands for.

  A handler is taken out by the number that its registration has returned.  The numbers are 32-bit words
  and count up, so after 2 ^ 32 registrations they come round; and a slot is looked for by its number
  alone.  The reference is a roster that knows each handler by its registration, counted from the first
  one and without end (`Roster`).  The slots of the registry are the entries of the roster, each with its
  registration as a word, after every run, however long it is (`Agrees.run`).

  So a number leads to the handler of its registration as long as no other handler with this word is
  there (`Roster.Alone`).  It suffices that the handlers have all come by one of the last 2 ^ 32
  registrations, and that the number is no older (`Roster.Sound.alone`).  A handler that stays for longer
  than that is taken out in the place of another (`numbers_come_round`).
-/
import AtModem.Urc.Registry
import Mathlib.Data.List.Nodup
import Mathlib.Data.List.Pairwise

namespace AtModem.Registry

/-! ## The reference -/

/-- What is done to a registry.  Any number can be given to it, whether it has returned it or not. -/
inductive Op where
  | register (h : Handler)
  | deregister (id : HandlerId)

/-- A handler, and the registration that it has come by. -/
structure Entry where
  registration : Nat
  handler : Handler

/-- The slot of an entry: its number is the registration as a word, so registrations 2 ^ 32 apart
    share one. -/
def Entry.slot (e : Entry) : Slot := ⟨UInt32.ofNat e.registration, e.handler⟩

/-- The reference: every handler that is there, known by its registration, and the count of these.
    Here a registration has a number that never comes round, which is what the words of the registry
    are compared with. -/
structure Roster where
  capacity : Nat
  /-- The handlers that are registered: those that no call has taken out since. -/
  entries : List Entry
  /-- How many registrations have succeeded. -/
  count : Nat

namespace Roster

/-- A roster with room for some handlers and none registered. -/
def ofCapacity (capacity : Nat) : Roster := ⟨capacity, [], 0⟩

/-- A number takes out the oldest of the handlers whose registrations have this word. -/
def step (r : Roster) : Op → Roster
  | .register h =>
    if r.entries.length < r.capacity then
      { r with entries := r.entries ++ [⟨r.count, h⟩], count := r.count + 1 }
    else r
  | .deregister id => { r with entries := r.entries.eraseP (·.slot.id = id) }

/-- Operations one after another. -/
def run (r : Roster) (ops : List Op) : Roster := ops.foldl step r

/-- The registration is one of the last 2 ^ 32. -/
def Recent (r : Roster) (k : Nat) : Prop := r.count ≤ k + UInt32.size

/-- No handler has been there for longer. -/
def AllRecent (r : Roster) : Prop := ∀ e ∈ r.entries, r.Recent e.registration

instance (r : Roster) (k : Nat) : Decidable (r.Recent k) := inferInstanceAs (Decidable (_ ≤ _))

instance (r : Roster) : Decidable r.AllRecent := inferInstanceAs (Decidable (∀ e ∈ r.entries, _))

/-- No handler of another registration has the word of this one, so the word leads to this one or to
    none.  Taking out by number is right for registrations that are alone, and may hit another
    handler for those that are not. -/
def Alone (r : Roster) (k : Nat) : Prop :=
  ∀ e ∈ r.entries, UInt32.ofNat e.registration = UInt32.ofNat k → e.registration = k

/-- What is known of every roster: the entries stand in the order of their registrations, all of
    these have taken place, and there is room for the entries.  It holds of the empty roster and is
    kept by every operation, so it holds in every run. -/
structure Sound (r : Roster) : Prop where
  ordered : r.entries.Pairwise fun e f => e.registration < f.registration
  given : ∀ e ∈ r.entries, e.registration < r.count
  fits : r.entries.length ≤ r.capacity

variable {r : Roster}

/-- Where there is room a handler is entered under the count, which goes up. -/
theorem step_of_room (room : r.entries.length < r.capacity) (h : Handler) :
    r.step (.register h) = { r with entries := r.entries ++ [⟨r.count, h⟩], count := r.count + 1 } :=
  if_pos room

/-- Where there is none nothing is entered and nothing counted. -/
theorem step_of_full (full : ¬r.entries.length < r.capacity) (h : Handler) :
    r.step (.register h) = r := if_neg full

/-- An empty roster is sound, as there is no entry in it. -/
theorem sound_ofCapacity (capacity : Nat) : Sound (ofCapacity capacity) :=
  ⟨.nil, fun _ h => (nomatch h), Nat.zero_le _⟩

/-- Every operation keeps the roster sound: what is entered has come later than all the others.
    Taking a handler out leaves the order of the others, and the count never goes down. -/
theorem Sound.step (s : Sound r) (op : Op) : Sound (r.step op) := by
  cases op with
  | register h =>
    by_cases room : r.entries.length < r.capacity
    -- there is room: the new one comes last
    · rw [step_of_room room]
      refine ⟨?_, fun e he => ?_, ?_⟩
      · refine List.pairwise_append.mpr ⟨s.ordered, List.pairwise_singleton _ _, fun e he f hf => ?_⟩
        rw [List.mem_singleton.mp hf]
        exact s.given e he
      · rcases List.mem_append.mp he with he | he
        · exact Nat.lt_succ_of_lt (s.given e he)
        · rw [List.mem_singleton.mp he]
          exact Nat.lt_succ_self r.count
      · rw [List.length_append]
        exact room
    -- there is none, and nothing changes
    · rw [step_of_full room]
      exact s
  -- fewer are left, in the same order
  | deregister id =>
    exact ⟨s.ordered.sublist List.eraseP_sublist, fun e he => s.given e (List.mem_of_mem_eraseP he),
      Nat.le_trans List.length_eraseP_le s.fits⟩

theorem capacity_run (r : Roster) (ops : List Op) : (r.run ops).capacity = r.capacity := by
  induction ops generalizing r with
  | nil => rfl
  | cons op ops ih =>
    have one : (r.step op).capacity = r.capacity := by
      cases op with
      | register h =>
        by_cases room : r.entries.length < r.capacity
        · rw [step_of_room room]
        · rw [step_of_full room]
      | deregister id => rfl
    exact (ih (r.step op)).trans one

/-- Words tell registrations apart that are no further from each other than there are words. -/
theorem Sound.alone (s : Sound r) (recent : r.AllRecent) {k : Nat} (given : k < r.count)
    (young : r.Recent k) : r.Alone k := by
  intro e he same
  have words := congrArg UInt32.toNat same
  rw [UInt32.toNat_ofNat', UInt32.toNat_ofNat'] at words
  have later := s.given e he
  have near := recent e he
  unfold Recent UInt32.size at near young
  omega

end Roster

/-! ## The registry -/

/-- A registry, and the numbers that its registrations have returned, oldest first. -/
structure Journal where
  registry : Registry
  returned : List HandlerId

namespace Journal

/-- An empty registry that has returned no number. -/
def ofCapacity (capacity : Nat) : Journal := ⟨.ofCapacity capacity, []⟩

/-- An operation of the registry, with the number it returned put on record. -/
def step (j : Journal) : Op → Journal
  | .register h =>
    match j.registry.register h with
    | .ok (id, registry) => ⟨registry, j.returned ++ [id]⟩
    | .error _ => j
  | .deregister id => { j with registry := (j.registry.deregister id).2 }

/-- Operations one after another. -/
def run (j : Journal) (ops : List Op) : Journal := ops.foldl step j

end Journal

/-- A registry without room refuses and stays as it is. -/
theorem register_of_full {q : Registry} (full : q.capacity ≤ q.slots.length) (h : Handler) :
    q.register h = .error (.registryFull q.capacity) := if_pos full

/-- One with room puts the handler into its last slot, under the next number. -/
theorem register_of_room {q : Registry} (room : ¬q.capacity ≤ q.slots.length) (h : Handler) :
    q.register h = .ok (q.nextId,
      { q with slots := q.slots ++ [⟨q.nextId, h⟩], nextId := q.nextId + 1 }) := if_neg room

/-! ## The registry has what the roster has -/

/-- The registry has the entries of the roster, and has returned the numbers of the registrations.
    It is a simulation: each operation leads from a pair that agrees to one that agrees again. -/
structure Agrees (r : Roster) (j : Journal) : Prop where
  registry : j.registry = ⟨r.capacity, r.entries.map Entry.slot, UInt32.ofNat r.count⟩
  returned : j.returned = (List.range r.count).map UInt32.ofNat

namespace Agrees

variable {r : Roster} {j : Journal}

theorem ofCapacity (capacity : Nat) : Agrees (.ofCapacity capacity) (.ofCapacity capacity) := ⟨rfl, rfl⟩

/-- What is done to the one is done to the other: it has room just where the other has, and takes
    out by word what the other takes out. -/
theorem step (a : Agrees r j) (op : Op) : Agrees (r.step op) (j.step op) := by
  obtain ⟨registry, returned⟩ := a
  cases op with
  | register h =>
    have length : j.registry.slots.length = r.entries.length := by rw [registry, List.length_map]
    have capacity : j.registry.capacity = r.capacity := by rw [registry]
    by_cases full : j.registry.capacity ≤ j.registry.slots.length
    -- both are full
    · rw [Roster.step_of_full (by omega)]
      simp only [Journal.step, register_of_full full]
      exact ⟨registry, returned⟩
    -- both have room, and the count is the next number
    · rw [Roster.step_of_room (by omega)]
      simp only [Journal.step, register_of_room full]
      refine ⟨?_, ?_⟩
      · rw [registry, List.map_append, UInt32.ofNat_add]
        rfl
      · rw [returned, registry, List.range_succ, List.map_append]
        rfl
  | deregister id =>
    refine ⟨?_, returned⟩
    show (j.registry.deregister id).2 = _
    rw [registry, deregister, List.eraseP_map]
    rfl

/-- After any number of operations the registry has what the roster has; by induction on them, with
    soundness beside it. -/
theorem run (a : Agrees r j) (s : r.Sound) (ops : List Op) :
    Agrees (r.run ops) (j.run ops) ∧ (r.run ops).Sound := by
  induction ops generalizing r j with
  | nil => exact ⟨a, s⟩
  | cons op ops ih => exact ih (a.step op) (s.step op)

/-- A number that was returned is the word of its registration, and that has been counted. -/
theorem returned_eq (a : Agrees r j) {k : Nat} {id : HandlerId} (returned : j.returned[k]? = some id) :
    k < r.count ∧ id = UInt32.ofNat k := by
  rw [a.returned, List.getElem?_map] at returned
  obtain ⟨l, hl, rfl⟩ := Option.map_eq_some_iff.mp returned
  obtain ⟨given, rfl⟩ := List.getElem?_eq_some_iff.mp hl
  rw [List.length_range] at given
  exact ⟨given, by rw [List.getElem_range]⟩

/-- The numbers of the handlers differ if these have all come in the last 2 ^ 32 registrations. -/
theorem nodup (a : Agrees r j) (s : r.Sound) (recent : r.AllRecent) :
    (j.registry.slots.map Slot.id).Nodup := by
  have distinct : (r.entries.map Entry.registration).Nodup :=
    List.pairwise_map.mpr (s.ordered.imp fun lt => Nat.ne_of_lt lt)
  rw [a.registry, List.map_map]
  refine List.Nodup.map_on (fun e he f hf same => ?_) (List.Nodup.of_map _ distinct)
  exact List.inj_on_of_nodup_map distinct he hf
    (s.alone recent (s.given f hf) (recent f hf) e he same)

/-- A handler that is there is the one that its number finds, and it alone goes.  The hypothesis
    excludes a second handler with the same word, which could stand before it. -/
theorem deregister_of_mem (a : Agrees r j) (s : r.Sound) {e : Entry} (he : e ∈ r.entries)
    (alone : r.Alone e.registration) :
    j.registry.deregister (UInt32.ofNat e.registration) = (some e.handler,
      { j.registry with slots := (r.entries.filter (·.registration ≠ e.registration)).map Entry.slot }) := by
  obtain ⟨before, after, split⟩ := List.append_of_mem he
  have others : ∀ f ∈ before ++ after, f.registration ≠ e.registration := by
    intro f hf
    have ordered := s.ordered
    rw [split, List.pairwise_append, List.pairwise_cons] at ordered
    obtain ⟨-, ⟨behind, -⟩, front⟩ := ordered
    rcases List.mem_append.mp hf with hf | hf
    · exact Nat.ne_of_lt (front f hf e List.mem_cons_self)
    · exact Nat.ne_of_gt (behind f hf)
  -- the search stops at the entry, for those before it have other words
  have passed : ∀ t ∈ before.map Entry.slot, ¬t.id = UInt32.ofNat e.registration := by
    intro t ht same
    obtain ⟨f, hf, rfl⟩ := List.mem_map.mp ht
    have mem : f ∈ r.entries := by
      rw [split]
      exact List.mem_append_left _ hf
    exact others f (List.mem_append_left _ hf) (alone f mem same)
  have left : r.entries.filter (·.registration ≠ e.registration) = before ++ after := by
    rw [split, List.filter_append, List.filter_cons_of_neg (by simp), ← List.filter_append]
    exact List.filter_eq_self.mpr fun f hf => by simpa using others f hf
  have slots : j.registry.slots = before.map Entry.slot ++ e.slot :: after.map Entry.slot := by
    rw [a.registry, split, List.map_append, List.map_cons]
  have found : j.registry.slots.find? (·.id = UInt32.ofNat e.registration) = some e.slot := by
    have none : (before.map Entry.slot).find? (·.id = UInt32.ofNat e.registration) = none :=
      List.find?_eq_none.mpr fun t ht => by simpa using passed t ht
    rw [slots, List.find?_append, none, Option.none_or, List.find?_cons_of_pos (by simp [Entry.slot])]
  have erased : j.registry.slots.eraseP (·.id = UInt32.ofNat e.registration) =
      before.map Entry.slot ++ after.map Entry.slot := by
    rw [slots, List.eraseP_append_right _ (by simpa using passed),
      List.eraseP_cons_of_pos (by simp [Entry.slot])]
  rw [deregister, found, erased, left, List.map_append]
  rfl

/-- The number of a handler that has gone finds none, while nobody else has its word. -/
theorem deregister_of_gone (a : Agrees r j) {k : Nat} (alone : r.Alone k)
    (gone : ∀ e ∈ r.entries, e.registration ≠ k) :
    j.registry.deregister (UInt32.ofNat k) = (none, j.registry) := by
  have none : ∀ t ∈ j.registry.slots, ¬t.id = UInt32.ofNat k := by
    intro t ht same
    rw [a.registry] at ht
    obtain ⟨e, he, rfl⟩ := List.mem_map.mp ht
    exact gone e he (alone e he same)
  rw [deregister, List.eraseP_of_forall_not (by simpa using none),
    List.find?_eq_none.mpr fun t ht => by simpa using none t ht]
  rfl

end Agrees

/-- A handler is known by its number.  There is never more in a registry than it has room for, one that is
    full takes no handler and stays as it is, and the patterns stand in the order of the registrations,
    whatever has been done.  The numbers differ as long as no handler has been there for more than 2 ^ 32
    registrations.  A number that has been returned takes out the handler of its registration, and no
    other, if that one is there, and nothing at all if it is not, unless a handler with the same word is
    there; and there is none if the number is no older than 2 ^ 32 registrations either. -/
theorem handler_known_by_number (capacity : Nat) (ops : List Op) :
    let r := (Roster.ofCapacity capacity).run ops
    let j := (Journal.ofCapacity capacity).run ops
    j.registry.slots.length ≤ capacity ∧
    (∀ h, if j.registry.slots.length = capacity then
        j.registry.register h = .error (.registryFull capacity) ∧ j.step (.register h) = j
      else
        ∃ q, j.registry.register h = .ok (UInt32.ofNat r.count, q) ∧
          q.slots = j.registry.slots ++ [⟨UInt32.ofNat r.count, h⟩]) ∧
    j.registry.patterns = r.entries.map (·.handler.pattern) ∧
    (r.entries.Pairwise fun e f => e.registration < f.registration) ∧
    (r.AllRecent → (j.registry.slots.map Slot.id).Nodup ∧ ∀ k < r.count, r.Recent k → r.Alone k) ∧
    ∀ k id, j.returned[k]? = some id → r.Alone k →
      (∀ e ∈ r.entries, e.registration = k → j.registry.deregister id = (some e.handler,
        { j.registry with slots := (r.entries.filter (·.registration ≠ k)).map Entry.slot })) ∧
      ((∀ e ∈ r.entries, e.registration ≠ k) → j.registry.deregister id = (none, j.registry)) := by
  intro r j
  obtain ⟨a, s⟩ : Agrees r j ∧ r.Sound :=
    (Agrees.ofCapacity capacity).run (Roster.sound_ofCapacity capacity) ops
  have room : r.capacity = capacity := Roster.capacity_run _ ops
  have length : j.registry.slots.length = r.entries.length := by rw [a.registry, List.length_map]
  have size : j.registry.capacity = capacity := by rw [a.registry, room]
  have fits : j.registry.slots.length ≤ capacity := by
    rw [length, ← room]
    exact s.fits
  refine ⟨fits, fun h => ?_, ?_, s.ordered, fun recent => ⟨a.nodup s recent, fun k => s.alone recent⟩,
    fun k id returned alone => ?_⟩
  -- a further registration, without room and with it
  · split
    · have full := register_of_full (q := j.registry) (by omega) h
      refine ⟨by rw [full, size], ?_⟩
      simp only [Journal.step, full]
    · have next : j.registry.nextId = UInt32.ofNat r.count := by rw [a.registry]
      rw [← next]
      exact ⟨_, register_of_room (by omega) h, rfl⟩
  -- the patterns
  · rw [patterns, handlers, a.registry, List.map_map, List.map_map]
    rfl
  -- taking one out by its number
  · obtain ⟨-, rfl⟩ := a.returned_eq returned
    refine ⟨fun e he same => ?_, a.deregister_of_gone alone⟩
    subst same
    exact a.deregister_of_mem s he alone

/-- A handler that has gone leaves its place to another, and its number finds none from then on; the
    number of the other one finds that. -/
theorem third_known_by_number :
    let a := Handler.notification "+A" .httpNoNet
    let b := Handler.notification "+B" .httpNoNet
    let c := Handler.notification "+C" .mqttNoNet
    let j := (Journal.ofCapacity 2).run [.register a, .register b, .deregister 0, .register c]
    (j.registry.slots.map Slot.id).Nodup ∧ j.registry.deregister 0 = (none, j.registry) ∧
      j.registry.deregister 2 = (some c, { j.registry with slots := [⟨1, b⟩] }) := by
  intro a b c j
  obtain ⟨-, -, -, -, recent, known⟩ :=
    handler_known_by_number 2 [.register a, .register b, .deregister 0, .register c]
  obtain ⟨distinct, alone⟩ := recent (by decide)
  refine ⟨distinct, ?_, ?_⟩
  · exact (known 0 0 rfl (alone 0 (by decide) (by decide))).2 (by decide)
  · exact (known 2 2 rfl (alone 2 (by decide) (by decide))).1 ⟨2, c⟩ (.tail _ (.head _)) rfl

/-! ## Beyond 2 ^ 32 registrations -/

/-- One handler after the other comes and goes again, from the second registration on. -/
def rounds (h : Handler) (m : Nat) : List Op :=
  (List.range m).flatMap fun k => [.register h, .deregister (UInt32.ofNat (k + 1))]

/-- A handler that has come before all of these stays, whoever comes and goes behind it.  By
    induction on the rounds; the bound keeps the numbers in them different from that of the first
    handler. -/
theorem Roster.run_rounds (a b : Handler) {m : Nat} (few : m < UInt32.size) :
    Roster.run ⟨2, [⟨0, a⟩], 1⟩ (rounds b m) = ⟨2, [⟨0, a⟩], m + 1⟩ := by
  induction m with
  | zero => rfl
  -- one more round: the handler enters behind the first and is the one that goes
  | succ m ih =>
    have other : ¬(0 : UInt32) = UInt32.ofNat (m + 1) := by
      intro same
      have words := congrArg UInt32.toNat same
      rw [UInt32.toNat_ofNat_of_lt' few, UInt32.toNat_zero] at words
      omega
    have last : rounds b (m + 1) =
        rounds b m ++ [.register b, .deregister (UInt32.ofNat (m + 1))] := by
      rw [rounds, List.range_succ, List.flatMap_append]
      rfl
    rw [last, Roster.run, List.foldl_append]
    have before : List.foldl Roster.step ⟨2, [⟨0, a⟩], 1⟩ (rounds b m) = ⟨2, [⟨0, a⟩], m + 1⟩ :=
      ih (by omega)
    rw [before]
    show (⟨2, List.eraseP _ [⟨0, a⟩, ⟨m + 1, b⟩], m + 2⟩ : Roster) = _
    rw [List.eraseP_cons_of_neg (by simpa [Entry.slot] using other),
      List.eraseP_cons_of_pos (by simp [Entry.slot])]

/-- A handler stays while 2 ^ 32 - 1 others come and go.  The next one is given the number of the first
    again: both are there with number zero, and by the number that the last registration has returned
    the first handler is taken out. -/
theorem numbers_come_round :
    let a := Handler.notification "+A" .httpNoNet
    let b := Handler.notification "+B" .httpNoNet
    let c := Handler.notification "+C" .mqttNoNet
    let j := (Journal.ofCapacity 2).run ([.register a] ++ rounds b (UInt32.size - 1) ++ [.register c])
    j.registry.patterns = ["+A", "+C"] ∧ ¬(j.registry.slots.map Slot.id).Nodup ∧
      j.returned[UInt32.size]? = some 0 ∧
      j.registry.deregister 0 = (some a, { j.registry with slots := [⟨0, c⟩] }) := by
  intro a b c j
  -- the first handler stays all the way round, so the last number handed out is its own again
  have reached : Roster.run (.ofCapacity 2) ([.register a] ++ rounds b (UInt32.size - 1) ++ [.register c]) =
      ⟨2, [⟨0, a⟩, ⟨UInt32.size, c⟩], UInt32.size + 1⟩ := by
    have between : List.foldl Roster.step ⟨2, [⟨0, a⟩], 1⟩ (rounds b (UInt32.size - 1)) =
        ⟨2, [⟨0, a⟩], UInt32.size⟩ := by
      have all := Roster.run_rounds a b (m := UInt32.size - 1) (by decide)
      rwa [Nat.sub_add_cancel (by decide)] at all
    rw [Roster.run, List.foldl_append, List.foldl_append]
    show List.foldl Roster.step (List.foldl Roster.step ⟨2, [⟨0, a⟩], 1⟩ _) [.register c] = _
    rw [between]
    rfl
  obtain ⟨agrees, -⟩ : Agrees _ j ∧ _ :=
    (Agrees.ofCapacity 2).run (Roster.sound_ofCapacity 2) _
  rw [reached] at agrees
  have zero : UInt32.ofNat UInt32.size = 0 := rfl
  have slots : j.registry.slots = [⟨0, a⟩, ⟨0, c⟩] := by
    rw [agrees.registry]
    show [(⟨0, a⟩ : Slot), ⟨UInt32.ofNat UInt32.size, c⟩] = _
    rw [zero]
  refine ⟨?_, ?_, ?_, ?_⟩
  · rw [patterns, handlers, slots]
    rfl
  · rw [slots]
    decide
  · rw [agrees.returned, List.getElem?_map, List.getElem?_range (Nat.lt_succ_self _), ← zero]
    rfl
  · rw [deregister, slots]
    rfl

end AtModem.Registry
