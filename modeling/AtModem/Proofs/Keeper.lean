/-
  A certificate store with a record of its commands, which refuses the uploads that it is told to refuse.

  Between two commands all that matters of it is an inventory: what is in the slots, what it has been
  told, and which of the uploads to come it refuses.  Setting a parameter adds a line to the record.
  Overwriting a slot leaves the data in it if the upload is accepted, and nothing if it is refused, and
  either way nothing is left to read (`certOverwrite_inventory`).

  Such steps are taken one after another until one of them is refused (`Inventory.after`).  Wherever that
  ends, only slots that were to be overwritten have changed; if it does not end early, all of them hold
  what was put into them.
-/
import AtModem.Proofs.Binding

namespace AtModem

open Engine CertStore

/-- A store, what it has been told, and which of the uploads to come it refuses.  The record is
    there so that it can be said what a run of the tool has sent, and in which order. -/
structure Keeper where
  store : CertStore
  /-- The lines that it was given, oldest first. -/
  told : List String
  /-- Of the uploads to come, which are refused; none of those behind them is. -/
  refusals : List Bool

namespace Keeper

/-- The store answers for it.  An upload that begins is refused or not as it has been told. -/
def answer (k : Keeper) (line : Bytes) : Keeper × Reply :=
  let (store, reply) := k.store.answer line
  let told := k.told ++ [Utf8.decode line]
  if store.receiving.isSome then
    (⟨{ store with refusing := k.refusals.headD false }, told, k.refusals.tail⟩, reply)
  else (⟨store, told, k.refusals⟩, reply)

instance : Device Keeper where
  answer := answer
  takesRaw k := k.store.receiving.isSome
  take k b := ({ k with store := (k.store.take b).1 }, (k.store.take b).2)

/-- The store inside does its part of the answering without any notice of the record. -/
theorem within (told : List String) (refusals : List Bool) :
    Within fun store => (⟨store, told, refusals⟩ : Keeper) := ⟨fun _ => rfl, fun _ _ => rfl⟩

end Keeper

/-! ## Between two commands -/

/-- What matters between two commands: the slots, the record and the refusals to come.  An upload in
    progress is no part of it, since no command leaves the device in the middle of one. -/
structure Inventory where
  slots : Slots
  told : List String
  refusals : List Bool

namespace Inventory

/-- The device that has it and awaits a command. -/
def keeper (i : Inventory) : Keeper := ⟨.ofSlots i.slots, i.told, i.refusals⟩

/-- Whether the next upload is refused; when no more refusals are told, uploads are accepted. -/
def refuses (i : Inventory) : Bool := i.refusals.headD false

/-- The line goes behind the record. -/
def tell (i : Inventory) (line : String) : Inventory := { i with told := i.told ++ [line] }

/-- The names of the slots that are taken can be listed: each between quotes, so that none is
    mistaken for another. -/
def Listable (i : Inventory) : Prop := ∀ name ∈ i.slots, quotable name = true

variable {i : Inventory} {slot line : String}

/-- What the store answers to a line, the keeper answers, and it puts the line on record. -/
theorem answer_of_store {store : CertStore} {reply : Reply}
    (h : (CertStore.ofSlots i.slots).answer (Utf8.encode line) = (store, reply))
    (idle : store.receiving = none) :
    Device.answer i.keeper (Utf8.encode line) = (⟨store, i.told ++ [line], i.refusals⟩, reply) := by
  show Keeper.answer i.keeper _ = _
  unfold Keeper.answer keeper
  rw [h, Utf8.decode_encode]
  show (if store.receiving.isSome = true then _ else _) = _
  rw [idle]
  rfl

theorem answer_list (i : Inventory) :
    Device.answer i.keeper (Utf8.encode "AT+CCERTLIST") = ((i.tell "AT+CCERTLIST").keeper,
      .now (crlf ++ CertStore.lines (CertStore.ofSlots i.slots).names ++ (crlf ++ okLine))) := by
  rw [answer_of_store (CertStore.answer_list _) rfl, listing_eq]
  rfl

/-- Told to remove a slot that is taken, it empties that slot and no other. -/
theorem answer_remove (quote : '"' ∉ slot.toList) (taken : slot ∈ i.slots) :
    Device.answer i.keeper (Utf8.encode s!"AT+CCERTDELE={inQuotes slot}") =
      (({ i with slots := i.slots.erase slot }.tell s!"AT+CCERTDELE={inQuotes slot}").keeper,
        .now okAnswer) :=
  answer_of_store (CertStore.answer_remove quote taken) rfl

/-- The device in the middle of an upload, with nothing of the data received yet. -/
def expecting (i : Inventory) (slot : String) (size : Nat) (some : 0 < size) : Keeper :=
  ⟨{ CertStore.ofSlots i.slots with refusing := i.refuses }.expecting slot size some,
    i.told ++ [s!"AT+CCERTDOWN={inQuotes slot},{size}"], i.refusals.tail⟩

/-- Told of an upload into a free slot, it prompts and expects as many bytes as were announced. -/
theorem answer_announce (quote : '"' ∉ slot.toList) (comma : ',' ∉ slot.toList) (free : slot ∉ i.slots)
    {size : Nat} (some : 0 < size) (h : size < 2 ^ 64) :
    Device.answer i.keeper (Utf8.encode s!"AT+CCERTDOWN={inQuotes slot},{size}") =
      (i.expecting slot size some, .now (Utf8.encode "\r\n>")) := by
  have answered := CertStore.answer_announce (s := .ofSlots i.slots) quote comma free some h
  show Keeper.answer i.keeper _ = _
  unfold Keeper.answer keeper
  rw [answered, Utf8.decode_encode]
  rfl

/-- A line that sets a parameter is none of the store's: it is put on record and acknowledged.  It
    begins like no command of the store, whatever its value is. -/
theorem answer_setting (key : String) (ctx : ContextIndex) (value : String) :
    Device.answer i.keeper (Utf8.encode (setting key ctx value)) =
      ((i.tell (setting key ctx value)).keeper, .now okAnswer) := by
  refine answer_of_store ?_ rfl
  let rest := key ++ ("\"," ++ (toString ctx.toNat ++ ",")) ++ value
  have text : setting key ctx value = "AT+CSSLCFG=\"" ++ rest := by
    rw [setting_eq, settingHead_eq, String.append_assoc]
  -- the line is none of those that the store knows
  have unlisted : "AT+CSSLCFG=\"" ++ rest ≠ "AT+CCERTLIST" :=
    append_ne_of_isPrefixOf? (by decide) rest
  have kept : "AT+CCERTDELE=".toList.isPrefixOf? ("AT+CSSLCFG=\"" ++ rest).toList = none := by
    rw [String.toList_append]
    rfl
  have moved : "AT+CCERTDOWN=".toList.isPrefixOf? ("AT+CSSLCFG=\"" ++ rest).toList = none := by
    rw [String.toList_append]
    rfl
  have other : Request.ofLine (setting key ctx value) = .other := by
    rw [text]
    unfold Request.ofLine
    rw [if_neg unlisted, kept, moved]
  unfold CertStore.answer
  rw [Utf8.decode_encode, other]
  rfl

end Inventory

/-! ## The two kinds of steps -/

section

variable {n : Nat} {i : Inventory} {e : Engine Keeper} {slot : String}

/-- Setting a parameter succeeds and puts its line on record, whatever the parameter is. -/
theorem configure_inventory {key value : String} (room : 7 ≤ n) (hk : OneLine key) (hv : OneLine value)
    (ctx : ContextIndex) (h : AtRest n i.keeper e) :
    ∃ f, Ssl.configure key ctx value e = .ok () f ∧
      AtRest n (i.tell (setting key ctx value)).keeper f := by
  have complete : Complete (okAnswer, .success) := by decide
  obtain ⟨f, ran, rest⟩ := h.command room complete rfl (oneLine_setting hk hv)
    (i.answer_setting key ctx value) e.defaultTimeout
  exact ⟨f, ClientM.ofEngine_of_ok ran, rest⟩

namespace Inventory

/-- What overwriting a slot leaves: the old data go first, and the new ones come unless the upload
    is refused, so a refusal leaves the slot empty. -/
def put (i : Inventory) (slot : String) (data : Bytes) : Inventory where
  slots := if i.refuses then i.slots.erase slot else i.slots.insert slot data
  told := i.told ++ "AT+CCERTLIST" ::
    ((if slot ∈ i.slots then [s!"AT+CCERTDELE={inQuotes slot}"] else []) ++
      [s!"AT+CCERTDOWN={inQuotes slot},{data.length}"])
  refusals := i.refusals.tail

end Inventory

/-- An upload into a slot that is free puts the data there, or is refused and leaves it free; either
    way nothing is left to read.  The refusal that was told is used up in either case. -/
theorem certDownload_inventory (u : Ssl.Usable n slot) (free : slot ∉ i.slots) {data : Bytes}
    (some : data ≠ []) (sized : data.length < 2 ^ 64) (h : AtRest n i.keeper e) :
    ∃ f, AtRest n (⟨if i.refuses then i.slots else i.slots.insert slot data,
        i.told ++ [s!"AT+CCERTDOWN={inQuotes slot},{data.length}"],
        i.refusals.tail⟩ : Inventory).keeper f ∧
      Ssl.certDownload data slot e =
        if i.refuses then .error (.link .deviceReportedFailure) f else .ok () f := by
  let s : CertStore := { CertStore.ofSlots i.slots with refusing := i.refuses }
  have answered := i.answer_announce u.unquoted u.comma free (List.length_pos_of_ne_nil some) sized
  obtain ⟨f, rest, ran⟩ := Ssl.certDownload_of_prompt (s := s) u rfl answered
    (fun _ hl => absorbAll_of_expecting (Keeper.within _ _) hl) h
  refine ⟨f, ?_, ran⟩
  have kept : (s.finish slot data).1 =
      CertStore.ofSlots (if i.refuses then i.slots else i.slots.insert slot data) := by
    have told : s.refusing = i.refuses := rfl
    unfold CertStore.finish
    rw [told]
    cases i.refuses with
    | true => rfl
    | false => rfl
  rw [kept] at rest
  exact rest

/-- Whatever the slot holds, its data takes the place of that, unless its upload is refused.  The
    question for the listing and the removal go before it, and both are on record. -/
theorem certOverwrite_inventory (u : Ssl.Usable n slot) (listable : i.Listable) {data : Bytes}
    (some : data ≠ []) (sized : data.length < 2 ^ 64) (h : AtRest n i.keeper e) :
    ∃ f, AtRest n (i.put slot data).keeper f ∧
      Ssl.certOverwrite data slot e =
        if i.refuses then .error (.link .deviceReportedFailure) f else .ok () f := by
  have names : ∀ name ∈ (CertStore.ofSlots i.slots).names, quotable name = true := by
    intro name hn
    exact listable name ((Ssl.mem_names _ name).mp hn)
  obtain ⟨f, looked, h⟩ := Ssl.certExists_of_listing u names rfl i.answer_list h
  rw [decide_eq_decide.mpr (Ssl.mem_names (.ofSlots i.slots) slot)] at looked
  -- the slot is taken: it is emptied before the upload, so that this finds it free
  by_cases taken : slot ∈ i.slots
  · rw [decide_eq_true (show slot ∈ (CertStore.ofSlots i.slots).slots from taken)] at looked
    obtain ⟨g, removed, h⟩ := Ssl.certDelete_of_answer u rfl
      (Inventory.answer_remove (i := i.tell "AT+CCERTLIST") u.unquoted taken) h
    have free : slot ∉ i.slots.erase slot := Finmap.notMem_erase_self
    obtain ⟨f, h, ran⟩ := certDownload_inventory
      (i := { i.tell "AT+CCERTLIST" with slots := i.slots.erase slot }.tell _) u free some sized h
    refine ⟨f, ?_, (bind_of_ok looked).trans ((bind_of_ok removed).trans ran)⟩
    unfold Inventory.put
    rw [if_pos taken, ← Ssl.insert_erase i.slots slot data]
    simpa [Inventory.tell, Inventory.refuses] using h
  -- the slot is free already
  · rw [decide_eq_false (show slot ∉ (CertStore.ofSlots i.slots).slots from taken)] at looked
    obtain ⟨f, h, ran⟩ := certDownload_inventory (i := i.tell "AT+CCERTLIST") u taken some sized h
    refine ⟨f, ?_, (bind_of_ok looked).trans ran⟩
    unfold Inventory.put
    rw [if_neg taken, Ssl.erase_of_not_mem taken]
    simpa [Inventory.tell, Inventory.refuses] using h

end

/-! ## Steps, one after another -/

/-- What is done to a device: a parameter is set, or a slot is overwritten. -/
inductive Step where
  | set (key : String) (ctx : ContextIndex) (value : String)
  | put (slot : String) (data : Bytes)

namespace Step

/-- What the step can be done with, where a window holds so many bytes: texts of one line, slots
    that the window can find, and data. -/
def Fine (n : Nat) : Step → Prop
  | set key _ value => OneLine key ∧ OneLine value
  | put slot data => Ssl.Usable n slot ∧ data ≠ [] ∧ data.length < 2 ^ 64

/-- The slot that the step overwrites, if it is such a step. -/
def slot? : Step → Option String
  | set _ _ _ => none
  | put slot _ => some slot

/-- Whether the device agrees, and what it has then. -/
def taken (i : Inventory) : Step → Bool × Inventory
  | set key ctx value => (true, i.tell (setting key ctx value))
  | put slot data => (!i.refuses, i.put slot data)

end Step

namespace Inventory

/-- The steps are taken as far as the device agrees to them: whether to all of them, and what it has
    then.  It is the reference for a run of the tool: it depends on the steps and on the device, and
    no engine occurs in it. -/
def after (i : Inventory) : List Step → Bool × Inventory
  | [] => (true, i)
  | s :: steps => if (s.taken i).1 then (s.taken i).2.after steps else (false, (s.taken i).2)

theorem after_one (i : Inventory) (s : Step) : i.after [s] = s.taken i := by
  unfold after after
  obtain ⟨agreed, j⟩ := s.taken i
  cases agreed with
  | true => rfl
  | false => rfl

/-- Steps behind others are taken only if those all were. -/
theorem after_append (i : Inventory) (xs ys : List Step) :
    i.after (xs ++ ys) =
      if (i.after xs).1 then (i.after xs).2.after ys else (false, (i.after xs).2) := by
  induction xs generalizing i with
  | nil => rfl
  | cons s xs ih =>
    rw [List.cons_append, after, after]
    cases agreed : (s.taken i).1 with
    | true => exact ih _
    | false => rfl

variable {n : Nat} {i : Inventory} {steps : List Step}

/-- Overwriting a slot changes no other, refused or not. -/
theorem lookup_put_of_ne {slot name : String} (other : name ≠ slot) (data : Bytes) :
    (i.put slot data).slots.lookup name = i.slots.lookup name := by
  unfold put
  split
  · exact Finmap.lookup_erase_ne other
  · exact Finmap.lookup_insert_of_ne _ other

/-- A step brings in no name that could not be listed, since its slot's can. -/
theorem Listable.taken (h : i.Listable) {s : Step} (fine : s.Fine n) : (s.taken i).2.Listable := by
  cases s with
  | set key ctx value => exact h
  | put slot data =>
    intro name hn
    by_cases same : name = slot
    · rw [same]
      exact fine.1.quotable
    · apply h name
      have found : ((i.put slot data).slots.lookup name).isSome := Finmap.lookup_isSome.mpr hn
      rw [lookup_put_of_ne same] at found
      exact Finmap.lookup_isSome.mp found

theorem Listable.after (h : i.Listable) (fine : ∀ s ∈ steps, s.Fine n) :
    (i.after steps).2.Listable := by
  induction steps generalizing i with
  | nil => exact h
  | cons s steps ih =>
    obtain ⟨first, others⟩ := List.forall_mem_cons.mp fine
    rw [Inventory.after]
    split
    · exact ih (h.taken first) others
    · exact h.taken first

/-- A slot that none of the steps overwrites is as it was, however far they go.  By induction on the
    steps; a refused upload empties its own slot only. -/
theorem lookup_after_of_not_mem {name : String} (other : name ∉ steps.filterMap Step.slot?) :
    (i.after steps).2.slots.lookup name = i.slots.lookup name := by
  induction steps generalizing i with
  | nil => rfl
  | cons s steps ih =>
    have first : (s.taken i).2.slots.lookup name = i.slots.lookup name := by
      cases s with
      | set key ctx value => rfl
      | put slot data =>
        refine lookup_put_of_ne ?_ data
        rintro rfl
        exact other (by simp [Step.slot?])
    rw [after]
    split
    · rw [ih, first]
      intro later
      exact other (((List.sublist_cons_self s steps).filterMap _).subset later)
    · exact first

/-- If none of the steps is refused, a slot that is overwritten once holds its data then.  That it
    is overwritten once is needed, since a later step would put other data there. -/
theorem lookup_after_of_mem {slot : String} {data : Bytes}
    (distinct : (steps.filterMap Step.slot?).Nodup) (mem : .put slot data ∈ steps)
    (all : (i.after steps).1 = true) : (i.after steps).2.slots.lookup slot = some data := by
  induction steps generalizing i with
  | nil => cases mem
  | cons s steps ih =>
    rw [after] at all ⊢
    have agreed : (s.taken i).1 = true := by
      by_contra refused
      rw [if_neg refused] at all
      cases all
    rw [if_pos agreed] at all ⊢
    rcases List.mem_cons.mp mem with rfl | later
    · -- nothing behind it overwrites the slot again
      have once : slot ∉ steps.filterMap Step.slot? := by
        rw [List.filterMap_cons_some (f := Step.slot?) rfl] at distinct
        exact (List.nodup_cons.mp distinct).1
      have kept : i.refuses = false := by simpa [Step.taken] using agreed
      rw [lookup_after_of_not_mem once]
      show (i.put slot data).slots.lookup slot = _
      unfold put
      rw [kept]
      exact Finmap.lookup_insert _
    · exact ih (distinct.sublist ((List.sublist_cons_self s steps).filterMap _)) later all

/-- If no upload is refused, all of the steps are taken.  Settings are always acknowledged, so only
    the uploads matter. -/
theorem after_of_accepted (accepted : ∀ r ∈ i.refusals, r = false) : (i.after steps).1 = true := by
  induction steps generalizing i with
  | nil => rfl
  | cons s steps ih =>
    have none : i.refuses = false := by
      unfold refuses
      cases e : i.refusals with
      | nil => rfl
      | cons r rs => exact accepted r (by simp [e])
    have first : (s.taken i).1 = true ∧ ∀ r ∈ (s.taken i).2.refusals, r = false := by
      cases s with
      | set key ctx value => exact ⟨rfl, accepted⟩
      | put slot data =>
        refine ⟨by simp [Step.taken, none], fun r hr => accepted r (List.mem_of_mem_tail hr)⟩
    rw [after, if_pos first.1]
    exact ih first.2

/-- A parameter that is set at the end is the last that the device was told. -/
theorem told_after_concat {key value : String} {ctx : ContextIndex}
    (all : (i.after (steps ++ [.set key ctx value])).1 = true) :
    ∃ before, (i.after (steps ++ [.set key ctx value])).2.told = before ++ [setting key ctx value] := by
  rw [after_append] at all ⊢
  split at all
  · rename_i agreed
    rw [if_pos agreed]
    exact ⟨_, rfl⟩
  · cases all

end Inventory

end AtModem
