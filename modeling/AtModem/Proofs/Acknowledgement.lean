/-
  What a context remembers is what the device has acknowledged.

  A context remembers the authority's slot and the client's slots, and takes its mode from them.  The
  reference is the record of the device: the last line in it that has set something and was acknowledged.
  Whatever a call comes to, the context changes as the record does (`Comes.tracks`), so by induction on the
  calls it never remembers anything else, and after a call that has succeeded the last mode that was
  acknowledged is the one that fits (`ContextRun.Faithful.after`).
-/
import AtModem.Proofs.Binding

namespace AtModem

open Engine ClientM

/-! ## What the record says -/

/-- A text without its first and its last character, which is what a device keeps of a name that
    came to it in quotes. -/
def unquoted (text : String) : String := String.ofList text.toList.tail.dropLast

/-- The last of what can be found in a list.  A setting holds until the same parameter is set again,
    so the last line that has set it is the one that counts. -/
def lastOf {α β : Type} (find : α → Option β) (xs : List α) : Option β := xs.reverse.findSome? find

namespace Told

/-- What a line has set a parameter of a context to, if the device has acknowledged it.  The value
    is what stands behind the head of the setting; nothing else is assumed of how a device reads a
    line. -/
def value? (key : String) (ctx : ContextIndex) (t : Told) : Option String :=
  if t.verdict = .ok then
    ((settingHead key ctx).toList.isPrefixOf? t.line.toList).map String.ofList
  else none

/-- The slot that a line has bound, if the device has acknowledged it.  A line that was refused or
    not answered has bound nothing. -/
def slot? (as : SlotUse) (ctx : ContextIndex) (t : Told) : Option String :=
  (t.value? as.parameter ctx).map unquoted

end Told

section

variable {α β : Type} {find : α → Option β}

@[simp] theorem lastOf_nil : lastOf find [] = none := rfl

/-- A later part of a record goes before an earlier one: only if nothing was set in it does the
    earlier one count.  This is what lets a record be followed call by call. -/
theorem lastOf_append (xs ys : List α) :
    lastOf find (xs ++ ys) = (lastOf find ys).or (lastOf find xs) := by
  rw [lastOf, List.reverse_append, List.findSome?_append]
  rfl

/-- The first entry counts only if none behind it does. -/
theorem lastOf_cons (x : α) (xs : List α) :
    lastOf find (x :: xs) = (lastOf find xs).or (find x) := by
  have one : lastOf find [x] = find x := by
    simp [lastOf]
  rw [← List.singleton_append, lastOf_append, one]

/-- Where no entry sets a parameter, none was set. -/
theorem lastOf_eq_none {xs : List α} (h : ∀ x ∈ xs, find x = none) : lastOf find xs = none := by
  rw [lastOf, List.findSome?_eq_none_iff]
  simpa using h

end

/-! ## Reading the lines -/

section

variable {key key' : String} {ctx : ContextIndex} {value : String}

/-- The key of a line that sets a parameter is what stands before the second quote, so two keys can
    be told apart by the lines alone. -/
theorem takeWhile_setting (h : '"' ∉ key.toList) (rest : List Char) :
    (((settingHead key ctx).toList ++ rest).drop 12).takeWhile (· ≠ '"') = key.toList := by
  have text : (settingHead key ctx).toList ++ rest = "AT+CSSLCFG=\"".toList ++
      (key.toList ++ '"' :: (',' :: ((toString ctx.toNat).toList ++ ',' :: rest))) := by
    simp [settingHead_eq]
  have inside : ∀ c ∈ key.toList, decide (c ≠ '"') = true := by
    intro c hc
    rw [decide_eq_true_eq]
    rintro rfl
    exact h hc
  rw [text]
  show (key.toList ++ _).takeWhile (· ≠ '"') = _
  rw [List.takeWhile_append_of_pos inside]
  simp

/-- A line that sets one parameter does not begin like a line that sets another, in whichever
    context. -/
theorem isPrefixOf?_setting (hk : '"' ∉ key.toList) (hk' : '"' ∉ key'.toList) (ne : key ≠ key') :
    (settingHead key ctx).toList.isPrefixOf? (setting key' ctx value).toList = none := by
  cases e : (settingHead key ctx).toList.isPrefixOf? (setting key' ctx value).toList with
  | none => rfl
  | some rest =>
    rw [List.isPrefixOf?_eq_some_iff_append_eq, setting_eq, String.toList_append] at e
    have same := congrArg (fun cs => (cs.drop 12).takeWhile (· ≠ '"')) e
    simp only [takeWhile_setting hk, takeWhile_setting hk'] at same
    exact absurd (String.toList_inj.mp same) ne

/-- What a line that sets a parameter says of some parameter: its value, if it is the same one and
    the device has acknowledged it; otherwise nothing. -/
theorem value?_setting (hk : '"' ∉ key.toList) (hk' : '"' ∉ key'.toList) (v : Verdict) :
    Told.value? key ctx ⟨setting key' ctx value, v⟩ =
      if v = .ok ∧ key = key' then some value else none := by
  unfold Told.value?
  by_cases same : key = key'
  · subst same
    simp only [and_true]
    rw [setting_eq, CertStore.isPrefixOf?_toList_append, Option.map_some, String.ofList_toList]
  · simp only [same, and_false, ↓reduceIte]
    rw [isPrefixOf?_setting hk hk' same]
    simp

theorem unquoted_inQuotes (slot : String) : unquoted (inQuotes slot) = slot := by
  rw [unquoted, CertStore.toList_inQuotes, List.tail_cons, List.dropLast_concat, String.ofList_toList]

/-- A command of the store sets nothing: it does not begin like a line that does, so a record may
    have any number of them in between. -/
theorem value?_of_store {t : Told} (h : OfStore t.line) : t.value? key ctx = none := by
  obtain ⟨more, begins⟩ := h
  have none : (settingHead key ctx).toList.isPrefixOf? t.line.toList = none := by
    cases e : (settingHead key ctx).toList.isPrefixOf? t.line.toList with
    | none => rfl
    | some rest =>
      rw [List.isPrefixOf?_eq_some_iff_append_eq, ← begins, settingHead_eq, String.toList_append] at e
      have five : "AT+CS".toList = "AT+CC".toList := congrArg (List.take 5) e
      exact absurd five (by decide)
  unfold Told.value?
  rw [none]
  simp

end

/-! ## What one call keeps -/

/-- Whether the device has acknowledged, in this part of its record, that a slot is bound.  The part
    is looked at as a whole, so the order in which the slots were bound does not matter. -/
def acknowledges (ctx : ContextIndex) (part : List Told) (as : SlotUse) (slot : String) : Bool :=
  part.any fun t => decide (t.slot? as ctx = some slot)

/-- The client's slots that a call has bound: those that it was to bind, if the device has acknowledged
    all three of them. -/
def boundBy (ctx : ContextIndex) (call : ContextCall) (part : List Told) : Option ClientSlots :=
  call.client?.filter fun slots =>
    acknowledges ctx part .certificate slots.cert && acknowledges ctx part .key slots.key &&
      acknowledges ctx part .password slots.password

/-- A call has left in the context what the device has acknowledged meanwhile, and what was there
    before where there was nothing.  What the calls before have left enters only through `c`, so
    consecutive calls compose, and the invariant of a run follows by induction on its calls. -/
structure Tracks (call : ContextCall) (c c' : SecureContext) (part : List Told) (ok : Bool) : Prop where
  index : c'.index = c.index
  ca : c'.ca = (lastOf (Told.slot? .authority c.index) part).or c.ca
  client : c'.client = (boundBy c.index call part).or c.client
  mode : ok = true →
    lastOf (Told.value? "authmode" c.index) part = some (toString c'.authMode.code)

section

variable {c c' : SecureContext} {part : List Told} {ok : Bool}

/-- The names of the parameters are plain words, so that the quotes around them are where they seem
    to be. -/
theorem quote_not_mem_parameter (as : SlotUse) : '"' ∉ as.parameter.toList :=
  unquoted_of_quotable (QuotingMethod.quotable_parameter as)

/-- Binding a slot is seen as just that: it counts for its own use, if it was acknowledged, and for
    no other. -/
theorem slot?_bindingTold (as as' : SlotUse) (slot : String) (v : Verdict) :
    (bindingTold as' c slot v).slot? as c.index =
      if v = .ok ∧ as.parameter = as'.parameter then some slot else none := by
  unfold Told.slot? bindingTold
  rw [value?_setting (quote_not_mem_parameter as) (quote_not_mem_parameter as')]
  split
  · rw [Option.map_some, unquoted_inQuotes]
  · rfl

theorem slot?_modeTold {ctx : ContextIndex} (same : c.index = ctx) (as : SlotUse) (v : Verdict) :
    (modeTold c v).slot? as ctx = none := by
  subst same
  have other : as.parameter ≠ "authmode" := by
    cases as <;> decide
  unfold Told.slot? modeTold
  rw [value?_setting (quote_not_mem_parameter as) (by decide), if_neg fun h => other h.2]
  rfl

/-- The mode that was sent is the one that fits what the context remembers, and it counts if it was
    acknowledged. -/
theorem mode?_modeTold {ctx : ContextIndex} (same : c.index = ctx) (v : Verdict) :
    (modeTold c v).value? "authmode" ctx =
      if v = .ok then some (toString c.authMode.code) else none := by
  subst same
  unfold modeTold
  rw [value?_setting (by decide) (by decide)]
  simp only [and_true]

/-- Nothing in this part of a record has to do with the client's slots, so what was known of them
    before is still the case.  So the lines of the store and those that bind the authority can be
    passed over in the client's half of the invariant. -/
def NoClient (ctx : ContextIndex) (part : List Told) : Prop :=
  ∀ as, as.parameter ≠ SlotUse.authority.parameter → ∀ t ∈ part, t.slot? as ctx = none

/-- A part that binds nothing for the client can be left out when the client's slots are looked
    up. -/
theorem NoClient.acknowledges_append {ctx : ContextIndex} {as : SlotUse} (h : NoClient ctx part)
    (clients : as.parameter ≠ SlotUse.authority.parameter) (later : List Told) (slot : String) :
    acknowledges ctx (part ++ later) as slot = acknowledges ctx later as slot := by
  have none : acknowledges ctx part as slot = false := by
    rw [acknowledges, List.any_eq_false]
    intro t ht
    simp [h as clients t ht]
  unfold acknowledges at none ⊢
  rw [List.any_append, none, Bool.false_or]

/-- So can it when it is asked which client was bound, as long as the calls that are asked about are
    of the same client. -/
theorem NoClient.boundBy_append {ctx : ContextIndex} {first second : ContextCall} (h : NoClient ctx part)
    (same : first.client? = second.client?) (later : List Told) :
    boundBy ctx first (part ++ later) = boundBy ctx second later := by
  unfold boundBy
  rw [same]
  simp only [h.acknowledges_append (show SlotUse.certificate.parameter ≠ _ by decide),
    h.acknowledges_append (show SlotUse.key.parameter ≠ _ by decide),
    h.acknowledges_append (show SlotUse.password.parameter ≠ _ by decide)]

/-- Who has bound nothing for the client has bound no client, since that takes all three slots. -/
theorem NoClient.boundBy_eq_none {ctx : ContextIndex} (h : NoClient ctx part) (call : ContextCall) :
    boundBy ctx call part = none := by
  have empty : boundBy ctx call [] = none := by
    unfold boundBy acknowledges
    cases call.client? <;> rfl
  rw [← List.append_nil part, h.boundBy_append rfl, empty]

/-- What comes later counts, and what has come before where there is nothing later.  The first part
    must have nothing to do with the client, since a client is bound by one call as a whole. -/
theorem Tracks.trans {first second call : ContextCall} {c₁ : SecureContext} {later : List Told}
    {done : Bool} (h : Tracks first c c₁ part done) (silent : NoClient c.index part)
    (k : Tracks second c₁ c' later ok) (same : call.client? = second.client?) :
    Tracks call c c' (part ++ later) ok := by
  obtain ⟨index, ca, client, mode⟩ := k
  rw [h.index] at index ca client mode
  constructor
  · exact index
  · rw [ca, h.ca, lastOf_append, Option.or_assoc]
  · rw [client, h.client, silent.boundBy_eq_none, silent.boundBy_append same]
    rfl
  · intro agreed
    rw [lastOf_append, mode agreed]
    rfl

/-- A command of the store binds nothing, whatever was answered to it. -/
theorem slot?_of_store {store : List Told} (stored : ∀ t ∈ store, OfStore t.line) (as : SlotUse)
    (ctx : ContextIndex) : ∀ t ∈ store, t.slot? as ctx = none := by
  intro t ht
  rw [Told.slot?, value?_of_store (stored t ht)]
  rfl

/-- Commands of the store are no matter of the client's slots. -/
theorem noClient_of_store {store : List Told} (stored : ∀ t ∈ store, OfStore t.line)
    (ctx : ContextIndex) : NoClient ctx store := fun as _ => slot?_of_store stored as ctx

/-- A call that ends among the commands of the store has changed neither the context nor what the
    device holds for it. -/
theorem tracks_of_store {store : List Told} (stored : ∀ t ∈ store, OfStore t.line) (call : ContextCall) :
    Tracks call c c store false := by
  constructor
  · rfl
  · rw [lastOf_eq_none (slot?_of_store stored .authority c.index)]
    rfl
  · rw [(noClient_of_store stored c.index).boundBy_eq_none]
    rfl
  · intro h
    cases h

/-- Binding the authority's certificate is no matter of the client's slots: the lines name another
    parameter, or the mode. -/
theorem CaBound.noClient {slot : String} (h : CaBound c slot c' part ok) : NoClient c.index part := by
  have binding : ∀ as, as.parameter ≠ SlotUse.authority.parameter → ∀ v,
      (bindingTold .authority c slot v).slot? as c.index = none := by
    intro as clients v
    rw [slot?_bindingTold, if_neg fun k => clients k.2]
  intro as clients
  cases h with
  | refused => exact List.forall_mem_singleton.mpr (binding as clients _)
  | bound v =>
    exact List.forall_mem_cons.mpr ⟨binding as clients _,
      List.forall_mem_singleton.mpr (slot?_modeTold rfl as v)⟩

/-- What the device has acknowledged, if it has acknowledged the mode that was sent last. -/
theorem lastOf_mode (before : List Told) {ctx : ContextIndex} {v : Verdict} (same : c.index = ctx)
    (agreed : decide (v = .ok) = true) :
    lastOf (Told.value? "authmode" ctx) (before ++ [modeTold c v]) =
      some (toString c.authMode.code) := by
  have one : lastOf (Told.value? "authmode" ctx) [modeTold c v] = some (toString c.authMode.code) := by
    rw [lastOf_cons, mode?_modeTold same, if_pos (of_decide_eq_true agreed)]
    rfl
  rw [lastOf_append, one]
  rfl

/-- Whatever the binding of the authority comes to, the context remembers the slot if the device has
    acknowledged it, and not otherwise. -/
theorem CaBound.tracks {slot : String} {call : ContextCall} (h : CaBound c slot c' part ok) :
    Tracks call c c' part ok := by
  have client := h.noClient.boundBy_eq_none call
  cases h with
  | refused h =>
    constructor
    -- the binding was refused, so nothing is remembered and nothing was acknowledged
    · rfl
    · simp [lastOf_cons, slot?_bindingTold, h]
    · rw [client]
      rfl
    · intro k
      cases k
  | bound v =>
    -- the binding was acknowledged, whatever the device said to the mode
    constructor
    · rfl
    · simp [lastOf_cons, slot?_bindingTold, slot?_modeTold]
    · rw [client]
      rfl
    · exact lastOf_mode [_] rfl

/-- Whatever the binding of a client comes to, the context remembers the client only once all three
    slots were acknowledged; a part of them is not remembered at all. -/
theorem ClientBound.tracks {slots : ClientSlots} {call : ContextCall} (h : ClientBound c slots c' part ok)
    (its : call.client? = some slots) : Tracks call c c' part ok := by
  cases h with
  | noCert h =>
    -- whichever of the three bindings is refused, none of the slots is remembered
    constructor
    · rfl
    · simp [lastOf_cons, slot?_bindingTold, h]
    · simp [boundBy, its, acknowledges, slot?_bindingTold, h]
    · intro k
      cases k
  | noKey h =>
    constructor
    · rfl
    · simp [lastOf_cons, slot?_bindingTold, SlotUse.parameter]
    · simp [boundBy, its, acknowledges, slot?_bindingTold, SlotUse.parameter, h]
    · intro k
      cases k
  | noPassword h =>
    constructor
    · rfl
    · simp [lastOf_cons, slot?_bindingTold, SlotUse.parameter]
    · simp [boundBy, its, acknowledges, slot?_bindingTold, SlotUse.parameter, h]
    · intro k
      cases k
  | bound v =>
    -- only with all three acknowledged the context remembers a client
    constructor
    · rfl
    · simp [lastOf_cons, slot?_bindingTold, slot?_modeTold, SlotUse.parameter]
    · simp [boundBy, its, acknowledges, Option.filter_some, slot?_bindingTold, SlotUse.parameter]
    · exact lastOf_mode [_, _, _] rfl

/-- Each call leaves in the context what the device has acknowledged.  This is the step; a run of
    calls follows from it by induction (`ContextRun.Faithful.after`). -/
theorem Comes.tracks {call : ContextCall} (h : Comes c call c' part ok) : Tracks call c c' part ok := by
  cases h with
  | setCa h => exact h.tracks
  | caNotStored stored => exact tracks_of_store stored _
  | @writeCa cert slot _ store later _ stored h =>
    have bound : Tracks (.setCa slot) c c' later ok := h.tracks
    exact (tracks_of_store stored (.setCa slot)).trans (noClient_of_store stored c.index) bound rfl
  | setClient h => exact h.tracks rfl
  | clientNotStored stored => exact tracks_of_store stored _
  | @writeClient _ _ _ slots _ store later _ stored h =>
    have bound : Tracks (.setClient slots) c c' later ok := h.tracks rfl
    exact (tracks_of_store stored (.setClient slots)).trans (noClient_of_store stored c.index) bound rfl
  | caRefused h => exact h.tracks
  | @setCerts ca slots c₁ _ part later _ h k =>
    have authority : Tracks (.setCa ca) c c₁ part true := h.tracks
    have client : Tracks (.setClient slots) c₁ c' later ok := k.tracks rfl
    exact authority.trans h.noClient client rfl

end

/-! ## A run of calls -/

/-- Where a run of calls on a context has come to, with the calls so far and how each of them ended.
    The history is kept beside the record because a client counts as bound only if one and the same
    call had all three slots acknowledged. -/
structure ContextRun where
  context : SecureContext
  engine : Engine Recorder
  /-- The calls, oldest first, each with what the device was told meanwhile. -/
  history : List (ContextCall × List Told)
  /-- Whether there was a call and the last one has returned without an error. -/
  done : Bool

namespace ContextRun

/-- A new context, which remembers nothing, before any call. -/
def start (index : ContextIndex) (e : Engine Recorder) : ContextRun := ⟨.ofIndex index, e, [], false⟩

/-- The record of the device: all that it was told so far, with its verdicts. -/
def log (r : ContextRun) : List Told := r.engine.stream.link.device.log

/-- One more call.  Whether it has succeeded goes into the history, and the run goes on in any
    case. -/
def next (r : ContextRun) (call : ContextCall) : ContextRun :=
  let result := call.run (r.context, r.engine)
  let e := (endState result).2
  ⟨(endState result).1, e, r.history ++ [(call, e.stream.link.device.log.drop r.log.length)],
    succeeded result⟩

/-- The run after some calls, in order. -/
def after (r : ContextRun) (calls : List ContextCall) : ContextRun := calls.foldl next r

/-- The context remembers what the device has acknowledged in the run.  This is the invariant: for
    either side, and for the mode if the last call has succeeded.  A call that fails may have bound
    slots without sending the mode, which is why nothing is said of the mode behind it. -/
structure Faithful (ctx : ContextIndex) (r : ContextRun) : Prop where
  index : r.context.index = ctx
  /-- The parts of the record make up the whole. -/
  record : r.log = r.history.flatMap Prod.snd
  ca : r.context.ca = lastOf (Told.slot? .authority ctx) r.log
  client : r.context.client = lastOf (fun p => boundBy ctx p.1 p.2) r.history
  mode : r.done = true →
    lastOf (Told.value? "authmode" ctx) r.log = some (toString r.context.authMode.code)

variable {n : Nat} {ctx : ContextIndex} {r : ContextRun} {d : Recorder}

/-- One more call keeps the invariant, whichever it is and however it ends.  The names that go into
    a line unchecked must each stay on their line. -/
theorem Faithful.next (h : Faithful ctx r) (room : 7 ≤ n) (ready : Ready n d r.engine)
    {call : ContextCall} (oneLine : ∀ slot ∈ call.unchecked, OneLine slot) :
    Faithful ctx (r.next call) ∧ ∃ d', Ready n d' (r.next call).engine := by
  obtain ⟨part, later, comes⟩ := ensures_run (c := r.context) room call oneLine d r.engine ready
  obtain ⟨kept, ca, client, mode⟩ := comes.tracks
  -- the record only grows, so what a call has been told is what the record has more than before
  have before : r.log = d.log := congrArg Recorder.log ready.device
  have whole : (r.next call).log = r.log ++ part := by
    rw [before]
    exact congrArg Recorder.log later.device
  have history : (r.next call).history = r.history ++ [(call, part)] := by
    have drop : (r.next call).log.drop r.log.length = part := by rw [whole, List.drop_left]
    show r.history ++ [(call, (r.next call).log.drop r.log.length)] = _
    rw [drop]
  rw [h.index] at kept ca client mode
  refine ⟨?_, _, later⟩
  constructor
  · exact kept
  · rw [whole, history, h.record]
    simp
  -- the last acknowledgement is found in the part of this call, if it is in it, and else before it
  · rw [whole, lastOf_append, ← h.ca]
    exact ca
  · have one : lastOf (fun p => boundBy ctx p.1 p.2) [(call, part)] = boundBy ctx call part := by
      rw [lastOf_cons]
      rfl
    rw [history, lastOf_append, one, ← h.client]
    exact client
  · intro done
    rw [whole, lastOf_append, mode done]
    rfl

/-- The invariant holds after any run of calls, by induction on them. -/
theorem Faithful.after (h : Faithful ctx r) (room : 7 ≤ n) (ready : Ready n d r.engine)
    {calls : List ContextCall} (oneLine : ∀ call ∈ calls, ∀ slot ∈ call.unchecked, OneLine slot) :
    Faithful ctx (r.after calls) := by
  induction calls generalizing r d with
  | nil => exact h
  | cons call calls ih =>
    obtain ⟨first, rest⟩ := List.forall_mem_cons.mp oneLine
    obtain ⟨kept, d', again⟩ := h.next room ready first
    exact ih kept again rest

/-- The history names the calls of the run, in order. -/
theorem fst_history (calls : List ContextCall) (r : ContextRun) :
    (r.after calls).history.map Prod.fst = r.history.map Prod.fst ++ calls := by
  induction calls generalizing r with
  | nil => simp [after]
  | cons call calls ih =>
    have later := ih (r.next call)
    have first : (r.next call).history.map Prod.fst = r.history.map Prod.fst ++ [call] := by
      simp [ContextRun.next]
    rw [first, List.append_assoc] at later
    exact later

/-- Whatever the device says to each command, and wherever the calls stop because of it: the authority's
    slot that the context remembers is that of the last `cacert` command that the device has
    acknowledged; the client's slots are those of the last call all three of whose commands were
    acknowledged; the mode is the mode of these two; and if the last call has succeeded, the last
    `authmode` command that was acknowledged has carried this mode.  The slots that go into a line
    without a check must not end it. -/
theorem remembers_acknowledged {e : Engine Recorder} {policy : Policy} (room : 7 ≤ n) (idle : Idle n e)
    (fresh : e.stream.link.device = .ofPolicy policy) (ctx : ContextIndex) {calls : List ContextCall}
    (oneLine : ∀ call ∈ calls, ∀ slot ∈ call.unchecked, OneLine slot) :
    let r := (start ctx e).after calls
    let ca := lastOf (Told.slot? .authority ctx) r.log
    let client := lastOf (fun p => boundBy ctx p.1 p.2) r.history
    r.history.map Prod.fst = calls ∧ r.history.flatMap Prod.snd = r.log ∧
      r.context.ca = ca ∧ r.context.client = client ∧
      r.context.authMode = .forSlots ca.isSome client.isSome ∧
      (r.done = true →
        lastOf (Told.value? "authmode" ctx) r.log = some (toString r.context.authMode.code)) := by
  intro r ca client
  have ready : Ready n (.ofPolicy policy) e := by
    rw [← fresh]
    exact .ofIdle idle (by rw [fresh]; rfl)
  -- before the first call there is no record, and nothing is remembered
  have nothing : (start ctx e).log = [] := congrArg Recorder.log fresh
  have begun : Faithful ctx (start ctx e) := by
    constructor
    · rfl
    · exact nothing
    · rw [nothing]
      rfl
    · rfl
    · intro done
      cases done
  have kept := begun.after room ready oneLine
  refine ⟨fst_history calls (start ctx e), kept.record.symm, kept.ca, kept.client, ?_, kept.mode⟩
  show AuthMode.forSlots _ _ = _
  rw [kept.ca, kept.client]

/-- A device that refuses some lines, and does what it is told by all the others. -/
def refusing (lines : List String) : Policy where
  verdict _ line := if line ∈ lines then .error else .ok
  names _ := []
  quotable _ _ h := nomatch h
  prompts _ := true
  stored _ := .ok

/-- The authority is bound and the client only half, so there is nothing but the authority.  The key
    is refused after the certificate was bound, and the device is never told of the password. -/
theorem remembers_acknowledged_half_bound :
    let policy := refusing [setting "clientkey" 2 (inQuotes "client.key")]
    let calls : List ContextCall :=
      [.setCa "ca.pem", .setClient ⟨"client.pem", "client.key", "client.pwd"⟩]
    let e : Engine Recorder := ofLink .standard (.ofDevice (.ofPolicy policy))
    let r := (start 2 e).after calls
    7 ≤ max EngineConfig.standard.windowCapacity 1 ∧
      Idle (max EngineConfig.standard.windowCapacity 1) e ∧
      e.stream.link.device = .ofPolicy policy ∧
      (∀ call ∈ calls, ∀ slot ∈ call.unchecked, OneLine slot) ∧
      r.context.ca = lastOf (Told.slot? .authority 2) r.log ∧
      r.context.client = lastOf (fun p => boundBy 2 p.1 p.2) r.history ∧
      r.context = ⟨2, some "ca.pem", none⟩ := by
  intro policy calls e r
  have room : 7 ≤ max EngineConfig.standard.windowCapacity 1 := by decide
  have idle : Idle (max EngineConfig.standard.windowCapacity 1) e :=
    (AtRest.ofLink .standard (Recorder.ofPolicy policy)).idle
  have fresh : e.stream.link.device = .ofPolicy policy := rfl
  have oneLine : ∀ call ∈ calls, ∀ slot ∈ call.unchecked, OneLine slot := by decide
  obtain ⟨-, -, ca, client, -, -⟩ := remembers_acknowledged room idle fresh 2 oneLine
  have context : r.context = ⟨2, some "ca.pem", none⟩ := by decide +kernel
  exact ⟨room, idle, fresh, oneLine, ca, client, context⟩

/-- A name that ends the line: the call succeeds, and the device has another mode than the context. -/
example :
    let e : Engine Recorder :=
      ofLink .standard (.ofDevice (.ofPolicy (refusing [setting "authmode" 0 "1"])))
    let r := (start 0 e).after [.setCa "a\"\r\nAT+CSSLCFG=\"authmode\",0,3\r\nAT+X=\"b"]
    r.done = true ∧ r.context.authMode.code = 1 ∧
      lastOf (Told.value? "authmode" 0) r.log = some "3" := by
  decide +kernel

end ContextRun

end AtModem
