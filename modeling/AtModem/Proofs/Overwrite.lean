/-
  Overwriting a slot converges.

  To overwrite a slot is a listing, a removal if the slot is taken, and an upload.  The upload may be
  refused when the slot is already empty.  Each of the three exchanges begins and ends at rest, with
  nothing left to read (`certExists_atRest`, `certDelete_atRest`, `certDownload_atRest`), so the next one
  has its own answer before it, whatever came of the one before.  A call therefore does what it is to do
  to whatever store it finds (`certOverwrite_atRest`), and a sequence of calls never touches another slot
  and leaves in this one what the last call has put there, or nothing.
-/
import AtModem.Proofs.Exchange.Services
import AtModem.Proofs.Listing
import AtModem.Proofs.Upload

namespace AtModem.Ssl

open Engine ClientM CertStore

/-! ## Names of slots -/

/-- A name for a slot that the library accepts, that the store takes for one name, and that a window
    of this size can hold with its quotes.  Each condition excludes names with which the store or
    the window would go wrong. -/
structure Usable (n : Nat) (slot : String) : Prop where
  named : slot ≠ ""
  quotable : quotable slot = true
  comma : ',' ∉ slot.toList
  room : 7 ≤ n
  fits : (Utf8.encode (inQuotes slot)).length ≤ n

/-- A store that awaits a command, and whose names can be quoted; between two calls the store is
    always such. -/
structure Awaiting (s : CertStore) : Prop where
  lines : s.receiving = none
  names : ∀ name ∈ s.slots, AtModem.quotable name = true

variable {n : Nat} {slot : String} {s : CertStore} {e : Engine CertStore}

/-- Such a store takes what is written for a line and not for data. -/
theorem Awaiting.takesLines (a : Awaiting s) : Device.takesRaw s = false := by
  show s.receiving.isSome = false
  rw [a.lines]
  rfl

/-- A slot's name that is usable does not close its quotes. -/
theorem Usable.unquoted (u : Usable n slot) : '"' ∉ slot.toList := fun h =>
  (quotable_iff.mp u.quotable _ h).1 rfl

theorem Usable.check {σ : Type} (u : Usable n slot) (e : Engine σ) : checkSlot slot e = .ok () e :=
  (checkSlot_eq_ok_iff slot e).mpr ⟨u.named, u.quotable⟩

/-- The names that are listed are those of the slots that are taken. -/
theorem mem_names (s : CertStore) (name : String) : name ∈ s.names ↔ name ∈ s.slots := by
  rw [CertStore.names, Finset.mem_sort, Finmap.mem_keys]

theorem Awaiting.quotable (a : Awaiting s) : ∀ name ∈ s.names, AtModem.quotable name = true :=
  fun name hn => a.names name ((mem_names s name).mp hn)

/-! ## The three exchanges -/

/-- The verdict on an upload is an answer that a wait hears to its end. -/
theorem complete_finish (s : CertStore) (slot : String) (data : Bytes) :
    Complete ((s.finish slot data).2, if s.refusing then .failure else .success) := by
  have accepted : Complete (okAnswer, .success) := by decide
  have refused : Complete (errorAnswer, .failure) := by decide
  unfold finish
  split
  · exact refused
  · exact accepted

/-- The prompt for an upload is found where it is, and nothing before it. -/
theorem firstReply_prompt {X : Bytes} (room : 7 ≤ n)
    (apart : ∀ c ∈ candidates [Utf8.encode ">"] true true, Apart c.1 X) :
    firstReply (reply n (candidates [Utf8.encode ">"] true true)) X (crlf ++ Utf8.encode ">") =
      some (.pattern 1, []) := by
  rw [firstReply_of_apart fun c hc _ => apart c hc, reply_of_le (m := 7) (by decide) room]
  decide

/-- An upload that is prompted for and confirmed like those of the store: the data goes behind the
    prompt, and `OK` confirms it. -/
def plainUpload (line : String) (data : Bytes) (timeout : Nat) : Upload :=
  { command := line, data, promptTimeout := timeout }

/-- Once it is prompted for, the data goes to the device, and what is left is to wait for the
    verdict.  It is said for any device that takes the bytes, so that it serves for the store and
    for devices built around it. -/
theorem upload_of_prompt {σ : Type} [Device σ] {d d' : σ} {e f : Engine σ} {X answer data : Bytes}
    {line : String} (room : 7 ≤ n)
    (apart : ∀ c ∈ candidates [Utf8.encode ">"] true true, Apart c.1 X)
    (sent : send line e = .ok () f) (h : Calm n d X (crlf ++ Utf8.encode ">") f)
    (absorbed : ∀ l : Link σ, l.device = d →
      l.absorbAll data = { l with device := d', queued := l.queued ++ answer }) (timeout : Nat) :
    ∃ g, upload (plainUpload line data timeout) e = Engine.waitOk g.defaultTimeout g ∧
      Calm n d' (X ++ (crlf ++ Utf8.encode ">")) answer g := by
  rw [← List.append_nil (crlf ++ _)] at h
  obtain ⟨g, w, calm⟩ := h.wait (firstReply_prompt room apart) timeout
  obtain ⟨i, printed, calm⟩ := calm.print absorbed
  rw [List.nil_append] at calm
  have prompted : awaitPrompt (plainUpload line data timeout) f = .ok () g := awaitPrompt_of_prompt w
  exact ⟨i, (bind_of_ok sent).trans ((bind_of_ok prompted).trans (bind_of_ok printed)), calm⟩

section

variable {σ : Type} [Device σ] {d d' : σ} {f : Engine σ}

/-- A slot is found in the listing if it is listed, on any device that answers the question with
    such a listing.  The window is large enough for the name, as the slot is usable. -/
theorem certExists_of_listing (u : Usable n slot) {names : List String}
    (quotable : ∀ name ∈ names, AtModem.quotable name = true) (lines : Device.takesRaw d = false)
    (answers : Device.answer d (Utf8.encode "AT+CCERTLIST") =
      (d', .now (crlf ++ CertStore.lines names ++ (crlf ++ okLine)))) (h : AtRest n d f) :
    ∃ g, certExists slot f = .ok (decide (slot ∈ names)) g ∧ AtRest n d' g := by
  obtain ⟨X, ends, calm⟩ := h
  obtain ⟨g, sent, calm⟩ := calm.send lines (by decide) answers
  rw [List.nil_append] at calm
  have apart : ∀ c ∈ sought slot, Apart c.1 X := fun c hc =>
    ends.apart (lf_not_mem_dropLast_sought u.quotable c hc)
  obtain ⟨i, Y, ends, calm, searched⟩ := calm.searchListing u.room u.quotable quotable apart
  refine ⟨i, ?_, Y, ends, calm⟩
  rw [decide_eq_decide.mpr (and_iff_left u.fits)] at searched
  exact (bind_of_ok (u.check f)).trans (ofEngine_of_ok ((bind_of_ok sent).trans searched))

/-- A removal succeeds on any device that acknowledges it, and leaves nothing to read. -/
theorem certDelete_of_answer (u : Usable n slot) (lines : Device.takesRaw d = false)
    (answers : Device.answer d (Utf8.encode s!"AT+CCERTDELE={inQuotes slot}") = (d', .now okAnswer))
    (h : AtRest n d f) : ∃ g, certDelete slot f = .ok () g ∧ AtRest n d' g := by
  have oneLine : OneLine s!"AT+CCERTDELE={inQuotes slot}" :=
    .append (s := "AT+CCERTDELE=") (by decide) (.inQuotes u.quotable)
  have complete : Complete (okAnswer, .success) := by decide
  obtain ⟨g, w, rest⟩ := h.command u.room complete lines oneLine answers storeTimeout
  exact ⟨g, (bind_of_ok (u.check f)).trans (ofEngine_of_ok w), rest⟩

/-- An upload that is prompted for; when its bytes have been taken it is confirmed or refused. -/
theorem certDownload_of_prompt (u : Usable n slot) {data : Bytes} {expecting : σ} {s : CertStore}
    (lines : Device.takesRaw d = false)
    (answers : Device.answer d (Utf8.encode s!"AT+CCERTDOWN={inQuotes slot},{data.length}") =
      (expecting, .now (Utf8.encode "\r\n>")))
    (absorbed : ∀ l : Link σ, l.device = expecting → l.absorbAll data =
      { l with device := d', queued := l.queued ++ (s.finish slot data).2 }) (h : AtRest n d f) :
    ∃ g, AtRest n d' g ∧ certDownload data slot f =
      if s.refusing then .error (.link .deviceReportedFailure) g else .ok () g := by
  let line := s!"AT+CCERTDOWN={inQuotes slot},{data.length}"
  obtain ⟨X, ends, calm⟩ := h
  have oneLine : OneLine line := by
    have name : OneLine ("AT+CCERTDOWN=" ++ inQuotes slot) := .append (by decide) (.inQuotes u.quotable)
    exact (name.append (t := ",") (by decide)).append (.toString data.length)
  have prompt : Utf8.encode "\r\n>" = crlf ++ Utf8.encode ">" := by decide
  have inLine : ∀ c ∈ candidates [Utf8.encode ">"] true true, Ascii.lf ∉ c.1.dropLast := by decide
  have complete := complete_finish s slot data
  -- the prompt, then the data, then the verdict
  obtain ⟨f₁, sent, calm⟩ := calm.send lines oneLine answers
  rw [List.nil_append, prompt] at calm
  obtain ⟨f₂, moved, calm⟩ := upload_of_prompt u.room (fun c hc => ends.apart (inLine c hc)) sent calm
    absorbed storeTimeout
  have settled : Settled (X ++ (crlf ++ Utf8.encode ">")) := by
    rw [← List.append_assoc]
    exact Settled.concat (by decide) _
  rw [← List.append_nil (s.finish slot data).2] at calm
  obtain ⟨g, done, calm⟩ := calm.waitOk (complete.heard u.room settled) f₂.defaultTimeout
  have uploaded := moved.trans done
  refine ⟨g, ⟨_, complete.lineEnd _, calm⟩, (bind_of_ok (u.check f)).trans ?_⟩
  by_cases refusing : s.refusing = true
  · rw [if_pos refusing] at uploaded ⊢
    exact ofEngine_of_error uploaded
  · rw [if_neg refusing] at uploaded ⊢
    exact ofEngine_of_ok uploaded

end

/-- The store answers with the listing of what it has, so its slots are what is found. -/
theorem certExists_atRest (u : Usable n slot) (a : Awaiting s) (h : AtRest n s e) :
    ∃ f, certExists slot e = .ok (decide (slot ∈ s.slots)) f ∧ AtRest n s f := by
  have answered := answer_list s
  rw [listing_eq] at answered
  obtain ⟨f, looked, h⟩ := certExists_of_listing u a.quotable a.takesLines answered h
  rw [decide_eq_decide.mpr (mem_names s slot)] at looked
  exact ⟨f, looked, h⟩

/-- A slot that is taken is emptied, and the store is at rest again. -/
theorem certDelete_atRest (u : Usable n slot) (a : Awaiting s) (taken : slot ∈ s.slots)
    (h : AtRest n s e) :
    ∃ f, certDelete slot e = .ok () f ∧ AtRest n { s with slots := s.slots.erase slot } f :=
  certDelete_of_answer u a.takesLines (answer_remove u.unquoted taken) h

/-- An upload into a slot that is free.  If it is refused, the slot stays free. -/
theorem certDownload_atRest (u : Usable n slot) (a : Awaiting s) (free : slot ∉ s.slots) {data : Bytes}
    (some : data ≠ []) (sized : data.length < 2 ^ 64) (h : AtRest n s e) :
    ∃ f, AtRest n (s.finish slot data).1 f ∧
      certDownload data slot e =
        if s.refusing then .error (.link .deviceReportedFailure) f else .ok () f :=
  certDownload_of_prompt u a.takesLines
    (answer_announce u.unquoted u.comma free (List.length_pos_of_ne_nil some) sized)
    (fun _ hl => absorbAll_of_expecting within_self hl) h

/-! ## One call -/

/-- A slot that is free is as if it had been removed, so the two cases of an overwriting are one. -/
theorem erase_of_not_mem {slots : Slots} (h : slot ∉ slots) : slots.erase slot = slots := by
  refine Finmap.ext_lookup fun name => ?_
  by_cases same : name = slot
  · rw [same, Finmap.lookup_erase, Finmap.lookup_eq_none.mpr h]
  · rw [Finmap.lookup_erase_ne same]

/-- What is put into a slot takes the place of what it held, removed before or not. -/
theorem insert_erase (slots : Slots) (slot : String) (data : Bytes) :
    (slots.erase slot).insert slot data = slots.insert slot data := by
  refine Finmap.ext_lookup fun name => ?_
  by_cases same : name = slot
  · rw [same, Finmap.lookup_insert, Finmap.lookup_insert]
  · rw [Finmap.lookup_insert_of_ne _ same, Finmap.lookup_insert_of_ne _ same,
      Finmap.lookup_erase_ne same]

/-- Removing a slot leaves a store that awaits a command. -/
theorem Awaiting.erase (a : Awaiting s) (slot : String) :
    Awaiting { s with slots := s.slots.erase slot } where
  lines := a.lines
  names name h := a.names name (Finmap.mem_erase.mp h).2

/-- Whatever the slot holds, the data is put into a store in which it is free; a refusal is
    reported, and leaves the slot empty.  It asks, removes and uploads, and between these steps the
    engine is at rest each time. -/
theorem certOverwrite_atRest (u : Usable n slot) (a : Awaiting s) {data : Bytes} (some : data ≠ [])
    (sized : data.length < 2 ^ 64) (h : AtRest n s e) :
    ∃ f, AtRest n (CertStore.finish { s with slots := s.slots.erase slot } slot data).1 f ∧
      certOverwrite data slot e =
        if s.refusing then .error (.link .deviceReportedFailure) f else .ok () f := by
  obtain ⟨f, looked, h⟩ := certExists_atRest u a h
  have free : slot ∉ s.slots.erase slot := Finmap.notMem_erase_self
  by_cases taken : slot ∈ s.slots
  · rw [decide_eq_true taken] at looked
    obtain ⟨g, removed, h⟩ := certDelete_atRest u a taken h
    obtain ⟨i, h, put⟩ := certDownload_atRest u (a.erase slot) free some sized h
    exact ⟨i, h, (bind_of_ok looked).trans ((bind_of_ok removed).trans put)⟩
  · rw [decide_eq_false taken] at looked
    have same : ({ s with slots := s.slots.erase slot } : CertStore) = s := by
      rw [erase_of_not_mem taken]
    rw [same]
    obtain ⟨g, h, put⟩ := certDownload_atRest u a taken some sized h
    exact ⟨g, h, (bind_of_ok looked).trans put⟩

/-! ## A sequence of calls -/

/-- The store is told to refuse the next upload, and no other. -/
def tellRefuse (e : Engine CertStore) : Engine CertStore :=
  { e with stream := { e.stream with
      link := { e.stream.link with device := e.stream.link.device.refuseNext } } }

/-- A call with this data, and whether the store refuses its upload. -/
structure Attempt where
  data : Bytes
  refused : Bool

/-- The call, on a store that has been told beforehand. -/
def Attempt.run (a : Attempt) (slot : String) : ClientM CertStore Unit := fun e =>
  certOverwrite a.data slot (if a.refused then tellRefuse e else e)

/-- Where a sequence of calls has come to: the engine, and what the callers were last told is
    stored.  What was stored is told only by a call that returns without an error; a refused one
    changes nothing here. -/
structure Course where
  engine : Engine CertStore
  /-- The data of the last call that returned without an error. -/
  stored : Option Bytes

namespace Course

/-- A fresh engine on a link to a store with these slots. -/
def start (config : EngineConfig) (slots : Slots) : Course :=
  ⟨.ofLink config (.ofDevice (.ofSlots slots)), none⟩

/-- One call more, entered by how it ended. -/
def next (slot : String) (c : Course) (a : Attempt) : Course :=
  match a.run slot c.engine with
  | .ok () e => ⟨e, some a.data⟩
  | .error _ e => ⟨e, c.stored⟩

/-- Where a sequence of calls leads from here. -/
def after (c : Course) (slot : String) (attempts : List Attempt) : Course :=
  attempts.foldl (next slot) c

/-- What the store has in its slots. -/
def store (c : Course) : Slots := c.engine.stream.link.device.slots

/-- What is left to read of the answers of the store: nothing, between two calls. -/
def unread (c : Course) : Bytes := c.engine.stream.unread

end Course

/-- Telling the store is not an exchange and leaves everything at rest. -/
theorem AtRest.tellRefuse (h : AtRest n s e) : AtRest n s.refuseNext (Ssl.tellRefuse e) := by
  obtain ⟨X, ends, c⟩ := h
  refine ⟨X, ends, c.quiet, c.capacity, c.window, ?_, c.scheduled, c.unread, c.unfinished, c.works⟩
  show e.stream.link.device.refuseNext = s.refuseNext
  rw [c.device]

/-- The slots after a call: nothing in this one if the upload was refused, else the data. -/
def Attempt.slots (a : Attempt) (slot : String) (slots : Slots) : Slots :=
  if a.refused then slots.erase slot else slots.insert slot a.data

/-- Where a sequence of calls on a slot can come to: the engine is at rest, and the store has kept
    all other slots.  It is the invariant of the sequence.  Nothing is said of the slot itself,
    since a refused upload leaves it empty. -/
def Reached (n : Nat) (slot : String) (slots : Slots) (e : Engine CertStore) : Prop :=
  ∃ kept : Slots, AtRest n (.ofSlots kept) e ∧ kept.erase slot = slots.erase slot

/-- Each call does what it is to do to the store that was there at first, whatever came of the calls
    before it.  For this the invariant need not know the slot itself: whatever is there is removed
    first. -/
theorem Attempt.run_of_reached {slots : Slots} (u : Usable n slot)
    (names : ∀ name ∈ slots, quotable name = true) {a : Attempt} (some : a.data ≠ [])
    (sized : a.data.length < 2 ^ 64) (r : Reached n slot slots e) :
    ∃ f, AtRest n (.ofSlots (a.slots slot slots)) f ∧
      a.run slot e =
        if a.refused then .error (.link .deviceReportedFailure) f else .ok () f := by
  obtain ⟨kept, h, same⟩ := r
  let s : CertStore := { CertStore.ofSlots kept with refusing := a.refused }
  -- whatever earlier calls have left in the slot, all other names are those of the beginning
  have awaiting : Awaiting s := by
    refine ⟨rfl, fun name hn => ?_⟩
    by_cases e : name = slot
    · rw [e]
      exact u.quotable
    · have other : name ∈ slots.erase slot := same ▸ Finmap.mem_erase.mpr ⟨e, hn⟩
      exact names name (Finmap.mem_erase.mp other).2
  -- the store is told to refuse, or it is not; either way it is at rest
  have told : AtRest n s (if a.refused then tellRefuse e else e) := by
    by_cases refused : a.refused = true
    · have kind : s = (CertStore.ofSlots kept).refuseNext := by simp only [s, refused, refuseNext]
      rw [if_pos refused, kind]
      exact AtRest.tellRefuse h
    · have kind : s = CertStore.ofSlots kept := by simp [s, refused, CertStore.ofSlots]
      rw [if_neg refused, kind]
      exact h
  obtain ⟨f, h, ran⟩ := certOverwrite_atRest u awaiting some sized told
  refine ⟨f, ?_, ran⟩
  have left : (CertStore.finish { s with slots := s.slots.erase slot } slot a.data).1 =
      .ofSlots (a.slots slot slots) := by
    have erased : s.slots.erase slot = slots.erase slot := same
    rw [erased]
    unfold CertStore.finish Attempt.slots
    by_cases refused : a.refused = true
    · simp only [s, refused, ↓reduceIte, CertStore.ofSlots]
    · simp only [s, refused, Bool.false_eq_true, ↓reduceIte, CertStore.ofSlots, insert_erase]
  rwa [left] at h

theorem Attempt.erase_slots (a : Attempt) (slot : String) (slots : Slots) :
    (a.slots slot slots).erase slot = slots.erase slot := by
  refine Finmap.ext_lookup fun name => ?_
  unfold Attempt.slots
  by_cases same : name = slot
  · rw [same, Finmap.lookup_erase, Finmap.lookup_erase]
  · rw [Finmap.lookup_erase_ne same, Finmap.lookup_erase_ne same]
    split
    · exact Finmap.lookup_erase_ne same
    · exact Finmap.lookup_insert_of_ne slots same

theorem Course.next_eq {c : Course} {a : Attempt} {err : ClientError} {f : Engine CertStore}
    (ran : a.run slot c.engine = if a.refused then .error err f else .ok () f) :
    c.next slot a = ⟨f, if a.refused then c.stored else some a.data⟩ := by
  unfold Course.next
  rw [ran]
  by_cases refused : a.refused = true
  · simp only [refused, ↓reduceIte]
  · simp only [refused, Bool.false_eq_true, ↓reduceIte]

/-- A sequence of calls on a slot, of which any number are refused, keeps all other slots. -/
theorem Course.reached_after {slots : Slots} (u : Usable n slot)
    (names : ∀ name ∈ slots, quotable name = true) {c : Course} (attempts : List Attempt)
    (sized : ∀ a ∈ attempts, a.data ≠ [] ∧ a.data.length < 2 ^ 64)
    (r : Reached n slot slots c.engine) : Reached n slot slots (c.after slot attempts).engine := by
  induction attempts generalizing c with
  | nil => exact r
  | cons a attempts ih =>
    obtain ⟨some, size⟩ := sized a List.mem_cons_self
    refine ih (c := c.next slot a) (fun b hb => sized b (List.mem_cons_of_mem a hb)) ?_
    obtain ⟨f, h, ran⟩ := a.run_of_reached u names some size r
    rw [Course.next_eq ran]
    exact ⟨_, h, a.erase_slots slot slots⟩

/-- A slot is overwritten again and again, from any store on a fresh engine, and the store refuses any
    number of the uploads.  After each call every other slot is as it was at first, and this one is free
    or holds the data of the last call that returned without an error.  A call whose upload is not
    refused returns without an error; one whose upload is refused reports the failure and leaves the slot
    free.  Either way nothing is left to read, and the store is the first one with the slot put or
    removed. -/
theorem overwrite_converges (config : EngineConfig) (room : 7 ≤ config.windowCapacity) (slots : Slots)
    (names : ∀ name ∈ slots, quotable name = true) (slot : String)
    (accepted : ∀ e : Engine CertStore, checkSlot slot e = .ok () e) (comma : ',' ∉ slot.toList)
    (fits : (Utf8.encode (inQuotes slot)).length ≤ config.windowCapacity) (earlier : List Attempt)
    (last : Attempt) (sized : ∀ a ∈ earlier ++ [last], a.data ≠ [] ∧ a.data.length < 2 ^ 64) :
    let before := (Course.start config slots).after slot earlier
    let now := (Course.start config slots).after slot (earlier ++ [last])
    (∀ other, other ≠ slot → now.store.lookup other = slots.lookup other) ∧
      (now.store.lookup slot = none ∨
        ∃ data, now.stored = some data ∧ now.store.lookup slot = some data) ∧
      (last.refused = false →
        (∃ e, last.run slot before.engine = .ok () e) ∧ now.store = slots.insert slot last.data) ∧
      (last.refused = true →
        (∃ e, last.run slot before.engine = .error (.link .deviceReportedFailure) e) ∧
          now.store = slots.erase slot) ∧
      now.unread = [] := by
  intro before now
  -- the name is usable: it passes the check, and the window can hold it between its quotes
  have u : Usable (max config.windowCapacity 1) slot := by
    obtain ⟨named, ok⟩ := (checkSlot_eq_ok_iff slot before.engine).mp (accepted before.engine)
    exact ⟨named, ok, comma, Nat.le_trans room (Nat.le_max_left _ _),
      Nat.le_trans fits (Nat.le_max_left _ _)⟩
  have fresh : Reached (max config.windowCapacity 1) slot slots (Course.start config slots).engine :=
    ⟨slots, AtRest.ofLink config (CertStore.ofSlots slots), rfl⟩
  have reached := Course.reached_after u names earlier
    (fun a ha => sized a (List.mem_append_left _ ha)) fresh
  obtain ⟨some, size⟩ := sized last (by simp)
  obtain ⟨f, rest, ran⟩ := last.run_of_reached u names some size reached
  have one : now = ⟨f, if last.refused then before.stored else .some last.data⟩ := by
    show ((earlier ++ [last]).foldl (Course.next slot) (Course.start config slots)) = _
    rw [List.foldl_append]
    exact Course.next_eq ran
  have store : now.store = last.slots slot slots := by
    rw [one]
    show f.stream.link.device.slots = _
    rw [rest.device]
    rfl
  refine ⟨fun other ne => ?_, ?_, fun kept => ?_, fun refused => ?_, ?_⟩
  -- no other slot has changed
  · have kept := congrArg (Finmap.lookup other) (last.erase_slots slot slots)
    rwa [Finmap.lookup_erase_ne ne, Finmap.lookup_erase_ne ne, ← store] at kept
  -- the slot is empty, or has what was last reported as stored
  · rw [store, one]
    unfold Attempt.slots
    by_cases refused : last.refused = true
    · left
      rw [if_pos refused, Finmap.lookup_erase]
    · right
      rw [if_neg refused, if_neg refused, Finmap.lookup_insert]
      exact ⟨last.data, rfl, rfl⟩
  -- the last call is accepted
  · rw [kept] at ran
    rw [store, Attempt.slots, kept]
    exact ⟨⟨f, ran⟩, rfl⟩
  -- the last call is refused
  · rw [refused] at ran
    rw [store, Attempt.slots, refused]
    exact ⟨⟨f, ran⟩, rfl⟩
  · rw [one]
    exact rest.unread

/-- A refused upload and then one that looks like answers, next to a slot with a similar name.  The
    name of the neighbour begins with that of the slot, and the data contains a terminator. -/
theorem overwrite_converges_similar_names :
    let slots : Slots := (Finmap.singleton "ca.pem.bak" [1]).insert "ca.pem" [2]
    let first : Attempt := ⟨[3], true⟩
    let last : Attempt := ⟨Utf8.encode "\r\nERROR\r\n>", false⟩
    let now := (Course.start .standard slots).after "ca.pem" ([first] ++ [last])
    7 ≤ EngineConfig.standard.windowCapacity ∧ (∀ name ∈ slots, quotable name = true) ∧
      (∀ e : Engine CertStore, checkSlot "ca.pem" e = .ok () e) ∧ ',' ∉ "ca.pem".toList ∧
      (Utf8.encode (inQuotes "ca.pem")).length ≤ EngineConfig.standard.windowCapacity ∧
      (∀ a ∈ [first] ++ [last], a.data ≠ [] ∧ a.data.length < 2 ^ 64) ∧ last.refused = false ∧
      now.store = slots.insert "ca.pem" last.data ∧ now.store.lookup "ca.pem.bak" = some [1] ∧
      now.unread = [] := by
  intro slots first last now
  have room : 7 ≤ EngineConfig.standard.windowCapacity := by decide
  have names : ∀ name ∈ slots, quotable name = true := by
    intro name h
    rcases Finmap.mem_insert.mp h with rfl | h
    · decide
    · rw [(Finmap.mem_singleton name "ca.pem.bak" [1]).mp h]
      decide
  have accepted : ∀ e : Engine CertStore, checkSlot "ca.pem" e = .ok () e := fun e =>
    (checkSlot_eq_ok_iff "ca.pem" e).mpr ⟨by decide, by decide⟩
  have fits : (Utf8.encode (inQuotes "ca.pem")).length ≤ EngineConfig.standard.windowCapacity := by
    decide
  have sized : ∀ a ∈ [first] ++ [last], a.data ≠ [] ∧ a.data.length < 2 ^ 64 := by
    intro a ha
    rcases List.mem_pair.mp ha with rfl | rfl
    · exact ⟨by decide, by decide⟩
    · exact ⟨by decide, by decide⟩
  obtain ⟨others, -, kept, -, read⟩ := overwrite_converges .standard room slots names "ca.pem" accepted
    (by decide) fits [first] last sized
  have bak : slots.lookup "ca.pem.bak" = some [1] := by
    rw [Finmap.lookup_insert_of_ne _ (by decide)]
    exact Finmap.lookup_singleton_eq
  exact ⟨room, names, accepted, by decide, fits, sized, rfl, (kept rfl).2,
    (others "ca.pem.bak" (by decide)).trans bak, read⟩

end AtModem.Ssl
