/-
  A device that decides for itself, and keeps a record.

  Each command line is answered by `OK`, by `ERROR` or not at all, as the device decides by all that it
  has been told so far; the line goes into the record together with the decision.  When it agrees to
  list its slots, it lists whatever it likes before the `OK`; when it agrees to an upload, it may prompt
  for it, take as many bytes as were announced and then decide once more.

  Whatever it decides, a command reports the decision (`Ready.command`), and an exchange with the
  certificate store comes to an end, well or badly (`keepsReady_certOverwrite`).  Afterwards there is
  nothing left to read and the device awaits the next command, so no command finds the answer to another
  before its own.  An upload that is not confirmed leaves a wait behind its prompt and not at the end of a
  line; what is looked for next does not begin with a prompt, so that does not matter (`Between`).
-/
import AtModem.Proofs.Injection
import AtModem.Proofs.Overwrite

namespace AtModem

/-- What a device says to a command. -/
inductive Verdict where
  | ok
  | error
  | nothing
  deriving DecidableEq, Repr

namespace Verdict

/-- The answer in bytes. -/
def bytes : Verdict → Bytes
  | ok => CertStore.okAnswer
  | error => CertStore.errorAnswer
  | nothing => []

/-- What a wait for it comes to, when nothing else comes. -/
def outcome : Verdict → MatchOutcome
  | ok => .success
  | error => .failure
  | nothing => .timedOut

end Verdict

/-- A line that a device was told, and what it said. -/
structure Told where
  line : String
  verdict : Verdict
  deriving DecidableEq, Repr

/-- How a device decides, each time by all that it has been told before; nothing else is known of
    it.  It may decide as it likes, and so what is proved for all policies holds also for devices
    that change their minds. -/
structure Policy where
  verdict : List Told → String → Verdict
  /-- The slots that it lists before its `OK`. -/
  names : List Told → List String
  quotable : ∀ log, ∀ name ∈ names log, quotable name = true
  /-- Whether it prompts for an upload, or says `OK` and no more. -/
  prompts : List Told → Bool
  /-- What it says when the bytes of an upload have arrived. -/
  stored : List Told → Verdict

/-- A device with such a policy, its record, and how much of an upload it still awaits. -/
structure Recorder where
  policy : Policy
  /-- All that it was told, oldest first. -/
  log : List Told
  /-- The bytes of an upload that are to come. -/
  awaiting : Nat

namespace Recorder

open Engine

/-- A device that has not been told anything yet. -/
def ofPolicy (policy : Policy) : Recorder := ⟨policy, [], 0⟩

/-- What it says to the line, by its record so far. -/
def said (d : Recorder) (line : String) : Verdict := d.policy.verdict d.log line

/-- The device with the line in its record, beside what it said. -/
def tell (d : Recorder) (line : String) : Recorder := { d with log := d.log ++ [⟨line, d.said line⟩] }

/-- How many bytes of an upload a line announces; none, if it is another line. -/
def announced (line : String) : Nat :=
  ("AT+CCERTDOWN=".toList.isPrefixOf? line.toList).elim 0 fun _ =>
    (parameters line)[1]?.elim 0 fun size => Nat.ofDigitChars 10 size.toList 0

/-- Answers a command line and puts it on record, in between two uploads. -/
def answer (d : Recorder) (line : Bytes) : Recorder × Reply :=
  let text := Utf8.decode line
  if d.said text = .ok ∧ text = "AT+CCERTLIST" ∧ d.policy.names d.log ≠ [] then
    (d.tell text, .now (crlf ++ CertStore.lines (d.policy.names d.log) ++ (crlf ++ okLine)))
  else if d.said text = .ok ∧ announced text ≠ 0 ∧ d.policy.prompts d.log = true then
    ({ d.tell text with awaiting := announced text }, .now (crlf ++ Utf8.encode ">"))
  else (d.tell text, .now (d.said text).bytes)

/-- Takes a byte of an upload, and decides behind the last. -/
def take (d : Recorder) (_ : UInt8) : Recorder × Reply :=
  if d.awaiting = 1 then ({ d with awaiting := 0 }, .now (d.policy.stored d.log).bytes)
  else ({ d with awaiting := d.awaiting - 1 }, .now [])

instance : Device Recorder where
  answer := answer
  takesRaw d := d.awaiting != 0
  take := take

/-! ## What it answers -/

variable {d : Recorder} {line : String}

/-- If it agrees to list its slots, the listing comes before the `OK`. -/
theorem answer_list (agreed : d.said "AT+CCERTLIST" = .ok) (some : d.policy.names d.log ≠ []) :
    Device.answer d (Utf8.encode "AT+CCERTLIST") = (d.tell "AT+CCERTLIST",
      .now (crlf ++ CertStore.lines (d.policy.names d.log) ++ (crlf ++ okLine))) := by
  show d.answer _ = _
  unfold answer
  rw [Utf8.decode_encode, if_pos ⟨agreed, rfl, some⟩]

/-- If it agrees to an upload and prompts for it, there is the prompt and no `OK` yet. -/
theorem answer_announce (agreed : d.said line = .ok) (other : line ≠ "AT+CCERTLIST")
    (some : announced line ≠ 0) (prompts : d.policy.prompts d.log = true) :
    Device.answer d (Utf8.encode line) =
      ({ d.tell line with awaiting := announced line }, .now (crlf ++ Utf8.encode ">")) := by
  show d.answer _ = _
  unfold answer
  rw [Utf8.decode_encode, if_neg fun h => other h.2.1, if_pos ⟨agreed, some, prompts⟩]

/-- The device has nothing to list for this line, and does not prompt for it, so that its verdict is
    all that it says.  Most commands are such, and for them the exchange comes down to hearing one
    of three answers. -/
structure Plain (d : Recorder) (line : String) : Prop where
  unlisted : d.said line = .ok → line = "AT+CCERTLIST" → d.policy.names d.log = []
  unprompted : d.said line = .ok → announced line ≠ 0 → d.policy.prompts d.log = false

theorem answer_plain (plain : Plain d line) :
    Device.answer d (Utf8.encode line) = (d.tell line, .now (d.said line).bytes) := by
  have noList : ¬(d.said line = .ok ∧ line = "AT+CCERTLIST" ∧ d.policy.names d.log ≠ []) := by
    rintro ⟨agreed, list, some⟩
    exact some (plain.unlisted agreed list)
  have noPrompt : ¬(d.said line = .ok ∧ announced line ≠ 0 ∧ d.policy.prompts d.log = true) := by
    rintro ⟨agreed, some, prompts⟩
    rw [plain.unprompted agreed some] at prompts
    cases prompts
  show d.answer _ = _
  unfold answer
  rw [Utf8.decode_encode, if_neg noList, if_neg noPrompt]

/-- Any line but the question for a listing and the announcement of an upload is plain. -/
theorem Plain.of_ne (d : Recorder) (other : line ≠ "AT+CCERTLIST") (none : announced line = 0) :
    Plain d line := ⟨fun _ h => absurd h other, fun _ h => absurd none h⟩

/-- With the last byte comes the decision, and the device awaits a command again. -/
theorem take_last (ready : d.awaiting = 0) (b : UInt8) :
    Device.take { d with awaiting := 1 } b = (d, .now (d.policy.stored d.log).bytes) := by
  have done : ({ d with awaiting := 0 } : Recorder) = d :=
    congrArg (Recorder.mk d.policy d.log) ready.symm
  show take { d with awaiting := 1 } b = _
  unfold take
  rw [if_pos rfl, done]

theorem take_more (d : Recorder) (n : Nat) (b : UInt8) :
    Device.take { d with awaiting := n + 2 } b = ({ d with awaiting := n + 1 }, .now []) := by
  show take { d with awaiting := n + 2 } b = _
  unfold take
  rw [if_neg (show n + 2 ≠ 1 by omega)]
  rfl

/-- The bytes of an upload are taken one after another, and then the device awaits a command again.
    What it says then is the verdict of its policy on the record so far. -/
theorem absorbAll_awaiting {data : Bytes} {l : Link Recorder} (ready : d.awaiting = 0)
    (some : data ≠ []) (h : l.device = { d with awaiting := data.length }) :
    l.absorbAll data = { l with
      device := d
      queued := l.queued ++ (d.policy.stored d.log).bytes } := by
  -- on the bytes that are to come
  induction data generalizing l with
  | nil => exact absurd rfl some
  | cons b data ih =>
    have raw : Device.takesRaw l.device = true := by
      rw [h]
      rfl
    have taken : l.absorb b = l.take b := by
      unfold Link.absorb
      rw [if_pos raw]
    rw [Link.absorbAll_cons, taken]
    unfold Link.take
    cases data with
    | nil =>
      rw [h, List.length_singleton, take_last ready]
      rfl
    | cons c data =>
      let l' : Link Recorder := { l with device := { d with awaiting := data.length + 1 } }
      have kept : ({ l with device := l'.device }).receive (.now []) = l' := by
        simp [Link.receive, Reply.now, l']
      rw [h, List.length_cons, List.length_cons, take_more]
      show (({ l with device := l'.device }).receive (.now [])).absorbAll (c :: data) = _
      rw [kept, ih (List.cons_ne_nil c data) rfl]

end Recorder

/-! ## Between two commands -/

open Engine Recorder

/-- The end of a line, or a prompt that is left at the beginning of the next one. -/
def Between (X : Bytes) : Prop := LineEnd X ∨ ∃ Y, LineEnd Y ∧ X = Y ++ Utf8.encode ">"

theorem encode_gt : Utf8.encode ">" = [0x3E] := by decide

/-- A prompt does not go on from a prompt, as it is only one byte. -/
theorem apart_prompt : Apart (Utf8.encode ">") (Utf8.encode ">") := by
  rw [encode_gt]
  exact .concat (by decide) []

theorem apart_inQuotes (slot : String) : Apart (Utf8.encode (inQuotes slot)) (Utf8.encode ">") := by
  intro q rest e _ s
  rw [encode_gt, List.suffix_cons_iff] at s
  rw [encode_inQuotes] at e
  rcases s with rfl | s
  · exact absurd (List.cons.inj e).1 (by decide)
  · exact List.suffix_nil.mp s

namespace Between

variable {X : Bytes}

/-- What has no line feed inside and does not go on from a prompt is looked for afresh. -/
theorem apart {p : Bytes} (h : Between X) (inLine : Ascii.lf ∉ p.dropLast)
    (prompt : Apart p (Utf8.encode ">")) : Apart p X := by
  rcases h with ends | ⟨Y, ends, rfl⟩
  · exact ends.apart inLine
  · exact (ends.apart inLine).append prompt

/-- At rest between two commands nothing has begun that a command looks for. -/
theorem settled (h : Between X) : Settled X := by
  rcases h with ends | ⟨Y, -, rfl⟩
  · exact settled_of_lineEnd ends
  · rw [encode_gt]
    exact .concat (by decide) Y

/-- Where the prompt is looked for, neither it nor a terminator has begun. -/
theorem apart_gt (h : Between X) : ∀ c ∈ candidates [Utf8.encode ">"] true true, Apart c.1 X :=
  List.forall_mem_cons.mpr ⟨h.apart (by decide) apart_prompt, h.settled⟩

/-- Where a name is looked for, nothing has begun either. -/
theorem apart_sought {slot : String} (h : Between X) (fine : quotable slot = true) :
    ∀ c ∈ CertStore.sought slot, Apart c.1 X := by
  have inLine := CertStore.lf_not_mem_dropLast_sought fine _ List.mem_cons_self
  exact List.forall_mem_cons.mpr ⟨h.apart inLine (apart_inQuotes slot), h.settled⟩

end Between

/-- A device that awaits a command, and an engine that has read all that it has said.  It is the
    invariant of a run of calls: each begins and ends with the device awaiting a command. -/
def Ready (n : Nat) (d : Recorder) (e : Engine Recorder) : Prop :=
  d.awaiting = 0 ∧ ∃ X, Between X ∧ Calm n d X [] e

namespace Verdict

/-- What a device says is an answer, if it says anything. -/
theorem complete {v : Verdict} (spoken : v ≠ .nothing) : Complete (v.bytes, v.outcome) := by
  cases v with
  | ok => exact (by decide : Complete (CertStore.okAnswer, .success))
  | error => exact (by decide : Complete (CertStore.errorAnswer, .failure))
  | nothing => exact absurd rfl spoken

/-- What a single pattern is looked for in vain in is heard to its end. -/
theorem firstReply_one {v : Verdict} (spoken : v ≠ .nothing) {n : Nat} (room : 7 ≤ n) {p X : Bytes}
    (apart : ∀ c ∈ candidates [p] true true, Apart c.1 X) (absent : ¬p <:+: v.bytes) :
    firstReply (reply n (candidates [p] true true)) X v.bytes = some (v.outcome, []) := by
  have same : firstReply (reply n (candidates [p] true true)) [] v.bytes =
      firstReply (reply n terminators) [] v.bytes :=
    firstReply_congr fun q before _ => reply_one_of_not fun _ s =>
      absent (s.isInfix.trans before.isInfix)
  rw [firstReply_of_apart fun c hc _ => apart c hc, same]
  exact (complete spoken).heard room fun _ _ => .nil _

/-- A wait comes to what was said, and then there is nothing left to read; a device that says
    nothing has it time out. -/
theorem wait {v : Verdict} {n : Nat} {d : Recorder} {e : Engine Recorder} {X : Bytes}
    {patterns : List Bytes} (ready : d.awaiting = 0) (between : Between X) (h : Calm n d X v.bytes e)
    (first : v ≠ .nothing →
      firstReply (reply n (candidates patterns true true)) X v.bytes = some (v.outcome, []))
    (timeout : Nat) :
    ∃ f, e.wait patterns timeout true true = (v.outcome, f) ∧ Ready n d f := by
  by_cases silent : v = .nothing
  · subst silent
    obtain ⟨f, w, calm⟩ := h.wait_nothing patterns timeout true true
    exact ⟨f, w, ready, X, between, calm⟩
  · have calm : Calm n d X (v.bytes ++ []) e := by rwa [List.append_nil]
    obtain ⟨f, w, calm⟩ := calm.wait (first silent) timeout
    exact ⟨f, w, ready, _, .inl ((complete silent).lineEnd X), calm⟩

end Verdict

section

variable {n : Nat} {d : Recorder} {e : Engine Recorder} {line : String}

namespace Ready

/-- An engine at rest on a link to a device that awaits no data is ready. -/
theorem ofIdle (h : Idle n e) (ready : e.stream.link.device.awaiting = 0) :
    Ready n e.stream.link.device e := by
  obtain ⟨X, ends, calm⟩ := AtRest.ofIdle h
  exact ⟨ready, X, .inl ends, calm⟩

/-- A device that is ready takes what is written for a line. -/
theorem takesLines (h : Ready n d e) : Device.takesRaw d = false := by
  show (d.awaiting != 0) = false
  rw [h.1]
  rfl

/-- The device that is meant is the one on the link. -/
theorem device (h : Ready n d e) : e.stream.link.device = d := by
  obtain ⟨-, X, -, calm⟩ := h
  exact calm.device

/-- A line that is sent, and the answer that is then there to be read, and only that. -/
theorem send {d' : Recorder} {answer : Bytes} (h : Ready n d e) (oneLine : OneLine line)
    (answers : Device.answer d (Utf8.encode line) = (d', .now answer)) :
    ∃ f X, Engine.send line e = .ok () f ∧ Between X ∧ Calm n d' X answer f := by
  have lines := h.takesLines
  obtain ⟨-, X, between, calm⟩ := h
  obtain ⟨f, sent, calm⟩ := calm.send lines oneLine answers
  exact ⟨f, X, sent, between, calm⟩

/-- A command reports what the device has decided, and the two are ready again. -/
theorem command (room : 7 ≤ n) (h : Ready n d e) (oneLine : OneLine line)
    (plain : Plain d line) (timeout : Nat) :
    ∃ f, Engine.command line timeout e = ofResult (d.said line).outcome.expectSuccess f ∧
      Ready n (d.tell line) f := by
  obtain ⟨f, X, sent, between, calm⟩ := h.send oneLine (answer_plain plain)
  obtain ⟨g, w, rest⟩ := Verdict.wait (d := d.tell line) h.1 between calm
    (fun spoken => (Verdict.complete spoken).heard room between.settled) timeout
  exact ⟨g, (bind_of_ok sent).trans (bind_of_ok (await_of_wait w)), rest⟩

end Ready

/-! ## The certificate store -/

/-- A command of the certificate store, told by how it begins. -/
def OfStore (line : String) : Prop := "AT+CCERT".toList <+: line.toList

instance (line : String) : Decidable (OfStore line) := inferInstanceAs (Decidable (_ <+: _))

theorem OfStore.append {head : String} (h : OfStore head) (rest : String) : OfStore (head ++ rest) := by
  show _ <+: (head ++ rest).toList
  rw [String.toList_append]
  exact h.trans (List.prefix_append _ _)

/-- If the device was ready it is so again, and all that it was told meanwhile is of the store.  The
    record is only added to, so two such operations behind one another are one. -/
def KeepsReady (n : Nat) (e f : Engine Recorder) : Prop :=
  ∀ d, Ready n d e → ∃ more : List Told, (∀ t ∈ more, OfStore t.line) ∧
    Ready n { d with log := d.log ++ more } f

namespace KeepsReady

theorem refl (n : Nat) (e : Engine Recorder) : KeepsReady n e e := by
  intro d h
  refine ⟨[], fun t ht => (nomatch ht), ?_⟩
  rwa [List.append_nil]

theorem trans {n : Nat} (e f g : Engine Recorder) (h : KeepsReady n e f) (k : KeepsReady n f g) :
    KeepsReady n e g := by
  intro d ready
  obtain ⟨told, ofStore, ready⟩ := h d ready
  obtain ⟨later, ofStore', ready⟩ := k _ ready
  refine ⟨told ++ later, List.forall_mem_append.mpr ⟨ofStore, ofStore'⟩, ?_⟩
  rwa [← List.append_assoc]

/-- A device that was told one command of the store and is ready again. -/
theorem told {f : Engine Recorder} (store : OfStore line)
    (h : ∀ d, Ready n d e → Ready n (d.tell line) f) : KeepsReady n e f := by
  intro d ready
  exact ⟨[⟨line, d.said line⟩], List.forall_mem_singleton.mpr store, h d ready⟩

/-- Both parts of a computation keep the two ready, so the whole does; also where the first part
    fails. -/
theorem bind {α β ε : Type} {x : EStateM ε (Engine Recorder) α} {f : α → EStateM ε (Engine Recorder) β}
    (hx : Along (KeepsReady n) x) (hf : ∀ a, Along (KeepsReady n) (f a)) :
    Along (KeepsReady n) (x >>= f) :=
  Along.bind trans hx hf

/-- A check of a slot's name comes before the commands that use it, so these may rely on it.  A name
    that is refused never reaches the device, and then its record is as it was. -/
theorem checked {α : Type} {slot : String} {x : ClientM Recorder α}
    (h : quotable slot = true → Along (KeepsReady n) x) :
    Along (KeepsReady n) (Ssl.checkSlot slot >>= fun _ => x) := by
  intro e
  have looked := checks_slot (σ := Recorder) slot e
  cases fault : QuotingMethod.slotFault slot with
  | none =>
    rw [fault] at looked
    rw [bind_of_ok looked]
    exact h (quotable_of_slotFault fault) e
  | some why =>
    rw [fault] at looked
    rw [bind_of_error looked]
    exact refl n e

end KeepsReady

theorem endState_ofResult {σ α : Type} (r : Except AtError α) (e : Engine σ) :
    endState (ofResult r e) = e := by
  cases r <;> rfl

variable {slot : String}

/-- Whatever the device says to it, a removal leaves nothing to read. -/
theorem keepsReady_certDelete (room : 7 ≤ n) (slot : String) :
    Along (KeepsReady n) (Ssl.certDelete slot : ClientM Recorder Unit) := by
  refine .checked fun fine => ClientM.along_ofEngine fun e => ?_
  let line := s!"AT+CCERTDELE={inQuotes slot}"
  have oneLine : OneLine line := .append (s := "AT+CCERTDELE=") (by decide) (.inQuotes fine)
  have unlisted : line ≠ "AT+CCERTLIST" := CertStore.append_ne_of_isPrefixOf? (by decide) (inQuotes slot)
  have moves : announced line = 0 := by
    have other : "AT+CCERTDOWN=".toList.isPrefixOf? ("AT+CCERTDELE=" ++ inQuotes slot).toList = none :=
      CertStore.isPrefixOf?_eq_none (by decide) (by decide) (inQuotes slot)
    exact congrArg (Option.elim · 0 _) other
  have store : OfStore line := .append (by decide : OfStore "AT+CCERTDELE=") _
  refine .told store fun d ready => ?_
  obtain ⟨f, ran, ready⟩ := ready.command room oneLine (.of_ne d unlisted moves) Ssl.storeTimeout
  rw [ran, endState_ofResult]
  exact ready

/-- There is no quote in any verdict, so no name is found in one. -/
theorem quote_not_mem_verdict (v : Verdict) : quote ∉ v.bytes := by
  cases v with
  | ok => decide
  | error => decide
  | nothing => decide

/-- What was said in place of a listing is heard, and nothing else. -/
theorem endState_searchListing_of_wait {v : Verdict} {f g : Engine Recorder}
    (w : f.wait [Utf8.encode (inQuotes slot)] Ssl.storeTimeout true true = (v.outcome, g)) :
    endState (searchListing slot f) = g := by
  have heard := await_of_wait w
  cases v with
  | ok => exact congrArg endState (bind_of_ok heard)
  | error => exact congrArg endState (bind_of_ok heard)
  | nothing => exact congrArg endState (bind_of_ok heard)

/-- The listing is gone through to its end, whether the name is found in it or not.  Any policy may
    refuse the listing or have nothing to list, which are the other two cases. -/
theorem keepsReady_certExists (room : 7 ≤ n) (slot : String) :
    Along (KeepsReady n) (Ssl.certExists slot : ClientM Recorder Bool) := by
  refine .checked fun fine => ClientM.along_ofEngine fun e =>
    .told (by decide : OfStore "AT+CCERTLIST") fun d h => ?_
  show Ready n _ (endState ((send "AT+CCERTLIST" >>= fun _ => searchListing slot) e))
  by_cases listed : d.said "AT+CCERTLIST" = .ok ∧ d.policy.names d.log ≠ []
  -- the store is listed, and the search goes through the names
  · obtain ⟨f, X, sent, between, calm⟩ := h.send (by decide) (answer_list listed.1 listed.2)
    obtain ⟨g, Y, ends, calm, searched⟩ :=
      calm.searchListing room fine (d.policy.quotable d.log) (between.apart_sought fine)
    rw [bind_of_ok sent, searched]
    exact ⟨h.1, Y, .inl ends, calm⟩
  -- there is nothing to list, or the command is refused: a verdict is all that comes
  · have plain : Plain d "AT+CCERTLIST" := by
      constructor
      · intro agreed _
        by_contra some
        exact listed ⟨agreed, some⟩
      · intro _ some
        exact absurd rfl some
    have unquoted : ¬Utf8.encode (inQuotes slot) <:+: (d.said "AT+CCERTLIST").bytes := by
      intro part
      rw [encode_inQuotes] at part
      exact quote_not_mem_verdict _ (part.subset List.mem_cons_self)
    obtain ⟨f, X, sent, between, calm⟩ := h.send (by decide) (answer_plain plain)
    obtain ⟨g, w, rest⟩ := Verdict.wait (d := d.tell "AT+CCERTLIST") h.1 between calm
      (fun spoken => Verdict.firstReply_one spoken room (between.apart_sought fine) unquoted)
      Ssl.storeTimeout
    rw [bind_of_ok sent, endState_searchListing_of_wait w]
    exact rest

/-- The line of an upload, taken apart where its length stands. -/
theorem store_eq (slot : String) (size : Nat) :
    s!"AT+CCERTDOWN={inQuotes slot},{size}" =
      "AT+CCERTDOWN=" ++ (inQuotes slot ++ "," ++ toString size) := by
  rw [← String.append_assoc, ← String.append_assoc]
  rfl

/-- A line that announces an upload announces its bytes. -/
theorem announced_store (h : quotable slot = true) (size : Nat) :
    announced s!"AT+CCERTDOWN={inQuotes slot},{size}" = size := by
  have apart : parameters s!"AT+CCERTDOWN={inQuotes slot},{size}" = [inQuotes slot, toString size] :=
    parameters_two "AT+CCERTDOWN=" (by decide) (.inQuotes (unquoted_of_quotable h)) (.toString size)
  have number : Nat.ofDigitChars 10 (toString size).toList 0 = size := by
    rw [Nat.toString_eq_ofList_toDigits, String.toList_ofList]
    exact Nat.ofDigitChars_ten_toDigits
  unfold announced
  rw [apart, store_eq, CertStore.isPrefixOf?_toList_append]
  exact number

theorem gt_not_mem_verdict (v : Verdict) : ¬Utf8.encode ">" <:+: v.bytes := by
  cases v with
  | ok => decide
  | error => decide
  | nothing => decide

section

variable {data : Bytes} {timeout : Nat}

open Ssl (plainUpload)

/-- Anything but the prompt ends an upload before its bytes are written. -/
theorem endState_upload_of_wait {v : Verdict} {f g : Engine Recorder} (sent : send line e = .ok () f)
    (w : f.wait [Utf8.encode ">"] timeout true true = (v.outcome, g)) :
    endState (upload (plainUpload line data timeout) e) = g := by
  have heard := await_of_wait w
  obtain ⟨err, refused⟩ : ∃ err, awaitPrompt (plainUpload line data timeout) f = .error err g := by
    cases v with
    | ok => exact ⟨_, bind_of_ok heard⟩
    | error => exact ⟨_, bind_of_ok heard⟩
    | nothing => exact ⟨_, bind_of_ok heard⟩
  have ended : upload (plainUpload line data timeout) e = .error err g :=
    (bind_of_ok sent).trans (bind_of_error refused)
  rw [ended]
  rfl

/-- An upload that was prompted for has its bytes taken and its verdict heard, whatever that is. -/
theorem Ready.upload_of_prompt (room : 7 ≤ n) (h : Ready n d e) (oneLine : OneLine line)
    (unlisted : line ≠ "AT+CCERTLIST") (size : announced line = data.length)
    (agreed : d.said line = .ok) (some : data ≠ []) (prompts : d.policy.prompts d.log = true) :
    Ready n (d.tell line) (endState (upload (plainUpload line data timeout) e)) := by
  have moves : announced line ≠ 0 := by
    rw [size]
    exact (List.length_pos_of_ne_nil some).ne'
  have taken : ∀ l : Link Recorder,
      l.device = { d.tell line with awaiting := announced line } →
        l.absorbAll data = { l with
          device := d.tell line
          queued := l.queued ++ (d.policy.stored (d.tell line).log).bytes } := by
    -- the bytes that are sent are as many as the device waits for
    intro l hl
    rw [size] at hl
    exact absorbAll_awaiting h.1 some hl
  obtain ⟨f, X, sent, between, calm⟩ := h.send oneLine (answer_announce agreed unlisted moves prompts)
  obtain ⟨g, moved, calm⟩ := Ssl.upload_of_prompt room between.apart_gt sent calm taken timeout
  have behind : Between (X ++ (crlf ++ Utf8.encode ">")) := by
    rw [← List.append_assoc]
    exact .inr ⟨X ++ crlf, .append_lf X [Ascii.cr], rfl⟩
  -- the second answer is behind the prompt
  obtain ⟨i, w, rest⟩ := Verdict.wait (d := d.tell line) h.1 behind calm
    (fun spoken => (Verdict.complete spoken).heard room behind.settled) g.defaultTimeout
  have confirmed : waitOk g.defaultTimeout g = ofResult _ i := bind_of_ok (await_of_wait w)
  rw [moved, confirmed, endState_ofResult]
  exact rest

/-- However an upload ends, the device has taken all the bytes that it has prompted for.  Without a
    prompt it takes none, and answers like any other command. -/
theorem Ready.upload (room : 7 ≤ n) (h : Ready n d e) (oneLine : OneLine line)
    (unlisted : line ≠ "AT+CCERTLIST") (size : announced line = data.length) :
    Ready n (d.tell line) (endState (Engine.upload (plainUpload line data timeout) e)) := by
  by_cases prompted : d.said line = .ok ∧ data ≠ [] ∧ d.policy.prompts d.log = true
  · obtain ⟨agreed, some, prompts⟩ := prompted
    -- without a prompt the command has a plain answer
    exact h.upload_of_prompt room oneLine unlisted size agreed some prompts
  have alone : Plain d line := by
    constructor
    · intro _ list
      exact absurd list unlisted
    · intro agreed moves
      rw [size] at moves
      rw [← Bool.not_eq_true]
      intro prompts
      exact prompted ⟨agreed, List.ne_nil_of_length_pos (Nat.pos_of_ne_zero moves), prompts⟩
  obtain ⟨f, X, sent, between, calm⟩ := h.send oneLine (answer_plain alone)
  obtain ⟨g, w, rest⟩ := Verdict.wait (d := d.tell line) h.1 between calm
    (fun spoken => Verdict.firstReply_one spoken room between.apart_gt (gt_not_mem_verdict _)) timeout
  rw [endState_upload_of_wait sent w]
  exact rest

end

/-- Prompted for or not, confirmed or not, an upload leaves nothing to read.  The announced length
    is that of the data, and so the device never waits for more. -/
theorem keepsReady_certDownload (room : 7 ≤ n) (data : Bytes) (slot : String) :
    Along (KeepsReady n) (Ssl.certDownload data slot : ClientM Recorder Unit) := by
  refine .checked fun fine => ?_
  let line := s!"AT+CCERTDOWN={inQuotes slot},{data.length}"
  show Along (KeepsReady n) (ClientM.ofEngine (upload (Ssl.plainUpload line data Ssl.storeTimeout)))
  have text : line = "AT+CCERTDOWN=" ++ _ := store_eq slot data.length
  have clean : AtModem.Clean line [slot] :=
    QuotingMethod.clean_storing fine data (.line line [slot]) List.mem_cons_self
  have unlisted : line ≠ "AT+CCERTLIST" := by
    rw [text]
    exact CertStore.append_ne_of_isPrefixOf? (by decide) _
  have store : OfStore line := by
    rw [text]
    exact .append (by decide) _
  refine ClientM.along_ofEngine fun e => .told store fun d h => ?_
  exact h.upload room clean.unbroken.2 unlisted (announced_store fine data.length)

/-- Whatever becomes of it, an overwriting of a slot leaves nothing to read; each of its exchanges
    does. -/
theorem keepsReady_certOverwrite (room : 7 ≤ n) (data : Bytes) (slot : String) :
    Along (KeepsReady n) (Ssl.certOverwrite data slot : ClientM Recorder Unit) := by
  refine KeepsReady.bind (keepsReady_certExists room slot) fun found => ?_
  split
  · exact KeepsReady.bind (keepsReady_certDelete room slot) fun _ =>
      keepsReady_certDownload room data slot
  · exact keepsReady_certDownload room data slot

end

end AtModem
