/-
  Uploads.

  An upload writes its command line, waits for the prompt, and writes its data only if the prompt is
  what came; then it waits for the confirmation.  All waits only listen, so what an upload has written
  is the line, or the line and the whole of the data, and nothing else, whatever reports come in
  between (`upload_of_refused`, `upload_of_prompted`).

  A result line may stand in place of the prompt, and another one may be the confirmation.  Which code such
  a line has, and whether it can be read at all, is said of the bytes that come behind its tag and of their
  times (`GivenUp`, `Confirmed`), so that neither depends on how the line is read.

  Nine operations of the library upload something.  Each of them refuses its arguments or comes to one
  upload (`UploadCall.request`), whose command line announces the number of bytes of its data.
-/
import AtModem.Http.Commands
import AtModem.Link.Script
import AtModem.Mqtt.Commands
import AtModem.Proofs.Calm
import AtModem.Proofs.CertStore
import AtModem.Proofs.CodeLine
import AtModem.Proofs.Exchange.Services
import AtModem.Proofs.Parameters

namespace AtModem

open Engine ClientM

variable {σ : Type}

/-! ## What uploads -/

/-- The operations that upload something, with their arguments. -/
inductive UploadCall where
  | plain (u : Upload)
  | certificate (bytes : Bytes) (slot : String)
  | topic (client : ClientIndex) (text : String)
  | payload (client : ClientIndex) (bytes : Bytes)
  | willTopic (client : ClientIndex) (text : String)
  | willMessage (client : ClientIndex) (text : String) (qos : Nat)
  | subscription (client : ClientIndex) (text : String) (qos : Nat)
  | socketData (session : SessionId) (bytes : Bytes)
  | requestBody (bytes : Bytes) (timeoutSecs : Nat)

namespace UploadCall

/-- The operation that the call stands for. -/
def run [Device σ] : UploadCall → ClientM σ Unit
  | plain u => ofEngine (upload u)
  | certificate bytes slot => Ssl.certDownload bytes slot
  | topic client text => Mqtt.setTopic client text
  | payload client bytes => Mqtt.setPayload client bytes
  | willTopic client text => Mqtt.setWillTopic client text
  | willMessage client text qos => Mqtt.setWillMessage client text qos
  | subscription client text qos => Mqtt.subscribe client text qos
  | socketData session bytes => Ssl.sendData session bytes
  | requestBody bytes timeoutSecs => Http.data bytes timeoutSecs

/-- The bytes that are to be uploaded; of a text, those of its encoding, not its characters. -/
def data : UploadCall → Bytes
  | plain u => u.data
  | certificate bytes _ => bytes
  | topic _ text => Utf8.encode text
  | payload _ bytes => bytes
  | willTopic _ text => Utf8.encode text
  | willMessage _ text _ => Utf8.encode text
  | subscription _ text _ => Utf8.encode text
  | socketData _ bytes => bytes
  | requestBody bytes _ => bytes

/-- The place of the announced count among the parameters of the command line; an upload of one's
    own has whatever line it is given. -/
def countAt : UploadCall → Option Nat
  | plain _ => none
  | requestBody .. => some 0
  | _ => some 1

/-- An upload under a tag, unless there is nothing to upload; the tag opens what may come in place
    of the prompt, and what confirms.  All uploads of a client are of this form, and differ in the
    tag and in the command only. -/
def under (tag command : String) (data : Bytes) : Except ArgumentFault Upload :=
  if data.isEmpty then .error (.emptyData command)
  else .ok { command, data, inlineError := some (Utf8.encode tag) }

/-- What is uploaded, or why not: what each operation makes of its arguments before anything is
    written. -/
def request : UploadCall → Except ArgumentFault Upload
  | plain u => .ok u
  | certificate data slot =>
    if slot.isEmpty || !quotable slot then .error (.slotName slot)
    else .ok
      { command := s!"AT+CCERTDOWN={inQuotes slot},{data.length}"
        data
        promptTimeout := Ssl.storeTimeout }
  | topic client text =>
    let data := Utf8.encode text
    under "+CMQTTTOPIC: " s!"AT+CMQTTTOPIC={client},{data.length}" data
  | payload client data => under "+CMQTTPAYLOAD: " s!"AT+CMQTTPAYLOAD={client},{data.length}" data
  | willTopic client text =>
    let data := Utf8.encode text
    under "+CMQTTWILLTOPIC: " s!"AT+CMQTTWILLTOPIC={client},{data.length}" data
  | willMessage client text qos =>
    let data := Utf8.encode text
    under "+CMQTTWILLMSG: " s!"AT+CMQTTWILLMSG={client},{data.length},{qos}" data
  | subscription client text qos =>
    let data := Utf8.encode text
    let tag := Utf8.encode "+CMQTTSUB: "
    if text.isEmpty then .error .emptyTopic
    else .ok
      { command := s!"AT+CMQTTSUB={client},{data.length},{qos}"
        data
        inlineError := some tag
        confirm := .resultCode tag
        confirmTimeout := some Mqtt.commandTimeout }
  | socketData session data =>
    if data.isEmpty then .error (.emptyData "AT+CCHSEND")
    else .ok { command := s!"AT+CCHSEND={session},{data.length}", data }
  | requestBody data timeoutSecs =>
    .ok
      { command := s!"AT+HTTPDATA={data.length},{timeoutSecs}"
        data
        prompt := Utf8.encode "DOWNLOAD"
        promptTimeout := 10000
        confirmTimeout := some (timeoutSecs * 1000 + 1000) }

variable [Device σ]

/-- Either the arguments are refused or the upload is done. -/
def ofRequest : Except ArgumentFault Upload → ClientM σ Unit
  | .error fault => refuse fault
  | .ok u => ofEngine (upload u)

/-- The uploads under a tag differ in their command lines and in nothing else. -/
theorem uploadUnder_eq (tag command : String) (data : Bytes) :
    Mqtt.uploadUnder (σ := σ) tag command data = ofRequest (under tag command data) := by
  unfold Mqtt.uploadUnder under
  split <;> rfl

/-- Each operation refuses its arguments, or it is the upload that they come to.  So the operations
    need no case of their own in anything that follows. -/
theorem run_eq (call : UploadCall) : call.run (σ := σ) = ofRequest call.request := by
  cases call with
  | plain u => rfl
  | certificate bytes slot =>
    simp only [run, request, Ssl.certDownload, Ssl.checkSlot]
    split <;> rfl
  | topic client text => exact uploadUnder_eq _ _ _
  | payload client bytes => exact uploadUnder_eq _ _ _
  | willTopic client text => exact uploadUnder_eq _ _ _
  | willMessage client text qos => exact uploadUnder_eq _ _ _
  | subscription client text qos =>
    simp only [run, request, Mqtt.subscribe]
    split <;> rfl
  | socketData session bytes =>
    simp only [run, request, Ssl.sendData]
    split <;> rfl
  | requestBody bytes timeoutSecs => rfl

omit [Device σ]

/-! ## What is announced -/

/-- An upload under a tag has the command line and the data that it was given. -/
theorem eq_of_under {tag command : String} {data : Bytes} {u : Upload}
    (h : under tag command data = .ok u) : u.command = command ∧ u.data = data := by
  unfold under at h
  split at h
  · cases h
  · cases h
    exact ⟨rfl, rfl⟩

/-- The upload that a call comes to has the call's own data. -/
theorem data_of_request {call : UploadCall} {u : Upload} (h : call.request = .ok u) :
    u.data = call.data := by
  cases call with
  | plain u => cases h; rfl
  | topic client text => exact (eq_of_under h).2
  | payload client bytes => exact (eq_of_under h).2
  | willTopic client text => exact (eq_of_under h).2
  | willMessage client text qos => exact (eq_of_under h).2
  | requestBody bytes timeoutSecs => cases h; rfl
  | certificate bytes slot => simp only [request] at h; split at h <;> cases h; rfl
  | subscription client text qos => simp only [request] at h; split at h <;> cases h; rfl
  | socketData session bytes => simp only [request] at h; split at h <;> cases h; rfl

/-- If the number of bytes stands in the command line, it is announced there. -/
theorem announced_under {tag command : String} {data : Bytes} {u : Upload} {i : Nat}
    (h : under tag command data = .ok u)
    (counted : (parameters command)[i]? = some (toString data.length)) :
    (parameters u.command)[i]? = some (toString u.data.length) := by
  obtain ⟨rfl, rfl⟩ := eq_of_under h
  exact counted

/-- The count in the command line is the number of bytes that are to follow.  It is read from the
    line as a device would read it, by taking its parameters apart. -/
theorem announced {call : UploadCall} {u : Upload} (h : call.request = .ok u) {i : Nat}
    (hi : call.countAt = some i) : (parameters u.command)[i]? = some (toString u.data.length) := by
  cases call with
  -- one that is free in its text announces no count
  | plain u => cases hi
  -- the name of the slot has no quote in it, so the count is the second parameter
  | certificate bytes slot =>
    cases hi
    simp only [request] at h
    split at h
    · cases h
    · rename_i valid
      have unquoted : '"' ∉ slot.toList := by
        intro quote
        have quotable : quotable slot = true := by simp_all
        exact (quotable_iff.mp quotable _ quote).1 rfl
      cases h
      exact congrArg (·[1]?) (parameters_two "AT+CCERTDOWN=" (by decide)
        (.inQuotes unquoted) (.toString bytes.length))
  -- the others have a number before the count
  | topic client text =>
    cases hi
    exact announced_under h (congrArg (·[1]?) (parameters_two "AT+CMQTTTOPIC=" (by decide)
      (.toString client.toNat) (.toString _)))
  | payload client bytes =>
    cases hi
    exact announced_under h (congrArg (·[1]?) (parameters_two "AT+CMQTTPAYLOAD="
      (by decide) (.toString client.toNat) (.toString _)))
  | willTopic client text =>
    cases hi
    exact announced_under h (congrArg (·[1]?) (parameters_two "AT+CMQTTWILLTOPIC="
      (by decide) (.toString client.toNat) (.toString _)))
  | willMessage client text qos =>
    cases hi
    exact announced_under h (congrArg (·[1]?) (parameters_three "AT+CMQTTWILLMSG="
      (by decide) (.toString client.toNat) (.toString _) (.toString qos)))
  | subscription client text qos =>
    cases hi
    simp only [request] at h
    split at h
    · cases h
    · cases h
      exact congrArg (·[1]?) (parameters_three "AT+CMQTTSUB=" (by decide)
        (.toString client.toNat) (.toString _) (.toString qos))
  | socketData session bytes =>
    cases hi
    simp only [request] at h
    split at h
    · cases h
    · cases h
      exact congrArg (·[1]?) (parameters_two "AT+CCHSEND=" (by decide)
        (.toString session.toNat) (.toString bytes.length))
  | requestBody bytes timeoutSecs =>
    cases hi
    cases h
    exact congrArg (·[0]?) (parameters_two "AT+HTTPDATA=" (by decide)
      (.toString bytes.length) (.toString timeoutSecs))

end UploadCall
/-! ## What is written -/

namespace Engine

variable [Device σ]

/-- The wait for the prompt, once the command line has been written.  Everything that follows
    depends on its outcome, so it has a name here. -/
def prompted (u : Upload) (e : Engine σ) : MatchOutcome × Engine σ :=
  (endState (send u.command e)).wait (u.prompt :: u.inlineError.toList) u.promptTimeout true true

/-- The engine when the prompt has come and the data has been written.  From here on the device has
    all that it was promised, and what is left is its verdict. -/
def offered (u : Upload) (e : Engine σ) : Engine σ := endState (print u.data (prompted u e).2)

/-- What has gone toward the device before the prompt is the command line. -/
theorem wrote_prompted (u : Upload) {e : Engine σ} (works : e.stream.link.failWrites = false) :
    Wrote (Utf8.encode u.command ++ [Ascii.cr, Ascii.lf]) e (prompted u e).2 :=
  (send_of_working works u.command).2.listened (keptByListening_farEnd.waitUntil _ _ _)

/-- What becomes of an upload when the wait for its prompt has ended otherwise.  If a result line stands in
    place of the prompt, its code is read from the stream as the wait has left it. -/
def refusal (u : Upload) : MatchOutcome × Engine σ → AtError
  | (.failure, _) => .deviceReportedFailure
  | (.pattern _, f) =>
    match indexedCode f with
    | .error err _ => err
    | .ok code _ =>
      match checkCode code with
      | .error err => err
      | .ok () => unmoved u
  | (_, _) => unmoved u

omit [Device σ] in
/-- Reading what came in place of the prompt ends in the error that the line says. -/
theorem readRefusal_eq (u : Upload) (i : Nat) (f : Engine σ) :
    ∃ g, readRefusal u f = .error (refusal u (.pattern i, f)) g := by
  cases h : indexedCode f with
  | error err g => exact ⟨g, (bind_of_error h).trans (by simp only [refusal, h])⟩
  | ok code g =>
    let cleared := endState (plainClear g)
    have clear : plainClear g = .ok () cleared := rfl
    refine ⟨cleared, (bind_of_ok h).trans ((bind_of_ok clear).trans ?_)⟩
    simp only [refusal, h]
    cases checkCode code with
    | error err => rfl
    | ok _ => rfl

omit [Device σ] in
/-- If it is not the prompt that comes, that is an error, and no data is written. -/
theorem awaitPrompt_of_other {u : Upload} {e f : Engine σ} {o : MatchOutcome}
    (w : e.wait (u.prompt :: u.inlineError.toList) u.promptTimeout true true = (o, f))
    (other : o ≠ .pattern 1) : ∃ g, awaitPrompt u e = .error (refusal u (o, f)) g := by
  unfold awaitPrompt
  rw [bind_of_ok (await_of_wait w)]
  match o, other with
  | .pattern 0, _ => exact readRefusal_eq u 0 f
  | .pattern (i + 2), _ => exact readRefusal_eq u (i + 2) f
  | .failure, _ => exact ⟨f, rfl⟩
  | .success, _ => exact ⟨f, rfl⟩
  | .timedOut, _ => exact ⟨f, rfl⟩

omit [Device σ] in
/-- If the prompt comes, the upload goes on from there. -/
theorem awaitPrompt_of_prompt {u : Upload} {e f : Engine σ}
    (w : e.wait (u.prompt :: u.inlineError.toList) u.promptTimeout true true = (.pattern 1, f)) :
    awaitPrompt u e = .ok () f :=
  bind_of_ok (await_of_wait w)

/-- The error with which an upload is given up whose prompt did not come, by how the wait for it
    ended.  If it ended with the tag of a result line, what counts is the line that comes behind the
    tag, and even a zero there means that nothing was moved.  For each way in which the wait can
    have ended there is one error, and no other. -/
inductive GivenUp (u : Upload) : MatchOutcome × Engine σ → AtError → Prop
  | failed (f : Engine σ) : GivenUp u (.failure, f) .deviceReportedFailure
  | answered (f : Engine σ) : GivenUp u (.success, f) (.transferLengthMismatch u.data.length 0)
  | late (f : Engine σ) : GivenUp u (.timedOut, f) (.transferLengthMismatch u.data.length 0)
  | zero {i : Nat} {f : Engine σ} :
      f.stream.HasCode 0 → GivenUp u (.pattern i, f) (.transferLengthMismatch u.data.length 0)
  | code {i : Nat} {f : Engine σ} {k : Int} :
      f.stream.HasCode k → k ≠ 0 → -0x80000000 ≤ k → k < 0x80000000 →
        GivenUp u (.pattern i, f) (.deviceCode k)
  | outOfRange {i : Nat} {f : Engine σ} {k : Int} :
      f.stream.HasCode k → ¬(-0x80000000 ≤ k ∧ k < 0x80000000) →
        GivenUp u (.pattern i, f) (.parse (.codeOutOfRange k))
  | overflow {i : Nat} {f : Engine σ} :
      f.stream.HasGreatCode → GivenUp u (.pattern i, f) (.parse .integerOverflow)
  | unreadable {i : Nat} {f : Engine σ} :
      (∀ k, ¬f.stream.HasCode k) → ¬f.stream.HasGreatCode → GivenUp u (.pattern i, f) .timedOut

theorem checkCode_eq_ok_iff (code : Int) : checkCode code = .ok () ↔ code = 0 := by
  unfold checkCode
  split
  · simp_all
  · split <;> simp_all

omit [Device σ] in
/-- Where a code can be read off the line, the refusal is what that code says; a code of zero stands
    for a transfer of nothing. -/
theorem refusal_of_hasCode {u : Upload} {i : Nat} {f : Engine σ} {k : Int} (line : f.stream.HasCode k) :
    refusal u (.pattern i, f) = match checkCode k with
      | .error err => err
      | .ok () => .transferLengthMismatch u.data.length 0 := by
  obtain ⟨g, read⟩ := indexedCode_eq_ok_iff.mpr line
  simp only [refusal, read]
  rfl

omit [Device σ] in
/-- Each way in which the wait can end leaves one error, which is the one that the upload ends with. -/
theorem refusal_of_givenUp {u : Upload} {p : MatchOutcome × Engine σ} {err : AtError}
    (h : GivenUp u p err) : refusal u p = err := by
  cases h with
  | failed f => rfl
  | answered f => rfl
  | late f => rfl
  | zero line => exact refusal_of_hasCode line
  | @code i f k line nonzero low high =>
    rw [refusal_of_hasCode line, checkCode, if_neg nonzero, if_pos ⟨low, high⟩]
  | @outOfRange i f k line outside =>
    have nonzero : k ≠ 0 := by
      rintro rfl
      exact outside (by decide)
    rw [refusal_of_hasCode line, checkCode, if_neg nonzero, if_neg outside]
  | @overflow i f great =>
    obtain ⟨g, failed⟩ := indexedCode_eq_overflow_iff.mpr great
    simp only [refusal, failed]
  | @unreadable i f none small =>
    cases read : indexedCode f with
    | ok k g => exact absurd (indexedCode_eq_ok_iff.mp ⟨g, read⟩) (none k)
    | error err g =>
      simp only [refusal, read]
      -- an error that is no overflow is a timeout
      exact (indexedCode_eq_error read).resolve_right fun overflow =>
        small (indexedCode_eq_overflow_iff.mp ⟨g, overflow ▸ read⟩)

omit [Device σ] in
/-- An upload without its prompt is given up for some reason.  With the lemma before, it is one and
    only one. -/
theorem exists_givenUp (u : Upload) (p : MatchOutcome × Engine σ) : ∃ err, GivenUp u p err := by
  obtain ⟨o, f⟩ := p
  cases o with
  | failure => exact ⟨_, .failed f⟩
  | success => exact ⟨_, .answered f⟩
  | timedOut => exact ⟨_, .late f⟩
  | pattern i =>
    by_cases line : ∃ k, f.stream.HasCode k
    · obtain ⟨k, line⟩ := line
      by_cases inside : -0x80000000 ≤ k ∧ k < 0x80000000
      · by_cases zero : k = 0
        · exact ⟨_, .zero (zero ▸ line)⟩
        · exact ⟨_, .code line zero inside.1 inside.2⟩
      · exact ⟨_, .outOfRange line inside⟩
    · by_cases great : f.stream.HasGreatCode
      · exact ⟨_, .overflow great⟩
      · exact ⟨_, .unreadable (not_exists.mp line) great⟩

omit [Device σ] in
/-- And for no other: what the bytes say is what the program reads off them. -/
theorem givenUp_iff (u : Upload) (p : MatchOutcome × Engine σ) (err : AtError) :
    GivenUp u p err ↔ err = refusal u p := by
  constructor
  · intro h
    exact (refusal_of_givenUp h).symm
  · rintro rfl
    obtain ⟨err, h⟩ := exists_givenUp u p
    rwa [refusal_of_givenUp h]

/-- Whether the device confirms what was offered: by the terminator, or by a result line whose bytes can be
    read behind its tag and whose code is zero. -/
def Confirmed (u : Upload) (e : Engine σ) : Prop :=
  let timeout := u.confirmTimeout.getD (offered u e).defaultTimeout
  match u.confirm with
  | .terminator => ((offered u e).wait [] timeout true true).1 = .success
  | .resultCode pattern =>
    ∃ i f, (offered u e).wait [pattern] timeout false true = (.pattern i, f) ∧ f.stream.HasCode 0

omit [Device σ] in
/-- There is no pattern that could be taken for success. -/
theorem waitOk_eq_ok_iff (timeout : Nat) (e : Engine σ) :
    (∃ g, waitOk timeout e = .ok () g) ↔ (e.wait [] timeout true true).1 = .success := by
  have ends := outcome_waitUntil (e.now + timeout) (candidates [] true true) e
  rcases w : e.wait [] timeout true true with ⟨o, f⟩
  rw [show e.waitUntil _ (candidates [] true true) = (o, f) from w] at ends
  have done : waitOk timeout e = ofResult o.expectSuccess f := bind_of_ok (await_of_wait w)
  have found : o = .timedOut ∨ o = .failure ∨ o = .success := by
    simpa [candidates] using ends
  rw [done]
  constructor
  · rintro ⟨g, h⟩
    rcases found with rfl | rfl | rfl
    · cases h
    · cases h
    · rfl
  · intro h
    obtain rfl : o = .success := h
    exact ⟨f, rfl⟩

omit [Device σ] in
/-- A result line is a success just if its code can be read and is zero. -/
theorem indexedCodeLine_eq_ok_iff (e : Engine σ) :
    (∃ g, indexedCodeLine e = .ok () g) ↔ e.stream.HasCode 0 := by
  rw [← indexedCode_eq_ok_iff]
  unfold indexedCodeLine
  cases h : indexedCode e with
  -- the line cannot be read
  | error err g =>
    rw [bind_of_error h]
    constructor
    · rintro ⟨_, read⟩
      cases read
    · rintro ⟨_, zero⟩
      cases zero
  -- the code has been read, and is zero or not
  | ok code g =>
    rw [bind_of_ok h]
    cases c : checkCode code with
    | error err =>
      constructor
      · rintro ⟨_, accepted⟩
        cases accepted
      · rintro ⟨_, zero⟩
        cases zero
        cases c
    | ok _ =>
      obtain rfl := (checkCode_eq_ok_iff code).mp c
      exact ⟨fun _ => ⟨g, rfl⟩, fun _ => ⟨g, rfl⟩⟩

omit [Device σ] in
/-- A wait for a result line succeeds just if the tag is what comes and the code behind it is zero.
    The acknowledgement in between is passed over, as the wait does not look for it. -/
theorem awaitCode_eq_ok_iff (pattern : Bytes) (timeout : Nat) (e : Engine σ) :
    (∃ g, awaitCode pattern timeout e = .ok () g) ↔
      ∃ i f, e.wait [pattern] timeout false true = (.pattern i, f) ∧ f.stream.HasCode 0 := by
  have ends := outcome_waitUntil (e.now + timeout) (candidates [pattern] false true) e
  rcases w : e.wait [pattern] timeout false true with ⟨o, f⟩
  rw [show e.waitUntil _ (candidates [pattern] false true) = (o, f) from w] at ends
  have found : o = .timedOut ∨ o = .pattern 1 ∨ o = .failure := by
    simpa [candidates, maxPatterns] using ends
  unfold awaitCode
  rw [bind_of_ok (await_of_wait w)]
  constructor
  · rintro ⟨g, h⟩
    rcases found with rfl | rfl | rfl
    · cases h
    · exact ⟨1, f, rfl, (indexedCodeLine_eq_ok_iff f).mp ⟨g, h⟩⟩
    · cases h
  · rintro ⟨i, f', h, line⟩
    cases h
    exact (indexedCodeLine_eq_ok_iff f).mpr line

/-- What confirms an upload is said of the bytes, and it is just what the program takes for a
    confirmation. -/
theorem awaitConfirm_eq_ok_iff (u : Upload) (e : Engine σ) :
    (∃ g, awaitConfirm u (offered u e) = .ok () g) ↔ Confirmed u e := by
  have plain : plainTimeout (offered u e) = .ok (offered u e).defaultTimeout (offered u e) := rfl
  unfold Confirmed awaitConfirm
  rw [bind_of_ok plain]
  cases u.confirm with
  | terminator => exact waitOk_eq_ok_iff _ _
  | resultCode pattern => exact awaitCode_eq_ok_iff _ _ _

/-! ## Whole uploads -/

/-- If it is not the prompt that comes, nothing but the command line is written. -/
theorem upload_of_refused {u : Upload} {e : Engine σ} (works : e.stream.link.failWrites = false)
    (other : (prompted u e).1 ≠ .pattern 1) :
    (∃ g, upload u e = .error (refusal u (prompted u e)) g) ∧
      Wrote (Utf8.encode u.command ++ [Ascii.cr, Ascii.lf]) e (endState (upload u e)) := by
  obtain ⟨sent, line⟩ := send_of_working works u.command
  obtain ⟨g, refused⟩ := awaitPrompt_of_other rfl other
  have listened := keptByListening_farEnd.awaitPrompt u (endState (send u.command e))
  rw [refused] at listened
  have whole : upload u e = .error (refusal u (prompted u e)) g :=
    (bind_of_ok sent).trans (bind_of_error refused)
  rw [whole]
  exact ⟨⟨g, rfl⟩, line.listened listened⟩

/-- If the prompt comes, the data is written behind the command line, and the confirmation decides.
    Nothing is written after the data, whichever way the confirmation goes. -/
theorem upload_of_prompted {u : Upload} {e : Engine σ} (works : e.stream.link.failWrites = false)
    (prompt : (prompted u e).1 = .pattern 1) :
    upload u e = awaitConfirm u (offered u e) ∧
      Wrote (Utf8.encode u.command ++ [Ascii.cr, Ascii.lf] ++ u.data) e (endState (upload u e)) := by
  obtain ⟨sent, -⟩ := send_of_working works u.command
  have came : awaitPrompt u (endState (send u.command e)) = .ok () (prompted u e).2 :=
    awaitPrompt_of_prompt (Prod.ext prompt rfl)
  have line := wrote_prompted u works
  obtain ⟨given, data⟩ := print_of_working line.works u.data
  have whole : upload u e = awaitConfirm u (offered u e) :=
    (bind_of_ok sent).trans ((bind_of_ok came).trans (bind_of_ok given))
  have listened := keptByListening_farEnd.awaitConfirm u (offered u e)
  rw [whole]
  exact ⟨rfl, (line.trans data).listened listened⟩

/-- Whatever is uploaded, on a link that works: arguments that are refused write nothing.  Otherwise the
    command line is written, which announces the number of bytes of the data.  If the prompt does not
    come that is all that is written, and the call fails with the one error that `GivenUp` says; if it
    comes, the data is written behind the line, once and as a whole, and the call succeeds just if it is
    confirmed. -/
theorem upload_handshake (call : UploadCall) (e : Engine σ)
    (works : e.stream.link.failWrites = false) :
    (∀ fault, call.request = .error fault → call.run e = .error (.invalidArgument fault) e) ∧
    ∀ u, call.request = .ok u →
      let line := Utf8.encode u.command ++ [Ascii.cr, Ascii.lf]
      let f := endState (call.run e)
      (u.data = call.data ∧
        ∀ i, call.countAt = some i → (parameters u.command)[i]? = some (toString u.data.length)) ∧
      ((prompted u e).1 ≠ .pattern 1 →
        Wrote line e f ∧ ∃ err g, call.run e = .error (.link err) g ∧
          ∀ err', GivenUp u (prompted u e) err' ↔ err' = err) ∧
      ((prompted u e).1 = .pattern 1 →
        Wrote (line ++ u.data) e f ∧ ((∃ g, call.run e = .ok () g) ↔ Confirmed u e)) := by
  rw [call.run_eq]
  -- refused before anything is written
  refine ⟨fun fault h => ?_, fun u h => ?_⟩
  · rw [h]
    rfl
  · intro line f
    have ends : f = endState (upload u e) := by
      show endState (UploadCall.ofRequest call.request e) = _
      rw [h]
      exact endState_ofEngine (upload u) e
    rw [ends, h]
    refine ⟨⟨UploadCall.data_of_request h, fun i hi => UploadCall.announced h hi⟩, ?_, ?_⟩
    -- not prompted for: the command line is all that is written
    · intro other
      obtain ⟨⟨g, refused⟩, wrote⟩ := upload_of_refused works other
      exact ⟨wrote, _, g, ofEngine_of_error refused, givenUp_iff u (prompted u e)⟩
    -- prompted for: the data follows it
    · intro prompt
      obtain ⟨whole, wrote⟩ := upload_of_prompted works prompt
      refine ⟨wrote, ?_⟩
      rw [← awaitConfirm_eq_ok_iff, ← whole]
      exact exists_congr fun g => ofEngine_eq_ok_iff (upload u) e () g

/-! ## On a calm engine -/

section

variable {n : Nat} {d d' : σ} {X taken rest bs answer : Bytes} {u : Upload} {e f : Engine σ} {o : MatchOutcome}

/-- The prompt is looked for in what the device answers to the command line; what stands behind it
    there is left to be read. -/
theorem Calm.prompted (h : Calm n d X [] e) (lines : Device.takesRaw d = false) (oneLine : OneLine u.command)
    (answers : Device.answer d (Utf8.encode u.command) = (d', .now (taken ++ rest)))
    (first : firstReply (reply n (candidates (u.prompt :: u.inlineError.toList) true true)) X taken =
      some (o, [])) :
    ∃ f, Engine.prompted u e = (o, f) ∧ Calm n d' (X ++ taken) rest f := by
  obtain ⟨f, sent, k⟩ := h.send lines oneLine answers
  rw [List.nil_append] at k
  obtain ⟨g, w, k⟩ := k.wait first u.promptTimeout
  refine ⟨g, ?_, k⟩
  unfold Engine.prompted
  rw [sent]
  exact w

/-- What the device makes of the data can be read when it has been written. -/
theorem Calm.offered (h : Calm n d X bs f) (came : Engine.prompted u e = (o, f))
    (absorbed : ∀ l : Link σ, l.device = d →
      l.absorbAll u.data = { l with device := d', queued := l.queued ++ answer }) :
    Calm n d' X (bs ++ answer) (Engine.offered u e) := by
  obtain ⟨g, printed, k⟩ := h.print absorbed
  have whole : Engine.offered u e = g := by
    unfold Engine.offered
    rw [came, printed]
    rfl
  rw [whole]
  exact k

omit [Device σ] in
/-- A result line that has come as a whole is read to its end, in whichever way its code is written. -/
theorem Calm.readsCode {index number : Bytes} {code : Int} (plain : Ascii.comma ∉ index)
    (reads : Stream.Reads (Stream.parseInt (σ := σ)) code (number ++ Ascii.cr :: Ascii.lf :: rest)
      (Ascii.cr :: Ascii.lf :: rest))
    (h : Calm n d X (index ++ Ascii.comma :: (number ++ Ascii.cr :: Ascii.lf :: rest)) f) :
    ∃ g, indexedCode f = .ok code g ∧ Calm n d X rest g := by
  refine h.onStream ?_
  refine (Stream.reads_find plain _).bind ?_
  refine reads.bind ?_
  exact (Stream.reads_lineEnd rest).bind (Stream.Reads.pure _ _)

omit [Device σ] in
/-- So the code that stands in digits is the one that the stream has. -/
theorem Calm.hasCode {index digits : Bytes} (plain : Ascii.comma ∉ index) (some : digits ≠ [])
    (decimal : ∀ b ∈ digits, Decimal.isDigit b = true) (fits : Decimal.value digits ≤ Decimal.maxInt)
    (h : Calm n d X (index ++ Ascii.comma :: (digits ++ Ascii.cr :: Ascii.lf :: rest)) f) :
    f.stream.HasCode (Decimal.value digits) := by
  obtain ⟨g, read, -⟩ := h.readsCode plain (Stream.reads_parseInt some decimal fits (by decide) _)
  exact indexedCode_eq_ok_iff.mp ⟨g, read⟩

end

/-- A topic of five characters and seven bytes, on a device that never answers and on one that refuses it with
    a code; and a certificate, which a store asks for and confirms. -/
theorem upload_handshake_topic :
    (let call := UploadCall.topic 0 "grüße"
      let e : Engine Script := ofLink .standard (.ofDevice .silent)
      e.stream.link.failWrites = false ∧
      ∃ u, call.request = .ok u ∧ u.command = "AT+CMQTTTOPIC=0,7" ∧
        (parameters u.command)[1]? = some (toString u.data.length) ∧
        ((prompted u e).1 ≠ .pattern 1 →
          Wrote (Utf8.encode "AT+CMQTTTOPIC=0,7\r\n") e (endState (call.run e))) ∧
        ((prompted u e).1 = .pattern 1 →
          Wrote (Utf8.encode "AT+CMQTTTOPIC=0,7\r\ngrüße") e (endState (call.run e)))) ∧
    (let call := UploadCall.topic 0 "grüße"
      let refusing : Script := ⟨[], Utf8.encode "\r\n+CMQTTTOPIC: 0,11\r\n\r\nERROR\r\n"⟩
      let e : Engine Script := ofLink .standard (.ofDevice refusing)
      Wrote (Utf8.encode "AT+CMQTTTOPIC=0,7\r\n") e (endState (call.run e)) ∧
        ∃ g, call.run e = .error (.link (.deviceCode 11)) g) ∧
    let call := UploadCall.certificate [1, 2, 3, 4] "ca.pem"
    let e : Engine CertStore := ofLink .standard (.ofDevice (.ofSlots ∅))
    Wrote (Utf8.encode "AT+CCERTDOWN=\"ca.pem\",4\r\n" ++ [1, 2, 3, 4]) e (endState (call.run e)) ∧
      ∃ g, call.run e = .ok () g := by
  refine ⟨?silent, ?refused, ?confirmed⟩
  case silent =>
    intro call e
    have works : e.stream.link.failWrites = false := rfl
    obtain ⟨⟨_, announced⟩, refused, prompted⟩ := (upload_handshake call e works).2 _ rfl
    have line : Utf8.encode "AT+CMQTTTOPIC=0,7" ++ [Ascii.cr, Ascii.lf] =
      Utf8.encode "AT+CMQTTTOPIC=0,7\r\n" := by decide
    have data : Utf8.encode "AT+CMQTTTOPIC=0,7\r\n" ++ Utf8.encode "grüße" =
      Utf8.encode "AT+CMQTTTOPIC=0,7\r\ngrüße" := by decide
    refine ⟨works, _, rfl, by decide, announced 1 rfl, fun other => ?_, fun prompt => ?_⟩
    · exact line ▸ (refused other).1
    · exact data ▸ line ▸ (prompted prompt).1
  case refused =>
    intro call refusing e
    let u : Upload :=
      { command := "AT+CMQTTTOPIC=0,7"
        data := Utf8.encode "grüße"
        inlineError := some (Utf8.encode "+CMQTTTOPIC: ") }
    have request : call.request = .ok u := rfl
    -- the wait for the prompt ends with the tag of the result line, and the code stands behind it
    have behind : Utf8.encode "0,11\r\n\r\nERROR\r\n" =
      [0x30] ++ Ascii.comma :: ([0x31, 0x31] ++ Ascii.cr :: Ascii.lf :: Utf8.encode "\r\nERROR\r\n") := by decide
    have answers : Device.answer refusing (Utf8.encode u.command) = (refusing,
        .now (Utf8.encode "\r\n+CMQTTTOPIC: " ++ Utf8.encode "0,11\r\n\r\nERROR\r\n")) := by
      rw [← Utf8.encode_append]
      rfl
    have start : Calm 64 refusing [] [] e := .ofLink .standard refusing
    obtain ⟨f, came, calm⟩ := start.prompted (o := .pattern 2) rfl (by decide) answers (by decide)
    rw [behind] at calm
    have decimal : ∀ b ∈ ([0x31, 0x31] : Bytes), Decimal.isDigit b = true := List.all_eq_true.mp rfl
    have line : f.stream.HasCode 11 := calm.hasCode (by decide) (by decide) decimal (by decide)
    obtain ⟨-, other, -⟩ := (upload_handshake call e rfl).2 u request
    obtain ⟨wrote, err, g, failed, only⟩ := other (by simp [came])
    obtain rfl : .deviceCode 11 = err :=
      (only _).mp (came ▸ .code line (by decide) (by decide) (by decide))
    exact ⟨wrote, g, failed⟩
  case confirmed =>
    intro call e
    let u : Upload :=
      { command := "AT+CCERTDOWN=\"ca.pem\",4"
        data := [1, 2, 3, 4]
        promptTimeout := Ssl.storeTimeout }
    have request : call.request = .ok u := rfl
    let store : CertStore := .ofSlots ∅
    have answers : Device.answer store (Utf8.encode u.command) =
        (store.expecting "ca.pem" 4 (by decide), .now (Utf8.encode "\r\n>" ++ [])) := by
      have line : u.command = "AT+CCERTDOWN=" ++ inQuotes "ca.pem" ++ "," ++ toString 4 := by decide
      rw [line]
      exact CertStore.answer_announce (by decide) (by decide) Finmap.notMem_empty (by decide) (by decide)
    have start : Calm 64 store [] [] e := .ofLink .standard store
    -- the store asks for four bytes, and confirms them when they have come
    obtain ⟨f, came, calm⟩ := start.prompted (o := .pattern 1) rfl (by decide) answers (by decide)
    have kept := calm.offered came fun _ hl => CertStore.absorbAll_of_expecting CertStore.within_self hl
    have calm : Calm 64 _ _ (CertStore.okAnswer ++ []) (offered u e) := kept
    obtain ⟨-, -, prompt⟩ := (upload_handshake call e rfl).2 u request
    obtain ⟨wrote, ok⟩ := prompt (by rw [came])
    have verdict : firstReply (reply 64 terminators) ([] ++ Utf8.encode "\r\n>") CertStore.okAnswer =
      some (.success, []) := by decide
    obtain ⟨g, confirmed, -⟩ := calm.wait verdict (offered u e).defaultTimeout
    exact ⟨wrote, ok.mpr (congrArg Prod.fst confirmed)⟩

end Engine
end AtModem
