/-
  Result lines and the handles they name.

  Four operations on a client of the broker and two on a socket session are answered by a result line
  `<tag>: <handle>,<code>`.  Each of them asks the device something and then waits for the tag
  (`HandleCall.run_eq`); what is read behind the tag is everything to a comma, a number, and the rest of
  the line.  So a code is never made up: an operation that succeeds has read a zero under its tag, and
  one that reports a code has read that code (`ResultLine`).

  The number before the comma is skipped, whatever it is.  The operation goes by the first result line
  under its tag that is there to be read, and if this one names another handle, its code is what the
  operation reports and the line with its own handle is left for whoever waits next.
-/
import AtModem.Proofs.Consumption
import AtModem.Proofs.Quoting
import AtModem.Proofs.Rejection

namespace AtModem

open Engine ClientM

variable {σ : Type}

/-! ## The operations -/

/-- The operations on a client or on a session that a result line with its number answers.  An `OK`
    behind the command line is passed over by all of them; it is the result line that says how the
    operation went. -/
inductive HandleCall where
  | connect (server : String) (port : Nat) (params : Mqtt.ConnectParams)
  | disconnect (timeoutSecs : Nat)
  | publish (params : Mqtt.PublishParams)
  | subscribe (topic : String) (qos : Nat)
  | openSession (host : String) (port : Nat)
  | closeSession

/-- What an operation asks the device before it waits for the result line: a command line, or an
    upload. -/
inductive Question where
  | line (text : String)
  /-- A line and, when it is prompted for, what belongs to it. -/
  | data (u : Upload)

namespace Question

variable [Device σ]

/-- Writes the command line, and no more. -/
def announce : Question → EngineM σ Unit
  | line text => send text
  | data u => send u.command

/-- All of the question: the line, or the line and the data once it is prompted for. -/
def ask : Question → EngineM σ Unit
  | line text => send text
  | data u => do
    send u.command
    awaitPrompt u
    print u.data

end Question

namespace HandleCall

/-- The operation itself. -/
def run [Device σ] (handle : UInt8) : HandleCall → ClientM σ Unit
  | connect server port params => Mqtt.connect handle server port params
  | disconnect timeoutSecs => Mqtt.disconnect handle timeoutSecs
  | publish params => Mqtt.publish handle params
  | subscribe topic qos => Mqtt.subscribe handle topic qos
  | openSession host port => Ssl.openSession handle host port
  | closeSession => Ssl.close handle

/-- What opens the result line of each operation. -/
def tag : HandleCall → String
  | connect .. => "+CMQTTCONNECT: "
  | disconnect .. => "+CMQTTDISC: "
  | publish .. => "+CMQTTPUB: "
  | subscribe .. => "+CMQTTSUB: "
  | openSession .. => "+CCHOPEN: "
  | closeSession => "+CCHCLOSE: "

/-- The time allowed for the result line.  Where the device was given a time of its own, it is that
    and a margin. -/
def timeout : HandleCall → Nat
  | connect _ _ params => params.keepaliveSecs * 1000 + Mqtt.responseMargin
  | disconnect timeoutSecs => timeoutSecs * 1000 + Mqtt.responseMargin
  | publish params => params.timeoutSecs * 1000 + Mqtt.responseMargin
  | subscribe .. => Mqtt.commandTimeout
  | openSession .. => Ssl.socketTimeout
  | closeSession => Ssl.socketTimeout

/-- What the device is asked, or why the arguments are refused before that. -/
def question (handle : UInt8) : HandleCall → Except ArgumentFault Question
  | connect server port params =>
    let logins := QuotingMethod.login params.credentials
    let line := commandLine "AT+CMQTTCONNECT=" ([toString handle.toNat,
      inQuotes (Mqtt.brokerAddress server port), toString params.keepaliveSecs,
      flag params.cleanSession] ++ logins.map inQuotes)
    ((server :: logins).findSome? QuotingMethod.textFault).elim (.ok (.line line)) .error
  | disconnect timeoutSecs => .ok (.line s!"AT+CMQTTDISC={handle},{timeoutSecs}")
  | publish params =>
    .ok (.line s!"AT+CMQTTPUB={handle},{params.qos},{params.timeoutSecs},{flag params.retained},{flag params.dup}")
  | subscribe topic qos => (UploadCall.subscription handle topic qos).request.map .data
  | openSession host port =>
    if host.isEmpty || !quotable host then .error (.host host)
    else .ok (.line s!"AT+CCHOPEN={handle},\"{host}\",{port}")
  | closeSession => .ok (.line s!"AT+CCHCLOSE={handle}")

variable [Device σ]

/-- Asks and then waits for the result line.  Every operation is of this form (`run_eq`), so they
    need no proof each. -/
def answered (call : HandleCall) (q : Question) : EngineM σ Unit := do
  q.ask
  awaitCode (Utf8.encode call.tag) call.timeout

/-- Does what the question says, or refuses the arguments. -/
def put (question : Except ArgumentFault Question) (x : Question → EngineM σ Unit) : ClientM σ Unit :=
  match question with
  | .error fault => refuse fault
  | .ok q => ofEngine (x q)

/-- The operation as far as its command line. -/
def announced (call : HandleCall) (handle : UInt8) : ClientM σ Unit :=
  put (call.question handle) Question.announce

/-- The operation as far as the wait for its result line. -/
def asked (call : HandleCall) (handle : UInt8) : ClientM σ Unit := put (call.question handle) Question.ask

omit [Device σ] in
/-- The check of a text, as a fault that there is or is not. -/
theorem checkText_eq (text : String) :
    Mqtt.checkText (σ := σ) text = (QuotingMethod.textFault text).elim (pure ()) refuse := by
  unfold Mqtt.checkText QuotingMethod.textFault
  split <;> rfl

/-- A connection is of the common form: the texts that it checks are the ones whose faults the
    question collects, in the same order. -/
theorem run_connect (handle : UInt8) (server : String) (port : Nat) (params : Mqtt.ConnectParams) :
    Mqtt.connect (σ := σ) handle server port params =
      put ((connect server port params).question handle) (connect server port params).answered := by
  have line := (Piece.line.inj (QuotingMethod.connection_eq handle server port params)).1
  -- behind the checks the command is the same with a login and without
  have order := congrArg (fun text => ofEngine (σ := σ) do
    send text
    awaitCode (Utf8.encode "+CMQTTCONNECT: ") (connect server port params).timeout) line
  obtain ⟨keepalive, clean, credentials⟩ := params
  rcases credentials with _ | ⟨user, password⟩
  · simp only [question, Mqtt.connect, checkText_eq, QuotingMethod.login, List.findSome?_cons,
      List.findSome?_nil]
    cases QuotingMethod.textFault server with
    | some fault => rfl
    | none => exact order
  · simp only [question, Mqtt.connect, checkText_eq, QuotingMethod.login, List.findSome?_cons,
      List.findSome?_nil]
    cases QuotingMethod.textFault server with
    | some fault => rfl
    | none =>
      cases QuotingMethod.textFault user with
      | some fault => rfl
      | none =>
        cases QuotingMethod.textFault password with
        | some fault => rfl
        | none => exact order

/-- An upload that a result line confirms ends with the wait for it, and the rest of it is the
    question. -/
theorem upload_eq {u : Upload} {pattern : Bytes} {timeout : Nat} (confirm : u.confirm = .resultCode pattern)
    (confirmTimeout : u.confirmTimeout = some timeout) :
    (upload u : EngineM σ Unit) = (Question.data u).ask >>= fun _ => awaitCode pattern timeout := by
  have confirmed : (awaitConfirm u : EngineM σ Unit) = awaitCode pattern timeout := by
    unfold awaitConfirm
    rw [confirm, confirmTimeout]
    rfl
  simp only [upload, Question.ask, confirmed, bind_assoc]

/-- All six operations are of the same form, with a question and a tag of their own.  From here on
    no operation is looked at by itself: what is proved of the form holds of all of them. -/
theorem run_eq (call : HandleCall) (handle : UInt8) :
    call.run (σ := σ) handle = put (call.question handle) call.answered := by
  cases call with
  | connect server port params => exact run_connect handle server port params
  | disconnect timeoutSecs => rfl
  | publish params => rfl
  | subscribe topic qos =>
    refine (UploadCall.run_eq (.subscription handle topic qos)).trans ?_
    simp only [question, UploadCall.request]
    split
    · rfl
    · exact congrArg ofEngine (upload_eq rfl rfl)
  | openSession host port =>
    simp only [run, question, Ssl.openSession]
    split <;> rfl
  | closeSession => rfl

end HandleCall

/-! ## Codes that are reported -/

/-- The result says that the device has answered with this code: a success says a zero, and an error
    says the code that it carries. -/
inductive Tells (code : Int) (f : Engine σ) : EStateM.Result ClientError (Engine σ) Unit → Prop where
  | accepted (zero : code = 0) : Tells code f (.ok () f)
  | refused (nonzero : code ≠ 0) : Tells code f (.error (.link (.deviceCode code)) f)

/-- If the computation fails, it is not by a code of the device.  So a code that is reported at the
    end has been read at the end. -/
def NoCode {τ α : Type} (x : EStateM AtError τ α) : Prop :=
  ∀ s err t, x s = .error err t → ∀ code, err ≠ .deviceCode code

namespace NoCode

variable {τ α β : Type} {x : EStateM AtError τ α} {f : α → EStateM AtError τ β}

protected theorem pure (a : α) : NoCode (pure a : EStateM AtError τ α) := fun _ _ _ h => by cases h

/-- Two computations, neither of which fails by a code. -/
protected theorem bind (hx : NoCode x) (hf : ∀ a, NoCode (f a)) : NoCode (x >>= f) := by
  intro s err t h
  rcases bind_eq_error h with failed | ⟨a, u, -, failed⟩
  · exact hx s err t failed
  · exact hf a u err t failed

theorem find (target : UInt8) : NoCode (Stream.find (σ := σ) target) := by
  intro s err t h code
  unfold Stream.find at h
  split at h <;> cases h
  simp

theorem parseSign : NoCode (Stream.parseSign (σ := σ)) := by
  intro s err t h code
  fun_induction Stream.parseSign s with
  | case1 | case3 => cases h; simp
  | case2 | case4 => cases h
  | case5 s t' c u e other r other' ih => exact ih h
  | case6 s b t' r other noMinus ih => exact ih h

theorem parseDigits (v : Nat) : NoCode (Stream.parseDigits (σ := σ) v) := by
  intro s err t h code
  unfold Stream.parseDigits at h
  split at h <;> cases h
  simp

theorem parseInt : NoCode (Stream.parseInt (σ := σ)) :=
  parseSign.bind fun _ => (parseDigits _).bind fun _ => .pure _

theorem onStream {x : StreamM σ α} (h : NoCode x) : NoCode (Engine.onStream x) := by
  intro e err f r
  unfold Engine.onStream at r
  split at r
  · cases r
  · rename_i failed
    cases r
    exact h _ _ _ failed

/-- Reading a code fails for want of one, and never with one. -/
theorem indexedCode : NoCode (Engine.indexedCode (σ := σ)) :=
  ((find _).bind fun _ => parseInt.bind fun _ => (find _).bind fun _ => .pure _).onStream

theorem print [Device σ] (data : Bytes) : NoCode (Engine.print (σ := σ) data) := by
  intro e err f h code
  unfold Engine.print at h
  split at h <;> cases h
  simp

theorem send [Device σ] (line : String) : NoCode (Engine.send (σ := σ) line) :=
  (print _).bind fun _ => print _

end NoCode

/-- An error that carries a code carries the one that was checked. -/
theorem eq_of_checkCode {k code : Int} (h : checkCode k = .error (.deviceCode code)) : k = code := by
  unfold checkCode at h
  split at h
  · cases h
  · split at h
    · cases h
      rfl
    · cases h

/-- Exchanges with the same result have it as calls of a client too. -/
theorem ofEngine_of_eq {α : Type} {x y : EngineM σ α} {e f : Engine σ} (h : x e = y f) :
    ofEngine x e = ofEngine y f := by
  unfold ofEngine
  rw [h]

namespace Tells

variable {α : Type} {code : Int} {e f g : Engine σ}

/-- A zero is told by a success, and by nothing else. -/
theorem eq_ok {result : EStateM.Result ClientError (Engine σ) Unit} (h : Tells 0 f result) :
    result = .ok () f := by
  cases h with
  | accepted => rfl
  | refused nonzero => exact absurd rfl nonzero

/-- Only an error that is the code itself says it, and it is then no zero. -/
theorem of_error {err : AtError} (h : Tells code f (.error (.link err) g)) :
    err = .deviceCode code ∧ code ≠ 0 ∧ g = f := by
  cases h with
  | refused nonzero => exact ⟨rfl, nonzero, rfl⟩

/-- A computation in two parts says what one of them says: the first if it fails with the code, the
    second if it gets so far. -/
theorem of_bind {x : EngineM σ α} {y : α → EngineM σ Unit} (h : Tells code f (ofEngine (x >>= y) e)) :
    (x e = .error (.deviceCode code) f ∧ code ≠ 0) ∨
      ∃ a g, x e = .ok a g ∧ Tells code f (ofEngine (y a) g) := by
  cases r : x e with
  | ok a g =>
    rw [ofEngine_of_eq (bind_of_ok r)] at h
    exact .inr ⟨a, g, rfl, h⟩
  | error err g =>
    rw [ofEngine_of_error (bind_of_error r)] at h
    obtain ⟨rfl, nonzero, rfl⟩ := h.of_error
    exact .inl ⟨rfl, nonzero⟩

/-- A code that was read is what is said, if anything is; a code out of range is told by another
    error. -/
theorem of_checkCode {k : Int} (h : Tells code f (ofEngine (ofResult (AtModem.checkCode k)) g)) :
    k = code ∧ g = f := by
  cases said : AtModem.checkCode k with
  | ok _ =>
    rw [said] at h
    have zero := (checkCode_eq_ok_iff k).mp said
    cases h with
    | accepted zero' => exact ⟨zero.trans zero'.symm, rfl⟩
  | error err =>
    rw [said] at h
    obtain ⟨rfl, -, same⟩ := Tells.of_error h
    exact ⟨eq_of_checkCode said, same⟩

/-- The verdict on a code tells it, as long as it is in range. -/
theorem checkCode {code : Int} (range : -0x80000000 ≤ code ∧ code < 0x80000000) (g : Engine σ) :
    Tells code g (ofEngine (ofResult (AtModem.checkCode code)) g) := by
  unfold AtModem.checkCode
  split
  · rename_i zero
    exact .accepted zero
  · rename_i nonzero
    exact .refused nonzero

end Tells

/-! ## Result lines that are read -/

/-- From `e` to `f` the rest of a result line was read: an index, which is everything up to a comma,
    a number with what comes before it, and the end of the line.  It is said of the bytes alone, and
    not in terms of the reader whose result it describes. -/
def ReadsCode (code : Int) (e f : Engine σ) : Prop :=
  ∃ index skipped digits rest, Ascii.comma ∉ index ∧ Stream.Numeral code skipped digits ∧
    Ascii.lf ∉ rest ∧
    e.stream.unread =
      index ++ Ascii.comma :: (skipped ++ digits ++ (rest ++ Ascii.lf :: f.stream.unread)) ∧
    -- no digit was left out that came in time
    ((∀ b ∈ rest.head?, Decimal.isDigit b = false) ∨ e.now + e.stream.byteTimeout ≤ f.now)

/-- From `e` to `f` a result line under the tag was read, with this code: the tag was the end of all
    that was heard, and the line stood behind it. -/
def ResultLine (tag : String) (code : Int) (e f : Engine σ) : Prop :=
  ∃ g, Listened e g ∧ Utf8.encode tag <:+ g.heard.value ∧ ReadsCode code g f

section

variable {e f g : Engine σ} {code : Int} {tag : String}

/-- A reader that has succeeded on the engine has succeeded on its stream, and nothing else has
    changed. -/
theorem onStream_eq_ok {α : Type} {x : StreamM σ α} {a : α} (h : Engine.onStream x e = .ok a f) :
    x e.stream = .ok a f.stream := by
  unfold Engine.onStream at h
  split at h
  · rename_i r
    cases h
    exact r
  · cases h

/-- A code that was read was there to be read: everything up to the first comma is the index, the
    next number is the code, and the line was read to its end.  The three readers are read back one
    by one, and their bytes are put together. -/
theorem readsCode_of_indexedCode (h : indexedCode e = .ok code f) : ReadsCode code e f := by
  obtain ⟨_, s, comma, h⟩ := bind_eq_ok (onStream_eq_ok h)
  obtain ⟨k, t, number, h⟩ := bind_eq_ok h
  obtain ⟨_, u, line, h⟩ := bind_eq_ok h
  cases h
  obtain ⟨index, plain, before⟩ := Stream.find_eq_ok comma
  obtain ⟨skipped, digits, numeral, within, ends⟩ := Stream.parseInt_eq_ok number
  obtain ⟨rest, oneLine, behind⟩ := Stream.find_eq_ok line
  refine ⟨index, skipped, digits, rest, plain, numeral, oneLine, ?_, ?_⟩
  · rw [before, within, behind]
  · refine ends.imp (fun other => ?_) fun late => ?_
    · rw [behind] at other
      cases rest with
      | nil => simp
      | cons b rest => exact other
    · -- the time that the number took is part of the time of the line
      have first := Stream.keptByReading_onward.find Ascii.comma e.stream
      have last := Stream.keptByReading_onward.find Ascii.lf t
      rw [comma] at first
      rw [line] at last
      have same : s.byteTimeout = e.stream.byteTimeout := first.byteTimeout
      have began : e.stream.now ≤ s.now := first.now_le
      have ended : t.now ≤ f.stream.now := last.now_le
      show e.stream.now + _ ≤ f.stream.now
      omega

/-- What a wait for the tag says it has read under the tag.  The wait itself cannot say a code, so
    it is the line that did.  The window is the end of what was heard, and so the tag that it ends
    with was heard as well. -/
theorem resultLine_of_awaitCode {timeout : Nat} (window : e.window.EndOf e.heard.value)
    (h : Tells code f (ofEngine (awaitCode (Utf8.encode tag) timeout) e)) : ResultLine tag code e f := by
  rcases w : e.wait [Utf8.encode tag] timeout false true with ⟨o, g⟩
  have ends := outcome_waitUntil (e.now + timeout) (candidates [Utf8.encode tag] false true) e
  rw [show e.waitUntil _ (candidates [Utf8.encode tag] false true) = (o, g) from w] at ends
  have found : o = .timedOut ∨ o = .pattern 1 ∨ o = .failure := by
    simpa [candidates, maxPatterns] using ends
  unfold awaitCode at h
  rcases h.of_bind with ⟨failed, -⟩ | ⟨o', g', waited, h⟩
  -- the wait itself has no error to throw
  · rw [await_of_wait w] at failed
    cases failed
  · rw [await_of_wait w] at waited
    cases waited
    rcases found with rfl | rfl | rfl
    -- a timeout and an `ERROR` are errors without a code, so the tag is what was heard
    · obtain ⟨err, -⟩ := Tells.of_error h
      cases err
    · obtain ⟨listened, c, hc, index, heard⟩ := waitUntil_listened window w (by simp)
      have tagged : c.1 = Utf8.encode tag := by
        have found : c = (Utf8.encode tag, .pattern 1) ∨ c = (errorLine, .failure) := by
          simpa [candidates, maxPatterns] using hc
        rcases found with rfl | rfl
        · rfl
        · cases index
      refine ⟨g, listened, tagged ▸ heard, ?_⟩
      rcases Tells.of_bind h with ⟨failed, -⟩ | ⟨k, f', read, h⟩
      -- and the line behind it could be read, or there would be no code either
      · exact absurd rfl (NoCode.indexedCode _ _ _ failed code)
      · obtain ⟨rfl, rfl⟩ := h.of_checkCode
        exact readsCode_of_indexedCode read
    · obtain ⟨err, -⟩ := Tells.of_error h
      cases err

/-- What is said in place of the prompt is the code of the line that was read there.  The terminator
    behind the line is waited for in either case, before the code is reported. -/
theorem code_of_readRefusal {u : Upload} (h : readRefusal u e = .error (.deviceCode code) f) :
    ∃ g, indexedCode e = .ok code g ∧ plainClear g = .ok () f := by
  unfold readRefusal at h
  cases read : indexedCode e with
  | error err g =>
    -- a line that cannot be read has no code
    rw [bind_of_error read] at h
    cases h
    exact absurd rfl (NoCode.indexedCode _ _ _ read code)
  | ok k g =>
    have cleared : plainClear g = .ok () (endState (plainClear g)) := rfl
    rw [bind_of_ok read, bind_of_ok cleared] at h
    cases said : checkCode k with
    -- a code of zero is reported as a transfer of nothing
    | ok _ =>
      rw [said] at h
      cases h
    | error err =>
      rw [said] at h
      cases h
      -- so the code that is reported is the one that was read
      rw [eq_of_checkCode said]
      exact ⟨g, rfl, cleared⟩

/-- What stands in place of the prompt and says a code has been read under the tag.  An upload may
    so be answered in two places, and `Reported` has a case for each. -/
theorem resultLine_of_awaitPrompt {u : Upload} (tagged : u.inlineError = some (Utf8.encode tag))
    (window : e.window.EndOf e.heard.value) (h : awaitPrompt u e = .error (.deviceCode code) f) :
    ∃ g, ResultLine tag code e g ∧ plainClear g = .ok () f := by
  rcases w : e.wait (u.prompt :: u.inlineError.toList) u.promptTimeout true true with ⟨o, g⟩
  unfold awaitPrompt at h
  rw [bind_of_ok (await_of_wait w)] at h
  by_cases found : o = .timedOut
  -- a timeout has no code, and neither has an answer that is not the tag
  · subst found
    cases h
  · obtain ⟨listened, c, hc, index, heard⟩ := waitUntil_listened window w found
    have candidate : c = (u.prompt, .pattern 1) ∨ c = (Utf8.encode tag, .pattern 2) ∨
        c = (errorLine, .failure) ∨ c = (okLine, .success) := by
      simpa [candidates, maxPatterns, tagged] using hc
    subst index
    rcases candidate with rfl | rfl | rfl | rfl
    -- the prompt would not have been an error
    · cases h
    · obtain ⟨i, read, cleared⟩ := code_of_readRefusal h
      exact ⟨i, ⟨g, listened, heard, readsCode_of_indexedCode read⟩, cleared⟩
    · cases h
    · cases h

end

namespace Question

variable [Device σ] {S : Stream σ → Stream σ → Prop} {R : Engine σ → Engine σ → Prop}

theorem along_ask (k : KeptByExchange S R) (q : Question) : Along R q.ask := by
  cases q with
  | line text => exact k.send text
  | data u => exact k.bind (k.send _) fun _ => k.bind (k.awaitPrompt u) fun _ => k.print _

/-- Of all that is asked only an upload can be answered by a code, and that in place of the prompt. -/
theorem exists_of_ask_eq_error {q : Question} {e f : Engine σ} {code : Int}
    (h : q.ask e = .error (.deviceCode code) f) :
    ∃ u g, q = .data u ∧ send u.command e = .ok () g ∧ awaitPrompt u g = .error (.deviceCode code) f := by
  cases q with
  | line text => exact absurd rfl (NoCode.send text _ _ _ h code)
  | data u =>
    rcases bind_eq_error h with failed | ⟨_, g, sent, h⟩
    · exact absurd rfl (NoCode.send _ _ _ _ failed code)
    · rcases bind_eq_error h with failed | ⟨_, i, -, h⟩
      · exact ⟨u, g, rfl, sent, failed⟩
      · exact absurd rfl (NoCode.print _ _ _ _ h code)

end Question

/-! ## What an operation reports -/

namespace HandleCall

variable [Device σ] {e f g : Engine σ} {call : HandleCall} {handle index : UInt8} {code : Int}
  {more : Bytes}

/-- A result line under the tag has been read, with this code: by the wait for it, or by the wait for a
    prompt in whose place it stood, and then the terminator behind it was read as well. -/
def Reported (call : HandleCall) (handle : UInt8) (code : Int) (e f : Engine σ) : Prop :=
  (∃ g, call.asked handle e = .ok () g ∧ ResultLine call.tag code g f) ∨
    ∃ g h, call.announced handle e = .ok () g ∧ ResultLine call.tag code g h ∧ plainClear h = .ok () f

omit [Device σ] in
/-- Only a topic is asked for by an upload, and its tag is the one that may stand for the prompt. -/
theorem tag_of_data {u : Upload} (h : call.question handle = .ok (.data u)) :
    u.inlineError = some (Utf8.encode call.tag) := by
  cases call with
  | connect server port params =>
    simp only [question] at h
    cases fault : (server :: QuotingMethod.login params.credentials).findSome? QuotingMethod.textFault
      <;> rw [fault] at h <;> cases h
  | disconnect | publish | closeSession => cases h
  | subscribe topic qos =>
    simp only [question, UploadCall.request] at h
    split at h <;> cases h
    rfl
  | openSession host port =>
    simp only [question] at h
    split at h <;> cases h

/-- An operation reports no code but that of a result line that it has read, in this call and under
    its own tag.  This half says that nothing is made up: a success needs a line with a zero, and a
    code needs a line with that code. -/
theorem reported_of_tells (window : e.window.EndOf e.heard.value)
    (h : Tells code f (call.run handle e)) : Reported call handle code e f := by
  rw [run_eq] at h
  unfold Reported asked announced
  cases asks : call.question handle with
  | error fault =>
    rw [asks] at h
    cases h
  | ok q =>
    rw [asks] at h
    rcases Tells.of_bind h with ⟨failed, -⟩ | ⟨_, g, ran, h⟩
    -- the command was refused in place of its prompt
    · obtain ⟨u, g, rfl, sent, h⟩ := Question.exists_of_ask_eq_error failed
      have kept := keptBySession_window.send u.command e
      rw [sent] at kept
      obtain ⟨h, line, cleared⟩ := resultLine_of_awaitPrompt (tag_of_data asks) (kept.2 window) h
      exact .inr ⟨g, h, ofEngine_of_ok sent, line, cleared⟩
    -- the command was sent and, if it is an upload, confirmed; its own wait comes to the line
    · have kept := Question.along_ask keptBySession_window.toKeptByExchange q e
      rw [ran] at kept
      exact .inl ⟨g, ofEngine_of_ok ran, resultLine_of_awaitCode (kept.2 window) h⟩

/-- On a calm engine that has to read this, the first reply to a wait for the tag is behind it, and
    there a code stands with an index.  The index can be any: that the operation takes the line for
    its own whichever number stands in it is the point of the theorem. -/
def NextLine (tag : String) (index : UInt8) (code : Int) (more : Bytes) (e : Engine σ) : Prop :=
  ∃ n d heard front,
    Calm n d heard (front ++ Utf8.encode tag ++ (Mqtt.codeText index code ++ more)) e ∧
      firstReply (reply n (candidates [Utf8.encode tag] false true)) heard (front ++ Utf8.encode tag) =
        some (.pattern 1, [])

/-- The first result line under the tag decides, whatever index it has.  This is what an operation
    can be misled by.  The line may be about another client, or left over from before; the operation
    has no means to notice. -/
theorem tells_of_nextLine (asked : call.asked handle e = .ok () g)
    (range : -0x80000000 ≤ code ∧ code < 0x80000000) (next : NextLine call.tag index code more g) :
    ∃ f, Tells code f (call.run handle e) ∧ f.stream.unread = more := by
  obtain ⟨n, d, heard, front, calm, first⟩ := next
  obtain ⟨i, w, calm⟩ := calm.wait first call.timeout
  -- a code of a result line is a 32-bit number, and those can be read
  have fits : code.natAbs ≤ Decimal.maxInt := by
    unfold Decimal.maxInt
    omega
  obtain ⟨f, read, calm⟩ := calm.indexedCode fits
  refine ⟨f, ?_, calm.stream_unread⟩
  rw [run_eq]
  unfold HandleCall.asked at asked
  cases asks : call.question handle with
  | error fault =>
    rw [asks] at asked
    cases asked
  | ok q =>
    rw [asks] at asked
    have ran := (ofEngine_eq_ok_iff _ _ _ _).mp asked
    have answered : call.answered q e = ofResult (checkCode code) f :=
      (bind_of_ok ran).trans ((bind_of_ok (await_of_wait w)).trans (bind_of_ok read))
    show Tells code f (ofEngine (call.answered q) e)
    rw [ofEngine_of_eq (f := f) answered]
    exact .checkCode range f

/-- After any calls on a fresh engine: what an operation on a client or a session says of a code, it has
    read in a result line under its tag, be it the zero of a success or the code of a failure.  But it goes
    by the first such line that is there to be read once it has asked, whichever client or session that
    line names, and leaves what is behind it for others. -/
theorem first_line_of_tag_decides (config : EngineConfig) (l : Link σ) (calls : List (Call σ))
    (call : HandleCall) (handle : UInt8) :
    let e := (ofLink config l).session calls
    (∀ code f, Tells code f (call.run handle e) → Reported call handle code e f) ∧
      ∀ index code more g, -0x80000000 ≤ code ∧ code < 0x80000000 →
        call.asked handle e = .ok () g → NextLine call.tag index code more g →
        ∃ f, Tells code f (call.run handle e) ∧ f.stream.unread = more := by
  intro e
  have fresh : (ofLink config l).window.EndOf (ofLink config l).heard.value := by
    simp [ofLink, Window.EndOf, Window.bytes, Window.ofCapacity, List.rtake]
  obtain ⟨-, kept⟩ := keptBySession_window.session calls (ofLink config l)
  constructor
  · intro code f told
    exact reported_of_tells (kept fresh) told
  · intro index code more g range asked next
    exact tells_of_nextLine asked range next

/-- A late answer about another client, a success, and behind it the answer about this one, a
    failure.  The operation reports the success and leaves the failure to be read. -/
theorem first_line_of_tag_decides_late :
    let call : HandleCall := .connect "b" 1883 { }
    let late := Utf8.encode "\r\nOK\r\n\r\n+CMQTTCONNECT: 1,0\r\n"
    let own := Utf8.encode "\r\n+CMQTTCONNECT: 0,5\r\n"
    let s : Script :=
      ⟨[⟨.startsWith "AT+CMQTTCONNECT", .now (late ++ own), none⟩], crlf ++ okLine⟩
    let e := Engine.ofLink .standard (.ofDevice s)
    ∃ g, call.asked 0 e = .ok () g ∧ NextLine call.tag 1 0 own g ∧
      ∃ f, call.run 0 e = .ok () f ∧ f.stream.unread = own := by
  intro call late own s e
  have calm : Calm 64 s [] [] e := Calm.ofLink .standard s
  have line : call.question 0 = .ok (.line "AT+CMQTTCONNECT=0,\"tcp://b:1883\",60,1") := rfl
  have heard : Device.answer s (Utf8.encode "AT+CMQTTCONNECT=0,\"tcp://b:1883\",60,1") =
      (s, .now (late ++ own)) := by
    show s.answer _ = _
    unfold Script.answer
    rw [Utf8.decode_encode]
    rfl
  obtain ⟨g, sent, calm⟩ := calm.send rfl (by decide) heard
  have asked : call.asked 0 e = .ok () g := by
    unfold HandleCall.asked
    rw [line]
    exact ofEngine_of_ok sent
  have next : NextLine call.tag 1 0 own g := by
    refine ⟨64, s, [], Utf8.encode "\r\nOK\r\n\r\n", ?_, by decide⟩
    have text : [] ++ (late ++ own) =
        Utf8.encode "\r\nOK\r\n\r\n" ++ Utf8.encode call.tag ++ (Mqtt.codeText 1 0 ++ own) := by
      decide +kernel
    rwa [text] at calm
  obtain ⟨f, told, left⟩ := (first_line_of_tag_decides .standard (.ofDevice s) [] call 0).2 1 0 own g
    (by decide) asked next
  exact ⟨g, asked, next, f, told.eq_ok, left⟩

end HandleCall
end AtModem
