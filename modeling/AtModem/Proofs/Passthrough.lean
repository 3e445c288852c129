/-
  One command passed through, and the same command waited for.

  To pass an answer through, the tool reads it off the stream and looks for the terminator in all that it
  has read; a wait looks for it in the window, which forgets, and which has heard other things before.
  Both read with one deadline for the whole answer, so they read the same bytes at the same times as long
  as neither stops; and they stop at the same byte, since a terminator is shorter than the window and none
  has begun at the end of a line (`reply_eq_answerByte`).  So one run is beside the other byte by byte
  (`exists_beside`), and what is left of the stream, with its clock, is the same.

  The window, the handlers and what they leave behind have no part in a passthrough.
-/
import AtModem.Proofs.Calm
import AtModem.Proofs.Exchange.Console
import AtModem.Proofs.Pace
import AtModem.Proofs.Verbatim
import AtModem.Tool.Ask

namespace AtModem

open Engine Tool

variable {σ : Type} {acc X : Bytes} {b : UInt8}

/-! ## The answer -/

/-- `answer` is one that ends with `OK`, or with `ERROR`, and with none of them before. -/
structure FirstAnswer (ok : Bool) (answer : Bytes) : Prop where
  ends : (if ok then okLine else errorLine) <:+ answer
  first : ∀ q, q <+: answer → q ≠ answer → ¬okLine <:+ q ∧ ¬errorLine <:+ q

/-- A wait for a terminator, by its outcome and by what it has heard, in the words of a reader. -/
def told (answer : Bytes) : MatchOutcome → Stream.Scan Bytes (Bool × Bytes)
  | .success => .stop (true, answer)
  | .failure => .stop (false, answer)
  | _ => .more answer.reverse

/-- No text ends with both terminators, so what ends the answer also says which it was. -/
theorem not_okLine_of_errorLine {Y : Bytes} (h : errorLine <:+ Y) : ¬okLine <:+ Y := by
  intro s
  have part : okLine <:+ errorLine := List.suffix_of_suffix_length_le s h (by decide)
  exact absurd part (by decide)

/-- Where only one of the candidates is at the end, that is the reply, whatever the order is. -/
theorem reply_of_only {n : Nat} {cs : List (Bytes × MatchOutcome)} {c : Bytes × MatchOutcome} {Y : Bytes}
    (mem : c ∈ cs) (more : c.1 ≠ []) (fits : c.1.length ≤ n) (ends : c.1 <:+ Y)
    (only : ∀ c' ∈ cs, c'.1 <:+ Y → c' = c) : reply n cs Y = some c.2 := by
  unfold reply
  cases found : cs.find? _ with
  | none =>
    have missed := List.find?_eq_none.mp found c mem
    simp [more, fits, List.isSuffixOf_iff_suffix, ends] at missed
  | some c' =>
    have here := List.find?_some found
    simp only [Bool.and_eq_true, List.isSuffixOf_iff_suffix] at here
    rw [only c' (List.mem_of_find?_eq_some found) here.2.2]
    rfl

/-- A terminator is found in the window where it is found in all that was read of the answer.  The
    wait looks into its window and the reader at the whole answer, and as terminators fit the window
    both see the same end. -/
theorem reply_eq_answerByte {n : Nat} (room : 7 ≤ n) (settled : Settled X) (acc : Bytes) (b : UInt8) :
    (reply n terminators (X ++ (acc.reverse ++ [b])) = none ∧ answerByte acc b = .more (b :: acc) ∧
        ¬okLine <:+ acc.reverse ++ [b] ∧ ¬errorLine <:+ acc.reverse ++ [b]) ∨
      ∃ ok, reply n terminators (X ++ (acc.reverse ++ [b])) = some (if ok then .success else .failure) ∧
        answerByte acc b = .stop (ok, acc.reverse ++ [b]) ∧
        (if ok then okLine else errorLine) <:+ acc.reverse ++ [b] := by
  have read : (b :: acc).reverse = acc.reverse ++ [b] := List.reverse_cons
  have apart : reply n terminators (X ++ (acc.reverse ++ [b])) =
      reply n terminators (acc.reverse ++ [b]) :=
    reply_congr fun c hc _ => (settled c hc).suffix_append_iff (by simp)
  have known : ∀ c ∈ terminators, c.1 ≠ [] ∧ c.1.length ≤ 7 := by decide
  have found (p : Bytes) : p.reverse.isPrefixOf (b :: acc) = true ↔ p <:+ acc.reverse ++ [b] := by
    rw [List.isPrefixOf_iff_prefix, ← read, ← List.reverse_prefix, List.reverse_reverse]
  rw [apart]
  unfold answerByte
  -- the tool asks for the success first, the wait for the failure; no text ends with both
  by_cases success : okLine <:+ acc.reverse ++ [b]
  · right
    refine ⟨true, ?_, ?_, success⟩
    · have mem : (okLine, MatchOutcome.success) ∈ terminators := by decide
      obtain ⟨more, short⟩ := known _ mem
      refine reply_of_only mem more (Nat.le_trans short room) success fun c hc s => ?_
      rcases List.mem_pair.mp hc with rfl | rfl
      · exact absurd success (not_okLine_of_errorLine s)
      · rfl
    · rw [if_pos ((found okLine).mpr success), read]
  · by_cases failure : errorLine <:+ acc.reverse ++ [b]
    · right
      refine ⟨false, ?_, ?_, failure⟩
      · have mem : (errorLine, MatchOutcome.failure) ∈ terminators := by decide
        obtain ⟨more, short⟩ := known _ mem
        refine reply_of_only mem more (Nat.le_trans short room) failure fun c hc s => ?_
        rcases List.mem_pair.mp hc with rfl | rfl
        · rfl
        · exact absurd s success
      · rw [if_neg fun s => success ((found okLine).mp s), if_pos ((found errorLine).mpr failure), read]
    · left
      refine ⟨reply_eq_none fun c hc _ => ?_, ?_, success, failure⟩
      · rcases List.mem_pair.mp hc with rfl | rfl
        · exact failure
        · exact success
      · rw [if_neg fun s => success ((found okLine).mp s), if_neg fun s => failure ((found errorLine).mp s)]

/-! ## Side by side -/

/-- What a wait and a reader have in common, where the reader has read `acc` of the answer so far,
    newest byte first: the reader says what the wait says, and the stream is left in the same state.
    It is proved by induction on the bytes that arrive, one step for each, and in the end it says
    that the two agree on the whole answer. -/
structure Beside (deadline : Nat) (acc : Bytes) (e : Engine σ) (o : MatchOutcome) (f : Engine σ)
    (taken : Bytes) : Prop where
  unread : e.stream.unread = taken ++ f.stream.unread
  scan : e.stream.scan (fun _ => deadline) answerByte acc = (told (acc.reverse ++ taken) o, f.stream)
  /-- There is no terminator before the last byte. -/
  early : ∀ q, q <+: taken → q ≠ [] → q ≠ taken →
    ¬okLine <:+ acc.reverse ++ q ∧ ¬errorLine <:+ acc.reverse ++ q
  found : o ≠ .timedOut → ∃ ok : Bool, o = (if ok then .success else .failure) ∧
    (if ok then okLine else errorLine) <:+ acc.reverse ++ taken

namespace Beside

variable {deadline : Nat} {e next f : Engine σ} {o : MatchOutcome} {taken : Bytes}

/-- A byte that ends the answer is the last for both. -/
theorem stop {ok : Bool} (r : e.stream.readBy deadline = (some b, next.stream))
    (here : answerByte acc b = .stop (ok, acc.reverse ++ [b]))
    (ends : (if ok then okLine else errorLine) <:+ acc.reverse ++ [b]) :
    Beside deadline acc e (if ok then .success else .failure) next [b] where
  unread := (Stream.took_readBy r).unread
  scan := by
    rw [Stream.scan_of_some r, here]
    cases ok <;> rfl
  early q hq more others := by
    rcases List.prefix_cons_iff.mp hq with rfl | ⟨q, rfl, inside⟩
    · exact absurd rfl more
    · rw [List.prefix_nil.mp inside] at others
      exact absurd rfl others
  found _ := ⟨ok, rfl, ends⟩

theorem cons (r : e.stream.readBy deadline = (some b, next.stream))
    (here : answerByte acc b = .more (b :: acc))
    (goesOn : ¬okLine <:+ acc.reverse ++ [b] ∧ ¬errorLine <:+ acc.reverse ++ [b])
    (k : Beside deadline (b :: acc) next o f taken) : Beside deadline acc e o f (b :: taken) := by
  have shift (q : Bytes) : (b :: acc).reverse ++ q = acc.reverse ++ b :: q := by simp
  refine ⟨?_, ?_, ?_, ?_⟩
  -- the bytes that were taken
  · rw [(Stream.took_readBy r).unread, k.unread]
    rfl
  -- what the tool has read
  · rw [Stream.scan_of_some r, here, ← shift]
    exact k.scan
  -- no earlier beginning was an answer
  · intro q hq more others
    rcases List.prefix_cons_iff.mp hq with rfl | ⟨q, rfl, inside⟩
    · exact absurd rfl more
    · by_cases last : q = []
      · rw [last]
        exact goesOn
      · rw [← shift]
        exact k.early q inside last fun h => others (by rw [h])
  -- what the last byte completed
  · intro late
    rw [← shift]
    exact k.found late

/-- What both have taken is an answer, if they have read it from its beginning. -/
theorem firstAnswer {ok : Bool} (k : Beside deadline [] e (if ok then .success else .failure) f taken) :
    FirstAnswer ok taken where
  ends := by
    obtain ⟨ok', same, ends⟩ := k.found (by cases ok <;> simp)
    have : ok = ok' := by cases ok <;> cases ok' <;> first | rfl | cases same
    rwa [this]
  first q hq other := by
    by_cases nothing : q = []
    · rw [nothing, List.suffix_nil, List.suffix_nil]
      decide
    · exact k.early q hq nothing other

end Beside

/-- A byte that is taken in where nobody listens for reports moves the window and is put on
    record. -/
theorem accept_silent {heard : Bytes} {e : Engine σ} (silent : e.registry.handlers = [])
    (window : e.window.EndOf heard) (t : Stream σ) (b : UInt8) :
    let next := { e with stream := t }.accept b
    next.stream = t ∧ next.registry.handlers = [] ∧ next.window.capacity = e.window.capacity ∧
      next.window.EndOf (heard ++ [b]) := by
  intro next
  have same : next = { e with stream := t }.hear b :=
    accept_of_no_handlers (e := { e with stream := t }) silent b
  rw [same]
  exact ⟨rfl, silent, rfl, window.push b⟩

/-- Where no terminator has begun, a wait and a reader that have the same deadline run beside each
    other.  By induction along the wait, with the bytes that the reader has kept as `acc`. -/
theorem exists_beside (deadline : Nat) {e : Engine σ} (silent : e.registry.handlers = [])
    (room : 7 ≤ e.window.capacity) (settled : Settled X) (acc : Bytes)
    (window : e.window.EndOf (X ++ acc.reverse)) :
    ∃ taken, Beside deadline acc e (e.waitUntil deadline terminators).1
      (e.waitUntil deadline terminators).2 taken := by
  -- `acc` is what has been read of the answer, so what was heard is what was heard before and this
  generalize hcs : terminators = cs
  fun_induction waitUntil deadline cs e generalizing acc with
  | case1 e t r =>
    refine ⟨[], (Stream.unread_of_readBy_none r).symm, ?_, ?_, fun late => absurd rfl late⟩
    · rw [Stream.scan_of_none r]
      simp [told]
    · intro q hq more
      exact absurd (List.prefix_nil.mp hq) more
  | case2 e b t r next o ho =>
    obtain ⟨stream, -, size, window'⟩ := accept_silent silent window t b
    rw [List.append_assoc] at window'
    rw [← hcs, classify_eq_reply window', size] at ho
    rcases reply_eq_answerByte room settled acc b with ⟨none, -⟩ | ⟨ok, found, here, ends⟩
    · rw [none] at ho
      cases ho
    · obtain rfl := Option.some.inj (ho.symm.trans found)
      exact ⟨[b], .stop (by rwa [stream]) here ends⟩
  | case3 e b t r next ho ih =>
    obtain ⟨stream, silent', size, window'⟩ := accept_silent silent window t b
    rw [List.append_assoc] at window'
    rw [← hcs, classify_eq_reply window', size] at ho
    rcases reply_eq_answerByte room settled acc b with ⟨-, here, goesOn⟩ | ⟨ok, found, -⟩
    · obtain ⟨taken, k⟩ := ih silent' (by rwa [size]) (b :: acc) (by rwa [List.reverse_cons])
      exact ⟨b :: taken, .cons (by rwa [stream]) here goesOn k⟩
    · rw [found] at ho
      cases ho

/-! ## The subcommand -/

/-- What becomes of a passthrough that leaves the engine `g`, by what the reader has said. -/
def passed (echo : Echo) (output : Output) (g : Engine σ) :
    Stream.Scan Bytes (Bool × Bytes) → EStateM.Result ToolError (Console σ) Bool
  | .more _ => .error (.link .timedOut) ⟨g, output⟩
  | .stop (ok, answer) =>
    match output.write (echo.render answer) with
    | .ok output => .ok ok ⟨g, output⟩
    | .error fault => .error (.io fault) ⟨g, output⟩

/-- An answer that there is comes to something on the output, raw or in hexadecimal. -/
theorem render_ne_nil (echo : Echo) {answer : Bytes} (some : answer ≠ []) : echo.render answer ≠ [] := by
  cases echo with
  | text => exact some
  | hex => exact List.append_ne_nil_of_right_ne_nil _ (List.cons_ne_nil _ _)

/-- An answer that there is is printed, unless the output takes nothing more; then that is the
    error. -/
theorem passed_stop (echo : Echo) (output : Output) (g : Engine σ) (ok : Bool) {answer : Bytes}
    (some : answer ≠ []) :
    passed echo output g (.stop (ok, answer)) =
      if output.closed then .error (.io .outputClosed) ⟨g, output⟩
      else .ok ok ⟨g, { output with bytes := output.bytes ++ echo.render answer }⟩ := by
  have shown : (echo.render answer).isEmpty = false := by
    rw [List.isEmpty_eq_false_iff]
    exact render_ne_nil echo some
  simp only [passed]
  unfold Output.write
  rw [shown]
  cases output.closed <;> rfl

/-- What the wait says, and what becomes of the passthrough: a timeout is one, and an answer is
    printed with its verdict.  The output can be closed, and then the printing fails after all has
    been read. -/
theorem Beside.passed {deadline : Nat} {e f : Engine σ} {o : MatchOutcome} {taken : Bytes}
    (k : Beside deadline [] e o f taken) (echo : Echo) (output : Output) (g : Engine σ) :
    (o = .timedOut ∧ passed echo output g (told taken o) = .error (.link .timedOut) ⟨g, output⟩) ∨
      ∃ ok : Bool, o = (if ok then .success else .failure) ∧ FirstAnswer ok taken ∧
        passed echo output g (told taken o) =
          if output.closed then .error (.io .outputClosed) ⟨g, output⟩
          else .ok ok ⟨g, { output with bytes := output.bytes ++ echo.render taken }⟩ := by
  by_cases late : o = .timedOut
  · subst late
    exact .inl ⟨rfl, rfl⟩
  · obtain ⟨ok, rfl, terminated⟩ := k.found late
    have some : taken ≠ [] := by
      rintro rfl
      cases ok <;> exact absurd (List.suffix_nil.mp terminated) (by decide)
    have heard : told taken (if ok then .success else .failure) = .stop (ok, taken) := by
      cases ok <;> rfl
    rw [heard, passed_stop echo output g ok some]
    exact .inr ⟨ok, rfl, k.firstAnswer, rfl⟩

theorem engine_passed (echo : Echo) (output : Output) (g : Engine σ)
    (said : Stream.Scan Bytes (Bool × Bytes)) : (endState (passed echo output g said)).engine = g := by
  unfold passed
  split
  · rfl
  · split <;> rfl

section

variable [Device σ] {command : String} {timeout : Nat} {echo : Echo} {c : Console σ} {f : Engine σ}

/-- A command that cannot be sent is not waited for, and nothing is printed. -/
theorem ask_of_not_sent {err : AtError} (failed : send command c.engine = .error err f) :
    ask command timeout echo c = .error (.link err) { c with engine := f } :=
  bind_of_error (ofEngine_of_error failed)

/-- Behind a command that was sent there is one fold over the bytes and then the printing.  It takes
    the reading and the printing apart, so that the reading can be compared with a wait. -/
theorem ask_of_sent {t : Stream σ} {said : Stream.Scan Bytes (Bool × Bytes)}
    (sent : send command c.engine = .ok () f)
    (scan : f.stream.scan (fun _ => f.now + timeout) answerByte [] = (said, t)) :
    ask command timeout echo c = passed echo c.output { f with stream := t } said := by
  refine (bind_of_ok (ofEngine_of_ok sent)).trans ?_
  cases said with
  | more acc =>
    -- the deadline came, and what has been read is dropped
    have late : onStream (readAnswer timeout) f = .error .timedOut { f with stream := t } := by
      have scanned : readAnswer timeout f.stream = .error .timedOut t := by
        unfold readAnswer
        simp only [show f.stream.now = f.now from rfl, scan]
      unfold onStream
      rw [scanned]
    exact bind_of_error (ofEngine_of_error (c := { c with engine := f }) late)
  | stop said =>
    -- the answer is complete; it is printed if the output takes it
    have read : onStream (readAnswer timeout) f = .ok said { f with stream := t } := by
      have scanned : readAnswer timeout f.stream = .ok said t := by
        unfold readAnswer
        simp only [show f.stream.now = f.now from rfl, scan]
      unfold onStream
      rw [scanned]
    refine (bind_of_ok (ofEngine_of_ok (c := { c with engine := f }) read)).trans ?_
    obtain ⟨ok, answer⟩ := said
    show (ToolM.write (echo.render answer) >>= fun _ => pure ok) ⟨{ f with stream := t }, c.output⟩ = _
    simp only [passed]
    cases w : c.output.write (echo.render answer) with
    | ok output =>
      have wrote : ToolM.write (echo.render answer) ⟨{ f with stream := t }, c.output⟩ =
          .ok () ⟨{ f with stream := t }, output⟩ := by
        unfold ToolM.write
        simp only [w]
      exact bind_of_ok wrote
    | error fault =>
      have refused : ToolM.write (echo.render answer) ⟨{ f with stream := t }, c.output⟩ =
          .error (.io fault) ⟨{ f with stream := t }, c.output⟩ := by
        unfold ToolM.write
        simp only [w]
      exact bind_of_error refused

/-- A command that cannot be sent fails for no other reason than that.  That the link refuses to be
    written to is all that can go wrong before the device is involved. -/
theorem fault_of_send {err : AtError} {e f : Engine σ} (failed : send command e = .error err f) :
    ∃ fault, err = .io fault := by
  have of_print {data : Bytes} {e f : Engine σ} (failed : print data e = .error err f) :
      ∃ fault, err = .io fault := by
    unfold print at failed
    split at failed
    · cases failed
    · cases failed
      exact ⟨_, rfl⟩
  cases text : print (Utf8.encode command) e with
  | ok _ g =>
    have rest : print crlf g = .error err f := (bind_of_ok text).symm.trans failed
    exact of_print rest
  | error err' g =>
    obtain ⟨rfl, -⟩ := EStateM.Result.error.inj ((bind_of_error text).symm.trans failed)
    exact of_print text

/-- Nothing goes into the window, and nobody is told of anything: of the engine the passthrough
    moves only the stream. -/
theorem only_stream_ask (command : String) (timeout : Nat) (echo : Echo) (c : Console σ) :
    ∃ s, (endState (ask command timeout echo c)).engine = { c.engine with stream := s } := by
  cases sent : send command c.engine with
  | error err f =>
    have only := onlyLink_send command c.engine
    rw [sent] at only
    refine ⟨f.stream, ?_⟩
    rw [ask_of_not_sent sent]
    exact only.only_stream
  | ok _ f =>
    rcases scan : f.stream.scan (fun _ => f.now + timeout) answerByte [] with ⟨said, t⟩
    refine ⟨t, ?_⟩
    rw [ask_of_sent sent scan, engine_passed, eq_of_send sent]

/-- A command that is passed through is answered as if its terminator had been waited for, and the stream
    is left as the wait leaves it, at the same time and with the same bytes to read.  What is printed is
    what was taken off it: all up to the first terminator.  Nothing else on the engine changes, whatever
    handlers there are. -/
theorem ask_agrees_with_wait (command : String) (timeout : Nat) (echo : Echo) (c : Console σ) :
    let asked := ask command timeout echo c
    let waited := (do send command; await [] timeout true true : EngineM σ MatchOutcome) c.engine
    (∃ s, (endState asked).engine = { c.engine with stream := s }) ∧
      (c.engine.registry.handlers = [] → 7 ≤ c.engine.window.capacity →
        LineEnd c.engine.window.bytes →
        (∀ ok : Bool, outcome asked = .ok ok ↔
          c.output.closed = false ∧ outcome waited = .ok (if ok then .success else .failure)) ∧
        (outcome asked = .error (.link .timedOut) ↔ outcome waited = .ok .timedOut) ∧
        (endState asked).engine.stream = (endState waited).stream ∧
        ∀ ok, outcome asked = .ok ok → ∃ f answer, send command c.engine = .ok () f ∧
          FirstAnswer ok answer ∧
          f.stream.unread = answer ++ (endState asked).engine.stream.unread ∧
          (endState asked).output.bytes = c.output.bytes ++ echo.render answer) := by
  intro asked waited
  refine ⟨only_stream_ask command timeout echo c, fun silent room lineEnd => ?_⟩
  cases sent : send command c.engine with
  | error err f =>
    -- the command could not be sent, on either side for the same reason
    obtain ⟨fault, rfl⟩ := fault_of_send sent
    have asked' : asked = .error (.link (.io fault)) { c with engine := f } := ask_of_not_sent sent
    have waited' : waited = .error (.io fault) f := bind_of_error sent
    rw [asked', waited']
    refine ⟨fun ok => ?_, ?_, rfl, fun ok said => ?_⟩
    · simp [outcome]
    · simp [outcome]
    · cases said
  | ok _ f =>
    -- sending changes neither window nor handlers
    obtain ⟨silent', room', window⟩ : f.registry.handlers = [] ∧ 7 ≤ f.window.capacity ∧
        f.window = c.engine.window := by
      rw [eq_of_send sent]
      exact ⟨silent, room, rfl⟩
    have ends : f.window.EndOf (c.engine.window.bytes ++ [].reverse) := by
      rw [List.reverse_nil, List.append_nil, window]
      exact c.engine.window.endOf_bytes
    rcases w : f.wait [] timeout true true with ⟨o, g⟩
    obtain ⟨taken, k⟩ : ∃ taken, Beside (f.now + timeout) [] f o g taken := by
      have run : f.waitUntil (f.now + timeout) terminators = (o, g) := w
      have both := exists_beside (f.now + timeout) silent' room' (settled_of_lineEnd lineEnd) [] ends
      rwa [run] at both
    have waited' : waited = .ok o g := (bind_of_ok sent).trans (await_of_wait w)
    have asked' : asked = passed echo c.output { f with stream := g.stream } (told taken o) :=
      ask_of_sent sent k.scan
    have stream : (endState asked).engine.stream = g.stream := by rw [asked', engine_passed]
    rcases k.passed echo c.output { f with stream := g.stream } with
      ⟨rfl, late⟩ | ⟨ok, rfl, first, stopped⟩
    -- both timed out
    · rw [late] at asked'
      rw [asked', waited']
      refine ⟨fun ok => ?_, ?_, rfl, fun ok said => ?_⟩
      · cases ok <;> simp [outcome]
      · simp [outcome]
      · cases said
    -- both found the answer; whether the tool says so depends on the output
    · rw [stopped] at asked'
      refine ⟨fun ok' => ?_, ?_, ?_, fun ok' said => ?_⟩
      · rw [asked', waited']
        cases c.output.closed <;> cases ok <;> cases ok' <;> simp [outcome]
      · rw [asked', waited']
        cases c.output.closed <;> cases ok <;> simp [outcome]
      · rw [stream, waited']
        rfl
      · rw [asked'] at said
        cases opened : c.output.closed with
        | true =>
          rw [opened] at said
          cases said
        | false =>
          rw [opened] at said asked'
          cases said
          refine ⟨f, taken, rfl, first, ?_, ?_⟩
          · rw [stream]
            exact k.unread
          · rw [asked']
            rfl

end

/-- A report comes in between and is part of the answer; what comes behind the terminator is left.
    A wait would have given a report to its handler; with none registered both take it for a line of
    the answer. -/
theorem ask_agrees_with_wait_interrupted :
    let heard := Utf8.encode "\r\n+CSQ: 17,99\r\nRING\r\n\r\nOK\r\n"
    let s : Script := ⟨[], heard ++ Utf8.encode "\r\nRING"⟩
    let c : Console Script := ⟨ofLink .standard (.ofDevice s), .fresh false⟩
    let asked := ask "AT+CSQ" 500 .text c
    c.engine.registry.handlers = [] ∧ 7 ≤ c.engine.window.capacity ∧ LineEnd c.engine.window.bytes ∧
      outcome asked = .ok true ∧
      ∃ f answer, send "AT+CSQ" c.engine = .ok () f ∧ FirstAnswer true answer ∧
        f.stream.unread = answer ++ (endState asked).engine.stream.unread ∧
        (endState asked).output.bytes = c.output.bytes ++ answer := by
  intro heard s c asked
  have silent : c.engine.registry.handlers = [] := rfl
  have room : 7 ≤ c.engine.window.capacity := by decide
  have lineEnd : LineEnd c.engine.window.bytes := .inl rfl
  obtain ⟨verdict, -, -, printed⟩ := (ask_agrees_with_wait "AT+CSQ" 500 .text c).2 silent room lineEnd
  have answers : Device.answer s (Utf8.encode "AT+CSQ") = (s, .now (heard ++ Utf8.encode "\r\nRING")) := rfl
  have complete : Complete (heard, .success) := by decide
  let exchange : EngineM Script MatchOutcome := do send "AT+CSQ"; await [] 500 true true
  have waited : outcome (exchange c.engine) = .ok .success := by
    obtain ⟨f, sent, k⟩ := (Calm.ofLink .standard s).send rfl (by decide) answers
    replace k : Calm c.engine.window.capacity s [] (heard ++ Utf8.encode "\r\nRING") f := k
    obtain ⟨g, w, -⟩ := k.wait (complete.heard room fun _ _ => .nil _) 500
    have ran : exchange c.engine = .ok .success g := (bind_of_ok sent).trans (await_of_wait w)
    rw [ran]
    rfl
  have ok : outcome asked = .ok true := (verdict true).mpr ⟨rfl, waited⟩
  exact ⟨silent, room, lineEnd, ok, printed true ok⟩

end AtModem
