/-
  A command that is rejected, and the command after it.

  Some commands of the MQTT client may be answered by a result line under a tag of their own, in place of
  the prompt or of `OK`; the line has a terminator of its own behind it.  An upload reads the line, clears
  the terminator away and is at rest again, so the next command has its own answer before it.  The two
  commands that acquire and release a client read the line and leave the terminator; the next command
  takes it for its answer, and from then on every answer is taken for that of the command behind it.
-/
import AtModem.Proofs.Calm
import AtModem.Proofs.Upload

namespace AtModem

/-! ## Numbers as they are written -/

namespace Decimal

theorem encode_toString (n : Nat) : Utf8.encode (toString n) = digits n := by
  have one : ∀ n < 10, String.utf8EncodeChar n.digitChar = [0x30 + n.toUInt8] := by decide
  rw [Nat.toString_eq_ofList_toDigits, Utf8.encode_eq, String.toList_ofList]
  fun_induction digits n with
  | case1 n lt => simp [Nat.toDigits_of_lt_base lt, one n lt]
  | case2 n ge ih =>
    rw [Nat.toDigits_of_base_le (by decide) (by omega), List.flatMap_append, ih]
    simp [one _ (Nat.mod_lt n (by decide))]

/-- The digits of a number, behind a minus sign if it is negative. -/
def signed (k : Int) : Bytes := if k < 0 then Ascii.minus :: digits k.natAbs else digits k.natAbs

theorem encode_toString_int (k : Int) : Utf8.encode (toString k) = signed k := by
  cases k with
  | ofNat n => exact encode_toString n
  | negSucc n =>
    have text : toString (Int.negSucc n) = "-" ++ toString (n + 1) := rfl
    rw [text, Utf8.encode_append, encode_toString, signed, if_pos (Int.negSucc_lt_zero n)]
    rfl

end Decimal

/-- A number that is written so is read as itself, up to the byte behind it.  Codes may be negative,
    and `Decimal.digits` alone could not write those. -/
theorem Stream.reads_parseInt_signed {σ : Type} {k : Int} (fits : k.natAbs ≤ Decimal.maxInt) {c : UInt8}
    (stop : Decimal.isDigit c = false) (after : Bytes) :
    Reads (parseInt (σ := σ)) k (Decimal.signed k ++ c :: after) (c :: after) := by
  have value := Decimal.value_digits k.natAbs
  have some := Decimal.digits_ne_nil k.natAbs
  have digits : ∀ d ∈ Decimal.digits k.natAbs, Decimal.isDigit d = true := fun d hd =>
    Decimal.isDigit_of_mem_digits hd
  unfold Decimal.signed
  split
  · have number : k = -(Decimal.value (Decimal.digits k.natAbs) : Int) := by
      rw [value]
      omega
    conv => arg 2; rw [number]
    exact reads_parseInt_minus some digits (value.symm ▸ fits) stop after
  · have number : k = (Decimal.value (Decimal.digits k.natAbs) : Int) := by
      rw [value]
      omega
    conv => arg 2; rw [number]
    exact reads_parseInt some digits (value.symm ▸ fits) stop after

/-! ## The commands -/

namespace Mqtt

/-- The commands that a result line under a tag of their own may answer in place of the prompt or of
    `OK`.  The first five of them are uploads, and the last two are plain commands; that is where
    their endings differ. -/
inductive TaggedCall where
  | topic (text : String)
  | payload (bytes : Bytes)
  | willTopic (text : String)
  | willMessage (text : String) (qos : Nat)
  | subscription (text : String) (qos : Nat)
  | acquire (clientId : String) (useSsl : Bool)
  | release

namespace TaggedCall

/-- The method of the client that the call stands for. -/
def run {σ : Type} [Device σ] (client : ClientIndex) : TaggedCall → ClientM σ Unit
  | topic text => setTopic client text
  | payload bytes => setPayload client bytes
  | willTopic text => setWillTopic client text
  | willMessage text qos => setWillMessage client text qos
  | subscription text qos => subscribe client text qos
  | acquire clientId useSsl => Mqtt.acquire client clientId useSsl
  | release => releaseClient client

/-- What opens the result line; each of these commands has a tag of its own. -/
def tag : TaggedCall → String
  | topic _ => "+CMQTTTOPIC: "
  | payload _ => "+CMQTTPAYLOAD: "
  | willTopic _ => "+CMQTTWILLTOPIC: "
  | willMessage .. => "+CMQTTWILLMSG: "
  | subscription .. => "+CMQTTSUB: "
  | acquire .. => "+CMQTTACCQ: "
  | release => "+CMQTTREL: "

/-- The upload that a call comes to, if it is one. -/
def upload? (client : ClientIndex) : TaggedCall → Option UploadCall
  | topic text => some (.topic client text)
  | payload bytes => some (.payload client bytes)
  | willTopic text => some (.willTopic client text)
  | willMessage text qos => some (.willMessage client text qos)
  | subscription text qos => some (.subscription client text qos)
  | acquire .. => none
  | release => none

/-- The command line, or why the arguments are refused. -/
def line (client : ClientIndex) : TaggedCall → Except ArgumentFault String
  | acquire clientId useSsl =>
    if quotable clientId then .ok s!"AT+CMQTTACCQ={client},\"{clientId}\",{flag useSsl}"
    else .error (.unquotable clientId)
  | release => .ok s!"AT+CMQTTREL={client}"
  | topic text => (UploadCall.topic client text).request.map Upload.command
  | payload bytes => (UploadCall.payload client bytes).request.map Upload.command
  | willTopic text => (UploadCall.willTopic client text).request.map Upload.command
  | willMessage text qos => (UploadCall.willMessage client text qos).request.map Upload.command
  | subscription text qos => (UploadCall.subscription client text qos).request.map Upload.command

/-- An upload that announces itself in this line and may be answered under this tag. -/
structure Announces (u : Upload) (line tag : String) : Prop where
  command : u.command = line
  prompt : u.prompt = Utf8.encode ">"
  inlineError : u.inlineError = some (Utf8.encode tag)

/-- An upload under a tag is announced by its command line and refused under its tag. -/
theorem announces_of_under {tag command line : String} {data : Bytes}
    (h : (UploadCall.under tag command data).map Upload.command = .ok line) :
    line = command ∧ ∃ u, UploadCall.under tag command data = .ok u ∧ Announces u line tag := by
  unfold UploadCall.under at h ⊢
  split at h
  · cases h
  · cases h
    rename_i some
    exact ⟨rfl, _, if_neg some, rfl, rfl, rfl⟩

theorem announces_of_subscription {client : ClientIndex} {text line : String} {qos : Nat}
    (h : (UploadCall.subscription client text qos).request.map Upload.command = .ok line) :
    line = s!"AT+CMQTTSUB={client},{(Utf8.encode text).length},{qos}" ∧
      ∃ u, (UploadCall.subscription client text qos).request = .ok u ∧ Announces u line "+CMQTTSUB: " := by
  simp only [UploadCall.request] at h ⊢
  split at h
  · cases h
  · cases h
    rename_i some
    exact ⟨rfl, _, if_neg some, rfl, rfl, rfl⟩

variable {client : ClientIndex} {call : TaggedCall} {line : String}

/-- A call that comes to an upload announces it in its line, and its tag is the one under which it
    is refused. -/
theorem exists_announces {uc : UploadCall} (h : call.upload? client = some uc)
    (valid : call.line client = .ok line) : ∃ u, uc.request = .ok u ∧ Announces u line call.tag := by
  cases call with
  | topic => cases h; exact (announces_of_under valid).2
  | payload => cases h; exact (announces_of_under valid).2
  | willTopic => cases h; exact (announces_of_under valid).2
  | willMessage => cases h; exact (announces_of_under valid).2
  | subscription => cases h; exact (announces_of_subscription valid).2
  | acquire => cases h
  | release => cases h

theorem run_of_upload {σ : Type} [Device σ] {uc : UploadCall} (h : call.upload? client = some uc) :
    call.run (σ := σ) client = uc.run := by
  cases call <;> cases h <;> rfl

/-- A line with two numbers in it has no end in it if its head has none. -/
theorem oneLine_two (head : String) (hh : OneLine head) (a b : Nat) :
    OneLine (head ++ toString a ++ "," ++ toString b) :=
  ((hh.append (.toString a)).append (by decide)).append (.toString b)

theorem oneLine_three (head : String) (hh : OneLine head) (a b c : Nat) :
    OneLine (head ++ toString a ++ "," ++ toString b ++ "," ++ toString c) :=
  ((oneLine_two head hh a b).append (by decide)).append (.toString c)

/-- A command line that a call comes to has no end in it, since its texts have been checked or are
    not in it.  So the device hears one command and gives one answer, which the rest of the proof
    relies on. -/
theorem oneLine (valid : call.line client = .ok line) : OneLine line := by
  cases call with
  -- uploads: the line has numbers in it only
  | topic text =>
    rw [(announces_of_under valid).1]
    exact oneLine_two "AT+CMQTTTOPIC=" (by decide) client.toNat _
  | payload bytes =>
    rw [(announces_of_under valid).1]
    exact oneLine_two "AT+CMQTTPAYLOAD=" (by decide) client.toNat bytes.length
  | willTopic text =>
    rw [(announces_of_under valid).1]
    exact oneLine_two "AT+CMQTTWILLTOPIC=" (by decide) client.toNat _
  | willMessage text qos =>
    rw [(announces_of_under valid).1]
    exact oneLine_three "AT+CMQTTWILLMSG=" (by decide) client.toNat _ qos
  -- subscribing is an upload, too
  | subscription text qos =>
    rw [(announces_of_subscription valid).1]
    exact oneLine_three "AT+CMQTTSUB=" (by decide) client.toNat _ qos
  -- the name of the client is in the line, and has been checked
  | acquire clientId useSsl =>
    simp only [TaggedCall.line] at valid
    split at valid
    · rename_i quotable
      cases valid
      have name : OneLine ("AT+CMQTTACCQ=" ++ toString client.toNat ++ ",\"" ++ clientId) :=
        ((OneLine.append (by decide) (.toString _)).append (by decide)).append (.of_quotable quotable)
      exact (name.append (t := "\",") (by decide)).append (t := flag useSsl) (by cases useSsl <;> decide)
    · cases valid
  -- releasing has the number of the client only
  | release =>
    cases valid
    exact .append (s := "AT+CMQTTREL=") (by decide) (.toString client.toNat)

/-! ## What is found -/

/-- The tags of the result lines. -/
def tags : List String :=
  ["+CMQTTTOPIC: ", "+CMQTTPAYLOAD: ", "+CMQTTWILLTOPIC: ", "+CMQTTWILLMSG: ", "+CMQTTSUB: ",
    "+CMQTTACCQ: ", "+CMQTTREL: "]

/-- Every call's tag is one of them, so what is decided of all holds of it. -/
theorem tag_mem_tags (call : TaggedCall) : call.tag ∈ tags := by
  cases call <;> simp [tag, tags]

open Engine

/-- What a wait for a tag looks for, perhaps after a prompt. -/
def sought (prompts : List Bytes) (tag : String) : List (Bytes × MatchOutcome) :=
  candidates (prompts ++ [Utf8.encode tag]) true true

/-- Behind the tag, and not before it, there is something that a wait for it has found. -/
theorem firstReply_tag {prompts : List Bytes} (known : prompts ∈ [[], [Utf8.encode ">"]]) {tag : String}
    (h : tag ∈ tags) {n : Nat} (room : 17 ≤ n) {X : Bytes} (ends : LineEnd X) :
    firstReply (reply n (sought prompts tag)) X (crlf ++ Utf8.encode tag) =
      some (.pattern (prompts.length + 1), []) := by
  have all : ∀ prompts ∈ [[], [Utf8.encode ">"]], ∀ tag ∈ tags,
      (∀ c ∈ sought prompts tag, Ascii.lf ∉ c.1.dropLast ∧ c.1.length ≤ 17) ∧
        firstReply (reply 17 (sought prompts tag)) [] (crlf ++ Utf8.encode tag) =
          some (.pattern (prompts.length + 1), []) := by
    decide
  obtain ⟨each, first⟩ := all prompts known tag h
  rw [firstReply_of_apart fun c hc _ => ends.apart (each c hc).1,
    reply_of_le (fun c hc => (each c hc).2) room, first]

theorem settled_tag {tag : String} (h : tag ∈ tags) (X : Bytes) :
    Settled (X ++ (crlf ++ Utf8.encode tag)) := by
  have all : ∀ tag ∈ tags, (crlf ++ Utf8.encode tag).dropLast ++ [0x20] = crlf ++ Utf8.encode tag := by
    decide
  rw [← all tag h, ← List.append_assoc]
  exact Settled.concat (by decide) _

/-! ## Without an upload -/

/-- A command that a result line or a terminator answers. -/
def coded {σ : Type} [Device σ] (line tag : String) : EngineM σ Unit := do
  send line
  indexedCodeAfter (← await [Utf8.encode tag] commandTimeout true true)

/-- The two calls that are no uploads are such commands.  It is the other form that a call can have,
    beside the upload. -/
theorem run_of_no_upload {σ : Type} [Device σ] (h : call.upload? client = none)
    (valid : call.line client = .ok line) :
    call.run (σ := σ) client = ClientM.ofEngine (coded line call.tag) := by
  cases call with
  | acquire clientId useSsl =>
    simp only [TaggedCall.line] at valid
    split at valid
    · rename_i quotable
      cases valid
      have accepted : checkText (σ := σ) clientId = pure () := if_pos quotable
      show (do checkText clientId; ClientM.ofEngine (coded _ _)) = _
      rw [accepted]
      rfl
    · cases valid
  | release => cases valid; rfl
  | topic | payload | willTopic | willMessage | subscription => cases h

end TaggedCall

/-! ## The answer -/

/-- A result line with a code for a client, and the terminator behind it. -/
def rejection (tag : String) (client : ClientIndex) (code : Int) : Bytes :=
  Utf8.encode s!"\r\n{tag}{client},{code}\r\n\r\nERROR\r\n"

/-- What stands behind the tag in the result line. -/
def codeText (client : ClientIndex) (code : Int) : Bytes :=
  Decimal.digits client.toNat ++ Ascii.comma :: (Decimal.signed code ++ crlf)

open Engine

/-- A rejection, taken apart behind its tag, where the wait for it ends. -/
theorem rejection_eq (tag : String) (client : ClientIndex) (code : Int) :
    rejection tag client code =
      crlf ++ Utf8.encode tag ++ (codeText client code ++ (crlf ++ errorLine)) := by
  have text : s!"\r\n{tag}{client},{code}\r\n\r\nERROR\r\n" =
      "\r\n" ++ tag ++ toString client.toNat ++ "," ++ toString code ++ "\r\n\r\nERROR\r\n" := rfl
  have opening : Utf8.encode "\r\n" = crlf := by decide
  have comma : Utf8.encode "," = [Ascii.comma] := by decide
  have closing : Utf8.encode "\r\n\r\nERROR\r\n" = crlf ++ (crlf ++ errorLine) := by decide
  rw [rejection, text]
  simp only [Utf8.encode_append, opening, comma, closing, Decimal.encode_toString,
    Decimal.encode_toString_int, codeText, List.append_assoc, List.cons_append, List.nil_append]

end Mqtt

namespace Engine

open Mqtt Mqtt.TaggedCall

variable {σ : Type} {n : Nat} {d d' : σ} {X rest : Bytes} {e : Engine σ} {client : ClientIndex}
  {code : Int} {tag : String}

/-- The code of a result line is read, and the terminator is what comes next. -/
theorem Calm.indexedCode (h : Calm n d X (codeText client code ++ rest) e)
    (fits : code.natAbs ≤ Decimal.maxInt) :
    ∃ f, Engine.indexedCode e = .ok code f ∧ Calm n d X rest f := by
  have unpunctuated : Ascii.comma ∉ Decimal.digits client.toNat :=
    Decimal.not_mem_digits (by decide) client.toNat
  have text : codeText client code ++ rest =
      Decimal.digits client.toNat ++ Ascii.comma ::
        (Decimal.signed code ++ Ascii.cr :: Ascii.lf :: rest) := by
    simp [codeText, crlf]
  rw [text] at h
  exact h.readsCode unpunctuated (Stream.reads_parseInt_signed fits (by decide) _)

/-- The code of a rejection: not zero, and a 32-bit integer. -/
structure ErrorCode (code : Int) : Prop where
  nonzero : code ≠ 0
  low : -0x80000000 ≤ code
  high : code < 0x80000000

theorem ErrorCode.fits (h : ErrorCode code) : code.natAbs ≤ Decimal.maxInt := by
  have low := h.low
  have high := h.high
  unfold Decimal.maxInt
  omega

/-- Such a code is an error, and the one that the device gave. -/
theorem ErrorCode.check (h : ErrorCode code) : checkCode code = .error (.deviceCode code) := by
  unfold checkCode
  rw [if_neg h.nonzero, if_pos ⟨h.low, h.high⟩]

/-! ## One answer behind -/

/-- A calm engine on which these answers are still to be read: the invariant of an engine that is
    some answers behind.  Each command takes the first of these answers for its own and adds its own
    answer behind the last, so their number stays the same. -/
def Behind (capacity : Nat) (device : σ) (left : List (Bytes × MatchOutcome)) (e : Engine σ) : Prop :=
  ∃ X, Settled X ∧ Calm capacity device X (inTurn left) e

theorem AtRest.behind (h : AtRest n d e) : Behind n d [] e := by
  obtain ⟨X, lineEnd, calm⟩ := h
  exact ⟨X, settled_of_lineEnd lineEnd, calm⟩

variable [Device σ]

/-- A device that is given these command lines, one after another, gives these answers.  The answers
    may be any complete ones, in whatever words the device gives them. -/
inductive Answering : σ → List (String × Bytes × MatchOutcome) → σ → Prop where
  | nil (d : σ) : Answering d [] d
  | cons {d d' d'' : σ} {line : String} {a : Bytes × MatchOutcome}
      {following : List (String × Bytes × MatchOutcome)} (complete : Complete a)
      (lines : Device.takesRaw d = false) (oneLine : OneLine line)
      (answers : Device.answer d (Utf8.encode line) = (d', .now a.1))
      (more : Answering d' following d'') : Answering d ((line, a) :: following) d''

/-- What an answer makes of the command that takes it for its own. -/
def verdict (a : Bytes × MatchOutcome) : Except AtError Unit := a.2.expectSuccess

/-- What becomes of an exchange, and the engine after it either way. -/
def outcome (x : EngineM σ Unit) (e : Engine σ) : Except AtError Unit × Engine σ :=
  match x e with
  | .ok () f => (.ok (), f)
  | .error err f => (.error err, f)

omit [Device σ] in
/-- An exchange that comes to a result has that outcome. -/
theorem outcome_eq {x : EngineM σ Unit} {v : Except AtError Unit} {f : Engine σ}
    (ran : x e = ofResult v f) : outcome x e = (v, f) := by
  unfold outcome
  rw [ran]
  cases v <;> rfl

/-- Gives commands one after another, whatever becomes of each. -/
def commands (timeout : Nat) : List String → Engine σ → List (Except AtError Unit) × Engine σ
  | [], e => ([], e)
  | line :: lines, e =>
    let (v, f) := outcome (command line timeout) e
    let (vs, g) := commands timeout lines f
    (v :: vs, g)

/-- The first command has its verdict, and the others go on from where it ended. -/
theorem commands_cons {timeout : Nat} {line : String} {lines : List String} {v : Except AtError Unit}
    {vs : List (Except AtError Unit)} {f g : Engine σ} (ran : command line timeout e = ofResult v f)
    (rest : commands timeout lines f = (vs, g)) : commands timeout (line :: lines) e = (v :: vs, g) := by
  rw [commands, outcome_eq ran]
  simp only [rest]

/-- Each of the commands takes the oldest answer for its own, so each has the verdict on one that came as
    many commands before it as answers had been left. -/
theorem Behind.commands {left : List (Bytes × MatchOutcome)}
    {following : List (String × Bytes × MatchOutcome)} (room : 7 ≤ n) (h : Behind n d left e)
    (complete : ∀ a ∈ left, Complete a) (run : Answering d following d') (timeout : Nat) :
    let queue := left ++ following.map Prod.snd
    ∃ f, Engine.commands timeout (following.map Prod.fst) e =
        ((queue.take following.length).map verdict, f) ∧
      Behind n d' (queue.drop following.length) f := by
  -- on the commands; the answer to each goes behind what had been left
  induction run generalizing left e with
  | nil d => exact ⟨e, by simp [Engine.commands], by simpa using h⟩
  | @cons d d' d'' line a following own lines oneLine answers more ih =>
    obtain ⟨X, settled, calm⟩ := h
    obtain ⟨first, others, queue⟩ : ∃ first others, left ++ [a] = first :: others :=
      List.exists_cons_of_ne_nil (by simp)
    have all : ∀ b ∈ first :: others, Complete b := by
      rw [← queue]
      intro b hb
      rcases List.mem_append.mp hb with old | new
      · exact complete b old
      · exact List.mem_singleton.mp new ▸ own
    obtain ⟨f, ran, calm⟩ := calm.command room settled queue (all first List.mem_cons_self) lines oneLine
      answers timeout
    have ended := (all first List.mem_cons_self).lineEnd X
    have behind : Behind n d' others f := ⟨_, settled_of_lineEnd ended, calm⟩
    obtain ⟨g, rest, behind⟩ := ih behind fun b hb => all b (List.mem_cons_of_mem first hb)
    have order : left ++ ((line, a) :: following).map Prod.snd =
        first :: (others ++ following.map Prod.snd) := by
      rw [List.map_cons, ← List.cons_append, ← queue, List.append_assoc]
      rfl
    simp only [order]
    exact ⟨g, commands_cons ran rest, behind⟩

/-- An upload that is rejected is given up, and the whole answer has been read.  The code is read
    first and then the terminator, so nothing is left for the next command. -/
theorem AtRest.upload_rejected {u : Upload} {line : String} (room : 17 ≤ n) (h : AtRest n d e)
    (a : Announces u line tag) (known : tag ∈ tags) (ec : ErrorCode code)
    (lines : Device.takesRaw d = false) (oneLine : OneLine line)
    (answers : Device.answer d (Utf8.encode line) = (d', .now (rejection tag client code))) :
    ∃ f, upload u e = .error (.deviceCode code) f ∧ AtRest n d' f := by
  obtain ⟨X, lineEnd, calm⟩ := h
  obtain ⟨f, sent, calm⟩ := calm.send lines oneLine answers
  rw [List.nil_append, rejection_eq] at calm
  have second : firstReply (reply n (sought [Utf8.encode ">"] tag)) X (crlf ++ Utf8.encode tag) =
      some (.pattern 2, []) := firstReply_tag (by simp) known room lineEnd
  -- the tag comes and no prompt, then the code behind it
  obtain ⟨g, w, calm⟩ := calm.wait second u.promptTimeout
  obtain ⟨i, number, calm⟩ := calm.indexedCode ec.fits
  have complete : Complete (crlf ++ errorLine, .failure) := by decide
  rw [← List.append_nil (crlf ++ errorLine)] at calm
  -- the terminator is cleared before the error is handed on
  obtain ⟨j, cleared, calm⟩ := calm.plainClear (complete.heard (by omega) (settled_tag known X))
  have refused : readRefusal u g = .error (.deviceCode code) j := by
    refine (bind_of_ok number).trans ((bind_of_ok cleared).trans ?_)
    rw [ec.check]
    rfl
  have asked : f.wait (u.prompt :: u.inlineError.toList) u.promptTimeout true true = (.pattern 2, g) := by
    rw [a.prompt, a.inlineError]
    exact w
  have unprompted : awaitPrompt u f = .error (.deviceCode code) j :=
    -- the payload is never sent
    (bind_of_ok (await_of_wait asked)).trans refused
  rw [← a.command] at sent
  exact ⟨j, (bind_of_ok sent).trans (bind_of_error unprompted), _, complete.lineEnd _, calm⟩

/-- A command that is rejected in place of `OK` is given up at the end of the result line.  The
    terminator is still to be read then, and the next command will take it for its answer. -/
theorem AtRest.coded_rejected {line : String} (room : 17 ≤ n) (h : AtRest n d e) (known : tag ∈ tags)
    (ec : ErrorCode code) (lines : Device.takesRaw d = false) (oneLine : OneLine line)
    (answers : Device.answer d (Utf8.encode line) = (d', .now (rejection tag client code))) :
    ∃ f, coded line tag e = .error (.deviceCode code) f ∧ Behind n d' [(crlf ++ errorLine, .failure)] f := by
  obtain ⟨X, lineEnd, calm⟩ := h
  obtain ⟨f, sent, calm⟩ := calm.send lines oneLine answers
  rw [List.nil_append, rejection_eq] at calm
  have first : firstReply (reply n (sought [] tag)) X (crlf ++ Utf8.encode tag) = some (.pattern 1, []) :=
    firstReply_tag (by simp) known room lineEnd
  obtain ⟨g, w, calm⟩ := calm.wait first commandTimeout
  obtain ⟨i, number, calm⟩ := calm.indexedCode ec.fits
  have refused : indexedCodeLine g = .error (.deviceCode code) i := by
    refine (bind_of_ok number).trans ?_
    rw [ec.check]
    rfl
  have answered : ((do indexedCodeAfter (← await [Utf8.encode tag] commandTimeout true true)) :
      EngineM σ Unit) f = .error (.deviceCode code) i := (bind_of_ok (await_of_wait w)).trans refused
  refine ⟨i, (bind_of_ok sent).trans answered, _, settled_tag known X, ?_⟩
  simpa [inTurn] using calm

end Engine

namespace Mqtt

open Engine

variable {σ : Type} [Device σ]

/-- A call of the MQTT client, on an idle engine, is answered by a result line under its tag with a code
    other than zero, and the terminator behind it.  It reports the code.  If it is an upload, the engine
    is idle again, and commands that follow have the verdicts on their own answers.  If it acquires or
    releases a client, the terminator is left; the first command that follows fails by it, and each of
    the others has the verdict on the answer to the one before. -/
theorem rejected_call_leaves (call : TaggedCall) (client : ClientIndex) (code : Int)
    (ec : ErrorCode code) (line : String) (valid : call.line client = .ok line) (e : Engine σ)
    (idle : Idle EngineConfig.standard.windowCapacity e)
    (lines : Device.takesRaw e.stream.link.device = false) (d : σ)
    (answers : Device.answer e.stream.link.device (Utf8.encode line) =
      (d, .now (rejection call.tag client code))) :
    ∃ f, call.run client e = .error (.link (.deviceCode code)) f ∧ f.stream.link.device = d ∧
      (call.upload? client ≠ none → Idle EngineConfig.standard.windowCapacity f ∧
        ∀ following d' timeout, Answering d following d' →
          (commands timeout (following.map Prod.fst) f).1 = following.map (verdict ·.2)) ∧
      (call.upload? client = none → f.stream.unread = crlf ++ errorLine ∧
        ∀ following d' timeout, Answering d following d' →
          (commands timeout (following.map Prod.fst) f).1 =
            (.error .deviceReportedFailure :: following.map (verdict ·.2)).dropLast) := by
  have rest : AtRest EngineConfig.standard.windowCapacity e.stream.link.device e := .ofIdle idle
  have room : 17 ≤ EngineConfig.standard.windowCapacity := by decide
  have short : 7 ≤ EngineConfig.standard.windowCapacity := by decide
  have oneLine := TaggedCall.oneLine valid
  cases kind : call.upload? client with
  -- an upload clears the terminator
  | some uc =>
    obtain ⟨u, request, announces⟩ := TaggedCall.exists_announces kind valid
    obtain ⟨f, rejected, after⟩ := rest.upload_rejected room announces call.tag_mem_tags ec lines oneLine
      answers
    refine ⟨f, ?_, after.device, fun _ => ⟨after.idle, fun following d' timeout run => ?_⟩,
      fun none => by cases none⟩
    · rw [TaggedCall.run_of_upload kind, UploadCall.run_eq, request]
      exact ClientM.ofEngine_of_error rejected
    · obtain ⟨g, verdicts, -⟩ := after.behind.commands short (by simp) run timeout
      rw [verdicts, List.nil_append, List.take_of_length_le (by simp), List.map_map]
      rfl
  -- a call of the other kind does not, and the next command finds it
  | none =>
    obtain ⟨f, rejected, behind⟩ := rest.coded_rejected room call.tag_mem_tags ec lines oneLine answers
    obtain ⟨X, -, calm⟩ := id behind
    refine ⟨f, ?_, calm.device, fun some => absurd rfl some,
      fun _ => ⟨?_, fun following d' timeout run => ?_⟩⟩
    · rw [TaggedCall.run_of_no_upload kind valid]
      exact ClientM.ofEngine_of_error rejected
    · rw [calm.stream_unread]
      rfl
    · obtain ⟨g, verdicts, -⟩ := behind.commands short (by decide) run timeout
      rw [verdicts, List.dropLast_eq_take, List.map_take, List.map_append, List.map_map]
      simp only [List.length_cons, List.length_map, Nat.add_sub_cancel]
      rfl

/-- A client that is not acquired, and two commands after it that the device answers with `OK`.  The
    first fails by the terminator that was left, and the second has the answer to the first. -/
theorem rejected_call_leaves_acquire :
    let call : TaggedCall := .acquire "dev" false
    let s : Script :=
      ⟨[⟨.startsWith "AT+CMQTTACCQ", .now (rejection "+CMQTTACCQ: " 0 19), none⟩], crlf ++ okLine⟩
    let e := Engine.ofLink .standard (.ofDevice s)
    ErrorCode 19 ∧ call.line 0 = .ok "AT+CMQTTACCQ=0,\"dev\",0" ∧
      Idle EngineConfig.standard.windowCapacity e ∧
      ∃ f, call.run 0 e = .error (.link (.deviceCode 19)) f ∧
        (commands 1000 ["AT", "AT"] f).1 = [.error .deviceReportedFailure, .ok ()] := by
  intro call s e
  -- the hypotheses of the theorem hold for this device
  have ec : ErrorCode 19 := ⟨by decide, by decide, by decide⟩
  have valid : call.line 0 = .ok "AT+CMQTTACCQ=0,\"dev\",0" := by decide
  have idle : Idle EngineConfig.standard.windowCapacity e :=
    (AtRest.ofLink .standard s).idle
  have answers : Device.answer s (Utf8.encode "AT+CMQTTACCQ=0,\"dev\",0") =
      (s, .now (rejection call.tag 0 19)) := by
    show s.answer _ = _
    unfold Script.answer
    rw [Utf8.decode_encode]
    rfl
  have fallback : Device.answer s (Utf8.encode "AT") = (s, .now (crlf ++ okLine)) := by
    show s.answer _ = _
    unfold Script.answer
    rw [Utf8.decode_encode]
    rfl
  have following :
      Answering s [("AT", crlf ++ okLine, .success), ("AT", crlf ++ okLine, .success)] s :=
    .cons (by decide) rfl (by decide) fallback (.cons (by decide) rfl (by decide) fallback (.nil s))
  obtain ⟨f, rejected, -, -, left⟩ := rejected_call_leaves call 0 19 ec _ valid e idle rfl s answers
  exact ⟨ec, valid, idle, f, rejected, (left rfl).2 _ s 1000 following⟩

end Mqtt
end AtModem
