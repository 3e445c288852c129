/-
  A download hands over its payload as it is.

  Around its payload the answer to a download has a text before the header, the header, the length and
  the rest of the header line, and behind it what closes the answer (`Framing`).  The waits hear the text
  up to the header and the closing; the length, the rest of its line and the payload are read past the
  window.  So a payload may look like a header, like a terminator or like an announcement: whatever is
  the case after the download, apart from the payload itself, depends on its length alone.

  `Heard` says where an engine stands that has heard some bytes without a handler having had its turn.
  A wait takes it to the first reply (`Heard.await`), and what reads past the window leaves it where it
  was (`Heard.onStream`).
-/
import AtModem.Http.Commands
import AtModem.Link.Script
import AtModem.Proofs.Calm
import AtModem.Proofs.Download
import AtModem.Proofs.Rejection

namespace AtModem

namespace Engine

variable {σ : Type}

/-! ## Hearing without handlers -/

/-- As these bytes go through the window, no handler is triggered.  Any handlers may be registered,
    then, for only what stands around a payload has to be free of their announcements. -/
def Undisturbed (e : Engine σ) (bs : Bytes) : Prop :=
  ∀ q ∈ bs.inits, q ≠ [] → ∀ h ∈ e.registry.handlers, ¬(e.window.pushAll q).endsWith h.pattern = true

instance (e : Engine σ) (bs : Bytes) : Decidable (e.Undisturbed bs) :=
  inferInstanceAs (Decidable (∀ q ∈ bs.inits, _))

/-- `f` is `e` after it has heard `bs` and no handler has had its turn, with `rest` to read.  It is
    `Waiting` without times: all bytes are there, and what is kept track of is where each of them
    has gone. -/
structure Heard (bs rest : Bytes) (e f : Engine σ) : Prop where
  stream : Stream.Holds e.stream rest f.stream
  window : f.window = e.window.pushAll bs
  heard : f.heard.value = e.heard.value ++ bs
  registry : f.registry = e.registry
  inboxes : f.inboxes = e.inboxes
  events : f.events = e.events
  maxDownload : f.maxDownload = e.maxDownload

namespace Heard

variable {bs todo rest after : Bytes} {e f : Engine σ} {cs : List (Bytes × MatchOutcome)}
  {o : MatchOutcome}

/-- Before anything is heard an engine stands at what is there to be read. -/
theorem ofHolds (h : Stream.Holds e.stream rest e.stream) : Heard [] rest e e :=
  ⟨h, rfl, (List.append_nil _).symm, rfl, rfl, rfl, rfl⟩

/-- What reads past the window leaves everything but the stream as it was. -/
theorem onStream {α : Type} {x : StreamM σ α} {a : α} (h : Heard bs rest e f)
    (reads : Stream.Reads x a rest after) :
    ∃ g, Engine.onStream x f = .ok a g ∧ Heard bs after e g := by
  obtain ⟨t, r, k⟩ := reads _ (Stream.serves_holds e.stream) _ h.stream
  refine ⟨{ f with stream := t }, ?_, k, h.window, h.heard, h.registry, h.inboxes, h.events,
    h.maxDownload⟩
  unfold Engine.onStream
  rw [r]

/-- A byte that triggers no handler is only heard.  The handlers are gone through at each byte, and
    with none of them meant nothing happens. -/
theorem byte {b : UInt8} (h : Heard bs (b :: rest) e f) (quiet : e.Undisturbed (bs ++ [b]))
    (deadline : Nat) :
    ∃ t, f.stream.readBy deadline = (some b, t) ∧
      Heard (bs ++ [b]) rest e ({ f with stream := t }.accept b) := by
  obtain ⟨t, r, k, -⟩ := h.stream.readBy deadline
  refine ⟨t, r, ?_⟩
  have window : f.window.push b = e.window.pushAll (bs ++ [b]) := by
    rw [h.window, Window.pushAll_concat]
  have only : { f with stream := t }.accept b = { f with stream := t }.hear b := by
    refine foldl_notify_of_quiet fun hd mem => ?_
    have mem' : hd ∈ e.registry.handlers := h.registry ▸ mem
    have silent := quiet (bs ++ [b]) (by simp) (by simp) hd mem'
    rwa [← window] at silent
  rw [only]
  refine ⟨k, window, ?_, h.registry, h.inboxes, h.events, h.maxDownload⟩
  rw [heard_hear, ← List.append_assoc, ← h.heard]

/-- A wait takes the engine to the first reply; by induction on the bytes up to there, none of which
    triggers a handler.  The payload is not among these bytes, as it is read past the window. -/
theorem waitUntil (h : Heard bs (todo ++ rest) e f) (quiet : e.Undisturbed (bs ++ todo))
    (first : firstReply (reply e.window.capacity cs) (e.window.bytes ++ bs) todo = some (o, []))
    (deadline : Nat) :
    ∃ g, f.waitUntil deadline cs = (o, g) ∧ Heard (bs ++ todo) rest e g := by
  -- on the bytes to go; what the wait has behind it goes over to what has been heard
  induction todo generalizing bs f with
  | nil => cases first
  | cons b todo ih =>
    have whole : bs ++ b :: todo = bs ++ [b] ++ todo := by simp
    rw [whole] at quiet ⊢
    have now : e.Undisturbed (bs ++ [b]) := fun q hq => quiet q (by
      rw [List.mem_inits] at hq ⊢
      exact hq.trans (List.prefix_append _ _))
    obtain ⟨t, r, next⟩ := h.byte now deadline
    obtain ⟨ends, capacity⟩ := e.window.endOf_bytes.pushAll (bs ++ [b])
    rw [waitUntil_of_some r, next.window, classify_eq_reply ends, capacity, ← List.append_assoc]
    rw [firstReply] at first
    cases found : reply e.window.capacity cs (e.window.bytes ++ bs ++ [b]) with
    | some o' =>
      rw [found] at first
      cases first
      exact ⟨_, rfl, by rwa [List.append_nil]⟩
    | none =>
      rw [found, List.append_assoc] at first
      exact ih next quiet first

/-- The same of an await, which passes the outcome on unless it is an error. -/
theorem await {patterns : List Bytes} {ok error : Bool} (h : Heard bs (todo ++ rest) e f)
    (quiet : e.Undisturbed (bs ++ todo))
    (first : firstReply (reply e.window.capacity (candidates patterns ok error)) (e.window.bytes ++ bs)
      todo = some (o, [])) (timeout : Nat) :
    ∃ g, Engine.await patterns timeout ok error f = .ok o g ∧ Heard (bs ++ todo) rest e g := by
  obtain ⟨g, w, k⟩ := h.waitUntil quiet first (f.now + timeout)
  exact ⟨g, await_of_wait w, k⟩

end Heard

/-! ## The answer to a download -/

/-- A header that fits a window of the standard size, stands in one line and ends with a space. -/
structure Heading (header : Bytes) : Prop where
  fits : header.length ≤ Window.defaultCapacity
  noLf : Ascii.lf ∉ header
  spaced : ∃ text, header = text ++ [0x20]

/-- What closes the answer: a terminator, or the last line of the answer to a request for an HTTP body. -/
def Closes (d : Download) (closing : Bytes) : Prop :=
  d.trailer = .terminator ∧ closing = Utf8.encode "\r\nOK\r\n" ∨
  d.header = Utf8.encode "+HTTPREAD: " ∧ d.trailer = .pattern (Utf8.encode "+HTTPREAD: 0") ∧
    closing = Utf8.encode "\r\n+HTTPREAD: 0"

/-- What stands around the payload in the answer to a download.  It is given with the download and
    not with the payload, and so the payload can be any. -/
structure Framing (d : Download) where
  /-- What comes before the header. -/
  before : Bytes
  /-- What stands between the length and the end of its line. -/
  aside : Bytes
  closing : Bytes
  first : ∀ q, q <+: before ++ d.header → d.header <:+ q → q = before ++ d.header
  noError : ¬errorLine <:+: before
  ended : ∀ b, aside.head? = some b → Decimal.isDigit b = false
  oneLine : Ascii.lf ∉ aside
  closes : Closes d closing

namespace Framing

variable {d : Download}

/-- The whole answer with this payload. -/
def around (a : Framing d) (payload : Bytes) : Bytes :=
  a.before ++ d.header ++ Decimal.digits payload.length ++ a.aside ++ [Ascii.lf] ++ payload ++ a.closing

/-- The part of the answer that goes through the window; the payload is not in it. -/
def outside (a : Framing d) : Bytes := a.before ++ d.header ++ a.closing

end Framing

/-! ## The two waits -/

/-- Behind a space, what has been heard before it does not matter for these candidates. -/
theorem firstReply_behind_space {cs : List (Bytes × MatchOutcome)} {closing : Bytes} {capacity : Nat}
    (apart : ∀ q ∈ closing.inits, q ≠ [] → ∀ c ∈ cs, ¬[0x20] ++ q <:+ c.1) (Y : Bytes) :
    firstReply (reply capacity cs) (Y ++ [0x20]) closing =
      firstReply (reply capacity cs) [0x20] closing := by
  refine firstReply_congr fun q hq more => ?_
  rw [List.append_assoc]
  refine reply_congr fun c hc _ => ⟨fun ends => ?_, fun ends => ends.trans (List.suffix_append _ _)⟩
  rcases List.suffix_or_suffix_of_suffix ends (List.suffix_append Y ([0x20] ++ q)) with k | k
  · exact k
  · exact absurd k (apart q ((List.mem_inits q closing).mpr hq) more c hc)

namespace Framing

variable {d : Download} {X : Bytes}

/-- Up to the end of the header there is no error. -/
theorem not_errorLine_suffix (a : Framing d) (noLf : Ascii.lf ∉ d.header) {q : Bytes}
    (hq : q <+: a.before ++ d.header) : ¬errorLine <:+ q := by
  intro ends
  rcases List.prefix_or_prefix_of_prefix hq (List.prefix_append _ _) with k | ⟨part, rfl⟩
  · exact a.noError (ends.isInfix.trans k.isInfix)
  · have inside : part <+: d.header := (List.prefix_append_right_inj a.before).mp hq
    rcases List.eq_nil_or_concat part with rfl | ⟨init, b, rfl⟩
    · rw [List.append_nil] at ends
      exact a.noError ends.isInfix
    · -- its line feed would be one of the header
      have line : errorLine = Utf8.encode "ERROR\r" ++ [Ascii.lf] := by decide
      obtain ⟨front, split⟩ := ends
      rw [line, List.concat_eq_append, ← List.append_assoc, ← List.append_assoc] at split
      obtain rfl : Ascii.lf = b := List.singleton_inj.mp (List.append_inj' split rfl).2
      exact noLf (inside.subset (by simp))

/-- A wait for the header stops at its end, and not before.  The space at its end cannot belong to a
    terminator, and so the two cannot end at the same byte. -/
theorem firstReply_header (a : Framing d) (heading : Heading d.header) (lineEnd : LineEnd X) :
    firstReply (reply Window.defaultCapacity (candidates [d.header] false true)) X
      (a.before ++ d.header) = some (.pattern 1, []) := by
  obtain ⟨text, spaced⟩ := heading.spaced
  have some : d.header ≠ [] := by simp [spaced]
  have noLf : Ascii.lf ∉ d.header.dropLast := fun m => heading.noLf (List.mem_of_mem_dropLast m)
  have all : candidates [d.header] false true = [(d.header, .pattern 1), (errorLine, .failure)] := rfl
  refine firstReply_of_whole (fun q hq more part => reply_eq_none fun c hc _ ends => ?_) (by simp [some]) ?_
  · rw [all] at hc
    rcases List.mem_pair.mp hc with rfl | rfl
    · exact part (a.first q hq (((lineEnd.apart noLf).suffix_append_iff more).mp ends))
    · have inLine : Ascii.lf ∉ errorLine.dropLast := by decide
      exact a.not_errorLine_suffix heading.noLf hq
        (((lineEnd.apart inLine).suffix_append_iff more).mp ends)
  · have ends : d.header.isSuffixOf (X ++ (a.before ++ d.header)) = true := by
      rw [List.isSuffixOf_iff_suffix, ← List.append_assoc]
      exact List.suffix_append _ _
    rw [all, reply, List.find?_cons_of_pos (by simp [some, heading.fits, ends])]
    rfl

end Framing

/-! ## The parts of a download -/

section

variable [Device σ] {d : Download} {e f : Engine σ} {payload further : Bytes}

/-- From `e` to `f` nothing has changed but the link. -/
def OnlyLink (e f : Engine σ) : Prop := f = { e with stream := { e.stream with link := f.stream.link } }

omit [Device σ] in
theorem OnlyLink.trans (e f g : Engine σ) (h : OnlyLink e f) (k : OnlyLink f g) : OnlyLink e g := by
  unfold OnlyLink at h k ⊢
  rw [k, h]

omit [Device σ] in
/-- Who changes only the link changes only the stream. -/
theorem OnlyLink.only_stream (h : OnlyLink e f) : f = { e with stream := f.stream } := by
  unfold OnlyLink at h
  rw [h]

theorem onlyLink_print (data : Bytes) : Along OnlyLink (print data : EngineM σ Unit) := by
  intro e
  unfold print
  split <;> exact rfl

theorem onlyLink_send (line : String) : Along OnlyLink (send line : EngineM σ Unit) :=
  Along.bind OnlyLink.trans (onlyLink_print _) fun _ => onlyLink_print _

theorem eq_of_send {line : String} (sent : send line e = .ok () f) :
    f = { e with stream := { e.stream with link := f.stream.link } } := by
  have only := onlyLink_send line e
  rwa [sent] at only

/-- What has been sent has been written, with its line end. -/
theorem written_of_send {line : String} (sent : send line e = .ok () f) :
    f.stream.link.written = e.stream.link.written ++ (Utf8.encode line ++ crlf) := by
  cases works : e.stream.link.failWrites with
  | false =>
    obtain ⟨-, wrote⟩ := send_of_working works line
    rw [sent] at wrote
    exact wrote.written
  | true =>
    -- on a link that does not work nothing is sent
    have failed : send line e = .error (.io .linkBroken) e := bind_of_error (print_of_broken works _)
    rw [failed] at sent
    cases sent

/-- The header line is read, and what stands behind it is the payload.  The length is the number in
    the line, and what stands aside of it is passed over. -/
theorem openDownload_framed (a : Framing d) (heading : Heading d.header)
    (sent : send d.command e = .ok () f) (capacity : f.window.capacity = Window.defaultCapacity)
    (lineEnd : LineEnd f.window.bytes) (quiet : f.Undisturbed a.outside)
    (size : payload.length ≤ Decimal.maxInt)
    (answer : Stream.Holds f.stream (a.around payload ++ further) f.stream) :
    ∃ g, openDownload d e = .ok payload.length g ∧
      Heard (a.before ++ d.header) (payload ++ (a.closing ++ further)) f g := by
  -- the line goes on behind the length with a byte that is no digit
  obtain ⟨c, behind, line, noDigit⟩ : ∃ c behind, a.aside ++ [Ascii.lf] = c :: behind ∧
      Decimal.isDigit c = false := by
    cases r : a.aside with
    | nil => exact ⟨Ascii.lf, [], rfl, by decide⟩
    | cons c tail => exact ⟨c, tail ++ [Ascii.lf], rfl, a.ended c (by rw [r]; rfl)⟩
  have parts : a.around payload ++ further = (a.before ++ d.header) ++
      (Decimal.digits payload.length ++ c :: (behind ++ (payload ++ (a.closing ++ further)))) := by
    rw [← List.cons_append, ← line]
    simp only [Framing.around, List.append_assoc]
  rw [parts] at answer
  have toHeader : f.Undisturbed ([] ++ (a.before ++ d.header)) := by
    intro q hq
    rw [List.mem_inits] at hq
    exact quiet q ((List.mem_inits _ _).mpr (hq.trans (List.prefix_append _ _)))
  have found := a.firstReply_header heading lineEnd
  rw [← capacity, ← List.append_nil f.window.bytes] at found
  obtain ⟨f₁, waited, h₁⟩ := (Heard.ofHolds answer).await toHeader found d.headerTimeout
  obtain ⟨f₂, parsed, h₂⟩ := h₁.onStream (Stream.reads_parseLen_digits size noDigit _)
  have rest : c :: (behind ++ (payload ++ (a.closing ++ further))) =
      a.aside ++ Ascii.lf :: (payload ++ (a.closing ++ further)) := by
    rw [← List.cons_append, ← line, List.append_assoc]
    rfl
  rw [rest] at h₂
  obtain ⟨f₃, skipped, h₃⟩ := h₂.onStream (Stream.reads_find a.oneLine _)
  refine ⟨f₃, ?_, h₃⟩
  exact (bind_of_ok sent).trans ((bind_of_ok waited).trans
    ((bind_of_ok parsed).trans (bind_of_ok skipped)))

omit [Device σ] in
/-- What closes the answer is consumed to its end, and what stands behind it is left.  The window
    still ends with the header when the wait begins, since the payload has gone past it. -/
theorem finishTrailer_framed {g : Engine σ} (a : Framing d) (heading : Heading d.header)
    (capacity : f.window.capacity = Window.defaultCapacity) (quiet : f.Undisturbed a.outside)
    (h : Heard (a.before ++ d.header) (a.closing ++ further) f g) :
    ∃ g', finishTrailer d g = .ok () g' ∧ Heard a.outside further f g' := by
  obtain ⟨text, spaced⟩ := heading.spaced
  have plain : plainTimeout g = .ok g.defaultTimeout g := rfl
  have heard : f.window.bytes ++ (a.before ++ d.header) =
      f.window.bytes ++ (a.before ++ text) ++ [0x20] := by
    rw [spaced]
    simp only [List.append_assoc]
  have whole : a.before ++ d.header ++ a.closing = a.outside := rfl
  unfold finishTrailer
  rw [bind_of_ok plain]
  -- the answer ends with a terminator
  rcases a.closes with ⟨trailer, closing⟩ | ⟨-, trailer, closing⟩
  · have found : firstReply (reply f.window.capacity terminators)
        (f.window.bytes ++ (a.before ++ d.header)) a.closing = some (.success, []) := by
      rw [heard, capacity, closing, firstReply_behind_space (by decide)]
      decide
    obtain ⟨g', waited, h'⟩ := h.await (whole ▸ quiet) found (d.trailerTimeout.getD g.defaultTimeout)
    rw [trailer]
    exact ⟨g', bind_of_ok waited, h'⟩
  -- the answer ends with a line of its own
  · have found : firstReply (reply f.window.capacity
        (candidates [Utf8.encode "+HTTPREAD: 0"] false true))
        (f.window.bytes ++ (a.before ++ d.header)) a.closing = some (.pattern 1, []) := by
      rw [heard, capacity, closing, firstReply_behind_space (by decide)]
      decide
    obtain ⟨g', waited, h'⟩ := h.await (whole ▸ quiet) found (d.trailerTimeout.getD g.defaultTimeout)
    rw [trailer]
    exact ⟨g', bind_of_ok waited, h'⟩

/-- Whatever the payload is, a download whose answer is there at once and has the form that it should
    have returns just the payload and leaves what comes after the answer.  Apart from that, nothing
    depends on the payload: through the window have gone the bytes outside of it, the handlers and what
    they have left behind are as before, and the command line has been written. -/
theorem download_returns_payload (a : Framing d) (heading : Heading d.header)
    (capacity : e.window.capacity = Window.defaultCapacity) (lineEnd : LineEnd e.window.bytes)
    (quiet : e.Undisturbed a.outside) (sent : send d.command e = .ok () f)
    (arrived : f.stream.link.scheduled.arrivals = [])
    (answer : f.stream.unread = a.around payload ++ further)
    (size : payload.length ≤ Decimal.maxInt) (fits : payload.length ≤ e.maxDownload)
    (expected : ∀ n, d.expected = some n → n = payload.length) :
    ∃ g, download d e = .ok payload g ∧ g.stream.unread = further ∧
      g.window = e.window.pushAll a.outside ∧ g.heard.value = e.heard.value ++ a.outside ∧
      g.registry = e.registry ∧ g.inboxes = e.inboxes ∧ g.events = e.events ∧
      g.stream.link.written = e.stream.link.written ++ (Utf8.encode d.command ++ crlf) := by
  -- sending has changed the link only
  have same := eq_of_send sent
  have window : f.window = e.window := by rw [same]
  have heard : f.heard = e.heard := by rw [same]
  have registry : f.registry = e.registry := by rw [same]
  have inboxes : f.inboxes = e.inboxes := by rw [same]
  have events : f.events = e.events := by rw [same]
  have limit : f.maxDownload = e.maxDownload := by rw [same]
  have undisturbed : f.Undisturbed a.outside := by
    unfold Undisturbed
    rw [window, registry]
    exact quiet
  have holds : Stream.Holds f.stream (a.around payload ++ further) f.stream := by
    refine ⟨arrived, ?_, rfl⟩
    rw [← answer, Stream.unread, Schedule.bytes, arrived, List.map_nil, List.append_nil]
  rw [← window] at capacity lineEnd
  obtain ⟨f₁, opened, h₁⟩ :=
    openDownload_framed a heading sent capacity lineEnd undisturbed size holds
  obtain ⟨f₂, read, h₂⟩ := h₁.onStream (Stream.reads_readExact payload _)
  obtain ⟨g, closed, h⟩ := finishTrailer_framed a heading capacity undisturbed h₂
  -- the limit is large enough, and the length is the expected one
  have room : ¬f₁.maxDownload < payload.length := by
    rw [h₁.maxDownload, limit]
    omega
  have close : closeDownload d payload.length f₂ = .ok () g := by
    refine (bind_of_ok closed).trans ?_
    cases r : d.expected with
    | none => rfl
    | some n =>
      simp only [expected n r, ↓reduceIte]
      rfl
  have whole : download d e = .ok payload g := by
    refine (bind_of_ok opened).trans ?_
    show (if f₁.maxDownload < payload.length then _ else _ : EngineM σ Bytes) f₁ = _
    rw [if_neg room]
    exact (bind_of_ok read).trans (bind_of_ok close)
  refine ⟨g, whole, h.stream.unread, ?_, ?_, ?_, ?_, ?_, ?_⟩
  · rw [h.window, window]
  · rw [h.heard, heard]
  · rw [h.registry, registry]
  · rw [h.inboxes, inboxes]
  · rw [h.events, events]
  · have far := h.stream.same
    rw [← written_of_send sent, far]

end

/-- A body that contains terminators, an announcement and the line that closes the answer. -/
theorem download_returns_payload_like_answer :
    let payload := Utf8.encode "\r\nOK\r\nERROR\r\n+CMQTTRXSTART: 0\r\n+HTTPREAD: 0"
    let d := Http.readRequest payload.length
    let answer := Utf8.encode "\r\nOK\r\n\r\n+HTTPREAD: 43\r\n" ++ payload ++
      Utf8.encode "\r\n+HTTPREAD: 0\r\n"
    let e : Engine Script :=
      { ofLink .standard (.ofDevice ⟨[], answer⟩) with registry := ⟨16, [⟨0, .message 0⟩], 1⟩ }
    ∃ g, download d e = .ok payload g ∧ g.stream.unread = crlf ∧ g.events = e.events ∧
      g.window.bytes = Utf8.encode "\r\nOK\r\n\r\n+HTTPREAD: \r\n+HTTPREAD: 0" := by
  intro payload d answer e
  let a : Framing d := {
    before := Utf8.encode "\r\nOK\r\n\r\n"
    aside := [Ascii.cr]
    closing := Utf8.encode "\r\n+HTTPREAD: 0"
    first := by
      have all : ∀ q ∈ (Utf8.encode "\r\nOK\r\n\r\n+HTTPREAD: ").inits,
          Utf8.encode "+HTTPREAD: " <:+ q → q = Utf8.encode "\r\nOK\r\n\r\n+HTTPREAD: " := by decide
      intro q hq
      exact all q ((List.mem_inits _ _).mpr hq)
    noError := by decide
    ended := by
      rintro _ ⟨⟩
      decide
    oneLine := by decide
    closes := .inr ⟨rfl, rfl, rfl⟩ }
  have heading : Heading d.header := ⟨by decide, by decide, Utf8.encode "+HTTPREAD:", rfl⟩
  have works : e.stream.link.failWrites = false := rfl
  have digits : Decimal.digits payload.length = Utf8.encode "43" :=
    (Decimal.encode_toString payload.length).symm.trans (by decide)
  have answered : (endState (send d.command e)).stream.unread = a.around payload ++ crlf := by
    rw [Framing.around, digits]
    decide
  obtain ⟨g, ran, unread, window, -, -, -, events, -⟩ :=
    download_returns_payload a heading rfl (.inl rfl) (by decide) (send_of_working works d.command).1
      (by decide) answered (by decide) (by decide) (by decide)
  refine ⟨g, ran, unread, events, ?_⟩
  rw [window]
  decide

end Engine
end AtModem
