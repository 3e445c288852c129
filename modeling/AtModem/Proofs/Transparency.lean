/-
  Reports do not disturb a wait.

  The device may write a report between any two lines of an answer.  A wait takes the lines and the
  reports item by item; what it answers depends on the lines alone, and it answers at the same byte as
  if there were no reports.  The reports it has come by are delivered, in order, each as a whole; those
  behind the answer have not been touched.

  All input is already there.  Then time plays no part but for a wait that finds nothing, which lasts as
  long as it was told to.
-/
import AtModem.Link.Script
import AtModem.Proofs.Midway

namespace AtModem

/-! ## Input -/

/-- A piece of input: a line, or a report. -/
inductive Item where
  /-- What stands before the line end. -/
  | line (body : Bytes)
  | report (r : Report)

namespace Item

/-- An item as the device writes it; a line has its end, and a report its opening. -/
def bytes : Item → Bytes
  | line body => body ++ crlf
  | report r => r.bytes

/-- Whether the item is a line. -/
def isLine : Item → Bool
  | line _ => true
  | report _ => false

/-- The report that the item is, if it is one. -/
def report? : Item → Option Report
  | line _ => none
  | report r => some r

/-- The whole input. -/
def text (items : List Item) : Bytes := items.flatMap bytes

/-- The input without its reports; this is what the other run of the wait is given. -/
def lines (items : List Item) : List Item := items.filter isLine

/-- The reports of the input, in order. -/
def reports (items : List Item) : List Report := items.filterMap report?

theorem reports_lines (items : List Item) : reports (lines items) = [] := by
  rw [reports, List.filterMap_eq_nil_iff]
  intro item h
  cases item with
  | line body => rfl
  | report r => cases (List.mem_filter.mp h).2

theorem line_mem_lines {items : List Item} {body : Bytes} :
    line body ∈ lines items ↔ line body ∈ items := by
  simp [lines, List.mem_filter, isLine]

/-- The text of a line is part of the text of the input, so what is nowhere in the whole is in no
    line. -/
theorem infix_text {items : List Item} {item : Item} (h : item ∈ items) :
    item.bytes <:+: text items := by
  obtain ⟨before, after, rfl⟩ := List.append_of_mem h
  exact ⟨text before, text after, by simp [text]⟩

end Item

/-! ## One wait -/

namespace Engine

variable {σ : Type}

open Item

/-- The engine with this input, all of it there. -/
def given (e : Engine σ) (bs : Bytes) : Engine σ :=
  { e with stream := { e.stream with link := { e.stream.link with queued := bs } } }

section

variable {e f : Engine σ} {X rest : Bytes} {mail : Inboxes × BoundedQueue UrcEvent} {messages : Nat}
  {sentences : String → Nat} {cs : List (Bytes × MatchOutcome)}

/-- A wait goes on to the first item to which there is a reply; by induction on the items before it,
    which are passed one by one.  The lines among them get no reply, and the reports are delivered
    in their order. -/
theorem Midway.passAll {done : List Item} (rest : List Item)
    (h : Midway e X (text (done ++ rest)) mail f) (l : Listening messages sentences e)
    (afresh : Afresh cs X)
    (foreign : ∀ c ∈ cs, c.1 ≠ [] → Foreign c.1)
    (plain : ∀ body, line body ∈ done → ∀ a ∈ announcements, ¬a <:+: body ++ crlf)
    (unanswered : ∀ body, line body ∈ done →
      firstReply (reply e.window.capacity cs) [] (body ++ crlf) = none) (deadline : Nat) :
    ∃ g Y, f.waitUntil deadline cs = g.waitUntil deadline cs ∧ Afresh cs Y ∧
      Midway e Y (text rest) ((reports done).foldl (Report.post messages sentences) mail) g := by
  -- on the items before it; after each of them matching begins afresh
  induction done generalizing X mail f with
  | nil => exact ⟨f, X, rfl, afresh, h⟩
  | cons item done ih =>
    have split : text (item :: done ++ rest) = item.bytes ++ text (done ++ rest) := rfl
    rw [split] at h
    have plain' := fun body mem => plain body (List.mem_cons_of_mem item mem)
    have unanswered' := fun body mem => unanswered body (List.mem_cons_of_mem item mem)
    cases item with
    | line body =>
      rw [show (line body).bytes = body ++ crlf from rfl] at h
      have pass := h.passLine l afresh (plain body List.mem_cons_self) deadline
      rw [unanswered body List.mem_cons_self] at pass
      obtain ⟨g, same, h'⟩ := pass
      have afresh' : Afresh cs (X ++ (body ++ crlf)) := by
        rw [← List.append_assoc]
        exact .append_crlf foreign _
      obtain ⟨g', Y, same', next⟩ := ih h' afresh' plain' unanswered'
      exact ⟨g', Y, same.trans same', next⟩
    | report r =>
      obtain ⟨g, same, h'⟩ := h.passReport l afresh foreign deadline
      obtain ⟨g', Y, same', next⟩ := ih h' (afresh.append_announcement foreign r) plain' unanswered'
      exact ⟨g', Y, same.trans same', next⟩

/-- No time passes while there is something to read. -/
theorem Midway.now_eq (h : Midway e X rest mail f) : f.now = e.now := by
  show f.stream.now = e.stream.now
  rw [h.stream.same]
  rfl

/-- With nothing more to read a wait lasts until its last poll, and nothing else happens. -/
theorem Midway.timeOut (h : Midway e X [] mail f) (deadline : Nat)
    (cs : List (Bytes × MatchOutcome)) :
    ∃ g, f.waitUntil deadline cs = (.timedOut, g) ∧ g.now = e.stream.lastPoll deadline ∧
      g.stream.unread = [] ∧ (g.inboxes, g.events) = mail := by
  have poll : f.stream.lastPoll deadline = e.stream.lastPoll deadline := by
    refine Stream.lastPoll_congr h.now_eq ?_
    rw [h.stream.same]
  obtain ⟨t, r, now, nothing⟩ := Stream.readBy_of_nothing h.stream.unread deadline
  exact ⟨{ f with stream := t }, waitUntil_of_none r, now.trans poll, nothing, h.mail⟩

/-- The input has a first line to which there is a reply, or none.  It is the case split of the
    theorem: the wait is answered there, or it times out. -/
theorem first_answered (answers : Bytes → Option (MatchOutcome × Bytes)) (items : List Item) :
    (∀ body, line body ∈ items → answers (body ++ crlf) = none) ∨
      ∃ done body rest o tail, items = done ++ line body :: rest ∧
        (∀ body, line body ∈ done → answers (body ++ crlf) = none) ∧
        answers (body ++ crlf) = some (o, tail) := by
  induction items with
  | nil => exact .inl fun _ h => by cases h
  | cons item items ih =>
    -- the first item answers, or it does not
    have here : (∃ body o tail, item = line body ∧ answers (body ++ crlf) = some (o, tail)) ∨
        ∀ body, line body = item → answers (body ++ crlf) = none := by
      cases item with
      | report r => exact .inr fun _ h => by cases h
      | line body =>
        cases r : answers (body ++ crlf) with
        | some p => exact .inl ⟨body, p.1, p.2, rfl, r⟩
        | none =>
          refine .inr fun body' h => ?_
          cases h
          exact r
    rcases here with ⟨body, o, tail, rfl, r⟩ | here
    -- it is the one
    · exact .inr ⟨[], body, items, o, tail, rfl, (fun _ h => by cases h), r⟩
    -- it is among the others, if it is there at all
    · rcases ih with none | ⟨done, body, rest, o, tail, rfl, none, r⟩
      · refine .inl fun body h => ?_
        rcases List.mem_cons.mp h with h | h
        · exact here body h
        · exact none body h
      · refine .inr ⟨item :: done, body, rest, o, tail, rfl, fun body h => ?_, r⟩
        rcases List.mem_cons.mp h with h | h
        · exact here body h
        · exact none body h

end

/-- What the wait for an answer needs: that the listeners are those for reports, that nothing has
    begun in the window, and that all input is there.  The window has to be at the end of a line for
    the first report to be told from what came before. -/
structure Prepared (messages : Nat) (sentences : String → Nat) (e : Engine σ) : Prop extends
    Listening messages sentences e where
  window : e.window.bytes = [] ∨ ∃ before, e.window.bytes = before ++ [Ascii.lf]
  lookahead : e.stream.lookahead = none
  scheduled : e.stream.link.scheduled.arrivals = []

section

variable {e : Engine σ} {messages : Nat} {sentences : String → Nat}
  {cs : List (Bytes × MatchOutcome)}

/-- A wait that has not begun stands before all of its input. -/
theorem Prepared.midway (p : Prepared messages sentences e) (bs : Bytes) :
    Midway e e.window.bytes bs (e.inboxes, e.events) (e.given bs) where
  stream := ⟨p.scheduled, by show e.stream.lookahead.toList ++ bs = bs; rw [p.lookahead]; rfl, rfl⟩
  window := e.window.endOf_bytes
  capacity := rfl
  registry := rfl
  mail := rfl

/-- There matching can begin afresh, as nothing has begun in the window. -/
theorem Prepared.afresh (p : Prepared messages sentences e)
    (foreign : ∀ c ∈ cs, c.1 ≠ [] → Foreign c.1) : Afresh cs e.window.bytes := by
  rcases p.window with empty | ⟨before, ended⟩
  · rw [empty]
    exact ⟨fun _ _ _ => .nil _, fun _ _ => .nil _⟩
  · rw [ended]
    exact .concat_lf foreign before

/-- A wait for whose input there is a reply: it stops there, and the reports before it are
    delivered.  The right side has no wait in it, only the reports before the answer, and so it is
    the same for every way to mix them in. -/
theorem Prepared.answered (p : Prepared messages sentences e)
    (foreign : ∀ c ∈ cs, c.1 ≠ [] → Foreign c.1) {done rest : List Item} {body tail : Bytes}
    {o : MatchOutcome}
    (plain : ∀ b, line b ∈ done ++ line body :: rest → ∀ a ∈ announcements, ¬a <:+: b ++ crlf)
    (unanswered : ∀ b, line b ∈ done →
      firstReply (reply e.window.capacity cs) [] (b ++ crlf) = none)
    (answered : firstReply (reply e.window.capacity cs) [] (body ++ crlf) = some (o, tail))
    (deadline : Nat) :
    ∃ g, (e.given (text (done ++ line body :: rest))).waitUntil deadline cs = (o, g) ∧
      g.now = e.now ∧ g.stream.unread = tail ++ text rest ∧
      (g.inboxes, g.events) =
        (reports done).foldl (Report.post messages sentences) (e.inboxes, e.events) := by
  -- up to the line, then through it as far as the reply
  obtain ⟨f, Y, same, afresh, h⟩ := (p.midway _).passAll (line body :: rest) p.toListening
    (p.afresh foreign) foreign (fun b mem => plain b (List.mem_append_left _ mem)) unanswered deadline
  have pass := h.passLine p.toListening afresh (plain body (by simp)) deadline
  rw [answered] at pass
  obtain ⟨g, Z, stop, h'⟩ := pass
  exact ⟨g, same.trans stop, h'.now_eq, h'.stream.unread, h'.mail⟩

/-- A wait for whose input there is no reply takes in everything, and then it times out.  The run
    without reports times out at the same poll, since nothing else ends either of them. -/
theorem Prepared.unanswered (p : Prepared messages sentences e)
    (foreign : ∀ c ∈ cs, c.1 ≠ [] → Foreign c.1) {items : List Item}
    (plain : ∀ b, line b ∈ items → ∀ a ∈ announcements, ¬a <:+: b ++ crlf)
    (unanswered : ∀ b, line b ∈ items →
      firstReply (reply e.window.capacity cs) [] (b ++ crlf) = none) (deadline : Nat) :
    ∃ g, (e.given (text items)).waitUntil deadline cs = (.timedOut, g) ∧
      g.now = e.stream.lastPoll deadline ∧ g.stream.unread = [] ∧
      (g.inboxes, g.events) =
        (reports items).foldl (Report.post messages sentences) (e.inboxes, e.events) := by
  obtain ⟨f, Y, same, afresh, h⟩ := (p.midway _).passAll [] p.toListening
    (p.afresh foreign) foreign plain unanswered deadline
  rw [List.append_nil] at same
  obtain ⟨g, stop, now, unread, mail⟩ := h.timeOut deadline cs
  exact ⟨g, same.trans stop, now, unread, mail⟩

end

/-! ## With reports and without -/

/-- If the patterns are foreign to reports, all that the wait looks for is, as the terminators
    are. -/
theorem foreign_candidates {patterns : List Bytes} (ok error : Bool)
    (foreign : ∀ p ∈ patterns.take maxPatterns, p ≠ [] → Foreign p) :
    ∀ c ∈ candidates patterns ok error, c.1 ≠ [] → Foreign c.1 := by
  intro c hc some
  rcases cases_of_mem_candidates hc with ⟨p, mem, i, rfl⟩ | rfl | rfl
  · exact foreign p mem some
  · exact foreign_errorLine
  · exact foreign_okLine

/-- A wait answers the same, at the same time, with reports between the lines of its input and without.
    It stops at the same byte of the same line; the reports before that line, or all of them if it stops
    at none, have been delivered in order, and what comes behind is as it was. -/
theorem wait_ignores_reports (e : Engine σ) (messages : Nat) (sentences : String → Nat)
    (prepared : Prepared messages sentences e) (items : List Item)
    (plain : ∀ a ∈ announcements, ¬a <:+: text (lines items)) (patterns : List Bytes)
    (foreign : ∀ p ∈ patterns.take maxPatterns, p ≠ [] → Foreign p) (timeout : Nat)
    (ok error : Bool) :
    let reported := (e.given (text items)).wait patterns timeout ok error
    let alone := (e.given (text (lines items))).wait patterns timeout ok error
    reported.1 = alone.1 ∧ reported.2.now = alone.2.now ∧
      ∃ done rest tail, items = done ++ rest ∧
        reported.2.stream.unread = tail ++ text rest ∧
        alone.2.stream.unread = tail ++ text (lines rest) ∧
        (reported.2.inboxes, reported.2.events) =
          (reports done).foldl (Report.post messages sentences) (e.inboxes, e.events) ∧
        (alone.2.inboxes, alone.2.events) = (e.inboxes, e.events) ∧
        (alone.1 = .timedOut → rest = [] ∧ tail = []) ∧
        (alone.1 ≠ .timedOut → ∃ before body, done = before ++ [line body] ∧
          ∃ taken, taken ≠ [] ∧ body ++ crlf = taken ++ tail) := by
  intro reported alone
  have foreign' := foreign_candidates ok error foreign
  have plain' : ∀ b, line b ∈ items → ∀ a ∈ announcements, ¬a <:+: b ++ crlf := by
    intro b mem a ha inside
    exact plain a ha (inside.trans (infix_text (line_mem_lines.mpr mem)))
  have plain'' : ∀ b, line b ∈ lines items → ∀ a ∈ announcements, ¬a <:+: b ++ crlf :=
    fun b mem => plain' b (line_mem_lines.mp mem)
  -- both inputs have the same lines, so they have the same first line with a reply
  rcases first_answered (firstReply (reply e.window.capacity (candidates patterns ok error)) [])
    items with none | ⟨done, body, rest, o, tail, rfl, none, answer⟩
  · obtain ⟨f, ef, now, unread, mail⟩ := prepared.unanswered foreign' plain' none (e.now + timeout)
    obtain ⟨g, eg, now', unread', mail'⟩ := prepared.unanswered foreign' plain''
      (fun b mem => none b (line_mem_lines.mp mem)) (e.now + timeout)
    rw [reports_lines] at mail'
    have er : reported = _ := ef
    have ea : alone = _ := eg
    rw [er, ea]
    exact ⟨rfl, now.trans now'.symm, items, [], [], (List.append_nil _).symm, unread, unread', mail,
      mail', fun _ => ⟨rfl, rfl⟩, fun h => absurd rfl h⟩
  · obtain ⟨f, ef, now, unread, mail⟩ := prepared.answered foreign' plain' none answer
      (e.now + timeout)
    have split : lines (done ++ line body :: rest) = lines done ++ line body :: lines rest :=
      List.filter_append ..
    rw [split] at plain''
    obtain ⟨g, eg, now', unread', mail'⟩ := prepared.answered foreign' plain''
      (fun b mem => none b (line_mem_lines.mp mem)) answer (e.now + timeout)
    rw [← split] at eg
    rw [reports_lines] at mail'
    have er : reported = _ := ef
    have ea : alone = _ := eg
    rw [er, ea]
    obtain ⟨taken, some, whole, r⟩ := firstReply_eq_some answer
    obtain ⟨c, hc, rfl⟩ := exists_of_reply_eq_some r
    -- the line itself adds no report to those before it
    have last : reports (done ++ [line body]) = reports done := by
      simp [reports, report?]
    refine ⟨rfl, now.trans now'.symm, done ++ [line body], rest, tail, by simp, unread, unread', ?_,
      mail', fun h => absurd h (candidate_ne_timedOut hc),
      fun _ => ⟨done, body, rfl, taken, some, whole⟩⟩
    rw [last]
    exact mail

/-- A message whose payload looks like an error, before the answer, and a sentence behind it.  The wait is
    answered by the line; the message is in its inbox, and the sentence has not been touched. -/
theorem wait_ignores_reports_looking_like_answers :
    let slots := (Report.listeners 0 fun _ => 0).zipIdx.map fun (h, i) => Slot.mk i.toUInt32 h
    let e : Engine Script :=
      { ofLink .standard (.ofDevice .silent) with
        registry := ⟨16, slots, 7⟩
        inboxes := ⟨[.empty 4 .dropOldest], [.empty 8 .dropOldest], []⟩ }
    let message : Report :=
      .message 0 (Utf8.encode "t") errorLine (by decide) (by decide) (by decide)
    let sentence : Report := .sentence "$GP" (Utf8.encode "GGA,1") (by decide) (by decide)
    let items : List Item := [.report message, .line (Utf8.encode "OK"), .report sentence]
    let patterns := [Utf8.encode "+X: "]
    let reported := (e.given (text items)).wait patterns 1000 true true
    let alone := (e.given (text (lines items))).wait patterns 1000 true true
    (Prepared 0 (fun _ => 0) e ∧ (∀ a ∈ announcements, ¬a <:+: text (lines items)) ∧
      ∀ p ∈ patterns.take maxPatterns, p ≠ [] → Foreign p) ∧
    reported.1 = alone.1 ∧ alone.1 = .success ∧
      reported.2.inboxes.messages.map BoundedQueue.items =
        [[⟨0, .ofBytes Mqtt.topicCapacity (Utf8.encode "t"),
          .ofBytes Mqtt.payloadCapacity errorLine⟩]] ∧
      reported.2.inboxes.sentences.map BoundedQueue.items = [[]] ∧
      reported.2.events.items = [.mqttMessageRx] ∧
      reported.2.stream.unread = Utf8.encode "$GPGGA,1\r\n" := by
  intro slots e message sentence items patterns reported alone
  have prepared : Prepared 0 (fun _ => 0) e :=
    { handlers := .refl _, room := by decide, window := .inl rfl, lookahead := rfl, scheduled := rfl }
  have plain : ∀ a ∈ announcements, ¬a <:+: text (lines items) := by decide
  have foreign : ∀ p ∈ patterns.take maxPatterns, p ≠ [] → Foreign p := by
    intro p hp _
    obtain rfl : p = Utf8.encode "+X: " := List.mem_singleton.mp hp
    exact .of_inits (by decide) (by decide) (by decide)
  -- the line alone is answered by its last byte
  have answer : firstReply (reply 64 (candidates patterns true true)) []
      (Utf8.encode "OK" ++ crlf) = some (.success, []) := by decide
  have plainAlone : ∀ b, line b ∈ [] ++ line (Utf8.encode "OK") :: [] →
      ∀ a ∈ announcements, ¬a <:+: b ++ crlf :=
    fun b mem a ha inside => plain a ha (inside.trans (infix_text mem))
  obtain ⟨g, stop, -, nothing, -⟩ := prepared.answered (foreign_candidates true true foreign) plainAlone
    (fun _ none => by cases none) answer (e.now + 1000)
  have stop : alone = (.success, g) := stop
  obtain ⟨same, -, done, rest, tail, split, unread, unread', mail, -, -, last⟩ :=
    wait_ignores_reports e 0 (fun _ => 0) prepared items plain patterns foreign 1000 true true
  have success : alone.1 = .success := by rw [stop]
  obtain ⟨before, body, rfl, -⟩ := last (by rw [success]; nofun)
  obtain ⟨rfl, rfl⟩ : before = [.report message] ∧ rest = [.report sentence] := by
    -- there is but one line
    have split : [Item.report message, line (Utf8.encode "OK"), .report sentence] =
        before ++ [line body] ++ rest := split
    rcases before with _ | ⟨first, _ | ⟨second, _ | ⟨third, before⟩⟩⟩ <;> simp at split
    exact ⟨by rw [split.1], split.2.2.symm⟩
  obtain rfl : tail = [] := by
    have all : alone.2.stream.unread = tail ++ [] := unread'
    rw [stop] at all
    exact (List.append_nil tail).symm.trans (all.symm.trans nothing)
  refine ⟨⟨prepared, plain, foreign⟩, same, success, ?_, ?_, ?_, unread⟩
  · exact congrArg (fun m => m.1.messages.map BoundedQueue.items) mail
  · exact congrArg (fun m => m.1.sentences.map BoundedQueue.items) mail
  · exact congrArg (fun m => m.2.items) mail

end Engine
end AtModem
