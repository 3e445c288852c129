/-
  A wait that hears lines and reports.

  An announcement goes through the window like everything else; the rest of its report does not, so the
  next byte finds the announcement in the window and a hole behind it.  If the candidates have nothing to
  do with reports (`Foreign`), neither a candidate nor another announcement can begin before the hole and
  end behind it.  So after every line and after every report matching can begin afresh (`Afresh`), and
  what is heard from there on decides alone.

  `Midway` says where a wait stands: what it has heard, what there is to read, what has been delivered.
  A wait goes through bytes at which no handler is meant as far as the first reply to them (`walk`).  A
  line is passed if no reply to it comes (`passLine`); a report is always passed, and then its handler has
  read and delivered it (`passReport`).
-/
import AtModem.Proofs.Apart
import AtModem.Proofs.Arrival
import Mathlib.Data.List.Nodup

namespace AtModem

/-! ## What is looked for -/

/-- A pattern that has nothing to do with reports: it has no line feed inside, it is no part of an
    announcement and of the line end before it, and it does not begin in an announcement.  So it can
    be completed by a line, but neither by a report nor across the border of one. -/
structure Foreign (p : Bytes) : Prop where
  inLine : Ascii.lf ∉ p.dropLast
  inside : ∀ a ∈ announcements, ¬p <:+: crlf ++ a
  overlap : ∀ a ∈ announcements, ∀ q, q ≠ [] → q <+: p → ¬q <:+ a

/-- What is foreign to reports does not begin inside an announcement, so that it cannot straddle the
    hole behind one. -/
theorem Foreign.apart_announcement {p a : Bytes} (h : Foreign p) (ha : a ∈ announcements) :
    Apart p a := by
  intro q rest e _ s
  by_contra some
  exact h.overlap a ha q some (e ▸ List.prefix_append q rest) s

/-- To see that a pattern is foreign it is enough to look through its beginnings. -/
theorem Foreign.of_inits {p : Bytes} (inLine : Ascii.lf ∉ p.dropLast)
    (inside : ∀ a ∈ announcements, ¬p <:+: crlf ++ a)
    (overlap : ∀ a ∈ announcements, ∀ q ∈ p.inits, q ≠ [] → ¬q <:+ a) : Foreign p :=
  ⟨inLine, inside, fun a ha q some hq => overlap a ha q ((List.mem_inits q p).mpr hq) some⟩

/-- The line that says `OK` is foreign to reports. -/
theorem foreign_okLine : Foreign Engine.okLine := .of_inits (by decide) (by decide) (by decide)

theorem foreign_errorLine : Foreign Engine.errorLine :=
  .of_inits (by decide) (by decide) (by decide)

/-- Where matching can begin afresh: no candidate and no announcement can have begun before. -/
structure Afresh (cs : List (Bytes × MatchOutcome)) (X : Bytes) : Prop where
  candidates : ∀ c ∈ cs, c.1 ≠ [] → Apart c.1 X
  announcements : ∀ a ∈ announcements, Apart a X

/-- Where matching can begin afresh, what came before matters no more to any reply. -/
theorem Afresh.reply_append {cs : List (Bytes × MatchOutcome)} {X Y : Bytes} (h : Afresh cs X)
    (more : Y ≠ []) (capacity : Nat) :
    Engine.reply capacity cs (X ++ Y) = Engine.reply capacity cs Y :=
  Engine.reply_congr fun c hc some => (h.candidates c hc some).suffix_append_iff more

/-- At the end of a line matching can begin afresh, since neither a candidate nor an announcement
    has a line feed before its last byte. -/
theorem Afresh.concat_lf {cs : List (Bytes × MatchOutcome)}
    (foreign : ∀ c ∈ cs, c.1 ≠ [] → Foreign c.1) (X : Bytes) : Afresh cs (X ++ [Ascii.lf]) where
  candidates c hc some := .concat (foreign c hc some).inLine X
  announcements a ha := by
    refine .concat ?_ X
    intro h
    exact lf_not_mem_announcement ha (List.mem_of_mem_dropLast h)

theorem Afresh.append_crlf {cs : List (Bytes × MatchOutcome)}
    (foreign : ∀ c ∈ cs, c.1 ≠ [] → Foreign c.1) (X : Bytes) : Afresh cs (X ++ crlf) := by
  have e : X ++ crlf = X ++ [Ascii.cr] ++ [Ascii.lf] := by simp [crlf]
  rw [e]
  exact .concat_lf foreign _

/-- Behind an announcement, and so behind a report, matching can begin afresh too. -/
theorem Afresh.append_announcement {cs : List (Bytes × MatchOutcome)} {X : Bytes} (h : Afresh cs X)
    (foreign : ∀ c ∈ cs, c.1 ≠ [] → Foreign c.1) (r : Report) :
    Afresh cs (X ++ (r.opening ++ r.announcement)) where
  candidates c hc some :=
    (h.candidates c hc some).append_announcement (foreign c hc some).inLine r
      ((foreign c hc some).apart_announcement (announcement_mem r))
  announcements a ha :=
    (h.announcements a ha).append_announcement
      (fun m => lf_not_mem_announcement ha (List.mem_of_mem_dropLast m)) r
      (apart_announcement ha (announcement_mem r))

/-! ## Who listens -/

namespace Report

/-- A handler for messages and one for the sentences of each talker: those that a client and a feed
    register. -/
def listeners (messages : Nat) (sentences : String → Nat) : List Handler :=
  .message messages :: Gnss.talkers.map fun talker => .sentence talker (sentences talker)

/-- What kind of event a report leaves. -/
def event : Report → UrcEvent
  | message .. => .mqttMessageRx
  | sentence .. => .gnssSentence

/-- What a report adds to the inboxes and to the events: one element goes into one queue, and one event is
    recorded.  All other queues stay as they are, whatever their number. -/
def post (messages : Nat) (sentences : String → Nat) (mail : Inboxes × BoundedQueue UrcEvent) :
    Report → Inboxes × BoundedQueue UrcEvent
  | message client topic payload .. =>
    let received : Mqtt.Message :=
      { client := Mqtt.Message.clientOf client
        topic := .ofBytes Mqtt.topicCapacity topic
        payload := .ofBytes Mqtt.payloadCapacity payload }
    ({ mail.1 with
        messages := mail.1.messages.modify messages fun queue => (queue.push received).2 },
      (mail.2.push .mqttMessageRx).2)
  | sentence talker body .. =>
    let received : Gnss.Sentence :=
      ⟨talker ++ Utf8.decode (body.take (Gnss.Sentence.roomAfter talker))⟩
    ({ mail.1 with
        sentences := mail.1.sentences.modify (sentences talker) fun queue => (queue.push received).2 },
      (mail.2.push .gnssSentence).2)

/-- What is pushed for a report is what comes of the delivery of its handler. -/
theorem post_eq (messages : Nat) (sentences : String → Nat) (mail : Inboxes × BoundedQueue UrcEvent)
    (r : Report) :
    r.post messages sentences mail =
      (mail.1.post (r.delivery messages sentences), (mail.2.push r.event).2) := by
  cases r with
  | message => rfl
  | sentence => rfl

variable {messages : Nat} {sentences : String → Nat}

/-- The handler that is meant is one of the listeners. -/
theorem handler_mem (r : Report) : r.handler messages sentences ∈ listeners messages sentences := by
  cases r with
  | message => exact List.mem_cons_self
  | sentence talker body known line =>
    exact List.mem_cons_of_mem _ (List.mem_map_of_mem known)

/-- The announcements are the patterns of the listeners, in the same order. -/
theorem announcements_eq (messages : Nat) (sentences : String → Nat) :
    (listeners messages sentences).map (fun h => Utf8.encode h.pattern) = announcements := rfl

/-- The handler that is meant is woken by the announcement of the report. -/
theorem handler_pattern (r : Report) :
    Utf8.encode (r.handler messages sentences).pattern = r.announcement := by
  cases r <;> rfl

theorem handler_event (r : Report) : (r.handler messages sentences).event = some r.event := by
  cases r <;> rfl

/-- No two of them have the same announcement, so an announcement means one handler. -/
theorem nodup_announcements (messages : Nat) (sentences : String → Nat) :
    ((listeners messages sentences).map fun h => Utf8.encode h.pattern).Nodup := by
  rw [announcements_eq]
  decide

theorem pattern_mem_announcements {h : Handler} (hh : h ∈ listeners messages sentences) :
    Utf8.encode h.pattern ∈ announcements := by
  rw [← announcements_eq messages sentences]
  exact List.mem_map_of_mem hh

end Report

namespace Engine

variable {σ : Type}

/-- A handler's turn leaves the window alone: what it reads goes past it. -/
@[simp] theorem window_notify (f : Engine σ) (h : Handler) : (f.notify h).window = f.window := by
  unfold notify
  split
  · split <;> rfl
  · rfl

theorem notify_of_quiet {f : Engine σ} {h : Handler} (q : ¬f.window.endsWith h.pattern = true) :
    f.notify h = f := by
  rw [notify, if_neg q]

/-- A handler that is meant and reads to the end delivers what it has read and leaves its event. -/
theorem notify_of_delivered {f : Engine σ} {h : Handler} {d : Delivery} {t : Stream σ}
    (w : f.window.endsWith h.pattern = true) (r : h.process f.stream = .ok d t) :
    f.notify h =
      { f with
        stream := t
        inboxes := f.inboxes.post d
        events := match h.event with
          | some event => (f.events.push event).2
          | none => f.events } := by
  unfold notify
  rw [if_pos w]
  cases h.event <;> simp only [r]

/-- One that fails on the way has moved the stream on, and that is all. -/
theorem notify_of_failed {f : Engine σ} {h : Handler} {err : AtError} {t : Stream σ}
    (w : f.window.endsWith h.pattern = true) (r : h.process f.stream = .error err t) :
    f.notify h = { f with stream := t } := by
  unfold notify
  rw [if_pos w, r]

/-- Only those that are meant have their turn; the window they go by stays as it is. -/
theorem foldl_notify_eq_filter (hs : List Handler) (f : Engine σ) :
    hs.foldl notify f = (hs.filter fun h => f.window.endsWith h.pattern).foldl notify f := by
  induction hs generalizing f with
  | nil => rfl
  | cons h hs ih =>
    rw [List.foldl_cons, ih, window_notify, List.filter_cons]
    by_cases meant : f.window.endsWith h.pattern = true
    · rw [if_pos meant, List.foldl_cons]
    · rw [if_neg meant, notify_of_quiet meant]

/-- If none is meant, nothing happens in any of the turns. -/
theorem foldl_notify_of_quiet {hs : List Handler} {f : Engine σ}
    (quiet : ∀ h ∈ hs, ¬f.window.endsWith h.pattern = true) : hs.foldl notify f = f := by
  rw [foldl_notify_eq_filter, List.filter_eq_nil_iff.mpr quiet]
  rfl

/-- When one of them is meant, only that one has its turn: the others find the same window and
    nothing in it for them.  That the handlers are different makes sure that it has one turn and not
    two. -/
theorem foldl_notify_of_one {hs : List Handler} {f : Engine σ} {h : Handler} (mem : h ∈ hs)
    (nodup : hs.Nodup) (others : ∀ k ∈ hs, f.window.endsWith k.pattern = true → k = h) :
    hs.foldl notify f = f.notify h := by
  -- those before it and those after it are not meant, and it leaves the window alone
  obtain ⟨before, after, rfl⟩ := List.append_of_mem mem
  have rest := (List.nodup_middle.mp nodup)
  rw [List.nodup_cons] at rest
  have quiet : ∀ k ∈ before ++ after, ¬f.window.endsWith k.pattern = true := by
    intro k hk meant
    have e := others k (List.perm_middle.mem_iff.mpr (List.mem_cons_of_mem h hk)) meant
    exact rest.1 (e ▸ hk)
  rw [List.foldl_append, foldl_notify_of_quiet fun k hk => quiet k (List.mem_append_left _ hk),
    List.foldl_cons]
  refine foldl_notify_of_quiet fun k hk => ?_
  rw [window_notify]
  exact quiet k (List.mem_append_right _ hk)

/-- All handlers have their turns, in the order of registration. -/
def dispatch (e : Engine σ) : Engine σ := e.registry.handlers.foldl notify e

/-! ## In the middle of a wait -/

/-- Where a wait of `e` stands: it has heard `X`, there is `rest` to read, and `mail` has been
    delivered.  It is the invariant of a wait among reports: a line moves its bytes from `rest` into
    `X`, and a report leaves `rest` for `mail`. -/
structure Midway (e : Engine σ) (X rest : Bytes) (mail : Inboxes × BoundedQueue UrcEvent)
    (f : Engine σ) : Prop where
  stream : Stream.Holds e.stream rest f.stream
  window : f.window.EndOf X
  capacity : f.window.capacity = e.window.capacity
  registry : f.registry = e.registry
  mail : (f.inboxes, f.events) = mail

/-- Where a report is announced, each of the handlers that listen is meant or not. -/
structure Listening (messages : Nat) (sentences : String → Nat) (e : Engine σ) : Prop where
  handlers : e.registry.handlers.Perm (Report.listeners messages sentences)
  room : 15 ≤ e.window.capacity

section

variable {e f : Engine σ} {X rest : Bytes} {b : UInt8} {mail : Inboxes × BoundedQueue UrcEvent}
  {messages : Nat} {sentences : String → Nat} {cs : List (Bytes × MatchOutcome)}

/-- One turn of the wait: a byte is heard and the handlers have their turns; then the wait ends with it
    or goes on. -/
theorem Midway.turn (h : Midway e X (b :: rest) mail f) (deadline : Nat)
    (cs : List (Bytes × MatchOutcome)) :
    ∃ heard, Midway e (X ++ [b]) rest mail heard ∧
      f.waitUntil deadline cs =
        match classify heard.dispatch.window cs with
        | some o => (o, heard.dispatch)
        | none => heard.dispatch.waitUntil deadline cs := by
  obtain ⟨t, r, k, -⟩ := h.stream.readBy deadline
  exact ⟨{ f with stream := t }.hear b,
    ⟨k, h.window.push b, h.capacity, h.registry, h.mail⟩, waitUntil_of_some r⟩

/-- Where no handler is meant nothing happens, and the wait stands where it stood. -/
theorem Midway.dispatch_of_quiet (h : Midway e X rest mail f)
    (quiet : ∀ hd ∈ e.registry.handlers, ¬Utf8.encode hd.pattern <:+ X) : f.dispatch = f := by
  refine foldl_notify_of_quiet fun hd mem ends => ?_
  have mem' : hd ∈ e.registry.handlers := h.registry ▸ mem
  exact quiet hd mem' ((h.window.endsWith_iff _).mp ends).2.2

/-- Where a report has been announced the handler that is meant reads it, delivers it, and leaves
    what comes behind it to be read.  This is the step over a report, and the only place where
    handlers and inboxes are looked at. -/
theorem Midway.announce {r : Report} (h : Midway e X (r.body ++ rest) mail f)
    (l : Listening messages sentences e) (announced : r.announcement <:+ X)
    (once : ∀ a ∈ announcements, a <:+ X → a = r.announcement) :
    Midway e X rest (r.post messages sentences mail) f.dispatch := by
  have nodup := Report.nodup_announcements messages sentences
  have one : f.dispatch = f.notify (r.handler messages sentences) := by
    have listening : f.registry.handlers.Perm (Report.listeners messages sentences) :=
      h.registry ▸ l.handlers
    refine foldl_notify_of_one (listening.mem_iff.mpr r.handler_mem)
      (listening.nodup_iff.mpr nodup.of_map) fun hd mem ends => ?_
    -- the announcement tells the handlers apart
    have mem' := listening.mem_iff.mp mem
    have meant := once _ (Report.pattern_mem_announcements mem')
      ((h.window.endsWith_iff _).mp ends).2.2
    exact List.inj_on_of_nodup_map nodup mem' r.handler_mem (meant.trans r.handler_pattern.symm)
  have ends : f.window.endsWith (r.handler messages sentences).pattern = true := by
    have sized : ∀ a ∈ announcements, a ≠ [] ∧ a.length ≤ 15 := by decide
    obtain ⟨some, short⟩ := sized _ (announcement_mem r)
    rw [r.handler_pattern]
    exact (h.window.endsWith_iff _).mpr ⟨some, Nat.le_trans short (h.capacity ▸ l.room), announced⟩
  -- what it reads is the body of the report, so the stream stands right behind it
  obtain ⟨u, p, k⟩ := Stream.reads_process messages sentences r rest _
    (Stream.serves_holds e.stream) _ h.stream
  rw [one, notify_of_delivered ends p, r.handler_event]
  refine ⟨k, h.window, h.capacity, h.registry, ?_⟩
  rw [← h.mail, Report.post_eq]

/-! ## Through a line and through a report -/

/-- The first reply on the way through `todo`, after `seen`, and what comes behind it.  It is the
    reference for a wait without handlers, a function of the bytes alone. -/
def firstReply (reply : Bytes → Option MatchOutcome) : Bytes → Bytes → Option (MatchOutcome × Bytes)
  | _, [] => none
  | seen, b :: bs =>
    match reply (seen ++ [b]) with
    | some o => some (o, bs)
    | none => firstReply reply (seen ++ [b]) bs

/-- Where no candidate can have begun, what has been heard before does not matter.  It lets every
    line be looked at by itself, as if the wait had just begun. -/
theorem firstReply_of_apart {capacity : Nat} (apart : ∀ c ∈ cs, c.1 ≠ [] → Apart c.1 X)
    (todo : Bytes) :
    firstReply (reply capacity cs) X todo = firstReply (reply capacity cs) [] todo := by
  -- on the bytes to go; `seen` is what has come since
  suffices since : ∀ seen, firstReply (reply capacity cs) (X ++ seen) todo =
      firstReply (reply capacity cs) seen todo by
    rw [← since [], List.append_nil]
  intro seen
  induction todo generalizing seen with
  | nil => rfl
  | cons b todo ih =>
    have same : reply capacity cs (X ++ (seen ++ [b])) = reply capacity cs (seen ++ [b]) :=
      reply_congr fun c hc some => (apart c hc some).suffix_append_iff (by simp)
    rw [firstReply, firstReply, List.append_assoc, same]
    cases reply capacity cs (seen ++ [b]) with
    | some o => rfl
    | none => exact ih (seen ++ [b])

/-- A wait goes through bytes at which no handler is meant as far as the first reply to them.  This
    is the step over a line: in one case it ends the wait, and in the other the wait goes on behind
    it. -/
theorem Midway.walk {todo : Bytes} (h : Midway e X (todo ++ rest) mail f)
    (quiet : ∀ q, q <+: todo → q ≠ [] → ∀ hd ∈ e.registry.handlers,
      ¬Utf8.encode hd.pattern <:+ X ++ q) (deadline : Nat) (cs : List (Bytes × MatchOutcome)) :
    match firstReply (reply e.window.capacity cs) X todo with
    | some (o, tail) => ∃ g taken, todo = taken ++ tail ∧ f.waitUntil deadline cs = (o, g) ∧
        Midway e (X ++ taken) (tail ++ rest) mail g
    | none => ∃ g, f.waitUntil deadline cs = g.waitUntil deadline cs ∧
        Midway e (X ++ todo) rest mail g := by
  -- on the bytes to go; what the wait has behind it goes over to what it has heard
  induction todo generalizing X f with
  | nil => exact ⟨f, rfl, by rwa [List.append_nil]⟩
  | cons b todo ih =>
    obtain ⟨heard, next, turn⟩ := h.turn deadline cs
    rw [next.dispatch_of_quiet (quiet [b] (by simp) (by simp)), classify_eq_reply next.window,
      next.capacity] at turn
    rw [firstReply]
    cases r : reply e.window.capacity cs (X ++ [b]) with
    | some o =>
      rw [r] at turn
      exact ⟨_, [b], rfl, turn, next⟩
    | none =>
      rw [r] at turn
      have rest := ih next fun q hq _ hd mem => by
        rw [List.append_assoc]
        exact quiet (b :: q) (by simpa using hq) (by simp) hd mem
      rw [turn]
      cases s : firstReply (reply e.window.capacity cs) (X ++ [b]) todo with
      | some found =>
        rw [s] at rest
        obtain ⟨g, taken, rfl, stop, h'⟩ := rest
        rw [List.append_assoc] at h'
        exact ⟨g, b :: taken, rfl, stop, h'⟩
      | none =>
        rw [s] at rest
        obtain ⟨g, same, h'⟩ := rest
        rw [List.append_assoc] at h'
        exact ⟨g, same, h'⟩

theorem firstReply_eq_none {reply : Bytes → Option MatchOutcome} {seen todo : Bytes}
    (h : ∀ q, q <+: todo → q ≠ [] → reply (seen ++ q) = none) : firstReply reply seen todo = none := by
  induction todo generalizing seen with
  | nil => rfl
  | cons b todo ih =>
    rw [firstReply, h [b] (by simp) (by simp)]
    refine ih fun q hq _ => ?_
    rw [List.append_assoc]
    exact h (b :: q) (by simpa using hq) (by simp)

/-- The first reply is to the first beginning that gets one; the ones before it got none. -/
theorem firstReply_first {reply : Bytes → Option MatchOutcome} {seen todo rest : Bytes}
    {o : MatchOutcome} (h : firstReply reply seen todo = some (o, rest)) :
    ∃ front b, todo = front ++ b :: rest ∧ reply (seen ++ (front ++ [b])) = some o ∧
      ∀ q, q <+: front → q ≠ [] → reply (seen ++ q) = none := by
  induction todo generalizing seen with
  | nil => cases h
  | cons c todo ih =>
    rw [firstReply] at h
    cases r : reply (seen ++ [c]) with
    | some o' =>
      rw [r] at h
      cases h
      -- the first byte gets the reply, and nothing comes before it
      refine ⟨[], c, rfl, r, ?_⟩
      intro q hq more
      exact absurd (List.prefix_nil.mp hq) more
    | none =>
      rw [r] at h
      -- it gets none, so the first reply is behind it
      obtain ⟨front, b, rfl, answer, none⟩ := ih h
      refine ⟨c :: front, b, rfl, ?_, ?_⟩
      · rwa [List.append_assoc] at answer
      · intro q hq more
        rcases List.prefix_cons_iff.mp hq with rfl | ⟨others, rfl, inside⟩
        · exact absurd rfl more
        · by_cases short : others = []
          · rwa [short]
          · have later := none others inside short
            rwa [List.append_assoc] at later

/-- The reply is to a beginning that is not empty, and what is left stands behind that. -/
theorem firstReply_eq_some {reply : Bytes → Option MatchOutcome} {seen todo tail : Bytes}
    {o : MatchOutcome} (h : firstReply reply seen todo = some (o, tail)) :
    ∃ taken, taken ≠ [] ∧ todo = taken ++ tail ∧ reply (seen ++ taken) = some o := by
  obtain ⟨front, b, split, answer, -⟩ := firstReply_first h
  exact ⟨front ++ [b], by simp, by simp [split], answer⟩

/-- A history that gets a reply as a whole gets one on the way, at the latest there.  It need not be
    the same one, as something may be completed earlier. -/
theorem exists_firstReply {reply : Bytes → Option MatchOutcome} {seen todo : Bytes} {o : MatchOutcome}
    (some : todo ≠ []) (whole : reply (seen ++ todo) = .some o) :
    ∃ found, firstReply reply seen todo = .some found := by
  induction todo generalizing seen with
  | nil => exact absurd rfl some
  | cons b todo ih =>
    rw [firstReply]
    cases r : reply (seen ++ [b]) with
    | some o' => exact ⟨_, rfl⟩
    | none =>
      rw [← List.singleton_append, ← List.append_assoc] at whole
      refine ih ?_ whole
      rintro rfl
      rw [List.append_nil, r] at whole
      cases whole

/-- The reply to a text as a whole is the first one if there is none to a part of it. -/
theorem firstReply_of_whole {reply : Bytes → Option MatchOutcome} {seen todo : Bytes} {o : MatchOutcome}
    (early : ∀ q, q <+: todo → q ≠ [] → q ≠ todo → reply (seen ++ q) = none) (some : todo ≠ [])
    (whole : reply (seen ++ todo) = .some o) : firstReply reply seen todo = .some (o, []) := by
  obtain ⟨⟨o', tail⟩, found⟩ := exists_firstReply some whole
  obtain ⟨taken, more, split, answer⟩ := firstReply_eq_some found
  by_cases part : taken = todo
  · obtain rfl : tail = [] := by simpa [part] using split
    rw [part, whole] at answer
    rw [found, Option.some.inj answer]
  · rw [early taken (split ▸ List.prefix_append _ _) more part] at answer
    cases answer

/-- A wait goes through a line as far as the first reply to it, and past it if there is none; by
    induction on the bytes of the line, no handler being meant at any of them. -/
theorem Midway.passLine {body : Bytes} (h : Midway e X (body ++ crlf ++ rest) mail f)
    (l : Listening messages sentences e) (afresh : Afresh cs X)
    (plain : ∀ a ∈ announcements, ¬a <:+: body ++ crlf) (deadline : Nat) :
    match firstReply (reply e.window.capacity cs) [] (body ++ crlf) with
    | some (o, tail) => ∃ g Y, f.waitUntil deadline cs = (o, g) ∧ Midway e Y (tail ++ rest) mail g
    | none => ∃ g, f.waitUntil deadline cs = g.waitUntil deadline cs ∧
        Midway e (X ++ (body ++ crlf)) rest mail g := by
  have walk := h.walk (fun q hq some hd mem s => by
    have known := Report.pattern_mem_announcements (l.handlers.mem_iff.mp mem)
    rw [(afresh.announcements _ known).suffix_append_iff some] at s
    exact plain _ known (s.isInfix.trans hq.isInfix)) deadline cs
  -- only what has come since matching began afresh counts
  rw [firstReply_of_apart afresh.candidates] at walk
  cases r : firstReply (reply e.window.capacity cs) [] (body ++ crlf) with
  | some found =>
    rw [r] at walk
    obtain ⟨g, taken, -, stop, h'⟩ := walk
    exact ⟨g, _, stop, h'⟩
  | none =>
    rw [r] at walk
    exact walk

/-- A wait comes to a byte at which a handler may be meant, unless there is a reply before.  At that
    byte the handlers have their turn before the candidates are looked for, and so the wait goes on
    from the engine behind it. -/
theorem Midway.comeTo {before : Bytes} (h : Midway e X (before ++ b :: rest) mail f)
    (quiet : ∀ q, q <+: before → q ≠ [] → ∀ hd ∈ e.registry.handlers,
      ¬Utf8.encode hd.pattern <:+ X ++ q) (deadline : Nat) (cs : List (Bytes × MatchOutcome)) :
    (∃ taken tail o g, before = taken ++ tail ∧ taken ≠ [] ∧
        reply e.window.capacity cs (X ++ taken) = some o ∧ f.waitUntil deadline cs = (o, g) ∧
        Midway e (X ++ taken) (tail ++ b :: rest) mail g) ∨
      ∃ heard, Midway e (X ++ (before ++ [b])) rest mail heard ∧
        f.waitUntil deadline cs =
          match classify heard.dispatch.window cs with
          | some o => (o, heard.dispatch)
          | none => heard.dispatch.waitUntil deadline cs := by
  have walk := h.walk quiet deadline cs
  cases r : firstReply (reply e.window.capacity cs) X before with
  | some found =>
    rw [r] at walk
    obtain ⟨g, taken, split, stop, h'⟩ := walk
    obtain ⟨taken', some, split', answer⟩ := firstReply_eq_some r
    obtain rfl : taken' = taken := List.append_cancel_right (split'.symm.trans split)
    exact .inl ⟨taken', found.2, found.1, g, split, some, answer, stop, h'⟩
  | none =>
    rw [r] at walk
    obtain ⟨g, same, h'⟩ := walk
    obtain ⟨heard, next, turn⟩ := h'.turn deadline cs
    rw [List.append_assoc] at next
    exact .inr ⟨heard, next, same.trans turn⟩

/-- A wait passes a report, and the report is delivered: only its announcement is heard, and the
    last byte of that is where the handler has its turn. -/
theorem Midway.passReport {r : Report} (h : Midway e X (r.bytes ++ rest) mail f)
    (l : Listening messages sentences e) (afresh : Afresh cs X)
    (foreign : ∀ c ∈ cs, c.1 ≠ [] → Foreign c.1) (deadline : Nat) :
    ∃ g, f.waitUntil deadline cs = g.waitUntil deadline cs ∧
      Midway e (X ++ (r.opening ++ r.announcement)) rest (r.post messages sentences mail) g := by
  -- no candidate is part of what goes through the window
  have unanswered : ∀ q, q <+: r.opening ++ r.announcement → q ≠ [] →
      reply e.window.capacity cs (X ++ q) = none := by
    intro q hq some
    rw [afresh.reply_append some]
    refine reply_eq_none fun c hc some s => (foreign c hc some).inside _ (announcement_mem r) ?_
    refine (s.isInfix.trans hq.isInfix).trans ?_
    cases r with
    | message => exact List.infix_rfl
    | sentence => exact (List.suffix_append crlf _).isInfix
  -- and what is announced since `X` is announced at its end
  have announced : ∀ q, q <+: r.opening ++ r.announcement → q ≠ [] → ∀ a ∈ announcements,
      a <:+ X ++ q → q = r.opening ++ r.announcement ∧ a = r.announcement := by
    intro q hq some a ha s
    rw [(afresh.announcements a ha).suffix_append_iff some] at s
    exact eq_of_announced ha hq s
  have some : r.opening ++ r.announcement ≠ [] := by
    have all : ∀ a ∈ announcements, a ≠ [] := by decide
    simp [all _ (announcement_mem r)]
  obtain ⟨before, b, text⟩ : ∃ before b, r.opening ++ r.announcement = before ++ [b] :=
    ⟨_, _, (List.dropLast_append_getLast some).symm⟩
  have short : ∀ q, q <+: before → q <+: r.opening ++ r.announcement := fun q hq =>
    hq.trans (text ▸ List.prefix_append before [b])
  have bytes : r.bytes ++ rest = before ++ b :: (r.body ++ rest) := by
    rw [Report.bytes, text]
    simp
  rw [bytes] at h
  rcases h.comeTo (fun q hq more hd mem s => by
    -- up to the last byte nothing is announced yet
    have known := Report.pattern_mem_announcements (l.handlers.mem_iff.mp mem)
    have whole := (announced q (short q hq) more _ known s).1
    have le := hq.length_le
    rw [whole, text, List.length_append, List.length_singleton] at le
    omega) deadline cs with ⟨taken, tail, o, g, split, more, answer, -⟩ | ⟨heard, h', turn⟩
  · rw [unanswered taken (short taken (split ▸ List.prefix_append _ _)) more] at answer
    cases answer
  · rw [← text] at h'
    have last : r.announcement <:+ X ++ (r.opening ++ r.announcement) := by
      rw [← List.append_assoc]
      exact List.suffix_append _ _
    have next := h'.announce l last fun a ha s => (announced _ List.prefix_rfl some a ha s).2
    rw [classify_eq_reply next.window, next.capacity, unanswered _ List.prefix_rfl some] at turn
    exact ⟨_, turn, next⟩

end

end Engine
end AtModem
