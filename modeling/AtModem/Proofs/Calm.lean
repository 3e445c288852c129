/-
  Exchanges on a calm engine.

  An engine is calm when nothing happens on it but what its own calls do: no handler is registered,
  nothing is on its way on the link, and no line has been begun.  What then matters is the state of the
  device, what the waits have heard, and what there is to read (`Calm`).  A wait goes through what there
  is to read as far as the first reply to it, a reading takes its part, and a command adds the answer of
  the device; each of them leaves the engine calm, so that an exchange is followed step by step.

  A device that answers in whole lines leaves the waits at the end of a line (`LineEnd`), and there every
  pattern that has no line feed inside is looked for afresh.  So an answer that ends with the first
  terminator in it (`Complete`) is all that a command takes, and if nothing else is to be read, the
  command takes its own answer and the engine is at rest again (`AtRest.command`).
-/
import AtModem.Proofs.FarEnd
import AtModem.Proofs.Matching
import AtModem.Proofs.Midway
import AtModem.Proofs.Utf8

namespace AtModem

/-! ## Ends of lines -/

/-- The end of a line, or nothing yet.  A device that answers in whole lines leaves every wait at
    one of the two. -/
def LineEnd (X : Bytes) : Prop := X = [] ∨ ∃ Y, X = Y ++ [Ascii.lf]

/-- Whatever ends with a line feed is at the end of a line. -/
theorem LineEnd.append_lf (X Y : Bytes) : LineEnd (X ++ (Y ++ [Ascii.lf])) :=
  .inr ⟨X ++ Y, (List.append_assoc X Y _).symm⟩

/-- At the end of a line every pattern is looked for afresh that has no line feed but its last
    byte. -/
theorem LineEnd.apart {X p : Bytes} (h : LineEnd X) (inLine : Ascii.lf ∉ p.dropLast) : Apart p X := by
  rcases h with rfl | ⟨Y, rfl⟩
  · exact .nil p
  · exact .concat inLine Y

/-! ## Lines that the device hears -/

/-- A text that ends no line.  Only a line feed could; a carriage return by itself stays part of the
    line. -/
def OneLine (text : String) : Prop := Ascii.lf ∉ Utf8.encode text

instance (text : String) : Decidable (OneLine text) := inferInstanceAs (Decidable (_ ∉ _))

namespace OneLine

/-- The bytes end no line just if the characters do not, since a line feed is the byte that it
    is. -/
theorem iff {text : String} : OneLine text ↔ '\n' ∉ text.toList :=
  not_congr (Utf8.mem_encode_iff (by decide) text)

theorem append {s t : String} (hs : OneLine s) (ht : OneLine t) : OneLine (s ++ t) := by
  rw [iff] at hs ht ⊢
  simp [hs, ht]

theorem toString (n : Nat) : OneLine (ToString.toString n) := by
  rw [iff, Nat.toString_eq_ofList_toDigits, String.toList_ofList]
  intro h
  exact absurd (Nat.isDigit_of_mem_toDigits (by decide) (by decide) h) (by decide)

theorem of_quotable {s : String} (h : quotable s = true) : OneLine s :=
  iff.mpr fun m => (quotable_iff.mp h _ m).2.2 rfl

theorem inQuotes {s : String} (h : quotable s = true) : OneLine (AtModem.inQuotes s) :=
  append (append (by decide) (of_quotable h)) (by decide)

end OneLine

namespace Link

variable {σ : Type} [Device σ] {l : Link σ}

/-- A byte that cannot end a line is kept with those before it, and the device hears nothing yet. -/
theorem absorb_of_line {b : UInt8} (lines : Device.takesRaw l.device = false) (other : b ≠ Ascii.lf) :
    l.absorb b = { l with unfinished := b :: l.unfinished } := by
  unfold absorb
  rw [lines]
  show l.extend b = _
  unfold extend
  split
  · exact absurd rfl other
  · rfl

/-- So it goes with any number of them; they are kept newest first. -/
theorem absorbAll_of_line {line : Bytes} (lines : Device.takesRaw l.device = false)
    (oneLine : Ascii.lf ∉ line) :
    l.absorbAll line = { l with unfinished := line.reverse ++ l.unfinished } := by
  induction line generalizing l with
  | nil => rfl
  | cons b line ih =>
    obtain ⟨other, rest⟩ : Ascii.lf ≠ b ∧ Ascii.lf ∉ line := by simpa using oneLine
    have more := ih (l := { l with unfinished := b :: l.unfinished }) lines rest
    rw [absorbAll_cons, absorb_of_line lines other.symm, more, List.reverse_cons, List.append_assoc]
    rfl

/-- Bytes that do not end a line stand in front of what comes next, and are otherwise only
    recorded. -/
theorem write_line {line : Bytes} (works : l.failWrites = false)
    (lines : Device.takesRaw l.device = false) (fresh : l.unfinished = []) (oneLine : Ascii.lf ∉ line) :
    l.write line = .ok { l with written := l.written ++ line, unfinished := line.reverse } := by
  have collected := absorbAll_of_line (l := { l with written := l.written ++ line }) lines oneLine
  rw [write_of_working works, collected, fresh, List.append_nil]

/-- The end of a line gives it to the device without its end, and the reply is taken in.  The device
    is not taking raw bytes, and so the two bytes end its line. -/
theorem write_crlf {d : σ} {reply : Reply} (works : l.failWrites = false)
    (lines : Device.takesRaw l.device = false)
    (answers : Device.answer l.device l.unfinished.reverse = (d, reply)) :
    l.write crlf = .ok
      ({ l with device := d, written := l.written ++ crlf, unfinished := [] }.receive reply) := by
  have cr := absorb_of_line (l := { l with written := l.written ++ crlf }) (b := Ascii.cr) lines
    (by decide)
  rw [write_of_working works]
  show Except.ok ((Link.absorb _ Ascii.cr).absorb Ascii.lf) = _
  rw [cr]
  unfold absorb
  rw [lines]
  show Except.ok (Link.hear _ l.unfinished.reverse) = _
  unfold hear
  rw [answers]

end Link

namespace Engine

variable {σ : Type}

/-! ## The first reply -/

/-- The first reply to bytes that come before others: it is found among the first, or it is looked
    for in the others with the first as history. -/
theorem firstReply_append {reply : Bytes → Option MatchOutcome} {seen xs : Bytes} (ys : Bytes) :
    firstReply reply seen (xs ++ ys) =
      match firstReply reply seen xs with
      | some (o, rest) => some (o, rest ++ ys)
      | none => firstReply reply (seen ++ xs) ys := by
  induction xs generalizing seen with
  | nil => simp [firstReply]
  | cons b xs ih =>
    rw [List.cons_append, firstReply, firstReply]
    cases reply (seen ++ [b]) with
    | some o => rfl
    | none =>
      simp only
      rw [ih, List.append_assoc]
      rfl

/-- A window that has room for every candidate might as well be larger: what it kept beyond that
    would never be looked at. -/
theorem reply_of_le {n m : Nat} {cs : List (Bytes × MatchOutcome)} (fits : ∀ c ∈ cs, c.1.length ≤ m)
    (le : m ≤ n) : reply n cs = reply m cs := by
  funext heard
  unfold reply
  rw [← List.head?_filter, ← List.head?_filter, List.filter_congr fun c hc => ?_]
  rw [decide_eq_true (fits c hc), decide_eq_true (Nat.le_trans (fits c hc) le)]

/-- Histories that end in the same way get the same first reply, as far as what the replies are made
    of can tell. -/
theorem firstReply_congr {r r' : Bytes → Option MatchOutcome} {seen seen' todo : Bytes}
    (same : ∀ q, q <+: todo → q ≠ [] → r (seen ++ q) = r' (seen' ++ q)) :
    firstReply r seen todo = firstReply r' seen' todo := by
  induction todo generalizing seen seen' with
  | nil => rfl
  | cons b todo ih =>
    rw [firstReply, firstReply, same [b] (by simp) (by simp)]
    cases r' (seen' ++ [b]) with
    | some o => rfl
    | none =>
      refine ih fun q hq _ => ?_
      rw [List.append_assoc, List.append_assoc]
      exact same (b :: q) (by simpa using hq) (by simp)

/-! ## Terminators -/

/-- What a wait looks for that looks for nothing but the end of an answer: `ERROR`, then `OK`, each
    with its line end. -/
abbrev terminators : List (Bytes × MatchOutcome) := candidates [] true true

/-- No terminator has begun.  So the next one that is found has come as a whole since. -/
def Settled (X : Bytes) : Prop := ∀ c ∈ terminators, Apart c.1 X

/-- A byte that no terminator has inside settles everything before it. -/
theorem Settled.concat {b : UInt8} (inside : ∀ c ∈ terminators, b ∉ c.1.dropLast) (X : Bytes) :
    Settled (X ++ [b]) := fun c hc => .concat (inside c hc) X

/-- The end of a line settles it, since terminators stand on lines of their own. -/
theorem settled_of_lineEnd {X : Bytes} (h : LineEnd X) : Settled X := fun c hc => by
  have inLine : ∀ c ∈ terminators, Ascii.lf ∉ c.1.dropLast := by decide
  exact h.apart (inLine c hc)

/-! ## Answers -/

/-- An answer and what it comes to: a wait for terminators that hears it stops at its end, and not
    before.  Seven bytes are the longer one of the terminators, so the answer is complete in every
    window that has room for both. -/
def Complete (a : Bytes × MatchOutcome) : Prop :=
  firstReply (reply 7 terminators) [] a.1 = some (a.2, [])

instance (a : Bytes × MatchOutcome) : Decidable (Complete a) := inferInstanceAs (Decidable (_ = _))

example : Complete (Utf8.encode "\r\n+CSQ: 17,99\r\n\r\nOK\r\n", .success) := by decide

namespace Complete

variable {a : Bytes × MatchOutcome} {X : Bytes}

/-- It does not matter what the wait has behind it, if no terminator has begun there. -/
theorem heard {n : Nat} (h : Complete a) (room : 7 ≤ n) (settled : Settled X) :
    firstReply (reply n terminators) X a.1 = some (a.2, []) := by
  rw [firstReply_of_apart (fun c hc _ => settled c hc), reply_of_le (by decide) room]
  exact h

/-- What ends with a terminator ends with a line, whatever came before it. -/
theorem lineEnd (h : Complete a) (X : Bytes) : LineEnd (X ++ a.1) := by
  obtain ⟨taken, -, whole, found⟩ := firstReply_eq_some h
  obtain ⟨c, hc, -, front, last⟩ := suffix_of_reply_eq_some found
  have lf : ∀ c ∈ terminators, c.1.dropLast ++ [Ascii.lf] = c.1 := by decide
  have whole : a.1 = front ++ (c.1.dropLast ++ [Ascii.lf]) := by
    rw [whole, List.append_nil, lf c hc]
    exact last.symm
  rw [whole, ← List.append_assoc]
  exact .append_lf _ _

end Complete

/-- Answers, one behind another, as they stand in the stream when nobody has read them. -/
def inTurn (as : List (Bytes × MatchOutcome)) : Bytes := as.flatMap Prod.fst

/-! ## Calm engines -/

/-- An engine on which nothing happens but what its own calls do.  `heard` is all that its waits
    have heard, of which the window keeps the end; `unread` is all there is to read.  It is the
    invariant of every exchange with a device that answers at once, and each lemma below says what
    one operation makes of `heard` and `unread`. -/
structure Calm (capacity : Nat) (device : σ) (heard unread : Bytes) (e : Engine σ) : Prop where
  quiet : e.registry.handlers = []
  capacity : e.window.capacity = capacity
  window : e.window.EndOf heard
  device : e.stream.link.device = device
  scheduled : e.stream.link.scheduled.arrivals = []
  unread : e.stream.lookahead.toList ++ e.stream.link.queued = unread
  unfinished : e.stream.link.unfinished = []
  works : e.stream.link.failWrites = false

namespace Calm

variable {capacity : Nat} {d d' : σ} {X taken rest bs answer : Bytes} {e : Engine σ}

/-- What there is to read is all there is to read, since nothing is on its way. -/
theorem stream_unread (h : Calm capacity d X bs e) : e.stream.unread = bs := by
  rw [Stream.unread, Schedule.bytes, h.scheduled, List.map_nil, List.append_nil, h.unread]

/-- A new engine on a new link is calm: it has heard nothing and there is nothing to read. -/
theorem ofLink (config : EngineConfig) (device : σ) :
    Calm (max config.windowCapacity 1) device [] [] (Engine.ofLink config (.ofDevice device)) where
  quiet := rfl
  capacity := rfl
  window := Window.endOf_ofCapacity _
  device := rfl
  scheduled := rfl
  unread := rfl
  unfinished := rfl
  works := rfl

/-! ### Reading -/

/-- Its stream holds its bytes, so whatever reads bytes that are there reads them. -/
theorem holds (h : Calm capacity d X bs e) : Stream.Holds e.stream bs e.stream :=
  ⟨h.scheduled, h.unread, rfl⟩

/-- What only takes bytes off the stream changes what there is to read, and nothing else of what
    makes the engine calm. -/
theorem read (h : Calm capacity d X bs e) {t : Stream σ} (k : Stream.Holds e.stream rest t) :
    Calm capacity d X rest { e with stream := t } := by
  have same := k.same
  refine ⟨h.quiet, h.capacity, h.window, ?_, k.scheduled, k.bytes, ?_, ?_⟩
  · show t.link.device = d
    rw [same]
    exact h.device
  · show t.link.unfinished = []
    rw [same]
    exact h.unfinished
  · show t.link.failWrites = false
    rw [same]
    exact h.works

/-- A reader takes its part of the bytes, and nobody hears of it. -/
theorem onStream {α : Type} {x : StreamM σ α} {a : α} (h : Calm capacity d X bs e)
    (reads : Stream.Reads x a bs rest) :
    ∃ f, Engine.onStream x e = .ok a f ∧ Calm capacity d X rest f := by
  obtain ⟨t, r, k⟩ := reads _ (Stream.serves_holds e.stream) _ h.holds
  refine ⟨{ e with stream := t }, ?_, h.read k⟩
  unfold Engine.onStream
  rw [r]

/-- A wait goes through the bytes as far as the first reply to them, and hears those and no others.
    No handler has a turn, since there is none. -/
theorem waitUntil {cs : List (Bytes × MatchOutcome)} {o : MatchOutcome}
    (h : Calm capacity d X (taken ++ rest) e)
    (first : firstReply (reply capacity cs) X taken = some (o, [])) (deadline : Nat) :
    ∃ f, e.waitUntil deadline cs = (o, f) ∧ Calm capacity d (X ++ taken) rest f := by
  have midway : Midway e X (taken ++ rest) (e.inboxes, e.events) e :=
    ⟨h.holds, h.window, rfl, rfl, rfl⟩
  -- with no handler there is none that could be meant
  have walk := midway.walk (fun q _ _ hd mem => by
    rw [h.quiet] at mem
    cases mem) deadline cs
  rw [h.capacity, first] at walk
  obtain ⟨f, all, e', stop, k⟩ := walk
  rw [List.append_nil] at e'
  subst e'
  have read := h.read k.stream
  refine ⟨f, stop, ?_, k.capacity.trans h.capacity, k.window, read.device, read.scheduled, read.unread,
    read.unfinished, read.works⟩
  rw [k.registry]
  exact h.quiet

/-- The same of a wait with a timeout, which does not matter as long as the reply is there. -/
theorem wait {patterns : List Bytes} {ok error : Bool} {o : MatchOutcome}
    (h : Calm capacity d X (taken ++ rest) e)
    (first : firstReply (reply capacity (candidates patterns ok error)) X taken = some (o, []))
    (timeout : Nat) :
    ∃ f, e.wait patterns timeout ok error = (o, f) ∧ Calm capacity d (X ++ taken) rest f :=
  h.waitUntil first (e.now + timeout)

/-- With nothing to read a wait lasts until its deadline, and the engine is calm afterwards. -/
theorem wait_nothing (h : Calm capacity d X [] e) (patterns : List Bytes) (timeout : Nat)
    (ok error : Bool) :
    ∃ f, e.wait patterns timeout ok error = (.timedOut, f) ∧ Calm capacity d X [] f := by
  have read := Stream.readBy_arrival (e.now + timeout) e.stream
  obtain ⟨t, none, -, -⟩ := Stream.readBy_of_nothing h.stream_unread (e.now + timeout)
  rw [none] at read
  obtain ⟨-, late, -⟩ := read
  refine ⟨_, waitUntil_of_none none, ?_⟩
  rw [late]
  exact ⟨h.quiet, h.capacity, h.window, h.device, h.scheduled, h.unread, h.unfinished, h.works⟩

/-- A wait for terminators ends with the first of them, and says whether it was `OK`. -/
theorem waitOk {o : MatchOutcome} (h : Calm capacity d X (taken ++ rest) e)
    (first : firstReply (reply capacity terminators) X taken = some (o, [])) (timeout : Nat) :
    ∃ f, Engine.waitOk timeout e = ofResult o.expectSuccess f ∧
      Calm capacity d (X ++ taken) rest f := by
  obtain ⟨f, w, k⟩ := h.wait first timeout
  exact ⟨f, bind_of_ok (await_of_wait w), k⟩

/-- What is left of an answer is cleared away, whatever its terminator says. -/
theorem plainClear {o : MatchOutcome} (h : Calm capacity d X (taken ++ rest) e)
    (first : firstReply (reply capacity terminators) X taken = some (o, [])) :
    ∃ f, Engine.plainClear e = .ok () f ∧ Calm capacity d (X ++ taken) rest f := by
  obtain ⟨f, w, k⟩ := h.wait first e.defaultTimeout
  have cleared : Engine.clear e.defaultTimeout e = .ok () f := bind_of_ok (await_of_wait w)
  exact ⟨f, cleared, k⟩

/-! ### Writing -/

variable [Device σ]

/-- A write that the link takes is all there is to printing. -/
theorem print_of_write {data : Bytes} {l : Link σ} (w : e.stream.link.write data = .ok l) :
    Engine.print data e = .ok () { e with stream := { e.stream with link := l } } := by
  unfold Engine.print
  rw [w]

omit [Device σ] in
/-- What is written changes nothing but the far end and what there is to read, so that only the
    device has to be followed. -/
theorem write (h : Calm capacity d X bs e) {l : Link σ}
    (far : l = { e.stream.link with
      device := d'
      queued := e.stream.link.queued ++ answer
      written := l.written
      unfinished := [] }) :
    Calm capacity d' X (bs ++ answer) { e with stream := { e.stream with link := l } } := by
  rw [far]
  refine ⟨h.quiet, h.capacity, h.window, rfl, h.scheduled, ?_, rfl, h.works⟩
  rw [← h.unread, List.append_assoc]

/-- Bytes that go to the device, and what it makes of them: its new state and the bytes it adds to
    those to be read. -/
theorem print {data : Bytes} (h : Calm capacity d X bs e)
    (absorbed : ∀ l : Link σ, l.device = d →
      l.absorbAll data = { l with device := d', queued := l.queued ++ answer }) :
    ∃ f, Engine.print data e = .ok () f ∧ Calm capacity d' X (bs ++ answer) f := by
  have w := Link.write_of_working h.works data
  have far := absorbed { e.stream.link with written := e.stream.link.written ++ data } h.device
  refine ⟨_, print_of_write w, h.write ?_⟩
  rw [far, ← h.unfinished]

/-- A line that goes to the device, and its reply.  It is written in two parts, and the device hears
    it with the second one.  This is the only place where the unfinished line of a link is looked
    at; all later lemmas begin and end with none. -/
theorem send_of_reply {line : String} {reply : Reply} (works : e.stream.link.failWrites = false)
    (lines : Device.takesRaw e.stream.link.device = false) (fresh : e.stream.link.unfinished = [])
    (oneLine : OneLine line) (answers : Device.answer e.stream.link.device (Utf8.encode line) = (d', reply)) :
    Engine.send line e = .ok () { e with stream := { e.stream with
      link := { e.stream.link with
        device := d'
        written := e.stream.link.written ++ Utf8.encode line ++ crlf
        unfinished := [] }.receive reply } } := by
  have text := Link.write_line works lines fresh oneLine
  have heard : Device.answer e.stream.link.device (Utf8.encode line).reverse.reverse = (d', reply) := by
    rw [List.reverse_reverse, answers]
  have rest := Link.write_crlf (l := { e.stream.link with
    written := e.stream.link.written ++ Utf8.encode line
    unfinished := (Utf8.encode line).reverse }) works lines heard
  exact (bind_of_ok (print_of_write text)).trans (print_of_write rest)

/-- A line that goes to the device, and its answer, which is there at once behind whatever was left
    to read. -/
theorem send {line : String} (h : Calm capacity d X bs e) (lines : Device.takesRaw d = false)
    (oneLine : OneLine line)
    (answers : Device.answer d (Utf8.encode line) = (d', .now answer)) :
    ∃ f, Engine.send line e = .ok () f ∧ Calm capacity d' X (bs ++ answer) f := by
  rw [← h.device] at lines answers
  exact ⟨_, send_of_reply h.works lines h.unfinished oneLine answers, h.write rfl⟩

/-- A command that is given while answers to others are still to be read: the first answer of them
    all is taken for its own.  With nothing left to be read, `left` is empty and the answer taken is
    the command's own. -/
theorem command {line : String} {a first : Bytes × MatchOutcome}
    {left others : List (Bytes × MatchOutcome)} (room : 7 ≤ capacity) (settled : Settled X)
    (h : Calm capacity d X (inTurn left) e) (queue : left ++ [a] = first :: others)
    (complete : Complete first) (lines : Device.takesRaw d = false) (oneLine : OneLine line)
    (answers : Device.answer d (Utf8.encode line) = (d', .now a.1)) (timeout : Nat) :
    ∃ f, Engine.command line timeout e = ofResult first.2.expectSuccess f ∧
      Calm capacity d' (X ++ first.1) (inTurn others) f := by
  obtain ⟨f, s, sent⟩ := h.send lines oneLine answers
  have toRead : inTurn left ++ a.1 = first.1 ++ inTurn others := by
    have all := congrArg inTurn queue
    simpa [inTurn] using all
  rw [toRead] at sent
  obtain ⟨g, w, k⟩ := sent.waitOk (complete.heard room settled) timeout
  exact ⟨g, (bind_of_ok s).trans w, k⟩

end Calm

/-! ## Between two exchanges -/

/-- An engine that has no handlers and nothing to read, on a link that works and holds no part of a
    line, with a window that is empty or ends with a line.  It speaks of the engine alone, as
    hypotheses of theorems should; that the engine is calm follows from it. -/
structure Idle (capacity : Nat) (e : Engine σ) : Prop where
  quiet : e.registry.handlers = []
  capacity : e.window.capacity = capacity
  window : LineEnd e.window.bytes
  unread : e.stream.unread = []
  unfinished : e.stream.link.unfinished = []
  works : e.stream.link.failWrites = false

/-- A calm engine that has read everything and stands at the end of a line.  Between two exchanges
    this is all that needs to be known, whatever the waits have heard. -/
def AtRest (capacity : Nat) (device : σ) (e : Engine σ) : Prop :=
  ∃ X, LineEnd X ∧ Calm capacity device X [] e

namespace AtRest

variable {capacity : Nat} {d d' : σ} {e : Engine σ}

theorem ofLink (config : EngineConfig) (device : σ) :
    AtRest (max config.windowCapacity 1) device (Engine.ofLink config (.ofDevice device)) :=
  ⟨[], .inl rfl, .ofLink config device⟩

/-- An idle engine is at rest, with the end of what it has heard in its window. -/
theorem ofIdle (h : Idle capacity e) : AtRest capacity e.stream.link.device e := by
  obtain ⟨buffered, sent⟩ := List.append_eq_nil_iff.mp h.unread
  obtain ⟨queued, scheduled⟩ := List.append_eq_nil_iff.mp sent
  refine ⟨e.window.bytes, h.window, h.quiet, h.capacity, e.window.endOf_bytes, rfl,
    List.map_eq_nil_iff.mp scheduled, ?_, h.unfinished, h.works⟩
  rw [buffered, queued]
  rfl

/-- And an engine at rest is idle, so the two say the same of it. -/
theorem idle (h : AtRest capacity d e) : Idle capacity e := by
  obtain ⟨X, ends, c⟩ := h
  refine ⟨c.quiet, c.capacity, ?_, c.stream_unread, c.unfinished, c.works⟩
  have kept : e.window.bytes = X.rtake e.window.capacity := c.window
  obtain ⟨m, hm⟩ : ∃ m, e.window.capacity = m + 1 := ⟨e.window.capacity - 1, by
    have := e.window.capacity_pos
    omega⟩
  rw [kept, hm]
  rcases ends with rfl | ⟨Y, rfl⟩
  · exact .inl (List.rtake_nil _)
  · exact .inr ⟨Y.rtake m, List.rtake_concat_succ Y m Ascii.lf⟩

/-- At rest, the device is the one that stands in the statement. -/
theorem device (h : AtRest capacity d e) : e.stream.link.device = d := by
  obtain ⟨X, -, c⟩ := h
  exact c.device

theorem unread (h : AtRest capacity d e) : e.stream.unread = [] := by
  obtain ⟨X, -, c⟩ := h
  exact c.stream_unread

/-- A command that is answered as a whole takes its answer to the end, and the engine is at rest
    again. -/
theorem command [Device σ] {a : Bytes × MatchOutcome} {line : String} (room : 7 ≤ capacity)
    (h : AtRest capacity d e) (complete : Complete a) (lines : Device.takesRaw d = false)
    (oneLine : OneLine line) (answers : Device.answer d (Utf8.encode line) = (d', .now a.1))
    (timeout : Nat) :
    ∃ f, Engine.command line timeout e = ofResult a.2.expectSuccess f ∧ AtRest capacity d' f := by
  obtain ⟨X, lineEnd, k⟩ := h
  have k : Calm capacity d X (inTurn []) e := k
  obtain ⟨f, ran, k⟩ := k.command room (settled_of_lineEnd lineEnd) (List.nil_append [a]) complete lines
    oneLine answers timeout
  exact ⟨f, ran, _, complete.lineEnd X, k⟩

end AtRest
end Engine
end AtModem
