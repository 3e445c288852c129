/-
  What is kept of an NMEA sentence.

  A line is read to its first carriage return, each byte within the byte timeout of the one before, or it
  is not read at all (`scan_lineByte_eq_stop_iff`).  What stands behind it is looked at once more: a line
  feed belongs to the line, any other byte is put back.  So the handler takes one line and nothing behind
  it, and delivers one sentence or nothing.

  The storage of a sentence limits the bytes of the line that are kept, and the text is what these bytes
  decode to.  If they are the bytes of a text it is just as long, so all fits, with one place to spare.
  But a line may bring anything, and a replacement is longer than the piece it stands for.  Then the text
  may come to three times what was kept, and there are lines for which it does.
-/
import AtModem.Gnss.Feed
import AtModem.Proofs.Midway
import AtModem.Proofs.Truncation
import AtModem.Proofs.Utf8

namespace AtModem

namespace Stream

variable {σ : Type} {s u : Stream σ} {line : Bytes}

/-! ## One line -/

/-- Whether a line comes that is ended by a carriage return, each byte in time, shows at its first
    byte.  The recursion of the reader is this equivalence, so its correctness is an induction along
    it. -/
theorem exists_line_iff {b : UInt8} {t : Stream σ} (r : s.readBy s.byteDeadline = (some b, t))
    {P : Bytes → Prop} :
    (∃ line, Ascii.cr ∉ line ∧ Yields s (line ++ [Ascii.cr]) u ∧ P line) ↔
      (b = Ascii.cr ∧ t = u ∧ P []) ∨
      (b ≠ Ascii.cr ∧ ∃ line, Ascii.cr ∉ line ∧ Yields t (line ++ [Ascii.cr]) u ∧ P (b :: line)) := by
  constructor
  · rintro ⟨_ | ⟨c, line⟩, clean, yields, h⟩
    -- the line is empty: the byte that was read ends it
    · left
      obtain ⟨t', r', ⟨⟩⟩ := yields_cons_iff.mp yields
      obtain ⟨e, rfl⟩ := Prod.mk.inj (r.symm.trans r')
      exact ⟨Option.some.inj e, rfl, h⟩
    -- the byte that was read is the first of the line
    · right
      obtain ⟨t', r', rest⟩ := yields_cons_iff.mp yields
      obtain ⟨e, rfl⟩ := Prod.mk.inj (r.symm.trans r')
      obtain rfl := Option.some.inj e
      rw [List.mem_cons, not_or] at clean
      exact ⟨Ne.symm clean.1, line, clean.2, rest, h⟩
  · rintro (⟨rfl, rfl, h⟩ | ⟨other, line, clean, yields, h⟩)
    -- either way the line is put together again
    · exact ⟨[], List.not_mem_nil, .cons r (.nil t), h⟩
    · refine ⟨b :: line, ?_, .cons r yields, h⟩
      rw [List.mem_cons, not_or]
      exact ⟨other.symm, clean⟩

/-- The fold over a line stops at its first carriage return, if the stream yields the line up to
    there.  The fold keeps the line in reverse, with what it had before at the end. -/
theorem scan_lineByte_eq_stop_iff {acc kept : Bytes} :
    s.scan byteDeadline lineByte acc = (.stop kept, u) ↔
      ∃ line, Ascii.cr ∉ line ∧ Yields s (line ++ [Ascii.cr]) u ∧ line.reverse ++ acc = kept := by
  generalize hd : byteDeadline = deadline
  generalize hn : lineByte = next
  fun_induction scan deadline next acc s with
  | case1 acc s t none =>
    subst hd
    -- no byte came, so the fold did not stop, and there is no line to be had
    constructor
    · intro h
      cases h
    · rintro ⟨_ | ⟨b, line⟩, -, _ | ⟨r, -⟩, -⟩
      · rw [none] at r
        cases r
      · rw [none] at r
        cases r
  | case2 acc s b t r kept' stop =>
    subst hd hn
    -- the byte is the carriage return, and the line ends before it
    rw [exists_line_iff r]
    unfold lineByte at stop
    split at stop
    · rename_i cr
      cases stop
      simp [cr, and_comm]
    · cases stop
  | case3 acc s b t r acc' more ih =>
    subst hd hn
    -- the byte is one of the line, and the rest of that is what the fold goes on with
    rw [exists_line_iff r, ih]
    unfold lineByte at more
    split at more
    · cases more
    · rename_i other
      cases more
      simp [other]

/-- A line feed, if it is the next byte and comes in time.  It is all that a line takes of what
    stands behind its carriage return. -/
def lineFeed (s : Stream σ) : Bytes :=
  if (s.arrivedBy (s.lastPoll s.byteDeadline)).head? = some Ascii.lf then [Ascii.lf] else []

/-- What is kept of a line; of what stands behind it only a line feed is taken.  A byte behind the
    carriage return that is no line feed is put back. -/
theorem readLineBytes_of_line (max : Nat) (clean : Ascii.cr ∉ line)
    (yields : Yields s (line ++ [Ascii.cr]) u) :
    ∃ t, readLineBytes max s = .ok (line.take max) t ∧ u.unread = u.lineFeed ++ t.unread := by
  have whole : s.scan byteDeadline lineByte [] = (.stop line.reverse, u) :=
    scan_lineByte_eq_stop_iff.mpr ⟨line, clean, yields, List.append_nil _⟩
  unfold readLineBytes lineFeed
  rw [whole]
  dsimp only
  rw [List.reverse_reverse]
  have read := readBy_arrival u.byteDeadline u
  rcases r : u.readBy u.byteDeadline with ⟨_ | b, t⟩ <;> rw [r] at read
  -- nothing comes behind the carriage return in time
  · obtain ⟨-, later, nothing⟩ := read
    refine ⟨t, rfl, ?_⟩
    rw [nothing, later]
    rfl
  -- a byte comes; it is taken if it is the line feed, and else put back
  · obtain ⟨poll, took⟩ := read
    have next : (u.arrivedBy (u.lastPoll u.byteDeadline)).head? = some b := by
      rw [took.arrivedBy _ (poll ▸ t.now_le_lastPoll u.byteDeadline)]
      rfl
    refine ⟨_, rfl, ?_⟩
    rw [next]
    by_cases lf : b = Ascii.lf
    · rw [if_pos lf, if_pos (congrArg some lf), took.unread, lf]
      rfl
    · have other : some b ≠ some Ascii.lf := fun e => lf (Option.some.inj e)
      rw [if_neg lf, if_neg other, unread_pushBack_of_took took]
      rfl

/-- A line that is not ended in time is not read: whatever has come of it is gone, and the reader
    says so. -/
theorem readLineBytes_of_no_line (max : Nat)
    (never : ∀ line u, Ascii.cr ∉ line → ¬Yields s (line ++ [Ascii.cr]) u) :
    ∃ t, readLineBytes max s = .error .timedOut t := by
  unfold readLineBytes
  rcases e : s.scan byteDeadline lineByte [] with ⟨kept | acc, t⟩
  · obtain ⟨line, clean, yields, -⟩ := scan_lineByte_eq_stop_iff.mp e
    exact absurd yields (never line t clean)
  · exact ⟨t, rfl⟩

end Stream

namespace Gnss.Sentence

/-! ## What is kept of it -/

/-- The sentence of a line: the talker that has announced it, and as much of the line as there is
    room for.  The room is counted in bytes of the line, before they are decoded, so it bounds the
    text only as far as decoding does not make it longer. -/
def ofLine (talker : String) (line : Bytes) : Sentence :=
  ⟨talker ++ Utf8.decode (line.take (roomAfter talker))⟩

variable {talker : String} {line : Bytes}

/-- The text is as long as the talker and what the kept bytes decode to, which need not be as many
    bytes. -/
theorem size_ofLine (talker : String) (line : Bytes) :
    (ofLine talker line).text.utf8ByteSize =
      talker.utf8ByteSize + (Utf8.decode (line.take (roomAfter talker))).utf8ByteSize :=
  String.utf8ByteSize_append

/-- The talker, a zero byte and what is kept of the line fill the storage, if the talker leaves room. -/
theorem add_roomAfter (talker : String) :
    talker.utf8ByteSize + roomAfter talker = max (sentenceCapacity - 1) talker.utf8ByteSize := by
  have room : roomAfter talker = sentenceCapacity - (1 + talker.utf8ByteSize) := rfl
  omega

/-- What is kept of the line may come to three times its length, since a replacement takes three
    bytes and stands for at least one. -/
theorem size_ofLine_le (talker : String) (line : Bytes) :
    (ofLine talker line).text.utf8ByteSize ≤
      talker.utf8ByteSize + 3 * min (roomAfter talker) line.length := by
  rw [size_ofLine, ← List.length_take]
  exact Nat.add_le_add_left (Utf8.utf8ByteSize_decode_le _) _

/-- If it is the bytes of a text, the sentence fits its storage: then decoding gives just these
    bytes back. -/
theorem size_ofLine_of_wellFormed (kept : Utf8.WellFormed (line.take (roomAfter talker))) :
    (ofLine talker line).text.utf8ByteSize ≤ max (sentenceCapacity - 1) talker.utf8ByteSize := by
  rw [size_ofLine, kept.utf8ByteSize_decode, ← add_roomAfter]
  exact Nat.add_le_add_left (List.length_take_le _ _) _

/-- Noise can make it three times as long as that, so the bound is met. -/
theorem size_ofLine_of_noise (talker : String) {n : Nat} (long : roomAfter talker ≤ n) :
    (ofLine talker (List.replicate n 0xFF)).text.utf8ByteSize =
      talker.utf8ByteSize + 3 * roomAfter talker := by
  rw [size_ofLine, List.take_replicate, Nat.min_eq_left long, Utf8.utf8ByteSize_decode_replicate]

end Gnss.Sentence

namespace Engine

variable {σ : Type}

/-- An announced sentence is captured just if its line is ended in time.  Then one sentence goes to the
    inbox: the talker and what is kept of the line.  The line is taken with its carriage return, and with
    the line feed behind it if that comes in time, but nothing more.  The sentence fits its storage if the
    kept bytes are those of a text, and may come to three times as much otherwise, which it does where the
    line is long enough and nothing but noise.  Without a line nothing is delivered. -/
theorem sentence_keeps_one_line (talker : String) (inbox : Nat) (e : Engine σ)
    (announced : e.window.endsWith talker = true) :
    let room := Gnss.Sentence.roomAfter talker
    (∀ line u, Ascii.cr ∉ line → Stream.Yields e.stream (line ++ [Ascii.cr]) u →
      ∃ sentence t,
        e.notify (.sentence talker inbox) =
          { e with
            stream := t
            inboxes := { e.inboxes with sentences := Inboxes.pushAt inbox sentence e.inboxes.sentences }
            events := (e.events.push .gnssSentence).2 } ∧
        e.stream.unread = line ++ Ascii.cr :: (u.lineFeed ++ t.unread) ∧
        sentence.text = talker ++ Utf8.decode (line.take room) ∧
        sentence.text.utf8ByteSize ≤ talker.utf8ByteSize + 3 * min room line.length ∧
        (Utf8.WellFormed (line.take room) →
          sentence.text.utf8ByteSize ≤ max (Gnss.sentenceCapacity - 1) talker.utf8ByteSize) ∧
        (∀ n, room ≤ n → line = List.replicate n 0xFF →
          sentence.text.utf8ByteSize = talker.utf8ByteSize + 3 * room)) ∧
    ((∀ line u, Ascii.cr ∉ line → ¬Stream.Yields e.stream (line ++ [Ascii.cr]) u) →
      ∃ t, e.notify (.sentence talker inbox) = { e with stream := t }) := by
  intro room
  constructor
  -- a line ends in time: it is what is kept, up to the room there is
  · intro line u clean yields
    obtain ⟨t, read, behind⟩ := Stream.readLineBytes_of_line room clean yields
    refine ⟨Gnss.Sentence.ofLine talker line, t, ?_, ?_, rfl, ?_, ?_, ?_⟩
    · have captured : (Handler.sentence talker inbox).process e.stream =
          .ok (.sentence inbox (Gnss.Sentence.ofLine talker line)) t := by
        rw [Handler.process_sentence]
        exact bind_of_ok (bind_of_ok (bind_of_ok read))
      exact notify_of_delivered announced captured
    · rw [yields.unread, behind, List.append_assoc]
      rfl
    · exact Gnss.Sentence.size_ofLine_le talker line
    · exact Gnss.Sentence.size_ofLine_of_wellFormed
    · rintro n long rfl
      exact Gnss.Sentence.size_ofLine_of_noise talker long
  -- no line ends in time: the turn only moves the stream
  · intro never
    obtain ⟨t, failed⟩ := Stream.readLineBytes_of_no_line room never
    have missed : (Handler.sentence talker inbox).process e.stream = .error .timedOut t := by
      rw [Handler.process_sentence]
      exact bind_of_error (bind_of_error (bind_of_error failed))
    exact ⟨t, notify_of_failed announced missed⟩

/-- A line of noise that just fills the room for it: the text has 279 bytes.  The next sentence is
    there.  Each byte of noise becomes a replacement character of three bytes. -/
theorem sentence_keeps_one_line_of_noise :
    let line := List.replicate 92 0xFF
    let next := Utf8.encode "$GNGLL,1\r\n"
    let link : Link Unit :=
      { Link.ofDevice () with queued := line ++ [Ascii.cr] ++ (Ascii.lf :: next) }
    let e := ofLink .standard link
    let e := { e with
      window := e.window.pushAll (Utf8.encode "$GP")
      inboxes := { e.inboxes with sentences := [.empty Gnss.inboxCapacity .dropOldest] } }
    e.window.endsWith "$GP" = true ∧ Ascii.cr ∉ line ∧
      ∃ u sentence, Stream.Yields e.stream (line ++ [Ascii.cr]) u ∧
        (e.notify (.sentence "$GP" 0)).inboxes.sentences =
          [((BoundedQueue.empty Gnss.inboxCapacity .dropOldest).push sentence).2] ∧
        (e.notify (.sentence "$GP" 0)).stream.unread = next ∧ sentence.text.utf8ByteSize = 279 := by
  intro line next link e₀ e
  have announced : e.window.endsWith "$GP" = true := by decide
  have clean : Ascii.cr ∉ line := by
    intro mem
    exact absurd (List.eq_of_mem_replicate mem) (by decide)
  -- all there is to read is there
  have holds : Stream.Holds e.stream (line ++ [Ascii.cr] ++ (Ascii.lf :: next)) e.stream := ⟨rfl, rfl, rfl⟩
  obtain ⟨u, gathered, behind⟩ := (Stream.serves_holds e.stream).gather holds
  have yields : Stream.Yields e.stream (line ++ [Ascii.cr]) u := Stream.yields_iff_gather.mpr gathered
  have feed : u.lineFeed = [Ascii.lf] := by
    have arrived : ∀ a ∈ u.link.scheduled.arrivals, a.time ≤ u.lastPoll u.byteDeadline := by
      rw [behind.scheduled]
      nofun
    rw [Stream.lineFeed, Stream.arrivedBy_of_arrived arrived, behind.unread]
    rfl
  obtain ⟨captured, -⟩ := sentence_keeps_one_line "$GP" 0 e announced
  obtain ⟨sentence, t, turn, unread, -, -, -, noise⟩ := captured line u clean yields
  have left : t.unread = next := by
    rw [feed, holds.unread, List.append_assoc] at unread
    have tail := List.append_cancel_left unread
    exact (List.cons.inj (List.cons.inj tail).2).2.symm
  refine ⟨announced, clean, u, sentence, yields, ?_, ?_, noise 92 (by decide) rfl⟩
  · rw [turn]
    rfl
  · rw [turn]
    exact left

end Engine
end AtModem
