/-
  Payloads that end early.

  A read of a known number of bytes that gets fewer says how many it was to get and how many it got.  Two
  readers take a payload by two such reads, one behind the other: a field skips the head that it cannot keep
  and reads the tail, and a receive fills the room that is left and skips what is beyond it.  So a payload
  that ends early is reported by the read in which it ends, with the numbers of that read alone
  (`AtError.ofPart`).  They are the announced length and the length that has come just where one of the two
  reads has nothing to do (`AtError.ofPart_eq_iff`).

  Where a payload ends is said of the stream (`EndsAfter`).  Such an end is passed on: behind the bytes of
  the first read, if they have all come, the stream ends after the others (`EndsAfter.inPart`).  Both
  readers are followed with that one case distinction.  A receive may come to the chunk that ends early
  behind any others (`ComesTo`); each of those was taken whole, so the loop only hands the error on.
-/
import AtModem.Proofs.Reassembly
import AtModem.Proofs.Truncation

namespace AtModem

/-! ## The error of one part -/

/-- The error where `whole` bytes are read as the first `front` of them and then the others, and
    only `got` of them come: that of the part in which they end, by the numbers of that part.  The
    two parts are read by two reads, neither of which knows of the other. -/
def AtError.ofPart (front whole got : Nat) : AtError :=
  if got < front then .transferLengthMismatch front got
  else .transferLengthMismatch (whole - front) (got - front)

/-- It tells the whole number and how many of them came only where one of the parts is empty. -/
theorem AtError.ofPart_eq_iff {front whole got : Nat} (le : front ≤ whole) (short : got < whole) :
    ofPart front whole got = .transferLengthMismatch whole got ↔ front = 0 ∨ front = whole := by
  unfold ofPart
  split <;> rw [AtError.transferLengthMismatch.injEq] <;> omega

namespace Stream

variable {σ : Type} {s t : Stream σ} {bs : Bytes} {count : Nat}

/-! ## Where the bytes end -/

/-- The bytes are yielded, and none comes within the byte timeout of the last; then the stream is
    `t`.  The stream is the one behind the wait in vain, since that wait belongs to the read that
    fails. -/
def EndsAfter (s : Stream σ) (bs : Bytes) (t : Stream σ) : Prop :=
  ∃ u, Yields s bs u ∧ u.readBy u.byteDeadline = (none, t)

/-- The end comes in the first part of what is to be read, or behind it. -/
theorem EndsAfter.inPart (h : EndsAfter s bs t) (front : Nat) :
    bs.length < front ∨ ∃ u, (bs.take front).length = front ∧ Yields s (bs.take front) u ∧
      EndsAfter u (bs.drop front) t := by
  rcases Nat.lt_or_ge bs.length front with early | enough
  · exact .inl early
  · obtain ⟨v, yields, none⟩ := h
    rw [← List.take_append_drop front bs] at yields
    obtain ⟨u, first, others⟩ := yields_append_iff.mp yields
    exact .inr ⟨u, List.length_take_of_le enough, first, v, others, none⟩

/-- A read of more bytes than come gets those, and ends where they do. -/
theorem EndsAfter.gather (h : EndsAfter s bs t) (short : bs.length < count) :
    s.gather count = (bs, t) := by
  obtain ⟨u, yields, none⟩ := h
  induction yields generalizing count with
  | nil s =>
    obtain ⟨n, rfl⟩ := Nat.exists_eq_succ_of_ne_zero (Nat.ne_zero_of_lt short)
    rw [gather_succ, none]
  | cons r _ ih =>
    obtain ⟨n, rfl⟩ := Nat.exists_eq_succ_of_ne_zero (Nat.ne_zero_of_lt short)
    simp only [gather_succ, r, ih (Nat.lt_of_succ_lt_succ short) none]

/-- A read of a payload that ends early reports what it was to get and what it got. -/
theorem EndsAfter.readExact (h : EndsAfter s bs t) (short : bs.length < count) :
    Stream.readExact count s = .error (.transferLengthMismatch count bs.length) t := by
  rw [readExact_eq, h.gather short]
  exact if_neg (Nat.ne_of_lt short)

theorem EndsAfter.skip (h : EndsAfter s bs t) (short : bs.length < count) :
    Stream.skip count s = .error (.transferLengthMismatch count bs.length) t :=
  bind_of_error (h.readExact short)

/-- The bytes end where there are no more to come: the next read is in vain. -/
theorem Yields.endsAfter {u : Stream σ} (h : Yields s bs u) (nothing : u.unread = []) :
    ∃ t, EndsAfter s bs t := by
  obtain ⟨t, none, -, -⟩ := readBy_of_nothing nothing u.byteDeadline
  exact ⟨t, u, h, none⟩

/-! ## Fields -/

/-- A field reports what it was to skip, or what it was to keep.  Which of the two it is depends on
    how much has come, and `AtError.ofPart` says it for both. -/
theorem EndsAfter.readField {declared : Nat} (h : EndsAfter s bs t) (short : bs.length < declared)
    (capacity : Nat) :
    FixedField.read capacity declared s =
      .error (.ofPart (declared - FixedField.kept capacity declared) declared bs.length) t := by
  have le := FixedField.kept_le capacity declared
  rcases h.inPart (declared - FixedField.kept capacity declared) with early | ⟨u, all, head, tail⟩
  · rw [AtError.ofPart, if_pos early]
    exact bind_of_error (h.skip early)
  · have skipped : Stream.skip (declared - FixedField.kept capacity declared) s = .ok () u :=
      skip_eq_ok_iff.mpr ⟨_, all, head⟩
    rw [List.length_take] at all
    have left : (bs.drop (declared - FixedField.kept capacity declared)).length <
        FixedField.kept capacity declared := by
      rw [List.length_drop]
      omega
    rw [AtError.ofPart, if_neg (by omega), Nat.sub_sub_self le, ← List.length_drop]
    exact (bind_of_ok skipped).trans (bind_of_error (tail.readExact left))

end Stream

/-- One of the two reads of a field has nothing to do just where all or nothing of the payload is
    kept; the capacity decides. -/
theorem FixedField.head_or_tail_iff {capacity declared : Nat} (some : 0 < declared) :
    declared - kept capacity declared = 0 ∨ declared - kept capacity declared = declared ↔
      declared < capacity ∨ capacity ≤ 1 := by
  show declared - min declared (capacity - 1) = 0 ∨ declared - min declared (capacity - 1) = declared ↔ _
  omega

namespace Engine

variable {σ : Type} {e : Engine σ} {t : Stream σ} {bs : Bytes} {count : Nat}

/-! ## Reads of the engine -/

theorem fill_of_yields (h : e.stream.Yields bs t) (b : Buffer) :
    fill bs.length (b, e) = .ok () (b.put bs, { e with stream := t }) := by
  rw [fill_eq, Stream.yields_iff_gather.mp h]
  exact if_pos rfl

/-- Bytes that end early are put there as well, and then the shortfall is reported. -/
theorem fill_of_endsAfter (h : e.stream.EndsAfter bs t) (short : bs.length < count) (b : Buffer) :
    fill count (b, e) =
      .error (.transferLengthMismatch count bs.length) (b.put bs, { e with stream := t }) := by
  rw [fill_eq, h.gather short]
  exact if_neg (Nat.ne_of_lt short)

theorem onStream_skip_of_endsAfter (h : e.stream.EndsAfter bs t) (short : bs.length < count) :
    onStream (Stream.skip count) e =
      .error (.transferLengthMismatch count bs.length) { e with stream := t } := by
  rw [onStream_skip, h.gather short]
  exact if_neg (Nat.ne_of_lt short)

/-- On a calm engine the bytes end with what there is to read. -/
theorem Calm.endsAfter {n : Nat} {d : σ} {X : Bytes} (h : Calm n d X bs e) :
    ∃ t, e.stream.EndsAfter bs t := by
  have all : Stream.Holds e.stream (bs ++ []) e.stream := by
    rw [List.append_nil]
    exact h.holds
  obtain ⟨u, gathered, rest⟩ := (Stream.serves_holds e.stream).gather all
  exact (Stream.yields_iff_gather.mpr gathered).endsAfter rest.unread

end Engine

namespace Ssl

open Engine

variable {σ : Type} {e : Engine σ} {t : Stream σ} {b : Buffer} {bs : Bytes} {length : Nat}

/-! ## Chunks -/

/-- A chunk reports what was to go into the buffer, or what was to be dropped.  The buffer has what has
    come, as far as there was room. -/
theorem readChunk_of_endsAfter (h : e.stream.EndsAfter bs t) (short : bs.length < length) (b : Buffer) :
    readChunk length (b, e) =
      .error (.ofPart (min length b.room) length bs.length)
        (b.put (bs.take b.room), { e with stream := t }) := by
  show (if b.room < length then _ else _ : BufferM AtError σ Nat) (b, e) = _
  by_cases large : b.room < length
  -- the chunk is larger than the room: it stops coming in its head or behind it
  · rw [if_pos large, Nat.min_eq_right (Nat.le_of_lt large)]
    rcases h.inPart b.room with early | ⟨u, all, fit, rest⟩
    -- in the head, which was to go into the buffer
    · rw [AtError.ofPart, if_pos early, List.take_of_length_le (Nat.le_of_lt early)]
      exact bind_of_error (fill_of_endsAfter h early b)
    -- behind it, where the rest was to be skipped
    · have filled := fill_of_yields fit b
      rw [all] at filled
      rw [List.length_take] at all
      have left : (bs.drop b.room).length < length - b.room := by
        rw [List.length_drop]
        omega
      have skipped := onStream_skip_of_endsAfter (e := { e with stream := u }) rest left
      rw [AtError.ofPart, if_neg (by omega), ← List.length_drop]
      exact (bind_of_ok filled).trans (bind_of_error (besideBuffer_of_error skipped _))
  -- there is room for all of it
  · have fits : length ≤ b.room := Nat.le_of_not_lt large
    have all : bs.length ≤ b.room := Nat.le_trans (Nat.le_of_lt short) fits
    rw [if_neg large, Nat.min_eq_left fits, AtError.ofPart, if_pos short, List.take_of_length_le all]
    exact bind_of_error (fill_of_endsAfter h short b)

/-! ## The chunks of a receive -/

/-- Taking chunks comes to one of this length: its heading has been read, the chunks before it have
    been taken, and its bytes are next.  The chunks before it have been taken well, whatever they
    were, and so it can be the first or any later one. -/
inductive ComesTo (length : Nat) : Buffer × Engine σ → Buffer × Engine σ → Prop
  | heading {b : Buffer} {e f g : Engine σ} {i : Nat} :
      e.wait [recvTag] chunkTimeout false true = (.pattern i, f) → readHeading f = .ok (.data length) g →
        ComesTo length (b, e) (b, g)
  | behind {s t u : Buffer × Engine σ} {more : Nat} :
      nextChunk s = .ok (some more) t → ComesTo length t u → ComesTo length s u

/-- What goes wrong in one turn ends the loop, and the error is handed on. -/
theorem takeChunks_of_error {s t : Buffer × Engine σ} {err : AtError} (r : nextChunk s = .error err t)
    (excess : Nat) : takeChunks excess s = .error err t := by
  rw [takeChunks]
  split <;> rename_i e <;> rw [r] at e <;> cases e
  rfl

/-- What goes wrong with the bytes of a chunk ends the receive, however many chunks came before
    it. -/
theorem ComesTo.takeChunks {s p q : Buffer × Engine σ} {err : AtError} (h : ComesTo length s p)
    (some : length ≠ 0) (failed : readChunk length p = .error err q) (excess : Nat) :
    Ssl.takeChunks excess s = .error err q := by
  induction h generalizing excess with
  | heading w heading =>
    refine takeChunks_of_error ?_ excess
    rw [Calm.nextChunk_of_heading w, Calm.takeChunk_data some heading]
    exact bind_of_error failed
  | behind taken _ ih =>
    rw [Calm.takeChunks_of_some taken]
    exact ih failed (excess + _)

variable [Device σ] {f g : Engine σ}

/-- A receive whose chunk ends early reports the read in which it ended: the one into the room that
    was left, or the one of what was beyond it. -/
theorem receive_of_endsAfter {session : SessionId} {size : Nat}
    (opened : openReceive session size e = .ok () f) (comes : ComesTo length (.ofSize size, f) (b, g))
    (ends : g.stream.EndsAfter bs t) (short : bs.length < length) :
    receive session (.ofSize size, e) =
      .error (.ofPart (min length b.room) length bs.length)
        (b.put (bs.take b.room), { g with stream := t }) := by
  have failed := comes.takeChunks (Nat.ne_zero_of_lt short) (readChunk_of_endsAfter ends short b) 0
  exact (bind_of_ok (besideBuffer_of_ok opened _)).trans (bind_of_error failed)

/-- Of a payload that ends early a field reports the part that it was to skip or the part that it was to
    keep, whichever is not whole, and a receive the part for which there was room or the part beyond it.  So
    the announced length and the length that has come are reported just where the payload is read as one:
    in a field that keeps all of it or nothing of it, in a receive that has room for all of the chunk or for
    nothing. -/
theorem short_payload_reported_by_part :
    (∀ (capacity declared : Nat) (s t : Stream σ) (bs : Bytes),
      s.EndsAfter bs t → bs.length < declared →
      ∃ err, FixedField.read capacity declared s = .error err t ∧
        err = .ofPart (declared - FixedField.kept capacity declared) declared bs.length ∧
        (err = .transferLengthMismatch declared bs.length ↔ declared < capacity ∨ capacity ≤ 1)) ∧
    ∀ (session : SessionId) (size : Nat) (e f g : Engine σ) (b : Buffer) (length : Nat) (t : Stream σ)
      (bs : Bytes),
      openReceive session size e = .ok () f → ComesTo length (.ofSize size, f) (b, g) →
      g.stream.EndsAfter bs t → bs.length < length →
      ∃ err, receive session (.ofSize size, e) =
          .error err (b.put (bs.take b.room), { g with stream := t }) ∧
        err = .ofPart (min length b.room) length bs.length ∧
        (err = .transferLengthMismatch length bs.length ↔ length ≤ b.room ∨ b.room = 0) := by
  constructor
  · intro capacity declared s t bs ends short
    refine ⟨_, ends.readField short capacity, rfl, ?_⟩
    rw [AtError.ofPart_eq_iff (Nat.sub_le _ _) short]
    exact FixedField.head_or_tail_iff (Nat.zero_lt_of_lt short)
  · intro session size e f g b length t bs opened comes ends short
    refine ⟨_, receive_of_endsAfter opened comes ends short, rfl, ?_⟩
    rw [AtError.ofPart_eq_iff (Nat.min_le_left _ _) short]
    omega

/-- A field with room for three of ten bytes, of which three come, each at the last moment; and a chunk of
    ten bytes for which there is room for three behind one that looks like a terminator, and of which six
    come. -/
theorem short_payload_reported_by_part_of_ten :
    let late := Schedule.spaced 10 10 (Utf8.encode "bc")
    let link : Link Script :=
      { Link.ofDevice .silent with scheduled := ⟨late, Schedule.spaced_ordered 10 10 _⟩ }
    let s : Stream Script := ⟨link, some 0x61, 7, 10, .of .blank⟩
    let answer := "\r\nOK\r\n\r\n+CCHRECV: DATA,0,9\r\n\r\nERROR\r\n\r\n+CCHRECV: DATA,0,10\r\nabcdef"
    let e := facing .standard "AT+CCHRECV=0,12" (.now (Utf8.encode answer))
    (∃ t, s.EndsAfter (Utf8.encode "abc") t ∧
      FixedField.read 4 10 s = .error (.transferLengthMismatch 7 3) t) ∧
    ∃ f g b t, openReceive 0 12 e = .ok () f ∧ ComesTo 10 (.ofSize 12, f) (b, g) ∧ b.room = 3 ∧
      g.stream.EndsAfter (Utf8.encode "abcdef") t ∧
      receive 0 (.ofSize 12, e) = .error (.transferLengthMismatch 7 3)
        (b.put (Utf8.encode "abc"), { g with stream := t }) := by
  intro late link s answer e
  -- the field, by the first half
  constructor
  · let front : List Arrival := ⟨0, 0x61⟩ :: Schedule.spaced 10 10 (Utf8.encode "bc")
    have steady : Stream.Steady s.arrivals (front ++ []) s :=
      ⟨Stream.awaits_arrivals s, by decide, by decide⟩
    obtain ⟨u, yields, rest⟩ := steady.yields
    obtain ⟨t, ends⟩ := yields.endsAfter rest.unread
    obtain ⟨err, failed, rfl, -⟩ :=
      (@short_payload_reported_by_part Script _).1 4 10 s t _ ends (by decide)
    exact ⟨t, ends, failed⟩
  -- the chunk, by the second
  · let c : Chunk := ⟨Utf8.encode "\r\nERROR\r\n", by decide, by decide⟩
    have text : Utf8.encode answer = crlf ++ okLine ++ (crlf ++ (dataHeading 0 c.bytes.length ++ (c.bytes ++
        (crlf ++ (dataHeading 0 10 ++ Utf8.encode "abcdef"))))) := by decide
    let d := answering "AT+CCHRECV=0,12" (.now (Utf8.encode answer))
    obtain ⟨X, lineEnd, calm⟩ := AtRest.ofLink .standard d
    have asked : Device.answer d (Utf8.encode s!"AT+CCHRECV={(0 : SessionId)},{12}") =
        (d, .now (Utf8.encode answer)) := answer_answering _ _
    rw [text] at asked
    obtain ⟨f, opened, k⟩ := calm.openReceive lineEnd rfl asked
    have settled : LineEnd (X ++ (crlf ++ okLine)) := .append_lf X (crlf ++ Utf8.encode "OK\r")
    obtain ⟨g, taken, m⟩ := k.nextChunk_data (between_of_lineEnd settled) (.ofSize 12)
    rw [dataHeading_append] at m
    obtain ⟨h, w, l⟩ := m.nextHeading (between_recvTag _)
    obtain ⟨i, heading, last⟩ := l.readHeading_data (by decide)
    obtain ⟨t, ends⟩ := last.endsAfter
    obtain ⟨err, failed, rfl, -⟩ := short_payload_reported_by_part.2 0 12 e f i _ 10 t _ opened
      (.behind taken (.heading w heading)) ends (by decide)
    exact ⟨f, i, _, t, opened, .behind taken (.heading w heading), by decide, ends, failed⟩

end Ssl
end AtModem
