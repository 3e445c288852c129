/-
  A receive puts chunks together again.

  The device hands out what it keeps in chunks.  Only the headings are heard by the waits; the bytes of a
  chunk are read past the window by their number, so it makes no difference what they look like.  Between
  two headings the window hears the line end behind a chunk and the next `+CCHRECV: `, and since that ends
  with a blank and everything before it with a line feed, no candidate can begin before and end behind
  (`Between`).  That is the invariant of the loop.

  In the buffer a chunk leaves as much of itself as there is room, and counts the rest as excess
  (`Calm.readChunk`): one statement for the chunk that fits, the one that straddles the end and the one that
  comes when the buffer is full.  So after any chunks the buffer has the beginning of them all together,
  and the excess is what the whole has beyond it (`Calm.takeChunks`).
-/
import AtModem.Proofs.Calm
import AtModem.Proofs.Punctuality
import AtModem.Ssl.Receive

namespace AtModem

namespace Stream

/-- A wanted byte is taken, and another one is put back where it was. -/
theorem reads_readWanted {σ : Type} (wanted : UInt8 → Bool) (b : UInt8) (bs : Bytes) :
    Reads (readWanted (σ := σ) wanted) b (b :: bs) (if wanted b then bs else b :: bs) := by
  intro P serves s h
  obtain ⟨t, r, k, empty⟩ := serves.readBy h s.byteDeadline
  refine ⟨if wanted b then t else t.pushBack b, ?_, ?_⟩
  · rw [readWanted, r]
  · by_cases kept : wanted b = true
    · rw [if_pos kept, if_pos kept]
      exact k
    · rw [if_neg kept, if_neg kept]
      exact serves.pushBack k empty b

end Stream

namespace Buffer

/-- What is put into a buffer takes up its room, as far as there is any. -/
theorem room_put (b : Buffer) (bs : Bytes) : (b.put bs).room = b.room - bs.length := by
  show b.size - (b.placed ++ bs).length = b.size - b.placed.length - bs.length
  rw [List.length_append]
  omega

/-- Two pieces put one after the other are put together. -/
theorem put_put (b : Buffer) (xs ys : Bytes) : (b.put xs).put ys = b.put (xs ++ ys) := by
  rw [put, put, put, List.append_assoc]

/-- Of two pieces the second finds the room that the first has left, so clipping them one by one
    clips the whole. -/
theorem put_take_put_take (b : Buffer) (xs ys : Bytes) :
    (b.put (xs.take b.room)).put (ys.take (b.put (xs.take b.room)).room) =
      b.put ((xs ++ ys).take b.room) := by
  have left : (b.put (xs.take b.room)).room = b.room - xs.length := by
    rw [room_put, List.length_take]
    omega
  rw [put_put, left, List.take_append]

end Buffer

namespace Ssl

/-! ## The text of an answer -/

/-- A chunk as the device can announce it: not empty, and its length a 64-bit number. -/
structure Chunk where
  bytes : Bytes
  ne_nil : bytes ≠ []
  length_le : bytes.length ≤ Decimal.maxInt

/-- The heading of a chunk of this length: the session and the length behind the word for data. -/
def dataHeading (session : SessionId) (length : Nat) : Bytes :=
  Utf8.encode s!"+CCHRECV: DATA,{session},{length}\r\n"

/-- A chunk as it is sent: its heading, its bytes and a line end. -/
def Chunk.text (session : SessionId) (c : Chunk) : Bytes :=
  dataHeading session c.bytes.length ++ c.bytes ++ crlf

/-- What ends a receive: a chunk without bytes, or a closing line. -/
inductive Ending where
  | emptyChunk
  | closing

/-- The heading by which it is told. -/
def Ending.text (session : SessionId) : Ending → Bytes
  | emptyChunk => dataHeading session 0
  | closing => Utf8.encode s!"+CCHRECV: {session},0\r\n"

/-- All the bytes of some chunks, in their order; this is what a receive is to put together. -/
def joined (chunks : List Chunk) : Bytes := chunks.flatMap Chunk.bytes

/-- What every heading begins with, and all of it that a wait hears. -/
def recvTag : Bytes := Utf8.encode "+CCHRECV: "

/-- A chunk's heading, taken apart as the parsers read it. -/
theorem dataHeading_append (session : SessionId) (length : Nat) (rest : Bytes) :
    dataHeading session length ++ rest =
      recvTag ++ letterD :: (Utf8.encode "ATA" ++ Ascii.comma :: (Decimal.digits session.toNat ++
        Ascii.comma :: (Decimal.digits length ++ Ascii.cr :: Ascii.lf :: rest))) := by
  have text : s!"+CCHRECV: DATA,{session},{length}\r\n" =
      "+CCHRECV: " ++ "DATA," ++ toString session.toNat ++ "," ++ toString length ++ "\r\n" := rfl
  have opening : Utf8.encode "DATA," = letterD :: (Utf8.encode "ATA" ++ [Ascii.comma]) := by decide
  have comma : Utf8.encode "," = [Ascii.comma] := by decide
  have line : Utf8.encode "\r\n" = [Ascii.cr, Ascii.lf] := by decide
  rw [dataHeading, text]
  simp only [Utf8.encode_append, Decimal.encode_toString, opening, comma, line, recvTag, List.append_assoc,
    List.cons_append, List.nil_append]

/-- The closing line, taken apart as the parsers read it. -/
theorem closing_append (session : SessionId) (rest : Bytes) :
    Ending.text session .closing ++ rest =
      recvTag ++ (Decimal.digits session.toNat ++ Ascii.comma ::
        (Decimal.digits 0 ++ Ascii.cr :: Ascii.lf :: rest)) := by
  have text : s!"+CCHRECV: {session},0\r\n" =
      "+CCHRECV: " ++ toString session.toNat ++ ",0\r\n" := rfl
  have zero : Decimal.digits 0 = [0x30] := (Decimal.encode_toString 0).symm.trans (by decide)
  have ending : Utf8.encode ",0\r\n" = Ascii.comma :: (Decimal.digits 0 ++ [Ascii.cr, Ascii.lf]) := by
    rw [zero]
    decide
  show Utf8.encode s!"+CCHRECV: {session},0\r\n" ++ rest = _
  rw [text]
  simp only [Utf8.encode_append, Decimal.encode_toString, ending, recvTag, List.append_assoc,
    List.cons_append, List.nil_append]

/-! ## The window between two headings -/

/-- Nothing that a receive looks for has begun: the invariant of the window between two headings.  A
    chunk is not heard by any wait, so the bytes in it cannot break this, whatever they are. -/
def Between (X : Bytes) : Prop := ∀ c ∈ Engine.candidates [recvTag] false true, Apart c.1 X

/-- Behind a heading's beginning nothing has begun, since it ends with a blank. -/
theorem between_recvTag (X : Bytes) : Between (X ++ (crlf ++ recvTag)) := by
  have inside : ∀ c ∈ Engine.candidates [recvTag] false true, (0x20 : UInt8) ∉ c.1.dropLast := by decide
  have last : crlf ++ recvTag = crlf ++ Utf8.encode "+CCHRECV:" ++ [0x20] := by decide
  intro c hc
  rw [last, ← List.append_assoc]
  exact .concat (inside c hc) _

theorem between_of_lineEnd {X : Bytes} (h : LineEnd X) : Between X := by
  have inLine : ∀ c ∈ Engine.candidates [recvTag] false true, Ascii.lf ∉ c.1.dropLast := by decide
  exact fun c hc => h.apart (inLine c hc)

/-- The next heading is the first thing that is found, and nothing before it is mistaken for it. -/
theorem Between.heard {X : Bytes} (h : Between X) :
    Engine.firstReply (Engine.reply Window.defaultCapacity (Engine.candidates [recvTag] false true)) X
      (crlf ++ recvTag) = some (.pattern 1, []) := by
  rw [Engine.firstReply_of_apart fun c hc _ => h c hc]
  decide

end Ssl

namespace Stream

open Ssl

variable {σ : Type} {session : SessionId} {rest : Bytes}

/-! ## Headings -/

/-- What stands behind the word for data is read up to the line end, and only the length is kept. -/
theorem reads_chunkLength {length : Nat} (fits : length ≤ Decimal.maxInt) :
    Reads (σ := σ)
      (do
        find Ascii.comma
        let _ ← parseInt
        find Ascii.comma
        let length ← parseLen
        find Ascii.lf
        return ChunkHeading.data length)
      (.data length)
      (Utf8.encode "ATA" ++ Ascii.comma :: (Decimal.digits session.toNat ++ Ascii.comma ::
        (Decimal.digits length ++ Ascii.cr :: Ascii.lf :: rest))) rest := by
  have none : Ascii.comma ∉ ([] : Bytes) := List.not_mem_nil
  refine (reads_find (by decide) _).bind ?_
  refine (reads_parseInt_digits (Decimal.toNat_le_maxInt session) (by decide) _).bind
    ((reads_find none _).bind ?_)
  exact (reads_parseLen_digits fits (by decide) _).bind ((reads_lineEnd rest).bind (Reads.pure _ _))

/-- What stands in a closing line is read up to the line end, and only the code is kept. -/
theorem reads_sessionCode {code : Nat} (fits : code ≤ Decimal.maxInt) :
    Reads (σ := σ)
      (do
        let _ ← parseInt
        find Ascii.comma
        let code ← parseInt
        find Ascii.lf
        return code)
      (code : Int)
      (Decimal.digits session.toNat ++ Ascii.comma ::
        (Decimal.digits code ++ Ascii.cr :: Ascii.lf :: rest)) rest := by
  have none : Ascii.comma ∉ ([] : Bytes) := List.not_mem_nil
  refine (reads_parseInt_digits (Decimal.toNat_le_maxInt session) (by decide) _).bind
    ((reads_find none _).bind ?_)
  exact (reads_parseInt_digits fits (by decide) _).bind ((reads_lineEnd rest).bind (Reads.pure _ _))

end Stream

namespace Engine.Calm

open Ssl

variable {σ : Type} {n : Nat} {d : σ} {X rest further : Bytes} {e : Engine σ} {session : SessionId}

/-- A heading that announces a chunk is read as the announcement of its length. -/
theorem readHeading_data {length : Nat} (fits : length ≤ Decimal.maxInt)
    (h : Calm n d X (letterD :: (Utf8.encode "ATA" ++ Ascii.comma :: (Decimal.digits session.toNat ++
      Ascii.comma :: (Decimal.digits length ++ Ascii.cr :: Ascii.lf :: rest)))) e) :
    ∃ f, readHeading e = .ok (.data length) f ∧ Calm n d X rest f := by
  obtain ⟨f, first, k⟩ := h.onStream (Stream.reads_readWanted (· = letterD) letterD _)
  obtain ⟨g, numbers, m⟩ := k.onStream (Stream.reads_chunkLength fits)
  exact ⟨g, (bind_of_ok first).trans numbers, m⟩

/-- A heading that says that all is well and there is no more is read as the end.  Any other code in
    its place would be reported as an error. -/
theorem readHeading_closing
    (h : Calm n d X (Decimal.digits session.toNat ++ Ascii.comma ::
      (Decimal.digits 0 ++ Ascii.cr :: Ascii.lf :: rest)) e) :
    ∃ f, readHeading e = .ok (.closing 0) f ∧ Calm n d X rest f := by
  -- the first digit is no letter, so it is put back
  obtain ⟨b, bs, digits⟩ := List.exists_cons_of_ne_nil (Decimal.digits_ne_nil session.toNat)
  have other : b ≠ letterD := by
    rintro rfl
    have digit := Decimal.isDigit_of_mem_digits (digits ▸ List.mem_cons_self : letterD ∈ _)
    revert digit
    decide
  have begun := h
  rw [digits, List.cons_append] at begun
  obtain ⟨f, first, k⟩ := begun.onStream (Stream.reads_readWanted (· = letterD) b _)
  rw [if_neg (by simpa using other), ← List.cons_append, ← digits] at k
  obtain ⟨g, code, m⟩ := k.onStream (Stream.reads_sessionCode (Nat.zero_le _))
  have closed : sessionCode f = .ok 0 g := code
  refine ⟨g, (bind_of_ok first).trans ?_, m⟩
  rw [if_neg other]
  exact bind_of_ok closed

/-! ## One chunk -/

/-- Bytes that are there fill the buffer, and what comes behind them is left. -/
theorem fill {bs : Bytes} (h : Calm n d X (bs ++ rest) e) (b : Buffer) :
    ∃ f, Engine.fill bs.length (b, e) = .ok () (b.put bs, f) ∧ Calm n d X rest f := by
  obtain ⟨t, gathered, k⟩ := (Stream.serves_holds e.stream).gather h.holds
  refine ⟨{ e with stream := t }, ?_, h.read k⟩
  simp only [fill_eq, gathered, ↓reduceIte]

/-- As much of a chunk as there is room for goes into the buffer; the rest is excess.  The bytes are
    counted and not looked at, so they may be anything. -/
theorem readChunk {c : Bytes} (h : Calm n d X (c ++ rest) e) (b : Buffer) :
    ∃ f, Ssl.readChunk c.length (b, e) = .ok (c.length - b.room) (b.put (c.take b.room), f) ∧
      Calm n d X rest f := by
  show ∃ f, (if b.room < c.length then _ else _ : BufferM AtError σ Nat) (b, e) = _ ∧ _
  -- the chunk is cut: its head fills the buffer, and the rest of it is skipped
  by_cases large : b.room < c.length
  · have filled : (c.take b.room).length = b.room := by
      rw [List.length_take, Nat.min_eq_left (Nat.le_of_lt large)]
    have dropped : (c.drop b.room).length = c.length - b.room := List.length_drop
    rw [← List.take_append_drop b.room c, List.append_assoc] at h
    obtain ⟨f, fit, k⟩ := h.fill b
    obtain ⟨g, skip, m⟩ := k.onStream (Stream.reads_skip _ _)
    rw [filled] at fit
    rw [dropped] at skip
    refine ⟨g, ?_, m⟩
    rw [if_pos large]
    exact (bind_of_ok fit).trans (bind_of_ok (besideBuffer_of_ok skip _))
  -- all of it goes into the buffer
  · obtain ⟨f, fit, k⟩ := h.fill b
    have fits : c.length ≤ b.room := Nat.le_of_not_lt large
    refine ⟨f, ?_, k⟩
    rw [if_neg large, List.take_of_length_le fits, Nat.sub_eq_zero_of_le fits]
    exact bind_of_ok fit

/-- The wait for the next heading hears the line end behind a chunk and the beginning of the
    heading. -/
theorem nextHeading (h : Calm Window.defaultCapacity d X (crlf ++ (recvTag ++ rest)) e) (between : Between X) :
    ∃ f, e.wait [recvTag] chunkTimeout false true = (.pattern 1, f) ∧
      Calm Window.defaultCapacity d (X ++ (crlf ++ recvTag)) rest f := by
  rw [← List.append_assoc] at h
  exact h.wait between.heard chunkTimeout

/-- Once a heading has begun, what is left of the turn is to read it. -/
theorem nextChunk_of_heading {b : Buffer} {f : Engine σ} {i : Nat}
    (w : e.wait [recvTag] chunkTimeout false true = (.pattern i, f)) :
    nextChunk (b, e) = takeChunk (b, f) := by
  simp only [recvTag] at w
  simp only [nextChunk, w]

theorem takeChunk_data {b : Buffer} {f : Engine σ} {length : Nat} (some : length ≠ 0)
    (heading : readHeading e = .ok (.data length) f) :
    takeChunk (b, e) = (do return Option.some (← Ssl.readChunk length) : BufferM AtError σ _) (b, f) := by
  obtain ⟨k, rfl⟩ := Nat.exists_eq_succ_of_ne_zero some
  exact bind_of_ok (besideBuffer_of_ok heading b)

/-- A turn of the loop that takes a chunk: the buffer gets as much of it as there is room, and the
    rest is counted. -/
theorem nextChunk_data {c : Chunk} (between : Between X)
    (h : Calm Window.defaultCapacity d X (crlf ++ (dataHeading session c.bytes.length ++ (c.bytes ++ rest))) e)
    (b : Buffer) :
    ∃ f, nextChunk (b, e) = .ok (some (c.bytes.length - b.room)) (b.put (c.bytes.take b.room), f) ∧
      Calm Window.defaultCapacity d (X ++ (crlf ++ recvTag)) rest f := by
  rw [dataHeading_append] at h
  obtain ⟨f, w, k⟩ := h.nextHeading between
  obtain ⟨g, heading, m⟩ := k.readHeading_data c.length_le
  obtain ⟨f', taken, l⟩ := m.readChunk b
  have some : c.bytes.length ≠ 0 := fun none => c.ne_nil (List.eq_nil_of_length_eq_zero none)
  refine ⟨f', ?_, l⟩
  rw [nextChunk_of_heading w, takeChunk_data some heading]
  exact bind_of_ok taken

/-- A turn of the loop that comes to the end leaves the buffer as it is.  The two endings are told
    by their headings, one by an empty chunk and the other by a code. -/
theorem nextChunk_ending {ending : Ending} (between : Between X)
    (h : Calm Window.defaultCapacity d X (crlf ++ (ending.text session ++ rest)) e) (b : Buffer) :
    ∃ f, nextChunk (b, e) = .ok none (b, f) ∧
      Calm Window.defaultCapacity d (X ++ (crlf ++ recvTag)) rest f := by
  cases ending with
  | emptyChunk =>
    have text : Ending.text session .emptyChunk = dataHeading session 0 := rfl
    rw [text, dataHeading_append] at h
    obtain ⟨f, w, k⟩ := h.nextHeading between
    obtain ⟨g, heading, m⟩ := k.readHeading_data (Nat.zero_le _)
    refine ⟨g, ?_, m⟩
    rw [nextChunk_of_heading w]
    exact bind_of_ok (besideBuffer_of_ok heading b)
  | closing =>
    rw [closing_append] at h
    obtain ⟨f, w, k⟩ := h.nextHeading between
    obtain ⟨g, heading, m⟩ := k.readHeading_closing
    refine ⟨g, ?_, m⟩
    rw [nextChunk_of_heading w]
    exact bind_of_ok (besideBuffer_of_ok heading b)

/-! ## All chunks -/

/-- The loop goes on behind a chunk, with its excess added. -/
theorem takeChunks_of_some {s t : Buffer × Engine σ} {more : Nat} (r : nextChunk s = .ok (some more) t)
    (excess : Nat) : Ssl.takeChunks excess s = Ssl.takeChunks (excess + more) t := by
  rw [Ssl.takeChunks]
  split <;> rename_i e <;> rw [r] at e <;> cases e
  rfl

theorem takeChunks_of_none {s t : Buffer × Engine σ} (r : nextChunk s = .ok none t) (excess : Nat) :
    Ssl.takeChunks excess s = .ok excess t := by
  rw [Ssl.takeChunks]
  split <;> rename_i e <;> rw [r] at e <;> cases e
  rfl

/-- The buffer gets the beginning of all chunks together, and what they have beyond it is excess.
    By induction on the chunks: a buffer that is full stays so, and only the excess grows. -/
theorem takeChunks {ending : Ending} (chunks : List Chunk) (between : Between X)
    (h : Calm Window.defaultCapacity d X
      (crlf ++ (chunks.flatMap (Chunk.text session) ++ (ending.text session ++ further))) e)
    (b : Buffer) (excess : Nat) :
    ∃ f, Ssl.takeChunks excess (b, e) =
        .ok (excess + ((joined chunks).length - b.room)) (b.put ((joined chunks).take b.room), f) ∧
      f.stream.unread = further := by
  -- on the chunks still to come, with whatever the buffer has before them
  induction chunks generalizing X e b excess with
  | nil =>
    obtain ⟨f, ended, k⟩ := h.nextChunk_ending between b
    refine ⟨f, ?_, k.stream_unread⟩
    have empty : b.put [] = b := by rw [Buffer.put, List.append_nil]
    rw [takeChunks_of_none ended, joined, List.flatMap_nil, List.take_nil, empty, List.length_nil,
      Nat.zero_sub, Nat.add_zero]
  | cons c chunks ih =>
    have text : crlf ++ ((c :: chunks).flatMap (Chunk.text session) ++ (ending.text session ++ further)) =
        crlf ++ (dataHeading session c.bytes.length ++ (c.bytes ++
          (crlf ++ (chunks.flatMap (Chunk.text session) ++ (ending.text session ++ further))))) := by
      simp only [List.flatMap_cons, Chunk.text, List.append_assoc]
    rw [text] at h
    obtain ⟨f, taken, k⟩ := h.nextChunk_data between b
    obtain ⟨g, others, left⟩ := ih (between_recvTag X) k (b.put (c.bytes.take b.room))
      (excess + (c.bytes.length - b.room))
    refine ⟨g, ?_, left⟩
    have all : joined (c :: chunks) = c.bytes ++ joined chunks := List.flatMap_cons
    have room : (b.put (c.bytes.take b.room)).room = b.room - c.bytes.length := by
      rw [Buffer.room_put, List.length_take]
      omega
    rw [takeChunks_of_some taken, others, Buffer.put_take_put_take, ← all, room]
    congr 1
    rw [all, List.length_append]
    omega

/-! ## The command -/

variable [Device σ] {d' : σ}

theorem oneLine_receive (session : SessionId) (size : Nat) : OneLine s!"AT+CCHRECV={session},{size}" :=
  .append (.append (.append (by decide) (.toString session.toNat)) (by decide)) (.toString size)

/-- The command is sent and acknowledged, and what the device sends behind that is there to be read.
    The acknowledgement is waited for, so it is behind the window when the first heading is looked
    for. -/
theorem openReceive {size : Nat} (h : Calm Window.defaultCapacity d X [] e) (lineEnd : LineEnd X)
    (lines : Device.takesRaw d = false)
    (answers : Device.answer d (Utf8.encode s!"AT+CCHRECV={session},{size}") =
      (d', .now (crlf ++ okLine ++ rest))) :
    ∃ f, Ssl.openReceive session size e = .ok () f ∧
      Calm Window.defaultCapacity d' (X ++ (crlf ++ okLine)) rest f := by
  have inLine : ∀ c ∈ candidates [recvTag] true true, Ascii.lf ∉ c.1.dropLast := by decide
  have first : firstReply (reply Window.defaultCapacity (candidates [recvTag] true true)) X
      (crlf ++ okLine) = some (.success, []) := by
    rw [firstReply_of_apart fun c hc _ => lineEnd.apart (inLine c hc)]
    decide
  obtain ⟨f, sent, k⟩ := h.send lines (oneLine_receive session size) answers
  rw [List.nil_append] at k
  obtain ⟨g, w, m⟩ := k.wait first socketTimeout
  exact ⟨g, (bind_of_ok sent).trans (bind_of_ok (await_of_wait w)), m⟩

/-- The verdict is given when all chunks are in: how much came if all of it had room, and else that
    storage ran out.  All chunks are taken before that, and so even a receive that fails has read
    its whole answer. -/
theorem receive_of_chunks {b b' : Buffer} {f g : Engine σ} {excess : Nat}
    (opened : Ssl.openReceive session b.size e = .ok () f)
    (taken : Ssl.takeChunks 0 (b, f) = .ok excess (b', g)) :
    Ssl.receive session (b, e) =
      if excess = 0 then .ok b'.placed.length (b', g)
      else .error (.outOfStorage b.size (b'.placed.length + excess)) (b', g) := by
  have verdict : Ssl.receive session (b, e) = _ :=
    (bind_of_ok (besideBuffer_of_ok opened b)).trans (bind_of_ok taken)
  rw [verdict]
  by_cases none : excess = 0
  · rw [if_pos none]
    exact congrFun (if_pos none) (b', g)
  · rw [if_neg none]
    exact congrFun (if_neg none) (b', g)

end Engine.Calm

namespace Ssl

open Engine

/-- What the device says to a receive: the acknowledgement, the chunks and the ending.  How the
    bytes are spread over the chunks is left open, and the result does not depend on it. -/
def answerText (session : SessionId) (chunks : List Chunk) (ending : Ending) : Bytes :=
  Utf8.encode "\r\nOK\r\n\r\n" ++ (chunks.flatMap (Chunk.text session) ++ ending.text session)

/-- What has been received stands in the caller's storage from the front on; behind it the storage is
    as it was. -/
theorem over_put_ofSize {size : Nat} {bs before : Bytes} (same : before.length = size) :
    ((Buffer.ofSize size).put (bs.take size)).over before = bs.take size ++ before.drop bs.length := by
  show [] ++ bs.take size ++ before.drop ([] ++ bs.take size).length = _
  rw [List.nil_append, List.length_take, ← same]
  congr 1
  rcases Nat.le_total bs.length before.length with le | le
  · rw [Nat.min_eq_right le]
  · rw [Nat.min_eq_left le, List.drop_of_length_le (Nat.le_refl _), List.drop_of_length_le le]

/-- The chunks of an answer come together in the caller's storage, whatever they look like.  If they fit,
    the receive says how many bytes they are; if not, it keeps as many as there is room for and says how
    many there were.  In both cases it has read to the end of the answer and no further. -/
theorem receive_joins_chunks {σ : Type} [Device σ] (session : SessionId) (chunks : List Chunk)
    (ending : Ending) (further : Bytes) (size : Nat) (e : Engine σ)
    (idle : Idle EngineConfig.standard.windowCapacity e)
    (lines : Device.takesRaw e.stream.link.device = false) (d : σ)
    (answers : Device.answer e.stream.link.device (Utf8.encode s!"AT+CCHRECV={session},{size}") =
      (d, .now (answerText session chunks ending ++ further))) :
    ∃ (b : Buffer) (f : Engine σ), f.stream.unread = further ∧
      ((joined chunks).length ≤ size →
        receive session (.ofSize size, e) = .ok (joined chunks).length (b, f) ∧
        ∀ before : Bytes, before.length = size →
          b.over before = joined chunks ++ before.drop (joined chunks).length) ∧
      (size < (joined chunks).length →
        receive session (.ofSize size, e) = .error (.outOfStorage size (joined chunks).length) (b, f) ∧
        ∀ before : Bytes, before.length = size → b.over before = (joined chunks).take size) := by
  obtain ⟨X, lineEnd, calm⟩ := AtRest.ofIdle idle
  have opening : Utf8.encode "\r\nOK\r\n\r\n" = crlf ++ okLine ++ crlf := by decide
  have text : answerText session chunks ending ++ further = crlf ++ okLine ++
      (crlf ++ (chunks.flatMap (Chunk.text session) ++ (ending.text session ++ further))) := by
    rw [answerText, opening]
    simp only [List.append_assoc]
  rw [text] at answers
  obtain ⟨f, opened, k⟩ := calm.openReceive lineEnd lines answers
  have settled : LineEnd (X ++ (crlf ++ okLine)) := .append_lf X (crlf ++ Utf8.encode "OK\r")
  obtain ⟨g, taken, left⟩ := k.takeChunks chunks (between_of_lineEnd settled) (.ofSize size) 0
  have received := Calm.receive_of_chunks (b := .ofSize size) opened taken
  have room : (Buffer.ofSize size).room = size := rfl
  -- the chunks are placed one behind the other, from the start of the buffer on
  have placed : ((Buffer.ofSize size).put ((joined chunks).take size)).placed = (joined chunks).take size :=
    List.nil_append _
  rw [Nat.zero_add, room, placed] at received
  refine ⟨(Buffer.ofSize size).put ((joined chunks).take size), g, left,
    fun fits => ⟨?_, fun before same => ?_⟩, fun large => ⟨?_, fun before same => ?_⟩⟩
  · rw [if_pos (Nat.sub_eq_zero_of_le fits), List.length_take, Nat.min_eq_right fits] at received
    exact received
  · rw [over_put_ofSize same, List.take_of_length_le fits]
  · have total : ((joined chunks).take size).length + ((joined chunks).length - size) =
        (joined chunks).length := by
      rw [List.length_take]
      omega
    rw [if_neg (Nat.sub_ne_zero_of_lt large), total] at received
    exact received
  · rw [over_put_ofSize same, List.drop_of_length_le (same ▸ Nat.le_of_lt large), List.append_nil]

/-- One chunk looks like a terminator and fits, one looks like an ending and straddles the end of the
    storage, and one comes when it is full. -/
theorem receive_joins_chunks_beyond_storage :
    let session : SessionId := 255
    let size := 12
    let chunks : List Chunk := [
      ⟨Utf8.encode "\r\nERROR\r\n", by decide, by decide⟩,
      ⟨Utf8.encode "+CCHRECV: 255,0\r\n", by decide, by decide⟩,
      ⟨Utf8.encode "D", by decide, by decide⟩]
    let further := Utf8.encode "\r\n+CCH_PEER_CLOSED: 255\r\n"
    let line := s!"AT+CCHRECV={session},{size}"
    let reply := Reply.now (answerText session chunks .closing ++ further)
    let e := facing .standard line reply
    Idle EngineConfig.standard.windowCapacity e ∧ Device.takesRaw e.stream.link.device = false ∧
      Device.answer e.stream.link.device (Utf8.encode line) = (e.stream.link.device, reply) ∧
      ∃ (b : Buffer) (f : Engine Script), f.stream.unread = further ∧
        receive session (.ofSize size, e) = .error (.outOfStorage 12 27) (b, f) ∧
        ∀ before : Bytes, before.length = size → b.over before = Utf8.encode "\r\nERROR\r\n+CC" := by
  intro session size chunks further line reply e
  have idle : Idle EngineConfig.standard.windowCapacity e := (AtRest.ofLink .standard _).idle
  have answers : Device.answer e.stream.link.device (Utf8.encode line) = (e.stream.link.device, reply) :=
    answer_answering line reply
  obtain ⟨b, f, left, -, large⟩ :=
    receive_joins_chunks session chunks .closing further size e idle rfl _ answers
  obtain ⟨received, kept⟩ := large (by decide)
  exact ⟨idle, rfl, answers, b, f, left, received, kept⟩

end Ssl
end AtModem
