/-
  Reports as the device writes them, and what their handlers make of them.

  A report begins with its announcement; an MQTT message is set off from what stands before it by a line
  end of its own.  Behind the announcement a message gives its client and the lengths of its topic and
  its payload in decimal, and then both as raw blocks, each under a heading line; a sentence goes on to
  the end of its line.

  A handler takes up the stream right behind the announcement.  If the whole report is there, it reads
  just that, to the last byte and no further, and delivers what was reported, whatever bytes topic and
  payload consist of: they are counted and not looked at.
-/
import AtModem.Gnss.Feed
import AtModem.Proofs.Buffered
import Mathlib.Data.List.Infix

namespace AtModem

/-! ## Numbers in decimal -/

namespace Decimal

/-- The digits of a number, without leading zeros. -/
def digits (n : Nat) : Bytes :=
  if n < 10 then [0x30 + n.toUInt8] else digits (n / 10) ++ [0x30 + (n % 10).toUInt8]

example : digits 120 = Utf8.encode "120" := by cbv

/-- A number below ten is one digit, which is worth that number. -/
theorem digit_of_lt {n : Nat} (h : n < 10) :
    isDigit (0x30 + n.toUInt8) = true ∧ digit (0x30 + n.toUInt8) = n := by
  have all : ∀ n : Fin 10,
      isDigit (0x30 + n.val.toUInt8) = true ∧ digit (0x30 + n.val.toUInt8) = n.val := by
    decide
  exact all ⟨n, h⟩

theorem digits_ne_nil (n : Nat) : digits n ≠ [] := by
  unfold digits
  split <;> simp

theorem isDigit_of_mem_digits {n : Nat} {d : UInt8} (h : d ∈ digits n) : isDigit d = true := by
  fun_induction digits n with
  | case1 n lt =>
    rw [List.mem_singleton.mp h]
    exact (digit_of_lt lt).1
  | case2 n _ ih =>
    rcases List.mem_append.mp h with h | h
    · exact ih h
    · rw [List.mem_singleton.mp h]
      exact (digit_of_lt (Nat.mod_lt n (by omega))).1

theorem not_mem_digits {b : UInt8} (other : isDigit b = false) (n : Nat) : b ∉ digits n := by
  intro m
  rw [isDigit_of_mem_digits m] at other
  cases other

theorem value_digits (n : Nat) : value (digits n) = n := by
  fun_induction digits n with
  | case1 n lt =>
    show 0 * 10 + digit _ = n
    rw [(digit_of_lt lt).2, Nat.zero_mul, Nat.zero_add]
  | case2 n _ ih =>
    show extend 0 _ = n
    rw [extend_append, show extend 0 (digits (n / 10)) = n / 10 from ih]
    show n / 10 * 10 + digit _ = n
    rw [(digit_of_lt (Nat.mod_lt n (by omega))).2]
    omega

end Decimal

/-! ## The text of reports -/

/-- The end of a line. -/
def crlf : Bytes := [Ascii.cr, Ascii.lf]

/-- A report of the device: a message that was received, or a sentence of the receiver. -/
inductive Report where
  /-- A message for a client, with its topic and its payload; the lengths have to be 64-bit numbers. -/
  | message (client : Nat) (topic payload : Bytes) (client_le : client ≤ Decimal.maxInt)
      (topic_le : topic.length ≤ Decimal.maxInt) (payload_le : payload.length ≤ Decimal.maxInt)
  /-- A sentence of one of the talkers; it is one line. -/
  | sentence (talker : String) (body : Bytes) (known : talker ∈ Gnss.talkers) (line : Ascii.cr ∉ body)

namespace Report

/-- What sets a report off from what stands before it. -/
def opening : Report → Bytes
  | message .. => crlf
  | sentence .. => []

/-- What wakes the handler of the report. -/
def announcement : Report → Bytes
  | message .. => Utf8.encode Mqtt.Message.announcement
  | sentence talker .. => Utf8.encode talker

/-- One raw block under its heading line, which gives the client and the length; the bytes
    themselves are not delimited.  Where the block ends is known from the length alone, and so its
    bytes may look like anything. -/
def block (heading : String) (client : Nat) (data : Bytes) : Bytes :=
  crlf ++ Utf8.encode heading ++
    (Decimal.digits client ++ Ascii.comma :: Decimal.digits data.length ++ crlf ++ data)

/-- What stands behind the announcement, and so past the window.  Nothing of it goes through the
    window of a wait, as the handler reads it to its end. -/
def body : Report → Bytes
  | message client topic payload .. =>
    Decimal.digits client ++ Ascii.comma :: (Decimal.digits topic.length ++
      Ascii.comma :: (Decimal.digits payload.length ++ (block "+CMQTTRXTOPIC: " client topic ++
        (block "+CMQTTRXPAYLOAD: " client payload ++
          (crlf ++ Utf8.encode "+CMQTTRXEND: " ++ (Decimal.digits client ++ crlf))))))
  | sentence _ body .. => body ++ crlf

/-- The report as the device writes it. -/
def bytes (r : Report) : Bytes := r.opening ++ r.announcement ++ r.body

/-! ## What handlers make of them -/

/-- The handler of a report, where messages go to one inbox and sentences to one for each talker. -/
def handler (messages : Nat) (sentences : String → Nat) : Report → Handler
  | message .. => .message messages
  | sentence talker .. => .sentence talker (sentences talker)

/-- What its handler delivers: the message with its fields clipped to their capacity, or the
    sentence as text, clipped to its room. -/
def delivery (messages : Nat) (sentences : String → Nat) : Report → Delivery
  | message client topic payload .. =>
    .message messages
      { client := Mqtt.Message.clientOf client
        topic := .ofBytes Mqtt.topicCapacity topic
        payload := .ofBytes Mqtt.payloadCapacity payload }
  | sentence talker body .. =>
    .sentence (sentences talker)
      ⟨talker ++ Utf8.decode (body.take (Gnss.Sentence.roomAfter talker))⟩

end Report

namespace Stream

variable {σ : Type}

/-- There is no line feed in the digits of a number. -/
theorem lf_not_mem_digits (n : Nat) : Ascii.lf ∉ Decimal.digits n :=
  Decimal.not_mem_digits (by decide) n

theorem reads_lineEnd (rest : Bytes) :
    Reads (find (σ := σ) Ascii.lf) () (Ascii.cr :: Ascii.lf :: rest) rest := by
  show Reads _ _ ([Ascii.cr] ++ Ascii.lf :: rest) rest
  exact reads_find (by decide) rest

/-- A length in decimal is read as itself, up to the byte that ends it. -/
theorem reads_parseLen_digits {n : Nat} (fits : n ≤ Decimal.maxInt) {c : UInt8}
    (stop : Decimal.isDigit c = false) (after : Bytes) :
    Reads (parseLen (σ := σ)) n (Decimal.digits n ++ c :: after) (c :: after) := by
  have h := reads_parseLen (σ := σ) (Decimal.digits_ne_nil n)
    (fun _ => Decimal.isDigit_of_mem_digits) (by rwa [Decimal.value_digits]) stop after
  rwa [Decimal.value_digits] at h

theorem reads_parseInt_digits {n : Nat} (fits : n ≤ Decimal.maxInt) {c : UInt8}
    (stop : Decimal.isDigit c = false) (after : Bytes) :
    Reads (parseInt (σ := σ)) (n : Int) (Decimal.digits n ++ c :: after) (c :: after) := by
  have h := reads_parseInt (σ := σ) (Decimal.digits_ne_nil n)
    (fun _ => Decimal.isDigit_of_mem_digits) (by rwa [Decimal.value_digits]) stop after
  rwa [Decimal.value_digits] at h

/-- A heading is found where it stands, and the line end before it does not delay that. -/
theorem reads_heading {heading : String}
    (first : ∀ q ∈ (crlf ++ Utf8.encode heading).inits, Utf8.encode heading <:+ q →
      q = crlf ++ Utf8.encode heading) (some : Utf8.encode heading ≠ []) (timeout : Nat)
    (after : Bytes) :
    Reads (waitFor (σ := σ) heading timeout) () (crlf ++ Utf8.encode heading ++ after) after :=
  reads_waitFor some (fun q hq => first q ((List.mem_inits q _).mpr hq)) timeout after

/-- A block is read past its heading line, and as many bytes as were announced, whatever they are.
    The first hypothesis says that the heading cannot be found before its own place, whatever stands
    in the line end before it. -/
theorem reads_block {heading : String}
    (first : ∀ q ∈ (crlf ++ Utf8.encode heading).inits, Utf8.encode heading <:+ q →
      q = crlf ++ Utf8.encode heading) (some : Utf8.encode heading ≠ []) (client : Nat) (data : Bytes)
    (timeout capacity : Nat) (after : Bytes) :
    Reads (Mqtt.Message.readBlock (σ := σ) heading timeout capacity data.length)
      (.ofBytes capacity data) (Report.block heading client data ++ after) after := by
  let line := Decimal.digits client ++ Ascii.comma :: Decimal.digits data.length ++ [Ascii.cr]
  have inLine : Ascii.lf ∉ line := by
    simp only [line, List.mem_append, List.mem_cons, List.not_mem_nil, lf_not_mem_digits, false_or,
      or_false]
    decide
  have text : Report.block heading client data ++ after =
      crlf ++ Utf8.encode heading ++ (line ++ Ascii.lf :: (data ++ after)) := by
    simp [Report.block, line, crlf]
  rw [text]
  exact (reads_heading first some timeout _).bind
    ((reads_find inLine _).bind (reads_readField capacity data after))

/-- A message is read to the end of its closing line, and its fields are those of its topic and
    payload.  Its parts are read by length, and so neither of them can end the other early. -/
theorem reads_message {client : Nat} {topic payload : Bytes} (client_le : client ≤ Decimal.maxInt)
    (topic_le : topic.length ≤ Decimal.maxInt) (payload_le : payload.length ≤ Decimal.maxInt)
    (after : Bytes) :
    Reads (Mqtt.Message.read (σ := σ))
      { client := Mqtt.Message.clientOf client
        topic := .ofBytes Mqtt.topicCapacity topic
        payload := .ofBytes Mqtt.payloadCapacity payload }
      ((Report.message client topic payload client_le topic_le payload_le).body ++ after) after := by
  have comma : Decimal.isDigit Ascii.comma = false := by decide
  have cr : Decimal.isDigit Ascii.cr = false := by decide
  -- what is left to read when the lengths are known, from the carriage return behind them on
  let closing := crlf ++ Utf8.encode "+CMQTTRXEND: " ++ (Decimal.digits client ++ crlf)
  let blocks := Report.block "+CMQTTRXTOPIC: " client topic ++
    (Report.block "+CMQTTRXPAYLOAD: " client payload ++ (closing ++ after))
  obtain ⟨rest, opens⟩ : ∃ rest, blocks = Ascii.cr :: rest := ⟨_, rfl⟩
  have text : (Report.message client topic payload client_le topic_le payload_le).body ++ after =
      Decimal.digits client ++ Ascii.comma :: (Decimal.digits topic.length ++
        Ascii.comma :: (Decimal.digits payload.length ++ Ascii.cr :: rest)) := by
    rw [← opens]
    simp [Report.body, blocks, closing]
  have none : Ascii.comma ∉ ([] : Bytes) := List.not_mem_nil
  rw [text]
  -- the first line: each number is followed by a byte that is no digit
  refine (reads_parseInt_digits client_le comma _).bind ((reads_find none _).bind ?_)
  refine (reads_parseLen_digits topic_le comma _).bind ((reads_find none _).bind ?_)
  refine (reads_parseLen_digits payload_le cr _).bind (Reads.get fun s => ?_)
  rw [← opens]
  -- the two blocks and the closing line
  refine (reads_block (by decide) (by decide) client topic _ _ _).bind ?_
  refine (reads_block (by decide) (by decide) client payload _ _ _).bind ?_
  have inLine : Ascii.lf ∉ Decimal.digits client ++ [Ascii.cr] := by
    simp only [List.mem_append, List.mem_cons, List.not_mem_nil, lf_not_mem_digits, false_or, or_false]
    decide
  have last : closing ++ after = crlf ++ Utf8.encode "+CMQTTRXEND: " ++
      ((Decimal.digits client ++ [Ascii.cr]) ++ Ascii.lf :: after) := by
    simp [closing, crlf]
  rw [last]
  exact (reads_heading (by decide) (by decide) _ _).bind
    ((reads_find inLine after).bind (Reads.pure _ _))

/-- A handler reads its report to the end and no further, and delivers what it says.  It is the only
    fact on handlers that the proofs about waits use. -/
theorem reads_process (messages : Nat) (sentences : String → Nat) (r : Report) (after : Bytes) :
    Reads ((r.handler messages sentences).process (σ := σ)) (r.delivery messages sentences)
      (r.body ++ after) after := by
  cases r with
  | message client topic payload client_le topic_le payload_le =>
    show Reads (Handler.message messages).process _ _ _
    rw [Handler.process_message]
    exact (reads_message client_le topic_le payload_le after).bind (Reads.pure _ _)
  | sentence talker body known line =>
    have text : Reads (readLine (σ := σ) (Gnss.Sentence.roomAfter talker)) _ _ after :=
      (reads_readLineBytes _ line after).bind (Reads.pure _ _)
    have sentence : Reads (Gnss.Sentence.read (σ := σ) talker) _ _ after :=
      text.bind (Reads.pure _ _)
    show Reads (Handler.sentence talker (sentences talker)).process _ _ _
    rw [Handler.process_sentence]
    exact sentence.bind (Reads.pure _ _)

end Stream
end AtModem
