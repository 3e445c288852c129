/-
  Looking up whether a client is connected.

  The listing of the connections has a line for each client, with its index and its state.  What is looked
  for is the line up to the comma behind the index.  A line has just one plus sign, so this can be found at
  its beginning only, and the comma ends the index, so it is found in no line of another client, be the
  digits of one those with which the other begins (`not_tag_of_ne`).  The state is then the next number, up
  to the end of its line, and what is behind it is cleared away.

  A listing without the client is gone through to its end.  Either way that is where the reading stops, and
  what has come behind the listing is left.
-/
import AtModem.Link.Script
import AtModem.Mqtt.Commands
import AtModem.Proofs.Exchange.Services
import AtModem.Proofs.Linewise
import AtModem.Proofs.Verbatim

namespace AtModem

namespace Decimal

/-- Numbers with the same digits are the same number, since their value can be read off. -/
theorem digits_injective : Function.Injective digits := by
  intro m n same
  rw [← value_digits m, same, value_digits]

/-- A number ends with a digit, so nothing that ends otherwise can stop inside of one. -/
theorem exists_digits_concat (n : Nat) : ∃ front d, digits n = front ++ [d] ∧ isDigit d = true := by
  rcases List.eq_nil_or_concat (digits n) with none | ⟨front, d, last⟩
  · exact absurd none (digits_ne_nil n)
  · rw [List.concat_eq_append] at last
    exact ⟨front, d, last, isDigit_of_mem_digits (by rw [last]; simp)⟩

theorem length_digits_le_succ {n k : Nat} (h : n < 10 ∨ (digits (n / 10)).length ≤ k) :
    (digits n).length ≤ k + 1 := by
  rw [digits]
  split
  · exact Nat.le_add_left 1 k
  · rename_i more
    rw [List.length_append]
    exact Nat.add_le_add_right (h.resolve_left more) 1

/-- A number below a thousand has at most three digits. -/
theorem length_digits_le_three {n : Nat} (h : n < 1000) : (digits n).length ≤ 3 := by
  have first : (digits (n / 10 / 10)).length ≤ 1 := length_digits_le_succ (k := 0) (.inl (by omega))
  exact length_digits_le_succ (.inr (length_digits_le_succ (.inr first)))

end Decimal

namespace Mqtt

open Engine

/-- An entry of the listing: a client, and the state of its connection.  Any listing is a list of
    these, with clients in any order and as often as the device likes. -/
structure Entry where
  index : ClientIndex
  state : Nat

/-- The line of a client up to its state, which is what is looked for.  The comma behind the index
    is part of it. -/
def stateTag (client : ClientIndex) : Bytes := Utf8.encode s!"+CMQTTDISC: {client},"

namespace Entry

/-- An entry as it is listed, with the line end before it. -/
def text (entry : Entry) : Bytes := Utf8.encode s!"\r\n+CMQTTDISC: {entry.index},{entry.state}"

/-- Its line, without the ends. -/
def line (entry : Entry) : Bytes := stateTag entry.index ++ Decimal.digits entry.state

end Entry

/-- The byte of a plus sign, of which a line has just one. -/
def plus : UInt8 := 0x2B

/-- What is looked for, byte by byte: a plus sign and what stands behind it. -/
theorem stateTag_eq (client : ClientIndex) :
    stateTag client =
      plus :: (Utf8.encode "CMQTTDISC: " ++ (Decimal.digits client.toNat ++ [Ascii.comma])) := by
  have text : s!"+CMQTTDISC: {client}," = "+CMQTTDISC: " ++ toString client.toNat ++ "," := rfl
  have head : Utf8.encode "+CMQTTDISC: " = plus :: Utf8.encode "CMQTTDISC: " := by decide
  have comma : Utf8.encode "," = [Ascii.comma] := by decide
  rw [stateTag, text, Utf8.encode_append, Utf8.encode_append, head, comma, Decimal.encode_toString]
  simp

/-- It fits any window that is not very small, whatever the client. -/
theorem length_stateTag_le (client : ClientIndex) : (stateTag client).length ≤ 16 := by
  have head : (Utf8.encode "CMQTTDISC: ").length = 11 := by decide
  have index : (Decimal.digits client.toNat).length ≤ 3 := by
    have small := client.toNat_lt
    exact Decimal.length_digits_le_three (by omega)
  rw [stateTag_eq]
  simp only [List.length_cons, List.length_append, List.length_nil, head]
  omega

namespace Entry

theorem line_eq (entry : Entry) :
    entry.line = plus :: (Utf8.encode "CMQTTDISC: " ++
      (Decimal.digits entry.index.toNat ++ Ascii.comma :: Decimal.digits entry.state)) := by
  rw [line, stateTag_eq]
  simp only [List.cons_append, List.append_assoc, List.nil_append]

/-- An entry is the end of the line before it and its own line. -/
theorem text_eq (entry : Entry) : entry.text = crlf ++ entry.line := by
  have parts : s!"\r\n+CMQTTDISC: {entry.index},{entry.state}" =
      "\r\n+CMQTTDISC: " ++ toString entry.index.toNat ++ "," ++ toString entry.state := rfl
  have head : Utf8.encode "\r\n+CMQTTDISC: " = crlf ++ plus :: Utf8.encode "CMQTTDISC: " := by decide
  have comma : Utf8.encode "," = [Ascii.comma] := by decide
  rw [text, parts, line_eq]
  simp only [Utf8.encode_append, head, comma, Decimal.encode_toString, List.append_assoc,
    List.cons_append, List.nil_append]

theorem lf_not_mem_line (entry : Entry) : Ascii.lf ∉ entry.line := by
  have index := Decimal.not_mem_digits (b := Ascii.lf) (by decide) entry.index.toNat
  have state := Decimal.not_mem_digits (b := Ascii.lf) (by decide) entry.state
  have head : Ascii.lf ∉ Utf8.encode "CMQTTDISC: " := by decide
  have others : Ascii.lf ≠ plus ∧ Ascii.lf ≠ Ascii.comma := by decide
  simp [line_eq, index, state, head, others]

theorem plainLine (entry : Entry) : PlainLine entry.line := by
  obtain ⟨front, d, last, digit⟩ := Decimal.exists_digits_concat entry.state
  refine ⟨lf_not_mem_line entry, stateTag entry.index ++ front, d, ?_, ?_⟩
  · rw [line, last, List.append_assoc]
  · have none : ∀ c ∈ terminators, c.1.dropLast.any Decimal.isDigit = false := by decide
    intro c hc m
    exact List.any_eq_false.mp (none c hc) d m digit

/-- What is looked for is not in the line of another client: it could only stand at the beginning,
    and there the indices differ at the comma at the latest. -/
theorem not_stateTag_of_ne {entry : Entry} {client : ClientIndex} (ne : entry.index ≠ client) {q : Bytes}
    (before : q <+: entry.line ++ crlf) : ¬stateTag client <:+ q := by
  intro found
  let body := Utf8.encode "CMQTTDISC: " ++
    (Decimal.digits entry.index.toNat ++ Ascii.comma :: Decimal.digits entry.state)
  have once : plus ∉ body ++ crlf := by
    have index := Decimal.not_mem_digits (b := plus) (by decide) entry.index.toNat
    have state := Decimal.not_mem_digits (b := plus) (by decide) entry.state
    have head : plus ∉ Utf8.encode "CMQTTDISC: " := by decide
    have comma : plus ≠ Ascii.comma := by decide
    have ends : plus ∉ crlf := by decide
    simp [body, index, state, head, comma, ends]
  rw [line_eq, List.cons_append] at before
  rw [stateTag_eq] at found
  -- so it is there at the beginning, and the index with it, up to the comma
  obtain ⟨rest, e⟩ := eq_of_suffix_of_prefix once before found ▸ before
  have index : Decimal.digits client.toNat ++ Ascii.comma :: rest =
      Decimal.digits entry.index.toNat ++ Ascii.comma :: (Decimal.digits entry.state ++ crlf) := by
    simp only [List.cons_append, List.append_assoc, List.nil_append, List.cons.injEq, true_and] at e
    exact List.append_cancel_left e
  have same := congrArg (List.takeWhile (· ≠ Ascii.comma)) index
  have plain := Decimal.not_mem_digits (b := Ascii.comma) (by decide)
  rw [takeWhile_ne_append (plain _), takeWhile_ne_append (plain _)] at same
  exact ne (UInt8.toNat_inj.mp (Decimal.digits_injective same)).symm

end Entry

/-! ## Looking for a client -/

section

variable {n : Nat} {X : Bytes} {client : ClientIndex} {entries : List Entry}

/-- What a wait for a client looks for: its own line, or the end of the listing. -/
abbrev soughtState (client : ClientIndex) : List (Bytes × MatchOutcome) :=
  candidates [stateTag client] true true

/-- All that is looked for stands on one line, so a listing can be gone through line by line. -/
theorem linewise_soughtState (room : 7 ≤ n) (client : ClientIndex) : Linewise n (soughtState client) := by
  have mem : plus ∈ stateTag client := by
    rw [stateTag_eq]
    exact List.mem_cons_self
  have inLine : Ascii.lf ∉ (stateTag client).dropLast := fun m =>
    (Entry.mk client 0).lf_not_mem_line (List.mem_append_left _ (List.mem_of_mem_dropLast m))
  exact linewise_one room mem (by decide) inLine

/-- In a line of its own a client is found at the comma behind its index, and not before. -/
theorem firstReply_stateTag (room : 16 ≤ n) (entry : Entry) :
    firstReply (reply n (soughtState entry.index)) [] (stateTag entry.index) = some (.pattern 1, []) := by
  have more : stateTag entry.index ≠ [] := by simp [stateTag_eq]
  have fits := Nat.le_trans (length_stateTag_le entry.index) room
  refine entry.plainLine.firstReply_one more fits (List.suffix_refl _) fun q hq part found => part ?_
  exact hq.eq_of_length (Nat.le_antisymm hq.length_le found.length_le)

/-- A client that no entry is about is looked for in vain, to the end of the listing. -/
theorem firstReply_unlisted (room : 7 ≤ n) (none : ∀ entry ∈ entries, entry.index ≠ client)
    (apart : ∀ c ∈ soughtState client, Apart c.1 X) :
    firstReply (reply n (soughtState client)) X (crlf ++ linesOf Entry.line entries ++ (crlf ++ okLine)) =
      some (.success, []) :=
  (linewise_soughtState room client).finish (fun entry he =>
    entry.plainLine.silent_one fun _ hq _ => Entry.not_stateTag_of_ne (none entry he) hq) apart

/-- The first entry about a client is reached through those about others, which are passed over
    whatever their states are. -/
theorem firstReply_listed (room : 16 ≤ n) (entry : Entry)
    (others : ∀ other ∈ entries, other.index ≠ entry.index)
    (apart : ∀ c ∈ soughtState entry.index, Apart c.1 X) :
    firstReply (reply n (soughtState entry.index)) X
        (crlf ++ linesOf Entry.line entries ++ stateTag entry.index) = some (.pattern 1, []) :=
  (linewise_soughtState (by omega) entry.index).reach (fun other ho =>
    other.plainLine.silent_one fun _ hq _ => Entry.not_stateTag_of_ne (others other ho) hq) apart
    (firstReply_stateTag room entry)

/-- What is behind the state is left, up to the terminator, and is then cleared away. -/
theorem firstReply_rest (room : 7 ≤ n) (X : Bytes) (entries : List Entry) (client : ClientIndex) :
    firstReply (reply n terminators) (X ++ stateTag client)
        (crlf ++ linesOf Entry.line entries ++ (crlf ++ okLine)) = some (.success, []) := by
  refine (linewise_terminators room).finish (fun entry _ => entry.plainLine.silent) ?_
  have ends : stateTag client =
      plus :: (Utf8.encode "CMQTTDISC: " ++ Decimal.digits client.toNat) ++ [Ascii.comma] := by
    rw [stateTag_eq, List.cons_append, List.append_assoc]
  -- the comma is no part of what a terminator begins with
  rw [ends, ← List.append_assoc]
  exact Settled.concat (by decide) _

end

/-! ## The exchange -/

variable {σ : Type} {e f : Engine σ} {client : ClientIndex} {entries : List Entry} {behind : Bytes}

/-- What is made of the listing, once it has been asked for: a wait for the client, and its state if
    it was found.  It is what the lookup does behind its command, and the theorem about listings is
    proved for it. -/
def searchStates (client : ClientIndex) : EngineM σ Bool := do
  match ← await [stateTag client] commandTimeout true true with
  | .pattern _ =>
    let timeout ← plainTimeout
    return (← parseIntClear timeout) == 0
  | .timedOut => throw .timedOut
  | _ => return false

/-- An engine without handlers is not disturbed by anything that could come. -/
theorem undisturbed_of_silent (silent : e.registry.handlers = []) (bs : Bytes) : e.Undisturbed bs := by
  intro q _ _ h mem
  rw [silent] at mem
  cases mem

/-- The listing is taken to its end, and the first entry about the client says how it is.  That
    entry parts the listing: the entries before it are passed by the wait, and those behind it by
    the wait for the end. -/
theorem searchStates_of_holds (client : ClientIndex) (silent : e.registry.handlers = []) (room : 16 ≤ e.window.capacity)
    (lineEnd : LineEnd e.window.bytes) (states : ∀ entry ∈ entries, entry.state ≤ Decimal.maxInt)
    (holds : Stream.Holds e.stream
      (crlf ++ linesOf Entry.line entries ++ (crlf ++ okLine) ++ behind) e.stream) :
    ∃ g, searchStates client e =
        .ok ((entries.find? fun entry => entry.index == client).any fun entry => entry.state == 0) g ∧
      g.stream.unread = behind := by
  have quiet := undisturbed_of_silent silent
  have apart : ∀ c ∈ soughtState client, Apart c.1 (e.window.bytes ++ []) := by
    rw [List.append_nil]
    exact fun c hc => lineEnd.apart ((linewise_soughtState (Nat.le_refl 7) client).inLine c hc)
  cases found : entries.find? fun entry => entry.index == client with
  | none =>
    -- nobody of that name is listed, and the wait hears the listing to its end
    have others : ∀ entry ∈ entries, entry.index ≠ client := by
      simpa using List.find?_eq_none.mp found
    obtain ⟨g, waited, h⟩ := (Heard.ofHolds holds).await (quiet _)
      (firstReply_unlisted (by omega) others apart) commandTimeout
    exact ⟨g, bind_of_ok waited, h.stream.unread⟩
  | some entry =>
    -- the first entry of that name; those before it are passed
    obtain ⟨same, before, after, rfl, first⟩ := List.find?_eq_some_iff_append.mp found
    obtain rfl : entry.index = client := by simpa using same
    have others : ∀ other ∈ before, other.index ≠ entry.index := by simpa using first
    have parts : crlf ++ linesOf Entry.line (before ++ entry :: after) ++ (crlf ++ okLine) ++ behind =
        (crlf ++ linesOf Entry.line before ++ stateTag entry.index) ++
          (Decimal.digits entry.state ++ Ascii.cr :: Ascii.lf ::
            (linesOf Entry.line after ++ (crlf ++ okLine) ++ behind)) := by
      simp [Entry.line, crlf]
    rw [parts] at holds
    -- the wait ends behind the tag, the state is read, and the rest of the listing is cleared away
    obtain ⟨f₁, waited, h₁⟩ := (Heard.ofHolds holds).await (quiet _)
      (firstReply_listed room entry others apart) commandTimeout
    obtain ⟨f₂, number, h₂⟩ := h₁.onStream (Stream.reads_parseInt_digits
      (states entry (by simp)) (by decide) _)
    have rest : Ascii.cr :: Ascii.lf :: (linesOf Entry.line after ++ (crlf ++ okLine) ++ behind) =
        (crlf ++ linesOf Entry.line after ++ (crlf ++ okLine)) ++ behind := by
      simp [crlf]
    rw [rest] at h₂
    have toEnd : firstReply (reply e.window.capacity terminators) (e.window.bytes ++
        ([] ++ (crlf ++ linesOf Entry.line before ++ stateTag entry.index)))
        (crlf ++ linesOf Entry.line after ++ (crlf ++ okLine)) = some (.success, []) := by
      rw [List.nil_append, ← List.append_assoc]
      exact firstReply_rest (by omega) _ after entry.index
    obtain ⟨g, cleared, h⟩ := h₂.await (quiet _) toEnd f₁.defaultTimeout
    have rested : Engine.clear f₁.defaultTimeout f₂ = .ok () g := bind_of_ok cleared
    have parsed : parseIntClear f₁.defaultTimeout f₁ = .ok (entry.state : Int) g :=
      (bind_of_ok number).trans (bind_of_ok rested)
    have asked : plainTimeout f₁ = .ok f₁.defaultTimeout f₁ := rfl
    have state : ((entry.state : Int) == 0) = (entry.state == 0) := by
      rw [Bool.eq_iff_iff, beq_iff_eq, beq_iff_eq]
      omega
    refine ⟨g, ?_, h.stream.unread⟩
    refine (bind_of_ok waited).trans ((bind_of_ok asked).trans ((bind_of_ok parsed).trans ?_))
    rw [state]
    rfl

/-- An engine of the standard measures is asked whether a client is connected; the device lists any
    number of clients with any states, and all of it has come, with whatever comes behind it.  The client
    is said to be connected if the first entry about it has the state zero, and not if there is none.  The
    listing is consumed to its end, and nothing behind it is. -/
theorem isConnected_by_first_entry [Device σ] (e f : Engine σ) (client : ClientIndex)
    (entries : List Entry) (behind : Bytes) (silent : e.registry.handlers = [])
    (capacity : e.window.capacity = EngineConfig.standard.windowCapacity)
    (lineEnd : LineEnd e.window.bytes) (states : ∀ entry ∈ entries, entry.state ≤ Decimal.maxInt)
    (sent : send "AT+CMQTTDISC?" e = .ok () f) (arrived : f.stream.link.scheduled.arrivals = [])
    (listed : f.stream.unread =
      entries.flatMap Entry.text ++ Utf8.encode "\r\n\r\nOK\r\n" ++ behind) :
    ∃ g, isConnected client e =
        .ok ((entries.find? fun entry => entry.index == client).any fun entry => entry.state == 0) g ∧
      g.stream.unread = behind := by
  have same := eq_of_send sent
  have silent' : f.registry.handlers = [] := by rwa [same]
  have lineEnd' : LineEnd f.window.bytes := by rwa [same]
  have room : 16 ≤ f.window.capacity := by
    rw [same, capacity]
    decide
  have holds : Stream.Holds f.stream
      (crlf ++ linesOf Entry.line entries ++ (crlf ++ okLine) ++ behind) f.stream := by
    refine ⟨arrived, ?_, rfl⟩
    rw [← listing_eq_linesOf, ← List.flatMap_congr fun entry _ => entry.text_eq, ← listed,
      Stream.unread, Schedule.bytes, arrived, List.map_nil, List.append_nil]
  obtain ⟨g, searched, rest⟩ := searchStates_of_holds client silent' room lineEnd' states holds
  exact ⟨g, ClientM.ofEngine_of_ok ((bind_of_ok sent).trans searched), rest⟩

/-- Clients whose indices begin or end with the one that is asked for, a second entry about it that says
    otherwise, and a report behind the listing. -/
theorem isConnected_by_first_entry_similar_indices :
    let entries : List Entry := [⟨11, 0⟩, ⟨21, 1⟩, ⟨1, 10⟩, ⟨1, 0⟩, ⟨10, 0⟩]
    let behind := Utf8.encode "\r\n+CMQTTCONNLOST: 1,1\r\n"
    let s : Script := ⟨[], entries.flatMap Entry.text ++ Utf8.encode "\r\n\r\nOK\r\n" ++ behind⟩
    let e : Engine Script := ofLink .standard (.ofDevice s)
    (∀ entry ∈ entries, entry.state ≤ Decimal.maxInt) ∧
      ∃ g, isConnected 1 e = .ok false g ∧ g.stream.unread = behind := by
  intro entries behind s e
  have states : ∀ entry ∈ entries, entry.state ≤ Decimal.maxInt := by decide
  have answers : Device.answer s (Utf8.encode "AT+CMQTTDISC?") =
      (s, .now (entries.flatMap Entry.text ++ Utf8.encode "\r\n\r\nOK\r\n" ++ behind)) := rfl
  obtain ⟨f, sent, k⟩ := (Calm.ofLink .standard s).send rfl (by decide) answers
  obtain ⟨g, asked, rest⟩ := isConnected_by_first_entry e f 1 entries behind rfl rfl (.inl rfl)
    states sent k.scheduled k.stream_unread
  exact ⟨states, g, asked, rest⟩

end Mqtt
end AtModem
