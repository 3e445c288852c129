/-
  Looking for a name in the listing of the store.

  The listing has a line for each name, with the name between quotes, and what is looked for is a name
  between quotes.  A line has just two quotes, so it can be found only in the line of its own name, however
  similar the others are (`not_sought_of_ne`), and there at the closing quote (`firstReply_line`).  So a
  wait passes the lines of other names and finds its own, unless the window cannot hold it.
-/
import AtModem.Proofs.CertStore
import AtModem.Proofs.Linewise

namespace AtModem

/-! ## Quotes -/

/-- The byte of a quote, which the argument about lines turns on. -/
def quote : UInt8 := 0x22

/-- A name between quotes is its bytes between two such bytes. -/
theorem encode_inQuotes (s : String) :
    Utf8.encode (inQuotes s) = quote :: (Utf8.encode s ++ [quote]) := by
  have q : Utf8.encode "\"" = [quote] := by decide
  rw [inQuotes, Utf8.encode_append, Utf8.encode_append, q]
  rfl

/-- A text that can be quoted has no quote among its bytes. -/
theorem quote_not_mem_of_quotable {s : String} (h : quotable s = true) : quote ∉ Utf8.encode s := by
  intro m
  have char := (Utf8.mem_encode_iff (by decide) s).mp m
  exact (quotable_iff.mp h _ char).1 rfl

/-- Where there are just two quotes, what is found between quotes is what stands between them.  A
    name that is a part of another, or has it as a part, is so not mistaken for it. -/
theorem eq_of_quoted_infix {s before name behind : Bytes} (hs : quote ∉ s) (before_plain : quote ∉ before)
    (name_plain : quote ∉ name) (behind_plain : quote ∉ behind)
    (h : quote :: (s ++ [quote]) <:+: before ++ quote :: (name ++ quote :: behind)) : s = name := by
  obtain ⟨front, back, e⟩ := h
  rw [List.append_assoc, List.cons_append, List.append_assoc, List.singleton_append] at e
  -- both quotes are accounted for, so there is none in front
  have front_plain : quote ∉ front := by
    have counts := congrArg (List.count quote) e
    simp only [List.count_append, List.count_cons_self, List.count_eq_zero.mpr hs,
      List.count_eq_zero.mpr before_plain, List.count_eq_zero.mpr name_plain,
      List.count_eq_zero.mpr behind_plain] at counts
    exact List.count_eq_zero.mp (by omega)
  have same := congrArg (List.takeWhile (· ≠ quote)) e
  rw [takeWhile_ne_append front_plain, takeWhile_ne_append before_plain] at same
  rw [same] at e
  have inner := congrArg (List.takeWhile (· ≠ quote)) (List.cons.inj (List.append_cancel_left e)).2
  rwa [takeWhile_ne_append hs, takeWhile_ne_append name_plain] at inner

namespace CertStore

open Engine

/-! ## Lines -/

/-- The line of a name, without its end: the tag, and the name between quotes. -/
def line (name : String) : Bytes := Utf8.encode "+CCERTLIST: " ++ Utf8.encode (inQuotes name)

/-- An entry of the listing begins a new line before its own, as an answer does. -/
theorem entry_eq (name : String) : entry name = crlf ++ line name := by
  have text : "\r\n+CCERTLIST: \"" ++ name ++ "\"" = "\r\n" ++ ("+CCERTLIST: " ++ inQuotes name) := by
    rw [inQuotes, ← String.append_assoc, ← String.append_assoc, ← String.append_assoc]
    rfl
  have e : Utf8.encode "\r\n" = crlf := by decide
  rw [entry, text, Utf8.encode_append, Utf8.encode_append, e]
  rfl

/-- Lines with their ends, in the order of the names. -/
def lines (names : List String) : Bytes := names.flatMap fun name => line name ++ crlf

/-- A listing, taken apart at the ends of its lines: each entry's line end is counted to the line
    before it. -/
theorem entries_eq (names : List String) :
    names.flatMap entry ++ Utf8.encode "\r\n\r\nOK\r\n" = crlf ++ lines names ++ (crlf ++ okLine) := by
  rw [List.flatMap_congr fun name _ => entry_eq name]
  exact listing_eq_linesOf line names

theorem listing_eq (s : CertStore) : s.listing = crlf ++ lines s.names ++ (crlf ++ okLine) :=
  entries_eq s.names

/-- The line of a name that can be listed has no end inside. -/
theorem lf_not_mem_line {name : String} (h : quotable name = true) : Ascii.lf ∉ line name := by
  have head : Ascii.lf ∉ Utf8.encode "+CCERTLIST: " := by decide
  have other : Ascii.lf ≠ quote := by decide
  have name : Ascii.lf ∉ Utf8.encode name := OneLine.of_quotable h
  simp [line, encode_inQuotes, head, other, name]

/-- A line ends with a quote, which stands in the way of a terminator. -/
theorem line_concat (name : String) : ∃ before, line name = before ++ [quote] :=
  ⟨Utf8.encode "+CCERTLIST: " ++ quote :: Utf8.encode name, by simp [line, encode_inQuotes]⟩

theorem plainLine_line {name : String} (h : quotable name = true) : PlainLine (line name) := by
  obtain ⟨front, e⟩ := line_concat name
  exact ⟨lf_not_mem_line h, front, quote, e, by decide⟩

/-- A name between quotes is not found in the line of another one: the two quotes would have to be
    the line's own. -/
theorem not_sought_of_ne {slot name : String} (ne : name ≠ slot) (hs : quotable slot = true)
    (hn : quotable name = true) {q : Bytes} (before : q <+: line name ++ crlf) :
    ¬Utf8.encode (inQuotes slot) <:+ q := by
  intro s
  have found := s.isInfix.trans before.isInfix
  have text : line name ++ crlf =
      Utf8.encode "+CCERTLIST: " ++ quote :: (Utf8.encode name ++ quote :: crlf) := by
    simp [line, encode_inQuotes]
  rw [encode_inQuotes, text] at found
  have same := eq_of_quoted_infix (quote_not_mem_of_quotable hs) (by decide)
    (quote_not_mem_of_quotable hn) (by decide) found
  exact ne (Utf8.encode_injective same).symm

/-! ## Looking for a name -/

/-- What a wait for a name looks for: the name between quotes, or else the end. -/
abbrev sought (slot : String) : List (Bytes × MatchOutcome) :=
  candidates [Utf8.encode (inQuotes slot)] true true

section

variable {n : Nat} {slot : String}

/-- What is looked for has a quote in it, as no terminator has. -/
theorem quote_mem_inQuotes (slot : String) : quote ∈ Utf8.encode (inQuotes slot) := by
  rw [encode_inQuotes]
  exact List.mem_cons_self

theorem lf_not_mem_dropLast_inQuotes (hs : quotable slot = true) :
    Ascii.lf ∉ (Utf8.encode (inQuotes slot)).dropLast := by
  have other : Ascii.lf ≠ quote := by decide
  have name : Ascii.lf ∉ Utf8.encode slot := OneLine.of_quotable hs
  rw [encode_inQuotes, ← List.cons_append, List.dropLast_concat]
  simp [other, name]

theorem linewise_sought (room : 7 ≤ n) (hs : quotable slot = true) : Linewise n (sought slot) :=
  linewise_one room (quote_mem_inQuotes slot) (by decide) (lf_not_mem_dropLast_inQuotes hs)

theorem lf_not_mem_dropLast_sought (hs : quotable slot = true) :
    ∀ c ∈ sought slot, Ascii.lf ∉ c.1.dropLast :=
  (linewise_sought (Nat.le_refl 7) hs).inLine

/-- In its own line the name is found at the closing quote, and nothing of the line stays behind but
    its end.  This is where the length of the name counts: the window has to hold both quotes. -/
theorem firstReply_line (hs : quotable slot = true)
    (fits : (Utf8.encode (inQuotes slot)).length ≤ n) :
    firstReply (reply n (sought slot)) [] (line slot) = some (.pattern 1, []) := by
  have plain : PlainLine (line slot ++ []) := by
    rw [List.append_nil]
    exact plainLine_line hs
  refine plain.firstReply_one ?_ fits (List.suffix_append _ _) fun q hq part s => ?_
  · exact List.ne_nil_of_mem (quote_mem_inQuotes slot)
  · -- before the closing quote there is only one
    let front := Utf8.encode "+CCERTLIST: " ++ quote :: Utf8.encode slot
    have text : line slot = front ++ [quote] := by simp [front, line, encode_inQuotes]
    have one : front.count quote = 1 := by
      have head : (Utf8.encode "+CCERTLIST: ").count quote = 0 := by decide
      simp [front, head, List.count_eq_zero.mpr (quote_not_mem_of_quotable hs)]
    rw [text] at hq part
    have inside : q <+: front := (List.prefix_concat_iff.mp hq).resolve_left part
    have le := (s.sublist.trans inside.sublist).count_le quote
    rw [encode_inQuotes, List.count_cons_self, List.count_append, List.count_singleton_self, one] at le
    omega

/-- A name that is not in the listing is looked for in vain, to the end, and so is one that is too long
    to be found. -/
theorem firstReply_absent (room : 7 ≤ n) (hs : quotable slot = true) {names : List String}
    (quotable : ∀ name ∈ names, quotable name = true)
    (absent : slot ∈ names → n < (Utf8.encode (inQuotes slot)).length) {X : Bytes}
    (apart : ∀ c ∈ sought slot, Apart c.1 X) :
    firstReply (reply n (sought slot)) X (crlf ++ lines names ++ (crlf ++ okLine)) =
      some (.success, []) := by
  refine (linewise_sought (n := n) room hs).finish (fun name hn => ?_) apart
  refine (plainLine_line (quotable name hn)).silent_one fun q hq fits => ?_
  refine not_sought_of_ne ?_ hs (quotable name hn) hq
  rintro rfl
  exact absurd fits (Nat.not_le.mpr (absent hn))

/-- A name that is in the listing is found in its line; then the rest is left, up to the terminator.
    The names before it are passed line by line, as none of these gets a reply. -/
theorem firstReply_present (room : 7 ≤ n) (hs : quotable slot = true)
    (fits : (Utf8.encode (inQuotes slot)).length ≤ n) {names : List String}
    (quotable : ∀ name ∈ names, quotable name = true) (present : slot ∈ names) {X : Bytes}
    (apart : ∀ c ∈ sought slot, Apart c.1 X) :
    ∃ taken rest, crlf ++ lines names ++ (crlf ++ okLine) = taken ++ rest ∧
      firstReply (reply n (sought slot)) X taken = some (.pattern 1, []) ∧
      firstReply (reply n terminators) (X ++ taken) rest = some (.success, []) := by
  obtain ⟨before, after, rfl, first⟩ := List.eq_append_cons_of_mem present
  refine ⟨crlf ++ lines before ++ line slot, crlf ++ lines after ++ (crlf ++ okLine), ?_, ?_, ?_⟩
  · simp [lines]
  · refine (linewise_sought (n := n) room hs).reach (fun name hn => ?_) apart (firstReply_line hs fits)
    have fine := quotable name (List.mem_append_left _ hn)
    refine (plainLine_line fine).silent_one fun q hq _ => not_sought_of_ne ?_ hs fine hq
    rintro rfl
    exact first hn
  · have others : ∀ name ∈ after, firstReply (reply n terminators) [] (line name ++ crlf) = none :=
      fun name hn => (plainLine_line
        (quotable name (List.mem_append_right before (List.mem_cons_of_mem slot hn)))).silent
    obtain ⟨front, e⟩ := line_concat slot
    refine (linewise_terminators room).finish others ?_
    rw [e, ← List.append_assoc, ← List.append_assoc]
    exact Settled.concat (by decide) _

end

end CertStore

/-! ## Looking through the listing -/

open Engine

variable {σ : Type}

/-- What is made of the store's listing, once it has been asked for: the name was found, or the end
    was.  It is what the lookup does behind its command, and so it can be proved for any device that
    lists its slots. -/
def searchListing (slot : String) : EngineM σ Bool := do
  match ← Engine.await [Utf8.encode (inQuotes slot)] Ssl.storeTimeout true true with
  | .pattern _ =>
    plainClear
    return true
  | .success => return false
  | .failure => throw .deviceReportedFailure
  | .timedOut => throw .timedOut

/-- The listing is taken to its end, and the name is found if it is there and the window can hold it
    with its quotes.  Either way the next command begins with nothing to read and at the end of a
    line. -/
theorem Engine.Calm.searchListing {n : Nat} {d : σ} {X : Bytes} {e : Engine σ} {slot : String}
    {names : List String} (room : 7 ≤ n) (hs : quotable slot = true)
    (hn : ∀ name ∈ names, quotable name = true) (apart : ∀ c ∈ CertStore.sought slot, Apart c.1 X)
    (h : Calm n d X (crlf ++ CertStore.lines names ++ (crlf ++ okLine)) e) :
    ∃ f Y, LineEnd Y ∧ Calm n d Y [] f ∧ AtModem.searchListing slot e =
      .ok (decide (slot ∈ names ∧ (Utf8.encode (inQuotes slot)).length ≤ n)) f := by
  have ends : LineEnd (X ++ (crlf ++ CertStore.lines names ++ (crlf ++ okLine))) := by
    have complete : Complete (crlf ++ okLine, .success) := by decide
    rw [← List.append_assoc]
    exact complete.lineEnd _
  by_cases found : slot ∈ names ∧ (Utf8.encode (inQuotes slot)).length ≤ n
  · -- found in its line, and then the rest is cleared away
    obtain ⟨upTo, rest, text, first, cleared⟩ :=
      CertStore.firstReply_present room hs found.2 hn found.1 apart
    rw [text] at h ends
    obtain ⟨f, w, calm⟩ := h.wait first Ssl.storeTimeout
    rw [← List.append_nil rest] at calm
    obtain ⟨g, c, calm⟩ := calm.plainClear cleared
    rw [List.append_assoc] at calm
    rw [decide_eq_true found]
    exact ⟨g, _, ends, calm, (bind_of_ok (await_of_wait w)).trans (bind_of_ok c)⟩
  · have passed := CertStore.firstReply_absent room hs hn
      (fun listed => Nat.lt_of_not_le fun fits => found ⟨listed, fits⟩) apart
    rw [← List.append_nil (crlf ++ CertStore.lines names ++ (crlf ++ okLine))] at h
    obtain ⟨f, w, calm⟩ := h.wait passed Ssl.storeTimeout
    rw [decide_eq_false found]
    exact ⟨f, _, ends, calm, bind_of_ok (await_of_wait w)⟩

end AtModem
