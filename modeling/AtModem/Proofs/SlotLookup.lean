/-
  Looking up a slot in the store.

  To look up a slot is to ask for the listing and to wait for the name between quotes.  Where it is found
  depends on nothing but the text of the listing, in whatever pieces it comes (`firstReply_present`,
  `firstReply_absent`), as long as all of it comes in time: the wait for the name has two minutes, but
  what is behind the name is then given no more than a plain answer.

  So the listing is taken to its end either way, and names that are similar are no matter.  But a name is
  found only if the window holds it with its quotes, and nothing checks how long it is.  One that is
  longer is not found though it is listed.
-/
import AtModem.Link.Script
import AtModem.Proofs.Exchange.Services
import AtModem.Proofs.Listing
import AtModem.Proofs.Timing
import AtModem.Proofs.Verbatim

namespace AtModem

open Engine

variable {σ : Type} {slot : String} {names : List String} {e f g : Engine σ}

/-! ## A listing that comes in its own time -/

/-- On a calm engine all that there is to read has come. -/
theorem Engine.Calm.time_le {capacity : Nat} {d : σ} {X bs : Bytes} {a : Arrival}
    (h : Calm capacity d X bs e) (ha : a ∈ e.stream.arrivals) : a.time ≤ e.now := by
  unfold Stream.arrivals at ha
  rw [h.scheduled, List.append_nil] at ha
  obtain ⟨b, -, rfl⟩ := List.mem_map.mp ha
  exact Nat.le_refl _

theorem Engine.now_le_wait (patterns : List Bytes) (timeout : Nat) (ok error : Bool) (e : Engine σ) :
    e.now ≤ (e.wait patterns timeout ok error).2.now :=
  (keptByListening_after.waitUntil (e.now + timeout) (candidates patterns ok error) e).now_le

/-- A wait that has the time for all that comes ends with the first reply to it.  What is behind the
    reply is still to come, with its times as they were. -/
theorem Engine.Waiting.wait {all as : List Arrival} {X rest : Bytes} {o : MatchOutcome}
    {patterns : List Bytes} {ok error : Bool} {timeout : Nat} (h : Waiting all as X f g)
    (silent : f.registry.handlers = [])
    (first : firstReply (reply f.window.capacity (candidates patterns ok error)) X
      (as.map Arrival.byte) = some (o, rest))
    (inTime : ∀ a ∈ as, a.time ≤ g.now + timeout) :
    ∃ taken back g', as = taken ++ back ∧ rest = back.map Arrival.byte ∧
      g.wait patterns timeout ok error = (o, g') ∧
      Waiting all back (X ++ taken.map Arrival.byte) f g' := by
  have start : Waiting all (as ++ []) X f g := by rwa [List.append_nil]
  have polled : ∀ a ∈ as, a.time ≤ g.stream.lastPoll (g.now + timeout) := fun a ha =>
    Nat.le_trans (inTime a ha) (g.stream.deadline_le_lastPoll _)
  have walk := start.waitUntil silent polled (candidates patterns ok error)
  rw [first] at walk
  obtain ⟨taken, back, g', split, left, stop, k, -⟩ := walk
  rw [List.append_nil] at k
  exact ⟨taken, back, g', split, left, stop, k⟩

/-- What is left of an answer is cleared away, if it comes within the time for a plain one. -/
theorem Engine.Waiting.plainClear {all back : List Arrival} {X : Bytes} {o : MatchOutcome}
    (h : Waiting all back X f g) (silent : f.registry.handlers = [])
    (first : firstReply (reply f.window.capacity terminators) X (back.map Arrival.byte) = some (o, []))
    (inTime : ∀ a ∈ back, a.time ≤ g.now + g.defaultTimeout) :
    ∃ g', Engine.plainClear g = .ok () g' ∧ g'.stream.unread = [] := by
  obtain ⟨_, rest, g', -, nothing, stop, k⟩ := h.wait silent first inTime
  have cleared : Engine.clear g.defaultTimeout g = .ok () g' := bind_of_ok (await_of_wait stop)
  refine ⟨g', cleared, ?_⟩
  rw [k.stream.unread, ← nothing]

/-- A listing that comes within the time for a plain answer is taken to its end, and the name is found if
    it is there and the window can hold it with its quotes. -/
theorem searchListing_of_arrivals (silent : f.registry.handlers = []) (room : 7 ≤ f.window.capacity)
    (ends : LineEnd f.window.bytes) (hs : quotable slot = true)
    (hn : ∀ name ∈ names, quotable name = true)
    (listed : f.stream.unread = crlf ++ CertStore.lines names ++ (crlf ++ okLine))
    (inTime : ∀ a ∈ f.stream.arrivals, a.time ≤ f.now + min Ssl.storeTimeout f.defaultTimeout) :
    ∃ g, searchListing slot f =
        .ok (decide (slot ∈ names ∧ (Utf8.encode (inQuotes slot)).length ≤ f.window.capacity)) g ∧
      g.stream.unread = [] := by
  have apart : ∀ c ∈ CertStore.sought slot, Apart c.1 f.window.bytes := fun c hc =>
    ends.apart (CertStore.lf_not_mem_dropLast_sought hs c hc)
  have start : Waiting f.stream.arrivals f.stream.arrivals f.window.bytes f f :=
    .refl (Stream.awaits_arrivals f.stream)
  have text := start.stream.unread.symm.trans listed
  have soon : ∀ a ∈ f.stream.arrivals, a.time ≤ f.now + Ssl.storeTimeout := fun a ha => by
    have := inTime a ha
    omega
  by_cases found : slot ∈ names ∧ (Utf8.encode (inQuotes slot)).length ≤ f.window.capacity
  · rw [decide_eq_true found]
    obtain ⟨upTo, rest, parts, first, cleared⟩ :=
      CertStore.firstReply_present room hs found.2 hn found.1 apart
    rw [parts] at text
    have heard : firstReply (reply f.window.capacity (CertStore.sought slot)) f.window.bytes
        (f.stream.arrivals.map Arrival.byte) = some (.pattern 1, rest) := by
      rw [text, firstReply_append, first]
      rfl
    obtain ⟨taken, back, g, split, left, stop, k⟩ := start.wait silent heard soon
    have before : taken.map Arrival.byte = upTo := by
      rw [split, List.map_append, ← left] at text
      exact List.append_cancel_right text
    -- the clearing begins no earlier than the wait did, so the listing comes in its time as well
    have later : f.now ≤ g.now := by
      have after := now_le_wait [Utf8.encode (inQuotes slot)] Ssl.storeTimeout true true f
      rwa [stop] at after
    have inTime' : ∀ a ∈ back, a.time ≤ g.now + g.defaultTimeout := fun a ha => by
      have := inTime a (by rw [split]; exact List.mem_append_right taken ha)
      rw [k.only.defaultTimeout]
      omega
    rw [before] at k
    rw [left] at cleared
    obtain ⟨g', clear, nothing⟩ := k.plainClear silent cleared inTime'
    exact ⟨g', (bind_of_ok (await_of_wait stop)).trans (bind_of_ok clear), nothing⟩
  · have passed := CertStore.firstReply_absent room hs hn
      (fun listed => Nat.lt_of_not_le fun fits => found ⟨listed, fits⟩) apart
    rw [decide_eq_false found]
    rw [← text] at passed
    obtain ⟨_, back, g, -, nothing, stop, k⟩ := start.wait silent passed soon
    refine ⟨g, bind_of_ok (await_of_wait stop), ?_⟩
    rw [k.stream.unread, ← nothing]

namespace Ssl

open ClientM

variable [Device σ]

/-- An engine of the standard measures is asked whether a slot is taken; the device lists any number of
    names, similar ones among them.  The whole listing is taken, and the slot is said to be taken if it is
    listed, unless its name is too long: the window has to hold it with its quotes. -/
theorem certExists_finds_listed (e f : Engine σ) (slot : String) (names : List String)
    (silent : e.registry.handlers = [])
    (capacity : e.window.capacity = EngineConfig.standard.windowCapacity)
    (timeout : e.defaultTimeout = EngineConfig.standard.defaultTimeout)
    (lineEnd : LineEnd e.window.bytes)
    (accepted : ∀ name ∈ slot :: names, checkSlot name e = .ok () e)
    (sent : send "AT+CCERTLIST" e = .ok () f)
    (listed : f.stream.unread = names.flatMap CertStore.entry ++ Utf8.encode "\r\n\r\nOK\r\n")
    (inTime : ∀ a ∈ f.stream.arrivals, a.time ≤ f.now + EngineConfig.standard.defaultTimeout) :
    ∃ g, certExists slot e = .ok (decide (slot ∈ names ∧
        (Utf8.encode (inQuotes slot)).length ≤ EngineConfig.standard.windowCapacity)) g ∧
      g.stream.unread = [] := by
  -- what has been accepted may stand in quotes
  have quoted : ∀ name ∈ slot :: names, quotable name = true := fun name hn =>
    ((checkSlot_eq_ok_iff name e).mp (accepted name hn)).2
  obtain ⟨hs, hn⟩ := List.forall_mem_cons.mp quoted
  rw [CertStore.entries_eq] at listed
  -- sending has changed the link only
  have same := eq_of_send sent
  have silent' : f.registry.handlers = [] := by rwa [same]
  have capacity' : f.window.capacity = EngineConfig.standard.windowCapacity := by rwa [same]
  have lineEnd' : LineEnd f.window.bytes := by rwa [same]
  have timeout' : f.defaultTimeout = EngineConfig.standard.defaultTimeout := by rwa [same]
  have room : 7 ≤ f.window.capacity := by
    rw [capacity']
    decide
  have plain : min storeTimeout f.defaultTimeout = EngineConfig.standard.defaultTimeout := by
    rw [timeout']
    decide
  rw [← plain] at inTime
  obtain ⟨g, searched, all⟩ := searchListing_of_arrivals silent' room lineEnd' hs hn listed inTime
  rw [capacity'] at searched
  refine ⟨g, ?_, all⟩
  exact (bind_of_ok (accepted slot List.mem_cons_self)).trans
    (ofEngine_of_ok ((bind_of_ok sent).trans searched))

/-- A name of 63 bytes is listed, and is not found.  With its quotes it has 65 bytes, one more than
    the window. -/
theorem certExists_finds_listed_not_long :
    let slot := String.ofList (List.replicate 63 'a')
    let names := ["ca.pem", slot, "client.pem"]
    let s : Script := ⟨[], names.flatMap CertStore.entry ++ Utf8.encode "\r\n\r\nOK\r\n"⟩
    let e : Engine Script := ofLink .standard (.ofDevice s)
    slot ∈ names ∧ (∀ name ∈ slot :: names, checkSlot name e = .ok () e) ∧
      ∃ g, certExists slot e = .ok false g ∧ g.stream.unread = [] := by
  intro slot names s e
  have accepted : ∀ name ∈ slot :: names, checkSlot name e = .ok () e := fun name hn => by
    have checked : ∀ name ∈ slot :: names, name ≠ "" ∧ quotable name = true := by decide
    exact (checkSlot_eq_ok_iff name e).mpr (checked name hn)
  have answers : Device.answer s (Utf8.encode "AT+CCERTLIST") =
      (s, .now (names.flatMap CertStore.entry ++ Utf8.encode "\r\n\r\nOK\r\n")) := rfl
  obtain ⟨f, sent, k⟩ := (Calm.ofLink .standard s).send rfl (by decide) answers
  have long : ¬(slot ∈ names ∧
      (Utf8.encode (inQuotes slot)).length ≤ EngineConfig.standard.windowCapacity) := by
    decide
  obtain ⟨g, asked, all⟩ := certExists_finds_listed e f slot names rfl rfl rfl (.inl rfl) accepted sent
    k.stream_unread fun a ha => Nat.le_trans (k.time_le ha) (Nat.le_add_right _ _)
  rw [decide_eq_false long] at asked
  exact ⟨by decide, accepted, g, asked, all⟩

end Ssl
end AtModem
