/-
  A download does not depend on how its bytes are delivered.

  A download reads its answer in four parts, each with deadlines of its own: it waits for the header, picks
  the length out of the rest of its line, takes the payload, and waits for what closes the answer.  An
  answer is punctual if its bytes come in time for each of them (`Punctual`).  The first wait comes as far as
  it would if all the bytes were there, since those up to its end are (`Waiting.waitUntil`); from there the
  bytes come at a steady pace, so that the length, its line and the payload are read in lock step with a
  link on which everything is there at once (`Pace`); and when the last wait begins, all that it is to hear
  comes within its time.

  The header has to be one that a window can end with: not empty, and no longer than the window.  Another
  is never found, and then it depends on the pace how much of what comes behind it is heard.  And what the
  window holds when the command is sent counts for the end of the header, so the bytes that have to come at
  a steady pace are those behind that end; an answer that is punctual only behind a second header is not
  (`unheard_header_depends_on_pace` has a run for each).
-/
import AtModem.Proofs.Correlation
import AtModem.Proofs.Timing
import AtModem.Proofs.Verbatim

namespace AtModem

namespace Engine

open AtModem.Stream

variable {σ : Type} {all all' as as' : List Arrival} {e e' f f' g g' : Engine σ} {X : Bytes}

/-! ## Two engines -/

/-- The same has been heard, and the same is still to be read; times and intervals may differ.  It
    is all that two downloads have in common when they end, and all that the next command can
    notice. -/
structure SameLeft (g g' : Engine σ) : Prop where
  window : g.window = g'.window
  unread : g.stream.unread = g'.stream.unread

/-- Both engines have only read and heard, and the same bytes are to be read in lock step.  It is
    kept by everything that reads, which is how the two downloads stay together from the header to
    the trailer. -/
structure Abreast (f f' : Engine σ) (all all' : List Arrival) (g g' : Engine σ) : Prop where
  only : OnlyHeard f g
  only' : OnlyHeard f' g'
  window : g.window = g'.window
  stream : Alongside all all' g.stream g'.stream

theorem Abreast.left (h : Abreast f f' all all' g g') : SameLeft g g' := ⟨h.window, h.stream.unread⟩

/-- The engines after their streams were read in lock step are abreast. -/
theorem Abreast.withStream {t t' : Stream σ} (h : Abreast f f' all all' g g')
    (k : Alongside all all' t t') :
    Abreast f f' all all' { g with stream := t } { g' with stream := t' } :=
  ⟨h.only.withStream t, h.only'.withStream t', h.window, k⟩

/-- What the streams read in lock step, the engines do. -/
theorem alike_onStream {α : Type} {x : StreamM σ α} (h : Alike (Alongside all all') x) :
    Alike (Abreast f f' all all') (onStream x) := by
  intro g g' k
  have both := h _ _ k.stream
  unfold onStream
  generalize x g.stream = r at both
  generalize x g'.stream = r' at both
  cases both with
  | ok a m => exact .ok a (k.withStream m)
  | error err m => exact .error err (k.withStream m)

/-! ## Punctual answers -/

/-- The answer to a download as it comes to an engine that has sent the command: up to the end of the
    header, as far as the window has not heard it before, then everything else. -/
structure Punctual (d : Download) (f : Engine σ) (early : List Arrival) (last : Arrival)
    (later : List Arrival) : Prop where
  arrivals : f.stream.arrivals = early ++ last :: later
  header : d.header <:+ f.window.bytes ++ (early ++ [last]).map Arrival.byte
  first : ∀ q, q <+: early.map Arrival.byte → q ≠ [] → ¬d.header <:+ f.window.bytes ++ q
  inTime : last.time ≤ f.now + d.headerTimeout
  /-- No byte comes later than the byte timeout after the one before it. -/
  spaced : (last :: later).IsChain fun a b => b.time ≤ a.time + f.stream.byteTimeout
  /-- What comes behind the payload comes in the time for the trailer, which begins with the last byte of
      the payload, or of the header line if there is no payload. -/
  trailer : ∀ line payload rest, later = line ++ payload ++ rest →
    LengthLine payload.length (line.map Arrival.byte) → ∀ m ∈ (line ++ payload).getLast?,
      ∀ a ∈ rest, a.time ≤ m.time + d.trailerTimeout.getD f.defaultTimeout

/-- `f'` has all of it at once that is to come to `f`, and is otherwise set up alike. -/
structure AtOnce (f f' : Engine σ) : Prop where
  window : f'.window = f.window
  limit : f'.maxDownload = f.maxDownload
  quiet : f'.registry.handlers = []
  scheduled : f'.stream.link.scheduled.arrivals = []
  unread : f'.stream.unread = f.stream.unread

variable {d : Download} {early early' later later' : List Arrival} {last last' : Arrival}

/-- What is there at once is punctual, split at the same bytes.  The header is found at the same
    byte, since times do not enter into where it ends. -/
theorem Punctual.atOnce (p : Punctual d f early last later) (h : AtOnce f f') :
    ∃ early' last' later', Punctual d f' early' last' later' ∧
      early'.map Arrival.byte = early.map Arrival.byte ∧ last'.byte = last.byte ∧
      later'.map Arrival.byte = later.map Arrival.byte := by
  -- the bytes are the same, so they can be split at the same places
  have bytes : f'.stream.arrivals.map Arrival.byte =
      early.map Arrival.byte ++ last.byte :: later.map Arrival.byte := by
    rw [← (awaits_arrivals f'.stream).unread, h.unread, (awaits_arrivals f.stream).unread, p.arrivals]
    simp
  -- all of them arrive now, which is in time for everything
  have now : ∀ a ∈ f'.stream.arrivals, a.time = f'.now := by
    intro a ha
    rw [Stream.arrivals, h.scheduled, List.append_nil] at ha
    obtain ⟨b, -, rfl⟩ := List.mem_map.mp ha
    rfl
  obtain ⟨early', rest, split, front, back⟩ := List.map_eq_append_iff.mp bytes
  obtain ⟨last', later', rfl, byte, behind⟩ := List.map_eq_cons_iff.mp back
  rw [split] at now
  refine ⟨early', last', later', ⟨split, ?_, ?_, ?_, ?_, ?_⟩, front, byte, behind⟩
  · have same : (early' ++ [last']).map Arrival.byte = (early ++ [last]).map Arrival.byte := by
      simp [front, byte]
    rw [h.window, same]
    exact p.header
  · rw [h.window, front]
    exact p.first
  · have := now last' (by simp)
    omega
  · have chain := (pairwise_arrivals f'.stream).isChain
    rw [split] at chain
    refine chain.right_of_append.imp_of_mem_imp fun a b ha hb _ => ?_
    have := now a (List.mem_append_right _ ha)
    have := now b (List.mem_append_right _ hb)
    omega
  · intro line payload rest split' _ m hm a ha
    have := now a (by simp [split', ha])
    have := now m (by
      have mem := List.mem_of_getLast? hm
      simp only [split', List.mem_append, List.mem_cons] at mem ⊢
      tauto)
    omega

/-! ## The two waits -/

/-- Two waits that come to the same place have the same left. -/
theorem Waiting.left {as as' : List Arrival} (h : Waiting all as X f g) (h' : Waiting all' as' X f' g')
    (size : f.window.capacity = f'.window.capacity)
    (bytes : as.map Arrival.byte = as'.map Arrival.byte) : SameLeft g g' where
  window := h.window.unique h'.window (by rw [h.capacity, h'.capacity, size])
  unread := by rw [h.stream.unread, h'.stream.unread, bytes]

/-- Two waits for which the same bytes come in time, and which do not need any others, stop at the
    same byte with the same outcome.  Either all bytes come in time, or those that do are enough to
    complete a candidate. -/
theorem Waiting.both {here here' later later' : List Arrival} {deadline deadline' : Nat}
    (h : Waiting all (here ++ later) X f g) (h' : Waiting all' (here' ++ later') X f' g')
    (silent : f.registry.handlers = []) (silent' : f'.registry.handlers = [])
    (size : f.window.capacity = f'.window.capacity) (inTime : ∀ a ∈ here, a.time ≤ deadline)
    (inTime' : ∀ a ∈ here', a.time ≤ deadline')
    (bytes : here.map Arrival.byte = here'.map Arrival.byte)
    (behind : later.map Arrival.byte = later'.map Arrival.byte) (cs : List (Bytes × MatchOutcome))
    (enough : later = [] ∨
      (firstReply (reply f.window.capacity cs) X (here.map Arrival.byte)).isSome) :
    ∃ o k k' Y back back', g.waitUntil deadline cs = (o, k) ∧ g'.waitUntil deadline' cs = (o, k') ∧
      Waiting all (back ++ later) Y f k ∧ Waiting all' (back' ++ later') Y f' k' ∧
      back.map Arrival.byte = back'.map Arrival.byte ∧
      ∀ found, firstReply (reply f.window.capacity cs) X (here.map Arrival.byte) = some found →
        found = (o, back.map Arrival.byte) := by
  have one := h.waitUntil silent (fun a ha => Nat.le_trans (inTime a ha) (deadline_le_lastPoll _ _)) cs
  have other := h'.waitUntil silent' (fun a ha => Nat.le_trans (inTime' a ha) (deadline_le_lastPoll _ _)) cs
  rw [← size, ← bytes] at other
  cases r : firstReply (reply f.window.capacity cs) X (here.map Arrival.byte) with
  -- a candidate is completed: both waits stop there, and what they have taken is the same
  | some found =>
    obtain ⟨o, tail⟩ := found
    simp only [r] at one other
    obtain ⟨taken, back, k, split, tail, stop, w, -⟩ := one
    obtain ⟨taken', back', k', split', tail', stop', w', -⟩ := other
    have same := tail.symm.trans tail'
    have heard : taken.map Arrival.byte = taken'.map Arrival.byte := by
      rw [split, split', List.map_append, List.map_append, same] at bytes
      exact List.append_cancel_right bytes
    rw [← heard] at w'
    refine ⟨o, k, k', _, back, back', stop, stop', w, w', same, fun found same => ?_⟩
    rw [← Option.some.inj same, tail]
  -- nothing is completed, so nothing is left to come and both time out
  | none =>
    obtain rfl : later = [] := by simpa [r] using enough
    obtain rfl : later' = [] := List.map_eq_nil_iff.mp behind.symm
    simp only [r] at one other
    obtain ⟨k, stop, w, -⟩ := one (by simp)
    obtain ⟨k', stop', w', -⟩ := other (by simp)
    exact ⟨.timedOut, k, k', _, [], [], stop, stop', w, w', rfl, by simp⟩

namespace Punctual

/-- All of it comes in time, up to the end of the header, since it comes in its order. -/
theorem inTime_of_mem (p : Punctual d f early last later) :
    ∀ a ∈ early ++ [last], a.time ≤ f.now + d.headerTimeout := by
  have order := pairwise_arrivals f.stream
  rw [p.arrivals] at order
  have before := (List.pairwise_append.mp order).2.2
  have deadline := p.inTime
  intro a ha
  rcases List.mem_append.mp ha with ha | ha
  · have ordered : a.time ≤ max f.now last.time := before a ha last List.mem_cons_self
    omega
  · rwa [List.mem_singleton.mp ha]

/-- The wait for the header stops at its end, unless it stops before, at an error.  An error that
    comes first ends the download, and does so on both sides. -/
theorem firstReply_header (p : Punctual d f early last later) (some : d.header ≠ [])
    (fits : d.header.length ≤ f.window.capacity) :
    ∃ o tail, firstReply (reply f.window.capacity (candidates [d.header] false true)) f.window.bytes
        ((early ++ [last]).map Arrival.byte) = .some (o, tail) ∧
      (o = .pattern 1 ∧ tail = [] ∨ o = .failure) := by
  have all : candidates [d.header] false true = [(d.header, .pattern 1), (errorLine, .failure)] := rfl
  have whole : reply f.window.capacity (candidates [d.header] false true)
      (f.window.bytes ++ (early ++ [last]).map Arrival.byte) = .some (.pattern 1) := by
    rw [all, reply, List.find?_cons_of_pos (by simpa [some, fits] using p.header)]
    rfl
  obtain ⟨⟨o, tail⟩, found⟩ := exists_firstReply (by simp) whole
  refine ⟨o, tail, found, ?_⟩
  obtain ⟨taken, more, split, answer⟩ := firstReply_eq_some found
  obtain ⟨c, hc, outcome, ends⟩ := suffix_of_reply_eq_some answer
  rw [all] at hc
  rcases List.mem_pair.mp hc with rfl | rfl
  · left
    refine ⟨outcome.symm, ?_⟩
    -- were there a byte left, the header would have ended before
    rcases List.eq_nil_or_concat tail with rfl | ⟨init, b, rfl⟩
    · rfl
    · rw [List.map_append, List.concat_eq_append, ← List.append_assoc] at split
      have before := (List.append_inj' split rfl).1
      exact absurd ends (p.first taken (before ▸ List.prefix_append _ _) more)
  · exact .inr outcome.symm

/-- Behind the header the bytes come at a steady pace, the wait having ended with the header's last
    byte. -/
theorem steady (p : Punctual d f early last later)
    (w : Waiting (early ++ [last] ++ later) later X f g) : Steady later later g.stream := by
  obtain ⟨front, split, past⟩ := w.stream.past
  obtain ⟨soon, spaced⟩ := List.isChain_cons.mp p.spaced
  have come : last.time ≤ g.stream.now :=
    past last (List.append_cancel_right split ▸ List.mem_append_right _ List.mem_cons_self)
  refine ⟨⟨w.stream.unread, w.stream.arrivedBy, [], rfl, by simp⟩, fun a ha => ?_, ?_⟩
  · have := soon a ha
    have := w.byteTimeout
    show a.time ≤ g.stream.now + g.stream.byteTimeout
    omega
  · rw [w.byteTimeout]
    exact spaced

/-- When the payload has been read, all that comes behind it comes in time.  The time for the
    trailer begins when the payload has been read, which is not before its last byte has come. -/
theorem trailer_inTime {s : Stream σ} {line payload : Bytes} (p : Punctual d f early last later)
    (length : LengthLine payload.length line) (h : Awaits later as s)
    (split : later.map Arrival.byte = line ++ payload ++ s.unread) :
    ∀ a ∈ as, a.time ≤ s.now + d.trailerTimeout.getD f.defaultTimeout := by
  obtain ⟨front, parts, past⟩ := h.past
  have taken : front.map Arrival.byte = line ++ payload := by
    rw [h.unread, parts, List.map_append] at split
    exact List.append_cancel_right split
  obtain ⟨line', payload', rfl, rfl, rfl⟩ := List.map_eq_append_iff.mp taken
  rw [List.length_map] at length
  have some : line' ++ payload' ≠ [] := by
    obtain ⟨_, _, _, _, _, _, text⟩ := length
    intro nothing
    obtain ⟨rfl, -⟩ := List.append_eq_nil_iff.mp nothing
    simp at text
  have hm := List.getLast?_eq_some_getLast some
  intro a ha
  have := p.trailer line' payload' as parts length _ hm a ha
  have := past _ (List.mem_of_getLast? hm)
  omega

end Punctual

/-! ## The parts of a download -/

/-- Two punctual deliveries of one answer, to engines that have heard the same before it.  The bytes
    are the same on both sides, and only the times at which they come are free. -/
structure Deliveries (d : Download) (f f' : Engine σ) (early : List Arrival) (last : Arrival)
    (later early' : List Arrival) (last' : Arrival) (later' : List Arrival) : Prop where
  one : Punctual d f early last later
  other : Punctual d f' early' last' later'
  front : early'.map Arrival.byte = early.map Arrival.byte
  byte : last'.byte = last.byte
  behind : later'.map Arrival.byte = later.map Arrival.byte
  window : f'.window = f.window
  silent : f.registry.handlers = []
  silent' : f'.registry.handlers = []
  named : d.header ≠ []
  fits : d.header.length ≤ f.window.capacity

/-- Two waits for one answer, for which all that is still to come is in time, come to the same
    result.  It serves for the trailer whatever form that has, since only the candidates differ. -/
theorem answer_both (k : Abreast f f' all all' g g') (silent : f.registry.handlers = [])
    (silent' : f'.registry.handlers = []) {timeout timeout' : Nat}
    (inTime : ∀ as, Awaits all as g.stream → ∀ a ∈ as, a.time ≤ g.now + timeout)
    (inTime' : ∀ as, Awaits all' as g'.stream → ∀ a ∈ as, a.time ≤ g'.now + timeout')
    (patterns : List Bytes) (ok error : Bool) :
    let answer := fun timeout => await patterns timeout ok error >>= fun o =>
      ofResult (α := Unit) o.expectSuccess
    AtModem.outcome (answer timeout g) = AtModem.outcome (answer timeout' g') ∧
      SameLeft (endState (answer timeout g)) (endState (answer timeout' g')) := by
  intro answer
  obtain ⟨as, as', m, m', bytes⟩ := k.stream
  have start : Waiting all (as ++ []) g.window.bytes g g := .refl (by simpa using m.toAwaits)
  have start' : Waiting all' (as' ++ []) g.window.bytes g' g' := by
    rw [k.window]
    exact .refl (by simpa using m'.toAwaits)
  have quiet : g.registry.handlers = [] := k.only.handlers.trans silent
  have quiet' : g'.registry.handlers = [] := k.only'.handlers.trans silent'
  -- nothing comes late on either side, so the two waits hear the same
  have size : g.window.capacity = g'.window.capacity := by rw [k.window]
  obtain ⟨o, h, h', X, back, back', waited, waited', w, w', left, -⟩ :=
    start.both start' quiet quiet' size (inTime as m.toAwaits) (inTime' as' m'.toAwaits) bytes rfl
      (candidates patterns ok error) (.inl rfl)
  have heard : answer timeout g = ofResult o.expectSuccess h := bind_of_ok (await_of_wait waited)
  have heard' : answer timeout' g' = ofResult o.expectSuccess h' := bind_of_ok (await_of_wait waited')
  have same := w.left w' size (by rw [List.append_nil, List.append_nil, left])
  rw [heard, heard']
  cases o.expectSuccess with
  | ok a => exact ⟨rfl, same⟩
  | error err => exact ⟨rfl, same⟩

/-- What closes the answer is consumed alike, since on either side all of it comes in time.  Without
    a trailer there is nothing to wait for, and the two are alike as they stand. -/
theorem finishTrailer_both (k : Abreast f f' all all' g g') (silent : f.registry.handlers = [])
    (silent' : f'.registry.handlers = [])
    (inTime : ∀ as, Awaits all as g.stream →
      ∀ a ∈ as, a.time ≤ g.now + d.trailerTimeout.getD f.defaultTimeout)
    (inTime' : ∀ as, Awaits all' as g'.stream →
      ∀ a ∈ as, a.time ≤ g'.now + d.trailerTimeout.getD f'.defaultTimeout) :
    AtModem.outcome (finishTrailer d g) = AtModem.outcome (finishTrailer d g') ∧
      SameLeft (endState (finishTrailer d g)) (endState (finishTrailer d g')) := by
  have plain : plainTimeout g = .ok f.defaultTimeout g := by
    rw [← k.only.defaultTimeout]
    rfl
  have plain' : plainTimeout g' = .ok f'.defaultTimeout g' := by
    rw [← k.only'.defaultTimeout]
    rfl
  unfold finishTrailer
  rw [bind_of_ok plain, bind_of_ok plain']
  cases d.trailer with
  | terminator => exact answer_both k silent silent' inTime inTime' [] true true
  | pattern pattern => exact answer_both k silent silent' inTime inTime' [pattern] false true
  | nothing => exact ⟨rfl, k.left⟩

section

variable [Device σ]

/-- Up to the payload both downloads do the same: they fail in the same way, or they have read the same
    length, and then the line in which it stands is behind them. -/
theorem openDownload_both (p : Deliveries d f f' early last later early' last' later')
    (sent : send d.command e = .ok () f) (sent' : send d.command e' = .ok () f') :
    (∃ err g g', openDownload d e = .error err g ∧ openDownload d e' = .error err g' ∧ SameLeft g g') ∨
      ∃ n g g', openDownload d e = .ok n g ∧ openDownload d e' = .ok n g' ∧
        Abreast f f' later later' g g' ∧
        ∃ line, LengthLine n line ∧ later.map Arrival.byte = line ++ g.stream.unread := by
  have start := Waiting.refl (awaits_arrivals f.stream)
  have start' := Waiting.refl (awaits_arrivals f'.stream)
  rw [p.one.arrivals, ← List.singleton_append, ← List.append_assoc] at start
  rw [p.other.arrivals, ← List.singleton_append, ← List.append_assoc, p.window] at start'
  have size : f.window.capacity = f'.window.capacity := by rw [p.window]
  obtain ⟨o, tail, first, cases⟩ := p.one.firstReply_header p.named p.fits
  obtain ⟨o', g, g', X, back, back', waited, waited', w, w', left, stop⟩ :=
    start.both start' p.silent p.silent' size p.one.inTime_of_mem p.other.inTime_of_mem
      (by simp [p.front, p.byte]) p.behind.symm _ (.inr (by rw [first]; rfl))
  obtain ⟨rfl, rfl⟩ := Prod.mk.inj (stop _ first)
  have heard : await [d.header] d.headerTimeout false true f = .ok o g := await_of_wait waited
  have heard' : await [d.header] d.headerTimeout false true f' = .ok o g' := await_of_wait waited'
  -- the header has come
  rcases cases with ⟨rfl, nothing⟩ | rfl
  · obtain rfl : back = [] := List.map_eq_nil_iff.mp nothing
    obtain rfl : back' = [] := List.map_eq_nil_iff.mp left.symm
    have abreast : Abreast f f' later later' g g' :=
      ⟨w.only, w'.only, (w.left w' size p.behind.symm).window, later, later', p.one.steady w,
        p.other.steady w', p.behind.symm⟩
    let line : EngineM σ Nat :=
      onStream parseLen >>= fun n => onStream (find Ascii.lf) >>= fun _ => pure n
    have read : openDownload d e = line g := (bind_of_ok sent).trans (bind_of_ok heard)
    have read' : openDownload d e' = line g' := (bind_of_ok sent').trans (bind_of_ok heard')
    have alike : Alike (Abreast f f' later later') line :=
      (alike_onStream alike_parseLen).bind fun _ => (alike_onStream (alike_find _)).bind fun _ => .pure _
    -- from here on both read the length and its line, and fail together or not at all
    have both := alike g g' abreast
    generalize r : line g = result at both
    generalize r' : line g' = result' at both
    cases both with
    | error err k => exact .inl ⟨err, _, _, read.trans r, read'.trans r', k.left⟩
    | ok n k =>
      obtain ⟨m, i, length, rest⟩ := bind_eq_ok r
      obtain ⟨_, j, skipped, same⟩ := bind_eq_ok rest
      cases same
      obtain ⟨line, length, split⟩ := (p.one.steady w).lengthLine (onStream_eq_ok length)
        (onStream_eq_ok skipped)
      refine .inr ⟨n, _, _, read.trans r, read'.trans r', k, line, length, ?_⟩
      rw [← split]
      exact w.stream.unread.symm
  -- an error line has come before the header
  · refine .inl ⟨.deviceReportedFailure, g, g', (bind_of_ok sent).trans (bind_of_ok heard),
      (bind_of_ok sent').trans (bind_of_ok heard'), w.left w' size ?_⟩
    rw [List.map_append, List.map_append, left, p.behind]

/-- Both downloads take the same course; the four parts are gone through one after the other, and
    either one may be the last.  They are the opening, the payload, the trailer and what is made of
    them. -/
theorem course_both (p : Deliveries d f f' early last later early' last' later')
    (sent : send d.command e = .ok () f) (sent' : send d.command e' = .ok () f') :
    (course d e).1 = (course d e').1 ∧ SameLeft (course d e).2 (course d e').2 := by
  rcases openDownload_both p sent sent' with
    ⟨err, g, g', o, o', same⟩ | ⟨n, g, g', o, o', k, line, length, split⟩
  · rw [course_of_failed o, course_of_failed o']
    exact ⟨rfl, same⟩
  · obtain ⟨got, t, t', r, r', m⟩ := k.stream.gather n
    have after := k.withStream m
    by_cases cut : got.length < n
    · rw [course_of_cut o (by rw [r]; exact cut), course_of_cut o' (by rw [r']; exact cut)]
      simp only [r, r']
      exact ⟨trivial, after.left⟩
    · have le := length_gather_le n g.stream
      rw [r] at le
      replace le : got.length ≤ n := le
      have all : got.length = n := by omega
      rw [course_of_whole o (by rw [r]; exact all), course_of_whole o' (by rw [r']; exact all)]
      simp only [r, r']
      -- the line with the length, the payload and what is left are all that has come behind the header
      have parts : later.map Arrival.byte = line ++ got ++ t.unread := by
        have rest := unread_gather n g.stream
        rw [r] at rest
        rw [split, rest, List.append_assoc]
      have parts' : later'.map Arrival.byte = line ++ got ++ t'.unread := by
        rw [p.behind, parts, after.left.unread]
      rw [← all] at length
      obtain ⟨same, left⟩ := finishTrailer_both (d := d) after p.silent p.silent'
        (fun _ m => p.one.trailer_inTime length m parts)
        (fun _ m => p.other.trailer_inTime length m parts')
      rw [same]
      exact ⟨rfl, left⟩

end

/-! ## A device with one answer -/

/-- A device that answers one line, and no other. -/
def answering (line : String) (reply : Reply) : Script := ⟨[⟨.exact line, reply, none⟩], []⟩

/-- To its line it gives its answer, and remains as it is. -/
theorem answer_answering (line : String) (reply : Reply) :
    Device.answer (answering line reply) (Utf8.encode line) = (answering line reply, reply) := by
  show Script.answer _ _ = _
  unfold Script.answer
  rw [Utf8.decode_encode]
  simp [answering, Script.consult, Rule.applies, LineTest.fits, Rule.used]

/-- A fresh engine on a link to that device. -/
def facing (config : EngineConfig) (line : String) (reply : Reply) : Engine Script :=
  ofLink config (.ofDevice (answering line reply))

/-- The engine when it has sent the line, with the answer on its way. -/
def asked (config : EngineConfig) (line : String) (reply : Reply) : Engine Script :=
  { facing config line reply with stream := { (facing config line reply).stream with
    link := { Link.ofDevice (answering line reply) with
      written := Utf8.encode line ++ crlf }.receive reply } }

section

variable {config config' : EngineConfig} {line : String} {reply : Reply}

/-- Sending the line succeeds and puts the answer on its way. -/
theorem send_facing (oneLine : OneLine line) :
    send line (facing config line reply) = .ok () (asked config line reply) :=
  Calm.send_of_reply rfl rfl rfl oneLine (answer_answering line reply)

/-- The bytes of the answer come at the intervals of the reply. -/
theorem arrivals_asked (spaced : reply.gap ≠ 0) :
    (asked config line reply).stream.arrivals = Schedule.spaced reply.gap reply.after reply.bytes := by
  have late : ¬(reply.after = 0 ∧ reply.gap = 0) := fun h => spaced h.2
  unfold asked Link.receive Stream.arrivals
  rw [if_neg late]
  simp [Link.ofDevice, Schedule.insert, Schedule.empty, facing, ofLink]

theorem atOnce_asked (spaced : reply.gap ≠ 0) (room : config'.windowCapacity = config.windowCapacity)
    (limit : config'.maxDownload = config.maxDownload) :
    AtOnce (asked config line reply) (asked config' line (.now reply.bytes)) where
  window := by
    show Window.ofCapacity _ = Window.ofCapacity _
    rw [room]
  limit := limit
  quiet := rfl
  scheduled := rfl
  unread := by
    rw [(awaits_arrivals (asked config line reply).stream).unread, arrivals_asked spaced,
      Schedule.map_byte_spaced]
    exact List.append_nil _

/-- The header and what comes behind it, byte by byte: an answer is punctual if its interval is
    within the byte timeout and its ends are within theirs. -/
theorem punctual_asked {d : Download} {front rest : Bytes} {b : UInt8} (spaced : reply.gap ≠ 0)
    (parts : reply.bytes = front ++ b :: rest) (header : d.header <:+ front ++ [b])
    (first : ∀ q ∈ front.inits, q ≠ [] → ¬d.header <:+ q)
    (inTime : reply.after + reply.gap * front.length ≤ d.headerTimeout)
    (steady : reply.gap ≤ config.byteTimeout)
    (soon : reply.after + reply.gap * reply.bytes.length ≤ d.trailerTimeout.getD config.defaultTimeout) :
    Punctual d (asked config line reply) (Schedule.spaced reply.gap reply.after front)
      ⟨reply.after + reply.gap * front.length, b⟩
      (Schedule.spaced reply.gap (reply.after + reply.gap * front.length + reply.gap) rest) := by
  have arrivals : (asked config line reply).stream.arrivals = _ := arrivals_asked spaced
  rw [parts, Schedule.spaced_append] at arrivals
  refine ⟨arrivals, ?_, fun q hq some => ?_, ?_, ?_, ?_⟩
  · rw [List.map_append, Schedule.map_byte_spaced]
    exact header
  -- no earlier end of what comes before is the header
  · rw [Schedule.map_byte_spaced] at hq
    exact first q ((List.mem_inits _ _).mpr hq) some
  -- the header is complete in time
  · exact Nat.le_trans inTime (Nat.le_add_left _ _)
  -- no gap between two bytes is longer than the byte timeout
  · exact Schedule.isChain_spaced steady _ (b :: rest)
  -- what stands behind the payload comes in time
  · intro line' payload rest' split _ m _ a ha
    have mem : a ∈ Schedule.spaced reply.gap (reply.after + reply.gap * front.length) (b :: rest) := by
      refine List.mem_cons_of_mem _ ?_
      rw [split]
      exact List.mem_append_right _ ha
    have all : a ∈ Schedule.spaced reply.gap reply.after reply.bytes := by
      rw [parts, Schedule.spaced_append]
      exact List.mem_append_right _ mem
    exact Nat.le_trans (Nat.le_trans (Schedule.time_le_of_mem_spaced all) soon) (Nat.le_add_left _ _)

end

/-! ## Any pace that is fast enough -/

/-- What a download comes to does not depend on how its answer is delivered: if the answer is punctual, the
    outcome, the window and what is left to read are as if it had been there at once.  The links may be
    polled at any intervals. -/
theorem download_ignores_pace [Device σ] (sent : send d.command e = .ok () f)
    (sent' : send d.command e' = .ok () f') (silent : f.registry.handlers = []) (some : d.header ≠ [])
    (fits : d.header.length ≤ f.window.capacity) (punctual : Punctual d f early last later)
    (atOnce : AtOnce f f') :
    AtModem.outcome (download d e) = AtModem.outcome (download d e') ∧
      (endState (download d e)).window = (endState (download d e')).window ∧
      (endState (download d e)).stream.unread = (endState (download d e')).stream.unread := by
  obtain ⟨early', last', later', punctual', front, byte, behind⟩ := punctual.atOnce atOnce
  obtain ⟨same, left⟩ := course_both ⟨punctual, punctual', front, byte, behind, atOnce.window, silent,
    atOnce.quiet, some, fits⟩ sent sent'
  have limit : e.maxDownload = e'.maxDownload := by
    have kept : f.maxDownload = e.maxDownload := by rw [eq_of_send sent]
    have kept' : f'.maxDownload = e'.maxDownload := by rw [eq_of_send sent']
    rw [← kept, ← kept', atOnce.limit]
  rw [download_eq_course, download_eq_course, same, limit]
  cases (course d e').1.verdict e'.maxDownload d.expected with
  | ok data => exact ⟨rfl, left.window, left.unread⟩
  | error err => exact ⟨rfl, left.window, left.unread⟩

/-- Every byte comes as late as it may, and none when the link is polled; the number, its line and the
    terminator come in pieces. -/
theorem download_ignores_pace_at_deadlines :
    let d : Download := { command := "AT+CFTRANTX", header := Utf8.encode "+DAT: ", headerTimeout := 70 }
    let answer := Utf8.encode "\r\n+DAT: 5\r\nOK\r\nx\r\nOK\r\n"
    let config := { EngineConfig.standard with pollInterval := 7, byteTimeout := 10 }
    let e := facing config d.command ⟨answer, 0, 10⟩
    let e' := facing .standard d.command (.now answer)
    let f := asked config d.command ⟨answer, 0, 10⟩
    let f' := asked .standard d.command (.now answer)
    send d.command e = .ok () f ∧ send d.command e' = .ok () f' ∧ f.registry.handlers = [] ∧
      d.header ≠ [] ∧ d.header.length ≤ f.window.capacity ∧
      Punctual d f (Schedule.spaced 10 0 (Utf8.encode "\r\n+DAT:")) ⟨70, 0x20⟩
        (Schedule.spaced 10 80 (Utf8.encode "5\r\nOK\r\nx\r\nOK\r\n")) ∧
      AtOnce f f' ∧
      AtModem.outcome (download d e) = AtModem.outcome (download d e') ∧
      (endState (download d e)).window = (endState (download d e')).window ∧
      (endState (download d e)).stream.unread = (endState (download d e')).stream.unread := by
  intro d answer config e e' f f'
  have sent : send d.command e = .ok () f := send_facing (by decide)
  have sent' : send d.command e' = .ok () f' := send_facing (by decide)
  have atOnce : AtOnce f f' := atOnce_asked (by decide) rfl rfl
  have punctual : Punctual d f (Schedule.spaced 10 0 (Utf8.encode "\r\n+DAT:")) ⟨70, 0x20⟩
      (Schedule.spaced 10 80 (Utf8.encode "5\r\nOK\r\nx\r\nOK\r\n")) :=
    punctual_asked (by decide) (by decide) (by decide) (by decide) (by decide) (by decide) (by decide)
  exact ⟨sent, sent', rfl, by decide, by decide, punctual, atOnce,
    download_ignores_pace sent sent' rfl (by decide) (by decide) punctual atOnce⟩

/-! ## A header that is never heard -/

/-- A download whose header is not found in what comes in time leaves what comes after its last
    poll.  So what comes late is not lost: it is there for whoever reads next. -/
theorem download_timedOut [Device σ] {here : List Arrival} (sent : send d.command e = .ok () f)
    (silent : f.registry.handlers = []) (arrivals : f.stream.arrivals = here ++ later)
    (inTime : ∀ a ∈ here, a.time ≤ f.now + d.headerTimeout)
    (late : ∀ a ∈ later.head?, f.stream.lastPoll (f.now + d.headerTimeout) < a.time)
    (missed : firstReply (reply f.window.capacity (candidates [d.header] false true)) f.window.bytes
      (here.map Arrival.byte) = none) :
    ∃ g, download d e = .error .timedOut g ∧
      g.window.bytes = (f.window.bytes ++ here.map Arrival.byte).rtake f.window.capacity ∧
      g.stream.unread = later.map Arrival.byte := by
  have start := Waiting.refl (awaits_arrivals f.stream)
  rw [arrivals] at start
  have walk := start.waitUntil silent (fun a ha => Nat.le_trans (inTime a ha) (deadline_le_lastPoll _ _))
    (candidates [d.header] false true)
  simp only [missed] at walk
  obtain ⟨g, waited, w, -⟩ := walk late
  have heard : await [d.header] d.headerTimeout false true f = .ok .timedOut g := await_of_wait waited
  have failed : openDownload d e = .error .timedOut g := (bind_of_ok sent).trans (bind_of_ok heard)
  refine ⟨g, bind_of_error failed, ?_, w.stream.unread⟩
  rw [← w.capacity]
  exact w.window

/-- A download whose header is complete as soon as the command has been sent, and whose length is not begun
    within the byte timeout, gives up there: nothing of what comes later has been read. -/
theorem download_of_no_length [Device σ] {here : List Arrival} (later : List Arrival)
    (sent : send d.command e = .ok () f)
    (silent : f.registry.handlers = []) (arrivals : f.stream.arrivals = here ++ later)
    (there : ∀ a ∈ here, a.time ≤ f.now)
    (found : firstReply (reply f.window.capacity (candidates [d.header] false true)) f.window.bytes
      (here.map Arrival.byte) = some (.pattern 1, []))
    (late : ∀ a ∈ later.head?, f.stream.lastPoll f.stream.byteDeadline < a.time) :
    ∃ g, download d e = .error .timedOut g ∧ g.stream.unread = later.map Arrival.byte := by
  have start := Waiting.refl (awaits_arrivals f.stream)
  rw [arrivals] at start
  have due : ∀ time, ∀ a ∈ here, a.time ≤ f.stream.lastPoll time := fun time a ha =>
    Nat.le_trans (there a ha) (f.stream.now_le_lastPoll time)
  have walk := start.waitUntil silent (due (f.now + d.headerTimeout)) (candidates [d.header] false true)
  simp only [found] at walk
  obtain ⟨taken, back, g, split, nothing, waited, w, polls⟩ := walk
  obtain rfl : back = [] := List.map_eq_nil_iff.mp nothing.symm
  obtain rfl : here = taken := by simpa using split
  -- the clock stands where it stood, so the time for the first byte of the length is what it was
  have still : g.stream.now = f.stream.now := by
    have same := polls f.stream.now (due _)
    rw [lastPoll_of_le (Nat.le_refl _)] at same
    have later := keptByListening_onward.waitUntil (f.now + d.headerTimeout) (candidates [d.header] false true) f
    rw [waited] at later
    exact Nat.le_antisymm (Nat.le_trans (g.stream.now_le_lastPoll _) (Nat.le_of_eq same)) later.now_le
  have deadline : g.stream.byteDeadline = f.stream.byteDeadline := by
    unfold byteDeadline
    rw [still, w.byteTimeout]
  rw [← polls f.stream.byteDeadline (due _), ← deadline] at late
  obtain ⟨t, none, k, -⟩ := w.stream.readBy_late late
  have number : parseLen g.stream = .error .timedOut t :=
    bind_of_error (bind_of_error (parseSign_of_none none))
  have heard : await [d.header] d.headerTimeout false true f = .ok (.pattern 1) g := await_of_wait waited
  have failed : openDownload d e = .error .timedOut { g with stream := t } := by
    refine (bind_of_ok sent).trans ((bind_of_ok heard).trans (bind_of_error ?_))
    unfold onStream
    rw [number]
  exact ⟨_, bind_of_error failed, k.unread⟩

/-- A download for which everything is there: between the header and the length there may be
    anything but digits and minus signs.  A second header may stand there, too, and so what is read
    need not follow the first one directly. -/
theorem download_with_gap [Device σ] {capacity : Nat} {device : σ} {X taken gap payload rest : Bytes}
    (sent : send d.command e = .ok () f)
    (h : Calm capacity device X
      (taken ++ (gap ++ (Decimal.digits payload.length ++ Ascii.lf :: (payload ++ rest)))) f)
    (found : firstReply (reply capacity (candidates [d.header] false true)) X taken = some (.pattern 1, []))
    (other : ∀ b ∈ gap, Decimal.isDigit b = false ∧ b ≠ Ascii.minus)
    (size : payload.length ≤ Decimal.maxInt) (fits : payload.length ≤ e.maxDownload)
    (trailer : d.trailer = .nothing) (expected : d.expected = none) :
    ∃ g, download d e = .ok payload g ∧ g.stream.unread = rest := by
  obtain ⟨f₁, waited, h₁⟩ := h.wait found d.headerTimeout
  -- the number is read as if it stood first
  obtain ⟨u, same, k⟩ := h₁.holds.parseSign_skip other
  obtain ⟨t, read, k⟩ := reads_parseLen_digits size (by decide) _ _ (serves_holds f₁.stream) u k
  have skipped : parseLen f₁.stream = parseLen u := bind_of_eq (bind_of_eq same _) _
  have number : onStream parseLen f₁ = .ok payload.length { f₁ with stream := t } := by
    unfold onStream
    rw [skipped, read]
  obtain ⟨f₃, line, h₃⟩ := (h₁.read k).onStream
    (reads_find (show Ascii.lf ∉ ([] : Bytes) from List.not_mem_nil) _)
  obtain ⟨g, got, h₄⟩ := h₃.onStream (reads_readExact payload rest)
  have heard : await [d.header] d.headerTimeout false true f = .ok (.pattern 1) f₁ := await_of_wait waited
  have opened : openDownload d e = .ok payload.length f₃ :=
    (bind_of_ok sent).trans ((bind_of_ok heard).trans ((bind_of_ok number).trans (bind_of_ok line)))
  have room : ¬f₃.maxDownload < payload.length := by
    have limit := (IgnoresLimit.openDownload d).maxDownload_eq e
    rw [opened] at limit
    have limit : f₃.maxDownload = e.maxDownload := limit
    omega
  have closed : closeDownload d payload.length g = .ok () g := by
    unfold closeDownload finishTrailer
    rw [trailer, expected]
    rfl
  refine ⟨g, (bind_of_ok opened).trans ?_, h₄.stream_unread⟩
  show (if f₃.maxDownload < payload.length then _ else _ : EngineM σ Bytes) f₃ = _
  rw [if_neg room]
  exact (bind_of_ok got).trans (bind_of_ok closed)

/-- An engine that faces the device with one answer, has heard something before and has this still to come. -/
def expecting (config : EngineConfig) (heard : Bytes) (line : String) (reply : Reply) (coming : Schedule) :
    Engine Script :=
  let e := facing config line reply
  { e with
    window := e.window.pushAll heard
    stream := { e.stream with link := { e.stream.link with scheduled := coming } } }

/-- A header of six bytes is missed by a window of four, and an empty one by any window.  Each is complete
    in time, and what comes behind it comes without delay; yet that is heard if it is there at once, and
    otherwise is left.

    A header that the window can hold may have been begun before the command, so that it is complete before
    the header in the answer has come.  The length is looked for behind the first of the two; it is found
    there if all of the answer is there, and else the byte timeout is over before the second header comes,
    though that is in time by itself. -/
theorem unheard_header_depends_on_pace :
    (let line := "AT+CFTRANTX"
      let answer := Utf8.encode "+DAT: 1\nx"
      let config := { EngineConfig.standard with windowCapacity := 4 }
      let e := facing config line ⟨answer, 0, 1⟩
      let e' := facing config line (.now answer)
      let f := asked config line ⟨answer, 0, 1⟩
      let f' := asked config line (.now answer)
      send line e = .ok () f ∧ send line e' = .ok () f' ∧ f.registry.handlers = [] ∧ AtOnce f f' ∧
        ∀ header ∈ [Utf8.encode "+DAT: ", []],
          let d : Download :=
            { command := line, header := header, headerTimeout := 5, trailer := .nothing }
          (∃ early last later, Punctual d f early last later) ∧
            (endState (download d e)).window.bytes = Utf8.encode "AT: " ∧
            (endState (download d e)).stream.unread = Utf8.encode "1\nx" ∧
            (endState (download d e')).window.bytes = Utf8.encode " 1\nx" ∧
            (endState (download d e')).stream.unread = []) ∧
    (let d : Download :=
        { command := "AT+CFTRANTX", header := Utf8.encode "+DAT: ", headerTimeout := 10,
          trailer := .nothing }
      let answer := Utf8.encode "+DAT: 1\nx"
      let config := { EngineConfig.standard with byteTimeout := 1 }
      let coming : Schedule := ⟨answer.map (Arrival.mk 5), by decide⟩
      let e := expecting config (Utf8.encode "+DA") d.command (.now (Utf8.encode "T: ")) coming
      let e' := expecting config (Utf8.encode "+DA") d.command (.now (Utf8.encode "T: " ++ answer)) .empty
      ∃ f f', send d.command e = .ok () f ∧ send d.command e' = .ok () f' ∧
        f.registry.handlers = [] ∧ AtOnce f f' ∧ d.header ≠ [] ∧ d.header.length ≤ f.window.capacity ∧
        -- the answer by itself is punctual
        (∃ early last later, Punctual d { f with window := f.window.clear } early last later) ∧
        AtModem.outcome (download d e) = .error .timedOut ∧
        (endState (download d e)).stream.unread = answer ∧
        AtModem.outcome (download d e') = .ok (Utf8.encode "x") ∧
        (endState (download d e')).stream.unread = []) := by
  constructor
  · -- what the window holds never ends with the header
    intro line answer config e e' f f'
    have sent : send line e = .ok () f := send_facing (by decide)
    have sent' : send line e' = .ok () f' := send_facing (by decide)
    have arrivals : f.stream.arrivals = Schedule.spaced 1 0 (Utf8.encode "+DAT: ") ++
        Schedule.spaced 1 6 (Utf8.encode "1\nx") := by
      rw [arrivals_asked (by decide)]
      decide
    have arrivals' : f'.stream.arrivals = answer.map (Arrival.mk 0) ++ [] := rfl
    have missed : ∀ header ∈ [Utf8.encode "+DAT: ", []],
        firstReply (reply 4 (candidates [header] false true)) [] answer = none := by decide
    have missed' : ∀ header ∈ [Utf8.encode "+DAT: ", []],
        firstReply (reply 4 (candidates [header] false true)) [] (Utf8.encode "+DAT: ") = none := by decide
    have inTime : ∀ a ∈ Schedule.spaced 1 0 (Utf8.encode "+DAT: "), a.time ≤ f.now + 5 := by decide
    have late : ∀ a ∈ (Schedule.spaced 1 6 (Utf8.encode "1\nx")).head?,
        f.stream.lastPoll (f.now + 5) < a.time := by decide
    have inTime' : ∀ a ∈ answer.map (Arrival.mk 0), a.time ≤ f'.now + 5 := by decide
    refine ⟨sent, sent', rfl, atOnce_asked (by decide) rfl rfl, ?_⟩
    intro header among d
    refine ⟨?_, ?_⟩
    · rcases List.mem_pair.mp among with rfl | rfl
      · exact ⟨Schedule.spaced 1 0 (Utf8.encode "+DAT:"), _, _, punctual_asked (by decide) rfl (by decide)
          (by decide) (by decide) (by decide) (by decide)⟩
      · exact ⟨Schedule.spaced 1 0 [], _, _, punctual_asked (by decide) rfl (by decide)
          (by decide) (by decide) (by decide) (by decide)⟩
    · obtain ⟨g, ran, window, unread⟩ := download_timedOut (d := d) sent rfl arrivals inTime late
        (missed' header among)
      obtain ⟨g', ran', window', unread'⟩ := download_timedOut (d := d) sent' rfl arrivals' inTime' (by simp)
        (missed header among)
      rw [ran, endState_error, window, unread, ran', endState_error, window', unread']
      refine ⟨?_, ?_, ?_, ?_⟩ <;> decide
  · -- the header ends with what comes first, and the length stands behind a second one
    intro d answer config coming e e'
    have sent := Calm.send_of_reply (e := e) rfl rfl rfl (by decide)
      (answer_answering d.command (.now (Utf8.encode "T: ")))
    have sent' := Calm.send_of_reply (e := e') rfl rfl rfl (by decide)
      (answer_answering d.command (.now (Utf8.encode "T: " ++ answer)))
    have found : firstReply (reply 64 (candidates [d.header] false true)) (Utf8.encode "+DA")
        (Utf8.encode "T: ") = some (.pattern 1, []) := by decide
    -- the length is still to come when the wait ends
    obtain ⟨g, ran, unread⟩ := download_of_no_length (d := d) coming.arrivals sent rfl rfl (by decide) found
      (by decide)
    -- with all of it there, the second header is passed over on the way to the length
    have calm : Calm 64 (answering d.command (.now (Utf8.encode "T: " ++ answer))) (Utf8.encode "+DA")
        (Utf8.encode "T: " ++ (Utf8.encode "+DAT: " ++ (Decimal.digits (Utf8.encode "x").length ++
          Ascii.lf :: (Utf8.encode "x" ++ [])))) (endState (send d.command e')) := by
      have digits : Decimal.digits (Utf8.encode "x").length = Utf8.encode "1" :=
        (Decimal.encode_toString _).symm.trans (by decide)
      have window := ((Window.endOf_ofCapacity 64).pushAll (Utf8.encode "+DA")).1
      rw [sent', digits]
      exact ⟨rfl, rfl, window, rfl, rfl, by decide, rfl, rfl⟩
    rw [sent'] at calm
    have gap : ∀ b ∈ Utf8.encode "+DAT: ", Decimal.isDigit b = false ∧ b ≠ Ascii.minus :=
      List.forall_iff_forall_mem.mp (by decide)
    obtain ⟨g', ran', unread'⟩ := download_with_gap sent' calm found gap (by decide) (by decide) rfl rfl
    refine ⟨_, _, sent, sent', rfl, ⟨rfl, rfl, rfl, rfl, by decide⟩, by decide, by decide, ?_, ?_, ?_, ?_, ?_⟩
    · have first : ∀ q ∈ (Utf8.encode "T: +DAT:").inits, q ≠ [] → ¬d.header <:+ q := by decide
      refine ⟨(Utf8.encode "T: ").map (Arrival.mk 0) ++ (Utf8.encode "+DAT:").map (Arrival.mk 5), ⟨5, 0x20⟩,
        (Utf8.encode "1\nx").map (Arrival.mk 5), by decide, by decide, fun q hq more => ?_, by decide, by decide, ?_⟩
      · exact first q ((List.mem_inits _ _).mpr hq) more
      · intro line payload rest split _ m hm a ha
        have all : ∀ c ∈ (Utf8.encode "1\nx").map (Arrival.mk 5), c.time = 5 := by decide
        rw [split] at all
        have := all a (List.mem_append_right _ ha)
        have := all m (List.mem_append_left _ (List.mem_of_getLast? hm))
        omega
    · rw [ran]; rfl
    · rw [ran]; exact unread
    · rw [ran']; rfl
    · rw [ran']; exact unread'

end Engine
end AtModem
