/-
  A wait that times out loses nothing.

  Two reads with different deadlines poll at the same times and find the same bytes, until the earlier
  one gives up.  The later one then stands where the earlier one stopped: the clock is past the earlier
  deadline by what is left of the poll, and nothing else has happened.  A wait is a chain of reads with
  one deadline, and what it does between two reads does not depend on the deadline.  So a wait that
  timed out is the first part of every longer one, wherever in a terminator, an announcement or a poll
  it stopped, and whatever the handlers have done in the meantime.
-/
import AtModem.Engine.Wait
import AtModem.Link.Script

namespace AtModem

namespace Stream

variable {σ : Type}

/-- A byte that is there in time is there in more time. -/
theorem readBy_of_some {deadline later : Nat} {s t : Stream σ} {b : UInt8} (le : deadline ≤ later)
    (h : s.readBy deadline = (some b, t)) : s.readBy later = (some b, t) := by
  fun_induction readBy deadline s with
  | case1 s c u found =>
    rw [readBy, found]
    exact h
  | case2 s _ _ => cases h
  | case3 s none early ih =>
    rw [readBy, none]
    show (if later ≤ s.now then _ else _) = _
    rw [if_neg (by omega)]
    exact ih h

/-- A read that gives up has only come to where a read with more time goes on.  By induction along
    its polls, each of which the longer read makes as well. -/
theorem readBy_of_none {deadline later : Nat} {s t : Stream σ}
    (h : s.readBy deadline = (none, t)) (le : t.now ≤ later) : s.readBy later = t.readBy later := by
  fun_induction readBy deadline s with
  | case1 s c u found => cases h
  | case2 s _ _ =>
    cases h
    rfl
  | case3 s none early ih =>
    -- the clock has moved since this poll, so the later deadline has not come at it either
    have onward : s.idle.now ≤ t.now := by
      have spec := (readBy_spec deadline s.idle).1
      rwa [h] at spec
    have tick : s.now < s.idle.now := Nat.lt_add_of_pos_right s.step_pos
    rw [readBy, none]
    show (if later ≤ s.now then _ else _) = _
    rw [if_neg (by omega)]
    exact ih h

end Stream

namespace Engine

variable {σ : Type} {deadline later : Nat} {cs : List (Bytes × MatchOutcome)} {e f : Engine σ}

/-- What a wait does depends on the stream only through the next read. -/
theorem waitUntil_of_same_read {t : Stream σ} (h : e.stream.readBy deadline = t.readBy deadline) :
    e.waitUntil deadline cs = { e with stream := t }.waitUntil deadline cs := by
  rcases r : t.readBy deadline with ⟨_ | b, u⟩
  · rw [waitUntil_of_none (h.trans r), waitUntil_of_none r]
  · have stop : { e with stream := t }.stream.readBy deadline = (some b, u) := r
    rw [waitUntil_of_some (h.trans r), waitUntil_of_some stop]

/-- A wait that has timed out has only come to where a wait with more time goes on.  By induction
    along the wait: every byte it took, the longer wait takes at the same poll. -/
theorem waitUntil_of_timedOut (answers : ∀ c ∈ cs, c.2 ≠ .timedOut)
    (h : e.waitUntil deadline cs = (.timedOut, f)) (le : f.now ≤ later) :
    e.waitUntil later cs = f.waitUntil later cs := by
  have reached : deadline ≤ f.now := by
    have late := le_now_of_timedOut answers (congrArg Prod.fst h)
    rwa [h] at late
  fun_induction waitUntil deadline cs e with
  | case1 e t r =>
    -- no byte came: nothing but the stream has changed
    cases h
    exact waitUntil_of_same_read (Stream.readBy_of_none r le)
  | case2 e b t r e' o ho =>
    simp only [classify, Option.map_eq_some_iff] at ho
    obtain ⟨c, hc, rfl⟩ := ho
    exact absurd (congrArg Prod.fst h) (answers c (List.mem_of_find?_eq_some hc))
  | case3 e b t r e' ho ih =>
    -- the byte comes in time for the longer wait as well, which treats it alike
    have longer := Stream.readBy_of_some (Nat.le_trans reached le) r
    have unanswered : classify ({ e with stream := t }.accept b).window cs = none := ho
    rw [waitUntil_of_some longer, unanswered]
    exact ih h

/-- A wait that has timed out, and the wait with the same arguments that follows it, are together one
    wait: it has lasted as long as the first one did when the second one begins. -/
theorem wait_resumes (e : Engine σ) (patterns : List Bytes) (first second : Nat) (ok error : Bool)
    (h : (e.wait patterns first ok error).1 = .timedOut) :
    let f := (e.wait patterns first ok error).2
    e.now ≤ f.now ∧
      f.wait patterns second ok error = e.wait patterns (f.now - e.now + second) ok error := by
  intro f
  have onward : e.now ≤ f.now := (keptByListening_after.waitUntil _ _ e).now_le
  refine ⟨onward, ?_⟩
  have whole : e.wait patterns first ok error = (.timedOut, f) := Prod.ext h rfl
  have same : e.now + (f.now - e.now + second) = f.now + second := by omega
  unfold wait
  rw [same]
  exact (waitUntil_of_timedOut (fun _ => candidate_ne_timedOut) whole
    (Nat.le_add_right _ _)).symm

/-- A terminator of which one half is there and the other comes later; in the middle of it a handler
    has its turn. -/
theorem wait_resumes_in_terminator :
    let late := Schedule.spaced 0 50 (Utf8.encode "K\r\n")
    let link : Link Script :=
      { Link.ofDevice .silent with
        queued := Utf8.encode "O"
        scheduled := ⟨late, Schedule.spaced_ordered 0 50 _⟩ }
    let slots : List Slot := [⟨0, .notification "O" .sslPeerClosed⟩]
    let e := { ofLink .standard link with registry := ⟨1, slots, 1⟩ }
    (e.wait [] 0 true true).1 = .timedOut ∧
      let f := (e.wait [] 0 true true).2
      e.now ≤ f.now ∧ f.wait [] 100 true true = e.wait [] (f.now - e.now + 100) true true := by
  intro late link slots e
  -- the first half is there, and nothing else
  obtain ⟨t, found, gone⟩ : ∃ t, e.stream.tryRead = some (UInt8.ofNat 79, t) ∧ t.tryRead = none := by
    refine ⟨_, rfl, ?_⟩
    rfl
  have half : e.stream.readBy 0 = (some (UInt8.ofNat 79), t) := by rw [Stream.readBy, found]
  have silent : t.readBy 0 = (none, t) := by
    rw [Stream.readBy, gone]
    show (if 0 ≤ t.now then _ else _) = _
    exact if_pos (Nat.zero_le t.now)
  -- a wait without time takes it and stops
  have h : (e.wait [] 0 true true).1 = .timedOut := by
    show (e.waitUntil 0 _).1 = _
    rw [waitUntil_of_some half]
    show ((Engine.accept _ _).waitUntil 0 _).1 = _
    rw [waitUntil_of_none (t := t) silent]
  exact ⟨h, wait_resumes e [] 0 100 true true h⟩

end Engine
end AtModem
