/-
  The window as the end of a longer history.

  What went into a window is longer than what it keeps.  A window is the end of a history if it holds as
  much of it as its capacity allows; this stays so when a byte goes into both, and it is all that matters
  for matching: a pattern ends the window if it ends the history and is not too long to be kept.
-/
import AtModem.Engine.Wait
import Mathlib.Data.List.DropRight

namespace AtModem

namespace Window

/-- The window holds the end of `heard`, as much of it as its capacity allows.  All that is ever
    asked of a window is about the end of its bytes, so later proofs need to know nothing else. -/
def EndOf (w : Window) (heard : Bytes) : Prop := w.bytes = heard.rtake w.capacity

theorem endOf_ofCapacity (capacity : Nat) : (ofCapacity capacity).EndOf [] := by
  rw [EndOf, List.rtake_nil]
  rfl

theorem endOf_bytes (w : Window) : w.EndOf w.bytes := by
  have h : w.bytes.length - w.capacity = 0 := by
    have := w.length_le
    rw [bytes, List.length_reverse]
    omega
  rw [EndOf, List.rtake, h, List.drop_zero]

namespace EndOf

/-- A byte that goes into both leaves the window the end of the history. -/
theorem push {w : Window} {heard : Bytes} (h : w.EndOf heard) (b : UInt8) :
    (w.push b).EndOf (heard ++ [b]) := by
  have r : w.recent = heard.reverse.take w.capacity := by
    have k := congrArg List.reverse h
    rwa [bytes, List.rtake_eq_reverse_take_reverse, List.reverse_reverse, List.reverse_reverse] at k
  show ((b :: w.recent).take w.capacity).reverse = (heard ++ [b]).rtake w.capacity
  rw [List.rtake_eq_reverse_take_reverse, List.reverse_append, List.reverse_singleton,
    List.singleton_append, r]
  -- the oldest byte of a full window goes, and the longer history has it in front of the end
  obtain ⟨n, hn⟩ : ∃ n, w.capacity = n + 1 := ⟨w.capacity - 1, by have := w.capacity_pos; omega⟩
  rw [hn, List.take_succ_cons, List.take_succ_cons, List.take_take,
    Nat.min_eq_left (Nat.le_succ n)]

/-- A pattern ends the window if it ends the history and is not too long to be kept.  The window has
    only the end of the history, but for patterns that fit it this is enough. -/
theorem endsWith_iff {w : Window} {heard : Bytes} (h : w.EndOf heard) (p : Bytes) :
    w.endsWith p = true ↔ p ≠ [] ∧ p.length ≤ w.capacity ∧ p <:+ heard := by
  rw [Window.endsWith_iff]
  refine and_congr_right fun _ => ⟨fun s => ?_, fun ⟨fits, s⟩ => ?_⟩
  · have l := s.length_le
    have c := w.length_le
    rw [bytes, List.length_reverse] at l
    rw [h] at s
    exact ⟨Nat.le_trans l c, s.trans (List.drop_suffix _ _)⟩
  · rw [h]
    refine List.suffix_of_suffix_length_le s (List.drop_suffix _ _) ?_
    have l := s.length_le
    rw [List.rtake, List.length_drop]
    omega

theorem pushAll {w : Window} {heard : Bytes} (h : w.EndOf heard) (bs : Bytes) :
    (w.pushAll bs).EndOf (heard ++ bs) ∧ (w.pushAll bs).capacity = w.capacity := by
  induction bs generalizing w heard with
  | nil => exact ⟨by rwa [List.append_nil], rfl⟩
  | cons b bs ih =>
    obtain ⟨ends, capacity⟩ := ih (h.push b)
    rw [List.append_assoc] at ends
    exact ⟨ends, capacity⟩

/-- Two windows of one size at the end of the same history are the same. -/
theorem unique {w w' : Window} {heard : Bytes} (h : w.EndOf heard) (h' : w'.EndOf heard)
    (size : w.capacity = w'.capacity) : w = w' := by
  have bytes : w.bytes = w'.bytes := by rw [h, h', size]
  obtain ⟨capacity, recent, _, _⟩ := w
  obtain ⟨capacity', recent', _, _⟩ := w'
  obtain rfl : recent = recent' := List.reverse_injective bytes
  obtain rfl : capacity = capacity' := size
  rfl

end EndOf

theorem pushAll_concat (w : Window) (bs : Bytes) (b : UInt8) :
    w.pushAll (bs ++ [b]) = (w.pushAll bs).push b := List.foldl_append

end Window

namespace Engine

/-- What a history ends with, of the candidates that a window of this capacity can keep.  It is what
    a window answers, said of the whole history in place of the part that the window has kept. -/
def reply (capacity : Nat) (cs : List (Bytes × MatchOutcome)) (heard : Bytes) : Option MatchOutcome :=
  (cs.find? fun c => !c.1.isEmpty && (c.1.length ≤ capacity && c.1.isSuffixOf heard)).map Prod.snd

/-- What the window answers is what the history answers to a reader who may look back as far as the
    capacity. -/
theorem classify_eq_reply {w : Window} {heard : Bytes} (h : w.EndOf heard)
    (cs : List (Bytes × MatchOutcome)) : classify w cs = reply w.capacity cs heard := by
  have each : ∀ c : Bytes × MatchOutcome, w.endsWith c.1 =
      (!c.1.isEmpty && (decide (c.1.length ≤ w.capacity) && c.1.isSuffixOf heard)) := by
    intro c
    rw [Bool.eq_iff_iff, h.endsWith_iff]
    simp [List.isSuffixOf_iff_suffix]
  unfold classify reply
  simp only [each]

/-- A history that ends with no candidate gets no reply. -/
theorem reply_eq_none {capacity : Nat} {cs : List (Bytes × MatchOutcome)} {heard : Bytes}
    (h : ∀ c ∈ cs, c.1 ≠ [] → ¬c.1 <:+ heard) : reply capacity cs heard = none := by
  unfold reply
  rw [Option.map_eq_none_iff, List.find?_eq_none]
  intro c hc found
  simp only [Bool.and_eq_true, Bool.not_eq_true', List.isEmpty_eq_false_iff,
    List.isSuffixOf_iff_suffix] at found
  exact h c hc found.1 found.2.2

/-- A reply is the outcome of a candidate that the history ends with. -/
theorem suffix_of_reply_eq_some {capacity : Nat} {cs : List (Bytes × MatchOutcome)} {heard : Bytes}
    {o : MatchOutcome} (h : reply capacity cs heard = some o) :
    ∃ c ∈ cs, c.2 = o ∧ c.1 <:+ heard := by
  obtain ⟨c, hc, e⟩ := Option.map_eq_some_iff.mp h
  have found := List.find?_some hc
  simp only [Bool.and_eq_true, List.isSuffixOf_iff_suffix] at found
  exact ⟨c, List.mem_of_find?_eq_some hc, e, found.2.2⟩

theorem exists_of_reply_eq_some {capacity : Nat} {cs : List (Bytes × MatchOutcome)} {heard : Bytes}
    {o : MatchOutcome} (h : reply capacity cs heard = some o) : ∃ c ∈ cs, c.2 = o := by
  obtain ⟨c, hc, e, -⟩ := suffix_of_reply_eq_some h
  exact ⟨c, hc, e⟩

/-- Candidates that say the same of two histories give the same reply. -/
theorem reply_congr {capacity : Nat} {cs : List (Bytes × MatchOutcome)} {X Y : Bytes}
    (h : ∀ c ∈ cs, c.1 ≠ [] → (c.1 <:+ X ↔ c.1 <:+ Y)) : reply capacity cs X = reply capacity cs Y := by
  unfold reply
  rw [← List.head?_filter, ← List.head?_filter, List.filter_congr fun c hc => ?_]
  by_cases empty : c.1 = []
  · simp [empty]
  · have same := h c hc empty
    rw [← List.isSuffixOf_iff_suffix, ← List.isSuffixOf_iff_suffix, ← Bool.eq_iff_iff] at same
    rw [same]

end Engine
end AtModem
