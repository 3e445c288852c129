/-
  Listings.

  The answer to a question for a list has a line for each entry and ends with an empty line and a
  terminator.  What a wait looks for has no end of a line inside, so at the end of each line it begins
  afresh, and what it finds in a listing is what it finds in one of the lines (`Linewise`): lines in which
  there is nothing are passed, however many they are (`Linewise.pass`), and so the first line in which there
  is something is reached (`Linewise.reach`), or the end (`Linewise.finish`).

  A terminator is in no line that ends with a byte which cannot stand before the end of one (`PlainLine`).
  So it is enough to say of the lines where the text is that is looked for.
-/
import AtModem.Proofs.Calm

namespace AtModem

/-- What stands before the first of a byte is taken while other bytes come. -/
theorem takeWhile_ne_append {b : UInt8} {xs : Bytes} (h : b ∉ xs) (ys : Bytes) :
    (xs ++ b :: ys).takeWhile (· ≠ b) = xs := by
  rw [List.takeWhile_append_of_pos]
  · simp
  · intro c hc
    rw [decide_eq_true_eq]
    rintro rfl
    exact h hc

/-- A text whose first byte is in a line at the beginning only is found nowhere else in it. -/
theorem eq_of_suffix_of_prefix {b : UInt8} {p q l : Bytes} (once : b ∉ l) (before : q <+: b :: l)
    (found : b :: p <:+ q) : q = b :: p := by
  obtain ⟨front, rfl⟩ := found
  cases front with
  | nil => rfl
  | cons c front =>
    have inside : front ++ b :: p <+: l := (List.cons_prefix_cons.mp before).2
    exact absurd (inside.subset (List.mem_append_right front List.mem_cons_self)) once

namespace Engine

variable {α : Type} {n : Nat} {cs : List (Bytes × MatchOutcome)} {X l p q : Bytes} {o : MatchOutcome}
  {line : α → Bytes} {as : List α}

/-! ## Lines -/

/-- Lines with their ends, one for each entry. -/
def linesOf (line : α → Bytes) (as : List α) : Bytes := as.flatMap fun a => line a ++ crlf

@[simp] theorem linesOf_cons (line : α → Bytes) (a : α) (as : List α) :
    linesOf line (a :: as) = line a ++ crlf ++ linesOf line as := List.flatMap_cons

@[simp] theorem linesOf_append (line : α → Bytes) (as bs : List α) :
    linesOf line (as ++ bs) = linesOf line as ++ linesOf line bs := List.flatMap_append

/-- A listing whose lines are each written behind an end of a line, taken apart at the ends. -/
theorem listing_eq_linesOf (line : α → Bytes) (as : List α) :
    (as.flatMap fun a => crlf ++ line a) ++ Utf8.encode "\r\n\r\nOK\r\n" =
      crlf ++ linesOf line as ++ (crlf ++ okLine) := by
  have tail : Utf8.encode "\r\n\r\nOK\r\n" = crlf ++ (crlf ++ okLine) := by decide
  have shift : (as.flatMap fun a => crlf ++ line a) ++ crlf = crlf ++ linesOf line as := by
    induction as with
    | nil => rfl
    | cons a as ih => rw [List.flatMap_cons, List.append_assoc, ih, linesOf_cons]; simp
  rw [tail, ← List.append_assoc, shift]

/-- A line with its end leaves the wait at the end of a line. -/
theorem lineEnd_append_crlf (X l : Bytes) : LineEnd (X ++ (l ++ crlf)) := by
  have e : l ++ crlf = l ++ [Ascii.cr] ++ [Ascii.lf] := by simp [crlf]
  rw [e]
  exact .append_lf X _

theorem lineEnd_linesOf (h : LineEnd X) (line : α → Bytes) (as : List α) :
    LineEnd (X ++ linesOf line as) := by
  induction as generalizing X with
  | nil => simpa [linesOf] using h
  | cons a as ih =>
    rw [linesOf_cons, ← List.append_assoc]
    exact ih (lineEnd_append_crlf X (line a))

/-- A line with an end of its own, and with no beginning of a terminator at its end.  Such lines can
    be passed one at a time, since nothing that is looked for reaches from one of them into the
    next. -/
structure PlainLine (l : Bytes) : Prop where
  inLine : Ascii.lf ∉ l
  last : ∃ front b, l = front ++ [b] ∧ ∀ c ∈ terminators, b ∉ c.1.dropLast

/-- Nowhere in such a line is there a terminator, since the byte before its end forbids it. -/
theorem PlainLine.not_terminator (plain : PlainLine l) {c : Bytes × MatchOutcome} (hc : c ∈ terminators)
    (before : q <+: l ++ crlf) : ¬c.1 <:+ q := by
  have facts : ∀ c ∈ terminators, Ascii.lf ∈ c.1 ∧ ¬c.1 <:+ crlf := by decide
  obtain ⟨ends, long⟩ := facts c hc
  obtain ⟨front, b, e, other⟩ := plain.last
  intro s
  have text : l ++ crlf = l ++ [Ascii.cr] ++ [Ascii.lf] := by simp [crlf]
  rw [text, List.prefix_concat_iff] at before
  rcases before with rfl | inside
  · -- at its end there would have to be more of it behind the last byte
    rw [← text, e, (Apart.concat (other c hc) front).suffix_append_iff (by decide)] at s
    exact long s
  · -- before its end there is no line feed
    have lf : Ascii.lf ∈ l ++ [Ascii.cr] := inside.subset (s.subset ends)
    rw [List.mem_append] at lf
    rcases lf with lf | lf
    · exact plain.inLine lf
    · exact absurd lf (by decide)

theorem PlainLine.silent (plain : PlainLine l) : firstReply (reply n terminators) [] (l ++ crlf) = none :=
  firstReply_eq_none fun _ hq _ => reply_eq_none fun _ hc _ => plain.not_terminator hc hq

/-! ## Waits that go through lines -/

/-- A wait that begins afresh at the end of each line, passes an empty line and ends with `OK`.  It
    is what looking through the listing of certificates and looking through that of connections have
    in common. -/
structure Linewise (n : Nat) (cs : List (Bytes × MatchOutcome)) : Prop where
  inLine : ∀ c ∈ cs, Ascii.lf ∉ c.1.dropLast
  empty : firstReply (reply n cs) [] crlf = none
  done : firstReply (reply n cs) [] (crlf ++ okLine) = some (.success, [])

/-- What a wait for the terminators finds in lines it finds in one of them. -/
theorem linewise_terminators (room : 7 ≤ n) : Linewise n terminators where
  inLine := by decide
  empty := by
    rw [reply_of_le (by decide) room]
    decide
  done := by
    have complete : Complete (crlf ++ okLine, .success) := by decide
    exact complete.heard room fun _ _ => .nil _

namespace Linewise

variable (w : Linewise n cs)

include w

/-- Lines in which nothing is found are passed, by induction on the entries: at each line's end the
    wait begins afresh. -/
theorem pass (silent : ∀ a ∈ as, firstReply (reply n cs) [] (line a ++ crlf) = none) (h : LineEnd X) :
    firstReply (reply n cs) X (linesOf line as) = none := by
  induction as generalizing X with
  | nil => rfl
  | cons a as ih =>
    have first := silent a List.mem_cons_self
    rw [linesOf_cons, firstReply_append, firstReply_of_apart fun c hc _ => h.apart (w.inLine c hc), first]
    exact ih (fun b hb => silent b (List.mem_cons_of_mem a hb)) (lineEnd_append_crlf X (line a))

/-- What comes behind them is reached as if they had not been there. -/
theorem reach (silent : ∀ a ∈ as, firstReply (reply n cs) [] (line a ++ crlf) = none)
    (apart : ∀ c ∈ cs, Apart c.1 X) {todo : Bytes}
    (found : firstReply (reply n cs) [] todo = some (o, [])) :
    firstReply (reply n cs) X (crlf ++ linesOf line as ++ todo) = some (o, []) := by
  have opened : LineEnd (X ++ crlf) := .append_lf X [Ascii.cr]
  have passed := lineEnd_linesOf opened line as
  rw [List.append_assoc, firstReply_append, firstReply_of_apart fun c hc _ => apart c hc, w.empty]
  simp only
  rw [firstReply_append, w.pass silent opened]
  simp only
  rw [firstReply_of_apart fun c hc _ => passed.apart (w.inLine c hc), found]

/-- The end of a listing is reached through all of its lines, and it is the success. -/
theorem finish (silent : ∀ a ∈ as, firstReply (reply n cs) [] (line a ++ crlf) = none)
    (apart : ∀ c ∈ cs, Apart c.1 X) :
    firstReply (reply n cs) X (crlf ++ linesOf line as ++ (crlf ++ okLine)) = some (.success, []) :=
  w.reach silent apart w.done

end Linewise

/-! ## Looking for one text -/

/-- Where one pattern is not found, it might as well not be looked for. -/
theorem reply_one_of_not (h : p.length ≤ n → ¬p <:+ q) :
    reply n (candidates [p] true true) q = reply n terminators q := by
  show Option.map Prod.snd (List.find? _ ((p, .pattern 1) :: terminators)) = _
  rw [List.find?_cons_of_neg]
  · rfl
  · intro found
    simp only [Bool.and_eq_true, decide_eq_true_eq, List.isSuffixOf_iff_suffix] at found
    exact h found.2.1 found.2.2

/-- A pattern that is found goes before the terminators. -/
theorem reply_one (h : p <:+ q) (fits : p.length ≤ n) (more : p ≠ []) :
    reply n (candidates [p] true true) q = some (.pattern 1) := by
  show Option.map Prod.snd (List.find? _ ((p, .pattern 1) :: terminators)) = _
  rw [List.find?_cons_of_pos]
  · rfl
  · simp [List.isSuffixOf_iff_suffix, h, fits, more]

/-- Where a byte of the text is missing, it is not found, and only the terminators are. -/
theorem firstReply_one_of_not_mem {b : UInt8} {todo : Bytes} (mem : b ∈ p) (missing : b ∉ todo) :
    firstReply (reply n (candidates [p] true true)) [] todo = firstReply (reply n terminators) [] todo :=
  firstReply_congr fun _ hq _ => reply_one_of_not fun _ s => missing (hq.subset (s.subset mem))

/-- A text with a byte that an empty line and a terminator do not have is found within a line or not
    at all. -/
theorem linewise_one {b : UInt8} (room : 7 ≤ n) (mem : b ∈ p) (missing : b ∉ crlf ++ okLine)
    (inLine : Ascii.lf ∉ p.dropLast) : Linewise n (candidates [p] true true) where
  inLine := List.forall_mem_cons.mpr ⟨inLine, by decide⟩
  empty := by
    have before : b ∉ crlf := fun m => missing (List.mem_append_left _ m)
    rw [firstReply_one_of_not_mem mem before, (linewise_terminators room).empty]
  done := by rw [firstReply_one_of_not_mem mem missing, (linewise_terminators room).done]

/-- A line in which the text is not, and which is plain, is passed. -/
theorem PlainLine.silent_one (plain : PlainLine l)
    (missing : ∀ q, q <+: l ++ crlf → p.length ≤ n → ¬p <:+ q) :
    firstReply (reply n (candidates [p] true true)) [] (l ++ crlf) = none := by
  rw [← plain.silent (n := n)]
  exact firstReply_congr fun q hq _ => reply_one_of_not (missing q hq)

/-- A line that begins with the text up to there, which is there for the first time. -/
theorem PlainLine.firstReply_one {head tail : Bytes} (plain : PlainLine (head ++ tail)) (more : p ≠ [])
    (fits : p.length ≤ n) (found : p <:+ head) (first : ∀ q, q <+: head → q ≠ head → ¬p <:+ q) :
    firstReply (reply n (candidates [p] true true)) [] head = some (.pattern 1, []) := by
  have whole : head ≠ [] := by
    rintro rfl
    exact more (List.suffix_nil.mp found)
  refine firstReply_of_whole (fun q hq _ part => ?_) whole (reply_one found fits more)
  have inside : q <+: head ++ tail ++ crlf := by
    rw [List.append_assoc]
    exact hq.trans (List.prefix_append _ _)
  rw [List.nil_append, reply_one_of_not fun _ => first q hq part]
  exact reply_eq_none fun c hc _ => plain.not_terminator hc inside

end Engine
end AtModem
