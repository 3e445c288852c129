/-
  The parameters of a command line.

  The device takes what stands behind the first `=` of a line apart at the commas; a comma between
  quotes belongs to its parameter, quotes and all.  So a parameter comes through whole if its commas
  are between quotes and its quotes are closed (`Closed`), and a line that is put together from such
  parameters comes apart into them again (`parameters_of_toList`).
-/
import AtModem.Client

namespace AtModem

/-! ## Taking a line apart -/

/-- Puts characters in front of the first of some texts, or makes them the only one. -/
def onFirst (cs : List Char) : List (List Char) → List (List Char)
  | [] => [cs]
  | f :: fs => (cs ++ f) :: fs

/-- The texts between the commas; `quoted` says whether the first one begins between quotes.  It
    goes along the characters, since whether a comma parts two texts depends on all the quotes
    before it. -/
def fields : Bool → List Char → List (List Char)
  | _, [] => [[]]
  | quoted, c :: cs =>
    if c = ',' ∧ quoted = false then [] :: fields false cs
    else onFirst [c] (fields (if c = '"' then !quoted else quoted) cs)

/-- The parameters of a command line: what stands behind its first `=`, apart at the commas that are
    not quoted. -/
def parameters (line : String) : List String :=
  (fields false ((line.toList.dropWhile (· ≠ '=')).drop 1)).map String.ofList

example : parameters "AT+X=1,\"a,b\",22" = ["1", "\"a,b\"", "22"] := by decide

/-! ## What comes through whole -/

/-- Characters in front of characters are in front together. -/
theorem onFirst_onFirst (xs ys : List Char) (fs : List (List Char)) :
    onFirst xs (onFirst ys fs) = onFirst (xs ++ ys) fs := by
  cases fs with
  | nil => rfl
  | cons f fs => exact congrArg (· :: fs) (List.append_assoc xs ys f).symm

/-- Characters that all go into one parameter, and behind which quotes are closed.  Such characters
    can be followed by anything without changing how that is taken apart. -/
def Closed (cs : List Char) : Prop :=
  ∀ rest, fields false (cs ++ rest) = onFirst cs (fields false rest)

namespace Closed

theorem nil : Closed [] := by
  intro rest
  cases h : fields false rest with
  | nil =>
    cases rest with
    | nil => cases h
    | cons c cs =>
      unfold fields at h
      split at h
      · cases h
      · cases k : fields (if c = '"' then !false else false) cs <;> rw [k] at h <;> cases h
  | cons f fs => exact h

/-- A text without commas and quotes is closed: nothing in it ends a parameter. -/
theorem of_plain {cs : List Char} (h : ∀ c ∈ cs, c ≠ ',' ∧ c ≠ '"') : Closed cs := by
  induction cs with
  | nil => exact nil
  | cons c cs ih =>
    intro rest
    obtain ⟨comma, quote⟩ := h c List.mem_cons_self
    have go : fields false (c :: (cs ++ rest)) = onFirst [c] (fields false (cs ++ rest)) := by
      simp [fields, comma, quote]
    rw [List.cons_append, go, ih fun d hd => h d (List.mem_cons_of_mem c hd), onFirst_onFirst]
    rfl

/-- Within quotes all goes into one parameter, up to the closing quote, commas included. -/
theorem fields_quoted {cs : List Char} (h : '"' ∉ cs) (rest : List Char) :
    fields true (cs ++ '"' :: rest) = onFirst (cs ++ ['"']) (fields false rest) := by
  induction cs with
  | nil => simp [fields]
  | cons c cs ih =>
    obtain ⟨other, inside⟩ : '"' ≠ c ∧ '"' ∉ cs := by simpa using h
    have go : fields true (c :: (cs ++ '"' :: rest)) =
        onFirst [c] (fields true (cs ++ '"' :: rest)) := by
      simp [fields, other.symm]
    rw [List.cons_append, go, ih inside, onFirst_onFirst]
    rfl

/-- A text between quotes is closed if it has none inside. -/
theorem inQuotes {s : String} (h : '"' ∉ s.toList) : Closed (AtModem.inQuotes s).toList := by
  intro rest
  have text : (AtModem.inQuotes s).toList = '"' :: (s.toList ++ ['"']) := by
    simp [AtModem.inQuotes]
  have go : fields false ('"' :: (s.toList ++ '"' :: rest)) =
      onFirst ['"'] (fields true (s.toList ++ '"' :: rest)) := by
    simp [fields]
  rw [text, List.cons_append, List.append_assoc]
  show fields false ('"' :: (s.toList ++ '"' :: rest)) = _
  rw [go, fields_quoted h, onFirst_onFirst]
  rfl

theorem toString (n : Nat) : Closed (ToString.toString n).toList := by
  refine of_plain fun c hc => ?_
  have digit : c.isDigit = true := by
    rw [Nat.toString_eq_ofList_toDigits, String.toList_ofList] at hc
    exact Nat.isDigit_of_mem_toDigits (by decide) (by decide) hc
  constructor
  · rintro rfl
    exact absurd digit (by decide)
  · rintro rfl
    exact absurd digit (by decide)

end Closed

/-! ## Putting a line together -/

/-- Behind a closed text the next parameter begins at the comma. -/
theorem fields_closed_comma {cs : List Char} (h : Closed cs) (rest : List Char) :
    fields false (cs ++ ',' :: rest) = cs :: fields false rest := by
  rw [h]
  show onFirst cs (fields false (',' :: rest)) = _
  simp [fields, onFirst]

/-- Closed texts with commas between them come apart into themselves; by induction on them.  So a
    command line that is put together from closed parameters is heard with just these. -/
theorem fields_intercalate {fs : List (List Char)} (some : fs ≠ []) (closed : ∀ f ∈ fs, Closed f) :
    fields false (List.intercalate [','] fs) = fs := by
  induction fs with
  | nil => exact absurd rfl some
  | cons f fs ih =>
    have hf := closed f List.mem_cons_self
    cases fs with
    | nil =>
      have alone := hf []
      simpa [List.intercalate, fields, onFirst] using alone
    | cons g gs =>
      have rest := ih (List.cons_ne_nil g gs) fun x hx => closed x (List.mem_cons_of_mem f hx)
      rw [List.intercalate_cons_cons, List.append_assoc, List.singleton_append,
        fields_closed_comma hf, rest]

/-- A line of closed parameters comes apart into them, whatever its command is called. -/
theorem parameters_of_toList {line head : String} {fs : List String} (some : fs ≠ [])
    (closed : ∀ f ∈ fs, Closed f.toList) (name : head.toList.dropWhile (· ≠ '=') = ['='])
    (text : line.toList = head.toList ++ List.intercalate [','] (fs.map String.toList)) :
    parameters line = fs := by
  have behind : (line.toList.dropWhile (· ≠ '=')).drop 1 =
      List.intercalate [','] (fs.map String.toList) := by
    rw [text, List.dropWhile_append, name]
    rfl
  unfold parameters
  rw [behind, fields_intercalate (by simpa using some) (by simpa using closed)]
  simp

/-- The case of two parameters, as a line is written. -/
theorem parameters_two (head : String) {x y : String}
    (name : head.toList.dropWhile (· ≠ '=') = ['='])
    (hx : Closed x.toList) (hy : Closed y.toList) :
    parameters (head ++ x ++ "," ++ y) = [x, y] :=
  parameters_of_toList (List.cons_ne_nil x [y]) (by simp [hx, hy]) name (by simp)

theorem parameters_three (head : String) {x y z : String}
    (name : head.toList.dropWhile (· ≠ '=') = ['='])
    (hx : Closed x.toList) (hy : Closed y.toList) (hz : Closed z.toList) :
    parameters (head ++ x ++ "," ++ y ++ "," ++ z) = [x, y, z] :=
  parameters_of_toList (List.cons_ne_nil x [y, z]) (by simp [hx, hy, hz]) name (by simp)

end AtModem
