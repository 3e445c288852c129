/-
  Command lines with texts of the caller in them.

  A text that is put between quotes must not end the quotation or the line, or the device hears something
  else than was meant.  A command line is clean if the device hears one line and finds each of the
  quoted texts in one parameter of it, between quotes and as it is (`Clean`).  A line is clean if it is
  put together from sound parameters, and a text makes a sound parameter if it can be quoted.
-/
import AtModem.Proofs.Parameters
import AtModem.Proofs.Utf8
import Mathlib.Data.Bool.AllAny

namespace AtModem

/-- Nothing in these characters ends a line.  Both of the characters that could do so are meant, so
    that it does not matter which of them the device goes by. -/
def Unbroken (cs : List Char) : Prop := ∀ c ∈ cs, c ≠ '\r' ∧ c ≠ '\n'

instance (cs : List Char) : Decidable (Unbroken cs) := List.decidableBAll _ cs

/-- Nothing in the bytes of a text ends a line if nothing in its characters does. -/
theorem unbroken_iff (text : String) :
    (Ascii.cr ∉ Utf8.encode text ∧ Ascii.lf ∉ Utf8.encode text) ↔ Unbroken text.toList := by
  rw [Utf8.mem_encode_iff (by decide), Utf8.mem_encode_iff (by decide)]
  constructor
  · rintro ⟨cr, lf⟩ c hc
    constructor
    · rintro rfl
      exact cr hc
    · rintro rfl
      exact lf hc
  · intro h
    exact ⟨fun hc => (h _ hc).1 rfl, fun hc => (h _ hc).2 rfl⟩

/-- A command line in which these texts are quoted is what it was meant to be: the device hears it
    as one line, and finds each of the texts between quotes in a parameter of its own. -/
structure Clean (line : String) (quoted : List String) : Prop where
  /-- The line ends where it is ended and not before. -/
  unbroken : Ascii.cr ∉ Utf8.encode line ∧ Ascii.lf ∉ Utf8.encode line
  /-- Each text is all or part of what stands between the quotes of a parameter, and there is no quote
      in between. -/
  verbatim : ∀ text ∈ quoted, ∃ whole, text.toList <:+: whole.toList ∧ '"' ∉ whole.toList ∧
    inQuotes whole ∈ parameters line

/-! ## Sound parameters -/

theorem unbroken_of_quotable {s : String} (h : quotable s = true) : Unbroken s.toList :=
  fun c hc => (quotable_iff.mp h c hc).2

theorem unquoted_of_quotable {s : String} (h : quotable s = true) : '"' ∉ s.toList :=
  fun hc => (quotable_iff.mp h _ hc).1 rfl

/-- A text may be quoted just if its parts may, since only single characters are looked at. -/
theorem quotable_append (s t : String) : quotable (s ++ t) = (quotable s && quotable t) := by
  simp [quotable]

theorem quotable_toString (n : Nat) : quotable (toString n) = true := by
  rw [quotable_iff]
  intro c hc
  have digit : c.isDigit = true := by
    rw [Nat.toString_eq_ofList_toDigits, String.toList_ofList] at hc
    exact Nat.isDigit_of_mem_toDigits (by decide) (by decide) hc
  refine ⟨?_, ?_, ?_⟩
  · rintro rfl
    exact absurd digit (by decide)
  · rintro rfl
    exact absurd digit (by decide)
  · rintro rfl
    exact absurd digit (by decide)

/-- What a parameter has to be for the line around it to come apart as it was put together.  Such
    parameters can stand side by side: the commas that are put between them are the only ones that
    part the line. -/
structure Sound (parameter : String) : Prop where
  closed : Closed parameter.toList
  unbroken : Unbroken parameter.toList

namespace Sound

/-- A quoted text is a sound parameter, with as many commas in it as it likes: between quotes they
    separate nothing. -/
theorem inQuotes {text : String} (h : quotable text = true) : Sound (AtModem.inQuotes text) where
  closed := .inQuotes (unquoted_of_quotable h)
  unbroken := by
    have inside := unbroken_of_quotable h
    intro c hc
    have place : c = '"' ∨ c ∈ text.toList ∨ c = '"' := by simpa [AtModem.inQuotes] using hc
    rcases place with rfl | hc | rfl
    · decide
    · exact inside c hc
    · decide

theorem toString (n : Nat) : Sound (ToString.toString n) where
  closed := .toString n
  unbroken := unbroken_of_quotable (quotable_toString n)

theorem flag (b : Bool) : Sound (AtModem.flag b) where
  closed := by
    refine .of_plain (List.all_iff_forall_prop.mp ?_)
    cases b with
    | true => decide
    | false => decide
  unbroken := by
    cases b with
    | true => decide
    | false => decide

theorem nil : ∀ f ∈ ([] : List String), Sound f := fun _ h => (nomatch h)

theorem cons {f : String} {fs : List String} (h : Sound f) (hs : ∀ g ∈ fs, Sound g) :
    ∀ g ∈ f :: fs, Sound g :=
  List.forall_mem_cons.mpr ⟨h, hs⟩

end Sound

/-! ## Clean lines -/

/-- A command and its parameters, with commas between them and nowhere else but between quotes. -/
def commandLine (head : String) (fs : List String) : String := head ++ ",".intercalate fs

/-- The characters of a command line, part by part. -/
theorem toList_commandLine (head : String) (fs : List String) :
    (commandLine head fs).toList =
      head.toList ++ List.intercalate [','] (fs.map String.toList) := by
  simp [commandLine]

theorem unbroken_intercalate {fs : List (List Char)} (h : ∀ f ∈ fs, Unbroken f) :
    Unbroken (List.intercalate [','] fs) := by
  induction fs with
  | nil => exact fun _ hc => (nomatch hc)
  | cons f fs ih =>
    have first := h f List.mem_cons_self
    have rest := ih fun g hg => h g (List.mem_cons_of_mem f hg)
    cases fs with
    | nil => simpa [List.intercalate] using first
    | cons g gs =>
      rw [List.intercalate_cons_cons]
      intro c hc
      rcases List.mem_append.mp hc with hc | hc
      · rcases List.mem_append.mp hc with hc | hc
        · exact first c hc
        · rw [List.mem_singleton.mp hc]
          decide
      · exact rest c hc

/-- A line of sound parameters is clean, if its texts are among them or inside one of them.  Every
    command that quotes a text is an instance of this. -/
theorem clean_commandLine {head : String} {fs quoted : List String} (some : fs ≠ [])
    (name : head.toList.dropWhile (· ≠ '=') = ['=']) (plain : Unbroken head.toList)
    (sound : ∀ f ∈ fs, Sound f)
    (texts : ∀ text ∈ quoted, ∃ whole, text.toList <:+: whole.toList ∧ quotable whole = true ∧
      inQuotes whole ∈ fs) : Clean (commandLine head fs) quoted where
  unbroken := by
    rw [unbroken_iff, toList_commandLine]
    intro c hc
    rcases List.mem_append.mp hc with hc | hc
    · exact plain c hc
    · refine unbroken_intercalate (fun f hf => ?_) c hc
      obtain ⟨g, hg, rfl⟩ := List.mem_map.mp hf
      exact (sound g hg).unbroken
  verbatim := by
    have apart : parameters (commandLine head fs) = fs :=
      parameters_of_toList some (fun f hf => (sound f hf).closed) name (toList_commandLine head fs)
    intro text ht
    obtain ⟨whole, part, ok, mem⟩ := texts text ht
    refine ⟨whole, part, unquoted_of_quotable ok, ?_⟩
    rw [apart]
    exact mem

/-- A line with one text in it, which is the whole of a parameter: the case of most commands. -/
theorem clean_commandLine_one {head : String} {fs : List String} {text : String}
    (name : head.toList.dropWhile (· ≠ '=') = ['=']) (plain : Unbroken head.toList)
    (sound : ∀ f ∈ fs, Sound f) (h : quotable text = true) (mem : inQuotes text ∈ fs) :
    Clean (commandLine head fs) [text] :=
  clean_commandLine (List.ne_nil_of_mem mem) name plain sound
    (List.forall_mem_singleton.mpr ⟨text, List.infix_refl _, h, mem⟩)

end AtModem
