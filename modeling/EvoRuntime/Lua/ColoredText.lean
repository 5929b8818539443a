import EvoRuntime.Lua.Strip

/-!
# Coloured texts

Programs put coloured texts together from strings, by concatenation and by the functions of
`transform`, which may be nested.

## Main result

`strip_shown`: stripping such a text gives the strings that it was put together from.

## Proof strategy

The colour sequences of a text are those with one or with two numbers. Each pass deletes the
sequences of its length and nothing else (`delete_rendered`), so none is left behind the last
one.
-/
namespace EvoRuntime.Lua

open Library

/-- What a text is put together from. Colours are applied while transformations are enabled or
disabled. -/
inductive ColoredText
  | plain (s : LuaString) (clean : escape ∉ s)
  | append (first second : ColoredText)
  | transformed (enabled : Bool) (text : ColoredText) (color : Color)

/-- The text as the program sees it. -/
def ColoredText.shown : ColoredText → LuaString
  | plain s _ => s
  | append first second => first.shown ++ second.shown
  | transformed enabled text color => transformText enabled text.shown color

/-- The strings it was put together from. -/
def ColoredText.text : ColoredText → LuaString
  | plain s _ => s
  | append first second => first.text ++ second.text
  | transformed _ text _ => text.text

/-! ## Sequences of a text -/

/-- The numbers in the code of a colour. -/
def Color.numbers (color : Color) : List LuaString := color.code.dropLast.splitOn semicolon

theorem isColorSequence_code (color : Color) :
    IsColorSequence color.numbers.length (START_SEQUENCE ++ color.code) := by
  have digits : ∀ number ∈ color.numbers, number ≠ [] ∧ ∀ c ∈ number, isDigit c := by
    cases color <;> decide +kernel
  refine ⟨color.numbers, rfl, fun number member => ⟨(digits number member).1, (digits number member).2⟩, ?_⟩
  cases color <;> decide +kernel

theorem numbers_code (color : Color) : color.numbers.length = 1 ∨ color.numbers.length = 2 := by
  cases color <;> decide +kernel

theorem isColorSequence_reset : IsColorSequence 2 RESET_SEQUENCE := by
  refine ⟨[ascii "0", ascii "0"], rfl, ?_, by decide⟩
  simpa using isNumber_zero

/-- A sequence, if those with as many numbers have not been deleted yet. -/
def whenLeft (left : List Nat) (n : Nat) (sequence : LuaString) : LuaString :=
  if n ∈ left then sequence else []

/-- The text when only the sequences of some lengths are left in it. -/
def ColoredText.rendered (left : List Nat) : ColoredText → LuaString
  | plain s _ => s
  | append first second => first.rendered left ++ second.rendered left
  | transformed enabled text color =>
    if enabled then
      whenLeft left color.numbers.length (START_SEQUENCE ++ color.code) ++ text.rendered left ++
        whenLeft left 2 RESET_SEQUENCE
    else text.rendered left

theorem rendered_all {left : List Nat} (one : 1 ∈ left) (two : 2 ∈ left) (text : ColoredText) :
    text.rendered left = text.shown := by
  induction text with
  | plain s clean => rfl
  | append first second ih₁ ih₂ => rw [ColoredText.rendered, ih₁, ih₂, ColoredText.shown]
  | transformed enabled text color ih =>
    have present : color.numbers.length ∈ left := by
      rcases numbers_code color with same | same <;> rwa [same]
    rw [ColoredText.rendered, ColoredText.shown, transformText, ih, whenLeft, whenLeft,
      if_pos present, if_pos two]

theorem rendered_nil (text : ColoredText) : text.rendered [] = text.text := by
  induction text with
  | plain s clean => rfl
  | append first second ih₁ ih₂ => rw [ColoredText.rendered, ih₁, ih₂, ColoredText.text]
  | transformed enabled text color ih =>
    have gone : ∀ n sequence, whenLeft [] n sequence = [] := fun n _ => if_neg List.not_mem_nil
    rw [ColoredText.rendered, ColoredText.text, ih, gone, gone, List.nil_append, List.append_nil,
      ite_self]

/-! ## Passes over a text -/

variable {n k : Nat} {left : List Nat} {sequence : LuaString}

theorem delete_whenLeft (fresh : n + 1 ∉ left) (isSequence : IsColorSequence (k + 1) sequence)
    (t : LuaString) :
    (sequencePass (n + 1)).delete (whenLeft ((n + 1) :: left) (k + 1) sequence ++ t) =
      whenLeft left (k + 1) sequence ++ (sequencePass (n + 1)).delete t := by
  by_cases same : k = n
  · -- This is the pass for the sequence.
    subst same
    rw [whenLeft, whenLeft, if_pos List.mem_cons_self, if_neg fresh, List.nil_append]
    exact (sequencePass (k + 1)).delete_unit (isUnit_sequencePass.mpr isSequence) t
  · have other : ¬(sequencePass (n + 1)).IsUnit sequence :=
      fun isUnit => same (isSequence.unique (isUnit_sequencePass.mp isUnit))
    have bracketed := (sequencePass (k + 1)).bracketed (isUnit_sequencePass.mpr isSequence)
    have listed : k + 1 ∈ (n + 1) :: left ↔ k + 1 ∈ left := by
      rw [List.mem_cons, Nat.succ_inj, or_iff_right same]
    simp only [whenLeft, listed]
    split
    · exact DeletionPass.delete_bracketed bracketed other t
    · rfl

/-- A pass deletes the sequences of its length, and leaves everything else as it is. -/
theorem delete_rendered (fresh : n + 1 ∉ left) (text : ColoredText) (t : LuaString) :
    (sequencePass (n + 1)).delete (text.rendered ((n + 1) :: left) ++ t) =
      text.rendered left ++ (sequencePass (n + 1)).delete t := by
  induction text generalizing t with
  | plain s clean => exact DeletionPass.delete_free clean t
  | append first second ih₁ ih₂ =>
    rw [ColoredText.rendered, ColoredText.rendered, List.append_assoc, ih₁, ih₂, List.append_assoc]
  | transformed enabled text color ih =>
    cases enabled with
    | false => exact ih t
    | true =>
      obtain ⟨k, length⟩ : ∃ k, color.numbers.length = k + 1 := by
        rcases numbers_code color with same | same <;> exact ⟨_, same⟩
      have code := isColorSequence_code color
      rw [length] at code
      simp only [ColoredText.rendered, if_true, List.append_assoc, length]
      rw [delete_whenLeft fresh code, ih, delete_whenLeft fresh isColorSequence_reset]

theorem runPasses_rendered {lengths : List Nat} (different : lengths.Nodup) (positive : 0 ∉ lengths)
    (text : ColoredText) :
    runPasses (lengths.map sequencePass) (text.rendered lengths) = text.rendered [] := by
  induction lengths with
  | nil => rfl
  | cons n lengths ih =>
    obtain ⟨fresh, others⟩ := List.nodup_cons.mp different
    rw [List.mem_cons, not_or] at positive
    obtain ⟨n, rfl⟩ := Nat.exists_eq_succ_of_ne_zero (Ne.symm positive.1)
    have deleted := delete_rendered fresh text []
    rw [List.append_nil, (sequencePass n.succ).delete_nil, List.append_nil] at deleted
    exact (congrArg (runPasses (lengths.map sequencePass)) deleted).trans (ih others positive.2)

/-- Stripping gives back the strings without the colours. -/
theorem strip_shown (text : ColoredText) : strip text.shown = text.text := by
  have whole : text.rendered sequenceLengths = text.shown := rendered_all (by decide) (by decide) text
  rw [← whole, strip_eq, passes, runPasses_rendered (by decide) (by decide), rendered_nil]

end EvoRuntime.Lua
