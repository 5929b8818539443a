import Mathlib.Data.List.Induction
import Mathlib.Tactic.Common

/-!
# Scans for the last component of a text

A scan goes over a text from its end. It passes over the separators that it finds
there, visits the characters of the last component, and stops at the separator in
front of them. What it keeps of all this is up to its state.
-/
namespace EvoRuntime.Library

structure BackwardScan (α σ : Type) where
  isSeparator : α → Bool
  /-- No character of a component has been seen yet. -/
  fresh : σ → Bool
  visit : Nat → α → σ → σ
  stop : Nat → σ → σ

namespace BackwardScan

variable {α σ : Type} (scan : BackwardScan α σ)

/-- The scan of the first `n` characters, from the last one down to `bottom`. -/
def run (charAt : Nat → Option α) (bottom : Nat) : (n : Nat) → σ → σ
  | 0, st => st
  | i + 1, st =>
    if i < bottom then st
    else match charAt i with
      | none => st
      | some c =>
        if scan.isSeparator c then
          if scan.fresh st then run charAt bottom i st else scan.stop i st
        else run charAt bottom i (scan.visit i c st)

/-- The visits of a stretch that starts at `offset`, from its end. -/
def visitAll (offset : Nat) : List α → σ → σ
  | [], st => st
  | c :: rest, st => scan.visit offset c (visitAll (offset + 1) rest st)

theorem visitAll_concat (offset : Nat) (text : List α) (c : α) (st : σ) :
    scan.visitAll offset (text ++ [c]) st =
      scan.visitAll offset text (scan.visit (offset + text.length) c st) := by
  induction text generalizing offset with
  | nil => rfl
  | cons d rest ih =>
    have index : offset + 1 + rest.length = offset + (d :: rest).length := by
      simp only [List.length_cons]
      omega
    rw [List.cons_append, visitAll, ih, index, visitAll]

variable {charAt : Nat → Option α} {path before component separators behind : List α} {bottom : Nat}

theorem run_bottom (st : σ) : scan.run charAt bottom bottom st = st := by
  cases bottom with
  | zero => rfl
  | succ n => simp [run]

theorem run_succ {i : Nat} {c : α} (code : charAt i = some c) (above : bottom ≤ i) (st : σ) :
    scan.run charAt bottom (i + 1) st =
      if scan.isSeparator c then
        if scan.fresh st then scan.run charAt bottom i st else scan.stop i st
      else scan.run charAt bottom i (scan.visit i c st) := by
  rw [run, if_neg (by omega), code]

/-- Separators at the end are passed over. -/
theorem run_separators (codes : ∀ i, charAt i = path[i]?) (text : path = before ++ separators ++ behind)
    (above : bottom ≤ before.length) (separate : ∀ c ∈ separators, scan.isSeparator c = true)
    {st : σ} (only : scan.fresh st = true) :
    scan.run charAt bottom (before.length + separators.length) st =
      scan.run charAt bottom before.length st := by
  induction separators using List.reverseRecOn generalizing behind with
  | nil => rfl
  | append_singleton separators c ih =>
    have code : charAt (before.length + separators.length) = some c := by simp [codes, text]
    have shorter : path = before ++ separators ++ c :: behind := by simp [text]
    rw [List.length_append, List.length_singleton, ← Nat.add_assoc, scan.run_succ code (by omega),
      if_pos (separate c (by simp)), if_pos only]
    exact ih shorter fun d member => separate d (List.mem_append_left _ member)

/-- The characters of a component are visited one after the other. -/
theorem run_visitAll (codes : ∀ i, charAt i = path[i]?) (text : path = before ++ component ++ behind)
    (above : bottom ≤ before.length) (clean : ∀ c ∈ component, scan.isSeparator c = false) (st : σ) :
    scan.run charAt bottom (before.length + component.length) st =
      scan.run charAt bottom before.length (scan.visitAll before.length component st) := by
  induction component using List.reverseRecOn generalizing behind st with
  | nil => rfl
  | append_singleton component c ih =>
    have code : charAt (before.length + component.length) = some c := by simp [codes, text]
    have shorter : path = before ++ component ++ c :: behind := by simp [text]
    rw [List.length_append, List.length_singleton, ← Nat.add_assoc, scan.run_succ code (by omega),
      if_neg (by simp [clean c]), visitAll_concat]
    exact ih shorter (fun d member => clean d (List.mem_append_left _ member)) _

/-- The scan of a text that ends with a component and separators behind it. -/
theorem run_component (codes : ∀ i, charAt i = path[i]?)
    (text : path = before ++ component ++ separators) (above : bottom ≤ before.length)
    (clean : ∀ c ∈ component, scan.isSeparator c = false)
    (separate : ∀ c ∈ separators, scan.isSeparator c = true) {st : σ} (only : scan.fresh st = true) :
    scan.run charAt bottom path.length st =
      scan.run charAt bottom before.length (scan.visitAll before.length component st) := by
  have whole : path = (before ++ component) ++ separators ++ [] := by simp [text]
  have below : bottom ≤ (before ++ component).length := by
    rw [List.length_append]
    omega
  have size : path.length = (before ++ component).length + separators.length := by
    rw [text, List.length_append]
  rw [size, scan.run_separators codes whole below separate only, List.length_append,
    scan.run_visitAll codes text above clean]

/-- The separator in front of the component. -/
theorem run_stop {c : α} (codes : ∀ i, charAt i = path[i]?) (text : path = before ++ c :: behind)
    (above : bottom ≤ before.length) (separates : scan.isSeparator c = true) {st : σ}
    (seen : scan.fresh st = false) :
    scan.run charAt bottom (before.length + 1) st = scan.stop before.length st := by
  have code : charAt before.length = some c := by simp [codes, text]
  rw [scan.run_succ code above, if_pos separates, seen, if_neg Bool.false_ne_true]

end BackwardScan

end EvoRuntime.Library
