import Mathlib.Data.List.Basic
import Mathlib.Tactic.Common

/-!
# Lists joined by a separator

Facts about `[sep].intercalate` for lists of segments: how it distributes over
appended segments, and how many separators it contains. A field without the
separator can be read back from in front of it.
-/
namespace EvoRuntime.Library

variable {α : Type*} {sep : α}

theorem join_cons (segment : List α) {segments : List (List α)} (nonempty : segments ≠ []) :
    [sep].intercalate (segment :: segments) = segment ++ sep :: [sep].intercalate segments := by
  cases segments with
  | nil => exact absurd rfl nonempty
  | cons next rest => rw [List.intercalate_cons_cons]; simp

theorem join_append {xs ys : List (List α)} (left : xs ≠ []) (right : ys ≠ []) :
    [sep].intercalate (xs ++ ys) = [sep].intercalate xs ++ sep :: [sep].intercalate ys := by
  induction xs with
  | nil => exact absurd rfl left
  | cons x rest ih =>
    cases rest with
    | nil => simp [join_cons x right]
    | cons y rest =>
      rw [List.cons_append, join_cons x (by simp), ih (by simp), join_cons x (by simp)]
      simp

theorem join_concat {xs : List (List α)} (nonempty : xs ≠ []) (last : List α) :
    [sep].intercalate (xs ++ [last]) = [sep].intercalate xs ++ sep :: last := by
  rw [join_append nonempty (by simp), List.intercalate_singleton]

theorem join_eq_nil_iff {segments : List (List α)} (nonempty : ∀ s ∈ segments, s ≠ []) :
    [sep].intercalate segments = [] ↔ segments = [] := by
  cases segments with
  | nil => simp
  | cons x rest =>
    have head : x ≠ [] := nonempty x List.mem_cons_self
    cases rest with
    | nil => simp [head]
    | cons y rest => rw [join_cons x (by simp)]; simp

theorem head_join {segment : List α} (segments : List (List α)) (nonempty : segment ≠ []) :
    ([sep].intercalate (segment :: segments)).head? = segment.head? := by
  cases segments with
  | nil => simp
  | cons next rest =>
    rw [join_cons segment (by simp)]
    exact List.head?_append_of_ne_nil _ nonempty

theorem count_join [DecidableEq α] (segment : List α) (segments : List (List α))
    (clean : ∀ s ∈ segment :: segments, sep ∉ s) :
    ([sep].intercalate (segment :: segments)).count sep = segments.length := by
  induction segments generalizing segment with
  | nil => simpa using List.count_eq_zero.mpr (clean segment List.mem_cons_self)
  | cons next rest ih =>
    rw [join_cons segment (by simp), List.count_append, List.count_cons_self,
      ih next fun s member => clean s (List.mem_cons_of_mem _ member),
      List.count_eq_zero.mpr (clean segment List.mem_cons_self)]
    simp

theorem mem_join {c : α} {segments : List (List α)} (member : c ∈ [sep].intercalate segments) :
    c = sep ∨ ∃ s ∈ segments, c ∈ s := by
  induction segments with
  | nil => cases member
  | cons first rest ih =>
    cases rest with
    | nil =>
      rw [List.intercalate_singleton] at member
      exact .inr ⟨first, List.mem_cons_self, member⟩
    | cons next rest =>
      rw [join_cons first (List.cons_ne_nil _ _), List.mem_append, List.mem_cons] at member
      rcases member with inside | same | later
      · exact .inr ⟨first, List.mem_cons_self, inside⟩
      · exact .inl same
      · exact (ih later).imp_right fun ⟨s, listed, inside⟩ =>
          ⟨s, List.mem_cons_of_mem _ listed, inside⟩

theorem delimited_inj {field field' rest rest' : List α} (clean : sep ∉ field) (clean' : sep ∉ field')
    (same : field ++ sep :: rest = field' ++ sep :: rest') : field = field' ∧ rest = rest' := by
  induction field generalizing field' with
  | nil =>
    cases field' with
    | nil => exact ⟨rfl, (List.cons.inj same).2⟩
    | cons a field' => exact absurd (List.mem_cons.mpr (Or.inl (List.cons.inj same).1)) clean'
  | cons a field ih =>
    cases field' with
    -- One field ends where the other goes on: it would contain the separator.
    | nil => exact absurd (List.mem_cons.mpr (Or.inl (List.cons.inj same).1.symm)) clean
    | cons b field' =>
      obtain ⟨head, tail⟩ := List.cons.inj same
      obtain ⟨fields, rests⟩ := ih (fun member => clean (List.mem_cons_of_mem _ member))
        (fun member => clean' (List.mem_cons_of_mem _ member)) tail
      exact ⟨by rw [head, fields], rests⟩

end EvoRuntime.Library
