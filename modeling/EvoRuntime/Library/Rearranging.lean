import Mathlib.Algebra.BigOperators.Group.Finset.Basic
import Mathlib.Data.List.Count

/-!
# Rearranging a list

A list is rearranged when each position takes the element of some other position. Nothing
is lost or doubled if and only if equal elements are used as often as they occur.
-/
namespace EvoRuntime.Library

variable {ι β : Type*} [DecidableEq ι] [DecidableEq β]

theorem count_map_eq_card {positions : List ι} (nodup : positions.Nodup) (value : ι → β) (y : β) :
    (positions.map value).count y = (positions.toFinset.filter (value · = y)).card := by
  have same : positions.toFinset.filter (value · = y) = (positions.filter (value · = y)).toFinset := by
    simp
  rw [same, List.toFinset_card_of_nodup (nodup.filter _), List.count, List.countP_map,
    List.countP_eq_length_filter]
  rfl

/-- The positions with one element, grouped by the position that they take it from. -/
theorem perm_rearranged_iff {positions : List ι} (nodup : positions.Nodup) {source : ι → ι}
    (inside : ∀ p ∈ positions, source p ∈ positions) (value : ι → β) :
    (positions.map (value ∘ source)).Perm (positions.map value) ↔
      ∀ y, ∑ v ∈ positions.toFinset.filter (value · = y), (positions.toFinset.filter (source · = v)).card =
        (positions.toFinset.filter (value · = y)).card := by
  rw [List.perm_iff_count]
  apply forall_congr'
  intro y
  rw [count_map_eq_card nodup, count_map_eq_card nodup]
  have taken : ∀ p ∈ positions.toFinset.filter (fun p => value (source p) = y),
      source p ∈ positions.toFinset.filter (value · = y) := by
    intro p member
    obtain ⟨position, same⟩ := Finset.mem_filter.mp member
    exact Finset.mem_filter.mpr ⟨List.mem_toFinset.mpr (inside p (List.mem_toFinset.mp position)), same⟩
  have grouped : (positions.toFinset.filter (fun p => value (source p) = y)).card =
      ∑ v ∈ positions.toFinset.filter (value · = y), (positions.toFinset.filter (source · = v)).card := by
    rw [Finset.card_eq_sum_card_fiberwise taken]
    apply Finset.sum_congr rfl
    intro v member
    rw [Finset.filter_filter]
    congr 1
    apply Finset.filter_congr
    intro p _
    refine and_iff_right_of_imp fun same => ?_
    rw [same]
    exact (Finset.mem_filter.mp member).2
  rw [← grouped]
  rfl

end EvoRuntime.Library
