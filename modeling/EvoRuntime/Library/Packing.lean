import Mathlib.Algebra.BigOperators.Group.List.Basic
import Mathlib.Algebra.GroupWithZero.Nat
import Mathlib.Algebra.Order.Monoid.Unbundled.Basic
import Mathlib.Data.List.Basic
import Mathlib.Tactic.Common

/-!
# First come, first served

Items go into a container of limited capacity in the order in which they arrive. An item
that does not fit is left out, and a later and smaller one may still find room.
-/
namespace EvoRuntime.Library

variable {α : Type*} (size : α → Nat) (capacity : Nat)

/-- The items that find room, when some of it is used up already. -/
def packed : Nat → List α → List α
  | _, [] => []
  | used, item :: items =>
    if used + size item ≤ capacity then item :: packed (used + size item) items
    else packed used items

def totalSize (items : List α) : Nat := (items.map size).sum

@[simp] theorem totalSize_nil : totalSize size [] = 0 := rfl

@[simp] theorem totalSize_cons (item : α) (items : List α) :
    totalSize size (item :: items) = size item + totalSize size items := List.sum_cons

variable {size capacity}

theorem packed_fits {items : List α} {used : Nat} (start : used ≤ capacity) :
    used + totalSize size (packed size capacity used items) ≤ capacity := by
  induction items generalizing used with
  | nil => exact start
  | cons item items ih =>
    rw [packed]
    split
    next fits =>
      have rest := ih fits
      rw [totalSize_cons]
      omega
    next => exact ih start

/-- Nothing is left out if there is room for everything. -/
theorem packed_all {items : List α} {used : Nat} (room : used + totalSize size items ≤ capacity) :
    packed size capacity used items = items := by
  induction items generalizing used with
  | nil => rfl
  | cons item items ih =>
    rw [totalSize_cons] at room
    rw [packed, if_pos (by omega), ih (by omega)]

/-- Nothing of any size is packed if and only if no item of any size fits by itself. -/
theorem packed_empty_iff {items : List α} {used : Nat} :
    totalSize size (packed size capacity used items) = 0 ↔
      ∀ item ∈ items, size item = 0 ∨ capacity < used + size item := by
  induction items with
  | nil => simp [packed]
  | cons item items ih =>
    rw [packed, List.forall_mem_cons]
    split
    next fits =>
      by_cases empty : size item = 0
      · simp only [empty, Nat.add_zero, totalSize_cons, Nat.zero_add, true_or, true_and]
        exact ih
      · refine iff_of_false (fun nothing => ?_) (fun nothing => ?_)
        · rw [totalSize_cons] at nothing
          omega
        · have first := nothing.1
          omega
    next full =>
      rw [ih]
      exact (and_iff_right (.inr (Nat.lt_of_not_le full))).symm

end EvoRuntime.Library
