import Mathlib.Data.List.AList
import Mathlib.Data.List.Sort

/-!
# Visiting a table in some order

A loop over a table visits every entry once, in an order that nothing is known about.
What such a loop computes is fixed by the table alone when at most one entry can answer
the question, or when the entries are sorted afterwards.
-/
namespace EvoRuntime.Library

/-- An order in which the entries of a table are visited. -/
structure Visit where
  order {α : Type} : List α → List α
  perm {α : Type} (entries : List α) : (order entries).Perm entries

namespace Visit

variable {α κ : Type} (visit : Visit)

def asStored : Visit where
  order entries := entries
  perm _ := .refl _

@[simp] theorem mem_order {entries : List α} {entry : α} :
    entry ∈ visit.order entries ↔ entry ∈ entries :=
  (visit.perm entries).mem_iff

/-- The search for an entry that is the only one of its kind. -/
theorem find_eq_some {entries : List α} {p : α → Bool} {entry : α} (member : entry ∈ entries)
    (holds : p entry = true) (only : ∀ other ∈ entries, p other = true → other = entry) :
    (visit.order entries).find? p = some entry := by
  cases found : (visit.order entries).find? p with
  | none =>
    exact absurd holds (List.find?_eq_none.mp found entry (visit.mem_order.mpr member))
  | some other =>
    have otherMember := visit.mem_order.mp (List.mem_of_find?_eq_some found)
    rw [only other otherMember (List.find?_some found)]

theorem find_eq_none {entries : List α} {p : α → Bool}
    (refuted : ∀ entry ∈ entries, p entry = false) : (visit.order entries).find? p = none := by
  rw [List.find?_eq_none]
  intro entry member
  rw [refuted entry (visit.mem_order.mp member)]
  exact Bool.false_ne_true

/-- Sorting forgets the order of the visit. -/
theorem mergeSort_order (r : α → α → Prop) [DecidableRel r] [Std.Total r] [IsTrans α r]
    [Std.Antisymm r] (entries : List α) :
    (visit.order entries).mergeSort (r · ·) = entries.mergeSort (r · ·) := by
  have same : ((visit.order entries).mergeSort (r · ·)).Perm (entries.mergeSort (r · ·)) :=
    ((List.mergeSort_perm _ _).trans (visit.perm entries)).trans (List.mergeSort_perm _ _).symm
  exact same.eq_of_pairwise' (List.pairwise_mergeSort' r _) (List.pairwise_mergeSort' r _)

/-! ### Tables with keys -/

variable {β : Type} [DecidableEq κ]

/-- The entry with a given key. -/
theorem find_key (table : AList fun _ : κ => β) (key : κ) :
    (visit.order table.entries).find? (fun entry => entry.1 = key) =
      (table.lookup key).map (Sigma.mk key) := by
  cases found : table.lookup key with
  | none =>
    apply find_eq_none
    intro entry member
    rw [decide_eq_false_iff_not]
    rintro rfl
    have stored : entry.2 ∈ table.lookup entry.1 := AList.mem_lookup_iff.mpr member
    rw [found] at stored
    exact Option.not_mem_none _ stored
  | some value =>
    have member : ⟨key, value⟩ ∈ table.entries := AList.mem_lookup_iff.mp found
    apply visit.find_eq_some member
    · exact decide_eq_true rfl
    · intro other otherMember sameKey
      obtain ⟨otherKey, otherValue⟩ := other
      obtain rfl : otherKey = key := of_decide_eq_true sameKey
      have stored : otherValue ∈ table.lookup otherKey := AList.mem_lookup_iff.mpr otherMember
      rw [found, Option.mem_some_iff] at stored
      rw [stored]

end Visit

end EvoRuntime.Library
