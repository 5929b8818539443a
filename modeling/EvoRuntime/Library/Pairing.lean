import Mathlib.Data.List.AList
import Mathlib.Logic.Function.Basic

/-!
# Keys paired with addresses

A table tells the address of each key, and another one the key that owns each address.
They are paired if each of them says what the other one says. Pairs are added to both
tables at once, and removed from both at once.
-/
namespace EvoRuntime.Library

variable {κ α β : Type*}

/-- No two keys share an address, and no two addresses share a key. -/
def Paired (entry : κ → Option α) (owner : α → Option κ) : Prop :=
  ∀ k a, entry k = some a ↔ owner a = some k

namespace Paired

variable {entry : κ → Option α} {owner : α → Option κ} {k : κ} {a : α}

theorem exists_owner (paired : Paired entry owner) (k : κ) :
    (∃ a, owner a = some k) ↔ (entry k).isSome := by
  rw [Option.isSome_iff_exists]
  exact exists_congr fun a => (paired k a).symm

variable [DecidableEq κ] [DecidableEq α]

theorem insert (paired : Paired entry owner) (k : κ) (a : α) (fresh : entry k = none)
    (free : owner a = none) :
    Paired (Function.update entry k (some a)) (Function.update owner a (some k)) := by
  intro k' a'
  rw [Function.update_apply, Function.update_apply]
  by_cases key : k' = k
  · rw [if_pos key, key]
    by_cases address : a' = a
    · simp [address]
    · -- the old table has no owner `k`
      rw [if_neg address, ← paired k a', fresh]
      simp [Ne.symm address]
  · rw [if_neg key]
    by_cases address : a' = a
    · -- the old table has no entry `a`
      rw [if_pos address, paired k' a', address, free]
      simp [Ne.symm key]
    · rw [if_neg address]
      exact paired k' a'

theorem erase (paired : Paired entry owner) (found : entry k = some a) :
    Paired (Function.update entry k none) (Function.update owner a none) := by
  intro k' a'
  have owned : owner a = some k := (paired k a).mp found
  rw [Function.update_apply, Function.update_apply]
  by_cases key : k' = k
  · rw [if_pos key, key]
    by_cases address : a' = a
    · simp [address]
    · rw [if_neg address, ← paired k a', found]
      simp [Ne.symm address]
  · rw [if_neg key]
    by_cases address : a' = a
    · rw [if_pos address, paired k' a', address, owned]
      simp [Ne.symm key]
    · rw [if_neg address]
      exact paired k' a'

end Paired

/-! ### Association lists as tables -/

variable [DecidableEq κ]

theorem lookup_insert_eq (table : AList fun _ : κ => β) (k : κ) (b : β) :
    (fun k' => (table.insert k b).lookup k') =
      Function.update (fun k' => table.lookup k') k (some b) := by
  funext k'
  by_cases key : k' = k
  · rw [key, AList.lookup_insert, Function.update_self]
  · rw [AList.lookup_insert_ne key, Function.update_of_ne key]

theorem lookup_erase_eq (table : AList fun _ : κ => β) (k : κ) :
    (fun k' => (table.erase k).lookup k') = Function.update (fun k' => table.lookup k') k none := by
  funext k'
  by_cases key : k' = k
  · rw [key, AList.lookup_erase, Function.update_self]
  · rw [AList.lookup_erase_ne key, Function.update_of_ne key]

/-- The entries of a list are set one after the other. -/
def setEntries {γ : Type*} (g : β → γ) (entries : List (Σ _ : κ, β)) (table : κ → Option γ) :
    κ → Option γ :=
  entries.foldl (fun table entry => Function.update table entry.1 (some (g entry.2))) table

theorem setEntries_apply {γ : Type*} (g : β → γ) {entries : List (Σ _ : κ, β)}
    (different : entries.NodupKeys) (table : κ → Option γ) (k : κ) :
    setEntries g entries table k = ((entries.dlookup k).map g).or (table k) := by
  induction entries generalizing table with
  | nil => rfl
  | cons entry entries ih =>
    obtain ⟨first, b⟩ := entry
    obtain ⟨fresh, others⟩ := List.nodupKeys_cons.mp different
    rw [setEntries, List.foldl_cons, ← setEntries, ih others]
    by_cases key : k = first
    · subst key
      rw [List.dlookup_eq_none.mpr fresh, List.dlookup_cons_eq, Function.update_self]
      rfl
    · have skipped : List.dlookup k (⟨first, b⟩ :: entries) = entries.dlookup k :=
        List.dlookup_cons_ne entries (⟨first, b⟩ : Σ _ : κ, β) key
      rw [Function.update_of_ne key, skipped]

end EvoRuntime.Library
