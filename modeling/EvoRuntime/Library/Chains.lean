import Mathlib.Data.Finset.Card
import Mathlib.Logic.Relation
import Mathlib.Tactic.Common

/-!
# Chains of links

Every node has at most one link to another node. A question asked at a node is answered
there or passed on along its link. Links without a cycle have a rank that falls along
each of them, so that the question comes to an end.
-/
namespace EvoRuntime.Library.Chains

variable {ν α : Type*}

/-- One node links to another one. -/
def Link (next : ν → Option ν) (x y : ν) : Prop := next x = some y

def Acyclic (next : ν → Option ν) : Prop := ∀ x, ¬Relation.TransGen (Link next) x x

/-- The answer of the nearest node that has one, or nothing when the chain ends before. -/
inductive Nearest (next : ν → Option ν) (answer : ν → Option α) : ν → Option α → Prop
  | here {x : ν} {a : α} (answered : answer x = some a) : Nearest next answer x (some a)
  | last {x : ν} (silent : answer x = none) (ends : next x = none) : Nearest next answer x none
  | link {x y : ν} {result : Option α} (silent : answer x = none) (linked : next x = some y)
    (rest : Nearest next answer y result) : Nearest next answer x result

/-- The question asked at one node is passed on by another one. -/
inductive PassedOver (next : ν → Option ν) (answer : ν → Option α) : ν → ν → Prop
  | here {x : ν} (silent : answer x = none) : PassedOver next answer x x
  | link {x y z : ν} (silent : answer x = none) (linked : next x = some y)
    (rest : PassedOver next answer y z) : PassedOver next answer x z

/-- The search through at most `n` nodes. -/
def follow (next : ν → Option ν) (answer : ν → Option α) : Nat → ν → Option (Option α)
  | 0, _ => none
  | n + 1, x =>
    match answer x with
    | some a => some (some a)
    | none =>
      match next x with
      | none => some none
      | some y => follow next answer n y

variable {next next' : ν → Option ν} {answer answer' : ν → Option α} {x y z : ν} {n : Nat}
  {result : Option α}

/-! ### One step -/

theorem follow_answered {a : α} (answered : answer x = some a) :
    follow next answer (n + 1) x = some (some a) := by
  simp [follow, answered]

theorem follow_last (silent : answer x = none) (ends : next x = none) :
    follow next answer (n + 1) x = some none := by
  simp [follow, silent, ends]

theorem follow_link (silent : answer x = none) (linked : next x = some y) :
    follow next answer (n + 1) x = follow next answer n y := by
  simp [follow, silent, linked]

/-! ### What the search finds -/

/-- A search that comes to an end has found the nearest answer. -/
theorem nearest_of_follow (found : follow next answer n x = some result) :
    Nearest next answer x result := by
  induction n generalizing x with
  | zero => exact nomatch found
  | succ n ih =>
    cases answered : answer x with
    | some a =>
      rw [follow_answered answered, Option.some.injEq] at found
      exact found ▸ .here answered
    | none =>
      cases linked : next x with
      | none =>
        rw [follow_last answered linked, Option.some.injEq] at found
        exact found ▸ .last answered linked
      | some y =>
        rw [follow_link answered linked] at found
        exact .link answered linked (ih found)

/-- An answer is the answer of some node. -/
theorem nearest_answer {a : α} (nearest : Nearest next answer x (some a)) : ∃ y, answer y = some a := by
  generalize found : some a = result at nearest
  induction nearest with
  | @here y b answered => exact ⟨y, answered⟩
  | last => exact nomatch found
  | link silent linked rest ih => exact ih found

/-- The search depends on the nodes that it reaches. -/
theorem follow_congr
    (same : ∀ y, Relation.ReflTransGen (Link next) x y → next' y = next y ∧ answer' y = answer y) :
    follow next' answer' n x = follow next answer n x := by
  induction n generalizing x with
  | zero => rfl
  | succ n ih =>
    obtain ⟨sameNext, sameAnswer⟩ := same x .refl
    simp only [follow, sameNext, sameAnswer]
    cases linked : next x with
    | none => rfl
    | some y =>
      have rest := ih fun z reached => same z (.head linked reached)
      simp only [rest]

/-- The links of the nodes that answer do not matter. -/
theorem follow_congr_passedOver (same : ∀ y, PassedOver next answer x y → next' y = next y) :
    follow next' answer n x = follow next answer n x := by
  induction n generalizing x with
  | zero => rfl
  | succ n ih =>
    cases answered : answer x with
    | some a => rw [follow_answered answered, follow_answered answered]
    | none =>
      have sameNext := same x (.here answered)
      cases linked : next x with
      | none => rw [follow_last answered linked, follow_last answered (sameNext.trans linked)]
      | some y =>
        rw [follow_link answered linked, follow_link answered (sameNext.trans linked)]
        exact ih fun z passed => same z (.link answered linked passed)

/-! ### Links to the node itself -/

/-- Some nodes are linked to themselves in place of their proper link. A question that
such a node should pass on comes to no end. -/
theorem follow_self (proper : ∀ y, next' y = next y ∨ next' y = some y)
    (passed : PassedOver next answer x y) (self : next' y = some y) :
    follow next' answer n x = none := by
  -- However long the search is, it stays at such a node.
  have stuck : ∀ {z : ν} (m : Nat), answer z = none → next' z = some z →
      follow next' answer m z = none := by
    intro z m silent loop
    induction m with
    | zero => rfl
    | succ m ih => rw [follow_link silent loop, ih]
  induction passed generalizing n with
  | here silent => exact stuck n silent self
  | @link x w z silent linked rest ih =>
    rcases proper x with link | loop
    · cases n with
      | zero => rfl
      | succ n => rw [follow_link silent (link.trans linked), ih self]
    · exact stuck n silent loop

/-! ### Links without a cycle -/

/-- The rank counts the nodes with a link that can be reached. -/
theorem Acyclic.exists_rank (acyclic : Acyclic next) {nodes : Finset ν}
    (inside : ∀ x y, next x = some y → x ∈ nodes) :
    ∃ rank : ν → Nat, (∀ x, rank x ≤ nodes.card) ∧
      ∀ x y, next x = some y → rank y < rank x := by
  classical
  -- A node reaches itself, but nothing behind it does.
  refine ⟨fun x => (nodes.filter (Relation.ReflTransGen (Link next) x)).card, ?_, ?_⟩
  · intro x
    exact Finset.card_filter_le _ _
  · intro x y linked
    apply Finset.card_lt_card
    rw [Finset.ssubset_iff_of_subset]
    · refine ⟨x, Finset.mem_filter.mpr ⟨inside x y linked, .refl⟩, ?_⟩
      intro member
      have back := (Finset.mem_filter.mp member).2
      exact acyclic x (Relation.TransGen.head' linked back)
    · intro z member
      obtain ⟨node, reached⟩ := Finset.mem_filter.mp member
      exact Finset.mem_filter.mpr ⟨node, .head linked reached⟩

theorem acyclic_of_rank {rank : ν → Nat} (falls : ∀ x y, next x = some y → rank y < rank x) :
    Acyclic next := by
  have lower : ∀ {x y}, Relation.TransGen (Link next) x y → rank y < rank x := by
    intro x y reached
    induction reached with
    | single linked => exact falls _ _ linked
    | tail _ linked ih => exact (falls _ _ linked).trans ih
  exact fun x cycle => Nat.lt_irrefl _ (lower cycle)

theorem follow_of_rank {rank : ν → Nat} (falls : ∀ x y, next x = some y → rank y < rank x)
    (enough : rank x < n) : ∃ result, follow next answer n x = some result := by
  induction n generalizing x with
  | zero => exact absurd enough (Nat.not_lt_zero _)
  | succ n ih =>
    cases answered : answer x with
    | some a => exact ⟨some a, follow_answered answered⟩
    | none =>
      cases linked : next x with
      | none => exact ⟨none, follow_last answered linked⟩
      | some y =>
        have lower := falls x y linked
        rw [follow_link answered linked]
        exact ih (by omega)

/-- Without a cycle the search through all nodes comes to an end. -/
theorem Acyclic.follow (acyclic : Acyclic next) {nodes : Finset ν}
    (inside : ∀ x y, next x = some y → x ∈ nodes) (x : ν) :
    ∃ result, Chains.follow next answer (nodes.card + 1) x = some result := by
  obtain ⟨rank, bounded, falls⟩ := acyclic.exists_rank inside
  exact follow_of_rank falls (Nat.lt_succ_of_le (bounded x))

end EvoRuntime.Library.Chains
