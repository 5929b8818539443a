import Mathlib.Algebra.Group.Hom.Defs
import Mathlib.Tactic.Common

/-!
# Computations that shift a measure

A computation changes a state, and it may not come to an end. `Shifts` says by how much a
measure of the state has changed when it does. The amounts of computations that follow each
other add up.
-/
namespace EvoRuntime.Library

variable {σ α β G H : Type} [AddMonoid G] [AddMonoid H] {measure : σ → G}
  {m : StateT σ Option α} {amount : G}

def Shifts (measure : σ → G) (amount : G) (m : StateT σ Option α) : Prop :=
  ∀ s a s', m.run s = some (a, s') → measure s' = measure s + amount

namespace Shifts

theorem of_eq {other : G} (shifts : Shifts measure amount m) (same : amount = other) :
    Shifts measure other m := same ▸ shifts

theorem pure {a : α} : Shifts measure 0 (pure a : StateT σ Option α) := by
  intro s b s' ended
  cases ended
  rw [add_zero]

/-- A measure that is computed of another one. -/
theorem map (f : G →+ H) (shifts : Shifts measure amount m) :
    Shifts (fun s => f (measure s)) (f amount) m := by
  intro s a s' ended
  exact (congrArg f (shifts s a s' ended)).trans (map_add f _ _)

/-- A computation that never ends shifts by any amount. -/
theorem failure : Shifts measure amount (failure : StateT σ Option α) := by
  intro s a s' ended
  exact absurd ended.symm (Option.some_ne_none _)

theorem modify {f : σ → σ} (step : ∀ s, measure (f s) = measure s + amount) :
    Shifts measure amount (modify f : StateT σ Option PUnit) := by
  intro s a s' ended
  cases ended
  exact step s

theorem bind {k : α → StateT σ Option β} {later : G} (first : Shifts measure amount m)
    (second : ∀ a, Shifts measure later (k a)) : Shifts measure (amount + later) (m >>= k) := by
  intro s b s'' ended
  rw [StateT.run_bind] at ended
  obtain ⟨⟨a, s'⟩, run, rest⟩ := Option.bind_eq_some_iff.mp ended
  rw [second a s' b s'' rest, first s a s' run, add_assoc]

/-- What follows runs in the state that it has read. -/
theorem of_get {k : σ → StateT σ Option β}
    (next : ∀ s b s', (k s).run s = some (b, s') → measure s' = measure s + amount) :
    Shifts measure amount (MonadState.get >>= k) := next

theorem get_bind {k : σ → StateT σ Option β} (next : ∀ s, Shifts measure amount (k s)) :
    Shifts measure amount (MonadState.get >>= k) := of_get fun s b s' ended => next s s b s' ended

theorem forM {f : α → StateT σ Option PUnit} {xs : List α} (each : ∀ a, Shifts measure 0 (f a)) :
    Shifts measure 0 (forM xs f) := by
  induction xs with
  | nil => exact pure
  | cons a rest ih =>
    rw [List.forM_cons]
    exact (bind (each a) fun _ => ih).of_eq (add_zero 0)

end Shifts

end EvoRuntime.Library
