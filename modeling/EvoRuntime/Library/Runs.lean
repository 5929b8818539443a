import Mathlib.Data.List.Basic
import Mathlib.Tactic.Common

/-!
# Runs of a system

A system takes steps that its surroundings ask for. `Enabled` says what the
surroundings may ask for in a state, and a step may fail. An inductive invariant
holds in every reachable state, and no enabled step fails there.
-/
namespace EvoRuntime.Library

variable {σ α ε : Type*}

structure System (σ α ε : Type*) where
  Initial : σ → Prop
  Enabled : σ → α → Prop
  step : σ → α → Except ε σ

namespace System

variable (system : System σ α ε)

/-- The steps of a run, the last one at the end. -/
inductive Run (s : σ) : List α → σ → Prop
  | start : Run s [] s
  | step {s' s'' : σ} {actions : List α} {action : α} (before : Run s actions s')
      (enabled : system.Enabled s' action) (stepped : system.step s' action = .ok s'') :
      Run s (actions ++ [action]) s''

/-- The actions of a list are enabled one after the other, and none of them fails. -/
def Follows : List α → σ → σ → Prop
  | [], s, s' => s' = s
  | action :: actions, s, s' =>
    ∃ s'', system.Enabled s action ∧ system.step s action = .ok s'' ∧ Follows actions s'' s'

/-- The steps that the actions take one after the other satisfy a relation. -/
def Each (R : σ → α → σ → Prop) : List α → σ → Prop
  | [], _ => True
  | action :: actions, s => ∀ s', system.Enabled s action → system.step s action = .ok s' →
    R s action s' ∧ Each R actions s'

def Reachable (s : σ) : Prop := ∃ s₀ actions, system.Initial s₀ ∧ system.Run s₀ actions s

/-- An invariant under which no enabled step fails. -/
structure Inductive (Inv : σ → Prop) : Prop where
  initial : ∀ s, system.Initial s → Inv s
  preserved : ∀ s action, Inv s → system.Enabled s action →
    ∃ s', system.step s action = .ok s' ∧ Inv s'

/-- Takes the actions one after the other, as long as they are enabled and do not fail. -/
def tryRun [∀ s action, Decidable (system.Enabled s action)] : List α → σ → Option σ
  | [], s => some s
  | action :: actions, s =>
    if system.Enabled s action then
      match system.step s action with
      | .ok s' => tryRun actions s'
      | .error _ => none
    else none

variable {system} {Inv : σ → Prop}

theorem Run.append {s s' s'' : σ} {before after : List α} (run : system.Run s before s')
    (follows : system.Follows after s' s'') : system.Run s (before ++ after) s'' := by
  induction after generalizing before s' with
  | nil =>
    cases follows
    rwa [List.append_nil]
  | cons action actions ih =>
    obtain ⟨middle, enabled, stepped, rest⟩ := follows
    rw [List.append_cons]
    exact ih (run.step enabled stepped) rest

theorem Follows.append {s s' s'' : σ} {before after : List α} (first : system.Follows before s s')
    (second : system.Follows after s' s'') : system.Follows (before ++ after) s s'' := by
  induction before generalizing s with
  | nil =>
    cases first
    exact second
  | cons action actions ih =>
    obtain ⟨middle, enabled, stepped, rest⟩ := first
    exact ⟨middle, enabled, stepped, ih rest⟩

theorem Run.follows {s s' : σ} {actions : List α} (run : system.Run s actions s') :
    system.Follows actions s s' := by
  induction run with
  | start => rfl
  | step before enabled stepped ih => exact ih.append ⟨_, enabled, stepped, rfl⟩

theorem run_of_follows {s s' : σ} {actions : List α} (follows : system.Follows actions s s') :
    system.Run s actions s' :=
  Run.start.append follows

/-- Runs can be found by taking them. -/
theorem run_of_tryRun [∀ s action, Decidable (system.Enabled s action)] {s s' : σ}
    {actions : List α} (taken : system.tryRun actions s = some s') : system.Run s actions s' := by
  refine run_of_follows ?_
  induction actions generalizing s with
  | nil => exact (Option.some.inj taken).symm
  | cons action actions ih =>
    rw [tryRun] at taken
    split at taken
    next enabled =>
      split at taken
      next next stepped => exact ⟨next, enabled, stepped, ih taken⟩
      next => cases taken
    next => cases taken

/-- Two relations that agree on the steps from states with an invariant, which the first
relation keeps. -/
theorem each_congr {R R' : σ → α → σ → Prop}
    (agree : ∀ s action s', Inv s → system.Enabled s action → system.step s action = .ok s' →
      (R s action s' ↔ R' s action s'))
    (keeps : ∀ s action s', Inv s → system.Enabled s action → system.step s action = .ok s' →
      R s action s' → Inv s')
    (actions : List α) {s : σ} (held : Inv s) :
    system.Each R actions s ↔ system.Each R' actions s := by
  induction actions generalizing s with
  | nil => exact Iff.rfl
  | cons action actions ih =>
    apply forall_congr'
    intro s'
    apply forall_congr'
    intro enabled
    apply forall_congr'
    intro stepped
    rw [agree s action s' held enabled stepped]
    apply and_congr_right
    intro related
    have before := (agree s action s' held enabled stepped).mpr related
    exact ih (keeps s action s' held enabled stepped before)

theorem Inductive.run (inductive_ : system.Inductive Inv) {s s' : σ} {actions : List α}
    (run : system.Run s actions s') (held : Inv s) : Inv s' := by
  induction run with
  | start => exact held
  | step before enabled stepped ih =>
    -- The step that was taken is the one that keeps the invariant.
    obtain ⟨s', stepped', inv⟩ := inductive_.preserved _ _ ih enabled
    rw [stepped, Except.ok.injEq] at stepped'
    rwa [stepped']

theorem Inductive.reachable (inductive_ : system.Inductive Inv) {s : σ}
    (reached : system.Reachable s) : Inv s := by
  obtain ⟨s₀, actions, initial, run⟩ := reached
  exact inductive_.run run (inductive_.initial s₀ initial)

theorem Inductive.step_ok (inductive_ : system.Inductive Inv) {s : σ} {action : α}
    (reached : system.Reachable s) (enabled : system.Enabled s action) :
    ∃ s', system.step s action = .ok s' := by
  obtain ⟨s', stepped, -⟩ := inductive_.preserved s action (inductive_.reachable reached) enabled
  exact ⟨s', stepped⟩

theorem Reachable.next {s s' : σ} {action : α} (reached : system.Reachable s)
    (enabled : system.Enabled s action) (stepped : system.step s action = .ok s') :
    system.Reachable s' := by
  obtain ⟨s₀, actions, initial, run⟩ := reached
  exact ⟨s₀, actions ++ [action], initial, run.step enabled stepped⟩

end System

/-! ## Folds -/

/-- What every step keeps is kept by all of them together. -/
theorem foldlM_preserves {step : σ → α → Except ε σ} {Inv : σ → Prop} {actions : List α} {s s' : σ}
    (preserved : ∀ s action s', Inv s → step s action = .ok s' → Inv s')
    (ran : actions.foldlM step s = .ok s') (held : Inv s) : Inv s' := by
  induction actions generalizing s with
  | nil =>
    obtain rfl := Except.ok.inj ran
    exact held
  | cons action actions ih =>
    rw [List.foldlM_cons] at ran
    cases stepped : step s action with
    | error e =>
      rw [stepped] at ran
      cases ran
    | ok next =>
      rw [stepped] at ran
      exact ih ran (preserved s action next held stepped)

theorem bind_ok {β γ : Type} {m : Except ε β} {f : β → Except ε γ} {c : γ}
    (ran : m >>= f = .ok c) : ∃ b, m = .ok b ∧ f b = .ok c := by
  cases m with
  | error e => cases ran
  | ok b => exact ⟨b, rfl, ran⟩

/-- A computation for each element, none of which fails. -/
theorem mapM_ok {β : Type*} {f : α → Except ε β} {g : α → β} {xs : List α}
    (each : ∀ x ∈ xs, f x = .ok (g x)) : xs.mapM f = .ok (xs.map g) := by
  induction xs with
  | nil => rfl
  | cons x xs ih =>
    rw [List.mapM_cons, each x List.mem_cons_self,
      ih fun y member => each y (List.mem_cons_of_mem _ member)]
    rfl

theorem exists_of_mapM_ok {β : Type*} {f : α → Except ε β} {xs : List α} {ys : List β}
    (ran : xs.mapM f = .ok ys) : ∀ x ∈ xs, ∃ y, f x = .ok y := by
  induction xs generalizing ys with
  | nil => exact List.forall_mem_nil _
  | cons x xs ih =>
    rw [List.mapM_cons] at ran
    cases first : f x with
    | error e =>
      rw [first] at ran
      cases ran
    | ok y =>
      cases later : xs.mapM f with
      | error e =>
        rw [first, later] at ran
        cases ran
      | ok ys => exact List.forall_mem_cons.mpr ⟨⟨y, first⟩, ih later⟩

end EvoRuntime.Library
