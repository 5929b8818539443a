import EvoRuntime.Library.Runs

/-!
# Simulations

A system is described by an abstract state and by the events that each of its steps means.
If every single step does to the abstract state what its events do, then every run does.
-/
namespace EvoRuntime.Library

variable {σ α ε τ β : Type*}

namespace System

variable (system : System σ α ε)

/-- The events of the steps that actions take one after the other. -/
def eventsAlong (event : σ → α → List β) : List α → σ → List β
  | [], _ => []
  | action :: actions, s =>
    match system.step s action with
    | .ok s' => event s action ++ eventsAlong event actions s'
    | .error _ => []

/-- Under the invariant every enabled step is what its events are on the abstract state. -/
def Simulates (Inv : σ → Prop) (abstract : σ → τ) (event : σ → α → List β) (after : τ → β → τ) :
    Prop :=
  ∀ s action s', Inv s → system.Enabled s action → system.step s action = .ok s' →
    abstract s' = (event s action).foldl after (abstract s)

variable {system} {Inv : σ → Prop} {abstract : σ → τ} {event : σ → α → List β} {after : τ → β → τ}

/-- The last action of a run comes last in its events. -/
theorem Run.eventsAlong_concat {s s' s'' : σ} {actions : List α} {action : α}
    (run : system.Run s actions s') (stepped : system.step s' action = .ok s'') :
    system.eventsAlong event (actions ++ [action]) s =
      system.eventsAlong event actions s ++ event s' action := by
  have follows := run.follows
  clear run
  induction actions generalizing s with
  | nil =>
    cases follows
    simp [eventsAlong, stepped]
  | cons first actions ih =>
    obtain ⟨next, enabled, taken, rest⟩ := follows
    simp only [List.cons_append, eventsAlong, taken, ih rest, List.append_assoc]

/-- What a property of the states says of the events of each step, it says of all of them. -/
theorem Run.forall_events {P : β → Prop}
    (each : ∀ s action s', Inv s → system.Enabled s action → system.step s action = .ok s' →
      Inv s' ∧ ∀ e ∈ event s action, P e)
    {s s' : σ} {actions : List α} (run : system.Run s actions s') (held : Inv s) :
    Inv s' ∧ ∀ e ∈ system.eventsAlong event actions s, P e := by
  induction run with
  | start => exact ⟨held, List.forall_mem_nil _⟩
  | step before enabled stepped ih =>
    obtain ⟨next, meant⟩ := each _ _ _ ih.1 enabled stepped
    rw [before.eventsAlong_concat stepped]
    exact ⟨next, List.forall_mem_append.mpr ⟨ih.2, meant⟩⟩

/-- Every run does to the abstract state what its events do. -/
theorem Simulates.run (simulates : system.Simulates Inv abstract event after)
    (inductive_ : system.Inductive Inv) {s s' : σ} {actions : List α}
    (run : system.Run s actions s') (held : Inv s) :
    abstract s' = (system.eventsAlong event actions s).foldl after (abstract s) := by
  induction run with
  | start => rfl
  | step before enabled stepped ih =>
    rw [before.eventsAlong_concat stepped, List.foldl_append, ← ih]
    exact simulates _ _ _ (inductive_.run before held) enabled stepped

end System

end EvoRuntime.Library
