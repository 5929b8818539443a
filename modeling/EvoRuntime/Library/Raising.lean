import Mathlib.Data.List.Basic
import Mathlib.Tactic.Common

/-!
# Computations that may raise an error

A computation changes a state and may raise an error. What it has changed before the
error stays changed. The rules for `forM` follow a list of computations from the first
one on, either to its end or to the error.
-/
namespace EvoRuntime.Library

abbrev Raising (σ ε α : Type) := ExceptT ε (StateM σ) α

namespace Raising

variable {σ ε α β : Type}

/-- The result and the state that a computation leaves behind. -/
def outcome (m : Raising σ ε α) (s : σ) : Except ε α × σ := (StateT.run (ExceptT.run m) s).run

@[simp] theorem outcome_pure (a : α) (s : σ) :
    (pure a : Raising σ ε α).outcome s = (.ok a, s) := rfl

@[simp] theorem outcome_throw (e : ε) (s : σ) :
    (throw e : Raising σ ε α).outcome s = (.error e, s) := rfl

@[simp] theorem outcome_get (s : σ) : (get : Raising σ ε σ).outcome s = (.ok s, s) := rfl

@[simp] theorem outcome_modify (f : σ → σ) (s : σ) :
    (modify f : Raising σ ε PUnit).outcome s = (.ok ⟨⟩, f s) := rfl

/-- A check in front of what follows. -/
def raiseIf (condition : Prop) [Decidable condition] (e : ε) : Raising σ ε PUnit :=
  if condition then throw e else pure ⟨⟩

@[simp] theorem outcome_raiseIf (condition : Prop) [Decidable condition] (e : ε) (s : σ) :
    (raiseIf condition e : Raising σ ε PUnit).outcome s =
      (if condition then .error e else .ok ⟨⟩, s) := by
  unfold raiseIf
  split <;> rfl

theorem outcome_bind (m : Raising σ ε α) (f : α → Raising σ ε β) (s : σ) :
    (m >>= f).outcome s =
      match m.outcome s with
      | (.ok a, s') => (f a).outcome s'
      | (.error e, s') => (.error e, s') := by
  change (match m s with | (r, s') => ExceptT.bindCont f r s' : Except ε β × σ) =
    match m s with
    | (.ok a, s') => f a s'
    | (.error e, s') => (.error e, s')
  obtain ⟨_ | _, s'⟩ := m s <;> rfl

/-- A change with a check in front of it raises the error of the check, before the change. -/
theorem check_raised {condition : σ → Prop} [DecidablePred condition] {e e' : ε} {g : σ → σ}
    {s s' : σ} (raised : (do raiseIf (condition (← get)) e; modify g : Raising σ ε PUnit).outcome s =
      (.error e', s')) : condition s ∧ s' = s := by
  simp only [outcome_bind, outcome_get, outcome_raiseIf, outcome_modify] at raised
  by_cases failed : condition s
  · rw [if_pos failed] at raised
    exact ⟨failed, (congrArg Prod.snd raised).symm⟩
  · rw [if_neg failed] at raised
    exact absurd (congrArg Prod.fst raised) nofun

/-- The error of a computation becomes a value. -/
def attempt (m : Raising σ ε α) : Raising σ ε (Except ε α) :=
  ExceptT.mk (do return .ok (← ExceptT.run m))

@[simp] theorem outcome_attempt (m : Raising σ ε α) (s : σ) :
    (attempt m).outcome s = (.ok (m.outcome s).1, (m.outcome s).2) := rfl

/-- The computation ends without an error. -/
def Completes (m : Raising σ ε α) (s : σ) (a : α) (s' : σ) : Prop := m.outcome s = (.ok a, s')

theorem completes_of_isOk {m : Raising σ ε PUnit} {s : σ} (ok : (m.outcome s).1.isOk = true) :
    m.Completes s ⟨⟩ (m.outcome s).2 := by
  unfold Completes
  cases result : m.outcome s with
  | mk r s' =>
    rw [result] at ok
    cases r with
    | error e => exact Bool.noConfusion ok
    | ok a => rfl

@[simp] theorem pure_completes {a b : α} {s s' : σ} :
    (pure a : Raising σ ε α).Completes s b s' ↔ b = a ∧ s' = s := by
  simp [Completes, eq_comm]

@[simp] theorem throw_completes {e : ε} {b : α} {s s' : σ} :
    ¬(throw e : Raising σ ε α).Completes s b s' := by
  simp [Completes]

@[simp] theorem get_completes {b : σ} {s s' : σ} :
    (get : Raising σ ε σ).Completes s b s' ↔ b = s ∧ s' = s := by
  simp [Completes, eq_comm]

@[simp] theorem modify_completes {g : σ → σ} {b : PUnit} {s s' : σ} :
    (modify g : Raising σ ε PUnit).Completes s b s' ↔ s' = g s := by
  simp [Completes, eq_comm]

@[simp] theorem raiseIf_completes {condition : Prop} [Decidable condition] {e : ε} {b : PUnit}
    {s s' : σ} :
    (raiseIf condition e : Raising σ ε PUnit).Completes s b s' ↔ ¬condition ∧ s' = s := by
  unfold raiseIf
  split <;> simp [*]

@[simp] theorem bind_completes {m : Raising σ ε α} {f : α → Raising σ ε β} {s s'' : σ} {b : β} :
    (m >>= f).Completes s b s'' ↔ ∃ a s', m.Completes s a s' ∧ (f a).Completes s' b s'' := by
  rw [Completes, outcome_bind]
  constructor
  · intro completed
    cases result : m.outcome s with
    | mk r s' =>
      rw [result] at completed
      cases r with
      | error e => exact absurd (congrArg Prod.fst completed) nofun
      | ok a => exact ⟨a, s', result, completed⟩
  · rintro ⟨a, s', first, second⟩
    rw [first]
    exact second

@[simp] theorem map_completes {g : α → β} {m : Raising σ ε α} {s s' : σ} {b : β} :
    (g <$> m).Completes s b s' ↔ ∃ a, m.Completes s a s' ∧ b = g a := by
  rw [← bind_pure_comp, bind_completes]
  constructor
  · rintro ⟨a, middle, first, second⟩
    obtain ⟨rfl, rfl⟩ := pure_completes.mp second
    exact ⟨a, first, rfl⟩
  · rintro ⟨a, first, rfl⟩
    exact ⟨a, s', first, pure_completes.mpr ⟨rfl, rfl⟩⟩

@[simp] theorem attempt_completes {m : Raising σ ε α} {s s' : σ} {result : Except ε α} :
    (attempt m).Completes s result s' ↔ m.outcome s = (result, s') := by
  rw [Completes, outcome_attempt]
  constructor
  · intro attempted
    obtain ⟨same, after⟩ := Prod.mk.inj attempted
    exact Prod.ext (Except.ok.inj same) after
  · intro ran
    rw [ran]

theorem get_bind_completes {k : σ → Raising σ ε β} {s s' : σ} {b : β} :
    ((get : Raising σ ε σ) >>= k).Completes s b s' ↔ (k s).Completes s b s' := Iff.rfl

/-- Either the first part raises the error, or it ends and the rest does. -/
theorem bind_raised {m : Raising σ ε α} {f : α → Raising σ ε β} {s s' : σ} {e : ε} :
    (m >>= f).outcome s = (.error e, s') ↔
      m.outcome s = (.error e, s') ∨ ∃ a t, m.Completes s a t ∧ (f a).outcome t = (.error e, s') := by
  rw [outcome_bind]
  unfold Completes
  cases m.outcome s with
  | mk r t =>
    cases r with
    | error e' => simp
    | ok a => simp

variable {f : β → Raising σ ε PUnit} {xs : List β} {s s' : σ}

/-- The rule for a list of computations that all end: what holds of the elements done so
far is carried on by each element. -/
theorem forM_history (Inv : List β → σ → Prop)
    (step : ∀ done b s s', Inv done s → (f b).Completes s ⟨⟩ s' → Inv (done ++ [b]) s')
    (completed : (forM xs f).Completes s ⟨⟩ s') (before : List β) (start : Inv before s) :
    Inv (before ++ xs) s' := by
  induction xs generalizing before s with
  | nil =>
    rw [List.append_nil]
    have same : s = s' := congrArg Prod.snd completed
    exact same ▸ start
  | cons b rest ih =>
    rw [List.forM_cons] at completed
    obtain ⟨⟨⟩, middle, first, others⟩ := bind_completes.mp completed
    rw [List.append_cons]
    exact ih others _ (step before b s middle start first)

/-- Either the first computation raises the error, or it ends and a later one does. -/
theorem forM_cons_raised {b : β} {rest : List β} {e : ε} :
    (forM (b :: rest) f).outcome s = (.error e, s') ↔
      (f b).outcome s = (.error e, s') ∨
        ∃ t, (f b).Completes s ⟨⟩ t ∧ (forM rest f).outcome t = (.error e, s') := by
  rw [List.forM_cons, outcome_bind]
  unfold Completes
  cases (f b).outcome s with
  | mk r t =>
    cases r with
    | error e' => simp
    | ok a => simp

/-- The computations in front of the one that raises the error have ended, and none behind it
has begun. -/
theorem forM_raised {e : ε} (raised : (forM xs f).outcome s = (.error e, s')) :
    ∃ done b rest t, xs = done ++ b :: rest ∧ (forM done f).Completes s ⟨⟩ t ∧
      (f b).outcome t = (.error e, s') := by
  induction xs generalizing s with
  | nil => cases raised
  | cons b rest ih =>
    rcases forM_cons_raised.mp raised with here | ⟨t, first, later⟩
    · exact ⟨[], b, rest, s, rfl, rfl, here⟩
    · obtain ⟨done, c, behind, u, rfl, others, here⟩ := ih later
      refine ⟨b :: done, c, behind, u, rfl, ?_, here⟩
      rw [List.forM_cons]
      exact bind_completes.mpr ⟨⟨⟩, t, first, others⟩

/-- A part of the state that each computation changes by itself is folded over the list. -/
theorem forM_fold {γ : Type} (view : σ → γ) (act : γ → β → γ)
    (step : ∀ b s s', (f b).Completes s ⟨⟩ s' → view s' = act (view s) b)
    (completed : (forM xs f).Completes s ⟨⟩ s') : view s' = xs.foldl act (view s) := by
  refine forM_history (fun done t => view t = done.foldl act (view s)) ?_ completed [] rfl
  intro done b t t' held run
  rw [step b t t' run, held, List.foldl_append]
  rfl

/-! ### What a computation keeps -/

/-- What holds before the computation holds after it, also when it raises. -/
def Keeps (P : σ → Prop) (m : Raising σ ε α) : Prop := ∀ s, P s → P (m.outcome s).2

namespace Keeps

variable {P : σ → Prop} {m : Raising σ ε α} {k : α → Raising σ ε β}

theorem pure {a : α} : Keeps P (pure a : Raising σ ε α) := fun _ held => held

theorem throw {e : ε} : Keeps P (throw e : Raising σ ε α) := fun _ held => held

theorem get : Keeps P (get : Raising σ ε σ) := fun _ held => held

theorem modify {g : σ → σ} (step : ∀ s, P s → P (g s)) :
    Keeps P (modify g : Raising σ ε PUnit) := step

theorem raiseIf {condition : Prop} [Decidable condition] {e : ε} :
    Keeps P (raiseIf condition e : Raising σ ε PUnit) := by
  intro s held
  rw [outcome_raiseIf]
  exact held

theorem bind (first : Keeps P m) (second : ∀ a, Keeps P (k a)) : Keeps P (m >>= k) := by
  intro s held
  have middle := first s held
  rw [outcome_bind]
  cases result : m.outcome s with
  | mk r s' =>
    rw [result] at middle
    cases r with
    | error e => exact middle
    | ok a => exact second a s' middle

theorem attempt (keeps : Keeps P m) : Keeps P (attempt m) := by
  intro s held
  rw [outcome_attempt]
  exact keeps s held

/-- What follows knows the state that it has read. -/
theorem get_bind {k : σ → Raising σ ε β} (next : ∀ s, P s → Keeps P (k s)) :
    Keeps P ((MonadState.get : Raising σ ε σ) >>= k) :=
  fun s held => next s held s held

theorem forM {f : β → Raising σ ε PUnit} {xs : List β} (each : ∀ b, Keeps P (f b)) :
    Keeps P (forM xs f) := by
  induction xs with
  | nil => exact pure
  | cons b rest ih =>
    rw [List.forM_cons]
    exact bind (each b) fun _ => ih

theorem completes (keeps : Keeps P m) {s s' : σ} {a : α} (completed : m.Completes s a s')
    (held : P s) : P s' := by
  have after := keeps s held
  rwa [completed] at after

end Keeps

/-! ### Lists of computations -/

variable {P : σ → Prop} {f : β → Raising σ ε PUnit} {xs : List β} {s s' : σ} {b : β}

/-- When all of them end, each one of them has ended in some state. -/
theorem forM_each (keeps : ∀ b, Keeps P (f b)) (completed : (forM xs f).Completes s ⟨⟩ s')
    (held : P s) (member : b ∈ xs) : ∃ t t', P t ∧ (f b).Completes t ⟨⟩ t' := by
  induction xs generalizing s with
  | nil => exact absurd member List.not_mem_nil
  | cons c rest ih =>
    rw [List.forM_cons] at completed
    obtain ⟨⟨⟩, middle, first, others⟩ := bind_completes.mp completed
    rcases List.mem_cons.mp member with rfl | later
    · exact ⟨s, middle, held, first⟩
    · exact ih others ((keeps c).completes first held) later

/-- When each one of them ends, all of them end. -/
theorem forM_ends (keeps : ∀ b, Keeps P (f b))
    (each : ∀ b ∈ xs, ∀ t, P t → ∃ t', (f b).Completes t ⟨⟩ t') (held : P s) :
    ∃ s', (forM xs f).Completes s ⟨⟩ s' := by
  induction xs generalizing s with
  | nil => exact ⟨s, rfl⟩
  | cons c rest ih =>
    obtain ⟨middle, first⟩ := each c List.mem_cons_self s held
    obtain ⟨s', others⟩ := ih (fun b member => each b (List.mem_cons_of_mem c member))
      ((keeps c).completes first held)
    rw [List.forM_cons]
    exact ⟨s', bind_completes.mpr ⟨⟨⟩, middle, first, others⟩⟩

/-! ### What a computation does not look at -/

/-- The computation does the same after the state has been changed. -/
def Commutes (f : σ → σ) (m : Raising σ ε α) : Prop :=
  ∀ s, m.outcome (f s) = ((m.outcome s).1, f (m.outcome s).2)

namespace Commutes

variable {f : σ → σ} {m : Raising σ ε α} {k : α → Raising σ ε β}

theorem pure {a : α} : Commutes f (pure a : Raising σ ε α) := fun _ => rfl

theorem throw {e : ε} : Commutes f (throw e : Raising σ ε α) := fun _ => rfl

theorem modify {g : σ → σ} (same : ∀ s, g (f s) = f (g s)) : Commutes f (modify g : Raising σ ε PUnit) := by
  intro s
  rw [outcome_modify, outcome_modify, same]

theorem raiseIf {condition : Prop} [Decidable condition] {e : ε} :
    Commutes f (raiseIf condition e : Raising σ ε PUnit) := by
  intro s
  rw [outcome_raiseIf, outcome_raiseIf]

theorem bind (first : Commutes f m) (second : ∀ a, Commutes f (k a)) : Commutes f (m >>= k) := by
  intro s
  rw [outcome_bind, outcome_bind, first s]
  cases m.outcome s with
  | mk result s' =>
    cases result with
    | error e => rfl
    | ok a => exact second a s'

/-- What is read from the state must not be changed. -/
theorem get_bind {k : σ → Raising σ ε β} (same : ∀ s, k (f s) = k s) (next : ∀ s, Commutes f (k s)) :
    Commutes f ((MonadState.get : Raising σ ε σ) >>= k) := by
  intro s
  change (k (f s)).outcome (f s) = (((k s).outcome s).1, f ((k s).outcome s).2)
  rw [same]
  exact next s s

theorem attempt (commutes : Commutes f m) : Commutes f (attempt m) := by
  intro s
  rw [outcome_attempt, outcome_attempt, commutes s]

theorem forM {g : β → Raising σ ε PUnit} {xs : List β} (each : ∀ b, Commutes f (g b)) :
    Commutes f (forM xs g) := by
  induction xs with
  | nil => exact pure
  | cons b rest ih =>
    rw [List.forM_cons]
    exact bind (each b) fun _ => ih

end Commutes

end Raising

end EvoRuntime.Library
