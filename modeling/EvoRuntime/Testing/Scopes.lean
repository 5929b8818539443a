import EvoRuntime.Testing.BlockRuns

/-!
# What a run leaves behind

The lists of hooks and the indentation are global. A section gives back what it has found,
unless an error leaves its body.

## Main result

`startTestRunner_grows`: after any run there are at least the hooks and the indentation of
before.

## Proof strategy

Only `describe`, `before` and `after` change the scope. An error that leaves the body of a
section leaves the indentation of the body behind, which is never taken back.
-/
namespace EvoRuntime.Testing

open Lua Library Raising

/-- The part of the state that sections exchange. -/
structure Scope where
  reportingMode : ReportingMode
  registeredSetupFunctions : List Hook
  registeredTeardownFunctions : List Hook
  reportIndentationLevel : Nat

def State.scope (s : State) : Scope :=
  ⟨s.reportingMode, s.registeredSetupFunctions, s.registeredTeardownFunctions, s.reportIndentationLevel⟩

/-- There are more hooks, or else a section has not been finished. -/
structure Scope.Grows (c c' : Scope) : Prop where
  reportingMode : c'.reportingMode = c.reportingMode
  more : (c.registeredSetupFunctions <+: c'.registeredSetupFunctions ∧
      c.registeredTeardownFunctions <+: c'.registeredTeardownFunctions ∧
      c'.reportIndentationLevel = c.reportIndentationLevel) ∨
    c.reportIndentationLevel < c'.reportIndentationLevel

theorem Scope.Grows.refl (c : Scope) : c.Grows c :=
  ⟨rfl, .inl ⟨List.prefix_rfl, List.prefix_rfl, rfl⟩⟩

theorem Scope.Grows.trans {c c' c'' : Scope} (first : c.Grows c') (second : c'.Grows c'') : c.Grows c'' := by
  refine ⟨second.reportingMode.trans first.reportingMode, ?_⟩
  rcases first.more with ⟨setup, teardown, level⟩ | deeper
  · rcases second.more with ⟨setup', teardown', level'⟩ | deeper
    · exact .inl ⟨setup.trans setup', teardown.trans teardown', level'.trans level⟩
    · exact .inr (level ▸ deeper)
  · rcases second.more with ⟨-, -, level⟩ | deeper'
    · exact .inr (level ▸ deeper)
    · exact .inr (deeper.trans deeper')

theorem Scope.Grows.ran {α : Type} {m : Action α} {s t : State} {result : Except ErrorValue α}
    (grows : ∀ c : Scope, Keeps (fun s => c.Grows s.scope) m) (ran : m.outcome s = (result, t)) :
    s.scope.Grows t.scope := by
  have after := grows s.scope s (.refl _)
  rwa [ran] at after

variable {host : Surroundings} {s : State} {c : Scope} {label : LuaString}

/-! ## One test -/

/-- Hooks only add to the log, whether one of them raises an error or not. -/
theorem runHooks_keeps {event : Hook → Event} {P : State → Prop}
    (step : ∀ hook s, P s → P { s with log := s.log ++ [event hook] }) (hooks : List Hook) :
    Keeps P (forM hooks (runHook event)) := by
  apply Keeps.forM
  intro hook
  apply Keeps.bind
  · exact .modify (step hook)
  · intro _
    cases hook.error with
    | none => exact .pure
    | some e => exact .throw

theorem runHooks_scope {event : Hook → Event} (hooks : List Hook) :
    Keeps (fun s => s.scope = c) (forM hooks (runHook event)) :=
  runHooks_keeps (fun _ _ same => same) hooks

theorem startSubsection_scope (test : Test) : Keeps (fun s => s.scope = c) (startSubsection host label test) := by
  apply Keeps.get_bind
  intro s _
  by_cases detailed : s.reportingMode = .DETAILED
  · rw [if_neg (not_not.mpr detailed)]
    apply Keeps.get_bind
    intro _ _
    apply Keeps.bind (runHooks_scope _)
    intro _
    apply Keeps.bind
    · apply Keeps.attempt
      intro t same
      rw [runTest_outcome]
      exact same
    · intro result
      apply Keeps.get_bind
      intro _ _
      apply Keeps.bind (runHooks_scope _)
      intro _
      exact finishSubsection_keeps (fun _ _ same => same) (fun _ _ _ same => same) (fun _ _ same => same) result
  · rw [if_pos detailed]
    exact .modify fun _ same => same

/-! ## One block -/

theorem startSection_grows {testFunction : Action Unit} (s : State)
    (body : (entered host label s).scope.Grows (testFunction.outcome (entered host label s)).2.scope) :
    s.scope.Grows ((startSection host label testFunction).outcome s).2.scope := by
  by_cases detailed : s.reportingMode = .DETAILED
  · rw [startSection_outcome detailed]
    cases ran : testFunction.outcome (entered host label s) with
    | mk result t =>
      rw [ran] at body
      have deeper : s.reportIndentationLevel < t.reportIndentationLevel := by
        rcases body.more with ⟨-, -, level⟩ | deeper
        · exact Nat.lt_of_lt_of_eq (Nat.lt_succ_self _) level.symm
        · exact Nat.lt_of_succ_lt deeper
      cases result with
      -- The error skips the end of the section.
      | error e => exact ⟨body.reportingMode, .inr deeper⟩
      | ok a =>
        refine ⟨body.reportingMode, ?_⟩
        rcases Nat.eq_or_lt_of_le (Nat.le_sub_one_of_lt deeper) with level | deeper
        · exact .inl ⟨List.prefix_rfl, List.prefix_rfl, level.symm⟩
        · exact .inr deeper
  · have warned : ((startSection host label testFunction).outcome s).2.scope = s.scope := by
      rw [startSection, outcome_bind, outcome_get]
      dsimp only
      rw [if_pos detailed]
      rfl
    rw [warned]
    exact .refl _

theorem block_grows (block : Block) : Keeps (fun s => c.Grows s.scope) (block.run host) := by
  induction block generalizing c with
  | done => exact .pure
  | raise e => exact .throw
  | before hook rest ih =>
    exact .bind (.modify fun s grown => grown.trans ⟨rfl, .inl ⟨List.prefix_append _ _, List.prefix_rfl, rfl⟩⟩)
      fun _ => ih
  | after hook rest ih =>
    exact .bind (.modify fun s grown => grown.trans ⟨rfl, .inl ⟨List.prefix_rfl, List.prefix_append _ _, rfl⟩⟩)
      fun _ => ih
  | it label test rest ih =>
    apply Keeps.bind
    · intro s grown
      rw [startSubsection_scope test s rfl]
      exact grown
    · exact fun _ => ih
  | describe label body rest bodyGrows restGrows =>
    apply Keeps.bind
    · exact fun s grown => grown.trans (startSection_grows s (bodyGrows _ (.refl _)))
    · exact fun _ => restGrows

/-! ## Files -/

theorem insertDetails_scope (handled : Handled) (path : LuaString) :
    Keeps (fun s => s.scope = c) (insertDetails handled path) := by
  cases handled with
  | details message stackTrace => exact .bind (.modify fun _ same => same) fun _ => .pure
  | nil | failed => exact .throw

theorem failSpecFile_scope (path : LuaString) (e : ErrorValue) :
    Keeps (fun s => s.scope = c) (failSpecFile host path e) := by
  apply Keeps.bind (insertDetails_scope _ _)
  intro message
  apply Keeps.get_bind
  intro s _
  split
  · exact .bind (.modify fun _ same => same) fun _ => .modify fun _ same => same
  · exact .throw

theorem dofile_grows (file : SpecFile) : Keeps (fun s => c.Grows s.scope) (dofile host file) := by
  unfold dofile
  cases file.chunk with
  | ok block => exact block_grows block
  | error e => exact .throw

/-- What keeps the scope keeps all that is known of it. -/
theorem Scope.Grows.keep {α : Type} {m : Action α} (kept : ∀ c, Keeps (fun s => s.scope = c) m) :
    Keeps (fun s => c.Grows s.scope) m := by
  intro s grown
  rw [kept _ s rfl]
  exact grown

theorem executeSpecFile_grows (file : SpecFile) : Keeps (fun s => c.Grows s.scope) (executeSpecFile host file) := by
  unfold executeSpecFile
  refine .bind .raiseIf fun _ => ?_
  refine .bind (.modify fun _ grown => grown) fun _ => ?_
  refine .bind (.attempt (dofile_grows file)) fun result => ?_
  cases result with
  | ok a =>
    apply Keeps.get_bind
    intro s _
    split
    · exact .modify fun _ grown => grown
    · exact .pure
  | error e => exact .keep fun _ => failSpecFile_scope file.path e

theorem startTestRunner_grows (files : List SpecFile) :
    Keeps (fun s => c.Grows s.scope) (startTestRunner host files) := by
  intro s grown
  by_cases none : files = []
  · subst none
    exact grown
  · rw [startTestRunner_outcome none]
    refine Keeps.bind (.forM executeSpecFile_grows) (fun _ => ?_) (begun host files.length s) grown
    exact endTestRunner_keeps (fun _ _ kept => kept) fun _ _ kept => kept

end EvoRuntime.Testing
