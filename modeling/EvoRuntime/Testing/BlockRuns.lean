import EvoRuntime.Testing.Bdd

/-!
# Runs of spec files

What has been run, and in which order, when the test runner has worked through some files
whose hooks and sections raise no error.

## Main result

`startTestRunner_log`: the log of a run consists of the entries of its files, up to the test
that breaks off the run. No file gives back its hooks.

## Proof strategy

`Block.entries` is the log of a block that begins with some hooks. `Did` says what has been
done from a state on, and `block_run` shows by induction on the block that a run writes its
entries.
-/
namespace EvoRuntime.Testing

open Lua Library Raising

/-! ## Blocks -/

/-- A test between its hooks. -/
def around (befores : List Hook) (test : Test) (afters : List Hook) : List Event :=
  befores.map .before ++ .test test :: afters.map .after

/-- Neither a hook nor the body of a section raises an error. -/
def Block.Calm : Block → Prop
  | .done => True
  | .describe _ body rest => body.Calm ∧ rest.Calm
  | .it _ _ rest => rest.Calm
  | .before hook rest | .after hook rest => hook.error = none ∧ rest.Calm
  | .raise _ => False

/-- The tests of a block, in the order of the source. -/
def Block.tests : Block → List Test
  | .done | .raise _ => []
  | .describe _ body rest => body.tests ++ rest.tests
  | .it _ test rest => test :: rest.tests
  | .before _ rest | .after _ rest => rest.tests

/-- The hooks that the block itself registers. -/
def Block.befores : Block → List Hook
  | .done | .raise _ => []
  | .before hook rest => hook :: rest.befores
  | .describe _ _ rest | .it _ _ rest | .after _ rest => rest.befores

def Block.afters : Block → List Hook
  | .done | .raise _ => []
  | .after hook rest => hook :: rest.afters
  | .describe _ _ rest | .it _ _ rest | .before _ rest => rest.afters

variable (host : Surroundings)

/-- The test raises something for which the error handler has no table. -/
def Test.breaks (test : Test) : Bool :=
  match test.error with
  | none => false
  | some e =>
    match errorHandler host e with
    | .details .. => false
    | .nil | .failed => true

def Block.breaks (block : Block) : Bool := block.tests.any (·.breaks host)

/-- The log of a block up to the test that breaks off the run. -/
def Block.entries (befores afters : List Hook) : Block → List Event
  | .done | .raise _ => []
  | .describe _ body rest =>
    body.entries [] [] ++ if body.breaks host then [] else rest.entries befores afters
  | .it _ test rest =>
    around befores test afters ++ if test.breaks host then [] else rest.entries befores afters
  | .before hook rest => rest.entries (befores ++ [hook]) afters
  | .after hook rest => rest.entries befores (afters ++ [hook])

/-! ## One test -/

variable {host : Surroundings} {s : State} {label : LuaString} {test : Test}

/-- The part of the state that hooks and tests depend on. -/
structure View where
  reportingMode : ReportingMode
  registeredSetupFunctions : List Hook
  registeredTeardownFunctions : List Hook
  log : List Event

def State.view (s : State) : View :=
  ⟨s.reportingMode, s.registeredSetupFunctions, s.registeredTeardownFunctions, s.log⟩

/-- The end of a test writes reports, counters and error details only. -/
theorem finishSubsection_keeps {P : State → Prop}
    (reports : ∀ s report, P s → P { s with reportBuffer := report })
    (counts : ∀ s completed failed, P s → P { s with numCompletedTests := completed, numFailedTests := failed })
    (details : ∀ s errorDetails, P s → P { s with errorDetails := errorDetails })
    (result : Except ErrorValue Unit) : Keeps P (finishSubsection host label result) := by
  have reported (message : LuaString) : Keeps P (report message) := .modify fun s => reports s _
  cases result with
  | ok a =>
    apply Keeps.bind
    · exact .get_bind fun _ _ => reported _
    · exact fun _ => .modify fun s => counts s _ _
  | error e =>
    apply Keeps.bind
    · exact .get_bind fun _ _ => reported _
    · intro _
      apply Keeps.bind
      · exact .modify fun s => counts s _ _
      · intro _
        apply Keeps.get_bind
        intro s' _
        apply Keeps.bind
        · unfold insertDetails
          cases errorHandler host e with
          | details message stackTrace => exact .bind (.modify fun s => details s _) fun _ => .pure
          | nil => exact .throw
          | failed => exact .throw
        · exact fun _ => .pure

theorem finishSubsection_view (v : View) (result : Except ErrorValue Unit) :
    Keeps (fun s => s.view = v) (finishSubsection host label result) :=
  finishSubsection_keeps (fun _ _ same => same) (fun _ _ _ same => same) (fun _ _ same => same) result

theorem finishSubsection_isOk :
    ((finishSubsection host label (test.error.elim (.ok ()) .error)).outcome s).1.isOk =
      !test.breaks host := by
  cases raised : test.error with
  | none =>
    simp only [Test.breaks, raised]
    rfl
  | some e =>
    simp only [Test.breaks, raised]
    cases handled : errorHandler host e with
    | details message stackTrace =>
      simp only [Option.elim, finishSubsection, insertDetails, handled]
      rfl
    | nil =>
      simp only [Option.elim, finishSubsection, insertDetails, handled]
      rfl
    | failed =>
      simp only [Option.elim, finishSubsection, insertDetails, handled]
      rfl

theorem runHooks {hooks : List Hook} (calm : ∀ hook ∈ hooks, hook.error = none)
    (event : Hook → Event) (s : State) :
    (forM hooks (runHook event)).outcome s =
      (.ok (), { s with log := s.log ++ hooks.map event }) := by
  induction hooks generalizing s with
  | nil =>
    rw [List.map_nil, List.append_nil]
    rfl
  | cons hook rest ih =>
    have ran : (runHook event hook).outcome s =
        (.ok (), { s with log := s.log ++ [event hook] }) := by
      have quiet := calm hook List.mem_cons_self
      simp only [runHook, quiet]
      rfl
    rw [List.forM_cons, outcome_bind, ran]
    dsimp only
    rw [ih (fun other member => calm other (List.mem_cons_of_mem _ member)), List.append_assoc]
    rfl

theorem runTest_outcome (s : State) : (runTest test).outcome s =
    (test.error.elim (.ok ()) .error, { s with log := s.log ++ [.test test] }) := by
  unfold runTest
  cases test.error <;> rfl

/-- The hooks of the state raise no error, and the run is in detailed mode. -/
structure Ready (s : State) : Prop where
  detailed : s.reportingMode = .DETAILED
  setup : ∀ hook ∈ s.registeredSetupFunctions, hook.error = none
  teardown : ∀ hook ∈ s.registeredTeardownFunctions, hook.error = none

theorem startSubsection_run (ready : Ready s) :
    ((startSubsection host label test).outcome s).2.view = { s.view with
      log := s.log ++ around s.registeredSetupFunctions test s.registeredTeardownFunctions } ∧
    ((startSubsection host label test).outcome s).1.isOk = !test.breaks host := by
  have run : (startSubsection host label test).outcome s =
      (finishSubsection host label (test.error.elim (.ok ()) .error)).outcome { s with
        log := s.log ++ around s.registeredSetupFunctions test s.registeredTeardownFunctions } := by
    unfold startSubsection
    rw [outcome_bind, outcome_get]
    dsimp only
    rw [if_neg (not_not.mpr ready.detailed), outcome_bind, outcome_get]
    dsimp only
    rw [outcome_bind, runHooks ready.setup]
    dsimp only
    rw [outcome_bind, outcome_attempt, runTest_outcome]
    dsimp only
    rw [outcome_bind, outcome_get]
    dsimp only
    rw [outcome_bind, runHooks ready.teardown]
    dsimp only
    simp only [around, List.append_assoc, List.singleton_append]
  rw [run]
  refine ⟨?_, finishSubsection_isOk⟩
  apply finishSubsection_view
  rfl

/-! ## One block -/

/-- The state in which the body of a section starts. -/
def entered (host : Surroundings) (label : LuaString) (s : State) : State :=
  { s with
    reportBuffer := s.reportBuffer ++ (indentPrefix s ++ color host .bold label) ++ ascii "\n"
    registeredSetupFunctions := []
    registeredTeardownFunctions := []
    reportIndentationLevel := s.reportIndentationLevel + 1 }

theorem startSection_outcome (detailed : s.reportingMode = .DETAILED) (testFunction : Action Unit) :
    (startSection host label testFunction).outcome s =
      match testFunction.outcome (entered host label s) with
      | (.ok _, s') => (.ok (), { s' with
          registeredSetupFunctions := s.registeredSetupFunctions
          registeredTeardownFunctions := s.registeredTeardownFunctions
          reportIndentationLevel := s'.reportIndentationLevel - 1 })
      | (.error e, s') => (.error e, s') := by
  unfold startSection
  rw [outcome_bind, outcome_get]
  dsimp only
  have reported : (reportSection host label).outcome s = (.ok (), { s with
      reportBuffer := s.reportBuffer ++ (indentPrefix s ++ color host .bold label) ++ ascii "\n" }) :=
    rfl
  rw [if_neg (not_not.mpr detailed), outcome_bind, reported]
  dsimp only
  rw [outcome_bind, outcome_modify]
  change (testFunction >>= fun _ => modify _).outcome (entered host label s) = _
  rw [outcome_bind]
  cases testFunction.outcome (entered host label s) with
  | mk result s' => cases result <;> rfl

/-- What has been done from a state on: what has been run, whether the run has been broken off,
and which hooks have been registered if not. -/
structure Did (s : State) (r : Except ErrorValue Unit × State) (entries : List Event) (broken : Bool)
    (befores afters : List Hook) : Prop where
  log : r.2.log = s.log ++ entries
  detailed : r.2.reportingMode = .DETAILED
  isOk : r.1.isOk = !broken
  setup : broken = false → r.2.registeredSetupFunctions = s.registeredSetupFunctions ++ befores
  teardown : broken = false →
    r.2.registeredTeardownFunctions = s.registeredTeardownFunctions ++ afters

variable {entries entries' : List Event} {broken broken' : Bool}
  {befores befores' afters afters' : List Hook}

theorem Did.bind {first next : Action Unit}
    (did : Did s (first.outcome s) entries broken befores afters)
    (later : ∀ s' : State, broken = false → s'.reportingMode = .DETAILED →
      s'.registeredSetupFunctions = s.registeredSetupFunctions ++ befores →
      s'.registeredTeardownFunctions = s.registeredTeardownFunctions ++ afters →
      Did s' (next.outcome s') entries' broken' befores' afters') :
    Did s ((first >>= fun _ => next).outcome s) (entries ++ if broken then [] else entries')
      (broken || broken') (befores ++ befores') (afters ++ afters') := by
  rw [outcome_bind]
  obtain ⟨log, detailed, isOk, setup, teardown⟩ := did
  cases result : first.outcome s with
  | mk r s' =>
    rw [result] at log detailed isOk setup teardown
    cases r with
    | error e =>
      -- The error ends the run, and with it the log.
      obtain rfl : broken = true := by simpa using (show (!broken) = false from isOk.symm)
      refine ⟨?_, detailed, rfl, ?_, ?_⟩
      · rw [if_pos rfl, List.append_nil]
        exact log
      · exact fun whole => absurd whole.symm Bool.false_ne_true
      · exact fun whole => absurd whole.symm Bool.false_ne_true
    | ok a =>
      obtain rfl : broken = false := by simpa using (show (!broken) = true from isOk.symm)
      have did := later s' rfl detailed (setup rfl) (teardown rfl)
      have log : s'.log = s.log ++ entries := log
      have setup : s'.registeredSetupFunctions = s.registeredSetupFunctions ++ befores := setup rfl
      have teardown : s'.registeredTeardownFunctions = s.registeredTeardownFunctions ++ afters :=
        teardown rfl
      refine ⟨?_, did.detailed, did.isOk, ?_, ?_⟩
      · rw [if_neg Bool.false_ne_true, ← List.append_assoc, ← log]
        exact did.log
      · intro whole
        rw [← List.append_assoc, ← setup]
        exact did.setup whole
      · intro whole
        rw [← List.append_assoc, ← teardown]
        exact did.teardown whole

theorem startSubsection_did (ready : Ready s) :
    Did s ((startSubsection host label test).outcome s)
      (around s.registeredSetupFunctions test s.registeredTeardownFunctions) (test.breaks host)
      [] [] := by
  obtain ⟨view, isOk⟩ : ((startSubsection host label test).outcome s).2.view = { s.view with
        log := s.log ++ around s.registeredSetupFunctions test s.registeredTeardownFunctions } ∧
      ((startSubsection host label test).outcome s).1.isOk = !test.breaks host :=
    startSubsection_run ready
  have detailed := (congrArg View.reportingMode view).trans ready.detailed
  refine ⟨congrArg View.log view, detailed, isOk, ?_, ?_⟩
  · intro _
    rw [List.append_nil]
    exact congrArg View.registeredSetupFunctions view
  · intro _
    rw [List.append_nil]
    exact congrArg View.registeredTeardownFunctions view

/-- A section gives back the hooks that it has found. -/
theorem startSection_did (detailed : s.reportingMode = .DETAILED) {testFunction : Action Unit}
    (body : Did (entered host label s) (testFunction.outcome (entered host label s)) entries broken
      befores afters) :
    Did s ((startSection host label testFunction).outcome s) entries broken [] [] := by
  rw [startSection_outcome detailed]
  obtain ⟨log, detailed, isOk, -, -⟩ := body
  cases result : testFunction.outcome (entered host label s) with
  | mk r s' =>
    rw [result] at log detailed isOk
    cases r with
    | error e =>
      refine ⟨log, detailed, isOk, ?_, ?_⟩
      · intro whole
        rw [whole] at isOk
        exact absurd isOk Bool.false_ne_true
      · intro whole
        rw [whole] at isOk
        exact absurd isOk Bool.false_ne_true
    | ok a =>
      -- The snapshots are those of the state before the section.
      have kept (hooks : List Hook) : hooks = hooks ++ [] := (List.append_nil hooks).symm
      exact ⟨log, detailed, isOk, fun _ => kept _, fun _ => kept _⟩

theorem before_did (detailed : s.reportingMode = .DETAILED) (hook : Hook) :
    Did s ((before hook).outcome s) [] false [hook] [] :=
  ⟨(List.append_nil _).symm, detailed, rfl, fun _ => rfl, fun _ => (List.append_nil _).symm⟩

theorem after_did (detailed : s.reportingMode = .DETAILED) (hook : Hook) :
    Did s ((after hook).outcome s) [] false [] [hook] :=
  ⟨(List.append_nil _).symm, detailed, rfl, fun _ => (List.append_nil _).symm, fun _ => rfl⟩

/-- A state with more hooks that raise no error. -/
theorem Ready.later {s' : State} (ready : Ready s) (detailed : s'.reportingMode = .DETAILED)
    (setup : s'.registeredSetupFunctions = s.registeredSetupFunctions ++ befores)
    (teardown : s'.registeredTeardownFunctions = s.registeredTeardownFunctions ++ afters)
    (quiet : ∀ hook ∈ befores ++ afters, hook.error = none) : Ready s' := by
  refine ⟨detailed, ?_, ?_⟩
  · intro hook member
    rw [setup] at member
    obtain member | member := List.mem_append.mp member
    · exact ready.setup hook member
    · exact quiet hook (List.mem_append_left _ member)
  · intro hook member
    rw [teardown] at member
    obtain member | member := List.mem_append.mp member
    · exact ready.teardown hook member
    · exact quiet hook (List.mem_append_right _ member)

/-- A run of a block writes its entries and registers its hooks. -/
theorem block_run {block : Block} (calm : block.Calm) (ready : Ready s) :
    Did s ((block.run host).outcome s)
      (block.entries host s.registeredSetupFunctions s.registeredTeardownFunctions)
      (block.breaks host) block.befores block.afters := by
  induction block generalizing s with
  | done =>
    exact ⟨(List.append_nil _).symm, ready.detailed, rfl, fun _ => (List.append_nil _).symm,
      fun _ => (List.append_nil _).symm⟩
  | raise e => exact calm.elim
  | before hook rest ih =>
    apply (before_did ready.detailed hook).bind
    intro s' _ detailed setup teardown
    have did := ih (s := s') calm.2
      (ready.later detailed setup teardown (List.forall_mem_singleton.mpr calm.1))
    rwa [setup, teardown, List.append_nil] at did
  | after hook rest ih =>
    apply (after_did ready.detailed hook).bind
    intro s' _ detailed setup teardown
    have did := ih (s := s') calm.2
      (ready.later detailed setup teardown (List.forall_mem_singleton.mpr calm.1))
    rwa [setup, teardown, List.append_nil] at did
  | it label test rest ih =>
    apply (startSubsection_did ready).bind
    intro s' _ detailed setup teardown
    have did := ih (s := s') calm
      (ready.later detailed setup teardown (List.forall_mem_nil _))
    rwa [setup, teardown, List.append_nil, List.append_nil] at did
  | describe label body rest bodyRan restRan =>
    have inside : Ready (entered host label s) :=
      ⟨ready.detailed, List.forall_mem_nil _, List.forall_mem_nil _⟩
    have breaks : (Block.describe label body rest).breaks host =
        (body.breaks host || rest.breaks host) := List.any_append
    rw [breaks]
    apply (startSection_did ready.detailed (bodyRan calm.1 inside)).bind
    intro s' _ detailed setup teardown
    have did := restRan (s := s') calm.2
      (ready.later detailed setup teardown (List.forall_mem_nil _))
    rwa [setup, teardown, List.append_nil, List.append_nil] at did

/-! ## Files -/

/-- What the file runs. -/
def SpecFile.block (file : SpecFile) : Block :=
  match file.chunk with
  | .ok block => block
  | .error _ => .done

/-- The file can be read, and neither a hook nor the body of a section raises an error. -/
structure SpecFile.Calm (file : SpecFile) : Prop where
  found : file.statError ≠ some (ascii "ENOENT: no such file or directory: " ++ file.path)
  loads : file.chunk = .ok file.block
  calm : file.block.Calm

/-- The log of some files, one after the other. No file gives back the hooks. -/
def filesEntries (host : Surroundings) (befores afters : List Hook) : List Block → List Event
  | [] => []
  | block :: rest => block.entries host befores afters ++
    if block.breaks host then []
    else filesEntries host (befores ++ block.befores) (afters ++ block.afters) rest

theorem Block.Calm.hooks {block : Block} (calm : block.Calm) :
    ∀ hook ∈ block.befores ++ block.afters, hook.error = none := by
  induction block with
  | done => exact List.forall_mem_nil _
  | raise e => exact calm.elim
  | describe label body rest _ restQuiet => exact restQuiet calm.2
  | it label test rest ih => exact ih calm
  | before hook rest ih =>
    intro other member
    obtain member | member := List.mem_cons.mp member
    · rw [member]
      exact calm.1
    · exact ih calm.2 other member
  | after hook rest ih =>
    intro other member
    obtain member | member := List.mem_append.mp member
    · exact ih calm.2 other (List.mem_append_left _ member)
    · obtain member | member := List.mem_cons.mp member
      · rw [member]
        exact calm.1
      · exact ih calm.2 other (List.mem_append_right _ member)

/-- In detailed mode the error of a file is followed by another one. -/
theorem failSpecFile_run (detailed : s.reportingMode = .DETAILED) (path : LuaString) (e : ErrorValue) :
    ((failSpecFile host path e).outcome s).1.isOk = false ∧
      ((failSpecFile host path e).outcome s).2.view = s.view := by
  unfold failSpecFile
  rw [outcome_bind]
  cases errorHandler host e with
  | nil => exact ⟨rfl, rfl⟩
  | failed => exact ⟨rfl, rfl⟩
  | details message stackTrace =>
    have inserted : (insertDetails (.details message stackTrace) path).outcome s = (.ok message,
        { s with errorDetails := s.errorDetails ++ [⟨message, stackTrace, path⟩] }) := rfl
    rw [inserted]
    dsimp only
    rw [outcome_bind, outcome_get]
    dsimp only
    have detailed : ¬s.reportingMode = .BASIC := by rw [detailed]; exact ReportingMode.noConfusion
    rw [if_neg detailed]
    exact ⟨rfl, rfl⟩

theorem executeSpecFile_did {file : SpecFile} (calm : file.Calm) (ready : Ready s) :
    Did s ((executeSpecFile host file).outcome s)
      (file.block.entries host s.registeredSetupFunctions s.registeredTeardownFunctions)
      (file.block.breaks host) file.block.befores file.block.afters := by
  let started : State := { s with lastExecutedSpecFile := some file.path }
  have did : Did started ((dofile host file).outcome started)
      (file.block.entries host s.registeredSetupFunctions s.registeredTeardownFunctions)
      (file.block.breaks host) file.block.befores file.block.afters := by
    rw [dofile, calm.loads]
    exact block_run calm.calm ⟨ready.detailed, ready.setup, ready.teardown⟩
  unfold executeSpecFile
  rw [outcome_bind, outcome_raiseIf, if_neg calm.found]
  dsimp only
  rw [outcome_bind, outcome_modify]
  dsimp only
  rw [outcome_bind, outcome_attempt]
  dsimp only
  obtain ⟨log, detailed, isOk, setup, teardown⟩ := did
  cases result : (dofile host file).outcome started with
  | mk r s' =>
    rw [result] at log detailed isOk setup teardown
    cases r with
    | ok a =>
      dsimp only
      rw [outcome_bind, outcome_get]
      dsimp only at detailed ⊢
      rw [detailed, if_neg (by decide)]
      exact ⟨log, detailed, isOk, setup, teardown⟩
    | error e =>
      -- The error is raised again, so the run of the files ends here.
      obtain ⟨raised, view⟩ : ((failSpecFile host file.path e).outcome s').1.isOk = false ∧
          ((failSpecFile host file.path e).outcome s').2.view = s'.view :=
        failSpecFile_run detailed file.path e
      have broken : file.block.breaks host = true := by
        simpa using (show (!file.block.breaks host) = false from isOk.symm)
      refine ⟨(congrArg View.log view).trans log, (congrArg View.reportingMode view).trans detailed,
        ?_, ?_, ?_⟩
      · rw [broken]
        exact raised
      · rw [broken]
        exact fun whole => absurd whole.symm Bool.false_ne_true
      · rw [broken]
        exact fun whole => absurd whole.symm Bool.false_ne_true

theorem files_did {files : List SpecFile} (calm : ∀ file ∈ files, file.Calm) (ready : Ready s) :
    Did s ((forM files (executeSpecFile host)).outcome s)
      (filesEntries host s.registeredSetupFunctions s.registeredTeardownFunctions
        (files.map SpecFile.block))
      (files.any (·.block.breaks host)) (files.flatMap (·.block.befores))
      (files.flatMap (·.block.afters)) := by
  induction files generalizing s with
  | nil =>
    exact ⟨(List.append_nil _).symm, ready.detailed, rfl, fun _ => (List.append_nil _).symm,
      fun _ => (List.append_nil _).symm⟩
  | cons file rest ih =>
    have first := calm file List.mem_cons_self
    rw [List.forM_cons]
    apply (executeSpecFile_did first ready).bind
    intro s' _ detailed setup teardown
    have did := ih (s := s') (fun other member => calm other (List.mem_cons_of_mem _ member))
      (ready.later detailed setup teardown first.calm.hooks)
    rwa [setup, teardown] at did

/-- What follows the files. -/
def endTestRunner (host : Surroundings) : Action Nat := do
  modify fun st => { st with endTime := host.endTime }
  reportEnd host
  return (← get).numFailedTests

/-- The end of a run adds to the report only. -/
theorem endTestRunner_keeps {P : State → Prop} (ends : ∀ s endTime, P s → P { s with endTime := endTime })
    (reports : ∀ s report, P s → P { s with reportBuffer := report }) : Keeps P (endTestRunner host) := by
  have reported (message : LuaString) : Keeps P (report message) := .modify fun s => reports s _
  apply Keeps.bind
  · exact .modify fun s => ends s _
  · intro _
    apply Keeps.bind
    · apply Keeps.get_bind
      intro st _
      cases st.reportingMode with
      | MINIMAL => exact .pure
      | BASIC => exact .bind (reported _) fun _ => reported _
      | DETAILED => exact reported _
    · exact fun _ => .get_bind fun _ _ => .pure

/-- The state in which the first file is executed. -/
def begun (host : Surroundings) (numSpecFiles : Nat) (s : State) : State :=
  { s with
    lastExecutedSpecFile := none
    numCompletedTests := 0
    numFailedTests := 0
    startTime := host.startTime
    endTime := 0
    reportBuffer := ((reportStart host numSpecFiles).outcome { s with reportBuffer := [] }).2.reportBuffer
    errorDetails := [] }

theorem startTestRunner_outcome {files : List SpecFile} (some : files ≠ []) (s : State) :
    (startTestRunner host files).outcome s =
      (forM files (executeSpecFile host) >>= fun _ => endTestRunner host).outcome (begun host files.length s) := by
  have starts : (reset >>= fun _ => reportStart host files.length).outcome s = (.ok (), { s with
      lastExecutedSpecFile := none
      numCompletedTests := 0
      numFailedTests := 0
      startTime := 0
      endTime := 0
      reportBuffer := ((reportStart host files.length).outcome { s with reportBuffer := [] }).2.reportBuffer
      errorDetails := [] }) := by
    by_cases basic : s.reportingMode = .BASIC
    · simp [reset, reportStart, report, outcome_bind, basic]
    · simp [reset, reportStart, outcome_bind, basic]
  unfold startTestRunner
  rw [outcome_bind, outcome_raiseIf, if_neg some]
  dsimp only
  rw [← bind_assoc, outcome_bind, starts]
  rfl

theorem startTestRunner_log {files : List SpecFile} (calm : ∀ file ∈ files, file.Calm) :
    ((startTestRunner host files).outcome {}).2.log =
      filesEntries host [] [] (files.map SpecFile.block) := by
  by_cases none : files = []
  · subst none
    rfl
  · let started := begun host files.length {}
    have ready : Ready started := ⟨rfl, List.forall_mem_nil _, List.forall_mem_nil _⟩
    have log : ((forM files (executeSpecFile host)).outcome started).2.log =
        filesEntries host [] [] (files.map SpecFile.block) := (files_did calm ready).log
    rw [startTestRunner_outcome none, outcome_bind]
    cases result : (forM files (executeSpecFile host)).outcome started with
    | mk r s' =>
      rw [result] at log
      cases r with
      | error e => exact log
      | ok a =>
        have kept : Keeps (fun s => s.log = s'.log) (endTestRunner host) :=
          endTestRunner_keeps (fun _ _ same => same) fun _ _ same => same
        exact (kept s' rfl).trans log

end EvoRuntime.Testing
