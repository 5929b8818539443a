import EvoRuntime.Testing.LaterRuns

/-!
# Completed runs

Whether a run in detailed mode comes to its end can be told from the trees of its files,
whatever hooks they have. The hooks that a file registers outside of its sections are those
of all later files, too.

## Main result

`startTestRunner_detailed`: a run either comes to its end, with the number of tests that
fail, or it raises an error.

## Proof strategy

`block_hooks` says which hooks a block that comes to its end leaves behind. Whether the next
file raises an error depends on the hooks it finds.
-/
namespace EvoRuntime.Testing

open Lua Library Raising

/-- The file is there, it can be loaded, and neither a hook nor the body of a section nor an
error of a test that cannot be handled breaks off the run. -/
structure SpecFile.RunsThrough (host : Surroundings) (befores afters : List Hook)
    (file : SpecFile) : Prop where
  found : ¬file.Missing
  loaded : file.chunk.isOk
  quiet : file.block.raises host .DETAILED befores afters = none

/-- Each file runs through with the hooks that the files in front of it leave behind. -/
def RunsThrough (host : Surroundings) (befores afters : List Hook) : List SpecFile → Prop
  | [] => True
  | file :: rest => file.RunsThrough host befores afters ∧
    RunsThrough host (befores ++ file.block.befores) (afters ++ file.block.afters) rest

variable {host : Surroundings} {s s' : State}

/-- More hooks, and nothing else. -/
def Scope.registered (c : Scope) (befores afters : List Hook) : Scope :=
  { c with
    registeredSetupFunctions := c.registeredSetupFunctions ++ befores
    registeredTeardownFunctions := c.registeredTeardownFunctions ++ afters }

theorem block_hooks {block : Block} (completed : (block.run host).Completes s () s') :
    s'.scope = s.scope.registered block.befores block.afters := by
  induction block generalizing s with
  | done =>
    obtain ⟨-, rfl⟩ := pure_completes.mp completed
    simp [Scope.registered, Block.befores, Block.afters]
  | raise e => exact (throw_completes completed).elim
  | before hook rest ih | after hook rest ih =>
    obtain ⟨⟨⟩, t, registered, others⟩ := bind_completes.mp completed
    obtain rfl := modify_completes.mp registered
    rw [ih others]
    simp [Scope.registered, Block.befores, Block.afters, State.scope]
  | it label test rest ih =>
    obtain ⟨⟨⟩, t, first, others⟩ := bind_completes.mp completed
    have same : t.scope = s.scope := (startSubsection_scope test).completes first rfl
    rw [ih others, same]
    rfl
  | describe label body rest _ ih =>
    obtain ⟨⟨⟩, t, first, others⟩ := bind_completes.mp completed
    rw [ih others, startSection_scope (block_level body) first]
    rfl

/-! ## Files -/

/-- In detailed mode any error of a file ends the run. -/
theorem executeSpecFile_isOk {file : SpecFile} (found : ¬file.Missing)
    (detailed : s.scope.reportingMode = .DETAILED) :
    ((executeSpecFile host file).outcome s).1.isOk =
      ((dofile host file).outcome { s with lastExecutedSpecFile := some file.path }).1.isOk := by
  cases ran : (dofile host file).outcome { s with lastExecutedSpecFile := some file.path } with
  | mk result t =>
    have isOk := (executeSpecFile_found found ran).2
    have mode : t.scope.reportingMode = .DETAILED :=
      (Scope.Grows.ran (fun _ => dofile_grows file) ran).reportingMode.trans detailed
    cases result with
    | ok a => exact isOk.mpr nofun
    | error e =>
      refine Bool.eq_false_iff.mpr fun goes => ?_
      have basic := (isOk.mp goes e rfl).1
      rw [mode] at basic
      cases basic

theorem executeSpecFile_runsThrough (file : SpecFile) (detailed : s.scope.reportingMode = .DETAILED) :
    ((executeSpecFile host file).outcome s).1.isOk = true ↔
      file.RunsThrough host s.scope.registeredSetupFunctions s.scope.registeredTeardownFunctions := by
  by_cases missing : file.Missing
  · have raised := (@executeSpecFile_missing host file missing s).1
    rw [raised]
    exact iff_of_false Bool.false_ne_true fun runs => runs.found missing
  rw [executeSpecFile_isOk missing detailed]
  cases chunk : file.chunk with
  | error e =>
    rw [dofile, chunk]
    refine iff_of_false Bool.false_ne_true fun runs => ?_
    have loaded := runs.loaded
    rw [chunk] at loaded
    cases loaded
  | ok block =>
    have ends : EndsWith (block.run host) { s with lastExecutedSpecFile := some file.path }
      (block.raises host s.scope.reportingMode s.scope.registeredSetupFunctions
        s.scope.registeredTeardownFunctions) := block_endsWith block
    have same : file.block = block := by rw [SpecFile.block, chunk]
    rw [dofile, chunk, ends, detailed]
    constructor
    · intro ran
      refine ⟨missing, by rw [chunk]; rfl, ?_⟩
      rw [same]
      cases raises : block.raises host .DETAILED s.scope.registeredSetupFunctions
          s.scope.registeredTeardownFunctions with
      | none => rfl
      | some e =>
        rw [raises] at ran
        cases ran
    · intro runs
      have quiet := runs.quiet
      rw [same] at quiet
      rw [quiet]
      rfl

theorem executeSpecFile_hooks {file : SpecFile}
    (completed : (executeSpecFile host file).Completes s () s')
    (detailed : s.scope.reportingMode = .DETAILED) :
    s'.scope = s.scope.registered file.block.befores file.block.afters := by
  have found : ¬file.Missing := by
    intro missing
    have raised := (@executeSpecFile_missing host file missing s).1
    rw [completed] at raised
    cases raised
  have ended := @executeSpecFile_isOk host s file found detailed
  cases ran : (dofile host file).outcome { s with lastExecutedSpecFile := some file.path } with
  | mk result t =>
    have scope := (executeSpecFile_found found ran).1
    rw [completed, ran] at ended
    rw [completed] at scope
    cases result with
    | error e => cases ended
    | ok a =>
      cases chunk : file.chunk with
      | error e =>
        rw [dofile, chunk] at ran
        cases ran
      | ok block =>
        rw [dofile, chunk] at ran
        have hooks := block_hooks ran
        have same : file.block = block := by rw [SpecFile.block, chunk]
        rw [scope, hooks, same]
        rfl

theorem files_runThrough (files : List SpecFile) (detailed : s.scope.reportingMode = .DETAILED) :
    ((forM files (executeSpecFile host)).outcome s).1.isOk = true ↔
      RunsThrough host s.scope.registeredSetupFunctions s.scope.registeredTeardownFunctions files := by
  induction files generalizing s with
  | nil => exact iff_of_true rfl trivial
  | cons file rest ih =>
    rw [List.forM_cons, outcome_bind, RunsThrough, ← executeSpecFile_runsThrough file detailed]
    cases ran : (executeSpecFile host file).outcome s with
    | mk result t =>
      cases result with
      | error e => exact iff_of_false Bool.false_ne_true fun both => Bool.false_ne_true both.1
      | ok a =>
        -- The next file starts with the hooks that this one has registered.
        have hooks := executeSpecFile_hooks ran detailed
        have mode : t.scope.reportingMode = .DETAILED := by rw [hooks]; exact detailed
        have later := ih mode
        rw [hooks] at later
        exact later.trans (and_iff_right rfl).symm

/-! ## Every run -/

theorem foldl_enterFile_numFailedTests (files : List SpecFile) (books : Books) :
    (files.foldl (Books.enterFile host) books).numFailedTests =
      books.numFailedTests + (files.flatMap SpecFile.failures).length := by
  induction files generalizing books with
  | nil => rfl
  | cons file rest ih =>
    have first : (books.enterFile host file).numFailedTests =
        books.numFailedTests + file.failures.length := by
      rw [enterFile_eq, countP_failures]
    rw [List.foldl_cons, ih, first, List.flatMap_cons, List.length_append, Nat.add_assoc]

/-- A run that comes to its end has counted the tests that fail. Any other one raises an error. -/
theorem startTestRunner_detailed {files : List SpecFile} (some : files ≠ [])
    (detailed : s.scope.reportingMode = .DETAILED) :
    (RunsThrough host s.scope.registeredSetupFunctions s.scope.registeredTeardownFunctions files →
      ∃ s', (startTestRunner host files).Completes s
        (files.flatMap SpecFile.failures).length s') ∧
    (¬RunsThrough host s.scope.registeredSetupFunctions s.scope.registeredTeardownFunctions files →
      ∃ e s', (startTestRunner host files).outcome s = (.error e, s')) := by
  let started := begun host files.length s
  have begins : started.scope = s.scope := rfl
  have through := @files_runThrough host started files detailed
  rw [begins] at through
  rw [← through, startTestRunner_outcome some]
  constructor
  · intro isOk
    have ran := completes_of_isOk isOk
    generalize ((forM files (executeSpecFile host)).outcome started).2 = t at ran
    -- What is returned was counted file by file.
    have entered : t.books = files.foldl (Books.enterFile host) started.books :=
      files_books detailed ran
    have mode : t.reportingMode = .DETAILED :=
      (Scope.Grows.ran (fun _ => .forM executeSpecFile_grows) ran).reportingMode.trans detailed
    obtain ⟨s', ended, same⟩ := @endTestRunner_completes host t mode
    have counted : s'.numFailedTests = (files.flatMap SpecFile.failures).length := by
      have failed := congrArg Books.numFailedTests (same.trans entered)
      rw [foldl_enterFile_numFailedTests] at failed
      exact failed.trans (Nat.zero_add _)
    refine ⟨s', ?_⟩
    rw [Completes, startTestRunner_outcome some, ← counted]
    exact bind_completes.mpr ⟨⟨⟩, t, ran, ended⟩
  · intro raised
    rw [outcome_bind]
    cases ran : (forM files (executeSpecFile host)).outcome started with
    | mk result t =>
      cases result with
      | error e => exact ⟨e, t, rfl⟩
      | ok a =>
        rw [ran] at raised
        exact absurd rfl raised

end EvoRuntime.Testing
