import EvoRuntime.Testing.HookScoping
import EvoRuntime.Testing.Scopes
import Mathlib.Data.List.Forall2

/-!
# Failed tests

A test may raise anything. Its error is handled and the run goes on, unless the error handler
has no table for it.

## Main result

`failures_booked_iff`: all tests are run and each failure is counted and has its error
details, if and only if there are details for each error that is raised.

## Proof strategy

`Books` are the counters, the error details and the tests that have been run. A block whose
run is completed has entered its tests there one after the other. Whether a run is completed
is known from its log already.
-/
namespace EvoRuntime.Testing

open Lua Library Raising

/-! ## Books -/

/-- What is known of the tests that have been run. -/
structure Books where
  reportingMode : ReportingMode
  lastExecutedSpecFile : Option LuaString
  numCompletedTests : Nat
  numFailedTests : Nat
  errorDetails : List ErrorDetails
  tests : List Test

def State.books (s : State) : Books :=
  ⟨s.reportingMode, s.lastExecutedSpecFile, s.numCompletedTests, s.numFailedTests, s.errorDetails,
    s.log.filterMap Event.test?⟩

def Test.passes (test : Test) : Bool := test.error.isNone

variable (host : Surroundings)

/-- The error details of a test, if it fails and there is a table for its error. -/
def Test.details (path : LuaString) (test : Test) : Option ErrorDetails :=
  test.error.bind fun e =>
    match errorHandler host e with
    | .details message stackTrace => some ⟨message, stackTrace, path⟩
    | .nil | .failed => none

def Books.enter (books : Books) (test : Test) : Books :=
  { books with
    numCompletedTests := books.numCompletedTests + if test.passes then 1 else 0
    numFailedTests := books.numFailedTests + if test.passes then 0 else 1
    errorDetails := books.errorDetails ++ (test.details host (books.lastExecutedSpecFile.getD [])).toList
    tests := books.tests ++ [test] }

variable {host} {s s' : State} {label : LuaString} {test : Test} {block : Block} {books : Books}

@[simp] theorem foldl_enter_reportingMode (tests : List Test) :
    (tests.foldl (Books.enter host) books).reportingMode = books.reportingMode := by
  induction tests generalizing books with
  | nil => rfl
  | cons test rest ih => exact ih

theorem foldl_enter (tests : List Test) :
    tests.foldl (Books.enter host) books = { books with
      numCompletedTests := books.numCompletedTests + tests.countP (·.passes)
      numFailedTests := books.numFailedTests + tests.countP (!·.passes)
      errorDetails := books.errorDetails ++
        tests.filterMap (·.details host (books.lastExecutedSpecFile.getD []))
      tests := books.tests ++ tests } := by
  induction tests generalizing books with
  | nil => simp
  | cons test rest ih =>
    rw [List.foldl_cons, ih]
    cases passes : test.passes <;>
      cases details : test.details host (books.lastExecutedSpecFile.getD []) <;>
      simp [Books.enter, passes, details, Nat.add_assoc, Nat.add_comm, Nat.add_left_comm]

/-! ## One test -/

theorem runHooks_books {event : Hook → Event} (quiet : ∀ hook, (event hook).test? = none)
    (hooks : List Hook) : Keeps (fun s => s.books = books) (forM hooks (runHook event)) := by
  refine runHooks_keeps (fun hook s same => ?_) hooks
  subst same
  simp [State.books, quiet]

theorem finishSubsection_books
    (completed : (finishSubsection host label (test.error.elim (.ok ()) .error)).Completes s () s') :
    s'.books = { s.books.enter host test with tests := s.books.tests } := by
  cases raised : test.error with
  | none =>
    simp only [raised, Option.elim, finishSubsection, reportPassingSubsection, report, bind_completes,
      get_completes, modify_completes] at completed
    obtain ⟨_, _, ⟨_, _, ⟨rfl, rfl⟩, rfl⟩, rfl⟩ := completed
    simp [State.books, Books.enter, Test.passes, Test.details, raised]
  | some e =>
    simp only [raised, Option.elim, finishSubsection, reportFailingSubsection, report, bind_completes,
      get_completes, modify_completes] at completed
    obtain ⟨_, _, ⟨_, _, ⟨rfl, rfl⟩, rfl⟩, _, _, rfl, _, _, ⟨rfl, rfl⟩, _, t, inserted, -, rfl⟩ := completed
    cases handled : errorHandler host e with
    | nil | failed => simp [handled, insertDetails] at inserted
    | details message stackTrace =>
      simp only [handled, insertDetails, bind_completes, modify_completes, pure_completes] at inserted
      obtain ⟨_, _, rfl, rfl, rfl⟩ := inserted
      simp [State.books, Books.enter, Test.passes, Test.details, raised, handled]

theorem startSubsection_books (detailed : s.reportingMode = .DETAILED)
    (completed : (startSubsection host label test).Completes s () s') :
    s'.books = s.books.enter host test := by
  rw [startSubsection, get_bind_completes, if_neg (not_not.mpr detailed), get_bind_completes,
    bind_completes] at completed
  obtain ⟨⟨⟩, t, setup, completed⟩ := completed
  rw [bind_completes] at completed
  obtain ⟨result, u, ran, completed⟩ := completed
  obtain ⟨rfl, rfl⟩ : result = test.error.elim (.ok ()) .error ∧ u = { t with log := t.log ++ [.test test] } := by
    rw [attempt_completes, runTest_outcome] at ran
    exact ⟨(Prod.mk.inj ran).1.symm, (Prod.mk.inj ran).2.symm⟩
  rw [get_bind_completes, bind_completes] at completed
  obtain ⟨⟨⟩, t', teardown, completed⟩ := completed
  -- Hooks enter nothing, so the books are those of the test alone.
  have atTest : t.books = s.books := (runHooks_books (fun _ => rfl) _).completes setup rfl
  have afterTest : t'.books = { t.books with tests := t.books.tests ++ [test] } :=
    (runHooks_books (fun _ => rfl) _).completes teardown (by simp [State.books, Event.test?])
  rw [finishSubsection_books completed, afterTest, atTest]
  rfl

/-! ## One block -/

theorem startSection_completes (detailed : s.reportingMode = .DETAILED) {testFunction : Action Unit} :
    (startSection host label testFunction).Completes s () s' ↔
      ∃ t, testFunction.Completes (entered host label s) () t ∧ s' = { t with
        registeredSetupFunctions := s.registeredSetupFunctions
        registeredTeardownFunctions := s.registeredTeardownFunctions
        reportIndentationLevel := t.reportIndentationLevel - 1 } := by
  rw [Completes, startSection_outcome detailed]
  cases ran : testFunction.outcome (entered host label s) with
  | mk result t =>
    cases result with
    | ok a => simp [Completes, ran, eq_comm]
    | error e => simp [Completes, ran]

theorem block_books (completed : (block.run host).Completes s () s') (detailed : s.reportingMode = .DETAILED) :
    s'.books = block.tests.foldl (Books.enter host) s.books := by
  induction block generalizing s s' with
  | done =>
    obtain ⟨-, rfl⟩ := pure_completes.mp completed
    rfl
  | raise e => exact (throw_completes completed).elim
  | before hook rest ih | after hook rest ih =>
    obtain ⟨⟨⟩, t, registered, others⟩ := bind_completes.mp completed
    obtain rfl := modify_completes.mp registered
    have later := ih others detailed
    exact later
  | it label test rest ih =>
    obtain ⟨⟨⟩, t, first, others⟩ := bind_completes.mp completed
    have entered := startSubsection_books detailed first
    rw [ih others ((congrArg Books.reportingMode entered).trans detailed), entered]
    rfl
  | describe label body rest bodyRan restRan =>
    obtain ⟨⟨⟩, t, first, others⟩ := bind_completes.mp completed
    obtain ⟨u, inside, rfl⟩ := (startSection_completes detailed).mp first
    have entered := bodyRan inside detailed
    have entered : u.books = body.tests.foldl (Books.enter host) s.books := entered
    have mode : u.reportingMode = .DETAILED := by
      have kept := congrArg Books.reportingMode entered
      rw [foldl_enter_reportingMode] at kept
      exact kept.trans detailed
    have later := restRan others mode
    have later : s'.books = rest.tests.foldl (Books.enter host) u.books := later
    rw [later, entered, ← List.foldl_append]
    rfl

/-! ## Files -/

/-- The tests of a file, with its path. -/
def Books.enterFile (host : Surroundings) (books : Books) (file : SpecFile) : Books :=
  file.block.tests.foldl (Books.enter host) { books with lastExecutedSpecFile := some file.path }

theorem dofile_books {file : SpecFile} (completed : (dofile host file).Completes s () s')
    (detailed : s.reportingMode = .DETAILED) :
    s'.books = file.block.tests.foldl (Books.enter host) s.books := by
  cases chunk : file.chunk with
  | ok block =>
    rw [dofile, chunk] at completed
    rw [SpecFile.block, chunk]
    exact block_books completed detailed
  | error e =>
    rw [dofile, chunk] at completed
    exact (throw_completes completed).elim

theorem executeSpecFile_books {file : SpecFile} (detailed : s.reportingMode = .DETAILED)
    (completed : (executeSpecFile host file).Completes s () s') : s'.books = s.books.enterFile host file := by
  simp only [executeSpecFile, bind_completes, raiseIf_completes, modify_completes, attempt_completes] at completed
  obtain ⟨⟨⟩, u, ⟨-, start⟩, ⟨⟩, v, started, result, t, ran, finished⟩ := completed
  rw [start] at started
  subst started
  have mode : t.reportingMode = .DETAILED :=
    (Scope.Grows.ran (fun _ => dofile_grows file) ran).reportingMode.trans detailed
  cases result with
  | error e =>
    -- In detailed mode the error of a file is raised again.
    have finished : (failSpecFile host file.path e).Completes t () s' := finished
    have raised : ((failSpecFile host file.path e).outcome t).1.isOk = false :=
      (failSpecFile_run mode file.path e).1
    rw [finished] at raised
    exact Bool.noConfusion raised
  | ok a =>
    have entered := dofile_books ran detailed
    rw [get_bind_completes, mode, if_neg (by decide)] at finished
    obtain ⟨-, rfl⟩ := pure_completes.mp finished
    exact entered

theorem files_books {files : List SpecFile} (detailed : s.reportingMode = .DETAILED)
    (completed : (forM files (executeSpecFile host)).Completes s () s') :
    s'.books = files.foldl (Books.enterFile host) s.books := by
  have history := forM_history (fun done t => t.books = done.foldl (Books.enterFile host) s.books ∧
    t.reportingMode = .DETAILED) ?_ completed [] ⟨rfl, detailed⟩
  · exact history.1
  · rintro done file t t' ⟨held, mode⟩ ran
    have entered := executeSpecFile_books mode ran
    refine ⟨?_, ?_⟩
    · rw [entered, held, List.foldl_append]
      rfl
    · have kept := congrArg Books.reportingMode entered
      rw [Books.enterFile, foldl_enter_reportingMode] at kept
      exact kept.trans mode

/-! ## Failures -/

/-- The failures of a file, each with the path of the file. -/
def SpecFile.failures (file : SpecFile) : List (LuaString × ErrorValue) :=
  file.block.tests.filterMap fun test => test.error.map (file.path, ·)

/-- The error details of a failure. -/
structure ErrorDetails.Names (host : Surroundings) (failure : LuaString × ErrorValue) (details : ErrorDetails) :
    Prop where
  specFile : details.specFile = failure.1
  message : host.tostring failure.2 = some details.message
  stackTrace : host.tostring (host.traceback failure.2) = some details.stackTrace

/-- There is a table for the error. -/
def Surroundings.Handles (host : Surroundings) (e : ErrorValue) : Prop :=
  e ≠ .string [] ∧ (host.tostring e).isSome ∧ (host.tostring (host.traceback e)).isSome

instance (e : ErrorValue) : Decidable (host.Handles e) :=
  inferInstanceAs (Decidable (e ≠ .string [] ∧ (host.tostring e).isSome ∧ (host.tostring (host.traceback e)).isSome))

theorem errorHandler_details {e : ErrorValue} {message stackTrace : LuaString} :
    errorHandler host e = .details message stackTrace ↔
      e ≠ .string [] ∧ host.tostring e = some message ∧ host.tostring (host.traceback e) = some stackTrace := by
  unfold errorHandler
  split
  next empty => simp [empty]
  next nonempty => split <;> simp_all

theorem handles_iff {e : ErrorValue} :
    host.Handles e ↔ ∃ message stackTrace, errorHandler host e = .details message stackTrace := by
  simp only [errorHandler_details, Surroundings.Handles, Option.isSome_iff_exists]
  constructor
  · rintro ⟨nonempty, ⟨message, shown⟩, stackTrace, traced⟩
    exact ⟨message, stackTrace, nonempty, shown, traced⟩
  · rintro ⟨message, stackTrace, nonempty, shown, traced⟩
    exact ⟨nonempty, ⟨message, shown⟩, stackTrace, traced⟩

theorem breaks_iff : test.breaks host = false ↔ ∀ e, test.error = some e → host.Handles e := by
  cases raised : test.error with
  | none => simp [Test.breaks, raised]
  | some e => cases handled : errorHandler host e <;> simp [Test.breaks, raised, handled, handles_iff]

/-- No test of the block breaks off the run. -/
theorem block_breaks_iff {file : SpecFile} :
    file.block.breaks host = false ↔ ∀ failure ∈ file.failures, host.Handles failure.2 := by
  simp only [Block.breaks, List.any_eq_false, SpecFile.failures, List.mem_filterMap, Option.map_eq_some_iff,
    Bool.not_eq_true, breaks_iff]
  constructor
  · rintro handles _ ⟨test, member, e, raised, rfl⟩
    exact handles test member e raised
  · intro handles test member e raised
    exact handles _ ⟨test, member, e, raised, rfl⟩

theorem countP_failures (file : SpecFile) :
    file.block.tests.countP (!·.passes) = file.failures.length := by
  rw [SpecFile.failures, List.length_filterMap_eq_countP]
  refine List.countP_congr fun test _ => ?_
  cases raised : test.error <;> simp [Test.passes, raised]

theorem names_details {tests : List Test} (handles : ∀ test ∈ tests, test.breaks host = false) (path : LuaString) :
    List.Forall₂ (ErrorDetails.Names host) (tests.filterMap fun test => test.error.map (path, ·))
      (tests.filterMap (·.details host path)) := by
  induction tests with
  | nil => exact .nil
  | cons test rest ih =>
    have others := ih fun later member => handles later (List.mem_cons_of_mem _ member)
    have handled := breaks_iff.mp (handles test List.mem_cons_self)
    cases raised : test.error with
    | none => simpa [Test.details, raised] using others
    | some e =>
      obtain ⟨message, stackTrace, details⟩ := handles_iff.mp (handled e raised)
      obtain ⟨-, shown, traced⟩ := errorHandler_details.mp details
      simp only [List.filterMap_cons, Test.details, raised, details, Option.map_some, Option.bind_some]
      exact .cons ⟨rfl, shown, traced⟩ others

/-- The books of a run whose errors are all handled. -/
structure Books.Account (host : Surroundings) (before after : Books) (files : List SpecFile) : Prop where
  numCompletedTests : after.numCompletedTests =
    before.numCompletedTests + (files.flatMap (·.block.tests)).countP (·.passes)
  numFailedTests : after.numFailedTests = before.numFailedTests + (files.flatMap SpecFile.failures).length
  errorDetails : ∃ details, after.errorDetails = before.errorDetails ++ details ∧
    List.Forall₂ (ErrorDetails.Names host) (files.flatMap SpecFile.failures) details
  tests : after.tests = before.tests ++ files.flatMap (·.block.tests)

theorem enterFile_eq (books : Books) (file : SpecFile) : books.enterFile host file = { books with
    lastExecutedSpecFile := some file.path
    numCompletedTests := books.numCompletedTests + file.block.tests.countP (·.passes)
    numFailedTests := books.numFailedTests + file.block.tests.countP (!·.passes)
    errorDetails := books.errorDetails ++ file.block.tests.filterMap (·.details host file.path)
    tests := books.tests ++ file.block.tests } := by
  rw [Books.enterFile, foldl_enter]
  rfl

theorem account_foldl {files : List SpecFile} (handles : ∀ file ∈ files, file.block.breaks host = false) :
    books.Account host (files.foldl (Books.enterFile host) books) files := by
  induction files generalizing books with
  | nil => exact ⟨rfl, rfl, ⟨[], (List.append_nil _).symm, .nil⟩, (List.append_nil _).symm⟩
  | cons file rest ih =>
    have each : ∀ test ∈ file.block.tests, test.breaks host = false := by
      simpa [Block.breaks] using handles file List.mem_cons_self
    have later : (books.enterFile host file).Account host (rest.foldl (Books.enterFile host) _) rest :=
      ih fun later member => handles later (List.mem_cons_of_mem _ member)
    obtain ⟨details, added, others⟩ := later.errorDetails
    -- What the first file enters comes before the entries of the others.
    have first : books.enterFile host file = _ := enterFile_eq books file
    refine ⟨?_, ?_, ⟨file.block.tests.filterMap (·.details host file.path) ++ details, ?_, ?_⟩, ?_⟩
    · rw [List.foldl_cons, later.numCompletedTests, first, List.flatMap_cons, List.countP_append, Nat.add_assoc]
    · rw [List.foldl_cons, later.numFailedTests, first, List.flatMap_cons, List.length_append, countP_failures,
        Nat.add_assoc]
    · rw [List.foldl_cons, added, first, List.append_assoc]
    · exact List.rel_append (names_details each file.path) others
    · rw [List.foldl_cons, later.tests, first, List.flatMap_cons, List.append_assoc]

/-! ## Every run -/

theorem endTestRunner_completes (detailed : s.reportingMode = .DETAILED) :
    ∃ s', (endTestRunner host).Completes s s'.numFailedTests s' ∧ s'.books = s.books := by
  let ended : State := { s with endTime := host.endTime }
  refine ⟨{ ended with reportBuffer := ended.reportBuffer ++ getSectionsReportString host ended ++ ascii "\n" }, ?_, rfl⟩
  simp [Completes, endTestRunner, reportEnd, report, outcome_bind, detailed, ended]
  rfl

/-- All tests are run and each failure is booked, if and only if each error is handled. -/
theorem failures_booked_iff {files : List SpecFile} (some : files ≠ []) (calm : ∀ file ∈ files, file.Calm)
    (ready : Ready s) :
    (∃ s', (startTestRunner host files).Completes s s'.numFailedTests s' ∧
      s'.log.filterMap Event.test? = s.log.filterMap Event.test? ++ files.flatMap (·.block.tests) ∧
      s'.numFailedTests = (files.flatMap SpecFile.failures).length ∧
      s'.numCompletedTests = (files.flatMap (·.block.tests)).countP (·.passes) ∧
      List.Forall₂ (ErrorDetails.Names host) (files.flatMap SpecFile.failures) s'.errorDetails) ↔
    ∀ failure ∈ files.flatMap SpecFile.failures, host.Handles failure.2 := by
  let started := begun host files.length s
  have begins : Ready started := ⟨ready.detailed, ready.setup, ready.teardown⟩
  have isOk : ((forM files (executeSpecFile host)).outcome started).1.isOk = !files.any (·.block.breaks host) :=
    (files_did calm begins).isOk
  have handles : (∀ failure ∈ files.flatMap SpecFile.failures, host.Handles failure.2) ↔
      files.any (·.block.breaks host) = false := by
    simp only [List.any_eq_false, Bool.not_eq_true, block_breaks_iff, List.forall_mem_flatMap]
  rw [handles]
  constructor
  · rintro ⟨s', completed, -⟩
    rw [Completes, startTestRunner_outcome some] at completed
    obtain ⟨⟨⟩, t, ran, -⟩ := bind_completes.mp completed
    have ran : (forM files (executeSpecFile host)).outcome started = (.ok (), t) := ran
    rw [ran] at isOk
    exact (Bool.not_eq_true' _).mp isOk.symm
  · intro whole
    rw [whole] at isOk
    have ran := completes_of_isOk isOk
    generalize ((forM files (executeSpecFile host)).outcome started).2 = t at ran
    have entered := files_books begins.detailed ran
    have mode : t.reportingMode = .DETAILED :=
      (Scope.Grows.ran (fun _ => .forM executeSpecFile_grows) ran).reportingMode.trans ready.detailed
    obtain ⟨s', ended, same⟩ : ∃ s', (endTestRunner host).Completes t s'.numFailedTests s' ∧ s'.books = t.books :=
      endTestRunner_completes mode
    have account : started.books.Account host s'.books files := by
      rw [same, entered]
      exact account_foldl (by simpa [List.any_eq_false] using whole)
    obtain ⟨details, added, names⟩ := account.errorDetails
    refine ⟨s', ?_, account.tests, ?_, ?_, ?_⟩
    · rw [Completes, startTestRunner_outcome some]
      exact bind_completes.mpr ⟨⟨⟩, t, ran, ended⟩
    · exact account.numFailedTests.trans (Nat.zero_add _)
    · exact account.numCompletedTests.trans (Nat.zero_add _)
    · have added : s'.errorDetails = details := added
      rw [added]
      exact names

/-- A section with a test that raises an error, and a test after the section. -/
def failingFiles : List SpecFile :=
  [⟨ascii "a.lua", none, .ok (.describe (ascii "a")
    (.it (ascii "first") ⟨1, some (.other 7)⟩ (.it (ascii "second") ⟨2, some (.string (ascii "no"))⟩ .done))
    (.it (ascii "third") ⟨3, none⟩ .done))⟩]

theorem failures_booked_sections :
    ∃ s', (startTestRunner plainHost failingFiles).Completes {} s'.numFailedTests s' ∧
      s'.log.filterMap Event.test? = [] ++ failingFiles.flatMap (·.block.tests) ∧
      s'.numFailedTests = (failingFiles.flatMap SpecFile.failures).length ∧
      s'.numCompletedTests = (failingFiles.flatMap (·.block.tests)).countP (·.passes) ∧
      List.Forall₂ (ErrorDetails.Names plainHost) (failingFiles.flatMap SpecFile.failures) s'.errorDetails := by
  refine (failures_booked_iff (List.cons_ne_nil _ _) ?_ ⟨rfl, List.forall_mem_nil _, List.forall_mem_nil _⟩).mpr
    (by decide)
  rintro file member
  obtain rfl := List.mem_singleton.mp member
  exact ⟨(Option.some_ne_none _).symm, rfl, ⟨trivial, trivial⟩⟩

/-- The test that raises an empty string breaks off the run, so the other one is not run. -/
theorem not_booked_emptyError :
    ((startTestRunner plainHost brokenFiles).outcome {}).2.log = [.test ⟨1, some (.string [])⟩] ∧
      ¬∃ s', (startTestRunner plainHost brokenFiles).Completes {} s'.numFailedTests s' ∧
        s'.log.filterMap Event.test? = brokenFiles.flatMap (·.block.tests) ∧
        s'.numFailedTests = (brokenFiles.flatMap SpecFile.failures).length ∧
        s'.numCompletedTests = (brokenFiles.flatMap (·.block.tests)).countP (·.passes) ∧
        List.Forall₂ (ErrorDetails.Names plainHost) (brokenFiles.flatMap SpecFile.failures) s'.errorDetails := by
  refine ⟨by decide, ?_⟩
  rintro ⟨s', completed, -⟩
  have raised : ((startTestRunner plainHost brokenFiles).outcome {}).1.isOk = false := by decide
  rw [completed] at raised
  exact Bool.noConfusion raised

end EvoRuntime.Testing
