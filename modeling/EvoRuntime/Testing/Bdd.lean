import EvoRuntime.Library.Raising
import EvoRuntime.Lua.Transform

/-!
# The test runner

`bdd` runs spec files. A file calls `describe`, `it`, `before` and `after`, which work on
global lists of hooks; here it is the tree of these calls. Hooks and tests are functions of
the file, known by their identities, and may raise an error. Which of them have been run is
recorded in a log.
-/
namespace EvoRuntime.Testing

open Lua Library Raising

/-! ## Spec files -/

/-- What may be raised as an error. -/
inductive ErrorValue
  | string (s : LuaString)
  | other (v : Nat)
  deriving DecidableEq

structure Hook where
  id : Nat
  /-- What it raises, if it does. -/
  error : Option ErrorValue := none
  deriving DecidableEq

structure Test where
  id : Nat
  error : Option ErrorValue := none
  deriving DecidableEq

/-- The statements of a file, or of the body of a `describe`. -/
inductive Block
  | done
  | describe (label : LuaString) (body rest : Block)
  | it (label : LuaString) (test : Test) (rest : Block)
  | before (hook : Hook) (rest : Block)
  | after (hook : Hook) (rest : Block)
  | raise (error : ErrorValue)
  deriving DecidableEq

structure SpecFile where
  path : LuaString
  /-- The error of `uv.fs_stat`. -/
  statError : Option LuaString := none
  /-- What `dofile` runs, or why there is nothing to run. -/
  chunk : Except ErrorValue Block

/-! ## State -/

inductive ReportingMode
  | MINIMAL
  | BASIC
  | DETAILED
  deriving DecidableEq

def ReportingMode.name : ReportingMode → LuaString
  | .MINIMAL => ascii "MINIMAL"
  | .BASIC => ascii "BASIC"
  | .DETAILED => ascii "DETAILED"

structure ErrorDetails where
  message : LuaString
  stackTrace : LuaString
  specFile : LuaString
  deriving DecidableEq

/-- A function of the file that has been run. -/
inductive Event
  | before (hook : Hook)
  | test (test : Test)
  | after (hook : Hook)
  deriving DecidableEq

structure State where
  lastExecutedSpecFile : Option LuaString := none
  registeredSetupFunctions : List Hook := []
  registeredTeardownFunctions : List Hook := []
  startTime : Nat := 0
  endTime : Nat := 0
  numCompletedTests : Nat := 0
  numFailedTests : Nat := 0
  reportIndentationLevel : Nat := 0
  reportBuffer : LuaString := []
  reportingMode : ReportingMode := .DETAILED
  errorDetails : List ErrorDetails := []
  /-- What has been run so far. -/
  log : List Event := []
  /-- The lines printed so far. -/
  output : List LuaString := []

structure Surroundings where
  ENABLE_TEXT_TRANSFORMATIONS : Bool
  /-- `uv.hrtime()`, before and after the spec files. -/
  startTime : Nat
  endTime : Nat
  /-- `debug.traceback(errorMessage, 3)` -/
  traceback : ErrorValue → ErrorValue
  /-- `debug.tostring(value)`, which may raise an error. -/
  tostring : ErrorValue → Option LuaString
  /-- `bdd.getHumanReadableTime(highResolutionTime)` -/
  getHumanReadableTime : Nat → LuaString

abbrev Action (α : Type) := Raising State ErrorValue α

variable (host : Surroundings)

def color (color : Color) (text : LuaString) : LuaString :=
  transformText host.ENABLE_TEXT_TRANSFORMATIONS text color

/-! ## Errors -/

/-- What `xpcall` returns for an error. -/
inductive Handled
  | details (message stackTrace : LuaString)
  | nil
  /-- The text "error in error handling". -/
  | failed
  deriving DecidableEq

def errorHandler (errorMessage : ErrorValue) : Handled :=
  if errorMessage = .string [] then .nil
  else
    match host.tostring errorMessage, host.tostring (host.traceback errorMessage) with
    | some message, some stackTrace => .details message stackTrace
    | _, _ => .failed

/-- `errorDetails.specFile = specFile`, which needs a table, and the insertion. The result is
the message. -/
def insertDetails (handled : Handled) (specFile : LuaString) : Action LuaString :=
  match handled with
  | .details message stackTrace => do
    modify fun st => { st with errorDetails := st.errorDetails ++ [⟨message, stackTrace, specFile⟩] }
    pure message
  | .nil => throw (.string (ascii "attempt to index local 'errorDetails' (a nil value)"))
  | .failed => throw (.string (ascii "attempt to index local 'errorDetails' (a string value)"))

/-! ## Reports -/

def report (message : LuaString) : Action Unit :=
  modify fun st => { st with reportBuffer := st.reportBuffer ++ message ++ ascii "\n" }

def indentPrefix (st : State) : LuaString :=
  (List.replicate st.reportIndentationLevel (ascii "  ")).flatten

/-- `✓` and `✗` in UTF-8. -/
def checkMark : LuaString := [0xE2, 0x9C, 0x93]
def crossMark : LuaString := [0xE2, 0x9C, 0x97]

def reportSection (label : LuaString) : Action Unit := do
  report (indentPrefix (← get) ++ color host .bold label)

def reportPassingSubsection (label : LuaString) : Action Unit := do
  report (indentPrefix (← get) ++ color host .green checkMark ++ ascii " " ++ label)

def reportFailingSubsection (label : LuaString) : Action Unit := do
  report (indentPrefix (← get) ++ color host .brightRed crossMark ++ ascii " " ++
    color host .brightRed label)

def getSectionsReportString (st : State) : LuaString :=
  let durationInMilliseconds := decimal ((st.endTime - st.startTime + 500000) / 1000000)
  let summary (mark : LuaString) (count : Nat) (text : String) :=
    mark ++ ascii " " ++ decimal count ++ ascii text ++ ascii " (" ++ durationInMilliseconds ++
      ascii " ms)"
  ascii "\n" ++
    if st.numFailedTests = 0 ∧ st.numCompletedTests = 0 then
      color host .yellow (ascii "No tests to run ...")
    else if st.numFailedTests > 1 then
      color host .brightRedBackground (summary crossMark st.numFailedTests " tests FAILED")
    else if st.numFailedTests = 1 then
      color host .brightRedBackground (summary crossMark st.numFailedTests " test FAILED")
    else if st.numCompletedTests > 1 then
      color host .green (summary checkMark st.numCompletedTests " tests complete")
    else color host .green (summary checkMark st.numCompletedTests " test complete")

/-! ## Sections -/

def runHook (event : Hook → Event) (hook : Hook) : Action Unit := do
  modify fun st => { st with log := st.log ++ [event hook] }
  match hook.error with
  | some e => throw e
  | none => pure ()

def runTest (test : Test) : Action Unit := do
  modify fun st => { st with log := st.log ++ [.test test] }
  match test.error with
  | some e => throw e
  | none => pure ()

/-- `kind` is the word in the warning. -/
def warn (kind label : LuaString) : Action Unit :=
  modify fun st => { st with output := st.output ++ [color host .yellow
    (ascii "WARNING: Encountered BDD-style " ++ kind ++ ascii " with label \"" ++ label ++
      ascii "\", but reporting mode is not " ++ ReportingMode.DETAILED.name)] }

/-- `describe` -/
def startSection (label : LuaString) (testFunction : Action Unit) : Action Unit := do
  let st ← get
  if st.reportingMode ≠ .DETAILED then warn host (ascii "section") label
  else do
    reportSection host label
    let setupStackSnapshot := st.registeredSetupFunctions
    let teardownStackSnapshot := st.registeredTeardownFunctions
    modify fun st => { st with
      registeredSetupFunctions := []
      registeredTeardownFunctions := []
      reportIndentationLevel := st.reportIndentationLevel + 1 }
    -- An error of the body skips what follows.
    testFunction
    modify fun st => { st with
      registeredSetupFunctions := setupStackSnapshot
      registeredTeardownFunctions := teardownStackSnapshot
      reportIndentationLevel := st.reportIndentationLevel - 1 }

/-- What follows the teardown functions. -/
def finishSubsection (label : LuaString) (result : Except ErrorValue Unit) : Action Unit := do
  match result with
  | .ok _ => do
    reportPassingSubsection host label
    modify fun st => { st with numCompletedTests := st.numCompletedTests + 1 }
  | .error e => do
    reportFailingSubsection host label
    modify fun st => { st with numFailedTests := st.numFailedTests + 1 }
    let _ ← insertDetails (errorHandler host e) ((← get).lastExecutedSpecFile.getD [])

/-- `it` -/
def startSubsection (label : LuaString) (test : Test) : Action Unit := do
  if (← get).reportingMode ≠ .DETAILED then warn host (ascii "subsection") label
  else do
    forM (← get).registeredSetupFunctions (runHook .before)
    let result ← attempt (runTest test)
    forM (← get).registeredTeardownFunctions (runHook .after)
    finishSubsection host label result

def before (setupFunction : Hook) : Action Unit :=
  modify fun st => { st with
    registeredSetupFunctions := st.registeredSetupFunctions ++ [setupFunction] }

def after (teardownFunction : Hook) : Action Unit :=
  modify fun st => { st with
    registeredTeardownFunctions := st.registeredTeardownFunctions ++ [teardownFunction] }

def Block.run : Block → Action Unit
  | .done => pure ()
  | .describe label body rest => do
    startSection host label body.run
    rest.run
  | .it label test rest => do
    startSubsection host label test
    rest.run
  | .before hook rest => do
    Testing.before hook
    rest.run
  | .after hook rest => do
    Testing.after hook
    rest.run
  | .raise e => throw e

/-! ## Files -/

def dofile (specFile : SpecFile) : Action Unit :=
  match specFile.chunk with
  | .ok block => block.run host
  | .error e => throw e

/-- What follows an error of the file. -/
def failSpecFile (path : LuaString) (e : ErrorValue) : Action Unit := do
  let errorMessage ← insertDetails (errorHandler host e) path
  if (← get).reportingMode = .BASIC then do
    report (color host .brightRed (ascii "FAIL\t" ++ path))
    modify fun st => { st with numFailedTests := st.numFailedTests + 1 }
  else throw (.string errorMessage)

def executeSpecFile (specFile : SpecFile) : Action Unit := do
  raiseIf (specFile.statError = some (ascii "ENOENT: no such file or directory: " ++ specFile.path))
    (.string (ascii "cannot open " ++ specFile.path ++ ascii ": No such file or directory"))
  modify fun st => { st with lastExecutedSpecFile := some specFile.path }
  match ← attempt (dofile host specFile) with
  | .ok _ => do
    if (← get).reportingMode = .BASIC then
      report (color host .green (ascii "PASS\t" ++ specFile.path))
  -- Only in basic mode the run goes on.
  | .error e => failSpecFile host specFile.path e

def reset : Action Unit :=
  modify fun st => { st with
    lastExecutedSpecFile := none
    numCompletedTests := 0
    numFailedTests := 0
    startTime := 0
    endTime := 0
    reportBuffer := []
    errorDetails := [] }

def reportStart (numSpecFiles : Nat) : Action Unit := do
  if (← get).reportingMode = .BASIC then do
    report (ascii "Test runner started with a total of " ++ color host .bold (decimal numSpecFiles) ++
      ascii " spec file(s)")
    report []

def reportEnd : Action Unit := do
  let st ← get
  match st.reportingMode with
  | .BASIC => do
    report []
    report (ascii "Finished running all tests in " ++
      host.getHumanReadableTime (st.endTime - st.startTime))
  | .DETAILED => report (getSectionsReportString host st)
  | .MINIMAL => pure ()

/-- The result is the number of failed tests. -/
def startTestRunner (specFiles : List SpecFile) : Action Nat := do
  raiseIf (specFiles = []) (.string (ascii "No test cases to run"))
  reset
  reportStart host specFiles.length
  modify fun st => { st with startTime := host.startTime }
  forM specFiles (executeSpecFile host)
  modify fun st => { st with endTime := host.endTime }
  reportEnd host
  return (← get).numFailedTests

end EvoRuntime.Testing
