import EvoRuntime.FileSystem.DirectoryTree
import EvoRuntime.Lua.Numbers
import EvoRuntime.Path.Extname
import EvoRuntime.Testing.CompletedRuns
import Mathlib.Data.List.Lex

/-!
# The test command

`evo test` finds spec files, runs them in detailed mode, and exits with the number of tests
that have failed. An error that leaves the command ends the program with `EXIT_FAILURE`.
The operating system keeps the exit code modulo 256.

## Main result

`exitStatus_iff`: the status tells whether anything has failed, unless the run comes to its
end and the number of failed tests is a multiple of 256.
-/
namespace EvoRuntime.CommandLine

open Lua Library Raising Testing FileSystem EvoRuntime.Path

/-! ## Running spec files -/

/-- The lines about the errors, the last one first. -/
def errorLines (host : Surroundings) (errorDetails : List ErrorDetails) : List LuaString :=
  (errorDetails.reverse.zipIdx 1).flatMap fun (errorInfo, index) =>
    [ascii "(Error #" ++ decimal index ++ ascii ") in " ++ Testing.color host .bold errorInfo.specFile,
      Testing.color host .brightRed errorInfo.stackTrace, []]

/-- `C_Runtime.RunDetailedTests` -/
def RunDetailedTests (host : Surroundings) (specFiles : List SpecFile) : Testing.Action Nat := do
  modify fun st => { st with reportingMode := .DETAILED }
  let numFailedTests ← startTestRunner host specFiles
  modify fun st => { st with
    output := st.output ++ st.reportBuffer :: errorLines host st.errorDetails }
  return numFailedTests

/-! ## Finding spec files -/

def EXIT_FAILURE : Int := 1

def DEFAULT_TEST_SCRIPT : LuaString := ascii "test.lua"

/-- What the command finds on the machine. -/
structure Machine where
  host : Surroundings
  disk : Disk
  /-- How deep directories may be nested. -/
  stackDepth : Nat
  /-- What becomes of the file at a path when it is loaded. -/
  load : LuaString → Except ErrorValue Block

/-- How the command ends. -/
inductive Ending
  | exit (code : Int)
  | raised (error : ErrorValue)
  /-- It goes on with `test.lua`, which gets these arguments. -/
  | testScript (appArgs : List LuaString)
  deriving DecidableEq

structure Ended where
  ending : Ending
  output : List LuaString

/-- `string.format` of a text with one placeholder. -/
def messageFor (before path after : LuaString) : LuaString := before ++ path ++ after

section Texts

variable (host : Surroundings)

def TEST_RUNNER_ENTRY_POINT_MISSING : LuaString :=
  messageFor (ascii "Cannot start test runner in the current directory (entry point ")
    DEFAULT_TEST_SCRIPT (ascii " not found)")

def TEST_RUNNER_CANNOT_OPEN (path : LuaString) : LuaString :=
  messageFor (ascii "Cannot open ") path (ascii ": No such file or directory")

def TEST_RUNNER_CANNOT_LOAD (path : LuaString) : LuaString :=
  messageFor (ascii "Cannot load ") path (ascii ": Not a .lua script (wrong file extension?)")

def TEST_COMMAND_USAGE_INFO : LuaString :=
  ascii "To run automated tests with this command, you can:\n\n* Provide " ++
    Testing.color host .bold (ascii ".lua") ++ ascii " files that should be run as tests: " ++
    Testing.color host .brightYellow (ascii "evo test testFile1.lua testFile2.lua ... testFileN.lua") ++
    ascii "\n* Provide directory paths that include " ++ Testing.color host .bold (ascii ".lua") ++
    ascii " test files to run: " ++
    Testing.color host .brightYellow (ascii "evo test testDir1 testDir2 ... testDirN") ++
    ascii "\n* Provide a " ++ Testing.color host .bold DEFAULT_TEST_SCRIPT ++
    ascii " file that starts your test suite in any way you see fit: " ++
    Testing.color host .brightYellow (ascii "evo test") ++
    ascii " (no arguments)\n\nAll scripts loaded in this mode will have global access to functions in the " ++
    Testing.color host .brightBlue (ascii "assertions") ++ ascii " library."

end Texts

/-- `a <= b` for strings, which are compared byte by byte. -/
def InOrder (a b : LuaString) : Prop := a.map UInt8.toNat ≤ b.map UInt8.toNat

instance : DecidableRel InOrder := fun a b =>
  inferInstanceAs (Decidable (a.map UInt8.toNat ≤ b.map UInt8.toNat))

instance : IsTrans LuaString InOrder where
  trans _ _ _ first second := le_trans first second

instance : Std.Antisymm InOrder where
  antisymm _ _ first second :=
    List.map_injective_iff.mpr (fun _ _ => UInt8.toNat_inj.mp) (le_antisymm first second)

instance : Std.Total InOrder where
  total _ _ := le_total _ _

/-- `argument:match("^%-%-(.*)$")` -/
def appArg (argument : LuaString) : Option LuaString :=
  if (ascii "--").isPrefixOf argument then some (argument.drop 2) else none

def isLuaScript (filePath : LuaString) : Bool := extname filePath = ascii ".lua"

def IsFile (disk : Disk) (fileSystemPath : LuaString) : Bool :=
  match disk.nodeAt fileSystemPath with
  | none => false
  | some fileAttributes => fileAttributes.type = ascii "file"

variable (machine : Machine)

/-- One round of the loop over the arguments. The order in which `pairs` visits the table does
not matter, since the paths are sorted. -/
def specFilePaths (specFileOrFolder : LuaString) : Except Ended (List LuaString) :=
  if IsDirectory machine.disk specFileOrFolder then
    match ReadDirectoryTree machine.disk machine.stackDepth specFileOrFolder with
    | .error e => .error { ending := .raised (.string (ascii e.message)), output := [] }
    | .ok directoryTree => .ok ((directoryTree.filter (isLuaScript ·)).sort InOrder)
  else if IsFile machine.disk specFileOrFolder then
    if ¬isLuaScript specFileOrFolder then
      .error { ending := .exit EXIT_FAILURE, output :=
        [Testing.color machine.host .brightRed (TEST_RUNNER_CANNOT_LOAD specFileOrFolder)] }
    else .ok [specFileOrFolder]
  else
    .error { ending := .exit EXIT_FAILURE, output :=
      [Testing.color machine.host .brightRed (TEST_RUNNER_CANNOT_OPEN specFileOrFolder)] }

/-- All spec files, in the order of the arguments. -/
def discover (preprocessedArgs : List LuaString) : Except Ended (List LuaString) := do
  let found ← preprocessedArgs.mapM (specFilePaths machine)
  return found.flatten

/-- What the test runner gets to see of a file. -/
def Machine.specFile (path : LuaString) : SpecFile where
  path := path
  statError := if Exists machine.disk path then none
    else some (ascii "ENOENT: no such file or directory: " ++ path)
  chunk := machine.load path

def preprocessedArgs (argv : List LuaString) : List LuaString :=
  argv.filter fun argument => (appArg argument).isNone

/-- `evo.discoverAndRunTests`, in a program that has not run any tests yet. -/
def discoverAndRunTests (argv : List LuaString) : Ended :=
  if preprocessedArgs argv = [] then
    if Exists machine.disk DEFAULT_TEST_SCRIPT then
      { ending := .testScript (argv.filterMap appArg), output := [] }
    else
      { ending := .exit EXIT_FAILURE, output :=
        [Testing.color machine.host .brightRed TEST_RUNNER_ENTRY_POINT_MISSING, [],
          TEST_COMMAND_USAGE_INFO machine.host] }
  else
    match discover machine (preprocessedArgs argv) with
    | .error ended => ended
    | .ok specFiles =>
      match (RunDetailedTests machine.host (specFiles.map machine.specFile)).outcome {} with
      | (.ok numFailedSections, st) => { ending := .exit numFailedSections, output := st.output }
      | (.error e, st) => { ending := .raised e, output := st.output }

/-- What the shell observes, unless `test.lua` decides it. The exit code is converted to a C
integer, and `main` returns `EXIT_FAILURE` if the command raises an error. -/
def Ending.status (arguments : IntegerArguments) : Ending → Option Int
  | exit code => some (arguments.toInt code % 256)
  | raised _ => some EXIT_FAILURE
  | testScript _ => none

def exitStatus (arguments : IntegerArguments) (argv : List LuaString) : Option Int :=
  (discoverAndRunTests machine argv).ending.status arguments

/-! ## The status -/

variable {machine : Machine} {arguments : IntegerArguments} {argv paths : List LuaString}

/-- A regular file with the extension of a script is its own spec file. -/
structure Machine.IsSpecFile (machine : Machine) (path : LuaString) : Prop where
  noDirectory : IsDirectory machine.disk path = false
  file : IsFile machine.disk path = true
  script : isLuaScript path = true
  noAppArg : appArg path = none

theorem discover_specFiles (files : ∀ path ∈ argv, machine.IsSpecFile path) :
    discover machine (preprocessedArgs argv) = .ok argv := by
  have given : preprocessedArgs argv = argv := by
    refine List.filter_eq_self.mpr fun path member => ?_
    rw [(files path member).noAppArg]
    rfl
  have found : argv.mapM (specFilePaths machine) = .ok (argv.map ([·])) := by
    clear given
    induction argv with
    | nil => rfl
    | cons path rest ih =>
      have first := files path List.mem_cons_self
      have alone : specFilePaths machine path = .ok [path] := by
        rw [specFilePaths, first.noDirectory, first.file, first.script]
        rfl
      rw [List.mapM_cons, alone, ih fun other member => files other (List.mem_cons_of_mem _ member)]
      rfl
  rw [given, discover, found]
  exact congrArg Except.ok ((List.flatMap_def ..).symm.trans (List.flatMap_singleton' argv))

/-- The number of tests that fail when all files run through. -/
def numFailing (files : List SpecFile) : Nat := (files.flatMap SpecFile.failures).length

/-- No test fails, and nothing outside of the tests does. -/
structure NothingFails (host : Surroundings) (files : List SpecFile) : Prop where
  through : RunsThrough host [] [] files
  passes : ∀ file ∈ files, file.failures = []

theorem nothingFails_iff {host : Surroundings} {files : List SpecFile}
    (through : RunsThrough host [] [] files) : NothingFails host files ↔ numFailing files = 0 := by
  rw [numFailing, List.length_eq_zero_iff, List.flatMap_eq_nil_iff]
  exact ⟨NothingFails.passes, fun passes => ⟨through, passes⟩⟩

theorem discoverAndRunTests_discovered (discovered : discover machine (preprocessedArgs argv) = .ok paths)
    (found : paths ≠ []) :
    (discoverAndRunTests machine argv).ending =
      match (RunDetailedTests machine.host (paths.map machine.specFile)).outcome {} with
      | (.ok numFailedSections, _) => .exit numFailedSections
      | (.error e, _) => .raised e := by
  have given : preprocessedArgs argv ≠ [] := by
    intro nothing
    rw [nothing] at discovered
    exact found (Except.ok.inj discovered).symm
  rw [discoverAndRunTests, if_neg given, discovered]
  dsimp only
  cases (RunDetailedTests machine.host (paths.map machine.specFile)).outcome {} with
  | mk result st => cases result <;> rfl

theorem runDetailedTests_outcome (host : Surroundings) {files : List SpecFile} (some : files ≠ []) :
    (RunsThrough host [] [] files →
      ((RunDetailedTests host files).outcome {}).1 = .ok (numFailing files)) ∧
    (¬RunsThrough host [] [] files →
      ∃ e, ((RunDetailedTests host files).outcome {}).1 = .error e) := by
  obtain ⟨ends, raises⟩ := @startTestRunner_detailed host {} files some rfl
  have runs : (RunDetailedTests host files).outcome {} =
      (startTestRunner host files >>= fun numFailedTests => do
        modify fun st => { st with
          output := st.output ++ st.reportBuffer :: errorLines host st.errorDetails }
        return numFailedTests).outcome {} := rfl
  rw [runs, outcome_bind]
  constructor
  · intro through
    obtain ⟨s', completed⟩ := ends through
    rw [completed]
    rfl
  · intro broken
    obtain ⟨e, s', raised⟩ := raises broken
    rw [raised]
    exact ⟨e, rfl⟩

theorem exitStatus_through (discovered : discover machine (preprocessedArgs argv) = .ok paths)
    (found : paths ≠ []) (through : RunsThrough machine.host [] [] (paths.map machine.specFile)) :
    exitStatus machine arguments argv =
      some (arguments.toInt (numFailing (paths.map machine.specFile)) % 256) := by
  have files : paths.map machine.specFile ≠ [] := fun none => found (List.map_eq_nil_iff.mp none)
  have ends := (runDetailedTests_outcome machine.host files).1 through
  rw [exitStatus, discoverAndRunTests_discovered discovered found]
  cases ran : (RunDetailedTests machine.host (paths.map machine.specFile)).outcome {} with
  | mk result st =>
    rw [ran] at ends
    obtain rfl : result = _ := ends
    rfl

theorem exitStatus_broken (discovered : discover machine (preprocessedArgs argv) = .ok paths)
    (found : paths ≠ []) (broken : ¬RunsThrough machine.host [] [] (paths.map machine.specFile)) :
    exitStatus machine arguments argv = some EXIT_FAILURE := by
  have files : paths.map machine.specFile ≠ [] := fun none => found (List.map_eq_nil_iff.mp none)
  obtain ⟨e, raised⟩ := (runDetailedTests_outcome machine.host files).2 broken
  rw [exitStatus, discoverAndRunTests_discovered discovered found]
  cases ran : (RunDetailedTests machine.host (paths.map machine.specFile)).outcome {} with
  | mk result st =>
    rw [ran] at raised
    obtain rfl : result = _ := raised
    rfl

/-- The status is zero exactly if nothing fails, but for runs that come to their end with a
multiple of 256 failing tests. -/
theorem exitStatus_iff (machine : Machine) (arguments : IntegerArguments)
    {argv paths : List LuaString}
    (discovered : discover machine (preprocessedArgs argv) = .ok paths) (found : paths ≠ []) :
    (exitStatus machine arguments argv = some 0 ↔
      NothingFails machine.host (paths.map machine.specFile)) ↔
      ¬(RunsThrough machine.host [] [] (paths.map machine.specFile) ∧
        numFailing (paths.map machine.specFile) ≠ 0 ∧
        arguments.toInt (numFailing (paths.map machine.specFile)) % 256 = 0) := by
  by_cases through : RunsThrough machine.host [] [] (paths.map machine.specFile)
  · rw [exitStatus_through discovered found through, nothingFails_iff through, Option.some.injEq]
    by_cases failing : numFailing (paths.map machine.specFile) = 0
    · have zero : arguments.toInt (numFailing (paths.map machine.specFile)) % 256 = 0 := by
        rw [failing, arguments.toInt_eq _ (by decide) (by decide)]
        rfl
      exact iff_of_true (iff_of_true zero failing) fun wraps => wraps.2.1 failing
    · rw [iff_false_right failing]
      exact ⟨fun nonzero wraps => nonzero wraps.2.2, fun nowrap zero =>
        nowrap ⟨through, failing, zero⟩⟩
  · -- The run raises an error, which is not lost: `main` returns `EXIT_FAILURE`.
    rw [exitStatus_broken discovered found through]
    refine iff_of_true (iff_of_false ?_ fun nothing => through nothing.through)
      fun wraps => through wraps.1
    exact fun zero => absurd (Option.some.inj zero) (by decide)

/-! ### A run with 256 failing tests -/

/-- A file with some tests that all raise an error. -/
def failingTests : Nat → Block
  | 0 => .done
  | n + 1 => .it (ascii "fails") ⟨n, some (.string (ascii "no"))⟩ (failingTests n)

def failingMachine (n : Nat) : Machine where
  host := plainHost
  disk :=
    { root := .file (ascii "a.lua") (ascii "file") [] .empty
      cwd := ascii "/"
      proper := by
        refine ⟨?_, List.not_mem_nil, by decide, trivial⟩
        intro name member
        obtain rfl := List.mem_singleton.mp member
        exact ⟨⟨by decide, by decide⟩, by decide⟩
      absolute := by decide }
  stackDepth := 100
  load _ := .ok (failingTests n)

def exactArguments : IntegerArguments where
  toInt n := n
  toInt_eq _ _ _ := rfl

theorem failingMachine_discovers (n : Nat) :
    discover (failingMachine n) (preprocessedArgs [ascii "a.lua"]) = .ok [ascii "a.lua"] := by
  have located : (failingMachine n).disk.nodeAt (ascii "a.lua") =
      some (.file (ascii "file") []) := rfl
  apply discover_specFiles
  intro path member
  obtain rfl := List.mem_singleton.mp member
  refine ⟨?_, ?_, by decide +kernel, by decide⟩
  · rw [IsDirectory, located]
    decide
  · rw [IsFile, located]
    decide

theorem failingTests_raises (n : Nat) : (failingTests n).raises plainHost .DETAILED [] [] = none := by
  induction n with
  | zero => rfl
  | succ n ih => exact ih

theorem failingTests_failures (n : Nat) (path : LuaString) :
    (SpecFile.failures ⟨path, none, .ok (failingTests n)⟩).length = n := by
  rw [← countP_failures]
  change (failingTests n).tests.countP (!·.passes) = n
  induction n with
  | zero => rfl
  | succ n ih =>
    rw [failingTests, Block.tests, List.countP_cons, ih]
    rfl

theorem failingMachine_specFile (n : Nat) :
    [ascii "a.lua"].map (failingMachine n).specFile =
      [⟨ascii "a.lua", none, .ok (failingTests n)⟩] := rfl

theorem failingTests_through (n : Nat) :
    RunsThrough plainHost [] [] [⟨ascii "a.lua", none, .ok (failingTests n)⟩] :=
  ⟨⟨nofun, rfl, failingTests_raises n⟩, trivial⟩

theorem failingTests_numFailing (n : Nat) :
    numFailing [⟨ascii "a.lua", none, .ok (failingTests n)⟩] = n := by
  rw [numFailing, List.flatMap_singleton]
  exact failingTests_failures n (ascii "a.lua")

/-- Of 256 failing tests the shell observes nothing. -/
theorem not_exitStatus_failing :
    exitStatus (failingMachine 256) exactArguments [ascii "a.lua"] = some 0 ∧
      ¬NothingFails plainHost ([ascii "a.lua"].map (failingMachine 256).specFile) := by
  constructor
  · rw [exitStatus_through (failingMachine_discovers 256) (List.cons_ne_nil _ _)
      (failingTests_through 256), failingMachine_specFile, failingTests_numFailing]
    rfl
  · rw [failingMachine_specFile, nothingFails_iff (failingTests_through 256),
      failingTests_numFailing]
    decide

/-- One failing test is observed. -/
theorem exitStatus_iff_failing :
    exitStatus (failingMachine 1) exactArguments [ascii "a.lua"] = some 0 ↔
      NothingFails plainHost ([ascii "a.lua"].map (failingMachine 1).specFile) := by
  refine (exitStatus_iff (failingMachine 1) exactArguments (failingMachine_discovers 1)
    (List.cons_ne_nil _ _)).mpr ?_
  rintro ⟨-, -, wraps⟩
  rw [failingMachine_specFile, failingTests_numFailing] at wraps
  exact absurd wraps (by decide)

end EvoRuntime.CommandLine
