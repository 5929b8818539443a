import EvoRuntime.FileSystem.DirectoryTree
import EvoRuntime.Library.Runs
import EvoRuntime.Path.Relative
import EvoRuntime.Vfs.AppBundle

/-!
# Building an app and reading its files

`evo.buildZipApp` archives the files below a directory under their paths relative to it,
and `vfs.extract` finds them under these paths. What it prints is left out. The archive is
written and read by a library, which is a parameter.

`buildZipApp_spec`: however the directory is spelled, the names are the paths inside of
it, and each file is found under its own.
-/
namespace EvoRuntime.Vfs

open Lua Library EvoRuntime.Path FileSystem

/-- The library for archives: `finalize` of a writer after some calls of `add`, and the
methods of a reader, with indices from one. -/
structure Miniz (Reader : Type) where
  finalize : List (LuaString × LuaString) → LuaString
  newReaderMemory : LuaString → Option Reader
  getNumFiles : Reader → Nat
  getFilename : Reader → Nat → LuaString
  extract : Reader → Nat → LuaString

/-- Names and contents are stored as they are given. -/
def Miniz.Stores {Reader : Type} (miniz : Miniz Reader) (entries : List (LuaString × LuaString)) :
    Prop :=
  ∃ reader, miniz.newReaderMemory (miniz.finalize entries) = some reader ∧
    miniz.getNumFiles reader = entries.length ∧
    ∀ i entry, entries[i]? = some entry →
      miniz.getFilename reader (i + 1) = entry.1 ∧ miniz.extract reader (i + 1) = entry.2

/-- Why no app is built. -/
inductive BuildFailure
  /-- `os.exit(EXIT_FAILURE)`, after the reason has been printed. -/
  | exit
  | raised (error : LuaError)

def DEFAULT_ENTRY_POINT : LuaString := ascii "main.lua"

/-- The names and contents that are added to the archive. -/
def archivedFiles (disk : Disk) (fuel : Nat) (inputDirectory : LuaString) :
    Except LuaError (List (LuaString × LuaString)) := do
  let files ← ReadDirectoryTree disk fuel inputDirectory
  let orderedFiles := files.sort (· ≤ ·)
  orderedFiles.mapM fun filePath => do
    let relativePath ← relative disk.host inputDirectory filePath
    let fileContents ← ReadFile disk filePath
    return (relativePath, fileContents)

/-- The self-contained executable that is written. -/
def buildZipApp {Reader : Type} (disk : Disk) (miniz : Miniz Reader)
    (runtimeFileContents : LuaString) (fuel : Nat) (argv : List LuaString) :
    Except BuildFailure LuaString := do
  let inputDirectory := argv.head?.getD disk.cwd
  if !FileSystem.Exists disk inputDirectory || !IsDirectory disk inputDirectory then throw .exit
  let expectedEntryPoint := join [inputDirectory, DEFAULT_ENTRY_POINT]
  let hasEntryPoint := FileSystem.Exists disk expectedEntryPoint
  if !hasEntryPoint then throw .exit
  let entries ← (archivedFiles disk fuel inputDirectory).mapError .raised
  let zipFileContents := miniz.finalize entries
  return standaloneExecutable runtimeFileContents zipFileContents

/-- The result, or `nil` and a message. `zipApp.reader` is what `decode` has put there. -/
def extract {Reader : Type} (miniz : Miniz Reader) (zipApp : ZipApp Reader) (filePath : LuaString) :
    Except LuaError (Except LuaString LuaString) :=
  match zipApp.reader with
  | none => .error ⟨"attempt to index local 'reader' (a nil value)"⟩
  | some reader =>
    match (List.range' 1 (miniz.getNumFiles reader)).find? fun index =>
        miniz.getFilename reader index = filePath with
    | some index => .ok (.ok (miniz.extract reader index))
    | none => .ok (.error
        (ascii "Failed to extract file " ++ filePath ++ ascii " (no such entry exists)"))

/-! ## Archiving -/

variable {disk : Disk} {d : LuaString} {t : Directory}

theorem resolve_disk (disk : Disk) (arg : LuaString) (rest : List LuaString) :
    resolve disk.host arg rest = .ok (rooted (locate disk.cwd (arg :: rest))) :=
  resolve_of_posixCwd rfl disk.absolute arg rest

/-- The name of a file in the archive is its path below the directory. -/
theorem relative_below (found : disk.nodeAt d = some (.directory t))
    {entry : List LuaString × LuaString} (member : entry ∈ t.files) :
    relative disk.host d (joinAll d entry.1) = .ok (posixSeparators.join entry.1) := by
  have named := (Directory.files_names (Disk.proper_at found) entry member).1
  have located := (locate_joinAll disk.cwd named (Disk.nodeAt_eq_some found).1).2
  have route := SegmentReading.route_append segmentReading (locate disk.cwd [d]) [] entry.1 nofun
  rw [List.append_nil] at route
  rw [relative_eq_route (resolve_disk disk), located, route]
  rfl

theorem readFile_below (found : disk.nodeAt d = some (.directory t))
    {entry : List LuaString × LuaString} (member : entry ∈ t.files) :
    ReadFile disk (joinAll d entry.1) = .ok entry.2 := by
  have proper := Disk.proper_at found
  have named := (Directory.files_names proper entry member).1
  obtain ⟨nonempty, at_⟩ := Disk.nodeAt_eq_some found
  obtain ⟨nonempty', located⟩ := locate_joinAll disk.cwd named nonempty
  obtain ⟨type, contents⟩ := Directory.lookup_files proper entry member
  rw [ReadFile, Disk.nodeAt, if_neg nonempty', located, Directory.lookup_append at_, contents]

/-- Different files have different keys, which lead to different places. -/
theorem keys_nodup (found : disk.nodeAt d = some (.directory t)) : (keys d t).Nodup := by
  have proper := Disk.proper_at found
  have places : (keys d t).map (fun key => locate disk.cwd [key]) =
      (t.files.map Prod.fst).map (locate disk.cwd [d] ++ ·) := by
    rw [keys, List.map_map, List.map_map]
    refine List.map_congr_left fun entry member => ?_
    exact (locate_joinAll disk.cwd (Directory.files_names proper entry member).1
      (Disk.nodeAt_eq_some found).1).2
  refine List.Nodup.of_map (fun key => locate disk.cwd [key]) ?_
  rw [places]
  exact (Directory.files_nodup proper).map (List.append_right_injective _)

/-- Different files have different names in the archive. -/
theorem names_nodup (proper : t.Proper) :
    (t.files.map fun entry => posixSeparators.join entry.1).Nodup := by
  have split : (t.files.map fun entry => posixSeparators.join entry.1).map posixSeparators.split =
      t.files.map Prod.fst := by
    rw [List.map_map]
    refine List.map_congr_left fun entry member => ?_
    obtain ⟨named, name, names, shape, -⟩ := Directory.files_names proper entry member
    exact split_join named.clean (by rw [shape]; exact List.cons_ne_nil _ _)
  refine List.Nodup.of_map posixSeparators.split ?_
  rw [split]
  exact Directory.files_nodup proper

/-- All files are archived, in the order of their keys. -/
theorem archivedFiles_spec (found : disk.nodeAt d = some (.directory t)) {fuel : Nat}
    (enough : t.depth < fuel) :
    ∃ entries, archivedFiles disk fuel d = .ok entries ∧
      entries.Perm (t.files.map fun entry => (posixSeparators.join entry.1, entry.2)) := by
  have perm : ((keys d t).toFinset.sort (· ≤ ·)).Perm (keys d t) :=
    (Finset.sort_perm_toList _ _).trans (List.toFinset_toList (keys_nodup found))
  -- The keys in order are those of the files in some order.
  have reordered : Relation.Comp (fun keys files => keys = files.map fun entry => joinAll d entry.1)
      List.Perm ((keys d t).toFinset.sort (· ≤ ·)) t.files := by
    rw [List.eq_map_comp_perm]
    exact perm
  obtain ⟨files, ordered, same⟩ := reordered
  refine ⟨files.map fun entry => (posixSeparators.join entry.1, entry.2), ?_, same.map _⟩
  rw [archivedFiles, ReadDirectoryTree, readDirectory_spec fuel d t found enough]
  change List.mapM _ ((keys d t).toFinset.sort (· ≤ ·)) = _
  rw [ordered]
  rw [List.mapM_map]
  refine mapM_ok fun entry member => ?_
  rw [Function.comp_apply, relative_below found (same.mem_iff.mp member), readFile_below found (same.mem_iff.mp member)]
  rfl

/-! ## Extracting -/

theorem extract_stored {Reader : Type} {miniz : Miniz Reader}
    {entries : List (LuaString × LuaString)} (stores : miniz.Stores entries)
    (distinct : (entries.map Prod.fst).Nodup) {zipApp : ZipApp Reader}
    (opened : zipApp.reader = miniz.newReaderMemory (miniz.finalize entries))
    {entry : LuaString × LuaString} (member : entry ∈ entries) :
    extract miniz zipApp entry.1 = .ok (.ok entry.2) := by
  obtain ⟨reader, created, count, stored⟩ := stores
  obtain ⟨i, below, rfl⟩ := List.mem_iff_getElem.mp member
  have nameAt (k : Nat) (inside : k < entries.length) :
      miniz.getFilename reader (k + 1) = entries[k].1 :=
    (stored k _ (List.getElem?_eq_getElem inside)).1
  -- The first entry with this name is the one with this index.
  have first : (List.range' 1 (miniz.getNumFiles reader)).find? (fun index =>
      miniz.getFilename reader index = entries[i].1) = some (i + 1) := by
    rw [List.find?_range'_eq_some, count]
    refine ⟨by simpa using nameAt i below, by simp; omega, fun j positive less => ?_⟩
    obtain ⟨k, rfl⟩ : ∃ k, j = k + 1 := ⟨j - 1, by omega⟩
    have differs : entries[k].1 ≠ entries[i].1 := by
      intro same
      have inside : k < (entries.map Prod.fst).length := by rw [List.length_map]; omega
      have inside' : i < (entries.map Prod.fst).length := by rwa [List.length_map]
      have names : (entries.map Prod.fst)[k] = (entries.map Prod.fst)[i] := by
        rwa [List.getElem_map, List.getElem_map]
      have index : k = i := distinct.getElem_inj_iff.mp names
      omega
    simpa [nameAt k (by omega)] using differs
  rw [extract, opened, created]
  simp only [first]
  rw [(stored i _ (List.getElem?_eq_getElem below)).2]

/-! ## Building -/

theorem buildZipApp_eq {Reader : Type} (found : disk.nodeAt d = some (.directory t))
    {fuel : Nat} {entries : List (LuaString × LuaString)}
    (archived : archivedFiles disk fuel d = .ok entries) (miniz : Miniz Reader) (exe : LuaString) :
    buildZipApp disk miniz exe fuel [d] =
      if (t.nodes.lookup DEFAULT_ENTRY_POINT).isSome then
        .ok (standaloneExecutable exe (miniz.finalize entries))
      else .error .exit := by
  have named : Named [DEFAULT_ENTRY_POINT] := by
    intro s member
    rw [List.mem_singleton.mp member]
    exact ⟨⟨by decide, by decide⟩, by decide⟩
  have entryPoint : FileSystem.Exists disk (join [d, DEFAULT_ENTRY_POINT]) =
      (t.nodes.lookup DEFAULT_ENTRY_POINT).isSome := by
    rw [FileSystem.Exists, Disk.nodeAt_join found named]
  have isDirectory : IsDirectory disk d = true := by
    rw [IsDirectory, found]
    rfl
  have exists_ : FileSystem.Exists disk d = true := by
    rw [FileSystem.Exists, found]
    rfl
  simp only [buildZipApp, List.head?_cons, Option.getD_some, exists_, isDirectory, entryPoint, archived]
  cases (t.nodes.lookup DEFAULT_ENTRY_POINT).isSome <;> rfl

/-- However the directory is spelled, its files are archived under their paths inside of
it, no two under one name, and an app with this archive has each file under its path. -/
theorem buildZipApp_spec {Reader : Type} (miniz : Miniz Reader) (disk : Disk) (d : LuaString)
    (t : Directory) (found : disk.nodeAt d = some (.directory t)) (fuel : Nat)
    (enough : t.depth < fuel) :
    ∃ entries, archivedFiles disk fuel d = .ok entries ∧
      entries.Perm (t.files.map fun entry => (posixSeparators.join entry.1, entry.2)) ∧
      (entries.map Prod.fst).Nodup ∧
      (∀ exe, buildZipApp disk miniz exe fuel [d] =
        if (t.nodes.lookup DEFAULT_ENTRY_POINT).isSome then
          .ok (standaloneExecutable exe (miniz.finalize entries))
        else .error .exit) ∧
      (miniz.Stores entries → ∀ zipApp : ZipApp Reader,
        zipApp.reader = miniz.newReaderMemory (miniz.finalize entries) →
        ∀ entry ∈ t.files,
          extract miniz zipApp (posixSeparators.join entry.1) = .ok (.ok entry.2)) := by
  obtain ⟨entries, archived, perm⟩ := archivedFiles_spec found enough
  have distinct : (entries.map Prod.fst).Nodup := by
    rw [(perm.map Prod.fst).nodup_iff, List.map_map]
    exact names_nodup (Disk.proper_at found)
  refine ⟨entries, archived, perm, distinct, buildZipApp_eq found archived miniz, ?_⟩
  intro stores zipApp opened entry member
  exact extract_stored stores distinct opened (perm.mem_iff.mpr (List.mem_map_of_mem member))

/-- Two files, one of them in a directory. -/
def sampleApp : Directory :=
  .directory (ascii "lib") (.file (ascii "a.lua") (ascii "file") (ascii "return 1") .empty)
    (.file (ascii "main.lua") (ascii "file") (ascii "print(1)") .empty)

def sampleDisk : Disk where
  root := .directory (ascii "app") sampleApp .empty
  cwd := ascii "/app"
  proper := by
    have named (name : LuaString) (reads : segmentReading.IsName name)
        (clean : CHAR_FORWARD_SLASH ∉ name) : Named [name] := by
      intro s member
      rw [List.mem_singleton.mp member]
      exact ⟨reads, clean⟩
    refine ⟨named _ ⟨by decide, by decide⟩ (by decide), by decide, ⟨?_, by decide, ?_, ?_⟩, trivial⟩
    · exact named _ ⟨by decide, by decide⟩ (by decide)
    · exact ⟨named _ ⟨by decide, by decide⟩ (by decide), by decide, by decide, trivial⟩
    · exact ⟨named _ ⟨by decide, by decide⟩ (by decide), by decide, by decide, trivial⟩
  absolute := by decide

/-- An archive that holds the two files. -/
def sampleMiniz : Miniz (List (LuaString × LuaString)) where
  finalize entries := entries.flatMap fun entry => entry.1 ++ [0] ++ entry.2 ++ [0]
  newReaderMemory _ := some
    [(ascii "lib/a.lua", ascii "return 1"), (ascii "main.lua", ascii "print(1)")]
  getNumFiles := List.length
  getFilename reader index := (reader.getD (index - 1) ([], [])).1
  extract reader index := (reader.getD (index - 1) ([], [])).2

theorem buildZipApp_spec_sample :
    ∃ entries, archivedFiles sampleDisk 3 (ascii ".//lib/../") = .ok entries ∧
      entries.Perm (sampleApp.files.map fun entry => (posixSeparators.join entry.1, entry.2)) ∧
      (entries.map Prod.fst).Nodup ∧
      (∀ exe, buildZipApp sampleDisk sampleMiniz exe 3 [ascii ".//lib/../"] =
        if (sampleApp.nodes.lookup DEFAULT_ENTRY_POINT).isSome then
          .ok (standaloneExecutable exe (sampleMiniz.finalize entries))
        else .error .exit) ∧
      (sampleMiniz.Stores entries → ∀ zipApp : ZipApp (List (LuaString × LuaString)),
        zipApp.reader = sampleMiniz.newReaderMemory (sampleMiniz.finalize entries) →
        ∀ entry ∈ sampleApp.files,
          extract sampleMiniz zipApp (posixSeparators.join entry.1) = .ok (.ok entry.2)) :=
  buildZipApp_spec sampleMiniz sampleDisk _ sampleApp (by rfl) 3 (by decide)

end EvoRuntime.Vfs
