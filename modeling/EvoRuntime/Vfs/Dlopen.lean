import EvoRuntime.FileSystem.PathResolution
import EvoRuntime.Path.Extname
import EvoRuntime.Vfs.ZipApp

/-!
# Loading a library from an app

`vfs.dlopen` extracts a library to a directory that it makes for it, loads it from there, and
removes both. `dlopen_clean_iff` says when nothing is left behind. The directory is, when the
file for the library cannot be opened for writing: the error is raised in front of the clean-up.
So it is with every name that has a directory in it, such as `some/directory/libfoo.so`, since
nothing is in a directory that has just been made.

The paths are those of a POSIX system.
-/
namespace EvoRuntime.Vfs

open Lua Library Raising EvoRuntime.Path FileSystem FileTree C_FileSystem

/-- `vfs.errorStrings.MISSING_APP_BUNDLE`. -/
def MISSING_APP_BUNDLE : LuaString := ascii "Not a LUAZIP app bundle"

def dlname (isWindows : Bool) (libraryName : LuaString) : LuaString :=
  let extension := lower (if isWindows then Win32.extname libraryName else extname libraryName)
  if extension = ascii ".dll" ∨ extension = ascii ".so" then libraryName
  else if isWindows then libraryName ++ ascii ".dll"
  else ascii "lib" ++ libraryName ++ ascii ".so"

/-- Six characters for the name of a file. -/
abbrev Letters := { letters : LuaString // letters.length = 6 ∧ CHAR_FORWARD_SLASH ∉ letters }

/-- What `dlopen` uses from its surroundings. -/
structure Surroundings (Reader Library : Type) where
  miniz : Miniz Reader
  cwd : List LuaString
  named : Named cwd
  /-- The letters that `uv.fs_mkdtemp` has found, or why it makes no directory. -/
  letters : Except Errno Letters
  /-- Why the file for the library is not opened, other than for its path. -/
  refused : Option Errno
  /-- How many bytes of the library are written. -/
  written : Nat
  /-- `ffi.load`, which raises an error for what is no library. -/
  load : FileTree → LuaString → Except LuaString Library

variable {Reader Library : Type} (host : Surroundings Reader Library)

def fs_mkdtemp (template : LuaString) : FileAction (Except LuaString LuaString) := do
  match host.letters with
  | .error errno => return .error (errno.message template)
  | .ok letters =>
    match mkdtemp host.cwd (← get) template letters with
    | .error errno => return .error (errno.message template)
    | .ok (path, tree) => do
      modify fun _ => tree
      return .ok path

def assert (result : Except LuaString Unit) : FileAction Unit :=
  match result with
  | .ok () => pure ()
  | .error errorMessage => throw errorMessage

/-- The part of `dlopen` in which there is a temporary directory. -/
def loadFrom (tempDirectoryPath libraryName fileContents : LuaString) :
    FileAction (Except LuaString Library) := do
  let tempFilePath := join [tempDirectoryPath, libraryName]
  WriteFile host.cwd host.refused host.written tempFilePath fileContents
  let loaded := host.load (← get) tempFilePath
  assert (← Delete host.cwd tempFilePath)
  assert (← Delete host.cwd tempDirectoryPath)
  return loaded

/-- The part of `dlopen` that follows the extraction. -/
def loadExtracted (libraryName fileContents : LuaString) : FileAction (Except LuaString Library) := do
  match ← fs_mkdtemp host (join [rooted host.cwd, ascii "LUAZIP-XXXXXX"]) with
  -- `path.join` returns nil for nil, which is no path to be opened.
  | .error _ => throw (ascii "bad argument #1 to 'fs_open' (string expected, got nil)")
  | .ok tempDirectoryPath => loadFrom host tempDirectoryPath libraryName fileContents

/-- The library, or `nil` and a message. -/
def dlopen (zipApp : Option (ZipApp Reader)) (libraryName : LuaString) :
    FileAction (Except LuaString Library) :=
  match zipApp with
  | none => return .error MISSING_APP_BUNDLE
  | some zipApp =>
    match extract host.miniz zipApp (dlname false libraryName) with
    | .error error => throw (ascii error.message)
    | .ok (.error errorMessage) => return .error errorMessage
    | .ok (.ok fileContents) => loadExtracted host (dlname false libraryName) fileContents

/-! ## Files below the root -/

section Rooted

variable (cwd : List LuaString) {names : List LuaString} {last : LuaString} {tree : FileTree}
  (named : Named (names ++ [last]))
include named

theorem stat_rooted {found : TreeNode LuaString} (here : tree.node (names ++ [last]) = some found) :
    stat cwd tree (rooted (names ++ [last])) = .ok found := by
  have entry := entryPath_rooted named cwd
  refine (stat_eq_ok_iff entry.nonempty entry.descends).mpr ⟨?_, fun directory => ?_⟩
  · rwa [entry.enter_eq]
  · exact absurd directory (not_meansDirectory_rooted named)

theorem delete_file {contents : LuaString}
    (leaf : tree.node (names ++ [last]) = some (.leaf contents)) :
    ∃ after, (Delete cwd (rooted (names ++ [last]))).outcome tree = (.ok (.ok ()), after) ∧
      ∀ location, after.node location =
        if location = names ++ [last] then none else tree.node location := by
  obtain ⟨after, removed, nodes⟩ := unlink_removes (entryPath_rooted named cwd)
    (not_endsWithDot_rooted named) (trailing_rooted named) leaf
  refine ⟨after, ?_, nodes⟩
  rw [outcome_Delete, stat_rooted cwd named leaf]
  dsimp only
  rw [outcome_call, removed]

theorem delete_directory (branch : tree.node (names ++ [last]) = some .branch)
    (empty : ∀ name, tree.node (names ++ [last] ++ [name]) = none) :
    ∃ after, (Delete cwd (rooted (names ++ [last]))).outcome tree = (.ok (.ok ()), after) ∧
      ∀ location, after.node location =
        if location = names ++ [last] then none else tree.node location := by
  obtain ⟨after, removed, nodes⟩ := rmdir_removes (entryPath_rooted named cwd)
    (not_endsWithDot_rooted named) branch (NamedTree.childless_iff.mpr empty)
  refine ⟨after, ?_, nodes⟩
  rw [outcome_Delete, stat_rooted cwd named branch]
  dsimp only
  rw [outcome_call, removed]

theorem writeFile_writes (written : Nat) (contents : LuaString)
    (inside : tree.node names = some .branch) (free : tree.node (names ++ [last]) ≠ some .branch) :
    ∃ after stored, (WriteFile cwd none written (rooted (names ++ [last])) contents).outcome tree =
        (.ok (), after) ∧ ∀ location, after.node location =
          if location = names ++ [last] then some (.leaf stored) else tree.node location := by
  obtain ⟨opened, result, nodes⟩ := open_makes (entryPath_rooted named cwd)
    (not_endsWithDot_rooted named) (trailing_rooted named) inside free
  have leaf : opened.node (names ++ [last]) = some (.leaf []) := by rw [nodes, if_pos rfl]
  refine ⟨opened.write (names ++ [last]) (contents.take written), contents.take written, ?_,
    fun location => ?_⟩
  · rw [WriteFile, outcome_bind, outcome_get]
    dsimp only
    rw [result, outcome_modify]
  · rw [node_write leaf, nodes]
    split <;> simp

/-- The file cannot be opened, and nothing has been changed. -/
theorem writeFile_raises (refused : Option Errno) (written : Nat) (contents : LuaString)
    (blocked : refused ≠ none ∨ tree.node names ≠ some .branch ∨
      tree.node (names ++ [last]) = some .branch) :
    ∃ message, (WriteFile cwd refused written (rooted (names ++ [last])) contents).outcome tree =
      (.error message, tree) := by
  cases refused with
  | some errno => exact ⟨_, rfl⟩
  | none =>
    rw [WriteFile, outcome_bind, outcome_get]
    dsimp only
    cases result : open_ cwd tree (rooted (names ++ [last])) with
    | error errno => exact ⟨_, rfl⟩
    | ok opened =>
      obtain ⟨inside, free⟩ := open_requires (entryPath_rooted named cwd) result
      simp [inside, free] at blocked

end Rooted

theorem writeFile_trailing {path : LuaString} (slash : Trailing path = true) (cwd : List LuaString)
    (refused : Option Errno) (written : Nat) (contents : LuaString) (tree : FileTree) :
    ∃ message, (WriteFile cwd refused written path contents).outcome tree =
      (.error message, tree) := by
  cases refused with
  | some errno => exact ⟨_, rfl⟩
  | none =>
    obtain ⟨errno, failed⟩ : ∃ errno, open_ cwd tree path = .error errno := open_trailing slash
    rw [WriteFile, outcome_bind, outcome_get]
    dsimp only
    rw [failed]
    exact ⟨_, rfl⟩

/-! ## The temporary directory -/

/-- The last name of an absolute path is the end of its text. -/
theorem rooted_concat (names : List LuaString) :
    ∃ front, ∀ last, rooted (names ++ [last]) = front ++ last := by
  by_cases below : names = []
  · exact ⟨[CHAR_FORWARD_SLASH], fun last => by simp [below, rooted, Separators.join]⟩
  · refine ⟨rooted names ++ [CHAR_FORWARD_SLASH], fun last => ?_⟩
    rw [rooted, rooted, Separators.join, join_concat below]
    simp [Separators.join, posixSeparators]

theorem join_rooted {location : List LuaString} (named : Named location) {name : LuaString}
    (nonempty : name ≠ []) : join [rooted location, name] =
      spelled true (Trailing name)
        (segmentReading.walk false location (posixSeparators.split name)) := by
  have behind : following [name] = CHAR_FORWARD_SLASH :: name := by simp [following, nonempty]
  have absolute : isAbsolute (rooted location) = true := by
    rw [isAbsolute_eq]
    rfl
  have front : rooted location ≠ [] := List.cons_ne_nil _ _
  have last : Trailing (rooted location ++ CHAR_FORWARD_SLASH :: name) = Trailing name := by
    rw [trailing_append _ (List.cons_ne_nil _ _)]
    exact trailing_append [CHAR_FORWARD_SLASH] nonempty
  have parts : parts (rooted location) = location := by
    rw [rooted_eq_spelled]
    exact parts_spelled_named true named
  rw [join_eq_normalize (joined_cons front _), behind,
    normalize_eq_spelled (List.append_ne_nil_of_left_ne_nil front _), last,
    isAbsolute_append front, absolute, parts_append front, absolute, parts]
  rfl

/-- Where the temporary directory is made. -/
def tempLocation (cwd : List LuaString) (letters : LuaString) : List LuaString :=
  cwd ++ [ascii "LUAZIP-" ++ letters]

theorem tempLocation_named {cwd : List LuaString} (named : Named cwd) (letters : Letters) :
    Named (tempLocation cwd letters) := by
  obtain ⟨letters, -, unseparated⟩ := letters
  -- No such name is short enough to be read in another way.
  have front : (ascii "LUAZIP-").length = 7 := by decide
  have long {short : LuaString} (few : short.length < 7) : ascii "LUAZIP-" ++ letters ≠ short := by
    rintro rfl
    rw [List.length_append, front] at few
    omega
  have empty : ascii "LUAZIP-" ++ letters ≠ [] := long (by decide)
  have dot : ascii "LUAZIP-" ++ letters ≠ ascii "." := long (by decide)
  have kept : segmentReading.skipped (ascii "LUAZIP-" ++ letters) = false :=
    decide_eq_false (not_or.mpr ⟨empty, dot⟩)
  have name : segmentReading.IsName (ascii "LUAZIP-" ++ letters) := ⟨kept, long (by decide)⟩
  have clean : CHAR_FORWARD_SLASH ∉ ascii "LUAZIP-" := by decide
  intro s member
  rcases List.mem_append.mp member with above | last
  · exact named s above
  · rw [List.mem_singleton.mp last]
    exact ⟨name, fun slash => (List.mem_append.mp slash).elim clean unseparated⟩

theorem mkdtemp_eq {cwd : List LuaString} (named : Named cwd) (tree : FileTree)
    (letters : LuaString) :
    mkdtemp cwd tree (join [rooted cwd, ascii "LUAZIP-XXXXXX"]) letters =
      (mkdir cwd tree (rooted (tempLocation cwd letters))).map fun after =>
        (rooted (tempLocation cwd letters), after) := by
  have template : join [rooted cwd, ascii "LUAZIP-XXXXXX"] =
      rooted (cwd ++ [ascii "LUAZIP-" ++ ascii "XXXXXX"]) := by
    rw [join_rooted named (by decide), rooted_eq_spelled]
    have split : posixSeparators.split (ascii "LUAZIP-XXXXXX") = [ascii "LUAZIP-XXXXXX"] := by decide
    have name : segmentReading.IsName (ascii "LUAZIP-XXXXXX") := ⟨by decide, by decide⟩
    rw [split, SegmentReading.walk_cons, SegmentReading.push_name name]
    rfl
  obtain ⟨front, text⟩ := rooted_concat cwd
  have count : (ascii "XXXXXX").length = 6 := by decide
  -- The last six characters are replaced, so that the rest of the template is kept.
  have whole : (front ++ (ascii "LUAZIP-" ++ ascii "XXXXXX")).length - 6 =
      (front ++ ascii "LUAZIP-").length := by
    rw [← List.append_assoc, List.length_append, count, Nat.add_sub_cancel]
  rw [template, text, mkdtemp, whole, ← List.append_assoc, List.drop_left, List.take_left, if_pos rfl]
  dsimp only
  rw [tempLocation, text, List.append_assoc]
  cases mkdir cwd tree (front ++ (ascii "LUAZIP-" ++ letters)) <;> rfl

/-! ## What is left behind -/

/-- Nothing is there that was not there before. -/
def LeavesNothing (before after : FileTree) : Prop :=
  ∀ location, after.node location ≠ none → before.node location ≠ none

/-- Where the path of the file for the library leads. -/
def libraryLocation (cwd : List LuaString) (letters libraryName : LuaString) : List LuaString :=
  segmentReading.walk false (tempLocation cwd letters) (posixSeparators.split libraryName)

/-- What stands at a location once the temporary directory has been made. -/
def nodeWithTemp (tree : FileTree) (temp location : List LuaString) : Option (TreeNode LuaString) :=
  if location = temp then some .branch else tree.node location

/-- The file for the library can be opened: it stands in a directory and is none itself. -/
def Writable (tree : FileTree) (letters libraryName : LuaString) : Prop :=
  host.refused = none ∧ Trailing libraryName = false ∧ ∃ directory file,
    libraryLocation host.cwd letters libraryName = directory ++ [file] ∧
    nodeWithTemp tree (tempLocation host.cwd letters) directory = some .branch ∧
    nodeWithTemp tree (tempLocation host.cwd letters) (directory ++ [file]) ≠ some .branch

variable {host} {tree made : FileTree} {letters : Letters} {libraryName fileContents : LuaString}

theorem libraryLocation_named (host : Surroundings Reader Library) (letters : Letters)
    (libraryName : LuaString) : Named (libraryLocation host.cwd letters libraryName) := by
  have start := tempLocation_named host.named letters
  intro s member
  exact ⟨SegmentReading.walk_keeps_names _ (fun s member => (start s member).1) s member,
    SegmentReading.walk_forall (fun s member => (start s member).2) (slash_not_mem_split libraryName)
      s member⟩

theorem join_library (nonempty : libraryName ≠ []) :
    join [rooted (tempLocation host.cwd letters), libraryName] =
      spelled true (Trailing libraryName) (libraryLocation host.cwd letters libraryName) :=
  join_rooted (tempLocation_named host.named letters) nonempty

section Made

variable (nonempty : libraryName ≠ [])
  (nodes : ∀ location, made.node location =
    nodeWithTemp tree (tempLocation host.cwd letters) location)
include nodes

/-- Nothing is in a directory that has just been made. -/
theorem empty_temp (absent : tree.node (tempLocation host.cwd letters) = none) (name : LuaString) :
    made.node (tempLocation host.cwd letters ++ [name]) = none := by
  have below : tempLocation host.cwd letters ++ [name] ≠ tempLocation host.cwd letters := by simp
  rw [nodes, nodeWithTemp, if_neg below]
  by_contra found
  have branch := NamedTree.branch_above found (List.cons_ne_nil _ _)
  cases absent.symm.trans branch

include nonempty

/-- An error in front of the clean-up leaves the directory behind. -/
theorem loadFrom_raises (notWritable : ¬Writable host tree letters libraryName) :
    ((loadFrom host (rooted (tempLocation host.cwd letters)) libraryName fileContents).outcome
      made).2 = made := by
  have named := libraryLocation_named host letters libraryName
  have raised : ∃ message, (WriteFile host.cwd host.refused host.written
      (join [rooted (tempLocation host.cwd letters), libraryName]) fileContents).outcome made =
        (.error message, made) := by
    rw [join_library nonempty]
    -- What does not end with a slash is the path of an entry.
    by_cases slash : Trailing (spelled true (Trailing libraryName)
        (libraryLocation host.cwd letters libraryName)) = true
    · exact writeFile_trailing slash _ _ _ _ _
    · rw [trailing_spelled named.clean, Bool.or_eq_true, not_or] at slash
      obtain ⟨noSlash, below⟩ := slash
      obtain ⟨directory, file, target⟩ := (List.eq_nil_or_concat' _).resolve_left fun root =>
        below (by simpa using root)
      rw [target] at named ⊢
      rw [eq_false_of_ne_true noSlash, ← rooted_eq_spelled]
      refine writeFile_raises _ named _ _ _ ?_
      by_contra free
      simp only [not_or, not_not, nodes] at free
      exact notWritable ⟨free.1, eq_false_of_ne_true noSlash, directory, file, target, free.2⟩
  obtain ⟨message, raised⟩ := raised
  rw [loadFrom, outcome_bind, raised]

/-- Otherwise both the file and the directory are removed. -/
theorem loadFrom_removes (absent : tree.node (tempLocation host.cwd letters) = none)
    (writable : Writable host tree letters libraryName) :
    ∃ file after, ((loadFrom host (rooted (tempLocation host.cwd letters)) libraryName
        fileContents).outcome made).2 = after ∧ ∀ location, after.node location =
      if location = tempLocation host.cwd letters then none
      else if location = file then none else made.node location := by
  obtain ⟨refused, noSlash, directory, file, target, inside, free⟩ := writable
  have named := libraryLocation_named host letters libraryName
  have path : join [rooted (tempLocation host.cwd letters), libraryName] = _ := join_library nonempty
  rw [noSlash, ← rooted_eq_spelled, target] at path
  rw [target] at named
  rw [← nodes] at inside free
  obtain ⟨stored, bytes, writes, storedNodes⟩ :=
    writeFile_writes host.cwd named host.written fileContents inside free
  obtain ⟨unlinked, deletes, unlinkedNodes⟩ :=
    delete_file host.cwd named (by rw [storedNodes, if_pos rfl])
  -- What is left is the tree with the directory, less the file.
  have left (location : List LuaString) : unlinked.node location =
      if location = directory ++ [file] then none else made.node location := by
    rw [unlinkedNodes, storedNodes]
    split <;> rfl
  have temp : made.node (tempLocation host.cwd letters) = some .branch := by
    rw [nodes, nodeWithTemp, if_pos rfl]
  have other : tempLocation host.cwd letters ≠ directory ++ [file] := fun same => free (same ▸ temp)
  have empty (name : LuaString) : unlinked.node (tempLocation host.cwd letters ++ [name]) = none := by
    rw [left, empty_temp nodes absent, ite_self]
  obtain ⟨after, removes, afterNodes⟩ := delete_directory host.cwd
    (tempLocation_named host.named letters) (by rw [← tempLocation, left, if_neg other, temp]) empty
  refine ⟨directory ++ [file], after, ?_, fun location => ?_⟩
  · rw [tempLocation] at path ⊢
    simp only [loadFrom, outcome_bind, path, refused, writes, outcome_get, deletes, assert,
      outcome_pure, removes]
  · rw [afterNodes, ← tempLocation, left]

theorem loadFrom_cleans (absent : tree.node (tempLocation host.cwd letters) = none)
    (writable : Writable host tree letters libraryName) :
    LeavesNothing tree ((loadFrom host (rooted (tempLocation host.cwd letters)) libraryName
      fileContents).outcome made).2 := by
  obtain ⟨file, after, run, left⟩ := loadFrom_removes nonempty nodes absent writable
  rw [run]
  intro location there
  rw [left, nodes, nodeWithTemp] at there
  split at there
  case isTrue => exact absurd rfl there
  case isFalse notTemp =>
    split at there
    case isTrue => exact absurd rfl there
    case isFalse => exact there

end Made

/-- The temporary directory is made, and then the file for the library cannot be opened. -/
def Strands (host : Surroundings Reader Library) (tree : FileTree) (libraryName : LuaString) : Prop :=
  ∃ letters : Letters, host.letters = .ok letters ∧ tree.node host.cwd = some .branch ∧
    tree.node (tempLocation host.cwd letters) = none ∧ ¬Writable host tree letters libraryName

theorem outcome_fs_mkdtemp (found : host.letters = .ok letters) :
    (fs_mkdtemp host (join [rooted host.cwd, ascii "LUAZIP-XXXXXX"])).outcome tree =
      match mkdir host.cwd tree (rooted (tempLocation host.cwd letters)) with
      | .error errno =>
        (.ok (.error (errno.message (join [rooted host.cwd, ascii "LUAZIP-XXXXXX"]))), tree)
      | .ok after => (.ok (.ok (rooted (tempLocation host.cwd letters))), after) := by
  rw [fs_mkdtemp, found]
  dsimp only
  rw [outcome_bind, outcome_get]
  dsimp only
  rw [mkdtemp_eq host.named]
  cases mkdir host.cwd tree (rooted (tempLocation host.cwd letters)) <;> rfl

theorem LeavesNothing.refl : LeavesNothing tree tree := fun _ there => there

/-- The directory is made where its name is free in the current directory. -/
theorem mkdir_temp_requires
    (result : mkdir host.cwd tree (rooted (tempLocation host.cwd letters)) = .ok made) :
    tree.node host.cwd = some .branch ∧ tree.node (tempLocation host.cwd letters) = none ∧
      ∀ location, made.node location = nodeWithTemp tree (tempLocation host.cwd letters) location := by
  have entry := entryPath_rooted (tempLocation_named host.named letters) host.cwd
  obtain ⟨notDot, inside, absent⟩ := mkdir_requires entry result
  obtain ⟨after, makes, nodes⟩ := mkdir_makes entry notDot inside absent
  cases result.symm.trans makes
  exact ⟨inside, absent, nodes⟩

theorem mkdir_temp (inside : tree.node host.cwd = some .branch)
    (absent : tree.node (tempLocation host.cwd letters) = none) :
    ∃ made, mkdir host.cwd tree (rooted (tempLocation host.cwd letters)) = .ok made := by
  have named := tempLocation_named host.named letters
  obtain ⟨made, makes, -⟩ := mkdir_makes (entryPath_rooted named host.cwd)
    (not_endsWithDot_rooted named) inside absent
  exact ⟨made, makes⟩

theorem loadExtracted_clean_iff (nonempty : libraryName ≠ []) :
    LeavesNothing tree ((loadExtracted host libraryName fileContents).outcome tree).2 ↔
      ¬Strands host tree libraryName := by
  rw [loadExtracted, outcome_bind]
  cases chosen : host.letters with
  | error errno =>
    have failed : ∃ message, (fs_mkdtemp host (join [rooted host.cwd, ascii "LUAZIP-XXXXXX"])).outcome
        tree = (.ok (.error message), tree) := by
      rw [fs_mkdtemp, chosen]
      exact ⟨_, rfl⟩
    obtain ⟨message, failed⟩ := failed
    -- Without a directory, nothing can be left behind.
    rw [failed]
    refine iff_of_true .refl ?_
    rintro ⟨letters, found, -⟩
    rw [chosen] at found
    cases found
  | ok letters =>
    rw [outcome_fs_mkdtemp chosen]
    cases result : mkdir host.cwd tree (rooted (tempLocation host.cwd letters)) with
    | error errno =>
      refine iff_of_true .refl ?_
      rintro ⟨other, found, inside, absent, -⟩
      cases chosen.symm.trans found
      obtain ⟨made, makes⟩ := mkdir_temp inside absent
      cases result.symm.trans makes
    | ok made =>
      obtain ⟨inside, absent, nodes⟩ := mkdir_temp_requires result
      by_cases writable : Writable host tree letters libraryName
      · refine iff_of_true (loadFrom_cleans nonempty nodes absent writable) ?_
        rintro ⟨other, found, -, -, notWritable⟩
        cases chosen.symm.trans found
        exact notWritable writable
      · refine iff_of_false (fun clean => ?_) (not_not.mpr ⟨letters, chosen, inside, absent, writable⟩)
        -- The directory itself is there, and it was not there before.
        have there := clean (tempLocation host.cwd letters)
        rw [loadFrom_raises nonempty nodes writable, nodes, nodeWithTemp, if_pos rfl] at there
        exact there (Option.some_ne_none _) absent

/-! ## Every exit -/

theorem dlname_ne_nil (isWindows : Bool) (libraryName : LuaString) :
    dlname isWindows libraryName ≠ [] := by
  by_cases empty : libraryName = []
  · subst empty
    cases isWindows <;> decide
  -- The name is a part of the result in every branch.
  · simp only [dlname]
    split_ifs <;> simp [empty]

/-- Nothing is left behind exactly if no directory is stranded for an entry of the app. -/
theorem dlopen_clean_iff (host : Surroundings Reader Library) (tree : FileTree)
    (zipApp : Option (ZipApp Reader)) (libraryName : LuaString) :
    LeavesNothing tree ((dlopen host zipApp libraryName).outcome tree).2 ↔
      ¬∃ app fileContents, zipApp = some app ∧
        extract host.miniz app (dlname false libraryName) = .ok (.ok fileContents) ∧
        Strands host tree (dlname false libraryName) := by
  cases zipApp with
  | none => exact iff_of_true .refl (by simp)
  | some app =>
    rw [dlopen]
    cases found : extract host.miniz app (dlname false libraryName) with
    | error error => exact iff_of_true .refl (by simp [found])
    | ok extracted =>
      cases extracted with
      | error message => exact iff_of_true .refl (by simp [found])
      | ok fileContents =>
        dsimp only
        rw [loadExtracted_clean_iff (dlname_ne_nil false libraryName)]
        simp [found]

/-- An app with a library in a directory. -/
def nestedApp : ZipApp (List (LuaString × LuaString)) where
  signature :=
    { magicValue := LUAZIP_MAGIC_VALUE
      versionMajor := 1
      versionMinor := 0
      executableSize := 0
      archiveSize := 0 }
  executable := []
  archive := []
  reader := some [(ascii "some/directory/libfoo.so", [])]

/-- Everything that is allowed by the operating system works. -/
def permissive : Surroundings (List (LuaString × LuaString)) Unit where
  miniz := sampleMiniz
  cwd := []
  named := List.forall_mem_nil _
  letters := .ok ⟨ascii "abcdef", by decide⟩
  refused := none
  written := 0
  load _ _ := .ok ()

theorem nestedApp_leaves_directory : ¬LeavesNothing bareTree
    ((dlopen permissive (some nestedApp) (ascii "some/directory/libfoo.so")).outcome bareTree).2 := by
  intro clean
  have there := clean [ascii "LUAZIP-abcdef"]
  exact there (by decide +kernel) (by decide)

end EvoRuntime.Vfs
