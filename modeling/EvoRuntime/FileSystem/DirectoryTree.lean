import EvoRuntime.Path.Normalize
import Mathlib.Data.Finset.Sort

/-!
# Directory trees

The file system is a tree of directories. Paths are resolved as text, from an absolute
current directory, so no directory on the way is a symbolic link.

`readDirectory_spec`: the keys of the table are the paths that `join` makes of the
given path and the names on the way to each entry that is not a directory.

## Proof strategy

The recursion of the code is on paths, that of the proof on the tree: `Disk.nodeAt` says which
part of the tree a path leads to, and `join` takes one step down in both.
-/
namespace EvoRuntime.FileSystem

open Lua Library EvoRuntime.Path

/-- The entries of a directory, in the order in which they are listed. -/
inductive Directory
  | empty
  /-- An entry of any other type than `"directory"`. -/
  | file (name type contents : LuaString) (rest : Directory)
  | directory (name : LuaString) (entries rest : Directory)

namespace Directory

inductive Node
  | file (type contents : LuaString)
  | directory (entries : Directory)

def Node.type : Node → LuaString
  | .file type _ => type
  | .directory _ => ascii "directory"

def nodes : Directory → List (LuaString × Node)
  | empty => []
  | file name type contents rest => (name, .file type contents) :: rest.nodes
  | directory name entries rest => (name, .directory entries) :: rest.nodes

/-- The entries that are not directories, with the names on the way to them. -/
def files : Directory → List (List LuaString × LuaString)
  | empty => []
  | file name _ contents rest => ([name], contents) :: rest.files
  | directory name entries rest =>
    entries.files.map (fun entry => (name :: entry.1, entry.2)) ++ rest.files

def depth : Directory → Nat
  | empty => 0
  | file _ _ _ rest => rest.depth
  | directory _ entries rest => max (entries.depth + 1) rest.depth

/-- Names are not empty, contain no slash, are not `.` or `..` and do not occur twice. -/
def Proper : Directory → Prop
  | empty => True
  | file name type _ rest =>
    Named [name] ∧ name ∉ rest.nodes.map Prod.fst ∧ type ≠ ascii "directory" ∧ rest.Proper
  | directory name entries rest =>
    Named [name] ∧ name ∉ rest.nodes.map Prod.fst ∧ entries.Proper ∧ rest.Proper

/-- What stands at the end of a sequence of names. -/
def lookup : Directory → List LuaString → Option Node
  | entries, [] => some (.directory entries)
  | entries, name :: names =>
    match entries.nodes.lookup name with
    | some (.directory entries) => entries.lookup names
    | some (.file type contents) => if names = [] then some (.file type contents) else none
    | none => none

end Directory

/-- What the runtime reads through libuv. -/
structure Disk where
  root : Directory
  cwd : LuaString
  proper : root.Proper
  absolute : IsAbsolute cwd

def errorAt (reason : String) (path : LuaString) : LuaError :=
  ⟨reason ++ ": " ++ String.ofList (path.map fun c => Char.ofNat c.toNat)⟩

namespace Disk

def host (disk : Disk) : Host := ⟨false, disk.cwd⟩

/-- Where a path leads; the empty path leads nowhere. -/
def nodeAt (disk : Disk) (path : LuaString) : Option Directory.Node :=
  if path = [] then none else disk.root.lookup (locate disk.cwd [path])

/-- `uv.fs_scandir`, with what `uv.fs_scandir_next` returns for each entry. -/
def scandir (disk : Disk) (path : LuaString) : Except LuaError (List (LuaString × LuaString)) :=
  match disk.nodeAt path with
  | some (.directory entries) => .ok (entries.nodes.map fun node => (node.1, node.2.type))
  | some (.file _ _) => .error (errorAt "ENOTDIR: not a directory" path)
  | none => .error (errorAt "ENOENT: no such file or directory" path)

end Disk

/-! ## `C_FileSystem` -/

def Exists (disk : Disk) (fileSystemPath : LuaString) : Bool := (disk.nodeAt fileSystemPath).isSome

def IsDirectory (disk : Disk) (fileSystemPath : LuaString) : Bool :=
  match disk.nodeAt fileSystemPath with
  | none => false
  | some fileAttributes => fileAttributes.type = ascii "directory"

def ReadFile (disk : Disk) (filePath : LuaString) : Except LuaError LuaString :=
  match disk.nodeAt filePath with
  | none => .error (errorAt "ENOENT: no such file or directory" filePath)
  | some (.directory _) => .error ⟨"EISDIR: illegal operation on a directory"⟩
  | some (.file _ contents) => .ok contents

/-- One round of the loop in `readDirectory`. -/
def readEntry (readDirectoryTree : LuaString → Except LuaError (Finset LuaString))
    (filePath : LuaString) (isRecursiveMode : Bool) (directoryContents : Finset LuaString)
    (entry : LuaString × LuaString) : Except LuaError (Finset LuaString) := do
  let (name, type) := entry
  let canWalkRecursively : Bool := type = ascii "directory"
  let absolutePath := join [filePath, name]
  if canWalkRecursively && isRecursiveMode then
    let files ← readDirectoryTree absolutePath
    return directoryContents ∪ files
  else if isRecursiveMode then return insert absolutePath directoryContents
  else return insert name directoryContents

/-- The keys of the table that is returned; their values are all `true`. -/
def readDirectory (disk : Disk) :
    (fuel : Nat) → (filePath : LuaString) → (isRecursiveMode : Bool) →
      Except LuaError (Finset LuaString)
  | 0, _, _ => .error ⟨"stack overflow"⟩
  | fuel + 1, filePath, isRecursiveMode => do
    let entries ← disk.scandir filePath
    entries.foldlM (readEntry (fun absolutePath => readDirectory disk fuel absolutePath true)
      filePath isRecursiveMode) ∅

def ReadDirectory (disk : Disk) (fuel : Nat) (filePath : LuaString) :=
  readDirectory disk fuel filePath false

def ReadDirectoryTree (disk : Disk) (fuel : Nat) (filePath : LuaString) :=
  readDirectory disk fuel filePath true

/-! ## Trees -/

namespace Directory

variable {t u : Directory} {name : LuaString} {names : List LuaString}

theorem lookup_congr (same : t.nodes.lookup name = u.nodes.lookup name) (names : List LuaString) :
    t.lookup (name :: names) = u.lookup (name :: names) := by
  rw [lookup, lookup, same]

/-- A name that is listed is found. -/
theorem lookup_nodes (proper : t.Proper) {node : Node} (member : (name, node) ∈ t.nodes) :
    t.nodes.lookup name = some node := by
  -- A later entry has another name than those in front of it.
  have later {first : LuaString} {other : Node} {rest : Directory}
      (new : first ∉ rest.nodes.map Prod.fst) (member : (name, node) ∈ rest.nodes)
      (found : rest.nodes.lookup name = some node) :
      List.lookup name ((first, other) :: rest.nodes) = some node := by
    have differs : name ≠ first := by
      rintro rfl
      exact new (List.mem_map_of_mem member)
    rw [List.lookup_cons, beq_false_of_ne differs, found]
  induction t with
  | empty => exact absurd member List.not_mem_nil
  | file first type contents rest ih =>
    obtain ⟨-, new, -, proper⟩ := proper
    rcases List.mem_cons.mp member with same | member
    · obtain ⟨rfl, rfl⟩ := Prod.mk.inj same
      exact List.lookup_cons_self
    · exact later new member (ih proper member)
  | directory first entries rest _ ih =>
    obtain ⟨-, new, -, proper⟩ := proper
    rcases List.mem_cons.mp member with same | member
    · obtain ⟨rfl, rfl⟩ := Prod.mk.inj same
      exact List.lookup_cons_self
    · exact later new member (ih proper member)

theorem lookup_singleton (t : Directory) (name : LuaString) :
    t.lookup [name] = t.nodes.lookup name := by
  rw [lookup]
  cases t.nodes.lookup name with
  | none => rfl
  | some node =>
    cases node with
    | file type contents => rfl
    | directory entries => rfl

theorem lookup_name (proper : t.Proper) {node : Node} (member : (name, node) ∈ t.nodes) :
    t.lookup [name] = some node :=
  (lookup_singleton t name).trans (lookup_nodes proper member)

/-- The first name on the way to a directory is the one of a directory. -/
theorem exists_first_directory (found : t.lookup (name :: names) = some (.directory u)) :
    ∃ entries, t.nodes.lookup name = some (.directory entries) ∧
      entries.lookup names = some (.directory u) := by
  rw [lookup] at found
  cases entry : t.nodes.lookup name with
  | none =>
    rw [entry] at found
    cases found
  | some node =>
    rw [entry] at found
    cases node with
    | file type contents =>
      dsimp only at found
      split at found <;> cases found
    | directory entries => exact ⟨entries, rfl, found⟩

/-- Looking up goes on from a directory that has been found. -/
theorem lookup_append (found : t.lookup names = some (.directory u)) (more : List LuaString) :
    t.lookup (names ++ more) = u.lookup more := by
  induction names generalizing t with
  | nil =>
    obtain rfl := Node.directory.inj (Option.some.inj found)
    rfl
  | cons name names ih =>
    obtain ⟨entries, entry, rest⟩ := exists_first_directory found
    rw [List.cons_append, lookup, entry]
    exact ih rest

/-- Every entry and every directory that is found is proper. -/
theorem Proper.node (proper : t.Proper) {node : Node} (member : (name, node) ∈ t.nodes) :
    Named [name] ∧ ∀ entries, node = .directory entries → entries.Proper := by
  induction t with
  | empty => exact absurd member List.not_mem_nil
  | file first type contents rest ih =>
    rcases List.mem_cons.mp member with same | member
    · obtain ⟨rfl, rfl⟩ := Prod.mk.inj same
      exact ⟨proper.1, nofun⟩
    · exact ih proper.2.2.2 member
  | directory first entries rest _ ih =>
    rcases List.mem_cons.mp member with same | member
    · obtain ⟨rfl, rfl⟩ := Prod.mk.inj same
      refine ⟨proper.1, ?_⟩
      rintro entries ⟨⟩
      exact proper.2.2.1
    · exact ih proper.2.2.2 member

theorem Proper.lookup (proper : t.Proper) (found : t.lookup names = some (.directory u)) :
    u.Proper := by
  induction names generalizing t with
  | nil =>
    obtain rfl := Node.directory.inj (Option.some.inj found)
    exact proper
  | cons name names ih =>
    obtain ⟨entries, entry, rest⟩ := exists_first_directory found
    obtain ⟨before, after, shape, -⟩ := List.lookup_eq_some_iff.mp entry
    have member : (name, Node.directory entries) ∈ t.nodes := by simp [shape]
    exact ih ((proper.node member).2 entries rfl) rest

/-- The path to a file is made of names, the first of which is listed. -/
theorem files_names (proper : t.Proper) (entry : List LuaString × LuaString)
    (member : entry ∈ t.files) :
    Named entry.1 ∧ ∃ name names, entry.1 = name :: names ∧ name ∈ t.nodes.map Prod.fst := by
  induction t generalizing entry with
  | empty => exact absurd member List.not_mem_nil
  | file name type contents rest ih =>
    rcases List.mem_cons.mp member with rfl | member
    · exact ⟨proper.1, name, [], rfl, List.mem_cons_self⟩
    · obtain ⟨named, first, names, shape, listed⟩ := ih proper.2.2.2 entry member
      exact ⟨named, first, names, shape, List.mem_cons_of_mem _ listed⟩
  | directory name entries rest inner ih =>
    rcases List.mem_append.mp member with below | member
    · obtain ⟨entry, inside, rfl⟩ := List.mem_map.mp below
      have named := (inner proper.2.2.1 entry inside).1
      exact ⟨fun s member => (List.mem_cons.mp member).elim
        (fun same => proper.1 s (List.mem_singleton.mpr same)) (named s),
        name, entry.1, rfl, List.mem_cons_self⟩
    · obtain ⟨named, first, names, shape, listed⟩ := ih proper.2.2.2 entry member
      exact ⟨named, first, names, shape, List.mem_cons_of_mem _ listed⟩

/-- The path of a file among the later entries starts with a later name. -/
theorem lookup_later {first : LuaString} {node : Node} (shape : u.nodes = (first, node) :: t.nodes)
    (new : first ∉ t.nodes.map Prod.fst) (proper : t.Proper) (entry : List LuaString × LuaString)
    (member : entry ∈ t.files) : u.lookup entry.1 = t.lookup entry.1 := by
  obtain ⟨-, name, names, path, listed⟩ := files_names proper entry member
  have differs : name ≠ first := by
    rintro rfl
    exact new listed
  rw [path]
  exact lookup_congr (by rw [shape, List.lookup_cons, beq_false_of_ne differs]) names

/-- A file is found at the end of its path. -/
theorem lookup_files (proper : t.Proper) (entry : List LuaString × LuaString)
    (member : entry ∈ t.files) : ∃ type, t.lookup entry.1 = some (.file type entry.2) := by
  induction t generalizing entry with
  | empty => exact absurd member List.not_mem_nil
  | file name type contents rest ih =>
    rcases List.mem_cons.mp member with rfl | member
    · exact ⟨type, lookup_name proper List.mem_cons_self⟩
    · rw [lookup_later rfl proper.2.1 proper.2.2.2 entry member]
      exact ih proper.2.2.2 entry member
  | directory name entries rest inner ih =>
    rcases List.mem_append.mp member with below | member
    · obtain ⟨entry, inside, rfl⟩ := List.mem_map.mp below
      have found : (directory name entries rest).lookup [name] = some (.directory entries) :=
        lookup_name proper List.mem_cons_self
      obtain ⟨type, contents⟩ := inner proper.2.2.1 entry inside
      exact ⟨type, (lookup_append found entry.1).trans contents⟩
    · rw [lookup_later rfl proper.2.1 proper.2.2.2 entry member]
      exact ih proper.2.2.2 entry member

/-- No two files have the same path. -/
theorem files_nodup (proper : t.Proper) : (t.files.map Prod.fst).Nodup := by
  induction t with
  | empty => exact List.nodup_nil
  | file name type contents rest ih =>
    refine List.nodup_cons.mpr ⟨fun member => ?_, ih proper.2.2.2⟩
    obtain ⟨entry, inside, path⟩ := List.mem_map.mp member
    obtain ⟨-, first, names, shape, listed⟩ := files_names proper.2.2.2 entry inside
    obtain ⟨rfl, -⟩ := List.cons.inj (path.symm.trans shape)
    exact proper.2.1 listed
  | directory name entries rest inner ih =>
    rw [files, List.map_append, List.map_map]
    refine List.Nodup.append ?_ (ih proper.2.2.2) ?_
    · have below := (inner proper.2.2.1).map (List.cons_injective (a := name))
      rwa [List.map_map] at below
    · intro path below later
      obtain ⟨entry, -, rfl⟩ := List.mem_map.mp below
      obtain ⟨other, inside, path⟩ := List.mem_map.mp later
      obtain ⟨-, first, names, shape, listed⟩ := files_names proper.2.2.2 other inside
      obtain ⟨rfl, -⟩ := List.cons.inj (path.symm.trans shape)
      exact proper.2.1 listed

end Directory

/-! ## Walking a tree -/

/-- The path that `join` makes of a directory and the names on a way down. -/
def joinAll (directory : LuaString) (names : List LuaString) : LuaString :=
  names.foldl (fun path name => join [path, name]) directory

variable {disk : Disk} {path name : LuaString} {t : Directory}

theorem locate_joinAll (cwd : LuaString) {names : List LuaString} (named : Named names)
    (nonempty : path ≠ []) :
    joinAll path names ≠ [] ∧ locate cwd [joinAll path names] = locate cwd [path] ++ names := by
  induction names generalizing path with
  | nil => exact ⟨nonempty, (List.append_nil _).symm⟩
  | cons name names ih =>
    have first : Named [name] := fun s member =>
      named s (List.mem_singleton.mp member ▸ List.mem_cons_self)
    obtain ⟨more, located⟩ := ih (fun s member => named s (List.mem_cons_of_mem _ member))
      (join_ne_nil path name)
    refine ⟨more, located.trans ?_⟩
    rw [locate_join cwd nonempty first, List.append_assoc]
    rfl

theorem Disk.nodeAt_eq_some {node : Directory.Node} (found : disk.nodeAt path = some node) :
    path ≠ [] ∧ disk.root.lookup (locate disk.cwd [path]) = some node := by
  rw [Disk.nodeAt] at found
  split at found
  · cases found
  case isFalse nonempty => exact ⟨nonempty, found⟩

theorem Disk.proper_at (found : disk.nodeAt path = some (.directory t)) : t.Proper :=
  disk.proper.lookup (Disk.nodeAt_eq_some found).2

/-- The path that the code makes for a name leads to the entry with this name. -/
theorem Disk.nodeAt_join (found : disk.nodeAt path = some (.directory t)) (named : Named [name]) :
    disk.nodeAt (join [path, name]) = t.nodes.lookup name := by
  obtain ⟨nonempty, located⟩ := Disk.nodeAt_eq_some found
  rw [Disk.nodeAt, if_neg (join_ne_nil path name), locate_join disk.cwd nonempty named,
    Directory.lookup_append located, Directory.lookup_singleton]

/-- The keys for the files below a path. -/
def keys (path : LuaString) (t : Directory) : List LuaString :=
  t.files.map fun entry => joinAll path entry.1

theorem keys_directory (path name : LuaString) (entries rest : Directory) :
    keys path (.directory name entries rest) = keys (join [path, name]) entries ++ keys path rest := by
  rw [keys, Directory.files, List.map_append, List.map_map]
  rfl

/-- The loop, over some of the entries, when the recursion does what it should. -/
theorem readEntry_all {readDirectoryTree : LuaString → Except LuaError (Finset LuaString)}
    {fuel : Nat} (recursion : ∀ path t, disk.nodeAt path = some (.directory t) → t.depth < fuel →
      readDirectoryTree path = .ok (keys path t).toFinset)
    (proper : t.Proper) (shallow : t.depth < fuel + 1)
    (reached : ∀ name node, (name, node) ∈ t.nodes → disk.nodeAt (join [path, name]) = some node)
    (directoryContents : Finset LuaString) :
    (t.nodes.map fun node => (node.1, node.2.type)).foldlM (readEntry readDirectoryTree path true)
      directoryContents = .ok (directoryContents ∪ (keys path t).toFinset) := by
  induction t generalizing directoryContents with
  | empty => simp [Directory.nodes, keys, Directory.files, pure, Except.pure]
  | file name type contents rest ih =>
    obtain ⟨-, -, other, proper⟩ := proper
    have once : readEntry readDirectoryTree path true directoryContents (name, type) =
        .ok (insert (join [path, name]) directoryContents) := by
      simp [readEntry, other, pure, Except.pure]
    rw [Directory.nodes, List.map_cons, List.foldlM_cons]
    change (readEntry readDirectoryTree path true directoryContents (name, type) >>= _) = _
    rw [once]
    refine (ih proper shallow (fun name node member =>
      reached name node (List.mem_cons_of_mem _ member)) _).trans ?_
    rw [show keys path (.file name type contents rest) = join [path, name] :: keys path rest from rfl,
      List.toFinset_cons, Finset.insert_union, Finset.union_insert]
  | directory name entries rest _ ih =>
    obtain ⟨-, -, -, proper⟩ := proper
    rw [Directory.depth] at shallow
    have walked := recursion (join [path, name]) entries
      (reached name (.directory entries) List.mem_cons_self) (by omega)
    have once : readEntry readDirectoryTree path true directoryContents (name, ascii "directory") =
        .ok (directoryContents ∪ (keys (join [path, name]) entries).toFinset) := by
      simp [readEntry, walked, bind, Except.bind, pure, Except.pure]
    rw [Directory.nodes, List.map_cons, List.foldlM_cons]
    change (readEntry readDirectoryTree path true directoryContents (name, ascii "directory") >>= _) = _
    rw [once]
    refine (ih proper (by omega) (fun name node member =>
      reached name node (List.mem_cons_of_mem _ member)) _).trans ?_
    rw [keys_directory, List.toFinset_append, Finset.union_assoc]

/-- With enough fuel the table has the keys of all files. -/
theorem readDirectory_spec (fuel : Nat) (path : LuaString) (t : Directory)
    (found : disk.nodeAt path = some (.directory t)) (enough : t.depth < fuel) :
    readDirectory disk fuel path true = .ok (keys path t).toFinset := by
  induction fuel generalizing path t with
  | zero => exact absurd enough (Nat.not_lt_zero _)
  | succ fuel ih =>
    have listed : disk.scandir path = .ok (t.nodes.map fun node => (node.1, node.2.type)) := by
      rw [Disk.scandir, found]
    rw [readDirectory, listed]
    have proper := Disk.proper_at found
    have reached (name : LuaString) (node : Directory.Node) (member : (name, node) ∈ t.nodes) :
        disk.nodeAt (join [path, name]) = some node :=
      (Disk.nodeAt_join found (proper.node member).1).trans (Directory.lookup_nodes proper member)
    have all := readEntry_all ih proper enough reached ∅
    rw [Finset.empty_union] at all
    exact all

end EvoRuntime.FileSystem
