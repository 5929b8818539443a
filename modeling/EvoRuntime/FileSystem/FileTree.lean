import EvoRuntime.Library.NamedTrees
import EvoRuntime.Library.Raising
import EvoRuntime.Path.JoinLaws
import Mathlib.Data.List.DropRight

/-!
# File trees

The file system as the operating system sees it. A path is resolved component by component,
each of them in a directory that has to be there, and the calls that make or remove an entry
look at the last component themselves. There are no symbolic links. `cwd` is the location of
the current directory.

On top of the calls of libuv stand the functions of `C_FileSystem`. They act on the tree one
after the other, and what they have changed stays when a later one fails.
-/
namespace EvoRuntime.FileSystem

open Lua Library Raising EvoRuntime.Path

/-- The leaves are files with their contents. -/
abbrev FileTree := NamedTree LuaString LuaString

/-- A tree with nothing but its root. -/
def bareTree : FileTree where
  nodes := (∅ : AList _).insert [] .branch
  root := AList.lookup_insert _
  parent location name found := by
    have below : location ++ [name] ≠ [] :=
      List.append_ne_nil_of_right_ne_nil _ (List.cons_ne_nil _ _)
    rw [AList.lookup_insert_ne below] at found
    exact absurd (AList.lookup_empty _) found

theorem node_bareTree (location : List LuaString) :
    bareTree.node location = if location = [] then some .branch else none := by
  split
  case isTrue root => exact root ▸ bareTree.root
  case isFalse below => exact (AList.lookup_insert_ne below).trans (AList.lookup_empty _)

inductive Errno
  | ENOENT
  | ENOTDIR
  | EEXIST
  | EISDIR
  | ENOTEMPTY
  | EBUSY
  | EINVAL
  deriving DecidableEq

def Errno.strerror : Errno → LuaString
  | .ENOENT => ascii "ENOENT: no such file or directory"
  | .ENOTDIR => ascii "ENOTDIR: not a directory"
  | .EEXIST => ascii "EEXIST: file already exists"
  | .EISDIR => ascii "EISDIR: illegal operation on a directory"
  | .ENOTEMPTY => ascii "ENOTEMPTY: directory not empty"
  | .EBUSY => ascii "EBUSY: resource busy or locked"
  | .EINVAL => ascii "EINVAL: invalid argument"

/-- What a call of libuv returns besides `nil`. -/
def Errno.message (errno : Errno) (path : LuaString) : LuaString :=
  errno.strerror ++ ascii ": " ++ path

def Errno.ofObstacle : NamedTree.Obstacle → Errno
  | .missing => .ENOENT
  | .notBranch => .ENOTDIR

namespace FileTree

/-! ## The operating system -/

/-- Where the resolution of a path starts. -/
def startOf (cwd : List LuaString) (path : LuaString) : List LuaString :=
  if IsAbsolute path then [] else cwd

variable (cwd : List LuaString) (tree : FileTree)

def stat (path : LuaString) : Except Errno (TreeNode LuaString) :=
  if path = [] then .error .ENOENT
  else
    match tree.resolve segmentReading (startOf cwd path) (posixSeparators.split path) with
    | .error obstacle => .error (.ofObstacle obstacle)
    | .ok location =>
      match tree.node location with
      | some found => .ok found
      | none => .error .ENOENT

/-- What the last component of a path stands for. -/
inductive LastComponent
  /-- There are only slashes. -/
  | root
  | dot
  | dots
  | name (place : tree.Place)

/-- The components of a path, without the slashes at its end. -/
def components (path : LuaString) : List LuaString :=
  (posixSeparators.split path).rdropWhile (·.isEmpty)

/-- The part in front of the last component has to lead to a directory. -/
def lastComponent (path : LuaString) : Except Errno (LastComponent tree) :=
  if path = [] then .error .ENOENT
  else
    match (components path).getLast? with
    | none => .ok .root
    | some name =>
      match tree.resolve segmentReading (startOf cwd path) (components path).dropLast with
      | .error obstacle => .error (.ofObstacle obstacle)
      | .ok directory =>
        if inside : tree.node directory = some .branch then
          if name = ascii "." then .ok .dot
          else if name = ascii ".." then .ok .dots
          else .ok (.name ⟨directory, name, inside⟩)
        else if tree.node directory = none then .error .ENOENT
        else .error .ENOTDIR

def mkdir (path : LuaString) : Except Errno FileTree :=
  match lastComponent cwd tree path with
  | .error errno => .error errno
  | .ok (.name place) =>
    if free : tree.node place.location = none then
      .ok (tree.put place .branch (free.trans_ne (Option.some_ne_none _).symm))
    else .error .EEXIST
  -- No directory is made under the name of a dot.
  | .ok _ => .error .EEXIST

def rmdir (path : LuaString) : Except Errno FileTree :=
  match lastComponent cwd tree path with
  | .error errno => .error errno
  | .ok (.name place) =>
    match tree.node place.location with
    | none => .error .ENOENT
    | some (.leaf _) => .error .ENOTDIR
    | some .branch =>
      if childless : tree.Childless place.location then .ok (tree.remove place childless)
      else .error .ENOTEMPTY
  | .ok .root => .error .EBUSY
  | .ok .dot => .error .EINVAL
  | .ok .dots => .error .ENOTEMPTY

def unlink (path : LuaString) : Except Errno FileTree :=
  match lastComponent cwd tree path with
  | .error errno => .error errno
  | .ok (.name place) =>
    match found : tree.node place.location with
    | none => .error .ENOENT
    | some .branch => .error .EISDIR
    | some (.leaf _) =>
      -- With a slash behind it, the name could only be the one of a directory.
      if Trailing path then .error .ENOTDIR
      else .ok (tree.remove place (NamedTree.childless_of_leaf found))
  | .ok _ => .error .EISDIR

/-- With the flags `"w"`, a file is made or emptied. It is known by its location from then on. -/
def open_ (path : LuaString) : Except Errno (List LuaString × FileTree) :=
  match lastComponent cwd tree path with
  | .error errno => .error errno
  | .ok (.name place) =>
    if Trailing path then .error .EISDIR
    else if free : tree.node place.location ≠ some .branch then
      .ok (place.location, tree.put place (.leaf []) free)
    else .error .EISDIR
  | .ok _ => .error .EISDIR

/-- `letters` stand in for `XXXXXX` at the end of the template. -/
def mkdtemp (template letters : LuaString) : Except Errno (LuaString × FileTree) :=
  if template.drop (template.length - 6) = ascii "XXXXXX" then
    let path := template.take (template.length - 6) ++ letters
    match mkdir cwd tree path with
    | .error errno => .error errno
    | .ok tree => .ok (path, tree)
  else .error .EINVAL

/-- The bytes stand at the start of the file then. -/
def write (location : List LuaString) (bytes : LuaString) : FileTree :=
  match leaf : tree.node location with
  | some (.leaf old) => tree.setLeaf location (bytes ++ old.drop bytes.length) leaf
  | _ => tree

end FileTree

/-! ## `C_FileSystem` -/

open FileTree

abbrev FileAction (α : Type) := Raising FileTree LuaString α

/-- A call of libuv that returns its error, or has changed the tree. -/
def call (path : LuaString) (operation : FileTree → Except Errno FileTree) :
    FileAction (Except LuaString Unit) := do
  match operation (← get) with
  | .error errno => return .error (errno.message path)
  | .ok tree => do
    modify fun _ => tree
    return .ok ()

/-- `fileAttributes.type`. -/
def type : TreeNode LuaString → LuaString
  | .branch => ascii "directory"
  | .leaf _ => ascii "file"

namespace C_FileSystem

variable (cwd : List LuaString)

/-- `uv.fs_access(fileSystemPath, "R")`, where everything that is there can be read. -/
def Exists (fileSystemPath : LuaString) : FileAction Bool := do
  return (stat cwd (← get) fileSystemPath).isOk

def IsDirectory (fileSystemPath : LuaString) : FileAction Bool := do
  match stat cwd (← get) fileSystemPath with
  | .error _ => return false
  | .ok fileAttributes => return type fileAttributes = ascii "directory"

def Delete (fileSystemPath : LuaString) : FileAction (Except LuaString Unit) := do
  if ← Exists cwd fileSystemPath then
    if ← IsDirectory cwd fileSystemPath then call fileSystemPath (rmdir cwd · fileSystemPath)
    else call fileSystemPath (unlink cwd · fileSystemPath)
  else return .ok ()

/-- `refused` is any reason of the operating system's own for not opening the file, and
`written` is how many of the bytes it writes. What `uv.fs_write` returns is not looked at. -/
def WriteFile (refused : Option Errno) (written : Nat) (filePath contents : LuaString) :
    FileAction Unit := do
  match refused with
  | some errno => throw (errno.message filePath)
  | none =>
    match open_ cwd (← get) filePath with
    | .error errno => throw (errno.message filePath)
    | .ok (fileDescriptor, tree) => modify fun _ => tree.write fileDescriptor (contents.take written)

/-- The part of `MakeDirectoryTree` behind the parents. -/
def makeLast (directoryPath : LuaString) : FileAction (Except LuaString Unit) := do
  if ← Exists cwd directoryPath then
    if ← IsDirectory cwd directoryPath then return .ok ()
    else return .error (ascii "Path exists but is not a directory")
  else call directoryPath (mkdir cwd · directoryPath)

/-- Without `fuel` the calls are nested too deeply. -/
def MakeDirectoryTree : (fuel : Nat) → (directoryPath : LuaString) →
    FileAction (Except LuaString Unit)
  | 0, _ => throw (ascii "stack overflow")
  | fuel + 1, directoryPath => do
    let parent := join [directoryPath, ascii ".."]
    if ← Exists cwd parent then makeLast cwd directoryPath
    else
      match ← MakeDirectoryTree fuel parent with
      | .error error => return .error error
      | .ok () => makeLast cwd directoryPath

end C_FileSystem

/-! ## What the calls do -/

theorem outcome_call (path : LuaString) (operation : FileTree → Except Errno FileTree)
    (tree : FileTree) : (call path operation).outcome tree =
      match operation tree with
      | .error errno => (.ok (.error (errno.message path)), tree)
      | .ok after => (.ok (.ok ()), after) := by
  rw [call, outcome_bind, outcome_get]
  dsimp only
  cases operation tree <;> rfl

namespace C_FileSystem

variable (cwd : List LuaString) (path : LuaString) (tree : FileTree)

@[simp] theorem outcome_Exists :
    (Exists cwd path).outcome tree = (.ok (stat cwd tree path).isOk, tree) := rfl

@[simp] theorem outcome_IsDirectory : (IsDirectory cwd path).outcome tree =
    (.ok (decide (stat cwd tree path = .ok .branch)), tree) := by
  have differs : ascii "file" ≠ ascii "directory" := by decide
  rw [IsDirectory, outcome_bind, outcome_get]
  dsimp only
  cases stat cwd tree path with
  | error errno => simp
  | ok found => cases found <;> simp [type, differs]

theorem outcome_makeLast : (makeLast cwd path).outcome tree =
      match stat cwd tree path with
      | .ok .branch => (.ok (.ok ()), tree)
      | .ok (.leaf _) => (.ok (.error (ascii "Path exists but is not a directory")), tree)
      | .error _ => (call path (mkdir cwd · path)).outcome tree := by
  rw [makeLast, outcome_bind, outcome_Exists]
  cases found : stat cwd tree path with
  | error errno => rfl
  | ok node => cases node <;> simp [outcome_bind, found, Except.isOk, Except.toBool]

/-- The recursion: the parent is there, or it is made first. -/
theorem outcome_MakeDirectoryTree (fuel : Nat) :
    (MakeDirectoryTree cwd (fuel + 1) path).outcome tree =
      if (stat cwd tree (join [path, ascii ".."])).isOk then (makeLast cwd path).outcome tree
      else
        match (MakeDirectoryTree cwd fuel (join [path, ascii ".."])).outcome tree with
        | (.ok (.ok ()), between) => (makeLast cwd path).outcome between
        | (.ok (.error error), between) => (.ok (.error error), between)
        | (.error error, between) => (.error error, between) := by
  rw [MakeDirectoryTree, outcome_bind, outcome_Exists]
  dsimp only
  split
  case isTrue => rfl
  case isFalse =>
    rw [outcome_bind]
    -- An error of the parent is passed on, whether it is raised or returned.
    obtain ⟨_ | (_ | _), between⟩ :=
      (MakeDirectoryTree cwd fuel (join [path, ascii ".."])).outcome tree <;> rfl

theorem outcome_Delete : (Delete cwd path).outcome tree =
    match stat cwd tree path with
    | .ok .branch => (call path (rmdir cwd · path)).outcome tree
    | .ok (.leaf _) => (call path (unlink cwd · path)).outcome tree
    | .error _ => (.ok (.ok ()), tree) := by
  rw [Delete, outcome_bind, outcome_Exists]
  cases found : stat cwd tree path with
  | error errno => rfl
  | ok node => cases node <;> simp [outcome_bind, found, Except.isOk, Except.toBool]

end C_FileSystem

end EvoRuntime.FileSystem
