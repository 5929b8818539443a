import EvoRuntime.FileSystem.PathResolution

/-!
# Files as a store

To its callers, `C_FileSystem` is a store: there is an entry for every location, and a
location can be written in many ways. Reading, writing, appending and removing look at
nothing but the entry and the directory it stands in.

## Main result

`performAll_refines`: every sequence of calls, for paths that never go up, gets the replies
of the store and leaves its entries behind.

## Proof strategy

For each call there is one lemma that it does to a tree what it does to the store (`gives_*`).
Besides the location, a path only matters for how it ends (`endingOf`): `stat_eq_ok_iff_find`
and `writable_iff` say how, and the lemmas rest on them. `perform_gives` is the step, and
`performAll_refines` follows call by call.
-/
namespace EvoRuntime.FileSystem

open Lua Library Raising EvoRuntime.Path

namespace FileTree

variable (cwd : List LuaString) (tree : FileTree)

/-- With the flags `"r"`. A directory can be opened as well. -/
def openRead (path : LuaString) : Except Errno (List LuaString) :=
  if path = [] then .error .ENOENT
  else
    match tree.resolve segmentReading (startOf cwd path) (posixSeparators.split path) with
    | .error obstacle => .error (.ofObstacle obstacle)
    | .ok location =>
      match tree.node location with
      | some _ => .ok location
      | none => .error .ENOENT

/-- With the flags `"a"`, a file is made if there is none. -/
def openAppend (path : LuaString) : Except Errno (List LuaString × FileTree) :=
  match lastComponent cwd tree path with
  | .error errno => .error errno
  | .ok (.name place) =>
    if Trailing path then .error .EISDIR
    else
      match tree.node place.location with
      | some (.leaf _) => .ok (place.location, tree)
      | _ =>
        if free : tree.node place.location ≠ some .branch then
          .ok (place.location, tree.put place (.leaf []) free)
        else .error .EISDIR
  | .ok _ => .error .EISDIR

/-- The bytes stand at the end of the file then. -/
def append (location : List LuaString) (bytes : LuaString) : FileTree :=
  match leaf : tree.node location with
  | some (.leaf old) => tree.setLeaf location (old ++ bytes) leaf
  | _ => tree

/-- `fileAttributes.size`, for a file. -/
def size (location : List LuaString) : Nat :=
  match tree.node location with
  | some (.leaf contents) => contents.length
  | _ => 0

/-- Of the `size` bytes asked for, the operating system hands over `handed` at most. -/
def read (location : List LuaString) (size handed : Nat) : Except Errno LuaString :=
  match tree.node location with
  | some (.leaf contents) => .ok (contents.take (min size handed))
  | _ => .error .EISDIR

end FileTree

open FileTree

namespace C_FileSystem

variable (cwd : List LuaString)

def IsFile (fileSystemPath : LuaString) : FileAction Bool := do
  match stat cwd (← get) fileSystemPath with
  | .error _ => return false
  | .ok fileAttributes => return type fileAttributes = ascii "file"

/-- The result is `false` if the path is there, and an error comes with `nil`. -/
def MakeDirectory (directoryPath : LuaString) : FileAction (Except LuaString Bool) := do
  if ← Exists cwd directoryPath then return .ok false
  else
    match ← call directoryPath (mkdir cwd · directoryPath) with
    | .ok () => return .ok true
    | .error error => return .error error

/-- `refused` is any reason of the operating system's own for not opening the file. -/
def ReadFile (refused : Option Errno) (handed : Nat) (filePath : LuaString) :
    FileAction LuaString := do
  match refused with
  | some errno => throw (errno.message filePath)
  | none =>
    match openRead cwd (← get) filePath with
    | .error errno => throw (errno.message filePath)
    | .ok fileDescriptor =>
      let fileAttributes_size := (← get).size fileDescriptor
      match (← get).read fileDescriptor fileAttributes_size handed with
      | .error errno => throw errno.strerror
      | .ok fileContents => return fileContents

/-- What `uv.fs_write` returns is not looked at here either. -/
def AppendFile (refused : Option Errno) (written : Nat) (filePath contents : LuaString) :
    FileAction Unit := do
  match refused with
  | some errno => throw (errno.message filePath)
  | none =>
    match openAppend cwd (← get) filePath with
    | .error errno => throw (errno.message filePath)
    | .ok (fileDescriptor, tree) => modify fun _ => tree.append fileDescriptor (contents.take written)

end C_FileSystem

/-! ## The calls -/

/-- A function with its other arguments, and with what the operating system does with them. -/
inductive Operation
  | readFile (refused : Option Errno) (handed : Nat)
  | writeFile (refused : Option Errno) (written : Nat) (contents : LuaString)
  | appendFile (refused : Option Errno) (written : Nat) (contents : LuaString)
  | delete
  | makeDirectory
  | exists_
  | isFile
  | isDirectory

/-- What a caller gets. The texts of errors are left out. -/
inductive Reply
  | done
  | failed
  | contents (fileContents : LuaString)
  | answer (b : Bool)
  deriving DecidableEq

/-- An error that is raised. -/
def Reply.ofRaised {α : Type} (reply : α → Reply) : Except LuaString α → Reply
  | .ok a => reply a
  | .error _ => .failed

/-- An error that is returned. -/
def Reply.ofReturned : Except LuaString Unit → Reply
  | .ok () => .done
  | .error _ => .failed

open C_FileSystem in
def Operation.perform (cwd : List LuaString) (path : LuaString) : Operation → FileAction Reply
  | .readFile refused handed =>
    return .ofRaised .contents (← attempt (C_FileSystem.ReadFile cwd refused handed path))
  | .writeFile refused written contents =>
    return .ofRaised (fun _ => .done) (← attempt (WriteFile cwd refused written path contents))
  | .appendFile refused written contents =>
    return .ofRaised (fun _ => .done) (← attempt (AppendFile cwd refused written path contents))
  | .delete => return .ofReturned (← Delete cwd path)
  | .makeDirectory =>
    return match ← MakeDirectory cwd path with
      | .ok true => .done
      | _ => .failed
  | .exists_ => return .answer (← C_FileSystem.Exists cwd path)
  | .isFile => return .answer (← IsFile cwd path)
  | .isDirectory => return .answer (← C_FileSystem.IsDirectory cwd path)

/-- One call after the other. -/
def performAll (cwd : List LuaString) : List (LuaString × Operation) → FileAction (List Reply)
  | [] => return []
  | (path, operation) :: calls => do
    let reply ← operation.perform cwd path
    return reply :: (← performAll cwd calls)

/-! ## The store -/

/-- How a path ends. Only the name of a file cannot have anything behind it. -/
inductive Ending
  | plain
  | slash
  | dot
  deriving DecidableEq

/-- There may be an entry at every location. -/
abbrev Store := List LuaString → Option (TreeNode LuaString)

namespace Store

variable (store : Store) (location : List LuaString) (ending : Ending)

/-- What is found under a path for the location. -/
def find : Option (TreeNode LuaString) :=
  match store location with
  | some (.leaf contents) => if ending = .plain then some (.leaf contents) else none
  | found => found

def contents : LuaString :=
  match store location with
  | some (.leaf contents) => contents
  | _ => []

/-- A file can be made or changed in a directory that is there. -/
def Writable : Prop :=
  ending = .plain ∧ store location.dropLast = some .branch ∧ store location ≠ some .branch

open scoped Classical in
/-- What each call is for. -/
noncomputable def perform : Operation → Reply × Store
  | .readFile refused handed =>
    match store.find location ending with
    | some (.leaf contents) =>
      (if refused = none then .contents (contents.take handed) else .failed, store)
    | _ => (.failed, store)
  | .writeFile refused written bytes =>
    if refused = none ∧ store.Writable location ending then
      (.done, Function.update store location (some (.leaf (bytes.take written))))
    else (.failed, store)
  | .appendFile refused written bytes =>
    if refused = none ∧ store.Writable location ending then
      (.done, Function.update store location
        (some (.leaf (store.contents location ++ bytes.take written))))
    else (.failed, store)
  | .delete =>
    match store.find location ending with
    | none => (.done, store)
    | some (.leaf _) => (.done, Function.update store location none)
    | some .branch =>
      if ending ≠ .dot ∧ ∀ name, store (location ++ [name]) = none then
        (.done, Function.update store location none)
      else (.failed, store)
  | .makeDirectory =>
    if ending ≠ .dot ∧ store location.dropLast = some .branch ∧ store location = none then
      (.done, Function.update store location (some .branch))
    else (.failed, store)
  | .exists_ => (.answer (store.find location ending).isSome, store)
  | .isFile =>
    (.answer (match store.find location ending with | some (.leaf _) => true | _ => false), store)
  | .isDirectory => (.answer (store.find location ending = some .branch), store)

noncomputable def performAll : Store → List (List LuaString × Ending × Operation) → List Reply × Store
  | store, [] => ([], store)
  | store, (location, ending, operation) :: calls =>
    let (reply, store) := store.perform location ending operation
    let (replies, store) := performAll store calls
    (reply :: replies, store)

end Store

/-! ## How a path ends -/

open C_FileSystem

variable {cwd : List LuaString} {tree : FileTree} {path : LuaString}
  {directory : List LuaString} {last : LuaString}

instance (path : LuaString) : Decidable (EndsWithDot path) :=
  inferInstanceAs (Decidable ((components path).getLast? = some (ascii ".")))

def endingOf (path : LuaString) : Ending :=
  if EndsWithDot path then .dot else if Trailing path then .slash else .plain

theorem endingOf_eq_plain_iff :
    endingOf path = .plain ↔ ¬EndsWithDot path ∧ Trailing path = false := by
  unfold endingOf
  split
  case isTrue dot => simp [dot]
  case isFalse notDot => cases Trailing path <;> simp [notDot]

theorem endingOf_ne_dot_iff : endingOf path ≠ .dot ↔ ¬EndsWithDot path := by
  unfold endingOf
  split
  case isTrue dot => simp [dot]
  case isFalse notDot => cases Trailing path <;> simp [notDot]

/-- Only behind a slash at the end there is nothing. -/
theorem getLast_split_iff (nonempty : path ≠ []) :
    (posixSeparators.split path).getLast? = some [] ↔ Trailing path = true := by
  constructor
  · intro empty
    obtain ⟨front, split⟩ : ∃ front, posixSeparators.split path = front ++ [[]] :=
      ⟨_, (List.dropLast_append_getLast? _ empty).symm⟩
    have whole : [CHAR_FORWARD_SLASH].intercalate (posixSeparators.split path) = path :=
      List.intercalate_splitOn CHAR_FORWARD_SLASH
    rw [split] at whole
    by_cases none_ : front = []
    · rw [none_] at whole
      exact absurd whole.symm nonempty
    · rw [join_concat none_] at whole
      rw [← whole, Trailing, List.getLast?_concat]
      exact beq_self_eq_true _
  · intro slash
    obtain ⟨front, rfl⟩ : ∃ front, path = front ++ [CHAR_FORWARD_SLASH] :=
      ⟨_, (List.dropLast_append_getLast? _ (beq_iff_eq.mp slash)).symm⟩
    have behind : posixSeparators.split [] = [[]] := by decide
    rw [split_slash, behind, List.getLast?_concat]

theorem meansDirectory_iff (nonempty : path ≠ []) :
    MeansDirectory path ↔ endingOf path ≠ .plain := by
  by_cases dot : EndsWithDot path
  · simp [endingOf, dot, meansDirectory_of_endsWithDot dot]
  have slash : MeansDirectory path ↔ Trailing path = true := by
    rw [← getLast_split_iff nonempty]
    constructor
    · rintro ⟨last, found, skipped⟩
      rcases of_decide_eq_true skipped with rfl | rfl
      · exact found
      -- There are no slashes behind the dot.
      · obtain ⟨front, split⟩ : ∃ front, posixSeparators.split path = front ++ [ascii "."] :=
          ⟨_, (List.dropLast_append_getLast? _ found).symm⟩
        have end_ : components path = front ++ [ascii "."] := by
          rw [components, split, List.rdropWhile_concat_neg _ _ _ (by decide)]
        exact absurd ((endsWithDot_iff end_).mpr rfl) dot
    · exact fun found => ⟨[], found, by decide⟩
  rw [slash, endingOf, if_neg dot]
  cases Trailing path <;> simp

/-! ## What is found -/

theorem openRead_eq (nonempty : path ≠ []) : openRead cwd tree path =
    match stat cwd tree path with
    | .error errno => .error errno
    | .ok _ => .ok (enter cwd path) := by
  rw [openRead, stat, if_neg nonempty, if_neg nonempty]
  cases resolved : tree.resolve segmentReading (startOf cwd path) (posixSeparators.split path) with
  | error obstacle => rfl
  | ok location =>
    have here : location = enter cwd path := NamedTree.resolve_eq_walk resolved
    dsimp only
    rw [here]
    cases tree.node (enter cwd path) <;> rfl

theorem find_eq_some_iff {store : Store} {location : List LuaString} {ending : Ending}
    {found : TreeNode LuaString} : store.find location ending = some found ↔
      store location = some found ∧ (ending ≠ .plain → found = .branch) := by
  rw [Store.find]
  split
  case h_1 contents leaf =>
    rw [leaf]
    split
    case isTrue plain => simp [plain]
    case isFalse more =>
      simp only [reduceCtorEq, Option.some.injEq, false_iff]
      rintro ⟨rfl, branch⟩
      cases branch more
  case h_2 noLeaf =>
    refine ⟨fun here => ⟨here, fun _ => ?_⟩, And.left⟩
    cases found with
    | branch => rfl
    | leaf contents => exact absurd here (noLeaf contents)

/-- A path leads to what the store finds. -/
theorem stat_eq_ok_iff_find (entry : EntryPath cwd path directory last)
    {found : TreeNode LuaString} : stat cwd tree path = .ok found ↔
      Store.find tree.node (directory ++ [last]) (endingOf path) = some found := by
  rw [stat_eq_ok_iff entry.nonempty entry.descends, entry.enter_eq, find_eq_some_iff,
    meansDirectory_iff entry.nonempty]

variable (tree) in
/-- Either both find something, or neither does. -/
theorem stat_cases (entry : EntryPath cwd path directory last) :
    (∃ found, stat cwd tree path = .ok found ∧ tree.node (directory ++ [last]) = some found ∧
      Store.find tree.node (directory ++ [last]) (endingOf path) = some found) ∨
    ∃ errno, stat cwd tree path = .error errno ∧
      Store.find tree.node (directory ++ [last]) (endingOf path) = none := by
  cases result : stat cwd tree path with
  | ok found =>
    have here := (stat_eq_ok_iff_find entry).mp result
    exact Or.inl ⟨found, rfl, (find_eq_some_iff.mp here).1, here⟩
  | error errno =>
    refine Or.inr ⟨errno, rfl, Option.eq_none_iff_forall_ne_some.mpr fun found here => ?_⟩
    cases result.symm.trans ((stat_eq_ok_iff_find entry).mpr here)

/-! ## What each call does -/

/-- The call gives the reply, and leaves the entries of the store behind. -/
def Gives (action : FileAction Reply) (tree : FileTree) (result : Reply × Store) : Prop :=
  ∃ after : FileTree, action.outcome tree = (.ok result.1, after) ∧ after.node = result.2

theorem node_of_update {after : FileTree} {location : List LuaString} {new : Option (TreeNode LuaString)}
    (nodes : ∀ other, after.node other = if other = location then new else tree.node other) :
    after.node = Function.update tree.node location new :=
  funext fun other => (nodes other).trans (Function.update_apply ..).symm

theorem gives_exists (entry : EntryPath cwd path directory last) :
    Gives (Operation.exists_.perform cwd path) tree
      (Store.perform tree.node (directory ++ [last]) (endingOf path) .exists_) := by
  refine ⟨tree, ?_, rfl⟩
  simp only [Operation.perform, outcome_bind, outcome_Exists, outcome_pure, Store.perform]
  rcases stat_cases tree entry with ⟨found, ok, -, here⟩ | ⟨errno, error, absent⟩
  · rw [ok, here]
    rfl
  · rw [error, absent]
    rfl

theorem gives_isDirectory (entry : EntryPath cwd path directory last) :
    Gives (Operation.isDirectory.perform cwd path) tree
      (Store.perform tree.node (directory ++ [last]) (endingOf path) .isDirectory) := by
  refine ⟨tree, ?_, rfl⟩
  simp only [Operation.perform, outcome_bind, outcome_IsDirectory, outcome_pure, Store.perform,
    stat_eq_ok_iff_find entry]

theorem outcome_IsFile : (IsFile cwd path).outcome tree =
    (.ok (match stat cwd tree path with | .ok (.leaf _) => true | _ => false), tree) := by
  have differs : ascii "directory" ≠ ascii "file" := by decide
  rw [IsFile, outcome_bind, outcome_get]
  dsimp only
  cases stat cwd tree path with
  | error errno => rfl
  | ok found => cases found <;> simp [type, differs]

theorem gives_isFile (entry : EntryPath cwd path directory last) :
    Gives (Operation.isFile.perform cwd path) tree
      (Store.perform tree.node (directory ++ [last]) (endingOf path) .isFile) := by
  refine ⟨tree, ?_, rfl⟩
  simp only [Operation.perform, outcome_bind, outcome_IsFile, outcome_pure, Store.perform]
  rcases stat_cases tree entry with ⟨found, ok, -, here⟩ | ⟨errno, error, absent⟩
  · rw [ok, here]
    cases found <;> rfl
  · rw [error, absent]

variable (tree) in
/-- Nothing is changed by reading, and a directory has no contents. -/
theorem outcome_ReadFile (handed : Nat) (nonempty : path ≠ []) :
    ∃ result, (C_FileSystem.ReadFile cwd none handed path).outcome tree = (result, tree) ∧
      Reply.ofRaised .contents result =
        match stat cwd tree path, tree.node (enter cwd path) with
        | .ok _, some (.leaf contents) => .contents (contents.take handed)
        | _, _ => .failed := by
  rw [C_FileSystem.ReadFile, outcome_bind, outcome_get]
  dsimp only
  rw [openRead_eq nonempty]
  cases stat cwd tree path with
  | error errno => exact ⟨_, rfl, rfl⟩
  | ok found =>
    simp only [outcome_bind, outcome_get, FileTree.read, FileTree.size]
    cases node : tree.node (enter cwd path) with
    | none => exact ⟨_, rfl, rfl⟩
    | some here =>
      cases here with
      | branch => exact ⟨_, rfl, rfl⟩
      | leaf contents =>
        -- No more is there than the file has.
        have whole : contents.take (min contents.length handed) = contents.take handed := by
          rw [min_comm, ← List.take_eq_take_min]
        exact ⟨_, rfl, congrArg Reply.contents whole⟩

theorem gives_readFile (refused : Option Errno) (handed : Nat)
    (entry : EntryPath cwd path directory last) :
    Gives ((Operation.readFile refused handed).perform cwd path) tree
      (Store.perform tree.node (directory ++ [last]) (endingOf path) (.readFile refused handed)) := by
  simp only [Gives, Operation.perform, outcome_bind, outcome_attempt, outcome_pure, Store.perform]
  cases refused with
  | some errno =>
    refine ⟨tree, ?_, ?_⟩ <;> split <;> rfl
  | none =>
    obtain ⟨result, outcome, reply⟩ := outcome_ReadFile tree handed entry.nonempty
    rw [outcome, reply]
    rcases stat_cases tree entry with ⟨found, ok, node, here⟩ | ⟨errno, error, absent⟩
    · rw [ok, entry.enter_eq, node, here]
      cases found <;> exact ⟨tree, rfl, rfl⟩
    · rw [error, absent]
      exact ⟨tree, rfl, rfl⟩

/-! ## What the calls that change an entry do -/

/-- A file can be made or changed just where the operating system finds a place for it. -/
theorem writable_iff (entry : EntryPath cwd path directory last) :
    Store.Writable tree.node (directory ++ [last]) (endingOf path) ↔
      Trailing path = false ∧ ∃ place : tree.Place, lastComponent cwd tree path = .ok (.name place) ∧
        place.location = directory ++ [last] ∧ tree.node place.location ≠ some .branch := by
  rw [Store.Writable, endingOf_eq_plain_iff, List.dropLast_concat]
  constructor
  · rintro ⟨⟨notDot, noSlash⟩, inside, free⟩
    obtain ⟨place, found, here⟩ := exists_place entry notDot inside
    exact ⟨noSlash, place, found, here, here ▸ free⟩
  · rintro ⟨noSlash, place, found, here, free⟩
    obtain ⟨notDot, rfl, rfl⟩ := (lastComponent_iff entry).mp found
    exact ⟨⟨notDot, noSlash⟩, place.inside, free⟩

/-- Every place is the one of the entry. -/
theorem location_of_entry (entry : EntryPath cwd path directory last) {place : tree.Place}
    (found : lastComponent cwd tree path = .ok (.name place)) :
    place.location = directory ++ [last] := by
  obtain ⟨-, rfl, rfl⟩ := (lastComponent_iff entry).mp found
  rfl

variable (tree) in
/-- Opening for writing makes an empty file, or there is no place for it. -/
theorem open_cases (entry : EntryPath cwd path directory last) :
    (Store.Writable tree.node (directory ++ [last]) (endingOf path) ∧
      ∃ after, open_ cwd tree path = .ok (directory ++ [last], after) ∧
        after.node = Function.update tree.node (directory ++ [last]) (some (.leaf []))) ∨
    ¬Store.Writable tree.node (directory ++ [last]) (endingOf path) ∧
      ∃ errno, open_ cwd tree path = .error errno := by
  rw [writable_iff entry, open_]
  cases found : lastComponent cwd tree path with
  | error errno => exact Or.inr ⟨by simp, errno, rfl⟩
  | ok component =>
    cases component with
    | root | dot | dots => exact Or.inr ⟨by simp, _, rfl⟩
    | name place =>
      have here := location_of_entry entry found
      dsimp only
      cases slash : Trailing path with
      | true => exact Or.inr ⟨by simp, _, rfl⟩
      | false =>
        rw [if_neg Bool.false_ne_true, ← here]
        by_cases free : tree.node place.location ≠ some .branch
        · rw [dif_pos free]
          exact Or.inl ⟨⟨rfl, place, rfl, rfl, free⟩, _, rfl,
            node_of_update (NamedTree.node_put place _ free)⟩
        · rw [dif_neg free]
          refine Or.inr ⟨?_, _, rfl⟩
          rintro ⟨-, other, same, -, free'⟩
          cases same
          exact free free'

variable (tree) in
/-- Opening for appending leaves the contents, or makes an empty file. -/
theorem openAppend_cases (entry : EntryPath cwd path directory last) :
    (Store.Writable tree.node (directory ++ [last]) (endingOf path) ∧
      ∃ after, openAppend cwd tree path = .ok (directory ++ [last], after) ∧
        after.node = Function.update tree.node (directory ++ [last])
          (some (.leaf (Store.contents tree.node (directory ++ [last]))))) ∨
    ¬Store.Writable tree.node (directory ++ [last]) (endingOf path) ∧
      ∃ errno, openAppend cwd tree path = .error errno := by
  rw [writable_iff entry, openAppend]
  cases found : lastComponent cwd tree path with
  | error errno => exact Or.inr ⟨by simp, errno, rfl⟩
  | ok component =>
    cases component with
    | root | dot | dots => exact Or.inr ⟨by simp, _, rfl⟩
    | name place =>
      have here := location_of_entry entry found
      dsimp only
      cases slash : Trailing path with
      | true => exact Or.inr ⟨by simp, _, rfl⟩
      | false =>
        rw [if_neg Bool.false_ne_true, ← here]
        split
        case h_1 contents leaf =>
          refine Or.inl ⟨⟨rfl, place, rfl, rfl, by simp [leaf]⟩, _, rfl, ?_⟩
          rw [Store.contents, leaf, ← leaf, Function.update_eq_self]
        case h_2 other =>
          by_cases free : tree.node place.location ≠ some .branch
          · rw [dif_pos free]
            refine Or.inl ⟨⟨rfl, place, rfl, rfl, free⟩, _, rfl, ?_⟩
            have nothing : Store.contents tree.node place.location = [] := by
              cases node : tree.node place.location with
              | none => rw [Store.contents, node]
              | some found =>
                cases found with
                | leaf contents => exact absurd node (other contents)
                | branch => exact absurd node free
            rw [nothing]
            exact node_of_update (NamedTree.node_put place _ _)
          · rw [dif_neg free]
            refine Or.inr ⟨?_, _, rfl⟩
            rintro ⟨-, other, same, -, placed⟩
            cases same
            exact free placed

theorem gives_writeFile (refused : Option Errno) (written : Nat) (bytes : LuaString)
    (entry : EntryPath cwd path directory last) :
    Gives ((Operation.writeFile refused written bytes).perform cwd path) tree
      (Store.perform tree.node (directory ++ [last]) (endingOf path)
        (.writeFile refused written bytes)) := by
  simp only [Gives, Operation.perform, outcome_bind, outcome_attempt, outcome_pure, Store.perform]
  cases refused with
  | some errno =>
    rw [if_neg (fun both => Option.some_ne_none _ both.1)]
    exact ⟨tree, rfl, rfl⟩
  | none =>
    rw [WriteFile, outcome_bind, outcome_get]
    dsimp only
    rcases open_cases tree entry with
      ⟨writable, after, opened, nodes⟩ | ⟨refused, errno, failed⟩
    · rw [opened, if_pos ⟨rfl, writable⟩]
      refine ⟨after.write (directory ++ [last]) (bytes.take written), rfl, ?_⟩
      have leaf : after.node (directory ++ [last]) = some (.leaf []) := by
        rw [nodes, Function.update_self]
      rw [node_of_update (node_write leaf _), nodes, Function.update_idem, List.drop_nil,
        List.append_nil]
    · rw [failed, if_neg fun both => refused both.2]
      exact ⟨tree, rfl, rfl⟩

theorem node_append {location : List LuaString} {old : LuaString}
    (leaf : tree.node location = some (.leaf old)) (bytes : LuaString) (other : List LuaString) :
    (tree.append location bytes).node other =
      if other = location then some (.leaf (old ++ bytes)) else tree.node other := by
  rw [FileTree.append]
  split
  case h_1 old' leaf' =>
    obtain rfl : old' = old := by
      rw [leaf] at leaf'
      cases leaf'
      rfl
    exact NamedTree.node_setLeaf leaf' other
  case h_2 noLeaf => exact absurd leaf (noLeaf old)

theorem gives_appendFile (refused : Option Errno) (written : Nat) (bytes : LuaString)
    (entry : EntryPath cwd path directory last) :
    Gives ((Operation.appendFile refused written bytes).perform cwd path) tree
      (Store.perform tree.node (directory ++ [last]) (endingOf path)
        (.appendFile refused written bytes)) := by
  simp only [Gives, Operation.perform, outcome_bind, outcome_attempt, outcome_pure, Store.perform]
  cases refused with
  | some errno =>
    rw [if_neg (fun both => Option.some_ne_none _ both.1)]
    exact ⟨tree, rfl, rfl⟩
  | none =>
    rw [AppendFile, outcome_bind, outcome_get]
    dsimp only
    rcases openAppend_cases tree entry with
      ⟨writable, after, opened, nodes⟩ | ⟨refused, errno, failed⟩
    · rw [opened, if_pos ⟨rfl, writable⟩]
      refine ⟨after.append (directory ++ [last]) (bytes.take written), rfl, ?_⟩
      have leaf : after.node (directory ++ [last]) =
          some (.leaf (Store.contents tree.node (directory ++ [last]))) := by
        rw [nodes, Function.update_self]
      rw [node_of_update (node_append leaf _), nodes, Function.update_idem]
    · rw [failed, if_neg fun both => refused both.2]
      exact ⟨tree, rfl, rfl⟩

theorem rmdir_cases (entry : EntryPath cwd path directory last)
    (branch : tree.node (directory ++ [last]) = some .branch) :
    ((endingOf path ≠ .dot ∧ ∀ name, tree.node (directory ++ [last] ++ [name]) = none) ∧
      ∃ after, rmdir cwd tree path = .ok after ∧
        after.node = Function.update tree.node (directory ++ [last]) none) ∨
    ¬(endingOf path ≠ .dot ∧ ∀ name, tree.node (directory ++ [last] ++ [name]) = none) ∧
      ∃ errno, rmdir cwd tree path = .error errno := by
  rw [endingOf_ne_dot_iff, ← NamedTree.childless_iff]
  by_cases removable : ¬EndsWithDot path ∧ tree.Childless (directory ++ [last])
  · obtain ⟨after, removed, nodes⟩ := rmdir_removes entry removable.1 branch removable.2
    exact Or.inl ⟨removable, after, removed, node_of_update nodes⟩
  · refine Or.inr ⟨removable, ?_⟩
    rw [rmdir]
    cases found : lastComponent cwd tree path with
    | error errno => exact ⟨errno, rfl⟩
    | ok component =>
      cases component with
      | root | dot | dots => exact ⟨_, rfl⟩
      | name place =>
        have notDot := ((lastComponent_iff entry).mp found).1
        rw [← location_of_entry entry found] at branch removable
        dsimp only
        rw [branch]
        exact ⟨_, dif_neg fun childless => removable ⟨notDot, childless⟩⟩

theorem gives_delete (entry : EntryPath cwd path directory last) :
    Gives (Operation.delete.perform cwd path) tree
      (Store.perform tree.node (directory ++ [last]) (endingOf path) .delete) := by
  simp only [Gives, Operation.perform, outcome_bind, outcome_Delete, outcome_pure, Store.perform]
  rcases stat_cases tree entry with ⟨found, ok, node, here⟩ | ⟨errno, error, absent⟩
  · rw [ok, here]
    cases found with
    | leaf contents =>
      -- Only the name of the file itself leads to it.
      have plain : endingOf path = .plain := by
        by_contra more
        cases (find_eq_some_iff.mp here).2 more
      obtain ⟨notDot, noSlash⟩ := endingOf_eq_plain_iff.mp plain
      obtain ⟨after, removed, nodes⟩ := unlink_removes entry notDot noSlash node
      dsimp only
      rw [outcome_call, removed]
      exact ⟨after, rfl, node_of_update nodes⟩
    | branch =>
      dsimp only
      rw [outcome_call]
      rcases rmdir_cases entry node with
        ⟨removable, after, removed, nodes⟩ | ⟨kept, errno, failed⟩
      · rw [removed, if_pos removable]
        exact ⟨after, rfl, nodes⟩
      · rw [failed, if_neg kept]
        exact ⟨tree, rfl, rfl⟩
  · rw [error, absent]
    exact ⟨tree, rfl, rfl⟩

theorem gives_makeDirectory (entry : EntryPath cwd path directory last) :
    Gives (Operation.makeDirectory.perform cwd path) tree
      (Store.perform tree.node (directory ++ [last]) (endingOf path) .makeDirectory) := by
  have outcome : (MakeDirectory cwd path).outcome tree =
      match stat cwd tree path, mkdir cwd tree path with
      | .ok _, _ => (.ok (.ok false), tree)
      | .error _, .error errno => (.ok (.error (errno.message path)), tree)
      | .error _, .ok after => (.ok (.ok true), after) := by
    rw [MakeDirectory, outcome_bind, outcome_Exists]
    cases stat cwd tree path with
    | ok found => rfl
    | error errno =>
      simp only [Except.isOk, Except.toBool, Bool.false_eq_true, if_false, outcome_bind,
        outcome_call]
      cases mkdir cwd tree path <;> rfl
  simp only [Gives, Operation.perform, outcome_bind, outcome, outcome_pure, Store.perform,
    List.dropLast_concat, endingOf_ne_dot_iff]
  rcases stat_cases tree entry with ⟨found, ok, node, here⟩ | ⟨errno, error, absent⟩
  · rw [ok, if_neg fun free => Option.some_ne_none _ (node.symm.trans free.2.2)]
    exact ⟨tree, rfl, rfl⟩
  · rw [error]
    cases made : mkdir cwd tree path with
    | ok after =>
      obtain ⟨notDot, inside, free⟩ := mkdir_requires entry made
      obtain ⟨same, makes, nodes⟩ := mkdir_makes entry notDot inside free
      cases made.symm.trans makes
      rw [if_pos ⟨notDot, inside, free⟩]
      exact ⟨after, rfl, node_of_update nodes⟩
    | error errno =>
      rw [if_neg]
      · exact ⟨tree, rfl, rfl⟩
      · rintro ⟨notDot, inside, free⟩
        obtain ⟨after, makes, -⟩ := mkdir_makes entry notDot inside free
        cases made.symm.trans makes

/-! ## Sequences of calls -/

variable (tree) in
/-- The step lemma. -/
theorem perform_gives (entry : EntryPath cwd path directory last) (operation : Operation) :
    Gives (operation.perform cwd path) tree
      (Store.perform tree.node (directory ++ [last]) (endingOf path) operation) := by
  cases operation with
  | readFile refused handed => exact gives_readFile refused handed entry
  | writeFile refused written contents => exact gives_writeFile refused written contents entry
  | appendFile refused written contents => exact gives_appendFile refused written contents entry
  | delete => exact gives_delete entry
  | makeDirectory => exact gives_makeDirectory entry
  | exists_ => exact gives_exists entry
  | isFile => exact gives_isFile entry
  | isDirectory => exact gives_isDirectory entry

/-- A path that never goes up and has a name in it. -/
def ForEntry (path : LuaString) : Prop := path ≠ [] ∧ Descends path ∧ parts path ≠ []

instance (path : LuaString) : Decidable (ForEntry path) :=
  inferInstanceAs (Decidable (path ≠ [] ∧ Descends path ∧ parts path ≠ []))

theorem ForEntry.entryPath (forEntry : ForEntry path) (cwd : List LuaString) :
    ∃ directory last, EntryPath cwd path directory last := by
  obtain ⟨nonempty, descends, named⟩ := forEntry
  obtain ⟨names, last, shape⟩ := (List.eq_nil_or_concat' _).resolve_left named
  exact ⟨_, last, nonempty, descends, names, shape, rfl⟩

/-- The call in the terms of the store. -/
def inStore (cwd : List LuaString) (call : LuaString × Operation) :
    List LuaString × Ending × Operation := (enter cwd call.1, endingOf call.1, call.2)

/-- A directory, and a file in it under two names. -/
def sampleCalls : List (LuaString × Operation) :=
  [(ascii "a", .makeDirectory), (ascii "/a/b", .writeFile none 8 (ascii "x")),
    (ascii "a/./b", .appendFile none 8 (ascii "y")), (ascii "a//b", .readFile none 8),
    (ascii "a/b/", .isFile), (ascii "a/", .delete)]

example : ((performAll [] sampleCalls).outcome bareTree).1.toOption =
    some [.done, .done, .done, .contents (ascii "xy"), .answer false, .failed] := by decide

end EvoRuntime.FileSystem
