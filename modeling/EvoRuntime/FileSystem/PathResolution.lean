import EvoRuntime.FileSystem.FileTree

/-!
# How paths are resolved

What the operating system finds at a path that never goes up, in terms of the text of the path:
the entry at the location that the text names, where the path may stand for it.

`lastComponent_iff` says the same of the calls that make or remove an entry. They do not take a
path that ends with `.` for the name of an entry.
-/
namespace EvoRuntime.FileSystem.FileTree

open Lua Library EvoRuntime.Path

variable {cwd : List LuaString} {tree after : FileTree} {path : LuaString}
  {names : List LuaString} {last : LuaString}

/-- The path never goes up. -/
def Descends (path : LuaString) : Prop := ∀ s ∈ posixSeparators.split path, s ≠ ascii ".."

instance (path : LuaString) : Decidable (Descends path) :=
  inferInstanceAs (Decidable (∀ s ∈ posixSeparators.split path, s ≠ ascii ".."))

/-- The last segment of the path does not lead on, so that the path can only stand for a
directory. -/
def MeansDirectory (path : LuaString) : Prop :=
  ∃ last, (posixSeparators.split path).getLast? = some last ∧ segmentReading.skipped last = true

/-- Behind the slashes at its end, the path has a `.` left. -/
def EndsWithDot (path : LuaString) : Prop := (components path).getLast? = some (ascii ".")

theorem stat_eq_ok_iff (nonempty : path ≠ []) (descends : Descends path)
    {found : TreeNode LuaString} : stat cwd tree path = .ok found ↔
      tree.node (enter cwd path) = some found ∧ (MeansDirectory path → found = .branch) := by
  obtain ⟨front, last, split⟩ : ∃ front last, posixSeparators.split path = front ++ [last] :=
    (List.eq_nil_or_concat' _).resolve_left (List.splitOnP_ne_nil _ _)
  have front_descends : ∀ s ∈ front, s ≠ ascii ".." := fun s member =>
    descends s (split ▸ List.mem_append_left _ member)
  have last_descends : last ≠ ascii ".." := descends last (split ▸ by simp)
  -- What counts is the last segment, and what stands in front of it.
  have resolved : stat cwd tree path = .ok found ↔ ∃ location,
      tree.resolve segmentReading (startOf cwd path) (front ++ [last]) = .ok location ∧
        tree.node location = some found := by
    rw [stat, if_neg nonempty, split]
    cases tree.resolve segmentReading (startOf cwd path) (front ++ [last]) with
    | error obstacle => simp
    | ok location => cases here : tree.node location <;> simp [here]
  have directory : MeansDirectory path ↔ segmentReading.skipped last = true := by
    simp [MeansDirectory, split]
  have location : enter cwd path =
      segmentReading.walk false (startOf cwd path) (front ++ [last]) := split ▸ rfl
  rw [resolved, directory, location]
  exact NamedTree.found_concat_iff front_descends last_descends

/-- The last component is a name for an entry of the directory in front of it. -/
theorem lastComponent_eq_name_iff (nonempty : path ≠ []) {front : List LuaString} {last : LuaString}
    (shape : components path = front ++ [last]) (descends : ∀ s ∈ front, s ≠ ascii "..")
    {place : tree.Place} : lastComponent cwd tree path = .ok (.name place) ↔
      place.directory = segmentReading.walk false (startOf cwd path) front ∧ place.name = last ∧
        last ≠ ascii "." ∧ last ≠ ascii ".." := by
  rw [lastComponent, if_neg nonempty, shape]
  simp only [List.getLast?_concat, List.dropLast_concat]
  constructor
  · intro result
    split at result
    case h_1 => cases result
    case h_2 directory resolved =>
      split at result
      case isFalse => split at result <;> cases result
      case isTrue inside =>
        split at result
        case isTrue => cases result
        case isFalse notDot =>
          split at result
          case isTrue => cases result
          case isFalse notDots =>
            cases result
            exact ⟨NamedTree.resolve_eq_walk resolved, rfl, notDot, notDots⟩
  · obtain ⟨directory, name, inside⟩ := place
    rintro ⟨rfl, rfl, notDot, notDots⟩
    have resolved : tree.resolve segmentReading (startOf cwd path) front = .ok _ :=
      NamedTree.resolve_of_branch descends inside
    rw [resolved]
    dsimp only
    rw [dif_pos inside, if_neg notDot, if_neg notDots]

theorem mkdir_eq_ok_iff {after : FileTree} : mkdir cwd tree path = .ok after ↔
    ∃ place free, lastComponent cwd tree path = .ok (.name place) ∧
      tree.node place.location = none ∧ after = tree.put place .branch free := by
  rw [mkdir]
  cases result : lastComponent cwd tree path with
  | error errno => simp
  | ok component =>
    cases component with
    | root | dot | dots => simp
    | name place =>
      by_cases free : tree.node place.location = none
      · simp only [dif_pos free, Except.ok.injEq, LastComponent.name.injEq]
        constructor
        · rintro rfl
          exact ⟨place, free.trans_ne (Option.some_ne_none _).symm, rfl, free, rfl⟩
        · rintro ⟨_, _, rfl, -, rfl⟩
          rfl
      · simp only [dif_neg free, Except.ok.injEq, LastComponent.name.injEq, reduceCtorEq, false_iff]
        rintro ⟨_, _, rfl, absent, -⟩
        exact free absent

/-! ## The names in a path -/

/-- The names in a path that never goes up come one below the other. -/
theorem walk_split (descends : Descends path) (above : Bool) (stack : List LuaString) :
    segmentReading.walk above stack (posixSeparators.split path) =
      stack ++ (posixSeparators.split path).filter fun s => !segmentReading.skipped s :=
  SegmentReading.walk_descends stack descends

theorem parts_eq (descends : Descends path) :
    parts path = (posixSeparators.split path).filter fun s => !segmentReading.skipped s := by
  rw [parts, walk_split descends, List.nil_append]

theorem parts_named (descends : Descends path) : Named (parts path) := by
  intro s member
  have clean := parts_clean path s member
  rw [parts_eq descends, List.mem_filter] at member
  exact ⟨⟨clean.1, descends s member.1⟩, clean.2⟩

theorem enter_eq (descends : Descends path) : enter cwd path = startOf cwd path ++ parts path := by
  rw [parts_eq descends, ← walk_split descends false]
  rfl

/-! ## The last component -/

/-- The slashes at the end of a path add no name. -/
theorem names_components (path : LuaString) :
    ((components path).filter fun s => !segmentReading.skipped s) =
      (posixSeparators.split path).filter fun s => !segmentReading.skipped s := by
  have slashes : ∀ s ∈ (posixSeparators.split path).rtakeWhile (·.isEmpty),
      segmentReading.skipped s = true := by
    intro s member
    have empty := List.isEmpty_iff.mp (List.mem_rtakeWhile_imp member)
    exact empty ▸ by decide
  have none_ : (((posixSeparators.split path).rtakeWhile (·.isEmpty)).filter fun s =>
      !segmentReading.skipped s) = [] :=
    List.filter_eq_nil_iff.mpr fun s member => by simp [slashes s member]
  have whole : components path ++ (posixSeparators.split path).rtakeWhile (·.isEmpty) =
      posixSeparators.split path := List.rdropWhile_append_rtakeWhile
  rw [← whole, List.filter_append, none_, List.append_nil]

theorem components_descend (descends : Descends path) : ∀ s ∈ components path, s ≠ ascii ".." :=
  fun s member => descends s ((List.rdropWhile_prefix _ _).subset member)

/-- A path with a name has a last component. -/
theorem components_concat (descends : Descends path) (shape : parts path = names ++ [last]) :
    ∃ front final, components path = front ++ [final] := by
  -- Of nothing but slashes, no part is left.
  refine (List.eq_nil_or_concat' _).resolve_left fun none_ => ?_
  rw [parts_eq descends, ← names_components, none_] at shape
  exact absurd shape.symm (List.append_ne_nil_of_right_ne_nil _ (List.cons_ne_nil _ _))

theorem endsWithDot_iff {front : List LuaString} {final : LuaString}
    (split : components path = front ++ [final]) : EndsWithDot path ↔ final = ascii "." := by
  simp [EndsWithDot, split]

/-- Without a dot at the end, the last component is the last name. -/
theorem final_eq_last (descends : Descends path) (shape : parts path = names ++ [last])
    {front : List LuaString} {final : LuaString} (split : components path = front ++ [final])
    (notDot : final ≠ ascii ".") :
    final = last ∧ ∀ start, segmentReading.walk false start front = start ++ names := by
  have descend := components_descend descends
  rw [split] at descend
  -- The slashes at the end have been taken away, so that the last component is not empty.
  have kept : final ≠ [] := by
    have nonempty : components path ≠ [] :=
      split ▸ List.append_ne_nil_of_right_ne_nil _ (List.cons_ne_nil _ _)
    have end_ : ¬((components path).getLast nonempty).isEmpty = true :=
      List.rdropWhile_last_not _ _ nonempty
    simpa [split] using end_
  have name : segmentReading.skipped final = false := by simp [segmentReading, kept, notDot]
  rw [parts_eq descends, ← names_components, split, List.filter_append,
    List.filter_cons_of_pos (by rw [name]; rfl), List.filter_nil] at shape
  -- So it is a name, and the names in front of it are the other ones.
  obtain ⟨inFront, same⟩ := List.append_inj' shape rfl
  refine ⟨List.singleton_inj.mp same, fun start => ?_⟩
  rw [← inFront]
  exact SegmentReading.walk_descends start fun s member => descend s (List.mem_append_left _ member)

/-- The path never goes up and stands for the entry `last` of a directory. -/
structure EntryPath (cwd : List LuaString) (path : LuaString) (directory : List LuaString)
    (last : LuaString) : Prop where
  nonempty : path ≠ []
  descends : Descends path
  shape : ∃ names, parts path = names ++ [last] ∧ startOf cwd path ++ names = directory

variable {directory : List LuaString}

theorem EntryPath.enter_eq (entry : EntryPath cwd path directory last) :
    enter cwd path = directory ++ [last] := by
  obtain ⟨names, shape, rfl⟩ := entry.shape
  rw [FileTree.enter_eq entry.descends, shape, List.append_assoc]

theorem lastComponent_iff (entry : EntryPath cwd path directory last) {place : tree.Place} :
    lastComponent cwd tree path = .ok (.name place) ↔
      ¬EndsWithDot path ∧ place.directory = directory ∧ place.name = last := by
  obtain ⟨names, shape, rfl⟩ := entry.shape
  obtain ⟨front, final, split⟩ := components_concat entry.descends shape
  have descend := components_descend entry.descends
  rw [split] at descend
  have front_descends : ∀ s ∈ front, s ≠ ascii ".." := fun s member =>
    descend s (List.mem_append_left _ member)
  rw [lastComponent_eq_name_iff entry.nonempty split front_descends, endsWithDot_iff split]
  constructor
  · rintro ⟨directory, name, notDot, -⟩
    obtain ⟨rfl, walk⟩ := final_eq_last entry.descends shape split notDot
    exact ⟨notDot, directory.trans (walk _), name⟩
  · rintro ⟨notDot, directory, name⟩
    obtain ⟨rfl, walk⟩ := final_eq_last entry.descends shape split notDot
    exact ⟨directory.trans (walk _).symm, name, notDot, descend _ (by simp)⟩

/-- An entry stands in a directory. -/
theorem exists_place (entry : EntryPath cwd path directory last) (notDot : ¬EndsWithDot path)
    (inside : tree.node directory = some .branch) :
    ∃ place : tree.Place, lastComponent cwd tree path = .ok (.name place) ∧
      place.location = directory ++ [last] :=
  ⟨⟨directory, last, inside⟩, (lastComponent_iff entry).mpr ⟨notDot, rfl, rfl⟩, rfl⟩

theorem exists_place_of_found (entry : EntryPath cwd path directory last)
    (notDot : ¬EndsWithDot path) (found : tree.node (directory ++ [last]) ≠ none) :
    ∃ place : tree.Place, lastComponent cwd tree path = .ok (.name place) ∧
      place.location = directory ++ [last] :=
  exists_place entry notDot (NamedTree.branch_above found (List.cons_ne_nil _ _))

/-! ## Normalized paths -/

theorem split_spelled (absolute : Bool) (clean : posixSeparators.Clean names)
    (nonempty : names ≠ []) : posixSeparators.split (spelled absolute false names) =
      (if absolute then [[]] else []) ++ names := by
  have split := split_join clean nonempty
  rw [spelled, if_neg nonempty, if_neg Bool.false_ne_true, List.append_nil]
  cases absolute with
  | false => exact split
  | true =>
    have root : posixSeparators.split (CHAR_FORWARD_SLASH :: posixSeparators.join names) =
        [] :: posixSeparators.split (posixSeparators.join names) := split_slash [] _
    exact root.trans (congrArg _ split)

section Spelled

variable (absolute : Bool) (named : Named names)
include named

theorem spelled_descends : Descends (spelled absolute false names) := by
  intro s member
  by_cases start : names = []
  · subst start
    rw [spelled, if_pos rfl] at member
    revert s
    cases absolute <;> decide
  · rw [split_spelled _ named.clean start] at member
    rcases List.mem_append.mp member with root | member
    · have empty : s = [] := by
        cases absolute
        · exact absurd root List.not_mem_nil
        · exact List.mem_singleton.mp root
      exact empty ▸ by decide
    · exact (named s member).1.2

theorem parts_spelled_named : parts (spelled absolute false names) = names := by
  rw [parts_spelled named.clean, SegmentReading.walk_names [] fun s member => (named s member).1,
    List.nil_append]

/-- Only the start has no name to stand for it. -/
theorem nil_of_meansDirectory (directory : MeansDirectory (spelled absolute false names)) :
    names = [] := by
  obtain ⟨last, found, skipped⟩ := directory
  by_contra below
  rw [split_spelled _ named.clean below, List.getLast?_append_of_ne_nil _ below] at found
  exact absurd skipped (by simp [(named last (List.mem_of_getLast? found)).1.1])

end Spelled

theorem meansDirectory_of_endsWithDot (dot : EndsWithDot path) : MeansDirectory path := by
  obtain ⟨front, split⟩ : ∃ front, components path = front ++ [ascii "."] :=
    ⟨_, (List.dropLast_append_getLast? _ dot).symm⟩
  have whole : components path ++ (posixSeparators.split path).rtakeWhile (·.isEmpty) =
      posixSeparators.split path := List.rdropWhile_append_rtakeWhile
  -- The last segment is the dot itself, or the empty one behind a slash.
  rcases List.eq_nil_or_concat' ((posixSeparators.split path).rtakeWhile (·.isEmpty)) with
    none_ | ⟨slashes, empty, slash⟩
  · rw [none_, List.append_nil, split] at whole
    exact ⟨ascii ".", by rw [← whole, List.getLast?_concat], by decide⟩
  · have member : empty ∈ (posixSeparators.split path).rtakeWhile (·.isEmpty) := by simp [slash]
    have nothing := List.isEmpty_iff.mp (List.mem_rtakeWhile_imp member)
    rw [slash, ← List.append_assoc] at whole
    exact ⟨empty, by rw [← whole, List.getLast?_concat], nothing ▸ by decide⟩

/-! ## Making and removing an entry -/

theorem mkdir_makes (entry : EntryPath cwd path directory last) (notDot : ¬EndsWithDot path)
    (inside : tree.node directory = some .branch)
    (absent : tree.node (directory ++ [last]) = none) :
    ∃ after, mkdir cwd tree path = .ok after ∧ ∀ location, after.node location =
      if location = directory ++ [last] then some .branch else tree.node location := by
  obtain ⟨place, found, here⟩ := exists_place entry notDot inside
  rw [← here] at absent ⊢
  have free := absent.trans_ne (Option.some_ne_none TreeNode.branch).symm
  exact ⟨_, mkdir_eq_ok_iff.mpr ⟨place, free, found, absent, rfl⟩, NamedTree.node_put place _ free⟩

theorem mkdir_requires (entry : EntryPath cwd path directory last)
    (made : mkdir cwd tree path = .ok after) : ¬EndsWithDot path ∧
      tree.node directory = some .branch ∧ tree.node (directory ++ [last]) = none := by
  obtain ⟨place, -, found, absent, -⟩ := mkdir_eq_ok_iff.mp made
  obtain ⟨notDot, rfl, rfl⟩ := (lastComponent_iff entry).mp found
  exact ⟨notDot, place.inside, absent⟩

theorem open_makes (entry : EntryPath cwd path directory last) (notDot : ¬EndsWithDot path)
    (noSlash : Trailing path = false) (inside : tree.node directory = some .branch)
    (free : tree.node (directory ++ [last]) ≠ some .branch) :
    ∃ after, open_ cwd tree path = .ok (directory ++ [last], after) ∧ ∀ location,
      after.node location =
        if location = directory ++ [last] then some (.leaf []) else tree.node location := by
  obtain ⟨place, found, here⟩ := exists_place entry notDot inside
  rw [← here] at free ⊢
  refine ⟨tree.put place (.leaf []) free, ?_, NamedTree.node_put place _ free⟩
  rw [open_, found]
  dsimp only
  rw [if_neg (ne_true_of_eq_false noSlash), dif_pos free]

theorem open_requires (entry : EntryPath cwd path directory last) {location : List LuaString}
    (opened : open_ cwd tree path = .ok (location, after)) :
    tree.node directory = some .branch ∧ tree.node (directory ++ [last]) ≠ some .branch := by
  rw [open_] at opened
  split at opened
  case h_1 => cases opened
  case h_3 => cases opened
  case h_2 place found =>
    split at opened
    case isTrue => cases opened
    case isFalse =>
      split at opened
      case isFalse => cases opened
      case isTrue free =>
        obtain ⟨-, rfl, rfl⟩ := (lastComponent_iff entry).mp found
        exact ⟨place.inside, free⟩

/-- A path with a slash at its end is no file. -/
theorem open_trailing (slash : Trailing path = true) :
    ∃ errno, open_ cwd tree path = .error errno := by
  rw [open_]
  cases lastComponent cwd tree path with
  | error errno => exact ⟨errno, rfl⟩
  | ok component =>
    cases component with
    | root | dot | dots => exact ⟨_, rfl⟩
    | name place => exact ⟨.EISDIR, if_pos slash⟩

theorem node_write {location : List LuaString} {old : LuaString}
    (leaf : tree.node location = some (.leaf old)) (bytes : LuaString) (other : List LuaString) :
    (write tree location bytes).node other =
      if other = location then some (.leaf (bytes ++ old.drop bytes.length)) else tree.node other := by
  rw [write]
  split
  case h_1 old' leaf' =>
    obtain rfl : old' = old := by
      rw [leaf] at leaf'
      cases leaf'
      rfl
    exact NamedTree.node_setLeaf leaf' other
  case h_2 noLeaf => exact absurd leaf (noLeaf old)

theorem unlink_removes (entry : EntryPath cwd path directory last) (notDot : ¬EndsWithDot path)
    (noSlash : Trailing path = false) {value : LuaString}
    (leaf : tree.node (directory ++ [last]) = some (.leaf value)) :
    ∃ after, unlink cwd tree path = .ok after ∧ ∀ location, after.node location =
      if location = directory ++ [last] then none else tree.node location := by
  obtain ⟨place, found, here⟩ := exists_place_of_found entry notDot
    (leaf.trans_ne (Option.some_ne_none _))
  rw [← here] at leaf ⊢
  refine ⟨tree.remove place (NamedTree.childless_of_leaf leaf), ?_, NamedTree.node_remove place _⟩
  rw [unlink, found]
  dsimp only
  split
  case h_1 absent => cases leaf.symm.trans absent
  case h_2 branch => cases leaf.symm.trans branch
  case h_3 => rw [if_neg (ne_true_of_eq_false noSlash)]

theorem rmdir_removes (entry : EntryPath cwd path directory last) (notDot : ¬EndsWithDot path)
    (branch : tree.node (directory ++ [last]) = some .branch)
    (childless : tree.Childless (directory ++ [last])) :
    ∃ after, rmdir cwd tree path = .ok after ∧ ∀ location, after.node location =
      if location = directory ++ [last] then none else tree.node location := by
  obtain ⟨place, found, here⟩ := exists_place_of_found entry notDot
    (branch.trans_ne (Option.some_ne_none _))
  rw [← here] at branch childless ⊢
  refine ⟨tree.remove place childless, ?_, NamedTree.node_remove place _⟩
  rw [rmdir, found]
  dsimp only
  rw [branch]
  dsimp only
  rw [dif_pos childless]

/-! ## Absolute paths -/

theorem rooted_eq_spelled (names : List LuaString) : rooted names = spelled true false names := by
  have slash : ascii "/" = [CHAR_FORWARD_SLASH] := by decide
  rw [spelled]
  split
  case isTrue start =>
    rw [start, if_pos rfl, slash]
    rfl
  case isFalse =>
    rw [if_pos rfl, if_neg Bool.false_ne_true, List.append_nil]
    rfl

section Rooted

variable (named : Named (directory ++ [last]))
include named

theorem entryPath_rooted (cwd : List LuaString) :
    EntryPath cwd (rooted (directory ++ [last])) directory last where
  nonempty := List.cons_ne_nil _ _
  descends := rooted_eq_spelled _ ▸ spelled_descends true named
  shape := ⟨directory, rooted_eq_spelled _ ▸ parts_spelled_named true named, rfl⟩

theorem not_meansDirectory_rooted : ¬MeansDirectory (rooted (directory ++ [last])) := by
  intro directory
  rw [rooted_eq_spelled] at directory
  exact List.append_ne_nil_of_right_ne_nil _ (List.cons_ne_nil _ _)
    (nil_of_meansDirectory true named directory)

theorem not_endsWithDot_rooted : ¬EndsWithDot (rooted (directory ++ [last])) :=
  mt meansDirectory_of_endsWithDot (not_meansDirectory_rooted named)

theorem trailing_rooted : Trailing (rooted (directory ++ [last])) = false := by
  rw [rooted_eq_spelled, trailing_spelled named.clean]
  simp

end Rooted

end EvoRuntime.FileSystem.FileTree
