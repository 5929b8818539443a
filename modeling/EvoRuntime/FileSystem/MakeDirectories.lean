import EvoRuntime.FileSystem.PathResolution

/-!
# Making a directory and its parents

`MakeDirectoryTree` finds the parent of a path in its text, and leaves it to the operating
system to find the directories. `makeDirectoryTree_iff` says for which paths without `..`
it does what its callers rely on. It does not for a path that ends with `.` and leads to
something that is not there yet, such as `a/.`: the parent in the text is the one of `a`, and
the operating system makes no directory under the name `.`.

## Proof strategy

The text of the parent has one name less (`isParent_join`), and so the induction is on the
names of the path. `makeLast_outcome` is the step: what happens once the parent is there.
-/
namespace EvoRuntime.FileSystem

open Lua Library Raising EvoRuntime.Path NamedTree FileTree C_FileSystem

variable {cwd : List LuaString} {tree before after : FileTree} {path : LuaString}
  {names directory : List LuaString} {last : LuaString}

/-! ## The text of the parent -/

theorem parent_eq (nonempty : path ≠ []) : join [path, ascii ".."] =
    spelled (isAbsolute path) false
      (segmentReading.push (!isAbsolute path) (parts path) (ascii "..")) := by
  have behind : following [ascii ".."] = CHAR_FORWARD_SLASH :: ascii ".." := by decide
  have text : path ++ CHAR_FORWARD_SLASH :: ascii ".." ≠ [] :=
    List.append_ne_nil_of_left_ne_nil nonempty _
  have last : Trailing (path ++ CHAR_FORWARD_SLASH :: ascii "..") = false := by
    rw [trailing_append _ (List.cons_ne_nil _ _)]
    decide
  have split : posixSeparators.split (ascii "..") = [ascii ".."] := by decide
  rw [join_eq_normalize (joined_cons nonempty _), behind, normalize_eq_spelled text, last,
    isAbsolute_append nonempty, parts_append nonempty, split]
  rfl

/-- What matters of the parent of a path: it leads to the location above, and only the start
has no name to stand for it. -/
structure IsParent (cwd : List LuaString) (path parent : LuaString) (names : List LuaString) :
    Prop where
  nonempty : parent ≠ []
  descends : Descends parent
  start : startOf cwd parent = startOf cwd path
  parts : parts parent = names
  meansDirectory : MeansDirectory parent → names = []

theorem isParent_join (nonempty : path ≠ []) (descends : Descends path)
    (shape : parts path = names ++ [last]) :
    IsParent cwd path (join [path, ascii ".."]) names := by
  have named : Named (names ++ [last]) := shape ▸ parts_named descends
  have above : Named names := fun s member => named s (List.mem_append_left _ member)
  -- Going up takes away the last name, and what is left is spelled again.
  have text : join [path, ascii ".."] = spelled (isAbsolute path) false names := by
    rw [parent_eq nonempty, shape]
    exact congrArg _ (SegmentReading.push_up_name (named last (by simp)).1)
  have absolute : isAbsolute (spelled (isAbsolute path) false names) = isAbsolute path :=
    isAbsolute_spelled above.clean
  rw [isAbsolute_eq, isAbsolute_eq, decide_eq_decide, ← isAbsolute_eq] at absolute
  refine ⟨join_ne_nil path _, ?_, ?_, ?_, ?_⟩ <;> rw [text]
  · exact spelled_descends _ above
  · simp only [startOf, absolute]
  · exact parts_spelled_named _ above
  · exact nil_of_meansDirectory _ above

/-! ## The step -/

/-- The step lemma: what is made where the parents are dealt with. -/
theorem makeLast_outcome (entry : EntryPath cwd path directory last) :
    ∃ returned after, (makeLast cwd path).outcome tree = (.ok returned, after) ∧
      (returned.isOk = true ↔ tree.node directory = some .branch ∧
        (∀ value, tree.node (directory ++ [last]) ≠ some (.leaf value)) ∧
        (EndsWithDot path → tree.node (directory ++ [last]) ≠ none)) ∧
      (returned.isOk = true → after.node (directory ++ [last]) = some .branch) ∧
      GrownTowards (directory ++ [last]) tree after := by
  rw [outcome_makeLast]
  cases found : stat cwd tree path with
  | ok node =>
    have here := ((stat_eq_ok_iff entry.nonempty entry.descends).mp found).1
    rw [entry.enter_eq] at here
    -- Nothing is changed where something stands already.
    cases node with
    | branch =>
      have inside := branches_of_branch here directory (List.prefix_append _ _)
      refine ⟨_, _, rfl, ?_, fun _ => here, .refl⟩
      simp [inside, here, Except.isOk, Except.toBool]
    | leaf value =>
      exact ⟨_, _, rfl, iff_of_false Bool.false_ne_true fun free => free.2.1 value here,
        fun ok => Bool.noConfusion ok, .refl⟩
  | error errno =>
    -- What cannot be found may still be there, where a file stands for the last name.
    have notBranch : tree.node (directory ++ [last]) ≠ some .branch := by
      intro here
      rw [← entry.enter_eq] at here
      cases found.symm.trans
        ((stat_eq_ok_iff entry.nonempty entry.descends).mpr ⟨here, fun _ => rfl⟩)
    dsimp only
    rw [outcome_call]
    cases made : mkdir cwd tree path with
    | error errno =>
      refine ⟨_, _, rfl, iff_of_false Bool.false_ne_true ?_, fun ok => Bool.noConfusion ok, .refl⟩
      rintro ⟨inside, noFile, dot⟩
      have absent : tree.node (directory ++ [last]) = none := by
        cases here : tree.node (directory ++ [last]) with
        | none => rfl
        | some node =>
          cases node with
          | branch => exact absurd here notBranch
          | leaf value => exact absurd here (noFile value)
      obtain ⟨after, makes, -⟩ := mkdir_makes entry (fun ends => dot ends absent) inside absent
      cases made.symm.trans makes
    | ok after =>
      obtain ⟨notDot, inside, absent⟩ := mkdir_requires entry made
      obtain ⟨same, makes, nodes⟩ := mkdir_makes entry notDot inside absent
      cases made.symm.trans makes
      refine ⟨_, _, rfl, ?_, fun _ => by rw [nodes, if_pos rfl], fun other changed => ?_⟩
      · simp [inside, absent, notDot, Except.isOk, Except.toBool]
      · rw [nodes] at changed ⊢
        split at changed
        case isTrue here => exact ⟨here ▸ List.prefix_rfl, here ▸ absent, if_pos here⟩
        case isFalse => exact absurd rfl changed

/-! ## What callers rely on -/

/-- The call returns `true` unless there is an obstacle. -/
structure Makes (obstacle : Prop) (location : List LuaString) (before : FileTree)
    (returned : Except LuaString Unit) (after : FileTree) : Prop where
  isOk_iff : returned.isOk = true ↔ ¬obstacle
  directories : returned.isOk = true → ∀ above, above <+: location → after.node above = some .branch
  frame : GrownTowards location before after

/-- What keeps `MakeDirectoryTree` from making a directory. -/
def Obstacle (tree : FileTree) (cwd : List LuaString) (path : LuaString) : Prop :=
  tree.Blocked (enter cwd path) ∨ EndsWithDot path ∧ tree.node (enter cwd path) = none

/-- The step lemma for the whole way to the location: the parent is there. -/
theorem makeLast_makes (entry : EntryPath cwd path directory last)
    (there : tree.node directory ≠ none) :
    ∃ returned after, (makeLast cwd path).outcome tree = (.ok returned, after) ∧
      Makes (Obstacle tree cwd path) (directory ++ [last]) tree returned after := by
  obtain ⟨returned, after, result, isOk_iff, made, grown⟩ :
      ∃ returned after, (makeLast cwd path).outcome tree = (.ok returned, after) ∧ _ :=
    makeLast_outcome entry
  refine ⟨returned, after, result, ?_, fun ok => branches_of_branch (made ok), grown⟩
  rw [isOk_iff, Obstacle, entry.enter_eq, blocked_concat, blocked_iff_of_found there]
  simp only [not_or, not_and, not_not, not_exists, ne_eq, and_assoc]

/-- Only a dot is in the way of an entry that is not there, where nothing blocks its directory. -/
theorem obstacle_iff (entry : EntryPath cwd path directory last)
    (absent : tree.node (directory ++ [last]) = none) (free : ¬tree.Blocked directory) :
    Obstacle tree cwd path ↔ EndsWithDot path := by
  have notBlocked : ¬tree.Blocked (directory ++ [last]) := by
    rw [blocked_concat]
    rintro (blocked | ⟨value, leaf⟩)
    · exact free blocked
    · cases absent.symm.trans leaf
  rw [Obstacle, entry.enter_eq]
  exact ⟨fun obstacle => (obstacle.resolve_left notBlocked).1, fun dot => Or.inr ⟨dot, absent⟩⟩

/-- A directory that could not be made is in the way of everything in it. -/
theorem makes_of_failed_parent (entry : EntryPath cwd path directory last) {error : LuaString}
    (parent : Makes (tree.Blocked directory) directory tree (.error error) after) :
    Makes (Obstacle tree cwd path) (directory ++ [last]) tree (.error error) after := by
  have blocked : tree.Blocked directory := not_not.mp (mt parent.isOk_iff.mpr Bool.false_ne_true)
  refine ⟨iff_of_false Bool.false_ne_true (not_not.mpr (Or.inl ?_)),
    fun ok => Bool.noConfusion ok, parent.frame.extend [last]⟩
  rw [entry.enter_eq, blocked_concat]
  exact Or.inl blocked

/-- With the parent made, the last directory is made in it. -/
theorem makes_of_made_parent (entry : EntryPath cwd path directory last)
    (absent : tree.node (directory ++ [last]) = none) {between : FileTree}
    (parent : Makes (tree.Blocked directory) directory tree (.ok ()) between) :
    ∃ returned after, (makeLast cwd path).outcome between = (.ok returned, after) ∧
      Makes (Obstacle tree cwd path) (directory ++ [last]) tree returned after := by
  have branch := parent.directories rfl directory List.prefix_rfl
  -- The entry itself is no part of the way to its parent.
  have stillAbsent : between.node (directory ++ [last]) = none := by
    by_contra found
    have within := (parent.frame _ (absent ▸ found)).1.length_le
    rw [List.length_append, List.length_singleton] at within
    omega
  obtain ⟨returned, after, result, makes⟩ :=
    makeLast_makes entry (branch.trans_ne (Option.some_ne_none _))
  rw [obstacle_iff entry stillAbsent (not_blocked_of_branch branch),
    ← obstacle_iff entry absent (parent.isOk_iff.mp rfl)] at makes
  exact ⟨returned, after, result, makes.isOk_iff, makes.directories,
    (parent.frame.extend [last]).trans makes.frame⟩

/-! ## The parent -/

theorem stat_root (cwd : List LuaString) (tree : FileTree) :
    stat cwd tree (ascii "/") = .ok .branch := by
  refine (stat_eq_ok_iff (by decide) (by decide)).mpr ⟨?_, fun _ => rfl⟩
  have absolute : IsAbsolute (ascii "/") := by decide
  have location : enter cwd (ascii "/") = [] := by
    rw [enter, if_pos absolute]
    decide
  exact location ▸ tree.root

theorem stat_above (inside : tree.node cwd = some .branch) :
    stat cwd tree (ascii "..") = .ok .branch := by
  have start : startOf cwd (ascii "..") = cwd := if_neg (by decide)
  have split : posixSeparators.split (ascii "..") = [] ++ [ascii ".."] := by decide
  -- This also holds at the root, which has itself above it.
  have resolved : tree.resolve segmentReading cwd ([] ++ [ascii ".."]) =
      .ok (segmentReading.push false cwd (ascii "..")) :=
    NamedTree.resolve_concat_eq_ok_iff.mpr ⟨cwd, rfl, inside, rfl⟩
  have branch : tree.node (segmentReading.push false cwd (ascii "..")) = some .branch :=
    NamedTree.branch_push_up inside
  rw [stat, if_neg (by decide), start, split, resolved]
  dsimp only
  rw [branch]

theorem node_startOf (inside : tree.node cwd = some .branch) (path : LuaString) :
    tree.node (startOf cwd path) = some .branch := by
  rw [startOf]
  split
  · exact tree.root
  · exact inside

theorem IsParent.enter_eq {parent : LuaString} (isParent : IsParent cwd path parent names) :
    enter cwd parent = startOf cwd path ++ names := by
  rw [FileTree.enter_eq isParent.descends, isParent.start, isParent.parts]

/-- The text of the parent finds whatever stands above the path. -/
theorem IsParent.exists_iff (inside : tree.node cwd = some .branch) {parent : LuaString}
    (isParent : IsParent cwd path parent names) :
    (stat cwd tree parent).isOk = true ↔ tree.node (startOf cwd path ++ names) ≠ none := by
  rw [← isParent.enter_eq]
  constructor
  · intro ok
    cases found : stat cwd tree parent with
    | error errno =>
      rw [found] at ok
      exact Bool.noConfusion ok
    | ok node =>
      rw [((stat_eq_ok_iff isParent.nonempty isParent.descends).mp found).1]
      exact Option.some_ne_none _
  · intro there
    obtain ⟨node, here⟩ := Option.ne_none_iff_exists'.mp there
    have found : stat cwd tree parent = .ok node := by
      refine (stat_eq_ok_iff isParent.nonempty isParent.descends).mpr ⟨here, fun directory => ?_⟩
      have start := node_startOf inside path
      rw [isParent.enter_eq, isParent.meansDirectory directory, List.append_nil, start] at here
      exact (Option.some.inj here).symm
    rw [found]
    rfl

/-- A dot at the end of the parent is the start, and no obstacle. -/
theorem IsParent.obstacle_iff (inside : tree.node cwd = some .branch) {parent : LuaString}
    (isParent : IsParent cwd path parent names)
    (missing : tree.node (startOf cwd path ++ names) = none) :
    Obstacle tree cwd parent ↔ tree.Blocked (startOf cwd path ++ names) := by
  rw [Obstacle, isParent.enter_eq]
  refine or_iff_left ?_
  rintro ⟨dot, -⟩
  rw [isParent.meansDirectory (meansDirectory_of_endsWithDot dot), List.append_nil,
    node_startOf inside] at missing
  cases missing

/-! ## The run -/

/-- With more fuel than `bound` the call ends in this way. -/
def Returns (cwd : List LuaString) (bound : Nat) (path : LuaString) (tree : FileTree)
    (returned : Except LuaString Unit) (after : FileTree) : Prop :=
  ∀ fuel, bound < fuel → (MakeDirectoryTree cwd fuel path).outcome tree = (.ok returned, after)

variable {bound : Nat} {returned : Except LuaString Unit}

theorem returns_of_parent (exists_ : (stat cwd tree (join [path, ascii ".."])).isOk = true)
    (last : (makeLast cwd path).outcome tree = (.ok returned, after)) :
    Returns cwd bound path tree returned after := by
  intro fuel enough
  obtain ⟨fuel, rfl⟩ := Nat.exists_eq_succ_of_ne_zero (Nat.ne_of_gt (Nat.zero_lt_of_lt enough))
  rw [outcome_MakeDirectoryTree, if_pos exists_, last]

theorem returns_of_failed_parent {error : LuaString}
    (missing : ¬(stat cwd tree (join [path, ascii ".."])).isOk = true)
    (parent : Returns cwd bound (join [path, ascii ".."]) tree (.error error) after) :
    Returns cwd (bound + 1) path tree (.error error) after := by
  intro fuel enough
  obtain ⟨fuel, rfl⟩ := Nat.exists_eq_succ_of_ne_zero (Nat.ne_of_gt (Nat.zero_lt_of_lt enough))
  rw [outcome_MakeDirectoryTree, if_neg missing, parent fuel (Nat.lt_of_succ_lt_succ enough)]

theorem returns_of_made_parent {between : FileTree}
    (missing : ¬(stat cwd tree (join [path, ascii ".."])).isOk = true)
    (parent : Returns cwd bound (join [path, ascii ".."]) tree (.ok ()) between)
    (last : (makeLast cwd path).outcome between = (.ok returned, after)) :
    Returns cwd (bound + 1) path tree returned after := by
  intro fuel enough
  obtain ⟨fuel, rfl⟩ := Nat.exists_eq_succ_of_ne_zero (Nat.ne_of_gt (Nat.zero_lt_of_lt enough))
  rw [outcome_MakeDirectoryTree, if_neg missing, parent fuel (Nat.lt_of_succ_lt_succ enough)]
  exact last

/-- Nothing is to be done for a path without names: it stands for the place where it starts. -/
theorem start_returns (inside : tree.node cwd = some .branch) (nonempty : path ≠ [])
    (descends : Descends path) (shape : parts path = []) :
    Returns cwd bound path tree (.ok ()) tree ∧
      Makes (Obstacle tree cwd path) (enter cwd path) tree (.ok ()) tree := by
  have start : tree.node (enter cwd path) = some .branch := by
    rw [enter_eq descends, shape, List.append_nil]
    exact node_startOf inside path
  have above : (stat cwd tree (join [path, ascii ".."])).isOk = true := by
    have up : segmentReading.push (!isAbsolute path) [] (ascii "..") =
        if !isAbsolute path then [ascii ".."] else [] := SegmentReading.push_up_nil
    rw [parent_eq nonempty, shape, up]
    cases isAbsolute path with
    | true => exact congrArg Except.isOk (stat_root cwd tree)
    | false => exact congrArg Except.isOk (stat_above inside)
  -- The start itself is there too, and so nothing is made.
  have found := (stat_eq_ok_iff nonempty descends).mpr ⟨start, fun _ => rfl⟩
  refine ⟨returns_of_parent above (by rw [outcome_makeLast, found]), iff_of_true rfl ?_,
    fun _ => branches_of_branch start, .refl⟩
  rintro (blocked | ⟨-, absent⟩)
  · exact not_blocked_of_branch start blocked
  · cases start.symm.trans absent

/-- The run lemma. The induction is on the names of the path. -/
theorem makeDirectoryTree_makes (inside : tree.node cwd = some .branch) (nonempty : path ≠ [])
    (descends : Descends path) : ∃ returned after,
      Returns cwd (parts path).length path tree returned after ∧
        Makes (Obstacle tree cwd path) (enter cwd path) tree returned after := by
  induction shape : parts path using List.reverseRecOn generalizing path with
  | nil => exact ⟨.ok (), tree, start_returns inside nonempty descends shape⟩
  | append_singleton names last ih =>
    have entry : EntryPath cwd path (startOf cwd path ++ names) last :=
      ⟨nonempty, descends, names, shape, rfl⟩
    have isParent : IsParent cwd path (join [path, ascii ".."]) names :=
      isParent_join nonempty descends shape
    rw [entry.enter_eq, List.length_append, List.length_singleton]
    -- The parent is made first where nothing stands for it.
    by_cases there : tree.node (startOf cwd path ++ names) = none
    · have missing := mt (isParent.exists_iff inside).mp (not_not.mpr there)
      have absent : tree.node (startOf cwd path ++ names ++ [last]) = none := by
        by_contra found
        cases there.symm.trans (branch_above found (List.cons_ne_nil _ _))
      obtain ⟨returned, between, parent, makes⟩ :=
        ih isParent.nonempty isParent.descends isParent.parts
      rw [isParent.obstacle_iff inside there, isParent.enter_eq] at makes
      cases returned with
      | error error =>
        exact ⟨.error error, between, returns_of_failed_parent missing parent,
          makes_of_failed_parent entry makes⟩
      | ok value =>
        obtain ⟨returned, after, result, makesLast⟩ := makes_of_made_parent entry absent makes
        exact ⟨returned, after, returns_of_made_parent missing parent result, makesLast⟩
    · obtain ⟨returned, after, result, makes⟩ := makeLast_makes entry there
      have exists_ := (isParent.exists_iff inside).mpr there
      exact ⟨returned, after, returns_of_parent exists_ result, makes⟩

/-! ## The promise -/

/-- What is promised of a call: it ends, it returns `true` exactly if nothing on the way is a
file, there are directories all the way then, and nothing else is changed. -/
def KeepsPromise (cwd : List LuaString) (path : LuaString) (tree : FileTree) : Prop :=
  ∃ bound returned after, Returns cwd bound path tree returned after ∧
    Makes (tree.Blocked (enter cwd path)) (enter cwd path) tree returned after

theorem not_keepsPromise (inside : tree.node cwd = some .branch) (nonempty : path ≠ [])
    (descends : Descends path) (dot : EndsWithDot path) (absent : tree.node (enter cwd path) = none)
    (free : ¬tree.Blocked (enter cwd path)) : ¬KeepsPromise cwd path tree := by
  rintro ⟨bound, promised, afterwards, kept, promise⟩
  obtain ⟨returned, after, run, makes⟩ := makeDirectoryTree_makes inside nonempty descends
  -- With fuel for both, the run is the promised one.
  have same := (run (bound + (parts path).length + 1) (by omega)).symm.trans (kept _ (by omega))
  obtain ⟨rfl, rfl⟩ : returned = promised ∧ after = afterwards := by simpa using same
  exact makes.isOk_iff.mp (promise.isOk_iff.mpr free) (Or.inr ⟨dot, absent⟩)

/-- The promise is kept for all paths but those that end with a dot and lead to something that
could be made. -/
theorem makeDirectoryTree_iff (inside : tree.node cwd = some .branch) (nonempty : path ≠ [])
    (descends : Descends path) : KeepsPromise cwd path tree ↔
      ¬(EndsWithDot path ∧ tree.node (enter cwd path) = none ∧ ¬tree.Blocked (enter cwd path)) := by
  constructor
  · rintro promise ⟨dot, absent, free⟩
    exact not_keepsPromise inside nonempty descends dot absent free promise
  · intro kept
    obtain ⟨returned, after, run, makes⟩ := makeDirectoryTree_makes inside nonempty descends
    refine ⟨_, returned, after, run, ?_, makes.directories, makes.frame⟩
    rw [makes.isOk_iff, Obstacle, not_or]
    exact and_iff_left_of_imp fun free ⟨dot, absent⟩ => kept ⟨dot, absent, free⟩

theorem makeDirectoryTree_iff_bareTree : KeepsPromise [] (ascii "a//./b/") bareTree ↔
    ¬(EndsWithDot (ascii "a//./b/") ∧ bareTree.node (enter [] (ascii "a//./b/")) = none ∧
      ¬bareTree.Blocked (enter [] (ascii "a//./b/"))) :=
  makeDirectoryTree_iff rfl (by decide) (by decide)

theorem dot_breaks_promise : ¬KeepsPromise [] (ascii "a/.") bareTree := by
  refine not_keepsPromise rfl (by decide) (by decide) rfl (by decide) ?_
  rintro ⟨above, value, -, leaf⟩
  rw [node_bareTree] at leaf
  split at leaf <;> cases leaf

end EvoRuntime.FileSystem
