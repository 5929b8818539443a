import EvoRuntime.Path.NormalizeString

/-!
# `path.posix.resolve`

Arguments are typed as strings, so the checks of their types have no counterpart
here. A Lua error is an `Except` error; the only one is raised by `posixCwd`.

`resolve_eq_locate`: with an absolute current directory, `resolve` returns the
path of the location reached by walking over the arguments from left to right,
where an absolute argument starts again at the root.
-/
namespace EvoRuntime.Path

open Lua Library

/-- What the path library reads from its surroundings: `ffi.os` and `uv.cwd()`. -/
structure Host where
  isWindows : Bool
  cwd : LuaString

def posixCwd (host : Host) : Except LuaError LuaString :=
  if host.isWindows then
    let cwd := host.cwd.map fun c => if c = CHAR_BACKWARD_SLASH then CHAR_FORWARD_SLASH else c
    match cwd.findIdx? (· == CHAR_FORWARD_SLASH) with
    | some index => .ok (stringPrototypeSlice cwd index)
    | none => .error ⟨"attempt to perform arithmetic on local 'index' (a nil value)"⟩
  else .ok host.cwd

/-- `args[i]`, with indices from one. -/
def argument (args : List LuaString) : Nat → Option LuaString
  | 0 => none
  | i + 1 => args[i]?

/-- One path in front of the text collected so far; an empty one is skipped. -/
def prepend (path resolvedPath : LuaString) : LuaString × Bool :=
  if path.length = 0 then (resolvedPath, false)
  else (path ++ ascii "/" ++ resolvedPath,
    stringPrototypeCharCodeAt path 0 == some CHAR_FORWARD_SLASH)

/-- The loop of `resolve` from index `i` down. -/
def resolveLoop (host : Host) (args : List LuaString) (i : Nat) (resolvedPath : LuaString) :
    Except LuaError (LuaString × Bool) := do
  -- `args[0]` is nil, so that the current directory comes last.
  let path ← match argument args i with
    | some path => pure path
    | none => posixCwd host
  let resolved := prepend path resolvedPath
  if resolved.2 then pure resolved
  else match i with
    | 0 => pure resolved
    | i + 1 => resolveLoop host args i resolved.1

def resolve (host : Host) (arg : LuaString) (rest : List LuaString := []) :
    Except LuaError LuaString := do
  let args := arg :: rest
  let (resolvedPath, resolvedAbsolute) ← resolveLoop host args args.length []
  let resolvedPath := normalizeString resolvedPath (!resolvedAbsolute) (ascii "/") isPosixPathSeparator
  if resolvedAbsolute then pure (ascii "/" ++ resolvedPath)
  else pure (if resolvedPath.length > 0 then resolvedPath else ascii ".")

/-! ## Locations -/

def IsAbsolute (path : LuaString) : Prop := path.head? = some CHAR_FORWARD_SLASH

instance (path : LuaString) : Decidable (IsAbsolute path) :=
  inferInstanceAs (Decidable (path.head? = some CHAR_FORWARD_SLASH))

/-- The nonempty parts of a POSIX path between slashes. -/
def segments (path : LuaString) : List LuaString :=
  (path.splitOn CHAR_FORWARD_SLASH).filter fun s => !s.isEmpty

/-- The absolute path of a location below the root. -/
def rooted (location : List LuaString) : LuaString :=
  CHAR_FORWARD_SLASH :: posixSeparators.join location

/-- Where a path leads from a location. -/
def enter (location : List LuaString) (path : LuaString) : List LuaString :=
  segmentReading.walk false (if IsAbsolute path then [] else location) (posixSeparators.split path)

def locate (cwd : LuaString) (args : List LuaString) : List LuaString :=
  args.foldl enter (enter [] cwd)

/-- Names of directories and files, as they occur in a location. -/
def Named (location : List LuaString) : Prop :=
  ∀ s ∈ location, segmentReading.IsName s ∧ CHAR_FORWARD_SLASH ∉ s

theorem Named.clean {location : List LuaString} (named : Named location) :
    posixSeparators.Clean location :=
  fun s member => ⟨(named s member).1.1, (named s member).2⟩

theorem split_slash (front back : LuaString) :
    posixSeparators.split (front ++ CHAR_FORWARD_SLASH :: back) =
      posixSeparators.split front ++ posixSeparators.split back :=
  posixSeparators.split_append front back posixSeparators.slash_recognized

theorem slash_not_mem_split (path : LuaString) :
    ∀ s ∈ posixSeparators.split path, CHAR_FORWARD_SLASH ∉ s := by
  intro s member slash
  have unseparated := posixSeparators.split_unseparated path s member CHAR_FORWARD_SLASH slash
  exact Bool.false_ne_true (unseparated.symm.trans posixSeparators.slash_recognized)

theorem enter_named {location : List LuaString} (named : Named location) (path : LuaString) :
    Named (enter location path) := by
  have start : Named (if IsAbsolute path then [] else location) := by
    split
    · simp [Named]
    · exact named
  have names := SegmentReading.walk_keeps_names (posixSeparators.split path) fun s member =>
    (start s member).1
  have unseparated : ∀ s ∈ enter location path, CHAR_FORWARD_SLASH ∉ s :=
    SegmentReading.walk_forall (fun s member => (start s member).2) (slash_not_mem_split path)
  exact fun s member => ⟨names s member, unseparated s member⟩

theorem locate_named (cwd : LuaString) (args : List LuaString) : Named (locate cwd args) := by
  have initial : Named (enter [] cwd) := enter_named (by simp [Named]) cwd
  unfold locate
  generalize enter [] cwd = location at initial
  induction args generalizing location with
  | nil => exact initial
  | cons arg rest ih => exact ih _ (enter_named initial arg)

/-! ## Joined segments -/

theorem split_join {parts : List LuaString} (clean : posixSeparators.Clean parts)
    (nonempty : parts ≠ []) : posixSeparators.split (posixSeparators.join parts) = parts :=
  List.splitOn_intercalate CHAR_FORWARD_SLASH (fun s member => (clean s member).2) nonempty

theorem join_eq_nil {parts : List LuaString} (clean : posixSeparators.Clean parts)
    (empty : posixSeparators.join parts = []) : parts = [] :=
  (join_eq_nil_iff fun s member => ne_nil_of_kept (clean s member).1).mp empty

/-- The first segment has no slash to start with. -/
theorem join_relative {parts : List LuaString} (clean : posixSeparators.Clean parts) :
    ¬IsAbsolute (posixSeparators.join parts) := by
  intro slash
  cases parts with
  | nil => exact Option.some_ne_none _ slash.symm
  | cons part rest =>
    obtain ⟨kept, unseparated⟩ := clean part List.mem_cons_self
    rw [IsAbsolute, Separators.join, head_join rest (ne_nil_of_kept kept)] at slash
    exact unseparated (List.mem_of_head? slash)

/-- The segments of an absolute path are the names of its location. -/
theorem segments_rooted {location : List LuaString} (named : Named location) :
    segments (rooted location) = location := by
  have clean : ∀ s ∈ location, s ≠ [] := fun s member => ne_nil_of_kept (named s member).1.1
  -- The root contributes an empty part, which is filtered out again.
  have split : (rooted location).splitOn CHAR_FORWARD_SLASH =
      [] :: (posixSeparators.join location).splitOn CHAR_FORWARD_SLASH := by
    rw [rooted, List.splitOn_cons_eq_if_modifyHead, if_pos (by simp)]
  rw [segments, split]
  rcases List.eq_nil_or_concat' location with rfl | ⟨below, top, shape⟩
  · rfl
  · have whole : (posixSeparators.join location).splitOn CHAR_FORWARD_SLASH = location :=
      List.splitOn_intercalate CHAR_FORWARD_SLASH (fun s member => (named s member).2)
        (by simp [shape])
    rw [whole, List.filter_cons_of_neg (by simp), List.filter_eq_self]
    intro s member
    simpa using clean s member

theorem rooted_injective {left right : List LuaString} (leftNamed : Named left)
    (rightNamed : Named right) (same : rooted left = rooted right) : left = right := by
  rw [← segments_rooted leftNamed, same, segments_rooted rightNamed]

/-! ## `resolve` -/

theorem posixCwd_absolute (host : Host) (absolute : IsAbsolute host.cwd) :
    ∃ cwd, posixCwd host = .ok cwd ∧ IsAbsolute cwd := by
  unfold posixCwd
  split
  · obtain ⟨rest, shape⟩ : ∃ rest, host.cwd = CHAR_FORWARD_SLASH :: rest :=
      List.head?_eq_some_iff.mp absolute
    have kept : (if CHAR_FORWARD_SLASH = CHAR_BACKWARD_SLASH then CHAR_FORWARD_SLASH
        else CHAR_FORWARD_SLASH) = CHAR_FORWARD_SLASH := by decide
    -- Without a drive letter the first slash is at the start, and nothing is cut.
    simp only [shape, List.map_cons, kept, List.findIdx?_cons, beq_self_eq_true, if_true]
    exact ⟨_, rfl, by rw [slice_from]; rfl⟩
  · exact ⟨host.cwd, rfl, absolute⟩

theorem prepend_nil (resolvedPath : LuaString) : prepend [] resolvedPath = (resolvedPath, false) :=
  rfl

theorem prepend_cons (path resolvedPath : LuaString) (nonempty : path ≠ []) :
    prepend path resolvedPath =
      (path ++ CHAR_FORWARD_SLASH :: resolvedPath, decide (IsAbsolute path)) := by
  have first : stringPrototypeCharCodeAt path 0 = path[0]? := charCodeAt_eq path 0
  have slash : ascii "/" = [CHAR_FORWARD_SLASH] := by decide
  rw [prepend, if_neg (by simpa using nonempty), first, slash, List.append_assoc,
    ← List.head?_eq_getElem?]
  have starts : (path.head? == some CHAR_FORWARD_SLASH) = decide (IsAbsolute path) := by
    rw [Bool.eq_iff_iff, beq_iff_eq, decide_eq_true_iff, IsAbsolute]
  rw [starts]
  rfl

theorem walk_slash (location : List LuaString) (path text : LuaString) :
    segmentReading.walk false location (posixSeparators.split (path ++ CHAR_FORWARD_SLASH :: text)) =
      segmentReading.walk false
        (segmentReading.walk false location (posixSeparators.split path))
        (posixSeparators.split text) := by
  rw [split_slash, SegmentReading.walk_append]

theorem walk_split_nil (location : List LuaString) :
    segmentReading.walk false location (posixSeparators.split []) = location := by
  show segmentReading.walk false location [[]] = location
  rw [SegmentReading.walk_cons, SegmentReading.push_skipped (by decide), SegmentReading.walk_nil]

theorem enter_nil (location : List LuaString) : enter location [] = location := by
  rw [enter, if_neg (by decide), walk_split_nil]

/-- Segments that are neither empty nor skipped are entered one after the other. -/
theorem enter_join {parts : List LuaString} (clean : posixSeparators.Clean parts)
    (location : List LuaString) :
    enter location (posixSeparators.join parts) = segmentReading.walk false location parts := by
  by_cases empty : parts = []
  · subst empty
    exact enter_nil location
  · rw [enter, if_neg (join_relative clean), split_join clean empty]

/-- The text collected by the loop leads to the location of the arguments before
`i`, and from there on through the text collected before. -/
theorem resolveLoop_locate (host : Host) (cwd : LuaString) (returned : posixCwd host = .ok cwd)
    (absolute : IsAbsolute cwd) (args : List LuaString) (i : Nat) (bound : i ≤ args.length)
    (resolvedPath : LuaString) :
    ∃ text, resolveLoop host args i resolvedPath = .ok (text, true) ∧
      segmentReading.walk false [] (posixSeparators.split text) =
        segmentReading.walk false (locate cwd (args.take i)) (posixSeparators.split resolvedPath) := by
  induction i generalizing resolvedPath with
  | zero =>
    -- The current directory is absolute, so the loop ends with it at the latest.
    have nonempty : cwd ≠ [] := by
      rintro rfl
      exact absurd absolute (by decide)
    refine ⟨cwd ++ CHAR_FORWARD_SLASH :: resolvedPath, ?_, ?_⟩
    · rw [resolveLoop]
      simp [argument, returned, prepend_cons _ _ nonempty, absolute, bind, Except.bind, pure,
        Except.pure]
    · rw [walk_slash]
      simp [locate, enter]
  | succ i ih =>
    obtain ⟨path, read⟩ : ∃ path, args[i]? = some path :=
      ⟨args[i], List.getElem?_eq_getElem (by omega)⟩
    have located : locate cwd (args.take (i + 1)) = enter (locate cwd (args.take i)) path := by
      rw [List.take_add_one, read]
      simp [locate, List.foldl_append]
    rw [located, resolveLoop]
    simp only [argument, read, bind, Except.bind, pure, Except.pure]
    -- An empty argument leads nowhere.
    by_cases empty : path = []
    · rw [empty, prepend_nil, enter_nil]
      simpa using ih (by omega) resolvedPath
    · rw [prepend_cons path resolvedPath empty]
      -- An absolute argument ends the loop; what stands before it has no effect.
      by_cases starts : IsAbsolute path
      · refine ⟨path ++ CHAR_FORWARD_SLASH :: resolvedPath, by simp [starts], ?_⟩
        rw [walk_slash, enter, if_pos starts]
      · obtain ⟨text, run, walk⟩ := ih (by omega) (path ++ CHAR_FORWARD_SLASH :: resolvedPath)
        refine ⟨text, by simpa [starts] using run, ?_⟩
        rw [walk, walk_slash, enter, if_neg starts]

/-- With an absolute current directory `resolve` returns the path of a location. -/
theorem resolve_of_posixCwd {host : Host} {cwd : LuaString} (returned : posixCwd host = .ok cwd)
    (absolute : IsAbsolute cwd) (arg : LuaString) (rest : List LuaString) :
    resolve host arg rest = .ok (rooted (locate cwd (arg :: rest))) := by
  obtain ⟨text, run, walk⟩ := resolveLoop_locate host cwd returned absolute (arg :: rest)
    (arg :: rest).length (Nat.le_refl _) []
  rw [List.take_length] at walk
  have normalized := normalizeString_eq_walk posixSeparators text false
  rw [walk] at normalized
  simp only [resolve, run, bind, Except.bind, pure, Except.pure, if_true, Bool.not_true]
  rw [walk_split_nil] at normalized
  exact congrArg Except.ok (congrArg (CHAR_FORWARD_SLASH :: ·) normalized)

theorem resolve_eq_locate (host : Host) (absolute : IsAbsolute host.cwd) :
    ∃ cwd, ∀ arg rest, resolve host arg rest = .ok (rooted (locate cwd (arg :: rest))) := by
  obtain ⟨cwd, returned, absolute⟩ := posixCwd_absolute host absolute
  exact ⟨cwd, resolve_of_posixCwd returned absolute⟩

end EvoRuntime.Path
