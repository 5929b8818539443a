import EvoRuntime.Path.Normalize

/-!
# Laws of `path.posix.normalize` and `path.posix.join`

A normalized text is determined by three things: whether the path is absolute,
whether it ends with a slash, and the parts that are left of it.

## Main result

`join_laws`: a part of the arguments of `join` may be joined first, `normalize` is
idempotent, and it keeps absolute paths absolute and relative paths relative.

## Proof strategy

`normalize_eq_spelled` writes the result with the three data. Normalizing a path
keeps its parts (`parts_normalize`), so text that follows a normalized path acts on
the same parts as text that follows the path itself: `normalize_append`.
-/
namespace EvoRuntime.Path

open Lua Library

def isAbsolute (path : LuaString) : Bool :=
  path.length > 0 && stringPrototypeCharCodeAt path 0 == some CHAR_FORWARD_SLASH

/-- The path ends with a slash. -/
def Trailing (path : LuaString) : Bool := path.getLast? == some CHAR_FORWARD_SLASH

/-- What is left of the segments of a path. -/
def parts (path : LuaString) : List LuaString :=
  segmentReading.walk (!isAbsolute path) [] (posixSeparators.split path)

/-- The normalized text of a path. -/
def spelled (absolute trailing : Bool) (parts : List LuaString) : LuaString :=
  if parts = [] then
    if absolute then ascii "/" else if trailing then ascii "./" else ascii "."
  else
    (if absolute then [CHAR_FORWARD_SLASH] else []) ++ posixSeparators.join parts ++
      if trailing then [CHAR_FORWARD_SLASH] else []

/-! ## The three data of a path -/

theorem isAbsolute_eq (path : LuaString) : isAbsolute path = decide (IsAbsolute path) := by
  rw [Bool.eq_iff_iff, isAbsolute, Bool.and_eq_true, decide_eq_true_iff, decide_eq_true_iff,
    isAbsolute_iff]
  constructor
  · exact fun both => both.2
  · intro absolute
    refine ⟨List.length_pos_iff.mpr ?_, absolute⟩
    rintro rfl
    exact absurd absolute (by decide)

theorem isAbsolute_append {front : LuaString} (nonempty : front ≠ []) (back : LuaString) :
    isAbsolute (front ++ back) = isAbsolute front := by
  have starts : IsAbsolute (front ++ back) ↔ IsAbsolute front := by
    rw [IsAbsolute, List.head?_append_of_ne_nil front nonempty, IsAbsolute]
  rw [isAbsolute_eq, isAbsolute_eq, decide_eq_decide]
  exact starts

theorem trailing_append (front : LuaString) {back : LuaString} (nonempty : back ≠ []) :
    Trailing (front ++ back) = Trailing back := by
  rw [Trailing, List.getLast?_append_of_ne_nil front nonempty, Trailing]

theorem parts_append {front : LuaString} (nonempty : front ≠ []) (back : LuaString) :
    parts (front ++ CHAR_FORWARD_SLASH :: back) =
      segmentReading.walk (!isAbsolute front) (parts front) (posixSeparators.split back) := by
  rw [parts, isAbsolute_append nonempty, split_slash, SegmentReading.walk_append, parts]

theorem parts_clean (path : LuaString) : posixSeparators.Clean (parts path) := walk_clean _ path

theorem normalize_eq_spelled {path : LuaString} (nonempty : path ≠ []) :
    normalize path = spelled (isAbsolute path) (Trailing path) (parts path) := by
  have positive : path.length ≠ 0 := mt List.length_eq_zero_iff.mp nonempty
  have first : (stringPrototypeCharCodeAt path 0 == some CHAR_FORWARD_SLASH) = isAbsolute path := by
    rw [isAbsolute_eq, Bool.eq_iff_iff, isAbsolute_iff, decide_eq_true_iff]
  have last : (stringPrototypeCharCodeAt path (path.length - 1) == some CHAR_FORWARD_SLASH) =
      Trailing path := by
    have index : (path.length : Int) - 1 = (path.length - 1 : Nat) := by omega
    rw [index, charCodeAt_eq, ← List.getLast?_eq_getElem?, Trailing]
  have walked : normalizeString path (!isAbsolute path) (ascii "/") isPosixPathSeparator =
      posixSeparators.join (parts path) :=
    normalizeString_eq_walk posixSeparators path _
  have slash : ascii "/" = [CHAR_FORWARD_SLASH] := by decide
  rw [normalize, if_neg positive]
  simp only [first, last, walked]
  by_cases empty : parts path = []
  · rw [spelled, if_pos empty, empty]
    exact if_pos rfl
  · have text : (posixSeparators.join (parts path)).length ≠ 0 := fun zero =>
      empty (join_eq_nil (parts_clean path) (List.length_eq_zero_iff.mp zero))
    rw [spelled, if_neg empty, if_neg text, slash]
    cases isAbsolute path <;> cases Trailing path <;> simp

/-! ## Reading the data back -/

/-- A slash at the end of joined parts adds an empty segment. -/
theorem walk_spelled {above trailing : Bool} {names : List LuaString}
    (clean : posixSeparators.Clean names) (nonempty : names ≠ []) :
    segmentReading.walk above [] (posixSeparators.split
      (posixSeparators.join names ++ if trailing then [CHAR_FORWARD_SLASH] else [])) =
      segmentReading.walk above [] names := by
  have split := split_join clean nonempty
  cases trailing with
  | false => rw [if_neg Bool.false_ne_true, List.append_nil, split]
  | true =>
    have skipped : segmentReading.skipped [] = true := by decide
    have last : posixSeparators.split [] = [[]] := rfl
    rw [if_pos rfl, split_slash, split, SegmentReading.walk_append, last, SegmentReading.walk_cons,
      SegmentReading.push_skipped skipped, SegmentReading.walk_nil]

/-- The parts of a path are not reduced any further. -/
theorem walk_parts (path : LuaString) :
    segmentReading.walk (!isAbsolute path) [] (parts path) = parts path := by
  rw [parts]
  cases isAbsolute path with
  | false => exact SegmentReading.walk_walk [] (List.forall_mem_nil _)
  | true =>
    have names : ∀ s ∈ segmentReading.walk false [] (posixSeparators.split path),
        segmentReading.IsName s := SegmentReading.walk_keeps_names _ (List.forall_mem_nil _)
    exact SegmentReading.walk_names [] names

theorem isAbsolute_spelled {absolute trailing : Bool} {names : List LuaString}
    (clean : posixSeparators.Clean names) :
    isAbsolute (spelled absolute trailing names) = absolute := by
  rw [spelled]
  cases names with
  | nil => cases absolute <;> cases trailing <;> decide
  | cons name rest =>
    rw [if_neg (List.cons_ne_nil _ _), isAbsolute_eq]
    cases absolute with
    | true => rfl
    | false =>
      have text : posixSeparators.join (name :: rest) ≠ [] := fun empty =>
        List.cons_ne_nil _ _ (join_eq_nil clean empty)
      rw [if_neg Bool.false_ne_true, List.nil_append, decide_eq_false_iff_not, IsAbsolute,
        List.head?_append_of_ne_nil _ text]
      exact join_relative clean

/-- Joined parts end with a part, and so not with a slash. -/
theorem not_trailing_join {names : List LuaString} (clean : posixSeparators.Clean names) :
    Trailing (posixSeparators.join names) = false := by
  apply eq_false_of_ne_true
  intro slash
  exact getLast_join_ne clean (beq_iff_eq.mp slash)

/-- A trailing slash is kept; the root has one in any case. -/
theorem trailing_spelled {absolute trailing : Bool} {names : List LuaString}
    (clean : posixSeparators.Clean names) :
    Trailing (spelled absolute trailing names) = (trailing || absolute && decide (names = [])) := by
  rw [spelled]
  by_cases empty : names = []
  · rw [if_pos empty, decide_eq_true empty]
    cases absolute <;> cases trailing <;> decide
  · have text : posixSeparators.join names ≠ [] := fun nothing => empty (join_eq_nil clean nothing)
    rw [if_neg empty, decide_eq_false empty, Bool.and_false, Bool.or_false]
    cases trailing with
    | true => exact trailing_append _ (List.cons_ne_nil _ _)
    | false =>
      rw [if_neg Bool.false_ne_true, List.append_nil, trailing_append _ text]
      exact not_trailing_join clean

theorem parts_spelled {absolute trailing : Bool} {names : List LuaString}
    (clean : posixSeparators.Clean names) :
    parts (spelled absolute trailing names) = segmentReading.walk (!absolute) [] names := by
  rw [parts, isAbsolute_spelled clean, spelled]
  by_cases empty : names = []
  · subst empty
    cases absolute <;> cases trailing <;> decide
  · rw [if_neg empty, List.append_assoc]
    cases absolute with
    | false => exact walk_spelled clean empty
    | true =>
      have skipped : segmentReading.skipped [] = true := by decide
      -- The slash at the start follows an empty segment.
      have root (text : LuaString) : posixSeparators.split (CHAR_FORWARD_SLASH :: text) =
          [] :: posixSeparators.split text := split_slash [] text
      rw [if_pos rfl, List.singleton_append, root, SegmentReading.walk_cons,
        SegmentReading.push_skipped skipped]
      exact walk_spelled clean empty

/-! ## Normalizing twice -/

theorem isAbsolute_normalize (path : LuaString) : isAbsolute (normalize path) = isAbsolute path := by
  by_cases empty : path = []
  · subst empty
    decide
  · rw [normalize_eq_spelled empty, isAbsolute_spelled (parts_clean path)]

theorem parts_normalize (path : LuaString) : parts (normalize path) = parts path := by
  by_cases empty : path = []
  · subst empty
    decide
  · rw [normalize_eq_spelled empty, parts_spelled (parts_clean path), walk_parts]

theorem normalize_normalize (path : LuaString) : normalize (normalize path) = normalize path := by
  by_cases empty : path = []
  · subst empty
    decide
  · rw [normalize_eq_spelled (normalize_ne_nil path), isAbsolute_normalize, parts_normalize,
      normalize_eq_spelled empty, trailing_spelled (parts_clean path)]
    -- The slash of the root is no trailing slash of the path.
    by_cases root : isAbsolute path = true ∧ parts path = []
    · rw [spelled, spelled, if_pos root.2, if_pos root.2, if_pos root.1, if_pos root.1]
    · have same : (isAbsolute path && decide (parts path = [])) = false := by
        simpa using root
      rw [same, Bool.or_false]

/-- Text behind a path may be put behind the normalized path. -/
theorem normalize_append {path : LuaString} (nonempty : path ≠ []) (back : LuaString) :
    normalize (normalize path ++ CHAR_FORWARD_SLASH :: back) =
      normalize (path ++ CHAR_FORWARD_SLASH :: back) := by
  have start := normalize_ne_nil path
  rw [normalize_eq_spelled (List.append_ne_nil_of_left_ne_nil start _),
    normalize_eq_spelled (List.append_ne_nil_of_left_ne_nil nonempty _), parts_append start,
    parts_append nonempty, isAbsolute_append start, isAbsolute_append nonempty,
    isAbsolute_normalize, parts_normalize, trailing_append _ (List.cons_ne_nil _ _),
    trailing_append _ (List.cons_ne_nil _ _)]

/-! ## `join` -/

/-- The text that further arguments put behind an argument. -/
def following (args : List LuaString) : LuaString :=
  (args.filter fun arg => !arg.isEmpty).flatMap (CHAR_FORWARD_SLASH :: ·)

theorem joined_cons {text : LuaString} (nonempty : text ≠ []) (args : List LuaString) :
    joined (text :: args) = some (text ++ following args) := by
  have slash : ascii "/" = [CHAR_FORWARD_SLASH] := by decide
  induction args generalizing text with
  | nil => simp [joined, following, nonempty, List.length_pos_iff]
  | cons arg rest ih =>
    by_cases empty : arg = []
    · subst empty
      exact ih nonempty
    -- The first two arguments count as one.
    · have two : joined (text :: arg :: rest) = joined ((text ++ CHAR_FORWARD_SLASH :: arg) :: rest) := by
        simp [joined, nonempty, empty, List.length_pos_iff, slash]
      have behind : following (arg :: rest) = CHAR_FORWARD_SLASH :: arg ++ following rest := by
        simp [following, empty]
      rw [two, ih (List.append_ne_nil_of_left_ne_nil nonempty _), behind, List.append_assoc]

theorem joined_proper {args : List LuaString} (proper : ∃ arg ∈ args, arg ≠ []) :
    ∃ text, joined args = some text ∧ text ≠ [] := by
  induction args with
  | nil =>
    obtain ⟨arg, member, -⟩ := proper
    exact absurd member List.not_mem_nil
  | cons arg rest ih =>
    by_cases empty : arg = []
    · subst empty
      obtain ⟨other, member, nonempty⟩ := proper
      rcases List.mem_cons.mp member with same | later
      · exact absurd same nonempty
      · exact ih ⟨other, later, nonempty⟩
    · exact ⟨_, joined_cons empty rest, List.append_ne_nil_of_left_ne_nil empty _⟩

theorem joined_append {args : List LuaString} {text : LuaString} (found : joined args = some text)
    (nonempty : text ≠ []) (more : List LuaString) :
    joined (args ++ more) = some (text ++ following more) := by
  have start : joined (args ++ more) = joined (text :: more) := by
    rw [joined] at found
    rw [joined, List.foldl_append, found]
    simp [joined, nonempty, List.length_pos_iff]
  rw [start, joined_cons nonempty]

theorem join_eq_normalize {args : List LuaString} {text : LuaString}
    (found : joined args = some text) : join args = normalize text := by
  have some_args : args.length ≠ 0 := by
    intro none_
    rw [List.length_eq_zero_iff.mp none_] at found
    exact Option.some_ne_none text found.symm
  rw [join, if_neg some_args, found]

theorem normalize_following {path : LuaString} (nonempty : path ≠ []) (more : List LuaString) :
    normalize (normalize path ++ following more) = normalize (path ++ following more) := by
  unfold following
  cases more.filter fun arg => !arg.isEmpty with
  | nil =>
    rw [List.flatMap_nil, List.append_nil, List.append_nil]
    exact normalize_normalize path
  | cons arg rest =>
    rw [List.flatMap_cons, List.cons_append]
    exact normalize_append nonempty _

/-- Some of the arguments may be joined first. So `normalize` is idempotent, and it
keeps a path absolute or relative. -/
theorem join_laws :
    (∀ xs ys : List LuaString, (∃ x ∈ xs, x ≠ []) → join (join xs :: ys) = join (xs ++ ys)) ∧
    (∀ path, normalize (normalize path) = normalize path) ∧
    ∀ path, isAbsolute (normalize path) = isAbsolute path := by
  refine ⟨?_, normalize_normalize, isAbsolute_normalize⟩
  intro xs ys proper
  obtain ⟨text, found, nonempty⟩ := joined_proper proper
  rw [join_eq_normalize found, join_eq_normalize (joined_append found nonempty ys),
    join_eq_normalize (joined_cons (normalize_ne_nil text) ys), normalize_following nonempty]

theorem join_laws_up :
    join (join [[], ascii "/a/.."] :: [ascii "../b/"]) = join ([[], ascii "/a/.."] ++ [ascii "../b/"]) :=
  join_laws.1 _ _ ⟨ascii "/a/..", by decide⟩

end EvoRuntime.Path
