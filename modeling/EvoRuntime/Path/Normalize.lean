import EvoRuntime.Path.ResolveLaws

/-!
# `path.posix.normalize` and `path.posix.join`

Normalizing changes the text of a path and not the location that it leads to:
`enter_normalize`. So joining a directory and a name leads to the name in the
directory, however the directory is spelled: `locate_join`.
-/
namespace EvoRuntime.Path

open Lua Library

def normalize (path : LuaString) : LuaString :=
  if path.length = 0 then ascii "."
  else
    let isAbsolute := stringPrototypeCharCodeAt path 0 == some CHAR_FORWARD_SLASH
    let trailingSeparator :=
      stringPrototypeCharCodeAt path (path.length - 1) == some CHAR_FORWARD_SLASH
    let path := normalizeString path (!isAbsolute) (ascii "/") isPosixPathSeparator
    if path.length = 0 then
      if isAbsolute then ascii "/" else if trailingSeparator then ascii "./" else ascii "."
    else
      let path := if trailingSeparator then path ++ ascii "/" else path
      if isAbsolute then ascii "/" ++ path else path

/-- The arguments that are not empty, with slashes between them. -/
def joined (args : List LuaString) : Option LuaString :=
  args.foldl (fun joined arg =>
    if arg.length > 0 then
      match joined with
      | none => some arg
      | some joined => some (joined ++ ascii "/" ++ arg)
    else joined) none

def join (args : List LuaString) : LuaString :=
  if args.length = 0 then ascii "."
  else match joined args with
    | none => ascii "."
    | some joined => normalize joined

example : join [ascii "../b//", ascii "", ascii "c/."] = ascii "../b/c" := by decide

/-! ## Locations -/

/-- A slash at the end does not matter. -/
theorem enter_trailing (location : List LuaString) {path : LuaString} (nonempty : path ≠ [])
    (trailing : Prop) [Decidable trailing] :
    enter location (if trailing then path ++ ascii "/" else path) = enter location path := by
  split
  · have slash : ascii "/" = [CHAR_FORWARD_SLASH] := by decide
    have starts : IsAbsolute (path ++ [CHAR_FORWARD_SLASH]) ↔ IsAbsolute path := by
      rw [IsAbsolute, List.head?_append_of_ne_nil path nonempty, IsAbsolute]
    rw [slash]
    simp only [enter, starts]
    rw [walk_slash, walk_split_nil]
  · rfl

theorem isAbsolute_iff (path : LuaString) :
    (stringPrototypeCharCodeAt path 0 == some CHAR_FORWARD_SLASH) = true ↔ IsAbsolute path := by
  have code : stringPrototypeCharCodeAt path 0 = path[0]? := charCodeAt_eq path 0
  rw [code, ← List.head?_eq_getElem?, beq_iff_eq, IsAbsolute]

/-- The parts that `normalize` is left with. -/
theorem walk_clean (above : Bool) (path : LuaString) :
    posixSeparators.Clean (segmentReading.walk above [] (posixSeparators.split path)) :=
  (posixSeparators.walk_proper above (List.forall_mem_nil _) path).clean

/-- Normalizing does not change where a path leads. -/
theorem enter_normalize (location : List LuaString) (path : LuaString) :
    enter location (normalize path) = enter location path := by
  rw [normalize]
  split
  case isTrue empty =>
    rw [List.length_eq_zero_iff.mp empty, enter_nil]
    rfl
  case isFalse nonempty =>
    by_cases absolute : IsAbsolute path
    · -- The parts of an absolute path are its location.
      have entered : segmentReading.walk false [] (posixSeparators.split path) =
          enter location path := by
        rw [enter, if_pos absolute]
      have walked : normalizeString path false (ascii "/") isPosixPathSeparator =
          posixSeparators.join (enter location path) :=
        entered ▸ normalizeString_eq_walk posixSeparators path false
      have clean := entered ▸ walk_clean false path
      have named : Named (enter location path) :=
        entered ▸ fun s member => ⟨SegmentReading.walk_keeps_names _ (List.forall_mem_nil _) s member,
          (walk_clean false path s member).2⟩
      simp only [(isAbsolute_iff path).mpr absolute, Bool.not_true, walked, if_true]
      split
      case isTrue empty =>
        rw [join_eq_nil clean (List.length_eq_zero_iff.mp empty)]
        exact enter_rooted (List.forall_mem_nil _) location
      case isFalse =>
        generalize (stringPrototypeCharCodeAt path (path.length - 1) ==
          some CHAR_FORWARD_SLASH) = trailing
        have front : (ascii "/" ++ if trailing = true then
            posixSeparators.join (enter location path) ++ ascii "/"
            else posixSeparators.join (enter location path)) =
            if trailing = true then rooted (enter location path) ++ ascii "/"
            else rooted (enter location path) := by
          split <;> rfl
        have nonempty : rooted (enter location path) ≠ [] := List.cons_ne_nil _ _
        rw [front, enter_trailing location nonempty, enter_rooted named]
    · have walked : normalizeString path true (ascii "/") isPosixPathSeparator = _ :=
        normalizeString_eq_walk posixSeparators path true
      have clean := walk_clean true path
      have first : (stringPrototypeCharCodeAt path 0 == some CHAR_FORWARD_SLASH) = false :=
        eq_false_of_ne_true (mt (isAbsolute_iff path).mp absolute)
      -- A relative path may go up first.
      have same : segmentReading.walk false location
          (segmentReading.walk true [] (posixSeparators.split path)) = enter location path := by
        rw [SegmentReading.walk_walk location (List.forall_mem_nil _), enter, if_neg absolute]
        rfl
      rw [← same]
      simp only [first, Bool.not_false, walked, Bool.false_eq_true, if_false]
      split
      case isTrue empty =>
        rw [join_eq_nil clean (List.length_eq_zero_iff.mp empty)]
        split
        · have dot : ascii "." ≠ [] := by decide
          exact (enter_trailing location dot True).trans (enter_nil location)
        · rfl
      case isFalse nonempty =>
        rw [enter_trailing location (by simpa using nonempty), enter_join clean]

theorem normalize_ne_nil (path : LuaString) : normalize path ≠ [] := by
  have dot : ascii "." ≠ [] := by decide
  have dotSlash : ascii "./" ≠ [] := by decide
  have slash : ascii "/" ≠ [] := by decide
  rw [normalize]
  split
  · exact dot
  · dsimp only
    split
    · split
      · exact slash
      · split
        · exact dotSlash
        · exact dot
    case isFalse nonempty =>
      rw [List.length_eq_zero_iff] at nonempty
      split <;> split <;> simp [slash, nonempty]

/-! ## Names in directories -/

/-- A name that is neither `.` nor `..` leads to itself. -/
theorem enter_name {name : LuaString} (named : Named [name]) (location : List LuaString) :
    enter location name = location ++ [name] := by
  have entered := enter_join named.clean location
  have text : posixSeparators.join [name] = name := by simp [Separators.join]
  rwa [SegmentReading.walk_names location fun s member => (named s member).1, text] at entered

theorem join_ne_nil (directory name : LuaString) : join [directory, name] ≠ [] := by
  rw [join, if_neg (by simp)]
  cases joined [directory, name] with
  | none => exact List.cons_ne_nil _ _
  | some text => exact normalize_ne_nil text

/-- Joining a directory and a name leads to the name in the directory. -/
theorem locate_join (cwd : LuaString) {directory name : LuaString} (nonempty : directory ≠ [])
    (named : Named [name]) : locate cwd [join [directory, name]] = locate cwd [directory] ++ [name] := by
  have proper : name ≠ [] := ne_nil_of_kept (named name List.mem_cons_self).1.1
  have text : join [directory, name] = normalize (directory ++ CHAR_FORWARD_SLASH :: name) := by
    have slash : ascii "/" = [CHAR_FORWARD_SLASH] := by decide
    simp [join, joined, List.length_pos_iff, nonempty, proper, slash]
  have starts : IsAbsolute (directory ++ CHAR_FORWARD_SLASH :: name) ↔ IsAbsolute directory := by
    rw [IsAbsolute, List.head?_append_of_ne_nil directory nonempty, IsAbsolute]
  have relative_ : ¬IsAbsolute name := fun slash =>
    (named name List.mem_cons_self).2 (List.mem_of_head? slash)
  rw [text, locate, List.foldl_cons, List.foldl_nil, enter_normalize, locate, List.foldl_cons,
    List.foldl_nil, ← enter_name named]
  simp only [enter, starts, relative_, if_false]
  rw [walk_slash]

end EvoRuntime.Path
