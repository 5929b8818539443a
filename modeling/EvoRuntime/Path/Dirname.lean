import EvoRuntime.Path.Basename
import EvoRuntime.Path.JoinLaws

/-!
# `path.posix.dirname`

The scan for the last component stops at the separator in front of it, and what stands
before that separator is the directory. The first character of a path is not scanned,
so that a root is never cut off.

## Main result

`join_dirname_basename`: directory and name joined are the normalized path, without a
slash at its end.

## Proof strategy

`dirname_short` and `dirname_long` say what the directory is for the two ways in which a
path can be cut. In both of them reading the name from the directory leads to the place
of the path (`Holds`).
-/
namespace EvoRuntime.Path

open Lua Library

/-- The locals of the loop of `dirname`. -/
structure DirnameScan where
  endIndex : Int := -1
  matchedSlash : Bool := true
  deriving DecidableEq, Repr

def dirnameScan : BackwardScan UInt8 DirnameScan where
  isSeparator := isPosixPathSeparator
  fresh := DirnameScan.matchedSlash
  visit _ _ st := { st with matchedSlash := false }
  stop i st := { st with endIndex := i }

def dirname (path : LuaString) : LuaString :=
  if path.length = 0 then ascii "."
  else
    let hasRoot := stringPrototypeCharCodeAt path 0 == some CHAR_FORWARD_SLASH
    let st := dirnameScan.run (fun i => stringPrototypeCharCodeAt path i) 1 path.length {}
    if st.endIndex = -1 then if hasRoot then ascii "/" else ascii "."
    else if hasRoot ∧ st.endIndex = 1 then ascii "//"
    else stringPrototypeSlice path 0 st.endIndex

example : dirname (ascii "//a") = ascii "//" := by decide

example : dirname (ascii "a/b//c/") = ascii "a/b/" := by decide

/-! ## The scan -/

theorem visitAll_dirname (offset : Nat) (text : LuaString) (st : DirnameScan) :
    dirnameScan.visitAll offset text st =
      { st with matchedSlash := st.matchedSlash && text.isEmpty } := by
  induction text generalizing offset with
  | nil => simp [BackwardScan.visitAll]
  | cons c rest ih =>
    rw [BackwardScan.visitAll, ih]
    simp [dirnameScan]

variable {path before component separators : LuaString}

/-- The slash in front of the component is the first character, or there is none. -/
theorem dirname_short (first : UInt8) (text : path = [first] ++ component ++ separators)
    (clean : ∀ c ∈ component, isPosixPathSeparator c = false)
    (separate : ∀ c ∈ separators, isPosixPathSeparator c = true) :
    dirname path = if isAbsolute path then ascii "/" else ascii "." := by
  have run : dirnameScan.run (fun i => stringPrototypeCharCodeAt path i) 1 path.length {} =
      { matchedSlash := component.isEmpty } := by
    rw [dirnameScan.run_component (charCodeAt_eq path) text (Nat.le_refl 1) clean separate rfl]
    exact (dirnameScan.run_bottom _).trans (visitAll_dirname 1 component {})
  have positive : path.length ≠ 0 := by simp [text]
  have root : (stringPrototypeCharCodeAt path 0 == some CHAR_FORWARD_SLASH) = isAbsolute path := by
    simp [isAbsolute, text]
  rw [dirname, if_neg positive]
  simp only [run, root, if_true]

/-- A slash that is not the first character is in front of the component. -/
theorem dirname_long (text : path = (before ++ [CHAR_FORWARD_SLASH]) ++ component ++ separators)
    (nonempty : before ≠ []) (some_ : component ≠ [])
    (clean : ∀ c ∈ component, isPosixPathSeparator c = false)
    (separate : ∀ c ∈ separators, isPosixPathSeparator c = true) :
    dirname path = if before = ascii "/" then ascii "//" else before := by
  have positive := List.length_pos_iff.mpr nonempty
  have slash : path = before ++ CHAR_FORWARD_SLASH :: (component ++ separators) := by simp [text]
  have run : dirnameScan.run (fun i => stringPrototypeCharCodeAt path i) 1 path.length {} =
      { endIndex := before.length, matchedSlash := false } := by
    rw [dirnameScan.run_component (charCodeAt_eq path) text (by simp) clean separate rfl,
      visitAll_dirname, List.length_append, List.length_singleton,
      dirnameScan.run_stop (charCodeAt_eq path) slash positive rfl (by simp [some_, dirnameScan])]
    simp [dirnameScan, some_]
  have found : ((before.length : Nat) : Int) ≠ -1 := by omega
  have front : stringPrototypeSlice path 0 before.length = before := by
    have kept : (path.take before.length).drop 0 = before := by simp [slash]
    exact (slice_range path 0 before.length).trans kept
  have root : (stringPrototypeCharCodeAt path 0 == some CHAR_FORWARD_SLASH) = true ∧
      ((before.length : Nat) : Int) = 1 ↔ before = ascii "/" := by
    have one : ascii "/" = [CHAR_FORWARD_SLASH] := by decide
    obtain ⟨first, rest, rfl⟩ := List.exists_cons_of_ne_nil nonempty
    simp [slash, one]
  rw [dirname, if_neg (by simp [slash])]
  simp only [run, if_neg found, root, front]

/-! ## Directory and name -/

/-- Slashes are followed by empty segments. -/
theorem walk_separators (above : Bool) (stack : List LuaString)
    (separate : ∀ c ∈ separators, isPosixPathSeparator c = true) :
    segmentReading.walk above stack (posixSeparators.split separators) = stack := by
  have skipped : segmentReading.skipped [] = true := by decide
  have last : posixSeparators.split [] = [[]] := rfl
  induction separators with
  | nil => rw [last, SegmentReading.walk_cons, SegmentReading.push_skipped skipped, SegmentReading.walk_nil]
  | cons c rest ih =>
    obtain rfl : c = CHAR_FORWARD_SLASH := by simpa [isPosixPathSeparator] using separate c
    have first : posixSeparators.split (CHAR_FORWARD_SLASH :: rest) = [] :: posixSeparators.split rest :=
      split_slash [] rest
    rw [first, SegmentReading.walk_cons, SegmentReading.push_skipped skipped]
    exact ih fun d member => separate d (List.mem_cons_of_mem _ member)

theorem parts_separators (nonempty : before ≠ [])
    (separate : ∀ c ∈ separators, isPosixPathSeparator c = true) :
    parts (before ++ separators) = parts before := by
  cases separators with
  | nil => rw [List.append_nil]
  | cons c rest =>
    obtain rfl : c = CHAR_FORWARD_SLASH := by simpa [isPosixPathSeparator] using separate c
    rw [parts_append nonempty, walk_separators]
    exact fun d member => separate d (List.mem_cons_of_mem _ member)

/-- A name in a directory leads to the place of a path. -/
structure Holds (directory name path : LuaString) : Prop where
  nonempty : directory ≠ []
  absolute : isAbsolute directory = isAbsolute path
  walked : segmentReading.walk (!isAbsolute path) (parts directory) (posixSeparators.split name) =
    parts path

theorem Holds.join {directory name path : LuaString} (holds : Holds directory name path)
    (proper : name ≠ []) (ends : Trailing name = false) :
    join [directory, name] = spelled (isAbsolute path) false (parts path) := by
  have following_ : following [name] = CHAR_FORWARD_SLASH :: name := by simp [following, proper]
  have last : Trailing (directory ++ CHAR_FORWARD_SLASH :: name) = false := by
    rw [List.append_cons, trailing_append _ proper, ends]
  rw [join_eq_normalize (joined_cons holds.nonempty [name]), following_,
    normalize_eq_spelled (List.append_ne_nil_of_left_ne_nil holds.nonempty _), last,
    isAbsolute_append holds.nonempty, parts_append holds.nonempty, holds.absolute, holds.walked]

/-- The directory of a path with a last component holds it. -/
theorem dirname_holds (p : Cut isPosixPathSeparator 0 path) (some_ : p.component ≠ []) :
    Holds (dirname path) p.component (p.front ++ p.component) := by
  have root : p.root = [] := List.length_eq_zero_iff.mp p.root_length
  have text : path = p.front ++ p.component ++ p.separators := p.text.trans (by rw [root, List.nil_append])
  rcases p.front_ends with none_ | ⟨before, c, shape, separates⟩
  -- There is no slash in front of the component.
  · obtain ⟨first, rest, component⟩ := List.exists_cons_of_ne_nil some_
    have relative_ : first ≠ CHAR_FORWARD_SLASH := by
      simpa [isPosixPathSeparator] using p.clean first (by simp [component])
    have clean : ∀ d ∈ rest, isPosixPathSeparator d = false := fun d member =>
      p.clean d (by simp [component, member])
    have here : isAbsolute path = false := by simp [text, none_, component, isAbsolute, relative_]
    have there : isAbsolute p.component = false := by simp [component, isAbsolute, relative_]
    rw [dirname_short first (text.trans (by simp [none_, component])) clean p.separate, here,
      if_neg Bool.false_ne_true, none_, List.nil_append]
    have nothing : parts (ascii ".") = [] := by decide
    have walked : parts p.component = segmentReading.walk true [] (posixSeparators.split p.component) := by
      rw [parts, there, Bool.not_false]
    exact ⟨by decide, there.symm, by rw [nothing, walked, there, Bool.not_false]⟩
  · obtain rfl : c = CHAR_FORWARD_SLASH := by simpa [isPosixPathSeparator] using separates
    by_cases empty : before = []
    -- The only slash in front of it is the root.
    · have front : p.front = [CHAR_FORWARD_SLASH] := by simp [shape, empty]
      have here : isAbsolute path = true := by simp [text, front, isAbsolute]
      have there : isAbsolute (CHAR_FORWARD_SLASH :: p.component) = true := by simp [isAbsolute]
      have skipped : segmentReading.skipped [] = true := by decide
      have first : posixSeparators.split (CHAR_FORWARD_SLASH :: p.component) =
        [] :: posixSeparators.split p.component := split_slash [] p.component
      rw [dirname_short CHAR_FORWARD_SLASH (text.trans (by simp [front])) p.clean p.separate, here,
        if_pos rfl, front, List.singleton_append]
      have nothing : parts (ascii "/") = [] := by decide
      have walked : parts (CHAR_FORWARD_SLASH :: p.component) =
          segmentReading.walk false [] (posixSeparators.split p.component) := by
        rw [parts, there, Bool.not_true, first, SegmentReading.walk_cons, SegmentReading.push_skipped skipped]
      exact ⟨by decide, there.symm, by rw [nothing, walked, there, Bool.not_true]⟩
    · have shape' : p.front ++ p.component = before ++ CHAR_FORWARD_SLASH :: p.component := by simp [shape]
      have same : isAbsolute (dirname path) = isAbsolute before ∧ parts (dirname path) = parts before ∧
          dirname path ≠ [] := by
        rw [dirname_long (text.trans (by rw [shape])) empty some_ p.clean p.separate]
        split
        case isTrue slash =>
          subst slash
          decide
        case isFalse => exact ⟨rfl, rfl, empty⟩
      rw [shape']
      refine ⟨same.2.2, by rw [same.1, isAbsolute_append empty], ?_⟩
      rw [same.2.1, parts_append empty, isAbsolute_append empty]

/-! ## Directory and name joined -/

/-- A slash at the end is removed, but not from the root. -/
def withoutTrailingSlash (path : LuaString) : LuaString :=
  if path = ascii "/" then path else if Trailing path then path.dropLast else path

theorem withoutTrailingSlash_spelled {absolute trailing : Bool} {names : List LuaString}
    (clean : posixSeparators.Clean names) :
    withoutTrailingSlash (spelled absolute trailing names) = spelled absolute false names := by
  by_cases empty : names = []
  · subst empty
    cases absolute <;> cases trailing <;> decide
  · have text : posixSeparators.join names ≠ [] := fun nothing => empty (join_eq_nil clean nothing)
    have slash : ascii "/" = [CHAR_FORWARD_SLASH] := by decide
    have proper : spelled absolute false names ≠ [] := by simp [spelled, empty, text]
    have ends : Trailing (spelled absolute false names) = false := by
      rw [trailing_spelled clean, Bool.false_or, decide_eq_false empty, Bool.and_false]
    cases trailing with
    | false =>
      rw [withoutTrailingSlash, ends]
      split <;> rfl
    | true =>
      have longer : spelled absolute true names = spelled absolute false names ++ [CHAR_FORWARD_SLASH] := by
        simp [spelled, empty]
      have ended : Trailing (spelled absolute false names ++ [CHAR_FORWARD_SLASH]) = true :=
        trailing_append _ (List.cons_ne_nil _ _)
      rw [longer, withoutTrailingSlash, if_neg (by simpa [slash] using proper), if_pos ended,
        List.dropLast_concat]

/-- The directory and the name of a path, joined, are the normalized path. -/
theorem join_dirname_basename (path : LuaString) :
    join [dirname path, basename path] = withoutTrailingSlash (normalize path) := by
  let p := cut isPosixPathSeparator 0 path (Nat.zero_le _)
  have root : p.root = [] := List.length_eq_zero_iff.mp p.root_length
  have text : path = p.front ++ p.component ++ p.separators := p.text.trans (by rw [root, List.nil_append])
  have name : basename path = p.component := basenameFrom_none p
  rw [name]
  by_cases none_ : p.component = []
  -- The path is empty or consists of slashes.
  · have front := p.front_empty none_
    rw [front, none_, List.nil_append, List.nil_append] at text
    rw [none_]
    cases separators : p.separators with
    | nil =>
      rw [separators] at text
      rw [text]
      decide
    | cons c rest =>
      have separate := p.separate
      rw [separators] at text separate
      obtain rfl : c = CHAR_FORWARD_SLASH := by simpa [isPosixPathSeparator] using separate c
      have others : ∀ d ∈ rest, isPosixPathSeparator d = true := fun d member =>
        separate d (List.mem_cons_of_mem _ member)
      have absolute : isAbsolute path = true := by simp [text, isAbsolute]
      have nothing : parts path = [] := by
        rw [text, ← List.singleton_append, parts_separators (List.cons_ne_nil _ _) others]
        decide
      have directory : dirname path = ascii "/" := by
        have short := dirname_short CHAR_FORWARD_SLASH text (List.forall_mem_nil _) others
        rw [short, absolute, if_pos rfl]
      rw [directory, normalize_eq_spelled (by simp [text]), withoutTrailingSlash_spelled (parts_clean path),
        absolute, nothing]
      decide
  · have inside : p.front ++ p.component ≠ [] := List.append_ne_nil_of_right_ne_nil _ none_
    have ends : Trailing p.component = false := by
      have last := p.clean _ (List.getLast_mem none_)
      simpa [Trailing, List.getLast?_eq_some_getLast none_, isPosixPathSeparator] using last
    have absolute : isAbsolute path = isAbsolute (p.front ++ p.component) :=
      (congrArg isAbsolute text).trans (isAbsolute_append inside _)
    have same : parts path = parts (p.front ++ p.component) :=
      (congrArg parts text).trans (parts_separators inside p.separate)
    have nonempty : path ≠ [] := by
      intro empty
      have whole := text.symm.trans empty
      simp [none_] at whole
    rw [(dirname_holds p none_).join none_ ends, normalize_eq_spelled nonempty,
      withoutTrailingSlash_spelled (parts_clean path), absolute, same]

end EvoRuntime.Path
