import EvoRuntime.Library.SegmentWalk
import EvoRuntime.Library.Joining
import EvoRuntime.Lua.V8

/-!
# Resolving `.` and `..`

`normalizeString` walks over a path byte by byte and keeps the normalized part
in a string. The theorem `normalizeString_eq_walk` shows that this string is the
joined stack of a walk over the segments of the path.

## Proof strategy

The invariant `Scanned` relates the loop state before index `i` to the stack of
the completed segments and to the segment being read. A byte that is no
separator extends the segment; a separator pushes it onto the stack.
-/
namespace EvoRuntime.Path

open Lua Library

def CHAR_DOT : UInt8 := 46
def CHAR_FORWARD_SLASH : UInt8 := 47
def CHAR_BACKWARD_SLASH : UInt8 := 92

def stringCharAt (str : LuaString) (index : Int) : LuaString := sub str index (index + 1)

def stringCharCodeAt (str : LuaString) (index : Int) : Option UInt8 :=
  byte (stringCharAt str index)

def stringPrototypeCharCodeAt (str : LuaString) (index : Int) : Option UInt8 :=
  stringCharCodeAt str (index + 1)

def stringPrototypeSlice (str : LuaString) (i : Int) (j : Int := -1) : LuaString :=
  sub str (i + 1) j

def isPathSeparator (code : UInt8) : Bool :=
  code == CHAR_FORWARD_SLASH || code == CHAR_BACKWARD_SLASH

def isPosixPathSeparator (code : UInt8) : Bool := code == CHAR_FORWARD_SLASH

@[simp] theorem charCodeAt_eq (str : LuaString) (i : Nat) :
    stringPrototypeCharCodeAt str i = str[i]? := by
  have range : sub str (i + 1) (i + 1 + 1) = (str.take (i + 1 + 1)).drop i := by
    exact_mod_cast sub_range str i (i + 1 + 1)
  rw [stringPrototypeCharCodeAt, stringCharCodeAt, stringCharAt, range, byte, List.head?_drop,
    List.getElem?_take, if_pos (by omega)]

theorem slice_from (str : LuaString) (i : Nat) : stringPrototypeSlice str i = str.drop i :=
  sub_from str i

theorem slice_range (str : LuaString) (i j : Nat) :
    stringPrototypeSlice str i j = (str.take j).drop i :=
  sub_range str i j

/-- The locals of the loop in `normalizeString`. -/
structure NormalizeState where
  res : LuaString := []
  lastSegmentLength : Int := 0
  lastSlash : Int := -1
  dots : Int := 0
  code : UInt8 := 0
  deriving DecidableEq, Repr

/-- A `..` in the path: remove the last segment, or record that there is none. -/
def ascend (allowAboveRoot : Bool) (separator : LuaString) (st : NormalizeState) :
    NormalizeState :=
  if st.res.length < 2 ∨ st.lastSegmentLength ≠ 2 ∨
      stringPrototypeCharCodeAt st.res (st.res.length - 1) ≠ some CHAR_DOT ∨
      stringPrototypeCharCodeAt st.res (st.res.length - 2) ≠ some CHAR_DOT then
    if st.res.length > 2 then
      -- Only the top segment goes, together with the separator before it.
      let lastSlashIndex := stringPrototypeLastIndexOf st.res separator
      if lastSlashIndex = -1 then { st with res := [], lastSegmentLength := 0 }
      else
        let res := stringPrototypeSlice st.res 0 lastSlashIndex
        { st with
          res := res
          lastSegmentLength := res.length - 1 - stringPrototypeLastIndexOf res separator }
    -- At most two bytes are a single segment, so nothing is searched for.
    else if st.res.length ≠ 0 then { st with res := [], lastSegmentLength := 0 }
    else above
  else above
where
  above : NormalizeState :=
    if allowAboveRoot then
      { st with
        res := st.res ++ if st.res.length > 0 then separator ++ ascii ".." else ascii ".."
        lastSegmentLength := 2 }
    else st

/-- Any other nonempty segment of the path is appended. -/
def descend (path separator : LuaString) (i : Int) (st : NormalizeState) : NormalizeState :=
  let segment := stringPrototypeSlice path (st.lastSlash + 1) i
  { st with
    res := if st.res.length > 0 then st.res ++ separator ++ segment else segment
    lastSegmentLength := i - st.lastSlash - 1 }

/-- One iteration of the loop. The `break` can only happen in the last iteration
and leaves the state as it is. -/
def normalizeStep (path : LuaString) (allowAboveRoot : Bool) (separator : LuaString)
    (isPathSeparatorCharacter : UInt8 → Bool) (st : NormalizeState) (i : Nat) : NormalizeState :=
  -- Past the end the path is read as if a slash followed.
  let next := if i < path.length then stringPrototypeCharCodeAt path i
    else if isPathSeparatorCharacter st.code then none
    else some CHAR_FORWARD_SLASH
  match next with
  | none => st
  | some code =>
    let st := { st with code := code }
    if isPathSeparatorCharacter code then
      let st :=
        -- An empty segment and `.` leave the string as it is.
        if st.lastSlash = (i : Int) - 1 ∨ st.dots = 1 then st
        else if st.dots = 2 then ascend allowAboveRoot separator st
        else descend path separator i st
      { st with lastSlash := i, dots := 0 }
    else if code = CHAR_DOT ∧ st.dots ≠ -1 then { st with dots := st.dots + 1 }
    else { st with dots := -1 }

def normalizeString (path : LuaString) (allowAboveRoot : Bool) (separator : LuaString)
    (isPathSeparatorCharacter : UInt8 → Bool) : LuaString :=
  ((List.range (path.length + 1)).foldl
    (normalizeStep path allowAboveRoot separator isPathSeparatorCharacter) {}).res

example : normalizeString (ascii "a/./b//../../../c") true (ascii "/") isPosixPathSeparator =
    ascii "../c" := by decide

/-! ## The specification -/

/-- The separators of one path convention. -/
structure Separators where
  separator : UInt8
  isPathSeparatorCharacter : UInt8 → Bool
  separator_recognized : isPathSeparatorCharacter separator = true
  slash_recognized : isPathSeparatorCharacter CHAR_FORWARD_SLASH = true
  dot_not_recognized : isPathSeparatorCharacter CHAR_DOT = false

def posixSeparators : Separators :=
  ⟨CHAR_FORWARD_SLASH, isPosixPathSeparator, by decide, by decide, by decide⟩

def win32Separators : Separators :=
  ⟨CHAR_BACKWARD_SLASH, isPathSeparator, by decide, by decide, by decide⟩

/-- Empty and `.` segments are skipped, `..` goes up. -/
def segmentReading : SegmentReading LuaString where
  skipped segment := segment = [] ∨ segment = ascii "."
  up := ascii ".."
  up_not_skipped := by decide

def Separators.join (f : Separators) (stack : List LuaString) : LuaString :=
  [f.separator].intercalate stack

def Separators.split (f : Separators) (path : LuaString) : List LuaString :=
  path.splitOnP f.isPathSeparatorCharacter

/-- Segments that a path of this convention can have on its stack. -/
def Separators.Clean (f : Separators) (stack : List LuaString) : Prop :=
  ∀ s ∈ stack, segmentReading.skipped s = false ∧ f.separator ∉ s

/-- The length of the top segment, or zero for the empty stack. -/
def topLength (stack : List LuaString) : Int := ((stack.getLast?.map List.length).getD 0 : Nat)

/-- The counter `dots` after reading `current` from the start of a segment. -/
def dotsIn (current : LuaString) : Int :=
  if current.all (· == CHAR_DOT) then current.length else -1

theorem all_dots_iff (current : LuaString) :
    current.all (· == CHAR_DOT) = true ↔ ∀ c ∈ current, c = CHAR_DOT := by
  simp only [List.all_eq_true, beq_iff_eq]

theorem dotsIn_eq_iff (current : LuaString) (n : Nat) :
    dotsIn current = n ↔ current = List.replicate n CHAR_DOT := by
  rw [List.eq_replicate_iff, dotsIn, ← all_dots_iff]
  split
  next all => exact ⟨fun equal => ⟨by omega, all⟩, fun both => by omega⟩
  next some => exact ⟨fun equal => by omega, fun both => absurd both.2 some⟩

theorem dotsIn_append (current : LuaString) (c : UInt8) :
    dotsIn (current ++ [c]) =
      if c = CHAR_DOT ∧ dotsIn current ≠ -1 then dotsIn current + 1 else -1 := by
  have extended : (current ++ [c]).all (· == CHAR_DOT) = true ↔
      current.all (· == CHAR_DOT) = true ∧ c = CHAR_DOT := by
    simp only [all_dots_iff, List.mem_append, List.mem_singleton, or_imp, forall_and, forall_eq]
  unfold dotsIn
  -- Once a byte is no dot, the counter stays at -1.
  by_cases all : current.all (· == CHAR_DOT) = true
  · rw [if_pos all]
    by_cases dot : c = CHAR_DOT
    · rw [if_pos (extended.mpr ⟨all, dot⟩), if_pos ⟨dot, by omega⟩]
      simp
    · rw [if_neg fun every => dot (extended.mp every).2, if_neg fun both => dot both.1]
  · rw [if_neg all, if_neg fun every => all (extended.mp every).1, if_neg fun both => both.2 rfl]

theorem skipped_iff (segment : LuaString) :
    segmentReading.skipped segment = true ↔ segment = [] ∨ dotsIn segment = 1 := by
  have single : dotsIn segment = 1 ↔ segment = ascii "." := dotsIn_eq_iff segment 1
  rw [single]
  simp [segmentReading]

theorem up_iff (segment : LuaString) : segment = segmentReading.up ↔ dotsIn segment = 2 :=
  (dotsIn_eq_iff segment 2).symm

@[simp] theorem topLength_nil : topLength [] = 0 := rfl

@[simp] theorem topLength_concat (stack : List LuaString) (top : LuaString) :
    topLength (stack ++ [top]) = top.length := by
  simp [topLength]

section Clean

variable {f : Separators} {stack : List LuaString} {segment : LuaString}

theorem ne_nil_of_kept (kept : segmentReading.skipped segment = false) : segment ≠ [] := by
  rintro rfl
  exact absurd kept (by decide)

theorem Separators.Clean.below (clean : f.Clean (stack ++ [segment])) : f.Clean stack :=
  fun s member => clean s (List.mem_append_left _ member)

theorem Separators.Clean.top (clean : f.Clean (stack ++ [segment])) :
    segmentReading.skipped segment = false ∧ f.separator ∉ segment :=
  clean segment (by simp)

theorem Separators.Clean.push (clean : f.Clean stack) (above : Bool)
    (unseparated : ∀ c ∈ segment, f.isPathSeparatorCharacter c = false) :
    f.Clean (segmentReading.push above stack segment) := by
  by_cases skipped : segmentReading.skipped segment = true
  · rwa [SegmentReading.push_skipped skipped]
  · refine SegmentReading.push_forall clean ⟨by simpa using skipped, fun member => ?_⟩
    simpa [f.separator_recognized] using unseparated _ member

theorem Separators.Clean.join_pos (clean : f.Clean (stack ++ [segment])) :
    0 < (f.join (stack ++ [segment])).length := by
  refine List.length_pos_iff.mpr fun empty => ?_
  have nothing := (join_eq_nil_iff fun s member => ne_nil_of_kept (clean s member).1).mp empty
  simp at nothing

end Clean

/-- The last separator of a joined stack stands before its top segment. -/
theorem lastSeparator_join (f : Separators) (stack : List LuaString) (top : LuaString)
    (clean : f.Clean (stack ++ [top])) :
    stringPrototypeLastIndexOf (f.join (stack ++ [top])) [f.separator] =
      ((f.join (stack ++ [top])).length : Int) - 1 - top.length := by
  cases stack with
  | nil =>
    -- A single segment has no separator in front of it.
    simp only [Separators.join, List.nil_append, List.intercalate_singleton,
      lastIndexOf_absent _ _ clean.top.2]
    omega
  | cons s rest =>
    rw [Separators.join, join_concat (by simp), lastIndexOf_append _ _ _ clean.top.2]
    simp
    omega

/-- The test before going up recognizes a top segment that is `..` itself. -/
theorem topUp_iff (f : Separators) (stack : List LuaString) (top : LuaString)
    (st : NormalizeState) (res : st.res = f.join (stack ++ [top]))
    (length : st.lastSegmentLength = top.length) :
    ¬(st.res.length < 2 ∨ st.lastSegmentLength ≠ 2 ∨
      stringPrototypeCharCodeAt st.res (st.res.length - 1) ≠ some CHAR_DOT ∨
      stringPrototypeCharCodeAt st.res (st.res.length - 2) ≠ some CHAR_DOT) ↔
      top = segmentReading.up := by
  -- The code looks at the last two bytes, which belong to the top segment
  -- if that segment has two bytes.
  obtain ⟨front, shape⟩ : ∃ front, st.res = front ++ top := by
    cases stack with
    | nil => exact ⟨[], by simp [res, Separators.join]⟩
    | cons s rest =>
      refine ⟨f.join (s :: rest) ++ [f.separator], ?_⟩
      rw [res, Separators.join, join_concat (by simp)]
      simp [Separators.join]
  rw [length, shape]
  constructor
  · intro passed
    simp only [not_or, not_not, Nat.not_lt] at passed
    obtain ⟨long, two, last, before⟩ := passed
    have two : top.length = 2 := by exact_mod_cast two
    obtain ⟨a, b, rfl⟩ := List.length_eq_two.mp two
    have lastIndex : ((front ++ [a, b]).length : Int) - 1 = (front.length + 1 : Nat) := by
      simp; omega
    have beforeIndex : ((front ++ [a, b]).length : Int) - 2 = (front.length : Nat) := by simp
    rw [lastIndex, charCodeAt_eq] at last
    rw [beforeIndex, charCodeAt_eq] at before
    simp at last before
    rw [last, before]
    rfl
  · rintro rfl
    have lastIndex : ((front ++ segmentReading.up).length : Int) - 1 = (front.length + 1 : Nat) := by
      simp [segmentReading, ascii]; omega
    have beforeIndex : ((front ++ segmentReading.up).length : Int) - 2 = (front.length : Nat) := by
      simp [segmentReading, ascii]
    rw [lastIndex, beforeIndex, charCodeAt_eq, charCodeAt_eq]
    simp [segmentReading, ascii, CHAR_DOT]

/-! ## One segment -/

/-- The string and the length field represent a stack of segments. -/
def Represents (f : Separators) (st : NormalizeState) (stack : List LuaString) : Prop :=
  st.res = f.join stack ∧ st.lastSegmentLength = topLength stack

theorem ascend_removes (f : Separators) (stack : List LuaString) (top : LuaString)
    (allowAboveRoot : Bool) (st : NormalizeState) (clean : f.Clean (stack ++ [top]))
    (represents : Represents f st (stack ++ [top])) (name : top ≠ segmentReading.up) :
    Represents f (ascend allowAboveRoot [f.separator] st) stack := by
  obtain ⟨res, length⟩ := represents
  rw [topLength_concat] at length
  -- The segment is a name, so the test fails and the segment is removed.
  have removable := not_not.mp (mt (topUp_iff f stack top st res length).mp name)
  have last : stringPrototypeLastIndexOf st.res [f.separator] =
      (st.res.length : Int) - 1 - top.length := by
    rw [res]; exact lastSeparator_join f stack top clean
  have positive := List.length_pos_iff.mpr (ne_nil_of_kept clean.top.1)
  unfold ascend
  rw [if_pos removable]
  -- Either the whole string goes, or its part from the last separator on.
  rcases List.eq_nil_or_concat' stack with rfl | ⟨below, second, rfl⟩
  · have whole : st.res = top := by simp [res, Separators.join]
    split
    · rw [last, whole, if_pos (by omega)]
      exact ⟨rfl, rfl⟩
    · rw [if_pos (by rw [whole]; omega)]
      exact ⟨rfl, rfl⟩
  · have shape : st.res = f.join (below ++ [second]) ++ f.separator :: top := by
      rw [res, Separators.join, join_concat (by simp)]; rfl
    have size : st.res.length = (f.join (below ++ [second])).length + (top.length + 1) := by
      simp [shape]
    have long := clean.below.join_pos
    have index : (st.res.length : Int) - 1 - top.length =
        ((f.join (below ++ [second])).length : Nat) := by omega
    have cut : stringPrototypeSlice st.res 0 ((f.join (below ++ [second])).length : Nat) =
        f.join (below ++ [second]) := by
      have range : stringPrototypeSlice st.res 0 ((f.join (below ++ [second])).length : Nat) =
          (st.res.take _).drop 0 := slice_range st.res 0 _
      rw [range, List.drop_zero, shape, List.take_left]
    rw [if_pos (by omega), last, index, if_neg (by omega)]
    refine ⟨cut, ?_⟩
    show (_ : Int) - 1 - stringPrototypeLastIndexOf _ _ = _
    rw [cut, lastSeparator_join f below second clean.below, topLength_concat]
    omega

theorem ascend_records (f : Separators) (stack : List LuaString) (allowAboveRoot : Bool)
    (st : NormalizeState) (represents : Represents f st stack) (clean : f.Clean stack)
    (stuck : stack = [] ∨ stack.getLast? = some segmentReading.up) :
    Represents f (ascend allowAboveRoot [f.separator] st)
      (if allowAboveRoot then stack ++ [segmentReading.up] else stack) := by
  obtain ⟨res, length⟩ := represents
  -- Nothing can be removed: the string is empty or ends with `..`.
  have recorded : ascend allowAboveRoot [f.separator] st =
      ascend.above allowAboveRoot [f.separator] st := by
    unfold ascend
    rcases stuck with rfl | top
    · have empty : st.res = [] := by simp [res, Separators.join]
      simp [empty]
    · obtain ⟨below, rfl⟩ := List.getLast?_eq_some_iff.mp top
      rw [topLength_concat] at length
      rw [if_neg ((topUp_iff f below _ st res length).mpr rfl)]
  rw [recorded, ascend.above]
  cases allowAboveRoot with
  | false => exact ⟨res, length⟩
  | true =>
    refine ⟨?_, by simp [segmentReading, ascii]⟩
    rcases List.eq_nil_or_concat' stack with rfl | ⟨below, top, rfl⟩
    · simp [res, Separators.join, segmentReading]
    · rw [if_pos rfl, if_pos rfl, Separators.join, join_concat (by simp)]
      show st.res ++ (if st.res.length > 0 then _ else _) = _
      rw [res, if_pos clean.join_pos]
      rfl

theorem ascend_represents (f : Separators) (stack : List LuaString) (allowAboveRoot : Bool)
    (st : NormalizeState) (represents : Represents f st stack) (clean : f.Clean stack) :
    Represents f (ascend allowAboveRoot [f.separator] st)
      (segmentReading.push allowAboveRoot stack segmentReading.up) := by
  rcases List.eq_nil_or_concat' stack with rfl | ⟨below, top, rfl⟩
  · rw [SegmentReading.push_up_nil]
    exact ascend_records f [] allowAboveRoot st represents clean (Or.inl rfl)
  · by_cases up : top = segmentReading.up
    · subst up
      rw [SegmentReading.push_up_up]
      exact ascend_records f _ allowAboveRoot st represents clean (Or.inr (by simp))
    · rw [SegmentReading.push_up_name ⟨clean.top.1, up⟩]
      exact ascend_removes f below top allowAboveRoot st clean represents up

theorem descend_represents (f : Separators) (stack : List LuaString) (path segment : LuaString)
    (i : Nat) (st : NormalizeState) (represents : Represents f st stack) (clean : f.Clean stack)
    (started : st.lastSlash = (i : Int) - segment.length - 1)
    (slice : stringPrototypeSlice path (st.lastSlash + 1) i = segment) :
    Represents f (descend path [f.separator] i st) (stack ++ [segment]) := by
  obtain ⟨res, -⟩ := represents
  refine ⟨?_, ?_⟩
  · simp only [descend, slice]
    rcases List.eq_nil_or_concat' stack with rfl | ⟨below, top, rfl⟩
    · simp [res, Separators.join]
    · rw [res, if_pos clean.join_pos, Separators.join, Separators.join,
        join_concat (show below ++ [top] ≠ [] by simp), List.append_assoc]
      rfl
  · show (i : Int) - st.lastSlash - 1 = _
    rw [topLength_concat, started]
    omega

/-! ## The loop invariant -/

/-- The state before index `i`: the segments completed so far are on the stack
and `current` has been read since the last separator. -/
structure Scanned (f : Separators) (path : LuaString) (i : Nat) (stack : List LuaString)
    (current : LuaString) (st : NormalizeState) : Prop where
  represents : Represents f st stack
  clean : f.Clean stack
  lastSlash : st.lastSlash = (i : Int) - current.length - 1
  dots : st.dots = dotsIn current
  segment : (path.take i).drop (i - current.length) = current
  short : current.length ≤ i
  unseparated : ∀ c ∈ current, f.isPathSeparatorCharacter c = false
  code : f.isPathSeparatorCharacter st.code = true → current = []

theorem scanned_init (f : Separators) (path : LuaString) : Scanned f path 0 [] [] {} where
  represents := ⟨by simp [Separators.join], rfl⟩
  clean := by simp [Separators.Clean]
  lastSlash := by simp
  dots := by simp [dotsIn]
  segment := by simp
  short := Nat.le_refl 0
  unseparated := by simp
  code := fun _ => rfl

variable {f : Separators} {path : LuaString} {i : Nat} {stack : List LuaString}
  {current : LuaString} {st : NormalizeState} {allowAboveRoot : Bool}

/-- What a separator does to the string: it pushes the segment that it ends. -/
theorem segment_represents (scanned : Scanned f path i stack current st) (code : UInt8) :
    let st' : NormalizeState := { st with code := code }
    Represents f
      (if st'.lastSlash = (i : Int) - 1 ∨ st'.dots = 1 then st'
        else if st'.dots = 2 then ascend allowAboveRoot [f.separator] st'
        else descend path [f.separator] i st')
      (segmentReading.push allowAboveRoot stack current) := by
  intro st'
  have same : Represents f st' stack := scanned.represents
  have started : st'.lastSlash = (i : Int) - current.length - 1 := scanned.lastSlash
  have dots : st'.dots = dotsIn current := scanned.dots
  -- The index of the last separator tells that the segment is empty, and the
  -- counter that it is `.`.
  have noop : (st'.lastSlash = (i : Int) - 1 ∨ st'.dots = 1) ↔
      segmentReading.skipped current = true := by
    rw [skipped_iff, started, dots, ← List.length_eq_zero_iff]
    omega
  by_cases skipped : segmentReading.skipped current = true
  · rw [if_pos (noop.mpr skipped), SegmentReading.push_skipped skipped]
    exact same
  · rw [if_neg (mt noop.mp skipped), dots]
    by_cases up : current = segmentReading.up
    · rw [if_pos ((up_iff current).mp up), up]
      exact ascend_represents f stack allowAboveRoot st' same scanned.clean
    · rw [if_neg (mt (up_iff current).mpr up),
        SegmentReading.push_name ⟨by simpa using skipped, up⟩]
      refine descend_represents f stack path current i st' same scanned.clean started ?_
      have start : st'.lastSlash + 1 = ((i - current.length : Nat) : Int) := by
        have short := scanned.short
        omega
      rw [start, slice_range, scanned.segment]

/-- A separator at index `i` completes the current segment. -/
theorem scanned_separator (scanned : Scanned f path i stack current st)
    (code : UInt8) (read : path[i]? = some code)
    (separates : f.isPathSeparatorCharacter code = true) :
    Scanned f path (i + 1) (segmentReading.push allowAboveRoot stack current) []
      (normalizeStep path allowAboveRoot [f.separator] f.isPathSeparatorCharacter st i) := by
  have inside : i < path.length := (List.getElem?_eq_some_iff.mp read).1
  unfold normalizeStep
  rw [if_pos inside, charCodeAt_eq, read]
  simp only [separates, if_true]
  exact {
    represents := segment_represents scanned code
    clean := scanned.clean.push allowAboveRoot scanned.unseparated
    lastSlash := by simp
    dots := by simp [dotsIn]
    segment := by simp
    short := by simp
    unseparated := by simp
    code := fun _ => rfl }

/-- Any other byte at index `i` extends the current segment. -/
theorem scanned_byte (scanned : Scanned f path i stack current st)
    (code : UInt8) (read : path[i]? = some code)
    (extends_ : f.isPathSeparatorCharacter code = false) :
    Scanned f path (i + 1) stack (current ++ [code])
      (normalizeStep path allowAboveRoot [f.separator] f.isPathSeparatorCharacter st i) := by
  have inside : i < path.length := (List.getElem?_eq_some_iff.mp read).1
  have dots := dotsIn_append current code
  rw [← scanned.dots] at dots
  -- The byte only changes `code` and the counter.
  have reached : normalizeStep path allowAboveRoot [f.separator] f.isPathSeparatorCharacter st i =
      { st with code := code, dots := dotsIn (current ++ [code]) } := by
    unfold normalizeStep
    rw [if_pos inside, charCodeAt_eq, read, dots]
    simp only [extends_, Bool.false_eq_true, if_false]
    split <;> rfl
  rw [reached]
  have short := scanned.short
  exact {
    represents := scanned.represents
    clean := scanned.clean
    lastSlash := by
      have last := scanned.lastSlash
      simp only [List.length_append, List.length_singleton]
      omega
    dots := rfl
    segment := by
      have start : i + 1 - (current ++ [code]).length = i - current.length := by simp
      rw [start, List.take_add_one, read, List.drop_append_of_le_length (by simp; omega),
        scanned.segment]
      rfl
    short := by simpa using short
    unseparated :=
      List.forall_mem_append.mpr ⟨scanned.unseparated, List.forall_mem_singleton.mpr extends_⟩
    code := fun separates => absurd separates (by simp [extends_]) }

/-- The iteration past the last byte completes the last segment. -/
theorem scanned_end (scanned : Scanned f path path.length stack current st) :
    (normalizeStep path allowAboveRoot [f.separator] f.isPathSeparatorCharacter st
      path.length).res = f.join (segmentReading.push allowAboveRoot stack current) := by
  unfold normalizeStep
  rw [if_neg (Nat.lt_irrefl _)]
  -- After a trailing separator the loop breaks, and the last segment is empty.
  by_cases separated : f.isPathSeparatorCharacter st.code = true
  · rw [if_pos separated, scanned.code separated, SegmentReading.push_skipped (by decide)]
    exact scanned.represents.1
  · rw [if_neg separated]
    simp only [f.slash_recognized, if_true]
    exact (segment_represents scanned CHAR_FORWARD_SLASH).1

theorem scanned_rest (before rest : LuaString) (split : path = before ++ rest)
    (scanned : Scanned f path before.length stack current st) :
    ((List.range' before.length (rest.length + 1)).foldl
      (normalizeStep path allowAboveRoot [f.separator] f.isPathSeparatorCharacter) st).res =
      f.join (segmentReading.walk allowAboveRoot stack
        ((f.split rest).modifyHead (current ++ ·))) := by
  induction rest generalizing before stack current st with
  | nil =>
    have whole : before.length = path.length := by simp [split]
    rw [whole] at scanned ⊢
    simpa [Separators.split] using scanned_end scanned
  | cons code rest ih =>
    -- The induction is on the bytes that are left; the index is that of the first.
    have read : path[before.length]? = some code := by simp [split]
    have longer : path = (before ++ [code]) ++ rest := by simp [split]
    have index : (before ++ [code]).length = before.length + 1 := by simp
    rw [List.length_cons, List.range'_succ, List.foldl_cons, ← index]
    by_cases separates : f.isPathSeparatorCharacter code = true
    · rw [ih _ longer (by rw [index]; exact scanned_separator scanned code read separates)]
      have unchanged : (f.split rest).modifyHead (fun s => [] ++ s) = f.split rest := by
        cases f.split rest <;> rfl
      rw [unchanged]
      simp [Separators.split, List.splitOnP_cons_eq_if_modifyHead, separates]
    · have extends_ : f.isPathSeparatorCharacter code = false := by simpa using separates
      rw [ih _ longer (by rw [index]; exact scanned_byte scanned code read extends_)]
      rw [Separators.split, Separators.split, List.splitOnP_cons_eq_if_modifyHead, if_neg separates]
      cases List.splitOnP f.isPathSeparatorCharacter rest <;> simp

/-- `normalizeString` joins the stack of a walk over the segments of the path. -/
theorem normalizeString_eq_walk (f : Separators) (path : LuaString) (allowAboveRoot : Bool) :
    normalizeString path allowAboveRoot [f.separator] f.isPathSeparatorCharacter =
      f.join (segmentReading.walk allowAboveRoot [] (f.split path)) := by
  have unchanged : (f.split path).modifyHead (fun s => [] ++ s) = f.split path := by
    cases f.split path <;> rfl
  rw [normalizeString, List.range_eq_range']
  conv_rhs => rw [← unchanged]
  exact scanned_rest [] path rfl (scanned_init f path)

/-! ## What is left of a path -/

/-- Segments without any separator, of which none is skipped. -/
def Separators.Proper (f : Separators) (stack : List LuaString) : Prop :=
  ∀ s ∈ stack, segmentReading.skipped s = false ∧ ∀ c ∈ s, f.isPathSeparatorCharacter c = false

/-- A segment consists of bytes of the path that do not separate. -/
theorem Separators.mem_split (f : Separators) (path : LuaString) :
    ∀ s ∈ f.split path, ∀ c ∈ s, c ∈ path ∧ f.isPathSeparatorCharacter c = false := by
  induction path with
  | nil => simp [Separators.split]
  | cons d rest ih =>
    rw [Separators.split, List.splitOnP_cons_eq_if_modifyHead]
    change ∀ s ∈ List.splitOnP _ rest, _ at ih
    have later : ∀ s ∈ List.splitOnP f.isPathSeparatorCharacter rest, ∀ c ∈ s,
        c ∈ d :: rest ∧ f.isPathSeparatorCharacter c = false := fun s member c inside =>
      ⟨List.mem_cons_of_mem d (ih s member c inside).1, (ih s member c inside).2⟩
    split
    next => simpa using later
    next other =>
      -- The byte extends the first segment of the rest.
      cases parts : List.splitOnP f.isPathSeparatorCharacter rest with
      | nil => simp
      | cons first others =>
        rw [parts] at later
        have kept : f.isPathSeparatorCharacter d = false := by simpa using other
        intro s member c inside
        rcases List.mem_cons.mp member with rfl | old
        · rcases List.mem_cons.mp inside with rfl | old
          · exact ⟨List.mem_cons_self, kept⟩
          · exact later first List.mem_cons_self c old
        · exact later s (List.mem_cons_of_mem first old) c inside

theorem Separators.split_unseparated (f : Separators) (path : LuaString) :
    ∀ s ∈ f.split path, ∀ c ∈ s, f.isPathSeparatorCharacter c = false :=
  fun s member c inside => (f.mem_split path s member c inside).2

theorem Separators.split_append (f : Separators) (front back : LuaString) {c : UInt8}
    (separates : f.isPathSeparatorCharacter c = true) :
    f.split (front ++ c :: back) = f.split front ++ f.split back :=
  List.splitOnP_append_cons front back separates

theorem Separators.split_join (f : Separators) {stack : List LuaString} (proper : f.Proper stack)
    (nonempty : stack ≠ []) : f.split (f.join stack) = stack := by
  induction stack with
  | nil => exact absurd rfl nonempty
  | cons s rest ih =>
    have alone : f.split s = [s] := List.splitOnP_eq_singleton (proper s List.mem_cons_self).2
    by_cases last : rest = []
    · rw [last, Separators.join, List.intercalate_singleton, alone]
    · have whole := f.split_append s (f.join rest) f.separator_recognized
      rw [ih (fun t member => proper t (List.mem_cons_of_mem _ member)) last, alone] at whole
      rw [Separators.join, join_cons s last]
      exact whole

theorem Separators.Proper.clean {f : Separators} {stack : List LuaString} (proper : f.Proper stack) :
    f.Clean stack := by
  intro s member
  obtain ⟨kept, unseparated⟩ := proper s member
  refine ⟨kept, fun inside => ?_⟩
  exact absurd f.separator_recognized (by simp [unseparated _ inside])

/-- A joined text does not end with a separator. -/
theorem getLast_join_ne {f : Separators} {names : List LuaString} (clean : f.Clean names) :
    (f.join names).getLast? ≠ some f.separator := by
  intro last
  rcases List.eq_nil_or_concat' names with rfl | ⟨below, top, rfl⟩
  · exact Option.some_ne_none _ last.symm
  · have ends : ∃ front, f.join (below ++ [top]) = front ++ top := by
      by_cases first : below = []
      · exact ⟨[], by simp [first, Separators.join]⟩
      · exact ⟨f.join below ++ [f.separator], by simp [Separators.join, join_concat first]⟩
    obtain ⟨front, text⟩ := ends
    rw [text, List.getLast?_append_of_ne_nil _ (ne_nil_of_kept clean.top.1)] at last
    exact clean.top.2 (List.mem_of_getLast? last)

theorem Separators.walk_proper (f : Separators) (above : Bool) {stack : List LuaString}
    (proper : f.Proper stack) (path : LuaString) :
    f.Proper (segmentReading.walk above stack (f.split path)) := by
  have kept : ∀ s ∈ segmentReading.walk above stack (f.split path), segmentReading.skipped s = false :=
    SegmentReading.walk_keeps_kept fun s member => (proper s member).1
  have unseparated : ∀ s ∈ segmentReading.walk above stack (f.split path),
      ∀ c ∈ s, f.isPathSeparatorCharacter c = false :=
    SegmentReading.walk_forall (fun s member => (proper s member).2) (f.split_unseparated path)
  exact fun s member => ⟨kept s member, unseparated s member⟩

/-- What the stack is when the segments are processed from left to right. -/
def referenceStack (allowAboveRoot : Bool) (segments : List LuaString) : List LuaString :=
  segments.foldl (fun stack segment =>
    if segment = [] ∨ segment = ascii "." then stack
    else if segment = ascii ".." then
      if stack ≠ [] ∧ stack.getLast? ≠ some (ascii "..") then stack.dropLast
      else if allowAboveRoot then stack ++ [segment] else stack
    else stack ++ [segment]) []

theorem referenceStack_eq_walk (allowAboveRoot : Bool) (segments : List LuaString) :
    referenceStack allowAboveRoot segments = segmentReading.walk allowAboveRoot [] segments := by
  unfold referenceStack SegmentReading.walk
  congr 1
  funext stack segment
  unfold SegmentReading.push
  have up : segmentReading.up = ascii ".." := rfl
  have skipped : segmentReading.skipped segment = true ↔ segment = [] ∨ segment = ascii "." := by
    simp [segmentReading]
  rw [up]
  by_cases dropped : segment = [] ∨ segment = ascii "."
  · rw [if_pos dropped, if_pos (skipped.mpr dropped)]
  · rw [if_neg dropped, if_neg (mt skipped.mp dropped)]
    by_cases rises : segment = ascii ".."
    · rw [if_pos rises, if_pos rises]
      rcases List.eq_nil_or_concat' stack with rfl | ⟨below, top, rfl⟩
      · simp
      · by_cases recorded : top = ascii ".." <;> simp [recorded]
    · rw [if_neg rises, if_neg rises]

/-- In both conventions `normalizeString` joins the reference stack of the segments. -/
theorem normalizeString_reference (path : LuaString) (allowAboveRoot : Bool) :
    normalizeString path allowAboveRoot (ascii "/") isPosixPathSeparator =
      (ascii "/").intercalate (referenceStack allowAboveRoot (path.splitOnP isPosixPathSeparator)) ∧
    normalizeString path allowAboveRoot (ascii "\\") isPathSeparator =
      (ascii "\\").intercalate (referenceStack allowAboveRoot (path.splitOnP isPathSeparator)) := by
  rw [referenceStack_eq_walk, referenceStack_eq_walk]
  exact ⟨normalizeString_eq_walk posixSeparators path allowAboveRoot,
    normalizeString_eq_walk win32Separators path allowAboveRoot⟩

end EvoRuntime.Path
