import EvoRuntime.Library.WalkLevels
import EvoRuntime.Path.NormalizeString

/-!
# `path.win32.normalize` and `path.win32.isAbsolute`

A Windows path may begin with a drive or with the name of a share (a UNC root).
The root is recognized in the path as it is given, and only the rest of the path
is normalized. So `.` and `..` in front of a text such as `C:` can leave this text
at the beginning, where it is read as a drive.

## Main result

`normalize_keeps_root_iff`: normalizing preserves the kind of every path but those in
which a segment with the form of a drive is uncovered like this.
-/
namespace EvoRuntime.Path

open Lua Library

def CHAR_UPPERCASE_A : UInt8 := 65
def CHAR_LOWERCASE_A : UInt8 := 97
def CHAR_UPPERCASE_Z : UInt8 := 90
def CHAR_LOWERCASE_Z : UInt8 := 122
def CHAR_COLON : UInt8 := 58

def isWindowsDeviceRoot (code : UInt8) : Bool :=
  (code ≥ CHAR_UPPERCASE_A && code ≤ CHAR_UPPERCASE_Z) ||
    (code ≥ CHAR_LOWERCASE_A && code ≤ CHAR_LOWERCASE_Z)

namespace Win32

/-- `while j < len and matches(path[j]) do j = j + 1`, with `len - j` rounds at most. -/
def skipWhile (matches_ : UInt8 → Bool) (path : LuaString) : (remaining j : Nat) → Nat
  | 0, j => j
  | remaining + 1, j =>
    if (stringPrototypeCharCodeAt path j).any matches_ then skipWhile matches_ path remaining (j + 1)
    else j

/-- What is found behind two separators: the server name, and the part behind it. -/
structure UncRoot where
  firstPart : LuaString
  last : Nat
  j : Nat

/-- The steps that all functions take to match a UNC root. -/
def matchUncRoot (path : LuaString) : Option UncRoot :=
  let len := path.length
  let last := 2
  let j := skipWhile (fun code => !isPathSeparator code) path (len - last) last
  if j < len ∧ j ≠ last then
    let firstPart := stringPrototypeSlice path last j
    let last := j
    let j := skipWhile isPathSeparator path (len - last) last
    if j < len ∧ j ≠ last then
      let last := j
      let j := skipWhile (fun code => !isPathSeparator code) path (len - last) last
      some ⟨firstPart, last, j⟩
    else none
  else none

/-- The beginning of a path that is not normalized. -/
structure Root where
  rootEnd : Nat := 0
  device : Option LuaString := none
  isAbsolute : Bool := false
  deriving DecidableEq, Repr

/-- The name `\\server\share` of a UNC root. -/
def UncRoot.device (path : LuaString) (unc : UncRoot) : LuaString :=
  ascii "\\\\" ++ unc.firstPart ++ ascii "\\" ++ stringPrototypeSlice path unc.last unc.j

/-- A drive at the beginning of a path that does not start with a separator. -/
def matchDeviceRoot (path : LuaString) : Root :=
  if (stringPrototypeCharCodeAt path 0).any isWindowsDeviceRoot ∧
      stringPrototypeCharCodeAt path 1 = some CHAR_COLON then
    let device := stringPrototypeSlice path 0 2
    -- A separator behind the drive name makes the path absolute.
    if path.length > 2 ∧ (stringPrototypeCharCodeAt path 2).any isPathSeparator then
      ⟨3, some device, true⟩
    else ⟨2, some device, false⟩
  else {}

/-- The local `tail` of `normalize`, where the root has been matched. -/
def tailBehind (path : LuaString) (root : Root) : LuaString :=
  let tail :=
    if root.rootEnd < path.length then
      normalizeString (stringPrototypeSlice path root.rootEnd) (!root.isAbsolute) (ascii "\\")
        isPathSeparator
    else []
  let tail := if tail.length = 0 ∧ ¬root.isAbsolute then ascii "." else tail
  if tail.length > 0 ∧ (stringPrototypeCharCodeAt path (path.length - 1)).any isPathSeparator then
    tail ++ ascii "\\"
  else tail

def normalizeTail (path : LuaString) (root : Root) : LuaString :=
  let tail := tailBehind path root
  match root.device with
  | none => if root.isAbsolute then ascii "\\" ++ tail else tail
  | some device => if root.isAbsolute then device ++ ascii "\\" ++ tail else device ++ tail

def normalize (path : LuaString) : LuaString :=
  let len := path.length
  if len = 0 then ascii "."
  else
    let code := stringPrototypeCharCodeAt path 0
    if len = 1 then if code.any isPosixPathSeparator then ascii "\\" else path
    else if code.any isPathSeparator then
      if (stringPrototypeCharCodeAt path 1).any isPathSeparator then
        match matchUncRoot path with
        | some unc =>
          -- Behind the UNC root there may be nothing left.
          if unc.j = len then
            ascii "\\\\" ++ unc.firstPart ++ ascii "\\" ++ stringPrototypeSlice path unc.last ++
              ascii "\\"
          else if unc.j ≠ unc.last then normalizeTail path ⟨unc.j, some (unc.device path), true⟩
          else normalizeTail path ⟨0, none, true⟩
        | none => normalizeTail path ⟨0, none, true⟩
      else normalizeTail path ⟨1, none, true⟩
    else normalizeTail path (matchDeviceRoot path)

def isAbsolute (path : LuaString) : Bool :=
  let len := path.length
  if len = 0 then false
  else
    let code := stringPrototypeCharCodeAt path 0
    code.any isPathSeparator ||
      (len > 2 && code.any isWindowsDeviceRoot &&
        stringPrototypeCharCodeAt path 1 == some CHAR_COLON &&
        (stringPrototypeCharCodeAt path 2).any isPathSeparator)

example : normalize (ascii "C:/a/./b//../../../c/") = ascii "C:\\c\\" := by decide

example : normalize (ascii "//server/share/a/../../b") = ascii "\\\\server\\share\\b" := by decide

/-! ## Loops -/

theorem skipWhile_eq (matches_ : UInt8 → Bool) (path : LuaString) (j : Nat) :
    skipWhile matches_ path (path.length - j) j = j + ((path.drop j).takeWhile matches_).length := by
  generalize remains : path.length - j = remaining
  induction remaining generalizing j with
  | zero =>
    rw [skipWhile, List.drop_eq_nil_of_le (by omega)]
    rfl
  | succ remaining ih =>
    have inside : j < path.length := by omega
    rw [skipWhile, charCodeAt_eq, List.drop_eq_getElem_cons inside, List.getElem?_eq_getElem inside,
      Option.any_some, List.takeWhile_cons]
    split
    · rw [ih (j + 1) (by omega), List.length_cons]
      omega
    · rfl

theorem skipWhile_drop (matches_ : UInt8 → Bool) (path : LuaString) (j : Nat) :
    path.drop (skipWhile matches_ path (path.length - j) j) = (path.drop j).dropWhile matches_ := by
  rw [skipWhile_eq, ← List.drop_drop]
  calc (path.drop j).drop ((path.drop j).takeWhile matches_).length
      = ((path.drop j).takeWhile matches_ ++ (path.drop j).dropWhile matches_).drop
          ((path.drop j).takeWhile matches_).length := by rw [List.takeWhile_append_dropWhile]
    _ = (path.drop j).dropWhile matches_ := List.drop_left

/-! ## The beginning of a path -/

def startsWithSeparator (path : LuaString) : Bool := path.head?.any isPathSeparator

/-- A letter with a colon behind it. -/
def startsWithDrive : LuaString → Bool
  | letter :: colon :: _ => isWindowsDeviceRoot letter && colon == CHAR_COLON
  | _ => false

@[simp] theorem charCodeAt_zero (path : LuaString) : stringPrototypeCharCodeAt path 0 = path[0]? :=
  charCodeAt_eq path 0

@[simp] theorem charCodeAt_one (path : LuaString) : stringPrototypeCharCodeAt path 1 = path[1]? :=
  charCodeAt_eq path 1

@[simp] theorem charCodeAt_two (path : LuaString) : stringPrototypeCharCodeAt path 2 = path[2]? :=
  charCodeAt_eq path 2

theorem not_drive_of_separator {path : LuaString} (separator : startsWithSeparator path = true) :
    startsWithDrive path = false := by
  cases path with
  | nil => rfl
  | cons a rest =>
    have code : a = CHAR_FORWARD_SLASH ∨ a = CHAR_BACKWARD_SLASH := by
      simpa [startsWithSeparator, isPathSeparator] using separator
    cases rest with
    | nil => rfl
    | cons b rest =>
      have letter : isWindowsDeviceRoot a = false := by
        rcases code with rfl | rfl <;> decide
      rw [startsWithDrive, letter, Bool.false_and]

theorem exists_drive {path : LuaString} (drive : startsWithDrive path = true) :
    ∃ letter rest, isWindowsDeviceRoot letter = true ∧ path = letter :: CHAR_COLON :: rest := by
  match path with
  | [] => exact absurd drive Bool.false_ne_true
  | [a] => exact absurd drive Bool.false_ne_true
  | a :: b :: rest =>
    have both : isWindowsDeviceRoot a = true ∧ b = CHAR_COLON := by
      simpa [startsWithDrive] using drive
    exact ⟨a, rest, both.1, by rw [both.2]⟩

/-- A path is absolute if it starts with a separator, or with a drive and a separator. -/
theorem isAbsolute_eq (path : LuaString) :
    isAbsolute path =
      (startsWithSeparator path || startsWithDrive path && path[2]?.any isPathSeparator) := by
  match path with
  | [] => rfl
  | [a] => simp [isAbsolute, startsWithSeparator, startsWithDrive]
  | [a, b] => simp [isAbsolute, startsWithSeparator, startsWithDrive]
  | a :: b :: c :: rest =>
    simp [isAbsolute, startsWithSeparator, startsWithDrive, Bool.and_assoc]

/-- A drive is found at the beginning of a text only. -/
theorem startsWithDrive_append {front : LuaString} (nonempty : front ≠ []) {back : LuaString}
    (apart : back.head? ≠ some CHAR_COLON) :
    startsWithDrive (front ++ back) = startsWithDrive front := by
  match front, back with
  | [], _ => exact absurd rfl nonempty
  | [a], [] => rfl
  | [a], b :: back =>
    have other : b ≠ CHAR_COLON := by simpa using apart
    simp [startsWithDrive, other]
  | a :: b :: rest, back => rfl

/-! ## The normalized tail -/

theorem proper_nil : win32Separators.Proper [] := List.forall_mem_nil _

/-- What is left of the segments of a text. -/
def stackOf (above : Bool) (text : LuaString) : List LuaString :=
  segmentReading.walk above [] (win32Separators.split text)

theorem stackOf_proper (above : Bool) (text : LuaString) :
    win32Separators.Proper (stackOf above text) :=
  win32Separators.walk_proper above proper_nil text

/-- A text that neither starts with a separator nor is longer than its first part,
unless a separator follows that part. -/
theorem join_first {name : LuaString} {names : List LuaString}
    (proper : win32Separators.Proper (name :: names)) :
    startsWithSeparator (win32Separators.join (name :: names)) = false ∧
      ∃ back, win32Separators.join (name :: names) = name ++ back ∧
        ∀ c, back.head? = some c → c = CHAR_BACKWARD_SLASH := by
  obtain ⟨kept, unseparated⟩ := proper name List.mem_cons_self
  constructor
  · rw [startsWithSeparator, Separators.join, head_join names (ne_nil_of_kept kept)]
    cases head : name.head? with
    | none => rfl
    | some c => exact unseparated c (List.mem_of_head? head)
  · cases names with
    | nil => exact ⟨[], by simp [Separators.join], by simp⟩
    | cons next rest =>
      refine ⟨CHAR_BACKWARD_SLASH :: win32Separators.join (next :: rest), ?_, ?_⟩
      · exact join_cons name (List.cons_ne_nil _ _)
      · intro c head
        exact (Option.some.inj head).symm

/-- The end of the root is the end of the path, or what follows is normalized. -/
theorem tailBehind_eq (path : LuaString) (root : Root) :
    tailBehind path root =
      let stack := stackOf (!root.isAbsolute) (path.drop root.rootEnd)
      let tail := if stack = [] ∧ ¬root.isAbsolute then ascii "." else win32Separators.join stack
      if tail ≠ [] ∧ (stringPrototypeCharCodeAt path (path.length - 1)).any isPathSeparator then
        tail ++ [CHAR_BACKWARD_SLASH]
      else tail := by
  have normalized :
      (if root.rootEnd < path.length then
        normalizeString (stringPrototypeSlice path root.rootEnd) (!root.isAbsolute) (ascii "\\")
          isPathSeparator
      else []) =
        win32Separators.join (stackOf (!root.isAbsolute) (path.drop root.rootEnd)) := by
    split
    next =>
      rw [slice_from]
      exact normalizeString_eq_walk win32Separators _ _
    next past =>
      rw [List.drop_eq_nil_of_le (by omega)]
      rfl
  have empty (stack : List LuaString) (proper : win32Separators.Proper stack) :
      (win32Separators.join stack).length = 0 ↔ stack = [] := by
    rw [List.length_eq_zero_iff]
    exact join_eq_nil_iff fun s member => ne_nil_of_kept (proper s member).1
  have backslash : ascii "\\" = [CHAR_BACKWARD_SLASH] := by decide
  unfold tailBehind
  simp only [normalized, empty _ (stackOf_proper _ _), List.length_pos_iff, gt_iff_lt]
  rw [backslash]

theorem tailBehind_nil {path : LuaString} {root : Root}
    (empty : stackOf (!root.isAbsolute) (path.drop root.rootEnd) = []) :
    tailBehind path root ∈
      if root.isAbsolute then [[]] else [ascii ".", ascii "." ++ [CHAR_BACKWARD_SLASH]] := by
  rw [tailBehind_eq, empty]
  have nothing : win32Separators.join [] = [] := rfl
  have dot : ascii "." ≠ [] := by decide
  cases root.isAbsolute with
  | true => simp [nothing]
  | false =>
    by_cases trailing :
        (stringPrototypeCharCodeAt path (path.length - 1)).any isPathSeparator = true <;>
      simp [dot, trailing]

theorem tailBehind_cons {path : LuaString} {root : Root} {name : LuaString} {names : List LuaString}
    (stack : stackOf (!root.isAbsolute) (path.drop root.rootEnd) = name :: names) :
    ∃ back, tailBehind path root = name ++ back ∧
      ∀ c, back.head? = some c → c = CHAR_BACKWARD_SLASH := by
  have proper := stackOf_proper (!root.isAbsolute) (path.drop root.rootEnd)
  rw [stack] at proper
  obtain ⟨-, back, text, separator⟩ := join_first proper
  have some_names : ¬(name :: names = [] ∧ ¬root.isAbsolute) := fun both =>
    List.cons_ne_nil _ _ both.1
  rw [tailBehind_eq, stack]
  simp only [if_neg some_names, text]
  split
  · refine ⟨back ++ [CHAR_BACKWARD_SLASH], List.append_assoc _ _ _, fun c head => ?_⟩
    cases back with
    | nil => exact (Option.some.inj head).symm
    | cons b back => exact separator c head
  · exact ⟨back, rfl, separator⟩

theorem tailBehind_starts (path : LuaString) (root : Root) :
    startsWithSeparator (tailBehind path root) = false := by
  cases stack : stackOf (!root.isAbsolute) (path.drop root.rootEnd) with
  | nil =>
    have texts := tailBehind_nil stack
    revert texts
    generalize tailBehind path root = tail
    cases root.isAbsolute <;> simp [startsWithSeparator] <;> rintro (rfl | rfl) <;> decide
  | cons name names =>
    obtain ⟨back, text, -⟩ := tailBehind_cons stack
    have proper := stackOf_proper (!root.isAbsolute) (path.drop root.rootEnd)
    rw [stack] at proper
    obtain ⟨kept, unseparated⟩ := proper name List.mem_cons_self
    rw [text, startsWithSeparator, List.head?_append_of_ne_nil _ (ne_nil_of_kept kept)]
    cases head : name.head? with
    | none => rfl
    | some c => exact unseparated c (List.mem_of_head? head)

/-! ## Roots that are kept -/

theorem normalizeTail_separator {path : LuaString} {root : Root} (absolute : root.isAbsolute = true)
    (device : ∀ d, root.device = some d → startsWithSeparator d = true) :
    startsWithSeparator (normalizeTail path root) = true := by
  have backslash : startsWithSeparator (ascii "\\" ++ tailBehind path root) = true := rfl
  unfold normalizeTail
  rw [absolute]
  cases shape : root.device with
  | none => exact backslash
  | some d =>
    have starts := device d shape
    cases d with
    | nil => exact absurd starts Bool.false_ne_true
    | cons c rest => exact starts

/-- The root is matched in a path of two bytes or more. -/
theorem normalize_long (a b : UInt8) (rest : LuaString) :
    normalize (a :: b :: rest) =
      if isPathSeparator a then
        if isPathSeparator b then
          match matchUncRoot (a :: b :: rest) with
          | some unc =>
            if unc.j = (a :: b :: rest).length then
              ascii "\\\\" ++ unc.firstPart ++ ascii "\\" ++
                stringPrototypeSlice (a :: b :: rest) unc.last ++ ascii "\\"
            else if unc.j ≠ unc.last then
              normalizeTail (a :: b :: rest) ⟨unc.j, some (unc.device (a :: b :: rest)), true⟩
            else normalizeTail (a :: b :: rest) ⟨0, none, true⟩
          | none => normalizeTail (a :: b :: rest) ⟨0, none, true⟩
        else normalizeTail (a :: b :: rest) ⟨1, none, true⟩
      else normalizeTail (a :: b :: rest) (matchDeviceRoot (a :: b :: rest)) := by
  have nonempty : (a :: b :: rest).length ≠ 0 := by simp
  have long : (a :: b :: rest).length ≠ 1 := by simp
  unfold normalize
  simp only [nonempty, long, if_false, charCodeAt_zero, charCodeAt_one, List.getElem?_cons_zero,
    List.getElem?_cons_succ, Option.any_some]

theorem normalize_separator {path : LuaString} (separator : startsWithSeparator path = true) :
    startsWithSeparator (normalize path) = true := by
  have rooted (path : LuaString) (rootEnd : Nat) :
      startsWithSeparator (normalizeTail path ⟨rootEnd, none, true⟩) = true :=
    normalizeTail_separator rfl fun d some_ => absurd some_.symm (Option.some_ne_none d)
  match path with
  | [] => exact absurd separator Bool.false_ne_true
  | [a] =>
    have code : a = CHAR_FORWARD_SLASH ∨ a = CHAR_BACKWARD_SLASH := by
      simpa [startsWithSeparator, isPathSeparator] using separator
    rcases code with rfl | rfl <;> decide
  | a :: b :: rest =>
    have first : isPathSeparator a = true := separator
    rw [normalize_long, if_pos first]
    -- Every branch ends with a text that begins with a backslash.
    split
    · split
      next unc _ =>
        split
        · rfl
        · split
          · apply normalizeTail_separator rfl
            intro d device
            rw [← Option.some.inj device]
            rfl
          · exact rooted _ 0
      next => exact rooted _ 0
    · exact rooted _ 1

theorem not_separator_of_drive {path : LuaString} (drive : startsWithDrive path = true) :
    startsWithSeparator path = false := by
  apply eq_false_of_ne_true
  intro separator
  rw [not_drive_of_separator separator] at drive
  exact Bool.false_ne_true drive

theorem isAbsolute_drive {letter : UInt8} (drive : isWindowsDeviceRoot letter = true)
    (rest : LuaString) :
    isAbsolute (letter :: CHAR_COLON :: rest) = startsWithSeparator rest := by
  have starts : startsWithDrive (letter :: CHAR_COLON :: rest) = true := by
    simp [startsWithDrive, drive]
  have third : (letter :: CHAR_COLON :: rest)[2]? = rest.head? := by
    rw [List.getElem?_cons_succ, List.getElem?_cons_succ, List.head?_eq_getElem?]
  rw [isAbsolute_eq, not_separator_of_drive starts, starts, Bool.false_or, Bool.true_and, third]
  rfl

theorem matchDeviceRoot_drive {letter : UInt8} (drive : isWindowsDeviceRoot letter = true)
    (rest : LuaString) :
    matchDeviceRoot (letter :: CHAR_COLON :: rest) =
      if startsWithSeparator rest then ⟨3, some [letter, CHAR_COLON], true⟩
      else ⟨2, some [letter, CHAR_COLON], false⟩ := by
  have device : stringPrototypeSlice (letter :: CHAR_COLON :: rest) 0 2 = [letter, CHAR_COLON] :=
    slice_range _ 0 2
  have separates : ((letter :: CHAR_COLON :: rest).length > 2 ∧
      (stringPrototypeCharCodeAt (letter :: CHAR_COLON :: rest) 2).any isPathSeparator = true) ↔
      startsWithSeparator rest = true := by
    rw [charCodeAt_two, List.getElem?_cons_succ, List.getElem?_cons_succ]
    cases rest with
    | nil => simp [startsWithSeparator]
    | cons c rest => simp [startsWithSeparator]
  unfold matchDeviceRoot
  simp only [charCodeAt_zero, charCodeAt_one, List.getElem?_cons_zero, List.getElem?_cons_succ,
    Option.any_some, drive, and_self, if_true, separates, device]

/-- A drive stays in front, with a separator behind it or without one. -/
theorem normalize_drive {letter : UInt8} (drive : isWindowsDeviceRoot letter = true)
    (rest : LuaString) :
    ∃ tail, normalize (letter :: CHAR_COLON :: rest) = letter :: CHAR_COLON :: tail ∧
      startsWithSeparator tail = startsWithSeparator rest := by
  have starts : startsWithDrive (letter :: CHAR_COLON :: rest) = true := by
    simp [startsWithDrive, drive]
  have other : isPathSeparator letter = false := not_separator_of_drive starts
  rw [normalize_long, if_neg (by simp [other]), matchDeviceRoot_drive drive]
  split
  next separator =>
    exact ⟨CHAR_BACKWARD_SLASH :: tailBehind (letter :: CHAR_COLON :: rest)
      ⟨3, some [letter, CHAR_COLON], true⟩, rfl, separator.symm⟩
  next text =>
    refine ⟨tailBehind (letter :: CHAR_COLON :: rest) ⟨2, some [letter, CHAR_COLON], false⟩, rfl, ?_⟩
    rw [tailBehind_starts, eq_comm]
    exact eq_false_of_ne_true text

/-! ## Relative paths -/

/-- A segment with the form of a drive is left at the beginning: those before it
cancel out, and none after it takes it back. -/
def UncoversDrive (path : LuaString) : Prop :=
  ∃ s, startsWithDrive s = true ∧ segmentReading.Grounded (win32Separators.split path) s

theorem startsWithDrive_tailBehind (path : LuaString) :
    startsWithDrive (tailBehind path {}) = true ↔ UncoversDrive path := by
  have ground (s : LuaString) (drive : startsWithDrive s = true) :
      (stackOf true path).head? = some s ↔
        segmentReading.Grounded (win32Separators.split path) s := by
    apply SegmentReading.head_walk_iff
    rintro rfl
    exact absurd drive (by decide)
  have bottom : UncoversDrive path ↔
      ∃ s, startsWithDrive s = true ∧ (stackOf true path).head? = some s := by
    constructor
    · rintro ⟨s, drive, grounded⟩
      exact ⟨s, drive, (ground s drive).mpr grounded⟩
    · rintro ⟨s, drive, head⟩
      exact ⟨s, drive, (ground s drive).mp head⟩
  rw [bottom]
  cases stack : stackOf true path with
  | nil =>
    have texts : tailBehind path {} ∈ [ascii ".", ascii "." ++ [CHAR_BACKWARD_SLASH]] :=
      tailBehind_nil stack
    have none_ : startsWithDrive (tailBehind path {}) = false := by
      revert texts
      generalize tailBehind path {} = tail
      simp only [List.mem_cons, List.not_mem_nil, or_false]
      rintro (rfl | rfl) <;> decide
    simp [none_]
  | cons name names =>
    obtain ⟨back, text, separator⟩ : ∃ back, tailBehind path {} = name ++ back ∧
        ∀ c, back.head? = some c → c = CHAR_BACKWARD_SLASH := tailBehind_cons stack
    have proper := stackOf_proper true path
    rw [stack] at proper
    have nonempty := ne_nil_of_kept (proper name List.mem_cons_self).1
    have apart : back.head? ≠ some CHAR_COLON := by
      intro colon
      exact absurd (separator _ colon) (by decide)
    rw [text, startsWithDrive_append nonempty apart]
    simp

theorem matchDeviceRoot_other {path : LuaString} (other : startsWithDrive path = false) :
    matchDeviceRoot path = {} := by
  unfold matchDeviceRoot
  match path with
  | [] => rfl
  | [a] => simp
  | a :: b :: rest =>
    have differs : ¬(isWindowsDeviceRoot a = true ∧ b = CHAR_COLON) := by
      simpa [startsWithDrive] using other
    simp [differs]

/-- Of a relative path without a drive only the segments are left. -/
theorem normalize_relative {path : LuaString} (long : 2 ≤ path.length)
    (separator : startsWithSeparator path = false) (drive : startsWithDrive path = false) :
    normalize path = tailBehind path {} := by
  match path with
  | [] => exact absurd long (by simp)
  | [a] => exact absurd long (by simp)
  | a :: b :: rest =>
    have other : isPathSeparator a = false := separator
    rw [normalize_long, if_neg (by simp [other]), matchDeviceRoot_other drive]
    rfl

/-- A path of at most one byte has no room for a drive. -/
theorem normalize_short {path : LuaString} (short : path.length < 2)
    (separator : startsWithSeparator path = false) :
    isAbsolute (normalize path) = isAbsolute path ∧
      startsWithDrive (normalize path) = startsWithDrive path ∧ ¬UncoversDrive path := by
  match path with
  | [] =>
    refine ⟨by decide, by decide, ?_⟩
    rw [← startsWithDrive_tailBehind]
    decide
  | [a] =>
    have other : isPathSeparator a = false := separator
    have kept : normalize [a] = [a] := by
      have posix : isPosixPathSeparator a = false := by
        simp only [isPathSeparator, Bool.or_eq_false_iff] at other
        exact other.1
      simp [normalize, posix]
    rw [kept]
    refine ⟨rfl, rfl, ?_⟩
    rintro ⟨s, drive, before, after, split, -⟩
    have alone : win32Separators.split [a] = [[a]] :=
      List.splitOnP_eq_singleton (List.forall_mem_singleton.mpr other)
    have member : s ∈ win32Separators.split [a] := by
      rw [split]
      exact List.mem_append_right _ List.mem_cons_self
    rw [alone, List.mem_singleton] at member
    rw [member] at drive
    exact Bool.false_ne_true drive
  | a :: b :: rest => exact absurd short (by simp)

/-- Normalizing keeps a path absolute or relative, and with a drive or without one,
unless it uncovers a drive in a relative path. -/
theorem normalize_keeps_root_iff (path : LuaString) :
    (isAbsolute (normalize path) = isAbsolute path ∧
      (startsWithDrive (normalize path) = true ↔ startsWithDrive path = true)) ↔
      (startsWithSeparator path = true ∨ startsWithDrive path = true ∨ ¬UncoversDrive path) := by
  by_cases separator : startsWithSeparator path = true
  · have kept := normalize_separator separator
    rw [isAbsolute_eq, isAbsolute_eq, kept, separator, not_drive_of_separator kept,
      not_drive_of_separator separator]
    simp
  · by_cases drive : startsWithDrive path = true
    · obtain ⟨letter, rest, device, rfl⟩ := exists_drive drive
      obtain ⟨tail, text, starts⟩ := normalize_drive device rest
      have again : startsWithDrive (letter :: CHAR_COLON :: tail) = true := by
        simp [startsWithDrive, device]
      rw [text, isAbsolute_drive device, isAbsolute_drive device, starts, drive, again]
      simp
    · have noSeparator := eq_false_of_ne_true separator
      have noDrive := eq_false_of_ne_true drive
      rw [noSeparator, noDrive]
      by_cases long : 2 ≤ path.length
      -- The path is relative, so its text begins with its first part.
      · rw [normalize_relative long noSeparator noDrive, isAbsolute_eq, isAbsolute_eq path,
          tailBehind_starts, noSeparator, noDrive, ← startsWithDrive_tailBehind]
        cases startsWithDrive (tailBehind path {}) <;> simp
      · obtain ⟨absolute, begins, covered⟩ := normalize_short (by omega) noSeparator
        rw [absolute, begins, noDrive]
        simp [covered]

/-- Behind `.` the name `C:` of a directory becomes a drive. -/
theorem normalize_uncovers_drive :
    ¬(isAbsolute (normalize (ascii "./C:/x")) = isAbsolute (ascii "./C:/x") ∧
      (startsWithDrive (normalize (ascii "./C:/x")) = true ↔
        startsWithDrive (ascii "./C:/x") = true)) := by
  decide

end Win32

end EvoRuntime.Path
