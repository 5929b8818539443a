import EvoRuntime.Path.Comparing
import EvoRuntime.Path.Win32Resolve

/-!
# `path.win32.relative`

The two resolved paths are compared in lower case, and the result is cut from the
path as it was spelled.
-/
namespace EvoRuntime.Path.Win32

open Lua Library

/-- `while fromEnd - 1 > fromStart and path[fromEnd - 1] == "\\"`, counting down. -/
def trimEnd (path : LuaString) (start : Nat) : (stop : Nat) → Nat
  | 0 => 0
  | stop + 1 =>
    if stop > start ∧ stringPrototypeCharCodeAt path stop = some CHAR_BACKWARD_SLASH then
      trimEnd path start stop
    else stop + 1

/-- The part of a path between leading and trailing backslashes. -/
structure Trimmed where
  start : Nat
  stop : Nat

def Trimmed.length (part : Trimmed) : Nat := part.stop - part.start

def trim (path : LuaString) : Trimmed :=
  let start := skipWhile (· == CHAR_BACKWARD_SLASH) path path.length 0
  ⟨start, trimEnd path start path.length⟩

/-- One `..` for each segment that is left of `from`, then the rest of `toOrig`. -/
def relativeRest (from_ toOrig : LuaString) (fromPart toPart : Trimmed) (lastCommonSep : Int) :
    LuaString :=
  let out := climbOut CHAR_BACKWARD_SLASH from_ (fromPart.start + lastCommonSep + 1).toNat fromPart.stop
  let toStart : Int := toPart.start + lastCommonSep
  if out.length > 0 then out ++ stringPrototypeSlice toOrig toStart toPart.stop
  else
    let toStart :=
      if stringPrototypeCharCodeAt toOrig toStart = some CHAR_BACKWARD_SLASH then toStart + 1
      else toStart
    stringPrototypeSlice toOrig toStart toPart.stop

/-- What follows the resolution of the paths, with both of them in lower case. -/
def relativeResolved (from_ to_ toOrig : LuaString) : LuaString :=
  let fromPart := trim from_
  let toPart := trim to_
  let length := if fromPart.length < toPart.length then fromPart.length else toPart.length
  let (i, lastCommonSep) :=
    comparePaths CHAR_BACKWARD_SLASH from_ to_ fromPart.start toPart.start (length + 1) 0 0 (-1)
  if i ≠ length then
    -- They differ before the first common separator.
    if lastCommonSep = -1 then toOrig else relativeRest from_ toOrig fromPart toPart lastCommonSep
  else
    let toCode := stringPrototypeCharCodeAt to_ (toPart.start + i : Nat)
    -- `from` is the base path of `to`.
    if toPart.length > length ∧ toCode = some CHAR_BACKWARD_SLASH then
      stringPrototypeSlice toOrig (toPart.start + i + 1 : Nat)
    -- `from` is the device root.
    else if toPart.length > length ∧ i = 2 then stringPrototypeSlice toOrig (toPart.start + i : Nat)
    else
      let lastCommonSep : Int :=
        if fromPart.length > length then
          -- `to` is the base path of `from`.
          if stringPrototypeCharCodeAt from_ (fromPart.start + i : Nat) = some CHAR_BACKWARD_SLASH then i
          -- `to` is the device root.
          else if i = 2 then 3
          else lastCommonSep
        else lastCommonSep
      relativeRest from_ toOrig fromPart toPart (if lastCommonSep = -1 then 0 else lastCommonSep)

def relative (host : Host) (from_ to_ : LuaString) : Except LuaError LuaString := do
  if from_ = to_ then return []
  let fromOrig ← resolve host from_
  let toOrig ← resolve host to_
  if fromOrig = toOrig then return []
  let from_ := lower fromOrig
  let to_ := lower toOrig
  if from_ = to_ then return []
  return relativeResolved from_ to_ toOrig

/-! ## Trimming -/

theorem trimEnd_last {path : LuaString} (start : Nat)
    (last : path.getLast? ≠ some CHAR_BACKWARD_SLASH) : trimEnd path start path.length = path.length := by
  cases size : path.length with
  | zero => rfl
  | succ n =>
    have code : stringPrototypeCharCodeAt path n = path.getLast? := by
      rw [charCodeAt_eq, List.getLast?_eq_getElem?, size]
      rfl
    rw [trimEnd, code, if_neg fun both => last both.2]

/-- Behind the shared names come the others. -/
theorem located_leading (device : LuaString) (shared : List LuaString) {more : List LuaString}
    (nonempty : more ≠ []) :
    located device (shared ++ more) =
      leadingText win32Separators (device :: shared) ++ win32Separators.join more := by
  rw [← join_leadingText _ nonempty, List.cons_append]
  exact (join_cons device (List.append_ne_nil_of_right_ne_nil shared nonempty)).symm

section Device

variable {letter : UInt8}

theorem located_clean {names : List LuaString} (named : letter ≠ CHAR_BACKWARD_SLASH)
    (clean : win32Separators.Clean names) :
    win32Separators.Clean ([letter, CHAR_COLON] :: names) := by
  intro s member
  rcases List.mem_cons.mp member with rfl | inside
  · refine ⟨by simp [segmentReading, ascii], ?_⟩
    have colon : CHAR_BACKWARD_SLASH ≠ CHAR_COLON := by decide
    have separator : win32Separators.separator = CHAR_BACKWARD_SLASH := rfl
    simp [separator, named.symm, colon]
  · exact clean s inside

/-- The drive is the first name in the text of a location. -/
theorem located_eq_join {names : List LuaString} (nonempty : names ≠ []) :
    located [letter, CHAR_COLON] names = win32Separators.join ([letter, CHAR_COLON] :: names) :=
  (join_cons _ nonempty).symm

theorem leadingText_located {names : List LuaString} (below : names ≠ []) :
    leadingText win32Separators ([letter, CHAR_COLON] :: names) =
      located [letter, CHAR_COLON] names ++ [CHAR_BACKWARD_SLASH] := by
  rw [leadingText_eq (List.cons_ne_nil _ _), located_eq_join below]
  rfl

/-- The text of a location, where another one lies below it. -/
theorem located_below {names more : List LuaString} (below : names ≠ []) (nonempty : more ≠ []) :
    located [letter, CHAR_COLON] (names ++ more) =
      located [letter, CHAR_COLON] names ++ CHAR_BACKWARD_SLASH :: win32Separators.join more := by
  rw [located_leading _ names nonempty, leadingText_located below, List.append_assoc]
  rfl

theorem trim_located {names : List LuaString} (named : letter ≠ CHAR_BACKWARD_SLASH)
    (clean : win32Separators.Clean names) :
    trim (located [letter, CHAR_COLON] names) =
      ⟨0, if names = [] then 2 else (located [letter, CHAR_COLON] names).length⟩ := by
  have start : skipWhile (· == CHAR_BACKWARD_SLASH) (located [letter, CHAR_COLON] names)
      (located [letter, CHAR_COLON] names).length 0 = 0 := by
    have counted := skipWhile_eq (· == CHAR_BACKWARD_SLASH) (located [letter, CHAR_COLON] names) 0
    rw [Nat.sub_zero] at counted
    rw [counted]
    simp [located, named]
  rw [trim, start]
  split
  -- The backslash of a drive root is trimmed, as if it were at the end of a UNC root.
  next root =>
    subst root
    have colon : CHAR_COLON ≠ CHAR_BACKWARD_SLASH := by decide
    have first : stringPrototypeCharCodeAt [letter, CHAR_COLON, CHAR_BACKWARD_SLASH] (1 : Nat) =
        some CHAR_COLON := charCodeAt_eq _ 1
    have second : stringPrototypeCharCodeAt [letter, CHAR_COLON, CHAR_BACKWARD_SLASH] (2 : Nat) =
        some CHAR_BACKWARD_SLASH := charCodeAt_eq _ 2
    have text : located [letter, CHAR_COLON] [] = [letter, CHAR_COLON, CHAR_BACKWARD_SLASH] := rfl
    rw [text]
    simp only [List.length_cons, List.length_nil, trimEnd, first, second]
    simp [colon]
  next below =>
    have last := getLast_join_ne (located_clean named clean)
    rw [← located_eq_join below] at last
    rw [trimEnd_last 0 last]

/-! ## The rest behind the comparison -/

theorem relativeRest_eq (from_ toOrig text : LuaString) (k stop : Nat)
    (rest : from_.drop (k + 1) = text) (inside : k + 1 ≤ from_.length) :
    relativeRest from_ toOrig ⟨0, from_.length⟩ ⟨0, stop⟩ k =
      win32Separators.join (List.replicate (text.count CHAR_BACKWARD_SLASH + 1) segmentReading.up) ++
        (toOrig.take stop).drop k := by
  have start : ((k : Int) + 1).toNat = k + 1 := by omega
  have zero (n : Int) : ((0 : Nat) : Int) + n = n := by omega
  have out := climbOut_eq win32Separators from_ text (k + 1) rest inside
  have separator : win32Separators.separator = CHAR_BACKWARD_SLASH := rfl
  rw [separator] at out
  have positive : (win32Separators.join
      (List.replicate (text.count CHAR_BACKWARD_SLASH + 1) segmentReading.up)).length > 0 := by
    apply List.length_pos_iff.mpr
    rw [Ne, Separators.join, join_eq_nil_iff]
    · simp
    · intro s member
      rw [List.eq_of_mem_replicate member]
      decide
  unfold relativeRest
  simp only [zero, start, out, if_pos positive, slice_range]

/-- The comparison with a drive root covers the root. -/
theorem comparePaths_root (left right : LuaString) :
    comparePaths CHAR_BACKWARD_SLASH (letter :: CHAR_COLON :: CHAR_BACKWARD_SLASH :: left)
      (letter :: CHAR_COLON :: CHAR_BACKWARD_SLASH :: right) 0 0 (2 + 1) 0 0 (-1) = (2, 2) := by
  have last : lastSeparatorIn CHAR_BACKWARD_SLASH 0 [letter, CHAR_COLON, CHAR_BACKWARD_SLASH] (-1) =
      2 := by
    simp [lastSeparatorIn]
  rw [← last]
  exact comparePaths_whole [letter, CHAR_COLON, CHAR_BACKWARD_SLASH] (List.cons_ne_nil _ _) rfl rfl

theorem relativeResolved_eq {from_ to_ toOrig : LuaString} {fromStop toStop i : Nat}
    {lastCommonSep : Int} (fromTrim : trim from_ = ⟨0, fromStop⟩) (toTrim : trim to_ = ⟨0, toStop⟩)
    (compared : comparePaths CHAR_BACKWARD_SLASH from_ to_ 0 0 (min fromStop toStop + 1) 0 0 (-1) =
      (i, lastCommonSep)) :
    relativeResolved from_ to_ toOrig =
      if i ≠ min fromStop toStop then
        if lastCommonSep = -1 then toOrig
        else relativeRest from_ toOrig ⟨0, fromStop⟩ ⟨0, toStop⟩ lastCommonSep
      else if min fromStop toStop < toStop ∧ to_[i]? = some CHAR_BACKWARD_SLASH then
        toOrig.drop (i + 1)
      else if min fromStop toStop < toStop ∧ i = 2 then toOrig.drop i
      else
        let lastCommonSep : Int :=
          if min fromStop toStop < fromStop then
            if from_[i]? = some CHAR_BACKWARD_SLASH then i else if i = 2 then 3 else lastCommonSep
          else lastCommonSep
        relativeRest from_ toOrig ⟨0, fromStop⟩ ⟨0, toStop⟩
          (if lastCommonSep = -1 then 0 else lastCommonSep) := by
  have length : (if fromStop < toStop then fromStop else toStop) = min fromStop toStop := by
    split <;> omega
  have fromLength : (⟨0, fromStop⟩ : Trimmed).length = fromStop := rfl
  have toLength : (⟨0, toStop⟩ : Trimmed).length = toStop := rfl
  unfold relativeResolved
  simp only [fromTrim, toTrim, fromLength, toLength, length, compared, charCodeAt_eq, slice_from,
    Nat.zero_add, gt_iff_lt]

/-! ## The two locations -/

/-- The destination is inside of the start. -/
theorem relativeResolved_below (named : letter ≠ CHAR_BACKWARD_SLASH) {start more : List LuaString}
    (clean : win32Separators.Clean (start ++ more)) (nonempty : more ≠ []) (toOrig : LuaString) :
    relativeResolved (located [letter, CHAR_COLON] start)
        (located [letter, CHAR_COLON] (start ++ more)) toOrig =
      toOrig.drop (leadingText win32Separators ([letter, CHAR_COLON] :: start)).length := by
  have startClean : win32Separators.Clean start := fun s member =>
    clean s (List.mem_append_left _ member)
  have fromTrim := trim_located named startClean
  have toTrim := trim_located named clean
  rw [if_neg (List.append_ne_nil_of_right_ne_nil start nonempty)] at toTrim
  have text : located [letter, CHAR_COLON] (start ++ more) = _ := located_leading _ start nonempty
  by_cases root : start = []
  · subst root
    have lead : leadingText win32Separators [[letter, CHAR_COLON]] =
        [letter, CHAR_COLON, CHAR_BACKWARD_SLASH] := rfl
    have short : min 2 (located [letter, CHAR_COLON] ([] ++ more)).length = 2 := by
      rw [text, lead]
      simp
    have long : 2 < (located [letter, CHAR_COLON] ([] ++ more)).length := by
      rw [text, lead]
      simp
    rw [if_pos rfl] at fromTrim
    have compared : comparePaths CHAR_BACKWARD_SLASH (located [letter, CHAR_COLON] [])
        (located [letter, CHAR_COLON] ([] ++ more)) 0 0
        (min 2 (located [letter, CHAR_COLON] ([] ++ more)).length + 1) 0 0 (-1) = (2, 2) := by
      rw [short]
      exact comparePaths_root [] _
    have code : (located [letter, CHAR_COLON] ([] ++ more))[2]? = some CHAR_BACKWARD_SLASH := by
      rw [text, lead]
      rfl
    rw [relativeResolved_eq fromTrim toTrim compared, short, if_neg (not_not.mpr rfl),
      if_pos ⟨long, code⟩, lead]
    rfl
  -- The text of `from` ends where that of `to` goes on with a separator.
  · rw [if_neg root] at fromTrim
    have lead : leadingText win32Separators ([letter, CHAR_COLON] :: start) = _ :=
      leadingText_located root
    have behind : located [letter, CHAR_COLON] (start ++ more) = _ := located_below root nonempty
    generalize located [letter, CHAR_COLON] start = whole at fromTrim lead behind ⊢
    generalize located [letter, CHAR_COLON] (start ++ more) = longer at toTrim behind ⊢
    have long : whole.length < longer.length := by
      rw [behind]
      simp
    have compared : comparePaths CHAR_BACKWARD_SLASH whole longer 0 0
        (min whole.length longer.length + 1) 0 0 (-1) =
        (whole.length, lastSeparatorIn CHAR_BACKWARD_SLASH 0 whole (-1)) :=
      comparePaths_stretch whole _ (List.append_nil whole).symm behind (by simp) (by omega)
    have code : longer[whole.length]? = some CHAR_BACKWARD_SLASH := by
      rw [behind]
      simp
    have least : min whole.length longer.length = whole.length := by omega
    rw [relativeResolved_eq fromTrim toTrim compared, least, if_neg (not_not.mpr rfl),
      if_pos ⟨long, code⟩, lead, List.length_append]
    rfl

/-- The start is inside of the destination. -/
theorem relativeResolved_above (named : letter ≠ CHAR_BACKWARD_SLASH) {goal names : List LuaString}
    {name : LuaString} (clean : win32Separators.Clean (goal ++ name :: names)) (toOrig : LuaString) :
    relativeResolved (located [letter, CHAR_COLON] (goal ++ name :: names))
        (located [letter, CHAR_COLON] goal) toOrig =
      win32Separators.join (List.replicate (names.length + 1) segmentReading.up) := by
  have goalClean : win32Separators.Clean goal := fun s member =>
    clean s (List.mem_append_left _ member)
  have nonempty : goal ++ name :: names ≠ [] :=
    List.append_ne_nil_of_right_ne_nil goal (List.cons_ne_nil _ _)
  have fromTrim := trim_located named clean
  have toTrim := trim_located named goalClean
  rw [if_neg nonempty] at fromTrim
  have text : located [letter, CHAR_COLON] (goal ++ name :: names) = _ :=
    located_leading _ goal (List.cons_ne_nil _ _)
  have count : (win32Separators.join (name :: names)).count CHAR_BACKWARD_SLASH = names.length :=
    count_join name names fun s member => (clean.right s member).2
  by_cases root : goal = []
  · subst root
    have lead : leadingText win32Separators [[letter, CHAR_COLON]] =
        [letter, CHAR_COLON, CHAR_BACKWARD_SLASH] := rfl
    rw [lead] at text
    rw [if_pos rfl] at toTrim
    generalize located [letter, CHAR_COLON] ([] ++ name :: names) = longer at fromTrim text ⊢
    have long : 2 < longer.length := by
      rw [text]
      simp
    have short : min longer.length 2 = 2 := by omega
    have compared : comparePaths CHAR_BACKWARD_SLASH longer (located [letter, CHAR_COLON] []) 0 0
        (min longer.length 2 + 1) 0 0 (-1) = (2, 2) := by
      rw [short, text]
      exact comparePaths_root _ []
    have code : longer[2]? = some CHAR_BACKWARD_SLASH := by
      rw [text]
      rfl
    have rest : longer.drop (2 + 1) = win32Separators.join (name :: names) := by
      rw [text]
      rfl
    have up := relativeRest_eq longer toOrig _ 2 2 rest long
    rw [count, List.drop_take_self, List.append_nil] at up
    rw [relativeResolved_eq fromTrim toTrim compared, short, if_neg (not_not.mpr rfl),
      if_neg fun both => Nat.lt_irrefl 2 both.1, if_neg fun both => Nat.lt_irrefl 2 both.1]
    simp only [if_pos long, if_pos code]
    exact up
  · rw [if_neg root] at toTrim
    have behind : located [letter, CHAR_COLON] (goal ++ name :: names) = _ :=
      located_below root (List.cons_ne_nil _ _)
    generalize located [letter, CHAR_COLON] goal = whole at toTrim behind ⊢
    generalize located [letter, CHAR_COLON] (goal ++ name :: names) = longer at fromTrim behind ⊢
    have long : whole.length < longer.length := by
      rw [behind]
      simp
    have compared : comparePaths CHAR_BACKWARD_SLASH longer whole 0 0
        (min longer.length whole.length + 1) 0 0 (-1) =
        (whole.length, lastSeparatorIn CHAR_BACKWARD_SLASH 0 whole (-1)) :=
      comparePaths_stretch whole _ behind (List.append_nil whole).symm (by simp) (by omega)
    have code : longer[whole.length]? = some CHAR_BACKWARD_SLASH := by
      rw [behind]
      simp
    have least : min longer.length whole.length = whole.length := by omega
    have rest : longer.drop (whole.length + 1) = win32Separators.join (name :: names) := by
      rw [behind, ← List.drop_drop, List.drop_left]
      rfl
    have up := relativeRest_eq longer toOrig _ whole.length whole.length rest long
    rw [count, List.drop_take_self, List.append_nil] at up
    have found : ((whole.length : Nat) : Int) ≠ -1 := by omega
    rw [relativeResolved_eq fromTrim toTrim compared, least, if_neg (not_not.mpr rfl),
      if_neg fun both => Nat.lt_irrefl _ both.1, if_neg fun both => Nat.lt_irrefl _ both.1]
    simp only [if_pos long, if_pos code, if_neg found]
    exact up

/-- Neither location is inside of the other one. -/
theorem relativeResolved_apart (named : letter ≠ CHAR_BACKWARD_SLASH)
    {shared xs ys : List LuaString} {x y : LuaString}
    (fromClean : win32Separators.Clean (shared ++ x :: xs))
    (toClean : win32Separators.Clean (shared ++ y :: ys)) (differ : x ≠ y) {toOrig : LuaString}
    (size : toOrig.length = (located [letter, CHAR_COLON] (shared ++ y :: ys)).length) :
    relativeResolved (located [letter, CHAR_COLON] (shared ++ x :: xs))
        (located [letter, CHAR_COLON] (shared ++ y :: ys)) toOrig =
      win32Separators.join (List.replicate (xs.length + 1) segmentReading.up) ++
        toOrig.drop ((leadingText win32Separators ([letter, CHAR_COLON] :: shared)).length - 1) := by
  obtain ⟨q, a, b, fromText, toText, heads, clean, fromEnd, toEnd⟩ :=
    parting_join fromClean.right toClean.right differ
  have separator : win32Separators.separator = CHAR_BACKWARD_SLASH := rfl
  rw [separator] at clean fromEnd toEnd
  have fromBelow : shared ++ x :: xs ≠ [] :=
    List.append_ne_nil_of_right_ne_nil shared (List.cons_ne_nil _ _)
  have toBelow : shared ++ y :: ys ≠ [] :=
    List.append_ne_nil_of_right_ne_nil shared (List.cons_ne_nil _ _)
  have fromTrim := trim_located named fromClean
  have toTrim := trim_located named toClean
  rw [if_neg fromBelow] at fromTrim
  rw [if_neg toBelow] at toTrim
  have count : (win32Separators.join (x :: xs)).count CHAR_BACKWARD_SLASH = xs.length :=
    count_join x xs fun s member => (fromClean.right s member).2
  have fromShape : located [letter, CHAR_COLON] (shared ++ x :: xs) = _ :=
    located_leading _ shared (List.cons_ne_nil _ _)
  have toShape : located [letter, CHAR_COLON] (shared ++ y :: ys) = _ :=
    located_leading _ shared (List.cons_ne_nil _ _)
  have lead : 3 ≤ (leadingText win32Separators ([letter, CHAR_COLON] :: shared)).length := by
    simp [leadingText]
  have last : lastSeparatorIn CHAR_BACKWARD_SLASH 0
      (leadingText win32Separators ([letter, CHAR_COLON] :: shared)) (-1) =
      ((leadingText win32Separators ([letter, CHAR_COLON] :: shared)).length : Int) - 1 :=
    lastSeparatorIn_leadingText win32Separators _
  generalize leadingText win32Separators ([letter, CHAR_COLON] :: shared) = front at *
  generalize located [letter, CHAR_COLON] (shared ++ x :: xs) = from_ at fromTrim fromShape ⊢
  generalize located [letter, CHAR_COLON] (shared ++ y :: ys) = to_ at toTrim toShape size ⊢
  have fromParts : from_ = (front ++ q) ++ a := by rw [fromShape, fromText, List.append_assoc]
  have toParts : to_ = (front ++ q) ++ b := by rw [toShape, toText, List.append_assoc]
  have fromSize : from_.length = (front ++ q).length + a.length := by
    rw [fromParts, List.length_append]
  have toSize : to_.length = (front ++ q).length + b.length := by
    rw [toParts, List.length_append]
  have deep : 3 ≤ (front ++ q).length := by
    rw [List.length_append]
    omega
  -- The last common separator is the one in front of the names that differ.
  have compared : comparePaths CHAR_BACKWARD_SLASH from_ to_ 0 0
      (min from_.length to_.length + 1) 0 0 (-1) = ((front ++ q).length, (front.length : Int) - 1) := by
    have enough : (front ++ q).length < min from_.length to_.length + 1 := by omega
    have fromStart : from_.drop 0 = (front ++ q) ++ a := fromParts
    have toStart : to_.drop 0 = (front ++ q) ++ b := toParts
    rw [comparePaths_stretch (front ++ q) _ fromStart toStart heads enough,
      lastSeparatorIn_append, lastSeparatorIn_clean _ q _ clean, last]
  have index : (front.length : Int) - 1 = ((front.length - 1 : Nat) : Int) := by omega
  have rest : from_.drop (front.length - 1 + 1) = win32Separators.join (x :: xs) := by
    rw [Nat.sub_add_cancel (by omega), fromShape, List.drop_left]
  have inside : front.length - 1 + 1 ≤ from_.length := by
    rw [fromShape, List.length_append]
    omega
  have result := relativeRest_eq from_ toOrig _ (front.length - 1) to_.length rest inside
  rw [count, List.take_of_length_le (by omega)] at result
  have found : ((front.length - 1 : Nat) : Int) ≠ -1 := by omega
  have code (text tail : LuaString) (shape : text = (front ++ q) ++ tail) :
      text[(front ++ q).length]? = tail.head? := by
    rw [shape, List.getElem?_append_right (Nat.le_refl _), Nat.sub_self, List.head?_eq_getElem?]
  have second : (front ++ q).length ≠ 2 := by omega
  rw [relativeResolved_eq fromTrim toTrim compared, code from_ a fromParts, code to_ b toParts, index,
    ← result]
  by_cases ended : (front ++ q).length = min from_.length to_.length
  -- Where one path has ended, the other one goes on inside of a name.
  · have kept : (if min from_.length to_.length < from_.length then
        if a.head? = some CHAR_BACKWARD_SLASH then ((front ++ q).length : Int)
        else if (front ++ q).length = 2 then 3 else ((front.length - 1 : Nat) : Int)
        else ((front.length - 1 : Nat) : Int)) = ((front.length - 1 : Nat) : Int) := by
      by_cases longer : min from_.length to_.length < from_.length
      · have toEnds : b = [] := List.length_eq_zero_iff.mp (by omega)
        rw [if_pos longer, if_neg (toEnd toEnds).1, if_neg second]
      · rw [if_neg longer]
    rw [if_neg (not_not.mpr ended),
      if_neg fun both => (fromEnd (List.length_eq_zero_iff.mp (by omega))).1 both.2,
      if_neg fun both => second both.2, kept]
    simp only [if_neg found]
  · rw [if_pos ended, if_neg found]

/-- On different drives the result is the destination. -/
theorem relativeResolved_drives {other : UInt8} (named : letter ≠ CHAR_BACKWARD_SLASH)
    (otherNamed : other ≠ CHAR_BACKWARD_SLASH) (differ : letter ≠ other) {start goal : List LuaString}
    (startClean : win32Separators.Clean start) (goalClean : win32Separators.Clean goal)
    (toOrig : LuaString) :
    relativeResolved (located [letter, CHAR_COLON] start) (located [other, CHAR_COLON] goal) toOrig =
      toOrig := by
  have fromTrim := trim_located named startClean
  have toTrim := trim_located otherNamed goalClean
  have long (first : UInt8) (names : List LuaString) :
      2 ≤ if names = [] then 2 else (located [first, CHAR_COLON] names).length := by
    split
    · exact Nat.le_refl 2
    · simp [located]
  have fromLong := long letter start
  have toLong := long other goal
  have codes : stringPrototypeCharCodeAt (located [letter, CHAR_COLON] start) (0 + 0 : Nat) ≠
      stringPrototypeCharCodeAt (located [other, CHAR_COLON] goal) (0 + 0 : Nat) := by
    rw [charCodeAt_eq, charCodeAt_eq]
    simpa [located] using differ
  rw [relativeResolved_eq fromTrim toTrim (by rw [comparePaths, if_pos codes]), if_pos (by omega),
    if_pos rfl]

end Device

/-! ## Letter case -/

theorem lower_join (names : List LuaString) :
    lower (win32Separators.join names) = win32Separators.join (names.map lower) := by
  induction names with
  | nil => rfl
  | cons name rest ih =>
    by_cases last : rest = []
    · simp [last, Separators.join]
    · have more : rest.map lower ≠ [] := by simpa using last
      have backslash : ¬(0x41 ≤ CHAR_BACKWARD_SLASH ∧ CHAR_BACKWARD_SLASH ≤ 0x5A) := by decide
      rw [Separators.join, join_cons name last, lower_append, List.map_cons, Separators.join,
        join_cons (lower name) more]
      exact congrArg (lower name ++ ·) ((lower_cons_other backslash _).trans (congrArg _ ih))

theorem lower_located (device : LuaString) (names : List LuaString) :
    lower (located device names) = located (lower device) (names.map lower) := by
  have backslash : ¬(0x41 ≤ CHAR_BACKWARD_SLASH ∧ CHAR_BACKWARD_SLASH ≤ 0x5A) := by decide
  rw [located, lower_append, lower_cons_other backslash, lower_join, located]

theorem map_lower_clean {names : List LuaString} (clean : win32Separators.Clean names) :
    win32Separators.Clean (names.map lower) := by
  intro s member
  obtain ⟨name, inside, rfl⟩ := List.mem_map.mp member
  obtain ⟨kept, unseparated⟩ := clean name inside
  refine ⟨?_, fun backslash => unseparated (mem_lower_other (by decide) backslash)⟩
  -- The name would have been empty or a dot itself.
  apply eq_false_of_ne_true
  intro skipped
  have short : lower name = [] ∨ lower name = ascii "." := by simpa [segmentReading] using skipped
  have same : name = [] ∨ name = ascii "." := by
    rcases short with empty | dot
    · exact Or.inl (List.map_eq_nil_iff.mp empty)
    · obtain ⟨c, rfl⟩ : ∃ c, name = [c] := by
        apply List.length_eq_one_iff.mp
        rw [← length_lower, dot]
        rfl
      have inside : CHAR_DOT ∈ lower [c] := by
        rw [dot]
        exact List.mem_cons_self
      have byte := mem_lower_other (by decide) inside
      rw [List.mem_singleton] at byte
      exact Or.inr (by rw [← byte]; rfl)
  have again : segmentReading.skipped name = true := by simpa [segmentReading] using same
  rw [again] at kept
  exact Bool.false_ne_true kept.symm

/-- A drive in lower case. -/
theorem lower_drive {letter : UInt8} (drive : isWindowsDeviceRoot letter = true) :
    ∃ small, lower [letter, CHAR_COLON] = [small, CHAR_COLON] ∧ small ≠ CHAR_BACKWARD_SLASH := by
  have colon : lower [CHAR_COLON] = [CHAR_COLON] := by decide
  obtain ⟨small, shape⟩ : ∃ small, lower [letter] = [small] :=
    List.length_eq_one_iff.mp (length_lower [letter])
  have both : lower [letter, CHAR_COLON] = lower [letter] ++ lower [CHAR_COLON] :=
    lower_append [letter] [CHAR_COLON]
  refine ⟨small, by rw [both, shape, colon]; rfl, ?_⟩
  rintro rfl
  have inside : CHAR_BACKWARD_SLASH ∈ lower [letter] := by
    rw [shape]
    exact List.mem_cons_self
  have byte := mem_lower_other (by decide) inside
  rw [List.mem_singleton] at byte
  rw [← byte] at drive
  exact absurd drive (by decide)

/-! ## The route -/

/-- Up to the parting of the two locations in lower case, then down to the destination
as it is spelled. -/
def caseRoute (start goal : List LuaString) : List LuaString :=
  let c := (commonPrefix (start.map lower) (goal.map lower)).length
  List.replicate (start.length - c) segmentReading.up ++ goal.drop c

/-- The route from what follows the shared names. -/
theorem caseRoute_append {shared start goal xs : List LuaString}
    (left : start.map lower = shared ++ xs)
    (common : commonPrefix (start.map lower) (goal.map lower) = shared) :
    caseRoute start goal = List.replicate xs.length segmentReading.up ++ goal.drop shared.length := by
  have size : start.length = shared.length + xs.length := by
    rw [← List.length_map lower, left, List.length_append]
  rw [caseRoute, common, size, Nat.add_sub_cancel_left]

/-- Walking the route arrives at the destination, up to the case of the shared names. -/
theorem walk_caseRoute {start goal : List LuaString} (startNames : ∀ s ∈ start, segmentReading.IsName s)
    (goalNames : ∀ s ∈ goal, segmentReading.IsName s) :
    (segmentReading.walk false start (caseRoute start goal)).map lower = goal.map lower := by
  obtain ⟨shared, xs, ys, left, right, common, -⟩ := exists_parting (start.map lower) (goal.map lower)
  have size : (start.drop shared.length).length = xs.length := by
    rw [List.length_drop, ← List.length_map lower, left, List.length_append, Nat.add_sub_cancel_left]
  have walked : segmentReading.walk false start (caseRoute start goal) =
      start.take shared.length ++ goal.drop shared.length := by
    have up : segmentReading.walk false (start.take shared.length ++ start.drop shared.length)
        (List.replicate (start.drop shared.length).length segmentReading.up) =
        start.take shared.length :=
      SegmentReading.walk_up _ _ fun s member => startNames s (List.mem_of_mem_drop member)
    rw [List.take_append_drop, size] at up
    rw [caseRoute_append left common, SegmentReading.walk_append, up,
      SegmentReading.walk_names _ fun s member => goalNames s (List.mem_of_mem_drop member)]
  rw [walked, List.map_append, List.map_take, List.map_drop, left, right, List.take_left,
    List.drop_left]

theorem located_split (device : LuaString) {goal : List LuaString} {k : Nat}
    (more : goal.drop k ≠ []) :
    located device goal =
      leadingText win32Separators (device :: goal.take k) ++ win32Separators.join (goal.drop k) := by
  have parts := located_leading device (goal.take k) more
  rwa [List.take_append_drop] at parts

/-- The length of a text does not depend on letter case. -/
theorem length_leadingText_lower (names : List LuaString) :
    (leadingText win32Separators (names.map lower)).length =
      (leadingText win32Separators names).length := by
  induction names with
  | nil => rfl
  | cons name rest ih =>
    have step (name : LuaString) (rest : List LuaString) :
        (leadingText win32Separators (name :: rest)).length =
          name.length + 1 + (leadingText win32Separators rest).length := by
      simp [leadingText]
      omega
    rw [List.map_cons, step, step, ih, length_lower]

/-- On one drive the result is the route, as text. -/
theorem relativeResolved_route {letter : UInt8} (named : letter ≠ CHAR_BACKWARD_SLASH)
    {device : LuaString} (size : device.length = 2) {start goal : List LuaString}
    (startClean : win32Separators.Clean start) (goalClean : win32Separators.Clean goal)
    (differ : start.map lower ≠ goal.map lower) :
    relativeResolved (located [letter, CHAR_COLON] (start.map lower))
        (located [letter, CHAR_COLON] (goal.map lower)) (located device goal) =
      win32Separators.join (caseRoute start goal) := by
  obtain ⟨shared, xs, ys, left, right, common, apart⟩ :=
    exists_parting (start.map lower) (goal.map lower)
  have startLower := map_lower_clean startClean
  have goalLower := map_lower_clean goalClean
  have shared_eq : (goal.take shared.length).map lower = shared := by
    rw [List.map_take, right, List.take_left]
  have rest_eq : (goal.drop shared.length).map lower = ys := by
    rw [List.map_drop, right, List.drop_left]
  have front : (leadingText win32Separators ([letter, CHAR_COLON] :: shared)).length =
      (leadingText win32Separators (device :: goal.take shared.length)).length := by
    have lowered := length_leadingText_lower (device :: goal.take shared.length)
    rw [List.map_cons, shared_eq] at lowered
    rw [← lowered]
    simp [leadingText, size]
    omega
  rw [caseRoute_append left common, left, right]
  rw [left] at startLower
  rw [right] at goalLower
  cases xs with
  | nil =>
    cases ys with
    | nil => exact absurd (left.trans right.symm) differ
    | cons y ys =>
      have more : goal.drop shared.length ≠ [] := by
        intro none_
        rw [none_] at rest_eq
        exact List.cons_ne_nil y ys rest_eq.symm
      have below := relativeResolved_below named goalLower (List.cons_ne_nil y ys)
        (located device goal)
      rw [List.append_nil, below, front, located_split device more, List.drop_left]
      rfl
  | cons x xs =>
    cases ys with
    | nil =>
      have none_ : goal.drop shared.length = [] := List.map_eq_nil_iff.mp rest_eq
      rw [List.append_nil, relativeResolved_above named startLower, none_, List.append_nil]
      rfl
    | cons y ys =>
      have more : goal.drop shared.length ≠ [] := by
        intro none_
        rw [none_] at rest_eq
        exact List.cons_ne_nil y ys rest_eq.symm
      have ups : List.replicate (x :: xs).length segmentReading.up ≠ [] := by simp
      have whole : (located device goal).length =
          (located [letter, CHAR_COLON] (shared ++ y :: ys)).length := by
        rw [← right, located, located, ← lower_join]
        simp [size]
        omega
      have route : win32Separators.join
          (List.replicate (x :: xs).length segmentReading.up ++ goal.drop shared.length) =
          win32Separators.join (List.replicate (x :: xs).length segmentReading.up) ++
            CHAR_BACKWARD_SLASH :: win32Separators.join (goal.drop shared.length) :=
        join_append ups more
      rw [relativeResolved_apart named startLower goalLower (apart x y rfl rfl) whole, front, route,
        located_split device more, leadingText_eq (List.cons_ne_nil _ _), List.append_assoc,
        List.length_append, List.length_singleton, Nat.add_sub_cancel, List.drop_left]
      rfl

/-! ## Resolving the result -/

/-- A letter, a colon, a separator, and then a text without a colon. -/
def IsDrivePath (path : LuaString) : Prop :=
  ∃ letter separator text, path = letter :: CHAR_COLON :: separator :: text ∧
    isWindowsDeviceRoot letter = true ∧ isPathSeparator separator = true ∧ CHAR_COLON ∉ text

theorem not_drive_of_colon {text : LuaString} (absent : CHAR_COLON ∉ text) :
    startsWithDrive text = false := by
  match text with
  | [] => rfl
  | [a] => rfl
  | a :: b :: rest =>
    have other : b ≠ CHAR_COLON := by
      rintro rfl
      exact absent (by simp)
    simp [startsWithDrive, other]

/-- A location that a text without a colon leads to. -/
structure Located (location : List LuaString) : Prop where
  names : ∀ s ∈ location, segmentReading.IsName s
  proper : win32Separators.Proper location
  colon : ∀ s ∈ location, CHAR_COLON ∉ s

theorem enter_located {text : LuaString} (absent : CHAR_COLON ∉ text) : Located (enter [] text) where
  names := SegmentReading.walk_keeps_names _ (List.forall_mem_nil _)
  proper := win32Separators.walk_proper false proper_nil text
  colon := SegmentReading.walk_forall (List.forall_mem_nil _) fun s member colon =>
    absent (win32Separators.mem_split text s member CHAR_COLON colon).1

/-- The text of a route is a relative path, and walking it is walking the route. -/
theorem enter_caseRoute (start : List LuaString) {goal : List LuaString} (located_ : Located goal) :
    startsWithSeparator (win32Separators.join (caseRoute start goal)) = false ∧
      startsWithDrive (win32Separators.join (caseRoute start goal)) = false ∧
      enter start (win32Separators.join (caseRoute start goal)) =
        segmentReading.walk false start (caseRoute start goal) := by
  have parts : ∀ s ∈ caseRoute start goal, (segmentReading.skipped s = false ∧
      ∀ c ∈ s, win32Separators.isPathSeparatorCharacter c = false) ∧ CHAR_COLON ∉ s := by
    intro s member
    rcases List.mem_append.mp member with up | name
    · rw [List.eq_of_mem_replicate up]
      exact ⟨⟨rfl, clean_of_any rfl⟩, by decide⟩
    · have inside := List.mem_of_mem_drop name
      exact ⟨located_.proper s inside, located_.colon s inside⟩
  generalize caseRoute start goal = route at parts
  cases route with
  | nil => exact ⟨rfl, rfl, enter_nil start⟩
  | cons s rest =>
    have proper : win32Separators.Proper (s :: rest) := fun t member => (parts t member).1
    obtain ⟨starts, back, text, separator⟩ := join_first proper
    have apart : back.head? ≠ some CHAR_COLON := by
      intro colon
      exact absurd (separator _ colon) (by decide)
    have nonempty := ne_nil_of_kept (proper s List.mem_cons_self).1
    refine ⟨starts, ?_, ?_⟩
    · rw [text, startsWithDrive_append nonempty apart]
      exact not_drive_of_colon (parts s List.mem_cons_self).2
    · rw [enter, win32Separators.split_join proper (List.cons_ne_nil _ _)]

/-- The text of a location leads there from the root. -/
theorem enter_join {location : List LuaString} (located_ : Located location) :
    enter [] (win32Separators.join location) = location := by
  by_cases root : location = []
  · subst root
    exact enter_nil []
  · rw [enter, win32Separators.split_join located_.proper root,
      SegmentReading.walk_names [] located_.names, List.nil_append]

/-- What `relative` returns, from the two resolved paths. -/
theorem relative_eq {host : Host} {from_ to_ fromOrig toOrig : LuaString}
    (fromResolved : resolve host from_ = .ok fromOrig) (toResolved : resolve host to_ = .ok toOrig) :
    relative host from_ to_ =
      .ok (if lower fromOrig = lower toOrig then []
        else relativeResolved (lower fromOrig) (lower toOrig) toOrig) := by
  unfold relative
  -- The earlier shortcuts are for paths that are equal in lower case, too.
  by_cases same : from_ = to_
  · subst same
    have equal : fromOrig = toOrig := Except.ok.inj (fromResolved.symm.trans toResolved)
    rw [if_pos rfl, if_pos (congrArg lower equal)]
    rfl
  · simp only [if_neg same, fromResolved, toResolved, bind, Except.bind, pure, Except.pure]
    by_cases equal : fromOrig = toOrig
    · rw [if_pos equal, if_pos (congrArg lower equal)]
    · rw [if_neg equal]
      split <;> rfl

/-- Resolving the result of `relative` from the start arrives at the destination, up to
letter case. -/
theorem relative_arrives (host : Host) (from_ to_ : LuaString) (fromDrive : IsDrivePath from_)
    (toDrive : IsDrivePath to_) :
    ∃ rel reached goal, relative host from_ to_ = .ok rel ∧
      resolve host from_ [rel] = .ok reached ∧ resolve host to_ = .ok goal ∧
      lower reached = lower goal := by
  obtain ⟨fromLetter, fromSeparator, fromText, rfl, fromRoot, fromSeparates, fromColon⟩ := fromDrive
  obtain ⟨toLetter, toSeparator, toText, rfl, toRoot, toSeparates, toColon⟩ := toDrive
  have fromResolved := (resolve_drive fromRoot fromSeparates host fromText []).1
  have toResolved := (resolve_drive toRoot toSeparates host toText []).1
  have start := enter_located fromColon
  have goal := enter_located toColon
  have continued (path : LuaString) (relative_ : startsWithSeparator path = false)
      (other : startsWithDrive path = false) :=
    resolve_drive_relative fromRoot fromSeparates host fromText relative_ other
  rw [relative_eq fromResolved toResolved]
  generalize enter [] fromText = fromNames at *
  generalize enter [] toText = toNames at *
  by_cases same : lower (located [fromLetter, CHAR_COLON] fromNames) =
      lower (located [toLetter, CHAR_COLON] toNames)
  · refine ⟨_, _, _, rfl, ?_, toResolved, same⟩
    rw [if_pos same, continued [] rfl rfl, enter_nil]
  · rw [if_neg same]
    obtain ⟨fromSmall, fromLower, fromNamed⟩ := lower_drive fromRoot
    obtain ⟨toSmall, toLower, toNamed⟩ := lower_drive toRoot
    rw [lower_located, lower_located, fromLower, toLower] at same ⊢
    by_cases drives : fromSmall = toSmall
    · subst drives
      have differ : fromNames.map lower ≠ toNames.map lower := fun equal => same (by rw [equal])
      obtain ⟨starts, begins, walked⟩ := enter_caseRoute fromNames goal
      refine ⟨_, located [fromLetter, CHAR_COLON]
        (segmentReading.walk false fromNames (caseRoute fromNames toNames)), _, rfl, ?_, toResolved, ?_⟩
      · rw [relativeResolved_route fromNamed rfl start.proper.clean goal.proper.clean differ,
          continued _ starts begins, walked]
      · rw [lower_located, lower_located, fromLower, toLower, walk_caseRoute start.names goal.names]
    -- The result is the destination itself, which is absolute.
    · refine ⟨_, located [toLetter, CHAR_COLON] toNames, _, rfl, ?_, toResolved, rfl⟩
      rw [relativeResolved_drives fromNamed toNamed drives (map_lower_clean start.proper.clean)
        (map_lower_clean goal.proper.clean)]
      have alone := (resolve_drive toRoot (by decide : isPathSeparator CHAR_BACKWARD_SLASH = true) host
        (win32Separators.join toNames) []).2
      rw [enter_join goal] at alone
      exact alone _

theorem relative_arrives_root :
    ∃ rel reached goal,
      relative ⟨none, fun _ => none⟩ (ascii "C:/Foo/bar") (ascii "c:\\") = .ok rel ∧
      resolve ⟨none, fun _ => none⟩ (ascii "C:/Foo/bar") [rel] = .ok reached ∧
      resolve ⟨none, fun _ => none⟩ (ascii "c:\\") = .ok goal ∧ lower reached = lower goal :=
  relative_arrives _ _ _ ⟨_, _, ascii "Foo/bar", rfl, by decide, by decide, by decide⟩
    ⟨_, _, [], rfl, by decide, by decide, by decide⟩

end EvoRuntime.Path.Win32
