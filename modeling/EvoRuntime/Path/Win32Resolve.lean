import EvoRuntime.Path.Win32

/-!
# `path.win32.resolve`

Arguments are typed as strings, so the checks of their types have no counterpart
here. A path with a drive and a separator is absolute, and the arguments in front of
it do not matter: `resolve_drive`. A relative path behind it is walked from there:
`resolve_drive_relative`.
-/
namespace EvoRuntime.Path.Win32

open Lua Library

/-- What the path library reads from its surroundings: `uv.cwd()` and `uv.os_getenv`. -/
structure Host where
  cwd : Option LuaString
  os_getenv : LuaString → Option LuaString

/-- The locals of `resolve`. -/
structure Resolving where
  resolvedDevice : LuaString := []
  resolvedTail : LuaString := []
  resolvedAbsolute : Bool := false
  deriving DecidableEq, Repr

/-- The root of a path. An empty `device` of the source is `none`. -/
def matchRoot (path : LuaString) : Except LuaError Root :=
  let len := path.length
  match stringPrototypeCharCodeAt path 0 with
  -- The current directory may be the empty string.
  | none => .error ⟨"attempt to compare number with nil"⟩
  | some code =>
    if len = 1 then .ok (if isPathSeparator code then ⟨1, none, true⟩ else {})
    else if isPathSeparator code then
      if (stringPrototypeCharCodeAt path 1).any isPathSeparator then
        match matchUncRoot path with
        | some unc =>
          if unc.j = len ∨ unc.j ≠ unc.last then .ok ⟨unc.j, some (unc.device path), true⟩
          else .ok ⟨0, none, true⟩
        | none => .ok ⟨0, none, true⟩
      else .ok ⟨1, none, true⟩
    else .ok (matchDeviceRoot path)

/-- The path that is resolved after all arguments. -/
def currentDirectory (host : Host) (resolvedDevice : LuaString) : Except LuaError LuaString :=
  if resolvedDevice.length = 0 then
    match host.cwd with
    | some path => .ok path
    | none => .error ⟨"attempt to get length of local 'path' (a nil value)"⟩
  else
    match (host.os_getenv (ascii "=" ++ resolvedDevice)).or host.cwd with
    | none => .ok (resolvedDevice ++ ascii "\\")
    | some path =>
      -- A directory on another drive gives way to the root of this one.
      if lower (stringPrototypeSlice path 0 2) ≠ lower resolvedDevice ∧
          stringPrototypeCharCodeAt path 2 = some CHAR_BACKWARD_SLASH then
        .ok (resolvedDevice ++ ascii "\\")
      else .ok path

/-- One path in front of the tail collected so far, and whether the loop ends with it. -/
def resolvePath (path : LuaString) (st : Resolving) : Except LuaError (Resolving × Bool) := do
  let root ← matchRoot path
  let device := root.device.getD []
  -- A path on another device is not applicable.
  if device.length > 0 ∧ st.resolvedDevice.length > 0 ∧ lower device ≠ lower st.resolvedDevice then
    return (st, false)
  let st :=
    if device.length > 0 ∧ st.resolvedDevice.length = 0 then { st with resolvedDevice := device }
    else st
  if st.resolvedAbsolute then return (st, decide (st.resolvedDevice.length > 0))
  else
    return ({ st with
        resolvedTail := stringPrototypeSlice path root.rootEnd ++ ascii "\\" ++ st.resolvedTail
        resolvedAbsolute := root.isAbsolute },
      root.isAbsolute && decide (st.resolvedDevice.length > 0))

/-- The loop over the arguments, from the last one to the first and on to the current
directory. -/
def resolveLoop (host : Host) : List LuaString → Resolving → Except LuaError Resolving
  | [], st => do
    let path ← currentDirectory host st.resolvedDevice
    let resolved ← resolvePath path st
    return resolved.1
  | path :: args, st => do
    let resolved ← if path.length = 0 then pure (st, false) else resolvePath path st
    if resolved.2 then return resolved.1 else resolveLoop host args resolved.1

def resolve (host : Host) (arg : LuaString) (rest : List LuaString := []) :
    Except LuaError LuaString := do
  let st ← resolveLoop host (arg :: rest).reverse {}
  let resolvedTail :=
    normalizeString st.resolvedTail (!st.resolvedAbsolute) (ascii "\\") isPathSeparator
  if st.resolvedAbsolute then return st.resolvedDevice ++ ascii "\\" ++ resolvedTail
  else return st.resolvedDevice ++ resolvedTail

example : resolve ⟨some (ascii "D:\\work"), fun _ => none⟩ (ascii "C:/a") [ascii "D:b", ascii "..\\c"] =
    .ok (ascii "D:\\work\\c") := by rfl

/-! ## Paths with a drive -/

/-- The normalized path of a location on a device. -/
def located (device : LuaString) (location : List LuaString) : LuaString :=
  device ++ CHAR_BACKWARD_SLASH :: win32Separators.join location

/-- Where the segments of a text lead from a location. -/
def enter (location : List LuaString) (text : LuaString) : List LuaString :=
  segmentReading.walk false location (win32Separators.split text)

theorem enter_nil (location : List LuaString) : enter location [] = location := by
  have skipped : segmentReading.skipped [] = true := by decide
  have alone : win32Separators.split [] = [[]] := rfl
  rw [enter, alone, SegmentReading.walk_cons, SegmentReading.push_skipped skipped,
    SegmentReading.walk_nil]

theorem enter_append (location : List LuaString) (front back : LuaString) :
    enter location (front ++ CHAR_BACKWARD_SLASH :: back) = enter (enter location front) back := by
  rw [enter, win32Separators.split_append front back (by decide), SegmentReading.walk_append]
  rfl

section Drive

variable {letter separator : UInt8}

theorem matchRoot_drive (drive : isWindowsDeviceRoot letter = true)
    (separates : isPathSeparator separator = true) (text : LuaString) :
    matchRoot (letter :: CHAR_COLON :: separator :: text) =
      .ok ⟨3, some [letter, CHAR_COLON], true⟩ := by
  have starts : startsWithDrive (letter :: CHAR_COLON :: separator :: text) = true := by
    simp [startsWithDrive, drive]
  have other : isPathSeparator letter = false := not_separator_of_drive starts
  have behind : startsWithSeparator (separator :: text) = true := separates
  have root := matchDeviceRoot_drive drive (separator :: text)
  rw [if_pos behind] at root
  simp [matchRoot, other, root]

/-- The loop ends with the last path that has a drive and a separator. -/
theorem resolveLoop_drive (drive : isWindowsDeviceRoot letter = true)
    (separates : isPathSeparator separator = true) (host : Host) (text tail : LuaString)
    (args : List LuaString) :
    resolveLoop host ((letter :: CHAR_COLON :: separator :: text) :: args)
        { resolvedTail := tail } =
      .ok ⟨[letter, CHAR_COLON], text ++ CHAR_BACKWARD_SLASH :: tail, true⟩ := by
  have rest : stringPrototypeSlice (letter :: CHAR_COLON :: separator :: text) (3 : Nat) = text := by
    rw [slice_from]
    rfl
  have backslash : ascii "\\" = [CHAR_BACKWARD_SLASH] := by decide
  have path : resolvePath (letter :: CHAR_COLON :: separator :: text) { resolvedTail := tail } =
      .ok (⟨[letter, CHAR_COLON], text ++ CHAR_BACKWARD_SLASH :: tail, true⟩, true) := by
    rw [resolvePath, matchRoot_drive drive separates]
    simp only [bind, Except.bind, rest, backslash, Option.getD_some]
    simp [pure, Except.pure]
  rw [resolveLoop, if_neg (by simp), path]
  rfl

/-- A path that is neither absolute nor on a drive is put in front of the tail. -/
theorem resolveLoop_relative (host : Host) {path : LuaString}
    (relative_ : startsWithSeparator path = false) (other : startsWithDrive path = false)
    (nonempty : path ≠ []) (args : List LuaString) :
    resolveLoop host (path :: args) {} =
      resolveLoop host args { resolvedTail := path ++ [CHAR_BACKWARD_SLASH] } := by
  have backslash : ascii "\\" = [CHAR_BACKWARD_SLASH] := by decide
  have whole : stringPrototypeSlice path (0 : Nat) = path := slice_from path 0
  have root : matchRoot path = .ok {} := by
    match path with
    | [] => exact absurd rfl nonempty
    | [a] =>
      have first : isPathSeparator a = false := relative_
      simp [matchRoot, first]
    | a :: b :: rest =>
      have first : isPathSeparator a = false := relative_
      simp [matchRoot, first, matchDeviceRoot_other other]
  have step : resolvePath path {} =
      .ok ({ resolvedTail := path ++ [CHAR_BACKWARD_SLASH] }, false) := by
    rw [resolvePath, root]
    simp only [bind, Except.bind, whole, backslash, Option.getD_none]
    simp [pure, Except.pure]
  rw [resolveLoop, if_neg (by simpa using nonempty), step]
  rfl

theorem resolved_text (letter : UInt8) (text : LuaString) :
    [letter, CHAR_COLON] ++ ascii "\\" ++ normalizeString text false (ascii "\\") isPathSeparator =
      located [letter, CHAR_COLON] (enter [] text) := by
  have walked : normalizeString text false (ascii "\\") isPathSeparator =
      win32Separators.join (enter [] text) := normalizeString_eq_walk win32Separators text false
  rw [walked]
  rfl

/-- An absolute path on a drive is resolved on its own, whatever stands before it. -/
theorem resolve_drive (drive : isWindowsDeviceRoot letter = true)
    (separates : isPathSeparator separator = true) (host : Host) (text : LuaString)
    (args : List LuaString) :
    resolve host (letter :: CHAR_COLON :: separator :: text) = .ok (located [letter, CHAR_COLON]
      (enter [] text)) ∧
    ∀ arg, resolve host arg (args ++ [letter :: CHAR_COLON :: separator :: text]) =
      .ok (located [letter, CHAR_COLON] (enter [] text)) := by
  have tail : enter [] (text ++ [CHAR_BACKWARD_SLASH]) = enter [] text := by
    rw [enter_append, enter_nil]
  have loop := resolveLoop_drive drive separates host text []
  constructor
  · rw [resolve, List.reverse_singleton, loop]
    simp only [bind, Except.bind, if_true, Bool.not_true]
    rw [resolved_text, tail]
    rfl
  · intro arg
    rw [resolve, ← List.cons_append, List.reverse_append, List.reverse_singleton,
      List.singleton_append, loop]
    simp only [bind, Except.bind, if_true, Bool.not_true]
    rw [resolved_text, tail]
    rfl

/-- A relative path leads on from the path in front of it. -/
theorem resolve_drive_relative (drive : isWindowsDeviceRoot letter = true)
    (separates : isPathSeparator separator = true) (host : Host) (text : LuaString)
    {path : LuaString} (relative_ : startsWithSeparator path = false)
    (other : startsWithDrive path = false) :
    resolve host (letter :: CHAR_COLON :: separator :: text) [path] =
      .ok (located [letter, CHAR_COLON] (enter (enter [] text) path)) := by
  by_cases empty : path = []
  -- An empty argument is skipped.
  · subst empty
    rw [enter_nil, ← (resolve_drive drive separates host text []).1]
    rfl
  · have tail : enter [] (text ++ CHAR_BACKWARD_SLASH :: (path ++ [CHAR_BACKWARD_SLASH])) =
        enter (enter [] text) path := by
      rw [enter_append, enter_append, enter_nil]
    have order : [letter :: CHAR_COLON :: separator :: text, path].reverse =
        [path, letter :: CHAR_COLON :: separator :: text] := rfl
    rw [resolve, order, resolveLoop_relative host relative_ other empty,
      resolveLoop_drive drive separates]
    simp only [bind, Except.bind, if_true, Bool.not_true]
    rw [resolved_text, tail]
    rfl

end Drive

end EvoRuntime.Path.Win32
