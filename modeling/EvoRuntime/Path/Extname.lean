import EvoRuntime.Path.Basename

/-!
# `extname`

The scan for the last component also looks for its last dot, and keeps in `preDotState`
what stands in front of that dot: nothing, or a text that begins with a dot, or a text
that begins with another character.

## Main result

`extname_spec`: the extension is what `basename` has behind its last dot, with the dot,
unless the dot is the first character or the name is `..`.

## Proof strategy

`visitAll_dotted` says what the scan of a component leaves in the cursors, by induction
on the component. The condition at the end is then a statement about the component alone.
-/
namespace EvoRuntime.Path

open Lua Library

/-- The locals of the loops of `extname`. -/
structure ExtnameScan where
  startDot : Int := -1
  startPart : Nat
  endIndex : Int := -1
  matchedSlash : Bool := true
  preDotState : Int := 0
  deriving DecidableEq, Repr

/-- A character of the component. -/
def visitName (i : Nat) (code : UInt8) (st : ExtnameScan) : ExtnameScan :=
  let st := if st.endIndex = -1 then { st with matchedSlash := false, endIndex := i + 1 } else st
  if code = CHAR_DOT then
    if st.startDot = -1 then { st with startDot := i }
    else if st.preDotState ≠ 1 then { st with preDotState := 1 }
    else st
  else if st.startDot ≠ -1 then { st with preDotState := -1 }
  else st

def extnameScan (isSeparator : UInt8 → Bool) : BackwardScan UInt8 ExtnameScan where
  isSeparator := isSeparator
  fresh := ExtnameScan.matchedSlash
  visit := visitName
  stop i st := { st with startPart := i + 1 }

/-- The loop of `extname` and what follows it, behind a root of `start` bytes. -/
def extnameFrom (isSeparator : UInt8 → Bool) (start : Nat) (path : LuaString) : LuaString :=
  let st := (extnameScan isSeparator).run (fun i => stringPrototypeCharCodeAt path i) start path.length
    { startPart := start }
  if st.startDot = -1 ∨ st.endIndex = -1 ∨ st.preDotState = 0 ∨
      st.preDotState = 1 ∧ st.startDot = st.endIndex - 1 ∧ st.startDot = st.startPart + 1 then []
  else stringPrototypeSlice path st.startDot st.endIndex

def extname (path : LuaString) : LuaString := extnameFrom isPosixPathSeparator 0 path

/-- A drive in front is left out. -/
def Win32.extname (path : LuaString) : LuaString :=
  let start :=
    if path.length ≥ 2 ∧ stringPrototypeCharCodeAt path 1 = some CHAR_COLON ∧
        (stringPrototypeCharCodeAt path 0).any isWindowsDeviceRoot then 2
    else 0
  extnameFrom isPathSeparator start path

example : extname (ascii "/a.b/.file..//") = ascii "." := by decide

example : Win32.extname (ascii "C:..\\") = [] := by decide

/-! ## Names with a dot -/

/-- The last dot of a name. -/
def LastDot (name : LuaString) (d : Nat) : Prop :=
  name[d]? = some CHAR_DOT ∧ ∀ e, d < e → name[e]? ≠ some CHAR_DOT

/-- The extension of a name. -/
structure ExtensionOf (name ext : LuaString) : Prop where
  dotted : ∀ d, 0 < d → LastDot name d → name ≠ ascii ".." → ext = name.drop d
  plain : (∀ d, LastDot name d → d = 0) ∨ name = ascii ".." → ext = []

/-- A name is cut at its last dot. -/
theorem lastDot_iff {name : LuaString} {d : Nat} :
    LastDot name d ↔ ∃ front back, name = front ++ CHAR_DOT :: back ∧ CHAR_DOT ∉ back ∧
      front.length = d := by
  constructor
  · rintro ⟨here, last⟩
    obtain ⟨inside, dot⟩ := List.getElem?_eq_some_iff.mp here
    refine ⟨name.take d, name.drop (d + 1), ?_, ?_, by simp; omega⟩
    · rw [← dot, ← List.drop_eq_getElem_cons inside, List.take_append_drop]
    · intro member
      obtain ⟨k, code⟩ := List.getElem?_of_mem member
      rw [List.getElem?_drop] at code
      exact last (d + 1 + k) (by omega) code
  · rintro ⟨front, back, rfl, none_, rfl⟩
    refine ⟨by simp, fun e above code => none_ ?_⟩
    obtain ⟨k, rfl⟩ : ∃ k, e = front.length + (k + 1) := ⟨e - front.length - 1, by omega⟩
    rw [List.getElem?_append_right (by omega), Nat.add_sub_cancel_left, List.getElem?_cons_succ] at code
    exact List.mem_of_getElem? code

theorem lastDot_unique {name : LuaString} {d e : Nat} (here : LastDot name d) (there : LastDot name e) :
    d = e := by
  apply Nat.le_antisymm
  · exact not_lt.mp fun above => there.2 d above here.1
  · exact not_lt.mp fun above => here.2 e above there.1

/-! ## The cursors -/

/-- The state for the text in front of the last dot. -/
def preDot : LuaString → Int
  | [] => 0
  | c :: _ => if c = CHAR_DOT then 1 else -1

/-- What the scan of a name at `offset` leaves in the cursors. -/
structure Dotted (start offset : Nat) (name : LuaString) (st : ExtnameScan) : Prop where
  startPart : st.startPart = start
  matchedSlash : st.matchedSlash = name.isEmpty
  endIndex : st.endIndex = if name = [] then -1 else ((offset + name.length : Nat) : Int)
  dots : (CHAR_DOT ∉ name ∧ st.startDot = -1 ∧ st.preDotState = 0) ∨
    ∃ front back, name = front ++ CHAR_DOT :: back ∧ CHAR_DOT ∉ back ∧
      st.startDot = (offset + front.length : Nat) ∧ st.preDotState = preDot front

/-- One more character in front of the scanned text. -/
theorem Dotted.visit {start offset : Nat} {name : LuaString} {st : ExtnameScan}
    (dotted : Dotted start (offset + 1) name st) (c : UInt8) :
    Dotted start offset (c :: name) (visitName offset c st) := by
  obtain ⟨startPart, matchedSlash, endIndex, dots⟩ := dotted
  -- The first visited character fixes the end of the name.
  have first : (if st.endIndex = -1 then { st with matchedSlash := false, endIndex := offset + 1 }
      else st) = { st with
        matchedSlash := false
        endIndex := ((offset + (c :: name).length : Nat) : Int) } := by
    cases name with
    | nil => simp [endIndex]
    | cons d rest =>
      have seen : st.matchedSlash = false := by simpa using matchedSlash
      have fixed : st.endIndex = ((offset + (c :: d :: rest).length : Nat) : Int) := by
        rw [endIndex, if_neg (List.cons_ne_nil d rest)]
        simp only [List.length_cons]
        omega
      rw [if_neg (by omega), ← fixed, ← seen]
  rw [visitName, first]
  dsimp only
  rcases dots with ⟨none_, startDot, preDotState⟩ | ⟨front, back, rfl, none_, startDot, preDotState⟩
  · by_cases dot : c = CHAR_DOT
    · subst dot
      rw [if_pos rfl, if_pos startDot]
      exact ⟨startPart, rfl, rfl, .inr ⟨[], name, rfl, none_, rfl, preDotState⟩⟩
    · rw [if_neg dot, if_neg (not_not.mpr startDot)]
      have absent : CHAR_DOT ∉ c :: name := by simp [none_, Ne.symm dot]
      exact ⟨startPart, rfl, rfl, .inl ⟨absent, startDot, preDotState⟩⟩
  · have found : st.startDot ≠ -1 := by omega
    have index : st.startDot = ((offset + (c :: front).length : Nat) : Int) := by
      rw [startDot, List.length_cons]
      omega
    by_cases dot : c = CHAR_DOT
    · have state : preDot (c :: front) = 1 := if_pos dot
      rw [if_pos dot, if_neg found]
      split
      · exact ⟨startPart, rfl, rfl, .inr ⟨c :: front, back, rfl, none_, index, state.symm⟩⟩
      case isFalse one =>
        exact ⟨startPart, rfl, rfl,
          .inr ⟨c :: front, back, rfl, none_, index, (not_not.mp one).trans state.symm⟩⟩
    · have state : preDot (c :: front) = -1 := if_neg dot
      rw [if_neg dot, if_pos found]
      exact ⟨startPart, rfl, rfl, .inr ⟨c :: front, back, rfl, none_, index, state.symm⟩⟩

theorem visitAll_dotted (isSeparator : UInt8 → Bool) (start offset : Nat) (name : LuaString) :
    Dotted start offset name
      ((extnameScan isSeparator).visitAll offset name { startPart := start }) := by
  induction name generalizing offset with
  | nil => exact ⟨rfl, rfl, rfl, .inl ⟨List.not_mem_nil, rfl, rfl⟩⟩
  | cons c rest ih => exact (ih (offset + 1)).visit c

/-! ## The result -/

/-- The loop stops in front of the component, if there is one. -/
theorem extnameScan_component {isSeparator : UInt8 → Bool} {start : Nat} {path : LuaString}
    (parts : Cut isSeparator start path) :
    Dotted (parts.root ++ parts.front).length (parts.root ++ parts.front).length parts.component
      ((extnameScan isSeparator).run (fun i => stringPrototypeCharCodeAt path i) start path.length
        { startPart := start }) := by
  have visited := visitAll_dotted isSeparator start (parts.root ++ parts.front).length parts.component
  have seen (some_ : parts.component ≠ []) :=
    visited.matchedSlash.trans (List.isEmpty_eq_false_iff.mpr some_)
  rw [Cut.run_eq (extnameScan isSeparator) parts rfl seen]
  split
  case isTrue none_ =>
    have root : (parts.root ++ parts.front).length = start := by
      rw [none_, List.append_nil, parts.root_length]
    rwa [root] at visited ⊢
  case isFalse some_ =>
    have positive := List.length_pos_iff.mpr some_
    have behind : (parts.root ++ parts.front).length - 1 + 1 = (parts.root ++ parts.front).length := by
      rw [List.length_append]
      omega
    exact ⟨behind, visited.matchedSlash, visited.endIndex, visited.dots⟩

theorem extnameFrom_component {isSeparator : UInt8 → Bool} {start : Nat} {path : LuaString}
    (parts : Cut isSeparator start path) :
    ExtensionOf parts.component (extnameFrom isSeparator start path) := by
  have scanned := extnameScan_component parts
  unfold extnameFrom
  generalize (extnameScan isSeparator).run (fun i => stringPrototypeCharCodeAt path i) start
    path.length { startPart := start } = st at scanned
  obtain ⟨startPart, -, endIndex, dots⟩ := scanned
  rcases dots with ⟨none_, startDot, -⟩ | ⟨front, back, shape, none_, startDot, preDotState⟩
  · refine ⟨fun d _ last => ?_, fun _ => if_pos (.inl startDot)⟩
    exact absurd (List.mem_of_getElem? last.1) none_
  · have some_ : parts.component ≠ [] := by simp [shape]
    have last : LastDot parts.component front.length := lastDot_iff.mpr ⟨front, back, shape, none_, rfl⟩
    have size : parts.component.length = front.length + (back.length + 1) := by simp [shape]
    rw [if_neg some_] at endIndex
    -- The last condition says that the name is `..`.
    have dots : st.preDotState = 1 ∧ st.startDot = st.endIndex - 1 ∧ st.startDot = st.startPart + 1 ↔
        parts.component = ascii ".." := by
      rw [startDot, endIndex, startPart, size, preDotState, shape]
      constructor
      · rintro ⟨first, ends, second⟩
        obtain ⟨c, rfl⟩ := List.length_eq_one_iff.mp (show front.length = 1 by omega)
        have empty : back = [] := List.length_eq_zero_iff.mp (by simp at ends; omega)
        have dot : c = CHAR_DOT := by
          by_contra other
          simp [preDot, other] at first
        rw [dot, empty]
        decide
      · intro name
        have two : front ++ CHAR_DOT :: back = [CHAR_DOT, CHAR_DOT] := name.trans (by decide)
        rcases front with - | ⟨c, rest⟩
        · obtain rfl : back = [CHAR_DOT] := (List.cons.inj two).2
          exact absurd List.mem_cons_self none_
        · obtain ⟨rfl, rest_eq⟩ := List.cons.inj two
          obtain ⟨rfl, -⟩ : rest = [] ∧ _ := by simpa [List.append_eq_singleton_iff] using rest_eq
          obtain rfl : back = [] := (List.cons.inj rest_eq).2
          refine ⟨rfl, ?_, ?_⟩
          · simp
            omega
          · simp
    have state : st.preDotState = 0 ↔ front.length = 0 := by
      rw [preDotState]
      cases front with
      | nil => simp [preDot]
      | cons c rest =>
        rw [preDot]
        split <;> simp
    simp only [dots, state, show ¬st.startDot = -1 by omega, show ¬st.endIndex = -1 by omega, false_or]
    constructor
    · intro d positive here differ
      obtain rfl := lastDot_unique here last
      have inside : path.take ((parts.root ++ parts.front).length + parts.component.length) =
          (parts.root ++ parts.front) ++ parts.component := by
        rw [← List.length_append]
        exact (congrArg (List.take _) parts.text).trans List.take_left
      have kept : ¬(front.length = 0 ∨ parts.component = ascii "..") := by
        rintro (zero | name)
        · omega
        · exact differ name
      rw [if_neg kept, startDot, endIndex, slice_range, inside, List.drop_length_add_append]
    · rintro (first | name)
      · exact if_pos (.inl (first _ last))
      · exact if_pos (.inr name)

/-- In both conventions the extension is that of the last component. -/
theorem extname_spec (path : LuaString) :
    ExtensionOf (basename path) (extname path) ∧
      ExtensionOf (Win32.basename path) (Win32.extname path) := by
  constructor
  · let parts := cut isPosixPathSeparator 0 path (Nat.zero_le _)
    have name : basename path = parts.component := basenameFrom_none parts
    rw [name]
    exact extnameFrom_component parts
  · let parts := cut isPathSeparator _ path (Win32.driveLength_le path)
    have name : Win32.basename path = parts.component := by
      rw [Win32.basename_eq]
      exact basenameFrom_none parts
    have start := (if_congr (and_congr_right' and_comm) rfl rfl).trans (Win32.driveLength_eq path)
    have same : Win32.extname path = _ := congrArg (extnameFrom isPathSeparator · path) start
    rw [name, same]
    exact extnameFrom_component parts

end EvoRuntime.Path
