import EvoRuntime.Library.BackwardScan
import EvoRuntime.Path.Win32
import Mathlib.Data.List.DropRight

/-!
# `basename`

Both conventions scan the path from its end for the last component. With an extension
the same scan also matches the extension, and where the component ends before the
extension does, the code takes the end of the path for the end of the component.

## Main result

`basename_extension_iff`: the extension is removed as it should be, except where a
separator follows the component and the component is a proper suffix of the extension.

## Proof strategy

A path is cut into a root, what stands in front of the last component, the component,
and the separators behind it. `Cut.run_basenameScan` runs the loop over the four parts,
and `visitAll_match` says what the scan of the component leaves in the cursors.
-/
namespace EvoRuntime.Path

open Lua Library

/-- The locals of the loops. -/
structure Scan where
  start : Nat
  endIndex : Int := -1
  matchedSlash : Bool := true
  extIdx : Int := -1
  firstNonSlashEnd : Int := -1
  deriving DecidableEq, Repr

/-- A character of the component, where an extension is given. -/
def visitExtension (ext : LuaString) (i : Nat) (code : UInt8) (st : Scan) : Scan :=
  let st :=
    if st.firstNonSlashEnd = -1 then { st with matchedSlash := false, firstNonSlashEnd := i + 1 }
    else st
  if st.extIdx ≥ 0 then
    if some code = stringPrototypeCharCodeAt ext st.extIdx then
      let extIdx := st.extIdx - 1
      -- The extension is complete, so that the component ends in front of it.
      if extIdx = -1 then { st with extIdx := extIdx, endIndex := i } else { st with extIdx := extIdx }
    else { st with extIdx := -1, endIndex := st.firstNonSlashEnd }
  else st

/-- A character of the component, where no extension is given. -/
def visitPlain (i : Nat) (_code : UInt8) (st : Scan) : Scan :=
  if st.endIndex = -1 then { st with matchedSlash := false, endIndex := i + 1 } else st

/-- The loops stop at a separator in front of other characters, and visit the characters
that are no separators. -/
def basenameScan (isSeparator : UInt8 → Bool) (visit : Nat → UInt8 → Scan → Scan) :
    BackwardScan UInt8 Scan where
  isSeparator := isSeparator
  fresh := Scan.matchedSlash
  visit := visit
  stop i st := { st with start := i + 1 }

/-- The two loops of `basename` and what follows them, behind a root of `start` bytes. -/
def basenameFrom (isSeparator : UInt8 → Bool) (start : Nat) (path : LuaString)
    (ext : Option LuaString) : LuaString :=
  let plain :=
    let st := (basenameScan isSeparator visitPlain).run (fun i => stringPrototypeCharCodeAt path i)
      start path.length { start := start }
    if st.endIndex = -1 then [] else stringPrototypeSlice path st.start st.endIndex
  match ext with
  | none => plain
  | some ext =>
    if ext.length > 0 ∧ ext.length ≤ path.length then
      if ext = path then []
      else
        let st := (basenameScan isSeparator (visitExtension ext)).run
          (fun i => stringPrototypeCharCodeAt path i) start path.length
          { start := start, extIdx := ext.length - 1 }
        let endIndex :=
          if (st.start : Int) = st.endIndex then st.firstNonSlashEnd
          else if st.endIndex = -1 then path.length
          else st.endIndex
        stringPrototypeSlice path st.start endIndex
    else plain

def basename (path : LuaString) (ext : Option LuaString := none) : LuaString :=
  basenameFrom isPosixPathSeparator 0 path ext

/-- A drive in front is left out. -/
def Win32.basename (path : LuaString) (ext : Option LuaString := none) : LuaString :=
  let start :=
    if path.length ≥ 2 ∧ (stringPrototypeCharCodeAt path 0).any isWindowsDeviceRoot ∧
        stringPrototypeCharCodeAt path 1 = some CHAR_COLON then 2
    else 0
  basenameFrom isPathSeparator start path ext

example : basename (ascii "/aaa/bbb//") (some (ascii "bb")) = ascii "b" := by decide

example : Win32.basename (ascii "C:basename.ext\\") = ascii "basename.ext" := by decide

/-! ## The parts of a path -/

/-- The last component, in front of any separators at the end. -/
def lastComponent (isSeparator : UInt8 → Bool) (text : LuaString) : LuaString :=
  (text.rdropWhile isSeparator).rtakeWhile fun c => !isSeparator c

/-- A path cut around its last component. -/
structure Cut (isSeparator : UInt8 → Bool) (start : Nat) (path : LuaString) where
  root : LuaString
  front : LuaString
  component : LuaString
  separators : LuaString
  text : path = (root ++ front) ++ component ++ separators
  root_length : root.length = start
  separate : ∀ c ∈ separators, isSeparator c = true
  clean : ∀ c ∈ component, isSeparator c = false
  front_ends : front = [] ∨ ∃ before c, front = before ++ [c] ∧ isSeparator c = true
  front_empty : component = [] → front = []

def cut (isSeparator : UInt8 → Bool) (start : Nat) (path : LuaString) (inside : start ≤ path.length) :
    Cut isSeparator start path where
  root := path.take start
  front := ((path.drop start).rdropWhile isSeparator).rdropWhile fun c => !isSeparator c
  component := lastComponent isSeparator (path.drop start)
  separators := (path.drop start).rtakeWhile isSeparator
  text := by
    have parts (holds : UInt8 → Bool) (text : LuaString) :
        text.rdropWhile holds ++ text.rtakeWhile holds = text := List.rdropWhile_append_rtakeWhile
    calc path = path.take start ++ path.drop start := (List.take_append_drop start path).symm
      _ = path.take start ++ ((path.drop start).rdropWhile isSeparator ++
            (path.drop start).rtakeWhile isSeparator) := by rw [parts isSeparator]
      _ = path.take start ++ ((((path.drop start).rdropWhile isSeparator).rdropWhile
            fun c => !isSeparator c) ++ lastComponent isSeparator (path.drop start) ++
            (path.drop start).rtakeWhile isSeparator) := by
        rw [lastComponent, parts fun c => !isSeparator c]
      _ = _ := by simp only [List.append_assoc]
  root_length := by rw [List.length_take, Nat.min_eq_left inside]
  separate := fun c member => List.mem_rtakeWhile_imp member
  clean := fun c member => by simpa using List.mem_rtakeWhile_imp member
  front_ends := by
    generalize (path.drop start).rdropWhile isSeparator = text
    by_cases empty : (text.rdropWhile fun c => !isSeparator c) = []
    · exact Or.inl empty
    · have last := List.rdropWhile_last_not (fun c => !isSeparator c) text empty
      exact Or.inr ⟨_, _, (List.dropLast_append_getLast empty).symm, by simpa using last⟩
  front_empty := by
    intro empty
    -- The text in front of the separators would end with another separator.
    have nothing : (path.drop start).rdropWhile isSeparator = [] := by
      by_contra some_
      have last := List.rdropWhile_last_not isSeparator (path.drop start) some_
      have separates := List.rtakeWhile_eq_nil_iff.mp empty some_
      exact separates (by simpa using last)
    rw [nothing, List.rdropWhile_nil]

/-! ## The scan -/

section Scanning

variable {isSeparator : UInt8 → Bool} {path : LuaString} {bottom : Nat}
  {visit : Nat → UInt8 → Scan → Scan}

/-- A scan visits the last component and stops at the separator in front of it. -/
theorem Cut.run_eq {σ : Type} (scan : BackwardScan UInt8 σ) (parts : Cut scan.isSeparator bottom path)
    {st : σ} (only : scan.fresh st = true)
    (seen : parts.component ≠ [] →
      scan.fresh (scan.visitAll (parts.root ++ parts.front).length parts.component st) = false) :
    scan.run (fun i => stringPrototypeCharCodeAt path i) bottom path.length st =
      if parts.front = [] then scan.visitAll (parts.root ++ parts.front).length parts.component st
      else scan.stop ((parts.root ++ parts.front).length - 1)
        (scan.visitAll (parts.root ++ parts.front).length parts.component st) := by
  have above : bottom ≤ (parts.root ++ parts.front).length := by
    rw [List.length_append, parts.root_length]
    omega
  rw [scan.run_component (charCodeAt_eq path) parts.text above parts.clean parts.separate only]
  rcases parts.front_ends with none_ | ⟨before, c, shape, separates⟩
  -- The scan ends behind the root, where it has started.
  · have root : (parts.root ++ parts.front).length = bottom := by
      rw [none_, List.append_nil, parts.root_length]
    rw [root, BackwardScan.run_bottom, if_pos none_]
  · have some_ : parts.component ≠ [] := by
      intro empty
      simp [parts.front_empty empty] at shape
    have size : (parts.root ++ parts.front).length = (parts.root ++ before).length + 1 := by
      simp [shape, Nat.add_assoc]
    have text : path = (parts.root ++ before) ++ c :: (parts.component ++ parts.separators) :=
      parts.text.trans (by simp [shape])
    have inside : bottom ≤ (parts.root ++ before).length := by
      rw [List.length_append, parts.root_length]
      omega
    have stopped := seen some_
    rw [size] at stopped ⊢
    rw [scan.run_stop (charCodeAt_eq path) text inside separates stopped, if_neg (by simp [shape]),
      Nat.add_sub_cancel]

/-- The loop of `basename` finds the start of the component. -/
theorem Cut.run_basenameScan (parts : Cut isSeparator bottom path) {st : Scan}
    (only : st.matchedSlash = true)
    (kept : ((basenameScan isSeparator visit).visitAll (parts.root ++ parts.front).length
      parts.component st).start = bottom)
    (seen : parts.component ≠ [] → ((basenameScan isSeparator visit).visitAll
      (parts.root ++ parts.front).length parts.component st).matchedSlash = false) :
    (basenameScan isSeparator visit).run (fun i => stringPrototypeCharCodeAt path i) bottom
        path.length st =
      { (basenameScan isSeparator visit).visitAll (parts.root ++ parts.front).length
          parts.component st with
        start := (parts.root ++ parts.front).length } := by
  rw [Cut.run_eq (basenameScan isSeparator visit) parts only seen]
  split
  case isTrue none_ =>
    have root : (parts.root ++ parts.front).length = bottom := by
      rw [none_, List.append_nil, parts.root_length]
    rw [root] at kept ⊢
    generalize (basenameScan isSeparator visit).visitAll bottom parts.component st = visited at kept
    rw [← kept]
  case isFalse some_ =>
    have positive := List.length_pos_iff.mpr some_
    simp only [basenameScan, List.length_append]
    congr 1
    omega

end Scanning

/-! ## The cursors -/

theorem visitAll_plain (isSeparator : UInt8 → Bool) (offset : Nat) (c : UInt8) (text : LuaString)
    {st : Scan} (fresh : st.endIndex = -1) :
    (basenameScan isSeparator visitPlain).visitAll offset (c :: text) st =
      { st with matchedSlash := false, endIndex := (offset + text.length + 1 : Nat) } := by
  induction text generalizing offset c with
  | nil =>
    exact if_pos fresh
  | cons d text ih =>
    -- The last character of the text is visited first, and it fixes the end.
    have set_ : ((offset + 1 + text.length + 1 : Nat) : Int) ≠ -1 := by omega
    have same : offset + 1 + text.length + 1 = offset + (d :: text).length + 1 := by
      rw [List.length_cons]
      omega
    rw [BackwardScan.visitAll, ih, show (basenameScan isSeparator visitPlain).visit = visitPlain from rfl,
      visitPlain, if_neg set_, same]

/-- The cursors `extIdx` and `endIndex` behind a scanned text that ends at `stop`. -/
def matching (ext text : LuaString) (stop : Nat) : Int × Int :=
  if text.length < ext.length ∧ text <:+ ext then ((ext.length : Int) - 1 - text.length, -1)
  else if ext <:+ text then (-1, (stop : Int) - ext.length)
  else (-1, stop)

/-- What a scanned text leaves in the cursors. -/
structure Matched (ext text : LuaString) (stop : Nat) (st : Scan) : Prop where
  extIdx : st.extIdx = (matching ext text stop).1
  endIndex : st.endIndex = (matching ext text stop).2
  matchedSlash : st.matchedSlash = text.isEmpty
  firstNonSlashEnd : st.firstNonSlashEnd = if text = [] then -1 else (stop : Int)

/-- One more character in front of the scanned text moves the cursors on. -/
theorem matching_cons {ext text : LuaString} (c : UInt8) {i stop : Nat}
    (index : i + (text.length + 1) = stop) :
    matching ext (c :: text) stop =
      if (matching ext text stop).1 ≥ 0 then
        if some c = stringPrototypeCharCodeAt ext (matching ext text stop).1 then
          ((matching ext text stop).1 - 1,
            if (matching ext text stop).1 - 1 = -1 then (i : Int) else (matching ext text stop).2)
        else (-1, (stop : Int))
      else matching ext text stop := by
  have size : (c :: text).length = text.length + 1 := rfl
  by_cases open_ : text.length < ext.length ∧ text <:+ ext
  -- The text matches the end of the extension so far.
  · obtain ⟨shorter, before, shape⟩ := open_
    obtain ⟨before, d, rfl⟩ : ∃ front d, before = front ++ [d] := by
      rcases List.eq_nil_or_concat' before with rfl | ⟨front, d, rfl⟩
      · rw [← shape] at shorter
        simp at shorter
      · exact ⟨front, d, rfl⟩
    have ext_eq : ext = before ++ d :: text := by rw [← shape, List.append_assoc, List.singleton_append]
    have length : ext.length = before.length + (text.length + 1) := by simp [ext_eq]
    have now : matching ext text stop = ((before.length : Int), -1) := by
      have cursor : (ext.length : Int) - 1 - text.length = before.length := by omega
      rw [matching, if_pos ⟨shorter, before ++ [d], shape⟩, cursor]
    have code : stringPrototypeCharCodeAt ext before.length = some d := by
      rw [charCodeAt_eq, ext_eq]
      simp
    rw [now]
    simp only [code, Option.some.injEq, if_pos (Int.natCast_nonneg before.length)]
    by_cases same : c = d
    · subst same
      rw [if_pos rfl, matching, size]
      have suffix_ : c :: text <:+ ext := ⟨before, ext_eq.symm⟩
      by_cases complete : before.length = 0
      -- The extension is complete.
      · have whole : ext = c :: text := by rw [ext_eq, List.length_eq_zero_iff.mp complete, List.nil_append]
        have end_ : (before.length : Int) - 1 = -1 := by omega
        have start : (stop : Int) - ext.length = i := by omega
        rw [if_neg fun both => absurd both.1 (by omega), if_pos (whole ▸ List.suffix_rfl), start,
          if_pos end_, end_]
      · have end_ : (before.length : Int) - 1 ≠ -1 := by omega
        have cursor : (ext.length : Int) - 1 - (text.length + 1 : Nat) = before.length - 1 := by omega
        rw [if_pos ⟨by omega, suffix_⟩, cursor, if_neg end_]
    · have apart : ¬c :: text <:+ ext := by
        rintro ⟨front, whole⟩
        have heads := List.append_inj_right' (whole.trans ext_eq) rfl
        exact same (List.cons.inj heads).1
      have apart' : ¬ext <:+ c :: text := by
        rintro ⟨front, whole⟩
        have none_ : front = [] := by
          have lengths := congrArg List.length whole
          rw [List.length_append, size] at lengths
          exact List.length_eq_zero_iff.mp (by omega)
        rw [none_, List.nil_append] at whole
        exact apart (whole ▸ List.suffix_rfl)
      rw [if_neg same, matching, if_neg fun both => apart both.2, if_neg apart']
  -- The matching is over, and stays as it is.
  · have closed : (matching ext text stop).1 = -1 := by
      rw [matching, if_neg open_]
      split <;> rfl
    have longer : ¬((c :: text).length < ext.length ∧ c :: text <:+ ext) := by
      rintro ⟨shorter, inside⟩
      rw [size] at shorter
      exact open_ ⟨by omega, (List.suffix_cons c text).trans inside⟩
    have same : ext <:+ c :: text ↔ ext <:+ text := by
      rw [List.suffix_cons_iff]
      refine ⟨fun either => either.resolve_left ?_, Or.inr⟩
      rintro rfl
      exact open_ ⟨by rw [size]; omega, List.suffix_cons c text⟩
    rw [closed, if_neg (by omega), matching, if_neg longer, matching, if_neg open_]
    simp only [same]

/-- The first visited character fixes the end of the component. -/
theorem Matched.first {ext text : LuaString} {stop i : Nat} {st : Scan}
    (matched : Matched ext text stop st) (index : i + (text.length + 1) = stop) :
    (if st.firstNonSlashEnd = -1 then { st with matchedSlash := false, firstNonSlashEnd := i + 1 }
      else st) = { st with matchedSlash := false, firstNonSlashEnd := stop } := by
  have fixed := matched.firstNonSlashEnd
  have slash := matched.matchedSlash
  cases text with
  | nil =>
    have next : (i : Int) + 1 = stop := by simp at index; omega
    rw [if_pos (by rw [fixed, if_pos rfl]), next]
  | cons d rest =>
    rw [if_neg (List.cons_ne_nil d rest)] at fixed
    rw [List.isEmpty_cons] at slash
    rw [if_neg (by omega), ← fixed, ← slash]

/-- Visiting one more character. -/
theorem Matched.visit {ext text : LuaString} {stop i : Nat} {st : Scan}
    (matched : Matched ext text stop st) (c : UInt8) (index : i + (text.length + 1) = stop) :
    Matched ext (c :: text) stop (visitExtension ext i c st) := by
  have cursors : matching ext (c :: text) stop = _ := matching_cons c index
  have extIdx := matched.extIdx
  have endIndex := matched.endIndex
  rw [← extIdx, ← endIndex] at cursors
  unfold visitExtension
  simp only [matched.first index]
  have ended : (if c :: text = [] then -1 else (stop : Int)) = stop := if_neg (List.cons_ne_nil c text)
  by_cases open_ : st.extIdx ≥ 0
  · rw [if_pos open_] at cursors ⊢
    by_cases same : some c = stringPrototypeCharCodeAt ext st.extIdx
    · rw [if_pos same] at cursors ⊢
      by_cases complete : st.extIdx - 1 = -1
      · rw [if_pos complete] at cursors ⊢
        exact ⟨by rw [cursors], by rw [cursors], rfl, ended.symm⟩
      · rw [if_neg complete] at cursors ⊢
        exact ⟨by rw [cursors], by rw [cursors], rfl, ended.symm⟩
    · rw [if_neg same] at cursors ⊢
      exact ⟨by rw [cursors], by rw [cursors], rfl, ended.symm⟩
  · rw [if_neg open_] at cursors ⊢
    exact ⟨by rw [cursors, ← extIdx], by rw [cursors, ← endIndex], rfl, ended.symm⟩

theorem visitExtension_start (ext : LuaString) (i : Nat) (c : UInt8) (st : Scan) :
    (visitExtension ext i c st).start = st.start := by
  unfold visitExtension
  dsimp only
  repeat' split
  all_goals rfl

/-- What the scan of a component leaves in the cursors. -/
theorem visitAll_match (isSeparator : UInt8 → Bool) {ext : LuaString} (nonempty : ext ≠ [])
    (start offset : Nat) (text : LuaString) :
    Matched ext text (offset + text.length)
        ((basenameScan isSeparator (visitExtension ext)).visitAll offset text
          { start := start, extIdx := ext.length - 1 }) ∧
      ((basenameScan isSeparator (visitExtension ext)).visitAll offset text
        { start := start, extIdx := ext.length - 1 }).start = start := by
  induction text generalizing offset with
  | nil =>
    have fresh : matching ext [] (offset + ([] : LuaString).length) = ((ext.length : Int) - 1, -1) := by
      rw [matching, if_pos ⟨List.length_pos_iff.mpr nonempty, List.nil_suffix⟩]
      simp
    exact ⟨⟨by rw [fresh]; rfl, by rw [fresh]; rfl, rfl, rfl⟩, rfl⟩
  | cons c rest ih =>
    obtain ⟨matched, kept⟩ := ih (offset + 1)
    have stop : offset + 1 + rest.length = offset + (c :: rest).length := by
      rw [List.length_cons]
      omega
    rw [stop] at matched
    refine ⟨matched.visit c rfl, ?_⟩
    exact (visitExtension_start ext offset c _).trans kept

/-! ## The results of the loops -/

section Results

variable {isSeparator : UInt8 → Bool} {start : Nat} {path ext : LuaString}

theorem slice_behind {before behind : LuaString} (text : path = before ++ behind) (k : Nat) :
    stringPrototypeSlice path before.length (before.length + k : Nat) = behind.take k := by
  rw [slice_range, text, List.take_length_add_append, List.drop_left]

/-- A slice that begins with the component. -/
theorem slice_component (parts : Cut isSeparator start path) (k : Nat) :
    stringPrototypeSlice path (parts.root ++ parts.front).length
        ((parts.root ++ parts.front).length + k : Nat) =
      (parts.component ++ parts.separators).take k :=
  slice_behind (parts.text.trans (List.append_assoc _ _ _)) k

/-- Without an extension the result is the last component. -/
theorem basenameFrom_none (parts : Cut isSeparator start path) :
    basenameFrom isSeparator start path none = parts.component := by
  unfold basenameFrom
  cases shape : parts.component with
  | nil =>
    have run : (basenameScan isSeparator visitPlain).run _ start path.length { start := start } = _ :=
      parts.run_basenameScan rfl (by rw [shape]; rfl) fun some_ => absurd shape some_
    rw [shape, BackwardScan.visitAll] at run
    simp only [run, if_true]
  | cons c rest =>
    have visited : (basenameScan isSeparator visitPlain).visitAll (parts.root ++ parts.front).length
        parts.component { start := start } =
        { start := start, matchedSlash := false,
          endIndex := ((parts.root ++ parts.front).length + rest.length + 1 : Nat) } := by
      rw [shape]
      exact visitAll_plain isSeparator _ c rest rfl
    have run : (basenameScan isSeparator visitPlain).run _ start path.length { start := start } = _ :=
      parts.run_basenameScan rfl (by rw [visited]) fun _ => by rw [visited]
    rw [visited] at run
    have some_ : (((parts.root ++ parts.front).length + rest.length + 1 : Nat) : Int) ≠ -1 := by omega
    have cut := slice_component parts (rest.length + 1)
    rw [← Nat.add_assoc, shape, List.take_append_of_le_length (by simp),
      List.take_of_length_le (by simp)] at cut
    simp only [run, if_neg some_]
    exact cut

/-- With an extension, what the result is in each case of the matching. -/
theorem basenameFrom_some (parts : Cut isSeparator start path) (nonempty : ext ≠ [])
    (fits : ext.length ≤ path.length) (differ : ext ≠ path) :
    basenameFrom isSeparator start path (some ext) =
      if parts.component.length < ext.length ∧ parts.component <:+ ext then
        parts.component ++ parts.separators
      else if ext <:+ parts.component ∧ ext ≠ parts.component then
        parts.component.take (parts.component.length - ext.length)
      else parts.component := by
  obtain ⟨matched, kept⟩ :=
    visitAll_match isSeparator nonempty start (parts.root ++ parts.front).length parts.component
  have seen : parts.component ≠ [] →
      ((basenameScan isSeparator (visitExtension ext)).visitAll (parts.root ++ parts.front).length
        parts.component { start := start, extIdx := ext.length - 1 }).matchedSlash = false := fun some_ => by
    rw [matched.matchedSlash]
    simpa using some_
  have run : (basenameScan isSeparator (visitExtension ext)).run _ start path.length
      { start := start, extIdx := ext.length - 1 } = _ := parts.run_basenameScan rfl kept seen
  have size : path.length = (parts.root ++ parts.front).length +
      (parts.component ++ parts.separators).length :=
    (congrArg List.length parts.text).trans (by simp [Nat.add_assoc])
  have tail := slice_component parts
  unfold basenameFrom
  simp only [gt_iff_lt, List.length_pos_iff.mpr nonempty, fits, and_self, if_true, if_neg differ, run,
    matched.endIndex, matched.firstNonSlashEnd]
  generalize (parts.root ++ parts.front).length = offset at *
  by_cases open_ : parts.component.length < ext.length ∧ parts.component <:+ ext
  -- The component ends before the extension does.
  · have now : matching ext parts.component (offset + parts.component.length) =
        ((ext.length : Int) - 1 - parts.component.length, -1) := if_pos open_
    rw [now, if_pos open_, if_neg (by omega), if_pos rfl, size, tail, List.take_length]
  · have some_ : parts.component ≠ [] := by
      intro empty
      rw [empty] at open_
      exact open_ ⟨List.length_pos_iff.mpr nonempty, List.nil_suffix⟩
    have positive := List.length_pos_iff.mpr some_
    have whole := tail parts.component.length
    rw [List.take_left] at whole
    rw [if_neg open_, if_neg some_]
    by_cases inside : ext <:+ parts.component
    · have now : matching ext parts.component (offset + parts.component.length) =
          (-1, ((offset + parts.component.length : Nat) : Int) - ext.length) := by
        rw [matching, if_neg open_, if_pos inside]
      have shorter := inside.length_le
      rw [now]
      dsimp only
      by_cases equal : ext = parts.component
      -- The cursor went back to the start, so nothing is removed.
      · rw [if_pos (by rw [equal]; push_cast; omega), if_neg fun both => both.2 equal]
        exact whole
      · have strict : ext.length < parts.component.length := by
          apply Nat.lt_of_le_of_ne shorter
          intro same
          exact equal (inside.eq_of_length same)
        have index : ((offset + parts.component.length : Nat) : Int) - ext.length =
            (offset + (parts.component.length - ext.length) : Nat) := by omega
        rw [index, if_neg (by omega), if_neg (by omega), tail, if_pos ⟨inside, equal⟩,
          List.take_append_of_le_length (by omega)]
    · have now : matching ext parts.component (offset + parts.component.length) =
          (-1, ((offset + parts.component.length : Nat) : Int)) := by
        rw [matching, if_neg open_, if_neg inside]
      rw [now]
      dsimp only
      rw [if_neg (by push_cast; omega), if_neg (by omega), if_neg fun both => inside both.1]
      exact whole

/-- The path ends with a separator exactly if there are separators behind the component. -/
theorem ends_with_separator_iff (parts : Cut isSeparator start path)
    (root : ∀ c ∈ parts.root, isSeparator c = false) :
    path.getLast?.any isSeparator = true ↔ parts.separators ≠ [] := by
  have last : path.getLast? = _ := congrArg List.getLast? parts.text
  constructor
  · intro ends empty
    rw [last, empty, List.append_nil] at ends
    -- The last character would be one of the component or of the root.
    have inside : ∀ c ∈ ((parts.root ++ parts.front) ++ parts.component).getLast?,
        isSeparator c = false := by
      intro c member
      by_cases none_ : parts.component = []
      · rw [none_, parts.front_empty none_, List.append_nil, List.append_nil] at member
        exact root c (List.mem_of_getLast? member)
      · rw [List.getLast?_append_of_ne_nil _ none_] at member
        exact parts.clean c (List.mem_of_getLast? member)
    obtain ⟨c, member, separates⟩ := (Option.any_eq_true isSeparator _).mp ends
    rw [inside c member] at separates
    exact Bool.false_ne_true separates
  · intro nonempty
    rw [last, List.getLast?_append_of_ne_nil _ nonempty, List.getLast?_eq_some_getLast nonempty]
    exact parts.separate _ (List.getLast_mem nonempty)

/-- A path without separators is a component as a whole. -/
theorem Cut.component_whole (parts : Cut isSeparator start path)
    (clean : ∀ c ∈ path, isSeparator c = false) (atStart : start = 0) :
    parts.component = path ∧ parts.separators = [] := by
  have root : parts.root = [] := List.length_eq_zero_iff.mp (parts.root_length.trans atStart)
  have inside {c : UInt8} (member : c ∈ parts.front ∨ c ∈ parts.separators) : isSeparator c = false := by
    apply clean
    have text : c ∈ path ↔ c ∈ _ := iff_of_eq (congrArg (c ∈ ·) parts.text)
    apply text.mpr
    simp only [List.mem_append]
    tauto
  have none_ : parts.separators = [] := by
    apply List.eq_nil_iff_forall_not_mem.mpr
    intro c member
    exact Bool.false_ne_true ((inside (Or.inr member)).symm.trans (parts.separate c member))
  have front : parts.front = [] := by
    rcases parts.front_ends with empty | ⟨before, c, shape, separates⟩
    · exact empty
    · have member : c ∈ parts.front := by simp [shape]
      exact absurd ((inside (Or.inl member)).symm.trans separates) Bool.false_ne_true
  refine ⟨?_, none_⟩
  exact (parts.text.trans (by rw [root, front, none_]; simp)).symm

end Results

/-! ## Removing an extension -/

/-- A name with one extension removed from its end, unless the name is all extension.
A path that is nothing but the extension has nothing left. -/
def withoutExtension (path name ext : LuaString) : LuaString :=
  if ext <:+ name ∧ (name ≠ ext ∨ path = ext) then name.take (name.length - ext.length) else name

/-- `basename` of a path removes an extension from the name that it returns without one. -/
structure RemovesExtension (isSeparator : UInt8 → Bool) (basename : Option LuaString → LuaString)
    (path ext : LuaString) : Prop where
  result : basename (some ext) = withoutExtension path (basename none) ext
  clean : ∀ c ∈ basename (some ext), isSeparator c = false
  is_prefix : basename (some ext) <+: basename none

/-- The scan of the last component ends in the middle of the extension, and separators
follow the component. -/
def EndsInExtension (isSeparator : UInt8 → Bool) (start : Nat) (path ext : LuaString) : Prop :=
  ext.length ≤ path.length ∧ path.getLast?.any isSeparator = true ∧
    lastComponent isSeparator (path.drop start) <:+ ext ∧
    lastComponent isSeparator (path.drop start) ≠ ext

theorem withoutExtension_prefix (path name ext : LuaString) :
    withoutExtension path name ext <+: name := by
  unfold withoutExtension
  split
  · exact List.take_prefix _ _
  · exact List.prefix_rfl

/-- A result that is as it should be has the other two properties. -/
theorem removesExtension_iff {isSeparator : UInt8 → Bool} {basename : Option LuaString → LuaString}
    {path ext : LuaString} (clean : ∀ c ∈ basename none, isSeparator c = false) :
    RemovesExtension isSeparator basename path ext ↔
      basename (some ext) = withoutExtension path (basename none) ext := by
  constructor
  · exact fun removes => removes.result
  · intro result
    have inside := withoutExtension_prefix path (basename none) ext
    rw [← result] at inside
    exact ⟨result, fun c member => clean c (inside.subset member), inside⟩

theorem basenameFrom_iff {isSeparator : UInt8 → Bool} {start : Nat} {path ext : LuaString}
    (inside : start ≤ path.length) (root : ∀ c ∈ path.take start, isSeparator c = false)
    (nonempty : ext ≠ []) (extClean : ∀ c ∈ ext, isSeparator c = false)
    (whole : ext = path → start = 0) :
    RemovesExtension isSeparator (basenameFrom isSeparator start path) path ext ↔
      ¬EndsInExtension isSeparator start path ext := by
  let parts := cut isSeparator start path inside
  have component : lastComponent isSeparator (path.drop start) = parts.component := rfl
  have plain := basenameFrom_none parts
  have ends := ends_with_separator_iff parts root
  have size : parts.component.length ≤ path.length := by
    have sizes := congrArg List.length parts.text
    rw [List.length_append, List.length_append] at sizes
    omega
  rw [removesExtension_iff (by rw [plain]; exact parts.clean), plain, EndsInExtension, component, ends]
  by_cases fits : ext.length ≤ path.length
  · by_cases equal : ext = path
    -- The path is the extension, and without separators it is a component as a whole.
    · have alone := parts.component_whole (by rw [← equal]; exact extClean) (whole equal)
      have empty : basenameFrom isSeparator start path (some ext) = [] :=
        (if_pos ⟨List.length_pos_iff.mpr nonempty, fits⟩).trans (if_pos equal)
      rw [empty, withoutExtension, alone.1, alone.2, equal,
        if_pos ⟨List.suffix_rfl, Or.inr rfl⟩, Nat.sub_self, List.take_zero]
      simp
    · rw [basenameFrom_some parts nonempty fits equal]
      by_cases open_ : parts.component.length < ext.length ∧ parts.component <:+ ext
      -- The component is a proper suffix of the extension.
      · have longer : ¬ext <:+ parts.component := fun suffix_ =>
          absurd suffix_.length_le (by omega)
        have differ : parts.component ≠ ext := by
          intro same
          rw [same] at open_
          exact Nat.lt_irrefl _ open_.1
        rw [if_pos open_, withoutExtension, if_neg fun both => longer both.1]
        constructor
        · intro same overrun
          exact overrun.2.1 (List.append_right_eq_self.mp same)
        · intro fine
          apply List.append_right_eq_self.mpr
          by_contra some_
          exact fine ⟨fits, some_, open_.2, differ⟩
      · have fine : ¬(ext.length ≤ path.length ∧ parts.separators ≠ [] ∧ parts.component <:+ ext ∧
            parts.component ≠ ext) := by
          rintro ⟨-, -, suffix_, differ⟩
          apply open_
          refine ⟨Nat.lt_of_le_of_ne suffix_.length_le fun same => ?_, suffix_⟩
          exact differ (suffix_.eq_of_length same)
        have same : (ext <:+ parts.component ∧ (parts.component ≠ ext ∨ path = ext)) ↔
            (ext <:+ parts.component ∧ ext ≠ parts.component) := by
          rw [or_iff_left (Ne.symm equal), ne_comm]
        rw [if_neg open_, withoutExtension, if_congr same rfl rfl]
        simp only [fine, not_false_iff]
  -- The extension is longer than the path, and there is nothing to remove.
  · have longer : ¬ext <:+ parts.component := fun suffix_ => by
      have short := suffix_.length_le
      omega
    have unfit : basenameFrom isSeparator start path (some ext) = basenameFrom isSeparator start path none :=
      if_neg fun both => fits both.2
    rw [unfit, plain, withoutExtension, if_neg fun both => longer both.1]
    simp only [fits, false_and, not_false_iff]

/-- The check for a drive in front of a path. -/
theorem Win32.driveLength_eq (path : LuaString) :
    (if path.length ≥ 2 ∧ (stringPrototypeCharCodeAt path 0).any isWindowsDeviceRoot ∧
      stringPrototypeCharCodeAt path 1 = some CHAR_COLON then 2 else 0) =
      if Win32.startsWithDrive path then 2 else 0 := by
  match path with
  | [] => rfl
  | [a] => simp [Win32.startsWithDrive]
  | a :: b :: rest => simp [Win32.startsWithDrive]

theorem Win32.driveLength_le (path : LuaString) :
    (if Win32.startsWithDrive path then 2 else 0) ≤ path.length := by
  split
  case isTrue drive =>
    obtain ⟨letter, rest, -, rfl⟩ := Win32.exists_drive drive
    simp
  case isFalse => exact Nat.zero_le _

theorem Win32.basename_eq (path : LuaString) (ext : Option LuaString) : Win32.basename path ext =
    basenameFrom isPathSeparator (if Win32.startsWithDrive path then 2 else 0) path ext := by
  rw [← Win32.driveLength_eq]
  rfl

/-- In both conventions an extension is removed as it should be, unless the path ends
with a separator and its last component is a proper suffix of the extension. -/
theorem basename_extension_iff (path ext : LuaString) (nonempty : ext ≠ []) (colon : CHAR_COLON ∉ ext) :
    ((∀ c ∈ ext, isPosixPathSeparator c = false) →
      (RemovesExtension isPosixPathSeparator (fun e => basename path e) path ext ↔
        ¬EndsInExtension isPosixPathSeparator 0 path ext)) ∧
    ((∀ c ∈ ext, isPathSeparator c = false) →
      (RemovesExtension isPathSeparator (fun e => Win32.basename path e) path ext ↔
        ¬EndsInExtension isPathSeparator (if Win32.startsWithDrive path then 2 else 0) path ext)) := by
  constructor
  · intro clean
    exact basenameFrom_iff (Nat.zero_le _) (by simp) nonempty clean fun _ => rfl
  · intro clean
    have whole : (fun e => Win32.basename path e) =
        basenameFrom isPathSeparator (if Win32.startsWithDrive path then 2 else 0) path :=
      funext (Win32.basename_eq path)
    rw [whole]
    by_cases drive : Win32.startsWithDrive path = true
    · obtain ⟨letter, rest, device, rfl⟩ := Win32.exists_drive drive
      have root : ∀ c ∈ (letter :: CHAR_COLON :: rest).take 2, isPathSeparator c = false := by
        intro c member
        rcases List.mem_pair.mp member with rfl | rfl
        · exact Win32.not_separator_of_drive drive
        · decide
      rw [if_pos drive]
      apply basenameFrom_iff (by simp) root nonempty clean
      rintro rfl
      exact absurd (by simp) colon
    · rw [if_neg drive]
      exact basenameFrom_iff (Nat.zero_le _) (by simp) nonempty clean fun _ => rfl

/-- Both parts of the theorem for a path with an extension. -/
theorem basename_extension_iff_js :
    (RemovesExtension isPosixPathSeparator (fun e => basename (ascii "a/b.js//") e) (ascii "a/b.js//")
        (ascii ".js") ↔
      ¬EndsInExtension isPosixPathSeparator 0 (ascii "a/b.js//") (ascii ".js")) ∧
    (RemovesExtension isPathSeparator (fun e => Win32.basename (ascii "a/b.js//") e)
        (ascii "a/b.js//") (ascii ".js") ↔
      ¬EndsInExtension isPathSeparator (if Win32.startsWithDrive (ascii "a/b.js//") then 2 else 0)
        (ascii "a/b.js//") (ascii ".js")) :=
  ⟨(basename_extension_iff _ _ (by decide) (by decide)).1 (clean_of_any rfl),
    (basename_extension_iff _ _ (by decide) (by decide)).2 (clean_of_any rfl)⟩

/-- The separator behind `b` is returned, since `b` is the end of the extension. -/
theorem basename_overruns :
    ascii "xb" ≠ [] ∧ CHAR_COLON ∉ ascii "xb" ∧ (∀ c ∈ ascii "xb", isPosixPathSeparator c = false) ∧
      ¬RemovesExtension isPosixPathSeparator (fun e => basename (ascii "a/b/") e) (ascii "a/b/")
        (ascii "xb") := by
  refine ⟨by decide, by decide, clean_of_any rfl, fun removes => ?_⟩
  exact absurd removes.result (by decide)

end EvoRuntime.Path
