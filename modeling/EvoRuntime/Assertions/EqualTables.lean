import EvoRuntime.Library.FallibleSort
import EvoRuntime.Lua.Strings
import Mathlib.Data.List.Lex
import Mathlib.Data.List.Perm.Basic
import Mathlib.Data.Set.List

/-!
# `assertions.assertEquals`

Two tables are compared by their sorted keys, and the values under the keys are compared in
the same way. The numbers are those other than NaN, so they are ordered and two of them are
equal or not; they are an argument of the model. How values are shown in messages is up to
the surroundings.

## Main result

`assertEquals_exact`: when the assertion accepts exactly the structurally equal values.

## Proof strategy

`table.sort` compares keys, and it raises an error for two keys that are not both numbers or
both strings. `assertEquals_isOk_iff` says by recursion on the first value that everything
else is compared as it should be.
-/
namespace EvoRuntime.Assertions

open Lua Library

/-! ## Values -/

section Values

variable (Number : Type)

inductive Key
  | boolean (b : Bool)
  | number (n : Number)
  | string (s : LuaString)
  deriving DecidableEq

/-- A table has a value for each of its keys, which are in the order of `pairs`. What it has
under other keys does not matter. -/
inductive Value
  | nil
  | boolean (b : Bool)
  | number (n : Number)
  | string (s : LuaString)
  | table (keys : List (Key Number)) (distinct : keys.Nodup) (value : Key Number → Value)

structure Surroundings where
  /-- `debug.tostring(value)` -/
  tostring : Value Number → LuaString
  /-- What `%s` stands for in `string.format`. -/
  format : Value Number → LuaString
  computeDiffString : Value Number → Value Number → LuaString
  /-- The position that `error` puts in front of a message. -/
  position : LuaString

end Values

variable {Number : Type}

/-- `type(value)` -/
def Value.type : Value Number → LuaString
  | .nil => ascii "nil"
  | .boolean _ => ascii "boolean"
  | .number _ => ascii "number"
  | .string _ => ascii "string"
  | .table .. => ascii "table"

def Key.type : Key Number → LuaString
  | .boolean _ => ascii "boolean"
  | .number _ => ascii "number"
  | .string _ => ascii "string"

/-! ## Structural equality -/

/-- Tables are equal when they have the same keys and equal values under each of them. -/
def StructurallyEqual : Value Number → Value Number → Prop
  | .nil, .nil => True
  | .boolean a, .boolean b => a = b
  | .number m, .number n => m = n
  | .string s, .string t => s = t
  | .table keys _ value, .table keys' _ value' =>
    (∀ key, key ∈ keys ↔ key ∈ keys') ∧ ∀ key ∈ keys, StructurallyEqual (value key) (value' key)
  | _, _ => False

/-- At most one key, or only numbers, or only strings. -/
def KeysSortable (keys : List (Key Number)) : Prop :=
  keys.length ≤ 1 ∨ (∀ key ∈ keys, ∃ n, key = .number n) ∨ ∀ key ∈ keys, ∃ s, key = .string s

/-- The keys of every table in the value can be sorted. -/
def Sortable : Value Number → Prop
  | .table keys _ value => KeysSortable keys ∧ ∀ key ∈ keys, Sortable (value key)
  | _ => True

theorem structurallyEqual_refl (a : Value Number) : StructurallyEqual a a := by
  induction a with
  | nil => trivial
  | boolean | number | string => rfl
  | table keys distinct value ih => exact ⟨fun _ => Iff.rfl, fun key _ => ih key⟩

theorem structurallyEqual_symm {a b : Value Number} (equal : StructurallyEqual a b) : StructurallyEqual b a := by
  induction a generalizing b with
  | nil => cases b <;> exact equal
  | boolean | number | string => cases b <;> first | exact equal.symm | exact equal.elim
  | table keys distinct value ih =>
    cases b with
    | table keys' distinct' value' =>
      exact ⟨fun key => (equal.1 key).symm, fun key member => ih key (equal.2 key ((equal.1 key).mpr member))⟩
    | _ => exact equal.elim

/-! ## Assertions about scalars -/

section Scalars

variable (host : Surroundings Number)

def expected (firstValue secondValue : Value Number) : LuaString :=
  ascii "ASSERTION FAILURE: Expected " ++ host.tostring secondValue ++ ascii " but got " ++
    host.tostring firstValue

/-- The assertions about scalars return true. -/
def assertEqualBooleans (first second : Bool) : Except LuaString (Option Bool) :=
  if first ≠ second then .error (expected host (.boolean first) (.boolean second)) else .ok (some true)

@[simp] theorem assertEqualBooleans_isOk {a b : Bool} : (assertEqualBooleans host a b).isOk = true ↔ a = b := by
  by_cases same : a = b <;> simp [assertEqualBooleans, same, Except.isOk, Except.toBool]

def assertEqualStrings (first second : LuaString) : Except LuaString (Option Bool) :=
  if first ≠ second then
    .error (host.position ++ ascii "ASSERTION FAILURE: Expected " ++ second ++ ascii " but got " ++ first)
  else
    .ok (some true)

@[simp] theorem assertEqualStrings_isOk {s t : LuaString} : (assertEqualStrings host s t).isOk = true ↔ s = t := by
  by_cases same : s = t <;> simp [assertEqualStrings, same, Except.isOk, Except.toBool]

variable [LinearOrder Number]

/-- `assertEqualNumbers` without a delta. -/
def assertEqualNumbers (first second : Number) : Except LuaString (Option Bool) :=
  if first ≠ second then .error (expected host (.number first) (.number second)) else .ok (some true)

@[simp] theorem assertEqualNumbers_isOk {m n : Number} : (assertEqualNumbers host m n).isOk = true ↔ m = n := by
  by_cases same : m = n <;> simp [assertEqualNumbers, same, Except.isOk, Except.toBool]

end Scalars

/-! ## Sorting keys -/

/-- Two keys that can be compared. -/
def Comparable (first second : Key Number) : Prop :=
  (∃ m n, first = .number m ∧ second = .number n) ∨ ∃ s t, first = .string s ∧ second = .string t

theorem comparable_symm (first second : Key Number) (comparable : Comparable first second) :
    Comparable second first := by
  rcases comparable with ⟨m, n, rfl, rfl⟩ | ⟨s, t, rfl, rfl⟩
  · exact .inl ⟨n, m, rfl, rfl⟩
  · exact .inr ⟨t, s, rfl, rfl⟩

theorem comparable_trans (first second third : Key Number) (left : Comparable first second)
    (right : Comparable second third) : Comparable first third := by
  rcases left with ⟨m, n, rfl, rfl⟩ | ⟨s, t, rfl, rfl⟩ <;> rcases right with ⟨_, n', same, rfl⟩ | ⟨_, t', same, rfl⟩
  · exact .inl ⟨m, n', rfl, rfl⟩
  · exact nomatch same
  · exact nomatch same
  · exact .inr ⟨s, t', rfl, rfl⟩

/-- Strings are ordered by their bytes. -/
local instance byteOrder : LinearOrder UInt8 where
  le_refl := UInt8.le_refl
  le_trans _ _ _ := UInt8.le_trans
  le_antisymm _ _ := UInt8.le_antisymm
  le_total := UInt8.le_total
  lt_iff_le_not_ge _ _ := by
    rw [UInt8.not_le]
    exact ⟨fun less => ⟨UInt8.le_of_lt less, less⟩, And.right⟩
  toDecidableLE := inferInstance

variable [LinearOrder Number]

/-- `first < second` -/
def lessThan (first second : Key Number) : Except LuaString Bool :=
  match first, second with
  | .number m, .number n => .ok (decide (m < n))
  | .string s, .string t => .ok (decide (s < t))
  | _, _ =>
    if first.type = second.type then
      .error (ascii "attempt to compare two " ++ first.type ++ ascii " values")
    else
      .error (ascii "attempt to compare " ++ first.type ++ ascii " with " ++ second.type)

/-- `table.sort(keys)`. Which keys are compared does not matter, as a sort that comes to its
end has compared each of them. -/
def tableSort (keys : List (Key Number)) : Except LuaString (List (Key Number)) :=
  FallibleSort.sort lessThan keys

/-! ## Assertions about tables -/

section Tables

variable (host : Surroundings Number)

/-- The message with the difference of two tables. -/
def tablesDiffer (firstValue secondValue : Value Number) : LuaString :=
  expected host firstValue secondValue ++ ascii "\n" ++ host.computeDiffString firstValue secondValue

/-- What `assertEqualTables` does with the sorted keys; `assertEntry` compares the values under
two keys. -/
def assertEqualEntries (firstValue secondValue : Value Number) (firstValueKeys secondValueKeys : List (Key Number))
    (assertEntry : Key Number → Key Number → Except LuaString Unit) : Except LuaString (Option Bool) :=
  if firstValueKeys.length ≠ secondValueKeys.length then
    .error (tablesDiffer host firstValue secondValue)
  else do
    forM (firstValueKeys.zip secondValueKeys) fun (firstKey, secondKey) =>
      if firstKey ≠ secondKey then
        .error (tablesDiffer host firstValue secondValue)
      else
        assertEntry firstKey secondKey
    return none

/-- `assertEqualTables` for tables with these keys. -/
def assertEqualTables (firstValue secondValue : Value Number) (firstKeys secondKeys : List (Key Number))
    (assertEntry : Key Number → Key Number → Except LuaString Unit) : Except LuaString (Option Bool) := do
  let firstValueKeys ← tableSort firstKeys
  let secondValueKeys ← tableSort secondKeys
  assertEqualEntries host firstValue secondValue firstValueKeys secondValueKeys assertEntry

def assertEquals : Value Number → Value Number → Except LuaString (Option Bool)
  | .nil, .nil => .ok (some true)
  | .boolean first, .boolean second => assertEqualBooleans host first second
  | .string first, .string second => assertEqualStrings host first second
  | .number first, .number second => assertEqualNumbers host first second
  | .table keys distinct value, .table keys' distinct' value' =>
    assertEqualTables host (.table keys distinct value) (.table keys' distinct' value') keys keys'
      fun firstKey secondKey => discard (assertEquals (value firstKey) (value' secondKey))
  | firstValue, secondValue => .error (ascii "ASSERTION FAILURE: Expected " ++ host.format secondValue ++
      ascii " (a " ++ secondValue.type ++ ascii " value) but got " ++ host.format firstValue ++
      ascii " (a " ++ firstValue.type ++ ascii " value)")

end Tables

/-! ## Which keys can be sorted -/

theorem comparable_of_lessThan (first second : Key Number) (before : Bool)
    (compared : lessThan first second = .ok before) : Comparable first second := by
  match first, second with
  | .number m, .number n => exact .inl ⟨m, n, rfl, rfl⟩
  | .string s, .string t => exact .inr ⟨s, t, rfl, rfl⟩
  | .boolean _, .boolean _ | .boolean _, .number _ | .boolean _, .string _ | .number _, .boolean _
  | .number _, .string _ | .string _, .boolean _ | .string _, .number _ =>
    simp [lessThan, Key.type, ascii] at compared

variable {keys keys' sorted : List (Key Number)}

theorem keysSortable_of_tableSort (ran : tableSort keys = .ok sorted) : KeysSortable keys := by
  rcases FallibleSort.sort_same_kind comparable_symm comparable_trans comparable_of_lessThan ran with
    short | comparable
  · exact .inl short
  · cases keys with
    | nil => exact .inl (Nat.zero_le 1)
    | cons first rest =>
      -- The kind of the first key is the kind of all keys.
      refine .inr ((comparable first List.mem_cons_self first List.mem_cons_self).imp ?_ ?_)
      · rintro ⟨m, -, rfl, -⟩ key member
        rcases comparable _ List.mem_cons_self key member with ⟨_, n, -, same⟩ | ⟨_, _, other, -⟩
        · exact ⟨n, same⟩
        · exact nomatch other
      · rintro ⟨s, -, rfl, -⟩ key member
        rcases comparable _ List.mem_cons_self key member with ⟨_, _, other, -⟩ | ⟨_, t, -, same⟩
        · exact nomatch other
        · exact ⟨t, same⟩

/-- Keys of one kind are sorted in the same way in every order. -/
theorem tableSort_map {β : Type} [LinearOrder β] {f : β → Key Number} (injective : Function.Injective f)
    (compares : ∀ a b, lessThan (f a) (f b) = .ok (decide (a < b))) (all : ∀ key ∈ keys, ∃ b, key = f b)
    (perm : keys.Perm keys') : ∃ sorted, tableSort keys = .ok sorted ∧ tableSort keys' = .ok sorted := by
  have values : ∀ key ∈ keys, key ∈ Set.range f := fun key member => (all key member).imp fun _ => Eq.symm
  have values' : ∀ key ∈ keys', key ∈ Set.range f := fun key member => values key (perm.mem_iff.mpr member)
  obtain ⟨l, rfl⟩ := (Set.range_list_map f).ge values
  obtain ⟨l', rfl⟩ := (Set.range_list_map f).ge values'
  refine ⟨_, FallibleSort.sort_map compares l, ?_⟩
  rw [tableSort, ← FallibleSort.sort_map_perm compares ((List.map_perm_map_iff injective).mp perm)]
  exact FallibleSort.sort_map compares l

theorem tableSort_perm (sortable : KeysSortable keys) (perm : keys.Perm keys') :
    ∃ sorted, tableSort keys = .ok sorted ∧ tableSort keys' = .ok sorted := by
  rcases sortable with short | numbers | strings
  · cases keys with
    | nil => exact ⟨[], rfl, by rw [List.nil_perm.mp perm]; rfl⟩
    | cons key rest =>
      obtain rfl : rest = [] := List.eq_nil_of_length_eq_zero (Nat.le_zero.mp (Nat.le_of_succ_le_succ short))
      exact ⟨[key], rfl, by rw [← List.singleton_perm.mp perm]; rfl⟩
  · exact tableSort_map (fun _ _ same => Key.number.inj same) (fun _ _ => rfl) numbers perm
  · exact tableSort_map (fun _ _ same => Key.string.inj same) (fun _ _ => by simp [lessThan]) strings perm

/-! ## Tables that are accepted -/

section Accepting

variable {ε α β : Type}

theorem bind_isOk {m : Except ε α} {f : α → Except ε β} :
    (m >>= f).isOk = true ↔ ∃ a, m = .ok a ∧ (f a).isOk = true := by
  cases m with
  | error e => simp [bind, Except.bind, Except.isOk, Except.toBool]
  | ok a => simp [bind, Except.bind]

@[simp] theorem bind_pure_isOk {m : Except ε α} {f : α → β} : (m >>= fun a => pure (f a)).isOk = m.isOk := by
  cases m <;> rfl

@[simp] theorem discard_isOk {m : Except ε α} : (discard m).isOk = m.isOk := by
  cases m <;> rfl

variable {e : ε} {assertEntry : Key Number → Key Number → Except ε Unit}

theorem forM_zip_isOk {firstKeys secondKeys : List (Key Number)} (length : firstKeys.length = secondKeys.length) :
    (forM (firstKeys.zip secondKeys) fun (firstKey, secondKey) =>
      if firstKey ≠ secondKey then Except.error e else assertEntry firstKey secondKey).isOk = true ↔
    firstKeys = secondKeys ∧ ∀ key ∈ firstKeys, (assertEntry key key).isOk = true := by
  induction firstKeys generalizing secondKeys with
  | nil => simp [List.length_eq_zero_iff.mp length.symm, pure, Except.pure, Except.isOk, Except.toBool]
  | cons first rest ih =>
    obtain ⟨second, others, rfl⟩ := List.exists_cons_of_length_eq_add_one length.symm
    rw [List.zip_cons_cons, List.forM_cons, bind_isOk]
    have tail := ih (Nat.succ.inj length)
    by_cases same : first = second
    · subst same
      simp only [ne_eq, not_true_eq_false, if_false, tail]
      cases entry : assertEntry first first <;> simp [entry, Except.isOk, Except.toBool]
    · simp [same]

end Accepting

variable {host : Surroundings Number} {first second : Value Number}
  {assertEntry : Key Number → Key Number → Except LuaString Unit}

theorem assertEqualEntries_isOk {firstKeys secondKeys : List (Key Number)} :
    (assertEqualEntries host first second firstKeys secondKeys assertEntry).isOk = true ↔
      firstKeys = secondKeys ∧ ∀ key ∈ firstKeys, (assertEntry key key).isOk = true := by
  rw [assertEqualEntries]
  by_cases length : firstKeys.length = secondKeys.length
  · rw [if_neg (not_not_intro length), bind_pure_isOk, forM_zip_isOk length]
  · have differ : firstKeys ≠ secondKeys := fun same => length (congrArg List.length same)
    simp [length, differ, Except.isOk, Except.toBool]

/-- Both tables are sorted to the same keys. -/
theorem assertEqualTables_isOk :
    (assertEqualTables host first second keys keys' assertEntry).isOk = true ↔
      ∃ sorted, tableSort keys = .ok sorted ∧ tableSort keys' = .ok sorted ∧
        ∀ key ∈ sorted, (assertEntry key key).isOk = true := by
  simp only [assertEqualTables, bind_isOk, assertEqualEntries_isOk]
  constructor
  · rintro ⟨firstKeys, ran, _, ran', rfl, entries⟩
    exact ⟨firstKeys, ran, ran', entries⟩
  · rintro ⟨sorted, ran, ran', entries⟩
    exact ⟨sorted, ran, sorted, ran', rfl, entries⟩

/-! ## Accepted values -/

theorem assertEquals_isOk_iff (a b : Value Number) :
    (assertEquals host a b).isOk = true ↔ StructurallyEqual a b ∧ Sortable a := by
  induction a generalizing b with
  | nil => cases b <;> simp [assertEquals, StructurallyEqual, Sortable, Except.isOk, Except.toBool]
  | boolean | number | string =>
    cases b <;> simp [assertEquals, StructurallyEqual, Sortable] <;> simp [Except.isOk, Except.toBool]
  | table keys distinct value ih =>
    cases b with
    | table keys' distinct' value' =>
      simp only [assertEquals, assertEqualTables_isOk, discard_isOk, ih, StructurallyEqual, Sortable]
      constructor
      · rintro ⟨sorted, ran, ran', entries⟩
        have same := FallibleSort.sort_perm ran
        have same' := FallibleSort.sort_perm ran'
        have entry : ∀ key ∈ keys, StructurallyEqual (value key) (value' key) ∧ Sortable (value key) :=
          fun key member => entries key (same.mem_iff.mpr member)
        exact ⟨⟨fun key => (same.symm.trans same').mem_iff, fun key member => (entry key member).1⟩,
          keysSortable_of_tableSort ran, fun key member => (entry key member).2⟩
      · rintro ⟨⟨sameKeys, equal⟩, sortable, sortables⟩
        -- The two tables have the same keys, perhaps in another order.
        obtain ⟨sorted, ran, ran'⟩ :=
          tableSort_perm sortable ((List.perm_ext_iff_of_nodup distinct distinct').mpr sameKeys)
        refine ⟨sorted, ran, ran', fun key member => ?_⟩
        have inside := (FallibleSort.sort_perm ran).mem_iff.mp member
        exact ⟨equal key inside, sortables key inside⟩
    | _ => simp [assertEquals, StructurallyEqual, Except.isOk, Except.toBool]

theorem keysSortable_perm (perm : keys.Perm keys') (sortable : KeysSortable keys) : KeysSortable keys' := by
  obtain ⟨sorted, -, ran⟩ := tableSort_perm sortable perm
  exact keysSortable_of_tableSort ran

theorem sortable_of_structurallyEqual {a b : Value Number} (equal : StructurallyEqual a b) (sortable : Sortable a) :
    Sortable b := by
  induction a generalizing b with
  | nil | boolean | number | string => cases b <;> trivial
  | table keys distinct value ih =>
    cases b with
    | table keys' distinct' value' =>
      have perm := (List.perm_ext_iff_of_nodup distinct distinct').mpr equal.1
      refine ⟨keysSortable_perm perm sortable.1, fun key member => ?_⟩
      have inside := perm.mem_iff.mpr member
      exact ih key (equal.2 key inside) (sortable.2 key inside)
    | _ => exact equal.elim

/-- The assertion accepts structurally equal values when the keys of all their tables can be
sorted. Two values are accepted in both orders or in neither. -/
theorem assertEquals_exact (host : Surroundings Number) (a b : Value Number) :
    (((assertEquals host a b).isOk = true ↔ StructurallyEqual a b) ↔ (StructurallyEqual a b → Sortable a)) ∧
      ((assertEquals host a a).isOk = true ↔ Sortable a) ∧
      ((assertEquals host a b).isOk = true ↔ (assertEquals host b a).isOk = true) := by
  refine ⟨?_, ?_, ?_⟩
  · rw [assertEquals_isOk_iff, and_iff_left_iff_imp]
  · rw [assertEquals_isOk_iff, and_iff_right (structurallyEqual_refl a)]
  · rw [assertEquals_isOk_iff, assertEquals_isOk_iff]
    constructor
    · exact fun ⟨equal, sortable⟩ => ⟨structurallyEqual_symm equal, sortable_of_structurallyEqual equal sortable⟩
    · exact fun ⟨equal, sortable⟩ => ⟨structurallyEqual_symm equal, sortable_of_structurallyEqual equal sortable⟩

/-- `{ [1] = true, a = true }` -/
def mixedKeys : Value ℕ :=
  .table [.number 1, .string (ascii "a")] (by decide) fun _ => .boolean true

def plainSurroundings : Surroundings ℕ where
  tostring value := value.type
  format value := value.type
  computeDiffString _ _ := []
  position := []

/-- A table with a number and a string as keys is not even equal to itself. -/
theorem not_assertEquals_mixedKeys :
    assertEquals plainSurroundings mixedKeys mixedKeys = .error (ascii "attempt to compare string with number") ∧
      ¬ ((assertEquals plainSurroundings mixedKeys mixedKeys).isOk = true ↔
        StructurallyEqual mixedKeys mixedKeys) := by
  have raised : assertEquals plainSurroundings mixedKeys mixedKeys =
      .error (ascii "attempt to compare string with number") := by decide
  refine ⟨raised, fun agrees => ?_⟩
  have accepted := agrees.mpr (structurallyEqual_refl mixedKeys)
  rw [raised] at accepted
  exact nomatch accepted

end EvoRuntime.Assertions
