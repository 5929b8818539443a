import EvoRuntime.Library.Runs
import EvoRuntime.Library.SegmentWalk
import EvoRuntime.Lua.Strings
import Mathlib.Data.List.Sort

/-!
# Encoding values as JSON

`json.stringify` walks through a Lua value and calls a writer for everything it finds. With
`sort_keys` the keys of an object are collected and sorted before their values are visited.

## Main result

`sorted_bytes_iff`: the text does not depend on the order in which the keys of the tables are
visited if and only if no object has two keys that are equal as C strings.

## Proof strategy

The comparison looks at the keys as C strings. Where these differ there is only one sorted list
(`calls_reordered`). Where two of them are the same a stable sort keeps the order of the visit,
so the calls for a table and for its reversal part at a key (`exists_parting_calls`), and a
writer does not write the same text for different keys.
-/
namespace EvoRuntime.Json

open Lua Library

variable {τ ν : Type}

/-! ## Values -/

/-- A Lua value, as the encoder sees it. A table has a kind, by which it is told apart from an
array, the elements up to its raw length, and values for its string keys, in the order of
`lua_next`. -/
inductive Value (τ ν : Type)
  | nil
  | null
  | boolean (b : Bool)
  | number (n : ν)
  | string (s : LuaString)
  | other (serialized : Option LuaString) (stringifiedValue : String)
  | table (kind : τ) (rawlen : Nat) (element : Nat → Value τ ν) (keys : List LuaString)
      (distinct : keys.Nodup) (value : LuaString → Value τ ν)

/-- A call to the writer. -/
inductive Call (ν : Type)
  | null
  | bool (b : Bool)
  | int64 (integer : Int)
  | double (n : ν)
  | string (s : LuaString)
  | startObject
  | key (s : LuaString)
  | endObject
  | startArray
  | endArray
  deriving DecidableEq

/-- What is used of the libraries: `values::isarray`, `luax::isinteger`, whether
`writer->Double` takes a number, and how many slots of the stack a C function may use. -/
structure Libraries (τ ν : Type) where
  isarray : τ → (empty_table_as_array : Bool) → Bool
  isinteger : ν → Option Int
  takesDouble : ν → Bool
  LUAI_MAXCSTACK : Nat

/-- A writer appends some text to its buffer with each call. -/
structure Writer (ν : Type) where
  State : Type
  start : State
  emit : State → Call ν → LuaString × State

def Writer.textFrom (writer : Writer ν) (state : writer.State) : List (Call ν) → LuaString
  | [] => []
  | call :: calls => (writer.emit state call).1 ++ writer.textFrom (writer.emit state call).2 calls

def Writer.text (writer : Writer ν) (calls : List (Call ν)) : LuaString :=
  writer.textFrom writer.start calls

/-! ## Functions -/

/-- `Key::operator<`, which is `strcmp(key, rhs.key) < 0`. -/
def keyLess (key rhs : LuaString) : Prop := cString key < cString rhs

instance (key rhs : LuaString) : Decidable (keyLess key rhs) :=
  inferInstanceAs (Decidable (cString key < cString rhs))

/-- What `std::sort` is known to do. -/
structure IsSort (sort : List LuaString → List LuaString) : Prop where
  perm : ∀ keys, (sort keys).Perm keys
  sorted : ∀ keys, (sort keys).Pairwise fun key rhs => ¬keyLess rhs key

structure CustomizedEncoder where
  sort_keys : Bool := false
  empty_table_as_array : Bool := false
  max_depth : Int := 128

def encodeNumber (libraries : Libraries τ ν) (n : ν) : Except LuaError (List (Call ν)) :=
  match libraries.isinteger n with
  | some integer => .ok [.int64 integer]
  | none =>
    if libraries.takesDouble n then .ok [.double n]
    else .error ⟨"error while encode double value."⟩

def encodeArray (rawlen : Nat) (encodeElement : Nat → Except LuaError (List (Call ν))) :
    Except LuaError (List (Call ν)) := do
  let elements ← (List.range' 1 rawlen).mapM encodeElement
  return .startArray :: (elements.flatten ++ [.endArray])

def encodeObject (keys : List LuaString) (encodeMember : LuaString → Except LuaError (List (Call ν))) :
    Except LuaError (List (Call ν)) := do
  let members ← keys.mapM fun key => return .key key :: (← encodeMember key)
  return .startObject :: (members.flatten ++ [.endObject])

section Encoding

variable (libraries : Libraries τ ν) (encoder : CustomizedEncoder)
  (sort : List LuaString → List LuaString)

/-- The order in which the members of an object are written. -/
def CustomizedEncoder.order (keys : List LuaString) : List LuaString :=
  if encoder.sort_keys then sort keys else keys

/-- The slots in use while a member of an object is encoded. The key stays on the stack for
`lua_next`, but in a sorted object the value takes its place. -/
def CustomizedEncoder.memberTop (top : Nat) : Nat :=
  if encoder.sort_keys then top + 1 else top + 2

/-- The value is encoded while `top` slots of the stack are in use. -/
def encodeValue : Value τ ν → (depth top : Nat) → Except LuaError (List (Call ν))
  | .nil, _, _ => .ok [.null]
  | .null, _, _ => .ok [.null]
  | .boolean b, _, _ => .ok [.bool b]
  | .number n, _, _ => encodeNumber libraries n
  | .string s, _, _ => .ok [.string s]
  | .other (some serialized) _, _, _ => .ok [.string serialized]
  | .other none stringifiedValue, _, _ => .error ⟨"Cannot encode value " ++ stringifiedValue ++
      " (only JSON-compatible primitive types are supported)"⟩
  | .table kind rawlen element keys _ value, depth, top =>
    if encoder.max_depth < depth + 1 then .error ⟨"nested too depth"⟩
    else if libraries.LUAI_MAXCSTACK < top + 4 then .error ⟨"stack overflow"⟩
    else if libraries.isarray kind encoder.empty_table_as_array then
      encodeArray rawlen fun n => encodeValue (element n) (depth + 1) (top + 1)
    else encodeObject (encoder.order sort keys) fun key =>
      encodeValue (value key) (depth + 1) (encoder.memberTop top)

/-- `json.stringify`, called with so many arguments: the text of all calls, unless an error is
raised. -/
def encode (writer : Writer ν) (value : Value τ ν) (arguments : Nat) : Except LuaError LuaString :=
  (encodeValue libraries encoder sort value 0 arguments).map writer.text

end Encoding

/-! ## Values that can be encoded -/

variable (libraries : Libraries τ ν) (encoder : CustomizedEncoder)

/-- There is nothing in the value that the encoder raises an error for. -/
def Encodable : Value τ ν → (depth top : Nat) → Prop
  | .number n, _, _ => libraries.isinteger n = none → libraries.takesDouble n
  | .other serialized _, _, _ => serialized.isSome
  | .table kind rawlen element keys _ value, depth, top =>
    ¬encoder.max_depth < depth + 1 ∧ ¬libraries.LUAI_MAXCSTACK < top + 4 ∧
      if libraries.isarray kind encoder.empty_table_as_array then
        ∀ n ∈ List.range' 1 rawlen, Encodable (element n) (depth + 1) (top + 1)
      else ∀ key ∈ keys, Encodable (value key) (depth + 1) (encoder.memberTop top)
  | _, _, _ => True

/-- The calls for a value that can be encoded. -/
def calls (sort : List LuaString → List LuaString) : Value τ ν → List (Call ν)
  | .nil => [.null]
  | .null => [.null]
  | .boolean b => [.bool b]
  | .number n => [(libraries.isinteger n).elim (.double n) .int64]
  | .string s => [.string s]
  | .other serialized _ => [.string (serialized.getD [])]
  | .table kind rawlen element keys _ value =>
    if libraries.isarray kind encoder.empty_table_as_array then
      .startArray :: ((List.range' 1 rawlen).flatMap (fun n => calls sort (element n)) ++ [.endArray])
    else
      .startObject :: ((encoder.order sort keys).flatMap (fun key => .key key :: calls sort (value key)) ++
        [.endObject])

variable {libraries encoder} {sort : List LuaString → List LuaString} {v w : Value τ ν}
  {depth top : Nat}

theorem mem_order (perm : ∀ keys, (sort keys).Perm keys) {keys : List LuaString} {key : LuaString} :
    key ∈ encoder.order sort keys ↔ key ∈ keys := by
  unfold CustomizedEncoder.order
  split
  · exact (perm keys).mem_iff
  · exact Iff.rfl

theorem order_sorted (sorts : encoder.sort_keys = true) (keys : List LuaString) :
    encoder.order sort keys = sort keys := if_pos sorts

theorem encodeValue_eq (perm : ∀ keys, (sort keys).Perm keys)
    (encodable : Encodable libraries encoder v depth top) :
    encodeValue libraries encoder sort v depth top = .ok (calls libraries encoder sort v) := by
  induction v generalizing depth top with
  | nil => rfl
  | null => rfl
  | boolean b => rfl
  | number n =>
    rw [encodeValue, calls, encodeNumber]
    cases integer : libraries.isinteger n with
    | none =>
      dsimp only
      rw [if_pos (encodable integer)]
      rfl
    | some integer => rfl
  | string s => rfl
  | other serialized stringifiedValue =>
    obtain ⟨text, rfl⟩ := Option.isSome_iff_exists.mp encodable
    rfl
  | table kind rawlen element keys distinct value ihElement ihValue =>
    rw [Encodable] at encodable
    obtain ⟨shallow, room, inside⟩ := encodable
    rw [encodeValue, calls, if_neg shallow, if_neg room]
    split
    next isArray =>
      rw [if_pos isArray] at inside
      have each := fun n member => ihElement n (inside n member)
      rw [encodeArray, mapM_ok each, List.flatMap_def]
      rfl
    next isObject =>
      rw [if_neg isObject] at inside
      have each : ∀ key ∈ encoder.order sort keys,
          (do return Call.key key :: (← encodeValue libraries encoder sort (value key) (depth + 1)
            (encoder.memberTop top)) : Except LuaError (List (Call ν))) =
          .ok (.key key :: calls libraries encoder sort (value key)) := by
        intro key member
        rw [ihValue key (inside key ((mem_order perm).mp member))]
        rfl
      rw [encodeObject, mapM_ok each, List.flatMap_def]
      rfl

/-- Nothing else can be encoded. -/
theorem encodable_of_ok (perm : ∀ keys, (sort keys).Perm keys) {written : List (Call ν)}
    (encoded : encodeValue libraries encoder sort v depth top = .ok written) :
    Encodable libraries encoder v depth top := by
  induction v generalizing depth top written with
  | nil => exact trivial
  | null => exact trivial
  | boolean b => exact trivial
  | number n =>
    intro none
    rw [encodeValue, encodeNumber, none] at encoded
    by_contra refused
    rw [if_neg refused] at encoded
    cases encoded
  | string s => exact trivial
  | other serialized stringifiedValue =>
    cases serialized with
    | none => cases encoded
    | some text => rfl
  | table kind rawlen element keys distinct value ihElement ihValue =>
    rw [encodeValue] at encoded
    split at encoded
    next => cases encoded
    next shallow =>
      split at encoded
      next => cases encoded
      next room =>
        refine ⟨shallow, room, ?_⟩
        split at encoded
        next isArray =>
          rw [if_pos isArray]
          intro n member
          obtain ⟨elements, ran, -⟩ := bind_ok encoded
          obtain ⟨_, element_ok⟩ := exists_of_mapM_ok ran n member
          exact ihElement n element_ok
        next isObject =>
          rw [if_neg isObject]
          intro key member
          obtain ⟨members, ran, -⟩ := bind_ok encoded
          obtain ⟨_, member_ok⟩ := exists_of_mapM_ok ran key ((mem_order perm).mpr member)
          obtain ⟨_, value_ok, -⟩ := bind_ok member_ok
          exact ihValue key value_ok

/-! ## Orders of the keys -/

/-- The same value, with other iteration orders of the keys of its tables. -/
inductive Reordered : Value τ ν → Value τ ν → Prop
  | refl (v : Value τ ν) : Reordered v v
  | table {kind : τ} {rawlen : Nat} {element element' : Nat → Value τ ν}
      {keys keys' : List LuaString} {distinct : keys.Nodup} {distinct' : keys'.Nodup}
      {value value' : LuaString → Value τ ν} (perm : keys'.Perm keys)
      (elements : ∀ n ∈ List.range' 1 rawlen, Reordered (element n) (element' n))
      (members : ∀ key ∈ keys, Reordered (value key) (value' key)) :
      Reordered (.table kind rawlen element keys distinct value)
        (.table kind rawlen element' keys' distinct' value')

theorem encodable_reordered (reordered : Reordered v w)
    (encodable : Encodable libraries encoder v depth top) : Encodable libraries encoder w depth top := by
  induction reordered generalizing depth top with
  | refl v => exact encodable
  | table perm _ _ ihElements ihMembers =>
    rw [Encodable] at encodable ⊢
    obtain ⟨shallow, room, inside⟩ := encodable
    refine ⟨shallow, room, ?_⟩
    split
    next isArray =>
      rw [if_pos isArray] at inside
      exact fun n member => ihElements n member (inside n member)
    next isObject =>
      rw [if_neg isObject] at inside
      intro key member
      have listed := perm.mem_iff.mp member
      exact ihMembers key listed (inside key listed)

theorem reordered_update {α : Type} [DecidableEq α] {f : α → Value τ ν} {x : α}
    (reordered : Reordered (f x) w) (y : α) : Reordered (f y) (Function.update f x w y) := by
  by_cases same : y = x
  · rw [same, Function.update_self]
    exact reordered
  · rw [Function.update_of_ne same]
    exact .refl _

variable (libraries encoder) in
/-- No object has two keys with the same text in front of the first NUL. -/
def KeysDiffer : Value τ ν → Prop
  | .table kind rawlen element keys _ value =>
    if libraries.isarray kind encoder.empty_table_as_array then
      ∀ n ∈ List.range' 1 rawlen, KeysDiffer (element n)
    else
      (∀ a ∈ keys, ∀ b ∈ keys, cString a = cString b → a = b) ∧ ∀ key ∈ keys, KeysDiffer (value key)
  | _ => True

/-- There is only one way to sort keys that differ. -/
theorem sort_perm (isSort : IsSort sort) {keys keys' : List LuaString} (perm : keys'.Perm keys)
    (differ : ∀ a ∈ keys, ∀ b ∈ keys, cString a = cString b → a = b) : sort keys' = sort keys := by
  have both : (sort keys').Perm (sort keys) :=
    ((isSort.perm keys').trans perm).trans (isSort.perm keys).symm
  refine both.eq_of_pairwise (fun a b first second notLess notLess' => ?_) (isSort.sorted keys')
    (isSort.sorted keys)
  have listed := perm.mem_iff.mp ((isSort.perm keys').mem_iff.mp first)
  exact differ a listed b ((isSort.perm keys).mem_iff.mp second) (List.le_antisymm notLess notLess')

/-- The calls do not depend on the order of the keys, if they differ. -/
theorem calls_reordered (isSort : IsSort sort) (sorts : encoder.sort_keys = true)
    (reordered : Reordered v w) (differ : KeysDiffer libraries encoder v) :
    calls libraries encoder sort w = calls libraries encoder sort v := by
  induction reordered with
  | refl v => rfl
  | @table kind rawlen _ _ keys keys' _ _ _ _ perm _ _ ihElements ihMembers =>
    rw [KeysDiffer] at differ
    rw [calls, calls]
    split
    next isArray =>
      rw [if_pos isArray] at differ
      rw [List.flatMap_congr fun n member => ihElements n member (differ n member)]
    next isObject =>
      rw [if_neg isObject] at differ
      have order : encoder.order sort keys' = encoder.order sort keys := by
        rw [order_sorted sorts, order_sorted sorts, sort_perm isSort perm differ.1]
      have members : ∀ key ∈ encoder.order sort keys, key ∈ keys :=
        fun key => (mem_order isSort.perm).mp
      rw [order, List.flatMap_congr fun key member => congrArg (List.cons (Call.key key))
        (ihMembers key (members key member) (differ.2 key (members key member)))]

/-! ## Calls that part -/

/-- The calls are the same up to a key, and the keys differ. -/
def Part (calls calls' : List (Call ν)) : Prop :=
  ∃ before a b rest rest', a ≠ b ∧ calls = before ++ .key a :: rest ∧
    calls' = before ++ .key b :: rest'

namespace Part

variable {e e' : List (Call ν)}

theorem around (part : Part e e') (front back back' : List (Call ν)) :
    Part (front ++ (e ++ back)) (front ++ (e' ++ back')) := by
  obtain ⟨before, a, b, rest, rest', differ, rfl, rfl⟩ := part
  refine ⟨front ++ before, a, b, rest ++ back, rest' ++ back', differ, ?_, ?_⟩ <;>
    simp only [List.append_assoc, List.cons_append]

/-- Lists of calls part where those for one of the entries do. -/
theorem flatMap {α : Type} {entries : List α} {x : α} {f g : α → List (Call ν)}
    (distinct : entries.Nodup) (member : x ∈ entries) (same : ∀ y ∈ entries, y ≠ x → f y = g y)
    (part : Part (f x) (g x)) : Part (entries.flatMap f) (entries.flatMap g) := by
  obtain ⟨front, back, rfl⟩ := List.append_of_mem member
  have other : ∀ y ∈ front, y ≠ x := by
    rintro y inside rfl
    exact (List.disjoint_of_nodup_append distinct) inside List.mem_cons_self
  have shared : front.flatMap f = front.flatMap g :=
    List.flatMap_congr fun y inside => same y (List.mem_append_left _ inside) (other y inside)
  rw [List.flatMap_append, List.flatMap_append, List.flatMap_cons, List.flatMap_cons, shared]
  exact part.around _ _ _

end Part

/-! ## A stable sort -/

/-- Not behind another key. -/
def keyLE (key rhs : LuaString) : Prop := ¬keyLess rhs key

instance : DecidableRel keyLE := fun key rhs => inferInstanceAs (Decidable ¬keyLess rhs key)

instance : Std.Total keyLE := ⟨fun key rhs => List.le_total (cString key) (cString rhs)⟩

instance : IsTrans LuaString keyLE :=
  ⟨fun a _ c first second => (List.le_trans first second : cString a ≤ cString c)⟩

/-- Keys that are equal to the comparison stay in the order of the visit. -/
def stableSort (keys : List LuaString) : List LuaString := keys.insertionSort keyLE

theorem isSort_stableSort : IsSort stableSort where
  perm := List.perm_insertionSort keyLE
  sorted := List.pairwise_insertionSort keyLE

/-- Of two different elements one comes first. -/
theorem not_both_sublist {α : Type} {l : List α} {x y : α} (distinct : l.Nodup)
    (forth : [x, y].Sublist l) : ¬[y, x].Sublist l := by
  intro back
  induction l with
  | nil => cases forth
  | cons c l ih =>
    obtain ⟨fresh, rest⟩ := List.nodup_cons.mp distinct
    cases forth with
    | cons _ forth =>
      cases back with
      | cons _ back => exact ih rest forth back
      | cons_cons _ back => exact fresh (forth.subset (by simp))
    | cons_cons _ forth =>
      cases back with
      | cons _ back => exact fresh (back.subset (by simp))
      | cons_cons _ back => exact fresh (back.subset (by simp))

theorem pair_sublist_or {α : Type} {l : List α} {x y : α} (first : x ∈ l) (second : y ∈ l)
    (differ : x ≠ y) : [x, y].Sublist l ∨ [y, x].Sublist l := by
  obtain ⟨front, back, rfl⟩ := List.append_of_mem first
  rcases List.mem_append.mp second with before | behind
  · exact .inr ((List.singleton_sublist.mpr before).append
      (List.singleton_sublist.mpr List.mem_cons_self))
  · have later := (List.mem_cons.mp behind).resolve_left differ.symm
    exact .inl (((List.singleton_sublist.mpr later).cons_cons x).trans
      (List.sublist_append_right front _))

/-- Two keys that are equal to the comparison change places when the order is reversed. -/
theorem stableSort_reverse {keys : List LuaString} (distinct : keys.Nodup) {a b : LuaString}
    (before : [a, b].Sublist keys) (same : cString a = cString b) :
    stableSort keys ≠ stableSort keys.reverse := by
  have equal : ∀ x y, cString x = cString y → keyLE x y := by
    intro x y same
    rw [keyLE, keyLess, same]
    exact List.lt_irrefl _
  have forth : [a, b].Sublist (stableSort keys) :=
    List.pair_sublist_insertionSort (equal a b same) before
  have back : [b, a].Sublist (stableSort keys.reverse) :=
    List.pair_sublist_insertionSort (equal b a same.symm) (List.reverse_sublist.mpr before)
  have sorted : (stableSort keys).Nodup := (isSort_stableSort.perm keys).nodup_iff.mpr distinct
  exact fun same => not_both_sublist sorted forth (same ▸ back)

/-- The members of an object that are written in two orders. -/
theorem part_members {sorted sorted' : List LuaString} (perm : sorted.Perm sorted')
    (differ : sorted ≠ sorted') (member : LuaString → List (Call ν)) (back : List (Call ν)) :
    Part (.startObject :: (sorted.flatMap (fun key => .key key :: member key) ++ back))
      (.startObject :: (sorted'.flatMap (fun key => .key key :: member key) ++ back)) := by
  obtain ⟨shared, more, more', rfl, rfl, -, apart⟩ := exists_parting sorted sorted'
  -- Both have as many keys, so they part at two keys and not at an end.
  have sizes := perm.length_eq
  simp only [List.length_append, Nat.add_left_cancel_iff] at sizes
  cases more with
  | nil =>
    rw [List.length_nil, eq_comm, List.length_eq_zero_iff] at sizes
    exact absurd (by rw [sizes]) differ
  | cons a more =>
    obtain ⟨b, more', rfl⟩ := List.exists_cons_of_ne_nil (List.ne_nil_of_length_eq_add_one sizes.symm)
    refine ⟨.startObject :: shared.flatMap fun key => .key key :: member key, a, b,
      member a ++ (more.flatMap (fun key => .key key :: member key) ++ back),
      member b ++ (more'.flatMap (fun key => .key key :: member key) ++ back),
      apart a b rfl rfl, ?_, ?_⟩ <;>
      simp only [List.flatMap_append, List.flatMap_cons, List.append_assoc, List.cons_append]

/-- Where two keys of an object are equal to the comparison, some order of its keys changes the
calls. -/
theorem exists_parting_calls (sorts : encoder.sort_keys = true)
    (equal : ¬KeysDiffer libraries encoder v) :
    ∃ w, Reordered v w ∧
      Part (calls libraries encoder stableSort v) (calls libraries encoder stableSort w) := by
  induction v with
  | nil => exact absurd trivial equal
  | null => exact absurd trivial equal
  | boolean b => exact absurd trivial equal
  | number n => exact absurd trivial equal
  | string s => exact absurd trivial equal
  | other serialized stringifiedValue => exact absurd trivial equal
  | table kind rawlen element keys distinct value ihElement ihValue =>
    rw [KeysDiffer] at equal
    split at equal
    next isArray =>
      push Not at equal
      obtain ⟨n, member, equal⟩ := equal
      obtain ⟨w, reordered, part⟩ := ihElement n equal
      refine ⟨.table kind rawlen (Function.update element n w) keys distinct value,
        .table (.refl _) (fun m _ => reordered_update reordered m) (fun key _ => .refl _), ?_⟩
      rw [calls, calls, if_pos isArray, if_pos isArray]
      have elements := Part.flatMap (f := fun n => calls libraries encoder stableSort (element n))
        (g := fun m => calls libraries encoder stableSort (Function.update element n w m))
        (List.nodup_range' : (List.range' 1 rawlen).Nodup) member
        (fun m _ differ => by rw [Function.update_of_ne differ])
        (by rwa [Function.update_self])
      exact elements.around [.startArray] [.endArray] [.endArray]
    next isObject =>
      by_cases differ : ∀ a ∈ keys, ∀ b ∈ keys, cString a = cString b → a = b
      · -- The keys of this object differ, so it is one of its values that has equal keys.
        have deeper : ∃ key ∈ keys, ¬KeysDiffer libraries encoder (value key) := by
          by_contra none
          push Not at none
          exact equal ⟨differ, none⟩
        obtain ⟨key, member, equal⟩ := deeper
        obtain ⟨w, reordered, part⟩ := ihValue key equal
        refine ⟨.table kind rawlen element keys distinct (Function.update value key w),
          .table (.refl _) (fun n _ => .refl _) (fun other _ => reordered_update reordered other), ?_⟩
        rw [calls, calls, if_neg isObject, if_neg isObject, order_sorted sorts]
        have perm := isSort_stableSort.perm keys
        have inner : Part (.key key :: calls libraries encoder stableSort (value key))
            (.key key :: calls libraries encoder stableSort w) := by
          have whole := part.around [.key key] [] []
          rwa [List.append_nil, List.append_nil] at whole
        have members := Part.flatMap
          (f := fun key => Call.key key :: calls libraries encoder stableSort (value key))
          (g := fun other => Call.key other ::
            calls libraries encoder stableSort (Function.update value key w other))
          (perm.nodup_iff.mpr distinct) (perm.mem_iff.mpr member)
          (fun other _ differ => by rw [Function.update_of_ne differ])
          (by rwa [Function.update_self])
        exact members.around [.startObject] [.endObject] [.endObject]
      · -- Reversing the keys reverses these two, which the stable sort leaves in their order.
        push Not at differ
        obtain ⟨a, first, b, second, same, differ⟩ := differ
        have reversed : stableSort keys ≠ stableSort keys.reverse := by
          rcases pair_sublist_or first second differ with before | after
          · exact stableSort_reverse distinct before same
          · exact stableSort_reverse distinct after same.symm
        refine ⟨.table kind rawlen element keys.reverse (List.nodup_reverse.mpr distinct) value,
          .table keys.reverse_perm (fun n _ => .refl _) (fun key _ => .refl _), ?_⟩
        rw [calls, calls, if_neg isObject, if_neg isObject, order_sorted sorts, order_sorted sorts]
        have perm := (isSort_stableSort.perm keys).trans
          (keys.reverse_perm.symm.trans (isSort_stableSort.perm keys.reverse).symm)
        exact part_members perm reversed _ _

/-! ## Texts -/

def Writer.stateAfter (writer : Writer ν) (state : writer.State) (calls : List (Call ν)) : writer.State :=
  calls.foldl (fun state call => (writer.emit state call).2) state

theorem textFrom_append (writer : Writer ν) (state : writer.State) (before rest : List (Call ν)) :
    writer.textFrom state (before ++ rest) =
      writer.textFrom state before ++ writer.textFrom (writer.stateAfter state before) rest := by
  induction before generalizing state with
  | nil => rfl
  | cons call before ih =>
    rw [List.cons_append, Writer.textFrom, ih, Writer.textFrom, List.append_assoc]
    rfl

/-- Whatever follows, a key is not written like another one. -/
def Writer.TellsKeys (writer : Writer ν) : Prop :=
  ∀ state a b rest rest', a ≠ b →
    (writer.emit state (.key a)).1 ++ rest ≠ (writer.emit state (.key b)).1 ++ rest'

theorem Part.text_ne {writer : Writer ν} (tells : writer.TellsKeys) {e e' : List (Call ν)}
    (part : Part e e') : writer.text e ≠ writer.text e' := by
  obtain ⟨before, a, b, rest, rest', differ, rfl, rfl⟩ := part
  rw [Writer.text, Writer.text, textFrom_append, textFrom_append, ne_eq, List.append_cancel_left_eq]
  exact tells _ a b _ _ differ

/-- Encoding with sorted keys gives the same text for all orders of the keys exactly if no object
has two keys that are the same C string. -/
theorem sorted_bytes_iff (libraries : Libraries τ ν) {encoder : CustomizedEncoder}
    (sorts : encoder.sort_keys = true) {writer : Writer ν} (tells : writer.TellsKeys)
    {v : Value τ ν} {arguments : Nat} (encodable : Encodable libraries encoder v 0 arguments) :
    (∀ sort, IsSort sort → ∀ w, Reordered v w →
        encode libraries encoder sort writer w arguments =
          encode libraries encoder sort writer v arguments) ↔
      KeysDiffer libraries encoder v := by
  have encoded : ∀ sort, IsSort sort → ∀ w, Reordered v w →
      encode libraries encoder sort writer w arguments =
        .ok (writer.text (calls libraries encoder sort w)) := by
    intro sort isSort w reordered
    rw [encode, encodeValue_eq isSort.perm (encodable_reordered reordered encodable)]
    rfl
  constructor
  · intro same
    by_contra equal
    obtain ⟨w, reordered, part⟩ := exists_parting_calls sorts equal
    have texts := same stableSort isSort_stableSort w reordered
    rw [encoded _ isSort_stableSort w reordered, encoded _ isSort_stableSort v (.refl v)] at texts
    exact part.text_ne tells (Except.ok.inj texts).symm
  · intro differ sort isSort w reordered
    rw [encoded sort isSort w reordered, encoded sort isSort v (.refl v),
      calls_reordered isSort sorts reordered differ]

/-! ### Compact texts

A writer of compact JSON texts, and objects with two keys. Numbers are integers, and the kind of a
table says whether it is an array. -/

structure Level where
  inArray : Bool
  valueCount : Nat

/-- What stands in front of the next value, which is counted. -/
def separator : List Level → LuaString
  | [] => []
  | level :: _ =>
    if level.valueCount = 0 then []
    else if level.inArray ∨ level.valueCount % 2 = 0 then ascii "," else ascii ":"

def counted : List Level → List Level
  | [] => []
  | level :: levels => { level with valueCount := level.valueCount + 1 } :: levels

def quotationMark : UInt8 := 0x22

def backslash : UInt8 := 0x5C

def escaped (c : UInt8) : LuaString :=
  if c = 0 then backslash :: ascii "u0000"
  else if c = quotationMark ∨ c = backslash then [backslash, c]
  else [c]

def quoted (s : LuaString) : LuaString :=
  quotationMark :: (s.flatMap escaped ++ [quotationMark])

def compactText : Call Int → LuaString
  | .null => ascii "null"
  | .bool b => if b then ascii "true" else ascii "false"
  | .int64 integer => (if integer < 0 then ascii "-" else []) ++ decimal integer.natAbs
  | .double n => (if n < 0 then ascii "-" else []) ++ decimal n.natAbs ++ ascii ".0"
  | .string s => quoted s
  | .key s => quoted s
  | .startObject => ascii "\x7b"
  | .endObject => ascii "\x7d"
  | .startArray => ascii "["
  | .endArray => ascii "]"

def compactWriter : Writer Int where
  State := List Level
  start := []
  emit levels call :=
    match call with
    | .endObject => (compactText call, levels.tail)
    | .endArray => (compactText call, levels.tail)
    | .startObject =>
      (separator levels ++ compactText call, { inArray := false, valueCount := 0 } :: counted levels)
    | .startArray =>
      (separator levels ++ compactText call, { inArray := true, valueCount := 0 } :: counted levels)
    | _ => (separator levels ++ compactText call, counted levels)

theorem escaped_cases (c : UInt8) :
    (c = 0 ∧ escaped c = backslash :: 0x75 :: ascii "0000") ∨
    ((c = quotationMark ∨ c = backslash) ∧ escaped c = [backslash, c]) ∨
    (c ≠ quotationMark ∧ c ≠ backslash ∧ escaped c = [c]) := by
  unfold escaped
  split
  next zero => exact .inl ⟨zero, rfl⟩
  next =>
    split
    next special => exact .inr (.inl ⟨special, rfl⟩)
    next plain => exact .inr (.inr ⟨fun same => plain (.inl same), fun same => plain (.inr same), rfl⟩)

/-- An escaped character can be told from another one, whatever follows. -/
theorem escaped_inj {c d : UInt8} {s t : LuaString} (same : escaped c ++ s = escaped d ++ t) :
    c = d ∧ s = t := by
  have letter : ∀ e : UInt8, e = quotationMark ∨ e = backslash → e ≠ 0x75 := by
    rintro e (rfl | rfl) <;> decide
  rcases escaped_cases c with ⟨zero, left⟩ | ⟨special, left⟩ | ⟨-, plain, left⟩ <;>
    rcases escaped_cases d with ⟨zero', right⟩ | ⟨special', right⟩ | ⟨-, plain', right⟩ <;>
    rw [left, right] at same
  · exact ⟨zero.trans zero'.symm, List.append_cancel_left same⟩
  · exact absurd (List.cons.inj (List.cons.inj same).2).1.symm (letter d special')
  · exact absurd (List.cons.inj same).1.symm plain'
  · exact absurd (List.cons.inj (List.cons.inj same).2).1 (letter c special)
  · exact List.cons.inj (List.cons.inj same).2
  · exact absurd (List.cons.inj same).1.symm plain'
  · exact absurd (List.cons.inj same).1 plain
  · exact absurd (List.cons.inj same).1 plain
  · exact List.cons.inj same

theorem escaped_ne_quotationMark (c : UInt8) (s t : LuaString) :
    escaped c ++ s ≠ quotationMark :: t := by
  intro same
  rcases escaped_cases c with ⟨-, text⟩ | ⟨-, text⟩ | ⟨plain, -, text⟩ <;> rw [text] at same
  · exact absurd (List.cons.inj same).1 (by decide)
  · exact absurd (List.cons.inj same).1 (by decide)
  · exact plain (List.cons.inj same).1

theorem quoted_inj {a b rest rest' : LuaString} (same : quoted a ++ rest = quoted b ++ rest') :
    a = b := by
  have texts : a.flatMap escaped ++ quotationMark :: rest =
      b.flatMap escaped ++ quotationMark :: rest' := by
    simpa [quoted] using same
  clear same
  induction a generalizing b with
  | nil =>
    cases b with
    | nil => rfl
    | cons d b =>
      rw [List.flatMap_cons, List.append_assoc] at texts
      exact absurd texts.symm (escaped_ne_quotationMark d _ _)
  | cons c a ih =>
    rw [List.flatMap_cons, List.append_assoc] at texts
    cases b with
    | nil => exact absurd texts (escaped_ne_quotationMark c _ _)
    | cons d b =>
      rw [List.flatMap_cons, List.append_assoc] at texts
      obtain ⟨rfl, later⟩ := escaped_inj texts
      rw [ih later]

theorem compactWriter_tellsKeys : compactWriter.TellsKeys := by
  intro levels a b rest rest' differ same
  have texts : separator levels ++ quoted a ++ rest = separator levels ++ quoted b ++ rest' := same
  rw [List.append_assoc, List.append_assoc, List.append_cancel_left_eq] at texts
  exact differ (quoted_inj texts)

def plainLibraries : Libraries Bool Int where
  isarray kind _ := kind
  isinteger n := some n
  takesDouble _ := true
  LUAI_MAXCSTACK := 8000

/-- An object in which every key has itself as its value. -/
def objectWith (keys : List LuaString) (distinct : keys.Nodup) : Value Bool Int :=
  .table false 0 (fun _ => .nil) keys distinct .string

theorem objectWith_isObject (empty_table_as_array : Bool) :
    ¬plainLibraries.isarray false empty_table_as_array = true :=
  Bool.false_ne_true

theorem encodable_objectWith {keys : List LuaString} (distinct : keys.Nodup)
    {encoder : CustomizedEncoder} (deep : ¬encoder.max_depth < 1) :
    Encodable plainLibraries encoder (objectWith keys distinct) 0 2 := by
  refine ⟨by simpa using deep, by decide, ?_⟩
  rw [if_neg (objectWith_isObject _)]
  exact fun _ _ => trivial

def sorting : CustomizedEncoder := { sort_keys := true }

theorem keysDiffer_objectWith {keys : List LuaString} (distinct : keys.Nodup)
    {encoder : CustomizedEncoder}
    (differ : ∀ a ∈ keys, ∀ b ∈ keys, cString a = cString b → a = b) :
    KeysDiffer plainLibraries encoder (objectWith keys distinct) := by
  rw [objectWith, KeysDiffer, if_neg (objectWith_isObject _)]
  exact ⟨differ, fun _ _ => trivial⟩

/-- The members of this object are written in the same order, however they are visited. -/
theorem sorted_bytes_iff_letters :
    KeysDiffer plainLibraries sorting (objectWith [ascii "b", ascii "a"] (by decide)) ∧
    ∀ sort, IsSort sort → ∀ w, Reordered (objectWith [ascii "b", ascii "a"] (by decide)) w →
      encode plainLibraries sorting sort compactWriter w 2 =
        encode plainLibraries sorting sort compactWriter
          (objectWith [ascii "b", ascii "a"] (by decide)) 2 := by
  have differ : KeysDiffer plainLibraries sorting (objectWith [ascii "b", ascii "a"] (by decide)) :=
    keysDiffer_objectWith (by decide) (by decide)
  exact ⟨differ, (sorted_bytes_iff plainLibraries rfl compactWriter_tellsKeys
    (encodable_objectWith (by decide) (by decide))).mpr differ⟩

/-- Two keys that differ only behind a NUL. -/
def nulKeys : List LuaString := [0x61 :: 0x00 :: ascii "b", 0x61 :: 0x00 :: ascii "c"]

/-- The order of these keys shows in the text. -/
theorem not_sorted_bytes_nul :
    Encodable plainLibraries sorting (objectWith nulKeys (by decide)) 0 2 ∧
    ¬∀ sort, IsSort sort → ∀ w, Reordered (objectWith nulKeys (by decide)) w →
      encode plainLibraries sorting sort compactWriter w 2 =
        encode plainLibraries sorting sort compactWriter (objectWith nulKeys (by decide)) 2 := by
  refine ⟨encodable_objectWith (by decide) (by decide), fun same => ?_⟩
  have texts := same stableSort isSort_stableSort (objectWith nulKeys.reverse (by decide))
    (.table nulKeys.reverse_perm (fun _ _ => .refl _) fun _ _ => .refl _)
  exact absurd texts (by decide +kernel)

end EvoRuntime.Json
