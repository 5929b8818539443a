import EvoRuntime.Library.Chains
import EvoRuntime.Library.Raising
import EvoRuntime.Lua.Strings
import Mathlib.Data.List.AList

/-!
# Tables of classes and instances

Classes and instances are tables that refer to each other, so a heap is what the functions
of `oop` work on. A table is read through its metatable: a key that it does not have is
looked up in the table under `__index`, and so on. Only `__index` and `__call` are kept of
a metatable.

The tables under `__mixins` are never handed out by the library. They are kept apart from
the others, and the key `__mixins` apart from the other keys.
-/
namespace EvoRuntime.Oop

open Lua Library Raising

/-! ## Values -/

abbrev Ref := Nat

/-- A table that holds the mixins of another one as its keys. -/
abbrev MixinSet := Nat

inductive Function
  /-- What `makeDefaultConstructor(class)` returns. -/
  | default (cls : Ref)
  | defined (id : Nat)
  deriving DecidableEq

inductive OtherType
  | number
  | userdata
  | thread
  | cdata
  deriving DecidableEq

/-- A value other than `nil`. -/
inductive Value
  | boolean (b : Bool)
  | string (s : LuaString)
  | table (r : Ref)
  | function (f : Function)
  | other (type : OtherType) (id : Nat)
  deriving DecidableEq

def OtherType.name : OtherType → LuaString
  | .number => ascii "number"
  | .userdata => ascii "userdata"
  | .thread => ascii "thread"
  | .cdata => ascii "cdata"

/-- `type(value)`, where `none` is `nil`. -/
def type : Option Value → LuaString
  | none => ascii "nil"
  | some (.boolean _) => ascii "boolean"
  | some (.string _) => ascii "string"
  | some (.table _) => ascii "table"
  | some (.function _) => ascii "function"
  | some (.other type _) => type.name

def truthy : Option Value → Bool
  | none => false
  | some (.boolean b) => b
  | some _ => true

/-! ## The heap -/

inductive Key
  | mixins
  | value (key : Value)
  deriving DecidableEq

/-- What is stored under a key. -/
@[reducible] def Key.Content : Key → Type
  | .mixins => MixinSet
  | .value _ => Value

abbrev Key.named (text : String) : Key := .value (.string (ascii text))

structure Metatable where
  index : Option Ref := none
  call : Option Value := none

structure Table where
  fields : AList Key.Content := ∅
  metatable : Option Metatable := none

structure Heap where
  tables : Ref → Table := fun _ => {}
  /-- The number of tables created so far. -/
  size : Nat := 0
  mixinSets : MixinSet → List Ref := fun _ => []
  numMixinSets : Nat := 0
  registeredClasses : AList fun _ : LuaString => Ref := ∅

namespace Heap

variable (h : Heap)

/-- The table under `__index`. -/
def parent (r : Ref) : Option Ref := (h.tables r).metatable.bind Metatable.index

/-- The value under `__call`. -/
def callee (r : Ref) : Option Value := (h.tables r).metatable.bind Metatable.call

def rawget (r : Ref) (key : Key) : Option key.Content := (h.tables r).fields.lookup key

/-- Reading a key. The chain of tables is as long as there are tables, unless it loops. -/
def read (r : Ref) (key : Key) : Except LuaString (Option key.Content) :=
  match Chains.follow h.parent (h.rawget · key) (h.size + 1) r with
  | some found => .ok found
  | none => .error (ascii "'__index' chain too long; possibly a loop")

def update (r : Ref) (f : Table → Table) : Heap :=
  { h with tables := Function.update h.tables r (f (h.tables r)) }

def rawset (r : Ref) (key : Key) (content : key.Content) : Heap :=
  h.update r fun table => { table with fields := table.fields.insert key content }

def setmetatable (r : Ref) (metatable : Metatable) : Heap :=
  h.update r fun table => { table with metatable := some metatable }

/-- The table `{}` is the next one. -/
def create : Heap :=
  { h with tables := Function.update h.tables h.size {}, size := h.size + 1 }

def createMixinSet : Heap :=
  { h with mixinSets := Function.update h.mixinSets h.numMixinSets [], numMixinSets := h.numMixinSets + 1 }

/-- `mixins[source] = true`. -/
def register (set : MixinSet) (source : Ref) : Heap :=
  { h with mixinSets := Function.update h.mixinSets set ((h.mixinSets set).insert source) }

/-! ### What an operation changes -/

variable {h} {r r' : Ref} {key key' : Key}

@[simp] theorem update_size (f : Table → Table) : (h.update r f).size = h.size := rfl

@[simp] theorem update_tables_self (f : Table → Table) : (h.update r f).tables r = f (h.tables r) :=
  Function.update_self ..

theorem update_tables_other (other : r' ≠ r) (f : Table → Table) :
    (h.update r f).tables r' = h.tables r' :=
  Function.update_of_ne other ..

@[simp] theorem rawset_size (content : key.Content) : (h.rawset r key content).size = h.size := rfl

@[simp] theorem rawset_mixinSets (content : key.Content) :
    (h.rawset r key content).mixinSets = h.mixinSets := rfl

@[simp] theorem setmetatable_size (metatable : Metatable) :
    (h.setmetatable r metatable).size = h.size := rfl

theorem parent_update {f : Table → Table} (same : ∀ table, (f table).metatable = table.metatable) :
    (h.update r f).parent = h.parent := by
  funext r'
  by_cases here : r' = r
  · subst here
    simp [parent, same]
  · simp [parent, update_tables_other here]

@[simp] theorem parent_rawset (content : key.Content) : (h.rawset r key content).parent = h.parent :=
  parent_update fun _ => rfl

@[simp] theorem parent_setmetatable_self (metatable : Metatable) :
    (h.setmetatable r metatable).parent r = metatable.index := by
  simp [parent, setmetatable]

theorem parent_setmetatable_other (other : r' ≠ r) (metatable : Metatable) :
    (h.setmetatable r metatable).parent r' = h.parent r' := by
  simp [parent, setmetatable, update_tables_other other]

@[simp] theorem rawget_rawset_self (content : key.Content) :
    (h.rawset r key content).rawget r key = some content := by
  simp [rawget, rawset]

theorem rawget_rawset_key (other : key' ≠ key) (content : key.Content) :
    (h.rawset r key content).rawget r key' = h.rawget r key' := by
  simp [rawget, rawset, AList.lookup_insert_ne other]

theorem rawget_rawset_table (other : r' ≠ r) (content : key.Content) :
    (h.rawset r key content).rawget r' key' = h.rawget r' key' := by
  simp [rawget, rawset, update_tables_other other]

@[simp] theorem rawget_setmetatable (metatable : Metatable) :
    (h.setmetatable r metatable).rawget r' key = h.rawget r' key := by
  by_cases here : r' = r
  · subst here
    simp [rawget, setmetatable]
  · simp [rawget, setmetatable, update_tables_other here]

/-- A table's own field is found first. -/
theorem read_own {content : key.Content} (own : h.rawget r key = some content) :
    h.read r key = .ok (some content) := by
  have found : Chains.follow h.parent (h.rawget · key) (h.size + 1) r = some (some content) :=
    Chains.follow_answered own
  rw [read, found]

theorem register_other {set other : MixinSet} (differ : other ≠ set) (source : Ref) :
    (h.register set source).mixinSets other = h.mixinSets other :=
  Function.update_of_ne differ ..

theorem mem_register {set set' : MixinSet} {source s : Ref} :
    s ∈ (h.register set source).mixinSets set' ↔ s ∈ h.mixinSets set' ∨ set' = set ∧ s = source := by
  by_cases here : set' = set
  · subst here
    simp [register, List.mem_insert_iff, or_comm]
  · simp [register, here]

end Heap

abbrev Action (α : Type) := Raising Heap LuaString α

end EvoRuntime.Oop
