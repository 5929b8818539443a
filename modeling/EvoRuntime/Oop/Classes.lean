import EvoRuntime.Oop.Heap

/-!
# Classes and their constructors

`oop.class` gives a class the default constructor unless it defines one, and makes the
constructor what a call of the class runs. The default constructor calls the constructor
of `super` and links what that returns to the class. How deep the calls are nested is an
argument of the model, and a call that runs out of depth overflows the stack.

## Main result

`makesInstance_iff`: which calls of a class return a new instance of it.

## Proof strategy

The default constructor reads `super` from the class that it is passed, and it passes that
class on. So a default constructor that calls a default constructor comes to no end
(`callFunction_stuck`), and every other call is one step (`defaultConstructor_completes`).
-/
namespace EvoRuntime.Oop

open Lua Library Raising

/-! ## Tables and calls -/

def invalidArgument (name expected : LuaString) (value : Option Value) : LuaString :=
  ascii "Expected argument " ++ name ++ ascii " to be a " ++ expected ++
    ascii " value, but received a " ++ type value ++ ascii " value instead"

def validateString (value : Option Value) (name : LuaString) : Action LuaString :=
  match value with
  | some (.string s) => pure s
  | _ => throw (invalidArgument name (ascii "string") value)

def validateTable (value : Option Value) (name : LuaString) : Action Ref :=
  match value with
  | some (.table r) => pure r
  | _ => throw (invalidArgument name (ascii "table") value)

/-- The check of the first argument that a function of the standard library makes. -/
def checkTable (value : Option Value) (function : LuaString) : Action Ref :=
  match value with
  | some (.table r) => pure r
  | _ => throw (ascii "bad argument #1 to '" ++ function ++ ascii "' (table expected, got " ++
      type value ++ ascii ")")

/-- A table constructor without fields. -/
def newTable : Action Ref := do
  let h ← get
  modify Heap.create
  return h.size

def newMixinSet : Action MixinSet := do
  let h ← get
  modify Heap.createMixinSet
  return h.numMixinSets

/-- Reading a field of a table. -/
def index (r : Ref) (key : Key) : Action (Option key.Content) := do
  match (← get).read r key with
  | .ok content => pure content
  | .error message => throw message

abbrev Call := Function → List (Option Value) → Action (Option Value)

def notCallable (name : Option LuaString) (value : Option Value) : LuaString :=
  match name with
  | some name => ascii "attempt to call field '" ++ name ++ ascii "' (a " ++ type value ++ ascii " value)"
  | none => ascii "attempt to call a " ++ type value ++ ascii " value"

/-- A table is called through its metatable. -/
def callValue (call : Call) (name : Option LuaString) (callee : Option Value)
    (args : List (Option Value)) : Action (Option Value) := do
  match callee with
  | some (.function f) => call f args
  | some (.table r) =>
    match (← get).callee r with
    | some (.function f) => call f (some (.table r) :: args)
    | _ => throw (notCallable name callee)
  | _ => throw (notCallable name callee)

/-! ## `oop` -/

/-- `super.Construct`; strings have the fields of the string library. -/
def constructorOf (super : Option Value) : Action (Option Value) :=
  match super with
  | some (.table parent) => index parent (.named "Construct")
  | some (.string _) => pure none
  | value => throw (ascii "attempt to index field 'super' (a " ++ type value ++ ascii " value)")

/-- `rawget(cls, "super") and cls.super.Construct(cls, ...)` -/
def superInstance (call : Call) (cls : Ref) (args : List (Option Value)) : Action (Option Value) := do
  let super := (← get).rawget cls (.named "super")
  if truthy super then
    let construct ← constructorOf super
    callValue call (some (ascii "Construct")) construct (some (.table cls) :: args)
  else
    pure super

/-- `made or` a new table, of which `setmetatable` then checks that it is a table. -/
def orNewTable (made : Option Value) : Action Ref :=
  if truthy made then checkTable made (ascii "setmetatable") else newTable

/-- What `makeDefaultConstructor` returns. The class that the function is made for plays no
part in it. -/
def defaultConstructor (call : Call) (args : List (Option Value)) : Action (Option Value) := do
  let cls ← checkTable args.head?.join (ascii "rawget")
  let made ← superInstance call cls args.tail
  let object ← orNewTable made
  modify (·.setmetatable object { index := some cls })
  return some (.table object)

/-- The constructors that are not the default one. They end, and no table disappears. -/
structure Constructors where
  run : Nat → List (Option Value) → Action (Option Value)
  grows (id : Nat) (args : List (Option Value)) (h : Heap) : h.size ≤ ((run id args).outcome h).2.size

def callFunction (constructors : Constructors) : Nat → Call
  | 0, _, _ => throw (ascii "stack overflow")
  | _ + 1, .defined id, args => constructors.run id args
  | depth + 1, .default _, args => defaultConstructor (callFunction constructors depth) args

def validatePrototype (existingClassPrototype : Option Value) : Action Unit :=
  match existingClassPrototype with
  | none => pure ()
  | value => discard (validateTable value (ascii "existingClassPrototype"))

/-- `existingClassPrototype or` a new table. -/
def orNewPrototype (existingClassPrototype : Option Value) : Action Ref :=
  match existingClassPrototype with
  | some (.table r) => pure r
  | _ => newTable

/-- `found or makeDefaultConstructor(class)` -/
def orDefaultConstructor (cls : Ref) (found : Option Value) : Value :=
  match found with
  | none | some (.boolean false) => .function (.default cls)
  | some construct => construct

/-- `class.__mixins` is a new table. -/
def clearMixins (cls : Ref) : Action Unit := do
  let mixins ← newMixinSet
  modify (·.rawset cls .mixins mixins)

/-- `oop.class(classNameToRegister, existingClassPrototype)` -/
def oopClass (classNameToRegister existingClassPrototype : Option Value) : Action (Option Value) := do
  let name ← validateString classNameToRegister (ascii "classNameToRegister")
  validatePrototype existingClassPrototype
  raiseIf ((← get).registeredClasses.lookup name).isSome
    (ascii "Class name " ++ name ++ ascii " is already registered")
  let cls ← orNewPrototype existingClassPrototype
  -- A constructor that the prototype inherits counts as its own.
  let construct := orDefaultConstructor cls (← index cls (.named "Construct"))
  modify (·.rawset cls (.named "Construct") construct)
  modify (·.rawset cls (.named "__name") (.string name))
  clearMixins cls
  modify (·.setmetatable cls { index := some cls, call := some construct })
  modify fun h => { h with registeredClasses := h.registeredClasses.insert name cls }
  return some (.table cls)

def extend (child parent : Option Value) : Action (Option Value) := do
  let childRef ← validateTable child (ascii "child")
  let parentRef ← validateTable parent (ascii "parent")
  match ((← get).tables childRef).metatable with
  | none => throw (ascii "attempt to index local 'childMetatable' (a nil value)")
  | some childMetatable =>
    -- The metatable of the child is changed and not exchanged, so a call still finds its constructor.
    modify (·.setmetatable childRef { childMetatable with index := some parentRef })
    modify (·.rawset childRef (.named "super") (.table parentRef))
    return child

/-- `cls(...)` -/
def callClass (constructors : Constructors) (depth : Nat) (cls : Ref) (args : List (Option Value)) :
    Action (Option Value) :=
  callValue (callFunction constructors depth) none (some (.table cls)) args

/-! ## Instances -/

variable {constructors : Constructors} {call : Call} {depth : Nat} {cls object : Ref}
  {args : List (Option Value)} {h h' : Heap} {result : Option Value}

@[simp] theorem newTable_completes {r : Ref} :
    newTable.Completes h r h' ↔ r = h.size ∧ h' = h.create := by
  rw [newTable, get_bind_completes]
  simp [and_comm]

@[simp] theorem checkTable_completes {value : Option Value} {function : LuaString} {r : Ref} :
    (checkTable value function).Completes h r h' ↔ value = some (.table r) ∧ h' = h := by
  unfold checkTable
  split
  case h_1 r' => simp [eq_comm]
  case h_2 other =>
    simp only [throw_completes, false_iff, not_and]
    intro table
    exact absurd table (other r)

theorem orNewTable_completes {made : Option Value} {object : Ref} :
    (orNewTable made).Completes h object h' ↔
      (truthy made = false ∧ object = h.size ∧ h' = h.create) ∨ (made = some (.table object) ∧ h' = h) := by
  unfold orNewTable
  split
  case isTrue holds =>
    rw [checkTable_completes]
    simp [holds]
  case isFalse fails =>
    rw [newTable_completes]
    have other : made ≠ some (.table object) := by
      rintro rfl
      exact fails rfl
    simp [fails, other]

/-- The call of the parent's constructor, a new table in the place of a false value, and the
link to the class. -/
theorem defaultConstructor_completes :
    (defaultConstructor call (some (.table cls) :: args)).Completes h result h' ↔
      ∃ made middle, (superInstance call cls args).Completes h made middle ∧
        ∃ object linked, (orNewTable made).Completes middle object linked ∧
          h' = linked.setmetatable object { index := some cls } ∧ result = some (.table object) := by
  simp [defaultConstructor]

theorem superInstance_root (root : truthy (h.rawget cls (.named "super")) = false) :
    (superInstance call cls args).Completes h result h' ↔
      result = h.rawget cls (.named "super") ∧ h' = h := by
  rw [superInstance, get_bind_completes]
  simp [root]

theorem superInstance_derived {parent : Option Value}
    (super : h.rawget cls (.named "super") = parent) (derived : truthy parent = true) :
    (superInstance call cls args).Completes h result h' ↔
      ∃ construct middle, (constructorOf parent).Completes h construct middle ∧
        (callValue call (some (ascii "Construct")) construct (some (.table cls) :: args)).Completes
          middle result h' := by
  rw [superInstance, get_bind_completes]
  simp [super, derived]

theorem index_outcome {r : Ref} {key : Key} : (index r key).outcome h = (h.read r key, h) := by
  simp only [index, outcome_bind, outcome_get]
  cases h.read r key <;> rfl

theorem index_completes {r : Ref} {key : Key} {found : Option key.Content} :
    (index r key).Completes h found h' ↔ h.read r key = .ok found ∧ h' = h := by
  rw [Completes, index_outcome, Prod.mk.injEq]
  exact and_congr_right fun _ => eq_comm

theorem callValue_table {name : Option LuaString} {r : Ref} :
    (callValue call name (some (.table r)) args).Completes h result h' ↔
      ∃ f, h.callee r = some (.function f) ∧
        (call f (some (.table r) :: args)).Completes h result h' := by
  rw [callValue, get_bind_completes]
  split
  case h_1 f called => simp [called]
  case h_2 other =>
    simp only [throw_completes, false_iff, not_exists, not_and]
    intro f called
    exact absurd called (other f)

/-- The table was created on the way from one heap to the other one. -/
def New (h h' : Heap) (object : Ref) : Prop := h.size ≤ object ∧ object < h'.size

/-- A call of the class returns a new instance, and reading from it goes on with the class. -/
def MakesInstance (constructors : Constructors) (h : Heap) (cls : Ref) (args : List (Option Value)) : Prop :=
  ∃ enough, ∀ depth, enough ≤ depth → ∃ object h',
    (callClass constructors depth cls args).Completes h (some (.table object)) h' ∧
      New h h' object ∧ h'.parent object = some cls

/-- What a defined constructor returns to the default constructor of a derived class. -/
def Constructors.ReturnsNew (constructors : Constructors) (id : Nat) (args : List (Option Value))
    (h : Heap) : Prop :=
  ∃ made h', (constructors.run id args).Completes h made h' ∧
    (truthy made = false ∨ ∃ object, made = some (.table object) ∧ New h h' object)

/-- The class defines a constructor that makes an instance, or it has the default one and no
parent, or its parent defines a constructor that returns nothing or a new table. -/
inductive CanConstruct (constructors : Constructors) (h : Heap) (cls : Ref)
    (args : List (Option Value)) : Prop
  | defined {id : Nat} {object : Ref} {h' : Heap} (called : h.callee cls = some (.function (.defined id)))
    (made : (constructors.run id (some (.table cls) :: args)).Completes h (some (.table object)) h')
    (new : New h h' object) (linked : h'.parent object = some cls)
  | root {k : Ref} (called : h.callee cls = some (.function (.default k)))
    (root : truthy (h.rawget cls (.named "super")) = false)
  | derived {k parent : Ref} {id : Nat} (called : h.callee cls = some (.function (.default k)))
    (super : h.rawget cls (.named "super") = some (.table parent))
    (found : h.read parent (.named "Construct") = .ok (some (.function (.defined id))))
    (returns : constructors.ReturnsNew id (some (.table cls) :: args) h)

/-- A default constructor that calls a default constructor passes on the same class. -/
theorem callFunction_stuck {parent k : Ref} (super : h.rawget cls (.named "super") = some (.table parent))
    (found : h.read parent (.named "Construct") = .ok (some (.function (.default k)))) (k' : Ref) :
    ¬(callFunction constructors depth (.default k') (some (.table cls) :: args)).Completes h result h' := by
  -- Each level is the same class again with one level less.
  induction depth generalizing result h' k' with
  | zero => exact throw_completes
  | succ depth ih =>
    rw [callFunction, defaultConstructor_completes]
    rintro ⟨made, middle, parentMade, -⟩
    rw [superInstance_derived super rfl] at parentMade
    obtain ⟨construct, same, read, called⟩ := parentMade
    obtain ⟨read, rfl⟩ := index_completes.mp read
    rw [found, Except.ok.injEq] at read
    exact ih k (read ▸ called)

/-! ## Which calls return an instance -/

/-- Every class has the default constructor or defines a function as its constructor. -/
def Heap.ConstructorsAreFunctions (h : Heap) : Prop :=
  ∀ r value, h.rawget r (.named "Construct") = some value → ∃ f, value = .function f

theorem Heap.read_rawget {r : Ref} {key : Key} {content : key.Content}
    (found : h.read r key = .ok (some content)) : ∃ r', h.rawget r' key = some content := by
  unfold Heap.read at found
  split at found
  case h_1 found' search =>
    rw [Except.ok.injEq] at found
    subst found
    exact Chains.nearest_answer (Chains.nearest_of_follow search)
  case h_2 => exact nomatch found

theorem Constructors.size_le {id : Nat} (completed : (constructors.run id args).Completes h result h') :
    h.size ≤ h'.size := by
  have grows := constructors.grows id args h
  rwa [completed] at grows

/-- The default constructor makes an instance of what it gets from the parent's constructor. -/
theorem defaultConstructor_makes {made : Option Value} {middle : Heap}
    (parentMade : (superInstance call cls args).Completes h made middle) (larger : h.size ≤ middle.size)
    (new : truthy made = false ∨ ∃ object, made = some (.table object) ∧ New h middle object) :
    ∃ object h', (defaultConstructor call (some (.table cls) :: args)).Completes h (some (.table object)) h' ∧
      New h h' object ∧ h'.parent object = some cls := by
  obtain ⟨object, linked, completed, new⟩ :
      ∃ object linked, (orNewTable made).Completes middle object linked ∧ New h linked object := by
    rcases new with fails | ⟨object, table, new⟩
    · have created : New h middle.create middle.size := ⟨larger, Nat.lt_succ_self _⟩
      exact ⟨middle.size, middle.create, orNewTable_completes.mpr (.inl ⟨fails, rfl, rfl⟩), created⟩
    · exact ⟨object, middle, orNewTable_completes.mpr (.inr ⟨table, rfl⟩), new⟩
  refine ⟨object, linked.setmetatable object { index := some cls }, ?_, new, by simp⟩
  exact defaultConstructor_completes.mpr ⟨made, middle, parentMade, object, linked, completed, rfl, rfl⟩

theorem CanConstruct.makesInstance (can : CanConstruct constructors h cls args) :
    MakesInstance constructors h cls args := by
  -- One level for the call of the class and one for the constructor of the parent.
  refine ⟨2, fun depth enough => ?_⟩
  obtain ⟨depth, rfl⟩ := Nat.exists_eq_add_of_le' enough
  simp only [callClass, callValue_table]
  cases can with
  | @defined id object h' called made new linked =>
    exact ⟨object, h', ⟨_, called, made⟩, new, linked⟩
  | root called root =>
    have parentMade : (superInstance (callFunction constructors (depth + 1)) cls args).Completes h
        (h.rawget cls (.named "super")) h := (superInstance_root root).mpr ⟨rfl, rfl⟩
    obtain ⟨object, h', completed, made⟩ := defaultConstructor_makes parentMade (Nat.le_refl _) (.inl root)
    exact ⟨object, h', ⟨_, called, completed⟩, made⟩
  | @derived k parent id called super found returns =>
    obtain ⟨made, middle, ran, returned⟩ := returns
    have parentMade : (superInstance (callFunction constructors (depth + 1)) cls args).Completes h made middle :=
      (superInstance_derived super rfl).mpr ⟨_, h, index_completes.mpr ⟨found, rfl⟩, ran⟩
    obtain ⟨object, h', completed, made⟩ :=
      defaultConstructor_makes parentMade (Constructors.size_le ran) returned
    exact ⟨object, h', ⟨_, called, completed⟩, made⟩

theorem constructorOf_completes {super construct : Option Value} :
    (constructorOf super).Completes h construct h' ↔
      (∃ parent, super = some (.table parent) ∧ h.read parent (.named "Construct") = .ok construct ∧ h' = h) ∨
        ∃ s, super = some (.string s) ∧ construct = none ∧ h' = h := by
  unfold constructorOf
  split
  case h_1 parent => exact index_completes.trans (by simp)
  case h_2 s => simp
  case h_3 other notTable notString =>
    simp only [throw_completes, false_iff, not_or, not_exists, not_and]
    exact ⟨fun parent table => absurd table (notTable parent), fun s string => absurd string (notString s)⟩

/-- A default constructor that comes to an end has called no other default constructor. -/
theorem superInstance_ends (functions : h.ConstructorsAreFunctions) {made : Option Value} {middle : Heap}
    (derived : truthy (h.rawget cls (.named "super")) = true)
    (completed : (superInstance (callFunction constructors depth) cls args).Completes h made middle) :
    ∃ parent id, h.rawget cls (.named "super") = some (.table parent) ∧
      h.read parent (.named "Construct") = .ok (some (.function (.defined id))) ∧
      (constructors.run id (some (.table cls) :: args)).Completes h made middle := by
  obtain ⟨construct, same, read, called⟩ := (superInstance_derived rfl derived).mp completed
  rcases constructorOf_completes.mp read with ⟨parent, super, found, rfl⟩ | ⟨s, super, rfl, rfl⟩
  · cases construct with
    | none => exact absurd called throw_completes
    | some value =>
      obtain ⟨r, stored⟩ := Heap.read_rawget found
      obtain ⟨f, rfl⟩ := functions r value stored
      cases f with
      | default k => exact absurd called (callFunction_stuck super found k)
      | defined id =>
        cases depth with
        | zero => exact absurd called throw_completes
        | succ depth => exact ⟨parent, id, super, found, called⟩
  -- The fields of a string have no `Construct`, and nil is not called.
  · exact absurd called throw_completes

theorem canConstruct_of_default (functions : h.ConstructorsAreFunctions) {k : Ref}
    (called : h.callee cls = some (.function (.default k)))
    (completed : (callFunction constructors depth (.default k) (some (.table cls) :: args)).Completes h
      (some (.table object)) h') (new : New h h' object) :
    CanConstruct constructors h cls args := by
  cases depth with
  | zero => exact absurd completed throw_completes
  | succ depth =>
    obtain ⟨made, middle, parentMade, object', linked, chosen, rfl, same⟩ :=
      defaultConstructor_completes.mp completed
    obtain rfl : object = object' := by simpa using same
    cases derived : truthy (h.rawget cls (.named "super")) with
    | false => exact .root called derived
    | true =>
      obtain ⟨parent, id, super, found, ran⟩ := superInstance_ends functions derived parentMade
      refine .derived called super found ⟨made, middle, ran, ?_⟩
      rcases orNewTable_completes.mp chosen with ⟨fails, -⟩ | ⟨table, rfl⟩
      · exact .inl fails
      · exact .inr ⟨object, table, new⟩

/-- A call of a class returns a new instance if and only if the constructor that runs in the
end is not the default one of a parent. -/
theorem makesInstance_iff (constructors : Constructors) (h : Heap) (cls : Ref) (args : List (Option Value))
    (functions : h.ConstructorsAreFunctions) :
    MakesInstance constructors h cls args ↔ CanConstruct constructors h cls args := by
  refine ⟨?_, CanConstruct.makesInstance⟩
  rintro ⟨enough, makes⟩
  obtain ⟨object, h', completed, new, linked⟩ := makes enough (Nat.le_refl enough)
  obtain ⟨f, called, completed⟩ := callValue_table.mp completed
  cases f with
  | default k => exact canConstruct_of_default functions called completed new
  | defined id =>
    cases enough with
    | zero => exact absurd completed throw_completes
    | succ depth => exact .defined called completed new linked

/-! ## A parent and its child -/

/-- Constructors that return nothing. -/
def plainConstructors : Constructors where
  run _ _ := pure none
  grows _ _ _ := Nat.le_refl _

/-- `Parent`, which may define a constructor, and `Child`, which does not and is derived from it. -/
def parentAndChild (construct : Option Value) : Heap :=
  (outcome (do
    let prototype ← newTable
    if let some value := construct then
      modify (·.rawset prototype (.named "Construct") value)
    let parent ← oopClass (some (.string (ascii "Parent"))) (some (.table prototype))
    let child ← oopClass (some (.string (ascii "Child"))) none
    extend child parent) {}).2

theorem parentAndChild_functions :
    (parentAndChild (some (.function (.defined 0)))).ConstructorsAreFunctions := by
  intro r value stored
  match r with
  | 0 => exact ⟨.defined 0, (Option.some.inj stored).symm⟩
  | 1 => exact ⟨.default 1, (Option.some.inj stored).symm⟩
  | r + 2 => exact nomatch stored

/-- The constructor of the parent returns nothing, so the child makes an instance. -/
theorem makesInstance_parentAndChild :
    MakesInstance plainConstructors (parentAndChild (some (.function (.defined 0)))) 1 [] :=
  (makesInstance_iff plainConstructors _ 1 [] parentAndChild_functions).mpr
    (.derived rfl rfl rfl ⟨none, _, rfl, .inl rfl⟩)

/-- Parent and child both have the default constructor. -/
theorem not_makesInstance_default_default :
    ¬MakesInstance plainConstructors (parentAndChild none) 1 [] := by
  rintro ⟨enough, makes⟩
  obtain ⟨object, h', completed, -⟩ := makes enough (Nat.le_refl enough)
  obtain ⟨f, called, completed⟩ := callValue_table.mp completed
  obtain rfl : .default 1 = f := Value.function.inj (Option.some.inj called)
  exact callFunction_stuck rfl rfl 1 completed

end EvoRuntime.Oop
