import EvoRuntime.Library.Runs
import EvoRuntime.Oop.Mixins

/-!
# Inheritance

A program creates tables, writes their fields, and links them with the functions of `oop`.
Which links have been made is remembered beside the heap: a constructor call links an
instance to its class, and `oop.extend` links a child to its parent. The abstract hierarchy
is what these links say, and the heap is what the program reads.

## Main result

`read_nearest_iff`: in every reachable state without a cycle of links, a read finds the
nearest definition if and only if no class in front of it is still linked to itself.

## Proof strategy

`oop.class` links a table to itself, and all other links of the heap are those of the
hierarchy (`Linked`). So a read follows the hierarchy up to the first table that is linked
to itself.
-/
namespace EvoRuntime.Oop

open Lua Library Raising

variable (host : Surroundings)

/-- The heap and the links that have been made. -/
structure Objects where
  heap : Heap := {}
  parents : Ref → Option Ref := fun _ => none

/-- What a program does with its tables. -/
inductive Operation
  | create
  | assign (r : Ref) (key : Value) (value : Option Value)
  | oopClass (classNameToRegister existingClassPrototype : Option Value)
  /-- The last step of the default constructor. -/
  | link (object cls : Ref)
  | extend (child parent : Option Value)
  | mixin (target : Option Value) (sources : List (Option Value))

/-- `r[key] = value` -/
def Heap.assign (h : Heap) (r : Ref) (key : Value) (value : Option Value) : Heap :=
  match value with
  | some value => h.rawset r (.value key) value
  | none => h.update r fun table => { table with fields := table.fields.erase (.value key) }

/-- An operation that raises an error leaves what it has changed. -/
def Operation.apply (o : Objects) : Operation → Objects
  | .create => { o with heap := o.heap.create }
  | .assign r key value => { o with heap := o.heap.assign r key value }
  | .oopClass name prototype => { o with heap := ((Oop.oopClass name prototype).outcome o.heap).2 }
  | .link object cls =>
    ⟨o.heap.setmetatable object { index := some cls }, Function.update o.parents object (some cls)⟩
  | .extend child parent =>
    match (Oop.extend child parent).outcome o.heap, child, parent with
    | (.ok _, h), some (.table c), some (.table p) => ⟨h, Function.update o.parents c (some p)⟩
    | (_, h), _, _ => { o with heap := h }
  | .mixin target sources => { o with heap := ((Oop.mixin host target sources).outcome o.heap).2 }

def refs : Option Value → List Ref
  | some (.table r) => [r]
  | _ => []

/-- The tables that an operation is given. -/
def Operation.refs : Operation → List Ref
  | .create => []
  | .assign r _ value => r :: Oop.refs value
  | .oopClass _ prototype => Oop.refs prototype
  | .link object cls => [object, cls]
  | .extend child parent => Oop.refs child ++ Oop.refs parent
  | .mixin target sources => Oop.refs target ++ sources.flatMap Oop.refs

def operations : System Objects Operation Empty where
  Initial o := o = {}
  Enabled o operation := ∀ r ∈ operation.refs, r < o.heap.size
  step o operation := .ok (operation.apply host o)

/-! ## Links of the heap -/

/-- The links of the heap are those of the hierarchy, or they lead from a table to itself. -/
structure Linked (o : Objects) : Prop where
  proper : ∀ y, o.heap.parent y = o.parents y ∨ o.heap.parent y = some y
  inside : ∀ x y, o.parents x = some y → x < o.heap.size

/-- No links but those of tables to themselves are new. -/
structure SelfLinked (h h' : Heap) : Prop where
  size : h.size ≤ h'.size
  links : ∀ y, h'.parent y = h.parent y ∨ h'.parent y = some y ∨ h.size ≤ y ∧ h'.parent y = none

variable {host} {h h' : Heap} {o : Objects}

namespace SelfLinked

theorem refl (h : Heap) : SelfLinked h h := ⟨Nat.le_refl _, fun _ => .inl rfl⟩

theorem of_parent (linked : SelfLinked h h') {h'' : Heap} (size : h''.size = h'.size)
    (parent : h''.parent = h'.parent) : SelfLinked h h'' := by
  refine ⟨linked.size.trans size.ge, fun y => ?_⟩
  rw [parent]
  exact linked.links y

theorem create (linked : SelfLinked h h') : SelfLinked h h'.create := by
  refine ⟨linked.size.trans (Nat.le_succ _), fun y => ?_⟩
  by_cases here : y = h'.size
  · subst here
    exact .inr (.inr ⟨linked.size, by simp [Heap.parent, Heap.create]⟩)
  · have same : h'.create.parent y = h'.parent y := by
      simp [Heap.parent, Heap.create, Function.update_of_ne here]
    rw [same]
    exact linked.links y

theorem setmetatable (linked : SelfLinked h h') (r : Ref) (call : Option Value) :
    SelfLinked h (h'.setmetatable r { index := some r, call := call }) := by
  refine ⟨linked.size, fun y => ?_⟩
  by_cases here : y = r
  · subst here
    exact .inr (.inl (Heap.parent_setmetatable_self _))
  · rw [Heap.parent_setmetatable_other here]
    exact linked.links y

end SelfLinked

theorem keeps_index {P : Heap → Prop} (r : Ref) (key : Key) : Keeps P (index r key) := by
  intro s held
  rw [index_outcome]
  exact held

theorem keeps_validateTable {P : Heap → Prop} (value : Option Value) (name : LuaString) :
    Keeps P (validateTable value name) := by
  unfold validateTable
  split
  · exact .pure
  · exact .throw

theorem keeps_validatePrototype {P : Heap → Prop} (value : Option Value) : Keeps P (validatePrototype value) := by
  unfold validatePrototype
  split
  · exact .pure
  · exact .bind (keeps_validateTable _ _) fun _ => .pure

/-- What the single steps of `oop.class` keep. -/
theorem keeps_oopClass {P : Heap → Prop} (create : ∀ s, P s → P s.create)
    (field : ∀ s cls key value, P s → P (s.rawset cls (.value key) value))
    (mixins : ∀ cls, Keeps P (clearMixins cls))
    (link : ∀ s cls call, P s → P (s.setmetatable cls { index := some cls, call := call }))
    (register : ∀ s classes, P s → P { s with registeredClasses := classes })
    (name prototype : Option Value) : Keeps P (oopClass name prototype) := by
  have named : Keeps P (validateString name (ascii "classNameToRegister")) := by
    unfold validateString
    split
    · exact .pure
    · exact .throw
  have table : Keeps P (orNewPrototype prototype) := by
    unfold orNewPrototype
    split
    · exact .pure
    · exact .bind .get fun _ => .bind (.modify create) fun _ => .pure
  unfold oopClass
  exact .bind named fun _ => .bind (keeps_validatePrototype _) fun _ => .bind .get fun _ =>
    .bind .raiseIf fun _ => .bind table fun cls => .bind (keeps_index _ _) fun _ =>
    .bind (.modify fun s => field s cls _ _) fun _ => .bind (.modify fun s => field s cls _ _) fun _ =>
    .bind (mixins cls) fun _ => .bind (.modify fun s => link s cls _) fun _ =>
    .bind (.modify fun s => register s _) fun _ => .pure

theorem oopClass_selfLinked (name prototype : Option Value) (h : Heap) :
    SelfLinked h ((oopClass name prototype).outcome h).2 := by
  have mixins : ∀ cls, Keeps (SelfLinked h) (clearMixins cls) := fun cls _ linked =>
    linked.of_parent rfl (Heap.parent_rawset _)
  have create : ∀ s, SelfLinked h s → SelfLinked h s.create := fun _ => SelfLinked.create
  refine keeps_oopClass create ?_ mixins ?_ ?_ name prototype h (.refl h)
  · exact fun _ _ _ value linked => linked.of_parent rfl (Heap.parent_rawset value)
  · exact fun _ cls call linked => linked.setmetatable cls call
  · exact fun _ _ linked => linked.of_parent rfl rfl

/-- `oop.extend` links the child to the parent, or it raises an error and changes nothing. -/
theorem extend_cases (child parent : Option Value) (h : Heap) :
    (∃ (c p : Ref) (metatable : Metatable), child = some (.table c) ∧ parent = some (.table p) ∧
      (extend child parent).outcome h = (.ok child,
        (h.setmetatable c { metatable with index := some p }).rawset c (.named "super") (.table p))) ∨
      ∃ message, (extend child parent).outcome h = (.error message, h) := by
  match child, parent with
  | some (.table c), some (.table p) =>
    cases linked : (h.tables c).metatable with
    | none =>
      refine .inr ⟨ascii "attempt to index local 'childMetatable' (a nil value)", ?_⟩
      simp only [extend, validateTable, pure_bind, outcome_bind, outcome_get, linked]
      rfl
    | some metatable =>
      refine .inl ⟨c, p, metatable, rfl, rfl, ?_⟩
      simp only [extend, validateTable, pure_bind, outcome_bind, outcome_get, linked]
      rfl
  | some (.table c), none | some (.table c), some (.boolean _) | some (.table c), some (.string _)
  | some (.table c), some (.function _) | some (.table c), some (.other _ _) => exact .inr ⟨_, rfl⟩
  | none, _ | some (.boolean _), _ | some (.string _), _ | some (.function _), _ | some (.other _ _), _ =>
    exact .inr ⟨_, rfl⟩

theorem mixin_links (target : Option Value) (sources : List (Option Value)) (h : Heap) :
    ((mixin host target sources).outcome h).2.parent = h.parent ∧
      ((mixin host target sources).outcome h).2.size = h.size := by
  match target with
  | some (.table target) =>
    cases read : h.read target .mixins with
    | error message =>
      rw [mixin_read_error read]
      exact ⟨rfl, rfl⟩
    | ok found =>
      obtain ⟨set, s, started, mixed⟩ := mixin_mixed host sources read
      exact ⟨mixed.extended.parent.trans started.parent, mixed.extended.size.trans started.size⟩
  | none | some (.boolean _) | some (.string _) | some (.function _) | some (.other _ _) => exact ⟨rfl, rfl⟩

theorem Linked.of_selfLinked (linked : Linked o) (changed : SelfLinked o.heap h') :
    Linked { o with heap := h' } := by
  refine ⟨fun y => ?_, fun x y made => lt_of_lt_of_le (linked.inside x y made) changed.size⟩
  rcases changed.links y with same | self | ⟨new, ends⟩
  · rw [same]
    exact linked.proper y
  · exact .inr self
  -- A table that does not exist yet has no link.
  · have unlinked : o.parents y = none := by
      rw [Option.eq_none_iff_forall_ne_some]
      intro p made
      exact absurd (linked.inside y p made) (Nat.not_lt.mpr new)
    exact .inl (ends.trans unlinked.symm)

theorem Linked.link (linked : Linked o) {x y : Ref} (inside : x < o.heap.size) (size : h'.size = o.heap.size)
    (here : h'.parent x = some y) (others : ∀ z, z ≠ x → h'.parent z = o.heap.parent z) :
    Linked ⟨h', Function.update o.parents x (some y)⟩ := by
  have parents : ∀ z, z ≠ x → Function.update o.parents x (some y) z = o.parents z := fun z other =>
    Function.update_of_ne other ..
  constructor
  case proper =>
    intro z
    by_cases same : z = x
    · subst same
      exact .inl (here.trans (Function.update_self z (some y) o.parents).symm)
    · refine (linked.proper z).imp (fun link => ?_) (fun self => (others z same).trans self)
      exact ((others z same).trans link).trans (parents z same).symm
  case inside =>
    intro z w made
    by_cases same : z = x
    · exact lt_of_lt_of_eq (same ▸ inside) size.symm
    · exact lt_of_lt_of_eq (linked.inside z w ((parents z same).symm.trans made)) size.symm

theorem assign_size (h : Heap) (r : Ref) (key : Value) (value : Option Value) :
    (h.assign r key value).size = h.size := by
  cases value <;> rfl

theorem parent_assign (h : Heap) (r : Ref) (key : Value) (value : Option Value) :
    (h.assign r key value).parent = h.parent := by
  unfold Heap.assign
  cases value <;> exact Heap.parent_update fun _ => rfl

theorem linked_inductive : (operations host).Inductive Linked := by
  constructor
  case initial =>
    rintro o rfl
    exact ⟨fun y => .inl rfl, nofun⟩
  case preserved =>
    intro o operation linked enabled
    refine ⟨_, rfl, ?_⟩
    -- Only `link` and `extend` change the hierarchy.
    cases operation with
    | create => exact linked.of_selfLinked (SelfLinked.refl _).create
    | assign r key value =>
      exact linked.of_selfLinked ((SelfLinked.refl _).of_parent (assign_size ..) (parent_assign ..))
    | oopClass name prototype => exact linked.of_selfLinked (oopClass_selfLinked name prototype o.heap)
    | link object cls =>
      exact linked.link (enabled object (by simp [Operation.refs])) rfl (Heap.parent_setmetatable_self _)
        fun z other => Heap.parent_setmetatable_other other _
    | extend child parent =>
      rcases extend_cases child parent o.heap with ⟨c, p, metatable, rfl, rfl, ran⟩ | ⟨message, raised⟩
      · simp only [Operation.apply, ran]
        refine linked.link (enabled c (by simp [Operation.refs, refs])) rfl ?_ fun z other => ?_
        · rw [Heap.parent_rawset, Heap.parent_setmetatable_self]
        · rw [Heap.parent_rawset, Heap.parent_setmetatable_other other]
      · simp only [Operation.apply, raised]
        exact linked
    | mixin target sources =>
      obtain ⟨links, size⟩ : ((mixin host target sources).outcome o.heap).2.parent = o.heap.parent ∧
          ((mixin host target sources).outcome o.heap).2.size = o.heap.size :=
        mixin_links target sources o.heap
      exact linked.of_selfLinked ((SelfLinked.refl _).of_parent size links)

/-! ## Constructor calls -/

theorem apply_size (operation : Operation) : o.heap.size ≤ (operation.apply host o).heap.size := by
  cases operation with
  | create => exact Nat.le_succ _
  | assign r key value => exact (assign_size ..).ge
  | oopClass name prototype => exact (oopClass_selfLinked name prototype o.heap).size
  | link object cls => exact Nat.le_refl _
  | extend child parent =>
    rcases extend_cases child parent o.heap with ⟨c, p, metatable, rfl, rfl, ran⟩ | ⟨message, raised⟩
    · simp [Operation.apply, ran]
    · simp [Operation.apply, raised]
  | mixin target sources => exact (mixin_links target sources o.heap).2.ge

theorem run_size {o o' : Objects} {performed : List Operation} (run : (operations host).Run o performed o') :
    o.heap.size ≤ o'.heap.size := by
  induction run with
  | start => exact Nat.le_refl _
  | @step s' s'' performed operation before enabled stepped ih =>
    obtain rfl : operation.apply host s' = s'' := Except.ok.inj stepped
    exact ih.trans (apply_size operation)

/-- What a call does to the heap is what some operations do, and the table that it returns
exists. -/
def Performs (host : Surroundings) (o : Objects) (m : Action (Option Value)) : Prop :=
  ∃ performed o', (operations host).Run o performed o' ∧ (m.outcome o.heap).2 = o'.heap ∧
    ∀ r, (m.outcome o.heap).1 = .ok (some (.table r)) → r < o'.heap.size

theorem performs_nothing {m : Action (Option Value)} {message : LuaString}
    (raised : m.outcome o.heap = (.error message, o.heap)) : Performs host o m :=
  ⟨[], o, .start, congrArg Prod.snd raised, fun _ returned => nomatch raised ▸ returned⟩

theorem orNewTable_cases (made : Option Value) (h : Heap) :
    (truthy made = false ∧ (orNewTable made).outcome h = (.ok h.size, h.create)) ∨
      (∃ object, made = some (.table object) ∧ (orNewTable made).outcome h = (.ok object, h)) ∨
      ∃ message, (orNewTable made).outcome h = (.error message, h) := by
  match made with
  | none | some (.boolean false) => exact .inl ⟨rfl, rfl⟩
  | some (.table object) => exact .inr (.inl ⟨object, rfl, rfl⟩)
  | some (.boolean true) | some (.string _) | some (.function _) | some (.other _ _) =>
    exact .inr (.inr ⟨_, rfl⟩)

theorem defaultConstructor_outcome {call : Call} {cls : Ref} {args : List (Option Value)} :
    (defaultConstructor call (some (.table cls) :: args)).outcome h =
      match (superInstance call cls args).outcome h with
      | (.error message, middle) => (.error message, middle)
      | (.ok made, middle) =>
        match (orNewTable made).outcome middle with
        | (.error message, linked) => (.error message, linked)
        | (.ok object, linked) =>
          (.ok (some (.table object)), linked.setmetatable object { index := some cls }) := by
  simp only [defaultConstructor, List.head?_cons, Option.join_some, checkTable, pure_bind, outcome_bind,
    List.tail_cons]
  cases (superInstance call cls args).outcome h with
  | mk result middle =>
    cases result with
    | error message => rfl
    | ok made =>
      simp only []
      cases (orNewTable made).outcome middle with
      | mk result linked => cases result <;> rfl

theorem link_enabled {object cls : Ref} (object_ : object < o.heap.size) (cls_ : cls < o.heap.size) :
    (operations host).Enabled o (.link object cls) := by
  intro r member
  rcases List.mem_pair.mp member with rfl | rfl
  · exact object_
  · exact cls_

/-- The steps of the default constructor after the call of the parent's constructor. -/
theorem defaultConstructor_performs {call : Call} {cls : Ref} {args : List (Option Value)}
    (inside : cls < o.heap.size) (parentMade : Performs host o (superInstance call cls args)) :
    Performs host o (defaultConstructor call (some (.table cls) :: args)) := by
  obtain ⟨performed, o', run, same, returned⟩ := parentMade
  have inside' := lt_of_lt_of_le inside (run_size run)
  unfold Performs
  rw [defaultConstructor_outcome]
  cases ran : (superInstance call cls args).outcome o.heap with
  | mk result middle =>
    obtain rfl : middle = o'.heap := by rw [← same, ran]
    cases result with
    | error message => exact ⟨performed, o', run, rfl, nofun⟩
    | ok made =>
      rcases orNewTable_cases made o'.heap with ⟨-, created⟩ | ⟨object, rfl, found⟩ | ⟨message, raised⟩
      · have size : o'.heap.size < o'.heap.create.size := Nat.lt_succ_self _
        have create : (operations host).Run o (performed ++ [.create]) ⟨o'.heap.create, o'.parents⟩ :=
          run.step nofun rfl
        simp only [created]
        refine ⟨_, _, create.step (link_enabled size (inside'.trans size)) rfl, rfl, ?_⟩
        intro r same
        obtain rfl : o'.heap.size = r := by simpa using same
        exact size
      · have object_ : object < o'.heap.size := returned object (by rw [ran])
        simp only [found]
        refine ⟨_, _, run.step (link_enabled object_ inside') rfl, rfl, ?_⟩
        intro r same
        obtain rfl : object = r := by simpa using same
        exact object_
      · simp only [raised]
        exact ⟨performed, o', run, rfl, nofun⟩

/-- The constructors that a program defines do what some operations do. -/
def Constructors.Perform (constructors : Constructors) (host : Surroundings) : Prop :=
  ∀ id args o, (∀ r, some (.table r) ∈ args → r < o.heap.size) → Performs host o (constructors.run id args)

theorem constructorOf_cases (super : Option Value) (h : Heap) :
    (∃ construct, (constructorOf super).outcome h = (.ok construct, h) ∧
      ∀ value, construct = some value → ∃ r, h.rawget r (.named "Construct") = some value) ∨
      ∃ message, (constructorOf super).outcome h = (.error message, h) := by
  match super with
  | some (.table parent) =>
    rw [constructorOf, index_outcome]
    cases read : h.read parent (.named "Construct") with
    | error message => exact .inr ⟨message, rfl⟩
    | ok construct => exact .inl ⟨construct, rfl, fun value same => Heap.read_rawget (same ▸ read)⟩
  | some (.string s) => exact .inl ⟨none, rfl, nofun⟩
  | none | some (.boolean _) | some (.function _) | some (.other _ _) => exact .inr ⟨_, rfl⟩

variable {constructors : Constructors} {depth : Nat}

theorem superInstance_performs (functions : o.heap.ConstructorsAreFunctions) {cls : Ref}
    {args : List (Option Value)}
    (calls : ∀ f, Performs host o (callFunction constructors depth f (some (.table cls) :: args))) :
    Performs host o (superInstance (callFunction constructors depth) cls args) := by
  cases derived : truthy (o.heap.rawget cls (.named "super")) with
  | false =>
    have root : (superInstance (callFunction constructors depth) cls args).outcome o.heap =
        (.ok (o.heap.rawget cls (.named "super")), o.heap) := (superInstance_root derived).mpr ⟨rfl, rfl⟩
    refine ⟨[], o, .start, by rw [root], fun r returned => ?_⟩
    rw [root, Except.ok.injEq] at returned
    rw [returned] at derived
    cases derived
  | true =>
    have steps : (superInstance (callFunction constructors depth) cls args).outcome o.heap =
        (constructorOf (o.heap.rawget cls (.named "super")) >>= fun construct =>
          callValue (callFunction constructors depth) (some (ascii "Construct")) construct
            (some (.table cls) :: args)).outcome o.heap := by
      simp only [superInstance, outcome_bind, outcome_get, derived, if_true]
    unfold Performs
    rw [steps, outcome_bind]
    rcases constructorOf_cases (o.heap.rawget cls (.named "super")) o.heap with
      ⟨construct, found, stored⟩ | ⟨message, raised⟩
    · rw [found]
      cases construct with
      -- No constructor is found, and the call of nil raises an error.
      | none => exact performs_nothing rfl
      | some value =>
        obtain ⟨r, own⟩ := stored value rfl
        obtain ⟨f, rfl⟩ := functions r value own
        exact calls f
    · rw [raised]
      refine ⟨[], o, .start, rfl, fun r returned => ?_⟩
      cases returned

/-- The call of a constructor is made up of operations. -/
theorem callFunction_performs (perform : constructors.Perform host) (functions : o.heap.ConstructorsAreFunctions)
    (f : Function) (args : List (Option Value)) (inside : ∀ r, some (.table r) ∈ args → r < o.heap.size) :
    Performs host o (callFunction constructors depth f args) := by
  induction depth generalizing f args with
  | zero => exact performs_nothing rfl
  | succ depth ih =>
    cases f with
    | defined id => exact perform id args o inside
    | default k =>
      match args with
      | some (.table cls) :: args =>
        exact defaultConstructor_performs (inside cls List.mem_cons_self)
          (superInstance_performs functions fun f => ih f _ inside)
      | [] | none :: _ | some (.boolean _) :: _ | some (.string _) :: _ | some (.function _) :: _
      | some (.other _ _) :: _ => exact performs_nothing rfl

/-- So whatever holds of every reachable state holds after constructor calls as well. -/
theorem callClass_performs (perform : constructors.Perform host) (functions : o.heap.ConstructorsAreFunctions)
    {cls : Ref} {args : List (Option Value)}
    (inside : ∀ r, some (.table r) ∈ some (.table cls) :: args → r < o.heap.size) :
    Performs host o (callClass constructors depth cls args) := by
  unfold Performs
  rw [callClass, callValue, outcome_bind, outcome_get]
  simp only []
  split
  · exact callFunction_performs perform functions _ _ inside
  · exact performs_nothing rfl

/-! ## Reading -/

/-- A read finds the nearest definition if and only if no table that it passes over is
linked to itself. -/
theorem Linked.read_iff (linked : Linked o) (acyclic : Chains.Acyclic o.parents) (x : Ref) (key : Key) :
    (∃ found, o.heap.read x key = .ok found ∧ Chains.Nearest o.parents (o.heap.rawget · key) x found) ↔
      ∀ y, Chains.PassedOver o.parents (o.heap.rawget · key) x y → o.heap.parent y ≠ some y := by
  constructor
  · rintro ⟨found, read, -⟩ y passed self
    have stuck : Chains.follow o.heap.parent (o.heap.rawget · key) (o.heap.size + 1) x = none :=
      Chains.follow_self linked.proper passed self
    rw [Heap.read, stuck] at read
    cases read
  · intro straight
    -- Where no table is linked to itself, both graphs have the same links.
    have same : Chains.follow o.heap.parent (o.heap.rawget · key) (o.heap.size + 1) x =
        Chains.follow o.parents (o.heap.rawget · key) (o.heap.size + 1) x :=
      Chains.follow_congr_passedOver fun y passed => (linked.proper y).resolve_right (straight y passed)
    have inside : ∀ y p, o.parents y = some p → y ∈ Finset.range o.heap.size := fun y p made =>
      Finset.mem_range.mpr (linked.inside y p made)
    obtain ⟨found, search⟩ := acyclic.follow inside x
    rw [Finset.card_range] at search
    refine ⟨found, ?_, Chains.nearest_of_follow search⟩
    rw [Heap.read, same, search]

/-- Reading a key of a class or an instance finds the nearest definition along the links, or
`nil` when there is none, if and only if the tables that are passed over have been linked to
a parent after they were registered. -/
theorem read_nearest_iff (host : Surroundings) {o : Objects} (reached : (operations host).Reachable o)
    (acyclic : Chains.Acyclic o.parents) (x : Ref) (key : Key) :
    (∃ found, o.heap.read x key = .ok found ∧ Chains.Nearest o.parents (o.heap.rawget · key) x found) ↔
      ∀ y, Chains.PassedOver o.parents (o.heap.rawget · key) x y → o.heap.parent y ≠ some y :=
  (linked_inductive.reachable reached).read_iff acyclic x key

/-- The class `Account` is table 0. -/
def account : Objects :=
  (Operation.oopClass (some (.string (ascii "Account"))) none).apply plainSurroundings {}

/-- Its instance is table 1. -/
def accountInstance : Objects :=
  (Operation.link 1 0).apply plainSurroundings (Operation.create.apply plainSurroundings account)

theorem account_reachable : (operations plainSurroundings).Reachable account := by
  have start : (operations plainSurroundings).Reachable {} := ⟨{}, [], rfl, .start⟩
  have enabled : (operations plainSurroundings).Enabled {} (.oopClass (some (.string (ascii "Account"))) none) := by
    simp [operations, Operation.refs, refs]
  exact start.next enabled rfl

theorem accountInstance_reachable : (operations plainSurroundings).Reachable accountInstance := by
  have created : (operations plainSurroundings).Enabled account .create := by
    simp [operations, Operation.refs]
  have linked : (operations plainSurroundings).Enabled (Operation.create.apply plainSurroundings account)
      (.link 1 0) := by
    intro r member
    have small : r < 2 := by
      rcases List.mem_pair.mp member with rfl | rfl <;> decide
    exact small
  exact (account_reachable.next created rfl).next linked rfl

theorem accountInstance_parents {x y : Ref} (linked : accountInstance.parents x = some y) : x = 1 ∧ y = 0 := by
  by_cases here : x = 1
  · subst here
    exact ⟨rfl, (Option.some.inj linked).symm⟩
  · have none_ : accountInstance.parents x = none := Function.update_of_ne here ..
    exact nomatch none_.symm.trans linked

theorem accountInstance_acyclic : Chains.Acyclic accountInstance.parents := by
  have falls : ∀ x y, accountInstance.parents x = some y → id y < id x := by
    intro x y linked
    obtain ⟨rfl, rfl⟩ := accountInstance_parents linked
    exact Nat.zero_lt_one
  exact Chains.acyclic_of_rank falls

/-- The name of the class is read through the instance. -/
theorem read_accountInstance :
    ∃ found, accountInstance.heap.read 1 (.named "__name") = .ok found ∧
      Chains.Nearest accountInstance.parents (accountInstance.heap.rawget · (.named "__name")) 1 found := by
  refine (read_nearest_iff plainSurroundings accountInstance_reachable accountInstance_acyclic 1
    (.named "__name")).mpr fun y passed => ?_
  cases passed with
  | here => exact nofun
  | link silent linked rest =>
    obtain ⟨-, rfl⟩ := accountInstance_parents linked
    cases rest with
    | here named => exact nomatch named
    | link named => exact nomatch named

/-- A key that the class does not have is looked up in the class again and again. -/
theorem read_account_missing :
    ∃ o, (operations plainSurroundings).Reachable o ∧ Chains.Acyclic o.parents ∧
      ¬∃ found, o.heap.read 0 (.named "balance") = .ok found ∧
        Chains.Nearest o.parents (o.heap.rawget · (.named "balance")) 0 found := by
  have falls : ∀ x y, account.parents x = some y → id y < id x := nofun
  refine ⟨account, account_reachable, Chains.acyclic_of_rank falls, ?_⟩
  rintro ⟨found, read, -⟩
  exact nomatch read

end EvoRuntime.Oop
