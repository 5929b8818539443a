import EvoRuntime.Oop.Inheritance

/-!
# Sets of mixins that are shared

`oop.mixin` looks up `__mixins` along the links, so a target without a set of its own gets
the one that it inherits. Sources are then registered for all objects that find this set.

## Main result

`mixin_frame_iff`: in every reachable state, `oop.mixin` makes a difference for the target
and for what inherits from it only, if and only if no other object finds the same set.

## Proof strategy

Reading from an object that does not inherit from the target is not changed by the call
(`read_outside`). A set made by the call is found by none of these objects, as all sets
that are found have been made before (`Allocated`).
-/
namespace EvoRuntime.Oop

open Lua Library Raising

variable {host : Surroundings} {h h' s s' : Heap} {o : Objects}

/-! ## Sets that have been made -/

def Allocated (h : Heap) : Prop := ∀ r set, h.rawget r .mixins = some set → set < h.numMixinSets

namespace Allocated

theorem of_same (allocated : Allocated h) (own : ∀ r, h'.rawget r .mixins = h.rawget r .mixins)
    (more : h.numMixinSets ≤ h'.numMixinSets) : Allocated h' := fun r set found =>
  lt_of_lt_of_le (allocated r set ((own r).symm.trans found)) more

theorem create (allocated : Allocated h) : Allocated h.create := by
  intro r set found
  by_cases here : r = h.size
  · subst here
    simp [Heap.rawget, Heap.create] at found
  · have same : h.create.rawget r .mixins = h.rawget r .mixins := by
      simp [Heap.rawget, Heap.create, Function.update_of_ne here]
    exact allocated r set (same.symm.trans found)

theorem rawset_value (allocated : Allocated h) (r : Ref) (key value : Value) :
    Allocated (h.rawset r (.value key) value) := by
  refine allocated.of_same (fun r' => ?_) (Nat.le_refl _)
  by_cases here : r' = r
  · subst here
    have other : Key.mixins ≠ .value key := nofun
    exact Heap.rawget_rawset_key other value
  · exact Heap.rawget_rawset_table here _

theorem rawset_mixins (allocated : Allocated h) (r : Ref) {set : MixinSet} (made : set < h.numMixinSets) :
    Allocated (h.rawset r .mixins set) := by
  intro r' set' found
  by_cases here : r' = r
  · subst here
    rw [Heap.rawget_rawset_self, Option.some.injEq] at found
    exact found ▸ made
  · rw [Heap.rawget_rawset_table here] at found
    exact allocated r' set' found

theorem setmetatable (allocated : Allocated h) (r : Ref) (metatable : Metatable) :
    Allocated (h.setmetatable r metatable) :=
  allocated.of_same (fun _ => Heap.rawget_setmetatable _) (Nat.le_refl _)

theorem assign (allocated : Allocated h) (r : Ref) (key : Value) (value : Option Value) :
    Allocated (h.assign r key value) := by
  cases value with
  | some value => exact allocated.rawset_value r key value
  | none =>
    refine allocated.of_same (fun r' => ?_) (Nat.le_refl _)
    by_cases here : r' = r
    · subst here
      simp [Heap.rawget, Heap.assign, AList.lookup_erase_ne]
    · simp [Heap.rawget, Heap.assign, Heap.update_tables_other here]

end Allocated

theorem keeps_clearMixins (cls : Ref) : Keeps Allocated (clearMixins cls) := by
  intro h allocated
  have more : Allocated h.createMixinSet := allocated.of_same (fun _ => rfl) (Nat.le_succ _)
  exact more.rawset_mixins cls (Nat.lt_succ_self _)

theorem read_allocated (allocated : Allocated h) {r : Ref} {set : MixinSet}
    (read : h.read r .mixins = .ok (some set)) : set < h.numMixinSets := by
  obtain ⟨owner, own⟩ := Heap.read_rawget read
  exact allocated owner set own

theorem mixin_allocated (target : Option Value) (sources : List (Option Value)) (allocated : Allocated h) :
    Allocated ((mixin host target sources).outcome h).2 := by
  match target with
  | some (.table target) =>
    cases read : h.read target .mixins with
    | error message =>
      rw [mixin_read_error read]
      exact allocated
    | ok found =>
      obtain ⟨set, s, started, mixed⟩ := mixin_mixed host sources read
      -- The set of the target has been found or made by the call.
      have made : set < s.numMixinSets ∧ h.numMixinSets ≤ s.numMixinSets := by
        cases found with
        | none =>
          obtain ⟨rfl, -, more⟩ := started.created rfl
          rw [more]
          exact ⟨Nat.lt_succ_self _, Nat.le_succ _⟩
        | some other =>
          obtain ⟨rfl, -, same⟩ := started.inherited other rfl
          rw [same]
          exact ⟨read_allocated allocated read, Nat.le_refl _⟩
      intro r other own
      rw [mixed.extended.numMixinSets]
      by_cases here : r = target
      · subst here
        rw [mixed.extended.kept _ _ started.own, Option.some.injEq] at own
        exact own ▸ made.1
      · rw [Heap.rawget, mixed.extended.tables r here, started.tables r here] at own
        exact lt_of_lt_of_le (allocated r other own) made.2
  | none | some (.boolean _) | some (.string _) | some (.function _) | some (.other _ _) => exact allocated

theorem allocated_inductive : (operations host).Inductive (fun o => Allocated o.heap) := by
  constructor
  case initial =>
    rintro o rfl
    exact fun r set found => nomatch found
  case preserved =>
    intro o operation allocated enabled
    refine ⟨_, rfl, ?_⟩
    cases operation with
    | create => exact allocated.create
    | assign r key value => exact allocated.assign r key value
    | oopClass name prototype =>
      have create : ∀ s, Allocated s → Allocated s.create := fun _ => Allocated.create
      refine keeps_oopClass create ?_ keeps_clearMixins ?_ ?_ name prototype o.heap allocated
      · exact fun _ cls key value allocated => allocated.rawset_value cls key value
      · exact fun _ cls call allocated => allocated.setmetatable cls _
      · exact fun _ _ allocated => allocated
    | link object cls => exact allocated.setmetatable object _
    | extend child parent =>
      rcases extend_cases child parent o.heap with ⟨c, p, metatable, rfl, rfl, ran⟩ | ⟨message, raised⟩
      · simp only [Operation.apply, ran]
        exact (allocated.setmetatable c _).rawset_value c _ _
      · simp only [Operation.apply, raised]
        exact allocated
    | mixin target sources => exact mixin_allocated target sources allocated

/-! ## Objects outside -/

/-- Reading from an object goes on to another one. -/
def Inherits (h : Heap) : Ref → Ref → Prop := Relation.TransGen (Chains.Link h.parent)

variable {x target source : Ref} {sources : List (Option Value)}

/-- The call changes no field of another table. -/
theorem mixin_others (target : Ref) (sources : List (Option Value)) {r : Ref} (other : r ≠ target) :
    ((mixin host (some (.table target)) sources).outcome h).2.tables r = h.tables r := by
  cases read : h.read target .mixins with
  | error message => rw [mixin_read_error read]
  | ok found =>
    obtain ⟨set, s, started, mixed⟩ := mixin_mixed host sources read
    rw [mixed.extended.tables r other, started.tables r other]

theorem read_outside (other : x ≠ target) (outside : ¬Inherits h x target) (key : Key) :
    ((mixin host (some (.table target)) sources).outcome h).2.read x key = h.read x key := by
  obtain ⟨links, size⟩ : ((mixin host (some (.table target)) sources).outcome h).2.parent = h.parent ∧
      ((mixin host (some (.table target)) sources).outcome h).2.size = h.size :=
    mixin_links (some (.table target)) sources h
  -- The read never gets to the target.
  have same : ∀ y, Relation.ReflTransGen (Chains.Link h.parent) x y → y ≠ target := by
    rintro y reached rfl
    rcases Relation.reflTransGen_iff_eq_or_transGen.mp reached with rfl | inherits
    · exact other rfl
    · exact outside inherits
  rw [Heap.read, Heap.read, size, Chains.follow_congr]
  intro y reached
  refine ⟨by rw [links], ?_⟩
  rw [Heap.rawget, mixin_others target sources (same y reached), Heap.rawget]

theorem implements_ok {answer : Bool} :
    ((implements (some (.table x)) (some (.table source))).outcome h).1 = .ok answer ↔
      ∃ found, h.read x .mixins = .ok found ∧
        found.elim false (fun set => decide (source ∈ h.mixinSets set)) = answer := by
  rw [implements_outcome]
  cases h.read x .mixins <;> simp [Except.map]

theorem mixin_members {set : MixinSet} (read : h.read target .mixins = .ok (some set)) (other : MixinSet) :
    source ∈ ((mixin host (some (.table target)) sources).outcome h).2.mixinSets other ↔
      source ∈ h.mixinSets other ∨ other = set ∧ source ∈ registered h target (h.targetKeys target) sources := by
  obtain ⟨set', s, started, mixed⟩ := mixin_mixed host sources read
  obtain ⟨rfl, sets, -⟩ := started.inherited set rfl
  by_cases here : other = set'
  · subst here
    rw [mixed.members, started.registered_eq, sets]
    simp
  · rw [mixed.sets other here, sets]
    simp [here]

theorem mixin_members_new (absent : ∀ set, h.read target .mixins ≠ .ok (some set)) {other : MixinSet}
    (made : other < h.numMixinSets) :
    ((mixin host (some (.table target)) sources).outcome h).2.mixinSets other = h.mixinSets other := by
  cases read : h.read target .mixins with
  | error message => rw [mixin_read_error read]
  | ok found =>
    cases found with
    | some set => exact absurd read (absent set)
    | none =>
      obtain ⟨set, s, started, mixed⟩ := mixin_mixed host sources read
      obtain ⟨rfl, sets, -⟩ := started.created rfl
      rw [mixed.sets other (Nat.ne_of_lt made), sets]
      exact Function.update_of_ne (Nat.ne_of_lt made) ..

/-- Only for the target and for what inherits from it, the call changes the answer of
`oop.implements` from false to true. -/
def ChangesInside (h h' : Heap) (target : Ref) : Prop :=
  ∀ x source, ((implements (some (.table x)) (some (.table source))).outcome h).1 = .ok false →
    ((implements (some (.table x)) (some (.table source))).outcome h').1 = .ok true →
    x = target ∨ Inherits h x target

/-- No other object finds the set of the target, unless the sources are in it already. -/
def OwnedInside (h : Heap) (target : Ref) (sources : List (Option Value)) : Prop :=
  ∀ x set, x ≠ target → ¬Inherits h x target →
    h.read target .mixins = .ok (some set) → h.read x .mixins = .ok (some set) →
    ∀ source ∈ registered h target (h.targetKeys target) sources, source ∈ h.mixinSets set

/-- A call of `oop.mixin` is noticed only by the target and by what inherits from it if and
only if no other object shares the set that the sources are registered in. -/
theorem mixin_frame_iff (host : Surroundings) (reached : (operations host).Reachable o) (target : Ref)
    (sources : List (Option Value)) :
    ChangesInside o.heap ((mixin host (some (.table target)) sources).outcome o.heap).2 target ↔
      OwnedInside o.heap target sources := by
  have allocated : Allocated o.heap := allocated_inductive.reachable reached
  constructor
  · intro inside x set other outside read readX source member
    by_contra new
    have before := implements_ok.mpr ⟨some set, readX, decide_eq_false new⟩
    have readAfter : ((mixin host (some (.table target)) sources).outcome o.heap).2.read x .mixins = .ok (some set) :=
      (read_outside other outside .mixins).trans readX
    have added : source ∈ ((mixin host (some (.table target)) sources).outcome o.heap).2.mixinSets set :=
      (mixin_members read set).mpr (.inr ⟨rfl, member⟩)
    have after := implements_ok.mpr ⟨some set, readAfter, decide_eq_true added⟩
    rcases inside x source before after with same | inherits
    · exact other same
    · exact outside inherits
  · intro owned x source before after
    by_contra out
    obtain ⟨other, outside⟩ := not_or.mp out
    obtain ⟨found, readX, absent⟩ := implements_ok.mp before
    obtain ⟨found', readAfter, present⟩ := implements_ok.mp after
    rw [read_outside other outside, readX, Except.ok.injEq] at readAfter
    subst readAfter
    cases found with
    | none => exact nomatch present
    | some set =>
      have absent : source ∉ o.heap.mixinSets set := of_decide_eq_false absent
      have present := of_decide_eq_true present
      by_cases shared : ∃ own, o.heap.read target .mixins = .ok (some own)
      · obtain ⟨own, read⟩ := shared
        rcases (mixin_members read set).mp present with member | ⟨rfl, member⟩
        · exact absent member
        · exact absent (owned x set other outside read readX source member)
      -- The call has made a new set, which the object cannot find.
      · rw [mixin_members_new (not_exists.mp shared) (read_allocated allocated readX)] at present
        exact absent present

/-- Mixing into the class `Account` is noticed by its instances only. -/
theorem mixin_account_inside :
    ChangesInside accountInstance.heap
      ((mixin plainSurroundings (some (.table 0)) [some (.table 1)]).outcome accountInstance.heap).2 0 := by
  refine (mixin_frame_iff plainSurroundings accountInstance_reachable 0 [some (.table 1)]).mpr ?_
  intro x set other outside read readX
  have inherits : Inherits accountInstance.heap 1 0 := .single rfl
  match x with
  | 0 => exact absurd rfl other
  | 1 => exact absurd inherits outside
  | x + 2 => exact nomatch readX

/-- A source is table 2. -/
def accountAndSource : Objects := Operation.create.apply plainSurroundings accountInstance

/-- Mixing into the instance is noticed by its class. -/
theorem mixin_instance_changes_class :
    (operations plainSurroundings).Reachable accountAndSource ∧
      ¬ChangesInside accountAndSource.heap
        ((mixin plainSurroundings (some (.table 1)) [some (.table 2)]).outcome accountAndSource.heap).2 1 := by
  have created : (operations plainSurroundings).Enabled accountInstance .create := nofun
  refine ⟨accountInstance_reachable.next created rfl, fun inside => ?_⟩
  have self : accountAndSource.heap.parent 0 = some 0 := rfl
  have stays : ∀ y, Inherits accountAndSource.heap 0 y → y = 0 := by
    intro y reached
    induction reached with
    | single linked => exact Option.some.inj (linked.symm.trans self)
    | tail _ linked ih =>
      subst ih
      exact Option.some.inj (linked.symm.trans self)
  rcases inside 0 2 rfl rfl with same | inherits
  · exact nomatch same
  · exact nomatch stays 1 inherits

end EvoRuntime.Oop
