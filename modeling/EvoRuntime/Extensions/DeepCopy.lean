import EvoRuntime.Library.Heaps
import EvoRuntime.Library.Iteration
import EvoRuntime.Library.Raising
import EvoRuntime.Lua.Strings
import Mathlib.Order.Interval.Finset.Nat
import Mathlib.Order.Interval.Set.LinearOrder

/-!
# `table.copy`

Tables refer to each other, so what `table.copy` does is said about a heap. Values that are
not tables are of any type. Tables have no metamethod `__pairs`, and nothing is known about
the order in which `pairs` visits a table.

## Main result

`copy_spec`: without a cycle in it, a table is copied. The copy says the same, shares no
table with any other one and nothing inside of it, and nothing that is written later to
the one can be seen in the other. With a cycle the calls never return.

## Proof strategy

While the fields of a table are copied, the tables that belong to each finished field are
a closed set (`Filled`), and these sets are disjoint.
-/
namespace EvoRuntime.Extensions

open Lua Library Raising Heaps

/-- A value other than `nil`. The tables are numbered. -/
abbrev HeapValue (α : Type) := α ⊕ Nat

abbrev HeapField (α : Type) := Σ _ : HeapValue α, HeapValue α

structure Heap (α : Type) where
  tables : Nat → AList fun _ : HeapValue α => HeapValue α
  /-- The number of tables created so far. -/
  size : Nat

namespace Heap

variable {α : Type} [DecidableEq α]

def cells (h : Heap α) : Cells Nat (HeapValue α) α := fun r key => (h.tables r).lookup key

/-- No field refers to a table that does not exist. -/
def Closed (h : Heap α) : Prop := ClosedIn h.cells (Set.Iio h.size)

/-- The table `{}` is the next one. -/
def create (h : Heap α) : Heap α where
  tables := Function.update h.tables h.size ∅
  size := h.size + 1

def rawset (h : Heap α) (r : Nat) (key value : HeapValue α) : Heap α where
  tables := Function.update h.tables r ((h.tables r).insert key value)
  size := h.size

end Heap

variable {α : Type} [DecidableEq α]

/-- The body of the loop of `copy`. -/
def copyField (copy : Nat → Raising (Heap α) LuaString Nat) (deepCopy : Nat)
    (field : HeapField α) : Raising (Heap α) LuaString Unit :=
  match field.2 with
  | .inr value => do
    let copied ← copy value
    modify (·.rawset deepCopy field.1 (.inr copied))
  | .inl value => modify (·.rawset deepCopy field.1 (.inl value))

/-- Without `fuel` the calls are nested too deeply. -/
def copy (pairs : Nat → Visit) : (fuel : Nat) → (source : Nat) → Raising (Heap α) LuaString Nat
  | 0, _ => throw (ascii "stack overflow")
  | fuel + 1, source => do
    let deepCopy := (← get).size
    modify Heap.create
    forM ((pairs source).order ((← get).tables source).entries) (copyField (copy pairs fuel) deepCopy)
    return deepCopy

/-! ## Fields -/

namespace Heap

variable {h : Heap α} {r r' : Nat} {key key' value : HeapValue α}

omit [DecidableEq α] in
@[simp] theorem size_create : h.create.size = h.size + 1 := rfl

@[simp] theorem size_rawset : (h.rawset r key value).size = h.size := rfl

omit [DecidableEq α] in
theorem tables_create (old : r < h.size) : h.create.tables r = h.tables r :=
  Function.update_of_ne old.ne ..

theorem cells_create_new : h.create.cells h.size key = none := by
  simp [cells, create]

theorem tables_rawset (other : r' ≠ r) : (h.rawset r key value).tables r' = h.tables r' :=
  Function.update_of_ne other ..

theorem cells_rawset_table (other : r' ≠ r) : (h.rawset r key value).cells r' = h.cells r' := by
  funext k
  rw [cells, cells, tables_rawset other]

theorem cells_rawset_self : (h.rawset r key value).cells r key = some value := by
  simp [cells, rawset]

theorem cells_rawset_key (other : key' ≠ key) : (h.rawset r key value).cells r key' = h.cells r key' := by
  simp [cells, rawset, AList.lookup_insert_ne other]

theorem cells_congr {h' : Heap α} (same : h'.tables r = h.tables r) : h'.cells r = h.cells r := by
  funext k
  rw [cells, cells, same]

theorem Closed.create (closed : h.Closed) : h.create.Closed := by
  rintro t inside next ⟨k, field⟩
  rcases Nat.lt_succ_iff_lt_or_eq.mp inside with old | rfl
  · rw [cells_congr (tables_create old)] at field
    exact Nat.lt_succ_of_lt (closed t old next ⟨k, field⟩)
  · rw [cells_create_new] at field
    cases field

theorem Closed.rawset (closed : h.Closed) (valid : ∀ t, value = .inr t → t < h.size) :
    (h.rawset r key value).Closed := by
  rintro t inside next ⟨k, field⟩
  by_cases here : t = r
  · subst here
    by_cases same : k = key
    · subst same
      rw [cells_rawset_self, Option.some.injEq] at field
      exact valid next field
    · rw [cells_rawset_key same] at field
      exact closed t inside next ⟨k, field⟩
  · rw [cells_rawset_table here] at field
    exact closed t inside next ⟨k, field⟩

end Heap

/-! ## Tables that were there before -/

/-- All tables of a heap are as they were. -/
def Extends (h g : Heap α) : Prop := h.size ≤ g.size ∧ ∀ t < h.size, g.tables t = h.tables t

omit [DecidableEq α] in
theorem Extends.create {h g : Heap α} (extended : Extends h g) : Extends h g.create :=
  ⟨Nat.le_succ_of_le extended.1, fun t old =>
    (Heap.tables_create (old.trans_le extended.1)).trans (extended.2 t old)⟩

theorem Extends.rawset {h g : Heap α} (extended : Extends h g) {r : Nat} (new : h.size ≤ r)
    (key value : HeapValue α) : Extends h (g.rawset r key value) :=
  ⟨extended.1, fun t old => (Heap.tables_rawset (old.trans_le new).ne).trans (extended.2 t old)⟩

variable {h : Heap α}

theorem copyField_keeps {copy : Nat → Raising (Heap α) LuaString Nat}
    (keeps : ∀ source, Keeps (Extends h) (copy source)) {deepCopy : Nat} (new : h.size ≤ deepCopy)
    (field : HeapField α) : Keeps (Extends h) (copyField copy deepCopy field) := by
  unfold copyField
  split
  · exact Keeps.bind (keeps _) fun _ => Keeps.modify fun _ extended => extended.rawset new _ _
  · exact Keeps.modify fun _ extended => extended.rawset new _ _

theorem copy_keeps (pairs : Nat → Visit) (fuel source : Nat) :
    Keeps (Extends h) (copy pairs fuel source) := by
  induction fuel generalizing source with
  | zero => exact Keeps.throw
  | succ fuel ih =>
    refine Keeps.get_bind fun g extended => ?_
    refine Keeps.bind (Keeps.modify fun _ => Extends.create) fun _ => Keeps.get_bind fun g' _ => ?_
    exact Keeps.bind (Keeps.forM (copyField_keeps ih extended.1)) fun _ => Keeps.pure

/-! ## What is copied -/

/-- The heap after a table was copied. The copy is the first of the new tables. -/
structure DeepCopied (h : Heap α) (source : Nat) (h' : Heap α) : Prop where
  extended : Extends h h'
  closed : h'.Closed
  grown : h.size < h'.size
  copied : IsCopy h.cells (.inr source) h'.cells (.inr h.size) (Set.Ico h.size h'.size)

/-- The heap while the fields of a table are copied: the copies of the fields `done` have
tables of their own. -/
structure Filled (h : Heap α) (done : List (HeapField α)) (g : Heap α) : Prop where
  extended : Extends h g
  closed : g.Closed
  grown : h.size < g.size
  fields : ∃ own : HeapValue α → Set Nat,
    (∀ key, FieldCopied h.cells g.cells (own key) (done.dlookup key) (g.cells h.size key)) ∧
    (∀ key key', key ≠ key' → Disjoint (own key) (own key')) ∧
    ⋃ key, own key = Set.Ico (h.size + 1) g.size

variable {h' g g' : Heap α} {done : List (HeapField α)} {key : HeapValue α}

theorem Filled.start (closed : h.Closed) : Filled h [] h.create where
  extended := ⟨Nat.le_succ _, fun _ => Heap.tables_create⟩
  closed := closed.create
  grown := Nat.lt_succ_self _
  fields := by
    refine ⟨fun _ => ∅, fun k => ?_, fun _ _ _ => Set.disjoint_empty ∅, ?_⟩
    · have nothing : h.create.cells h.size k = none := by simp [Heap.cells, Heap.create]
      rw [nothing]
      rfl
    · simp

/-- One more field is copied, with the tables that were created since. -/
theorem Filled.add (filled : Filled h done g) (fresh : done.dlookup key = none)
    {value copied : HeapValue α} (extended : Extends g g') (closed : g'.Closed)
    (copied_ : IsCopy h.cells value g'.cells copied (Set.Ico g.size g'.size)) :
    Filled h (done ++ [⟨key, value⟩]) (g'.rawset h.size key copied) := by
  obtain ⟨own, fields, apart, all⟩ := filled.fields
  have within : ∀ k, own k ⊆ Set.Ico (h.size + 1) g.size := fun k =>
    all ▸ Set.subset_iUnion own k
  have unused : own key = ∅ := by
    have field := fields key
    rw [fresh] at field
    cases read : g.cells h.size key with
    | none =>
      rw [read] at field
      exact field
    | some c =>
      rw [read] at field
      exact field.elim
  have later : ∀ k t, t ∈ own k → t < g.size ∧ t ≠ h.size := fun k t member =>
    ⟨(within k member).2, fun same => absurd (within k member).1 (by omega)⟩
  constructor
  case extended =>
    refine ⟨filled.extended.1.trans extended.1, fun t old => ?_⟩
    rw [Heap.tables_rawset old.ne, extended.2 t (old.trans filled.grown), filled.extended.2 t old]
  case closed =>
    refine closed.rawset ?_
    rintro t rfl
    exact (copied_.inside t rfl).2
  case grown => exact filled.grown.trans_le extended.1
  case fields =>
    refine ⟨Function.update own key (Set.Ico g.size g'.size), fun k => ?_, fun k k' differ => ?_, ?_⟩
    · rw [List.dlookup_append]
      by_cases same : k = key
      · subst same
        rw [fresh, List.dlookup_cons_eq, Function.update_self, Heap.cells_rawset_self]
        refine copied_.congr fun t member => Heap.cells_rawset_table ?_
        exact (filled.grown.trans_le member.1).ne'
      · have other : List.dlookup k [(⟨key, value⟩ : HeapField α)] = none :=
          List.dlookup_cons_ne [] (⟨key, value⟩ : HeapField α) same
        have before : g'.cells h.size k = g.cells h.size k := by
          rw [Heap.cells_congr (extended.2 _ filled.grown)]
        rw [other, Option.or_none, Function.update_of_ne same, Heap.cells_rawset_key same, before]
        refine (fields k).congr fun t member => ?_
        obtain ⟨old, notNew⟩ := later k t member
        rw [Heap.cells_rawset_table notNew, Heap.cells_congr (extended.2 t old)]
    · have new : ∀ k, Disjoint (own k) (Set.Ico g.size g'.size) := fun k =>
        Set.disjoint_left.mpr fun t member inside => absurd inside.1 (by have := (later k t member).1; omega)
      by_cases first : k = key
      · subst first
        rw [Function.update_self, Function.update_of_ne differ.symm]
        exact (new k').symm
      · rw [Function.update_of_ne first]
        by_cases second : k' = key
        · subst second
          rw [Function.update_self]
          exact new k
        · rw [Function.update_of_ne second]
          exact apart k k' differ
    · have parts : ⋃ k, Function.update own key (Set.Ico g.size g'.size) k =
          (⋃ k, own k) ∪ Set.Ico g.size g'.size := by
        ext t
        rw [Set.mem_union, Set.mem_iUnion, Set.mem_iUnion]
        constructor
        · rintro ⟨k, member⟩
          by_cases same : k = key
          · subst same
            rw [Function.update_self] at member
            exact Or.inr member
          · rw [Function.update_of_ne same] at member
            exact Or.inl ⟨k, member⟩
        · rintro (⟨k, member⟩ | member)
          · have same : k ≠ key := by
              rintro rfl
              rw [unused] at member
              exact member
            exact ⟨k, by rwa [Function.update_of_ne same]⟩
          · exact ⟨key, by rwa [Function.update_self]⟩
      rw [parts, all]
      exact Set.Ico_union_Ico_eq_Ico filled.grown extended.1

/-- What is copied is a copy, whatever was copied before. -/
theorem copy_copies (pairs : Nat → Visit) (fuel source : Nat) (closed : h.Closed)
    (here : source < h.size) {r : Nat} (completed : (copy pairs fuel source).Completes h r h') :
    r = h.size ∧ DeepCopied h source h' := by
  induction fuel generalizing source h r h' with
  | zero => exact absurd completed throw_completes
  | succ fuel ih =>
    rw [copy, get_bind_completes] at completed
    obtain ⟨⟨⟩, created, first, completed⟩ := bind_completes.mp completed
    rw [modify_completes] at first
    subst first
    rw [get_bind_completes] at completed
    obtain ⟨⟨⟩, filled, loop, last⟩ := bind_completes.mp completed
    obtain ⟨rfl, rfl⟩ := pure_completes.mp last
    rw [Heap.tables_create here] at loop
    have perm := (pairs source).perm (h.tables source).entries
    generalize (pairs source).order (h.tables source).entries = fields at loop perm
    have keys : fields.NodupKeys := (List.perm_nodupKeys perm).mpr (h.tables source).nodupKeys
    have result : Filled h fields h' := by
      refine forM_history (fun done g => done <+: fields → Filled h done g) ?_ loop []
        (fun _ => Filled.start closed) (List.prefix_refl fields)
      intro done field g g' inv ran beginning
      obtain ⟨key, value⟩ := field
      have before := inv ((List.prefix_append _ _).trans beginning)
      have distinct := keys.sublist beginning.sublist
      have fresh : done.dlookup key = none := by
        rw [List.NodupKeys, List.keys, List.map_append, List.nodup_append] at distinct
        rw [List.dlookup_eq_none]
        intro member
        exact distinct.2.2 key member key (List.mem_singleton.mpr rfl) rfl
      have member : (⟨key, value⟩ : HeapField α) ∈ (h.tables source).entries :=
        perm.mem_iff.mp (beginning.subset (by simp))
      cases value with
      | inl a =>
        rw [copyField, modify_completes] at ran
        subst ran
        refine before.add fresh ⟨Nat.le_refl _, fun _ _ => rfl⟩ before.closed ?_
        rw [Set.Ico_self]
        exact IsCopy.plain a
      | inr child =>
        obtain ⟨copied, between, called, last⟩ := bind_completes.mp ran
        rw [modify_completes] at last
        subst last
        have child_here : child < h.size :=
          closed source here child ⟨key, AList.mem_lookup_iff.mpr member⟩
        obtain ⟨rfl, result⟩ := ih child before.closed (child_here.trans before.grown) called
        refine before.add fresh result.extended result.closed (result.copied.of_alike fun path => ?_)
        rw [follow_congr closed (fun t old => Heap.cells_congr (before.extended.2 t old)) child_here]
    refine ⟨rfl, result.extended, result.closed, result.grown, ?_⟩
    obtain ⟨own, copies, apart, all⟩ := result.fields
    have region : Set.Ico h.size h'.size = insert h.size (⋃ key, own key) := by
      rw [all]
      ext t
      have grown := result.grown
      simp only [Set.mem_insert_iff, Set.mem_Ico]
      omega
    rw [region]
    refine isCopy_cell (fun key => ?_) apart fun key member => ?_
    · have same : h.cells source key = fields.dlookup key := (List.perm_dlookup key keys perm).symm
      rw [same]
      exact copies key
    · have inside : h.size ∈ Set.Ico (h.size + 1) h'.size := all ▸ Set.mem_iUnion_of_mem key member
      exact absurd inside.1 (Nat.not_succ_le_self _)

/-! ## Cycles -/

/-- Every call for a table inside of the source has returned, so they do not go on forever. -/
theorem descends_of_completes (closed : h.Closed) (pairs : Nat → Visit) (fuel source : Nat)
    (here : source < h.size) (extended : Extends h g) {r : Nat}
    (completed : (copy pairs fuel source).Completes g r g') : Descends h.cells source := by
  induction fuel generalizing source g r g' with
  | zero => exact absurd completed throw_completes
  | succ fuel ih =>
    rw [copy, get_bind_completes] at completed
    obtain ⟨⟨⟩, created, first, completed⟩ := bind_completes.mp completed
    rw [modify_completes] at first
    subst first
    rw [get_bind_completes] at completed
    obtain ⟨⟨⟩, filled, loop, -⟩ := bind_completes.mp completed
    rw [extended.create.2 source here] at loop
    refine Acc.intro _ fun child ⟨key, field⟩ => ?_
    have member : (⟨key, .inr child⟩ : HeapField α) ∈ (h.tables source).entries :=
      AList.mem_lookup_iff.mp field
    obtain ⟨t, t', extended', ran⟩ := forM_each
      (copyField_keeps (copy_keeps pairs fuel) extended.1) loop extended.create
      ((pairs source).mem_order.mpr member)
    obtain ⟨copied, between, called, -⟩ := bind_completes.mp ran
    exact ih child (closed source here child ⟨key, field⟩) extended' called

theorem exists_bound {β : Type} {P : Nat → β → Prop} (xs : List β)
    (each : ∀ b ∈ xs, ∃ depth, ∀ fuel ≥ depth, P fuel b) :
    ∃ depth, ∀ fuel ≥ depth, ∀ b ∈ xs, P fuel b := by
  induction xs with
  | nil => exact ⟨0, fun _ _ _ member => absurd member List.not_mem_nil⟩
  | cons b rest ih =>
    obtain ⟨here, first⟩ := each b List.mem_cons_self
    obtain ⟨there, others⟩ := ih fun c member => each c (List.mem_cons_of_mem b member)
    refine ⟨max here there, fun fuel enough c member => ?_⟩
    rcases List.mem_cons.mp member with rfl | later
    · exact first fuel (le_of_max_le_left enough)
    · exact others fuel (le_of_max_le_right enough) c later

/-- If they do not go on forever, there is a depth that is enough. -/
theorem exists_completes (closed : h.Closed) (pairs : Nat → Visit) (source : Nat)
    (here : source < h.size) (descends : Descends h.cells source) :
    ∃ depth, ∀ fuel ≥ depth, ∀ g, Extends h g → ∃ r g', (copy pairs fuel source).Completes g r g' := by
  induction descends with
  | intro source _ ih =>
    obtain ⟨depth, enough⟩ := exists_bound ((pairs source).order (h.tables source).entries)
      (P := fun fuel field => ∀ deepCopy g, Extends h g →
        ∃ g', (copyField (copy pairs fuel) deepCopy field).Completes g ⟨⟩ g') fun field member => by
      obtain ⟨key, value⟩ := field
      cases value with
      | inl a => exact ⟨0, fun _ _ deepCopy g _ => ⟨g.rawset deepCopy key (.inl a), rfl⟩⟩
      | inr child =>
        have points : PointsTo h.cells source child :=
          ⟨key, AList.mem_lookup_iff.mpr ((pairs source).mem_order.mp member)⟩
        obtain ⟨depth, enough⟩ := ih child points (closed source here child points)
        refine ⟨depth, fun fuel large deepCopy g extended => ?_⟩
        obtain ⟨copied, between, called⟩ := enough fuel large g extended
        exact ⟨_, bind_completes.mpr ⟨copied, between, called, rfl⟩⟩
    refine ⟨depth + 1, fun fuel large g extended => ?_⟩
    obtain ⟨fuel, rfl⟩ := Nat.exists_eq_succ_of_ne_zero (Nat.ne_zero_of_lt large)
    obtain ⟨g', loop⟩ := forM_ends (copyField_keeps (copy_keeps pairs fuel) extended.1)
      (fun field member t extended' =>
        enough fuel (Nat.le_of_succ_le_succ large) field member g.size t extended')
      extended.create
    refine ⟨g.size, g', ?_⟩
    rw [copy, get_bind_completes]
    refine bind_completes.mpr ⟨⟨⟩, g.create, rfl, ?_⟩
    rw [get_bind_completes, extended.create.2 source here]
    exact bind_completes.mpr ⟨⟨⟩, g', loop, rfl⟩

/-- There is only one error. -/
theorem copy_raised (pairs : Nat → Visit) (fuel source : Nat) {e : LuaString}
    (raised : (copy pairs fuel source).outcome g = (.error e, g')) : e = ascii "stack overflow" := by
  induction fuel generalizing source g g' with
  | zero => exact (Except.error.inj (congrArg Prod.fst raised)).symm
  | succ fuel ih =>
    rcases bind_raised.mp raised with here | ⟨_, _, -, raised⟩
    · cases here
    rcases bind_raised.mp raised with here | ⟨_, _, -, raised⟩
    · cases here
    rcases bind_raised.mp raised with here | ⟨_, _, -, raised⟩
    · cases here
    rcases bind_raised.mp raised with here | ⟨_, _, -, raised⟩
    -- The error comes from one of the fields, and so from a call for a table inside.
    · obtain ⟨_, field, _, t, -, -, ran⟩ := forM_raised here
      obtain ⟨key, value⟩ := field
      cases value with
      | inl a => cases ran
      | inr child =>
        rcases bind_raised.mp ran with called | ⟨_, _, -, last⟩
        · exact ih child called
        · cases last
    · cases raised

/-! ## The copy of a table -/

/-- What is true after `table.copy` has returned. -/
structure DeepCopy (h : Heap α) (source : Nat) (h' : Heap α) : Prop where
  /-- All tables are as they were. -/
  kept : ∀ t < h.size, h'.tables t = h.tables t
  /-- The new tables are a copy, and nothing else. -/
  copied : IsCopy h.cells (.inr source) h'.cells (.inr h.size) (Set.Ico h.size h'.size)
  /-- What is written to other tables is not seen in the copy. -/
  unaffected : ∀ t < h.size, ∀ key value path,
    follow (h'.rawset t key value).cells (.inr h.size) path = follow h'.cells (.inr h.size) path
  /-- What is written to the copy is not seen in other tables. -/
  affectsNothing : ∀ t ∈ Set.Ico h.size h'.size, ∀ key value, ∀ r < h.size, ∀ path,
    follow (h'.rawset t key value).cells (.inr r) path = follow h.cells (.inr r) path

theorem DeepCopied.deepCopy (closed : h.Closed) {source : Nat} (copied : DeepCopied h source h') :
    DeepCopy h source h' where
  kept := copied.extended.2
  copied := copied.copied
  unaffected t old key value path := by
    refine follow_congr copied.copied.closed (fun r member => ?_) ⟨Nat.le_refl _, copied.grown⟩ path
    exact Heap.cells_rawset_table (old.trans_le member.1).ne'
  affectsNothing t new key value r old path := by
    refine follow_congr closed (fun r' old' => ?_) old path
    rw [Heap.cells_rawset_table (Nat.lt_of_lt_of_le old' new.1).ne,
      Heap.cells_congr (copied.extended.2 r' old')]

/-- A table without a cycle in it is copied as soon as there is room for enough calls. With a
cycle the stack overflows, however much room there is. -/
theorem copy_spec (pairs : Nat → Visit) (h : Heap α) (closed : h.Closed) (source : Nat)
    (here : source < h.size) :
    (AcyclicFrom h.cells source → ∃ depth, ∀ fuel ≥ depth, ∃ h',
      (copy pairs fuel source).outcome h = (.ok h.size, h') ∧ DeepCopy h source h') ∧
    (¬AcyclicFrom h.cells source → ∀ fuel,
      ((copy pairs fuel source).outcome h).1 = .error (ascii "stack overflow")) := by
  have descends := descends_iff (Set.finite_Iio h.size) closed here
  constructor
  · intro acyclic
    obtain ⟨depth, enough⟩ := exists_completes closed pairs source here (descends.mpr acyclic)
    refine ⟨depth, fun fuel large => ?_⟩
    obtain ⟨r, h', completed⟩ := enough fuel large h ⟨Nat.le_refl _, fun _ _ => rfl⟩
    obtain ⟨rfl, copied⟩ := copy_copies pairs fuel source closed here completed
    exact ⟨h', completed, copied.deepCopy closed⟩
  · intro cyclic fuel
    cases result : (copy pairs fuel source).outcome h with
    | mk r h' =>
      cases r with
      | error e => rw [copy_raised pairs fuel source result]
      | ok r =>
        have ended := descends_of_completes closed pairs fuel source here
          ⟨Nat.le_refl _, fun _ _ => rfl⟩ result
        exact absurd (descends.mp ended) cyclic

/-- A table that holds another one twice. -/
def sharingHeap : Heap Nat where
  tables r := if r = 0 then (AList.singleton (.inl 1) (.inr 1)).insert (.inl 2) (.inr 1) else ∅
  size := 2

theorem sharing_pointsTo {r t : Nat} (points : PointsTo sharingHeap.cells r t) : r = 0 ∧ t = 1 := by
  obtain ⟨key, field⟩ := points
  have member : (⟨key, .inr t⟩ : HeapField Nat) ∈ (sharingHeap.tables r).entries :=
    AList.mem_lookup_iff.mp field
  unfold sharingHeap at member
  dsimp only at member
  split_ifs at member with first
  · have entries : ((AList.singleton (.inl 1) (.inr 1)).insert (.inl 2) (.inr 1) :
        AList fun _ : HeapValue Nat => HeapValue Nat).entries =
          [⟨.inl 2, .inr 1⟩, ⟨.inl 1, .inr 1⟩] := by decide
    rw [entries] at member
    refine ⟨first, ?_⟩
    rcases List.mem_pair.mp member with same | same <;> cases same <;> rfl
  · cases member

theorem sharing_acyclic : AcyclicFrom sharingHeap.cells 0 := by
  intro t _ cycle
  obtain ⟨next, first, -⟩ := Relation.TransGen.head'_iff.mp cycle
  obtain ⟨last, -, back⟩ := Relation.TransGen.tail'_iff.mp cycle
  have here := (sharing_pointsTo first).1
  have there := (sharing_pointsTo back).2
  omega

theorem copy_spec_sharing : ∃ depth, ∀ fuel ≥ depth, ∃ h',
    (copy (fun _ => .asStored) fuel 0).outcome sharingHeap = (.ok 2, h') ∧
      DeepCopy sharingHeap 0 h' :=
  (copy_spec (fun _ => .asStored) sharingHeap
    (fun _ _ _ points => by rw [(sharing_pointsTo points).2]; exact Nat.one_lt_two) 0
    Nat.zero_lt_two).1 sharing_acyclic

end EvoRuntime.Extensions
