import EvoRuntime.Library.Iteration
import EvoRuntime.Oop.Classes

/-!
# Mixins

`oop.mixin` copies the fields of its sources to the target and registers each source in the
table under `__mixins`. Sources and fields are checked one by one, after the ones before
them have been copied. The order in which `pairs` visits the fields of a source is an
argument of the model.

## Main result

`mixin_unchanged_iff`: when a call that raises an error leaves the target as it was.

## Proof strategy

The loop only adds fields to the target and members to its set (`Extends`, `Mixed`). Which
sources are registered before the loop ends can be read off their keys (`registered`), and
so can whether it ends with an error (`Fits`).
-/
namespace EvoRuntime.Oop

open Lua Library Raising

structure Surroundings where
  /-- The order in which `pairs` visits a table. -/
  pairs : Visit
  /-- `tostring(value)` of a value that is not a string. -/
  tostring : Value → LuaString

variable (host : Surroundings)

def Surroundings.text : Key → LuaString
  | .mixins => ascii "__mixins"
  | .value (.string s) => s
  | .value value => host.tostring value

def wouldOverwrite (name : LuaString) (key : Key) : LuaString :=
  ascii "Mixing in " ++ name ++ ascii " would overwrite property " ++ host.text key ++ ascii " on the target"

/-- The body of the inner loop. -/
def copyField (name : LuaString) (target : Ref) (field : Sigma Key.Content) : Action Unit := do
  raiseIf ((← get).rawget target field.1).isSome (wouldOverwrite host name field.1)
  modify (·.rawset target field.1 field.2)

/-- The fields of a table in the order of `pairs`. -/
def Heap.pairs (h : Heap) (r : Ref) : List (Sigma Key.Content) :=
  host.pairs.order (h.tables r).fields.entries

def copyFields (name : LuaString) (target source : Ref) : Action Unit := do
  forM ((← get).pairs host source) (copyField host name target)

/-- `target.__mixins[sourceObject] = true` -/
def registerSource (target source : Ref) : Action Unit := do
  match ← index target .mixins with
  | some set => modify (·.register set source)
  | none => throw (ascii "attempt to index field '__mixins' (a nil value)")

/-- The outer loop, from a position on. There is no step for `nil`. -/
def mixSources (target : Ref) : Nat → List (Option Value) → Action Unit
  | _, [] => pure ()
  | position, none :: rest => mixSources target (position + 1) rest
  | position, some value :: rest => do
    let name := ascii "sourceObject" ++ decimal position
    let sourceObject ← validateTable (some value) name
    registerSource target sourceObject
    copyFields host name target sourceObject
    mixSources target (position + 1) rest

/-- `found or` a new table. -/
def orNewMixinSet (found : Option MixinSet) : Action MixinSet :=
  match found with
  | some set => pure set
  | none => newMixinSet

/-- `oop.mixin(target, ...)` -/
def mixin (target : Option Value) (sources : List (Option Value)) : Action Unit := do
  let target ← validateTable target (ascii "target")
  let set ← orNewMixinSet (← index target .mixins)
  modify (·.rawset target .mixins set)
  mixSources host target 1 sources

def implements (instanceOrPrototype mixin : Option Value) : Action Bool := do
  let object ← validateTable instanceOrPrototype (ascii "instanceOrPrototype")
  let source ← validateTable mixin (ascii "mixin")
  match ← index object .mixins with
  | none => pure false
  | some includedMixins => return decide (source ∈ (← get).mixinSets includedMixins)

/-! ## What the loop can do -/

/-- Only fields that the target does not have are added to it. -/
structure Extends (target : Ref) (s s' : Heap) : Prop where
  tables : ∀ r, r ≠ target → s'.tables r = s.tables r
  parent : s'.parent = s.parent
  size : s'.size = s.size
  numMixinSets : s'.numMixinSets = s.numMixinSets
  kept : ∀ key content, s.rawget target key = some content → s'.rawget target key = some content

variable {host} {target source : Ref} {s s' s'' : Heap} {set : MixinSet} {name : LuaString}

namespace Extends

theorem refl (target : Ref) (s : Heap) : Extends target s s := ⟨fun _ _ => rfl, rfl, rfl, rfl, fun _ _ => id⟩

theorem trans (first : Extends target s s') (second : Extends target s' s'') : Extends target s s'' where
  tables r other := (second.tables r other).trans (first.tables r other)
  parent := second.parent.trans first.parent
  size := second.size.trans first.size
  numMixinSets := second.numMixinSets.trans first.numMixinSets
  kept key content found := second.kept key content (first.kept key content found)

theorem rawset {key : Key} (content : key.Content) (new : s.rawget target key = none) :
    Extends target s (s.rawset target key content) where
  tables r other := Heap.update_tables_other other _
  parent := Heap.parent_rawset content
  size := rfl
  numMixinSets := rfl
  kept key' content' found := by
    have other : key' ≠ key := by
      rintro rfl
      exact nomatch new.symm.trans found
    rw [Heap.rawget_rawset_key other, found]

theorem register : Extends target s (s.register set source) :=
  ⟨fun _ _ => rfl, rfl, rfl, rfl, fun _ _ => id⟩

theorem isSome (extended : Extends target s s') {key : Key} (own : (s.rawget target key).isSome) :
    (s'.rawget target key).isSome := by
  obtain ⟨content, found⟩ := Option.isSome_iff_exists.mp own
  rw [extended.kept key content found]
  rfl

end Extends

theorem copyField_outcome (field : Sigma Key.Content) :
    (copyField host name target field).outcome s =
      if (s.rawget target field.1).isSome then (.error (wouldOverwrite host name field.1), s)
      else (.ok (), s.rawset target field.1 field.2) := by
  by_cases own : (s.rawget target field.1).isSome = true <;> simp [copyField, outcome_bind, own]

/-- The fields are copied up to the first one that the target has. -/
structure Copied (target : Ref) (fields : List (Sigma Key.Content)) (s : Heap)
    (result : Except LuaString Unit) (s' : Heap) : Prop where
  extended : Extends target s s'
  sets : s'.mixinSets = s.mixinSets
  first : ∀ field, fields.head? = some field → (s'.rawget target field.1).isSome
  fits : result.isOk = true ↔ ∀ key ∈ fields.keys, s.rawget target key = none
  keys : result.isOk = true → ∀ key, (s'.rawget target key).isSome ↔
    (s.rawget target key).isSome ∨ key ∈ fields.keys
  /-- Nothing is copied when the first field cannot be. -/
  stopped : (∀ field, fields.head? = some field → (s.rawget target field.1).isSome) → s' = s

namespace Copied

variable {field : Sigma Key.Content} {rest : List (Sigma Key.Content)} {result : Except LuaString Unit}

theorem first_cons (own : (s'.rawget target field.1).isSome) :
    ∀ first, (field :: rest).head? = some first → (s'.rawget target first.1).isSome := by
  intro first same
  obtain rfl : field = first := Option.some.inj same
  exact own

theorem conflict (own : (s.rawget target field.1).isSome) (message : LuaString) :
    Copied target (field :: rest) s (.error message) s := by
  have blocked : ¬∀ key ∈ (field :: rest).keys, s.rawget target key = none := by
    intro free
    rw [free field.1 (by simp)] at own
    exact absurd own Bool.false_ne_true
  exact ⟨.refl target s, rfl, first_cons own, by simpa [Except.isOk, Except.toBool] using blocked,
    nofun, fun _ => rfl⟩

theorem cons (nodup : (field :: rest).NodupKeys) (new : s.rawget target field.1 = none)
    (copied : Copied target rest (s.rawset target field.1 field.2) result s') :
    Copied target (field :: rest) s result s' := by
  obtain ⟨fresh, -⟩ := List.nodupKeys_cons.mp nodup
  have others : ∀ key ∈ rest.keys,
      (s.rawset target field.1 field.2).rawget target key = s.rawget target key := by
    intro key member
    refine Heap.rawget_rawset_key ?_ _
    rintro rfl
    exact fresh member
  constructor
  case extended => exact (Extends.rawset _ new).trans copied.extended
  case sets => exact copied.sets
  case first => exact first_cons (copied.extended.isSome (by simp))
  case fits =>
    rw [copied.fits, List.keys_cons, List.forall_mem_cons]
    exact ⟨fun free => ⟨new, fun key member => (others key member).symm.trans (free key member)⟩,
      fun free key member => (others key member).trans (free.2 key member)⟩
  case keys =>
    intro ok key
    rw [copied.keys ok key, List.keys_cons, List.mem_cons]
    by_cases here : key = field.1
    · subst here
      simp
    · rw [Heap.rawget_rawset_key here]
      simp [here]
  case stopped =>
    intro blocked
    have own := blocked field rfl
    rw [new] at own
    exact absurd own Bool.false_ne_true

end Copied

theorem forM_copyField (fields : List (Sigma Key.Content)) (nodup : fields.NodupKeys) (s : Heap) :
    Copied target fields s ((forM fields (copyField host name target)).outcome s).1
      ((forM fields (copyField host name target)).outcome s).2 := by
  induction fields generalizing s with
  | nil => exact ⟨.refl target s, rfl, nofun, by simp [Except.isOk, Except.toBool], by simp, fun _ => rfl⟩
  | cons field rest ih =>
    rw [List.forM_cons, outcome_bind, copyField_outcome]
    -- The loop ends with the first field that the target has.
    by_cases own : (s.rawget target field.1).isSome = true
    · rw [if_pos own]
      exact .conflict own _
    · rw [if_neg own]
      have new : s.rawget target field.1 = none := by simpa using own
      exact .cons nodup new (ih (List.nodupKeys_cons.mp nodup).2 _)

/-! ## How far the loop gets -/

def Heap.keys (h : Heap) (r : Ref) : List Key := (h.tables r).fields.keys

/-- No field of the source has a key that is taken. -/
def Heap.Free (h : Heap) (target : Ref) (taken : List Key) (source : Ref) : Prop :=
  source ≠ target ∧ ∀ key ∈ h.keys source, key ∉ taken

instance (h : Heap) (target : Ref) (taken : List Key) (source : Ref) :
    Decidable (h.Free target taken source) :=
  inferInstanceAs (Decidable (_ ∧ _))

/-- The sources up to the first one that is not a table or that has a key of the target or of
a source before it. Such a table is the last one. -/
def registered (h : Heap) (target : Ref) : List Key → List (Option Value) → List Ref
  | _, [] => []
  | taken, none :: rest => registered h target taken rest
  | taken, some (.table source) :: rest =>
    source :: if h.Free target taken source then registered h target (h.keys source ++ taken) rest else []
  | _, some _ :: _ => []

/-- All sources are tables, and no key is there twice. -/
def Fits (h : Heap) (target : Ref) : List Key → List (Option Value) → Prop
  | _, [] => True
  | taken, none :: rest => Fits h target taken rest
  | taken, some (.table source) :: rest =>
    h.Free target taken source ∧ Fits h target (h.keys source ++ taken) rest
  | _, some _ :: _ => False

section Congruence

variable (same : ∀ r, r ≠ target → s'.tables r = s.tables r)
include same

theorem free_congr (taken : List Key) : s'.Free target taken source ↔ s.Free target taken source := by
  apply and_congr_right
  intro other
  rw [Heap.keys, same source other, Heap.keys]

theorem registered_congr (taken : List Key) (sources : List (Option Value)) :
    registered s' target taken sources = registered s target taken sources := by
  induction taken, sources using registered.induct s with
  | case1 taken => rfl
  | case2 taken rest ih => exact ih
  | case3 taken source rest ih =>
    by_cases free : s.Free target taken source
    · have keys : s'.keys source = s.keys source := by rw [Heap.keys, same source free.1, Heap.keys]
      rw [registered, registered, if_pos free, if_pos ((free_congr same taken).mpr free), keys, ih]
    · rw [registered, registered, if_neg free, if_neg (free ∘ (free_congr same taken).mp)]
  | case4 taken value rest other =>
    cases value with
    | table source => exact absurd rfl (other source)
    | _ => rfl

theorem fits_congr (taken : List Key) (sources : List (Option Value)) :
    Fits s' target taken sources ↔ Fits s target taken sources := by
  induction taken, sources using Fits.induct s with
  | case1 taken => exact Iff.rfl
  | case2 taken rest ih => exact ih
  | case3 taken source rest ih =>
    rw [Fits, Fits, free_congr same]
    apply and_congr_right
    intro free
    rw [Heap.keys, same source free.1, ← Heap.keys, ih]
  | case4 taken value rest other =>
    cases value with
    | table source => exact absurd rfl (other source)
    | _ => exact Iff.rfl

end Congruence

/-! ## The loop over the sources -/

theorem mem_keys {h : Heap} {r : Ref} {key : Key} : key ∈ h.keys r ↔ (h.rawget r key).isSome := by
  rw [Heap.keys, Heap.rawget, AList.lookup_isSome, AList.mem_keys]

theorem mem_pairs {h : Heap} {r : Ref} {key : Key} : key ∈ (h.pairs host r).keys ↔ key ∈ h.keys r :=
  ((host.pairs.perm _).map Sigma.fst).mem_iff

theorem pairs_nodup (h : Heap) (r : Ref) : (h.pairs host r).NodupKeys :=
  (List.perm_nodupKeys (host.pairs.perm _)).mpr (h.tables r).fields.nodupKeys

/-- Where the loop starts with a source. -/
structure Ready (target : Ref) (set : MixinSet) (taken : List Key) (s : Heap) : Prop where
  own : s.rawget target .mixins = some set
  taken : ∀ key, key ∈ taken ↔ (s.rawget target key).isSome

/-- What the loop has done when it ends. -/
structure Mixed (host : Surroundings) (target : Ref) (set : MixinSet) (taken : List Key)
    (sources : List (Option Value)) (s : Heap) (result : Except LuaString Unit) (s' : Heap) : Prop where
  extended : Extends target s s'
  sets : ∀ other, other ≠ set → s'.mixinSets other = s.mixinSets other
  members : ∀ x, x ∈ s'.mixinSets set ↔ x ∈ s.mixinSets set ∨ x ∈ registered s target taken sources
  fits : result.isOk = true ↔ Fits s target taken sources
  /-- The first field of each of these sources has been copied or found on the target. -/
  first : ∀ x ∈ registered s target taken sources, x ≠ target → ∀ field,
    (s.pairs host x).head? = some field → (s'.rawget target field.1).isSome
  stopped : (∀ x ∈ registered s target taken sources, ∀ field,
    (s.pairs host x).head? = some field → field.1 ∈ taken) →
      ∀ key, s'.rawget target key = s.rawget target key

variable {taken : List Key} {rest : List (Option Value)} {result : Except LuaString Unit}

theorem registerSource_outcome (own : s.rawget target .mixins = some set) :
    (registerSource target source).outcome s = (.ok (), s.register set source) := by
  rw [registerSource, outcome_bind, index_outcome, Heap.read_own own]
  rfl

/-- The fields of a source are all copied if and only if none of their keys is taken. -/
theorem Copied.isOk_iff_free (ready : Ready target set taken s)
    (copied : Copied target (s.pairs host source) (s.register set source) result s') :
    result.isOk = true ↔ s.Free target taken source := by
  have untaken : ∀ key, (s.register set source).rawget target key = none ↔ key ∉ taken := by
    intro key
    rw [ready.taken key, Option.not_isSome_iff_eq_none]
    rfl
  rw [copied.fits]
  constructor
  · intro free
    constructor
    · rintro rfl
      -- The target has the field `__mixins`.
      have own : .mixins ∈ s.keys source := by simp [mem_keys, ready.own]
      exact (untaken _).mp (free _ (mem_pairs.mpr own)) ((ready.taken _).mpr (mem_keys.mp own))
    · intro key member
      exact (untaken key).mp (free key (mem_pairs.mpr member))
  · intro free key member
    exact (untaken key).mpr (free.2 key (mem_pairs.mp member))

theorem Ready.next (ready : Ready target set taken s)
    (copied : Copied target (s.pairs host source) (s.register set source) result s')
    (ok : result.isOk = true) : Ready target set (s.keys source ++ taken) s' := by
  refine ⟨copied.extended.kept _ _ ready.own, fun key => ?_⟩
  rw [copied.keys ok key, List.mem_append, ready.taken key, mem_pairs, or_comm]
  rfl

namespace Mixed

variable {sources : List (Option Value)} {copyResult : Except LuaString Unit}

theorem nothing (none_ : registered s target taken sources = [])
    (fits : result.isOk = true ↔ Fits s target taken sources) :
    Mixed host target set taken sources s result s where
  extended := .refl target s
  sets _ _ := rfl
  members x := by simp [none_]
  fits := fits
  first x member := by simp [none_] at member
  stopped _ _ := rfl

theorem skip (mixed : Mixed host target set taken rest s result s') :
    Mixed host target set taken (none :: rest) s result s' :=
  ⟨mixed.extended, mixed.sets, mixed.members, mixed.fits, mixed.first, mixed.stopped⟩

/-- The loop ends with a source that has a key that is taken. -/
theorem last (ready : Ready target set taken s)
    (copied : Copied target (s.pairs host source) (s.register set source) result s')
    (fails : ¬s.Free target taken source) :
    Mixed host target set taken (some (.table source) :: rest) s result s' := by
  have only : registered s target taken (some (.table source) :: rest) = [source] := by
    rw [registered, if_neg fails]
  constructor
  case extended => exact Extends.register.trans copied.extended
  case sets =>
    intro other differ
    rw [copied.sets, Heap.register_other differ]
  case members =>
    intro x
    rw [copied.sets, Heap.mem_register, only]
    simp
  case fits =>
    rw [copied.isOk_iff_free ready, Fits]
    simp [fails]
  case first =>
    intro x member _ field found
    obtain rfl : x = source := by simpa [only] using member
    exact copied.first field found
  case stopped =>
    intro blocked key
    have same := copied.stopped fun field found =>
      (ready.taken field.1).mp (blocked source (by simp [only]) field found)
    rw [same]
    rfl

/-- The loop goes on after a source that has been copied. -/
theorem next
    (copied : Copied target (s.pairs host source) (s.register set source) copyResult s')
    (free : s.Free target taken source)
    (mixed : Mixed host target set (s.keys source ++ taken) rest s' result s'') :
    Mixed host target set taken (some (.table source) :: rest) s result s'' := by
  have others : ∀ r, r ≠ target → s'.tables r = s.tables r := copied.extended.tables
  have all : registered s target taken (some (.table source) :: rest) =
      source :: registered s' target (s.keys source ++ taken) rest := by
    rw [registered, if_pos free, registered_congr others]
  constructor
  case extended => exact (Extends.register.trans copied.extended).trans mixed.extended
  case sets =>
    intro other differ
    rw [mixed.sets other differ, copied.sets, Heap.register_other differ]
  case members =>
    intro x
    rw [mixed.members x, copied.sets, Heap.mem_register, all]
    simp [or_assoc]
  case fits =>
    rw [mixed.fits, fits_congr others, Fits]
    simp [free]
  case first =>
    intro x member differ field found
    rw [all] at member
    rcases List.mem_cons.mp member with rfl | later
    · exact mixed.extended.isSome (copied.first field found)
    · refine mixed.first x later differ field ?_
      rwa [Heap.pairs, others x differ]
  case stopped =>
    intro blocked key
    rw [all] at blocked
    -- A source that is copied has no first field here.
    have empty : s.pairs host source = [] := by
      rw [← List.head?_eq_none_iff, Option.eq_none_iff_forall_ne_some]
      intro field found
      have member : field.1 ∈ (s.pairs host source).keys :=
        List.mem_map_of_mem (List.mem_of_head? found)
      exact free.2 _ (mem_pairs.mp member) (blocked source List.mem_cons_self field found)
    have same : s' = s.register set source := copied.stopped (by simp [empty])
    have rest_ : s''.rawget target key = s'.rawget target key := by
      refine mixed.stopped (fun x member field found => ?_) key
      rw [same] at found
      exact List.mem_append_right _ (blocked x (List.mem_cons_of_mem _ member) field found)
    rw [rest_, same]
    rfl

end Mixed

theorem copyFields_copied (host : Surroundings) (name : LuaString) (target source : Ref) (s : Heap) :
    Copied target (s.pairs host source) s ((copyFields host name target source).outcome s).1
      ((copyFields host name target source).outcome s).2 :=
  forM_copyField (s.pairs host source) (pairs_nodup s source) s

theorem mixSources_mixed (position : Nat) (sources : List (Option Value)) (ready : Ready target set taken s) :
    Mixed host target set taken sources s ((mixSources host target position sources).outcome s).1
      ((mixSources host target position sources).outcome s).2 := by
  induction sources generalizing position taken s with
  | nil => exact .nothing rfl (by simp [mixSources, Fits, Except.isOk, Except.toBool])
  | cons source rest ih =>
    match source with
    | none => exact .skip (ih (position + 1) ready)
    | some (.table source) =>
      have copied := copyFields_copied host (ascii "sourceObject" ++ decimal position) target source
        (s.register set source)
      simp only [mixSources, validateTable, pure_bind, outcome_bind, registerSource_outcome ready.own]
      cases ran : (copyFields host (ascii "sourceObject" ++ decimal position) target source).outcome
          (s.register set source) with
      | mk copyResult s' =>
        rw [ran] at copied
        cases copyResult with
        | ok =>
          exact .next copied ((copied.isOk_iff_free ready).mp rfl) (ih _ (ready.next copied rfl))
        | error message =>
          exact .last ready copied (fun free => nomatch (copied.isOk_iff_free ready).mpr free)
    | some (.boolean _) | some (.string _) | some (.function _) | some (.other _ _) =>
      exact .nothing rfl (by simp [mixSources, Fits, validateTable, Except.isOk, Except.toBool])

/-! ## The whole call -/

/-- The heap in front of the loop. -/
structure Started (h : Heap) (target : Ref) (found : Option MixinSet) (set : MixinSet) (s : Heap) : Prop where
  tables : ∀ r, r ≠ target → s.tables r = h.tables r
  parent : s.parent = h.parent
  size : s.size = h.size
  own : s.rawget target .mixins = some set
  fields : ∀ key, key ≠ .mixins → s.rawget target key = h.rawget target key
  inherited : ∀ other, found = some other →
    set = other ∧ s.mixinSets = h.mixinSets ∧ s.numMixinSets = h.numMixinSets
  created : found = none → set = h.numMixinSets ∧ s.mixinSets = h.createMixinSet.mixinSets ∧
    s.numMixinSets = h.numMixinSets + 1

/-- The keys of the target in front of the loop. -/
def Heap.targetKeys (h : Heap) (target : Ref) : List Key := .mixins :: h.keys target

variable {h h' : Heap} {found : Option MixinSet} {sources : List (Option Value)}

theorem started_rawset (set : MixinSet) :
    Started h target (some set) set (h.rawset target .mixins set) where
  tables _ other := Heap.update_tables_other other _
  parent := Heap.parent_rawset _
  size := rfl
  own := Heap.rawget_rawset_self _
  fields _ other := Heap.rawget_rawset_key other _
  inherited _ same := ⟨Option.some.inj same, rfl, rfl⟩
  created absent := nomatch absent

theorem started_create :
    Started h target none h.numMixinSets (h.createMixinSet.rawset target .mixins h.numMixinSets) where
  tables _ other := Heap.update_tables_other other _
  parent := Heap.parent_rawset _
  size := rfl
  own := Heap.rawget_rawset_self _
  fields _ other := Heap.rawget_rawset_key other _
  inherited _ same := nomatch same
  created _ := ⟨rfl, rfl, rfl⟩

theorem Started.ready (started : Started h target found set s) : Ready target set (h.targetKeys target) s := by
  refine ⟨started.own, fun key => ?_⟩
  rw [Heap.targetKeys, List.mem_cons, mem_keys]
  by_cases here : key = .mixins
  · subst here
    simp [started.own]
  · simp [here, started.fields key here]

theorem mixin_mixed (host : Surroundings) (sources : List (Option Value))
    (read : h.read target .mixins = .ok found) :
    ∃ set s, Started h target found set s ∧
      Mixed host target set (h.targetKeys target) sources s
        ((mixin host (some (.table target)) sources).outcome h).1
        ((mixin host (some (.table target)) sources).outcome h).2 := by
  cases found with
  | none =>
    have run : (mixin host (some (.table target)) sources).outcome h =
        (mixSources host target 1 sources).outcome
          (h.createMixinSet.rawset target .mixins h.numMixinSets) := by
      simp only [mixin, validateTable, pure_bind, outcome_bind]
      rw [index_outcome, read]
      rfl
    rw [run]
    exact ⟨_, _, started_create, mixSources_mixed 1 sources started_create.ready⟩
  | some set =>
    have run : (mixin host (some (.table target)) sources).outcome h =
        (mixSources host target 1 sources).outcome (h.rawset target .mixins set) := by
      simp only [mixin, validateTable, pure_bind, outcome_bind]
      rw [index_outcome, read]
      rfl
    rw [run]
    exact ⟨_, _, started_rawset set, mixSources_mixed 1 sources (started_rawset set).ready⟩

theorem mixin_read_error {message : LuaString} (read : h.read target .mixins = .error message) :
    (mixin host (some (.table target)) sources).outcome h = (.error message, h) := by
  simp only [mixin, validateTable, pure_bind, outcome_bind]
  rw [index_outcome, read]

theorem implements_outcome (x : Ref) :
    (implements (some (.table x)) (some (.table source))).outcome h =
      ((h.read x .mixins).map fun found => found.elim false fun set => decide (source ∈ h.mixinSets set), h) := by
  simp only [implements, validateTable, pure_bind, outcome_bind]
  rw [index_outcome]
  cases h.read x .mixins with
  | error message => rfl
  | ok found => cases found <;> rfl

/-! ## Calls that leave the target as it was -/

/-- The target has the fields that it had, and `oop.implements` answers as it did. -/
structure SameTarget (target : Ref) (h h' : Heap) : Prop where
  fields : ∀ key, h'.rawget target key = h.rawget target key
  implements : ∀ source, ((implements (some (.table target)) source).outcome h').1 =
    ((implements (some (.table target)) source).outcome h).1

theorem sameTarget_of_members (fields : ∀ key, h'.rawget target key = h.rawget target key)
    (own : h.rawget target .mixins = some set)
    (members : ∀ x, x ∈ h'.mixinSets set ↔ x ∈ h.mixinSets set) : SameTarget target h h' := by
  refine ⟨fields, fun source => ?_⟩
  have own' := (fields .mixins).trans own
  match source with
  | some (.table x) =>
    rw [implements_outcome, implements_outcome, Heap.read_own own, Heap.read_own own']
    simp [Except.map, members]
  | none | some (.boolean _) | some (.string _) | some (.function _) | some (.other _ _) => rfl

theorem SameTarget.mem (same : SameTarget target h h') (own : h.rawget target .mixins = some set)
    (member : source ∈ h'.mixinSets set) : source ∈ h.mixinSets set := by
  have answer := same.implements (some (.table source))
  rw [implements_outcome, implements_outcome, Heap.read_own own,
    Heap.read_own ((same.fields .mixins).trans own)] at answer
  simpa [Except.map, member] using answer

/-- The target has its own set of mixins, the sources that the loop gets to are in it, and
none of them has a first field that could be copied. -/
def Untouched (host : Surroundings) (h : Heap) (target : Ref) (sources : List (Option Value)) : Prop :=
  ∃ set, h.rawget target .mixins = some set ∧
    ∀ x ∈ registered h target (h.targetKeys target) sources,
      x ∈ h.mixinSets set ∧ ∀ field, (h.pairs host x).head? = some field → field.1 ∈ h.keys target

theorem Started.registered_eq (started : Started h target found set s) (taken : List Key)
    (sources : List (Option Value)) :
    registered s target taken sources = registered h target taken sources :=
  registered_congr started.tables taken sources

theorem Mixed.sameTarget (started : Started h target found set s)
    (mixed : Mixed host target set (h.targetKeys target) sources s result s')
    (read : h.read target .mixins = .ok found) (untouched : Untouched host h target sources) :
    SameTarget target h s' := by
  obtain ⟨own, have_, known⟩ := untouched
  have same : found = some own := Except.ok.inj (read.symm.trans (Heap.read_own have_))
  obtain ⟨rfl, sets, -⟩ := started.inherited own same
  have kept : ∀ key, s'.rawget target key = s.rawget target key := by
    apply mixed.stopped
    intro x member field first
    by_cases here : x = target
    · subst here
      have inside : field.1 ∈ (s.pairs host x).keys := List.mem_map_of_mem (List.mem_of_head? first)
      exact (started.ready.taken _).mpr (mem_keys.mp (mem_pairs.mp inside))
    · rw [Heap.pairs, started.tables x here] at first
      rw [started.registered_eq] at member
      exact List.mem_cons_of_mem _ ((known x member).2 field first)
  refine sameTarget_of_members (fun key => ?_) have_ (fun x => ?_)
  · rw [kept key]
    by_cases here : key = .mixins
    · rw [here, started.own, have_]
    · exact started.fields key here
  · rw [mixed.members x, started.registered_eq, sets]
    exact or_iff_left_of_imp fun member => (known x member).1

theorem Mixed.untouched (started : Started h target found set s)
    (mixed : Mixed host target set (h.targetKeys target) sources s result s')
    (same : SameTarget target h s') : Untouched host h target sources := by
  have own' : s'.rawget target .mixins = some set := mixed.extended.kept _ _ started.own
  have own := (same.fields .mixins).symm.trans own'
  refine ⟨set, own, fun x member => ⟨?_, fun field first => ?_⟩⟩
  · rw [← started.registered_eq] at member
    exact same.mem own ((mixed.members x).mpr (.inr member))
  · by_cases here : x = target
    · subst here
      exact mem_pairs.mp (List.mem_map_of_mem (List.mem_of_head? first))
    · rw [← started.registered_eq] at member
      rw [Heap.pairs, ← started.tables x here] at first
      rw [mem_keys, ← same.fields field.1]
      exact mixed.first x member here field first

/-- A call that raises an error leaves the target as it was if and only if all sources fit
(then it raises none), `__mixins` cannot be read, or nothing is copied or registered before
the error. -/
theorem mixin_unchanged_iff (host : Surroundings) (h : Heap) (target : Ref) (sources : List (Option Value)) :
    (∀ message h', (mixin host (some (.table target)) sources).outcome h = (.error message, h') →
        SameTarget target h h') ↔
      Fits h target (h.targetKeys target) sources ∨ (∃ message, h.read target .mixins = .error message) ∨
        Untouched host h target sources := by
  cases read : h.read target .mixins with
  | error message =>
    refine iff_of_true ?_ (.inr (.inl ⟨message, rfl⟩))
    intro message' h' raised
    rw [mixin_read_error read, Prod.mk.injEq] at raised
    obtain ⟨-, rfl⟩ := raised
    exact ⟨fun _ => rfl, fun _ => rfl⟩
  | ok found =>
    obtain ⟨set, s, started, mixed⟩ := mixin_mixed host sources read
    have fits := mixed.fits.trans (fits_congr started.tables _ sources)
    cases run : (mixin host (some (.table target)) sources).outcome h with
    | mk result s' =>
      rw [run] at mixed fits
      cases result with
      | ok _ =>
        refine iff_of_true ?_ (.inl (fits.mp rfl))
        intro message h' raised
        simp at raised
      | error message =>
        have fails : ¬Fits h target (h.targetKeys target) sources := fun fit => nomatch fits.mpr fit
        constructor
        · intro unchanged
          exact .inr (.inr (mixed.untouched started (unchanged message s' rfl)))
        · rintro (fit | ⟨message', unread⟩ | untouched) message' h' raised
          · exact absurd fit fails
          · exact nomatch unread
          · rw [Prod.mk.injEq] at raised
            obtain ⟨-, rfl⟩ := raised
            exact mixed.sameTarget started read untouched

def plainSurroundings : Surroundings := ⟨.asStored, fun _ => []⟩

/-- The source `foo = 42` is table 1. -/
def targetAndSource : Heap :=
  (Heap.create {}).create.rawset 1 (.named "foo") (.other .number 42)

/-- The field has been copied when the second source turns out to be a number. -/
theorem mixin_copies_before_error :
    ¬∀ message h', (mixin plainSurroundings (some (.table 0))
        [some (.table 1), some (.other .number 42)]).outcome targetAndSource = (.error message, h') →
      SameTarget 0 targetAndSource h' := by
  intro unchanged
  have same := unchanged _ _ rfl
  exact absurd (same.fields (.named "foo")) (Option.some_ne_none _)

end EvoRuntime.Oop
