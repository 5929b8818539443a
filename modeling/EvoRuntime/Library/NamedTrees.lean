import EvoRuntime.Library.SegmentWalk
import Mathlib.Data.List.AList

/-!
# Trees of named entries

A location in a tree is the list of the names on the way to it from the root. An entry
stands in a branch, and this is a field of the tree.

A walk over segments can be followed in a tree, entry by entry. It stops where it would
have to go on from something that is not a branch; where it does not stop, it leads to the
location that the segments alone tell. For segments that never go up, what matters is the
entry at the end: `resolve_concat_iff`.
-/
namespace EvoRuntime.Library

/-- What stands at a location. -/
inductive TreeNode (α : Type)
  | branch
  | leaf (value : α)
  deriving DecidableEq

structure NamedTree (κ α : Type) [DecidableEq κ] where
  nodes : AList fun _ : List κ => TreeNode α
  root : nodes.lookup [] = some .branch
  parent : ∀ location name, nodes.lookup (location ++ [name]) ≠ none →
    nodes.lookup location = some .branch

namespace NamedTree

variable {κ α : Type} [DecidableEq κ] {t : NamedTree κ α} {above below more : List κ}

def node (t : NamedTree κ α) (location : List κ) : Option (TreeNode α) := t.nodes.lookup location

/-! ### Entries and their ancestors -/

theorem branch_above (found : t.node (above ++ more) ≠ none) (inside : more ≠ []) :
    t.node above = some .branch := by
  induction more using List.reverseRecOn with
  | nil => exact absurd rfl inside
  | append_singleton more last ih =>
    rw [← List.append_assoc] at found
    have parent := t.parent _ last found
    by_cases direct : more = []
    · rwa [direct, List.append_nil] at parent
    · exact ih (parent.trans_ne (Option.some_ne_none _)) direct

theorem branch_of_prefix (onTheWay : above <+: below) (found : t.node below ≠ none)
    (differs : above ≠ below) : t.node above = some .branch := by
  obtain ⟨more, rfl⟩ := onTheWay
  refine branch_above found fun none_ => differs ?_
  rw [none_, List.append_nil]

/-- Everything above a branch is a branch. -/
theorem branches_of_branch {location : List κ} (branch : t.node location = some .branch) :
    ∀ above, above <+: location → t.node above = some .branch := by
  intro above onTheWay
  by_cases here : above = location
  · exact here ▸ branch
  · exact branch_of_prefix onTheWay (branch.trans_ne (Option.some_ne_none _)) here

/-- There is a leaf on the way to the location, or at it. -/
def Blocked (t : NamedTree κ α) (location : List κ) : Prop :=
  ∃ above value, above <+: location ∧ t.node above = some (.leaf value)

theorem not_blocked_of_branch {location : List κ} (branch : t.node location = some .branch) :
    ¬t.Blocked location := by
  rintro ⟨above, value, onTheWay, leaf⟩
  cases leaf.symm.trans (branches_of_branch branch above onTheWay)

theorem blocked_concat {location : List κ} {last : κ} : t.Blocked (location ++ [last]) ↔
    t.Blocked location ∨ ∃ value, t.node (location ++ [last]) = some (.leaf value) := by
  constructor
  · rintro ⟨above, value, onTheWay, leaf⟩
    rcases List.prefix_concat_iff.mp onTheWay with rfl | before
    · exact Or.inr ⟨value, leaf⟩
    · exact Or.inl ⟨above, value, before, leaf⟩
  · rintro (⟨above, value, onTheWay, leaf⟩ | ⟨value, leaf⟩)
    · exact ⟨above, value, onTheWay.trans (List.prefix_append _ _), leaf⟩
    · exact ⟨_, value, List.prefix_rfl, leaf⟩

/-- Where something stands, only a leaf is in the way. -/
theorem blocked_iff_of_found {location : List κ} (there : t.node location ≠ none) :
    t.Blocked location ↔ t.node location ≠ some .branch := by
  refine ⟨fun blocked branch => not_blocked_of_branch branch blocked, fun notBranch => ?_⟩
  obtain ⟨node, here⟩ := Option.ne_none_iff_exists'.mp there
  cases node with
  | branch => exact absurd here notBranch
  | leaf value => exact ⟨location, value, List.prefix_rfl, here⟩

/-- Nothing has been changed, except that there are new branches on the way to a location. -/
def GrownTowards (location : List κ) (before after : NamedTree κ α) : Prop :=
  ∀ other, after.node other ≠ before.node other →
    other <+: location ∧ before.node other = none ∧ after.node other = some .branch

theorem GrownTowards.refl {location : List κ} : GrownTowards location t t :=
  fun _ changed => absurd rfl changed

theorem GrownTowards.trans {location : List κ} {before between after : NamedTree κ α}
    (first : GrownTowards location before between) (second : GrownTowards location between after) :
    GrownTowards location before after := by
  intro other changed
  by_cases later : after.node other = between.node other
  · rw [later] at changed ⊢
    exact first other changed
  · obtain ⟨onTheWay, absent, made⟩ := second other later
    refine ⟨onTheWay, ?_, made⟩
    -- What the first step has made is there for the second one.
    by_contra there
    have new := (first other (absent.trans_ne (Ne.symm there))).2.2
    cases absent.symm.trans new

theorem GrownTowards.extend {location : List κ} {before after : NamedTree κ α}
    (grown : GrownTowards location before after) (more : List κ) :
    GrownTowards (location ++ more) before after := by
  intro other changed
  obtain ⟨onTheWay, rest⟩ := grown other changed
  exact ⟨onTheWay.trans (List.prefix_append _ _), rest⟩

/-! ### Changes -/

/-- A name in a branch. -/
structure Place (t : NamedTree κ α) where
  directory : List κ
  name : κ
  inside : t.node directory = some .branch

def Place.location (place : t.Place) : List κ := place.directory ++ [place.name]

theorem Place.location_ne_nil (place : t.Place) : place.location ≠ [] :=
  List.append_ne_nil_of_right_ne_nil _ (List.cons_ne_nil _ _)

/-- The new entry takes the place of a leaf, or of nothing. -/
def put (t : NamedTree κ α) (place : t.Place) (new : TreeNode α)
    (free : t.node place.location ≠ some .branch) : NamedTree κ α where
  nodes := t.nodes.insert place.location new
  root := by
    rw [AList.lookup_insert_ne place.location_ne_nil.symm]
    exact t.root
  parent location name found := by
    have branch : t.nodes.lookup location = some .branch := by
      by_cases here : location ++ [name] = place.location
      · have same : location = place.directory := (List.append_inj' here rfl).1
        exact same ▸ place.inside
      · rw [AList.lookup_insert_ne here] at found
        exact t.parent location name found
    have kept : location ≠ place.location := by
      rintro rfl
      exact free branch
    rwa [AList.lookup_insert_ne kept]

theorem node_put (place : t.Place) (new : TreeNode α) (free : t.node place.location ≠ some .branch)
    (location : List κ) : (t.put place new free).node location =
      if location = place.location then some new else t.node location := by
  split
  case isTrue here =>
    rw [here]
    exact AList.lookup_insert _
  case isFalse elsewhere => exact AList.lookup_insert_ne elsewhere

/-- Nothing stands in this location. -/
def Childless (t : NamedTree κ α) (location : List κ) : Prop :=
  ∀ key ∈ t.nodes.keys, key ≠ [] → key.dropLast ≠ location

instance (t : NamedTree κ α) (location : List κ) : Decidable (t.Childless location) :=
  inferInstanceAs (Decidable (∀ key ∈ t.nodes.keys, key ≠ [] → key.dropLast ≠ location))

theorem childless_iff {location : List κ} :
    t.Childless location ↔ ∀ name, t.node (location ++ [name]) = none := by
  constructor
  · intro childless name
    refine AList.lookup_eq_none.mpr fun member => ?_
    exact childless _ member (List.append_ne_nil_of_right_ne_nil _ (List.cons_ne_nil _ _))
      (List.dropLast_concat ..)
  · intro free key member nonempty here
    rw [← here] at free
    have absent := AList.lookup_eq_none.mp (free (key.getLast nonempty))
    rw [List.dropLast_append_getLast nonempty] at absent
    exact absent member

/-- Only a branch has entries. -/
theorem childless_of_leaf {location : List κ} {value : α}
    (leaf : t.node location = some (.leaf value)) : t.Childless location := by
  refine childless_iff.mpr fun name => ?_
  by_contra found
  have branch := branch_above found (List.cons_ne_nil _ _)
  rw [leaf] at branch
  cases branch

def remove (t : NamedTree κ α) (place : t.Place) (childless : t.Childless place.location) :
    NamedTree κ α where
  nodes := t.nodes.erase place.location
  root := by
    rw [AList.lookup_erase_ne place.location_ne_nil.symm]
    exact t.root
  parent location name found := by
    have left : location ++ [name] ≠ place.location := by
      intro here
      rw [here, AList.lookup_erase] at found
      exact found rfl
    rw [AList.lookup_erase_ne left] at found
    -- An entry without its branch would have stood in the location.
    have kept : location ≠ place.location := by
      rintro rfl
      exact found (childless_iff.mp childless name)
    rw [AList.lookup_erase_ne kept]
    exact t.parent location name found

theorem node_remove (place : t.Place) (childless : t.Childless place.location)
    (location : List κ) : (t.remove place childless).node location =
      if location = place.location then none else t.node location := by
  split
  case isTrue here =>
    rw [here]
    exact AList.lookup_erase _ _
  case isFalse elsewhere => exact AList.lookup_erase_ne elsewhere

/-- The value of a leaf is replaced. -/
def setLeaf (t : NamedTree κ α) (location : List κ) (value : α) {old : α}
    (leaf : t.node location = some (.leaf old)) : NamedTree κ α where
  nodes := t.nodes.insert location (.leaf value)
  root := by
    have below : [] ≠ location := by
      rintro rfl
      have root := leaf.symm.trans t.root
      cases root
    rw [AList.lookup_insert_ne below]
    exact t.root
  parent above name found := by
    have branch : t.nodes.lookup above = some .branch := by
      by_cases here : above ++ [name] = location
      · have there : t.node location ≠ none := leaf.trans_ne (Option.some_ne_none _)
        exact t.parent above name (here ▸ there)
      · rw [AList.lookup_insert_ne here] at found
        exact t.parent above name found
    have kept : above ≠ location := by
      rintro rfl
      have same := leaf.symm.trans branch
      cases same
    rwa [AList.lookup_insert_ne kept]

theorem node_setLeaf {location : List κ} {value old : α}
    (leaf : t.node location = some (.leaf old)) (other : List κ) :
    (t.setLeaf location value leaf).node other =
      if other = location then some (.leaf value) else t.node other := by
  split
  case isTrue here =>
    rw [here]
    exact AList.lookup_insert _
  case isFalse elsewhere => exact AList.lookup_insert_ne elsewhere

/-! ### Following segments -/

/-- Why a walk stops. -/
inductive Obstacle
  | missing
  | notBranch
  deriving DecidableEq

variable (reading : SegmentReading κ)

/-- A segment can only be followed from a branch, also one that does not lead on. -/
def step (t : NamedTree κ α) (location : List κ) (segment : κ) : Except Obstacle (List κ) :=
  match t.node location with
  | some .branch => .ok (reading.push false location segment)
  | some (.leaf _) => .error .notBranch
  | none => .error .missing

def resolve (t : NamedTree κ α) (start segments : List κ) : Except Obstacle (List κ) :=
  segments.foldlM (t.step reading) start

variable {reading} {start segments : List κ} {segment : κ} {location : List κ}

theorem step_eq_ok_iff : t.step reading location segment = .ok below ↔
    t.node location = some .branch ∧ below = reading.push false location segment := by
  unfold step
  split
  case h_1 branch => simp [branch, eq_comm]
  case h_2 leaf => simp [leaf]
  case h_3 missing => simp [missing]

theorem resolve_concat_eq_ok_iff : t.resolve reading start (segments ++ [segment]) = .ok below ↔
    ∃ location, t.resolve reading start segments = .ok location ∧
      t.node location = some .branch ∧ below = reading.push false location segment := by
  have split : t.resolve reading start (segments ++ [segment]) =
      t.resolve reading start segments >>= (t.step reading · segment) := by
    simp only [resolve, List.foldlM_append, List.foldlM_cons, List.foldlM_nil, bind_pure]
  rw [split]
  cases t.resolve reading start segments with
  | error obstacle =>
    constructor
    · intro resolved
      cases resolved
    · rintro ⟨location, first, -⟩
      cases first
  | ok location =>
    change t.step reading location segment = .ok below ↔ _
    rw [step_eq_ok_iff]
    simp

/-- Where a walk does not stop, it leads to the location that the segments alone tell. -/
theorem resolve_eq_walk (resolved : t.resolve reading start segments = .ok location) :
    location = reading.walk false start segments := by
  induction segments using List.reverseRecOn generalizing location with
  | nil => exact (Except.ok.inj resolved).symm
  | append_singleton segments last ih =>
    obtain ⟨before, first, -, rfl⟩ := resolve_concat_eq_ok_iff.mp resolved
    rw [SegmentReading.walk_append, ih first]
    rfl

/-- Above a branch there is a branch; above the root there is the root. -/
theorem branch_push_up (branch : t.node location = some .branch) :
    t.node (reading.push false location reading.up) = some .branch := by
  rcases List.eq_nil_or_concat' location with rfl | ⟨front, top, rfl⟩
  · rwa [SegmentReading.push_up_nil]
  · by_cases recorded : top = reading.up
    · subst recorded
      rwa [SegmentReading.push_up_up]
    · have above : t.node front = some .branch :=
        branch_above (branch.trans_ne (Option.some_ne_none _)) (List.cons_ne_nil _ _)
      simpa [SegmentReading.push, reading.up_not_skipped, recorded] using above

/-! ### Segments that never go up -/

/-- All directories on the way to a branch can be passed. -/
theorem resolve_of_branch (descends : ∀ s ∈ segments, s ≠ reading.up)
    (branch : t.node (reading.walk false start segments) = some .branch) :
    t.resolve reading start segments = .ok (reading.walk false start segments) := by
  induction segments using List.reverseRecOn with
  | nil => rfl
  | append_singleton segments last ih =>
    rw [SegmentReading.walk_append, SegmentReading.walk_cons, SegmentReading.walk_nil] at branch ⊢
    -- Without its last segment, the way ends in a branch too.
    have before : t.node (reading.walk false start segments) = some .branch := by
      by_cases skipped : reading.skipped last = true
      · rwa [SegmentReading.push_skipped skipped] at branch
      · have name : reading.IsName last := ⟨by simpa using skipped, descends last (by simp)⟩
        rw [SegmentReading.push_name name] at branch
        exact branch_above (branch.trans_ne (Option.some_ne_none _)) (List.cons_ne_nil _ _)
    have inFront : ∀ s ∈ segments, s ≠ reading.up := fun s member =>
      descends s (List.mem_append_left _ member)
    exact resolve_concat_eq_ok_iff.mpr ⟨_, ih inFront before, before, rfl⟩

/-- Only the entry in front of the last segment matters. -/
theorem resolve_concat_iff (descends : ∀ s ∈ segments, s ≠ reading.up) :
    t.resolve reading start (segments ++ [segment]) = .ok below ↔
      t.node (reading.walk false start segments) = some .branch ∧
        below = reading.push false (reading.walk false start segments) segment := by
  rw [resolve_concat_eq_ok_iff]
  constructor
  · rintro ⟨location, resolved, branch, rfl⟩
    have same := resolve_eq_walk resolved
    exact same ▸ ⟨branch, rfl⟩
  · rintro ⟨branch, rfl⟩
    exact ⟨_, resolve_of_branch descends branch, branch, rfl⟩

/-- What is found at the end of such segments. Behind a segment that does not lead on, it has
to be a branch. -/
theorem found_concat_iff (descends : ∀ s ∈ segments, s ≠ reading.up) (last : segment ≠ reading.up)
    {found : TreeNode α} :
    (∃ location, t.resolve reading start (segments ++ [segment]) = .ok location ∧
        t.node location = some found) ↔
      t.node (reading.walk false start (segments ++ [segment])) = some found ∧
        (reading.skipped segment = true → found = .branch) := by
  rw [SegmentReading.walk_append, SegmentReading.walk_cons, SegmentReading.walk_nil]
  -- A segment that does not lead on stays at the branch in which it is followed.
  by_cases skipped : reading.skipped segment = true
  · simp only [resolve_concat_iff descends, SegmentReading.push_skipped skipped, skipped,
      true_implies]
    constructor
    · rintro ⟨location, ⟨branch, rfl⟩, here⟩
      exact ⟨here, Option.some.inj (here.symm.trans branch)⟩
    · rintro ⟨here, rfl⟩
      exact ⟨_, ⟨here, rfl⟩, here⟩
  · have name : reading.IsName segment := ⟨by simpa using skipped, last⟩
    simp only [resolve_concat_iff descends, SegmentReading.push_name name, skipped]
    constructor
    · rintro ⟨location, ⟨branch, rfl⟩, here⟩
      exact ⟨here, fun led => absurd led Bool.false_ne_true⟩
    · rintro ⟨here, -⟩
      have branch := branch_above (here.trans_ne (Option.some_ne_none _)) (List.cons_ne_nil _ _)
      exact ⟨_, ⟨branch, rfl⟩, here⟩

end NamedTree

end EvoRuntime.Library
