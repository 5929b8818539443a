import Mathlib

/-!
# Heaps of cells

A cell has fields under keys. A field holds plain data, or the reference of another cell.
What a value says is what is read along all paths of keys, where references are not
compared with each other.

A copy says the same as the value it was made of. It has cells of its own, and each of
them is found along one path only.
-/
namespace EvoRuntime.Library.Heaps

variable {ρ κ α : Type*}

/-- The fields of all cells. -/
abbrev Cells (ρ κ α : Type*) := ρ → κ → Option (α ⊕ ρ)

variable {cells cells' original : Cells ρ κ α} {r t : ρ} {path : List κ} {S : Set ρ}

/-- What is found along a path. -/
def follow (cells : Cells ρ κ α) : α ⊕ ρ → List κ → Option (α ⊕ ρ)
  | value, [] => some value
  | .inl _, _ :: _ => none
  | .inr r, key :: path => (cells r key).bind (follow cells · path)

def PointsTo (cells : Cells ρ κ α) (r r' : ρ) : Prop := ∃ key, cells r key = some (.inr r')

/-- No cell of the set refers to a cell outside of it. -/
def ClosedIn (cells : Cells ρ κ α) (S : Set ρ) : Prop :=
  ∀ r ∈ S, ∀ r', PointsTo cells r r' → r' ∈ S

/-- A reference is only seen to be one. -/
def outline : α ⊕ ρ → Option α
  | .inl a => some a
  | .inr _ => none

/-- Two values say the same. -/
def Alike (cells : Cells ρ κ α) (value : α ⊕ ρ) (cells' : Cells ρ κ α) (value' : α ⊕ ρ) : Prop :=
  ∀ path, (follow cells value path).map outline = (follow cells' value' path).map outline

/-! ## Paths -/

theorem follow_cons (key : κ) :
    follow cells (.inr r) (key :: path) = (cells r key).bind (follow cells · path) := rfl

theorem follow_mem (closed : ClosedIn cells S) (inside : r ∈ S)
    (found : follow cells (.inr r) path = some (.inr t)) : t ∈ S := by
  induction path generalizing r with
  | nil =>
    cases found
    exact inside
  | cons key path ih =>
    rw [follow_cons] at found
    cases field : cells r key with
    | none =>
      rw [field] at found
      cases found
    | some value =>
      rw [field, Option.bind_some] at found
      cases value with
      | inl a => cases path <;> cases found
      | inr next => exact ih (closed r inside next ⟨key, field⟩) found

/-- Cells outside of a closed set are not seen from the inside. -/
theorem follow_congr (closed : ClosedIn cells S) (same : ∀ t ∈ S, cells' t = cells t) (inside : r ∈ S)
    (path : List κ) : follow cells' (.inr r) path = follow cells (.inr r) path := by
  induction path generalizing r with
  | nil => rfl
  | cons key path ih =>
    rw [follow_cons, follow_cons, same r inside]
    cases field : cells r key with
    | none => rfl
    | some value =>
      rw [Option.bind_some, Option.bind_some]
      cases value with
      | inl a => cases path <;> rfl
      | inr next => exact ih (closed r inside next ⟨key, field⟩)

theorem ClosedIn.congr (closed : ClosedIn cells S) (same : ∀ t ∈ S, cells' t = cells t) :
    ClosedIn cells' S := by
  rintro t inside next ⟨key, field⟩
  rw [same t inside] at field
  exact closed t inside next ⟨key, field⟩

theorem Alike.refl (cells : Cells ρ κ α) (value : α ⊕ ρ) : Alike cells value cells value :=
  fun _ => rfl

theorem Alike.trans {cells'' : Cells ρ κ α} {value value' value'' : α ⊕ ρ}
    (first : Alike cells value cells' value') (second : Alike cells' value' cells'' value'') :
    Alike cells value cells'' value'' :=
  fun path => (first path).trans (second path)

/-! ## Copies -/

/-- A copy of a value with the cells of its own. -/
structure IsCopy (original : Cells ρ κ α) (value : α ⊕ ρ) (cells : Cells ρ κ α) (copy : α ⊕ ρ)
    (own : Set ρ) : Prop where
  alike : Alike original value cells copy
  inside : ∀ r, copy = .inr r → r ∈ own
  closed : ClosedIn cells own
  once : ∀ p q t, follow cells copy p = some (.inr t) → follow cells copy q = some (.inr t) → p = q
  reached : ∀ t ∈ own, ∃ path, follow cells copy path = some (.inr t)

theorem IsCopy.plain (a : α) : IsCopy original (.inl a) cells (.inl a) ∅ where
  alike path := by cases path <;> rfl
  inside r same := nomatch same
  closed r inside := absurd inside (Set.notMem_empty r)
  once p q t found := by cases p <;> cases found
  reached t inside := absurd inside (Set.notMem_empty t)

/-- What happens to other cells does not matter. -/
theorem IsCopy.congr {value copy : α ⊕ ρ} (copied : IsCopy original value cells copy S)
    (same : ∀ t ∈ S, cells' t = cells t) : IsCopy original value cells' copy S := by
  have follows : ∀ path, follow cells' copy path = follow cells copy path := by
    intro path
    cases copy with
    | inl a => cases path <;> rfl
    | inr r => exact follow_congr copied.closed same (copied.inside r rfl) path
  constructor
  case alike => exact fun path => (copied.alike path).trans (by rw [follows])
  case inside => exact copied.inside
  case closed => exact copied.closed.congr same
  case once =>
    intro p q t first second
    rw [follows] at first second
    exact copied.once p q t first second
  case reached =>
    intro t inside
    obtain ⟨path, found⟩ := copied.reached t inside
    exact ⟨path, (follows path).trans found⟩

/-- A copy of a value is one of every value that says the same. -/
theorem IsCopy.of_alike {older : Cells ρ κ α} {value' value copy : α ⊕ ρ}
    (copied : IsCopy original value cells copy S) (alike : Alike older value' original value) :
    IsCopy older value' cells copy S :=
  { copied with alike := alike.trans copied.alike }

/-- A field of the original and the one of the copy. -/
def FieldCopied (original cells : Cells ρ κ α) (own : Set ρ) :
    Option (α ⊕ ρ) → Option (α ⊕ ρ) → Prop
  | none, none => own = ∅
  | some value, some copy => IsCopy original value cells copy own
  | _, _ => False

theorem FieldCopied.congr {value copied : Option (α ⊕ ρ)}
    (field : FieldCopied original cells S value copied) (same : ∀ t ∈ S, cells' t = cells t) :
    FieldCopied original cells' S value copied := by
  cases value with
  | none =>
    cases copied with
    | none => exact field
    | some c => exact field.elim
  | some v =>
    cases copied with
    | none => exact field.elim
    | some c => exact IsCopy.congr field same

theorem FieldCopied.exists {value copied : Option (α ⊕ ρ)} (field : FieldCopied original cells S value copied)
    (inside : t ∈ S) : ∃ v c, copied = some c ∧ IsCopy original v cells c S := by
  cases value with
  | none =>
    cases copied with
    | none => exact absurd (field ▸ inside) (Set.notMem_empty t)
    | some c => exact field.elim
  | some v =>
    cases copied with
    | none => exact field.elim
    | some c => exact ⟨v, c, rfl, field⟩

theorem FieldCopied.of_some {value : Option (α ⊕ ρ)} {c : α ⊕ ρ}
    (field : FieldCopied original cells S value (some c)) : ∃ v, IsCopy original v cells c S := by
  cases value with
  | none => exact field.elim
  | some v => exact ⟨v, field⟩

/-- A new cell with copies of all fields is a copy of the cell. -/
theorem isCopy_cell {source copy : ρ} {own : κ → Set ρ}
    (fields : ∀ key, FieldCopied original cells (own key) (original source key) (cells copy key))
    (apart : ∀ key key', key ≠ key' → Disjoint (own key) (own key'))
    (fresh : ∀ key, copy ∉ own key) :
    IsCopy original (.inr source) cells (.inr copy) (insert copy (⋃ key, own key)) := by
  -- A path that is not empty leads into the cells of one field.
  have below : ∀ {key path t}, follow cells (.inr copy) (key :: path) = some (.inr t) →
      t ∈ own key ∧ ∃ value copied, cells copy key = some copied ∧
        IsCopy original value cells copied (own key) ∧ follow cells copied path = some (.inr t) := by
    intro key path t found
    rw [follow_cons] at found
    have field := fields key
    cases read : cells copy key with
    | none =>
      rw [read] at found
      cases found
    | some copied =>
      rw [read] at found field
      obtain ⟨value, copied_⟩ := field.of_some
      refine ⟨?_, value, copied, rfl, copied_, found⟩
      cases copied with
      | inl a => cases path <;> cases found
      | inr next => exact follow_mem copied_.closed (copied_.inside next rfl) found
  constructor
  case alike =>
    intro path
    cases path with
    | nil => rfl
    | cons key path =>
      rw [follow_cons, follow_cons]
      have field := fields key
      revert field
      cases original source key with
      | none =>
        cases cells copy key with
        | none => exact fun _ => rfl
        | some copied => exact False.elim
      | some value =>
        cases cells copy key with
        | none => exact False.elim
        | some copied => exact fun field => IsCopy.alike field path
  case inside =>
    intro r same
    cases same
    exact Set.mem_insert copy _
  case closed =>
    rintro t inside next ⟨key, read⟩
    rcases Set.mem_insert_iff.mp inside with rfl | inside
    · have first : follow cells (.inr t) [key] = some (.inr next) := by
        rw [follow_cons, read]
        rfl
      obtain ⟨member, -⟩ := below first
      exact Set.mem_insert_of_mem _ (Set.mem_iUnion_of_mem key member)
    · obtain ⟨k, member⟩ := Set.mem_iUnion.mp inside
      obtain ⟨value, copied, -, copied_⟩ := (fields k).exists member
      exact Set.mem_insert_of_mem _ (Set.mem_iUnion_of_mem k (copied_.closed t member next ⟨key, read⟩))
  case once =>
    intro p q t first second
    cases p with
    | nil =>
      cases first
      cases q with
      | nil => rfl
      | cons key q => exact absurd (below second).1 (fresh key)
    | cons key p =>
      cases q with
      | nil =>
        cases second
        exact absurd (below first).1 (fresh key)
      | cons key' q =>
        obtain ⟨member, value, copied, read, copied_, found⟩ := below first
        obtain ⟨member', -, copied', read', -, found'⟩ := below second
        obtain rfl : key = key' := by
          by_contra differ
          exact Set.disjoint_left.mp (apart key key' differ) member member'
        cases read.symm.trans read'
        rw [copied_.once p q t found found']
  case reached =>
    intro t inside
    rcases Set.mem_insert_iff.mp inside with rfl | inside
    · exact ⟨[], rfl⟩
    · obtain ⟨key, member⟩ := Set.mem_iUnion.mp inside
      obtain ⟨value, copied, read, copied_⟩ := (fields key).exists member
      obtain ⟨path, found⟩ := copied_.reached t member
      exact ⟨key :: path, by rw [follow_cons, read, Option.bind_some, found]⟩

/-! ## Cycles -/

/-- No cell that can be reached from this one refers back to itself. -/
def AcyclicFrom (cells : Cells ρ κ α) (r : ρ) : Prop :=
  ∀ t, Relation.ReflTransGen (PointsTo cells) r t → ¬Relation.TransGen (PointsTo cells) t t

/-- Descending from a cell comes to an end. -/
def Descends (cells : Cells ρ κ α) (r : ρ) : Prop := Acc (fun t r => PointsTo cells r t) r

theorem Descends.acyclic (descends : Descends cells r) : AcyclicFrom cells r := by
  induction descends with
  | intro r _ ih =>
    intro t reached cycle
    rcases Relation.ReflTransGen.cases_head reached with rfl | ⟨next, first, rest⟩
    -- The cycle goes on with a cell that can be reached from below.
    · obtain ⟨next, first, rest⟩ := Relation.TransGen.head'_iff.mp cycle
      exact ih next first next .refl (Relation.TransGen.tail' rest first)
    · exact ih next first t rest cycle

/-- Among finitely many cells, only a cycle goes on forever. -/
theorem descends_iff (finite : S.Finite) (closed : ClosedIn cells S) (inside : r ∈ S) :
    Descends cells r ↔ AcyclicFrom cells r := by
  refine ⟨Descends.acyclic, fun acyclic => ?_⟩
  have reached_inside : ∀ t, Relation.ReflTransGen (PointsTo cells) r t → t ∈ S := by
    intro t reached
    induction reached with
    | refl => exact inside
    | tail _ last ih => exact closed _ ih _ last
  -- Among the cells that can be reached, being below another one is an order.
  let Reached := { t // Relation.ReflTransGen (PointsTo cells) r t }
  let below : Reached → Reached → Prop := fun t u => Relation.TransGen (PointsTo cells) u.1 t.1
  have : Finite Reached := (finite.subset reached_inside).to_subtype
  have : IsTrans Reached below := ⟨fun _ _ _ first second => second.trans first⟩
  have : Std.Irrefl below := ⟨fun t cycle => acyclic t.1 t.2 cycle⟩
  have ends : ∀ t : Reached, Descends cells t.1 := by
    intro t
    induction (Finite.wellFounded_of_trans_of_irrefl below).apply t with
    | intro t _ ih =>
      exact Acc.intro _ fun next points => ih ⟨next, t.2.tail points⟩ (.single points)
  exact ends ⟨r, .refl⟩

end EvoRuntime.Library.Heaps
