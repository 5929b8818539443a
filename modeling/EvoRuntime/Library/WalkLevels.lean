import EvoRuntime.Library.SegmentWalk
import Mathlib.Algebra.Order.Group.Int

/-!
# Levels of a walk

Which segment comes to stand at the bottom of the stack can be told from the
segments alone, by counting the levels that they go down and up. A segment stands
at the bottom when those before it cancel out and none after it takes it back:
`head_walk_iff`.
-/
namespace EvoRuntime.Library.SegmentReading

variable {σ : Type*} [DecidableEq σ] (reading : SegmentReading σ)

/-- How many levels a segment leads down. -/
def weight (segment : σ) : Int :=
  if reading.skipped segment then 0 else if segment = reading.up then -1 else 1

def level : List σ → Int
  | [] => 0
  | segment :: segments => reading.weight segment + level segments

/-- The segments never lead above the place where they start. -/
def Stays (segments : List σ) : Prop := ∀ front, front <+: segments → 0 ≤ reading.level front

/-- The segments lead back to the place where they start. -/
def Cancels (segments : List σ) : Prop := reading.Stays segments ∧ reading.level segments = 0

variable {reading} {above : Bool} {stack segments : List σ} {segment : σ}

theorem level_append (xs ys : List σ) :
    reading.level (xs ++ ys) = reading.level xs + reading.level ys := by
  induction xs with
  | nil => exact (Int.zero_add _).symm
  | cons s rest ih => rw [List.cons_append, level, ih, level, Int.add_assoc]

theorem Stays.level (stays : reading.Stays segments) : 0 ≤ reading.level segments :=
  stays segments List.prefix_rfl

theorem stays_nil : reading.Stays [] := by
  intro front inside
  rw [List.prefix_nil.mp inside]
  exact Int.le_refl 0

theorem stays_concat :
    reading.Stays (segments ++ [segment]) ↔
      reading.Stays segments ∧ 0 ≤ reading.level (segments ++ [segment]) := by
  constructor
  · intro stays
    exact ⟨fun front inside => stays front (inside.trans (List.prefix_append _ _)), stays.level⟩
  · rintro ⟨stays, last⟩ front inside
    rcases List.prefix_concat_iff.mp inside with rfl | before
    · exact last
    · exact stays front before

theorem weight_skipped (skipped : reading.skipped segment = true) : reading.weight segment = 0 := by
  rw [weight, if_pos skipped]

theorem weight_up : reading.weight reading.up = -1 := by
  simp [weight, reading.up_not_skipped]

theorem weight_name (name : reading.IsName segment) : reading.weight segment = 1 := by
  simp [weight, name.1, name.2]

/-- The three ways in which a segment is read. -/
theorem read_cases (reading : SegmentReading σ) (segment : σ) :
    reading.skipped segment = true ∨ segment = reading.up ∨ reading.IsName segment := by
  by_cases skipped : reading.skipped segment = true
  · exact Or.inl skipped
  · by_cases up : segment = reading.up
    · exact Or.inr (Or.inl up)
    · exact Or.inr (Or.inr ⟨by simpa using skipped, up⟩)

/-- Segments that stay leave names on every stack, one for each level. -/
theorem walk_stays (stays : reading.Stays segments) :
    ∃ names, (∀ s ∈ names, reading.IsName s) ∧ (names.length : Int) = reading.level segments ∧
      ∀ above stack, reading.walk above stack segments = stack ++ names := by
  induction segments using List.reverseRecOn with
  | nil => exact ⟨[], List.forall_mem_nil _, rfl, fun above stack => (List.append_nil stack).symm⟩
  | append_singleton segments segment ih =>
    obtain ⟨before, last⟩ := stays_concat.mp stays
    obtain ⟨names, named, count, walked⟩ := ih before
    rw [level_append, level, level, Int.add_zero] at last ⊢
    rcases read_cases reading segment with skipped | rfl | name
    · refine ⟨names, named, by rw [count, weight_skipped skipped, Int.add_zero], ?_⟩
      intro above stack
      rw [walk_append, walked, walk_cons, push_skipped skipped, walk_nil]
    -- There is a name to take back, since the level does not drop below the start.
    · rw [weight_up] at last ⊢
      rcases List.eq_nil_or_concat' names with rfl | ⟨below, top, rfl⟩
      · rw [List.length_nil] at count
        omega
      · refine ⟨below, fun s member => named s (List.mem_append_left _ member), ?_, ?_⟩
        · rw [← count]
          simp
        · intro above stack
          rw [walk_append, walked, walk_cons, walk_nil, ← List.append_assoc,
            push_up_name (named top (by simp))]
    · refine ⟨names ++ [segment], ?_, ?_, ?_⟩
      · exact List.forall_mem_append.mpr ⟨named, List.forall_mem_singleton.mpr name⟩
      · rw [weight_name name, ← count]
        simp
      · intro above stack
        rw [walk_append, walked, walk_cons, walk_nil, push_name name, List.append_assoc]

/-- Segments that cancel out leave every stack as it is. -/
theorem walk_cancels (cancels : reading.Cancels segments) (stack : List σ) :
    reading.walk above stack segments = stack := by
  obtain ⟨names, -, count, walked⟩ := walk_stays cancels.1
  rw [cancels.2] at count
  have none_ : names = [] := List.length_eq_zero_iff.mp (by omega)
  rw [walked, none_, List.append_nil]

/-! ### The bottom of the stack -/

/-- The segment `s` comes to stand on the ground, and nothing takes it back. -/
def Grounded (reading : SegmentReading σ) (segments : List σ) (s : σ) : Prop :=
  ∃ before after, segments = before ++ s :: after ∧ reading.Cancels before ∧ reading.IsName s ∧
    reading.Stays after

theorem level_grounded {before after : List σ} {s : σ} (cancels : reading.Cancels before)
    (name : reading.IsName s) :
    reading.level (before ++ s :: after) = 1 + reading.level after := by
  rw [level_append, cancels.2, level, weight_name name, Int.zero_add]

theorem stays_grounded {before after : List σ} {s : σ} (cancels : reading.Cancels before)
    (name : reading.IsName s) (stays : reading.Stays after) :
    reading.Stays (before ++ s :: after) := by
  induction after using List.reverseRecOn with
  | nil =>
    refine stays_concat.mpr ⟨cancels.1, ?_⟩
    rw [level_grounded cancels name, level]
    omega
  | append_singleton after segment ih =>
    have whole : before ++ s :: (after ++ [segment]) = (before ++ s :: after) ++ [segment] := by simp
    have positive := stays.level
    rw [whole]
    refine stays_concat.mpr ⟨ih (stays_concat.mp stays).1, ?_⟩
    rw [← whole, level_grounded cancels name]
    omega

theorem Grounded.walk {s : σ} (grounded : reading.Grounded segments s) :
    ∃ names, reading.walk above [] segments = s :: names := by
  obtain ⟨before, after, rfl, cancels, name, stays⟩ := grounded
  obtain ⟨names, -, -, walked⟩ := walk_stays stays
  refine ⟨names, ?_⟩
  rw [walk_append, walk_cancels cancels, walk_cons, push_name name, walked]
  rfl

/-- Segments cancel out, or ground a name, or lead above the start. -/
theorem cancels_or_grounded (reading : SegmentReading σ) (segments : List σ) :
    reading.Cancels segments ∨ (∃ s, reading.Grounded segments s) ∨
      ∃ n names, (∀ s ∈ names, reading.IsName s) ∧
        reading.walk true [] segments = List.replicate (n + 1) reading.up ++ names := by
  induction segments using List.reverseRecOn with
  | nil => exact Or.inl ⟨stays_nil, rfl⟩
  | append_singleton segments segment ih =>
    rcases ih with cancels | ⟨s, before, after, rfl, cancels, name, stays⟩ | ⟨n, names, named, walked⟩
    -- At the start a name is grounded, and going up leads above it.
    · rcases read_cases reading segment with skipped | rfl | name
      · have level : reading.level (segments ++ [segment]) = 0 := by
          rw [level_append, cancels.2, level, weight_skipped skipped, level]
          rfl
        exact Or.inl ⟨stays_concat.mpr ⟨cancels.1, by omega⟩, level⟩
      · refine Or.inr (Or.inr ⟨0, [], List.forall_mem_nil _, ?_⟩)
        rw [walk_append, walk_cancels cancels, walk_cons, push_up_nil]
        rfl
      · exact Or.inr (Or.inl ⟨segment, segments, [], rfl, cancels, name, stays_nil⟩)
    -- A grounded name is taken back at level one only.
    · by_cases level : 0 ≤ reading.level (after ++ [segment])
      · exact Or.inr (Or.inl ⟨s, before, after ++ [segment], by simp, cancels, name,
          stays_concat.mpr ⟨stays, level⟩⟩)
      · have before_ := stays.level
        have total : reading.level (before ++ s :: after) = 1 + reading.level after :=
          level_grounded cancels name
        have up : reading.weight segment = -1 ∧ reading.level after = 0 := by
          rw [level_append, SegmentReading.level, SegmentReading.level] at level
          rcases read_cases reading segment with skipped | rfl | named
          · rw [weight_skipped skipped] at level
            omega
          · rw [weight_up] at level ⊢
            omega
          · rw [weight_name named] at level
            omega
        have zero : reading.level (before ++ s :: after ++ [segment]) = 0 := by
          rw [level_append, total, SegmentReading.level, SegmentReading.level]
          omega
        exact Or.inl ⟨stays_concat.mpr ⟨stays_grounded cancels name stays, by omega⟩, zero⟩
    -- Above the start names come and go behind the ups.
    · rw [walk_append, walked, walk_cons, walk_nil]
      refine Or.inr (Or.inr ?_)
      rcases read_cases reading segment with skipped | rfl | name
      · exact ⟨n, names, named, push_skipped skipped⟩
      · rcases List.eq_nil_or_concat' names with rfl | ⟨below, top, rfl⟩
        · refine ⟨n + 1, [], List.forall_mem_nil _, ?_⟩
          rw [List.append_nil, List.append_nil, List.replicate_succ', push_up_up, if_pos rfl,
            ← List.replicate_succ', ← List.replicate_succ']
        · refine ⟨n, below, fun s member => named s (List.mem_append_left _ member), ?_⟩
          rw [← List.append_assoc, push_up_name (named top (by simp))]
      · refine ⟨n, names ++ [segment], ?_, ?_⟩
        · exact List.forall_mem_append.mpr ⟨named, List.forall_mem_singleton.mpr name⟩
        · rw [push_name name, List.append_assoc]

/-- The name at the bottom of the stack is the grounded one. -/
theorem head_walk_iff {s : σ} (name : s ≠ reading.up) :
    (reading.walk true [] segments).head? = some s ↔ reading.Grounded segments s := by
  constructor
  · intro head
    rcases cancels_or_grounded reading segments with cancels | ⟨other, grounded⟩ | ⟨n, names, -, walked⟩
    · rw [walk_cancels cancels] at head
      exact absurd head.symm (Option.some_ne_none s)
    · obtain ⟨names, walked⟩ : ∃ names, reading.walk true [] segments = other :: names :=
        grounded.walk
      rw [walked, List.head?_cons, Option.some.injEq] at head
      rwa [← head]
    · rw [walked, List.replicate_succ, List.cons_append, List.head?_cons, Option.some.injEq] at head
      exact absurd head.symm name
  · intro grounded
    obtain ⟨names, walked⟩ : ∃ names, reading.walk true [] segments = s :: names := grounded.walk
    rw [walked, List.head?_cons]

end EvoRuntime.Library.SegmentReading
