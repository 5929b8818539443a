import Mathlib.Data.List.Basic
import Mathlib.Data.List.Induction
import Mathlib.Tactic.Common

/-!
# Walks over hierarchical names

A location below a root is a list of names. A walk reads segments one at a time:
some are skipped, one goes up, all others are names that go down. The relative
route from one location to another goes up to the place where they part and
then down again, and walking it leads to the destination.
-/
namespace EvoRuntime.Library

variable {σ : Type*}

/-- How a walk reads segments of type `σ`. -/
structure SegmentReading (σ : Type*) where
  skipped : σ → Bool
  up : σ
  up_not_skipped : skipped up = false

namespace SegmentReading

/-- A segment that stands for itself, neither skipped nor going up. -/
def IsName (reading : SegmentReading σ) (segment : σ) : Prop :=
  reading.skipped segment = false ∧ segment ≠ reading.up

variable [DecidableEq σ] (reading : SegmentReading σ)

/-- One segment of a walk. Going up removes the last name; with no name left to
remove it is recorded if `above` allows locations above the start. -/
def push (above : Bool) (stack : List σ) (segment : σ) : List σ :=
  if reading.skipped segment then stack
  else if segment = reading.up then
    match stack.getLast? with
    | none => if above then [segment] else []
    | some top =>
      if top = reading.up then if above then stack ++ [segment] else stack else stack.dropLast
  else stack ++ [segment]

def walk (above : Bool) (stack segments : List σ) : List σ :=
  segments.foldl (reading.push above) stack

variable {reading} {above : Bool} {stack segments : List σ} {segment : σ}

@[simp] theorem walk_nil : reading.walk above stack [] = stack := rfl

@[simp] theorem walk_cons :
    reading.walk above stack (segment :: segments) =
      reading.walk above (reading.push above stack segment) segments := rfl

theorem walk_append (stack xs ys : List σ) :
    reading.walk above stack (xs ++ ys) = reading.walk above (reading.walk above stack xs) ys :=
  List.foldl_append

theorem push_skipped (skipped : reading.skipped segment = true) :
    reading.push above stack segment = stack := by
  simp [push, skipped]

theorem push_name (name : reading.IsName segment) :
    reading.push above stack segment = stack ++ [segment] := by
  simp [push, name.1, name.2]

theorem push_up_nil : reading.push above [] reading.up = if above then [reading.up] else [] := by
  simp [push, reading.up_not_skipped]

theorem push_up_name (name : reading.IsName segment) :
    reading.push above (stack ++ [segment]) reading.up = stack := by
  simp [push, reading.up_not_skipped, name.2]

theorem push_up_up :
    reading.push above (stack ++ [reading.up]) reading.up =
      if above then stack ++ [reading.up] ++ [reading.up] else stack ++ [reading.up] := by
  simp [push, reading.up_not_skipped]

theorem walk_names (stack : List σ) (names : ∀ s ∈ segments, reading.IsName s) :
    reading.walk above stack segments = stack ++ segments := by
  induction segments generalizing stack with
  | nil => simp
  | cons segment rest ih =>
    rw [walk_cons, push_name (names segment List.mem_cons_self),
      ih _ fun s member => names s (List.mem_cons_of_mem _ member)]
    simp

/-- Without going up, the segments that are not skipped come one below the other. -/
theorem walk_descends (stack : List σ) (descends : ∀ s ∈ segments, s ≠ reading.up) :
    reading.walk above stack segments = stack ++ segments.filter fun s => !reading.skipped s := by
  induction segments generalizing stack with
  | nil => simp
  | cons segment rest ih =>
    have others := ih (reading.push above stack segment) fun s member =>
      descends s (List.mem_cons_of_mem _ member)
    rw [walk_cons, others]
    by_cases skipped : reading.skipped segment = true
    · simp [push_skipped skipped, skipped]
    · have name : reading.IsName segment :=
        ⟨by simpa using skipped, descends segment List.mem_cons_self⟩
      simp [push_name name, name.1]

/-- Going up once for each trailing name removes exactly these names. -/
theorem walk_up (stack names : List σ) (named : ∀ s ∈ names, reading.IsName s) :
    reading.walk above (stack ++ names) (List.replicate names.length reading.up) = stack := by
  induction names using List.reverseRecOn with
  | nil => simp
  -- The last name is removed first, so the induction peels names off the end.
  | append_singleton names last ih =>
    rw [List.length_append, List.length_singleton, List.replicate_succ, walk_cons,
      ← List.append_assoc, push_up_name (named last (by simp))]
    exact ih fun s member => named s (List.mem_append_left _ member)

/-- A walk that may not leave the root keeps a stack of names. -/
theorem push_keeps_names (names : ∀ s ∈ stack, reading.IsName s) :
    ∀ s ∈ reading.push false stack segment, reading.IsName s := by
  by_cases skipped : reading.skipped segment = true
  · rwa [push_skipped skipped]
  · by_cases up : segment = reading.up
    · subst up
      -- At the root there is nothing to remove, and nothing is recorded.
      rcases List.eq_nil_or_concat' stack with rfl | ⟨below, top, rfl⟩
      · simp [push_up_nil]
      · rw [push_up_name (names top (by simp))]
        exact fun s member => names s (List.mem_append_left _ member)
    · have name : reading.IsName segment := ⟨by simpa using skipped, up⟩
      rw [push_name name]
      exact List.forall_mem_append.mpr ⟨names, List.forall_mem_singleton.mpr name⟩

theorem walk_keeps_names (segments : List σ) (names : ∀ s ∈ stack, reading.IsName s) :
    ∀ s ∈ reading.walk false stack segments, reading.IsName s := by
  induction segments generalizing stack with
  | nil => exact names
  | cons segment rest ih => exact ih (push_keeps_names names)

/-- A predicate that holds of the stack and of every segment holds of the result. -/
theorem push_forall {P : σ → Prop} (held : ∀ s ∈ stack, P s) (new : P segment) :
    ∀ s ∈ reading.push above stack segment, P s := by
  have appended : ∀ s ∈ stack ++ [segment], P s :=
    List.forall_mem_append.mpr ⟨held, List.forall_mem_singleton.mpr new⟩
  unfold push
  split
  · exact held
  · split
    · split
      · split
        · exact List.forall_mem_singleton.mpr new
        · exact List.forall_mem_nil P
      · split
        · split
          · exact appended
          · exact held
        · exact fun s member => held s ((List.dropLast_sublist stack).subset member)
    · exact appended

theorem walk_forall {P : σ → Prop} (held : ∀ s ∈ stack, P s) (new : ∀ s ∈ segments, P s) :
    ∀ s ∈ reading.walk above stack segments, P s := by
  induction segments generalizing stack with
  | nil => exact held
  | cons segment rest ih =>
    exact ih (push_forall held (new segment List.mem_cons_self))
      fun s member => new s (List.mem_cons_of_mem _ member)

/-! ### Walking what a walk has left -/

/-- A walk that records going up has segments on its stack that are not skipped. -/
theorem push_keeps_kept (kept : ∀ s ∈ stack, reading.skipped s = false) :
    ∀ s ∈ reading.push above stack segment, reading.skipped s = false := by
  by_cases skipped : reading.skipped segment = true
  · rwa [push_skipped skipped]
  · exact push_forall kept (by simpa using skipped)

/-- A segment after a stack has the same effect as the stack that it leads to. -/
theorem walk_push (start : List σ) (kept : ∀ s ∈ stack, reading.skipped s = false) :
    reading.walk above start (reading.push true stack segment) =
      reading.push above (reading.walk above start stack) segment := by
  by_cases skipped : reading.skipped segment = true
  · rw [push_skipped skipped, push_skipped skipped]
  · by_cases up : segment = reading.up
    · subst up
      rcases List.eq_nil_or_concat' stack with rfl | ⟨below, top, rfl⟩
      · rw [push_up_nil]
        rfl
      · by_cases recorded : top = reading.up
        · subst recorded
          rw [push_up_up, if_pos rfl, walk_append]
          rfl
        -- Going up takes back the name on top of the stack.
        · have name : reading.IsName top := ⟨kept top (by simp), recorded⟩
          rw [push_up_name name, walk_append, walk_cons, walk_nil, push_name name,
            push_up_name name]
    · have name : reading.IsName segment := ⟨by simpa using skipped, up⟩
      rw [push_name name, walk_append]
      rfl

/-- A walk may go over the stack of another walk instead of its segments. -/
theorem walk_walk (start : List σ) (kept : ∀ s ∈ stack, reading.skipped s = false) :
    reading.walk above start (reading.walk true stack segments) =
      reading.walk above (reading.walk above start stack) segments := by
  induction segments generalizing stack with
  | nil => rfl
  | cons segment rest ih => rw [walk_cons, ih (push_keeps_kept kept), walk_push start kept, walk_cons]

theorem walk_keeps_kept (kept : ∀ s ∈ stack, reading.skipped s = false) :
    ∀ s ∈ reading.walk above stack segments, reading.skipped s = false := by
  induction segments generalizing stack with
  | nil => exact kept
  | cons segment rest ih => exact ih (push_keeps_kept kept)

end SegmentReading

/-! ## Where two locations part -/

section CommonPrefix

variable [DecidableEq σ]

/-- The longest common prefix of two lists. -/
def commonPrefix : List σ → List σ → List σ
  | a :: as, b :: bs => if a = b then a :: commonPrefix as bs else []
  | _, _ => []

theorem commonPrefix_isPrefixOf (xs ys : List σ) :
    commonPrefix xs ys <+: xs ∧ commonPrefix xs ys <+: ys := by
  fun_induction commonPrefix xs ys with
  | case1 as a bs ih =>
    exact ⟨(List.prefix_cons_inj a).mpr ih.1, (List.prefix_cons_inj a).mpr ih.2⟩
  | case2 => exact ⟨List.nil_prefix, List.nil_prefix⟩
  | case3 => exact ⟨List.nil_prefix, List.nil_prefix⟩

/-- No common prefix is longer. -/
theorem prefix_commonPrefix (xs ys zs : List σ) (left : zs <+: xs) (right : zs <+: ys) :
    zs <+: commonPrefix xs ys := by
  induction zs generalizing xs ys with
  | nil => exact List.nil_prefix
  | cons z zs ih =>
    obtain ⟨xs', rfl⟩ := left
    obtain ⟨ys', rfl⟩ := right
    -- Both lists start with `z`, and so does their common prefix.
    simp only [List.cons_append, commonPrefix, if_true]
    exact (List.prefix_cons_inj z).mpr (ih _ _ (List.prefix_append _ _) (List.prefix_append _ _))

theorem commonPrefix_append (shared xs ys : List σ) :
    commonPrefix (shared ++ xs) (shared ++ ys) = shared ++ commonPrefix xs ys := by
  induction shared with
  | nil => rfl
  | cons a shared ih => simp [commonPrefix, ih]

/-- Two lists are their common prefix followed by remainders that differ at once. -/
theorem exists_parting (xs ys : List σ) :
    ∃ shared xs' ys', xs = shared ++ xs' ∧ ys = shared ++ ys' ∧ commonPrefix xs ys = shared ∧
      ∀ x y, xs'.head? = some x → ys'.head? = some y → x ≠ y := by
  fun_induction commonPrefix xs ys with
  | case1 as a bs ih =>
    obtain ⟨shared, xs', ys', left, right, common, apart⟩ := ih
    exact ⟨a :: shared, xs', ys', by simp [left], by simp [right], by rw [common], apart⟩
  | case2 a as b bs differ =>
    refine ⟨[], a :: as, b :: bs, rfl, rfl, rfl, fun x y first second => ?_⟩
    simp only [List.head?_cons, Option.some.injEq] at first second
    rwa [← first, ← second]
  -- One of the lists has ended, so the remainders have no two heads.
  | case3 xs ys stop =>
    refine ⟨[], xs, ys, rfl, rfl, rfl, fun x y first second => ?_⟩
    cases xs with
    | nil => simp at first
    | cons a as =>
      cases ys with
      | nil => simp at second
      | cons b bs => exact absurd rfl (stop a as b bs rfl)

end CommonPrefix

namespace SegmentReading

variable [DecidableEq σ] (reading : SegmentReading σ)

/-- Up to the parting of the two locations, then down to the destination. -/
def route (start goal : List σ) : List σ :=
  List.replicate (start.length - (commonPrefix start goal).length) reading.up ++
    goal.drop (commonPrefix start goal).length

theorem route_self (location : List σ) : reading.route location location = [] := by
  have whole : commonPrefix location location = location := by
    have full := prefix_commonPrefix location location location List.prefix_rfl List.prefix_rfl
    exact (commonPrefix_isPrefixOf location location).1.eq_of_length_le full.length_le
  simp [route, whole]

/-- The route written out at the parting. -/
theorem route_append (shared start goal : List σ)
    (apart : ∀ x y, start.head? = some x → goal.head? = some y → x ≠ y) :
    reading.route (shared ++ start) (shared ++ goal) =
      List.replicate start.length reading.up ++ goal := by
  have parted : commonPrefix start goal = [] := by
    cases start with
    | nil => rfl
    | cons a as =>
      cases goal with
      | nil => rfl
      | cons b bs => exact if_neg (apart a b rfl rfl)
  simp [route, commonPrefix_append, parted]

/-- Walking the route from the start arrives at the goal. -/
theorem walk_route (above : Bool) (start goal : List σ)
    (startNames : ∀ s ∈ start, reading.IsName s) (goalNames : ∀ s ∈ goal, reading.IsName s) :
    reading.walk above start (reading.route start goal) = goal := by
  obtain ⟨shared, start', goal', rfl, rfl, -, apart⟩ := exists_parting start goal
  rw [route_append reading shared start' goal' apart, walk_append,
    walk_up shared start' fun s member => startNames s (List.mem_append_right _ member),
    walk_names shared fun s member => goalNames s (List.mem_append_right _ member)]

end SegmentReading

end EvoRuntime.Library
