import Mathlib.Data.List.Sort
import Mathlib.Tactic.Common

/-!
# Sorting with comparisons that may fail

A sort fails when one of its comparisons does. Elements of one kind that are ordered by
their comparisons are sorted as usual. When elements of several kinds cannot be compared,
a sort of more than one element succeeds only if all of them are of one kind.
-/
namespace EvoRuntime.Library.FallibleSort

variable {α β ε : Type} (lt : α → α → Except ε Bool)

def insert (x : α) : List α → Except ε (List α)
  | [] => .ok [x]
  | y :: rest => do
    if ← lt y x then
      return y :: (← insert x rest)
    else
      return x :: y :: rest

def sort : List α → Except ε (List α)
  | [] => .ok []
  | x :: rest => do
    insert lt x (← sort rest)

variable {lt} {x y : α} {l l' : List α}

/-! ### Elements of one kind -/

theorem insert_map [LinearOrder β] {f : β → α} (compares : ∀ a b, lt (f a) (f b) = .ok (decide (a < b)))
    (b : β) (l : List β) : insert lt (f b) (l.map f) = .ok ((l.orderedInsert (· ≤ ·) b).map f) := by
  induction l with
  | nil => rfl
  | cons c rest ih =>
    rw [List.map_cons, insert, compares, List.orderedInsert]
    by_cases before : c < b
    · simp [before, not_le.mpr before, ih, bind, Except.bind, pure, Except.pure]
    · simp [before, not_lt.mp before, bind, Except.bind, pure, Except.pure]

theorem sort_map [LinearOrder β] {f : β → α} (compares : ∀ a b, lt (f a) (f b) = .ok (decide (a < b)))
    (l : List β) : sort lt (l.map f) = .ok ((l.insertionSort (· ≤ ·)).map f) := by
  induction l with
  | nil => rfl
  | cons b rest ih =>
    rw [List.map_cons, sort, ih]
    exact insert_map compares b (rest.insertionSort (· ≤ ·))

/-- Sorting forgets the order of the elements. -/
theorem sort_map_perm [LinearOrder β] {f : β → α} (compares : ∀ a b, lt (f a) (f b) = .ok (decide (a < b)))
    {l l' : List β} (perm : l.Perm l') : sort lt (l.map f) = sort lt (l'.map f) := by
  have same : (l.insertionSort (· ≤ ·)).Perm (l'.insertionSort (· ≤ ·)) :=
    ((List.perm_insertionSort _ l).trans perm).trans (List.perm_insertionSort _ l').symm
  rw [sort_map compares, sort_map compares,
    same.eq_of_pairwise' (List.pairwise_insertionSort _ l) (List.pairwise_insertionSort _ l')]

/-! ### Sorts that succeed -/

theorem insert_cons (sorted : insert lt x (y :: l) = .ok l') :
    (lt y x = .ok true ∧ ∃ rest, insert lt x l = .ok rest ∧ l' = y :: rest) ∨
      (lt y x = .ok false ∧ l' = x :: y :: l) := by
  rw [insert] at sorted
  cases compared : lt y x with
  | error e => simp [compared, bind, Except.bind] at sorted
  | ok before =>
    cases before with
    | false => exact .inr ⟨rfl, by simpa [compared, bind, Except.bind, pure, Except.pure] using sorted.symm⟩
    | true =>
      cases inserted : insert lt x l with
      | error e => simp [compared, inserted, bind, Except.bind] at sorted
      | ok rest =>
        exact .inl ⟨rfl, rest, rfl, by
          simpa [compared, inserted, bind, Except.bind, pure, Except.pure] using sorted.symm⟩

theorem insert_perm (sorted : insert lt x l = .ok l') : l'.Perm (x :: l) := by
  induction l generalizing l' with
  | nil =>
    obtain rfl : [x] = l' := Except.ok.inj sorted
    exact .refl _
  | cons y rest ih =>
    rcases insert_cons sorted with ⟨-, others, inserted, rfl⟩ | ⟨-, rfl⟩
    · exact ((ih inserted).cons y).trans (.swap x y rest)
    · exact .refl _

theorem sort_cons (sorted : sort lt (x :: l) = .ok l') :
    ∃ rest, sort lt l = .ok rest ∧ insert lt x rest = .ok l' := by
  rw [sort] at sorted
  cases first : sort lt l with
  | error e => simp [first, bind, Except.bind] at sorted
  | ok rest => exact ⟨rest, rfl, by simpa [first, bind, Except.bind] using sorted⟩

theorem sort_perm (sorted : sort lt l = .ok l') : l'.Perm l := by
  induction l generalizing l' with
  | nil =>
    obtain rfl : [] = l' := Except.ok.inj sorted
    exact .refl _
  | cons x rest ih =>
    obtain ⟨others, first, inserted⟩ := sort_cons sorted
    exact (insert_perm inserted).trans ((ih first).cons x)

/-- More than one element: each of them has been compared, so all of them are of one kind. -/
theorem sort_same_kind {same : α → α → Prop} (symm : ∀ x y, same x y → same y x)
    (trans : ∀ x y z, same x y → same y z → same x z)
    (comparable : ∀ x y before, lt x y = .ok before → same x y) (sorted : sort lt l = .ok l') :
    l.length ≤ 1 ∨ ∀ x ∈ l, ∀ y ∈ l, same x y := by
  induction l generalizing l' with
  | nil => exact .inl (Nat.zero_le 1)
  | cons x rest ih =>
    obtain ⟨others, first, inserted⟩ := sort_cons sorted
    have perm := sort_perm first
    cases others with
    | nil =>
      rw [List.nil_perm.mp perm]
      exact .inl (Nat.le_refl 1)
    | cons y others =>
      -- The element is compared with the least one of the others.
      have compared : same y x := by
        rcases insert_cons inserted with ⟨before, -⟩ | ⟨before, -⟩ <;> exact comparable y x _ before
      have member : y ∈ rest := perm.mem_iff.mp List.mem_cons_self
      have all : ∀ z ∈ rest, same y z := by
        intro z other
        rcases ih first with short | kinds
        · have only : rest = [y] := by
            obtain ⟨w, rfl⟩ : ∃ w, rest = [w] :=
              List.length_eq_one_iff.mp (Nat.le_antisymm short (List.length_pos_of_mem member))
            rw [List.mem_singleton.mp member]
          rw [only, List.mem_singleton] at other
          exact other ▸ trans y x y compared (symm y x compared)
        · exact kinds y member z other
      have toY : ∀ z ∈ x :: rest, same y z := by
        intro z other
        rcases List.mem_cons.mp other with rfl | later
        · exact compared
        · exact all z later
      exact .inr fun z inside w inside' => trans z y w (symm y z (toY z inside)) (toY w inside')

end EvoRuntime.Library.FallibleSort
