import EvoRuntime.Library.Rearranging
import Mathlib.Order.Interval.Finset.Nat

/-!
# `table.shuffle`

A list is a table with the keys from 1 on. The loop fills a new table and reads from the
given one. The random numbers are arguments of the model: `randomNumberGenerator i` is what
the call with `i` returns.

## Main result

`shuffle_perm_iff`: when the new table is a permutation of the list. `used_once_iff` says
what this comes to for a list without duplicates.

## Proof strategy

Each position of the new table holds the element of one position of the list
(`sourceAt`), so the elements of the list can be counted by how often they are used.
-/
namespace EvoRuntime.Extensions

open Library

variable {α : Type} {n : Nat} {randomNumberGenerator : Nat → Nat} {tableToShuffle : List α}

/-- The table of a list. -/
def ofList (l : List α) : Nat → Option α
  | 0 => none
  | i + 1 => l[i]?

/-- The given table and the new one. -/
structure Tables (α : Type) where
  tableToShuffle : Nat → Option α
  shuffledTable : Nat → Option α := fun _ => none

/-- The body of the loop. -/
def shuffleStep (randomNumberGenerator : Nat → Nat) (st : Tables α) (i : Nat) : Tables α :=
  let j := randomNumberGenerator i
  let st := { st with shuffledTable := Function.update st.shuffledTable i (st.tableToShuffle j) }
  { st with shuffledTable := Function.update st.shuffledTable j (st.tableToShuffle i) }

/-- What `table.shuffle` does to its tables after the checks of its arguments. -/
def shuffle (randomNumberGenerator : Nat → Nat) (tableToShuffle : List α) : Tables α :=
  (List.range' 1 tableToShuffle.length).foldl (shuffleStep randomNumberGenerator)
    { tableToShuffle := ofList tableToShuffle }

/-! ## Where the elements come from -/

/-- The position of the list whose element is at position `p` after some steps. -/
def sourceAt (randomNumberGenerator : Nat → Nat) : Nat → Nat → Nat
  | 0, _ => 0
  | i + 1, p =>
    if p = randomNumberGenerator (i + 1) then i + 1
    else if p = i + 1 then randomNumberGenerator (i + 1)
    else sourceAt randomNumberGenerator i p

theorem shuffle_steps (n : Nat) (table : Nat → Option α) (nothing : table 0 = none) :
    (List.range' 1 n).foldl (shuffleStep randomNumberGenerator) { tableToShuffle := table } =
      ⟨table, fun p => table (sourceAt randomNumberGenerator n p)⟩ := by
  induction n with
  | zero =>
    rw [List.range'_zero, List.foldl_nil]
    simp [sourceAt, nothing]
  | succ n ih =>
    rw [List.range'_1_concat, List.foldl_append, ih, List.foldl_cons, List.foldl_nil, Nat.add_comm 1 n]
    simp only [shuffleStep, Tables.mk.injEq, true_and]
    funext p
    simp only [Function.update_apply, sourceAt]
    split
    · rfl
    · split <;> rfl

/-- No step after step `i` draws `p`. -/
def UndrawnAfter (randomNumberGenerator : Nat → Nat) (n i p : Nat) : Prop :=
  ∀ k ∈ Finset.Ioc i n, randomNumberGenerator k ≠ p

instance (n i p : Nat) : Decidable (UndrawnAfter randomNumberGenerator n i p) :=
  inferInstanceAs (Decidable (∀ k ∈ Finset.Ioc i n, randomNumberGenerator k ≠ p))

theorem undrawnAfter_last (p : Nat) : UndrawnAfter randomNumberGenerator n n p := by
  simp [UndrawnAfter]

theorem undrawnAfter_succ {i p : Nat} (before : i ≤ n) :
    UndrawnAfter randomNumberGenerator (n + 1) i p ↔
      UndrawnAfter randomNumberGenerator n i p ∧ randomNumberGenerator (n + 1) ≠ p := by
  constructor
  · intro undrawn
    refine ⟨fun k member => undrawn k ?_, undrawn (n + 1) (Finset.mem_Ioc.mpr ⟨by omega, Nat.le_refl _⟩)⟩
    rw [Finset.mem_Ioc] at member ⊢
    omega
  · rintro ⟨undrawn, last⟩ k member
    rw [Finset.mem_Ioc] at member
    rcases Nat.lt_or_eq_of_le member.2 with earlier | rfl
    · exact undrawn k (Finset.mem_Ioc.mpr ⟨member.1, by omega⟩)
    · exact last

/-- Position `p` holds the element that step `p` drew, unless `p` has been drawn later. Then
it holds the element of the last step that drew it. -/
theorem sourceAt_eq_iff {p v : Nat} (positive : 1 ≤ p) (bounded : p ≤ n) :
    sourceAt randomNumberGenerator n p = v ↔
      (randomNumberGenerator p = v ∧ UndrawnAfter randomNumberGenerator n p p) ∨
        (p < v ∧ v ≤ n ∧ randomNumberGenerator v = p ∧ UndrawnAfter randomNumberGenerator n v p) := by
  induction n with
  | zero => omega
  | succ n ih =>
    rw [sourceAt]
    by_cases drawn : p = randomNumberGenerator (n + 1)
    · rw [if_pos drawn]
      -- The last step has drawn the position.
      have only : ∀ i, i ≤ n → ¬UndrawnAfter randomNumberGenerator (n + 1) i p := fun i before undrawn =>
        ((undrawnAfter_succ before).mp undrawn).2 drawn.symm
      constructor
      · rintro rfl
        rcases Nat.lt_or_eq_of_le bounded with before | rfl
        · exact .inr ⟨before, Nat.le_refl _, drawn.symm, undrawnAfter_last p⟩
        · exact .inl ⟨drawn.symm, undrawnAfter_last _⟩
      · rintro (⟨draw, undrawn⟩ | ⟨after, inside, draw, undrawn⟩)
        · by_contra other
          have last : ¬p ≤ n := fun before => only p before undrawn
          obtain rfl : p = n + 1 := by omega
          exact other (drawn.trans draw)
        · by_contra other
          exact only v (by omega) undrawn
    · rw [if_neg drawn]
      -- The last step has not drawn the position, so only its own position is new.
      by_cases last : p = n + 1
      · rw [if_pos last]
        subst last
        constructor
        · exact fun draw => .inl ⟨draw, undrawnAfter_last _⟩
        · rintro (⟨draw, -⟩ | ⟨after, inside, -⟩)
          · exact draw
          · omega
      · rw [if_neg last, ih (by omega), undrawnAfter_succ (show p ≤ n by omega)]
        have other : randomNumberGenerator (n + 1) ≠ p := Ne.symm drawn
        apply or_congr
        · simp [other]
        · constructor
          · rintro ⟨after, inside, draw, undrawn⟩
            exact ⟨after, by omega, draw, (undrawnAfter_succ inside).mpr ⟨undrawn, other⟩⟩
          · rintro ⟨after, inside, draw, undrawn⟩
            have before : v ≤ n := by
              by_contra beyond
              obtain rfl : v = n + 1 := by omega
              exact other draw
            exact ⟨after, before, draw, ((undrawnAfter_succ before).mp undrawn).1⟩

/-! ## How often an element is used -/

/-- The element is used once for every step that draws it, if the position of the step is
not drawn later, and once more where it is the last one that has been put to another position. -/
def uses (randomNumberGenerator : Nat → Nat) (n v : Nat) : Nat :=
  ((Finset.Icc 1 n).filter fun i =>
      randomNumberGenerator i = v ∧ UndrawnAfter randomNumberGenerator n i i).card +
    if randomNumberGenerator v ≠ v ∧ UndrawnAfter randomNumberGenerator n v (randomNumberGenerator v) then 1 else 0

/-- What a random number generator may return. -/
def Draws (randomNumberGenerator : Nat → Nat) (n : Nat) : Prop :=
  ∀ i, 1 ≤ i → i ≤ n → 1 ≤ randomNumberGenerator i ∧ randomNumberGenerator i ≤ i

/-- The last step that drew a position before its own has put its element there. -/
theorem card_drawn (draws : Draws randomNumberGenerator n) {v : Nat} (positive : 1 ≤ v) (bounded : v ≤ n) :
    ((Finset.Icc 1 n).filter fun p =>
      p < v ∧ v ≤ n ∧ randomNumberGenerator v = p ∧ UndrawnAfter randomNumberGenerator n v p).card =
      if randomNumberGenerator v ≠ v ∧ UndrawnAfter randomNumberGenerator n v (randomNumberGenerator v) then 1
      else 0 := by
  obtain ⟨least, most⟩ := draws v positive bounded
  split
  case isTrue moved =>
    rw [Finset.card_eq_one]
    refine ⟨randomNumberGenerator v, ?_⟩
    apply Finset.ext
    intro p
    rw [Finset.mem_filter, Finset.mem_Icc, Finset.mem_singleton]
    constructor
    · rintro ⟨-, -, -, draw, -⟩
      exact draw.symm
    · rintro rfl
      have before : randomNumberGenerator v < v := Nat.lt_of_le_of_ne most moved.1
      exact ⟨⟨least, by omega⟩, before, bounded, rfl, moved.2⟩
  case isFalse stays =>
    rw [Finset.card_eq_zero, Finset.filter_eq_empty_iff]
    rintro p - ⟨before, -, rfl, undrawn⟩
    exact stays ⟨Nat.ne_of_lt before, undrawn⟩

theorem card_sourceAt (draws : Draws randomNumberGenerator n) {v : Nat} (positive : 1 ≤ v) (bounded : v ≤ n) :
    ((Finset.Icc 1 n).filter (sourceAt randomNumberGenerator n · = v)).card =
      uses randomNumberGenerator n v := by
  have cases_ : (Finset.Icc 1 n).filter (sourceAt randomNumberGenerator n · = v) =
      (Finset.Icc 1 n).filter fun p =>
        (randomNumberGenerator p = v ∧ UndrawnAfter randomNumberGenerator n p p) ∨
          (p < v ∧ v ≤ n ∧ randomNumberGenerator v = p ∧ UndrawnAfter randomNumberGenerator n v p) := by
    apply Finset.filter_congr
    intro p member
    obtain ⟨least, most⟩ := Finset.mem_Icc.mp member
    exact sourceAt_eq_iff least most
  -- A position that a later step has drawn is no longer that of its own step.
  have separate : Disjoint
      ((Finset.Icc 1 n).filter fun p =>
        randomNumberGenerator p = v ∧ UndrawnAfter randomNumberGenerator n p p)
      ((Finset.Icc 1 n).filter fun p =>
        p < v ∧ v ≤ n ∧ randomNumberGenerator v = p ∧ UndrawnAfter randomNumberGenerator n v p) := by
    rw [Finset.disjoint_filter]
    rintro p - ⟨-, undrawn⟩ ⟨before, inside, draw, -⟩
    exact undrawn v (Finset.mem_Ioc.mpr ⟨before, inside⟩) draw
  rw [cases_, Finset.filter_or, Finset.card_union_of_disjoint separate, card_drawn draws positive bounded, uses]

theorem sourceAt_inside (draws : Draws randomNumberGenerator n) {p : Nat} (positive : 1 ≤ p) (bounded : p ≤ n) :
    1 ≤ sourceAt randomNumberGenerator n p ∧ sourceAt randomNumberGenerator n p ≤ n := by
  have same : sourceAt randomNumberGenerator n p = sourceAt randomNumberGenerator n p := rfl
  rcases (sourceAt_eq_iff positive bounded).mp same with ⟨draw, -⟩ | ⟨after, inside, -⟩
  · have drawn := draws p positive bounded
    omega
  · omega

theorem sourceAt_outside (draws : Draws randomNumberGenerator n) {p : Nat} (outside : p = 0 ∨ n < p) :
    sourceAt randomNumberGenerator n p = 0 := by
  induction n with
  | zero => rfl
  | succ n ih =>
    have drawn := draws (n + 1) (by omega) (Nat.le_refl _)
    rw [sourceAt, if_neg (by omega), if_neg (by omega)]
    exact ih (fun i least most => draws i least (by omega)) (by omega)

/-! ## Tables of lists -/

theorem map_ofList (l : List α) : (List.range' 1 l.length).map (ofList l) = l.map some := by
  apply List.ext_getElem
  · simp
  · intro i bound bound'
    simp [ofList, Nat.add_comm 1 i]

theorem ofList_outside {l : List α} {p : Nat} (outside : p = 0 ∨ l.length < p) : ofList l p = none := by
  match p with
  | 0 => rfl
  | p + 1 => exact List.getElem?_eq_none (by omega)

theorem ofList_injective {l l' : List α} (same : ofList l = ofList l') : l = l' := by
  apply List.ext_getElem?
  intro i
  exact congrFun same (i + 1)

/-- A table that has the keys of a list and no others is the table of a list. -/
theorem exists_ofList {table : Nat → Option α} (outside : ∀ p, p = 0 ∨ n < p → table p = none)
    (inside : ∀ p ∈ List.range' 1 n, (table p).isSome) :
    ∃ l, table = ofList l ∧ l.map some = (List.range' 1 n).map table := by
  have present : (List.range' 1 n).map table ∈ Set.range (List.map some) := by
    rw [Set.range_list_map]
    intro x member
    obtain ⟨p, position, rfl⟩ := List.mem_map.mp member
    obtain ⟨y, found⟩ := Option.isSome_iff_exists.mp (inside p position)
    exact ⟨y, found.symm⟩
  obtain ⟨l, same⟩ := present
  have length : l.length = n := by simpa using congrArg List.length same
  refine ⟨l, ?_, same⟩
  funext p
  by_cases here : p = 0 ∨ n < p
  · rw [outside p here, ofList_outside (by rwa [length])]
  · have equal : (List.range' 1 n).map table = (List.range' 1 n).map (ofList l) := by
      rw [← same, ← length, map_ofList]
    exact List.map_inj_left.mp equal p (by rw [List.mem_range'_1]; omega)

theorem listed_perm_iff {table : Nat → Option α} {t : List α}
    (outside : ∀ p, p = 0 ∨ t.length < p → table p = none)
    (inside : ∀ p ∈ List.range' 1 t.length, (table p).isSome) :
    (∃ l, table = ofList l ∧ l.Perm t) ↔
      ((List.range' 1 t.length).map table).Perm ((List.range' 1 t.length).map (ofList t)) := by
  obtain ⟨l, rfl, same⟩ := exists_ofList outside inside
  have injective : Function.Injective (some : α → Option α) := Option.some_injective α
  rw [← same, map_ofList, List.map_perm_map_iff injective]
  constructor
  · rintro ⟨l', equal, perm⟩
    rwa [ofList_injective equal]
  · exact fun perm => ⟨l, rfl, perm⟩

/-! ## Permutations -/

theorem mem_positions {p : Nat} : p ∈ List.range' 1 n ↔ p ∈ Finset.Icc 1 n := by
  rw [List.mem_range'_1, Finset.mem_Icc]
  omega

theorem positions_toFinset (n : Nat) : (List.range' 1 n).toFinset = Finset.Icc 1 n := by
  apply Finset.ext
  intro p
  rw [List.mem_toFinset, mem_positions]

theorem sourceAt_mem (draws : Draws randomNumberGenerator n) :
    ∀ p ∈ List.range' 1 n, sourceAt randomNumberGenerator n p ∈ List.range' 1 n := by
  intro p member
  rw [mem_positions, Finset.mem_Icc] at member ⊢
  exact sourceAt_inside draws member.1 member.2

theorem ofList_present {l : List α} {p : Nat} (member : p ∈ List.range' 1 l.length) : (ofList l p).isSome := by
  rw [List.mem_range'_1] at member
  obtain ⟨i, rfl⟩ := Nat.exists_eq_add_of_le' member.1
  simp [ofList]
  omega

theorem shuffle_eq (randomNumberGenerator : Nat → Nat) (tableToShuffle : List α) :
    shuffle randomNumberGenerator tableToShuffle =
      ⟨ofList tableToShuffle,
        fun p => ofList tableToShuffle (sourceAt randomNumberGenerator tableToShuffle.length p)⟩ :=
  shuffle_steps tableToShuffle.length (ofList tableToShuffle) rfl

theorem shuffledTable_perm_iff (draws : Draws randomNumberGenerator tableToShuffle.length) :
    (∃ l, (shuffle randomNumberGenerator tableToShuffle).shuffledTable = ofList l ∧ l.Perm tableToShuffle) ↔
      ((List.range' 1 tableToShuffle.length).map
        (ofList tableToShuffle ∘ sourceAt randomNumberGenerator tableToShuffle.length)).Perm
        ((List.range' 1 tableToShuffle.length).map (ofList tableToShuffle)) := by
  simp only [shuffle_eq]
  apply listed_perm_iff
  · intro p outside
    rw [sourceAt_outside draws outside]
    rfl
  · exact fun p member => ofList_present (sourceAt_mem draws p member)

/-- Every position has an element. -/
theorem no_position_empty [DecidableEq α] (t : List α) :
    (Finset.Icc 1 t.length).filter (ofList t · = none) = ∅ := by
  rw [Finset.filter_eq_empty_iff]
  intro v member absent
  have present := ofList_present (mem_positions.mpr member)
  rw [absent] at present
  exact nomatch present

variable [DecidableEq α]

/-- The positions of an element. -/
def occurrences (t : List α) (x : α) : Finset Nat := (Finset.Icc 1 t.length).filter (ofList t · = some x)

theorem sum_uses (draws : Draws randomNumberGenerator tableToShuffle.length) (x : α) :
    ∑ v ∈ (Finset.Icc 1 tableToShuffle.length).filter (ofList tableToShuffle · = some x),
        ((Finset.Icc 1 tableToShuffle.length).filter
          (sourceAt randomNumberGenerator tableToShuffle.length · = v)).card =
      ∑ v ∈ occurrences tableToShuffle x, uses randomNumberGenerator tableToShuffle.length v := by
  apply Finset.sum_congr rfl
  intro v member
  obtain ⟨least, most⟩ := Finset.mem_Icc.mp (Finset.mem_filter.mp member).1
  exact card_sourceAt draws least most

/-- The new table is a permutation of the list, and the list is unchanged, if and only if
equal elements are used as often as they occur. -/
theorem shuffle_perm_iff (tableToShuffle : List α) (randomNumberGenerator : Nat → Nat)
    (draws : Draws randomNumberGenerator tableToShuffle.length) :
    ((shuffle randomNumberGenerator tableToShuffle).tableToShuffle = ofList tableToShuffle ∧
      ∃ l, (shuffle randomNumberGenerator tableToShuffle).shuffledTable = ofList l ∧ l.Perm tableToShuffle) ↔
      ∀ x, ∑ v ∈ occurrences tableToShuffle x, uses randomNumberGenerator tableToShuffle.length v =
        (occurrences tableToShuffle x).card := by
  have unchanged : (shuffle randomNumberGenerator tableToShuffle).tableToShuffle = ofList tableToShuffle := by
    rw [shuffle_eq]
  rw [and_iff_right unchanged, shuffledTable_perm_iff draws,
    perm_rearranged_iff List.nodup_range' (sourceAt_mem draws), positions_toFinset]
  constructor
  · intro used x
    exact (sum_uses draws x).symm.trans (used (some x))
  · intro used y
    cases y with
    | some x => exact (sum_uses draws x).trans (used x)
    | none => rw [no_position_empty, Finset.sum_empty, Finset.card_empty]

theorem occurrences_of_nodup {t : List α} (distinct : t.Nodup) {v : Nat} (positive : 1 ≤ v)
    (bounded : v ≤ t.length) : occurrences t t[v - 1] = {v} := by
  apply Finset.ext
  intro p
  rw [occurrences, Finset.mem_filter, Finset.mem_Icc, Finset.mem_singleton]
  constructor
  · rintro ⟨⟨least, most⟩, found⟩
    obtain ⟨i, rfl⟩ := Nat.exists_eq_add_of_le' least
    have element : t[i]? = some t[v - 1] := found
    obtain ⟨inside, same⟩ := List.getElem?_eq_some_iff.mp element
    have position : i = v - 1 := (List.Nodup.getElem_inj_iff distinct).mp same
    omega
  · rintro rfl
    obtain ⟨i, rfl⟩ := Nat.exists_eq_add_of_le' positive
    exact ⟨⟨positive, bounded⟩, List.getElem?_eq_getElem _⟩

/-- In a list without duplicates this means that every element is used exactly once. -/
theorem used_once_iff {t : List α} (distinct : t.Nodup) :
    (∀ x, ∑ v ∈ occurrences t x, uses randomNumberGenerator t.length v = (occurrences t x).card) ↔
      ∀ v ∈ Finset.Icc 1 t.length, uses randomNumberGenerator t.length v = 1 := by
  constructor
  · intro used v position
    obtain ⟨positive, bounded⟩ := Finset.mem_Icc.mp position
    have once := used t[v - 1]
    rwa [occurrences_of_nodup distinct positive bounded, Finset.sum_singleton,
      Finset.card_singleton] at once
  · intro once x
    rw [Finset.card_eq_sum_ones]
    exact Finset.sum_congr rfl fun v member => once v (Finset.mem_filter.mp member).1

/-- Every second step draws the position before its own. -/
def neighbours : Nat → Nat
  | 2 => 1
  | 4 => 3
  | i => i

/-- Two pairs of elements change places. -/
theorem shuffle_neighbours :
    (shuffle neighbours [1, 2, 3, 4]).tableToShuffle = ofList [1, 2, 3, 4] ∧
      ∃ l, (shuffle neighbours [1, 2, 3, 4]).shuffledTable = ofList l ∧ l.Perm [1, 2, 3, 4] := by
  have draws : Draws neighbours [1, 2, 3, 4].length := by
    intro i least most
    have small : i ≤ 4 := most
    obtain rfl | rfl | rfl | rfl : i = 1 ∨ i = 2 ∨ i = 3 ∨ i = 4 := by omega
    all_goals decide
  exact (shuffle_perm_iff [1, 2, 3, 4] neighbours draws).mpr
    ((used_once_iff (by decide)).mpr (by decide))

/-- Every step draws the first position, and two of the elements are lost. -/
theorem shuffle_loses_elements :
    Draws (fun _ => 1) [1, 2, 3].length ∧
      ¬((shuffle (fun _ => 1) [1, 2, 3]).tableToShuffle = ofList [1, 2, 3] ∧
        ∃ l, (shuffle (fun _ => 1) [1, 2, 3]).shuffledTable = ofList l ∧ l.Perm [1, 2, 3]) := by
  refine ⟨fun i least _ => ⟨Nat.le_refl 1, least⟩, ?_⟩
  rintro ⟨-, l, same, perm⟩
  have result : (shuffle (fun _ => 1) [1, 2, 3]).shuffledTable = ofList [3, 1, 1] := by
    funext p
    match p with
    | 0 | 1 | 2 | 3 => rfl
    | p + 4 => rfl
  obtain rfl : l = [3, 1, 1] := ofList_injective (same.symm.trans result)
  exact absurd perm (by decide)

end EvoRuntime.Extensions
