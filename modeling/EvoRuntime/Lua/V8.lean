import EvoRuntime.Lua.Strings
import Mathlib.Algebra.Order.Group.Int
import Mathlib.Order.Bounds.Basic

/-!
# Backwards string search

The port of `String.prototype.lastIndexOf`. Indices start at zero here and `-1`
stands for "not found". `stringMatchBackwards_cases` says what the search
returns for any nonempty pattern: the last occurrence at or before the index it
starts from. `stringPrototypeLastIndexOf_spec` says the same of the whole
function, for every pattern and every position.
-/
namespace EvoRuntime.Lua

/-- The inner loop of `stringMatchBackwards`: the first `j` at which `pattern`
and the text of `subject` at `i` differ, or the length of `pattern`. -/
def matchFrom (subject pattern : LuaString) (i : Int) : (remaining j : Nat) → Nat
  | 0, j => j
  | remaining + 1, j =>
    if sub pattern (j + 1) (j + 1) ≠ sub subject (i + j + 1) (i + j + 1) then j
    else matchFrom subject pattern i remaining (j + 1)

/-- The outer loop, with `i` one past the index to try next. -/
def matchBackwardsFrom (subject pattern : LuaString) : (i : Nat) → Int
  | 0 => -1
  | i + 1 =>
    if sub subject (i + 1) (i + 1) = sub pattern 1 1 ∧
        matchFrom subject pattern i (pattern.length - 1) 1 = pattern.length then i
    else matchBackwardsFrom subject pattern i

def stringMatchBackwards (subject pattern : LuaString) (idx : Int) : Int :=
  matchBackwardsFrom subject pattern (idx + 1).toNat

def stringLastIndexOf (subject pat : LuaString) (index : Int) : Int :=
  let startIndex := if index + pat.length > subject.length then (subject.length : Int) - pat.length
    else index
  if pat.length = 0 then startIndex else stringMatchBackwards subject pat startIndex

/-- `argc` of the source is three for every call, so the position always counts. -/
def stringPrototypeLastIndexOf (subject pat : LuaString) (position : Option Int := none) : Int :=
  let index : Int := (subject.length : Int) - pat.length
  let index := match position with
    | none => index
    | some position =>
      let position := if position < 0 then 0 else position
      if position + pat.length < subject.length then position else index
  if index < 0 then -1 else stringLastIndexOf subject pat index

/-- `pattern` occurs in `subject` at the zero-based index `i`. -/
def OccursAt (subject pattern : LuaString) (i : Nat) : Prop :=
  pattern <+: subject.drop i

theorem prefix_drop_iff (pattern text : LuaString) (j : Nat) (inside : j < pattern.length) :
    pattern.drop j <+: text ↔
      pattern[j]?.toList = text[0]?.toList ∧ pattern.drop (j + 1) <+: text.drop 1 := by
  generalize rest : pattern.drop (j + 1) = following
  rw [List.drop_eq_getElem_cons inside, List.getElem?_eq_getElem inside, rest]
  cases text with
  | nil => simp
  | cons c rest => simp

/-- The loop runs to the end of the pattern exactly when the rest of it occurs. -/
theorem matchFrom_complete (subject pattern : LuaString) (i remaining j : Nat)
    (length : j + remaining = pattern.length) :
    matchFrom subject pattern i remaining j = pattern.length ↔
      pattern.drop j <+: subject.drop (i + j) := by
  induction remaining generalizing j with
  | zero =>
    have finished : j = pattern.length := by omega
    simp [matchFrom, finished]
  | succ remaining ih =>
    have inside : j < pattern.length := by omega
    have here : sub subject ((i : Int) + j + 1) ((i : Int) + j + 1) = (subject[i + j]?).toList := by
      exact_mod_cast sub_single subject (i + j)
    rw [prefix_drop_iff pattern _ j inside, matchFrom, sub_single, here, List.getElem?_drop,
      Nat.add_zero, List.drop_drop]
    -- The loop stops early exactly where the texts differ.
    by_cases same : pattern[j]?.toList = (subject[i + j]?).toList
    · rw [if_neg (not_not.mpr same), ih (j + 1) (by omega)]
      simp [same, Nat.add_assoc]
    · rw [if_pos same]
      exact ⟨fun finished => by omega, fun both => absurd both.1 same⟩

theorem candidate_iff (subject pattern : LuaString) (i : Nat) (nonempty : pattern ≠ []) :
    (sub subject (i + 1) (i + 1) = sub pattern 1 1 ∧
      matchFrom subject pattern i (pattern.length - 1) 1 = pattern.length) ↔
      OccursAt subject pattern i := by
  have positive : 0 < pattern.length := List.length_pos_iff.mpr nonempty
  have first : sub pattern 1 1 = pattern[0]?.toList := by simpa using sub_single pattern 0
  rw [matchFrom_complete subject pattern i _ 1 (by omega), sub_single, first, OccursAt]
  have split : pattern <+: subject.drop i ↔
      pattern[0]?.toList = subject[i]?.toList ∧ pattern.drop 1 <+: subject.drop (i + 1) := by
    have apart := prefix_drop_iff pattern (subject.drop i) 0 positive
    rwa [List.drop_zero, List.getElem?_drop, Nat.add_zero, List.drop_drop] at apart
  rw [split, eq_comm]

theorem matchBackwardsFrom_cases (subject pattern : LuaString) (nonempty : pattern ≠ []) (n : Nat) :
    (∃ k < n, matchBackwardsFrom subject pattern n = k ∧ OccursAt subject pattern k ∧
      ∀ m < n, k < m → ¬OccursAt subject pattern m) ∨
    (matchBackwardsFrom subject pattern n = -1 ∧ ∀ m < n, ¬OccursAt subject pattern m) := by
  induction n with
  | zero => right; simp [matchBackwardsFrom]
  | succ n ih =>
    by_cases found : OccursAt subject pattern n
    · left
      refine ⟨n, Nat.lt_succ_self n, ?_, found, fun m below above => by omega⟩
      rw [matchBackwardsFrom, if_pos ((candidate_iff subject pattern n nonempty).mpr found)]
    · rw [matchBackwardsFrom, if_neg (mt (candidate_iff subject pattern n nonempty).mp found)]
      -- Index `n` is no occurrence, so it changes nothing about the others.
      have extend (k : Nat) (earlier : ∀ m < n, k < m → ¬OccursAt subject pattern m) :
          ∀ m < n + 1, k < m → ¬OccursAt subject pattern m := by
        intro m below above
        rcases Nat.lt_succ_iff_lt_or_eq.mp below with before | rfl
        · exact earlier m before above
        · exact found
      rcases ih with ⟨k, below, result, occurs, last⟩ | ⟨result, absent⟩
      · exact Or.inl ⟨k, by omega, result, occurs, extend k last⟩
      · refine Or.inr ⟨result, fun m below => ?_⟩
        rcases Nat.lt_succ_iff_lt_or_eq.mp below with before | rfl
        · exact absent m before
        · exact found

/-- The search returns the last occurrence at or before `idx`, or `-1`. -/
theorem stringMatchBackwards_cases (subject pattern : LuaString) (idx : Nat)
    (nonempty : pattern ≠ []) :
    (∃ k ≤ idx, stringMatchBackwards subject pattern idx = k ∧ OccursAt subject pattern k ∧
      ∀ m ≤ idx, k < m → ¬OccursAt subject pattern m) ∨
    (stringMatchBackwards subject pattern idx = -1 ∧ ∀ m ≤ idx, ¬OccursAt subject pattern m) := by
  have start : ((idx : Int) + 1).toNat = idx + 1 := by omega
  simpa only [stringMatchBackwards, start, Nat.lt_succ_iff] using
    matchBackwardsFrom_cases subject pattern nonempty (idx + 1)

theorem occursAt_single_iff (subject : LuaString) (c : UInt8) (i : Nat) :
    OccursAt subject [c] i ↔ subject[i]? = some c := by
  rw [OccursAt, ← List.head?_drop]
  cases subject.drop i with
  | nil => simp
  | cons d rest => simp [List.cons_prefix_cons, eq_comm]

/-- With a one-byte pattern and no position the search starts at the last byte. -/
theorem lastIndexOf_single (subject : LuaString) (c : UInt8) (nonempty : subject ≠ []) :
    stringPrototypeLastIndexOf subject [c] =
      stringMatchBackwards subject [c] (subject.length - 1 : Nat) := by
  have positive : 0 < subject.length := List.length_pos_iff.mpr nonempty
  have index : (subject.length : Int) - ((1 : Nat) : Int) = ((subject.length - 1 : Nat) : Int) := by
    omega
  simp only [stringPrototypeLastIndexOf, stringLastIndexOf, List.length_singleton]
  rw [if_neg (by omega), if_neg (by omega), if_neg (by simp), index]

theorem lastIndexOf_absent (subject : LuaString) (c : UInt8) (absent : c ∉ subject) :
    stringPrototypeLastIndexOf subject [c] = -1 := by
  cases subject with
  | nil => rfl
  | cons d rest =>
    rw [lastIndexOf_single _ c (by simp)]
    rcases stringMatchBackwards_cases (d :: rest) [c] ((d :: rest).length - 1) (by simp) with
      ⟨k, _, _, occurs, _⟩ | ⟨result, _⟩
    · exact absurd (List.mem_of_getElem? ((occursAt_single_iff _ c k).mp occurs)) absent
    · exact result

theorem lastIndexOf_append (front back : LuaString) (c : UInt8) (absent : c ∉ back) :
    stringPrototypeLastIndexOf (front ++ c :: back) [c] = front.length := by
  have here : OccursAt (front ++ c :: back) [c] front.length := by
    simp [occursAt_single_iff]
  rw [lastIndexOf_single _ c (by simp)]
  rcases stringMatchBackwards_cases (front ++ c :: back) [c]
      ((front ++ c :: back).length - 1) (by simp) with
    ⟨k, _, result, occurs, last⟩ | ⟨_, never⟩
  · rw [result]
    -- The occurrence that was found is neither before nor after the separator.
    have notBefore : ¬k < front.length := fun before =>
      last front.length (by simp) before here
    have notAfter : ¬front.length < k := by
      intro after
      have found := (occursAt_single_iff _ c k).mp occurs
      rw [List.getElem?_append_right (by omega)] at found
      obtain ⟨m, position⟩ : ∃ m, k - front.length = m + 1 := ⟨k - front.length - 1, by omega⟩
      rw [position, List.getElem?_cons_succ] at found
      exact absent (List.mem_of_getElem? found)
    omega
  · exact absurd here (never front.length (by simp))

example : stringPrototypeLastIndexOf (ascii "canal") (ascii "a") = 3 := by decide

/-! ## All patterns and positions -/

variable {subject pat : LuaString} {position : Option Int}

/-- An occurrence that ends within the text and does not begin behind the position. -/
structure IsCandidate (subject pat : LuaString) (position : Option Int) (i : Nat) : Prop where
  inside : (i : Int) ≤ subject.length - pat.length
  upTo : ∀ p ∈ position, (i : Int) ≤ max p 0
  occurs : OccursAt subject pat i

/-- The last index at which an occurrence may begin. -/
def lastIndexBound (subject pat : LuaString) : (position : Option Int) → Int
  | none => subject.length - pat.length
  | some p => min (subject.length - pat.length) (max p 0)

theorem isCandidate_iff {i : Nat} : IsCandidate subject pat position i ↔
    (i : Int) ≤ lastIndexBound subject pat position ∧ OccursAt subject pat i := by
  cases position with
  | none => exact ⟨fun candidate => ⟨candidate.inside, candidate.occurs⟩,
      fun ⟨inside, occurs⟩ => ⟨inside, nofun, occurs⟩⟩
  | some p =>
    rw [lastIndexBound, le_min_iff]
    constructor
    · exact fun candidate => ⟨⟨candidate.inside, candidate.upTo p rfl⟩, candidate.occurs⟩
    · rintro ⟨⟨inside, upTo⟩, occurs⟩
      exact ⟨inside, fun _ given => Option.some.inj given ▸ upTo, occurs⟩

/-- The clamps of the three functions leave the bound to start from. -/
theorem stringPrototypeLastIndexOf_eq (subject pat : LuaString) (position : Option Int) :
    stringPrototypeLastIndexOf subject pat position =
      if lastIndexBound subject pat position < 0 then -1
      else stringLastIndexOf subject pat (lastIndexBound subject pat position) := by
  cases position with
  | none => rfl
  | some p =>
    -- A position at which the pattern does not fit is replaced by the last one at which it does.
    have clamped : (if p < 0 then 0 else p) = max p 0 := by omega
    have index : (if max p 0 + (pat.length : Int) < subject.length then max p 0
        else (subject.length : Int) - pat.length) = lastIndexBound subject pat (some p) := by
      rw [lastIndexBound]
      omega
    simp only [stringPrototypeLastIndexOf, clamped, index]

theorem lastIndexBound_le (subject pat : LuaString) (position : Option Int) :
    lastIndexBound subject pat position ≤ subject.length - pat.length := by
  cases position with
  | none => exact le_refl _
  | some p => exact min_le_left _ _

/-- From an index at which the pattern still fits nothing is clamped any more. -/
theorem stringLastIndexOf_fits {n : Nat} (fits : (n : Int) ≤ subject.length - pat.length) :
    stringLastIndexOf subject pat n =
      if pat.length = 0 then (n : Int) else stringMatchBackwards subject pat n := by
  have unclamped : ¬(n : Int) + pat.length > subject.length := by omega
  simp only [stringLastIndexOf, if_neg unclamped]

theorem stringLastIndexOf_cases {n : Nat} (fits : (n : Int) ≤ subject.length - pat.length) :
    (∃ i : Nat, IsGreatest {i | i ≤ n ∧ OccursAt subject pat i} i ∧
        stringLastIndexOf subject pat n = i) ∨
      ((∀ i ≤ n, ¬OccursAt subject pat i) ∧ stringLastIndexOf subject pat n = -1) := by
  rw [stringLastIndexOf_fits fits]
  by_cases empty : pat.length = 0
  · -- The empty pattern occurs everywhere.
    have everywhere : OccursAt subject pat n := by
      rw [List.length_eq_zero_iff.mp empty]
      exact List.nil_prefix
    rw [if_pos empty]
    exact .inl ⟨n, ⟨⟨le_refl n, everywhere⟩, fun i member => member.1⟩, rfl⟩
  · rw [if_neg empty]
    have nonempty : pat ≠ [] := mt List.length_eq_zero_iff.mpr empty
    rcases stringMatchBackwards_cases subject pat n nonempty with
      ⟨k, below, result, occurs, last⟩ | ⟨result, never⟩
    · refine .inl ⟨k, ⟨⟨below, occurs⟩, fun i member => ?_⟩, result⟩
      exact Nat.le_of_not_lt fun later => last i member.1 later member.2
    · exact .inr ⟨never, result⟩

/-- The function returns the last candidate, `-1` if there is none, and for the empty pattern
the bound itself. -/
theorem stringPrototypeLastIndexOf_spec (subject pat : LuaString) (position : Option Int) :
    ((∃ i : Nat, IsGreatest {i | IsCandidate subject pat position i} i ∧
          stringPrototypeLastIndexOf subject pat position = i) ∨
        ((∀ i, ¬IsCandidate subject pat position i) ∧
          stringPrototypeLastIndexOf subject pat position = -1)) ∧
      (pat = [] →
        stringPrototypeLastIndexOf subject pat position = lastIndexBound subject pat position) := by
  rw [stringPrototypeLastIndexOf_eq]
  have fits := lastIndexBound_le subject pat position
  simp only [isCandidate_iff]
  by_cases negative : lastIndexBound subject pat position < 0
  · -- The pattern is longer than the text.
    rw [if_pos negative]
    refine ⟨.inr ⟨fun i candidate => ?_, rfl⟩, fun empty => ?_⟩
    · exact absurd (Int.natCast_nonneg i) (not_le.mpr (candidate.1.trans_lt negative))
    · rw [empty] at negative
      cases position with
      | none => exact absurd negative (by simp [lastIndexBound])
      | some p => exact absurd negative (by simp [lastIndexBound])
  · rw [if_neg negative]
    obtain ⟨n, bound⟩ := Int.eq_ofNat_of_zero_le (not_lt.mp negative)
    rw [bound] at fits ⊢
    simp only [Int.ofNat_le]
    refine ⟨?_, fun empty => ?_⟩
    · rcases stringLastIndexOf_cases fits with found | ⟨never, result⟩
      · exact .inl found
      · exact .inr ⟨fun i candidate => never i candidate.1 candidate.2, result⟩
    · rw [stringLastIndexOf_fits fits, if_pos (List.length_eq_zero_iff.mpr empty)]

end EvoRuntime.Lua
