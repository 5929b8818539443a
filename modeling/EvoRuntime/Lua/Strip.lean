import EvoRuntime.Library.Deletion
import EvoRuntime.Lua.Patterns
import EvoRuntime.Lua.Transform

/-!
# Stripping colours

`transform.strip` deletes the colour sequences of a text, those with five numbers first and
those with one number last.

## Main result

`strip_clean_iff`: no colour sequence is left, and a second call changes nothing, if and only
if no colour sequence of the text is interrupted by others of which one is deleted too late.

## Proof strategy

A colour sequence starts with the escape character and ends with the letter `m`, so each
substitution is a pass in the sense of `Library.Deletion` (`sequencePass`), and `infix_run_iff`
says which sequences they leave.
-/
namespace EvoRuntime.Lua

open Library Pattern

/-! ## Functions -/

def escape : UInt8 := 27

def semicolon : UInt8 := 0x3B

def letterM : UInt8 := 0x6D

/-- `%d+` -/
def number : PatternItem UInt8 where
  accepts := isDigit
  repetition := .more
  captured := false

/-- `%d+;%d+`, with as many numbers as there are to be. -/
def numbersPattern : Nat → Pattern UInt8
  | 0 => []
  | 1 => [number]
  | n + 2 => number :: literalItem semicolon :: numbersPattern (n + 1)

/-- `\027%[`, the numbers and `m`. -/
def sequencePattern (n : Nat) : Pattern UInt8 :=
  literal START_SEQUENCE ++ (numbersPattern n ++ [literalItem letterM])

/-- The numbers of numbers in the sequences that are deleted, in this order. -/
def sequenceLengths : List Nat := [5, 4, 3, 2, 1]

def strip (coloredConsoleText : LuaString) : LuaString :=
  sequenceLengths.foldl (fun text n => replaceAll (sequencePattern n) [] text) coloredConsoleText

/-! ## Colour sequences -/

variable {n k : Nat} {s w : LuaString} {numbers : List LuaString}

structure IsNumber (s : LuaString) : Prop where
  nonempty : s ≠ []
  digits : ∀ c ∈ s, isDigit c

theorem isNumber_zero : IsNumber (ascii "0") where
  nonempty := by decide
  digits := by decide +kernel

def colorSequence (numbers : List LuaString) : LuaString :=
  START_SEQUENCE ++ ([semicolon].intercalate numbers ++ [letterM])

/-- A colour sequence with this many numbers. -/
def IsColorSequence (n : Nat) (w : LuaString) : Prop :=
  ∃ numbers : List LuaString, numbers.length = n ∧ (∀ number ∈ numbers, IsNumber number) ∧
    w = colorSequence numbers

theorem denotes_literalItem {c : UInt8} {rest : Pattern UInt8} :
    Denotes (literalItem c :: rest) w ↔ ∃ more, w = c :: more ∧ Denotes rest more := by
  have single : Denotes (literal [c] ++ rest) w ↔ ∃ more, w = [c] ++ more ∧ Denotes rest more :=
    denotes_literal
  exact single

theorem denotes_number {rest : Pattern UInt8} :
    Denotes (number :: rest) w ↔ ∃ digits more, w = digits ++ more ∧ IsNumber digits ∧
      Denotes rest more := by
  have takes : ∀ digits, number.Takes digits ↔ IsNumber digits := by
    refine fun digits => ⟨fun taken => ⟨?_, taken.1⟩, fun isNumber => ⟨isNumber.digits, ?_⟩⟩
    · exact List.length_pos_iff.mp taken.2
    · exact List.length_pos_iff.mpr isNumber.nonempty
  simp only [Denotes, takes]

theorem denotes_numbersPattern {rest : Pattern UInt8} :
    Denotes (numbersPattern n ++ rest) w ↔
      ∃ numbers : List LuaString, numbers.length = n ∧ (∀ number ∈ numbers, IsNumber number) ∧
        ∃ more, w = [semicolon].intercalate numbers ++ more ∧ Denotes rest more := by
  induction n using numbersPattern.induct generalizing w with
  | case1 =>
    constructor
    · exact fun denotes => ⟨[], rfl, List.forall_mem_nil _, w, rfl, denotes⟩
    · rintro ⟨numbers, none, -, more, rfl, denotes⟩
      rwa [List.length_eq_zero_iff.mp none]
  | case2 =>
    refine denotes_number.trans ?_
    constructor
    · rintro ⟨digits, more, rfl, isNumber, denotes⟩
      refine ⟨[digits], rfl, by simpa using isNumber, more, ?_, denotes⟩
      rw [List.intercalate_singleton]
    · rintro ⟨numbers, single, areNumbers, more, rfl, denotes⟩
      obtain ⟨digits, rfl⟩ := List.length_eq_one_iff.mp single
      refine ⟨digits, more, ?_, areNumbers digits List.mem_cons_self, denotes⟩
      rw [List.intercalate_singleton]
  | case3 n ih =>
    refine denotes_number.trans ?_
    constructor
    · rintro ⟨digits, _, rfl, isNumber, denotes⟩
      obtain ⟨_, rfl, behind⟩ := denotes_literalItem.mp denotes
      obtain ⟨numbers, length, areNumbers, more, rfl, rest_denotes⟩ := ih.mp behind
      have nonempty : numbers ≠ [] := List.ne_nil_of_length_eq_add_one length
      refine ⟨digits :: numbers, by rw [List.length_cons, length],
        List.forall_mem_cons.mpr ⟨isNumber, areNumbers⟩, more, ?_, rest_denotes⟩
      rw [join_cons digits nonempty, List.append_assoc, List.cons_append]
    · rintro ⟨numbers, length, areNumbers, more, rfl, denotes⟩
      obtain ⟨digits, numbers, rfl⟩ := List.exists_cons_of_ne_nil (List.ne_nil_of_length_eq_add_one length)
      rw [List.length_cons, Nat.succ_inj] at length
      obtain ⟨isNumber, areNumbers⟩ := List.forall_mem_cons.mp areNumbers
      have nonempty : numbers ≠ [] := List.ne_nil_of_length_eq_add_one length
      refine ⟨digits, semicolon :: ([semicolon].intercalate numbers ++ more), ?_, isNumber,
        denotes_literalItem.mpr ⟨_, rfl, ih.mpr ⟨numbers, length, areNumbers, more, rfl, denotes⟩⟩⟩
      rw [join_cons digits nonempty, List.append_assoc, List.cons_append]

theorem denotes_sequencePattern : Denotes (sequencePattern n) w ↔ IsColorSequence n w := by
  have last : ∀ more, Denotes [literalItem letterM] more ↔ more = [letterM] := by
    intro more
    refine denotes_literalItem.trans ⟨?_, fun same => ⟨[], same, rfl⟩⟩
    rintro ⟨_, rfl, rfl⟩
    rfl
  rw [sequencePattern, denotes_literal]
  constructor
  · rintro ⟨_, rfl, denotes⟩
    obtain ⟨numbers, length, areNumbers, more, rfl, ends⟩ := denotes_numbersPattern.mp denotes
    rw [(last more).mp ends]
    exact ⟨numbers, length, areNumbers, rfl⟩
  · rintro ⟨numbers, length, areNumbers, rfl⟩
    exact ⟨_, rfl, denotes_numbersPattern.mpr
      ⟨numbers, length, areNumbers, [letterM], rfl, (last _).mpr rfl⟩⟩

/-! ## Passes -/

theorem isBracketed_colorSequence (areNumbers : ∀ number ∈ numbers, IsNumber number) :
    IsBracketed escape letterM (colorSequence numbers) := by
  have inside : ∀ c ∈ [semicolon].intercalate numbers, c ≠ escape ∧ c ≠ letterM := by
    intro c member
    rcases mem_join member with rfl | ⟨number, listed, inside⟩
    · decide
    · have digit := (areNumbers number listed).digits c inside
      constructor <;> (rintro rfl; revert digit; decide)
  refine ⟨0x5B :: [semicolon].intercalate numbers, rfl, ?_, ?_⟩
  · simp only [List.cons_append, List.mem_cons, List.mem_append, List.not_mem_nil, or_false, not_or]
    exact ⟨by decide, fun member => (inside _ member).1 rfl, by decide⟩
  · simp only [List.mem_cons, not_or]
    exact ⟨by decide, by decide, fun member => (inside _ member).2 rfl⟩

/-- The substitution that deletes the sequences with this many numbers. -/
def sequencePass (n : Nat) : DeletionPass escape letterM :=
  .ofPattern (sequencePattern n) fun _ denotes => by
    obtain ⟨numbers, -, areNumbers, rfl⟩ := denotes_sequencePattern.mp denotes
    exact isBracketed_colorSequence areNumbers

theorem isUnit_sequencePass : (sequencePass n).IsUnit w ↔ IsColorSequence n w :=
  denotes_sequencePattern

/-- Sequences with different numbers of numbers are different. -/
theorem IsColorSequence.unique (left : IsColorSequence (n + 1) w) (right : IsColorSequence (k + 1) w) :
    n = k := by
  have count : ∀ m, IsColorSequence (m + 1) w → w.count semicolon = m := by
    rintro m ⟨numbers, length, areNumbers, rfl⟩
    obtain ⟨first, others, rfl⟩ := List.exists_cons_of_ne_nil (List.ne_nil_of_length_eq_add_one length)
    have clean : ∀ number ∈ first :: others, semicolon ∉ number := by
      intro number listed member
      exact absurd ((areNumbers number listed).digits semicolon member) (by decide)
    rw [colorSequence, List.count_append, List.count_append, count_join first others clean]
    have start : START_SEQUENCE.count semicolon = 0 := by decide
    have ends : [letterM].count semicolon = 0 := by decide
    rw [List.length_cons] at length
    omega
  exact (count n left).symm.trans (count k right)

theorem mem_sequenceLengths : n ∈ sequenceLengths ↔ 1 ≤ n ∧ n ≤ 5 := by
  simp only [sequenceLengths, List.mem_cons, List.not_mem_nil, or_false]
  omega

/-- The passes for the sequences with more numbers. -/
def passesAbove (n : Nat) : List (DeletionPass escape letterM) :=
  (sequenceLengths.filter (n < ·)).map sequencePass

def passes : List (DeletionPass escape letterM) := sequenceLengths.map sequencePass

theorem strip_eq (s : LuaString) : strip s = runPasses passes s := rfl

/-- The passes in front of the one for a sequence are those for more numbers. -/
theorem passes_before {before after : List (DeletionPass escape letterM)}
    {pass : DeletionPass escape letterM} (split : passes = before ++ pass :: after)
    (isUnit : pass.IsUnit w) (sequence : IsColorSequence n w) (positive : 1 ≤ n) :
    before = passesAbove n := by
  obtain ⟨front, back, lengths, rfl, tail⟩ := List.map_eq_append_iff.mp split
  obtain ⟨k, rest, rfl, rfl, -⟩ := List.map_eq_cons_iff.mp tail
  have descending : sequenceLengths.Pairwise (· > ·) := by decide
  have possible : ∀ m ∈ sequenceLengths, 1 ≤ m := fun m member => (mem_sequenceLengths.mp member).1
  obtain ⟨k, rfl⟩ := Nat.exists_eq_add_of_le' (possible k (by rw [lengths]; simp))
  obtain ⟨n, rfl⟩ := Nat.exists_eq_add_of_le' positive
  obtain rfl := (isUnit_sequencePass.mp isUnit).unique sequence
  rw [lengths, List.pairwise_append] at descending
  obtain ⟨-, below, above⟩ := descending
  have kept : front.filter (k + 1 < ·) = front :=
    List.filter_eq_self.mpr fun m member => decide_eq_true (above m member _ List.mem_cons_self)
  have dropped : ((k + 1) :: rest).filter (k + 1 < ·) = [] := by
    rw [List.filter_eq_nil_iff]
    intro m member
    rcases List.mem_cons.mp member with rfl | member
    · simp
    · have := (List.pairwise_cons.mp below).1 m member
      simpa using Nat.le_of_lt this
  rw [passesAbove, lengths, List.filter_append, kept, dropped, List.append_nil]

/-! ## What is left -/

/-- The text contains a sequence of one to five numbers. -/
def HasColorSequence (s : LuaString) : Prop :=
  ∃ n w, 1 ≤ n ∧ n ≤ 5 ∧ IsColorSequence n w ∧ w <:+: s

/-- A sequence with `n` numbers is interrupted by texts that are all deleted, but not all of them
by the passes for more than `n` numbers. -/
def HasInterruptedSequence (s : LuaString) : Prop :=
  ∃ n w insertions x, 1 ≤ n ∧ n ≤ 5 ∧ IsColorSequence n w ∧ Spread w insertions x ∧ x <:+: s ∧
    (∀ v ∈ insertions, Vanishes passes v) ∧ ∃ v ∈ insertions, ¬Vanishes (passesAbove n) v

theorem survives_iff {insertions : List LuaString} (sequence : IsColorSequence n w)
    (least : 1 ≤ n) (most : n ≤ 5) :
    Survives passes w insertions ↔
      (∀ v ∈ insertions, Vanishes passes v) ∧ ∃ v ∈ insertions, ¬Vanishes (passesAbove n) v := by
  constructor
  · intro survives
    refine ⟨survives.vanish, ?_⟩
    have lengths : ∀ n ∈ sequenceLengths, sequenceLengths =
        sequenceLengths.filter (n < ·) ++ n :: sequenceLengths.filter (· < n) := by
      decide
    have split := congrArg (List.map sequencePass)
      (lengths n (mem_sequenceLengths.mpr ⟨least, most⟩))
    rw [List.map_append, List.map_cons] at split
    exact survives.in_time _ _ _ split (isUnit_sequencePass.mpr sequence)
  · rintro ⟨vanish, late⟩
    refine ⟨vanish, fun before pass after split isUnit => ?_⟩
    rwa [passes_before split isUnit sequence least]

theorem hasColorSequence_strip_iff (s : LuaString) :
    HasColorSequence (strip s) ↔ HasInterruptedSequence s := by
  constructor
  · rintro ⟨n, w, least, most, sequence, left⟩
    have bracketed := (sequencePass n).bracketed (isUnit_sequencePass.mpr sequence)
    rw [strip_eq] at left
    obtain ⟨insertions, x, spread, inside, survives⟩ := (infix_run_iff bracketed).mp left
    exact ⟨n, w, insertions, x, least, most, sequence, spread, inside,
      (survives_iff sequence least most).mp survives⟩
  · rintro ⟨n, w, insertions, x, least, most, sequence, spread, inside, late⟩
    have bracketed := (sequencePass n).bracketed (isUnit_sequencePass.mpr sequence)
    exact ⟨n, w, least, most, sequence, (infix_run_iff bracketed).mpr
      ⟨insertions, x, spread, inside, (survives_iff sequence least most).mpr late⟩⟩

theorem strip_eq_self_iff (s : LuaString) : strip s = s ↔ ¬HasColorSequence s := by
  rw [strip_eq, runPasses_eq_self_iff]
  constructor
  · rintro clean ⟨n, w, least, most, sequence, inside⟩
    have listed := List.mem_map_of_mem (f := sequencePass) (mem_sequenceLengths.mpr ⟨least, most⟩)
    exact clean _ listed w (isUnit_sequencePass.mpr sequence) inside
  · intro clean pass member w isUnit inside
    obtain ⟨n, listed, rfl⟩ := List.mem_map.mp member
    obtain ⟨least, most⟩ := mem_sequenceLengths.mp listed
    exact clean ⟨n, w, least, most, isUnit_sequencePass.mp isUnit, inside⟩

/-- No colour sequence is left, and stripping once more changes nothing, unless a sequence of the
text is interrupted. -/
theorem strip_clean_iff (s : LuaString) :
    (¬HasColorSequence (strip s) ∧ strip (strip s) = strip s) ↔ ¬HasInterruptedSequence s := by
  rw [strip_eq_self_iff, and_self, hasColorSequence_strip_iff]

/-- A reset sequence with a reset sequence in it. -/
def nestedReset : LuaString := START_SEQUENCE ++ START_SEQUENCE ++ ascii "0m0m"

/-- What is left of it is a reset sequence, which the second call deletes. -/
theorem not_strip_clean : HasColorSequence (strip nestedReset) ∧
    strip (strip nestedReset) ≠ strip nestedReset := by
  have left : strip nestedReset = colorSequence [ascii "0"] := by decide +kernel
  refine ⟨⟨1, _, le_refl 1, by decide, ⟨[ascii "0"], rfl, ?_, rfl⟩, left ▸ List.infix_rfl⟩, ?_⟩
  · exact List.forall_mem_singleton.mpr isNumber_zero
  · rw [left]
    decide +kernel

end EvoRuntime.Lua
