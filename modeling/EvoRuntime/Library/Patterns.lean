import Mathlib.Data.List.Infix
import Mathlib.Data.List.TakeWhile
import Mathlib.Tactic.Common

/-!
# Greedy patterns

A pattern is a list of items. An item stands for characters of one class, repeated as often
as the item says. It takes as many characters as it can, and fewer only if the rest of the
pattern does not match behind them. What some of the items have taken is captured.

A pattern denotes a set of texts. The matcher finds a text of this set in front of a string
whenever there is one (`matchHere_isSome_iff`), and `search` does so at any position.
-/
namespace EvoRuntime.Library

variable {α : Type*}

inductive Repetition
  | one
  | optional
  | many
  | more
  deriving DecidableEq

def Repetition.Allows : Repetition → Nat → Prop
  | one, n => n = 1
  | optional, n => n ≤ 1
  | many, _ => True
  | more, n => 1 ≤ n

structure PatternItem (α : Type*) where
  accepts : α → Bool
  repetition : Repetition
  captured : Bool

abbrev Pattern (α : Type*) := List (PatternItem α)

/-- The text that a pattern has matched, and the parts of it that are captured. -/
structure Found (α : Type*) where
  text : List α
  captures : List (List α)

/-- An item has taken some characters in front of the others. -/
def Found.behind (item : PatternItem α) (taken : List α) (found : Found α) : Found α where
  text := taken ++ found.text
  captures := if item.captured then taken :: found.captures else found.captures

/-- How many characters the item tries to take, the largest number first. -/
def PatternItem.lengths (item : PatternItem α) (s : List α) : List Nat :=
  let longest := (s.takeWhile item.accepts).length
  match item.repetition with
  | .one => if 1 ≤ longest then [1] else []
  | .optional => if 1 ≤ longest then [1, 0] else [0]
  | .many => (List.range' 0 (longest + 1)).reverse
  | .more => (List.range' 1 longest).reverse

/-- The item may take these characters. -/
def PatternItem.Takes (item : PatternItem α) (taken : List α) : Prop :=
  (∀ c ∈ taken, item.accepts c) ∧ item.repetition.Allows taken.length

namespace Pattern

/-- A match of the pattern in front of the text. -/
def matchHere : Pattern α → List α → Option (Found α)
  | [], _ => some { text := [], captures := [] }
  | item :: rest, s =>
    (item.lengths s).findSome? fun n =>
      (matchHere rest (s.drop n)).map (Found.behind item (s.take n))

/-- The first position at which there is a match. -/
def search (p : Pattern α) : List α → Option (Found α)
  | [] => matchHere p []
  | c :: s => (matchHere p (c :: s)).or (search p s)

/-- One match behind the other, when some characters in front still belong to the last one. -/
def matchesFrom (p : Pattern α) : (skip : Nat) → List α → List (Found α)
  | 0, [] => (matchHere p []).toList
  | _ + 1, [] => []
  | skip + 1, _ :: s => matchesFrom p skip s
  | 0, c :: s =>
    match matchHere p (c :: s) with
    | none => matchesFrom p 0 s
    | some found => found :: matchesFrom p (found.text.length - 1) s

def allMatches (p : Pattern α) (s : List α) : List (Found α) := matchesFrom p 0 s

def replaceFrom (p : Pattern α) (replacement : List α) : (skip : Nat) → List α → List α
  | 0, [] => if (matchHere p []).isSome then replacement else []
  | _ + 1, [] => []
  | skip + 1, _ :: s => replaceFrom p replacement skip s
  | 0, c :: s =>
    match matchHere p (c :: s) with
    | none => c :: replaceFrom p replacement 0 s
    | some found =>
      replacement ++
        if found.text = [] then c :: replaceFrom p replacement 0 s
        else replaceFrom p replacement (found.text.length - 1) s

/-- The text with all matches replaced. -/
def replaceAll (p : Pattern α) (replacement s : List α) : List α := replaceFrom p replacement 0 s

/-- The texts that a pattern stands for. -/
def Denotes : Pattern α → List α → Prop
  | [], w => w = []
  | item :: rest, w => ∃ taken more, w = taken ++ more ∧ item.Takes taken ∧ Denotes rest more

/-! ## Matches in front of a text -/

variable {p rest : Pattern α} {item : PatternItem α} {s t u w : List α} {n : Nat} {found : Found α}

theorem le_length_takeWhile_iff {accepts : α → Bool} :
    n ≤ (s.takeWhile accepts).length ↔ n ≤ s.length ∧ ∀ c ∈ s.take n, accepts c := by
  induction s generalizing n with
  | nil => simp
  | cons c s ih =>
    cases n with
    | zero => simp
    | succ n =>
      cases accepted : accepts c with
      | true => simp [accepted, ih]
      | false => simp [accepted]

theorem mem_lengths : n ∈ item.lengths s ↔ n ≤ s.length ∧ item.Takes (s.take n) := by
  have longest : n ∈ item.lengths s ↔
      item.repetition.Allows n ∧ n ≤ (s.takeWhile item.accepts).length := by
    unfold PatternItem.lengths
    cases item.repetition with
    | one =>
      simp only [Repetition.Allows]
      split
      · simp only [List.mem_singleton]
        omega
      · simp only [List.not_mem_nil, false_iff]
        omega
    | optional =>
      simp only [Repetition.Allows]
      split
      · simp only [List.mem_cons, List.not_mem_nil, or_false]
        omega
      · simp only [List.mem_singleton]
        omega
    | many =>
      simp only [Repetition.Allows, List.mem_reverse, List.mem_range'_1, true_and]
      omega
    | more =>
      simp only [Repetition.Allows, List.mem_reverse, List.mem_range'_1]
      omega
  rw [longest, le_length_takeWhile_iff, PatternItem.Takes]
  constructor
  · rintro ⟨allowed, inside, accepted⟩
    exact ⟨inside, accepted, by rwa [List.length_take, Nat.min_eq_left inside]⟩
  · rintro ⟨inside, accepted, allowed⟩
    exact ⟨by rwa [List.length_take, Nat.min_eq_left inside] at allowed, inside, accepted⟩

/-- What a match with a first item is made of. -/
theorem matchHere_cons_some (matched : matchHere (item :: rest) s = some found) :
    ∃ n ∈ item.lengths s, ∃ later, matchHere rest (s.drop n) = some later ∧
      found = .behind item (s.take n) later := by
  obtain ⟨n, member, matched⟩ := List.exists_of_findSome?_eq_some matched
  obtain ⟨later, behind, rfl⟩ := Option.map_eq_some_iff.mp matched
  exact ⟨n, member, later, behind, rfl⟩

theorem matchHere_sound (matched : matchHere p s = some found) :
    Denotes p found.text ∧ found.text <+: s := by
  induction p generalizing s found with
  | nil =>
    obtain rfl := Option.some.inj matched
    exact ⟨rfl, List.nil_prefix⟩
  | cons item rest ih =>
    obtain ⟨n, member, later, behind, rfl⟩ := matchHere_cons_some matched
    obtain ⟨denotes, more, split⟩ := ih behind
    refine ⟨⟨_, _, rfl, (mem_lengths.mp member).2, denotes⟩, more, ?_⟩
    rw [Found.behind, List.append_assoc, split, List.take_append_drop]

/-- The matcher does not miss a text of the pattern. -/
theorem matchHere_complete (denotes : Denotes p w) (t : List α) :
    (matchHere p (w ++ t)).isSome := by
  induction p generalizing w with
  | nil => rfl
  | cons item rest ih =>
    obtain ⟨taken, more, rfl, takes, denotes⟩ := denotes
    rw [matchHere, List.findSome?_isSome_iff]
    refine ⟨taken.length, mem_lengths.mpr ?_, ?_⟩
    · rw [List.append_assoc, List.take_left]
      exact ⟨List.length_append ▸ Nat.le_add_right .., takes⟩
    · rw [List.append_assoc, List.drop_left, Option.isSome_map]
      exact ih denotes

theorem matchHere_isSome_iff : (matchHere p s).isSome ↔ ∃ w, Denotes p w ∧ w <+: s := by
  constructor
  · intro matched
    obtain ⟨found, matched⟩ := Option.isSome_iff_exists.mp matched
    exact ⟨found.text, matchHere_sound matched⟩
  · rintro ⟨w, denotes, t, rfl⟩
    exact matchHere_complete denotes t

theorem matchHere_eq_none_iff : matchHere p s = none ↔ ∀ w, Denotes p w → ¬w <+: s := by
  rw [← Option.not_isSome_iff_eq_none, matchHere_isSome_iff]
  push Not
  rfl

/-- What is captured stands in the text. -/
theorem captures_infix (matched : matchHere p s = some found) :
    ∀ capture ∈ found.captures, capture <:+: found.text := by
  induction p generalizing s found with
  | nil =>
    obtain rfl := Option.some.inj matched
    exact List.forall_mem_nil _
  | cons item rest ih =>
    obtain ⟨n, -, later, behind, rfl⟩ := matchHere_cons_some matched
    have others : ∀ capture ∈ later.captures, capture <:+: s.take n ++ later.text :=
      fun capture member => (ih behind capture member).trans (List.suffix_append ..).isInfix
    intro capture member
    unfold Found.behind at member ⊢
    split at member
    · rcases List.mem_cons.mp member with rfl | member
      · exact (List.prefix_append ..).isInfix
      · exact others capture member
    · exact others capture member

/-! ### Taking a definite number of characters -/

theorem takeWhile_run {accepts : α → Bool} (inside : ∀ c ∈ u, accepts c)
    (ends : ∀ c ∈ t.head?, accepts c = false) : (u ++ t).takeWhile accepts = u := by
  rw [List.takeWhile_append_of_pos inside]
  cases t with
  | nil => exact List.append_nil u
  | cons c t => rw [List.takeWhile_cons_of_neg (by simp [ends c rfl]), List.append_nil]

/-- A run that the item may take, and behind which its class ends, is what it tries first. -/
theorem lengths_taken (takes : item.Takes u) (ends : ∀ c ∈ t.head?, item.accepts c = false) :
    ∃ shorter, item.lengths (u ++ t) = u.length :: shorter := by
  obtain ⟨inside, allowed⟩ := takes
  simp only [PatternItem.lengths, takeWhile_run inside ends]
  cases repetition : item.repetition with
  | one =>
    rw [repetition, Repetition.Allows] at allowed
    exact ⟨[], by simp [allowed]⟩
  | optional =>
    rw [repetition, Repetition.Allows] at allowed
    rcases Nat.le_one_iff_eq_zero_or_eq_one.mp allowed with empty | single
    · exact ⟨[], by simp [empty]⟩
    · exact ⟨[0], by simp [single]⟩
  | many => exact ⟨(List.range' 0 u.length).reverse, by simp [List.range'_concat]⟩
  | more =>
    rw [repetition, Repetition.Allows] at allowed
    obtain ⟨n, size⟩ := Nat.exists_eq_add_of_le allowed
    refine ⟨(List.range' 1 n).reverse, ?_⟩
    simp [size, Nat.add_comm 1 n, List.range'_concat]

/-- An item takes all that it can, if the rest matches behind it. -/
theorem matchHere_taken {later : Found α} (takes : item.Takes u)
    (ends : ∀ c ∈ t.head?, item.accepts c = false) (behind : matchHere rest t = some later) :
    matchHere (item :: rest) (u ++ t) = some (.behind item u later) := by
  obtain ⟨shorter, longest⟩ := lengths_taken takes ends
  rw [matchHere, longest, List.findSome?_cons, List.drop_left, behind, List.take_left]
  rfl

/-- One character is taken, whatever follows. -/
theorem matchHere_one (single : item.repetition = .one) (c : α) (s : List α) :
    matchHere (item :: rest) (c :: s) =
      if item.accepts c then (matchHere rest s).map (.behind item [c]) else none := by
  cases accepted : item.accepts c <;>
    simp [matchHere, PatternItem.lengths, single, accepted]

theorem matchHere_one_nil (single : item.repetition = .one) :
    matchHere (item :: rest) [] = none := by
  simp [matchHere, PatternItem.lengths, single]

/-- The only element for which there is a result. -/
theorem findSome?_unique {β γ : Type*} {f : β → Option γ} {b : β} {c : γ} {l : List β}
    (member : b ∈ l) (result : f b = some c) (only : ∀ a ∈ l, a ≠ b → f a = none) :
    l.findSome? f = some c := by
  induction l with
  | nil => exact absurd member List.not_mem_nil
  | cons a l ih =>
    rw [List.findSome?_cons]
    by_cases same : a = b
    · rw [same, result]
    · rw [only a List.mem_cons_self same]
      exact ih ((List.mem_cons.mp member).resolve_left (Ne.symm same))
        fun d inside => only d (List.mem_cons_of_mem _ inside)

/-- The only number of characters behind which the rest matches. -/
theorem matchHere_unique {later : Found α} (inside : n ∈ item.lengths s)
    (behind : matchHere rest (s.drop n) = some later)
    (only : ∀ m ∈ item.lengths s, m ≠ n → matchHere rest (s.drop m) = none) :
    matchHere (item :: rest) s = some (.behind item (s.take n) later) := by
  refine findSome?_unique inside ?_ fun m member other => ?_
  · rw [behind]
    rfl
  · rw [only m member other]
    rfl

/-- An optional character is taken if the rest matches behind it. -/
theorem matchHere_optional {later : Found α} {c : α} (optional : item.repetition = .optional)
    (accepted : item.accepts c) (behind : matchHere rest s = some later) :
    matchHere (item :: rest) (c :: s) = some (.behind item [c] later) := by
  have lengths : item.lengths (c :: s) = [1, 0] := by
    simp [PatternItem.lengths, optional, List.takeWhile_cons_of_pos accepted]
  rw [matchHere, lengths, List.findSome?_cons, List.drop_one, List.tail_cons, behind]
  rfl

/-! ## Matches at any position -/

theorem search_here (matched : matchHere p s = some found) : search p s = some found := by
  cases s with
  | nil => exact matched
  | cons c s => rw [search, matched, Option.some_or]

theorem search_sound (matched : search p s = some found) :
    ∃ before after, s = before ++ (found.text ++ after) ∧
      matchHere p (found.text ++ after) = some found := by
  induction s with
  | nil =>
    obtain ⟨after, split⟩ := (matchHere_sound matched).2
    exact ⟨[], after, split.symm, split.symm ▸ matched⟩
  | cons c s ih =>
    rw [search] at matched
    rcases Option.or_eq_some_iff.mp matched with here | ⟨-, later⟩
    · obtain ⟨after, split⟩ := (matchHere_sound here).2
      exact ⟨[], after, split.symm, split.symm ▸ here⟩
    · obtain ⟨before, after, rfl, behind⟩ := ih later
      exact ⟨c :: before, after, rfl, behind⟩

theorem search_isSome_iff : (search p s).isSome ↔ ∃ w, Denotes p w ∧ w <:+: s := by
  constructor
  · intro matched
    obtain ⟨found, matched⟩ := Option.isSome_iff_exists.mp matched
    obtain ⟨before, after, rfl, here⟩ := search_sound matched
    exact ⟨found.text, (matchHere_sound here).1, before, after, List.append_assoc ..⟩
  · rintro ⟨w, denotes, before, after, rfl⟩
    rw [List.append_assoc]
    induction before with
    | nil =>
      obtain ⟨found, matched⟩ := Option.isSome_iff_exists.mp (matchHere_complete denotes after)
      rw [List.nil_append, search_here matched]
      rfl
    | cons c before ih =>
      rw [List.cons_append, search, Option.isSome_or, ih, Bool.or_true]

/-- There is nothing to find in a part of a text in which nothing is found. -/
theorem search_none_of_infix (inside : s <:+: t) (missing : search p t = none) :
    search p s = none := by
  rw [← Option.not_isSome_iff_eq_none, search_isSome_iff] at missing ⊢
  rintro ⟨w, denotes, part⟩
  exact missing ⟨w, denotes, part.trans inside⟩

theorem search_skip {c : α} (none : matchHere p (c :: s) = none) : search p (c :: s) = search p s := by
  rw [search, none, Option.none_or]

/-- An item that may take nothing does not change where there are matches. -/
theorem search_skippable (skippable : item.repetition.Allows 0) :
    search (item :: p) s = none ↔ search p s = none := by
  rw [← Option.not_isSome_iff_eq_none, ← Option.not_isSome_iff_eq_none, search_isSome_iff,
    search_isSome_iff, not_iff_not]
  constructor
  · rintro ⟨_, ⟨taken, more, rfl, -, denotes⟩, inside⟩
    exact ⟨more, denotes, (List.suffix_append ..).isInfix.trans inside⟩
  · rintro ⟨w, denotes, inside⟩
    exact ⟨w, ⟨[], w, rfl, ⟨List.forall_mem_nil _, skippable⟩, denotes⟩, inside⟩

/-- What starts with a word does not start in a text that has no such word, nor at its end if
the last character does not occur in the word. -/
theorem infix_behind {word front : List α} {last : α} (inside : word ++ w <:+: front ++ [last] ++ t)
    (absent : ¬word <:+: front ++ [last]) (foreign : last ∉ word) : word ++ w <:+: t := by
  obtain ⟨before, after, split⟩ := inside
  rw [List.append_assoc] at split
  rcases List.append_eq_append_iff.mp split with ⟨rest, front_eq, rest_eq⟩ | ⟨rest, -, rfl⟩
  · rcases rest.eq_nil_or_concat with rfl | ⟨rest, c, rfl⟩
    · exact ⟨[], after, rest_eq⟩
    · -- The word would have to be in what is left of the front, or contain its end.
      rw [List.concat_eq_append, ← List.append_assoc] at front_eq
      obtain ⟨rfl, same⟩ := List.append_inj' front_eq rfl
      obtain rfl : last = c := by simpa using same
      rw [List.concat_eq_append, List.append_assoc] at rest_eq
      rcases List.append_eq_append_iff.mp rest_eq with ⟨more, front_eq, -⟩ | ⟨more, rfl, -⟩
      · refine absurd ⟨before, more, ?_⟩ absent
        rw [List.append_assoc, List.append_assoc, ← front_eq]
      · exact absurd (by simp) foreign
  · exact ⟨rest, after, List.append_assoc ..⟩

/-! ## All matches -/

theorem matchesFrom_skip (u t : List α) : matchesFrom p u.length (u ++ t) = allMatches p t := by
  induction u with
  | nil => rfl
  | cons c u ih => exact ih

theorem allMatches_none {c : α} (none : matchHere p (c :: s) = none) :
    allMatches p (c :: s) = allMatches p s := by
  rw [allMatches, matchesFrom, none]
  rfl

theorem allMatches_found (nonempty : found.text ≠ [])
    (matched : matchHere p (found.text ++ t) = some found) :
    allMatches p (found.text ++ t) = found :: allMatches p t := by
  cases text : found.text with
  | nil => exact absurd text nonempty
  | cons c u =>
    rw [text] at matched
    rw [List.cons_append] at matched ⊢
    rw [allMatches, matchesFrom, matched]
    dsimp only
    rw [text]
    exact congrArg _ (matchesFrom_skip u t)

theorem replaceFrom_skip (replacement u t : List α) :
    replaceFrom p replacement u.length (u ++ t) = replaceAll p replacement t := by
  induction u with
  | nil => rfl
  | cons c u ih => exact ih

theorem replaceAll_none {c : α} (replacement : List α) (none : matchHere p (c :: s) = none) :
    replaceAll p replacement (c :: s) = c :: replaceAll p replacement s := by
  rw [replaceAll, replaceFrom, none]
  rfl

theorem replaceAll_found (replacement : List α) (nonempty : found.text ≠ [])
    (matched : matchHere p (found.text ++ t) = some found) :
    replaceAll p replacement (found.text ++ t) = replacement ++ replaceAll p replacement t := by
  cases text : found.text with
  | nil => exact absurd text nonempty
  | cons c u =>
    rw [text] at matched
    rw [List.cons_append] at matched ⊢
    rw [replaceAll, replaceFrom, matched]
    dsimp only
    rw [if_neg nonempty, text]
    exact congrArg _ (replaceFrom_skip replacement u t)

/-! ## Tokens -/

/-- One or more characters of a class. -/
def run (accepts : α → Bool) : Pattern α :=
  [{ accepts := accepts, repetition := .more, captured := true }]

/-- The longest runs of a class of characters. -/
def tokens (accepts : α → Bool) (s : List α) : List (List α) :=
  (allMatches (run accepts) s).flatMap Found.captures

variable {accepts : α → Bool}

theorem matchHere_run (nonempty : u ≠ []) (inside : ∀ c ∈ u, accepts c)
    (ends : ∀ c ∈ t.head?, accepts c = false) :
    matchHere (run accepts) (u ++ t) = some { text := u, captures := [u] } := by
  have takes : PatternItem.Takes { accepts, repetition := .more, captured := true } u :=
    ⟨inside, List.length_pos_iff.mpr nonempty⟩
  refine (matchHere_taken takes ends rfl).trans ?_
  simp [Found.behind]

theorem tokens_nil : tokens accepts [] = [] := rfl

theorem tokens_skip {c : α} (other : accepts c = false) (s : List α) :
    tokens accepts (c :: s) = tokens accepts s := by
  rw [tokens, allMatches_none, tokens]
  rw [run, matchHere]
  simp [PatternItem.lengths, other]

theorem tokens_skip_all (other : ∀ c ∈ u, accepts c = false) (s : List α) :
    tokens accepts (u ++ s) = tokens accepts s := by
  induction u with
  | nil => rfl
  | cons c u ih =>
    rw [List.cons_append, tokens_skip (other c List.mem_cons_self),
      ih fun d member => other d (List.mem_cons_of_mem _ member)]

/-- A token ends where its class does. -/
theorem tokens_run (inside : ∀ c ∈ u, accepts c) (ends : ∀ c ∈ t.head?, accepts c = false) :
    tokens accepts (u ++ t) = [u].filter (· ≠ []) ++ tokens accepts t := by
  by_cases empty : u = []
  · rw [empty]
    rfl
  · have matched := matchHere_run empty inside ends
    have found := @allMatches_found _ _ t { text := u, captures := [u] } empty matched
    rw [tokens, found, List.flatMap_cons, ← tokens]
    simp [empty]

/-- The tokens are the parts between the other characters, except for the empty ones. -/
theorem tokens_eq_splitOnP (s : List α) :
    tokens accepts s = (s.splitOnP (fun c => !accepts c)).filter (· ≠ []) := by
  -- By induction on what comes behind a run `u`, which grows until its class ends.
  have behind : ∀ u : List α, (∀ c ∈ u, accepts c) →
      tokens accepts (u ++ s) = ((u ++ s).splitOnP (fun c => !accepts c)).filter (· ≠ []) := by
    induction s with
    | nil =>
      intro u inside
      have whole : (u ++ []).splitOnP (fun c => !accepts c) = [u] := by
        rw [List.append_nil]
        exact List.splitOnP_eq_singleton (by simpa using inside)
      rw [tokens_run inside (by simp), tokens_nil, List.append_nil, whole]
    | cons c s ih =>
      intro u inside
      cases accepted : accepts c with
      | true =>
        rw [List.append_cons]
        apply ih
        intro d member
        rcases List.mem_append.mp member with member | member
        · exact inside d member
        · rwa [List.mem_singleton.mp member]
      | false =>
        have ends : ∀ d ∈ (c :: s).head?, accepts d = false := by
          rintro d ⟨⟩
          exact accepted
        have split : (u ++ c :: s).splitOnP (fun c => !accepts c) =
            u :: s.splitOnP (fun c => !accepts c) :=
          List.splitOnP_append_cons_of_forall_mem (by simpa using inside) c (by simp [accepted]) s
        have rest := ih [] (List.forall_mem_nil _)
        rw [List.nil_append] at rest
        rw [tokens_run inside ends, tokens_skip accepted, rest, split, List.filter_cons,
          List.filter_cons, List.filter_nil]
        split <;> rfl
  exact behind [] (List.forall_mem_nil _)

theorem splitOnP_clean {separates : α → Bool} {piece : List α} (member : piece ∈ s.splitOnP separates) :
    ∀ c ∈ piece, separates c = false := by
  induction s generalizing piece with
  | nil =>
    rw [List.splitOnP_nil, List.mem_singleton] at member
    rw [member]
    exact List.forall_mem_nil _
  | cons c s ih =>
    rw [List.splitOnP_cons_eq_if_modifyHead] at member
    split at member
    next =>
      rcases List.mem_cons.mp member with rfl | member
      · exact List.forall_mem_nil _
      · exact ih member
    next other =>
      obtain ⟨first, pieces, split⟩ := List.exists_cons_of_ne_nil (List.splitOnP_ne_nil separates s)
      rw [split, List.modifyHead_cons] at member
      rcases List.mem_cons.mp member with rfl | member
      · have rest := ih (split ▸ List.mem_cons_self)
        exact List.forall_mem_cons.mpr ⟨Bool.eq_false_iff.mpr other, rest⟩
      · exact ih (split ▸ List.mem_cons_of_mem _ member)

/-- The tokens of lines that end with a separator. -/
theorem tokens_lines {lines : List (List α)} {sep : List α} (nonempty : sep ≠ [])
    (inside : ∀ line ∈ lines, ∀ c ∈ line, accepts c) (other : ∀ c ∈ sep, accepts c = false) :
    tokens accepts (lines.flatMap (· ++ sep)) = lines.filter (· ≠ []) := by
  induction lines with
  | nil => rfl
  | cons line lines ih =>
    have ends : ∀ c ∈ (sep ++ lines.flatMap (· ++ sep)).head?, accepts c = false := by
      rw [List.head?_append_of_ne_nil _ nonempty]
      exact fun c first => other c (List.mem_of_mem_head? first)
    have rest := ih fun line member => inside line (List.mem_cons_of_mem _ member)
    rw [List.flatMap_cons, List.append_assoc, tokens_run (inside line List.mem_cons_self) ends,
      tokens_skip_all other, rest, List.filter_cons, List.filter_cons, List.filter_nil]
    split <;> rfl

/-! ## Literal texts -/

section Literals

variable [DecidableEq α]

def literalItem (c : α) : PatternItem α where
  accepts := (· = c)
  repetition := .one
  captured := false

/-- The characters of a text, one after the other. -/
def literal (text : List α) : Pattern α := text.map literalItem

theorem matchHere_literal (text s : List α) :
    matchHere (literal text ++ rest) (text ++ s) =
      (matchHere rest s).map fun later => { later with text := text ++ later.text } := by
  induction text with
  | nil => exact (Option.map_id' ..).symm
  | cons c text ih =>
    have accepted : (literalItem c).accepts c = true := decide_eq_true rfl
    rw [literal, List.map_cons, List.cons_append, List.cons_append, matchHere_one rfl,
      if_pos accepted, ← literal, ih, Option.map_map]
    rfl

theorem denotes_literal {text : List α} :
    Denotes (literal text ++ rest) w ↔ ∃ more, w = text ++ more ∧ Denotes rest more := by
  induction text generalizing w with
  | nil => simp [literal]
  | cons c text ih =>
    simp only [literal, List.map_cons, List.cons_append, Denotes]
    constructor
    · rintro ⟨taken, more, rfl, ⟨inside, single⟩, denotes⟩
      obtain ⟨d, rfl⟩ := List.length_eq_one_iff.mp single
      obtain rfl : d = c := of_decide_eq_true (inside d List.mem_cons_self)
      obtain ⟨last, rfl, behind⟩ := ih.mp denotes
      exact ⟨last, rfl, behind⟩
    · rintro ⟨more, rfl, denotes⟩
      refine ⟨[c], text ++ more, rfl, ⟨?_, rfl⟩, ih.mpr ⟨more, rfl, denotes⟩⟩
      intro d member
      exact decide_eq_true (List.mem_singleton.mp member)

/-- A pattern that starts with a word is found only where the word may stand. -/
theorem search_literal_behind {word front : List α} {last : α} (absent : ¬word <:+: front ++ [last])
    (foreign : last ∉ word) (missing : search (literal word ++ rest) t = none) :
    search (literal word ++ rest) (front ++ [last] ++ t) = none := by
  rw [← Option.not_isSome_iff_eq_none, search_isSome_iff] at missing ⊢
  rintro ⟨w, denotes, inside⟩
  obtain ⟨more, rfl, -⟩ := denotes_literal.mp denotes
  exact missing ⟨_, denotes, infix_behind inside absent foreign⟩

end Literals

end Pattern

end EvoRuntime.Library
