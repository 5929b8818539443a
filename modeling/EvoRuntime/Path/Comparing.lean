import EvoRuntime.Path.NormalizeString

/-!
# Comparing the texts of two paths

`relative` compares two resolved paths byte by byte, remembers the last separator
that they share, and goes up once for each segment of the first path behind it. The
loops are the same in both conventions, up to the separator and to the bytes at the
start that are left out.

## Proof strategy

The names that the paths share make a common text, `leadingText`. Behind it the
paths part inside of a name (`parting_join`), so that the last common separator is
the one at the end of the common text.
-/
namespace EvoRuntime.Path

open Lua Library

/-- The comparison loop from `l` on: the last value of `i` and `lastCommonSep`. -/
def comparePaths (separator : UInt8) (from_ to_ : LuaString) (fromStart toStart : Nat) :
    (remaining l i : Nat) → (lastCommonSep : Int) → Nat × Int
  | 0, _, i, lastCommonSep => (i, lastCommonSep)
  | remaining + 1, l, _, lastCommonSep =>
    let fromCode := stringPrototypeCharCodeAt from_ (fromStart + l : Nat)
    if fromCode ≠ stringPrototypeCharCodeAt to_ (toStart + l : Nat) then (l, lastCommonSep)
    else comparePaths separator from_ to_ fromStart toStart remaining (l + 1) l
      (if fromCode = some separator then l else lastCommonSep)

/-- One `..` for each segment that ends at `start` or later, up to `stop`. -/
def climbOut (separator : UInt8) (from_ : LuaString) (start stop : Nat) : LuaString :=
  (List.range' start (stop + 1 - start)).foldl (fun out index =>
    if index = stop ∨ stringPrototypeCharCodeAt from_ index = some separator then
      out ++ if out.length = 0 then ascii ".." else separator :: ascii ".."
    else out) []

/-! ## The comparison -/

/-- The last separator in a stretch that starts at `l`, or the one found before. -/
def lastSeparatorIn (separator : UInt8) : (l : Nat) → LuaString → Int → Int
  | _, [], found => found
  | l, c :: rest, found =>
    lastSeparatorIn separator (l + 1) rest (if c = separator then l else found)

variable {separator : UInt8}

theorem lastSeparatorIn_append (l : Nat) (front back : LuaString) (found : Int) :
    lastSeparatorIn separator l (front ++ back) found =
      lastSeparatorIn separator (l + front.length) back (lastSeparatorIn separator l front found) := by
  induction front generalizing l found with
  | nil => rfl
  | cons c rest ih =>
    rw [List.cons_append, lastSeparatorIn, ih, lastSeparatorIn, List.length_cons]
    congr 1
    omega

theorem lastSeparatorIn_clean (l : Nat) (text : LuaString) (found : Int)
    (clean : separator ∉ text) : lastSeparatorIn separator l text found = found := by
  induction text generalizing l with
  | nil => rfl
  | cons c rest ih =>
    simp only [List.mem_cons, not_or] at clean
    rw [lastSeparatorIn, if_neg (Ne.symm clean.1), ih _ clean.2]

section Comparison

variable {from_ to_ a b : LuaString} {fromStart toStart : Nat}

/-- The loop passes over a common stretch. -/
theorem comparePaths_common (stretch : LuaString) (remaining l i : Nat) (found : Int)
    (left : from_.drop (fromStart + l) = stretch ++ a)
    (right : to_.drop (toStart + l) = stretch ++ b) :
    comparePaths separator from_ to_ fromStart toStart (stretch.length + remaining) l i found =
      comparePaths separator from_ to_ fromStart toStart remaining (l + stretch.length)
        (if stretch = [] then i else l + stretch.length - 1)
        (lastSeparatorIn separator l stretch found) := by
  induction stretch generalizing l i found with
  | nil => simp [lastSeparatorIn]
  | cons c rest ih =>
    have fromCode : stringPrototypeCharCodeAt from_ (fromStart + l : Nat) = some c := by
      rw [charCodeAt_eq, ← List.head?_drop, left]
      rfl
    have toCode : stringPrototypeCharCodeAt to_ (toStart + l : Nat) = some c := by
      rw [charCodeAt_eq, ← List.head?_drop, right]
      rfl
    -- Both texts move on by the common byte.
    have advance (start : Nat) (text tail : LuaString) (shape : text.drop (start + l) = c :: rest ++ tail) :
        text.drop (start + (l + 1)) = rest ++ tail := by
      rw [← Nat.add_assoc, ← List.drop_drop, shape]
      rfl
    have count : (c :: rest).length + remaining = (rest.length + remaining) + 1 := by
      rw [List.length_cons]
      omega
    rw [count, comparePaths, fromCode, toCode, if_neg (by simp),
      ih (l + 1) l _ (advance _ _ _ left) (advance _ _ _ right)]
    simp only [lastSeparatorIn, Option.some.injEq, List.length_cons, if_neg (List.cons_ne_nil _ _)]
    have index : l + 1 + rest.length = l + (rest.length + 1) := by omega
    rw [index]
    cases rest with
    | nil => simp
    | cons d rest => simp

/-- It stops where the texts differ. -/
theorem comparePaths_stretch (stretch : LuaString) (remaining : Nat)
    (left : from_.drop fromStart = stretch ++ a) (right : to_.drop toStart = stretch ++ b)
    (differ : a.head? ≠ b.head?) (enough : stretch.length < remaining) :
    comparePaths separator from_ to_ fromStart toStart remaining 0 0 (-1) =
      (stretch.length, lastSeparatorIn separator 0 stretch (-1)) := by
  obtain ⟨more, rfl⟩ : ∃ more, remaining = stretch.length + (more + 1) :=
    ⟨remaining - stretch.length - 1, by omega⟩
  have behind (start : Nat) (text tail : LuaString) (shape : text.drop start = stretch ++ tail) :
      stringPrototypeCharCodeAt text (start + stretch.length : Nat) = tail.head? := by
    rw [charCodeAt_eq, ← List.head?_drop, ← List.drop_drop, shape, List.drop_left]
  rw [comparePaths_common stretch _ 0 0 (-1) left right, comparePaths, Nat.zero_add,
    behind _ _ _ left, behind _ _ _ right, if_pos differ]

/-- Over a stretch that is common to its end, the loop runs to the end. -/
theorem comparePaths_whole (stretch : LuaString) (nonempty : stretch ≠ [])
    (left : from_.drop fromStart = stretch ++ a) (right : to_.drop toStart = stretch ++ b) :
    comparePaths separator from_ to_ fromStart toStart stretch.length 0 0 (-1) =
      (stretch.length - 1, lastSeparatorIn separator 0 stretch (-1)) := by
  have run : comparePaths separator from_ to_ fromStart toStart (stretch.length + 0) 0 0 (-1) = _ :=
    comparePaths_common stretch 0 0 0 (-1) left right
  rw [Nat.add_zero, comparePaths, if_neg nonempty, Nat.zero_add] at run
  exact run

end Comparison

/-! ## Climbing -/

theorem join_replicate_up (f : Separators) (n : Nat) :
    f.join (List.replicate (n + 1) segmentReading.up) =
      f.join (List.replicate n segmentReading.up) ++
        if (f.join (List.replicate n segmentReading.up)).length = 0 then ascii ".."
        else f.separator :: ascii ".." := by
  cases n with
  | zero => rfl
  | succ n =>
    have nonempty : List.replicate (n + 1) segmentReading.up ≠ [] := by simp
    have long : (f.join (List.replicate (n + 1) segmentReading.up)).length ≠ 0 := by
      rw [Ne, List.length_eq_zero_iff, Separators.join, join_eq_nil_iff]
      · exact nonempty
      · intro s member
        rw [List.eq_of_mem_replicate member]
        decide
    rw [if_neg long, Separators.join, List.replicate_succ' (n := n + 1), join_concat nonempty]
    rfl

theorem climbOut_from (f : Separators) (from_ text : LuaString) (start n : Nat)
    (rest : from_.drop start = text) (inside : start ≤ from_.length) :
    (List.range' start (from_.length + 1 - start)).foldl (fun out index =>
      if index = from_.length ∨ stringPrototypeCharCodeAt from_ index = some f.separator then
        out ++ if out.length = 0 then ascii ".." else f.separator :: ascii ".."
      else out) (f.join (List.replicate n segmentReading.up)) =
      f.join (List.replicate (n + text.count f.separator + 1) segmentReading.up) := by
  induction text generalizing start n with
  | nil =>
    have last : start = from_.length := by
      have short := List.drop_eq_nil_iff.mp rest
      omega
    -- The last round stands at the end of the path and adds a `..` in any case.
    have once : from_.length + 1 - start = 1 := by omega
    rw [once, List.range'_one, List.foldl_cons, List.foldl_nil, if_pos (Or.inl last)]
    exact (join_replicate_up f n).symm
  | cons c text ih =>
    have code : stringPrototypeCharCodeAt from_ start = some c := by
      rw [charCodeAt_eq, ← List.head?_drop, rest]
      rfl
    have below : start < from_.length := by
      rw [charCodeAt_eq] at code
      exact (List.getElem?_eq_some_iff.mp code).1
    have count : from_.length + 1 - start = (from_.length + 1 - (start + 1)) + 1 := by omega
    have next : from_.drop (start + 1) = text := by
      rw [← List.drop_drop, rest]
      rfl
    rw [count, List.range'_succ, List.foldl_cons, code]
    -- Each separator on the way ends a segment.
    by_cases separates : c = f.separator
    · rw [if_pos (Or.inr (by rw [separates])), ← join_replicate_up, ih _ _ next (by omega),
        separates, List.count_cons_self]
      congr 2
      omega
    · have neither : ¬(start = from_.length ∨ some c = some f.separator) := by
        simp only [Option.some.injEq, separates, or_false]
        omega
      rw [if_neg neither, ih _ _ next (by omega), List.count_cons_of_ne separates]

theorem climbOut_eq (f : Separators) (from_ text : LuaString) (start : Nat)
    (rest : from_.drop start = text) (inside : start ≤ from_.length) :
    climbOut f.separator from_ start from_.length =
      f.join (List.replicate (text.count f.separator + 1) segmentReading.up) := by
  have run := climbOut_from f from_ text start 0 rest inside
  rw [Nat.zero_add] at run
  exact run

/-! ## Texts of names -/

section Names

variable {f : Separators}

/-- The text of shared names, each with the separator that follows it. -/
def leadingText (f : Separators) (shared : List LuaString) : LuaString :=
  shared.flatMap (· ++ [f.separator])

theorem join_leadingText (shared : List LuaString) {names : List LuaString} (more : names ≠ []) :
    f.join (shared ++ names) = leadingText f shared ++ f.join names := by
  induction shared with
  | nil => rfl
  | cons s rest ih =>
    rw [List.cons_append, Separators.join, join_cons s (by simp [more]), leadingText,
      List.flatMap_cons, List.append_assoc, List.append_assoc]
    exact congrArg (s ++ f.separator :: ·) ih

theorem leadingText_concat (below : List LuaString) (top : LuaString) :
    leadingText f (below ++ [top]) = leadingText f below ++ top ++ [f.separator] := by
  simp [leadingText]

theorem leadingText_eq {names : List LuaString} (nonempty : names ≠ []) :
    leadingText f names = f.join names ++ [f.separator] := by
  rcases List.eq_nil_or_concat' names with rfl | ⟨below, top, rfl⟩
  · exact absurd rfl nonempty
  · rw [leadingText_concat, join_leadingText below (List.cons_ne_nil _ _), Separators.join,
      List.intercalate_singleton]

theorem lastSeparatorIn_leadingText (f : Separators) (shared : List LuaString) :
    lastSeparatorIn f.separator 0 (leadingText f shared) (-1) =
      ((leadingText f shared).length : Int) - 1 := by
  rcases List.eq_nil_or_concat' shared with rfl | ⟨below, top, rfl⟩
  · rfl
  · rw [leadingText_concat, lastSeparatorIn_append]
    simp [lastSeparatorIn]
    omega

theorem Separators.Clean.right {shared names : List LuaString} (clean : f.Clean (shared ++ names)) :
    f.Clean names :=
  fun s member => clean s (List.mem_append_right _ member)

/-- A joined text goes on with a separator behind its first name. -/
theorem join_name_append (name : LuaString) (names : List LuaString) :
    ∃ rest, f.join (name :: names) = name ++ rest ∧ ∀ c, rest.head? = some c → c = f.separator := by
  cases names with
  | nil => exact ⟨[], by simp [Separators.join], by simp⟩
  | cons next others =>
    refine ⟨f.separator :: f.join (next :: others), ?_, ?_⟩
    · exact join_cons name (List.cons_ne_nil _ _)
    · intro c head
      exact (Option.some.inj head).symm

/-- One side of `parting_join`: where the other name ends, this one goes on. -/
theorem parting_goes_on {name rest : LuaString} {q : LuaString} (nonempty : q ≠ [])
    (clean : f.separator ∉ q ++ name) (longer : name ≠ []) :
    (name ++ rest).head? ≠ some f.separator ∧ q ≠ [] := by
  refine ⟨?_, nonempty⟩
  rw [List.head?_append_of_ne_nil name longer]
  intro separates
  exact clean (List.mem_append_right _ (List.mem_of_head? separates))

/-- The texts of two lists of names that differ in the first one part inside of it:
the text they share has no separator, and where one of them ends there the other one
goes on with a byte of that name. -/
theorem parting_join {x y : LuaString} {xs ys : List LuaString} (left : f.Clean (x :: xs))
    (right : f.Clean (y :: ys)) (differ : x ≠ y) :
    ∃ q a b, f.join (x :: xs) = q ++ a ∧ f.join (y :: ys) = q ++ b ∧
      a.head? ≠ b.head? ∧ f.separator ∉ q ∧
      (a = [] → b.head? ≠ some f.separator ∧ q ≠ []) ∧
      (b = [] → a.head? ≠ some f.separator ∧ q ≠ []) := by
  obtain ⟨xKept, xClean⟩ := left x List.mem_cons_self
  obtain ⟨yKept, yClean⟩ := right y List.mem_cons_self
  obtain ⟨xRest, xText, xSeparator⟩ := join_name_append (f := f) x xs
  obtain ⟨yRest, yText, ySeparator⟩ := join_name_append (f := f) y ys
  -- The two names share the bytes `q`, which may be all of one of them.
  obtain ⟨q, x', y', rfl, rfl, -, apart⟩ := exists_parting x y
  refine ⟨q, x' ++ xRest, y' ++ yRest, by rw [xText, List.append_assoc],
    by rw [yText, List.append_assoc], ?_, fun member => xClean (List.mem_append_left _ member),
    ?_, ?_⟩
  · cases x' with
    | nil =>
      cases y' with
      | nil => exact absurd rfl differ
      | cons c rest =>
        intro same
        have separates := xSeparator c (by simpa using same)
        -- A name would contain a separator.
        exact yClean (by rw [separates]; simp)
    | cons d others =>
      cases y' with
      | nil =>
        intro same
        have separates := ySeparator d (by simpa using same.symm)
        exact xClean (by rw [separates]; simp)
      | cons c rest =>
        intro same
        exact apart d c rfl rfl (by simpa using same)
  · intro empty
    obtain ⟨rfl, rfl⟩ := List.append_eq_nil_iff.mp empty
    have nonempty : q ≠ [] := by simpa using ne_nil_of_kept xKept
    apply parting_goes_on nonempty yClean
    rintro rfl
    exact differ rfl
  · intro empty
    obtain ⟨rfl, rfl⟩ := List.append_eq_nil_iff.mp empty
    have nonempty : q ≠ [] := by simpa using ne_nil_of_kept yKept
    apply parting_goes_on nonempty xClean
    rintro rfl
    exact differ rfl

end Names

end EvoRuntime.Path
