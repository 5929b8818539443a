import EvoRuntime.Path.Win32

/-!
# `path.win32.join`

Two separators at the beginning of a path name a server. `join_unc`: the result of
`join` begins with two separators only if the first argument that is not empty names
a server, with exactly two separators in front of the name.

## Proof strategy

`normalize` never adds a separator in front of another one (`normalize_two`), and
`join` collapses the separators in front of every other joined text
(`collapse_not_two`).
-/
namespace EvoRuntime.Path.Win32

open Lua Library

/-- The locals `joined` and `firstPart` of the loop over the arguments. -/
structure Joined where
  joined : LuaString
  firstPart : LuaString

def joinArgs (args : List LuaString) : Option Joined :=
  args.foldl (fun locals arg =>
    if arg.length > 0 then
      match locals with
      | none => some ⟨arg, arg⟩
      | some locals => some { locals with joined := locals.joined ++ ascii "\\" ++ arg }
    else locals) none

/-- The locals `needsReplace` and `slashCount` after the first argument was looked at. -/
def leadingSlashes (firstPart : LuaString) : Bool × Nat :=
  let firstLen := firstPart.length
  if (stringPrototypeCharCodeAt firstPart 0).any isPathSeparator then
    if firstLen > 1 ∧ (stringPrototypeCharCodeAt firstPart 1).any isPathSeparator then
      if firstLen > 2 then
        if (stringPrototypeCharCodeAt firstPart 2).any isPathSeparator then (true, 3)
        -- The first part is a UNC path.
        else (false, 2)
      else (true, 2)
    else (true, 1)
  else (true, 0)

/-- Two or more separators in front, of which `slashCount` are known, become one. -/
def collapse (joined : LuaString) (slashCount : Nat) : LuaString :=
  let slashCount := skipWhile isPathSeparator joined (joined.length - slashCount) slashCount
  if slashCount ≥ 2 then ascii "\\" ++ stringPrototypeSlice joined slashCount else joined

def join (args : List LuaString) : LuaString :=
  if args.length = 0 then ascii "."
  else match joinArgs args with
    | none => ascii "."
    | some ⟨joined, firstPart⟩ =>
      let (needsReplace, slashCount) := leadingSlashes firstPart
      normalize (if needsReplace then collapse joined slashCount else joined)

example : join [ascii "//", ascii "/a", ascii "../b"] = ascii "\\b" := by decide

example : join [ascii "//server", ascii "share"] = ascii "\\\\server\\share\\" := by decide

/-! ## Two separators -/

def startsWithTwoSeparators : LuaString → Bool
  | a :: b :: _ => isPathSeparator a && isPathSeparator b
  | _ => false

/-- Exactly two separators and then another character. -/
def startsLikeUnc : LuaString → Bool
  | a :: b :: c :: _ => isPathSeparator a && isPathSeparator b && !isPathSeparator c
  | _ => false

theorem not_two_of_not_separator {path : LuaString} (other : startsWithSeparator path = false) :
    startsWithTwoSeparators path = false := by
  match path with
  | [] => rfl
  | [a] => rfl
  | a :: b :: rest =>
    have first : isPathSeparator a = false := other
    rw [startsWithTwoSeparators, first, Bool.false_and]

theorem not_two_of_single (a : UInt8) {rest : LuaString} (other : startsWithSeparator rest = false) :
    startsWithTwoSeparators (a :: rest) = false := by
  cases rest with
  | nil => rfl
  | cons b rest =>
    have second : isPathSeparator b = false := other
    rw [startsWithTwoSeparators, second, Bool.and_false]

theorem starts_dropWhile (text : LuaString) :
    startsWithSeparator (text.dropWhile isPathSeparator) = false := by
  have stopped := List.head?_dropWhile_not isPathSeparator text
  rw [startsWithSeparator]
  cases head : (text.dropWhile isPathSeparator).head? with
  | none => rfl
  | some c =>
    rw [head] at stopped
    exact stopped

/-- Whatever is known of the separators in front, one of them is left. -/
theorem collapse_not_two (joined : LuaString) (slashCount : Nat) :
    startsWithTwoSeparators (collapse joined slashCount) = false := by
  unfold collapse
  dsimp only
  split
  next =>
    rw [slice_from, skipWhile_drop]
    exact not_two_of_single CHAR_BACKWARD_SLASH (starts_dropWhile _)
  next few =>
    rw [skipWhile_eq] at few
    -- With two separators in front, the loop would have counted both.
    apply eq_false_of_ne_true
    intro two
    match joined with
    | [] => exact Bool.false_ne_true two
    | [a] => exact Bool.false_ne_true two
    | a :: b :: rest =>
      rw [startsWithTwoSeparators, Bool.and_eq_true] at two
      match slashCount with
      | 0 => simp [two.1, two.2] at few
      | 1 =>
        have behind : ((a :: b :: rest).drop 1).takeWhile isPathSeparator =
            b :: rest.takeWhile isPathSeparator := List.takeWhile_cons_of_pos two.2
        rw [behind, List.length_cons] at few
        omega
      | n + 2 => omega

/-! ## `normalize` -/

theorem normalize_not_separator {path : LuaString} (other : startsWithSeparator path = false) :
    startsWithSeparator (normalize path) = false := by
  by_cases drive : startsWithDrive path = true
  · obtain ⟨letter, rest, device, rfl⟩ := exists_drive drive
    obtain ⟨tail, text, -⟩ := normalize_drive device rest
    rw [text]
    exact other
  · by_cases long : 2 ≤ path.length
    · rw [normalize_relative long other (eq_false_of_ne_true drive)]
      exact tailBehind_starts path {}
    · match path with
      | [] => rfl
      | [a] =>
        have first : isPathSeparator a = false := other
        have posix : isPosixPathSeparator a = false := by
          simp only [isPathSeparator, Bool.or_eq_false_iff] at first
          exact first.1
        have kept : normalize [a] = [a] := by simp [normalize, posix]
        rw [kept]
        exact other
      | a :: b :: rest => exact absurd (by simp) long

/-- No second separator comes in front. -/
theorem normalize_not_two {path : LuaString} (one : startsWithTwoSeparators path = false) :
    startsWithTwoSeparators (normalize path) = false := by
  by_cases separator : startsWithSeparator path = true
  · match path with
    | [] => exact absurd separator Bool.false_ne_true
    | [a] =>
      have code : a = CHAR_FORWARD_SLASH ∨ a = CHAR_BACKWARD_SLASH := by
        simpa [startsWithSeparator, isPathSeparator] using separator
      rcases code with rfl | rfl <;> decide
    | a :: b :: rest =>
      have first : isPathSeparator a = true := separator
      have second : isPathSeparator b = false := by
        rwa [startsWithTwoSeparators, first, Bool.true_and] at one
      rw [normalize_long, if_pos first, if_neg (by simp [second])]
      exact not_two_of_single CHAR_BACKWARD_SLASH (tailBehind_starts _ _)
  · exact not_two_of_not_separator (normalize_not_separator (eq_false_of_ne_true separator))

/-! ## `join` -/

theorem joinArgs_first (args : List LuaString) :
    (joinArgs args).map Joined.firstPart = args.find? fun arg => !arg.isEmpty := by
  have later (locals : Joined) (args : List LuaString) :
      (args.foldl (fun locals arg =>
        if arg.length > 0 then
          match locals with
          | none => some ⟨arg, arg⟩
          | some locals => some { locals with joined := locals.joined ++ ascii "\\" ++ arg }
        else locals) (some locals)).map Joined.firstPart = some locals.firstPart := by
    induction args generalizing locals with
    | nil => rfl
    | cons arg rest ih =>
      rw [List.foldl_cons]
      split
      · exact ih _
      · exact ih _
  unfold joinArgs
  induction args with
  | nil => rfl
  | cons arg rest ih =>
    rw [List.foldl_cons]
    cases arg with
    | nil => simpa using ih
    | cons c text => exact later ⟨c :: text, c :: text⟩ rest

/-- The separators are kept in front of a UNC path only. -/
theorem leadingSlashes_kept {firstPart : LuaString} (kept : (leadingSlashes firstPart).1 = false) :
    startsLikeUnc firstPart = true := by
  match firstPart with
  | [] => simp [leadingSlashes] at kept
  | [a] =>
    cases first : isPathSeparator a <;> simp [leadingSlashes, first] at kept
  | [a, b] =>
    cases first : isPathSeparator a <;> cases second : isPathSeparator b <;>
      simp [leadingSlashes, first, second] at kept
  | a :: b :: c :: rest =>
    cases first : isPathSeparator a <;> cases second : isPathSeparator b <;>
      cases third : isPathSeparator c <;>
      simp [leadingSlashes, startsLikeUnc, first, second, third] at kept ⊢

/-- Only an argument that starts like a UNC path can make the result one. -/
theorem join_unc (args : List LuaString) (unc : startsWithTwoSeparators (join args) = true) :
    ∃ first, args.find? (fun arg => !arg.isEmpty) = some first ∧ startsLikeUnc first = true := by
  have dot : startsWithTwoSeparators (ascii ".") = false := by decide
  unfold join at unc
  split at unc
  · exact absurd unc (by rw [dot]; exact Bool.false_ne_true)
  · have found := joinArgs_first args
    cases locals : joinArgs args with
    | none =>
      rw [locals] at unc
      exact absurd unc (by rw [dot]; exact Bool.false_ne_true)
    | some both =>
      rw [locals] at found unc
      refine ⟨both.firstPart, found.symm, leadingSlashes_kept ?_⟩
      -- Otherwise the separators in front have become one.
      apply eq_false_of_ne_true
      intro needsReplace
      have one := normalize_not_two (collapse_not_two both.joined (leadingSlashes both.firstPart).2)
      simp only [needsReplace, if_true] at unc
      rw [one] at unc
      exact Bool.false_ne_true unc

theorem join_unc_server :
    ∃ first, [ascii "", ascii "//server", ascii "share"].find? (fun arg => !arg.isEmpty) = some first ∧
      startsLikeUnc first = true :=
  join_unc [ascii "", ascii "//server", ascii "share"] (by decide)

end EvoRuntime.Path.Win32
