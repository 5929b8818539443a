import EvoRuntime.Testing.BlockRuns
import Mathlib.Tactic.Ring

/-!
# Hooks and their blocks

The hooks of a block belong to the tests of that block. `describe` keeps them apart by
exchanging the global lists of hooks; nothing does this for files.

## Main result

`hooks_scoped_iff`: every test is run once, in order, and between the hooks of its own
block, if and only if no test that breaks off the run comes before another one, and no file
with hooks comes before a file with tests outside of its sections.

## Proof strategy

The tests in the log are those up to the first one that breaks off the run, so all of them
are there only if none of them is cut off. Then the log and the expected one differ only in
the hooks that earlier files have left behind, and their lengths tell whether there are any.
-/
namespace EvoRuntime.Testing

open Lua

/-! ## What should be run -/

/-- The log that a block should write, after these hooks have been registered in it. -/
def Block.expected (befores afters : List Hook) : Block → List Event
  | .done | .raise _ => []
  | .describe _ body rest => body.expected [] [] ++ rest.expected befores afters
  | .it _ test rest => around befores test afters ++ rest.expected befores afters
  | .before hook rest => rest.expected (befores ++ [hook]) afters
  | .after hook rest => rest.expected befores (afters ++ [hook])

/-- The tests that are not in a section of the block. -/
def Block.ownTests : Block → List Test
  | .done | .raise _ => []
  | .it _ test rest => test :: rest.ownTests
  | .describe _ _ rest | .before _ rest | .after _ rest => rest.ownTests

/-- The hooks that the block leaves behind in a file. -/
def Block.hooks (block : Block) : List Hook := block.befores ++ block.afters

variable (host : Surroundings)

/-- Only the last test may break off the run. -/
def Unbroken (tests : List Test) : Prop :=
  tests.Pairwise fun earlier _ => earlier.breaks host = false

/-- A file with hooks comes before files without tests of their own only. -/
def Contained (blocks : List Block) : Prop :=
  blocks.Pairwise fun earlier later => earlier.hooks = [] ∨ later.ownTests = []

/-! ## The tests that are run -/

/-- The tests up to the first one that breaks off the run. -/
def untilBroken : List Test → List Test
  | [] => []
  | test :: rest => test :: if test.breaks host then [] else untilBroken rest

def Event.test? : Event → Option Test
  | .test t => some t
  | .before _ | .after _ => none

variable {host} {befores afters : List Hook} {block : Block} {blocks : List Block}

theorem untilBroken_append (first rest : List Test) :
    untilBroken host (first ++ rest) = untilBroken host first ++
      if first.any (·.breaks host) then [] else untilBroken host rest := by
  induction first with
  | nil => rfl
  | cons test others ih =>
    rw [List.cons_append, untilBroken, untilBroken, List.any_cons]
    cases test.breaks host with
    | true => rfl
    | false =>
      rw [if_neg Bool.false_ne_true, if_neg Bool.false_ne_true, Bool.false_or, ih]
      rfl

/-- Nothing is cut off only if no test breaks off the run before another one. -/
theorem unbroken_of_untilBroken {tests : List Test} (all : untilBroken host tests = tests) :
    Unbroken host tests := by
  induction tests with
  | nil => exact .nil
  | cons test rest ih =>
    have all : (if test.breaks host then [] else untilBroken host rest) = rest :=
      (List.cons.inj all).2
    cases breaks : test.breaks host with
    | true =>
      rw [breaks, if_pos rfl] at all
      rw [← all]
      exact List.pairwise_singleton _ _
    | false =>
      rw [breaks, if_neg Bool.false_ne_true] at all
      exact .cons (fun _ _ => breaks) (ih all)

/-- Between tests there are only hooks. -/
theorem tests_around (test : Test) : (around befores test afters).filterMap Event.test? = [test] := by
  have hooks (hooks : List Hook) (event : Hook → Event) (quiet : ∀ hook, (event hook).test? = none) :
      (hooks.map event).filterMap Event.test? = [] := by
    rw [List.filterMap_map, List.filterMap_eq_nil_iff]
    exact fun hook _ => quiet hook
  rw [around, List.filterMap_append, hooks befores .before fun _ => rfl, List.nil_append,
    List.filterMap_cons_some (show (Event.test test).test? = some test from rfl),
    hooks afters .after fun _ => rfl]

theorem tests_entries : (block.entries host befores afters).filterMap Event.test? =
    untilBroken host block.tests := by
  induction block generalizing befores afters with
  | done | raise e => rfl
  | before hook rest ih | after hook rest ih => exact ih
  | it label test rest ih =>
    rw [Block.entries, List.filterMap_append, tests_around, Block.tests, untilBroken]
    cases test.breaks host with
    | true => rfl
    | false => exact congrArg (test :: ·) ih
  | describe label body rest bodyRan restRan =>
    rw [Block.entries, List.filterMap_append, bodyRan, Block.tests, untilBroken_append, Block.breaks]
    cases body.tests.any (·.breaks host) with
    | true => rfl
    | false => exact congrArg (untilBroken host body.tests ++ ·) restRan

theorem tests_filesEntries : (filesEntries host befores afters blocks).filterMap Event.test? =
    untilBroken host (blocks.flatMap Block.tests) := by
  induction blocks generalizing befores afters with
  | nil => rfl
  | cons block rest ih =>
    rw [filesEntries, List.filterMap_append, tests_entries, List.flatMap_cons, untilBroken_append,
      Block.breaks]
    cases block.tests.any (·.breaks host) with
    | true => rfl
    | false => exact congrArg (untilBroken host block.tests ++ ·) ih

theorem tests_expected : (block.expected befores afters).filterMap Event.test? = block.tests := by
  induction block generalizing befores afters with
  | done | raise e => rfl
  | before hook rest ih | after hook rest ih => exact ih
  | it label test rest ih =>
    rw [Block.expected, List.filterMap_append, tests_around, ih]
    rfl
  | describe label body rest bodyRan restRan =>
    rw [Block.expected, List.filterMap_append, bodyRan, restRan]
    rfl

theorem tests_flatMap_expected :
    (blocks.flatMap (·.expected [] [])).filterMap Event.test? = blocks.flatMap Block.tests := by
  rw [List.filterMap_flatMap]
  exact List.flatMap_congr fun _ _ => tests_expected

/-! ## The hooks that are run -/

/-- The log of a run that is not broken off. -/
def whole (befores afters : List Hook) : List Block → List Event
  | [] => []
  | block :: rest =>
    block.expected befores afters ++ whole (befores ++ block.befores) (afters ++ block.afters) rest

theorem expected_of_tests (none : block.tests = []) : block.expected befores afters = [] := by
  induction block generalizing befores afters with
  | done | raise e => rfl
  | before hook rest ih | after hook rest ih => exact ih none
  | it label test rest ih => exact absurd none (List.cons_ne_nil _ _)
  | describe label body rest bodyEmpty restEmpty =>
    obtain ⟨inner, outer⟩ := List.append_eq_nil_iff.mp none
    rw [Block.expected, bodyEmpty inner, restEmpty outer]
    rfl

theorem whole_of_tests (none : blocks.flatMap Block.tests = []) : whole befores afters blocks = [] := by
  induction blocks generalizing befores afters with
  | nil => rfl
  | cons block rest ih =>
    rw [List.flatMap_cons] at none
    obtain ⟨first, others⟩ := List.append_eq_nil_iff.mp none
    rw [whole, expected_of_tests first, ih others]
    rfl

/-- Either the first tests do not break off the run or there are no others. -/
theorem Unbroken.split {first rest : List Test} (unbroken : Unbroken host (first ++ rest)) :
    first.any (·.breaks host) = false ∨ rest = [] := by
  obtain ⟨-, -, across⟩ := List.pairwise_append.mp unbroken
  cases rest with
  | nil => exact .inr rfl
  | cons next others =>
    left
    rw [List.any_eq_false]
    intro test member
    rw [across test member next List.mem_cons_self]
    exact Bool.false_ne_true

theorem cut_eq {broken : Bool} {log : List Event} (kept : broken = false ∨ log = []) :
    (if broken then [] else log) = log := by
  obtain rfl | rfl := kept
  · exact if_neg Bool.false_ne_true
  · exact ite_self _

theorem entries_of_unbroken (unbroken : Unbroken host block.tests) :
    block.entries host befores afters = block.expected befores afters := by
  induction block generalizing befores afters with
  | done | raise e => rfl
  | before hook rest ih | after hook rest ih => exact ih unbroken
  | it label test rest ih =>
    have split : [test].any (·.breaks host) = false ∨ rest.tests = [] := unbroken.split
    rw [List.any_cons, List.any_nil, Bool.or_false] at split
    rw [Block.entries, Block.expected, ih (List.Pairwise.of_cons unbroken),
      cut_eq (split.imp_right expected_of_tests)]
  | describe label body rest bodyWhole restWhole =>
    obtain ⟨inner, outer, -⟩ := List.pairwise_append.mp unbroken
    have split : body.breaks host = false ∨ rest.tests = [] := unbroken.split
    rw [Block.entries, Block.expected, bodyWhole inner, restWhole outer,
      cut_eq (split.imp_right expected_of_tests)]

theorem filesEntries_of_unbroken (unbroken : Unbroken host (blocks.flatMap Block.tests)) :
    filesEntries host befores afters blocks = whole befores afters blocks := by
  induction blocks generalizing befores afters with
  | nil => rfl
  | cons block rest ih =>
    rw [List.flatMap_cons] at unbroken
    obtain ⟨first, others, -⟩ := List.pairwise_append.mp unbroken
    have split : block.breaks host = false ∨ rest.flatMap Block.tests = [] := unbroken.split
    rw [filesEntries, whole, entries_of_unbroken first, ih others,
      cut_eq (split.imp_right whole_of_tests)]

theorem length_around (test : Test) :
    (around befores test afters).length = (befores ++ afters).length + 1 := by
  simp only [around, List.length_append, List.length_map, List.length_cons]
  omega

/-- Each test of the block itself is run between the hooks that it begins with. -/
theorem length_expected : (block.expected befores afters).length =
    (block.expected [] []).length + (befores ++ afters).length * block.ownTests.length := by
  induction block generalizing befores afters with
  | done | raise e => simp [Block.expected, Block.ownTests]
  | before hook rest ih =>
    have empty : (rest.expected ([] ++ [hook]) []).length = _ := ih
    rw [Block.expected, Block.expected, ih, empty]
    simp only [Block.ownTests, List.length_append, List.length_cons, List.length_nil]
    ring
  | after hook rest ih =>
    have empty : (rest.expected [] ([] ++ [hook])).length = _ := ih
    rw [Block.expected, Block.expected, ih, empty]
    simp only [Block.ownTests, List.length_append, List.length_cons, List.length_nil]
    ring
  | it label test rest ih =>
    rw [Block.expected, Block.expected, List.length_append, List.length_append, length_around,
      length_around, ih]
    simp only [Block.ownTests, List.length_append, List.length_cons, List.length_nil]
    ring
  | describe label body rest _ ih =>
    rw [Block.expected, Block.expected, List.length_append, List.length_append, ih]
    simp only [Block.ownTests]
    ring

/-- Without hooks to begin with, or without tests of its own, a block has the expected log. -/
theorem expected_eq (apart : befores ++ afters = [] ∨ block.ownTests = []) :
    block.expected befores afters = block.expected [] [] := by
  obtain none | none := apart
  · obtain ⟨rfl, rfl⟩ := List.append_eq_nil_iff.mp none
    rfl
  · have same (befores' afters' : List Hook) :
        block.expected befores afters = block.expected befores' afters' := by
      induction block generalizing befores afters befores' afters' with
      | done | raise e => rfl
      | before hook rest ih | after hook rest ih => exact ih none _ _
      | it label test rest ih => exact absurd none (List.cons_ne_nil _ _)
      | describe label body rest _ ih => exact congrArg (body.expected [] [] ++ ·) (ih none _ _)
    exact same [] []

theorem expected_eq_iff : block.expected befores afters = block.expected [] [] ↔
    befores ++ afters = [] ∨ block.ownTests = [] := by
  constructor
  · intro same
    have lengths := congrArg List.length same
    rw [length_expected] at lengths
    -- Every own test would have the additional hooks around it.
    have none : (befores ++ afters).length * block.ownTests.length = 0 := by omega
    exact (Nat.mul_eq_zero.mp none).imp List.eq_nil_of_length_eq_zero List.eq_nil_of_length_eq_zero
  · exact expected_eq

theorem expected_le :
    (block.expected [] []).length ≤ (block.expected befores afters).length := by
  have longer : (block.expected befores afters).length = _ := length_expected
  rw [longer]
  exact Nat.le_add_right _ _

theorem length_whole :
    (blocks.flatMap (·.expected [] [])).length ≤ (whole befores afters blocks).length := by
  induction blocks generalizing befores afters with
  | nil => exact Nat.le_refl 0
  | cons block rest ih =>
    rw [List.flatMap_cons, whole, List.length_append, List.length_append]
    exact Nat.add_le_add expected_le ih

/-- The logs agree only if they agree file by file, since no file can be shorter. -/
theorem whole_cons_iff {rest : List Block} :
    whole befores afters (block :: rest) = (block :: rest).flatMap (·.expected [] []) ↔
      block.expected befores afters = block.expected [] [] ∧
        whole (befores ++ block.befores) (afters ++ block.afters) rest =
          rest.flatMap (·.expected [] []) := by
  rw [List.flatMap_cons, whole]
  constructor
  · intro same
    have lengths := congrArg List.length same
    rw [List.length_append, List.length_append] at lengths
    have first : (block.expected [] []).length ≤ (block.expected befores afters).length := expected_le
    have others : (rest.flatMap (·.expected [] [])).length ≤
        (whole (befores ++ block.befores) (afters ++ block.afters) rest).length := length_whole
    exact List.append_inj same (by omega)
  · rintro ⟨first, others⟩
    rw [first, others]

theorem whole_eq_iff : whole befores afters blocks = blocks.flatMap (·.expected [] []) ↔
    (befores ++ afters = [] ∨ ∀ block ∈ blocks, block.ownTests = []) ∧ Contained blocks := by
  induction blocks generalizing befores afters with
  | nil =>
    constructor
    · exact fun _ => ⟨.inr fun block none => absurd none List.not_mem_nil, .nil⟩
    · exact fun _ => rfl
  | cons block rest ih =>
    have empty : (befores ++ block.befores) ++ (afters ++ block.afters) = [] ↔
        befores ++ afters = [] ∧ block.hooks = [] := by
      simp only [Block.hooks, List.append_eq_nil_iff]
      exact and_and_and_comm
    have contained : Contained (block :: rest) ↔
        (∀ later ∈ rest, block.hooks = [] ∨ later.ownTests = []) ∧ Contained rest :=
      List.pairwise_cons
    have each : (∀ later ∈ rest, block.hooks = [] ∨ later.ownTests = []) ↔
        block.hooks = [] ∨ ∀ later ∈ rest, later.ownTests = [] := by
      by_cases none : block.hooks = [] <;> simp [none]
    rw [whole_cons_iff, expected_eq_iff, ih, empty, contained, each, List.forall_mem_cons]
    constructor
    · rintro ⟨first, ⟨none, hooks⟩ | others, later⟩
      · exact ⟨.inl none, .inl hooks, later⟩
      · exact ⟨first.imp_right fun own => ⟨own, others⟩, .inr others, later⟩
    · rintro ⟨none | ⟨own, others⟩, apart, later⟩
      · exact ⟨.inl none, apart.imp_left fun hooks => ⟨none, hooks⟩, later⟩
      · exact ⟨.inr own, .inr others, later⟩

/-! ## Every run -/

/-- The log of a run is the expected one unless a test is cut off or a hook is left behind. -/
theorem hooks_scoped_iff {files : List SpecFile} (calm : ∀ file ∈ files, file.Calm) :
    ((startTestRunner host files).outcome {}).2.log =
        files.flatMap (·.block.expected [] []) ↔
      Unbroken host (files.flatMap (·.block.tests)) ∧ Contained (files.map SpecFile.block) := by
  have blocks {β : Type} (f : Block → List β) :
      files.flatMap (fun file => f file.block) = (files.map SpecFile.block).flatMap f := by
    rw [List.flatMap_map]
  rw [startTestRunner_log calm, blocks, blocks]
  constructor
  · intro same
    -- The tests of the log show first that the run has not been broken off.
    have tests := congrArg (List.filterMap Event.test?) same
    rw [tests_filesEntries, tests_flatMap_expected] at tests
    have unbroken : Unbroken host _ := unbroken_of_untilBroken tests
    rw [filesEntries_of_unbroken unbroken, whole_eq_iff] at same
    exact ⟨unbroken, same.2⟩
  · rintro ⟨unbroken, contained⟩
    rw [filesEntries_of_unbroken unbroken]
    exact whole_eq_iff.mpr ⟨.inl rfl, contained⟩

/-- Standard output without colours, and errors as they are. -/
def plainHost : Surroundings where
  ENABLE_TEXT_TRANSFORMATIONS := false
  startTime := 0
  endTime := 0
  traceback := id
  tostring
    | .string s => some s
    | .other v => some (decimal v)
  getHumanReadableTime := decimal

theorem hooks_scoped_iff_sections : ((startTestRunner plainHost
      [⟨ascii "a.lua", none, .ok (.describe (ascii "a") (.before ⟨1, none⟩
        (.it (ascii "first") ⟨2, none⟩ (.after ⟨3, none⟩
        (.it (ascii "second") ⟨4, some (.string (ascii "no"))⟩ .done)))) .done)⟩,
      ⟨ascii "b.lua", none, .ok (.it (ascii "third") ⟨5, none⟩ .done)⟩]).outcome {}).2.log =
    [.before ⟨1, none⟩, .test ⟨2, none⟩,
      .before ⟨1, none⟩, .test ⟨4, some (.string (ascii "no"))⟩, .after ⟨3, none⟩,
      .test ⟨5, none⟩] := by
  apply (hooks_scoped_iff ?_).mpr
  · constructor
    · unfold Unbroken
      decide
    · unfold Contained
      decide
  · rintro file member
    obtain rfl | rfl := List.mem_pair.mp member
    · exact ⟨(Option.some_ne_none _).symm, rfl, ⟨rfl, rfl, trivial⟩, trivial⟩
    · exact ⟨(Option.some_ne_none _).symm, rfl, trivial⟩

/-- The first file has a hook of its own, and the second one a test of its own. -/
def leakingFiles : List SpecFile :=
  [⟨ascii "a.lua", none, .ok (.before ⟨1, none⟩ (.it (ascii "first") ⟨2, none⟩ .done))⟩,
    ⟨ascii "b.lua", none, .ok (.it (ascii "second") ⟨3, none⟩ .done)⟩]

/-- The first of two tests raises an empty string. -/
def brokenFiles : List SpecFile :=
  [⟨ascii "c.lua", none, .ok (.it (ascii "first") ⟨1, some (.string [])⟩
    (.it (ascii "second") ⟨2, none⟩ .done))⟩]

/-- The hook of the first file is run for the test of the second one, and the test behind the
empty error is not run at all. -/
theorem hooks_leak :
    (((startTestRunner plainHost leakingFiles).outcome {}).2.log =
        [.before ⟨1, none⟩, .test ⟨2, none⟩, .before ⟨1, none⟩, .test ⟨3, none⟩] ∧
      leakingFiles.flatMap (·.block.expected [] []) =
        [.before ⟨1, none⟩, .test ⟨2, none⟩, .test ⟨3, none⟩]) ∧
    ((startTestRunner plainHost brokenFiles).outcome {}).2.log = [.test ⟨1, some (.string [])⟩] ∧
      brokenFiles.flatMap (·.block.expected [] []) =
        [.test ⟨1, some (.string [])⟩, .test ⟨2, none⟩] := by
  decide

end EvoRuntime.Testing
