import EvoRuntime.Library.SegmentWalk
import EvoRuntime.Lua.Patterns
import EvoRuntime.Lua.Transform

/-!
# String extensions

`string.diff` compares two texts line by line, and stops behind the first difference.

## Main result

`diff_shows_iff`: the output shows whether there is a difference if and only if neither list
of lines continues the other one. Where the second list ends first, an error is raised, and
where the first one does, no line is marked.

## Proof strategy

Two lists are a common part followed by lists that differ at once (`exists_parting`), and the
loop goes through the common part first (`diffLoop_shared`).
-/
namespace EvoRuntime.Extensions

open Lua Library Pattern

/-! ## Functions -/

def newline : UInt8 := 0x0A

/-- What is found by `[^\n]+`. -/
def lineTokens (s : LuaString) : List LuaString := tokens (· ≠ newline) s

/-- The loop over the lines of the first text that are left, together with those of the second
text at the same place and behind it. -/
def diffLoop (enabled : Bool) : (beforeTokens afterTokens lines : List LuaString) →
    Except LuaError (List LuaString)
  | [], _, lines => .ok lines
  | lineBefore :: moreLines, afterTokens, lines =>
    if some lineBefore ≠ afterTokens.head? then
      match afterTokens.head? with
      | none => .error ⟨"attempt to concatenate local 'lineAfter' (a nil value)"⟩
      | some lineAfter =>
        let lines := lines ++ [transformText enabled (ascii "- " ++ lineBefore) .red,
          transformText enabled (ascii "+ " ++ lineAfter) .green]
        if moreLines ≠ [] then .ok (lines ++ [ascii "  ... (additional lines skipped)"])
        else diffLoop enabled moreLines afterTokens.tail lines
    else diffLoop enabled moreLines afterTokens.tail (lines ++ [ascii "  " ++ lineBefore])

/-- `string.diff`, with or without colours. -/
def diff (enabled : Bool) (before after : LuaString) : Except LuaError LuaString :=
  (diffLoop enabled (lineTokens before) (lineTokens after) []).map [newline].intercalate

/-- `string.explode`; the delimiter is a set of characters, by default that of all blanks. -/
def explode (inputString : LuaString) (delimiter : UInt8 → Bool := isSpace) : List LuaString :=
  tokens (fun c => !delimiter c) inputString

/-! ## Lines -/

variable {enabled : Bool} {before after : LuaString}

def nonEmptyLines (s : LuaString) : List LuaString := (s.splitOn newline).filter (· ≠ [])

theorem lineTokens_eq (s : LuaString) : lineTokens s = nonEmptyLines s := by
  rw [lineTokens, tokens_eq_splitOnP, nonEmptyLines, List.splitOn_eq_splitOnP]
  congr 2
  funext c
  simp [beq_eq_decide]

theorem newline_notMem {s line : LuaString} (member : line ∈ nonEmptyLines s) : newline ∉ line := by
  intro inside
  rw [nonEmptyLines, List.splitOn_eq_splitOnP] at member
  have clean := splitOnP_clean (List.mem_of_mem_filter member) newline inside
  exact absurd clean (by decide)

/-- The line says that something is removed or added. -/
def IsMarked (enabled : Bool) (line : LuaString) : Prop :=
  ∃ text, line = transformText enabled (ascii "- " ++ text) .red ∨
    line = transformText enabled (ascii "+ " ++ text) .green

theorem not_isMarked (text : LuaString) : ¬IsMarked enabled (ascii "  " ++ text) := by
  rintro ⟨other, same | same⟩ <;> cases enabled <;> cases same

theorem newline_transformText {text : LuaString} (clean : newline ∉ text) (color : Color) :
    newline ∉ transformText enabled text color := by
  have code : newline ∉ color.code := by cases color <;> decide
  unfold transformText
  split
  · simp only [List.mem_append, not_or]
    exact ⟨⟨⟨by decide, code⟩, clean⟩, by decide⟩
  · exact clean

/-- The lines of a text that is put together from lines. -/
theorem splitOn_output {lines : List LuaString} (clean : ∀ line ∈ lines, newline ∉ line) :
    ([newline].intercalate lines).splitOn newline = if lines = [] then [[]] else lines := by
  split
  next empty =>
    rw [empty]
    rfl
  next nonempty => exact List.splitOn_intercalate newline clean nonempty

/-! ## The loop -/

/-- The lines of a common part are shown without a mark. -/
def unmarked (shared : List LuaString) : List LuaString := shared.map (ascii "  " ++ ·)

theorem diffLoop_shared (shared before' after' lines : List LuaString) :
    diffLoop enabled (shared ++ before') (shared ++ after') lines =
      diffLoop enabled before' after' (lines ++ unmarked shared) := by
  induction shared generalizing lines with
  | nil => rw [unmarked, List.map_nil, List.append_nil, List.nil_append, List.nil_append]
  | cons line shared ih =>
    rw [List.cons_append, List.cons_append, diffLoop, List.head?_cons, if_neg (not_not.mpr rfl),
      List.tail_cons, ih, List.append_assoc]
    rfl

/-- The lines about the first difference. -/
def difference (enabled : Bool) (lineBefore lineAfter : LuaString) (moreLines : List LuaString) :
    List LuaString :=
  [transformText enabled (ascii "- " ++ lineBefore) .red,
    transformText enabled (ascii "+ " ++ lineAfter) .green] ++
  if moreLines ≠ [] then [ascii "  ... (additional lines skipped)"] else []

theorem diffLoop_difference {lineBefore lineAfter : LuaString} (differ : lineBefore ≠ lineAfter)
    (moreLines afterTokens lines : List LuaString) :
    diffLoop enabled (lineBefore :: moreLines) (lineAfter :: afterTokens) lines =
      .ok (lines ++ difference enabled lineBefore lineAfter moreLines) := by
  have apart : some lineBefore ≠ (lineAfter :: afterTokens).head? :=
    fun same => differ (Option.some.inj same)
  rw [diffLoop, if_pos apart, List.head?_cons, difference]
  dsimp only
  split
  next => rw [List.append_assoc]
  next none =>
    rw [not_not.mp none, diffLoop, List.append_nil]

/-- The output for two lists of lines shows a difference exactly if there is one, and it starts
with the lines in front of that. -/
structure Shows (enabled : Bool) (before after : List LuaString) (output : LuaString) : Prop where
  marks : (∃ line ∈ output.splitOn newline, IsMarked enabled line) ↔ before ≠ after
  shared : unmarked (commonPrefix before after) <+: output.splitOn newline

theorem not_isMarked_nil : ¬IsMarked enabled [] := by
  rintro ⟨other, same | same⟩ <;> cases enabled <;> cases same

theorem newline_unmarked {shared : List LuaString} (clean : ∀ line ∈ shared, newline ∉ line) :
    ∀ line ∈ unmarked shared, newline ∉ line := by
  intro line member inside
  obtain ⟨text, listed, rfl⟩ := List.mem_map.mp member
  rcases List.mem_append.mp inside with inside | inside
  · exact absurd inside (by decide)
  · exact clean text listed inside

/-- Lines without a mark stay without one in the output. -/
theorem not_isMarked_output {shared : List LuaString} (clean : ∀ line ∈ shared, newline ∉ line) :
    ¬∃ line ∈ ([newline].intercalate (unmarked shared)).splitOn newline, IsMarked enabled line := by
  rintro ⟨line, member, marked⟩
  rw [splitOn_output (newline_unmarked clean)] at member
  split at member
  · rw [List.mem_singleton.mp member] at marked
    exact not_isMarked_nil marked
  · obtain ⟨text, -, rfl⟩ := List.mem_map.mp member
    exact not_isMarked text marked

theorem unmarked_prefix_output {shared : List LuaString} (clean : ∀ line ∈ shared, newline ∉ line) :
    unmarked shared <+: ([newline].intercalate (unmarked shared)).splitOn newline := by
  rw [splitOn_output (newline_unmarked clean)]
  split
  next empty => exact empty ▸ List.nil_prefix
  next => exact List.prefix_rfl

/-- The second list goes on where the first one ends. -/
def Continues (shorter longer : List LuaString) : Prop := shorter <+: longer ∧ shorter ≠ longer

theorem continues_iff {shared before' after' : List LuaString}
    (apart : ∀ x y, before'.head? = some x → after'.head? = some y → x ≠ y) :
    Continues (shared ++ before') (shared ++ after') ↔ before' = [] ∧ after' ≠ [] := by
  rw [Continues, List.prefix_append_right_inj, ne_eq, List.append_cancel_left_eq]
  cases before' with
  | nil => simp [eq_comm]
  | cons x before' =>
    refine iff_of_false ?_ fun empty => List.cons_ne_nil _ _ empty.1
    rintro ⟨⟨rest, rfl⟩, -⟩
    exact apart x x rfl rfl rfl

/-! ## The output -/

theorem output_difference {shared : List LuaString} {lineBefore lineAfter : LuaString}
    (clean : ∀ line ∈ shared, newline ∉ line) (cleanBefore : newline ∉ lineBefore)
    (cleanAfter : newline ∉ lineAfter) (moreLines : List LuaString) :
    ([newline].intercalate (unmarked shared ++ difference enabled lineBefore lineAfter moreLines)).splitOn
      newline = unmarked shared ++ difference enabled lineBefore lineAfter moreLines := by
  have marked : ∀ line ∈ difference enabled lineBefore lineAfter moreLines, newline ∉ line := by
    intro line member
    rcases List.mem_append.mp member with member | member
    · rcases List.mem_pair.mp member with rfl | rfl
      · exact newline_transformText (by simpa using ⟨by decide, cleanBefore⟩) _
      · exact newline_transformText (by simpa using ⟨by decide, cleanAfter⟩) _
    · split at member
      · rw [List.mem_singleton.mp member]
        decide
      · cases member
  have nonempty : unmarked shared ++ difference enabled lineBefore lineAfter moreLines ≠ [] :=
    List.append_ne_nil_of_right_ne_nil _ (List.cons_ne_nil _ _)
  rw [splitOn_output, if_neg nonempty]
  intro line member
  rcases List.mem_append.mp member with member | member
  · exact newline_unmarked clean line member
  · exact marked line member

/-- The output shows a difference, and what comes before it, unless one list of lines goes on
where the other one ends. -/
theorem diff_shows_iff (enabled : Bool) (before after : LuaString) :
    (∃ output, diff enabled before after = .ok output ∧
        Shows enabled (nonEmptyLines before) (nonEmptyLines after) output) ↔
      ¬Continues (nonEmptyLines before) (nonEmptyLines after) ∧
        ¬Continues (nonEmptyLines after) (nonEmptyLines before) := by
  have cleanBefore : ∀ line ∈ nonEmptyLines before, newline ∉ line := fun _ => newline_notMem
  have cleanAfter : ∀ line ∈ nonEmptyLines after, newline ∉ line := fun _ => newline_notMem
  rw [diff, lineTokens_eq, lineTokens_eq]
  obtain ⟨shared, before', after', left, right, common, apart⟩ :=
    exists_parting (nonEmptyLines before) (nonEmptyLines after)
  have apart' : ∀ x y, after'.head? = some x → before'.head? = some y → x ≠ y :=
    fun x y first second same => apart y x second first same.symm
  have front : unmarked (commonPrefix (nonEmptyLines before) (nonEmptyLines after)) =
      unmarked shared := congrArg unmarked common
  generalize nonEmptyLines before = linesBefore at *
  generalize nonEmptyLines after = linesAfter at *
  subst left right
  rw [continues_iff apart, continues_iff apart', diffLoop_shared, List.nil_append]
  have clean : ∀ line ∈ shared, newline ∉ line :=
    fun line member => cleanBefore line (List.mem_append_left _ member)
  cases before' with
  | nil =>
    have ended : diffLoop enabled [] after' (unmarked shared) = .ok (unmarked shared) := rfl
    cases after' with
    | nil =>
      -- The lists are equal.
      refine iff_of_true ⟨_, congrArg (Except.map _) ended, ?_, ?_⟩ (by simp)
      · exact iff_of_false (not_isMarked_output clean) (not_not.mpr rfl)
      · rw [front]
        exact unmarked_prefix_output clean
    | cons lineAfter after' =>
      -- The loop ends with the lines of `before`, and does not come to the next line of `after`.
      refine iff_of_false ?_ (by simp)
      rintro ⟨output, ran, shows⟩
      obtain rfl := Except.ok.inj ran
      have differ : shared ++ [] ≠ shared ++ lineAfter :: after' := by simp
      exact not_isMarked_output clean (shows.marks.mpr differ)
  | cons lineBefore before' =>
    cases after' with
    | nil =>
      -- There is no `lineAfter`, and concatenating it raises an error.
      refine iff_of_false ?_ (by simp)
      rintro ⟨output, ran, -⟩
      cases ran
    | cons lineAfter after' =>
      have differ : lineBefore ≠ lineAfter := apart _ _ rfl rfl
      rw [diffLoop_difference differ]
      refine iff_of_true ⟨_, rfl, ?_, ?_⟩ (by simp)
      all_goals rw [output_difference clean (cleanBefore lineBefore (by simp))
        (cleanAfter lineAfter (by simp))]
      · have marked : IsMarked enabled (transformText enabled (ascii "- " ++ lineBefore) .red) :=
          ⟨lineBefore, .inl rfl⟩
        exact iff_of_true ⟨_, List.mem_append_right _ List.mem_cons_self, marked⟩ (by simp [differ])
      · rw [front]
        exact List.prefix_append ..

/-- Taking away the last line raises an error, and adding one is not shown. -/
theorem not_shows_lastLine :
    (¬∃ output, diff true (ascii "a\nb") (ascii "a") = .ok output ∧
      Shows true (nonEmptyLines (ascii "a\nb")) (nonEmptyLines (ascii "a")) output) ∧
    diff true (ascii "a") (ascii "a\nb") = .ok (ascii "  a") := by
  have raised : diff true (ascii "a\nb") (ascii "a") =
      .error ⟨"attempt to concatenate local 'lineAfter' (a nil value)"⟩ := by
    decide +kernel
  refine ⟨?_, by decide +kernel⟩
  rintro ⟨output, ran, -⟩
  cases raised.symm.trans ran

end EvoRuntime.Extensions
