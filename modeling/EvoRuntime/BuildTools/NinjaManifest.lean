import EvoRuntime.BuildTools.NinjaFile
import EvoRuntime.Library.Joining

/-!
# What Ninja reads

A Ninja file consists of declarations, one on a line. Bindings are indented and belong to the
declaration in front of them. What is modelled is a reader of the files that are written here: it
does not interpret escapes, which begin with `$`, nor the `|` between two kinds of paths.

## Main result

`read_ToString`: after any calls on any number of files, Ninja reads from the text of a file
what the calls on this file have declared, in the same order and each variable with its last
value, and behind it all that has been included in any file.

## Proof strategy

The text is read from its last line to the first one, so that a binding finds the declaration in
front of it (`readFrom`). There is one lemma for each kind of line (`readLine_*`), and one for
each kind of declaration (`readFrom_*`). What the calls have left in a file is the invariant
`Holds` of the runs.
-/
namespace EvoRuntime.BuildTools

open Lua Library

/-! ## Reading -/

def dollar : UInt8 := 0x24
def colon : UInt8 := 0x3A
def equals : UInt8 := 0x3D
def hash : UInt8 := 0x23
def bar : UInt8 := 0x7C
def carriageReturn : UInt8 := 0x0D
def nul : UInt8 := 0x00

/-- `[a-zA-Z0-9_.-]` -/
def isNameCharacter (c : UInt8) : Bool :=
  (0x61 ≤ c && c ≤ 0x7A) || (0x41 ≤ c && c ≤ 0x5A) || (0x30 ≤ c && c ≤ 0x39) || c = 0x5F ||
    c = 0x2E || c = 0x2D

def skipBlanks (s : LuaString) : LuaString := s.dropWhile (· = blank)

def words (s : LuaString) : List LuaString := (s.splitOn blank).filter (· ≠ [])

inductive Head
  | variable_ (name value : LuaString)
  | rule (name : LuaString)
  | build (outputs : List LuaString) (rule : LuaString) (inputs : List LuaString)
  | subninja (path : LuaString)
  deriving DecidableEq

structure Declaration where
  head : Head
  bindings : List (LuaString × LuaString) := []
  deriving DecidableEq

inductive Line
  | nothing
  | binding (name value : LuaString)
  | head (head : Head)
  deriving DecidableEq

def readAssignment (s : LuaString) : Option (LuaString × LuaString) :=
  match skipBlanks (s.dropWhile isNameCharacter) with
  | c :: value =>
    if c = equals ∧ s.takeWhile isNameCharacter ≠ [] then
      some (s.takeWhile isNameCharacter, skipBlanks value)
    else none
  | [] => none

/-- The rule stands behind the colon, in front of the inputs. No input is taken for `|`, which is
not written here, and an escaped colon is like any other one. -/
def readBuild (s : LuaString) : Option Head :=
  match s.dropWhile (· ≠ colon) with
  | [] => none
  | _ :: back =>
    match words back with
    | [] => none
    | rule :: inputs => some (.build (words (s.takeWhile (· ≠ colon))) rule inputs)

def keywords : List LuaString :=
  [ascii "rule", ascii "build", ascii "subninja", ascii "include", ascii "default", ascii "pool"]

def readHead (line : LuaString) : Option Head :=
  let keyword := line.takeWhile isNameCharacter
  let rest := skipBlanks (line.dropWhile isNameCharacter)
  if keyword = ascii "rule" then if rest = [] then none else some (.rule rest)
  else if keyword = ascii "build" then readBuild rest
  else if keyword = ascii "subninja" then if rest = [] then none else some (.subninja rest)
  else if keywords.contains keyword then none
  else (readAssignment line).map fun read => .variable_ read.1 read.2

/-- A line that ends with `$` would go on in the next one, which is not supported here. No other
escape is interpreted: values and paths are read as they are written. -/
def readLine (line : LuaString) : Option Line :=
  if line.getLast? = some dollar then none
  else
    match skipBlanks line with
    | [] => some .nothing
    | c :: _ =>
      if c = hash then some .nothing
      else if line.head? = some blank then
        (readAssignment (skipBlanks line)).map fun read => .binding read.1 read.2
      else (readHead line).map .head

/-- The bindings at the start belong to a declaration in front of the lines. -/
def readFrom : List LuaString → Option (List (LuaString × LuaString) × List Declaration)
  | [] => some ([], [])
  | line :: lines => do
    let (bindings, declarations) ← readFrom lines
    match ← readLine line with
    | .nothing => some (bindings, declarations)
    | .binding name value => some ((name, value) :: bindings, declarations)
    | .head head => some ([], { head, bindings } :: declarations)

/-- The declarations of a file. Nothing is read if a line is not one of those that are written
here. Neither `$` nor `|` has a meaning. -/
def read (text : LuaString) : Option (List Declaration) :=
  match readFrom (text.splitOn newline) with
  | some ([], declarations) => some declarations
  | _ => none

/-! ## Lines -/

variable {name value s : LuaString}

/-- What can be the name of a variable or a rule. -/
structure IsName (name : LuaString) : Prop where
  nonempty : name ≠ []
  characters : name.all isNameCharacter = true
  notKeyword : keywords.contains name = false

instance (name : LuaString) : Decidable (IsName name) :=
  decidable_of_iff (name ≠ [] ∧ name.all isNameCharacter = true ∧
      keywords.contains name = false)
    ⟨fun ⟨nonempty, characters, notKeyword⟩ => ⟨nonempty, characters, notKeyword⟩,
      fun isName => ⟨isName.nonempty, isName.characters, isName.notKeyword⟩⟩

theorem IsName.character (isName : IsName name) {c : UInt8} (inside : c ∈ name) :
    isNameCharacter c = true :=
  List.all_eq_true.mp isName.characters c inside

/-- A line ends at a new line, or at a carriage return in front of one. Ninja takes no other
carriage return, and no NUL. -/
def isLineCharacter (c : UInt8) : Bool := c ≠ newline && c ≠ carriageReturn && c ≠ nul

/-- Where there are paths, a colon or a bar is not part of one. -/
def isPathCharacter (c : UInt8) : Bool := isLineCharacter c && c ≠ colon && c ≠ bar

/-- A text that does not end its line. -/
def OneLine (s : LuaString) : Prop := s.all isLineCharacter = true

instance (s : LuaString) : Decidable (OneLine s) := inferInstanceAs (Decidable (_ = true))

@[simp]
theorem oneLine_append {s t : LuaString} : OneLine (s ++ t) ↔ OneLine s ∧ OneLine t := by
  rw [OneLine, List.all_append, Bool.and_eq_true]
  rfl

theorem OneLine.newline_not_mem (oneLine : OneLine s) : newline ∉ s :=
  fun inside => absurd (List.all_eq_true.mp oneLine newline inside) (by decide)

/-- Paths, with blanks between them. -/
def IsPaths (s : LuaString) : Prop := s.all isPathCharacter = true

instance (s : LuaString) : Decidable (IsPaths s) := inferInstanceAs (Decidable (_ = true))

theorem isPaths_append {s t : LuaString} : IsPaths (s ++ t) ↔ IsPaths s ∧ IsPaths t := by
  rw [IsPaths, List.all_append, Bool.and_eq_true]
  rfl

theorem IsPaths.oneLine (isPaths : IsPaths s) : OneLine s := by
  refine List.all_eq_true.mpr fun c inside => ?_
  have allowed := List.all_eq_true.mp isPaths c inside
  rw [isPathCharacter, Bool.and_eq_true, Bool.and_eq_true] at allowed
  exact allowed.1.1

theorem IsPaths.colon_not_mem (isPaths : IsPaths s) : colon ∉ s :=
  fun inside => absurd (List.all_eq_true.mp isPaths colon inside) (by decide)

/-- What can stand at the end of a line. -/
structure IsValue (value : LuaString) : Prop where
  oneLine : OneLine value
  complete : value.getLast? ≠ some dollar

instance (value : LuaString) : Decidable (IsValue value) :=
  decidable_of_iff (OneLine value ∧ value.getLast? ≠ some dollar)
    ⟨fun ⟨oneLine, complete⟩ => ⟨oneLine, complete⟩,
      fun isValue => ⟨isValue.oneLine, isValue.complete⟩⟩

/-- A line is complete if what stands at its end is. -/
theorem complete_behind {before : LuaString}
    (complete : before.getLast? ≠ some dollar) (isValue : IsValue value) :
    (before ++ value).getLast? ≠ some dollar := by
  by_cases nothing : value = []
  · rwa [nothing, List.append_nil]
  · rw [List.getLast?_append_of_ne_nil _ nothing]
    exact isValue.complete

/-- Reading stops at the first character of another kind. -/
theorem takeWhile_before {p : UInt8 → Bool} {u v : LuaString} {c : UInt8}
    (kept : u.all p = true) (other : p c = false) :
    (u ++ c :: v).takeWhile p = u ∧ (u ++ c :: v).dropWhile p = c :: v := by
  rw [List.all_eq_true] at kept
  constructor
  · rw [List.takeWhile_append_of_pos kept, List.takeWhile_cons_of_neg (by simp [other]),
      List.append_nil]
  · rw [List.dropWhile_append_of_pos kept, List.dropWhile_cons_of_neg (by simp [other])]

theorem readAssignment_assignment (isName : IsName name) (value : LuaString) :
    readAssignment (assignment name value) = some (name, skipBlanks value) := by
  have text : assignment name value = name ++ blank :: equals :: blank :: value := by
    rw [assignment, List.append_assoc]
    rfl
  obtain ⟨front, back⟩ := takeWhile_before (c := blank) (v := equals :: blank :: value)
    isName.characters (by decide)
  rw [text, readAssignment, front, back]
  exact if_pos ⟨rfl, isName.nonempty⟩

/-- Nothing is skipped in front of a name. -/
theorem IsName.exists_cons (isName : IsName name) (s : LuaString) :
    ∃ c rest, name ++ s = c :: rest ∧ isNameCharacter c = true ∧ skipBlanks (name ++ s) = name ++ s := by
  obtain ⟨c, rest, rfl⟩ := List.exists_cons_of_ne_nil isName.nonempty
  have letter := isName.character List.mem_cons_self
  refine ⟨c, rest ++ s, rfl, letter, List.dropWhile_cons_of_neg ?_⟩
  intro same
  rw [of_decide_eq_true same] at letter
  exact absurd letter (by decide)

/-- A line that starts with a letter is read as a declaration. -/
theorem readLine_declaration {c : UInt8} (letter : isNameCharacter c = true)
    (complete : (c :: s).getLast? ≠ some dollar) :
    readLine (c :: s) = (readHead (c :: s)).map .head := by
  have notBlank : c ≠ blank := by
    rintro rfl
    exact absurd letter (by decide)
  have notHash : c ≠ hash := by
    rintro rfl
    exact absurd letter (by decide)
  have kept : skipBlanks (c :: s) = c :: s := List.dropWhile_cons_of_neg (by simpa using notBlank)
  rw [readLine, if_neg complete, kept]
  simp only [if_neg notHash, List.head?_cons, Option.some.injEq, if_neg notBlank]

theorem readLine_variable (isName : IsName name) (isValue : IsValue value) :
    readLine (assignment name value) = some (.head (.variable_ name (skipBlanks value))) := by
  have complete : (assignment name value).getLast? ≠ some dollar := by
    refine complete_behind ?_ isValue
    rw [List.getLast?_append_of_ne_nil _ (by decide)]
    decide
  have text : assignment name value = name ++ (ascii " = " ++ value) := List.append_assoc ..
  obtain ⟨c, rest, shape, letter, -⟩ := isName.exists_cons (ascii " = " ++ value)
  have keyword : (assignment name value).takeWhile isNameCharacter = name := by
    rw [text]
    exact (takeWhile_before isName.characters (by decide)).1
  have other : ∀ keyword ∈ keywords, name ≠ keyword := by
    rintro keyword member rfl
    have notKeyword := isName.notKeyword
    rw [List.contains_iff_mem.mpr member] at notKeyword
    cases notKeyword
  have noRule := other (ascii "rule") (by decide)
  have noBuild := other (ascii "build") (by decide)
  have noInclude := other (ascii "subninja") (by decide)
  have head : readHead (assignment name value) = some (.variable_ name (skipBlanks value)) := by
    rw [readHead, keyword, if_neg noRule, if_neg noBuild, if_neg noInclude, isName.notKeyword,
      if_neg Bool.false_ne_true,
      readAssignment_assignment isName]
    rfl
  rw [text, shape] at complete head ⊢
  rw [readLine_declaration letter complete, head]
  rfl

theorem readLine_binding (isName : IsName name) (isValue : IsValue value) :
    readLine (indented name value) = some (.binding name (skipBlanks value)) := by
  have text : assignment name value = name ++ (ascii " = " ++ value) := List.append_assoc ..
  obtain ⟨c, rest, shape, letter, kept⟩ := isName.exists_cons (ascii " = " ++ value)
  rw [← text] at shape kept
  have notHash : c ≠ hash := by
    rintro rfl
    exact absurd letter (by decide)
  have complete : (indented name value).getLast? ≠ some dollar := by
    rw [indented, assignment, ← List.append_assoc, ← List.append_assoc]
    refine complete_behind ?_ isValue
    rw [List.getLast?_append_of_ne_nil _ (by decide)]
    decide
  have skipped : skipBlanks (indented name value) = assignment name value := kept
  rw [readLine, if_neg complete, skipped]
  have read := readAssignment_assignment isName value
  rw [shape] at read ⊢
  dsimp only
  rw [if_neg notHash, if_pos (show (indented name value).head? = some blank from rfl), read]
  rfl

theorem IsName.isValue (isName : IsName name) : IsValue name where
  oneLine := by
    refine List.all_eq_true.mpr fun c inside => ?_
    have letter := isName.character inside
    rw [isLineCharacter, Bool.and_eq_true, Bool.and_eq_true, decide_eq_true_eq, decide_eq_true_eq,
      decide_eq_true_eq]
    refine ⟨⟨?_, ?_⟩, ?_⟩ <;>
    · rintro rfl
      exact absurd letter (by decide)
  complete := fun last => absurd (isName.character (List.mem_of_getLast? last)) (by decide)

theorem readLine_rule (isName : IsName name) :
    readLine (ascii "rule " ++ name) = some (.head (.rule name)) := by
  have complete : (ascii "rule " ++ name).getLast? ≠ some dollar :=
    complete_behind (by decide) isName.isValue
  obtain ⟨front, back⟩ := takeWhile_before (p := isNameCharacter) (u := ascii "rule")
    (v := name) (c := blank) (by decide) (by decide)
  obtain ⟨c, rest, shape, -, kept⟩ := isName.exists_cons []
  rw [List.append_nil] at shape kept
  have head : readHead (ascii "rule" ++ blank :: name) = some (.rule name) := by
    have skipped : skipBlanks (blank :: name) = name := kept
    rw [readHead, front, back, skipped, if_pos rfl, if_neg isName.nonempty]
  exact (readLine_declaration (by decide) complete).trans (congrArg (Option.map Line.head) head)

theorem readLine_subninja {path : LuaString} (isValue : IsValue path) (nonempty : skipBlanks path ≠ []) :
    readLine (ascii "subninja " ++ path) = some (.head (.subninja (skipBlanks path))) := by
  have complete : (ascii "subninja " ++ path).getLast? ≠ some dollar :=
    complete_behind (by decide) isValue
  obtain ⟨front, back⟩ := takeWhile_before (p := isNameCharacter) (u := ascii "subninja")
    (v := path) (c := blank) (by decide) (by decide)
  have head : readHead (ascii "subninja" ++ blank :: path) = some (.subninja (skipBlanks path)) := by
    have skipped : skipBlanks (blank :: path) = skipBlanks path := rfl
    rw [readHead, front, back, skipped, if_neg (by decide), if_neg (by decide), if_pos rfl,
      if_neg nonempty]
  exact (readLine_declaration (by decide) complete).trans (congrArg (Option.map Line.head) head)

/-! ### Build edges -/

theorem words_append (s t : LuaString) : words (s ++ blank :: t) = words s ++ words t := by
  have split : (s ++ blank :: t).splitOn blank = s.splitOn blank ++ t.splitOn blank :=
    List.splitOnP_append_cons s t (beq_self_eq_true blank)
  rw [words, split, List.filter_append]
  rfl

theorem words_cons_blank (s : LuaString) : words (blank :: s) = words s := words_append [] s

theorem words_skipBlanks (s : LuaString) : words (skipBlanks s) = words s := by
  induction s with
  | nil => rfl
  | cons c s ih =>
    by_cases same : c = blank
    · rw [same, words_cons_blank, ← ih]
      rfl
    · rw [skipBlanks, List.dropWhile_cons_of_neg (by simpa using same)]

theorem words_table_concat (strings : List LuaString) :
    words (table_concat strings blank) = strings.flatMap words := by
  induction strings with
  | nil => rfl
  | cons s rest ih =>
    cases rest with
    | nil => simp [table_concat]
    | cons next rest =>
      rw [table_concat, join_cons s (List.cons_ne_nil _ _), words_append, List.flatMap_cons]
      exact congrArg (words s ++ ·) ih

theorem readBuild_eq {outputs back rule : LuaString} {inputs : List LuaString}
    (noColon : colon ∉ outputs) (shape : words back = rule :: inputs) :
    readBuild (skipBlanks (outputs ++ colon :: back)) = some (.build (words outputs) rule inputs) := by
  have skipped : skipBlanks (outputs ++ colon :: back) = skipBlanks outputs ++ colon :: back := by
    rw [skipBlanks, List.dropWhile_append]
    split
    case isTrue nothing =>
      rw [skipBlanks, List.isEmpty_iff.mp nothing]
      rfl
    case isFalse => rfl
  have inFront : ∀ c ∈ skipBlanks outputs, decide (c ≠ colon) = true := by
    intro c member
    refine decide_eq_true fun same => noColon ?_
    exact (List.dropWhile_suffix _).subset (same ▸ member)
  obtain ⟨front, rest⟩ := takeWhile_before (c := colon) (v := back)
    (List.all_eq_true.mpr inFront) (by decide)
  rw [skipped, readBuild, front, rest]
  dsimp only
  rw [shape, words_skipBlanks]

theorem readLine_build {outputs back rule : LuaString} {inputs : List LuaString}
    (noColon : colon ∉ outputs) (isValue : IsValue back) (shape : words back = rule :: inputs) :
    readLine (ascii "build " ++ outputs ++ ascii ": " ++ back) =
      some (.head (.build (words outputs) rule inputs)) := by
  have complete : (ascii "build " ++ outputs ++ ascii ": " ++ back).getLast? ≠ some dollar := by
    refine complete_behind ?_ isValue
    rw [List.getLast?_append_of_ne_nil _ (by decide)]
    decide
  have text : ascii "build " ++ outputs ++ ascii ": " ++ back =
      ascii "build" ++ blank :: (outputs ++ colon :: blank :: back) := by
    rw [List.append_assoc, List.append_assoc]
    rfl
  obtain ⟨front, rest⟩ := takeWhile_before (p := isNameCharacter) (u := ascii "build")
    (v := outputs ++ colon :: blank :: back) (c := blank) (by decide) (by decide)
  have head : readHead (ascii "build" ++ blank :: (outputs ++ colon :: blank :: back)) =
      some (.build (words outputs) rule inputs) := by
    have skipped : skipBlanks (blank :: (outputs ++ colon :: blank :: back)) =
        skipBlanks (outputs ++ colon :: blank :: back) := rfl
    rw [readHead, front, rest, skipped, if_neg (by decide), if_pos rfl]
    exact readBuild_eq noColon ((words_cons_blank back).trans shape)
  rw [text] at complete ⊢
  exact (readLine_declaration (by decide) complete).trans (congrArg (Option.map Line.head) head)

/-! ## Declarations -/

section Lines

variable {line : LuaString} {lines : List LuaString} {fields : List (LuaString × LuaString)}
  {declarations : List Declaration}

theorem readFrom_nothing (skipped : readLine line = some .nothing) :
    readFrom (line :: lines) = readFrom lines := by
  rw [readFrom, skipped]
  cases readFrom lines <;> rfl

/-- Names and values that can be written as they are. -/
def Assignable (fields : List (LuaString × LuaString)) : Prop :=
  ∀ field ∈ fields, IsName field.1 ∧ IsValue field.2

instance (fields : List (LuaString × LuaString)) : Decidable (Assignable fields) :=
  inferInstanceAs (Decidable (∀ field ∈ fields, IsName field.1 ∧ IsValue field.2))

/-- Blanks in front of a value are not read. -/
def trimmed (fields : List (LuaString × LuaString)) : List (LuaString × LuaString) :=
  fields.map fun field => (field.1, skipBlanks field.2)

theorem readFrom_bindings (assignable : Assignable fields)
    (rest : readFrom lines = some ([], declarations)) :
    readFrom ((fields.map fun field => indented field.1 field.2) ++ lines) =
      some (trimmed fields, declarations) := by
  induction fields with
  | nil => exact rest
  | cons field fields ih =>
    obtain ⟨isName, isValue⟩ := assignable field List.mem_cons_self
    have others := ih fun other member => assignable other (List.mem_cons_of_mem _ member)
    rw [List.map_cons, List.cons_append, readFrom, others, readLine_binding isName isValue]
    rfl

theorem readFrom_declaration (fields : List (LuaString × LuaString)) {head : Head} (read : readLine line = some (.head head))
    (assignable : Assignable fields) (rest : readFrom lines = some ([], declarations)) :
    readFrom (line :: (fields.map fun field => indented field.1 field.2) ++ lines) =
      some ([], { head, bindings := trimmed fields } :: declarations) := by
  rw [List.cons_append, readFrom, readFrom_bindings assignable rest, read]
  rfl

/-- The lines of one thing after the other. -/
theorem readFrom_flatMap {α : Type} {xs : List α} (block : α → List LuaString)
    (declaration : α → Declaration)
    (each : ∀ x ∈ xs, ∀ lines declarations, readFrom lines = some ([], declarations) →
      readFrom (block x ++ lines) = some ([], declaration x :: declarations))
    (rest : readFrom lines = some ([], declarations)) :
    readFrom (xs.flatMap block ++ lines) = some ([], xs.map declaration ++ declarations) := by
  induction xs with
  | nil => exact rest
  | cons x xs ih =>
    have others := ih fun y member => each y (List.mem_cons_of_mem _ member)
    rw [List.flatMap_cons, List.append_assoc]
    exact each x List.mem_cons_self _ _ others

end Lines

/-! ## The text of a file -/

theorem splitOn_line {line : LuaString} (clean : OneLine line) : line.splitOn newline = [line] :=
  List.splitOnP_eq_singleton fun _ member => beq_false_of_ne fun same =>
    clean.newline_not_mem (same ▸ member)

/-- Behind the last new line there is an empty line. -/
theorem splitOn_text {entries : List LuaString} (nonempty : entries ≠ []) :
    (table_concat entries newline ++ [newline]).splitOn newline =
      entries.flatMap (·.splitOn newline) ++ [[]] := by
  have split (s t : LuaString) :
      (s ++ newline :: t).splitOn newline = s.splitOn newline ++ t.splitOn newline :=
    List.splitOnP_append_cons s t (beq_self_eq_true newline)
  induction entries with
  | nil => exact absurd rfl nonempty
  | cons entry rest ih =>
    cases rest with
    | nil => simp [table_concat, split]
    | cons next rest =>
      have others := ih (List.cons_ne_nil _ _)
      rw [table_concat, join_cons entry (List.cons_ne_nil _ _), List.append_assoc,
        List.cons_append, split, List.flatMap_cons, List.append_assoc]
      exact congrArg (entry.splitOn newline ++ ·) others

/-- A title stands between an empty line and what it is the title of. -/
theorem readFrom_titled (title : String) {entries lines : List LuaString}
    (clean : ∀ line ∈ entries, OneLine line) (cleanTitle : OneLine (ascii title))
    (comment : readLine (ascii title) = some .nothing) :
    readFrom ((titled title entries).flatMap (·.splitOn newline) ++ lines) =
      readFrom (entries ++ lines) := by
  have same : entries.flatMap (·.splitOn newline) = entries := by
    rw [List.flatMap_congr fun line member => splitOn_line (clean line member)]
    exact List.flatMap_singleton' entries
  rw [titled]
  split
  case isTrue nothing =>
    rw [nothing]
    rfl
  case isFalse =>
    have first : (newline :: ascii title).splitOn newline = [[], ascii title] := by
      have split := List.splitOnP_append_cons (p := (· == newline)) [] (ascii title)
        (beq_self_eq_true newline)
      exact split.trans (congrArg ([[]] ++ ·) (splitOn_line cleanTitle))
    rw [List.flatMap_cons, first, same, List.append_assoc]
    exact (readFrom_nothing (by decide)).trans (readFrom_nothing comment)

/-! ### What a file declares -/

structure BuildRule.WellFormed (rule : BuildRule) : Prop where
  name : IsName rule.name
  values : ∀ field ∈ rule.bindings, IsValue field.2

structure BuildEdge.WellFormed (edge : BuildEdge) : Prop where
  outputs : IsPaths edge.outputs
  inputs : IsPaths (table_concat edge.inputs blank)
  complete : (table_concat edge.inputs blank).getLast? ≠ some dollar
  /-- There is a rule at least. -/
  rule : edge.inputs.flatMap words ≠ []
  overrides : Assignable edge.variableOverrides

def variableDeclaration (added : LuaString × LuaString) : Declaration where
  head := .variable_ added.1 (skipBlanks added.2)

def BuildRule.declaration (rule : BuildRule) : Declaration where
  head := .rule rule.name
  bindings := trimmed rule.bindings

def BuildEdge.declaration (edge : BuildEdge) : Declaration where
  head := .build (words edge.outputs) ((edge.inputs.flatMap words).headD [])
    (edge.inputs.flatMap words).tail
  bindings := trimmed edge.variableOverrides

def includeDeclaration (targetID : LuaString) : Declaration where
  head := .subninja (skipBlanks (targetID ++ ascii ".ninja"))

theorem bindings_names (rule : BuildRule) :
    ∀ field ∈ rule.bindings, field.1 ∈ [ascii "command", ascii "description", ascii "deps", ascii "depfile"] := by
  intro field member
  rcases List.mem_cons.mp member with rfl | optional
  · exact List.mem_cons_self
  · obtain ⟨field', inside, value⟩ := List.mem_filterMap.mp optional
    obtain ⟨text, -, rfl⟩ := Option.map_eq_some_iff.mp value
    have name : field'.1 ∈ [ascii "description", ascii "deps", ascii "depfile"] :=
      List.mem_map_of_mem (f := Prod.fst) inside
    exact List.mem_cons_of_mem _ name

theorem BuildRule.WellFormed.assignable {rule : BuildRule} (wellFormed : rule.WellFormed) :
    Assignable rule.bindings := by
  have names : ∀ name ∈ [ascii "command", ascii "description", ascii "deps", ascii "depfile"],
      IsName name := by decide
  exact fun field member => ⟨names _ (bindings_names rule field member), wellFormed.values field member⟩

/-! ### Lines that do not end early -/

theorem oneLine_assignment {name value : LuaString} (isName : IsName name)
    (isValue : IsValue value) : OneLine (assignment name value) := by
  have equal : OneLine (ascii " = ") := by decide
  simp [assignment, isName.isValue.oneLine, isValue.oneLine, equal]

theorem oneLine_indented {fields : List (LuaString × LuaString)} (assignable : Assignable fields) :
    ∀ line ∈ fields.map fun field => indented field.1 field.2, OneLine line := by
  intro line member
  obtain ⟨field, inside, rfl⟩ := List.mem_map.mp member
  obtain ⟨isName, isValue⟩ := assignable field inside
  have indent : OneLine (ascii "  ") := by decide
  simp [indented, indent, oneLine_assignment isName isValue]

theorem BuildRule.WellFormed.clean {rule : BuildRule} (wellFormed : rule.WellFormed) :
    ∀ line ∈ rule.lines, OneLine line := by
  have keyword : OneLine (ascii "rule ") := by decide
  refine List.forall_mem_cons.mpr ⟨?_, oneLine_indented wellFormed.assignable⟩
  simp [keyword, wellFormed.name.isValue.oneLine]

theorem BuildEdge.WellFormed.clean {edge : BuildEdge} (wellFormed : edge.WellFormed) :
    ∀ line ∈ edge.lines, OneLine line := by
  have keyword : OneLine (ascii "build ") := by decide
  have separator : OneLine (ascii ": ") := by decide
  refine List.forall_mem_cons.mpr ⟨?_, oneLine_indented wellFormed.overrides⟩
  simp [keyword, separator, wellFormed.outputs.oneLine, wellFormed.inputs.oneLine]

/-! ### One file -/

theorem readFrom_rule {rule : BuildRule} (wellFormed : rule.WellFormed) (lines : List LuaString)
    (declarations : List Declaration) (rest : readFrom lines = some ([], declarations)) :
    readFrom (rule.lines ++ lines) = some ([], rule.declaration :: declarations) :=
  readFrom_declaration _ (readLine_rule wellFormed.name) wellFormed.assignable rest

theorem readFrom_edge {edge : BuildEdge} (wellFormed : edge.WellFormed) (lines : List LuaString)
    (declarations : List Declaration) (rest : readFrom lines = some ([], declarations)) :
    readFrom (edge.lines ++ lines) = some ([], edge.declaration :: declarations) := by
  obtain ⟨rule, inputs, shape⟩ := List.exists_cons_of_ne_nil wellFormed.rule
  have read := readLine_build wellFormed.outputs.colon_not_mem
    ⟨wellFormed.inputs.oneLine, wellFormed.complete⟩ ((words_table_concat edge.inputs).trans shape)
  rw [BuildEdge.lines, BuildEdge.declaration, shape]
  exact readFrom_declaration _ read wellFormed.overrides rest

/-- The variables as they are printed. -/
def Variables.assigned (self : Variables) : List (LuaString × LuaString) :=
  self.names.attach.map fun name => (name.1, self.value name)

structure NinjaFile.WellFormed (file : NinjaFile) : Prop where
  variables_ : Assignable file.variables_.assigned
  ruleDeclarations : ∀ rule ∈ file.ruleDeclarations, rule.WellFormed
  buildEdges : ∀ edge ∈ file.buildEdges, edge.WellFormed

def NinjaFile.declarations (self : NinjaFile) (includes : List LuaString) : List Declaration :=
  variableDeclaration (ascii "ninja_required_version", DEFAULT_REQUIRED_VERSION) ::
    (self.variables_.assigned.map variableDeclaration ++
      (self.ruleDeclarations.map BuildRule.declaration ++
        (self.buildEdges.map BuildEdge.declaration ++ includes.map includeDeclaration)))

theorem readFrom_variable (added : LuaString × LuaString) (isName : IsName added.1)
    (isValue : IsValue added.2) (lines : List LuaString) (declarations : List Declaration)
    (rest : readFrom lines = some ([], declarations)) :
    readFrom (assignment added.1 added.2 :: lines) =
      some ([], variableDeclaration added :: declarations) :=
  readFrom_declaration [] (readLine_variable isName isValue) (List.forall_mem_nil _) rest

/-- The line of an included file. -/
def includeLine (targetID : LuaString) : LuaString := ascii "subninja " ++ (targetID ++ ascii ".ninja")

theorem readFrom_include {targetID : LuaString} (clean : OneLine targetID)
    (lines : List LuaString) (declarations : List Declaration)
    (rest : readFrom lines = some ([], declarations)) :
    readFrom (includeLine targetID :: lines) =
      some ([], includeDeclaration targetID :: declarations) := by
  have extension : OneLine (ascii ".ninja") := by decide
  have isValue : IsValue (targetID ++ ascii ".ninja") := by
    refine ⟨by simp [clean, extension], ?_⟩
    rw [List.getLast?_append_of_ne_nil _ (by decide)]
    decide
  have nonempty : skipBlanks (targetID ++ ascii ".ninja") ≠ [] := by
    intro nothing
    have dot := List.dropWhile_eq_nil_iff.mp nothing 0x2E (List.mem_append_right _ (by decide))
    exact absurd dot (by decide)
  exact readFrom_declaration [] (readLine_subninja isValue nonempty)
    (List.forall_mem_nil _) rest

/-- Ninja reads from the text of a file what the file declares. -/
theorem read_file {file : NinjaFile} {includes : List LuaString} (wellFormed : file.WellFormed)
    (clean : ∀ targetID ∈ includes, OneLine targetID) :
    read (file.ToString includes) = some (file.declarations includes) := by
  have variableLines : (file.variables_.names.attach.map fun variableName =>
      assignment variableName.1 (file.variables_.value variableName)) =
      file.variables_.assigned.flatMap fun added => [assignment added.1 added.2] := by
    rw [← List.map_eq_flatMap, Variables.assigned, List.map_map]
    rfl
  have includeLines : (includes.map fun targetID => ascii "subninja " ++ targetID ++ ascii ".ninja") =
      includes.flatMap fun targetID => [includeLine targetID] := by
    rw [← List.map_eq_flatMap]
    exact List.map_congr_left fun targetID _ => List.append_assoc ..
  -- The sections are read one by one, from the last one to the first.
  have last : readFrom [[]] = some ([], []) := by decide
  have included := readFrom_flatMap (fun targetID => [includeLine targetID]) includeDeclaration
    (fun targetID member => readFrom_include (clean targetID member)) last
  rw [← readFrom_titled "# Includes" ?_ (by decide) (by decide)] at included
  have edges := readFrom_flatMap BuildEdge.lines BuildEdge.declaration
    (fun edge member => readFrom_edge (wellFormed.buildEdges edge member)) included
  rw [← readFrom_titled "# Build edges" ?_ (by decide) (by decide)] at edges
  have rules := readFrom_flatMap BuildRule.lines BuildRule.declaration
    (fun rule member => readFrom_rule (wellFormed.ruleDeclarations rule member)) edges
  rw [← readFrom_titled "# Build rules" ?_ (by decide) (by decide)] at rules
  have assigned := readFrom_flatMap (fun added : LuaString × LuaString => [assignment added.1 added.2]) variableDeclaration
    (fun added member => readFrom_variable added (wellFormed.variables_ added member).1
      (wellFormed.variables_ added member).2) rules
  rw [← readFrom_titled "# Variable declarations" ?_ (by decide) (by decide)] at assigned
  · have version : readFrom (assignment (ascii "ninja_required_version") DEFAULT_REQUIRED_VERSION ::
        ((titled "# Variable declarations" (file.variables_.assigned.flatMap fun added =>
          [assignment added.1 added.2])).flatMap (·.splitOn newline) ++ _)) = _ :=
      readFrom_variable (ascii "ninja_required_version", DEFAULT_REQUIRED_VERSION)
        (by decide) (by decide) _ _ assigned
    have first : [AUTOGENERATION_HEADER_TEXT,
        ascii "ninja_required_version = " ++ DEFAULT_REQUIRED_VERSION].flatMap (·.splitOn newline) =
        [AUTOGENERATION_HEADER_TEXT,
          assignment (ascii "ninja_required_version") DEFAULT_REQUIRED_VERSION] := by decide
    rw [read, NinjaFile.ToString, splitOn_text (by simp), variableLines, includeLines]
    simp only [List.flatMap_append, first, List.append_assoc]
    rw [List.cons_append, List.cons_append, List.nil_append, readFrom_nothing (by decide), version,
      List.append_nil]
    rfl
  · intro line member
    obtain ⟨added, inside, same⟩ := List.mem_flatMap.mp member
    rw [List.mem_singleton.mp same]
    exact oneLine_assignment (wellFormed.variables_ added inside).1
      (wellFormed.variables_ added inside).2
  · intro line member
    obtain ⟨rule, inside, here⟩ := List.mem_flatMap.mp member
    exact (wellFormed.ruleDeclarations rule inside).clean line here
  · intro line member
    obtain ⟨edge, inside, here⟩ := List.mem_flatMap.mp member
    exact (wellFormed.buildEdges edge inside).clean line here
  · intro line member
    obtain ⟨targetID, inside, same⟩ := List.mem_flatMap.mp member
    have keyword : OneLine (ascii "subninja ") := by decide
    have extension : OneLine (ascii ".ninja") := by decide
    rw [List.mem_singleton.mp same]
    simp [includeLine, keyword, extension, clean targetID inside]

/-! ## Runs -/

section Runs

variable (i : Nat) (calls : List Call)

/-- The variables that are added to the file, as often as they are. -/
def variablesOn : List (LuaString × LuaString) :=
  calls.filterMap fun call =>
    match call with
    | .AddVariable file name value => if file = i then some (name, value) else none
    | _ => none

def rulesOn : List BuildRule :=
  calls.filterMap fun call =>
    match call with
    | .AddRule file rule => if file = i then some rule else none
    | _ => none

def edgesOn : List BuildEdge :=
  calls.filterMap fun call =>
    match call with
    | .AddBuildEdge file edge => if file = i then some edge else none
    | _ => none

/-- What is included in any file. -/
def included : List LuaString :=
  calls.filterMap fun call =>
    match call with
    | .AddInclude _ targetID => some targetID
    | _ => none

/-- The value that a variable has been given last. -/
def lastValue (added : List (LuaString × LuaString)) (name : LuaString) : LuaString :=
  (added.reverse.lookup name).getD []

/-- What the calls declare in the file. -/
def declared : List Declaration :=
  variableDeclaration (ascii "ninja_required_version", DEFAULT_REQUIRED_VERSION) ::
    (((variablesOn i calls).map fun added =>
      variableDeclaration (added.1, lastValue (variablesOn i calls) added.1)) ++
      ((rulesOn i calls).map BuildRule.declaration ++
        ((edgesOn i calls).map BuildEdge.declaration ++ (included calls).map includeDeclaration)))

/-- What the calls have left in the file. -/
structure Collected (file : NinjaFile) : Prop where
  names : file.variables_.names = (variablesOn i calls).map Prod.fst
  values : ∀ name, file.variables_.values.lookup name = (variablesOn i calls).reverse.lookup name
  ruleDeclarations : file.ruleDeclarations = rulesOn i calls
  buildEdges : file.buildEdges = edgesOn i calls

/-- The invariant of the runs. -/
structure Holds (ninja : NinjaFiles) : Prop where
  files : ∀ i file, ninja.files[i]? = some file → Collected i calls file
  includes : ninja.includes = included calls
  made : ∀ call ∈ calls, ∀ i, call.On i → i < ninja.files.length

end Runs

variable {i : Nat} {calls : List Call} {call : Call} {file : NinjaFile} {st : NinjaFiles}

/-! ### Calls on other files -/

theorem variablesOn_other (elsewhere : ¬call.On i) :
    variablesOn i (calls ++ [call]) = variablesOn i calls := by
  rw [variablesOn, List.filterMap_append, ← variablesOn]
  cases call <;> simp_all [Call.On]

theorem rulesOn_other (elsewhere : ¬call.On i) : rulesOn i (calls ++ [call]) = rulesOn i calls := by
  rw [rulesOn, List.filterMap_append, ← rulesOn]
  cases call <;> simp_all [Call.On]

theorem edgesOn_other (elsewhere : ¬call.On i) : edgesOn i (calls ++ [call]) = edgesOn i calls := by
  rw [edgesOn, List.filterMap_append, ← edgesOn]
  cases call <;> simp_all [Call.On]

theorem Collected.other (collected : Collected i calls file) (elsewhere : ¬call.On i) :
    Collected i (calls ++ [call]) file where
  names := (variablesOn_other elsewhere).symm ▸ collected.names
  values := (variablesOn_other elsewhere).symm ▸ collected.values
  ruleDeclarations := (rulesOn_other elsewhere).symm ▸ collected.ruleDeclarations
  buildEdges := (edgesOn_other elsewhere).symm ▸ collected.buildEdges

/-! ### Calls on the file -/

theorem Collected.AddVariable (collected : Collected i calls file) (name value : LuaString) :
    Collected i (calls ++ [.AddVariable i name value]) (file.AddVariable name value) := by
  have added : variablesOn i (calls ++ [.AddVariable i name value]) =
      variablesOn i calls ++ [(name, value)] := by
    simp [variablesOn]
  have rules : rulesOn i (calls ++ [.AddVariable i name value]) = rulesOn i calls := by
    simp [rulesOn]
  have edges : edgesOn i (calls ++ [.AddVariable i name value]) = edgesOn i calls := by
    simp [edgesOn]
  refine ⟨?_, fun other => ?_, rules ▸ collected.ruleDeclarations, edges ▸ collected.buildEdges⟩
  · rw [added, List.map_append, ← collected.names]
    rfl
  · rw [added, List.reverse_append, List.reverse_singleton, List.singleton_append, List.lookup_cons,
      ← collected.values]
    by_cases same : other = name
    · rw [same, beq_self_eq_true]
      exact AList.lookup_insert _
    · rw [beq_false_of_ne same]
      exact AList.lookup_insert_ne same

theorem Collected.AddRule (collected : Collected i calls file) (rule : BuildRule) :
    Collected i (calls ++ [.AddRule i rule]) (file.AddRule rule) := by
  have names : variablesOn i (calls ++ [.AddRule i rule]) = variablesOn i calls := by
    simp [variablesOn]
  have rules : rulesOn i (calls ++ [.AddRule i rule]) = rulesOn i calls ++ [rule] := by
    simp [rulesOn]
  have edges : edgesOn i (calls ++ [.AddRule i rule]) = edgesOn i calls := by simp [edgesOn]
  refine ⟨names ▸ collected.names, names ▸ collected.values, ?_, edges ▸ collected.buildEdges⟩
  rw [rules, ← collected.ruleDeclarations]
  rfl

theorem Collected.AddBuildEdge (collected : Collected i calls file) (edge : BuildEdge) :
    Collected i (calls ++ [.AddBuildEdge i edge]) (file.AddBuildEdge edge) := by
  have names : variablesOn i (calls ++ [.AddBuildEdge i edge]) = variablesOn i calls := by
    simp [variablesOn]
  have rules : rulesOn i (calls ++ [.AddBuildEdge i edge]) = rulesOn i calls := by simp [rulesOn]
  have edges : edgesOn i (calls ++ [.AddBuildEdge i edge]) = edgesOn i calls ++ [edge] := by
    simp [edgesOn]
  refine ⟨names ▸ collected.names, names ▸ collected.values, rules ▸ collected.ruleDeclarations, ?_⟩
  rw [edges, ← collected.buildEdges]
  rfl

/-- No call has been on a file that is not made yet. -/
theorem collected_new (fresh : ∀ call ∈ calls, ¬call.On i) : Collected i calls {} := by
  have names : variablesOn i calls = [] := by
    refine List.filterMap_eq_nil_iff.mpr fun call member => ?_
    have elsewhere := fresh call member
    cases call <;> simp_all [Call.On]
  have rules : rulesOn i calls = [] := by
    refine List.filterMap_eq_nil_iff.mpr fun call member => ?_
    have elsewhere := fresh call member
    cases call <;> simp_all [Call.On]
  have edges : edgesOn i calls = [] := by
    refine List.filterMap_eq_nil_iff.mpr fun call member => ?_
    have elsewhere := fresh call member
    cases call <;> simp_all [Call.On]
  refine ⟨?_, fun name => ?_, rules.symm, edges.symm⟩
  · rw [names]
    rfl
  · rw [names]
    exact AList.lookup_empty name

/-! ### All files -/

/-- The call changes one file, and nothing is included. -/
theorem Holds.modify (holds : Holds calls st) {update : NinjaFile → NinjaFile} {k : Nat}
    (on : ∀ i, call.On i ↔ k = i) (made : k < st.files.length)
    (nothing : included (calls ++ [call]) = included calls)
    (here : ∀ file, Collected k calls file → Collected k (calls ++ [call]) (update file)) :
    Holds (calls ++ [call]) { st with files := st.files.modify k update } where
  files i file found := by
    obtain ⟨before, old, changed⟩ : ∃ before, st.files[i]? = some before ∧
        (if k = i then update before else before) = file := by
      simpa [List.getElem?_modify] using found
    have collected := holds.files i before old
    by_cases same : k = i
    · subst same
      rw [if_pos rfl] at changed
      exact changed ▸ here before collected
    · rw [if_neg same] at changed
      exact changed ▸ collected.other fun calls => same ((on i).mp calls)
  includes := nothing ▸ holds.includes
  made := by
    rw [List.length_modify]
    refine List.forall_mem_append.mpr ⟨holds.made, List.forall_mem_singleton.mpr fun i called => ?_⟩
    exact (on i).mp called ▸ made

/-- The step lemma. -/
theorem Holds.next (holds : Holds calls st) (call : Call) (enabled : ninja.Enabled st call) :
    Holds (calls ++ [call]) (perform st call) := by
  cases call with
  | Construct =>
    have nowhere : ∀ i, ¬Call.Construct.On i := fun _ => id
    have more : (st.files ++ [({} : NinjaFile)]).length = st.files.length + 1 := List.length_append
    refine ⟨fun i file found => ?_, holds.includes.trans (by simp [included]), ?_⟩
    · refine Collected.other ?_ (nowhere i)
      by_cases old : i < st.files.length
      · exact holds.files i file ((List.getElem?_append_left old).symm.trans found)
      · -- The new file comes behind all others.
        have index : i = st.files.length := by
          have inside : i < (st.files ++ [({} : NinjaFile)]).length :=
            (List.getElem?_eq_some_iff.mp found).1
          rw [more] at inside
          omega
        have same : file = ({} : NinjaFile) := by
          rw [index, perform, List.getElem?_concat_length] at found
          exact (Option.some.inj found).symm
        exact same ▸ collected_new fun call member on => old (holds.made call member i on)
    · intro call member i on
      rw [perform, more]
      rcases List.mem_append.mp member with before | last
      · exact Nat.lt_succ_of_lt (holds.made call before i on)
      · exact absurd (List.mem_singleton.mp last ▸ on) (nowhere i)
  | AddVariable k name value =>
    exact holds.modify (fun _ => Iff.rfl) (enabled k rfl) (by simp [included])
      fun file collected => collected.AddVariable name value
  | AddRule k rule =>
    exact holds.modify (fun _ => Iff.rfl) (enabled k rfl) (by simp [included])
      fun file collected => collected.AddRule rule
  | AddBuildEdge k edge =>
    exact holds.modify (fun _ => Iff.rfl) (enabled k rfl) (by simp [included])
      fun file collected => collected.AddBuildEdge edge
  | AddInclude k targetID =>
    have shared : included (calls ++ [.AddInclude k targetID]) = included calls ++ [targetID] := by
      simp [included]
    refine ⟨fun i file found => ?_, ?_, ?_⟩
    · obtain ⟨names, values, rules, edges⟩ := holds.files i file found
      have variables_ : variablesOn i (calls ++ [.AddInclude k targetID]) = variablesOn i calls := by
        simp [variablesOn]
      have rules_ : rulesOn i (calls ++ [.AddInclude k targetID]) = rulesOn i calls := by
        simp [rulesOn]
      have edges_ : edgesOn i (calls ++ [.AddInclude k targetID]) = edgesOn i calls := by
        simp [edgesOn]
      exact ⟨variables_ ▸ names, variables_ ▸ values, rules_ ▸ rules, edges_ ▸ edges⟩
    · rw [shared, ← holds.includes]
      rfl
    · refine List.forall_mem_append.mpr ⟨holds.made, List.forall_mem_singleton.mpr fun i on => ?_⟩
      exact enabled i on

theorem holds_run {after : NinjaFiles} (run : ninja.Run {} calls after) : Holds calls after := by
  generalize start : ({} : NinjaFiles) = first at run
  induction run with
  | start =>
    subst start
    exact ⟨fun i file found => absurd found (by simp), rfl, List.forall_mem_nil _⟩
  | step before enabled stepped ih =>
    obtain rfl := Except.ok.inj stepped
    exact ih.next _ enabled

/-! ## What is read after the calls -/

/-- The arguments can be written as they are. -/
def Call.WellFormed : Call → Prop
  | .Construct => True
  | .AddVariable _ name value => IsName name ∧ IsValue value
  | .AddRule _ rule => rule.WellFormed
  | .AddBuildEdge _ edge => edge.WellFormed
  | .AddInclude _ targetID => IsPaths targetID ∧ blank ∉ targetID

/-- A name is printed with the value that it has been given last. -/
theorem Collected.assigned (collected : Collected i calls file) :
    file.variables_.assigned = (variablesOn i calls).map fun added =>
      (added.1, lastValue (variablesOn i calls) added.1) := by
  have value : ∀ name, file.variables_.value name = lastValue (variablesOn i calls) name.1 := by
    intro name
    rw [lastValue, ← collected.values, Variables.value]
    exact Option.get_eq_getD _
  have listed : file.variables_.assigned =
      file.variables_.names.map fun name => (name, lastValue (variablesOn i calls) name) := by
    rw [Variables.assigned, List.map_congr_left fun name _ => congrArg (Prod.mk name.1) (value name),
      List.attach_map_val (f := fun name => (name, lastValue (variablesOn i calls) name))]
  rw [listed, collected.names, List.map_map]
  rfl

theorem Collected.declarations (collected : Collected i calls file) :
    file.declarations (included calls) = declared i calls := by
  rw [NinjaFile.declarations, collected.assigned, collected.ruleDeclarations,
    collected.buildEdges, List.map_map]
  rfl

/-- The last value is one of those that have been given. -/
theorem mem_lastValue {added : List (LuaString × LuaString)} {given : LuaString × LuaString}
    (member : given ∈ added) : (given.1, lastValue added given.1) ∈ added := by
  obtain ⟨value, found⟩ : ∃ value, added.reverse.lookup given.1 = some value :=
    Option.isSome_iff_exists.mp
      (List.lookup_isSome_iff.mpr ⟨given, List.mem_reverse.mpr member, beq_self_eq_true _⟩)
  obtain ⟨before, behind, shape, -⟩ := List.lookup_eq_some_iff.mp found
  rw [lastValue, found, Option.getD_some]
  exact List.mem_reverse.mp (shape ▸ List.mem_append_right _ List.mem_cons_self)

theorem Collected.wellFormed (collected : Collected i calls file)
    (wellFormed : ∀ call ∈ calls, call.WellFormed) : file.WellFormed := by
  have variables_ : Assignable (variablesOn i calls) := by
    intro added member
    obtain ⟨call, inside, found⟩ := List.mem_filterMap.mp member
    have valid := wellFormed call inside
    cases call with
    | AddVariable k name value =>
      obtain ⟨-, same⟩ := Option.ite_none_right_eq_some.mp found
      obtain rfl := Option.some.inj same
      exact valid
    | Construct | AddRule | AddBuildEdge | AddInclude => cases found
  refine ⟨?_, fun rule member => ?_, fun edge member => ?_⟩
  · rw [collected.assigned]
    intro field member
    obtain ⟨added, inside, rfl⟩ := List.mem_map.mp member
    exact variables_ _ (mem_lastValue inside)
  · rw [collected.ruleDeclarations] at member
    obtain ⟨call, inside, found⟩ := List.mem_filterMap.mp member
    have valid := wellFormed call inside
    cases call with
    | AddRule k added =>
      obtain ⟨-, same⟩ := Option.ite_none_right_eq_some.mp found
      obtain rfl := Option.some.inj same
      exact valid
    | Construct | AddVariable | AddBuildEdge | AddInclude => cases found
  · rw [collected.buildEdges] at member
    obtain ⟨call, inside, found⟩ := List.mem_filterMap.mp member
    have valid := wellFormed call inside
    cases call with
    | AddBuildEdge k added =>
      obtain ⟨-, same⟩ := Option.ite_none_right_eq_some.mp found
      obtain rfl := Option.some.inj same
      exact valid
    | Construct | AddVariable | AddRule | AddInclude => cases found

/-- The main result: what Ninja reads from a file is what the calls on it have declared, and
what has been included in any file. -/
theorem read_ToString {after : NinjaFiles} (run : ninja.Run {} calls after)
    (wellFormed : ∀ call ∈ calls, call.WellFormed) (found : after.files[i]? = some file) :
    read (file.ToString after.includes) = some (declared i calls) := by
  have holds := holds_run run
  have collected := holds.files i file found
  have clean : ∀ targetID ∈ after.includes, OneLine targetID := by
    rw [holds.includes]
    intro targetID member
    obtain ⟨call, inside, same⟩ := List.mem_filterMap.mp member
    have valid := wellFormed call inside
    cases call with
    | AddInclude k added =>
      obtain rfl := Option.some.inj same
      exact valid.1.oneLine
    | Construct | AddVariable | AddRule | AddBuildEdge => cases same
  rw [read_file (collected.wellFormed wellFormed) clean, holds.includes, collected.declarations]

/-- Two files, of which the second one is changed. -/
def sampleFileCalls : List Call :=
  [.Construct, .Construct, .AddVariable 1 (ascii "CC") (ascii "gcc"),
    .AddRule 1 { name := ascii "compile", command := ascii "$CC -c $in -o $out" },
    .AddBuildEdge 1 { outputs := ascii "a.o", inputs := [ascii "compile a.c"] },
    .AddVariable 1 (ascii "CC") (ascii "clang"), .AddInclude 0 (ascii "tests")]

theorem sampleFileCalls_run : ninja.Run {} sampleFileCalls (sampleFileCalls.foldl perform {}) := by
  have second : ∀ i, 1 = i → i < 2 := fun i same => same ▸ Nat.one_lt_two
  have first : ∀ i, 0 = i → i < 2 := fun i same => same ▸ Nat.two_pos
  exact System.run_of_follows ⟨_, fun _ => False.elim, rfl, _, fun _ => False.elim, rfl, _, second, rfl,
    _, second, rfl, _, second, rfl, _, second, rfl, _, first, rfl, rfl⟩

theorem sampleFileCalls_wellFormed : ∀ call ∈ sampleFileCalls, call.WellFormed := by
  have rule : BuildRule.WellFormed
      { name := ascii "compile", command := ascii "$CC -c $in -o $out" } :=
    ⟨by decide, by decide⟩
  have edge : BuildEdge.WellFormed { outputs := ascii "a.o", inputs := [ascii "compile a.c"] } :=
    ⟨by decide, by decide, by decide, by decide, by decide⟩
  have first : IsName (ascii "CC") ∧ IsValue (ascii "gcc") := by decide
  have later : IsName (ascii "CC") ∧ IsValue (ascii "clang") := by decide
  have other : IsPaths (ascii "tests") ∧ blank ∉ ascii "tests" := by decide
  simp only [sampleFileCalls, List.forall_mem_cons, List.not_mem_nil, Call.WellFormed]
  exact ⟨trivial, trivial, first, rule, edge, later, other, fun _ => False.elim⟩

theorem read_ToString_sample : ∃ (after : NinjaFiles) (file : NinjaFile), after.files[1]? = some file ∧
    read (file.ToString after.includes) = some (declared 1 sampleFileCalls) :=
  ⟨_, _, rfl, read_ToString sampleFileCalls_run sampleFileCalls_wellFormed rfl⟩

/-- The variable is declared as often as it is added, and the other file has been included. -/
example : (declared 1 sampleFileCalls).map Declaration.head =
    [.variable_ (ascii "ninja_required_version") (ascii "1.10.0"),
      .variable_ (ascii "CC") (ascii "clang"), .variable_ (ascii "CC") (ascii "clang"),
      .rule (ascii "compile"), .build [ascii "a.o"] (ascii "compile") [ascii "a.c"],
      .subninja (ascii "tests.ninja")] := by decide

end EvoRuntime.BuildTools
