import EvoRuntime.Extensions.Stringx
import EvoRuntime.Library.Pairing
import EvoRuntime.Library.Runs
import Mathlib.Data.List.AList

/-!
# Submodules

`git.modules` reads a `.gitmodules` file line by line. A line is the header of a submodule, or
it sets a field of the submodule that was named last.

## Main result

`modules_roundTrip_iff`: a file is read back as it was written if and only if no value looks
like a header or like another field, and no value ends with a carriage return that the line
feed behind it completes.

## Proof strategy

What is written in front of a value contains neither a header nor another field, so a line
matches such a pattern exactly if the value does (`infix_behind`). Conversely every value that
is read was found in a line that is no header, and the field that is tried first is not found
in the values of the others (`parseNextLine_values`).
-/
namespace EvoRuntime.Git

open Lua Library Pattern Extensions

/-! ## Reading -/

inductive Field
  | path
  | url
  | ignore
  | update
  | branch
  | fetchRecurseSubmodules
  | shallow
  deriving DecidableEq

def Field.name : Field → LuaString
  | path => ascii "path"
  | url => ascii "url"
  | ignore => ascii "ignore"
  | update => ascii "update"
  | branch => ascii "branch"
  | fetchRecurseSubmodules => ascii "fetchRecurseSubmodules"
  | shallow => ascii "shallow"

def recognizedFields : List Field :=
  [.path, .url, .ignore, .update, .branch, .fetchRecurseSubmodules, .shallow]

theorem mem_recognizedFields (fieldName : Field) : fieldName ∈ recognizedFields := by
  cases fieldName <;> decide

/-- `%[submodule%s"(.*)%"]` -/
def headerPattern : Pattern UInt8 :=
  literal (ascii "[submodule") ++
    [space, literalItem 0x22, anything, literalItem 0x22, literalItem 0x5D]

/-- `%s?` and the name, then `%s?=%s?(.*)`. -/
def fieldPattern (fieldName : Field) : Pattern UInt8 :=
  optionalSpace ::
    (literal fieldName.name ++ [optionalSpace, literalItem 0x3D, optionalSpace, anything])

/-- The tables of the submodules, each of them with the fields that are set. -/
abbrev Submodules := LuaString → Option (Field → Option LuaString)

/-- The name is kept in a variable of the module, so it stays from one call to the next. -/
structure Parser where
  currentSubmoduleName : Option LuaString
  submodules : Submodules

/-- The first field, in the order of `pairs`, that is found in the line. -/
def matchField (order : List Field) (line : LuaString) : Option (Field × LuaString) :=
  order.findSome? fun fieldName => (firstMatch (fieldPattern fieldName) line).map (fieldName, ·)

def parseNextLine (order : List Field) (parser : Parser) (line : LuaString) :
    Except LuaError Parser :=
  match firstMatch headerPattern line with
  | some submoduleName => .ok
    { currentSubmoduleName := some submoduleName
      submodules := Function.update parser.submodules submoduleName (some fun _ => none) }
  | none =>
    match matchField order line with
    | none => .ok parser
    | some (fieldName, matchedValue) =>
      match parser.currentSubmoduleName.bind fun name => (parser.submodules name).map (name, ·) with
      | none => .error ⟨"attempt to index a nil value"⟩
      | some (name, fields) => .ok
        { parser with
          submodules := Function.update parser.submodules name
            (some (Function.update fields fieldName (some matchedValue))) }

/-- `pairs` may take the fields in another order for every line. -/
def parseLine (orders : Nat → List Field) (parser : Parser) (line : LuaString × Nat) :
    Except LuaError Parser :=
  parseNextLine (orders line.2) parser line.1

/-- `fileContents:gsub("\r\n", "\n")` -/
def normalize (fileContents : LuaString) : LuaString :=
  replaceAll (literal [0x0D, newline]) [newline] fileContents

/-- The state of the parser after `git.modules`, which returns its submodules. -/
def modules (orders : Nat → List Field) (currentSubmoduleName : Option LuaString)
    (fileContents : LuaString) : Except LuaError Parser :=
  let lines := explode (normalize fileContents) (· = newline)
  lines.zipIdx.foldlM (parseLine orders)
    { currentSubmoduleName := currentSubmoduleName, submodules := fun _ => none }

/-! ## Writing -/

inductive LineEnd
  | lf
  | crlf
  deriving DecidableEq

def LineEnd.text : LineEnd → LuaString
  | lf => [newline]
  | crlf => [0x0D, newline]

/-- Submodules with different names, each with some of the fields. -/
abbrev GitModules := AList fun _ : LuaString => AList fun _ : Field => LuaString

def headerLine (name : LuaString) : LuaString := ascii "[submodule \"" ++ name ++ ascii "\"]"

def fieldLine (indent : LuaString) (fieldName : Field) (value : LuaString) : LuaString :=
  indent ++ fieldName.name ++ ascii " =" ++ 0x20 :: value

def submoduleLines (indent name : LuaString) (fields : List (Σ _ : Field, LuaString)) :
    List LuaString :=
  headerLine name :: fields.map fun field => fieldLine indent field.1 field.2

def GitModules.lines (submodules : GitModules) (indent : LuaString) : List LuaString :=
  submodules.entries.flatMap fun submodule =>
    submoduleLines indent submodule.1 submodule.2.entries

def GitModules.text (submodules : GitModules) (indent : LuaString) (lineEnd : LineEnd) :
    LuaString :=
  (submodules.lines indent).flatMap (· ++ lineEnd.text)

/-- What is to be read from the file. -/
def GitModules.tables (submodules : GitModules) : Submodules :=
  fun name => (submodules.lookup name).map fun fields fieldName => fields.lookup fieldName

/-- Lines may be indented by blanks. -/
def IsIndent (indent : LuaString) : Prop := ∀ c ∈ indent, c = 0x20 ∨ c = 0x09

structure IsSubmoduleName (name : LuaString) : Prop where
  noQuote : 0x22 ∉ name
  noNewline : newline ∉ name

structure WellFormed (submodules : GitModules) : Prop where
  name : ∀ name ∈ submodules.keys, IsSubmoduleName name
  value : ∀ name fields fieldName value, submodules.lookup name = some fields →
    fields.lookup fieldName = some value → newline ∉ value

/-- What holds of all entries holds of all fields that are looked up. -/
theorem GitModules.forall_lookup {submodules : GitModules} {P : Field → LuaString → Prop}
    (entries : ∀ submodule ∈ submodules.entries, ∀ field ∈ submodule.2.entries, P field.1 field.2)
    (name : LuaString) (fields : AList fun _ : Field => LuaString) (fieldName : Field)
    (value : LuaString) (listed : submodules.lookup name = some fields)
    (set : fields.lookup fieldName = some value) : P fieldName value :=
  entries ⟨name, fields⟩ (AList.mem_lookup_iff.mp listed) ⟨fieldName, value⟩
    (AList.mem_lookup_iff.mp set)

/-! ## Line ends -/

/-- What is left of a line: a line feed swallows a carriage return in front of it. -/
def LineEnd.readLine (lineEnd : LineEnd) : LuaString → LuaString
  | [] => []
  | c :: line => if lineEnd = lf ∧ c = 0x0D ∧ line = [] then [] else c :: readLine lineEnd line

variable {lineEnd : LineEnd} {line value indent name : LuaString}

theorem matchHere_crlf (c : UInt8) (s : LuaString) :
    matchHere (literal [0x0D, newline]) (c :: s) =
      if c = 0x0D ∧ s.head? = some newline then some { text := [0x0D, newline], captures := [] }
      else none := by
  have first : (literalItem (0x0D : UInt8)).accepts c = decide (c = 0x0D) := rfl
  rw [literal, List.map_cons, matchHere_one rfl, first]
  cases s with
  | nil =>
    rw [List.map_cons, matchHere_one_nil rfl]
    simp
  | cons d s =>
    have second : (literalItem newline).accepts d = decide (d = newline) := rfl
    rw [List.map_cons, matchHere_one rfl, second, List.map_nil, matchHere]
    by_cases carriage : c = 0x0D <;> by_cases feed : d = newline <;>
      simp [carriage, feed, Found.behind, literalItem]

theorem normalize_crlf (rest : LuaString) :
    normalize (0x0D :: newline :: rest) = newline :: normalize rest := by
  have found : matchHere (literal [0x0D, newline]) ([0x0D, newline] ++ rest) =
      some { text := [0x0D, newline], captures := [] } := by
    rw [List.cons_append, matchHere_crlf, if_pos ⟨rfl, rfl⟩]
  exact @replaceAll_found _ _ rest { text := [0x0D, newline], captures := [] } _ (by simp) found

theorem normalize_other {c : UInt8} {s : LuaString} (other : c = 0x0D → s.head? ≠ some newline) :
    normalize (c :: s) = c :: normalize s := by
  have kept : matchHere (literal [0x0D, newline]) (c :: s) = none := by
    rw [matchHere_crlf, if_neg (by simpa using other)]
  exact replaceAll_none _ kept

theorem normalize_line (clean : newline ∉ line) (rest : LuaString) :
    normalize (line ++ (lineEnd.text ++ rest)) =
      lineEnd.readLine line ++ newline :: normalize rest := by
  induction line with
  | nil =>
    cases lineEnd with
    | lf => exact normalize_other fun same => absurd same (by decide)
    | crlf => exact normalize_crlf rest
  | cons c line ih =>
    have rest_clean : newline ∉ line := fun inside => clean (List.mem_cons_of_mem _ inside)
    rw [List.cons_append, LineEnd.readLine]
    split
    next swallowed =>
      obtain ⟨rfl, rfl, rfl⟩ := swallowed
      exact normalize_crlf rest
    next kept =>
      rw [normalize_other, ih rest_clean]
      · rfl
      -- A carriage return in the line has a line feed behind it only at the end.
      rintro rfl feed
      cases line with
      | nil =>
        cases lineEnd with
        | lf => exact kept ⟨rfl, rfl, rfl⟩
        | crlf => exact absurd feed (by simp [LineEnd.text, newline])
      | cons d line =>
        obtain rfl := Option.some.inj feed
        exact rest_clean List.mem_cons_self

theorem normalize_lines {lines : List LuaString} (clean : ∀ line ∈ lines, newline ∉ line) :
    normalize (lines.flatMap (· ++ lineEnd.text)) =
      (lines.map lineEnd.readLine).flatMap (· ++ [newline]) := by
  induction lines with
  | nil => rfl
  | cons line lines ih =>
    rw [List.flatMap_cons, List.append_assoc, normalize_line (clean line List.mem_cons_self),
      ih fun other member => clean other (List.mem_cons_of_mem _ member), List.map_cons,
      List.flatMap_cons, List.append_assoc]
    rfl

theorem readLine_isPrefix : lineEnd.readLine line <+: line := by
  induction line with
  | nil => exact List.prefix_rfl
  | cons c line ih =>
    rw [LineEnd.readLine]
    split
    · exact List.nil_prefix
    · exact (List.prefix_cons_inj c).mpr ih

theorem readLine_append (front : LuaString) (nonempty : line ≠ []) :
    lineEnd.readLine (front ++ line) = front ++ lineEnd.readLine line := by
  induction front with
  | nil => rfl
  | cons c front ih =>
    have more : front ++ line ≠ [] := List.append_ne_nil_of_right_ne_nil _ nonempty
    rw [List.cons_append, LineEnd.readLine, if_neg fun swallowed => more swallowed.2.2, ih]
    rfl

theorem readLine_eq_self_iff :
    lineEnd.readLine line = line ↔ (lineEnd = .lf → line.getLast? ≠ some 0x0D) := by
  induction line with
  | nil => simp [LineEnd.readLine]
  | cons c line ih =>
    rw [LineEnd.readLine]
    split
    next swallowed =>
      obtain ⟨rfl, rfl, rfl⟩ := swallowed
      simp
    next kept =>
      rw [List.cons_inj_right, ih]
      cases line with
      | nil =>
        simp only [List.getLast?_nil, List.getLast?_singleton]
        simpa [not_and] using kept
      | cons d line => rw [List.getLast?_cons_cons]

/-! ## One line -/

variable {fieldName other : Field} {order : List Field}

theorem name_clean (fieldName : Field) :
    ∀ c ∈ fieldName.name, c ≠ newline ∧ c ≠ 0x20 ∧ c ≠ 0x09 ∧ c ≠ 0x5B := by
  cases fieldName <;> decide +kernel

theorem name_nonempty (fieldName : Field) : fieldName.name ≠ [] := by
  cases fieldName <;> decide

theorem matchHere_closing {s : LuaString}
    (matched : matchHere [literalItem (0x22 : UInt8), literalItem 0x5D] s ≠ none) :
    ∃ rest, s = 0x22 :: 0x5D :: rest := by
  obtain ⟨found, matched⟩ := Option.ne_none_iff_exists'.mp matched
  obtain ⟨denotes, rest, rfl⟩ := matchHere_sound matched
  have denotes : Denotes (literal [(0x22 : UInt8), 0x5D] ++ []) found.text := denotes
  obtain ⟨more, text, empty⟩ := denotes_literal.mp denotes
  rw [text]
  exact ⟨more ++ rest, rfl⟩

/-- The name of a header ends at the last quote. -/
theorem firstMatch_headerLine (noQuote : 0x22 ∉ name) :
    firstMatch headerPattern (headerLine name) = some name := by
  have line : headerLine name = ascii "[submodule" ++ (0x20 :: 0x22 :: (name ++ [0x22, 0x5D])) := by
    rw [headerLine, List.append_assoc]
    rfl
  have named : matchHere [anything, literalItem 0x22, literalItem 0x5D] (name ++ [0x22, 0x5D]) =
      some (.behind anything ((name ++ [0x22, 0x5D]).take name.length)
        { text := [0x22, 0x5D], captures := [] }) := by
    refine matchHere_unique ?_ ?_ fun m member differs => ?_
    · exact mem_lengths.mpr ⟨by simp, fun _ _ => rfl, trivial⟩
    · rw [List.drop_left]
      rfl
    · -- Any other place where the quote is found would be inside of the name.
      by_contra matched
      obtain ⟨rest, dropped⟩ := matchHere_closing matched
      have whole := List.take_append_drop m (name ++ [0x22, 0x5D])
      rw [dropped] at whole
      have same := ((List.append_cons_inj_of_notMem noQuote (by decide)).mp whole.symm).1
      have inside := (mem_lengths.mp member).1
      exact differs (by rw [same, List.length_take, Nat.min_eq_left inside])
  apply firstMatch_here
  rw [line, headerPattern, matchHere_literal, matchHere_one rfl, if_pos (by decide),
    matchHere_one rfl, if_pos (by decide), named, List.take_left]
  rfl

theorem matchHere_fieldPattern {lead : LuaString} (fieldName : Field) (value : LuaString)
    (optional : lead.length ≤ 1) (blank : ∀ c ∈ lead, isSpace c) :
    (matchHere (fieldPattern fieldName) (fieldLine lead fieldName value)).map Found.captures =
      some [value] := by
  have line : fieldLine lead fieldName value =
      lead ++ (fieldName.name ++ 0x20 :: 0x3D :: 0x20 :: value) := by
    simp only [fieldLine, List.append_assoc]
    rfl
  have behind : matchHere [optionalSpace, literalItem 0x3D, optionalSpace, anything]
      (0x20 :: 0x3D :: 0x20 :: value) =
        some { text := 0x20 :: 0x3D :: 0x20 :: value, captures := [value] } := by
    have more : matchHere [literalItem 0x3D, optionalSpace, anything] (0x3D :: 0x20 :: value) =
        some { text := 0x3D :: 0x20 :: value, captures := [value] } := by
      rw [matchHere_one rfl, if_pos (by decide),
        matchHere_optional rfl rfl (matchHere_anything value)]
      rfl
    exact matchHere_optional rfl rfl more
  have ends : ∀ c ∈ (fieldName.name ++ 0x20 :: 0x3D :: 0x20 :: value).head?, isSpace c = false := by
    cases fieldName <;> (rintro c ⟨⟩; decide)
  have takes : optionalSpace.Takes lead := ⟨blank, optional⟩
  have named : matchHere (literal fieldName.name ++
      [optionalSpace, literalItem 0x3D, optionalSpace, anything])
      (fieldName.name ++ 0x20 :: 0x3D :: 0x20 :: value) =
        some { text := fieldName.name ++ 0x20 :: 0x3D :: 0x20 :: value, captures := [value] } := by
    rw [matchHere_literal, behind]
    rfl
  rw [line, fieldPattern, matchHere_taken takes ends named]
  rfl

/-- The field is found behind the indent. -/
theorem firstMatch_fieldLine (indented : IsIndent indent) :
    firstMatch (fieldPattern fieldName) (fieldLine indent fieldName value) = some value := by
  have blank : ∀ c ∈ indent, isSpace c := by
    intro c member
    rcases indented c member with rfl | rfl <;> rfl
  induction indent with
  | nil => exact firstMatch_here (matchHere_fieldPattern fieldName value (by simp) blank)
  | cons c indent ih =>
    cases indent with
    | nil => exact firstMatch_here (matchHere_fieldPattern fieldName value (by simp) blank)
    | cons d indent =>
      refine (firstMatch_skip ?_).trans (ih (List.forall_mem_of_forall_mem_cons indented)
        (List.forall_mem_of_forall_mem_cons blank))
      -- There would have to be a blank in the name.
      have skipped : ∀ b, b = 0x20 ∨ b = 0x09 → ∀ s, ¬fieldName.name <+: b :: s := by
        rintro b indentation s ⟨rest, same⟩
        obtain ⟨first, letters, name⟩ := List.exists_cons_of_ne_nil (name_nonempty fieldName)
        rw [name, List.cons_append, List.cons.injEq] at same
        have clean := name_clean fieldName b (name ▸ same.1 ▸ List.mem_cons_self)
        exact indentation.elim clean.2.1 clean.2.2.1
      rw [matchHere_eq_none_iff]
      rintro w ⟨taken, more, rfl, ⟨-, optional⟩, denotes⟩ part
      obtain ⟨rest, rfl, -⟩ := denotes_literal.mp denotes
      rcases Nat.le_one_iff_eq_zero_or_eq_one.mp optional with none | single
      · rw [List.length_eq_zero_iff.mp none, List.nil_append] at part
        exact skipped c (indented c (by simp)) _ ((List.prefix_append ..).trans part)
      · obtain ⟨b, rfl⟩ := List.length_eq_one_iff.mp single
        have part := (List.cons_prefix_cons.mp part).2
        exact skipped d (indented d (by simp)) _ ((List.prefix_append ..).trans part)

/-- What no word may contain in front of a value: the indent, the name of a field and the equals
sign. -/
theorem absent_indent {word t : LuaString} (nonempty : word ≠ [])
    (foreign : ∀ c ∈ word, c ≠ 0x20 ∧ c ≠ 0x09) (indented : IsIndent indent)
    (inside : word <:+: indent ++ t) : word <:+: t := by
  induction indent with
  | nil => exact inside
  | cons c indent ih =>
    rcases List.infix_cons_iff.mp inside with here | later
    · obtain ⟨first, letters, rfl⟩ := List.exists_cons_of_ne_nil nonempty
      have clean := foreign c ((List.cons_prefix_cons.mp here).1 ▸ List.mem_cons_self)
      exact absurd (indented c List.mem_cons_self) (not_or.mpr clean)
    · exact ih (List.forall_mem_of_forall_mem_cons indented) later

/-- A pattern that starts with a word is found in a line only if it is found in the value. -/
theorem search_fieldLine {word : LuaString} {rest : Pattern UInt8} (nonempty : word ≠ [])
    (foreign : ∀ c ∈ word, c ≠ 0x20 ∧ c ≠ 0x09) (absent : ¬word <:+: fieldName.name ++ ascii " = ")
    (indented : IsIndent indent) (missing : search (literal word ++ rest) value = none) :
    search (literal word ++ rest) (fieldLine indent fieldName value) = none := by
  have line : fieldLine indent fieldName value =
      (indent ++ (fieldName.name ++ ascii " =")) ++ [0x20] ++ value := by
    simp [fieldLine]
  rw [line]
  refine search_literal_behind ?_ (fun blank => (foreign _ blank).1 rfl) missing
  intro inside
  rw [List.append_assoc, List.append_assoc] at inside
  exact absent (absent_indent nonempty foreign indented inside)

theorem firstMatch_headerPattern (indented : IsIndent indent)
    (missing : search headerPattern value = none) :
    firstMatch headerPattern (fieldLine indent fieldName value) = none := by
  rw [firstMatch_eq_none_iff]
  refine search_fieldLine (by decide) (by decide +kernel) ?_ indented missing
  cases fieldName <;> decide

theorem firstMatch_fieldPattern (differs : other ≠ fieldName) (indented : IsIndent indent)
    (missing : search (fieldPattern other) value = none) :
    firstMatch (fieldPattern other) (fieldLine indent fieldName value) = none := by
  have skippable : optionalSpace.repetition.Allows 0 := Nat.zero_le 1
  rw [fieldPattern, search_skippable skippable] at missing
  rw [firstMatch_eq_none_iff, fieldPattern, search_skippable skippable]
  refine search_fieldLine (name_nonempty other)
    (fun c member => ⟨(name_clean other c member).2.1, (name_clean other c member).2.2.1⟩) ?_
    indented missing
  revert differs
  cases other <;> cases fieldName <;> decide

/-- The field of a line is the one that was written, whichever is tried first. -/
theorem matchField_fieldLine (all : order.Perm recognizedFields) (indented : IsIndent indent)
    (missing : ∀ other ≠ fieldName, search (fieldPattern other) value = none) :
    matchField order (fieldLine indent fieldName value) = some (fieldName, value) := by
  have member : fieldName ∈ order := all.mem_iff.mpr (by cases fieldName <;> decide)
  refine findSome?_unique member ?_ fun other _ differs => ?_
  · rw [firstMatch_fieldLine indented, Option.map_some]
  · rw [firstMatch_fieldPattern differs indented (missing other differs), Option.map_none]

/-! ## All lines -/

/-- The value is not taken for a header, nor for another field. -/
structure IsPlain (fieldName : Field) (value : LuaString) : Prop where
  noHeader : search headerPattern value = none
  noField : ∀ other ≠ fieldName, search (fieldPattern other) value = none

instance (fieldName : Field) (value : LuaString) : Decidable (IsPlain fieldName value) :=
  decidable_of_iff
    (search headerPattern value = none ∧ ∀ other ∈ recognizedFields, other ≠ fieldName →
      search (fieldPattern other) value = none)
    ⟨fun plain => ⟨plain.1, fun other => plain.2 other (mem_recognizedFields other)⟩,
      fun plain => ⟨plain.noHeader, fun other _ => plain.noField other⟩⟩

theorem IsPlain.readLine (plain : IsPlain fieldName value) :
    IsPlain fieldName (lineEnd.readLine value) where
  noHeader := search_none_of_infix readLine_isPrefix.isInfix plain.noHeader
  noField other differs := search_none_of_infix readLine_isPrefix.isInfix (plain.noField other differs)

/-- The parser is reading the submodule, of which it knows this table. -/
def Parser.within (submodules : Submodules) (name : LuaString) (table : Field → Option LuaString) :
    Parser where
  currentSubmoduleName := some name
  submodules := Function.update submodules name (some table)

variable {orders : Nat → List Field}

theorem parseLine_field (all : ∀ n, (orders n).Perm recognizedFields) (indented : IsIndent indent)
    (plain : IsPlain fieldName value) (submodules : Submodules) (table : Field → Option LuaString)
    (n : Nat) :
    parseLine orders (.within submodules name table) (fieldLine indent fieldName value, n) =
      .ok (.within submodules name (Function.update table fieldName (some value))) := by
  rw [parseLine, parseNextLine, firstMatch_headerPattern indented plain.noHeader,
    matchField_fieldLine (all n) indented plain.noField]
  simp [Parser.within]

theorem parse_fields (all : ∀ n, (orders n).Perm recognizedFields) (indented : IsIndent indent)
    {fields : List (Σ _ : Field, LuaString)} (plain : ∀ field ∈ fields, IsPlain field.1 field.2)
    (submodules : Submodules) (table : Field → Option LuaString) (n : Nat) :
    ((fields.map fun field => fieldLine indent field.1 (lineEnd.readLine field.2)).zipIdx n).foldlM
      (parseLine orders) (.within submodules name table) =
    .ok (.within submodules name (setEntries lineEnd.readLine fields table)) := by
  induction fields generalizing table n with
  | nil => rfl
  | cons field fields ih =>
    rw [List.map_cons, List.zipIdx_cons, List.foldlM_cons,
      parseLine_field all indented (plain field List.mem_cons_self).readLine]
    exact ih (fun other member => plain other (List.mem_cons_of_mem _ member)) _ _

/-- The lines of a submodule, as they are read. -/
def readLines (lineEnd : LineEnd) (indent name : LuaString) (fields : List (Σ _ : Field, LuaString)) :
    List LuaString :=
  headerLine name :: fields.map fun field => fieldLine indent field.1 (lineEnd.readLine field.2)

theorem parse_submodule (all : ∀ n, (orders n).Perm recognizedFields) (indented : IsIndent indent)
    (noQuote : 0x22 ∉ name) {fields : List (Σ _ : Field, LuaString)}
    (plain : ∀ field ∈ fields, IsPlain field.1 field.2) (parser : Parser) (n : Nat) :
    ((readLines lineEnd indent name fields).zipIdx n).foldlM (parseLine orders) parser =
      .ok (.within parser.submodules name (setEntries lineEnd.readLine fields fun _ => none)) := by
  have header : parseLine orders parser (headerLine name, n) =
      .ok (.within parser.submodules name fun _ => none) := by
    rw [parseLine, parseNextLine, firstMatch_headerLine noQuote]
    rfl
  rw [readLines, List.zipIdx_cons, List.foldlM_cons, header]
  exact parse_fields all indented plain parser.submodules _ _

/-- The table that is read for the fields of a submodule. -/
def readTable (lineEnd : LineEnd) (fields : AList fun _ : Field => LuaString) :
    Field → Option LuaString :=
  fun fieldName => (fields.lookup fieldName).map lineEnd.readLine

theorem parse_submodules (all : ∀ n, (orders n).Perm recognizedFields) (indented : IsIndent indent)
    {entries : List (Σ _ : LuaString, AList fun _ : Field => LuaString)}
    (noQuote : ∀ entry ∈ entries, 0x22 ∉ entry.1)
    (plain : ∀ entry ∈ entries, ∀ field ∈ entry.2.entries, IsPlain field.1 field.2)
    (parser : Parser) (n : Nat) :
    ∃ after, ((entries.flatMap fun entry =>
        readLines lineEnd indent entry.1 entry.2.entries).zipIdx n).foldlM (parseLine orders) parser =
        .ok after ∧
      after.submodules = setEntries (readTable lineEnd) entries parser.submodules := by
  induction entries generalizing parser n with
  | nil => exact ⟨parser, rfl, rfl⟩
  | cons entry entries ih =>
    obtain ⟨after, ran, read⟩ := ih (fun other member => noQuote other (List.mem_cons_of_mem _ member))
      (fun other member => plain other (List.mem_cons_of_mem _ member))
      (.within parser.submodules entry.1
        (setEntries lineEnd.readLine entry.2.entries fun _ => none))
      (n + (readLines lineEnd indent entry.1 entry.2.entries).length)
    refine ⟨after, ?_, read.trans ?_⟩
    · rw [List.flatMap_cons, List.zipIdx_append, List.foldlM_append,
        parse_submodule all indented (noQuote entry List.mem_cons_self)
          (plain entry List.mem_cons_self)]
      exact ran
    · have table : (setEntries lineEnd.readLine entry.2.entries fun _ => none) =
          readTable lineEnd entry.2 := by
        funext fieldName
        rw [setEntries_apply _ entry.2.nodupKeys, Option.or_none]
        rfl
      rw [table]
      rfl

theorem readLine_headerLine (name : LuaString) :
    lineEnd.readLine (headerLine name) = headerLine name := by
  have closed : headerLine name = ascii "[submodule \"" ++ name ++ [0x22] ++ [0x5D] := by
    simp only [headerLine, List.append_assoc]
    rfl
  have last : lineEnd.readLine [0x5D] = [0x5D] := by cases lineEnd <;> rfl
  rw [closed, readLine_append _ (List.cons_ne_nil _ _), last]

theorem readLine_fieldLine (indent : LuaString) (fieldName : Field) (value : LuaString) :
    lineEnd.readLine (fieldLine indent fieldName value) =
      fieldLine indent fieldName (lineEnd.readLine value) := by
  have blank : lineEnd.readLine (0x20 :: value) = 0x20 :: lineEnd.readLine value := by
    rw [LineEnd.readLine, if_neg fun swallowed => absurd swallowed.2.1 (by decide)]
  rw [fieldLine, readLine_append _ (List.cons_ne_nil _ _), blank, ← fieldLine]

variable {submodules : GitModules}

theorem map_readLine_lines (submodules : GitModules) (indent : LuaString) :
    (submodules.lines indent).map lineEnd.readLine =
      submodules.entries.flatMap fun entry =>
        readLines lineEnd indent entry.1 entry.2.entries := by
  rw [GitModules.lines, List.map_flatMap]
  refine List.flatMap_congr fun entry _ => ?_
  rw [submoduleLines, readLines, List.map_cons, List.map_map, readLine_headerLine]
  congr 2
  funext field
  exact readLine_fieldLine ..

/-- Each entry of the file is one of the entries of a list. -/
theorem WellFormed.entry (wellFormed : WellFormed submodules)
    {entry : Σ _ : LuaString, AList fun _ : Field => LuaString} (member : entry ∈ submodules.entries) :
    IsSubmoduleName entry.1 ∧ ∀ field ∈ entry.2.entries, newline ∉ field.2 := by
  refine ⟨wellFormed.name entry.1 (List.mem_keys_of_mem member), fun field inside => ?_⟩
  exact wellFormed.value entry.1 entry.2 field.1 field.2 (AList.mem_lookup_iff.mpr member)
    (AList.mem_lookup_iff.mpr inside)

theorem lines_clean (wellFormed : WellFormed submodules) (indented : IsIndent indent) :
    ∀ line ∈ submodules.lines indent, newline ∉ line := by
  intro line member
  obtain ⟨entry, listed, member⟩ := List.mem_flatMap.mp member
  obtain ⟨named, values⟩ := wellFormed.entry listed
  rcases List.mem_cons.mp member with rfl | member
  · simp only [headerLine, List.mem_append, not_or]
    exact ⟨⟨by decide, named.noNewline⟩, by decide⟩
  · obtain ⟨field, inside, rfl⟩ := List.mem_map.mp member
    simp only [fieldLine, List.mem_append, List.mem_cons, not_or]
    refine ⟨⟨⟨fun blank => ?_, fun letter => ?_⟩, by decide⟩, by decide, values field inside⟩
    · exact absurd (indented _ blank) (by decide)
    · exact (name_clean field.1 _ letter).1 rfl

theorem readLines_nonempty {entries : List (Σ _ : LuaString, AList fun _ : Field => LuaString)} :
    ∀ line ∈ entries.flatMap (fun entry => readLines lineEnd indent entry.1 entry.2.entries),
      line ≠ [] := by
  intro line member
  obtain ⟨entry, -, member⟩ := List.mem_flatMap.mp member
  rcases List.mem_cons.mp member with rfl | member
  · exact List.append_ne_nil_of_right_ne_nil _ (by decide)
  · obtain ⟨field, -, rfl⟩ := List.mem_map.mp member
    exact List.append_ne_nil_of_right_ne_nil _ (List.cons_ne_nil _ _)

theorem lines_text (wellFormed : WellFormed submodules) (indented : IsIndent indent) :
    explode (normalize (submodules.text indent lineEnd)) (· = newline) =
      submodules.entries.flatMap fun entry =>
        readLines lineEnd indent entry.1 entry.2.entries := by
  have clean := lines_clean wellFormed indented
  have inside : ∀ line ∈ (submodules.lines indent).map lineEnd.readLine,
      ∀ c ∈ line, (!decide (c = newline)) = true := by
    intro line member c present
    obtain ⟨whole, listed, rfl⟩ := List.mem_map.mp member
    have other : c ≠ newline := by
      rintro rfl
      exact clean whole listed (readLine_isPrefix.subset present)
    simpa using other
  rw [explode, GitModules.text, normalize_lines clean, tokens_lines (List.cons_ne_nil _ _) inside
    (by simp), map_readLine_lines]
  exact List.filter_eq_self.mpr fun line member =>
    decide_eq_true (readLines_nonempty line member)

/-- What is read from a file in which no value is taken for something else. -/
theorem modules_text (wellFormed : WellFormed submodules) (indented : IsIndent indent)
    (all : ∀ n, (orders n).Perm recognizedFields) (currentSubmoduleName : Option LuaString)
    (plain : ∀ name fields fieldName value, submodules.lookup name = some fields →
      fields.lookup fieldName = some value → IsPlain fieldName value) :
    (modules orders currentSubmoduleName (submodules.text indent lineEnd)).map Parser.submodules =
      .ok fun name => (submodules.lookup name).map (readTable lineEnd) := by
  have noQuote : ∀ entry ∈ submodules.entries, 0x22 ∉ entry.1 :=
    fun entry member => (wellFormed.entry member).1.noQuote
  have values : ∀ entry ∈ submodules.entries, ∀ field ∈ entry.2.entries,
      IsPlain field.1 field.2 :=
    fun entry member field inside => plain entry.1 entry.2 field.1 field.2
      (AList.mem_lookup_iff.mpr member) (AList.mem_lookup_iff.mpr inside)
  obtain ⟨after, ran, read⟩ := parse_submodules all indented noQuote values
    { currentSubmoduleName := currentSubmoduleName, submodules := fun _ => none } 0
  rw [modules, lines_text wellFormed indented]
  refine (congrArg (Except.map Parser.submodules) ran).trans (congrArg Except.ok ?_)
  rw [read]
  funext name
  rw [setEntries_apply _ submodules.nodupKeys, Option.or_none]
  rfl

/-! ## Where values come from -/

/-- The values of all tables satisfy a condition. -/
def Parser.Holds (Q : Field → LuaString → Prop) (parser : Parser) : Prop :=
  ∀ name fields fieldName value, parser.submodules name = some fields →
    fields fieldName = some value → Q fieldName value

theorem Parser.Holds.update {Q : Field → LuaString → Prop} {parser : Parser}
    (held : parser.Holds Q) {table : Field → Option LuaString}
    (values : ∀ fieldName value, table fieldName = some value → Q fieldName value)
    (currentSubmoduleName : Option LuaString) (name : LuaString) :
    Parser.Holds Q
      { currentSubmoduleName := currentSubmoduleName
        submodules := Function.update parser.submodules name (some table) } := by
  intro other fields fieldName value found set
  dsimp only at found
  by_cases same : other = name
  · rw [same, Function.update_self, Option.some.injEq] at found
    exact values fieldName value (found ▸ set)
  · rw [Function.update_of_ne same] at found
    exact held other fields fieldName value found set

/-- A value is found in a line that is no header. -/
theorem parseNextLine_values {Q : Field → LuaString → Prop} {parser after : Parser}
    (values : ∀ fieldName value, search headerPattern line = none →
      matchField order line = some (fieldName, value) → Q fieldName value)
    (parsed : parseNextLine order parser line = .ok after) (held : parser.Holds Q) :
    after.Holds Q := by
  unfold parseNextLine at parsed
  split at parsed
  next submoduleName found =>
    obtain rfl := Except.ok.inj parsed
    refine held.update (fun _ _ set => ?_) _ _
    cases set
  next noHeader =>
    split at parsed
    next =>
      obtain rfl := Except.ok.inj parsed
      exact held
    next fieldName matchedValue found =>
      split at parsed
      next => cases parsed
      next name fields named =>
        obtain rfl := Except.ok.inj parsed
        obtain ⟨_, -, table⟩ := Option.bind_eq_some_iff.mp named
        obtain ⟨known, listed, same⟩ := Option.map_eq_some_iff.mp table
        obtain ⟨rfl, rfl⟩ := Prod.mk.inj same
        refine held.update (fun other value set => ?_) _ _
        by_cases this : other = fieldName
        · rw [this, Function.update_self, Option.some.injEq] at set
          rw [this, ← set]
          exact values fieldName matchedValue (firstMatch_eq_none_iff.mp noHeader) found
        · rw [Function.update_of_ne this] at set
          exact held _ known other value listed set

/-- What holds of all values that lines can have holds of all that are read. -/
theorem modules_values {Q : Field → LuaString → Prop} {currentSubmoduleName : Option LuaString}
    {fileContents : LuaString} {after : Parser}
    (values : ∀ n line fieldName value, search headerPattern line = none →
      matchField (orders n) line = some (fieldName, value) → Q fieldName value)
    (parsed : modules orders currentSubmoduleName fileContents = .ok after) : after.Holds Q :=
  foldlM_preserves (fun _ line _ held stepped => parseNextLine_values (values line.2 line.1) stepped held)
    parsed nofun

/-- The value of a field is a part of the line. -/
theorem matchField_isInfix (matched : matchField order line = some (fieldName, value)) :
    value <:+: line := by
  obtain ⟨field, -, found⟩ := List.exists_of_findSome?_eq_some matched
  obtain ⟨matchedValue, here, same⟩ := Option.map_eq_some_iff.mp found
  obtain ⟨rfl, rfl⟩ := Prod.mk.inj same
  exact firstMatch_infix here

/-- The field that is tried first is found in no line that is taken for another one. -/
theorem matchField_first (matched : matchField (other :: order) line = some (fieldName, value))
    (differs : other ≠ fieldName) : search (fieldPattern other) line = none := by
  rw [matchField, List.findSome?_cons] at matched
  cases found : firstMatch (fieldPattern other) line with
  | none => exact firstMatch_eq_none_iff.mp found
  | some matchedValue =>
    rw [found, Option.map_some, Option.some.injEq, Prod.mk.injEq] at matched
    exact absurd matched.1 differs

/-! ## The round trip -/

/-- The file is read as it was written, in whatever order the fields are tried, and whatever was
read before. -/
def ReadsBack (submodules : GitModules) (indent : LuaString) (lineEnd : LineEnd) : Prop :=
  ∀ orders currentSubmoduleName, (∀ n, (orders n).Perm recognizedFields) →
    (modules orders currentSubmoduleName (submodules.text indent lineEnd)).map Parser.submodules =
      .ok submodules.tables

theorem ReadsBack.holds {Q : Field → LuaString → Prop} (reads : ReadsBack submodules indent lineEnd)
    (all : ∀ n, (orders n).Perm recognizedFields)
    (values : ∀ n line fieldName value, search headerPattern line = none →
      matchField (orders n) line = some (fieldName, value) → Q fieldName value)
    {fields : AList fun _ : Field => LuaString} (listed : submodules.lookup name = some fields)
    (set : fields.lookup fieldName = some value) : Q fieldName value := by
  have read := reads orders none all
  cases parsed : modules orders none (submodules.text indent lineEnd) with
  | error e =>
    rw [parsed] at read
    cases read
  | ok after =>
    rw [parsed] at read
    have tables : after.submodules = submodules.tables := Except.ok.inj read
    refine modules_values values parsed name (fun fieldName => fields.lookup fieldName) fieldName
      value ?_ set
    rw [tables, GitModules.tables, listed, Option.map_some]

theorem ReadsBack.isPlain (reads : ReadsBack submodules indent lineEnd)
    {fields : AList fun _ : Field => LuaString} (listed : submodules.lookup name = some fields)
    (set : fields.lookup fieldName = some value) : IsPlain fieldName value where
  noHeader := by
    have values : ∀ (n : Nat) line fieldName value, search headerPattern line = none →
        matchField recognizedFields line = some (fieldName, value) →
        search headerPattern value = none :=
      fun _ _ _ _ noHeader matched => search_none_of_infix (matchField_isInfix matched) noHeader
    exact reads.holds (fun _ => .refl recognizedFields) values listed set
  noField other differs := by
    -- The order in which `pairs` takes this field first must read the value as well.
    have values : ∀ (n : Nat) line fieldName value, search headerPattern line = none →
        matchField (other :: recognizedFields.erase other) line = some (fieldName, value) →
        other ≠ fieldName → search (fieldPattern other) value = none :=
      fun _ _ _ _ _ matched differs =>
        search_none_of_infix (matchField_isInfix matched) (matchField_first matched differs)
    exact reads.holds (fun _ => (List.perm_cons_erase (mem_recognizedFields other)).symm) values listed set differs

/-- A file is read back if and only if no value looks like a header or another field, nor loses a
carriage return at its end. -/
theorem modules_roundTrip_iff {submodules : GitModules} (wellFormed : WellFormed submodules)
    {indent : LuaString} (indented : IsIndent indent) (lineEnd : LineEnd) :
    ReadsBack submodules indent lineEnd ↔
      ∀ name fields fieldName value, submodules.lookup name = some fields →
        fields.lookup fieldName = some value →
        IsPlain fieldName value ∧ (lineEnd = .lf → value.getLast? ≠ some 0x0D) := by
  constructor
  · intro reads name fields fieldName value listed set
    have plain : ∀ name fields fieldName value, submodules.lookup name = some fields →
        fields.lookup fieldName = some value → IsPlain fieldName value :=
      fun _ _ _ _ listed set => reads.isPlain listed set
    -- Where all values are plain, the value is read without its carriage return.
    refine ⟨plain name fields fieldName value listed set, readLine_eq_self_iff.mp ?_⟩
    have whole := reads (fun _ => recognizedFields) none fun _ => .refl _
    rw [modules_text wellFormed indented (fun _ => .refl _) none plain] at whole
    have table := congrFun (Except.ok.inj whole) name
    rw [GitModules.tables, listed, Option.map_some, Option.map_some, Option.some.injEq] at table
    have field := congrFun table fieldName
    rwa [readTable, set, Option.map_some, Option.some.injEq] at field
  · intro plain orders currentSubmoduleName all
    rw [modules_text wellFormed indented all currentSubmoduleName
      fun name fields fieldName value listed set =>
        (plain name fields fieldName value listed set).1]
    refine congrArg Except.ok (funext fun name => Option.map_congr fun fields listed => ?_)
    funext fieldName
    rw [readTable]
    cases set : fields.lookup fieldName with
    | none => rfl
    | some value =>
      have kept := readLine_eq_self_iff.mpr (plain name fields fieldName value listed set).2
      rw [Option.map_some, kept]

/-! ### Examples -/

def LuaJIT : AList fun _ : Field => LuaString where
  entries :=
    [⟨.path, ascii "deps/LuaJIT/LuaJIT"⟩, ⟨.url, ascii "https://github.com/LuaJIT/LuaJIT"⟩,
      ⟨.ignore, ascii "dirty"⟩, ⟨.branch, ascii "v2.1"⟩]
  nodupKeys := by
    rw [List.NodupKeys]
    decide

def openssl : AList fun _ : Field => LuaString where
  entries :=
    [⟨.path, ascii "deps/openssl/openssl"⟩, ⟨.url, ascii "https://github.com/openssl/openssl"⟩,
      ⟨.ignore, ascii "dirty"⟩, ⟨.branch, ascii "master"⟩,
      ⟨.fetchRecurseSubmodules, ascii "false"⟩, ⟨.shallow, ascii "true"⟩,
      ⟨.update, ascii "checkout"⟩]
  nodupKeys := by
    rw [List.NodupKeys]
    decide

/-- Two submodules, one of them with all of the fields. -/
def dependencies : GitModules where
  entries := [⟨ascii "deps/LuaJIT/LuaJIT", LuaJIT⟩, ⟨ascii "deps/openssl/openssl", openssl⟩]
  nodupKeys := by
    rw [List.NodupKeys]
    decide +kernel

theorem dependencies_wellFormed : WellFormed dependencies where
  name name member := by
    have clean : ∀ name ∈ dependencies.keys, 0x22 ∉ name ∧ newline ∉ name := by decide +kernel
    exact ⟨(clean name member).1, (clean name member).2⟩
  value := GitModules.forall_lookup (P := fun _ value => newline ∉ value) (by decide +kernel)

theorem modules_roundTrip_dependencies : ReadsBack dependencies (ascii "\t") .lf := by
  refine (modules_roundTrip_iff dependencies_wellFormed
    (by decide +kernel : ∀ c ∈ ascii "\t", c = 0x20 ∨ c = 0x09) .lf).mpr ?_
  apply GitModules.forall_lookup (P := fun fieldName value =>
    IsPlain fieldName value ∧ (LineEnd.lf = .lf → value.getLast? ≠ some 0x0D))
  decide +kernel

/-- A submodule `x` of which one field is set. -/
def oneSubmodule (fieldName : Field) (value : LuaString) : GitModules :=
  AList.singleton (ascii "x") (AList.singleton fieldName value)

theorem oneSubmodule_wellFormed (clean : newline ∉ value) :
    WellFormed (oneSubmodule fieldName value) where
  name name member := by
    obtain rfl := List.mem_singleton.mp member
    exact ⟨(by decide : 0x22 ∉ ascii "x"), (by decide : newline ∉ ascii "x")⟩
  value := by
    apply GitModules.forall_lookup (P := fun _ value => newline ∉ value)
    intro submodule member field member'
    obtain rfl := List.mem_singleton.mp member
    obtain rfl := List.mem_singleton.mp member'
    exact clean

/-- A branch named like a field is taken for that field, if it is tried first. -/
theorem not_readsBack_branch :
    WellFormed (oneSubmodule .branch (ascii "path=x")) ∧
      ¬ReadsBack (oneSubmodule .branch (ascii "path=x")) (ascii "\t") .lf := by
  refine ⟨oneSubmodule_wellFormed (by decide), fun reads => ?_⟩
  have read := reads (fun _ => recognizedFields) none fun _ => .refl _
  have path := congrArg (Except.map fun tables => (tables (ascii "x")).bind (· .path)) read
  exact absurd path (by decide +kernel)

end EvoRuntime.Git
