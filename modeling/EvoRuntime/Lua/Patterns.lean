import EvoRuntime.Library.Patterns
import EvoRuntime.Lua.Strings

/-!
# Patterns of the string library

The classes of characters that the patterns of the runtime use, and what `string.gmatch`
finds of a set of characters. Positions in front of a pattern and back references do not
occur.
-/
namespace EvoRuntime.Lua

open Library

/-- `%s` in the C locale. -/
def isSpace (c : UInt8) : Bool := c = 0x20 || (0x09 ≤ c && c ≤ 0x0D)

/-- `%d` -/
def isDigit (c : UInt8) : Bool := 0x30 ≤ c && c ≤ 0x39

/-- `.` -/
def isAny (_ : UInt8) : Bool := true

/-- `%s` -/
def space : PatternItem UInt8 where
  accepts := isSpace
  repetition := .one
  captured := false

/-- `%s?` -/
def optionalSpace : PatternItem UInt8 where
  accepts := isSpace
  repetition := .optional
  captured := false

/-- `%s*` -/
def spaces : PatternItem UInt8 where
  accepts := isSpace
  repetition := .many
  captured := false

/-- `(.+)` -/
def something : PatternItem UInt8 where
  accepts := isAny
  repetition := .more
  captured := true

/-- `(.*)` -/
def anything : PatternItem UInt8 where
  accepts := isAny
  repetition := .many
  captured := true

/-- Everything is taken by a last item that takes anything. -/
theorem matchHere_anything (s : LuaString) :
    Pattern.matchHere [anything] s = some { text := s, captures := [s] } := by
  have takes : anything.Takes s := ⟨fun _ _ => rfl, trivial⟩
  have ends : ∀ c ∈ ([] : LuaString).head?, anything.accepts c = false := by simp
  have last : Pattern.matchHere [] ([] : LuaString) = some { text := [], captures := [] } := rfl
  have matched := Pattern.matchHere_taken takes ends last
  rw [List.append_nil] at matched
  rw [matched, Found.behind, List.append_nil]
  rfl

/-- `string.match(s, pattern)`: the first capture, or the whole match if there is none. -/
def firstMatch (pattern : Pattern UInt8) (s : LuaString) : Option LuaString :=
  (Pattern.search pattern s).map fun found => found.captures.headD found.text

theorem firstMatch_eq_none_iff {pattern : Pattern UInt8} {s : LuaString} :
    firstMatch pattern s = none ↔ Pattern.search pattern s = none :=
  Option.map_eq_none_iff

theorem firstMatch_here {pattern : Pattern UInt8} {s value : LuaString} {others : List LuaString}
    (matched : (Pattern.matchHere pattern s).map Found.captures = some (value :: others)) :
    firstMatch pattern s = some value := by
  obtain ⟨found, here, captures⟩ := Option.map_eq_some_iff.mp matched
  rw [firstMatch, Pattern.search_here here, Option.map_some, captures, List.headD_cons]

theorem firstMatch_skip {pattern : Pattern UInt8} {c : UInt8} {s : LuaString}
    (none : Pattern.matchHere pattern (c :: s) = none) :
    firstMatch pattern (c :: s) = firstMatch pattern s := by
  rw [firstMatch, Pattern.search_skip none, firstMatch]

/-- What is found stands in the text. -/
theorem firstMatch_infix {pattern : Pattern UInt8} {s value : LuaString}
    (matched : firstMatch pattern s = some value) : value <:+: s := by
  obtain ⟨found, search, rfl⟩ := Option.map_eq_some_iff.mp matched
  obtain ⟨before, after, rfl, here⟩ := Pattern.search_sound search
  have inside : found.captures.headD found.text <:+: found.text := by
    cases captures : found.captures with
    | nil => exact List.infix_rfl
    | cons capture others =>
      exact Pattern.captures_infix here capture (captures ▸ List.mem_cons_self)
  exact inside.trans (List.infix_append' ..)

end EvoRuntime.Lua
