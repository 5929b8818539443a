import EvoRuntime.Path.Posix

/-!
# `path.posix.resolve` as a sequence of `cd`

`resolve` scans its arguments from right to left, stops at an absolute one and
normalizes once. `resolve_laws` shows that it may as well resolve one argument
after the other, and that its results are in normal form, which `resolve` keeps.

## Proof strategy

Every result is the path of a location, and a path of a location leads to this
location from everywhere. So a result may stand for the arguments it came from.
-/
namespace EvoRuntime.Path

open Lua Library

/-- `resolve` of one path at a time, each from the result before it. -/
def resolveEach (host : Host) (arg : LuaString) (rest : List LuaString) :
    Except LuaError LuaString := do
  let first ← resolve host arg
  rest.foldlM (fun resolved path => resolve host resolved [path]) first

/-- An absolute path with proper names only. The root is the slash alone. -/
structure IsNormal (path : LuaString) : Prop where
  absolute : IsAbsolute path
  names : path = ascii "/" ∨ ∀ s ∈ path.tail.splitOn CHAR_FORWARD_SLASH,
    s ≠ [] ∧ s ≠ ascii "." ∧ s ≠ ascii ".."
  trailing : path ≠ ascii "/" → path.getLast? ≠ some CHAR_FORWARD_SLASH

example : resolve ⟨false, ascii "/home"⟩ (ascii "a/..") [ascii "", ascii "../b/./c//"] =
    .ok (ascii "/b/c") := by rfl

/-! ## Paths of locations -/

/-- The parts of an absolute path are the root and the names of its location. -/
theorem split_rooted {location : List LuaString} (named : Named location)
    (nonempty : location ≠ []) : posixSeparators.split (rooted location) = [] :: location := by
  have parts := split_slash [] (posixSeparators.join location)
  rw [split_join named.clean nonempty] at parts
  exact parts

/-- The path of a location leads there from everywhere. -/
theorem enter_rooted {location : List LuaString} (named : Named location)
    (start : List LuaString) : enter start (rooted location) = location := by
  have root : segmentReading.skipped [] = true := by decide
  rw [enter, if_pos (by rfl)]
  by_cases empty : location = []
  · subst empty
    rfl
  · rw [split_rooted named empty, SegmentReading.walk_cons, SegmentReading.push_skipped root,
      SegmentReading.walk_names [] fun s member => (named s member).1, List.nil_append]

theorem locate_rooted {location : List LuaString} (named : Named location)
    (cwd : LuaString) (rest : List LuaString) :
    locate cwd (rooted location :: rest) = rest.foldl enter location := by
  rw [locate, List.foldl_cons, enter_rooted named]

theorem rooted_isNormal {location : List LuaString} (named : Named location) :
    IsNormal (rooted location) := by
  have proper : ∀ s ∈ location, s ≠ [] ∧ s ≠ ascii "." ∧ s ≠ ascii ".." := by
    intro s member
    obtain ⟨⟨kept, name⟩, -⟩ := named s member
    have neither : ¬(s = [] ∨ s = ascii ".") := of_decide_eq_false kept
    exact ⟨fun e => neither (Or.inl e), fun e => neither (Or.inr e), name⟩
  constructor
  case absolute => rfl
  case names =>
    by_cases empty : location = []
    · subst empty
      exact Or.inl rfl
    · refine Or.inr fun s member => proper s ?_
      rw [← split_join named.clean empty]
      exact member
  case trailing =>
    intro below slash
    have nonempty : location ≠ [] := by
      rintro rfl
      exact below rfl
    have text : posixSeparators.join location ≠ [] := by
      rw [Ne, Separators.join, join_eq_nil_iff fun s member => (proper s member).1]
      exact nonempty
    rw [rooted, List.getLast?_cons_of_ne_nil text] at slash
    exact getLast_join_ne named.clean slash

/-! ## The laws -/

theorem resolve_rooted (host : Host) {cwd : LuaString} {location : List LuaString}
    (resolved : ∀ arg rest, resolve host arg rest = .ok (rooted (locate cwd (arg :: rest))))
    (named : Named location) (rest : List LuaString) :
    resolve host (rooted location) rest = .ok (rooted (rest.foldl enter location)) := by
  rw [resolved, locate_rooted named]

/-- One path after the other, from the path of a location on. -/
theorem foldlM_resolve (host : Host) {cwd : LuaString} {location : List LuaString}
    (resolved : ∀ arg rest, resolve host arg rest = .ok (rooted (locate cwd (arg :: rest))))
    (named : Named location) (rest : List LuaString) :
    rest.foldlM (fun resolved path => resolve host resolved [path]) (rooted location) =
      .ok (rooted (rest.foldl enter location)) := by
  induction rest generalizing location with
  | nil => rfl
  | cons path rest ih =>
    rw [List.foldlM_cons, resolve_rooted host resolved named [path]]
    exact ih (enter_named named path)

/-- Resolving all arguments at once is resolving them one by one. The result is in
normal form, and `resolve` keeps it. -/
theorem resolve_laws (host : Host) (absolute : IsAbsolute host.cwd) (arg : LuaString)
    (rest : List LuaString) :
    ∃ result, resolve host arg rest = .ok result ∧ resolveEach host arg rest = .ok result ∧
      IsNormal result ∧ resolve host result = .ok result := by
  obtain ⟨cwd, resolved⟩ := resolve_eq_locate host absolute
  have named := locate_named cwd (arg :: rest)
  refine ⟨_, resolved arg rest, ?_, rooted_isNormal named, resolve_rooted host resolved named []⟩
  rw [resolveEach, resolved arg []]
  exact foldlM_resolve host resolved (locate_named cwd [arg]) rest

theorem resolve_laws_above :
    ∃ result, resolve ⟨false, ascii "/home"⟩ (ascii "a") [ascii "../../b", [], ascii "c/"] = .ok result ∧
      resolveEach ⟨false, ascii "/home"⟩ (ascii "a") [ascii "../../b", [], ascii "c/"] = .ok result ∧
      IsNormal result ∧ resolve ⟨false, ascii "/home"⟩ result = .ok result :=
  resolve_laws _ (by decide) _ _

end EvoRuntime.Path
