import EvoRuntime.Repl.Dotty
import Mathlib.Data.List.Induction

/-!
# Sessions

What a session in the terminal is, without the stack: the lines of the input are taken in groups.
Each group makes up a chunk as soon as it is complete, and the chunk is answered before the next
line is read.
-/
namespace EvoRuntime.Repl

open Lua

variable {World V : Type} (lua : Interpreter World V)

/-! ## Sessions without a stack -/

/-- The first line of a chunk may ask for a value. -/
def pushedText (firstline : Bool) (buf : LuaString) : LuaString :=
  if firstline ∧ (lineText buf).head? = some equals then ascii "return " ++ (lineText buf).tail
  else lineText buf

/-- The text that some lines make up. -/
def chunk : List LuaString → LuaString
  | [] => []
  | first :: more => more.foldl (fun text buf => text ++ [newline] ++ pushedText false buf)
    (pushedText true first)

/-- The message ends where the file does. -/
def AtEnd (message : LuaString) : Prop :=
  strstr (cString message) eof = some (message.length - eof.length) ∧ eof.length ≤ message.length

/-- More lines may make a chunk of the text. -/
def Incomplete (text : LuaString) : Prop :=
  ∃ message, lua.loadbuffer text = .syntaxError message ∧ AtEnd message

/-- The lines are taken from the input one after the other. -/
def Taken (size : Nat) : (stdin : LuaString) → List LuaString → (rest : LuaString) → Prop
  | stdin, [], rest => rest = stdin
  | stdin, buf :: lines, rest =>
    buf ≠ [] ∧ buf = takeLine size stdin ∧ Taken size (stdin.drop buf.length) lines rest

/-- A prompt is shown, unless looking for it raises an error. -/
def prompt (firstline : Bool) (world : World) : Option World :=
  match lua.getglobal world (if firstline then ascii "_PROMPT" else ascii "_PROMPT2") with
  | (.ok p, world) =>
    some (lua.fputs world .stdout (cString ((lua.tostring p).getD
      (if firstline then lua.LUA_PROMPT else lua.LUA_PROMPT2))))
  | (.error _, _) => none

/-- The prompts for lines that follow the first one. -/
def morePrompts : Nat → World → Option World
  | 0, world => some world
  | n + 1, world => (prompt lua false world).bind (morePrompts n)

/-- The prompts for the lines of a chunk. -/
def prompts : Nat → World → Option World
  | 0, world => some world
  | n + 1, world => (prompt lua true world).bind (morePrompts lua n)

def message (world : World) (text : LuaString) : World :=
  lua.fputs (lua.fputs world .stderr (cString text)) .stderr (cString [newline])

/-- Nothing is written about `nil`. -/
def complain (world : World) (error : V) : World :=
  if lua.isnil error then world
  else message lua world ((lua.tostring error).getD (ascii "(error object is not a string)"))

/-- The values are handed to `print`. -/
def printed (world : World) (stdin : LuaString) (values : List V) : Option (World × LuaString) :=
  match lua.getglobal world (ascii "print") with
  | (.error _, _) => none
  | (.ok print, world) =>
    match lua.call world print values with
    | (.ok _, world, read) => some (world, stdin.drop read)
    | (.error error, world, read) =>
      let msg := (lua.tostring error).getD (ascii "(null)")
      some (message lua world (ascii "error calling 'print' (" ++ cString msg ++ ascii ")"),
        stdin.drop read)

/-- A chunk is run, and its values are printed. -/
def answer (world : World) (stdin : LuaString) : Loaded V → Option (World × LuaString)
  | .syntaxError message => some (complain lua world (lua.string message), stdin)
  | .err error => some (complain lua world error, stdin)
  | .ok function =>
    match lua.call world function [] with
    | (.ok [], world, read) => some (world, stdin.drop read)
    | (.ok (value :: values), world, read) =>
      printed lua world (stdin.drop read) (value :: values)
    | (.error error, world, read) =>
      let (error, world) := lua.handle world lua.traceback error
      some (complain lua world error, stdin.drop read)

/-- Lines that do not make up a chunk, and neither do the first ones of them. -/
def Pending (lines : List LuaString) : Prop :=
  ∀ front, front <+: lines → front ≠ [] → Incomplete lua (chunk front)

/-- Lines that make up a chunk with the last one. -/
structure Group (lines : List LuaString) : Prop where
  nonempty : lines ≠ []
  pending : Pending lua lines.dropLast
  complete : ¬Incomplete lua (chunk lines)

/-- From the first prompt to the end of the input. -/
inductive Session : World → LuaString → World → Prop
  | ended {world world' : World} {stdin : LuaString} {lines : List LuaString}
      (taken : Taken lua.LUA_MAXINPUT stdin lines []) (pending : Pending lua lines)
      (prompted : prompts lua (lines.length + 1) world = some world') :
      Session world stdin (lua.fputs world' .stdout (cString [newline]))
  | round {world world' world'' final : World} {stdin rest rest' : LuaString}
      {lines : List LuaString} (taken : Taken lua.LUA_MAXINPUT stdin lines rest)
      (group : Group lua lines) (prompted : prompts lua lines.length world = some world')
      (answered : answer lua world' rest (lua.loadbuffer (chunk lines)) = some (world'', rest'))
      (more : Session world'' rest' final) : Session world stdin final

/-! ## Groups of lines -/

section Groups

variable {lua} {size : Nat} {stdin rest buf : LuaString} {lines more : List LuaString}

theorem chunk_concat (nonempty : lines ≠ []) (buf : LuaString) :
    chunk (lines ++ [buf]) = chunk lines ++ [newline] ++ pushedText false buf := by
  obtain ⟨first, others, rfl⟩ := List.exists_cons_of_ne_nil nonempty
  rw [List.cons_append, chunk, chunk, List.foldl_append, List.foldl_cons, List.foldl_nil]

theorem pending_nil : Pending lua [] :=
  fun _ beginning some_ => absurd (List.prefix_nil.mp beginning) some_

theorem pending_concat :
    Pending lua (lines ++ [buf]) ↔ Pending lua lines ∧ Incomplete lua (chunk (lines ++ [buf])) := by
  constructor
  · intro pending
    exact ⟨fun front beginning => pending front (beginning.trans (List.prefix_append _ _)),
      pending _ List.prefix_rfl (by simp)⟩
  · rintro ⟨pending, last⟩ front beginning some_
    rcases List.prefix_concat_iff.mp beginning with rfl | earlier
    · exact last
    · exact pending front earlier some_

theorem Taken.length_le (taken : Taken size stdin lines rest) :
    rest.length + lines.length ≤ stdin.length := by
  induction lines generalizing stdin with
  | nil =>
    obtain rfl := taken
    exact le_rfl
  | cons buf lines ih =>
    obtain ⟨some_, rfl, others⟩ := taken
    have fits : (takeLine size stdin).length ≤ stdin.length := List.length_take_le' _ _
    have positive := List.length_pos_iff.mpr some_
    have shorter := ih others
    rw [List.length_drop] at shorter
    rw [List.length_cons]
    omega

theorem Taken.nonempty (taken : Taken size stdin (buf :: lines) rest) : stdin ≠ [] := by
  rintro rfl
  have bound := taken.length_le
  rw [List.length_cons, List.length_nil] at bound
  omega

end Groups

end EvoRuntime.Repl
