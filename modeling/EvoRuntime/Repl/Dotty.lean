import EvoRuntime.Lua.Strings

/-!
# Reading, evaluating and printing

`dotty` reads lines from the standard input until they make up a chunk, runs it and prints its
results. It passes values on the stack of the C API. LuaJIT itself is a parameter: which texts
can be loaded, what reading a global or calling a function yields, and how that changes the
world, which the standard output and the standard error stream belong to.
-/
namespace EvoRuntime.Repl

open Lua

/-! ## The interpreter -/

/-- What `luaL_loadbuffer` returns and pushes. -/
inductive Loaded (V : Type)
  | ok (function : V)
  /-- `LUA_ERRSYNTAX` -/
  | syntaxError (message : LuaString)
  | err (message : V)

inductive Stream
  | stdout
  | stderr

structure Interpreter (World V : Type) where
  nil : V
  string : LuaString → V
  isnil : V → Bool
  /-- `lua_tostring`, which is a null pointer for most values. -/
  tostring : V → Option LuaString
  tostring_string : ∀ s, tostring (string s) = some s
  /-- The C function `traceback`. -/
  traceback : V
  getglobal : World → LuaString → Except V V × World
  /-- Compile a chunk with the name `=stdin`. -/
  loadbuffer : LuaString → Loaded V
  /-- Call a function with arguments. It may read that much of the standard input. A call that
  does not return is left out. -/
  call : World → V → List V → Except V (List V) × World × Nat
  /-- The message that a handler makes of an error. -/
  handle : World → V → V → V × World
  fputs : World → Stream → LuaString → World
  LUA_PROMPT : LuaString
  LUA_PROMPT2 : LuaString
  LUA_MAXINPUT : Nat
  /-- There is room for one character in front of the zero at the end. -/
  room : 2 ≤ LUA_MAXINPUT

structure State (World V : Type) where
  /-- From the bottom to the top. -/
  stack : List V := []
  world : World
  /-- What has not been read yet. -/
  stdin : LuaString

variable {World V : Type}

abbrev Action (World V α : Type) := StateT (State World V) Option α

/-- `LUA_OK` is the only one that is zero. `syntaxError` is `LUA_ERRSYNTAX`. -/
inductive Status
  | ok
  | syntaxError
  | err
  deriving DecidableEq

/-! ## The C API -/

def push (value : V) : Action World V Unit :=
  modify fun st => { st with stack := st.stack ++ [value] }

def setWorld (world : World) : Action World V Unit := modify fun st => { st with world := world }

def gettop : Action World V Nat := do
  return (← get).stack.length

/-- The position that an index stands for, from the bottom. -/
def position (index : Int) : Action World V Nat := do
  let top ← gettop
  if 0 < index ∧ index ≤ top then return (index - 1).toNat
  else if index < 0 ∧ -index ≤ top then return (top + index).toNat
  else failure

def value (index : Int) : Action World V V := do
  let i ← position index
  match (← get).stack[i]? with
  | some value => return value
  | none => failure

def pop (n : Nat) : Action World V Unit := do
  let top ← gettop
  if n ≤ top then modify fun st => { st with stack := st.stack.take (top - n) } else failure

/-- The value at the top is moved below the others. -/
def insert (index : Int) : Action World V Unit := do
  let i ← position index
  let last ← value (-1)
  modify fun st => { st with stack := st.stack.dropLast.insertIdx i last }

def remove (index : Int) : Action World V Unit := do
  let i ← position index
  modify fun st => { st with stack := st.stack.eraseIdx i }

variable (lua : Interpreter World V)

/-- Stacks that are too low are filled up. -/
def settop (n : Nat) : Action World V Unit :=
  modify fun st =>
    { st with stack := st.stack.take n ++ List.replicate (n - st.stack.length) lua.nil }

/-- `lua_tostring` -/
def tostring (index : Int) : Action World V (Option LuaString) := do
  return lua.tostring (← value index)

/-- Only strings are joined here. -/
def concat (n : Nat) : Action World V Unit := do
  let top ← gettop
  match ((← get).stack.drop (top - n)).mapM lua.tostring with
  | some strings => do
    pop n
    push (lua.string strings.flatten)
  | none => failure

/-- An error ends the process here. -/
def getglobal (name : LuaString) : Action World V Unit := do
  match lua.getglobal (← get).world name with
  | (.ok value, world) => do
    setWorld world
    push value
  | (.error _, _) => failure

/-- That many results, or all of them for `LUA_MULTRET`. -/
def adjust (nresults : Option Nat) (results : List V) : List V :=
  match nresults with
  | none => results
  | some n => results.take n ++ List.replicate (n - results.length) lua.nil

/-- `lua_pcall` with the message handler at the index `errfunc`, if that is not zero. -/
def pcall (nargs : Nat) (nresults : Option Nat) (errfunc : Nat) : Action World V Status := do
  let st ← get
  let below := st.stack.take (st.stack.length - (nargs + 1))
  match st.stack.drop (st.stack.length - (nargs + 1)) with
  | [] => failure
  | function :: args =>
    match lua.call st.world function args with
    | (.ok results, world, read) => do
      set { stack := below ++ adjust lua nresults results, world, stdin := st.stdin.drop read : State World V }
      return .ok
    | (.error error, world, read) => do
      let (message, world) :=
        if errfunc = 0 then (error, world)
        else lua.handle world (below[errfunc - 1]?.getD lua.nil) error
      set { stack := below ++ [message], world, stdin := st.stdin.drop read : State World V }
      return .err

/-- A function, or a message in its place. -/
def loadbuffer (text : LuaString) : Action World V Status :=
  match lua.loadbuffer text with
  | .ok function => do
    push function
    return .ok
  | .syntaxError message => do
    push (lua.string message)
    return .syntaxError
  | .err message => do
    push message
    return .err

/-- What is behind a zero is not written. -/
def fputs (stream : Stream) (text : LuaString) : Action World V Unit := do
  setWorld (lua.fputs (← get).world stream (cString text))

/-! ## Lines -/

def newline : UInt8 := 0x0A

def equals : UInt8 := 0x3D

/-- A line with its end, unless the buffer is too small for it. -/
def takeLine (size : Nat) (stdin : LuaString) : LuaString :=
  let line := stdin.takeWhile (· ≠ newline)
  stdin.take (min (size - 1) (line.length + 1))

/-- `fgets`, which returns a null pointer at the end. -/
def fgets : Action World V (Option LuaString) := do
  let stdin := (← get).stdin
  let buf := takeLine lua.LUA_MAXINPUT stdin
  if buf = [] then return none
  else do
    modify fun st => { st with stdin := stdin.drop buf.length }
    return some buf

def strstr (text needle : LuaString) : Option Nat :=
  text.tails.findIdx? (needle.isPrefixOf ·)

/-- `LUA_QL("<eof>")` -/
def eof : LuaString := ascii "'<eof>'"

/-! ## The program -/

def l_message (msg : LuaString) : Action World V Unit := do
  fputs lua .stderr msg
  fputs lua .stderr [newline]

def report (status : Status) : Action World V Unit := do
  if status ≠ .ok then
    if !lua.isnil (← value (-1)) then
      l_message lua ((← tostring lua (-1)).getD (ascii "(error object is not a string)"))
      pop 1

def docall (narg : Nat) (clear : Bool) : Action World V Status := do
  let base := (← gettop) - narg
  push lua.traceback
  insert base
  let status ← pcall lua narg (if clear then some 0 else none) base
  remove base
  return status

def write_prompt (firstline : Bool) : Action World V Unit := do
  getglobal lua (if firstline then ascii "_PROMPT" else ascii "_PROMPT2")
  let p ← tostring lua (-1)
  fputs lua .stdout (p.getD (if firstline then lua.LUA_PROMPT else lua.LUA_PROMPT2))
  pop 1

/-- The only place of the message where the end of the file is mentioned is its end. -/
def incomplete (status : Status) : Action World V Bool := do
  if status = .syntaxError then
    match ← tostring lua (-1) with
    | none => failure
    | some msg =>
      if strstr (cString msg) eof = some (msg.length - eof.length) ∧ eof.length ≤ msg.length then
        pop 1
        return true
      else return false
  else return false

/-- The buffer up to the end of the line. -/
def lineText (buf : LuaString) : LuaString :=
  let text := cString buf
  if text.getLast? = some newline then text.dropLast else text

def pushline (firstline : Bool) : Action World V Bool := do
  write_prompt lua firstline
  match ← fgets lua with
  | none => return false
  | some buf =>
    let text := lineText buf
    if firstline ∧ text.head? = some equals then
      push (lua.string (ascii "return " ++ text.tail))
    else push (lua.string text)
    return true

/-- The loop of `loadline`. Each time around, it reads a line. -/
def completeLine : (fuel : Nat) → Action World V (Option Status)
  | 0 => failure
  | fuel + 1 => do
    match ← tostring lua 1 with
    | none => failure
    | some text =>
      let status ← loadbuffer lua text
      if ← incomplete lua status then
        if ← pushline lua false then
          push (lua.string [newline])
          insert (-2)
          concat lua 3
          completeLine fuel
        else return none
      else
        remove 1
        return some status

/-- The status, if there is a chunk. -/
def loadline : Action World V (Option Status) := do
  settop lua 0
  if ← pushline lua true then completeLine lua ((← get).stdin.length + 1) else return none

/-- The results of a chunk are what is on the stack. -/
def printResults : Action World V Unit := do
  getglobal lua (ascii "print")
  insert 1
  let printed ← pcall lua ((← gettop) - 1) (some 0) 0
  if printed ≠ .ok then
    let msg := (← tostring lua (-1)).getD (ascii "(null)")
    let text := ascii "error calling 'print' (" ++ cString msg ++ ascii ")"
    push (lua.string text)
    l_message lua text

/-- What is done with a chunk that has been loaded. -/
def evaluate (status : Status) : Action World V Unit := do
  let status ← if status = .ok then docall lua 0 false else pure status
  report lua status
  if status = .ok ∧ 0 < (← gettop) then printResults lua

/-- The loop of `dotty`. Each time around, it reads a line. -/
def dottyLoop : (fuel : Nat) → Action World V Unit
  | 0 => failure
  | fuel + 1 => do
    match ← loadline lua with
    | none => return ()
    | some status => do
      evaluate lua status
      dottyLoop fuel

def dotty : Action World V Unit := do
  dottyLoop lua ((← get).stdin.length + 1)
  settop lua 0
  fputs lua .stdout [newline]

end EvoRuntime.Repl
