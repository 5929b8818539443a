import EvoRuntime.Lua.Strings

/-!
# The Lua virtual machine

`LuaVirtualMachine` drives an interpreter through the C API, which passes values on a
stack. LuaJIT itself is a parameter: what reading a field, loading a chunk or calling a
function yields, and how it changes the world of tables. An error outside of `lua_pcall`
ends the process.
-/
namespace EvoRuntime.Vm

open Lua

/-! ## The interpreter -/

/-- Tables and functions are known by their identities. -/
inductive Value
  | nil
  | string (s : LuaString)
  | table (t : Nat)
  | function (f : Nat)
  | cfunction (f : Nat)
  | lightuserdata (p : Nat)
  | other (type : LuaString)
  deriving DecidableEq

structure Interpreter (World : Type) where
  globals : Value
  newtable : World → Value × World
  getfield : World → Value → LuaString → Except Value Value × World
  setfield : World → Value → LuaString → Value → Except Value Unit × World
  rawseti : World → Value → Nat → Value → World
  /-- Compile a chunk with its name. -/
  loadbuffer : World → LuaString → LuaString → Except Value Value × World
  loadfile : World → LuaString → Except Value Value × World
  /-- Call a value without arguments. -/
  call : World → Value → Except Value (List Value) × World
  /-- The message that a handler makes of an error. -/
  handle : World → Value → Value → Value × World

/-- A message on the standard error stream. -/
inductive Report
  | compileError (message : Value)
  | runtimeError (message : Value)
  | scriptError (message : Value)
  | inDoString
  | corruptedStack (offset : Int)
  deriving DecidableEq

structure LuaVirtualMachine (World : Type) where
  /-- The stack of `m_luaState`, from its top. -/
  stack : List Value
  world : World
  relativeStackOffset : Int := 0
  reports : List Report := []

variable {World : Type}

/-- The C function `onLuaError`. -/
def onLuaError : Value := .cfunction 0

/-- The C function `emptyPackageLoader`. -/
def emptyPackageLoader : Value := .cfunction 1

/-- The state after the constructor. -/
def construct (world : World) : LuaVirtualMachine World where
  stack := [onLuaError]
  world := world

/-- `m_onLuaErrorIndex`, which the constructor sets for good. -/
def onLuaErrorIndex : Nat := 1

/-- `m_numExpectedArgsFromLuaMain`, which the constructor sets for good. -/
def numExpectedArgsFromLuaMain : Nat := 1

abbrev Action (World α : Type) := StateT (LuaVirtualMachine World) Option α

/-! ## The C API -/

def push (value : Value) : Action World Unit :=
  modify fun vm => { vm with stack := value :: vm.stack }

def pushAll (values : List Value) : Action World Unit :=
  modify fun vm => { vm with stack := values.reverse ++ vm.stack }

/-- Nothing may be taken from an empty stack. -/
def pop : Action World Value := do
  match (← get).stack with
  | [] => failure
  | value :: rest => do
    modify fun vm => { vm with stack := rest }
    pure value

/-- The value at the index `-n`. -/
def peek (n : Nat) : Action World Value := do
  pure ((← get).stack[n - 1]?.getD .nil)

def setWorld (world : World) : Action World Unit := modify fun vm => { vm with world := world }

/-- The result of an unprotected operation. -/
def unprotected {α : Type} (result : Except Value α × World) : Action World α :=
  match result with
  | (.ok a, world) => do
    setWorld world
    pure a
  | (.error _, _) => failure

variable (lua : Interpreter World)

def getglobal (name : LuaString) : Action World Unit := do
  push (← unprotected (lua.getfield (← get).world lua.globals name))

def setglobal (name : LuaString) : Action World Unit := do
  let value ← pop
  unprotected (lua.setfield (← get).world lua.globals name value)

/-- `lua_getfield` at the index -1. -/
def getfield (name : LuaString) : Action World Unit := do
  let table ← peek 1
  push (← unprotected (lua.getfield (← get).world table name))

/-- `lua_setfield` at the index -2. -/
def setfield (name : LuaString) : Action World Unit := do
  let table ← peek 2
  let value ← pop
  unprotected (lua.setfield (← get).world table name value)

def newtable : Action World Unit := do
  let (table, world) := lua.newtable (← get).world
  setWorld world
  push table

/-- `lua_rawseti` at the index -2. -/
def rawseti (index : Nat) : Action World Unit := do
  let table ← peek 2
  let value ← pop
  setWorld (lua.rawseti (← get).world table index value)

def istable : Action World Bool := do
  match ← peek 1 with
  | .table _ => pure true
  | _ => pure false

/-- `lua_call` without arguments, for one result. -/
def call : Action World Unit := do
  let function ← pop
  let results ← unprotected (lua.call (← get).world function)
  push (results.head?.getD .nil)

/-- That many results, or all of them for `LUA_MULTRET`. -/
def adjust (nresults : Option Nat) (results : List Value) : List Value :=
  match nresults with
  | none => results
  | some n => results.take n ++ List.replicate (n - results.length) .nil

/-- The results of a function, or the message of an error. -/
def callProtected (nresults errfunc : Option Nat) (function : Value) : Action World Bool := do
  let vm ← get
  match lua.call vm.world function with
  | (.ok results, world) => do
    setWorld world
    pushAll (adjust nresults results)
    pure true
  | (.error error, world) => do
    let (message, world) := match errfunc with
      | none => (error, world)
      | some index => lua.handle world (vm.stack.reverse[index - 1]?.getD .nil) error
    setWorld world
    push message
    pure false

/-- `lua_pcall` without arguments, with the message handler at the index `errfunc`. -/
def pcall (nresults errfunc : Option Nat) : Action World Bool := do
  callProtected lua nresults errfunc (← pop)

/-- A function, or a message in its place. -/
def pushLoaded (loaded : Except Value Value × World) : Action World Bool := do
  setWorld loaded.2
  match loaded.1 with
  | .ok function => do
    push function
    pure true
  | .error message => do
    push message
    pure false

def loadbuffer (chunk chunkName : LuaString) : Action World Bool := do
  pushLoaded (lua.loadbuffer (← get).world chunk chunkName)

def dofile (filePath : LuaString) : Action World Bool := do
  let loaded ← pushLoaded (lua.loadfile (← get).world filePath)
  if loaded then pcall lua none none else pure false

/-! ## The class -/

def report (r : Report) : Action World Unit :=
  modify fun vm => { vm with reports := vm.reports ++ [r] }

def shiftOffset (amount : Int) : Action World Unit :=
  modify fun vm => { vm with relativeStackOffset := vm.relativeStackOffset + amount }

def checkStack : Action World Bool := do
  let vm ← get
  if vm.relativeStackOffset ≠ 0 then do
    report (.corruptedStack vm.relativeStackOffset)
    pure false
  else pure true

def loadPackage (packageName : LuaString) (packageLoader : Option Value) : Action World Bool := do
  let loader := packageLoader.getD emptyPackageLoader
  getglobal lua (ascii "package")
  getfield lua (ascii "loaded")
  push loader
  call lua
  setfield lua (cString packageName)
  let _ ← pop
  pure true

def doFile (filePath : LuaString) : Action World Bool := do
  let status ← dofile lua (cString filePath)
  if status then checkStack
  else do
    report (.scriptError (← peek 1))
    pure false

def compileChunk (chunk chunkName : LuaString) : Action World Bool := do
  let success ← loadbuffer lua (cString chunk) (cString chunkName)
  if success then do
    shiftOffset 1
    pure true
  else do
    report (.compileError (← peek 1))
    pure false

def runCompiledChunk : Action World Bool := do
  let success ← pcall lua (some numExpectedArgsFromLuaMain) (some onLuaErrorIndex)
  if success then do
    shiftOffset (-1)
    checkStack
  else do
    report (.runtimeError (← peek 1))
    pure false

/-- What `CompileChunk` returns is not looked at. -/
def doString (chunk chunkName : LuaString) : Action World Bool := do
  let _ ← compileChunk lua chunk chunkName
  let success ← runCompiledChunk lua
  if success then checkStack
  else do
    report .inDoString
    pure false

/-- `argv[argc]` is a null pointer, which is pushed as `nil`. -/
def setGlobalArgs (argv : List LuaString) : Action World Bool := do
  newtable lua
  shiftOffset 1
  forM (List.range argv.length) fun i => do
    push ((argv[i + 1]?).elim .nil fun arg => .string (cString arg))
    rawseti lua i
  setglobal lua (ascii "arg")
  shiftOffset (-1)
  pure true

def bindStaticLibraryExports (fieldName : LuaString) (staticExportsTable : Nat) :
    Action World Unit := do
  getglobal lua (ascii "package")
  getfield lua (ascii "loaded")
  getfield lua (ascii "bindings")
  if ← istable then do
    push (.lightuserdata staticExportsTable)
    setfield lua (cString fieldName)
  let _ ← pop
  let _ ← pop
  let _ ← pop

def createGlobalNamespace (name : LuaString) : Action World Unit := do
  newtable lua
  setglobal lua (cString name)

end EvoRuntime.Vm
