import EvoRuntime.Lua.Strings
import EvoRuntime.Library.Runs
import Mathlib.Data.List.AList

/-!
# Ninja files

`NinjaFile` collects variables, rules and build edges, and prints them as the text that Ninja
reads. What is included is kept in the class, and so all files share it.
-/
namespace EvoRuntime.BuildTools

open Lua Library

/-! ## Files -/

structure BuildRule where
  name : LuaString
  command : LuaString
  description : Option LuaString := none
  deps : Option LuaString := none
  depfile : Option LuaString := none

structure BuildEdge where
  outputs : LuaString
  inputs : List LuaString
  /-- In the order of `pairs`. -/
  variableOverrides : List (LuaString × LuaString) := []

/-- A list of names that is also a table with their values. -/
structure Variables where
  names : List LuaString := []
  values : AList fun _ : LuaString => LuaString := ∅
  declared : ∀ name ∈ names, name ∈ values

theorem no_names : ∀ name ∈ ([] : List LuaString), name ∈ (∅ : AList fun _ : LuaString => LuaString) :=
  List.forall_mem_nil _

def Variables.add (self : Variables) (name value : LuaString) : Variables where
  names := self.names ++ [name]
  values := self.values.insert name value
  declared := by
    intro other member
    rw [AList.mem_insert]
    rcases List.mem_append.mp member with old | new
    · exact Or.inr (self.declared other old)
    · exact Or.inl (List.mem_singleton.mp new)

/-- A name of the list is never `nil` in the table. -/
def Variables.value (self : Variables) (name : { name // name ∈ self.names }) : LuaString :=
  (self.values.lookup name.1).get (AList.lookup_isSome.mpr (self.declared name.1 name.2))

structure NinjaFile where
  variables_ : Variables := { declared := no_names }
  ruleDeclarations : List BuildRule := []
  buildEdges : List BuildEdge := []

def DEFAULT_REQUIRED_VERSION : LuaString := ascii "1.10.0"

def AUTOGENERATION_HEADER_TEXT : LuaString :=
  ascii "# AUTOMATICALLY GENERATED! Editing this file directly is not recommended."

def newline : UInt8 := 0x0A

def blank : UInt8 := 0x20

/-- `table.concat(strings, separator)` -/
def table_concat (strings : List LuaString) (separator : UInt8) : LuaString :=
  [separator].intercalate strings

/-- A declaration line. -/
def assignment (name value : LuaString) : LuaString := name ++ ascii " = " ++ value

/-- A binding that belongs to the declaration in front of it. -/
def indented (name value : LuaString) : LuaString := ascii "  " ++ assignment name value

/-- What follows a title, if there is anything. -/
def titled (title : String) (lines : List LuaString) : List LuaString :=
  if lines = [] then [] else (newline :: ascii title) :: lines

def BuildRule.bindings (buildRule : BuildRule) : List (LuaString × LuaString) :=
  (ascii "command", buildRule.command) ::
    ([(ascii "description", buildRule.description), (ascii "deps", buildRule.deps),
      (ascii "depfile", buildRule.depfile)].filterMap fun field => field.2.map (field.1, ·))

def BuildRule.lines (buildRule : BuildRule) : List LuaString :=
  (ascii "rule " ++ buildRule.name) ::
    buildRule.bindings.map fun field => indented field.1 field.2

def BuildEdge.lines (buildEdge : BuildEdge) : List LuaString :=
  (ascii "build " ++ buildEdge.outputs ++ ascii ": " ++ table_concat buildEdge.inputs blank) ::
    buildEdge.variableOverrides.map fun override => indented override.1 override.2

namespace NinjaFile

variable (self : NinjaFile)

def AddVariable (name value : LuaString) : NinjaFile :=
  { self with variables_ := self.variables_.add name value }

def AddRule (rule : BuildRule) : NinjaFile :=
  { self with ruleDeclarations := self.ruleDeclarations ++ [rule] }

/-- A single input comes in a list of its own. -/
def AddBuildEdge (edge : BuildEdge) : NinjaFile :=
  { self with buildEdges := self.buildEdges ++ [edge] }

def ToString (includes : List LuaString) : LuaString :=
  let variableLines := self.variables_.names.attach.map fun variableName =>
    assignment variableName.1 (self.variables_.value variableName)
  let fileContents :=
    [AUTOGENERATION_HEADER_TEXT, ascii "ninja_required_version = " ++ DEFAULT_REQUIRED_VERSION] ++
    titled "# Variable declarations" variableLines ++
    titled "# Build rules" (self.ruleDeclarations.flatMap BuildRule.lines) ++
    titled "# Build edges" (self.buildEdges.flatMap BuildEdge.lines) ++
    titled "# Includes" (includes.map fun targetID => ascii "subninja " ++ targetID ++ ascii ".ninja")
  table_concat fileContents newline ++ [newline]

end NinjaFile

/-! ## Calls -/

/-- The files made so far, and the field `includes` of the class. -/
structure NinjaFiles where
  files : List NinjaFile := []
  includes : List LuaString := []

/-- A call, on the file with the number `file`. -/
inductive Call
  | Construct
  | AddVariable (file : Nat) (name value : LuaString)
  | AddRule (file : Nat) (rule : BuildRule)
  | AddBuildEdge (file : Nat) (edge : BuildEdge)
  | AddInclude (file : Nat) (targetID : LuaString)

def perform (ninja : NinjaFiles) : Call → NinjaFiles
  | .Construct => { ninja with files := ninja.files ++ [{}] }
  | .AddVariable file name value =>
    { ninja with files := ninja.files.modify file (·.AddVariable name value) }
  | .AddRule file rule => { ninja with files := ninja.files.modify file (·.AddRule rule) }
  | .AddBuildEdge file edge => { ninja with files := ninja.files.modify file (·.AddBuildEdge edge) }
  -- The file has no field of this name, so it is the one of the class that is changed.
  | .AddInclude _ targetID => { ninja with includes := ninja.includes ++ [targetID] }

/-- The file that a call is on, which has been made before. -/
def Call.On (i : Nat) : Call → Prop
  | .Construct => False
  | .AddVariable file .. | .AddRule file _ | .AddBuildEdge file _ | .AddInclude file _ => file = i

def ninja : System NinjaFiles Call Empty where
  Initial ninja := ninja = {}
  Enabled ninja call := ∀ i, call.On i → i < ninja.files.length
  step ninja call := .ok (perform ninja call)

end EvoRuntime.BuildTools
