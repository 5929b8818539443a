import EvoRuntime.Library.Iteration
import EvoRuntime.Library.Raising
import EvoRuntime.Library.Runs
import EvoRuntime.Lua.Strings
import Mathlib.Data.List.Induction

/-!
# The command line registry

`C_CommandLine` keeps the registered commands in one table and their aliases in another
one. `ProcessArguments` goes through both and then passes control to a handler. What a
handler does is its own affair: the model records which one was called and with what.
The order in which `pairs` visits a table is an argument of the functions that use it.

## Main result

`registry_dispatch`: whatever calls have been made, `ProcessArguments` passes control to
one handler, and to the same one in every order.

## Proof strategy

`perform_step` lists what a call can do to the registry. The invariant `Consistent` and
the claim that an error changes nothing are read off that list.
-/
namespace EvoRuntime.CommandLine

open Lua Library Raising

/-! ## Values -/

/-- An argument of the functions. A function is known by its identity. -/
inductive Value
  | nil
  | string (s : LuaString)
  | function (f : Nat)
  | other (type : LuaString)
  deriving DecidableEq

/-- `type(value)`. -/
def Value.type : Value → LuaString
  | .nil => ascii "nil"
  | .string _ => ascii "string"
  | .function _ => ascii "function"
  | .other type => type

/-- The arguments of the program, of which the one at index 0 selects the command. -/
structure Arguments where
  first : Option LuaString
  rest : List LuaString
  deriving DecidableEq

inductive ArgumentsVector
  | table (arguments : Arguments)
  | other (type : LuaString)
  deriving DecidableEq

structure CommandInfo where
  handler : Nat
  description : LuaString
  deriving DecidableEq

inductive DefaultHandler
  /-- The function that the library starts with. -/
  | DispatchCommand
  | custom (f : Nat)
  deriving DecidableEq

/-- A call of a handler with its arguments. -/
inductive Call
  | handler (f : Nat) (commandName : LuaString) (argumentsVector : Arguments)
  | default (handler : DefaultHandler) (command : LuaString)
  deriving DecidableEq

structure State where
  registeredCommands : AList fun _ : LuaString => CommandInfo := ∅
  aliases : AList fun _ : LuaString => LuaString := ∅
  defaultHandler : DefaultHandler := .DispatchCommand
  /-- The handlers called so far. -/
  calls : List Call := []
  /-- The lines printed so far. -/
  output : List LuaString := []

abbrev Action (α : Type) := Raising State LuaString α

def PLACEHOLDER_COMMAND_DESCRIPTION : LuaString := ascii "No description available"

/-! ## Validation -/

def invalidArgument (name expected type : LuaString) : LuaString :=
  ascii "Expected argument " ++ name ++ ascii " to be a " ++ expected ++
    ascii " value, but received a " ++ type ++ ascii " value instead"

def validateString (value : Value) (name : LuaString) : Action LuaString :=
  match value with
  | .string s => pure s
  | _ => throw (invalidArgument name (ascii "string") value.type)

def validateFunction (value : Value) (name : LuaString) : Action Nat :=
  match value with
  | .function f => pure f
  | _ => throw (invalidArgument name (ascii "function") value.type)

def validateTable (value : ArgumentsVector) (name : LuaString) : Action Arguments :=
  match value with
  | .table arguments => pure arguments
  | .other type => throw (invalidArgument name (ascii "table") type)

/-! ## The registry -/

def RegisterCommand (commandName commandHandler description : Value) : Action Unit := do
  let name ← validateString commandName (ascii "commandName")
  let handler ← validateFunction commandHandler (ascii "commandHandler")
  let text ← if description = .nil then pure PLACEHOLDER_COMMAND_DESCRIPTION
    else validateString description (ascii "description")
  raiseIf ((← get).registeredCommands.lookup name).isSome
    (ascii "Failed to register command '" ++ name ++
      ascii "' (a command handler already exists for this command)")
  modify fun st => { st with registeredCommands := st.registeredCommands.insert name ⟨handler, text⟩ }

def UnregisterCommand (commandName : Value) : Action Unit := do
  let name ← validateString commandName (ascii "commandName")
  raiseIf ((← get).registeredCommands.lookup name).isNone
    (ascii "Failed to unregister command '" ++ name ++ ascii "' (not a registered command)")
  modify fun st => { st with
    registeredCommands := st.registeredCommands.erase name
    aliases := st.aliases.erase name }

def UnregisterAllCommands : Action Unit :=
  modify fun st => { st with registeredCommands := ∅, aliases := ∅ }

/-- The loop of `SetAlias`; the last entry it finds counts. -/
def aliasedCommand (visit : Visit) (aliases : AList fun _ : LuaString => LuaString)
    (shorthand : LuaString) : Option LuaString :=
  (visit.order aliases.entries).foldl
    (fun aliasedCommand entry => if shorthand = entry.2 then some entry.1 else aliasedCommand) none

def SetAlias (visit : Visit) (commandName shorthand : Value) : Action Unit := do
  let name ← validateString commandName (ascii "commandName")
  let text ← validateString shorthand (ascii "alias")
  let st ← get
  raiseIf (st.registeredCommands.lookup name).isNone
    (ascii "Cannot set alias " ++ text ++ ascii " for command " ++ name ++
      ascii " (no such command was registered)")
  match aliasedCommand visit st.aliases text with
  | some command =>
    throw (ascii "Cannot set alias " ++ text ++ ascii " for command " ++ name ++
      ascii " (already used for command " ++ command ++ ascii ")")
  | none => modify fun st => { st with aliases := st.aliases.insert name text }

def SetDefaultHandler (newDefaultHandler : Value) : Action Unit := do
  let f ← validateFunction newDefaultHandler (ascii "newDefaultHandler")
  modify fun st => { st with defaultHandler := .custom f }

/-! ## Dispatching -/

def usageLine (st : State) (commandName : LuaString) : LuaString :=
  match st.registeredCommands.lookup commandName with
  | none => [] -- The names come from this very table.
  | some commandInfo =>
    let commandText := match st.aliases.lookup commandName with
      | some shorthand => shorthand ++ ascii "\t" ++ commandName
      | none => commandName
    ascii "\t" ++ commandText ++ ascii "\t\t" ++ commandInfo.description ++ ascii "\n"

def GetUsageInfo (visit : Visit) (st : State) : LuaString :=
  let sortedCommandNames := (visit.order st.registeredCommands.keys).mergeSort (· ≤ ·)
  sortedCommandNames.flatMap (usageLine st)

/-- What `DispatchCommand` prints. -/
def DispatchCommand (visit : Visit) (st : State) (command : LuaString) : List LuaString :=
  if command = [] then [GetUsageInfo visit st]
  else [ascii "Not a valid command: " ++ command, [], []]

/-- Control passes to the handler. -/
def Call.perform (visit : Visit) (call : Call) : Action Unit := do
  modify fun st => { st with calls := st.calls ++ [call] }
  match call with
  | .default .DispatchCommand command =>
    modify fun st => { st with output := st.output ++ DispatchCommand visit st command }
  | _ => pure ()

def ProcessArguments (visit : Visit) (argumentsVector : ArgumentsVector) : Action Unit := do
  let arguments ← validateTable argumentsVector (ascii "argumentsVector")
  let commandOrAlias := arguments.first.getD []
  let st ← get
  match (visit.order st.registeredCommands.entries).find? (fun entry => entry.1 = commandOrAlias) with
  | some entry => (Call.handler entry.2.handler commandOrAlias arguments).perform visit
  | none =>
    match (visit.order st.aliases.entries).find? (fun entry => entry.2 = commandOrAlias) with
    | some entry =>
      match st.registeredCommands.lookup entry.1 with
      | some commandInfo => (Call.handler commandInfo.handler entry.1 arguments).perform visit
      | none => throw (ascii "attempt to index local 'commandInfo' (a nil value)")
    | none => (Call.default st.defaultHandler commandOrAlias).perform visit

/-! ## Operations -/

inductive Operation
  | registerCommand (commandName commandHandler description : Value)
  | unregisterCommand (commandName : Value)
  | unregisterAllCommands
  | setAlias (visit : Visit) (commandName shorthand : Value)
  | setDefaultHandler (newDefaultHandler : Value)
  | processArguments (visit : Visit) (argumentsVector : ArgumentsVector)

def Operation.perform : Operation → Action Unit
  | .registerCommand commandName commandHandler description =>
    RegisterCommand commandName commandHandler description
  | .unregisterCommand commandName => UnregisterCommand commandName
  | .unregisterAllCommands => UnregisterAllCommands
  | .setAlias visit commandName shorthand => SetAlias visit commandName shorthand
  | .setDefaultHandler newDefaultHandler => SetDefaultHandler newDefaultHandler
  | .processArguments visit argumentsVector => ProcessArguments visit argumentsVector

/-- The library, called by its users in any order. An error that it raises is caught. -/
def commandLine : System State Operation LuaString where
  Initial st := st = {}
  Enabled _ _ := True
  step st operation := .ok (operation.perform.outcome st).2

/-! ## What an operation does -/

/-- All that can come out of an operation. -/
inductive Step (st : State) : Except LuaString Unit × State → Prop
  | raised (message : LuaString) : Step st (.error message, st)
  | registered {name : LuaString} (commandInfo : CommandInfo)
      (unknown : st.registeredCommands.lookup name = none) :
      Step st (.ok (), { st with registeredCommands := st.registeredCommands.insert name commandInfo })
  | unregistered {name : LuaString} (known : (st.registeredCommands.lookup name).isSome) :
      Step st (.ok (), { st with
        registeredCommands := st.registeredCommands.erase name
        aliases := st.aliases.erase name })
  | cleared : Step st (.ok (), { st with registeredCommands := ∅, aliases := ∅ })
  | aliased {name text : LuaString} (known : (st.registeredCommands.lookup name).isSome)
      (unused : ∀ other, st.aliases.lookup other ≠ some text) :
      Step st (.ok (), { st with aliases := st.aliases.insert name text })
  | redirected (f : Nat) : Step st (.ok (), { st with defaultHandler := .custom f })
  | dispatched (call : Call) (lines : List LuaString) :
      Step st (.ok (), { st with calls := st.calls ++ [call], output := st.output ++ lines })

variable {st : State} {visit : Visit} {name : LuaString}

theorem validateString_step {value : Value} {k : LuaString → Action Unit}
    (next : ∀ s, Step st ((k s).outcome st)) :
    Step st ((validateString value name >>= k).outcome st) := by
  cases value with
  | string s => exact next s
  | nil => exact .raised _
  | function f => exact .raised _
  | other type => exact .raised _

theorem validateFunction_step {value : Value} {k : Nat → Action Unit}
    (next : ∀ f, Step st ((k f).outcome st)) :
    Step st ((validateFunction value name >>= k).outcome st) := by
  cases value with
  | function f => exact next f
  | nil => exact .raised _
  | string s => exact .raised _
  | other type => exact .raised _

theorem raiseIf_step {condition : Prop} [Decidable condition] {message : LuaString}
    {k : PUnit → Action Unit} (next : ¬condition → Step st ((k ()).outcome st)) :
    Step st ((raiseIf condition message >>= k).outcome st) := by
  rw [outcome_bind, outcome_raiseIf]
  by_cases raises : condition
  · rw [if_pos raises]
    exact .raised message
  · rw [if_neg raises]
    exact next raises

theorem isSome_of_not_isNone {α : Type} {value : Option α} (some : ¬value.isNone) : value.isSome :=
  Option.isSome_iff_ne_none.mpr (mt Option.isNone_iff_eq_none.mpr some)

theorem registerCommand_step (commandName commandHandler description : Value) :
    Step st ((RegisterCommand commandName commandHandler description).outcome st) := by
  apply validateString_step
  intro name
  apply validateFunction_step
  intro handler
  have registers (text : LuaString) : Step st ((do
      raiseIf ((← get).registeredCommands.lookup name).isSome
        (ascii "Failed to register command '" ++ name ++
          ascii "' (a command handler already exists for this command)")
      modify fun st : State => { st with
        registeredCommands := st.registeredCommands.insert name ⟨handler, text⟩ } :
      Action Unit).outcome st) := by
    apply raiseIf_step
    intro unknown
    exact .registered ⟨handler, text⟩ (Option.not_isSome_iff_eq_none.mp unknown)
  by_cases omitted : description = .nil
  · rw [if_pos omitted]
    exact registers PLACEHOLDER_COMMAND_DESCRIPTION
  · rw [if_neg omitted]
    exact validateString_step registers

theorem unregisterCommand_step (commandName : Value) :
    Step st ((UnregisterCommand commandName).outcome st) := by
  apply validateString_step
  intro name
  apply raiseIf_step
  intro known
  exact .unregistered (isSome_of_not_isNone known)

theorem aliasedCommand_eq_none {aliases : AList fun _ : LuaString => LuaString} {text : LuaString}
    (unused : aliasedCommand visit aliases text = none) (other : LuaString) :
    aliases.lookup other ≠ some text := by
  intro used
  have member : ⟨other, text⟩ ∈ visit.order aliases.entries :=
    visit.mem_order.mpr (AList.mem_lookup_iff.mp used)
  obtain ⟨before, after, split⟩ := List.append_of_mem member
  -- What the loop has found it never forgets.
  have kept (entries : List (Sigma fun _ : LuaString => LuaString)) (found : LuaString) :
      (entries.foldl (fun aliasedCommand entry =>
        if text = entry.2 then some entry.1 else aliasedCommand) (some found)).isSome := by
    induction entries generalizing found with
    | nil => rfl
    | cons entry rest ih =>
      rw [List.foldl_cons]
      split <;> exact ih _
  have found := kept after other
  rw [aliasedCommand, split, List.foldl_append, List.foldl_cons, if_pos rfl] at unused
  rw [unused] at found
  exact Bool.false_ne_true found

theorem setAlias_step (commandName shorthand : Value) :
    Step st ((SetAlias visit commandName shorthand).outcome st) := by
  apply validateString_step
  intro name
  apply validateString_step
  intro text
  rw [outcome_bind, outcome_get]
  apply raiseIf_step
  intro known
  cases found : aliasedCommand visit st.aliases text with
  | some command => exact .raised _
  | none => exact .aliased (isSome_of_not_isNone known) (aliasedCommand_eq_none found)

/-- What the call prints. -/
def Call.prints (visit : Visit) (st : State) : Call → List LuaString
  | .default .DispatchCommand command => DispatchCommand visit st command
  | .default (.custom _) _ | .handler .. => []

theorem perform_outcome (call : Call) :
    (call.perform visit).outcome st =
      (.ok (), { st with calls := st.calls ++ [call], output := st.output ++ call.prints visit st }) := by
  cases call with
  | handler f commandName arguments =>
    rw [Call.prints, List.append_nil]
    rfl
  | default handler command =>
    cases handler with
    | DispatchCommand => rfl
    | custom f =>
      rw [Call.prints, List.append_nil]
      rfl

theorem call_step (call : Call) : Step st ((call.perform visit).outcome st) := by
  rw [perform_outcome]
  exact .dispatched call _

theorem processArguments_step (argumentsVector : ArgumentsVector) :
    Step st ((ProcessArguments visit argumentsVector).outcome st) := by
  cases argumentsVector with
  | other type => exact .raised _
  | table arguments =>
    change Step st ((match (visit.order st.registeredCommands.entries).find? _ with
      | some entry => _
      | none => _ : Action Unit).outcome st)
    split
    · exact call_step _
    · split
      · split
        · exact call_step _
        · exact .raised _
      · exact call_step _

theorem perform_step (operation : Operation) : Step st (operation.perform.outcome st) := by
  cases operation with
  | registerCommand commandName commandHandler description =>
    exact registerCommand_step commandName commandHandler description
  | unregisterCommand commandName => exact unregisterCommand_step commandName
  | unregisterAllCommands => exact .cleared
  | setAlias visit commandName shorthand => exact setAlias_step commandName shorthand
  | setDefaultHandler newDefaultHandler =>
    apply validateFunction_step
    intro f
    exact .redirected f
  | processArguments visit argumentsVector => exact processArguments_step argumentsVector

/-- An operation that raises changes nothing. -/
theorem Step.unchanged {message : LuaString} {st' : State} (step : Step st (.error message, st')) :
    st' = st := by
  cases step
  rfl

/-! ## The invariant -/

structure Consistent (st : State) : Prop where
  /-- An alias belongs to a registered command. -/
  registered : ∀ {commandName shorthand : LuaString},
    st.aliases.lookup commandName = some shorthand → (st.registeredCommands.lookup commandName).isSome
  /-- No two commands share an alias. -/
  distinct : ∀ {commandName other shorthand : LuaString},
    st.aliases.lookup commandName = some shorthand → st.aliases.lookup other = some shorthand →
      commandName = other

theorem Step.consistent {result : Except LuaString Unit} {st' : State}
    (step : Step st (result, st')) (consistent : Consistent st) : Consistent st' := by
  cases step with
  | raised message => exact consistent
  | redirected f => exact ⟨consistent.registered, consistent.distinct⟩
  | dispatched call lines => exact ⟨consistent.registered, consistent.distinct⟩
  | cleared =>
    constructor
    · intro commandName shorthand aliased
      exact absurd aliased (by simp)
    · intro commandName other shorthand aliased
      exact absurd aliased (by simp)
  | @registered name commandInfo unknown =>
    constructor
    · intro commandName shorthand aliased
      by_cases same : commandName = name
      · change (AList.lookup commandName (st.registeredCommands.insert name commandInfo)).isSome
        rw [same, AList.lookup_insert]
        rfl
      · rw [AList.lookup_insert_ne same]
        exact consistent.registered aliased
    · exact consistent.distinct
  | @unregistered name known =>
    have left {commandName shorthand : LuaString}
        (aliased : (st.aliases.erase name).lookup commandName = some shorthand) :
        commandName ≠ name ∧ st.aliases.lookup commandName = some shorthand := by
      by_cases same : commandName = name
      · rw [same, AList.lookup_erase] at aliased
        exact absurd aliased nofun
      · rw [AList.lookup_erase_ne same] at aliased
        exact ⟨same, aliased⟩
    constructor
    · intro commandName shorthand aliased
      obtain ⟨different, aliased⟩ := left aliased
      rw [AList.lookup_erase_ne different]
      exact consistent.registered aliased
    · intro commandName other shorthand aliased otherAliased
      exact consistent.distinct (left aliased).2 (left otherAliased).2
  | @aliased name text known unused =>
    -- The new alias is the one of `name`, every other one was there before.
    have cases {commandName shorthand : LuaString}
        (aliased : (st.aliases.insert name text).lookup commandName = some shorthand) :
        commandName = name ∧ shorthand = text ∨ st.aliases.lookup commandName = some shorthand := by
      by_cases same : commandName = name
      · rw [same, AList.lookup_insert, Option.some.injEq] at aliased
        exact Or.inl ⟨same, aliased.symm⟩
      · rw [AList.lookup_insert_ne same] at aliased
        exact Or.inr aliased
    constructor
    · intro commandName shorthand aliased
      obtain ⟨rfl, rfl⟩ | before := cases aliased
      · exact known
      · exact consistent.registered before
    · intro commandName other shorthand aliased otherAliased
      obtain ⟨rfl, rfl⟩ | before := cases aliased
      · obtain ⟨rfl, -⟩ | otherBefore := cases otherAliased
        · rfl
        · exact absurd otherBefore (unused other)
      · obtain ⟨rfl, rfl⟩ | otherBefore := cases otherAliased
        · exact absurd before (unused commandName)
        · exact consistent.distinct before otherBefore

theorem consistent_inductive : commandLine.Inductive Consistent where
  initial st initial := by
    cases initial
    constructor
    · intro commandName shorthand aliased
      exact absurd aliased (by simp)
    · intro commandName other shorthand aliased
      exact absurd aliased (by simp)
  preserved st operation consistent _ :=
    ⟨_, rfl, (perform_step operation).consistent consistent⟩

/-- The state after some calls on a fresh library. -/
def stateAfter (operations : List Operation) : State :=
  operations.foldl (fun st operation => (operation.perform.outcome st).2) {}

theorem reachable_stateAfter (operations : List Operation) :
    commandLine.Reachable (stateAfter operations) := by
  induction operations using List.reverseRecOn with
  | nil => exact ⟨{}, [], rfl, .start⟩
  | append_singleton operations operation ih =>
    have stepped : commandLine.step (stateAfter operations) operation =
        .ok (stateAfter (operations ++ [operation])) := by
      rw [stateAfter, stateAfter, List.foldl_append]
      rfl
    exact ih.next trivial stepped

/-! ## Dispatching every argument list -/

/-- `argumentsVector[0] or ""`. -/
def Arguments.commandOrAlias (arguments : Arguments) : LuaString := arguments.first.getD []

/-- The handler that should be called: that of the command with this name, else that of
the command with this alias, else the default one. -/
inductive Dispatches (st : State) (arguments : Arguments) : Call → Prop
  | command {commandInfo : CommandInfo}
      (known : st.registeredCommands.lookup arguments.commandOrAlias = some commandInfo) :
      Dispatches st arguments (.handler commandInfo.handler arguments.commandOrAlias arguments)
  | shorthand {name : LuaString} {commandInfo : CommandInfo}
      (unknown : st.registeredCommands.lookup arguments.commandOrAlias = none)
      (aliased : st.aliases.lookup name = some arguments.commandOrAlias)
      (known : st.registeredCommands.lookup name = some commandInfo) :
      Dispatches st arguments (.handler commandInfo.handler name arguments)
  | default (unknown : st.registeredCommands.lookup arguments.commandOrAlias = none)
      (unaliased : ∀ name, st.aliases.lookup name ≠ some arguments.commandOrAlias) :
      Dispatches st arguments (.default st.defaultHandler arguments.commandOrAlias)

variable {arguments : Arguments} {call other : Call}

theorem Dispatches.exists (consistent : Consistent st) (arguments : Arguments) :
    ∃ call, Dispatches st arguments call := by
  cases known : st.registeredCommands.lookup arguments.commandOrAlias with
  | some commandInfo => exact ⟨_, .command known⟩
  | none =>
    by_cases used : ∃ name, st.aliases.lookup name = some arguments.commandOrAlias
    · obtain ⟨name, aliased⟩ := used
      obtain ⟨commandInfo, registered⟩ := Option.isSome_iff_exists.mp (consistent.registered aliased)
      exact ⟨_, .shorthand known aliased registered⟩
    · exact ⟨_, .default known (not_exists.mp used)⟩

theorem Dispatches.unique (consistent : Consistent st) (dispatches : Dispatches st arguments call)
    (others : Dispatches st arguments other) : other = call := by
  cases dispatches with
  | command known =>
    cases others with
    | command known' =>
      rw [known, Option.some.injEq] at known'
      rw [known']
    | shorthand unknown => exact absurd (known.symm.trans unknown) (Option.some_ne_none _)
    | default unknown => exact absurd (known.symm.trans unknown) (Option.some_ne_none _)
  | shorthand unknown aliased known =>
    cases others with
    | command known' => exact absurd (known'.symm.trans unknown) (Option.some_ne_none _)
    | shorthand _ aliased' known' =>
      cases consistent.distinct aliased aliased'
      rw [known, Option.some.injEq] at known'
      rw [known']
    | default _ unaliased => exact absurd aliased (unaliased _)
  | default unknown unaliased =>
    cases others with
    | command known' => exact absurd (known'.symm.trans unknown) (Option.some_ne_none _)
    | shorthand _ aliased => exact absurd aliased (unaliased _)
    | default => rfl

/-- The loops find what `Dispatches` asks for, in any order. -/
theorem processArguments_dispatches (consistent : Consistent st)
    (dispatches : Dispatches st arguments call) :
    (ProcessArguments visit (.table arguments)).outcome st = (call.perform visit).outcome st := by
  have search := visit.find_key st.registeredCommands arguments.commandOrAlias
  have run : (ProcessArguments visit (.table arguments)).outcome st =
      (match (visit.order st.registeredCommands.entries).find?
          (fun entry => entry.1 = arguments.commandOrAlias) with
      | some entry =>
        (Call.handler entry.2.handler arguments.commandOrAlias arguments).perform visit
      | none =>
        match (visit.order st.aliases.entries).find?
            (fun entry => entry.2 = arguments.commandOrAlias) with
        | some entry =>
          match st.registeredCommands.lookup entry.1 with
          | some commandInfo => (Call.handler commandInfo.handler entry.1 arguments).perform visit
          | none => throw (ascii "attempt to index local 'commandInfo' (a nil value)")
        | none => (Call.default st.defaultHandler arguments.commandOrAlias).perform visit :
      Action Unit).outcome st := rfl
  rw [run, search]
  cases dispatches with
  | command known => rw [known, Option.map_some]
  | @shorthand name commandInfo unknown aliased known =>
    have entry : (visit.order st.aliases.entries).find?
        (fun entry => entry.2 = arguments.commandOrAlias) =
          some ⟨name, arguments.commandOrAlias⟩ := by
      apply visit.find_eq_some (AList.mem_lookup_iff.mp aliased) (decide_eq_true rfl)
      intro other member same
      obtain ⟨otherName, otherAlias⟩ := other
      obtain rfl : otherAlias = arguments.commandOrAlias := of_decide_eq_true same
      cases consistent.distinct aliased (AList.mem_lookup_iff.mpr member)
      rfl
    rw [unknown, Option.map_none, entry]
    simp only [known]
  | default unknown unaliased =>
    have missing : (visit.order st.aliases.entries).find?
        (fun entry => entry.2 = arguments.commandOrAlias) = none := by
      apply visit.find_eq_none
      intro entry member
      rw [decide_eq_false_iff_not]
      intro same
      apply unaliased entry.1
      rw [← same]
      exact AList.mem_lookup_iff.mpr member
    rw [unknown, Option.map_none, missing]

/-! ### The text of `GetUsageInfo` -/

theorem getUsageInfo_order (visit : Visit) (st : State) :
    GetUsageInfo visit st = GetUsageInfo .asStored st := by
  unfold GetUsageInfo
  rw [visit.mergeSort_order, Visit.mergeSort_order .asStored]

/-- The same lines in every order. -/
theorem prints_order (call : Call) (visit : Visit) (st : State) :
    call.prints visit st = call.prints .asStored st := by
  cases call with
  | handler f commandName arguments => rfl
  | default handler command =>
    cases handler with
    | custom f => rfl
    | DispatchCommand =>
      unfold Call.prints DispatchCommand
      rw [getUsageInfo_order]

/-- In every state that calls of the library lead to, an error changes nothing, the aliases
are in order, and an argument list has one handler, which is called once. -/
theorem registry_dispatch (reached : commandLine.Reachable st) :
    Consistent st ∧
      (∀ (operation : Operation) (message : LuaString) (st' : State),
        operation.perform.outcome st = (.error message, st') → st' = st) ∧
      ∀ arguments : Arguments, ∃ (call : Call) (st' : State),
        (∀ other, Dispatches st arguments other ↔ other = call) ∧
        st'.calls = st.calls ++ [call] ∧
        ∀ visit, (ProcessArguments visit (.table arguments)).outcome st = (.ok (), st') := by
  have consistent := consistent_inductive.reachable reached
  refine ⟨consistent, ?_, ?_⟩
  · intro operation message st' raised
    have step : Step st (operation.perform.outcome st) := perform_step operation
    rw [raised] at step
    exact step.unchanged
  · intro arguments
    obtain ⟨call, dispatches⟩ := Dispatches.exists consistent arguments
    refine ⟨call, { st with
      calls := st.calls ++ [call]
      output := st.output ++ call.prints .asStored st }, ?_, rfl, ?_⟩
    · intro other
      constructor
      · exact dispatches.unique consistent
      · rintro rfl
        exact dispatches
    · intro visit
      rw [processArguments_dispatches consistent dispatches, perform_outcome, prints_order]

/-- A command and an alias for it. -/
def helpWithAlias : List Operation :=
  [.registerCommand (.string (ascii "help")) (.function 1) .nil,
    .setAlias .asStored (.string (ascii "help")) (.string (ascii "-h"))]

theorem registry_dispatch_help :
    ∃ st', st'.calls = [.handler 1 (ascii "help") ⟨some (ascii "-h"), []⟩] ∧
      ∀ visit, (ProcessArguments visit (.table ⟨some (ascii "-h"), []⟩)).outcome
        (stateAfter helpWithAlias) = (.ok (), st') := by
  obtain ⟨-, -, dispatch⟩ := registry_dispatch (reachable_stateAfter helpWithAlias)
  obtain ⟨call, st', only, calls, run⟩ := dispatch ⟨some (ascii "-h"), []⟩
  have known : (stateAfter helpWithAlias).registeredCommands.lookup (ascii "help") =
      some ⟨1, PLACEHOLDER_COMMAND_DESCRIPTION⟩ := by decide
  have selected : .handler 1 (ascii "help") ⟨some (ascii "-h"), []⟩ = call :=
    (only _).mp (.shorthand (by decide) (by decide) known)
  refine ⟨st', ?_, run⟩
  rw [calls, ← selected]
  rfl

end EvoRuntime.CommandLine
