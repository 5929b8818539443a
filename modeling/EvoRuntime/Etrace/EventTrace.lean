import EvoRuntime.Library.Raising
import EvoRuntime.Lua.Strings
import Mathlib.Data.List.AList

/-!
# Event tracing

The functions of `etrace` act on a table of registered events with their enabled flags,
a log and a table of subscribers. They may raise an error part-way through a list of
events, and the events before it have then been dealt with. What depends on the type of
payloads is a parameter; the order in which `pairs` visits a table is left open.
-/
namespace EvoRuntime.Etrace

open Lua Library Raising

/-! ## Arguments -/

/-- The entries of a list of events. An entry may be a list again. -/
inductive EventList
  | empty
  | name (event : LuaString) (rest : EventList)
  | list (events rest : EventList)
  deriving DecidableEq

/-- The argument `event` of the functions for one or more events. -/
inductive EventArgument
  | nil
  | name (event : LuaString)
  | list (events : EventList)
  deriving DecidableEq

/-- The argument `event` of `filter`. -/
inductive FilterArgument
  | nil
  | name (event : LuaString)
  | list (events : List LuaString)

/-- A listener is known by its identity; a value that is neither a function nor a table
cannot subscribe. -/
inductive Listener
  | function (f : Nat)
  | table (t : Nat)
  | other (type : LuaString)
  deriving DecidableEq

/-- `type(listener)`. -/
def Listener.type : Listener → LuaString
  | .function _ => ascii "function"
  | .table _ => ascii "table"
  | .other type => type

/-- `type(listener) ~= "function" and type(listener) ~= "table"`. -/
def Listener.isOther : Listener → Bool
  | .other _ => true
  | _ => false

/-- A function that is called with events, by its identity. -/
abbrev Handler := Nat

/-- What the library uses from its surroundings. -/
structure Surroundings (Payload : Type) where
  /-- `{}` -/
  emptyTable : Payload
  /-- `payload == false` -/
  isFalse : Payload → Bool
  /-- `type(payload)` -/
  type : Payload → LuaString
  /-- `json.stringify(payload, { sort_keys = true })` -/
  stringify : Payload → Except LuaString LuaString
  /-- `tostring(listener)` -/
  tostring : Listener → LuaString
  ENABLE_TEXT_TRANSFORMATIONS : Bool

/-- `payload or {}`: what counts as false in Lua is replaced. -/
def Surroundings.orEmpty {Payload : Type} (host : Surroundings Payload) : Option Payload → Payload
  | none => host.emptyTable
  | some payload => if host.isFalse payload then host.emptyTable else payload

theorem Surroundings.orEmpty_orEmpty {Payload : Type} (host : Surroundings Payload)
    (payload : Option Payload) :
    host.orEmpty (some (host.orEmpty payload)) = host.orEmpty payload := by
  cases payload with
  | none => exact ite_self _
  | some payload =>
    unfold orEmpty
    by_cases isFalse : host.isFalse payload
    · simp [isFalse]
    · simp [isFalse]

/-! ## State -/

structure Entry (Payload : Type) where
  name : LuaString
  payload : Payload
  deriving DecidableEq

abbrev Listeners := AList fun _ : Listener => Handler

structure State (Payload : Type) where
  registeredEvents : AList fun _ : LuaString => Bool := ∅
  eventLog : List (Entry Payload) := []
  subscribers : AList fun _ : LuaString => Listeners := ∅
  isForceEnabled : Bool := false
  /-- The lines printed so far. -/
  output : List LuaString := []

variable {Payload : Type}

abbrev Action (Payload : Type) (α : Type) := Raising (State Payload) LuaString α

/-- `etrace.registeredEvents[event]`. -/
def State.status (st : State Payload) (event : LuaString) : Option Bool :=
  st.registeredEvents.lookup event

/-- `etrace.subscribers[event] or {}`. -/
def State.listeners (st : State Payload) (event : LuaString) : Listeners :=
  (st.subscribers.lookup event).getD ∅

/-! ## Events -/

def reset : Action Payload Unit :=
  modify fun st => { st with registeredEvents := ∅, eventLog := [], subscribers := ∅ }

def clear : Action Payload Unit := modify fun st => { st with eventLog := [] }

def setStatus (event : LuaString) (enabledFlag : Bool) : Action Payload Unit :=
  modify fun st => { st with registeredEvents := st.registeredEvents.insert event enabledFlag }

/-- The loop over a list of events. An entry that is a list is passed to the function
itself, which may treat an empty list in its own way. -/
def forEvents (onEmpty : Action Payload Unit) (onName : LuaString → Action Payload Unit) :
    EventList → Action Payload Unit
  | .empty => pure ()
  | .name event rest => do
    onName event
    forEvents onEmpty onName rest
  | .list events rest => do
    if events = .empty then onEmpty
    forEvents onEmpty onName events
    forEvents onEmpty onName rest

/-- A function of one or more events. -/
def withEvents (onNil onEmpty : Action Payload Unit) (onName : LuaString → Action Payload Unit) :
    EventArgument → Action Payload Unit
  | .nil => onNil
  | .name event => onName event
  | .list events => do
    if events = .empty then onEmpty
    forEvents onEmpty onName events

def registerEvent (event : LuaString) : Action Payload Unit := do
  raiseIf ((← get).status event).isSome
    (ascii "Known event " ++ event ++ ascii " cannot be registered again")
  setStatus event false

def register : EventArgument → Action Payload Unit :=
  withEvents (throw (ascii "Invalid event nil cannot be registered")) (pure ()) registerEvent

def unregisterAll : Action Payload Unit :=
  modify fun st => { st with
    registeredEvents := st.registeredEvents.keys.foldl (fun events key => events.erase key)
      st.registeredEvents }

def unregisterEvent (event : LuaString) : Action Payload Unit := do
  raiseIf ((← get).status event).isNone
    (ascii "Unknown event " ++ event ++ ascii " cannot be unregistered")
  modify fun st => { st with registeredEvents := st.registeredEvents.erase event }

def unregister : EventArgument → Action Payload Unit :=
  withEvents unregisterAll unregisterAll unregisterEvent

def setAll (enabledFlag : Bool) : Action Payload Unit :=
  modify fun st => { st with
    registeredEvents := st.registeredEvents.keys.foldl
      (fun events name => events.insert name enabledFlag) st.registeredEvents }

/-- `verb` is the one in the error message. -/
def toggleEvent (verb : LuaString) (enabledFlag : Bool) (event : LuaString) :
    Action Payload Unit := do
  raiseIf ((← get).status event).isNone
    (ascii "Cannot " ++ verb ++ ascii " unknown event " ++ event)
  setStatus event enabledFlag

def enable : EventArgument → Action Payload Unit :=
  withEvents (setAll true) (pure ()) (toggleEvent (ascii "enable") true)

def disable : EventArgument → Action Payload Unit :=
  withEvents (setAll false) (pure ()) (toggleEvent (ascii "disable") false)

/-! ## The log -/

/-- `transform.brightBlue("[EVENT] %s\t%s")`, filled in. -/
def eventLine (transformations : Bool) (event payloadString : LuaString) : LuaString :=
  let text := ascii "[EVENT] " ++ event ++ [9] ++ payloadString
  if transformations then [27] ++ ascii "[1;34m" ++ text ++ [27] ++ ascii "[0;0m" else text

variable (host : Surroundings Payload)

def stringify (event : LuaString) (payload : Payload) : Action Payload LuaString :=
  match host.stringify payload with
  | .ok payloadString => pure (eventLine host.ENABLE_TEXT_TRANSFORMATIONS event payloadString)
  | .error message => throw message

/-- With forced recording every entry is printed. -/
def printEntry (event : LuaString) (payload : Payload) : Action Payload Unit := do
  if (← get).isForceEnabled then do
    let line ← stringify host event payload
    modify fun st => { st with output := st.output ++ [line] }
  else pure ()

def record (event : LuaString) (payload : Option Payload) : Action Payload Unit := do
  let payload := host.orEmpty payload
  let st ← get
  match st.status event with
  | none => throw (ascii "Cannot record unknown event " ++ event)
  | some enabledFlag =>
    if enabledFlag = false ∧ st.isForceEnabled = false then pure ()
    else do
      modify fun st => { st with eventLog := st.eventLog ++ [{ name := event, payload }] }
      printEntry host event payload

/-- Without names the whole log is returned, as a deep copy. -/
def filter : FilterArgument → Action Payload (List (Entry Payload))
  | .nil | .list [] => return (← get).eventLog
  | .name event => filterEvents [event]
  | .list events => filterEvents events
where
  filterEvents (names : List LuaString) : Action Payload (List (Entry Payload)) := do
    let events : AList fun _ : LuaString => Bool :=
      names.foldl (fun events name => events.insert name true) ∅
    forM events.keys fun name => do
      raiseIf ((← get).status name).isNone
        (ascii "Cannot filter event log for unknown event " ++ name)
    return (← get).eventLog.filter fun entry => events.lookup entry.name = some true

/-! ## Subscribers -/

/-- The handler is `listener[event]`, if this is a function. -/
def subscribe (event : LuaString) (listener : Listener) (handler : Option Handler) :
    Action Payload Unit := do
  raiseIf ((← get).status event).isNone
    (ascii "Cannot subscribe listener " ++ host.tostring listener ++ ascii " of type " ++
      listener.type ++ ascii " to unknown event " ++ event)
  let listeners := (← get).listeners event
  setListeners event listeners
  raiseIf (listeners.lookup listener).isSome
    (ascii "Listener " ++ host.tostring listener ++ ascii " of type " ++ listener.type ++
      ascii " is already subscribed to event " ++ event)
  match listener with
  | .function f => setListeners event (listeners.insert listener f)
  | .table _ =>
    match handler with
    | some handler => setListeners event (listeners.insert listener handler)
    | none => throw (ascii "Listener " ++ host.tostring listener ++ ascii " of type " ++
        listener.type ++ ascii " is missing a default handler for event " ++ event)
  | .other _ => throw (ascii "Invalid listener " ++ host.tostring listener ++ ascii " of type " ++
      listener.type ++ ascii " cannot subscribe to event " ++ event)
where
  setListeners (event : LuaString) (listeners : Listeners) : Action Payload Unit :=
    modify fun st => { st with subscribers := st.subscribers.insert event listeners }

def unsubscribe (event : LuaString) (listener : Listener) : Action Payload Unit := do
  raiseIf ((← get).status event).isNone
    (ascii "Cannot unsubscribe listener " ++ host.tostring listener ++ ascii " of type " ++
      listener.type ++ ascii " from unknown event " ++ event)
  raiseIf listener.isOther
    (ascii "Invalid listener " ++ host.tostring listener ++ ascii " of type " ++
      listener.type ++ ascii " cannot unsubscribe from event " ++ event)
  let listeners := (← get).listeners event
  subscribe.setListeners event listeners
  raiseIf (listeners.lookup listener).isNone
    (ascii "Listener " ++ host.tostring listener ++ ascii " of type " ++ listener.type ++
      ascii " is not subscribed to event " ++ event)
  subscribe.setListeners event (listeners.erase listener)

/-- `validateTable(payload, "payload")`. -/
def validateTable (payload : Payload) : Action Payload Unit :=
  raiseIf (host.type payload ≠ ascii "table")
    (ascii "Expected argument payload to be a table value, but received a " ++
      host.type payload ++ ascii " value instead")

/-- A call of a handler. A table is passed to its handler as well. -/
structure Delivery (Payload : Type) where
  listener : Listener
  handler : Handler
  event : LuaString
  payload : Payload

/-- The calls that `notify` makes. -/
def notify (event : LuaString) (payload : Option Payload) :
    Action Payload (List (Delivery Payload)) := do
  let payload := host.orEmpty payload
  validateTable host payload
  let listeners := (← get).listeners event
  return listeners.entries.map fun entry => ⟨entry.1, entry.2, event, payload⟩

def publish (event : LuaString) (payload : Option Payload) :
    Action Payload (List (Delivery Payload)) := do
  let payload := host.orEmpty payload
  validateTable host payload
  record host event (some payload)
  notify host event (some payload)

/-! ## Lists of events as sequences of parts -/

/-- What a function of one or more events deals with, one after the other. -/
inductive Part
  | nil
  | empty
  | name (event : LuaString)
  deriving DecidableEq

def EventList.parts : EventList → List Part
  | .empty => []
  | .name event rest => .name event :: rest.parts
  | .list events rest =>
    (if events = .empty then [.empty] else []) ++ (events.parts ++ rest.parts)

def EventArgument.parts : EventArgument → List Part
  | .nil => [.nil]
  | .name event => [.name event]
  | .list events => (if events = .empty then [.empty] else []) ++ events.parts

theorem EventList.nil_notMem_parts (events : EventList) : .nil ∉ events.parts := by
  induction events with
  | empty => exact List.not_mem_nil
  | name event rest ih => simp [EventList.parts, ih]
  | list events rest events_ih rest_ih =>
    rw [EventList.parts]
    split <;> simp [events_ih, rest_ih]

theorem EventList.nil_notMem_parts_list (events : EventList) :
    .nil ∉ (EventArgument.list events).parts := by
  rw [EventArgument.parts]
  split <;> simp [events.nil_notMem_parts]

def onPart (onNil onEmpty : Action Payload Unit) (onName : LuaString → Action Payload Unit) :
    Part → Action Payload Unit
  | .nil => onNil
  | .empty => onEmpty
  | .name event => onName event

section Parts

variable (onNil onEmpty : Action Payload Unit) (onName : LuaString → Action Payload Unit)

theorem forM_emptyPart (events : EventList) :
    forM (if events = .empty then [Part.empty] else []) (onPart onNil onEmpty onName) =
      if events = .empty then onEmpty else pure () := by
  split
  · exact bind_pure_unit (m := Raising (State Payload) LuaString)
  · rfl

theorem forEvents_eq (events : EventList) :
    forEvents onEmpty onName events = forM events.parts (onPart onNil onEmpty onName) := by
  induction events with
  | empty => rfl
  | name event rest ih =>
    rw [forEvents, ih, EventList.parts, List.forM_cons]
    rfl
  | list events rest events_ih rest_ih =>
    rw [forEvents, events_ih, rest_ih, EventList.parts, List.forM_append, List.forM_append,
      forM_emptyPart]
    split <;> rfl

/-- A function of one or more events deals with the parts of its argument in order. -/
theorem withEvents_eq (argument : EventArgument) :
    withEvents onNil onEmpty onName argument =
      forM argument.parts (onPart onNil onEmpty onName) := by
  cases argument with
  | nil => exact bind_pure_unit.symm
  | name event => exact bind_pure_unit.symm
  | list events =>
    rw [withEvents, forEvents_eq onNil, EventArgument.parts, List.forM_append, forM_emptyPart]
    split <;> rfl

end Parts

/-! ## What the functions do -/

section Specifications

variable {s s' : State Payload} {event : LuaString}

theorem setStatus_completes {enabledFlag : Bool} :
    (setStatus event enabledFlag).Completes s () s' ↔
      s' = { s with registeredEvents := s.registeredEvents.insert event enabledFlag } := by
  simp [setStatus]

theorem registerEvent_completes :
    (registerEvent event).Completes s () s' ↔ s.status event = none ∧
      s' = { s with registeredEvents := s.registeredEvents.insert event false } := by
  simp [registerEvent, setStatus_completes]

theorem unregisterEvent_completes :
    (unregisterEvent event).Completes s () s' ↔ s.status event ≠ none ∧
      s' = { s with registeredEvents := s.registeredEvents.erase event } := by
  simp [unregisterEvent]

theorem toggleEvent_completes {verb : LuaString} {enabledFlag : Bool} :
    (toggleEvent verb enabledFlag event).Completes s () s' ↔ s.status event ≠ none ∧
      s' = { s with registeredEvents := s.registeredEvents.insert event enabledFlag } := by
  simp [toggleEvent, setStatus_completes]

theorem status_insert (events : AList fun _ : LuaString => Bool) (other : LuaString) (flag : Bool) :
    (events.insert other flag).lookup event =
      if event = other then some flag else events.lookup event := by
  split
  case isTrue same => rw [same, AList.lookup_insert]
  case isFalse differs => rw [AList.lookup_insert_ne differs]

theorem status_erase (events : AList fun _ : LuaString => Bool) (other : LuaString) :
    (events.erase other).lookup event = if event = other then none else events.lookup event := by
  split
  case isTrue same => rw [same, AList.lookup_erase]
  case isFalse differs => rw [AList.lookup_erase_ne differs]

/-- The loop over all keys removes all of them. -/
theorem unregisterAll_status (s : State Payload) (event : LuaString) :
    ((unregisterAll.outcome s).2).status event = none := by
  have loop (keys : List LuaString) (events : AList fun _ : LuaString => Bool) :
      (keys.foldl (fun events key => events.erase key) events).lookup event =
        if event ∈ keys then none else events.lookup event := by
    induction keys generalizing events with
    | nil => simp
    | cons key rest ih =>
      rw [List.foldl_cons, ih, status_erase]
      by_cases same : event = key <;> simp [same]
  show (s.registeredEvents.keys.foldl _ s.registeredEvents).lookup event = none
  rw [loop]
  split
  case isTrue => rfl
  case isFalse unknown => exact AList.lookup_eq_none.mpr unknown

theorem setAll_status (enabledFlag : Bool) (s : State Payload) (event : LuaString) :
    (((setAll enabledFlag).outcome s).2).status event =
      (s.status event).map fun _ => enabledFlag := by
  have loop (keys : List LuaString) (events : AList fun _ : LuaString => Bool) :
      (keys.foldl (fun events name => events.insert name enabledFlag) events).lookup event =
        if event ∈ keys then some enabledFlag else events.lookup event := by
    induction keys generalizing events with
    | nil => simp
    | cons key rest ih =>
      rw [List.foldl_cons, ih, status_insert]
      by_cases same : event = key <;> simp [same]
  show (s.registeredEvents.keys.foldl _ s.registeredEvents).lookup event = _
  rw [loop]
  split
  case isTrue known =>
    obtain ⟨flag, found⟩ := Option.isSome_iff_exists.mp (AList.lookup_isSome.mpr known)
    rw [State.status, found]
    rfl
  case isFalse unknown =>
    rw [State.status, AList.lookup_eq_none.mpr unknown]
    rfl

/-- The state apart from the registered events. -/
def State.rest (st : State Payload) : State Payload := { st with registeredEvents := ∅ }

theorem withEvents_keeps {P : State Payload → Prop} {onNil onEmpty : Action Payload Unit}
    {onName : LuaString → Action Payload Unit} (nil : Keeps P onNil) (empty : Keeps P onEmpty)
    (name : ∀ event, Keeps P (onName event)) (argument : EventArgument) :
    Keeps P (withEvents onNil onEmpty onName argument) := by
  rw [withEvents_eq]
  refine Keeps.forM fun part => ?_
  cases part with
  | nil => exact nil
  | empty => exact empty
  | name event => exact name event

section Keeps

variable {P : State Payload → Prop}

/-- What is kept by the loop over the events of an argument, from what each change keeps. -/
theorem register_keeps (argument : EventArgument)
    (insert : ∀ st event, P st →
      P { st with registeredEvents := st.registeredEvents.insert event false }) :
    Keeps P (register argument) :=
  withEvents_keeps .throw .pure
    (fun event => .bind .get fun _ => .bind .raiseIf fun _ => .modify fun st => insert st event)
    argument

theorem unregister_keeps (argument : EventArgument)
    (erase : ∀ st events, P st → P { st with registeredEvents := events }) :
    Keeps P (unregister argument) :=
  have all : Keeps P unregisterAll := .modify fun st => erase st _
  withEvents_keeps all all
    (fun _ => .bind .get fun _ => .bind .raiseIf fun _ => .modify fun st => erase st _) argument

theorem toggle_keeps (verb : LuaString) (enabledFlag : Bool) (argument : EventArgument)
    (all : Keeps P (setAll enabledFlag))
    (insert : ∀ st event, P st →
      P { st with registeredEvents := st.registeredEvents.insert event enabledFlag }) :
    Keeps P (withEvents (setAll enabledFlag) (pure ()) (toggleEvent verb enabledFlag) argument) :=
  withEvents_keeps all .pure
    (fun event => .bind .get fun _ => .bind .raiseIf fun _ => .modify fun st => insert st event)
    argument

end Keeps

/-- The four functions of one or more events change nothing but the registered events. -/
theorem register_keeps_rest (argument : EventArgument) (r : State Payload) :
    Keeps (fun st => st.rest = r) (register argument) :=
  register_keeps argument fun _ _ same => same

theorem unregister_keeps_rest (argument : EventArgument) (r : State Payload) :
    Keeps (fun st => st.rest = r) (unregister argument) :=
  unregister_keeps argument fun _ _ same => same

theorem toggle_keeps_rest (verb : LuaString) (enabledFlag : Bool) (argument : EventArgument)
    (r : State Payload) :
    Keeps (fun st => st.rest = r) (withEvents (setAll enabledFlag) (pure ())
      (toggleEvent verb enabledFlag) argument) := by
  refine toggle_keeps verb enabledFlag argument ?_ fun _ _ same => same
  intro st same
  exact same

end Specifications

end EvoRuntime.Etrace
