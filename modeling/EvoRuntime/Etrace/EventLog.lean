import EvoRuntime.Etrace.EventTrace
import Mathlib.Data.List.DropRight

/-!
# The event log

`logged` says what the log is for: it is read off the history of calls, with the flag of
an event as the calls before left it. `filter_spec` shows that the code keeps this log.

## Proof strategy

The invariant `Follows` ties the state to the history. A call changes the flag of each
event by itself, so the loops over lists of events are folded for one event at a time.
-/
namespace EvoRuntime.Etrace

open Lua Library Raising

variable {Payload : Type}

/-! ## The history of calls -/

inductive Call (Payload : Type)
  | register (events : EventArgument)
  | unregister (events : EventArgument)
  | enable (events : EventArgument)
  | disable (events : EventArgument)
  | record (event : LuaString) (payload : Option Payload)
  | publish (event : LuaString) (payload : Option Payload)
  | clear
  | reset
  /-- `etrace.isForceEnabled = enabled` -/
  | force (enabled : Bool)

def Call.perform (host : Surroundings Payload) : Call Payload → Action Payload Unit
  | .register events => Etrace.register events
  | .unregister events => Etrace.unregister events
  | .enable events => Etrace.enable events
  | .disable events => Etrace.disable events
  | .record event payload => Etrace.record host event payload
  | .publish event payload => do
    let _ ← Etrace.publish host event payload
    pure ()
  | .clear => Etrace.clear
  | .reset => Etrace.reset
  | .force enabled => modify fun st => { st with isForceEnabled := enabled }

/-! ### What the log should be -/

/-- The argument names the event, directly or in a list. -/
def EventArgument.Names (argument : EventArgument) (event : LuaString) : Prop :=
  .name event ∈ argument.parts

/-- No argument stands for all events. -/
def EventArgument.Selects (argument : EventArgument) (event : LuaString) : Prop :=
  .nil ∈ argument.parts ∨ .name event ∈ argument.parts

/-- For `unregister`, an empty list stands for all events as well. -/
def EventArgument.Clears (argument : EventArgument) (event : LuaString) : Prop :=
  .nil ∈ argument.parts ∨ .empty ∈ argument.parts ∨ .name event ∈ argument.parts

instance (argument : EventArgument) (event : LuaString) : Decidable (argument.Names event) :=
  inferInstanceAs (Decidable (_ ∈ _))

instance (argument : EventArgument) (event : LuaString) : Decidable (argument.Selects event) :=
  inferInstanceAs (Decidable (_ ∨ _))

instance (argument : EventArgument) (event : LuaString) : Decidable (argument.Clears event) :=
  inferInstanceAs (Decidable (_ ∨ _))

/-- What a call makes of the enabled flag of an event; an event without a flag is not
registered. -/
def Call.affect (event : LuaString) (flag : Option Bool) : Call Payload → Option Bool
  | .register events => if events.Names event then some false else flag
  | .unregister events => if events.Clears event then none else flag
  | .enable events => if events.Selects event then flag.map fun _ => true else flag
  | .disable events => if events.Selects event then flag.map fun _ => false else flag
  | .reset => none
  | .record _ _ | .publish _ _ | .clear | .force _ => flag

def Call.forces (forced : Bool) : Call Payload → Bool
  | .force enabled => enabled
  | _ => forced

def flagAfter (calls : List (Call Payload)) (event : LuaString) : Option Bool :=
  calls.foldl (Call.affect event) none

def forcedAfter (calls : List (Call Payload)) : Bool := calls.foldl Call.forces false

/-- The event is registered, and enabled or forced. -/
def Recorded (calls : List (Call Payload)) (event : LuaString) : Prop :=
  flagAfter calls event = some true ∨
    flagAfter calls event = some false ∧ forcedAfter calls = true

instance (calls : List (Call Payload)) (event : LuaString) : Decidable (Recorded calls event) :=
  inferInstanceAs (Decidable (_ ∨ _))

/-- What a call adds to the log, with `entered` for what is entered for its payload. -/
def Call.contribution (entered : Option Payload → Payload) (before : List (Call Payload)) :
    Call Payload → List (Entry Payload)
  | .record event payload | .publish event payload =>
    if Recorded before event then [⟨event, entered payload⟩] else []
  | _ => []

def contributions (entered : Option Payload → Payload) (before : List (Call Payload)) :
    List (Call Payload) → List (Entry Payload)
  | [] => []
  | call :: rest =>
    call.contribution entered before ++ contributions entered (before ++ [call]) rest

def Call.keepsLog : Call Payload → Bool
  | .clear | .reset => false
  | _ => true

/-- What the calls since the last `clear` or `reset` have recorded. -/
def logged (entered : Option Payload → Payload) (calls : List (Call Payload)) :
    List (Entry Payload) :=
  contributions entered (calls.rdropWhile Call.keepsLog) (calls.rtakeWhile Call.keepsLog)

theorem contributions_append (entered : Option Payload → Payload)
    (before front back : List (Call Payload)) :
    contributions entered before (front ++ back) =
      contributions entered before front ++ contributions entered (before ++ front) back := by
  induction front generalizing before with
  | nil => simp [contributions]
  | cons call rest ih =>
    rw [List.cons_append, contributions, contributions, ih, List.append_cons before call rest]
    exact (List.append_assoc ..).symm

/-- One more call. -/
theorem logged_concat (entered : Option Payload → Payload) (calls : List (Call Payload))
    (call : Call Payload) :
    logged entered (calls ++ [call]) =
      if call.keepsLog then logged entered calls ++ call.contribution entered calls else [] := by
  unfold logged
  by_cases keeps : call.keepsLog = true
  · have whole : calls.rdropWhile Call.keepsLog ++ calls.rtakeWhile Call.keepsLog = calls :=
      List.rdropWhile_append_rtakeWhile
    rw [if_pos keeps, List.rdropWhile_concat_pos _ _ _ keeps, List.rtakeWhile_concat_pos _ _ _ keeps,
      contributions_append, whole]
    simp [contributions]
  · rw [if_neg keeps, List.rtakeWhile_concat_neg _ _ _ keeps]
    rfl

/-- The payload that a call is given. -/
def Call.payload : Call Payload → Option Payload
  | .record _ payload | .publish _ payload => payload
  | _ => none

/-- Only what is entered for the given payloads matters. -/
theorem contributions_congr {entered entered' : Option Payload → Payload}
    (before : List (Call Payload)) {calls : List (Call Payload)}
    (same : ∀ call ∈ calls, entered call.payload = entered' call.payload) :
    contributions entered before calls = contributions entered' before calls := by
  induction calls generalizing before with
  | nil => rfl
  | cons call rest ih =>
    obtain ⟨first, later⟩ := List.forall_mem_cons.mp same
    have contribution : call.contribution entered before = call.contribution entered' before := by
      cases call with
      | record event payload | publish event payload =>
        have entry : entered payload = entered' payload := first
        simp only [Call.contribution, entry]
      | _ => rfl
    rw [contributions, contributions, contribution, ih _ later]

/-- Payloads other than `false` are logged as they were given. -/
theorem logged_given (host : Surroundings Payload) (calls : List (Call Payload))
    (truthy : ∀ call ∈ calls, ∀ payload, call.payload = some payload → host.isFalse payload = false) :
    logged host.orEmpty calls = logged (Option.getD · host.emptyTable) calls := by
  refine contributions_congr _ fun call member => ?_
  have listed := (List.rtakeWhile_suffix Call.keepsLog calls).subset member
  cases given : call.payload with
  | none => rfl
  | some payload =>
    rw [Surroundings.orEmpty, truthy call listed payload given]
    rfl

theorem flagAfter_concat (calls : List (Call Payload)) (call : Call Payload) (event : LuaString) :
    flagAfter (calls ++ [call]) event = call.affect event (flagAfter calls event) :=
  List.foldl_append

theorem forcedAfter_concat (calls : List (Call Payload)) (call : Call Payload) :
    forcedAfter (calls ++ [call]) = call.forces (forcedAfter calls) :=
  List.foldl_append

/-! ## What the calls do -/

variable {s s' : State Payload} {event : LuaString}

/-- A step that is repeated for every element that is hit, and could as well be made once. -/
theorem foldl_hit {α γ : Type} (hit : α → Prop) [DecidablePred hit] (g : γ → γ)
    (again : ∀ x, g (g x) = g x) (xs : List α) (x : γ) :
    xs.foldl (fun x a => if hit a then g x else x) x = if ∃ a ∈ xs, hit a then g x else x := by
  induction xs generalizing x with
  | nil => simp
  | cons a rest ih =>
    rw [List.foldl_cons, ih]
    by_cases first : hit a <;> by_cases later : ∃ b ∈ rest, hit b <;> simp [first, later, again]

/-- What a function of one or more events makes of the flag of one event, from what it
does for each part of its argument. -/
theorem withEvents_status {onNil onEmpty : Action Payload Unit}
    {onName : LuaString → Action Payload Unit} {argument : EventArgument}
    (hit : Part → Prop) [DecidablePred hit] (g : Option Bool → Option Bool)
    (again : ∀ flag, g (g flag) = g flag)
    (step : ∀ part t t', (onPart onNil onEmpty onName part).Completes t () t' →
      t'.status event = if hit part then g (t.status event) else t.status event)
    (completed : (withEvents onNil onEmpty onName argument).Completes s () s') :
    s'.status event =
      if ∃ part ∈ argument.parts, hit part then g (s.status event) else s.status event := by
  rw [withEvents_eq] at completed
  have fold := forM_fold (fun st => st.status event)
    (fun flag part => if hit part then g flag else flag) step completed
  rw [fold, foldl_hit hit g again]

theorem register_status {argument : EventArgument}
    (completed : (register argument).Completes s () s') :
    s'.status event = if argument.Names event then some false else s.status event := by
  refine (withEvents_status (· = .name event) (fun _ => some false) (fun _ => rfl) ?_
    completed).trans (if_congr (by simp [EventArgument.Names]) rfl rfl)
  intro part t t' run
  cases part with
  | nil => exact absurd run throw_completes
  | empty =>
    obtain ⟨-, rfl⟩ := pure_completes.mp run
    exact (if_neg nofun).symm
  | name other =>
    obtain ⟨-, rfl⟩ := registerEvent_completes.mp run
    rw [State.status, status_insert]
    exact if_congr (by simp [eq_comm]) rfl rfl

theorem unregister_status {argument : EventArgument}
    (completed : (unregister argument).Completes s () s') :
    s'.status event = if argument.Clears event then none else s.status event := by
  refine (withEvents_status (fun part => part = .nil ∨ part = .empty ∨ part = .name event)
    (fun _ => none) (fun _ => rfl) ?_ completed).trans (if_congr ?_ rfl rfl)
  · intro part t t' run
    cases part with
    | nil =>
      have cleared := unregisterAll_status t event
      rw [show unregisterAll.outcome t = (.ok (), t') from run] at cleared
      rw [cleared, if_pos (Or.inl rfl)]
    | empty =>
      have cleared := unregisterAll_status t event
      rw [show unregisterAll.outcome t = (.ok (), t') from run] at cleared
      rw [cleared, if_pos (Or.inr (Or.inl rfl))]
    | name other =>
      obtain ⟨-, rfl⟩ := unregisterEvent_completes.mp run
      rw [State.status, status_erase]
      exact if_congr (by simp [eq_comm]) rfl rfl
  · simp only [EventArgument.Clears, exists_or, and_or_left, exists_eq_right]

theorem toggle_status {verb : LuaString} {enabledFlag : Bool} {argument : EventArgument}
    (completed : (withEvents (setAll enabledFlag) (pure ()) (toggleEvent verb enabledFlag)
      argument).Completes s () s') :
    s'.status event = if argument.Selects event then (s.status event).map fun _ => enabledFlag
      else s.status event := by
  refine (withEvents_status (fun part => part = .nil ∨ part = .name event)
    (Option.map fun _ => enabledFlag) (fun flag => by cases flag <;> rfl) ?_ completed).trans
    (if_congr ?_ rfl rfl)
  · intro part t t' run
    cases part with
    | nil =>
      have all := setAll_status enabledFlag t event
      rw [show (setAll enabledFlag).outcome t = (.ok (), t') from run] at all
      rw [all, if_pos (Or.inl rfl)]
    | empty =>
      obtain ⟨-, rfl⟩ := pure_completes.mp run
      exact (if_neg (by simp)).symm
    | name other =>
      obtain ⟨known, rfl⟩ := toggleEvent_completes.mp run
      rw [State.status, status_insert]
      by_cases same : event = other
      · subst same
        obtain ⟨flag, found⟩ := Option.ne_none_iff_exists'.mp known
        rw [if_pos rfl, if_pos (Or.inr rfl), found]
        rfl
      · rw [if_neg same, if_neg (by simpa using Ne.symm same)]
        rfl
  · simp only [EventArgument.Selects, and_or_left, exists_or, exists_eq_right]

variable {host : Surroundings Payload} {payload : Option Payload}

theorem printEntry_keeps {P : State Payload → Prop} {payload : Payload}
    (output : ∀ st lines, P st → P { st with output := lines }) :
    Keeps P (printEntry host event payload) := by
  refine .bind .get fun st => ?_
  split
  · refine .bind ?_ fun line => .modify fun st => output st _
    unfold stringify
    cases host.stringify payload with
    | ok payloadString => exact .pure
    | error message => exact .throw
  · exact .pure

/-- An event that is registered is logged if it is enabled or recording is forced. -/
theorem record_completes {payload : Option Payload}
    (completed : (record host event payload).Completes s () s') :
    s'.registeredEvents = s.registeredEvents ∧ s'.isForceEnabled = s.isForceEnabled ∧
      s'.eventLog = s.eventLog ++
        if s.status event = some true ∨ s.status event = some false ∧ s.isForceEnabled = true then
          [⟨event, host.orEmpty payload⟩] else [] := by
  have run := get_bind_completes.mp completed
  cases known : s.status event with
  | none => simp [known] at run
  | some enabledFlag =>
    simp only [known] at run
    by_cases ignored : enabledFlag = false ∧ s.isForceEnabled = false
    · rw [if_pos ignored, pure_completes] at run
      rw [run.2, if_neg (by simp [ignored]), List.append_nil]
      exact ⟨rfl, rfl, rfl⟩
    · have entered : some enabledFlag = some true ∨
          some enabledFlag = some false ∧ s.isForceEnabled = true := by
        cases enabledFlag with
        | true => exact Or.inl rfl
        | false => exact Or.inr ⟨rfl, by simpa using ignored⟩
      rw [if_neg ignored] at run
      rw [if_pos entered]
      obtain ⟨⟨⟩, t, logged, printed⟩ := bind_completes.mp run
      obtain rfl := modify_completes.mp logged
      -- Printing is the only thing that follows the new entry.
      have keeps : Keeps (fun t : State Payload => t.registeredEvents = s.registeredEvents ∧
          t.isForceEnabled = s.isForceEnabled ∧
          t.eventLog = s.eventLog ++ [⟨event, host.orEmpty payload⟩])
          (printEntry host event (host.orEmpty payload)) :=
        printEntry_keeps fun _ _ held => held
      exact keeps.completes printed ⟨rfl, rfl, rfl⟩

theorem publish_completes {payload : Option Payload} {deliveries : List (Delivery Payload)}
    (completed : (publish host event payload).Completes s deliveries s') :
    (record host event (some (host.orEmpty payload))).Completes s () s' := by
  obtain ⟨⟨⟩, t, checked, rest⟩ := bind_completes.mp completed
  obtain ⟨⟨⟩, t', recorded, notified⟩ := bind_completes.mp rest
  have checking : Keeps (· = s) (validateTable host (host.orEmpty payload)) := .raiseIf
  have unchanged : Keeps (· = t') (notify host event (some (host.orEmpty payload))) :=
    .bind .raiseIf fun _ => .bind .get fun _ => .pure
  have first : t = s := checking.completes checked rfl
  have last : s' = t' := unchanged.completes notified rfl
  rwa [last, ← first]

/-! ## The history and the state -/

/-- The state is the one that the history asks for. -/
structure Follows (entered : Option Payload → Payload) (calls : List (Call Payload)) (st : State Payload) :
    Prop where
  eventLog : st.eventLog = logged entered calls
  status : ∀ event, st.status event = flagAfter calls event
  isForceEnabled : st.isForceEnabled = forcedAfter calls

variable {calls : List (Call Payload)}

theorem Follows.initial (entered : Option Payload → Payload) :
    Follows entered [] ({} : State Payload) where
  eventLog := rfl
  status _ := rfl
  isForceEnabled := rfl

/-- A call that changes nothing but the registered events. -/
theorem Follows.events {entered : Option Payload → Payload} (follows : Follows entered calls s)
    (call : Call Payload) (rest : s'.rest = s.rest)
    (status : ∀ event, s'.status event = call.affect event (s.status event))
    (silent : call.contribution entered calls = []) (keeps : call.keepsLog = true)
    (forces : ∀ forced, call.forces forced = forced) : Follows entered (calls ++ [call]) s' where
  eventLog := by
    rw [logged_concat, if_pos keeps, silent, List.append_nil, ← follows.eventLog]
    exact (congrArg State.eventLog rest : s'.rest.eventLog = s.rest.eventLog)
  status event := by rw [flagAfter_concat, ← follows.status event, status event]
  isForceEnabled := by
    rw [forcedAfter_concat, forces, ← follows.isForceEnabled]
    exact (congrArg State.isForceEnabled rest : s'.rest.isForceEnabled = s.rest.isForceEnabled)

/-- `record` adds what the history says that the call contributes. -/
theorem Follows.record {payload : Option Payload} (follows : Follows host.orEmpty calls s)
    (completed : (record host event payload).Completes s () s') (call : Call Payload)
    (contribution : call.contribution host.orEmpty calls =
      if Recorded calls event then [⟨event, host.orEmpty payload⟩] else [])
    (affect : ∀ other flag, call.affect other flag = flag) (keeps : call.keepsLog = true)
    (forces : ∀ forced, call.forces forced = forced) :
    Follows host.orEmpty (calls ++ [call]) s' := by
  obtain ⟨registeredEvents, isForceEnabled, eventLog⟩ := record_completes completed
  constructor
  case eventLog =>
    rw [follows.status, follows.isForceEnabled] at eventLog
    rw [logged_concat, if_pos keeps, contribution, ← follows.eventLog, eventLog]
    exact congrArg (s.eventLog ++ ·) (if_congr Iff.rfl rfl rfl)
  case status =>
    intro other
    rw [flagAfter_concat, affect, ← follows.status other, State.status, registeredEvents]
    rfl
  case isForceEnabled => rw [forcedAfter_concat, forces, isForceEnabled, follows.isForceEnabled]

/-- The step lemma: every call that does not raise follows the history. -/
theorem Follows.perform (follows : Follows host.orEmpty calls s) (call : Call Payload)
    (completed : (call.perform host).Completes s () s') :
    Follows host.orEmpty (calls ++ [call]) s' := by
  cases call with
  | register events =>
    have rest : s'.rest = s.rest := (register_keeps_rest events s.rest).completes completed rfl
    exact follows.events _ rest (fun _ => register_status completed) rfl rfl fun _ => rfl
  | unregister events =>
    have rest : s'.rest = s.rest := (unregister_keeps_rest events s.rest).completes completed rfl
    exact follows.events _ rest (fun _ => unregister_status completed) rfl rfl fun _ => rfl
  | enable events =>
    have rest : s'.rest = s.rest := (toggle_keeps_rest _ true events s.rest).completes completed rfl
    exact follows.events _ rest (fun _ => toggle_status completed) rfl rfl fun _ => rfl
  | disable events =>
    have rest : s'.rest = s.rest := (toggle_keeps_rest _ false events s.rest).completes completed rfl
    exact follows.events _ rest (fun _ => toggle_status completed) rfl rfl fun _ => rfl
  | record event payload =>
    exact follows.record completed _ rfl (fun _ _ => rfl) rfl fun _ => rfl
  | publish event payload =>
    obtain ⟨deliveries, t, published, discarded⟩ := bind_completes.mp completed
    obtain ⟨-, rfl⟩ := pure_completes.mp discarded
    refine follows.record (publish_completes published) _ ?_ (fun _ _ => rfl) rfl fun _ => rfl
    rw [host.orEmpty_orEmpty]
    rfl
  | clear =>
    obtain rfl := modify_completes.mp completed
    constructor
    case eventLog => rw [logged_concat]; rfl
    case status => exact fun event => by rw [flagAfter_concat]; exact follows.status event
    case isForceEnabled => rw [forcedAfter_concat]; exact follows.isForceEnabled
  | reset =>
    obtain rfl := modify_completes.mp completed
    constructor
    case eventLog => rw [logged_concat]; rfl
    case status => exact fun event => by rw [flagAfter_concat]; rfl
    case isForceEnabled => rw [forcedAfter_concat]; exact follows.isForceEnabled
  | force enabled =>
    obtain rfl := modify_completes.mp completed
    constructor
    case eventLog =>
      rw [logged_concat, ← follows.eventLog]
      exact (List.append_nil _).symm
    case status => exact fun event => by rw [flagAfter_concat]; exact follows.status event
    case isForceEnabled => rw [forcedAfter_concat]; rfl

/-- The run lemma: after any sequence of calls that do not raise. -/
theorem follows_calls (completed : (forM calls (Call.perform host)).Completes {} () s) :
    Follows host.orEmpty calls s :=
  forM_history (Follows host.orEmpty) (fun _ call _ _ follows run => follows.perform call run)
    completed [] (Follows.initial _)

/-! ## `filter` -/

/-- The names that are asked for. -/
def FilterArgument.names : FilterArgument → List LuaString
  | .nil => []
  | .name event => [event]
  | .list events => events

/-- The table that `filter` builds from a list of names. -/
theorem lookup_names (names : List LuaString) (name : LuaString) :
    (names.foldl (fun events name => events.insert name true)
      (∅ : AList fun _ : LuaString => Bool)).lookup name = if name ∈ names then some true else none := by
  have loop (events : AList fun _ : LuaString => Bool) :
      (names.foldl (fun events name => events.insert name true) events).lookup name =
        if name ∈ names then some true else events.lookup name := by
    induction names generalizing events with
    | nil => simp
    | cons other rest ih =>
      rw [List.foldl_cons, ih, status_insert]
      by_cases same : name = other <;> simp [same]
  exact loop ∅

/-- The loop that looks for an unknown event. -/
theorem check_outcome (keys : List LuaString) (s : State Payload) :
    (forM keys fun name => (do
      raiseIf ((← get).status name).isNone
        (ascii "Cannot filter event log for unknown event " ++ name) : Action Payload Unit)).outcome s =
      match keys.find? fun name => (s.status name).isNone with
      | none => (.ok (), s)
      | some name => (.error (ascii "Cannot filter event log for unknown event " ++ name), s) := by
  induction keys with
  | nil => rfl
  | cons name rest ih =>
    rw [List.forM_cons, outcome_bind, outcome_bind, List.find?_cons]
    cases unknown : (s.status name).isNone with
    | true => simp [unknown]
    | false => simpa [unknown] using ih

theorem filterEvents_outcome (names : List LuaString) (s : State Payload) :
    ((∀ name ∈ names, s.status name ≠ none) →
      (filter.filterEvents names).outcome s =
        (.ok (s.eventLog.filter fun entry => entry.name ∈ names), s)) ∧
    ((∃ name ∈ names, s.status name = none) →
      ∃ message, (filter.filterEvents names).outcome s = (.error message, s)) := by
  have keys (name : LuaString) : name ∈ (names.foldl (fun events name => events.insert name true)
      (∅ : AList fun _ : LuaString => Bool)).keys ↔ name ∈ names := by
    rw [← AList.mem_keys, ← AList.lookup_isSome, lookup_names]
    split <;> simp [*]
  unfold filter.filterEvents
  rw [outcome_bind, check_outcome]
  constructor
  · intro known
    have none_unknown : (names.foldl (fun events name => events.insert name true)
        (∅ : AList fun _ : LuaString => Bool)).keys.find? (fun name => (s.status name).isNone) =
          none := by
      rw [List.find?_eq_none]
      intro name member
      simpa using known name ((keys name).mp member)
    rw [none_unknown]
    refine congrArg (fun log => (Except.ok log, s)) (List.filter_congr fun entry _ => ?_)
    simp [lookup_names]
  · rintro ⟨name, member, unknown⟩
    cases search : (names.foldl (fun events name => events.insert name true)
        (∅ : AList fun _ : LuaString => Bool)).keys.find? (fun name => (s.status name).isNone) with
    | none =>
      exact absurd (Option.isNone_iff_eq_none.mpr unknown)
        (List.find?_eq_none.mp search name ((keys name).mpr member))
    | some found => exact ⟨_, rfl⟩

/-- After any calls that do not raise, `filter` returns what the history asks for: the
whole log without names, the entries of the given events if all of them are registered,
and an error if one is not. A payload `false` is logged as `{}`, and the other ones are
logged as they were given. -/
theorem filter_spec (host : Surroundings Payload) (calls : List (Call Payload))
    (st : State Payload) (completed : (forM calls (Call.perform host)).Completes {} () st)
    (argument : FilterArgument) :
    (argument.names = [] →
      (filter argument).outcome st = (.ok (logged host.orEmpty calls), st)) ∧
    (argument.names ≠ [] → (∀ name ∈ argument.names, flagAfter calls name ≠ none) →
      (filter argument).outcome st = (.ok ((logged host.orEmpty calls).filter
        fun entry => entry.name ∈ argument.names), st)) ∧
    ((∃ name ∈ argument.names, flagAfter calls name = none) →
      ∃ message, (filter argument).outcome st = (.error message, st)) ∧
    ((∀ call ∈ calls, ∀ payload, call.payload = some payload → host.isFalse payload = false) →
      logged host.orEmpty calls = logged (Option.getD · host.emptyTable) calls) := by
  have follows := follows_calls completed
  have filtered (names : List LuaString) := filterEvents_outcome names st
  simp only [follows.status, follows.eventLog] at filtered
  have given := logged_given host calls
  cases argument with
  | nil =>
    refine ⟨fun _ => ?_, fun nonempty => absurd rfl nonempty, by simp [FilterArgument.names], given⟩
    rw [← follows.eventLog]
    rfl
  | name event =>
    exact ⟨fun empty => absurd empty (by simp [FilterArgument.names]), fun _ => (filtered [event]).1,
      (filtered [event]).2, given⟩
  | list events =>
    cases events with
    | nil =>
      refine ⟨fun _ => ?_, fun nonempty => absurd rfl nonempty, by simp [FilterArgument.names], given⟩
      rw [← follows.eventLog]
      rfl
    | cons event rest =>
      exact ⟨fun empty => absurd empty (by simp [FilterArgument.names]),
        fun _ => (filtered (event :: rest)).1, (filtered (event :: rest)).2, given⟩

/-- Payloads that are tables, each known by a number, or booleans. -/
inductive PlainPayload
  | table (n : Nat)
  | boolean (flag : Bool)
  deriving DecidableEq

def plainSurroundings : Surroundings PlainPayload where
  emptyTable := .table 0
  isFalse payload := payload = .boolean false
  type
    | .table _ => ascii "table"
    | .boolean _ => ascii "boolean"
  stringify
    | .table n => .ok (decimal n)
    | .boolean flag => .ok (if flag then ascii "true" else ascii "false")
  tostring _ := []
  ENABLE_TEXT_TRANSFORMATIONS := false

/-- Two events, one of them enabled; then recording is forced. -/
def sampleCalls : List (Call PlainPayload) :=
  [.register (.list (.name (ascii "A") (.list (.name (ascii "B") .empty) .empty))),
    .enable (.name (ascii "A")), .record (ascii "A") (some (.table 1)),
    .record (ascii "B") (some (.table 2)), .force true, .publish (ascii "B") none]

def stateOf (calls : List (Call PlainPayload)) : State PlainPayload :=
  ((forM calls (Call.perform plainSurroundings)).outcome {}).2

theorem sampleCalls_complete :
    (forM sampleCalls (Call.perform plainSurroundings)).Completes {} () (stateOf sampleCalls) :=
  completes_of_isOk (by decide)

theorem filter_spec_sample :
    (forM sampleCalls (Call.perform plainSurroundings)).Completes {} () (stateOf sampleCalls) ∧
      logged plainSurroundings.orEmpty sampleCalls =
        [⟨ascii "A", .table 1⟩, ⟨ascii "B", .table 0⟩] ∧
      (filter (.name (ascii "B"))).outcome (stateOf sampleCalls) =
        (.ok ((logged plainSurroundings.orEmpty sampleCalls).filter
          fun entry => entry.name ∈ [ascii "B"]), stateOf sampleCalls) :=
  ⟨sampleCalls_complete, by decide,
    (filter_spec plainSurroundings sampleCalls (stateOf sampleCalls) sampleCalls_complete
      (.name (ascii "B"))).2.1 (by decide) (by decide)⟩

/-- A payload `false` for an event that is enabled. -/
def falseCalls : List (Call PlainPayload) :=
  [.register (.name (ascii "A")), .enable (.name (ascii "A")),
    .record (ascii "A") (some (.boolean false))]

/-- It is not logged as it was given. -/
theorem falseCalls_replaced :
    (forM falseCalls (Call.perform plainSurroundings)).Completes {} () (stateOf falseCalls) ∧
      logged (Option.getD · plainSurroundings.emptyTable) falseCalls =
        [⟨ascii "A", .boolean false⟩] ∧
      ¬(filter .nil).outcome (stateOf falseCalls) =
        (.ok (logged (Option.getD · plainSurroundings.emptyTable) falseCalls), stateOf falseCalls) := by
  refine ⟨completes_of_isOk (by decide), by decide, fun asGiven => ?_⟩
  have log : (stateOf falseCalls).eventLog =
      logged (Option.getD · plainSurroundings.emptyTable) falseCalls :=
    Except.ok.inj (congrArg Prod.fst asGiven)
  revert log
  decide

end EvoRuntime.Etrace
