import EvoRuntime.Etrace.EventTrace
import Mathlib.Data.List.Induction

/-!
# Subscriptions

Listeners are kept in a table of their own, which `unregister` does not look at. So an
event may go and leave its listeners behind. `subscriptions_sound_iff` says of which
sequences of calls this is not true: no `unregister` in them removes an event that has a
listener.

## Proof strategy

`unregister_status` says which events a call removes, also when it raises at an unknown
one. Every other operation keeps the invariant `Consistent`.
-/
namespace EvoRuntime.Etrace

open Lua Library Raising

variable {Payload : Type} {host : Surroundings Payload} {s s' : State Payload} {event : LuaString}
  {listener : Listener}

/-! ## Operations -/

inductive Operation
  | register (events : EventArgument)
  | unregister (events : EventArgument)
  | enable (events : EventArgument)
  | disable (events : EventArgument)
  | subscribe (event : LuaString) (listener : Listener) (handler : Option Handler)
  | unsubscribe (event : LuaString) (listener : Listener)
  | reset

def Operation.perform (host : Surroundings Payload) : Operation → Action Payload Unit
  | .register events => Etrace.register events
  | .unregister events => Etrace.unregister events
  | .enable events => Etrace.enable events
  | .disable events => Etrace.disable events
  | .subscribe event listener handler => Etrace.subscribe host event listener handler
  | .unsubscribe event listener => Etrace.unsubscribe host event listener
  | .reset => Etrace.reset

/-- The state after some operations. One that raises leaves what it has changed. -/
def stateAfter (host : Surroundings Payload) (operations : List Operation) : State Payload :=
  operations.foldl (fun st operation => ((operation.perform host).outcome st).2) {}

theorem stateAfter_concat (operations : List Operation) (operation : Operation) :
    stateAfter host (operations ++ [operation]) =
      ((operation.perform host).outcome (stateAfter host operations)).2 :=
  List.foldl_append

/-! ## What should hold -/

def State.Subscribed (st : State Payload) (event : LuaString) (listener : Listener) : Prop :=
  ((st.listeners event).lookup listener).isSome

/-- Every event that has a subscriber is registered. -/
def Consistent (st : State Payload) : Prop :=
  ∀ event listener, st.Subscribed event listener → st.status event ≠ none

/-- What callers may rely on. -/
structure Sound (host : Surroundings Payload) (st : State Payload) : Prop where
  registered : Consistent st
  /-- Notifying an unregistered event reaches nobody. -/
  notify : ∀ event payload deliveries st', st.status event = none →
    (Etrace.notify host event payload).Completes st deliveries st' → deliveries = []
  /-- An unregistered event has no listeners when it is registered again. -/
  register : ∀ event listener events, st.status event = none →
    ¬((Etrace.register events).outcome st).2.Subscribed event listener
  /-- A listener that is still subscribed can be unsubscribed. -/
  unsubscribe : ∀ event listener, st.Subscribed event listener →
    ∃ st', (Etrace.unsubscribe host event listener).Completes st () st'

/-- The events that `unregister` removes, one part after the other and up to the first
unknown event. -/
def Removes (known : LuaString → Prop) : List Part → LuaString → Prop
  | [], _ => False
  | .name removed :: rest, event =>
    known removed ∧ (event = removed ∨ Removes (fun other => known other ∧ other ≠ removed) rest event)
  | .nil :: _, event | .empty :: _, event => known event

/-- The operation is no `unregister` that removes an event with a listener. -/
def Operation.SparesListeners (st : State Payload) : Operation → Prop
  | .unregister events => ∀ event listener,
    Removes (fun event => st.status event ≠ none) events.parts event → ¬st.Subscribed event listener
  | _ => True

/-! ## What `unregister` removes -/

/-- The parts of an argument, one after the other. -/
theorem forM_removes (parts : List Part) (s : State Payload) (event : LuaString) :
    ((forM parts (onPart unregisterAll unregisterAll unregisterEvent)).outcome s).2.status event =
        none ↔
      s.status event = none ∨ Removes (fun event => s.status event ≠ none) parts event := by
  induction parts generalizing s with
  | nil => simp [Removes]
  | cons part rest ih =>
    rw [List.forM_cons, outcome_bind]
    -- Nothing is left to be removed after all events have been.
    have all (s : State Payload) :
        ((forM rest (onPart unregisterAll unregisterAll unregisterEvent)).outcome
          (unregisterAll.outcome s).2).2.status event = none :=
      (ih _).mpr (Or.inl (unregisterAll_status s event))
    cases part with
    | nil => exact iff_of_true (all s) (em _)
    | empty => exact iff_of_true (all s) (em _)
    | name removed =>
      by_cases unknown : s.status removed = none
      · have raised : (unregisterEvent removed).outcome s = (.error
            (ascii "Unknown event " ++ removed ++ ascii " cannot be unregistered"), s) := by
          simp [unregisterEvent, outcome_bind, unknown]
        simp [onPart, raised, Removes, unknown]
      · have removes : (unregisterEvent removed).outcome s =
            (.ok (), { s with registeredEvents := s.registeredEvents.erase removed }) :=
          unregisterEvent_completes.mpr ⟨unknown, rfl⟩
        have left (other : LuaString) :
            State.status { s with registeredEvents := s.registeredEvents.erase removed } other =
              if other = removed then none else s.status other := status_erase ..
        have known : (fun other => (if other = removed then none else s.status other) ≠ none) =
            fun other => s.status other ≠ none ∧ other ≠ removed := by
          funext other
          by_cases same : other = removed <;> simp [same]
        simp only [onPart, removes, ih, left, known, Removes]
        by_cases same : event = removed
        · simp [same, unknown]
        · simp [same, unknown]

theorem unregister_removes (argument : EventArgument) (s : State Payload) (event : LuaString) :
    ((unregister argument).outcome s).2.status event = none ↔
      s.status event = none ∨ Removes (fun event => s.status event ≠ none) argument.parts event := by
  rw [unregister, withEvents_eq]
  exact forM_removes argument.parts s event

/-! ## The operations -/

/-- Listeners are not touched by the functions of one or more events. -/
theorem subscribed_of_rest (rest : s'.rest = s.rest) (event : LuaString) (listener : Listener) :
    s'.Subscribed event listener ↔ s.Subscribed event listener := by
  have same : s'.rest.subscribers = s.rest.subscribers := congrArg State.subscribers rest
  have same : s'.subscribers = s.subscribers := same
  rw [State.Subscribed, State.listeners, same]
  rfl

/-- An event stays registered when another one is set. -/
theorem status_set (st : State Payload) (other : LuaString) (flag : Bool)
    (known : st.status event ≠ none) :
    State.status { st with registeredEvents := st.registeredEvents.insert other flag } event ≠ none := by
  rw [State.status, status_insert]
  split
  · exact Option.some_ne_none flag
  · exact known

theorem register_consistent (argument : EventArgument) (consistent : Consistent s) :
    Consistent ((register argument).outcome s).2 := by
  intro event listener subscribed
  rw [subscribed_of_rest (register_keeps_rest argument s.rest s rfl)] at subscribed
  exact register_keeps argument (fun st other => status_set st other false) s
    (consistent event listener subscribed)

theorem toggle_consistent (verb : LuaString) (enabledFlag : Bool) (argument : EventArgument)
    (consistent : Consistent s) :
    Consistent ((withEvents (setAll enabledFlag) (pure ()) (toggleEvent verb enabledFlag)
      argument).outcome s).2 := by
  intro event listener subscribed
  rw [subscribed_of_rest (toggle_keeps_rest verb enabledFlag argument s.rest s rfl)] at subscribed
  refine toggle_keeps verb enabledFlag argument ?_ (fun st other => status_set st other enabledFlag)
    s (consistent event listener subscribed)
  intro st known
  rw [setAll_status]
  simpa using known

/-- The exact condition under which `unregister` keeps the tables consistent. -/
theorem unregister_consistent_iff (argument : EventArgument) (consistent : Consistent s) :
    Consistent ((unregister argument).outcome s).2 ↔
      (Operation.unregister argument).SparesListeners s := by
  have same := subscribed_of_rest (unregister_keeps_rest argument s.rest s rfl)
  constructor
  · intro after event listener removes subscribed
    exact after event listener ((same event listener).mpr subscribed)
      ((unregister_removes argument s event).mpr (Or.inr removes))
  · intro spares event listener subscribed gone
    have before := (same event listener).mp subscribed
    rcases (unregister_removes argument s event).mp gone with unknown | removes
    · exact consistent event listener before unknown
    · exact spares event listener removes before

/-- No event has other listeners than before, and the registered events are the same. -/
def Within (Allowed : LuaString → Listener → Prop) (events : AList fun _ : LuaString => Bool)
    (st : State Payload) : Prop :=
  st.registeredEvents = events ∧ ∀ event listener, st.Subscribed event listener →
    Allowed event listener

variable {Allowed : LuaString → Listener → Prop} {events : AList fun _ : LuaString => Bool}

theorem setListeners_keeps {listeners : Listeners}
    (allowed : ∀ listener, (listeners.lookup listener).isSome → Allowed event listener) :
    Keeps (Within Allowed events) (subscribe.setListeners event listeners : Action Payload Unit) := by
  refine .modify fun st within => ⟨within.1, fun other listener subscribed => ?_⟩
  rw [State.Subscribed, State.listeners] at subscribed
  by_cases same : other = event
  · subst same
    rw [AList.lookup_insert] at subscribed
    exact allowed listener subscribed
  · rw [AList.lookup_insert_ne same] at subscribed
    exact within.2 other listener subscribed

theorem subscribe_keeps {handler : Option Handler}
    (allowed : listener.isOther = false → Allowed event listener) :
    Keeps (Within Allowed events) (subscribe host event listener handler) := by
  refine .bind .get fun _ => .bind .raiseIf fun _ => .get_bind fun st within => ?_
  have old : ∀ l, ((st.listeners event).lookup l).isSome → Allowed event l := within.2 event
  -- The new listener is the only one that is added.
  have new (handler : Handler) (valid : listener.isOther = false) (l : Listener)
      (member : (((st.listeners event).insert listener handler).lookup l).isSome) :
      Allowed event l := by
    by_cases same : l = listener
    · exact same ▸ allowed valid
    · rw [AList.lookup_insert_ne same] at member
      exact old l member
  refine .bind (setListeners_keeps old) fun _ => .bind .raiseIf fun _ => ?_
  cases listener with
  | function f => exact setListeners_keeps (new f rfl)
  | table t =>
    cases handler with
    | none => exact .throw
    | some handler => exact setListeners_keeps (new handler rfl)
  | other type => exact .throw

theorem unsubscribe_keeps : Keeps (Within Allowed events) (unsubscribe host event listener) := by
  refine .bind .get fun _ => .bind .raiseIf fun _ => .bind .raiseIf fun _ =>
    .get_bind fun st within => ?_
  have old : ∀ l, ((st.listeners event).lookup l).isSome → Allowed event l := within.2 event
  refine .bind (setListeners_keeps old) fun _ => .bind .raiseIf fun _ => setListeners_keeps ?_
  intro l member
  by_cases same : l = listener
  · rw [same, AList.lookup_erase] at member
    cases member
  · rw [AList.lookup_erase_ne same] at member
    exact old l member

/-! ## Steps -/

/-- The step lemma: the condition says when an operation keeps the tables consistent. -/
theorem step_consistent_iff (operation : Operation) (consistent : Consistent s) :
    Consistent ((operation.perform host).outcome s).2 ↔ operation.SparesListeners s := by
  have start : Within (fun event _ => s.status event ≠ none) s.registeredEvents s :=
    ⟨rfl, consistent⟩
  -- A state with the same events is consistent if these events are the only ones with listeners.
  have done (st : State Payload)
      (within : Within (fun event _ => s.status event ≠ none) s.registeredEvents st) :
      Consistent st := by
    intro event listener subscribed
    rw [State.status, within.1]
    exact within.2 event listener subscribed
  cases operation with
  | register events => exact iff_of_true (register_consistent events consistent) trivial
  | unregister events => exact unregister_consistent_iff events consistent
  | enable events => exact iff_of_true (toggle_consistent _ true events consistent) trivial
  | disable events => exact iff_of_true (toggle_consistent _ false events consistent) trivial
  | subscribe event listener handler =>
    refine iff_of_true ?_ trivial
    by_cases unknown : s.status event = none
    · have raised : ((subscribe host event listener handler).outcome s).2 = s := by
        simp [subscribe, outcome_bind, unknown]
      rw [Operation.perform, raised]
      exact consistent
    · exact done _ (subscribe_keeps (fun _ => unknown) s start)
  | unsubscribe event listener => exact iff_of_true (done _ (unsubscribe_keeps s start)) trivial
  | reset => exact iff_of_true (fun event listener subscribed => absurd subscribed Bool.false_ne_true) trivial

/-- Only functions and tables are ever subscribed. -/
def Callable (st : State Payload) : Prop :=
  ∀ event listener, st.Subscribed event listener → listener.isOther = false

theorem step_callable (operation : Operation) (callable : Callable s) :
    Callable ((operation.perform host).outcome s).2 := by
  have start : Within (fun _ listener => listener.isOther = false) s.registeredEvents s :=
    ⟨rfl, callable⟩
  have same (st : State Payload) (rest : st.rest = s.rest) : Callable st := fun event listener sub =>
    callable event listener ((subscribed_of_rest rest event listener).mp sub)
  cases operation with
  | register events => exact same _ (register_keeps_rest events s.rest s rfl)
  | unregister events => exact same _ (unregister_keeps_rest events s.rest s rfl)
  | enable events => exact same _ (toggle_keeps_rest _ true events s.rest s rfl)
  | disable events => exact same _ (toggle_keeps_rest _ false events s.rest s rfl)
  | subscribe event listener handler => exact (subscribe_keeps (fun valid => valid) s start).2
  | unsubscribe event listener => exact (unsubscribe_keeps s start).2
  | reset => exact fun event listener subscribed => absurd subscribed Bool.false_ne_true

theorem callable_stateAfter (operations : List Operation) :
    Callable (stateAfter host operations) := by
  induction operations using List.reverseRecOn with
  | nil => exact fun event listener subscribed => absurd subscribed Bool.false_ne_true
  | append_singleton operations operation ih =>
    rw [stateAfter_concat]
    exact step_callable operation ih

/-! ## What follows from consistent tables -/

theorem listeners_eq_nil (none_subscribed : ∀ listener, ¬s.Subscribed event listener) :
    (s.listeners event).entries = [] := by
  cases shape : (s.listeners event).entries with
  | nil => rfl
  | cons entry rest =>
    have member : entry.1 ∈ s.listeners event := by
      rw [AList.mem_keys, AList.keys, shape]
      exact List.mem_cons_self
    exact absurd (AList.lookup_isSome.mpr member) (none_subscribed entry.1)

theorem unsubscribe_completes (known : s.status event ≠ none) (valid : listener.isOther = false)
    (subscribed : s.Subscribed event listener) :
    ∃ st', (unsubscribe host event listener).Completes s () st' := by
  obtain ⟨flag, registered⟩ := Option.ne_none_iff_exists'.mp known
  obtain ⟨handler, found⟩ := Option.isSome_iff_exists.mp subscribed
  refine ⟨((unsubscribe host event listener).outcome s).2, completes_of_isOk ?_⟩
  simp [unsubscribe, outcome_bind, registered, valid, found, subscribe.setListeners, Except.isOk,
    Except.toBool]

theorem sound_of_consistent (consistent : Consistent s) (callable : Callable s) : Sound host s where
  registered := consistent
  notify event payload deliveries st' unknown completed := by
    have none_subscribed : (s.listeners event).entries = [] :=
      listeners_eq_nil fun listener subscribed => consistent event listener subscribed unknown
    obtain ⟨⟨⟩, t, checked, rest⟩ := bind_completes.mp completed
    obtain ⟨-, rfl⟩ := raiseIf_completes.mp checked
    have returned := get_bind_completes.mp rest
    rw [pure_completes, none_subscribed] at returned
    exact returned.1
  register event listener events unknown subscribed := by
    rw [subscribed_of_rest (register_keeps_rest events s.rest s rfl)] at subscribed
    exact consistent event listener subscribed unknown
  unsubscribe event listener subscribed :=
    unsubscribe_completes (consistent event listener subscribed)
      (callable event listener subscribed) subscribed

/-! ## Runs -/

/-- What callers rely on holds in every state of a run exactly if no `unregister` of the
run removes an event that has a listener. -/
theorem subscriptions_sound_iff (host : Surroundings Payload) (operations : List Operation) :
    (∀ before, before <+: operations → Sound host (stateAfter host before)) ↔
      ∀ before operation, before ++ [operation] <+: operations →
        operation.SparesListeners (stateAfter host before) := by
  constructor
  · intro sound before operation within
    have now := sound before ((List.prefix_append _ _).trans within)
    have next := sound _ within
    rw [stateAfter_concat] at next
    exact (step_consistent_iff operation now.registered).mp next.registered
  · intro spares before
    induction before using List.reverseRecOn with
    | nil =>
      exact fun _ => sound_of_consistent (fun event listener subscribed => absurd subscribed Bool.false_ne_true)
        (callable_stateAfter [])
    | append_singleton before operation ih =>
      intro within
      have now := ih ((List.prefix_append _ _).trans within)
      refine sound_of_consistent ?_ (callable_stateAfter _)
      rw [stateAfter_concat]
      exact (step_consistent_iff operation now.registered).mpr (spares before operation within)

/-- Unregistering an event with a listener. -/
def leavesListener : List Operation :=
  [.register (.name (ascii "A")), .subscribe (ascii "A") (.function 1) none,
    .unregister (.name (ascii "A"))]

theorem leavesListener_unsound :
    ¬Sound (⟨(), fun _ => false, fun _ => ascii "table", fun _ => .ok [], fun _ => [], false⟩ : Surroundings Unit)
      (stateAfter ⟨(), fun _ => false, fun _ => ascii "table", fun _ => .ok [], fun _ => [], false⟩
        leavesListener) := by
  intro sound
  exact sound.registered (ascii "A") (.function 1) (by rfl) (by rfl)

end EvoRuntime.Etrace
