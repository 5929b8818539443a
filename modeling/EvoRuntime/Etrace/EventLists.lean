import EvoRuntime.Etrace.EventTrace

/-!
# Lists of events that cannot be dealt with

The functions of `etrace` for one or more events take a list part by part, and look at an
event only when they get to it. So a list with an event that is refused has been dealt with
up to this event. `call_list_raised` says what has become of the registered events then, and
for which lists nothing has.

## Proof strategy

`onPart_completes` and `onPart_raised` say what one part of a list does, for all four
functions. The run over the parts in front of the refused one carries `DealtWith`.
-/
namespace EvoRuntime.Etrace

open Lua Library Raising

variable {Payload : Type} {s s' : State Payload} {event : LuaString} {part : Part}
  {parts done rest : List Part} {message : LuaString}

/-- The functions of one or more events. -/
inductive Change
  | register
  | unregister
  | enable
  | disable
  deriving DecidableEq

namespace Change

variable {change : Change}

def call : Change → EventArgument → Action Payload Unit
  | .register => Etrace.register
  | .unregister => Etrace.unregister
  | .enable => Etrace.enable
  | .disable => Etrace.disable

def onPart : Change → Part → Action Payload Unit
  | .register =>
    Etrace.onPart (throw (ascii "Invalid event nil cannot be registered")) (pure ()) registerEvent
  | .unregister => Etrace.onPart unregisterAll unregisterAll unregisterEvent
  | .enable => Etrace.onPart (setAll true) (pure ()) (toggleEvent (ascii "enable") true)
  | .disable => Etrace.onPart (setAll false) (pure ()) (toggleEvent (ascii "disable") false)

theorem call_eq (change : Change) (argument : EventArgument) :
    (change.call argument : Action Payload Unit) = forM argument.parts change.onPart := by
  cases change <;> exact withEvents_eq _ _ _ argument

/-! ## One part -/

/-- What an event has after the change. -/
def flag : Change → Option Bool
  | .register => some false
  | .unregister => none
  | .enable => some true
  | .disable => some false

/-- Only an event may be refused. -/
def accepts (change : Change) (st : State Payload) : Part → Bool
  | .name event => if change = .register then (st.status event).isNone else (st.status event).isSome
  | _ => true

/-- The events that a part of a list stands for. An empty list stands for all of them where
events are removed, and for none elsewhere; `nil` is no part of a list. -/
def reaches (change : Change) : Part → LuaString → Bool
  | .name event, other => other = event
  | .empty, _ => change = .unregister
  | .nil, _ => false

theorem onPart_completes (inList : part ≠ .nil)
    (completed : (change.onPart part).Completes s () s') :
    change.accepts s part ∧ ∀ event, s'.status event =
      if change.reaches part event then change.flag else s.status event := by
  cases part with
  | nil => exact absurd rfl inList
  | empty =>
    refine ⟨rfl, fun event => ?_⟩
    cases change with
    | unregister =>
      -- `#event == 0` removes everything.
      have removed : s' = (unregisterAll.outcome s).2 := (congrArg Prod.snd completed).symm
      rw [removed, unregisterAll_status]
      rfl
    | register | enable | disable =>
      have same : s' = s := (congrArg Prod.snd completed).symm
      rw [same]
      rfl
  | name other =>
    cases change with
    | register =>
      obtain ⟨unknown, rfl⟩ := registerEvent_completes.mp completed
      refine ⟨by simp [accepts, unknown], fun event => ?_⟩
      rw [State.status, status_insert]
      simp [reaches, flag, State.status]
    | unregister =>
      obtain ⟨known, rfl⟩ := unregisterEvent_completes.mp completed
      refine ⟨by simpa [accepts, Option.isSome_iff_ne_none] using known, fun event => ?_⟩
      rw [State.status, status_erase]
      simp [reaches, flag, State.status]
    | enable | disable =>
      obtain ⟨known, rfl⟩ := toggleEvent_completes.mp completed
      refine ⟨by simpa [accepts, Option.isSome_iff_ne_none] using known, fun event => ?_⟩
      rw [State.status, status_insert]
      simp [reaches, flag, State.status]

/-- A part that raises an error has changed nothing. -/
theorem onPart_raised (inList : part ≠ .nil)
    (raised : (change.onPart part).outcome s = (.error message, s')) :
    change.accepts s part = false ∧ s' = s := by
  cases part with
  | nil => exact absurd rfl inList
  | empty => cases change <;> cases congrArg Prod.fst raised
  | name other =>
    cases change with
    | register =>
      obtain ⟨known, same⟩ : (s.status other).isSome ∧ s' = s := check_raised raised
      exact ⟨by simpa [accepts, Option.isSome_iff_ne_none] using known, same⟩
    | unregister =>
      obtain ⟨unknown, same⟩ : (s.status other).isNone ∧ s' = s := check_raised raised
      exact ⟨by simpa [accepts] using unknown, same⟩
    | enable | disable =>
      obtain ⟨unknown, same⟩ : (s.status other).isNone ∧ s' = s := check_raised raised
      exact ⟨by simpa [accepts] using unknown, same⟩

/-! ## The parts in front of the refused one -/

/-- What holds of a state in which some parts have been dealt with. -/
structure DealtWith (change : Change) (s : State Payload) (done : List Part) (s' : State Payload) :
    Prop where
  status : ∀ event, s'.status event =
    if done.any (change.reaches · event) then change.flag else s.status event
  accepted : ∀ part ∈ done, change.accepts s part

/-- A part that is accepted after others have been dealt with was accepted before them too. -/
theorem DealtWith.accepts_of_accepts (dealt : change.DealtWith s done s')
    (accepted : change.accepts s' part) : change.accepts s part := by
  cases part with
  | nil | empty => rfl
  | name event =>
    have status := dealt.status event
    by_cases reached : done.any (change.reaches · event)
    · rw [if_pos reached] at status
      obtain ⟨earlier, among, reaches⟩ := List.any_eq_true.mp reached
      cases earlier with
      | nil => cases reaches
      | empty =>
        -- Once everything is removed, no event is accepted for removal.
        have removes : change = .unregister := of_decide_eq_true reaches
        subst removes
        simp [accepts, status, flag] at accepted
      | name other =>
        have same : event = other := of_decide_eq_true reaches
        exact same ▸ dealt.accepted _ among
    · rw [if_neg reached] at status
      simpa only [accepts, status] using accepted

theorem forM_dealtWith (inList : .nil ∉ done)
    (completed : (forM done change.onPart).Completes s () s') : change.DealtWith s done s' := by
  refine forM_history (fun done t => .nil ∉ done → change.DealtWith s done t) ?_ completed []
    (fun _ => ⟨fun _ => rfl, fun _ none => absurd none List.not_mem_nil⟩) inList
  intro done part t t' held run inList
  rw [List.mem_append, List.mem_singleton, not_or] at inList
  have dealt := held inList.1
  obtain ⟨accepted, status⟩ := onPart_completes (Ne.symm inList.2) run
  refine ⟨fun event => ?_, fun other among => ?_⟩
  · rw [status, dealt.status, List.any_append, List.any_cons, List.any_nil, Bool.or_false]
    cases done.any (change.reaches · event) <;> cases change.reaches part event <;> rfl
  · rcases List.mem_append.mp among with earlier | last
    · exact dealt.accepted other earlier
    · exact List.mem_singleton.mp last ▸ dealt.accepts_of_accepts accepted

theorem accepts_congr (same : ∀ event, s'.status event = s.status event) :
    change.accepts s' part = change.accepts s part := by
  cases part with
  | nil | empty => rfl
  | name event => simp only [accepts, same]

/-- The change would leave every event that the part stands for as it is. -/
def LeavesAlone (change : Change) (st : State Payload) (part : Part) : Prop :=
  ∀ event, change.reaches part event → st.status event = change.flag

theorem DealtWith.unchanged_iff (dealt : change.DealtWith s done s') :
    (∀ event, s'.status event = s.status event) ↔ ∀ part ∈ done, change.LeavesAlone s part := by
  constructor
  · intro unchanged part among event reaches
    have status := dealt.status event
    rw [if_pos (List.any_eq_true.mpr ⟨part, among, reaches⟩)] at status
    rw [← unchanged, status]
  · intro leaves event
    rw [dealt.status]
    split
    case isTrue reached =>
      obtain ⟨part, among, reaches⟩ := List.any_eq_true.mp reached
      exact (leaves part among event reaches).symm
    case isFalse => rfl

/-! ## Lists -/

/-- A call with a list that raises an error has dealt with the parts of the list in front of an
event that it refuses, and with nothing else. The registered events are as before exactly if
every part in front of the first event that was refused in the beginning leaves them alone. -/
theorem call_list_raised {events : EventList}
    (raised : (change.call (.list events)).outcome s = (.error message, s')) :
    (∃ done part rest, (EventArgument.list events).parts = done ++ part :: rest ∧
        change.DealtWith s done s' ∧ change.accepts s' part = false) ∧
      ((∀ event, s'.status event = s.status event) ↔
        ∀ part ∈ (EventArgument.list events).parts.takeWhile (change.accepts s),
          change.LeavesAlone s part) := by
  have inList := events.nil_notMem_parts_list
  rw [call_eq] at raised
  obtain ⟨done, part, rest, t, shape, completed, here⟩ := forM_raised raised
  rw [shape] at inList
  have dealt := forM_dealtWith (fun among => inList (List.mem_append_left _ among)) completed
  obtain ⟨refused, rfl⟩ := onPart_raised (fun same => inList (by simp [same])) here
  refine ⟨⟨done, part, rest, shape, dealt, refused⟩, ?_⟩
  rw [dealt.unchanged_iff, shape, List.takeWhile_append_of_pos dealt.accepted]
  constructor
  · intro leaves other among
    -- Without a change, the refused part was refused in the beginning.
    have refusedBefore : change.accepts s part = false := by
      rw [← accepts_congr (dealt.unchanged_iff.mpr leaves), refused]
    rw [List.takeWhile_cons_of_neg (by rw [refusedBefore]; exact Bool.false_ne_true),
      List.append_nil] at among
    exact leaves other among
  · intro leaves other among
    exact leaves other (List.mem_append_left _ among)

/-- An event that is in the list twice. -/
def twice : EventList := .name (ascii "A") (.name (ascii "A") .empty)

theorem register_twice_raised :
    let after : State Unit := { registeredEvents := (∅ : AList _).insert (ascii "A") false }
    ((∃ done part rest, (EventArgument.list twice).parts = done ++ part :: rest ∧
        register.DealtWith {} done after ∧ register.accepts after part = false) ∧
      ((∀ event, after.status event = State.status ({} : State Unit) event) ↔
        ∀ part ∈ (EventArgument.list twice).parts.takeWhile (register.accepts ({} : State Unit)),
          register.LeavesAlone ({} : State Unit) part)) :=
  @call_list_raised _ _ _ (ascii "Known event A cannot be registered again") register twice rfl

theorem register_twice_registers :
    ∃ message after,
      (register.call (.list twice)).outcome ({} : State Unit) = (.error message, after) ∧
      ¬∀ event, after.status event = State.status ({} : State Unit) event := by
  refine ⟨_, _, rfl, fun unchanged => ?_⟩
  exact absurd (unchanged (ascii "A")) (by decide)

end Change

end EvoRuntime.Etrace
