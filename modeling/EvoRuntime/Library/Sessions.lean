import EvoRuntime.Library.Simulations

/-!
# Sessions

A service keeps a session for each key. What happens concerns one key, or all of them.
Then the session of a key depends on nothing but what concerns this key, in whatever
order the other sessions go on in between.
-/
namespace EvoRuntime.Library

variable {κ σ β : Type*}

/-- What happens to the sessions of a service. -/
inductive SessionEvent (κ β : Type*) where
  | one (key : κ) (event : β)
  | all (event : β)

namespace SessionEvent

variable [DecidableEq κ]

/-- What happens to the session of a key. -/
def concerning (key : κ) : SessionEvent κ β → Option β
  | .one other event => if other = key then some event else none
  | .all event => some event

theorem concerning_self (key : κ) (event : β) : concerning key (.one key event) = some event :=
  if_pos rfl

theorem concerning_other {key other : κ} (differ : other ≠ key) (event : β) :
    concerning key (.one other event) = none :=
  if_neg differ

end SessionEvent

open SessionEvent

variable [DecidableEq κ] (after : σ → β → σ)

def sessionsAfter (sessions : κ → σ) (event : SessionEvent κ β) : κ → σ := fun key =>
  match concerning key event with
  | some event => after (sessions key) event
  | none => sessions key

theorem sessionsAfter_all (sessions : κ → σ) (event : β) :
    sessionsAfter after sessions (.all event) = fun key => after (sessions key) event := rfl

theorem sessionsAfter_one (sessions : κ → σ) (key : κ) (event : β) :
    sessionsAfter after sessions (.one key event) =
      Function.update sessions key (after (sessions key) event) := by
  funext other
  unfold sessionsAfter
  by_cases same : key = other
  · subst same
    rw [concerning_self, Function.update_self]
  · rw [concerning_other same, Function.update_of_ne (Ne.symm same)]

/-- The session of a key depends on the events that concern it. -/
theorem foldl_sessionsAfter (events : List (SessionEvent κ β)) (sessions : κ → σ) (key : κ) :
    events.foldl (sessionsAfter after) sessions key =
      (events.filterMap (concerning key)).foldl after (sessions key) := by
  induction events generalizing sessions with
  | nil => rfl
  | cons event events ih =>
    rw [List.foldl_cons, ih, List.filterMap_cons, sessionsAfter]
    cases concerning key event <;> rfl

/-- What no event takes from a session, no events take from it. -/
theorem foldl_keeps {after : σ → β → σ} {P : σ → Prop} (kept : ∀ session event, P session →
    P (after session event)) (events : List β) {session : σ} (held : P session) :
    P (events.foldl after session) := by
  induction events generalizing session with
  | nil => exact held
  | cons event events ih => exact ih (kept session event held)

/-! ### Logs -/

section

variable {α : Type*}

/-- What a log has for a key. -/
def entriesOf (log : List (κ × α)) (key : κ) : List α :=
  (log.filter (·.1 = key)).map Prod.snd

theorem entriesOf_append (log more : List (κ × α)) (key : κ) :
    entriesOf (log ++ more) key = entriesOf log key ++ entriesOf more key := by
  rw [entriesOf, List.filter_append, List.map_append]
  rfl

theorem entriesOf_map (key other : κ) (entries : List α) :
    entriesOf (entries.map (key, ·)) other = if other = key then entries else [] := by
  rw [entriesOf]
  by_cases same : other = key
  · subst same
    rw [if_pos rfl, List.filter_eq_self.mpr (by simp), List.map_map]
    exact List.map_id entries
  · rw [if_neg same, List.filter_eq_nil_iff.mpr (by simp [Ne.symm same])]
    rfl

/-- More entries for one key. -/
theorem entriesOf_append_map (log : List (κ × α)) (key : κ) (entries : List α) :
    entriesOf (log ++ entries.map (key, ·)) =
      Function.update (entriesOf log) key (entriesOf log key ++ entries) := by
  funext other
  rw [entriesOf_append, entriesOf_map]
  by_cases same : other = key
  · subst same
    rw [if_pos rfl, Function.update_self]
  · rw [if_neg same, List.append_nil, Function.update_of_ne same]

/-- The same entries for each of some keys. -/
theorem entriesOf_flatMap {keys : List κ} (distinct : keys.Nodup) (entries : List α) (key : κ) :
    entriesOf (keys.flatMap fun other => entries.map (other, ·)) key =
      if key ∈ keys then entries else [] := by
  induction keys with
  | nil => rfl
  | cons first keys ih =>
    obtain ⟨fresh, distinct⟩ := List.nodup_cons.mp distinct
    rw [List.flatMap_cons, entriesOf_append, entriesOf_map, ih distinct]
    by_cases same : key = first
    · subst same
      rw [if_pos rfl, if_neg fresh, List.append_nil, if_pos List.mem_cons_self]
    · simp only [List.mem_cons, same, false_or, if_false, List.nil_append]

end

namespace System

variable {ς α ε : Type*} {system : System ς α ε} {Inv : ς → Prop} {sessionOf : ς → κ → σ}
  {events : ς → α → List (SessionEvent κ β)} {after : σ → β → σ}

/-- In every run of a service a session is what the events that concern it make of it. -/
theorem Simulates.session
    (simulates : system.Simulates Inv sessionOf events (sessionsAfter after))
    (inductive_ : system.Inductive Inv) {s s' : ς} {actions : List α}
    (run : system.Run s actions s') (held : Inv s) (key : κ) :
    sessionOf s' key =
      ((system.eventsAlong events actions s).filterMap (concerning key)).foldl after
        (sessionOf s key) := by
  rw [simulates.run inductive_ run held, foldl_sessionsAfter]

end System

end EvoRuntime.Library
