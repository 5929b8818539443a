import EvoRuntime.Library.Raising
import Mathlib.Data.List.Induction
import Mathlib.Logic.Function.Basic

/-!
# Timer handles

`C_Timer` closes the handle of a one-shot timer behind its callback and keeps two tables of
the timers that are not closed. The function that does so is started by `After` only, and
does not ask whether the callback has already closed the timer. `accounted_iff` says which
runs are accounted for: those in which every callback returns as `ReturnsInOrder` requires.

## Proof strategy

`Kept` adds to the property how often a timer has been closed and which functions can be
registered for it. All operations change one timer, so each step lemma is about one timer
and `Kept.change` is about the others.
-/
namespace EvoRuntime.Timer

open Library Raising

variable {Callback : Type}

abbrev TimerId := Nat

/-- A function passed to `timer:start`. -/
inductive Registered (Callback : Type)
  /-- The function around the callback that `After` starts its timer with. -/
  | once (callback : Callback)
  /-- The callback of `After` itself, which `timerCallbacks` holds. -/
  | bare (callback : Callback)
  /-- The `onTick` of `NewTicker`. -/
  | onTick (callback : Callback)

def Registered.oneShot : Registered Callback → Bool
  | .once _ | .bare _ => true
  | .onTick _ => false

/-- A handle of libuv, and what has happened to it. -/
structure TimerHandle (Callback : Type) where
  isActive : Bool := false
  isClosing : Bool := false
  timeout : Nat := 0
  repeat_ : Nat := 0
  callback : Option (Registered Callback) := none
  /-- Whether `After` has created it. -/
  oneShot : Bool := false
  /-- The calls of `timer:close`, those that raise included. -/
  closeCalls : Nat := 0
  /-- Whether its callback has run. -/
  completed : Bool := false

structure Timers (Callback : Type) where
  handle : TimerId → TimerHandle Callback := fun _ => {}
  nextTimer : TimerId := 0
  timerStartTimes : TimerId → Option Nat := fun _ => none
  timerCallbacks : TimerId → Option (Registered Callback) := fun _ => none
  /-- The callback that is running, with its timer. -/
  running : Option (TimerId × Registered Callback) := none

abbrev TimerAction (Callback α : Type) := Raising (Timers Callback) String α

namespace Timers

def setHandle (timer : TimerId) (handle : TimerHandle Callback) (st : Timers Callback) :
    Timers Callback :=
  { st with handle := Function.update st.handle timer handle }

/-- `timerStartTimes[timer] = startTime` and `timerCallbacks[timer] = callback`. -/
def setTables (timer : TimerId) (startTime : Option Nat) (callback : Option (Registered Callback))
    (st : Timers Callback) : Timers Callback :=
  { st with
    timerStartTimes := Function.update st.timerStartTimes timer startTime
    timerCallbacks := Function.update st.timerCallbacks timer callback }

end Timers

/-! ## libuv -/

def uvNewTimer (oneShot : Bool) : TimerAction Callback TimerId := do
  let st ← get
  modify fun st => { st.setHandle st.nextTimer { oneShot } with nextTimer := st.nextTimer + 1 }
  return st.nextTimer

/-- A handle that is closing is left alone. -/
def timerStart (timer : TimerId) (timeout repeat_ : Nat) (callback : Option (Registered Callback)) :
    TimerAction Callback PUnit := do
  raiseIf (callback.isNone) "bad argument #4 to 'start' (function expected, got nil)"
  modify fun st =>
    if (st.handle timer).isClosing then st
    else st.setHandle timer { st.handle timer with isActive := true, timeout, repeat_, callback }

def timerStop (timer : TimerId) : TimerAction Callback PUnit :=
  modify fun st => st.setHandle timer { st.handle timer with isActive := false }

def timerClose (timer : TimerId) : TimerAction Callback PUnit := do
  let st ← get
  modify fun st => st.setHandle timer { st.handle timer with
    isActive := false, isClosing := true, closeCalls := (st.handle timer).closeCalls + 1 }
  raiseIf (st.handle timer).isClosing s!"handle {timer} is already closing"

/-- A timer that is due is stopped, started again if it repeats, and its callback is called. -/
def timerFire (timer : TimerId) : TimerAction Callback PUnit :=
  modify fun st => { st.setHandle timer
      { st.handle timer with isActive := (st.handle timer).repeat_ ≠ 0 } with
    running := (st.handle timer).callback.map fun callback => (timer, callback) }

/-! ## `C_Timer` -/

def After (delayInMilliseconds : Nat) (callback : Callback) (hrtime : Nat) :
    TimerAction Callback TimerId := do
  let timer ← uvNewTimer true
  timerStart timer delayInMilliseconds 0 (some (.once callback))
  modify (·.setTables timer (some hrtime) (some (.bare callback)))
  return timer

def NewTicker (delayInMilliseconds : Nat) (callback : Callback) (hrtime : Nat) :
    TimerAction Callback TimerId := do
  let timer ← uvNewTimer false
  timerStart timer delayInMilliseconds delayInMilliseconds (some (.onTick callback))
  modify (·.setTables timer (some hrtime) (some (.onTick callback)))
  return timer

def Stop (tickerOrOneshotTimer : TimerId) : TimerAction Callback PUnit := do
  let st ← get
  if (st.handle tickerOrOneshotTimer).isClosing then pure ⟨⟩
  else do
    timerStop tickerOrOneshotTimer
    timerClose tickerOrOneshotTimer
    modify (·.setTables tickerOrOneshotTimer none none)

def Pause (tickerOrOneshotTimer : TimerId) : TimerAction Callback PUnit := do
  let st ← get
  if (st.handle tickerOrOneshotTimer).isClosing ∨ ¬(st.handle tickerOrOneshotTimer).isActive then
    pure ⟨⟩
  else timerStop tickerOrOneshotTimer

def Resume (tickerOrOneshotTimer : TimerId) : TimerAction Callback PUnit := do
  let st ← get
  if (st.handle tickerOrOneshotTimer).isClosing then pure ⟨⟩
  else
    let delayInMilliseconds := (st.handle tickerOrOneshotTimer).repeat_
    let completionCallback := st.timerCallbacks tickerOrOneshotTimer
    timerStart tickerOrOneshotTimer delayInMilliseconds delayInMilliseconds completionCallback

/-- What is left to do when the callback has returned. -/
def behindCallback (timer : TimerId) : Registered Callback → TimerAction Callback PUnit
  | .once _ => do
    timerStop timer
    timerClose timer
    modify (·.setTables timer none none)
  | .bare _ | .onTick _ => pure ⟨⟩

def callbackReturns : TimerAction Callback PUnit := do
  let st ← get
  match st.running with
  | none => pure ⟨⟩
  | some (timer, registered) =>
    modify fun st => { st.setHandle timer { st.handle timer with completed := true } with
      running := none }
    behindCallback timer registered

/-! ## Runs -/

/-- The operations are called by callbacks of timers while one is running, and by the rest
of the program otherwise. -/
inductive TimerEvent (Callback : Type)
  | after (delayInMilliseconds : Nat) (callback : Callback) (hrtime : Nat)
  | newTicker (delayInMilliseconds : Nat) (callback : Callback) (hrtime : Nat)
  | stop (timer : TimerId)
  | pause (timer : TimerId)
  | resume (timer : TimerId)
  | fire (timer : TimerId)
  | callbackReturns

/-- Timers are created before they are used, and one callback runs at a time. -/
def TimerEvent.Possible (st : Timers Callback) : TimerEvent Callback → Prop
  | .after .. | .newTicker .. | .callbackReturns => True
  | .stop timer | .pause timer | .resume timer => timer < st.nextTimer
  | .fire timer => timer < st.nextTimer ∧ (st.handle timer).isActive ∧ st.running.isNone

instance (st : Timers Callback) (event : TimerEvent Callback) : Decidable (event.Possible st) := by
  cases event <;> unfold TimerEvent.Possible <;> infer_instance

def TimerEvent.perform : TimerEvent Callback → TimerAction Callback PUnit
  | .after delay callback hrtime => do let _ ← After delay callback hrtime
  | .newTicker delay callback hrtime => do let _ ← NewTicker delay callback hrtime
  | .stop timer => Stop timer
  | .pause timer => Pause timer
  | .resume timer => Resume timer
  | .fire timer => timerFire timer
  | .callbackReturns => Timer.callbackReturns

def timerStep (st : Timers Callback) (event : TimerEvent Callback) : Timers Callback :=
  if event.Possible st then (event.perform.outcome st).2 else st

def runTimers (events : List (TimerEvent Callback)) : Timers Callback := events.foldl timerStep {}

theorem runTimers_concat (events : List (TimerEvent Callback)) (event : TimerEvent Callback) :
    runTimers (events ++ [event]) = timerStep (runTimers events) event := List.foldl_append

/-! ## Accounting -/

/-- Created by `After` or `NewTicker` and not yet closed. -/
def Timers.Open (st : Timers Callback) (timer : TimerId) : Prop :=
  timer < st.nextTimer ∧ (st.handle timer).isClosing = false

structure Accounted (st : Timers Callback) : Prop where
  closedOnce : ∀ timer, (st.handle timer).closeCalls ≤ 1
  startTimes : ∀ timer, (st.timerStartTimes timer).isSome ↔ st.Open timer
  callbacks : ∀ timer, (st.timerCallbacks timer).isSome ↔ st.Open timer
  completed : ∀ timer, (st.handle timer).oneShot → (st.handle timer).completed →
    (st.handle timer).isClosing ∧ st.timerStartTimes timer = none ∧ st.timerCallbacks timer = none

/-- The function that `After` starts its timer with finds the timer not yet closed, and a
callback that is called without it has closed its timer. -/
def Registered.InOrder (isClosing : Bool) : Registered Callback → Prop
  | .once _ => isClosing = false
  | .bare _ => isClosing = true
  | .onTick _ => True

/-- If a callback is running, it may return now. -/
def ReturnsInOrder (st : Timers Callback) : Prop :=
  ∀ timer registered, st.running = some (timer, registered) →
    registered.InOrder (st.handle timer).isClosing

/-! ## What the operations keep -/

/-- The part of the invariant that is about one timer. -/
structure KeptAt (st : Timers Callback) (timer : TimerId) : Prop where
  closeCalls : (st.handle timer).closeCalls = if (st.handle timer).isClosing then 1 else 0
  startTimes : (st.timerStartTimes timer).isSome ↔ st.Open timer
  callbacks : (st.timerCallbacks timer).isSome ↔ st.Open timer
  completed : (st.handle timer).oneShot → (st.handle timer).completed → (st.handle timer).isClosing
  registered : ∀ registered, (st.handle timer).callback = some registered ∨
    st.timerCallbacks timer = some registered ∨ st.running = some (timer, registered) →
      registered.oneShot = (st.handle timer).oneShot

structure Kept (st : Timers Callback) : Prop where
  at_ : ∀ timer, KeptAt st timer
  running : ∀ timer registered, st.running = some (timer, registered) → timer < st.nextTimer

variable {st st' : Timers Callback} {timer : TimerId}

/-- Nothing is registered for a timer that is not open. -/
theorem KeptAt.untracked (kept : KeptAt st timer) (closing : (st.handle timer).isClosing = true) :
    st.timerStartTimes timer = none ∧ st.timerCallbacks timer = none := by
  have closed : ¬st.Open timer := fun isOpen => Bool.noConfusion (closing.symm.trans isOpen.2)
  exact ⟨by simpa using mt kept.startTimes.mp closed, by simpa using mt kept.callbacks.mp closed⟩

theorem Kept.accounted (kept : Kept st) : Accounted st where
  closedOnce timer := by
    rw [(kept.at_ timer).closeCalls]
    split <;> decide
  startTimes timer := (kept.at_ timer).startTimes
  callbacks timer := (kept.at_ timer).callbacks
  completed timer oneShot completed := by
    have closing := (kept.at_ timer).completed oneShot completed
    exact ⟨closing, (kept.at_ timer).untracked closing⟩

/-- The frame rule: an operation on one timer leaves the others alone. -/
theorem Kept.change (kept : Kept st) (timer : TimerId) (changed : KeptAt st' timer)
    (handles : ∀ other ≠ timer, st'.handle other = st.handle other)
    (startTimes : ∀ other ≠ timer, st'.timerStartTimes other = st.timerStartTimes other)
    (callbacks : ∀ other ≠ timer, st'.timerCallbacks other = st.timerCallbacks other)
    (created : ∀ other ≠ timer, other < st'.nextTimer ↔ other < st.nextTimer)
    (known : timer < st'.nextTimer)
    (running : ∀ other ≠ timer, ∀ registered, st'.running = some (other, registered) →
      st.running = some (other, registered)) : Kept st' where
  at_ other := by
    by_cases same : other = timer
    · exact same ▸ changed
    · have old := kept.at_ other
      constructor
      · rw [handles other same]
        exact old.closeCalls
      · rw [startTimes other same, Timers.Open, handles other same, created other same]
        exact old.startTimes
      · rw [callbacks other same, Timers.Open, handles other same, created other same]
        exact old.callbacks
      · rw [handles other same]
        exact old.completed
      · rw [handles other same, callbacks other same]
        intro registered source
        exact old.registered registered (source.imp_right (Or.imp_right (running other same _)))
  running other registered runs := by
    by_cases same : other = timer
    · exact same ▸ known
    · exact (created other same).mpr (kept.running other registered (running other same _ runs))

/-- A new timer, with its entries in the tables. -/
def Timers.create (handle : TimerHandle Callback) (startTime : Nat) (callback : Registered Callback)
    (st : Timers Callback) : Timers Callback :=
  { st.setHandle st.nextTimer handle with nextTimer := st.nextTimer + 1 }.setTables st.nextTimer
    (some startTime) (some callback)

theorem Kept.create (kept : Kept st) (handle : TimerHandle Callback) (startTime : Nat)
    (callback : Registered Callback) (isOpen : handle.isClosing = false)
    (unclosed : handle.closeCalls = 0) (incomplete : handle.completed = false)
    (started : ∀ registered, handle.callback = some registered → registered.oneShot = handle.oneShot)
    (stored : callback.oneShot = handle.oneShot) :
    Kept (st.create handle startTime callback) := by
  refine kept.change st.nextTimer ?_ (fun _ differs => Function.update_of_ne differs ..)
    (fun _ differs => Function.update_of_ne differs ..)
    (fun _ differs => Function.update_of_ne differs ..) ?_ (Nat.lt_succ_self _) fun _ _ _ => id
  · constructor
    · simp [Timers.create, Timers.setTables, Timers.setHandle, isOpen, unclosed]
    · simp [Timers.create, Timers.setTables, Timers.setHandle, Timers.Open, isOpen]
    · simp [Timers.create, Timers.setTables, Timers.setHandle, Timers.Open, isOpen]
    · simp [Timers.create, Timers.setTables, Timers.setHandle, incomplete]
    · intro registered source
      simp only [Timers.create, Timers.setTables, Timers.setHandle, Function.update_self] at source ⊢
      rcases source with registers | stores | runs
      · exact started registered registers
      · rw [← Option.some.inj stores, stored]
      -- The timer that is running has been created before.
      · exact absurd (kept.running _ _ runs) (Nat.lt_irrefl _)
  · exact fun other differs => ⟨fun below => Nat.lt_of_le_of_ne (Nat.le_of_lt_succ below) differs,
      Nat.lt_succ_of_lt⟩

/-- A timer that is neither opened nor closed. -/
theorem Kept.update (kept : Kept st) (created : timer < st.nextTimer)
    (handle : TimerHandle Callback) (running : Option (TimerId × Registered Callback))
    (closing : handle.isClosing = (st.handle timer).isClosing)
    (calls : handle.closeCalls = (st.handle timer).closeCalls)
    (oneShot : handle.oneShot = (st.handle timer).oneShot)
    (completed : handle.oneShot → handle.completed → handle.isClosing)
    (started : ∀ registered, handle.callback = some registered → registered.oneShot = handle.oneShot)
    (runs : ∀ other registered, running = some (other, registered) →
      st.running = some (other, registered) ∨ other = timer ∧ handle.callback = some registered) :
    Kept { st.setHandle timer handle with running := running } := by
  have old := kept.at_ timer
  refine kept.change timer ?_ (fun _ differs => Function.update_of_ne differs ..)
    (fun _ _ => rfl) (fun _ _ => rfl) (fun _ _ => Iff.rfl) created ?_
  · constructor
    · simpa [Timers.setHandle, closing, calls] using old.closeCalls
    · simpa [Timers.setHandle, Timers.Open, closing] using old.startTimes
    · simpa [Timers.setHandle, Timers.Open, closing] using old.callbacks
    · simpa [Timers.setHandle] using completed
    · intro registered source
      simp only [Timers.setHandle, Function.update_self] at source ⊢
      rcases source with registers | stores | runs'
      · exact started registered registers
      · rw [oneShot, old.registered registered (.inr (.inl stores))]
      · rcases runs timer registered runs' with before | ⟨-, registers⟩
        · rw [oneShot, old.registered registered (.inr (.inr before))]
        · exact started registered registers
  · intro other differs registered runs'
    exact (runs other registered runs').resolve_right fun same => differs same.1

/-- A timer that is closed, with its entries in the tables. -/
theorem Kept.close (kept : Kept st) (created : timer < st.nextTimer)
    (handle : TimerHandle Callback) (running : Option (TimerId × Registered Callback))
    (closing : handle.isClosing = true) (calls : handle.closeCalls = 1)
    (oneShot : handle.oneShot = (st.handle timer).oneShot)
    (callback : handle.callback = (st.handle timer).callback)
    (runs : running = st.running ∨ running = none) :
    Kept ({ st.setHandle timer handle with running := running }.setTables timer none none) := by
  have old := kept.at_ timer
  have before (other : TimerId) (registered : Registered Callback)
      (runs' : running = some (other, registered)) : st.running = some (other, registered) := by
    rcases runs with same | stopped
    · rw [← same, runs']
    · rw [stopped] at runs'
      cases runs'
  refine kept.change timer ?_ (fun _ differs => Function.update_of_ne differs ..)
    (fun _ differs => Function.update_of_ne differs ..)
    (fun _ differs => Function.update_of_ne differs ..) (fun _ _ => Iff.rfl) created
    (fun other _ => before other)
  constructor
  · simp [Timers.setTables, Timers.setHandle, closing, calls]
  · simp [Timers.setTables, Timers.setHandle, Timers.Open, closing]
  · simp [Timers.setTables, Timers.setHandle, Timers.Open, closing]
  · simp [Timers.setTables, Timers.setHandle, closing]
  · intro registered source
    simp only [Timers.setTables, Timers.setHandle, Function.update_self] at source ⊢
    rcases source with registers | stores | runs'
    · rw [oneShot, old.registered registered (.inl (callback ▸ registers))]
    · cases stores
    · rw [oneShot, old.registered registered (.inr (.inr (before timer registered runs')))]

/-! ## Steps -/

/-- `Stop` and the function around the callback of `After` close a timer in the same way. -/
def closeTimer (timer : TimerId) : TimerAction Callback PUnit := do
  timerStop timer
  timerClose timer
  modify (·.setTables timer none none)

theorem closeTimer_open (isOpen : (st.handle timer).isClosing = false) :
    ((closeTimer timer).outcome st).2 = (st.setHandle timer { st.handle timer with
      isActive := false, isClosing := true, closeCalls := (st.handle timer).closeCalls + 1 }).setTables
        timer none none := by
  simp [closeTimer, timerStop, timerClose, outcome_bind, Timers.setHandle, isOpen]

/-- Closing a timer once more raises, and is a call of `close` nevertheless. -/
theorem closeTimer_closing (closing : (st.handle timer).isClosing = true) :
    (((closeTimer timer).outcome st).2.handle timer).closeCalls =
      (st.handle timer).closeCalls + 1 := by
  simp [closeTimer, timerStop, timerClose, outcome_bind, Timers.setHandle, closing]

theorem Kept.stop (kept : Kept st) (created : timer < st.nextTimer) :
    Kept ((Stop timer).outcome st).2 := by
  by_cases closing : (st.handle timer).isClosing = true
  · simpa [Stop, outcome_bind, closing] using kept
  · have isOpen := eq_false_of_ne_true closing
    have stopped : ((Stop timer).outcome st).2 = ((closeTimer timer).outcome st).2 := by
      simp [Stop, closeTimer, outcome_bind, isOpen]
    rw [stopped, closeTimer_open isOpen]
    refine kept.close created _ st.running rfl ?_ rfl rfl (.inl rfl)
    simp [(kept.at_ timer).closeCalls, isOpen]

theorem Kept.pause (kept : Kept st) (created : timer < st.nextTimer) :
    Kept ((Pause timer).outcome st).2 := by
  rw [Pause, outcome_bind]
  simp only [outcome_get]
  split
  · exact kept
  · exact kept.update created { st.handle timer with isActive := false } st.running rfl rfl rfl
      (kept.at_ timer).completed (fun r registers => (kept.at_ timer).registered r (.inl registers))
      fun _ _ => .inl

theorem Kept.resume (kept : Kept st) (created : timer < st.nextTimer) :
    Kept ((Resume timer).outcome st).2 := by
  by_cases closing : (st.handle timer).isClosing = true
  · simpa [Resume, outcome_bind, closing] using kept
  · have isOpen := eq_false_of_ne_true closing
    -- An open timer has a callback in the table.
    obtain ⟨callback, stored⟩ := Option.isSome_iff_exists.mp
      ((kept.at_ timer).callbacks.mpr ⟨created, isOpen⟩)
    have resumed : ((Resume timer).outcome st).2 = st.setHandle timer { st.handle timer with
        isActive := true, timeout := (st.handle timer).repeat_, callback := some callback } := by
      simp [Resume, timerStart, outcome_bind, isOpen, stored]
    rw [resumed]
    refine kept.update created _ st.running rfl rfl rfl (kept.at_ timer).completed ?_ fun _ _ => .inl
    intro registered registers
    obtain rfl := Option.some.inj registers
    exact (kept.at_ timer).registered callback (.inr (.inl stored))

theorem Kept.fire (kept : Kept st) (created : timer < st.nextTimer) :
    Kept ((timerFire timer).outcome st).2 := by
  refine kept.update created { st.handle timer with isActive := (st.handle timer).repeat_ ≠ 0 } _ rfl
    rfl rfl (kept.at_ timer).completed
    (fun r registers => (kept.at_ timer).registered r (.inl registers)) ?_
  intro other registered runs
  obtain ⟨callback, registers, same⟩ := Option.map_eq_some_iff.mp runs
  obtain ⟨rfl, rfl⟩ := Prod.mk.inj same
  exact .inr ⟨rfl, registers⟩

theorem Kept.after (kept : Kept st) (delay : Nat) (callback : Callback) (hrtime : Nat) :
    Kept ((TimerEvent.after delay callback hrtime).perform.outcome st).2 := by
  have created : ((TimerEvent.after delay callback hrtime).perform.outcome st).2 = st.create
      { isActive := true, timeout := delay, callback := some (.once callback), oneShot := true }
      hrtime (.bare callback) := by
    simp [TimerEvent.perform, After, uvNewTimer, timerStart, outcome_bind, Timers.create,
      Timers.setHandle]
  rw [created]
  refine kept.create _ hrtime _ rfl rfl rfl ?_ rfl
  rintro registered ⟨⟩
  rfl

theorem Kept.newTicker (kept : Kept st) (delay : Nat) (callback : Callback) (hrtime : Nat) :
    Kept ((TimerEvent.newTicker delay callback hrtime).perform.outcome st).2 := by
  have created : ((TimerEvent.newTicker delay callback hrtime).perform.outcome st).2 = st.create
      { isActive := true, timeout := delay, repeat_ := delay, callback := some (.onTick callback) }
      hrtime (.onTick callback) := by
    simp [TimerEvent.perform, NewTicker, uvNewTimer, timerStart, outcome_bind, Timers.create,
      Timers.setHandle]
  rw [created]
  refine kept.create _ hrtime _ rfl rfl rfl ?_ rfl
  rintro registered ⟨⟩
  rfl

/-- The step on which accounting depends. -/
theorem callbackReturns_accounted_iff (kept : Kept st) :
    (ReturnsInOrder st → Kept (callbackReturns.outcome st).2) ∧
      (Accounted (callbackReturns.outcome st).2 → ReturnsInOrder st) := by
  cases running : st.running with
  | none =>
    have same : (callbackReturns.outcome st).2 = st := by
      simp [callbackReturns, outcome_bind, running]
    rw [same]
    refine ⟨fun _ => kept, fun _ timer registered runs => ?_⟩
    rw [running] at runs
    cases runs
  | some current =>
    obtain ⟨timer, registered⟩ := current
    have created := kept.running timer registered running
    have kind := (kept.at_ timer).registered registered (.inr (.inr running))
    have inOrder_iff : ReturnsInOrder st ↔ registered.InOrder (st.handle timer).isClosing := by
      constructor
      · exact fun inOrder => inOrder timer registered running
      · intro held other registered' runs
        rw [running] at runs
        cases runs
        exact held
    rw [inOrder_iff]
    have returned : (callbackReturns.outcome st).2 = ((behindCallback timer registered).outcome
        { st.setHandle timer { st.handle timer with completed := true } with running := none }).2 := by
      simp [callbackReturns, outcome_bind, running]
    rw [returned]
    cases registered with
    | once callback =>
      rw [show behindCallback timer (.once callback) = closeTimer timer from rfl]
      constructor
      · intro isOpen
        have isOpen : (st.handle timer).isClosing = false := isOpen
        rw [closeTimer_open (by simpa [Timers.setHandle] using isOpen)]
        simp only [Timers.setHandle, Function.update_self, Function.update_idem]
        refine kept.close created { st.handle timer with
          isActive := false, isClosing := true, completed := true,
          closeCalls := (st.handle timer).closeCalls + 1 } none rfl ?_ rfl rfl (.inr rfl)
        simp [(kept.at_ timer).closeCalls, isOpen]
      · intro accounted
        refine eq_false_of_ne_true fun closing => ?_
        have once := accounted.closedOnce timer
        rw [closeTimer_closing (by simpa [Timers.setHandle] using closing)] at once
        simp [Timers.setHandle, (kept.at_ timer).closeCalls, closing] at once
    | bare callback =>
      constructor
      · intro closing
        exact kept.update created { st.handle timer with completed := true } none rfl rfl rfl
          (fun _ _ => closing) (fun r registers => (kept.at_ timer).registered r (.inl registers)) nofun
      · intro accounted
        have oneShot : (st.handle timer).oneShot = true := kind.symm
        have closed := (accounted.completed timer
          (by simpa [behindCallback, Timers.setHandle] using oneShot)
          (by simp [behindCallback, Timers.setHandle])).1
        simpa [Registered.InOrder, behindCallback, Timers.setHandle] using closed
    | onTick callback =>
      have ticker : (st.handle timer).oneShot = false := kind.symm
      refine ⟨fun _ => ?_, fun _ => trivial⟩
      exact kept.update created { st.handle timer with completed := true } none rfl rfl rfl
        (fun oneShot => Bool.noConfusion (ticker.symm.trans oneShot))
        (fun r registers => (kept.at_ timer).registered r (.inl registers)) nofun

/-- The condition on a step, which is one on returning callbacks only. -/
def TimerEvent.InOrder (st : Timers Callback) : TimerEvent Callback → Prop
  | .callbackReturns => ReturnsInOrder st
  | _ => True

theorem Kept.step (kept : Kept st) (event : TimerEvent Callback) (inOrder : event.InOrder st) :
    Kept (timerStep st event) := by
  rw [timerStep]
  split
  case isFalse => exact kept
  case isTrue possible =>
    cases event with
    | after delay callback hrtime => exact kept.after delay callback hrtime
    | newTicker delay callback hrtime => exact kept.newTicker delay callback hrtime
    | stop timer => exact kept.stop possible
    | pause timer => exact kept.pause possible
    | resume timer => exact kept.resume possible
    | fire timer => exact kept.fire possible.1
    | callbackReturns => exact (callbackReturns_accounted_iff kept).1 inOrder

theorem inOrder_of_accounted (kept : Kept st) (event : TimerEvent Callback)
    (accounted : Accounted (timerStep st event)) : event.InOrder st := by
  cases event with
  | callbackReturns => exact (callbackReturns_accounted_iff kept).2 accounted
  | _ => exact trivial

/-! ## Runs -/

/-- As long as all callbacks return in order. -/
theorem kept_runTimers (events : List (TimerEvent Callback))
    (inOrder : ∀ before event, before ++ [event] <+: events → event.InOrder (runTimers before)) :
    Kept (runTimers events) := by
  induction events using List.reverseRecOn with
  | nil =>
    refine ⟨fun timer => ⟨rfl, ?_, ?_, nofun, nofun⟩, nofun⟩
    · simp [runTimers, Timers.Open]
    · simp [runTimers, Timers.Open]
  | append_singleton events event ih =>
    rw [runTimers_concat]
    refine (ih fun before event within => ?_).step event (inOrder events event List.prefix_rfl)
    exact inOrder before event (within.trans (List.prefix_append _ _))

/-- All handles are accounted for throughout a run exactly if every callback of the run
returns in order. -/
theorem accounted_iff (events : List (TimerEvent Callback)) :
    (∀ before, before <+: events → Accounted (runTimers before)) ↔
      ∀ before, before ++ [.callbackReturns] <+: events → ReturnsInOrder (runTimers before) := by
  constructor
  · intro accounted
    have inOrder (before : List (TimerEvent Callback)) (within : before <+: events) :
        Kept (runTimers before) := by
      induction before using List.reverseRecOn with
      | nil => exact kept_runTimers [] fun _ _ within => absurd within (by simp)
      | append_singleton before event ih =>
        have kept := ih ((List.prefix_append _ _).trans within)
        have next := accounted _ within
        rw [runTimers_concat] at next ⊢
        exact kept.step event (inOrder_of_accounted kept event next)
    intro before within
    have next := accounted _ within
    rw [runTimers_concat] at next
    exact inOrder_of_accounted (inOrder before ((List.prefix_append _ _).trans within))
      .callbackReturns next
  · intro inOrder before within
    refine (kept_runTimers before fun before' event within' => ?_).accounted
    cases event with
    | callbackReturns => exact inOrder before' (within'.trans within)
    | _ => exact trivial

/-- A one-shot timer that its callback stops. -/
def stopsItself : List (TimerEvent Unit) := [.after 100 () 0, .fire 0, .stop 0, .callbackReturns]

/-- A one-shot timer that is paused and resumed. -/
def pausedAndResumed : List (TimerEvent Unit) :=
  [.after 100 () 0, .pause 0, .resume 0, .fire 0, .callbackReturns]

/-- The first is closed twice, the second stays open behind its callback. -/
theorem oneShot_unaccounted :
    ¬Accounted (runTimers stopsItself) ∧ ¬Accounted (runTimers pausedAndResumed) := by
  constructor
  · intro accounted
    exact absurd (accounted.closedOnce 0) (by decide)
  · intro accounted
    exact absurd (accounted.completed 0 (by decide) (by decide)).1 (by decide)

end EvoRuntime.Timer
