import Mathlib.Data.List.Basic
import Mathlib.Data.List.Induction
import Mathlib.Tactic.Common

/-!
# Deferred callbacks

`C_Timer.Defer` queues callbacks for the next check phase of the event loop. A check
handle calls `onCheck` in every check phase while it is active.

`deferral_spec`: whatever the callbacks defer in turn, each callback runs once, in the
order of the calls of `Defer` and in the check phase after its own, and the handle is
active exactly while callbacks are waiting.

## Proof strategy

`Tracks` accounts for every call of `Defer`: its callback has run, or is still to be
called by the handler that is running, or waits in the queue. Each step moves one
callback from one part to the next.
-/
namespace EvoRuntime.Timer

variable {Callback σ : Type}

/-- What the module and libuv know about deferred callbacks, and the rest of the state. -/
structure Deferrals (Callback σ : Type) where
  deferredCallbacks : List Callback
  /-- Whether `deferredCallbackChecker` is active. -/
  checkerActive : Bool
  rest : σ

/-- `C_Timer.Defer(callback)`. -/
def Defer (callback : Callback) (st : Deferrals Callback σ) : Deferrals Callback σ :=
  let hasProcessedDeferredCallbacks := st.deferredCallbacks.length = 0
  { st with
    -- Starting an active handle has no effect.
    checkerActive := if hasProcessedDeferredCallbacks then true else st.checkerActive
    deferredCallbacks := st.deferredCallbacks ++ [callback] }

def onCheck (call : Callback → Deferrals Callback σ → Deferrals Callback σ)
    (st : Deferrals Callback σ) : Deferrals Callback σ :=
  let processedCallbacks := st.deferredCallbacks
  let st := processedCallbacks.foldl (fun st callback => call callback st)
    { st with deferredCallbacks := [] }
  let hasProcessedDeferredCallbacks := st.deferredCallbacks.length = 0
  if hasProcessedDeferredCallbacks then { st with checkerActive := false } else st

/-- A check phase of the event loop. -/
def checkPhase (call : Callback → Deferrals Callback σ → Deferrals Callback σ)
    (st : Deferrals Callback σ) : Deferrals Callback σ :=
  if st.checkerActive then onCheck call st else st

/-! ## Runs of the event loop -/

/-- A callback and the number of check phases begun so far. -/
structure Stamped (Callback : Type) where
  callback : Callback
  phase : Nat
  deriving DecidableEq

/-- One phase later. -/
def Stamped.next (stamped : Stamped Callback) : Stamped Callback :=
  ⟨stamped.callback, stamped.phase + 1⟩

/-- The calls of `Defer` and the callbacks that have run. -/
structure History (Callback : Type) where
  phase : Nat := 0
  deferred : List (Stamped Callback) := []
  ran : List (Stamped Callback) := []

abbrev LoopState (Callback : Type) := Deferrals Callback (History Callback)

def deferCall (st : LoopState Callback) (callback : Callback) : LoopState Callback :=
  Defer callback
    { st with rest := { st.rest with deferred := st.rest.deferred ++ [⟨callback, st.rest.phase⟩] } }

/-- A callback that defers the `n`-th list of callbacks when it is the `n`-th one to run. -/
def runCallback (defers : Nat → List Callback) (callback : Callback) (st : LoopState Callback) :
    LoopState Callback :=
  (defers st.rest.ran.length).foldl deferCall
    { st with rest := { st.rest with ran := st.rest.ran ++ [⟨callback, st.rest.phase⟩] } }

inductive LoopEvent (Callback : Type)
  | defer (callback : Callback)
  | check

def loopStep (defers : Nat → List Callback) (st : LoopState Callback) :
    LoopEvent Callback → LoopState Callback
  | .defer callback => deferCall st callback
  | .check => checkPhase (runCallback defers)
      { st with rest := { st.rest with phase := st.rest.phase + 1 } }

def runLoop (defers : Nat → List Callback) (events : List (LoopEvent Callback)) :
    LoopState Callback :=
  events.foldl (loopStep defers) ⟨[], false, {}⟩

/-! ## Accounting -/

/-- Every call of `Defer` is accounted for, while the handler still has to call the
callbacks in `remaining`. -/
structure Tracks (remaining : List Callback) (st : LoopState Callback) : Prop where
  accounts : st.rest.ran ++ remaining.map (⟨·, st.rest.phase⟩) ++
    st.deferredCallbacks.map (⟨·, st.rest.phase + 1⟩) = st.rest.deferred.map Stamped.next
  past : ∀ run ∈ st.rest.ran, run.phase ≤ st.rest.phase
  woken : st.deferredCallbacks ≠ [] → st.checkerActive = true

variable {remaining : List Callback} {st : LoopState Callback}

theorem Tracks.deferCall (tracks : Tracks remaining st) (callback : Callback) :
    Tracks remaining (deferCall st callback) where
  accounts := by
    have accounts := tracks.accounts
    simp only [Timer.deferCall, Defer, List.map_append, ← accounts, List.append_assoc]
    rfl
  past := tracks.past
  woken _ := by
    simp only [Timer.deferCall, Defer]
    split
    · rfl
    case isFalse nonempty => exact tracks.woken fun empty => nonempty (by rw [empty]; rfl)

theorem Tracks.deferCalls (tracks : Tracks remaining st) (callbacks : List Callback) :
    Tracks remaining (callbacks.foldl Timer.deferCall st) := by
  induction callbacks generalizing st with
  | nil => exact tracks
  | cons callback rest ih => exact ih (tracks.deferCall callback)

theorem deferCalls_phase (callbacks : List Callback) (st : LoopState Callback) :
    (callbacks.foldl deferCall st).rest.phase = st.rest.phase ∧
      (callbacks.foldl deferCall st).rest.ran = st.rest.ran := by
  induction callbacks generalizing st with
  | nil => exact ⟨rfl, rfl⟩
  | cons callback rest ih => exact ih (deferCall st callback)

/-! ## The handler -/

variable (defers : Nat → List Callback)

theorem Tracks.runCallback {callback : Callback} (tracks : Tracks (callback :: remaining) st) :
    Tracks remaining (runCallback defers callback st) := by
  refine Tracks.deferCalls ?_ (defers st.rest.ran.length)
  constructor
  case accounts =>
    have accounts := tracks.accounts
    rw [List.map_cons, List.append_cons] at accounts
    exact accounts
  case past =>
    exact List.forall_mem_append.mpr
      ⟨tracks.past, List.forall_mem_singleton.mpr (Nat.le_refl _)⟩
  case woken => exact tracks.woken

theorem Tracks.runCallbacks (tracks : Tracks remaining st) :
    Tracks [] (remaining.foldl (fun st callback => Timer.runCallback defers callback st) st) := by
  induction remaining generalizing st with
  | nil => exact tracks
  | cons callback rest ih => exact ih (tracks.runCallback defers)

/-- The handler runs the callbacks that it has taken from the queue, all in one phase. -/
theorem runCallbacks_ran (callbacks : List Callback) (st : LoopState Callback) :
    (callbacks.foldl (fun st callback => runCallback defers callback st) st).rest.ran =
      st.rest.ran ++ callbacks.map (⟨·, st.rest.phase⟩) := by
  induction callbacks generalizing st with
  | nil => simp
  | cons callback rest ih =>
    obtain ⟨phase, ran⟩ := deferCalls_phase (defers st.rest.ran.length)
      { st with rest := { st.rest with ran := st.rest.ran ++ [⟨callback, st.rest.phase⟩] } }
    rw [List.foldl_cons, ih, runCallback, phase, ran]
    simp

/-- What holds between the handlers. -/
structure Settled (st : LoopState Callback) : Prop where
  tracks : Tracks [] st
  idle : st.checkerActive = true → st.deferredCallbacks ≠ []

theorem Settled.defer (settled : Settled st) (callback : Callback) :
    Settled (deferCall st callback) where
  tracks := settled.tracks.deferCall callback
  idle _ := by simp [deferCall, Defer]

/-- The queue is taken over at the beginning of a check phase. -/
theorem Settled.takeOver (settled : Settled st) :
    Tracks st.deferredCallbacks
      { st with deferredCallbacks := [], rest := { st.rest with phase := st.rest.phase + 1 } } where
  accounts := by simpa using settled.tracks.accounts
  past run member := Nat.le_succ_of_le (settled.tracks.past run member)
  woken nonempty := absurd rfl nonempty

theorem Settled.check (settled : Settled st) :
    Settled (loopStep defers st .check) ∧
      (loopStep defers st .check).rest.ran = st.rest.deferred.map Stamped.next := by
  have accounts : st.rest.ran ++ st.deferredCallbacks.map (⟨·, st.rest.phase + 1⟩) =
      st.rest.deferred.map Stamped.next := by
    simpa using settled.tracks.accounts
  have tracks := settled.takeOver
  cases active : st.checkerActive with
  | false =>
    have step : loopStep defers st .check =
        { st with rest := { st.rest with phase := st.rest.phase + 1 } } := by
      rw [loopStep, checkPhase]
      exact if_neg (by simp [active])
    -- Nothing is waiting, and the handler is not called.
    have empty : st.deferredCallbacks = [] :=
      Classical.byContradiction fun nonempty =>
        Bool.noConfusion (active.symm.trans (settled.tracks.woken nonempty))
    rw [empty] at tracks accounts
    rw [step]
    refine ⟨⟨⟨?_, tracks.past, settled.tracks.woken⟩, settled.idle⟩, ?_⟩
    · simpa [empty] using tracks.accounts
    · simpa using accounts
  | true =>
    have step : loopStep defers st .check = onCheck (Timer.runCallback defers)
        { st with rest := { st.rest with phase := st.rest.phase + 1 } } := by
      rw [loopStep, checkPhase]
      exact if_pos active
    have tracks := tracks.runCallbacks defers
    have ran := runCallbacks_ran defers st.deferredCallbacks
      { st with deferredCallbacks := [], rest := { st.rest with phase := st.rest.phase + 1 } }
    rw [accounts] at ran
    rw [step, onCheck]
    simp only
    split
    case isTrue done =>
      have empty := List.length_eq_zero_iff.mp done
      exact ⟨⟨⟨tracks.accounts, tracks.past, fun nonempty => absurd empty nonempty⟩,
        fun on => Bool.noConfusion on⟩, ran⟩
    case isFalse waiting =>
      exact ⟨⟨tracks, fun _ empty => waiting (by rw [empty]; rfl)⟩, ran⟩

theorem settled_runLoop (events : List (LoopEvent Callback)) : Settled (runLoop defers events) := by
  induction events using List.reverseRecOn with
  | nil =>
    exact ⟨⟨rfl, fun run member => absurd member List.not_mem_nil, fun nonempty => absurd rfl nonempty⟩,
      fun on => Bool.noConfusion on⟩
  | append_singleton events event ih =>
    rw [runLoop, List.foldl_append]
    cases event with
    | defer callback => exact Settled.defer ih callback
    | check => exact (Settled.check defers ih).1

/-- In every run: each call of `Defer` is answered by one run of its callback, in the order
of the calls and in the next check phase; and the handle is active while some are left. -/
theorem deferral_spec (defers : Nat → List Callback) (events : List (LoopEvent Callback)) :
    let st := runLoop defers events
    st.rest.ran ++ st.deferredCallbacks.map (⟨·, st.rest.phase + 1⟩) =
        st.rest.deferred.map Stamped.next ∧
      (∀ run ∈ st.rest.ran, run.phase ≤ st.rest.phase) ∧
      (runLoop defers (events ++ [.check])).rest.ran = st.rest.deferred.map Stamped.next ∧
      (st.checkerActive = true ↔ st.deferredCallbacks ≠ []) := by
  have settled := settled_runLoop defers events
  refine ⟨by simpa using settled.tracks.accounts, settled.tracks.past, ?_,
    settled.idle, settled.tracks.woken⟩
  rw [runLoop, List.foldl_append]
  exact (settled.check defers).2

/-- A callback that defers another one, which then waits for the second check phase. -/
example : (runLoop (fun n => if n = 0 then ["b"] else []) [.defer "a", .check, .check]).rest.ran =
    [⟨"a", 1⟩, ⟨"b", 2⟩] := by decide

end EvoRuntime.Timer
