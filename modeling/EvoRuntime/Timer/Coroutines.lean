import EvoRuntime.Timer.Deferral
import EvoRuntime.Timer.Handles
import Mathlib.Logic.Function.Basic

/-!
# Suspending coroutines

`C_Timer.Defer()` without a callback queues a resumption of the running coroutine and
returns. It does not yield, so the coroutine goes on at once, and the resumption finds it
at some later suspension. `suspension_iff` says which coroutines suspend as they should:
those that do not call `Defer()`.

## Proof strategy

The invariant `Tidy` is about one coroutine among arbitrary others: nothing in the queue
resumes it, and only the timer of its own suspension does. For a coroutine that calls
`Defer()` a run is constructed that reaches the first such call.
-/
namespace EvoRuntime.Timer

abbrev Thread := Nat

/-- What separates the steps of a coroutine. -/
inductive Suspension
  | defer
  | resumeAfter (delayInMilliseconds : Nat)
  deriving DecidableEq

/-- Who calls `coroutine.resume`. -/
inductive Cause
  | started
  | timer (timer : TimerId)
  | deferred
  deriving DecidableEq

inductive Status
  | created
  /-- In `ResumeAfter`, in front of a step. -/
  | suspended (next : Nat) (timer : TimerId)
  | dead
  deriving DecidableEq

/-- What happens to a coroutine. -/
inductive Occurrence
  /-- It begins its `n`-th step. -/
  | step (thread : Thread) (n phase : Nat)
  /-- It calls `Defer()` behind its `n`-th step. -/
  | deferred (thread : Thread) (n phase : Nat)
  /-- It is resumed from the `ResumeAfter` that started a timer. -/
  | resumed (thread : Thread) (timer : TimerId) (cause : Cause)
  deriving DecidableEq

structure Threads where
  status : Thread → Status := fun _ => .created
  /-- The active timers of `ResumeAfter`, with the coroutine that each will resume. -/
  timers : List (TimerId × Thread) := []
  nextTimer : TimerId := 0
  phase : Nat := 0
  log : List Occurrence := []
  /-- Errors raised in callbacks of timers. -/
  errors : List String := []

/-- A queued callback resumes a coroutine. -/
abbrev Scheduler := Deferrals Thread Threads

def Scheduler.observe (st : Scheduler) (occurrence : Occurrence) : Scheduler :=
  { st with rest := { st.rest with log := st.rest.log ++ [occurrence] } }

def Scheduler.setStatus (st : Scheduler) (thread : Thread) (status : Status) : Scheduler :=
  { st with rest := { st.rest with status := Function.update st.rest.status thread status } }

/-- `C_Timer.Defer()`. -/
def DeferThread (thread : Thread) (n : Nat) (st : Scheduler) : Scheduler :=
  Defer thread (st.observe (.deferred thread n st.rest.phase))

/-- `C_Timer.ResumeAfter(delayInMilliseconds)`, up to `coroutine.yield`. -/
def ResumeAfter (thread : Thread) (n : Nat) (st : Scheduler) : Scheduler :=
  let timer := st.rest.nextTimer
  let st : Scheduler := { st with
    rest := { st.rest with timers := st.rest.timers ++ [(timer, thread)], nextTimer := timer + 1 } }
  st.setStatus thread (.suspended (n + 1) timer)

/-- A coroutine runs from its `n`-th step on, until it is suspended or ends. -/
def runFrom (thread : Thread) : List Suspension → Nat → Scheduler → Scheduler
  | [], n, st => (st.observe (.step thread n st.rest.phase)).setStatus thread .dead
  | .defer :: rest, n, st =>
    runFrom thread rest (n + 1) (DeferThread thread n (st.observe (.step thread n st.rest.phase)))
  | .resumeAfter _ :: _, n, st => ResumeAfter thread n (st.observe (.step thread n st.rest.phase))

variable (bodies : Thread → List Suspension)

/-- `coroutine.resume(thread)`; a dead coroutine cannot be resumed. -/
def coroutineResume (cause : Cause) (thread : Thread) (st : Scheduler) : Scheduler :=
  match st.rest.status thread with
  | .created => runFrom thread (bodies thread) 0 st
  | .suspended next timer =>
    runFrom thread ((bodies thread).drop next) next (st.observe (.resumed thread timer cause))
  | .dead => st

/-- The callback of the timer of a `ResumeAfter`, which is stopped and closed first. -/
def onResumeTimer (timer : TimerId) (thread : Thread) (st : Scheduler) : Scheduler :=
  let st : Scheduler := { st with
    rest := { st.rest with timers := st.rest.timers.filter fun active => active.1 ≠ timer } }
  if st.rest.status thread = .dead then
    { st with rest := { st.rest with
      errors := st.rest.errors ++ ["Error resuming coroutine: cannot resume dead coroutine"] } }
  else coroutineResume bodies (.timer timer) thread st

inductive SchedulerEvent
  | start (thread : Thread)
  | fire (timer : TimerId)
  | check

def schedulerStep (st : Scheduler) : SchedulerEvent → Scheduler
  | .start thread =>
    if st.rest.status thread = .created then coroutineResume bodies .started thread st else st
  | .fire timer =>
    match st.rest.timers.find? fun active => active.1 = timer with
    | none => st
    | some (_, thread) => onResumeTimer bodies timer thread st
  | .check => checkPhase (coroutineResume bodies .deferred)
      { st with rest := { st.rest with phase := st.rest.phase + 1 } }

def runScheduler (events : List SchedulerEvent) : Scheduler :=
  events.foldl (schedulerStep bodies) ⟨[], false, {}⟩

/-! ## What suspending should mean -/

/-- A step behind a `Defer()` waits for a check phase, and `ResumeAfter` for its timer. -/
structure Suspends (thread : Thread) (log : List Occurrence) : Prop where
  defer : ∀ n called began, .deferred thread n called ∈ log → .step thread (n + 1) began ∈ log →
    called < began
  resumeAfter : ∀ timer cause, .resumed thread timer cause ∈ log → cause = .timer timer

/-! ## Coroutines without `Defer()` -/

/-- Nothing but its own timer is going to resume the coroutine. -/
structure Tidy (thread : Thread) (st : Scheduler) : Prop where
  unqueued : thread ∉ st.deferredCallbacks
  suspended : ∀ timer, (timer, thread) ∈ st.rest.timers →
    ∃ next, st.rest.status thread = .suspended next timer
  undeferred : ∀ n phase, .deferred thread n phase ∉ st.rest.log
  resumed : ∀ timer cause, .resumed thread timer cause ∈ st.rest.log → cause = .timer timer

variable {bodies} {thread other : Thread} {st : Scheduler}

theorem Tidy.suspends (tidy : Tidy thread st) : Suspends thread st.rest.log where
  defer n called _ deferred := absurd deferred (tidy.undeferred n called)
  resumeAfter := tidy.resumed

/-- An occurrence that is no `Defer()` and no resumption by another cause. -/
theorem Tidy.observe (tidy : Tidy thread st) (occurrence : Occurrence)
    (undeferred : ∀ n phase, occurrence ≠ .deferred thread n phase)
    (resumed : ∀ timer cause, occurrence = .resumed thread timer cause → cause = .timer timer) :
    Tidy thread (st.observe occurrence) where
  unqueued := tidy.unqueued
  suspended := tidy.suspended
  undeferred n phase member := by
    rcases List.mem_append.mp member with old | new
    · exact tidy.undeferred n phase old
    · exact undeferred n phase (List.mem_singleton.mp new).symm
  resumed timer cause member := by
    rcases List.mem_append.mp member with old | new
    · exact tidy.resumed timer cause old
    · exact resumed timer cause (List.mem_singleton.mp new).symm

theorem Tidy.setStatus_other (tidy : Tidy thread st) (differs : thread ≠ other) (status : Status) :
    Tidy thread (st.setStatus other status) where
  unqueued := tidy.unqueued
  suspended timer active := by
    obtain ⟨next, found⟩ := tidy.suspended timer active
    exact ⟨next, by simpa [Scheduler.setStatus, Function.update_of_ne differs] using found⟩
  undeferred := tidy.undeferred
  resumed := tidy.resumed

/-- Whatever another coroutine does. -/
theorem Tidy.runFrom_other (tidy : Tidy thread st) (differs : thread ≠ other)
    (rest : List Suspension) (n : Nat) : Tidy thread (runFrom other rest n st) := by
  have stepped (st : Scheduler) (tidy : Tidy thread st) (n : Nat) :
      Tidy thread (st.observe (.step other n st.rest.phase)) :=
    tidy.observe _ nofun nofun
  induction rest generalizing n st with
  | nil => exact (stepped st tidy n).setStatus_other differs .dead
  | cons suspension rest ih =>
    cases suspension with
    | defer =>
      refine ih ?_ (n + 1)
      have noted := (stepped st tidy n).observe (.deferred other n st.rest.phase)
        (fun n phase same => differs (by injection same with same; exact same.symm)) nofun
      exact ⟨fun member => by
          rcases List.mem_append.mp member with old | new
          · exact noted.unqueued old
          · exact differs (List.mem_singleton.mp new),
        noted.suspended, noted.undeferred, noted.resumed⟩
    | resumeAfter delay =>
      have noted := stepped st tidy n
      refine Tidy.setStatus_other ?_ differs _
      refine ⟨noted.unqueued, fun timer active => ?_, noted.undeferred, noted.resumed⟩
      rcases List.mem_append.mp active with old | new
      · exact noted.suspended timer old
      · exact absurd (congrArg Prod.snd (List.mem_singleton.mp new)) differs

/-- The coroutine itself runs to its next `ResumeAfter` or to its end. -/
theorem Tidy.runFrom (tidy : Tidy thread st) (inactive : ∀ timer, (timer, thread) ∉ st.rest.timers)
    (rest : List Suspension) (plain : .defer ∉ rest) (n : Nat) :
    Tidy thread (runFrom thread rest n st) := by
  have stepped := tidy.observe (.step thread n st.rest.phase) nofun nofun
  cases rest with
  | nil =>
    exact ⟨stepped.unqueued, fun timer active => absurd active (inactive timer),
      stepped.undeferred, stepped.resumed⟩
  | cons suspension rest =>
    cases suspension with
    | defer => exact absurd List.mem_cons_self plain
    | resumeAfter delay =>
      refine ⟨stepped.unqueued, fun timer active => ?_, stepped.undeferred, stepped.resumed⟩
      rcases List.mem_append.mp active with old | new
      · exact absurd old (inactive timer)
      -- The new timer is the one that the coroutine waits for.
      · obtain rfl := congrArg Prod.fst (List.mem_singleton.mp new)
        exact ⟨n + 1, Function.update_self ..⟩

theorem Tidy.resume_other (tidy : Tidy thread st) (differs : thread ≠ other) (cause : Cause) :
    Tidy thread (coroutineResume bodies cause other st) := by
  unfold coroutineResume
  cases st.rest.status other with
  | created => exact tidy.runFrom_other differs (bodies other) 0
  | suspended next timer =>
    refine Tidy.runFrom_other (tidy.observe (.resumed other timer cause) nofun ?_) differs _ next
    intro timer cause same
    injection same with same
    exact absurd same.symm differs
  | dead => exact tidy

theorem Tidy.resume_all (tidy : Tidy thread st) (threads : List Thread) (absent : thread ∉ threads)
    (cause : Cause) :
    Tidy thread (threads.foldl (fun st other => coroutineResume bodies cause other st) st) := by
  induction threads generalizing st with
  | nil => exact tidy
  | cons other rest ih =>
    rw [List.mem_cons, not_or] at absent
    exact ih (tidy.resume_other absent.1 cause) absent.2

/-- The step lemma, for a coroutine without `Defer()`. -/
theorem Tidy.step (tidy : Tidy thread st) (plain : .defer ∉ bodies thread)
    (event : SchedulerEvent) : Tidy thread (schedulerStep bodies st event) := by
  cases event with
  | start other =>
    simp only [schedulerStep]
    split
    case isFalse => exact tidy
    case isTrue created =>
      by_cases differs : thread = other
      · subst differs
        -- A coroutine that has not been started has no timers.
        have inactive (timer : TimerId) : (timer, thread) ∉ st.rest.timers := by
          intro active
          obtain ⟨next, suspended⟩ := tidy.suspended timer active
          exact Status.noConfusion (created.symm.trans suspended)
        rw [coroutineResume, created]
        exact tidy.runFrom inactive (bodies thread) plain 0
      · exact tidy.resume_other differs .started
  | fire timer =>
    simp only [schedulerStep]
    cases found : st.rest.timers.find? fun active => active.1 = timer with
    | none => exact tidy
    | some active =>
      obtain ⟨same, other⟩ := active
      have member := List.mem_of_find?_eq_some found
      have fired : same = timer := by simpa using List.find?_some found
      obtain rfl := fired
      have closed : Tidy thread { st with
          rest := { st.rest with timers := st.rest.timers.filter fun active => active.1 ≠ same } } :=
        ⟨tidy.unqueued, fun timer active => tidy.suspended timer (List.mem_of_mem_filter active),
          tidy.undeferred, tidy.resumed⟩
      by_cases differs : thread = other
      · subst differs
        obtain ⟨next, suspended⟩ := tidy.suspended same member
        -- It was the only timer of the coroutine.
        have inactive (timer : TimerId) :
            (timer, thread) ∉ st.rest.timers.filter fun active => active.1 ≠ same := by
          intro active
          obtain ⟨left, apart⟩ := List.mem_filter.mp active
          obtain ⟨next', suspended'⟩ := tidy.suspended timer left
          obtain ⟨-, again⟩ := Status.suspended.inj (suspended.symm.trans suspended')
          exact absurd again.symm (by simpa using apart)
        simp only [onResumeTimer, coroutineResume, suspended]
        refine Tidy.runFrom (closed.observe (.resumed thread same (.timer same)) nofun ?_) inactive
          _ (fun member => plain (List.mem_of_mem_drop member)) next
        intro timer cause occurred
        injection occurred with _ first second
        rw [← first, ← second]
      · simp only [onResumeTimer]
        split
        · exact ⟨closed.unqueued, closed.suspended, closed.undeferred, closed.resumed⟩
        · exact closed.resume_other differs (.timer same)
  | check =>
    simp only [schedulerStep, checkPhase]
    split
    · have taken : Tidy thread { st with
          deferredCallbacks := [], rest := { st.rest with phase := st.rest.phase + 1 } } :=
        ⟨List.not_mem_nil, tidy.suspended, tidy.undeferred, tidy.resumed⟩
      have called : Tidy thread (st.deferredCallbacks.foldl
          (fun st other => coroutineResume bodies .deferred other st) _) :=
        taken.resume_all st.deferredCallbacks tidy.unqueued .deferred
      simp only [onCheck]
      split
      · exact ⟨called.unqueued, called.suspended, called.undeferred, called.resumed⟩
      · exact called
    · exact ⟨tidy.unqueued, tidy.suspended, tidy.undeferred, tidy.resumed⟩

theorem tidy_runScheduler (plain : .defer ∉ bodies thread) (events : List SchedulerEvent) :
    Tidy thread (runScheduler bodies events) := by
  induction events using List.reverseRecOn with
  | nil => exact ⟨List.not_mem_nil, nofun, nofun, nofun⟩
  | append_singleton events event ih =>
    rw [runScheduler, List.foldl_append]
    exact Tidy.step ih plain event

/-! ## Coroutines with `Defer()` -/

/-- Some events lead to a state in which a step has not waited for a check phase. -/
def Fails (bodies : Thread → List Suspension) (thread : Thread) (st : Scheduler) : Prop :=
  ∃ events : List SchedulerEvent, ¬Suspends thread (events.foldl (schedulerStep bodies) st).rest.log

/-- What has occurred stays in the log. -/
theorem runFrom_log (thread : Thread) (rest : List Suspension) (n : Nat) (st : Scheduler) :
    st.rest.log ++ [.step thread n st.rest.phase] <+: (runFrom thread rest n st).rest.log := by
  induction rest generalizing n st with
  | nil => exact List.prefix_rfl
  | cons suspension rest ih =>
    cases suspension with
    | defer =>
      refine List.IsPrefix.trans ?_ (ih (n + 1) _)
      exact ⟨_, (List.append_assoc ..).symm⟩
    | resumeAfter delay => exact List.prefix_rfl

/-- Timers are numbered in the order in which they are created. -/
def Fresh (st : Scheduler) : Prop := ∀ active ∈ st.rest.timers, active.1 < st.rest.nextTimer

/-- The timer of a `ResumeAfter` resumes the coroutine behind it. -/
theorem fire_resumeAfter (bodies : Thread → List Suspension) (thread : Thread) {st : Scheduler}
    (fresh : Fresh st) (n : Nat) :
    ∃ st' : Scheduler, Fresh st' ∧
      schedulerStep bodies (ResumeAfter thread n st) (.fire st.rest.nextTimer) =
        runFrom thread ((bodies thread).drop (n + 1)) (n + 1) st' := by
  have older : st.rest.timers.find? (fun active => active.1 = st.rest.nextTimer) = none := by
    rw [List.find?_eq_none]
    intro active member
    simpa using Nat.ne_of_lt (fresh active member)
  have found : (ResumeAfter thread n st).rest.timers.find?
      (fun active => active.1 = st.rest.nextTimer) = some (st.rest.nextTimer, thread) := by
    simp [ResumeAfter, Scheduler.setStatus, List.find?_append, older]
  have suspended : (ResumeAfter thread n st).rest.status thread =
      .suspended (n + 1) st.rest.nextTimer := Function.update_self ..
  simp only [schedulerStep, found, onResumeTimer, coroutineResume, suspended]
  refine ⟨_, ?_, rfl⟩
  intro active member
  rcases List.mem_append.mp (List.mem_of_mem_filter member) with old | new
  · exact Nat.lt_succ_of_lt (fresh active old)
  · rw [List.mem_singleton.mp new]
    exact Nat.lt_succ_self _

theorem fails_runFrom (rest : List Suspension) (n : Nat) (st : Scheduler) (fresh : Fresh st)
    (shape : (bodies thread).drop n = rest) (called : .defer ∈ rest) :
    Fails bodies thread (runFrom thread rest n st) := by
  induction rest generalizing n st with
  | nil => exact absurd called List.not_mem_nil
  | cons suspension rest ih =>
    have next : (bodies thread).drop (n + 1) = rest := by
      rw [← List.drop_drop, shape]
      rfl
    cases suspension with
    | defer =>
      -- The next step begins in the same phase.
      refine ⟨[], fun suspends => ?_⟩
      have kept := runFrom_log thread rest (n + 1)
        (DeferThread thread n (st.observe (.step thread n st.rest.phase)))
      have noted : Occurrence.deferred thread n st.rest.phase ∈
          (runFrom thread (.defer :: rest) n st).rest.log :=
        kept.subset (by simp [DeferThread, Defer, Scheduler.observe])
      have began : Occurrence.step thread (n + 1) st.rest.phase ∈
          (runFrom thread (.defer :: rest) n st).rest.log :=
        kept.subset (by simp [DeferThread, Defer, Scheduler.observe])
      exact absurd (suspends.defer n _ _ noted began) (Nat.lt_irrefl _)
    | resumeAfter delay =>
      have later : Suspension.defer ∈ rest := by simpa using called
      have fresh : Fresh (st.observe (.step thread n st.rest.phase)) := fresh
      obtain ⟨st', fresh', fired⟩ := fire_resumeAfter bodies thread fresh n
      obtain ⟨events, failed⟩ := ih (n + 1) st' fresh' next later
      refine ⟨.fire st.rest.nextTimer :: events, ?_⟩
      rw [next] at fired
      rw [List.foldl_cons, runFrom]
      exact fired.symm ▸ failed

/-- A coroutine suspends as it should in every run, among arbitrary others, exactly if it
does not call `Defer()`. -/
theorem suspension_iff (bodies : Thread → List Suspension) (thread : Thread) :
    (∀ events, Suspends thread (runScheduler bodies events).rest.log) ↔ .defer ∉ bodies thread := by
  constructor
  · intro suspends called
    have failing : Fails bodies thread (runFrom thread (bodies thread) 0 ⟨[], false, {}⟩) :=
      fails_runFrom (bodies thread) 0 ⟨[], false, {}⟩
        (fun active member => absurd member List.not_mem_nil) rfl called
    obtain ⟨events, failed⟩ := failing
    exact failed (suspends (.start thread :: events))
  · exact fun plain events => (tidy_runScheduler plain events).suspends

/-- A coroutine that calls `Defer()` and then `ResumeAfter`. -/
def deferringBody : List Suspension := [.defer, .resumeAfter 100]

/-- The step behind `Defer()` does not wait, and the queued resumption ends `ResumeAfter`
before its timer does. -/
theorem deferringBody_fails :
    (¬∀ n called began, .deferred 0 n called ∈
        (runScheduler (fun _ => deferringBody) [.start 0]).rest.log →
      .step 0 (n + 1) began ∈ (runScheduler (fun _ => deferringBody) [.start 0]).rest.log →
      called < began) ∧
    ¬∀ timer cause, .resumed 0 timer cause ∈
        (runScheduler (fun _ => deferringBody) [.start 0, .check]).rest.log →
      cause = .timer timer := by
  constructor
  · intro defer
    exact absurd (defer 0 0 0 (by decide) (by decide)) (by decide)
  · intro resumeAfter
    exact absurd (resumeAfter 0 .deferred (by decide)) (by decide)

end EvoRuntime.Timer
