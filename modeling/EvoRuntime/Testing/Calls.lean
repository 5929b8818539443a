import EvoRuntime.Testing.FailedTests

/-!
# Calls of the test runner

`reset` prepares the state for another call, except for the hooks and the indentation.

## Main result

`alike_iff_clean`: every call does what it does on a fresh state if and only if there are
neither hooks nor an indentation in the state.

## Proof strategy

No computation looks at the log or at what has been printed, so a call can be moved to a
state without them. Apart from them a clean state is a fresh one after `reset`. In the other
direction one test outside of all sections shows what has been left behind.
-/
namespace EvoRuntime.Testing

open Lua Library Raising

/-! ## The log is not looked at -/

/-- The state after other things have been run and printed before. -/
def State.since (s earlier : State) : State :=
  { s with
    log := earlier.log ++ s.log
    output := earlier.output ++ s.output }

/-- The computation does not depend on what has been run and printed. -/
def Forgetful {α : Type} (m : Action α) : Prop := ∀ earlier, Commutes (State.since · earlier) m

variable {host : Surroundings} {s : State} {label : LuaString}

theorem report_forgetful (message : LuaString) : Forgetful (report message) :=
  fun _ => .modify fun _ => rfl

theorem runHook_forgetful (event : Hook → Event) (hook : Hook) : Forgetful (runHook event hook) := by
  intro earlier
  refine .bind (.modify fun s => ?_) fun _ => ?_
  · simp [State.since]
  · cases hook.error with
    | none => exact .pure
    | some e => exact .throw

theorem runTest_forgetful (test : Test) : Forgetful (runTest test) := by
  intro earlier
  refine .bind (.modify fun s => ?_) fun _ => ?_
  · simp [State.since]
  · cases test.error with
    | none => exact .pure
    | some e => exact .throw

theorem warn_forgetful (kind : LuaString) : Forgetful (warn host kind label) := by
  intro earlier
  refine .modify fun s => ?_
  simp [State.since]

theorem insertDetails_forgetful (handled : Handled) (path : LuaString) : Forgetful (insertDetails handled path) := by
  intro earlier
  cases handled with
  | details message stackTrace => exact .bind (.modify fun _ => rfl) fun _ => .pure
  | nil | failed => exact .throw

theorem finishSubsection_forgetful (result : Except ErrorValue Unit) :
    Forgetful (finishSubsection host label result) := by
  intro earlier
  cases result with
  | ok a =>
    refine .bind (.get_bind (fun _ => rfl) fun _ => ?_) fun _ => .modify fun _ => rfl
    exact report_forgetful _ earlier
  | error e =>
    refine .bind (.get_bind (fun _ => rfl) fun _ => ?_) fun _ => .bind (.modify fun _ => rfl) fun _ =>
      .get_bind (fun _ => rfl) fun _ => .bind ?_ fun _ => .pure
    · exact report_forgetful _ earlier
    · exact insertDetails_forgetful _ _ earlier

theorem startSubsection_forgetful (test : Test) : Forgetful (startSubsection host label test) := by
  intro earlier
  refine .get_bind (fun _ => rfl) fun s => ?_
  split
  · exact warn_forgetful _ earlier
  · refine .get_bind (fun _ => rfl) fun _ => .bind (.forM fun hook => ?_) fun _ => .bind (.attempt ?_) fun result =>
      .get_bind (fun _ => rfl) fun _ => .bind (.forM fun hook => ?_) fun _ => ?_
    · exact runHook_forgetful _ hook earlier
    · exact runTest_forgetful test earlier
    · exact runHook_forgetful _ hook earlier
    · exact finishSubsection_forgetful result earlier

theorem startSection_forgetful {testFunction : Action Unit} (body : Forgetful testFunction) :
    Forgetful (startSection host label testFunction) := by
  intro earlier
  refine .get_bind (fun _ => rfl) fun s => ?_
  split
  · exact warn_forgetful _ earlier
  · refine .bind (.get_bind (fun _ => rfl) fun _ => ?_) fun _ => .bind (.modify fun _ => rfl) fun _ =>
      .bind (body earlier) fun _ => .modify fun _ => rfl
    exact report_forgetful _ earlier

theorem block_forgetful (block : Block) : Forgetful (block.run host) := by
  induction block with
  | done => exact fun _ => .pure
  | raise e => exact fun _ => .throw
  | before hook rest ih | after hook rest ih => exact fun earlier => .bind (.modify fun _ => rfl) fun _ => ih earlier
  | it label test rest ih => exact fun earlier => .bind (startSubsection_forgetful test earlier) fun _ => ih earlier
  | describe label body rest bodyRan restRan =>
    exact fun earlier => .bind (startSection_forgetful bodyRan earlier) fun _ => restRan earlier

theorem dofile_forgetful (file : SpecFile) : Forgetful (dofile host file) := by
  unfold dofile
  cases file.chunk with
  | ok block => exact block_forgetful block
  | error e => exact fun _ => .throw

theorem failSpecFile_forgetful (path : LuaString) (e : ErrorValue) : Forgetful (failSpecFile host path e) := by
  intro earlier
  refine .bind (insertDetails_forgetful _ _ earlier) fun message => .get_bind (fun _ => rfl) fun s => ?_
  split
  · exact .bind (report_forgetful _ earlier) fun _ => .modify fun _ => rfl
  · exact .throw

/-- What follows the run of a file. -/
theorem afterFile_forgetful (file : SpecFile) (result : Except ErrorValue Unit) : Forgetful (match result with
    | .ok _ => do
      if (← get).reportingMode = .BASIC then
        report (color host .green (ascii "PASS\t" ++ file.path))
    | .error e => failSpecFile host file.path e : Action Unit) := by
  intro earlier
  cases result with
  | ok a =>
    refine .get_bind (fun _ => rfl) fun s => ?_
    split
    · exact report_forgetful _ earlier
    · exact .pure
  | error e => exact failSpecFile_forgetful file.path e earlier

theorem executeSpecFile_forgetful (file : SpecFile) : Forgetful (executeSpecFile host file) := fun earlier =>
  .bind .raiseIf fun _ => .bind (.modify fun _ => rfl) fun _ =>
    .bind (.attempt (dofile_forgetful file earlier)) fun result => afterFile_forgetful file result earlier

theorem reportEnd_forgetful : Forgetful (reportEnd host) := by
  intro earlier
  refine .get_bind (fun _ => rfl) fun s => ?_
  cases s.reportingMode with
  | MINIMAL => exact .pure
  | BASIC => exact .bind (report_forgetful _ earlier) fun _ => report_forgetful _ earlier
  | DETAILED => exact report_forgetful _ earlier

theorem endTestRunner_forgetful : Forgetful (endTestRunner host) := fun earlier =>
  .bind (.modify fun _ => rfl) fun _ => .bind (reportEnd_forgetful earlier) fun _ =>
    .get_bind (fun _ => rfl) fun _ => .pure

/-! ## Calls -/

/-- A call of the test runner, in a reporting mode that has been set before. -/
structure Call where
  host : Surroundings
  reportingMode : ReportingMode
  specFiles : List SpecFile

def Call.run (call : Call) (s : State) : Except ErrorValue Nat × State :=
  (startTestRunner call.host call.specFiles).outcome { s with reportingMode := call.reportingMode }

/-- The state after some calls. -/
def afterCalls (calls : List Call) : State := calls.foldl (fun s call => (call.run s).2) {}

/-- The call does what it does on a fresh state. -/
structure Call.Alike (call : Call) (s : State) : Prop where
  result : (call.run s).1 = (call.run {}).1
  log : (call.run s).2.log = s.log ++ (call.run {}).2.log
  output : (call.run s).2.output = s.output ++ (call.run {}).2.output
  /-- Without files there is neither a reset nor a report. -/
  books : call.specFiles ≠ [] →
    (call.run s).2.reportBuffer = (call.run {}).2.reportBuffer ∧
      (call.run s).2.numCompletedTests = (call.run {}).2.numCompletedTests ∧
      (call.run s).2.numFailedTests = (call.run {}).2.numFailedTests ∧
      (call.run s).2.errorDetails = (call.run {}).2.errorDetails

/-- Neither hooks nor an indentation. -/
structure Scope.Clean (c : Scope) : Prop where
  setup : c.registeredSetupFunctions = []
  teardown : c.registeredTeardownFunctions = []
  level : c.reportIndentationLevel = 0

/-- What has been left behind is not taken back. -/
theorem Scope.Grows.clean {c c' : Scope} (grows : c.Grows c') (clean : c'.Clean) : c.Clean := by
  rcases grows.more with ⟨setup, teardown, level⟩ | deeper
  · rw [clean.setup] at setup
    rw [clean.teardown] at teardown
    exact ⟨List.prefix_nil.mp setup, List.prefix_nil.mp teardown, level.symm.trans clean.level⟩
  · rw [clean.level] at deeper
    exact absurd deeper (Nat.not_lt_zero _)

/-- Apart from what has been run and printed, a clean state is a fresh one after `reset`. -/
theorem begun_of_clean (clean : s.scope.Clean) (numSpecFiles : Nat) (mode : ReportingMode) :
    begun host numSpecFiles { s with reportingMode := mode } =
      (begun host numSpecFiles { reportingMode := mode }).since s := by
  obtain ⟨setup, teardown, level⟩ := clean
  have setup : s.registeredSetupFunctions = [] := setup
  have teardown : s.registeredTeardownFunctions = [] := teardown
  have level : s.reportIndentationLevel = 0 := level
  cases mode <;> simp [begun, State.since, setup, teardown, level, reportStart, report, outcome_bind]

theorem Call.alike_of_clean (call : Call) (clean : s.scope.Clean) : call.Alike s := by
  by_cases none : call.specFiles = []
  · have refused (t : State) : call.run t = (.error (.string (ascii "No test cases to run")),
        { t with reportingMode := call.reportingMode }) := by
      rw [Call.run, none]
      rfl
    refine ⟨?_, ?_, ?_, fun some => absurd none some⟩
    · rw [refused, refused]
    · rw [refused, refused, List.append_nil]
    · rw [refused, refused, List.append_nil]
  -- The call of the fresh state, moved behind what has been run and printed.
  · have same : call.run s = ((call.run {}).1, (call.run {}).2.since s) := by
      rw [Call.run, Call.run, startTestRunner_outcome none, startTestRunner_outcome none, begun_of_clean clean]
      exact Commutes.bind (.forM fun file => executeSpecFile_forgetful file s) (fun _ => endTestRunner_forgetful s) _
    refine ⟨?_, ?_, ?_, fun _ => ?_⟩
    · rw [same]
    · rw [same]
      rfl
    · rw [same]
      rfl
    · rw [same]
      exact ⟨rfl, rfl, rfl, rfl⟩

/-! ## A call that shows what has been left behind -/

/-- One test outside of all sections. -/
def probe : Call :=
  ⟨plainHost, .DETAILED, [⟨ascii "probe.lua", none, .ok (.it (ascii "probe") ⟨0, none⟩ .done)⟩]⟩

theorem Forgetful.log_grows {α : Type} {m : Action α} (forgetful : Forgetful m) (s : State) :
    s.log <+: (m.outcome s).2.log := by
  have since : s = ({ s with log := [], output := [] } : State).since s := by simp [State.since]
  have ran := forgetful s { s with log := [], output := [] }
  dsimp only at ran
  rw [← since] at ran
  rw [ran]
  exact List.prefix_append _ _

theorem Forgetful.bind_log {α β : Type} {m : Action α} {k : α → Action β} (later : ∀ a, Forgetful (k a)) (s : State) :
    (m.outcome s).2.log <+: ((m >>= k).outcome s).2.log := by
  rw [outcome_bind]
  cases m.outcome s with
  | mk result s' =>
    cases result with
    | error e => exact List.prefix_rfl
    | ok a => exact (later a).log_grows s'

theorem runHooks_log (event : Hook → Event) (hook : Hook) (rest : List Hook) (s : State) :
    s.log ++ [event hook] <+: ((forM (hook :: rest) (runHook event)).outcome s).2.log := by
  have first : ((runHook event hook).outcome s).2.log = s.log ++ [event hook] := by
    cases raised : hook.error <;> simp [runHook, outcome_bind, raised]
  rw [List.forM_cons, ← first]
  exact Forgetful.bind_log (fun _ earlier => .forM fun hook => runHook_forgetful event hook earlier) s

theorem startSubsection_log (s : State) (detailed : s.reportingMode = .DETAILED) (test : Test) :
    (∀ hook rest, s.registeredSetupFunctions = hook :: rest →
      s.log ++ [.before hook] <+: ((startSubsection host label test).outcome s).2.log) ∧
    (∀ hook rest, s.registeredSetupFunctions = [] → s.registeredTeardownFunctions = hook :: rest →
      s.log ++ [.test test, .after hook] <+: ((startSubsection host label test).outcome s).2.log) := by
  have afterTest (result : Except ErrorValue Unit) : Forgetful (do
      forM (← get).registeredTeardownFunctions (runHook .after)
      finishSubsection host label result : Action Unit) := fun earlier =>
    .get_bind (fun _ => rfl) fun _ => .bind (.forM fun hook => runHook_forgetful _ hook earlier)
      fun _ => finishSubsection_forgetful result earlier
  unfold startSubsection
  rw [outcome_bind, outcome_get]
  dsimp only
  rw [if_neg (not_not.mpr detailed), outcome_bind, outcome_get]
  dsimp only
  refine ⟨?_, ?_⟩
  · intro hook rest setup
    rw [setup]
    refine (runHooks_log .before hook rest s).trans (Forgetful.bind_log (fun _ earlier => ?_) s)
    exact .bind (.attempt (runTest_forgetful test earlier)) fun result => afterTest result earlier
  · intro hook rest setup teardown
    rw [setup, List.forM_nil, outcome_bind, outcome_pure]
    dsimp only
    rw [outcome_bind, outcome_attempt, runTest_outcome]
    dsimp only
    rw [outcome_bind, outcome_get]
    dsimp only
    rw [teardown, List.append_cons]
    exact List.IsPrefix.trans (runHooks_log .after hook rest { s with
      registeredTeardownFunctions := hook :: rest
      log := s.log ++ [.test test] }) (Forgetful.bind_log (fun _ => finishSubsection_forgetful _) _)

/-- What a file writes is in the log of the call. -/
theorem call_log (call : Call) {file : SpecFile} (only : call.specFiles = [file])
    (found : file.statError ≠ some (ascii "ENOENT: no such file or directory: " ++ file.path)) (s : State) :
    ((dofile call.host file).outcome { begun call.host 1 { s with reportingMode := call.reportingMode } with
      lastExecutedSpecFile := some file.path }).2.log <+: (call.run s).2.log := by
  have some : call.specFiles ≠ [] := by simp [only]
  have files (t : State) : ((executeSpecFile call.host file).outcome t).2.log <+:
      ((forM [file] (executeSpecFile call.host) >>= fun _ => endTestRunner call.host).outcome t).2.log := by
    rw [List.forM_cons, bind_assoc]
    exact Forgetful.bind_log (fun _ earlier => .bind .pure fun _ => endTestRunner_forgetful earlier) t
  rw [Call.run, startTestRunner_outcome some, only]
  refine List.IsPrefix.trans ?_ (files _)
  rw [executeSpecFile, outcome_bind, outcome_raiseIf, if_neg found]
  dsimp only
  rw [outcome_bind, outcome_modify]
  dsimp only
  have attempted (t : State) : ((attempt (dofile call.host file)).outcome t).2 = ((dofile call.host file).outcome t).2 := by
    rw [outcome_attempt]
  rw [← attempted]
  exact Forgetful.bind_log (afterFile_forgetful file) _

/-- The state in which the test of the probe is run. -/
def probed (s : State) : State :=
  { begun plainHost 1 { s with reportingMode := .DETAILED } with lastExecutedSpecFile := some (ascii "probe.lua") }

theorem probe_log (s : State) : ((startSubsection plainHost (ascii "probe") ⟨0, none⟩).outcome (probed s)).2.log <+:
    (probe.run s).2.log := by
  refine List.IsPrefix.trans ?_ (call_log probe rfl (Option.some_ne_none _).symm s)
  exact Forgetful.bind_log (fun _ _ => .pure) (probed s)

theorem probe_report (setup : s.registeredSetupFunctions = []) (teardown : s.registeredTeardownFunctions = []) :
    (probe.run s).2.reportBuffer = indentPrefix s ++ color plainHost .green checkMark ++ ascii " " ++ ascii "probe" ++
      ascii "\n" ++ getSectionsReportString plainHost { numCompletedTests := 1 } ++ ascii "\n" := by
  obtain ⟨_, setups, teardowns⟩ := s
  obtain rfl : setups = [] := setup
  obtain rfl : teardowns = [] := teardown
  rfl

theorem clean_of_probe (alike : probe.Alike s) : s.scope.Clean := by
  have log : (probe.run s).2.log = s.log ++ [.test ⟨0, none⟩] := alike.log
  have written := probe_log s
  rw [log] at written
  have setup : s.registeredSetupFunctions = [] := by
    cases hooks : s.registeredSetupFunctions with
    | nil => rfl
    | cons hook rest =>
      have before := ((startSubsection_log (probed s) rfl _).1 hook rest hooks).trans written
      simp [probed, begun] at before
  have teardown : s.registeredTeardownFunctions = [] := by
    cases hooks : s.registeredTeardownFunctions with
    | nil => rfl
    | cons hook rest =>
      have after := ((startSubsection_log (probed s) rfl _).2 hook rest setup hooks).trans written
      simp [probed, begun] at after
  refine ⟨setup, teardown, ?_⟩
  have report := (alike.books (List.cons_ne_nil _ _)).1
  rw [probe_report setup teardown, probe_report rfl rfl] at report
  -- The reports differ at most in the indentation of their first line.
  have indented : indentPrefix s = indentPrefix {} := by simpa only [List.append_left_inj] using report
  have level : s.reportIndentationLevel = 0 := by
    simpa [indentPrefix, ascii] using congrArg List.length indented
  exact level

theorem alike_iff_clean : (∀ call : Call, call.Alike s) ↔ s.scope.Clean :=
  ⟨fun alike => clean_of_probe (alike probe), fun clean call => call.alike_of_clean clean⟩

end EvoRuntime.Testing
