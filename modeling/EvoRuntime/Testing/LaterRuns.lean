import EvoRuntime.Testing.Calls

/-!
# Later runs

What earlier calls of the test runner leave behind can be told from the trees of their files.

## Main result

`laterCalls_alike_iff`: every later call is like one on a fresh state if and only if no
earlier call has registered a hook outside of its sections or has broken off a section.

## Proof strategy

`block_endsWith` tells the error that leaves a block. Whether a clean state stays clean then
follows by induction on the tree (`block_clean_iff`). What is left behind is never taken
back (`startTestRunner_grows`), so all calls must leave a clean state clean.
-/
namespace EvoRuntime.Testing

open Lua Library Raising

variable {host : Surroundings} {s : State} {label : LuaString}

/-! ## Errors of a block -/

/-- The error that the bookkeeping raises after the test. -/
def Test.leaves (host : Surroundings) (test : Test) : Option ErrorValue :=
  test.error.bind fun e =>
    match errorHandler host e with
    | .details .. => none
    | .nil => some (.string (ascii "attempt to index local 'errorDetails' (a nil value)"))
    | .failed => some (.string (ascii "attempt to index local 'errorDetails' (a string value)"))

section Trees

variable (host : Surroundings) (mode : ReportingMode)

/-- The error that leaves a block with these hooks. -/
def Block.raises (befores afters : List Hook) : Block → Option ErrorValue
  | .done => none
  | .raise e => some e
  | .describe _ body rest =>
    (if mode = .DETAILED then body.raises [] [] else none).or (rest.raises befores afters)
  | .it _ test rest =>
    (if mode = .DETAILED then
      (befores.findSome? (·.error)).or ((afters.findSome? (·.error)).or (test.leaves host))
    else none).or (rest.raises befores afters)
  | .before hook rest => rest.raises (befores ++ [hook]) afters
  | .after hook rest => rest.raises befores (afters ++ [hook])

/-- Up to its end or its error, the block registers no hook of its own and breaks off none of its
sections. -/
def Block.Tidy : Block → Prop
  | .done | .raise _ => True
  | .describe _ body rest => (mode = .DETAILED → body.raises host mode [] [] = none) ∧ rest.Tidy
  | .it _ test rest => (mode = .DETAILED → test.leaves host = none) → rest.Tidy
  | .before _ _ | .after _ _ => False

def SpecFile.Missing (file : SpecFile) : Prop :=
  file.statError = some (ascii "ENOENT: no such file or directory: " ++ file.path)

/-- The error that leaves a file which finds no hooks. -/
def SpecFile.raises (file : SpecFile) : Option ErrorValue :=
  match file.chunk with
  | .ok block => block.raises host mode [] []
  | .error e => some e

/-- The run ends with the file. -/
def SpecFile.Stops (file : SpecFile) : Prop :=
  file.Missing ∨ ∃ e, file.raises host mode = some e ∧ (mode = .BASIC → ¬host.Handles e)

def SpecFile.Tidy (file : SpecFile) : Prop :=
  file.Missing ∨ ∀ block, file.chunk = .ok block → block.Tidy host mode

/-- The files are tidy up to the one with which the run ends. -/
def FilesTidy : List SpecFile → Prop
  | [] => True
  | file :: rest => file.Tidy host mode ∧ (file.Stops host mode ∨ FilesTidy rest)

end Trees

def Call.Tidy (call : Call) : Prop := FilesTidy call.host call.reportingMode call.specFiles

/-! ## The tree tells the error -/

/-- The computation ends with the error, if there is one. -/
def EndsWith (m : Action Unit) (s : State) (error : Option ErrorValue) : Prop :=
  (m.outcome s).1 = error.elim (.ok ()) .error

/-- Either the first computation raises its error or the second one begins where it ends. -/
theorem EndsWith.outcome_bind {first : Action Unit} {error : Option ErrorValue}
    (ran : EndsWith first s error) (next : Action Unit) :
    (∃ e, error = some e ∧
        (first >>= fun _ => next).outcome s = (.error e, (first.outcome s).2)) ∨
      (error = none ∧ ∃ s', first.Completes s () s' ∧
        (first >>= fun _ => next).outcome s = next.outcome s') := by
  rw [Raising.outcome_bind]
  unfold EndsWith at ran
  cases result : first.outcome s with
  | mk r s' =>
    rw [result] at ran
    cases error with
    | none =>
      obtain rfl : r = .ok () := ran
      exact .inr ⟨rfl, s', result, rfl⟩
    | some e =>
      obtain rfl : r = .error e := ran
      exact .inl ⟨e, rfl, rfl⟩

theorem EndsWith.bind {first next : Action Unit} {error error' : Option ErrorValue}
    (ran : EndsWith first s error)
    (later : ∀ s', first.Completes s () s' → EndsWith next s' error') :
    EndsWith (first >>= fun _ => next) s (error.or error') := by
  rcases ran.outcome_bind next with ⟨e, rfl, outcome⟩ | ⟨rfl, s', completed, outcome⟩
  · rw [EndsWith, outcome]
    rfl
  · rw [EndsWith, outcome]
    exact later s' completed

theorem EndsWith.bind_state {first next : Action Unit} {error : Option ErrorValue}
    (ran : EndsWith first s error) :
    (error ≠ none ∧ ((first >>= fun _ => next).outcome s).2 = (first.outcome s).2) ∨
      (error = none ∧ ∃ s', first.Completes s () s' ∧
        ((first >>= fun _ => next).outcome s).2 = (next.outcome s').2) := by
  rcases ran.outcome_bind next with ⟨e, rfl, outcome⟩ | ⟨rfl, s', completed, outcome⟩
  · rw [outcome]
    exact .inl ⟨Option.some_ne_none e, rfl⟩
  · rw [outcome]
    exact .inr ⟨rfl, s', completed, rfl⟩

theorem EndsWith.completes {m : Action Unit} {error : Option ErrorValue} {s' : State} (ran : EndsWith m s error)
    (completed : m.Completes s () s') : error = none := by
  rw [EndsWith, completed] at ran
  cases error with
  | none => rfl
  | some e => exact nomatch ran

theorem runHooks_endsWith (event : Hook → Event) (hooks : List Hook) :
    EndsWith (forM hooks (runHook event)) s (hooks.findSome? (·.error)) := by
  induction hooks generalizing s with
  | nil => rfl
  | cons hook rest ih =>
    have first : EndsWith (runHook event hook) s hook.error := by
      cases raised : hook.error <;> simp [EndsWith, runHook, outcome_bind, raised]
    have ran := first.bind fun s' _ => ih
    rw [List.forM_cons, List.findSome?_cons]
    cases raised : hook.error <;> simpa [raised] using ran

theorem finishSubsection_endsWith (test : Test) :
    EndsWith (finishSubsection host label (test.error.elim (.ok ()) .error)) s (test.leaves host) := by
  cases raised : test.error with
  | none => simp [EndsWith, finishSubsection, reportPassingSubsection, report, outcome_bind, Test.leaves, raised]
  | some e =>
    cases handled : errorHandler host e <;>
      simp [EndsWith, finishSubsection, reportFailingSubsection, report, insertDetails, outcome_bind, Test.leaves,
        raised, handled]

theorem startSubsection_endsWith (test : Test) : EndsWith (startSubsection host label test) s
    (if s.scope.reportingMode = .DETAILED then
      (s.scope.registeredSetupFunctions.findSome? (·.error)).or
        ((s.scope.registeredTeardownFunctions.findSome? (·.error)).or (test.leaves host))
    else none) := by
  unfold startSubsection EndsWith
  rw [outcome_bind, outcome_get]
  dsimp only
  by_cases detailed : s.reportingMode = .DETAILED
  · have inMode : s.scope.reportingMode = .DETAILED := detailed
    rw [if_neg (not_not.mpr detailed), if_pos inMode, outcome_bind, outcome_get]
    refine (runHooks_endsWith .before s.registeredSetupFunctions).bind fun t completed => ?_
    have same : t.scope = s.scope := (runHooks_scope _).completes completed rfl
    unfold EndsWith
    rw [outcome_bind, outcome_attempt, runTest_outcome]
    dsimp only
    rw [outcome_bind, outcome_get, ← same]
    exact (runHooks_endsWith .after t.registeredTeardownFunctions).bind fun _ _ => finishSubsection_endsWith test
  · have inMode : ¬s.scope.reportingMode = .DETAILED := detailed
    rw [if_pos detailed, if_neg inMode]
    rfl

/-! ## The scope after a block -/

theorem startSection_scope {body : Block}
    (level : ∀ s s', (body.run host).Completes s () s' → s'.reportIndentationLevel = s.reportIndentationLevel)
    {s' : State} (completed : (startSection host label (body.run host)).Completes s () s') : s'.scope = s.scope := by
  by_cases detailed : s.reportingMode = .DETAILED
  · obtain ⟨t, ran, rfl⟩ := (startSection_completes detailed).mp completed
    have mode : t.reportingMode = s.reportingMode := (Scope.Grows.ran (fun _ => block_grows body) ran).reportingMode
    have indented : t.reportIndentationLevel = s.reportIndentationLevel + 1 := level _ _ ran
    simp [State.scope, mode, indented]
  · rw [startSection, get_bind_completes, if_pos detailed] at completed
    obtain rfl := modify_completes.mp completed
    rfl

/-- A block that comes to its end has finished all its sections. -/
theorem block_level (block : Block) (s s' : State) (completed : (block.run host).Completes s () s') :
    s'.reportIndentationLevel = s.reportIndentationLevel := by
  induction block generalizing s s' with
  | done =>
    obtain ⟨-, rfl⟩ := pure_completes.mp completed
    rfl
  | raise e => exact (throw_completes completed).elim
  | before hook rest ih | after hook rest ih =>
    obtain ⟨⟨⟩, t, registered, others⟩ := bind_completes.mp completed
    obtain rfl := modify_completes.mp registered
    have later := ih _ _ others
    exact later
  | it label test rest ih =>
    obtain ⟨⟨⟩, t, first, others⟩ := bind_completes.mp completed
    have same : t.scope = s.scope := (startSubsection_scope test).completes first rfl
    exact (ih t s' others).trans (congrArg Scope.reportIndentationLevel same)
  | describe label body rest bodyLevel restLevel =>
    obtain ⟨⟨⟩, t, first, others⟩ := bind_completes.mp completed
    exact (restLevel t s' others).trans (congrArg Scope.reportIndentationLevel (startSection_scope bodyLevel first))

theorem startSection_endsWith {testFunction : Action Unit} {error : Option ErrorValue}
    (body : EndsWith testFunction (entered host label s) error) :
    EndsWith (startSection host label testFunction) s (if s.scope.reportingMode = .DETAILED then error else none) := by
  by_cases detailed : s.reportingMode = .DETAILED
  · have inMode : s.scope.reportingMode = .DETAILED := detailed
    unfold EndsWith at *
    rw [startSection_outcome detailed, if_pos inMode, ← body]
    cases testFunction.outcome (entered host label s) with
    | mk result t => cases result <;> rfl
  · have inMode : ¬s.scope.reportingMode = .DETAILED := detailed
    rw [EndsWith, startSection, outcome_bind, outcome_get]
    dsimp only
    rw [if_pos detailed, if_neg inMode]
    rfl

theorem block_endsWith (block : Block) : EndsWith (block.run host) s
    (block.raises host s.scope.reportingMode s.scope.registeredSetupFunctions s.scope.registeredTeardownFunctions) := by
  induction block generalizing s with
  | done | raise e => rfl
  | before hook rest ih =>
    have later : EndsWith (rest.run host)
      { s with registeredSetupFunctions := s.registeredSetupFunctions ++ [hook] } _ := ih
    exact later
  | after hook rest ih =>
    have later : EndsWith (rest.run host)
      { s with registeredTeardownFunctions := s.registeredTeardownFunctions ++ [hook] } _ := ih
    exact later
  | it label test rest ih =>
    refine (startSubsection_endsWith test).bind fun s' completed => ?_
    have same : s'.scope = s.scope := (startSubsection_scope test).completes completed rfl
    rw [← same]
    exact ih
  | describe label body rest bodyEnds restEnds =>
    refine (startSection_endsWith bodyEnds).bind fun s' completed => ?_
    rw [← startSection_scope (block_level body) completed]
    exact restEnds

/-! ## The tree tells what is left behind -/

theorem clean_before {block : Block} (after : ((block.run host).outcome s).2.scope.Clean) : s.scope.Clean :=
  Scope.Grows.clean (block_grows block s (.refl _)) after

/-- An error that leaves the body of a section leaves its indentation behind. -/
theorem section_not_clean {body : Block} (detailed : s.scope.reportingMode = .DETAILED)
    (raises : body.raises host s.scope.reportingMode [] [] ≠ none) :
    ¬((startSection host label (body.run host)).outcome s).2.scope.Clean := by
  have inside : EndsWith (body.run host) (entered host label s) (body.raises host s.scope.reportingMode [] []) :=
    block_endsWith body
  rw [startSection_outcome detailed]
  cases ran : (body.run host).outcome (entered host label s) with
  | mk result t =>
    cases result with
    | ok a => exact absurd (inside.completes ran) raises
    | error e =>
      intro clean
      have clean : ((body.run host).outcome (entered host label s)).2.scope.Clean := by rwa [ran]
      exact Nat.succ_ne_zero _ (clean_before clean).level

/-- A clean state stays clean if and only if the block is tidy. -/
theorem block_clean_iff {block : Block} (clean : s.scope.Clean) :
    ((block.run host).outcome s).2.scope.Clean ↔ block.Tidy host s.scope.reportingMode := by
  induction block generalizing s with
  | done | raise e => exact iff_of_true clean trivial
  | before hook rest ih =>
    refine iff_of_false (fun after => ?_) id
    have registered : ({ s with registeredSetupFunctions := s.registeredSetupFunctions ++ [hook] } : State).scope.Clean :=
      clean_before after
    exact List.append_ne_nil_of_right_ne_nil _ (List.cons_ne_nil hook []) registered.setup
  | after hook rest ih =>
    refine iff_of_false (fun after => ?_) id
    have registered :
        ({ s with registeredTeardownFunctions := s.registeredTeardownFunctions ++ [hook] } : State).scope.Clean :=
      clean_before after
    exact List.append_ne_nil_of_right_ne_nil _ (List.cons_ne_nil hook []) registered.teardown
  | it label test rest ih =>
    have kept (c : Scope) : Keeps (fun s => s.scope = c) (startSubsection host label test) := startSubsection_scope test
    have first : EndsWith (startSubsection host label test) s _ := startSubsection_endsWith test
    rw [clean.setup, clean.teardown, List.findSome?_nil, Option.none_or, Option.none_or] at first
    rw [Block.run, Block.Tidy]
    rcases first.bind_state with ⟨leaves, state⟩ | ⟨whole, s', completed, state⟩
    · -- The error leaves no section.
      rw [state, kept _ s rfl]
      refine iff_of_true clean fun whole => absurd ?_ leaves
      split
      next detailed => exact whole detailed
      next => rfl
    · have same : s'.scope = s.scope := (kept _).completes completed rfl
      have clean' : s'.scope.Clean := same ▸ clean
      have quiet : s.scope.reportingMode = .DETAILED → test.leaves host = none := by
        intro detailed
        rwa [if_pos detailed] at whole
      rw [state, ih clean', same]
      exact ⟨fun tidy _ => tidy, fun tidy => tidy quiet⟩
  | describe label body rest bodyEnds restEnds =>
    have first : EndsWith (startSection host label (body.run host)) s _ := startSection_endsWith (block_endsWith body)
    rw [Block.run, Block.Tidy]
    rcases first.bind_state with ⟨leaves, state⟩ | ⟨whole, s', completed, state⟩
    · have detailed : s.scope.reportingMode = .DETAILED := by
        by_contra other
        exact leaves (if_neg other)
      -- The error leaves the body, and with it the section.
      have raises : body.raises host s.scope.reportingMode [] [] ≠ none := by
        rwa [if_pos detailed] at leaves
      rw [state]
      exact iff_of_false (section_not_clean detailed raises) fun tidy => raises (tidy.1 detailed)
    · have same : s'.scope = s.scope := startSection_scope (block_level body) completed
      have clean' : s'.scope.Clean := same ▸ clean
      have quiet : s.scope.reportingMode = .DETAILED → body.raises host s.scope.reportingMode [] [] = none := by
        intro detailed
        rwa [if_pos detailed] at whole
      rw [state, restEnds clean', same, and_iff_right quiet]

theorem dofile_endsWith {file : SpecFile} (clean : s.scope.Clean) :
    EndsWith (dofile host file) s (file.raises host s.scope.reportingMode) := by
  unfold dofile SpecFile.raises
  cases file.chunk with
  | error e => rfl
  | ok block =>
    have ends : EndsWith (block.run host) s _ := block_endsWith block
    rwa [clean.setup, clean.teardown] at ends

theorem dofile_clean_iff {file : SpecFile} (clean : s.scope.Clean) :
    ((dofile host file).outcome s).2.scope.Clean ↔
      ∀ block, file.chunk = .ok block → block.Tidy host s.scope.reportingMode := by
  unfold dofile
  cases file.chunk with
  | error e => exact iff_of_true clean nofun
  | ok block =>
    rw [block_clean_iff clean]
    exact ⟨fun tidy _ same => Except.ok.inj same ▸ tidy, fun tidy => tidy block rfl⟩

theorem failSpecFile_isOk (path : LuaString) (e : ErrorValue) (s : State) :
    ((failSpecFile host path e).outcome s).1.isOk = true ↔ s.scope.reportingMode = .BASIC ∧ host.Handles e := by
  rw [handles_iff]
  cases handled : errorHandler host e with
  | nil | failed => simp [failSpecFile, handled, insertDetails, Except.isOk, Except.toBool]
  | details message stackTrace =>
    by_cases basic : s.reportingMode = .BASIC <;>
      simp [failSpecFile, handled, insertDetails, report, outcome_bind, Except.isOk, Except.toBool, State.scope, basic]

theorem executeSpecFile_missing {file : SpecFile} (missing : file.Missing) (s : State) :
    ((executeSpecFile host file).outcome s).1.isOk = false ∧ ((executeSpecFile host file).outcome s).2 = s := by
  unfold SpecFile.Missing at missing
  unfold executeSpecFile
  rw [outcome_bind, outcome_raiseIf, if_pos missing]
  exact ⟨rfl, rfl⟩

theorem executeSpecFile_found {file : SpecFile} (found : ¬file.Missing) {result : Except ErrorValue Unit} {s t : State}
    (ran : (dofile host file).outcome { s with lastExecutedSpecFile := some file.path } = (result, t)) :
    ((executeSpecFile host file).outcome s).2.scope = t.scope ∧
      (((executeSpecFile host file).outcome s).1.isOk = true ↔
        ∀ e, result = .error e → t.scope.reportingMode = .BASIC ∧ host.Handles e) := by
  unfold SpecFile.Missing at found
  unfold executeSpecFile
  rw [outcome_bind, outcome_raiseIf, if_neg found]
  dsimp only
  rw [outcome_bind, outcome_modify]
  dsimp only
  rw [outcome_bind, outcome_attempt, ran]
  cases result with
  | ok a =>
    by_cases basic : t.reportingMode = .BASIC <;>
      simp [outcome_bind, basic, report, State.scope, Except.isOk, Except.toBool]
  | error e =>
    refine ⟨failSpecFile_scope file.path e t rfl, (failSpecFile_isOk file.path e t).trans ?_⟩
    exact ⟨fun handled _ same => Except.error.inj same ▸ handled, fun handled => handled e rfl⟩

theorem executeSpecFile_clean {file : SpecFile} (clean : s.scope.Clean) :
    (((executeSpecFile host file).outcome s).2.scope.Clean ↔ file.Tidy host s.scope.reportingMode) ∧
      (((executeSpecFile host file).outcome s).1.isOk = true ↔ ¬file.Stops host s.scope.reportingMode) := by
  by_cases missing : file.Missing
  · obtain ⟨raised, same⟩ : ((executeSpecFile host file).outcome s).1.isOk = false ∧
        ((executeSpecFile host file).outcome s).2 = s := executeSpecFile_missing missing s
    rw [raised, same]
    exact ⟨iff_of_true clean (.inl missing), iff_of_false Bool.false_ne_true fun goes => goes (.inl missing)⟩
  · have started : ({ s with lastExecutedSpecFile := some file.path } : State).scope.Clean := clean
    have ends : EndsWith (dofile host file) { s with lastExecutedSpecFile := some file.path }
      (file.raises host s.scope.reportingMode) := dofile_endsWith started
    have tidy : ((dofile host file).outcome { s with lastExecutedSpecFile := some file.path }).2.scope.Clean ↔
      ∀ block, file.chunk = .ok block → block.Tidy host s.scope.reportingMode := dofile_clean_iff started
    cases ran : (dofile host file).outcome { s with lastExecutedSpecFile := some file.path } with
    | mk result t =>
      obtain ⟨scope, isOk⟩ := executeSpecFile_found missing ran
      have mode : t.scope.reportingMode = s.scope.reportingMode :=
        (Scope.Grows.ran (fun _ => dofile_grows file) ran).reportingMode
      rw [ran] at tidy
      rw [EndsWith, ran] at ends
      rw [scope, isOk, tidy, mode, SpecFile.Tidy, SpecFile.Stops, or_iff_right missing, or_iff_right missing]
      refine ⟨Iff.rfl, ?_⟩
      obtain rfl : result = _ := ends
      cases file.raises host s.scope.reportingMode <;> simp

theorem files_clean_iff {files : List SpecFile} (clean : s.scope.Clean) :
    ((forM files (executeSpecFile host)).outcome s).2.scope.Clean ↔ FilesTidy host s.scope.reportingMode files := by
  induction files generalizing s with
  | nil => exact iff_of_true clean trivial
  | cons file rest ih =>
    obtain ⟨tidy, isOk⟩ : (((executeSpecFile host file).outcome s).2.scope.Clean ↔ file.Tidy host s.scope.reportingMode) ∧
        (((executeSpecFile host file).outcome s).1.isOk = true ↔ ¬file.Stops host s.scope.reportingMode) :=
      executeSpecFile_clean clean
    rw [List.forM_cons, outcome_bind, FilesTidy, ← tidy]
    cases ran : (executeSpecFile host file).outcome s with
    | mk result t =>
      rw [ran] at isOk
      cases result with
      | error e =>
        have stops : file.Stops host s.scope.reportingMode := by
          by_contra goes
          exact Bool.noConfusion (isOk.mpr goes)
        -- The run ends with this file, so the others do not matter.
        exact (and_iff_left (.inl stops)).symm
      | ok a =>
        have goes : ¬file.Stops host s.scope.reportingMode := isOk.mp rfl
        have grows : s.scope.Grows t.scope := .ran (fun _ => executeSpecFile_grows file) ran
        rw [or_iff_right goes]
        constructor
        · intro after
          have before : t.scope.Clean :=
            Scope.Grows.clean (Keeps.forM executeSpecFile_grows t (.refl _)) after
          exact ⟨before, grows.reportingMode ▸ (ih before).mp after⟩
        · rintro ⟨before, others⟩
          exact (ih before).mpr (grows.reportingMode.symm ▸ others)

theorem call_clean_iff (call : Call) (clean : s.scope.Clean) : (call.run s).2.scope.Clean ↔ call.Tidy := by
  have clean : ({ s with reportingMode := call.reportingMode } : State).scope.Clean :=
    ⟨clean.setup, clean.teardown, clean.level⟩
  by_cases none : call.specFiles = []
  · rw [Call.run, Call.Tidy, none]
    exact iff_of_true clean trivial
  · have begins : (begun call.host call.specFiles.length { s with reportingMode := call.reportingMode }).scope.Clean := clean
    have tidy : _ ↔ call.Tidy := files_clean_iff begins
    rw [Call.run, startTestRunner_outcome none, outcome_bind, ← tidy]
    cases ran : (forM call.specFiles (executeSpecFile call.host)).outcome
      (begun call.host call.specFiles.length { s with reportingMode := call.reportingMode }) with
    | mk result t =>
      cases result with
      | error e => exact Iff.rfl
      | ok a =>
        have kept : Keeps (fun s => s.scope = t.scope) (endTestRunner call.host) :=
          endTestRunner_keeps (fun _ _ same => same) fun _ _ same => same
        dsimp only
        rw [kept t rfl]

theorem clean_of_call (call : Call) (after : (call.run s).2.scope.Clean) : s.scope.Clean := by
  have grows : Scope.Grows _ (call.run s).2.scope :=
    startTestRunner_grows call.specFiles { s with reportingMode := call.reportingMode } (.refl _)
  obtain ⟨setup, teardown, level⟩ := grows.clean after
  exact ⟨setup, teardown, level⟩

theorem afterCalls_clean_iff (calls : List Call) (s : State) :
    (calls.foldl (fun s call => (call.run s).2) s).scope.Clean ↔ s.scope.Clean ∧ ∀ call ∈ calls, call.Tidy := by
  induction calls generalizing s with
  | nil => simp
  | cons call rest ih =>
    rw [List.foldl_cons, ih, List.forall_mem_cons]
    constructor
    · rintro ⟨clean, tidy⟩
      have before := clean_of_call call clean
      exact ⟨before, (call_clean_iff call before).mp clean, tidy⟩
    · rintro ⟨before, tidy, others⟩
      exact ⟨(call_clean_iff call before).mpr tidy, others⟩

/-! ## Every later run -/

/-- Later calls are like those on a fresh state unless an earlier call has left something behind. -/
theorem laterCalls_alike_iff (calls : List Call) :
    (∀ call : Call, call.Alike (afterCalls calls)) ↔ ∀ call ∈ calls, call.Tidy := by
  rw [alike_iff_clean, afterCalls, afterCalls_clean_iff]
  exact and_iff_right ⟨rfl, rfl, rfl⟩

/-- The body of a section raises an error. -/
def brokenOff : Call :=
  ⟨plainHost, .DETAILED, [⟨ascii "a.lua", none, .ok (.describe (ascii "a") (.raise (.string (ascii "no"))) .done)⟩]⟩

/-- The report of the later call is indented. -/
theorem not_alike_brokenOff : ¬probe.Alike (afterCalls [brokenOff]) :=
  fun alike => absurd (alike.books (by decide)).1 (by decide)

end EvoRuntime.Testing
