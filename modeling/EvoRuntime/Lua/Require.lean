import EvoRuntime.Lua.Strings
import Mathlib.Data.Finset.Card
import Mathlib.Data.Finset.Filter
import Mathlib.Logic.Function.Basic

/-!
# Modules

`require` keeps in `package.loaded` what modules return, and asks the functions in
`package.searchers` for a loader if there is nothing yet. A sentinel marks modules that
are being loaded. `runtime.require` publishes an event first.

Code is a tree of the modules that it requires. It continues with the module, or with
the error if it has caught that. Each branch of the tree ends, so code that runs for ever by
itself is left out.

## Main results

`exec_cached`: an entry that is there stays as it is, and is not loaded again.

`exec_returns`: if only finitely many modules require others, then all code returns.
-/
namespace EvoRuntime.Lua

/-- What a module returns, apart from `nil`. -/
inductive ModuleValue (Value : Type) where
  | boolean (b : Bool)
  | other (value : Value)

inductive Code (Value : Type) where
  | return_ (result : Option (ModuleValue Value))
  | raise (error : LuaString)
  | require (moduleName : LuaString) (next : Except LuaString (ModuleValue Value) → Code Value)

/-- An entry of `package.loaded`. -/
inductive Entry (Value : Type) where
  | sentinel
  | value (value : ModuleValue Value)

/-- What a searcher returns. -/
inductive Found (Value : Type) where
  | loader (code : Code Value)
  | message (text : LuaString)
  | nothing

/-- An event with the name of a module in its payload. -/
structure ModuleEvent where
  event : LuaString
  moduleName : LuaString
  deriving DecidableEq

/-- What a searcher returns, and the events that it publishes. -/
abbrev Searcher (Value : Type) := LuaString → Found Value × List ModuleEvent

structure Package (Value : Type) where
  loaded : LuaString → Option (Entry Value)
  /-- The events that were published. -/
  events : List ModuleEvent := []
  /-- The modules whose loaders were called. -/
  started : List LuaString := []

variable {Value : Type}

def ModuleValue.isTruthy : ModuleValue Value → Bool
  | boolean b => b
  | other _ => true

def Entry.isTruthy : Entry Value → Bool
  | sentinel => true
  | value v => v.isTruthy

namespace Package

def publish (s : Package Value) (events : List ModuleEvent) : Package Value :=
  { s with events := s.events ++ events }

def set (s : Package Value) (moduleName : LuaString) (entry : Entry Value) : Package Value :=
  { s with loaded := Function.update s.loaded moduleName (some entry) }

/-- The loader is called with the sentinel in place. -/
def start (s : Package Value) (moduleName : LuaString) : Package Value :=
  { s.set moduleName .sentinel with started := s.started ++ [moduleName] }

end Package

/-- The searchers are asked one after the other. Their messages make up the error if none
of them has a loader. -/
def search (searchers : List (Searcher Value)) (moduleName messages : LuaString) :
    Except LuaString (Code Value) × List ModuleEvent :=
  match searchers with
  | [] =>
    (.error (ascii "module '" ++ moduleName ++ ascii "' not found:" ++ messages), [])
  | searcher :: searchers =>
    let (found, events) := searcher moduleName
    match found with
    | .loader code => (.ok code, events)
    | .message text =>
      let (result, more) := search searchers moduleName (messages ++ text)
      (result, events ++ more)
    | .nothing =>
      let (result, more) := search searchers moduleName messages
      (result, events ++ more)

/-- Code is run with a function for the modules that it requires. -/
def exec (requireModule : LuaString → Package Value →
      Option (Except LuaString (ModuleValue Value) × Package Value)) :
    Code Value → Package Value →
      Option (Except LuaString (Option (ModuleValue Value)) × Package Value)
  | .return_ result, s => some (.ok result, s)
  | .raise error, s => some (.error error, s)
  | .require moduleName next, s =>
    match requireModule moduleName s with
    | none => none
    | some (result, s) => exec requireModule (next result) s

/-- The entry that makes another search unnecessary. -/
def Package.cached (s : Package Value) (moduleName : LuaString) : Option (Entry Value) :=
  (s.loaded moduleName).filter Entry.isTruthy

theorem Package.cached_set (s : Package Value) {moduleName other : LuaString}
    (differ : other ≠ moduleName) (entry : Entry Value) :
    (s.set moduleName entry).cached other = s.cached other :=
  congrArg (Option.filter Entry.isTruthy) (Function.update_of_ne differ _ _)

/-- The end of loading a module: `true` stands for a module that returns nothing. -/
def finishLoading (moduleName : LuaString) :
    Except LuaString (Option (ModuleValue Value)) × Package Value →
      Except LuaString (ModuleValue Value) × Package Value
  -- after an error the sentinel stays
  | (.error error, s) => (.error error, s)
  | (.ok result, s) =>
    let value := result.getD (.boolean true)
    (.ok value, s.set moduleName (.value value))

/-- `runtime.require`, with at most `fuel` modules that are loaded inside of each other. -/
def requireAt (searchers : List (Searcher Value)) : (fuel : Nat) → LuaString → Package Value →
    Option (Except LuaString (ModuleValue Value) × Package Value)
  | 0, _, _ => none
  | fuel + 1, moduleName, s =>
    let s := s.publish [⟨ascii "MODULE_LOAD_REQUIRED", moduleName⟩]
    match s.cached moduleName with
    | some .sentinel =>
      some (.error (ascii "loop or previous error loading module '" ++ moduleName ++ ascii "'"), s)
    | some (.value value) => some (.ok value, s)
    | none =>
      match search searchers moduleName [] with
      | (.error error, events) => some (.error error, s.publish events)
      | (.ok loader, events) =>
        (exec (requireAt searchers fuel) loader ((s.publish events).start moduleName)).map
          (finishLoading moduleName)

/-! ### More fuel -/

section Fuel

variable {f g : LuaString → Package Value →
  Option (Except LuaString (ModuleValue Value) × Package Value)}

/-- Functions that return more make code return more. -/
theorem exec_mono (more : ∀ moduleName s result, f moduleName s = some result →
      g moduleName s = some result) {code : Code Value} {s : Package Value}
    {result : Except LuaString (Option (ModuleValue Value)) × Package Value}
    (ran : exec f code s = some result) : exec g code s = some result := by
  induction code generalizing s with
  | return_ value => exact ran
  | raise error => exact ran
  | require moduleName next ih =>
    rw [exec] at ran ⊢
    cases required : f moduleName s with
    | none =>
      rw [required] at ran
      cases ran
    | some answer =>
      rw [required] at ran
      rw [more moduleName s answer required]
      exact ih answer.1 ran

end Fuel

variable {searchers : List (Searcher Value)}

theorem requireAt_succ {fuel : Nat} {moduleName : LuaString} {s : Package Value}
    {result : Except LuaString (ModuleValue Value) × Package Value}
    (ran : requireAt searchers fuel moduleName s = some result) :
    requireAt searchers (fuel + 1) moduleName s = some result := by
  induction fuel generalizing moduleName s result with
  | zero => cases ran
  | succ fuel ih =>
    rw [requireAt] at ran ⊢
    split at ran
    · exact ran
    · exact ran
    · split at ran
      · exact ran
      · obtain ⟨answer, executed, finished⟩ := Option.map_eq_some_iff.mp ran
        rw [exec_mono (fun _ _ _ => ih) executed]
        exact congrArg some finished

theorem requireAt_le {fuel more : Nat} (enough : fuel ≤ more) {moduleName : LuaString}
    {s : Package Value} {result : Except LuaString (ModuleValue Value) × Package Value}
    (ran : requireAt searchers fuel moduleName s = some result) :
    requireAt searchers more moduleName s = some result := by
  induction enough with
  | refl => exact ran
  | step _ ih => exact requireAt_succ ih

theorem exec_le {fuel more : Nat} (enough : fuel ≤ more) {code : Code Value} {s : Package Value}
    {result : Except LuaString (Option (ModuleValue Value)) × Package Value}
    (ran : exec (requireAt searchers fuel) code s = some result) :
    exec (requireAt searchers more) code s = some result :=
  exec_mono (fun _ _ _ => requireAt_le enough) ran

/-! ### What stays -/

/-- How a function for modules changes the state, code changes it that is run with it. -/
theorem exec_preserves {f : LuaString → Package Value →
      Option (Except LuaString (ModuleValue Value) × Package Value)}
    {R : Package Value → Package Value → Prop} (refl : ∀ s, R s s)
    (trans : ∀ {s s' s''}, R s s' → R s' s'' → R s s'')
    (each : ∀ moduleName s result, f moduleName s = some result → R s result.2)
    {code : Code Value} {s : Package Value}
    {result : Except LuaString (Option (ModuleValue Value)) × Package Value}
    (ran : exec f code s = some result) : R s result.2 := by
  induction code generalizing s with
  | return_ value =>
    cases ran
    exact refl _
  | raise error =>
    cases ran
    exact refl _
  | require moduleName next ih =>
    rw [exec] at ran
    cases required : f moduleName s with
    | none =>
      rw [required] at ran
      cases ran
    | some answer =>
      rw [required] at ran
      exact trans (each moduleName s answer required) (ih answer.1 ran)

/-- Entries that are there are kept, and their modules are not loaded again. -/
def Keeps (s s' : Package Value) : Prop :=
  ∀ moduleName entry, s.cached moduleName = some entry →
    s'.cached moduleName = some entry ∧ s'.started.count moduleName = s.started.count moduleName

namespace Keeps

theorem refl (s : Package Value) : Keeps s s := fun _ _ found => ⟨found, rfl⟩

theorem trans {s s' s'' : Package Value} (first : Keeps s s') (second : Keeps s' s'') :
    Keeps s s'' := fun moduleName entry found => by
  obtain ⟨kept, count⟩ := first moduleName entry found
  obtain ⟨kept', count'⟩ := second moduleName entry kept
  exact ⟨kept', count'.trans count⟩

theorem publish (s : Package Value) (events : List ModuleEvent) : Keeps s (s.publish events) :=
  fun _ _ found => ⟨found, rfl⟩

theorem set {s : Package Value} {moduleName : LuaString} (missing : s.cached moduleName = none)
    (entry : Entry Value) : Keeps s (s.set moduleName entry) := fun other kept found => by
  have differ : other ≠ moduleName := by
    rintro rfl
    exact Option.some_ne_none kept (found.symm.trans missing)
  exact ⟨(s.cached_set differ entry).trans found, rfl⟩

theorem start {s : Package Value} {moduleName : LuaString} (missing : s.cached moduleName = none) :
    Keeps s (s.start moduleName) := fun other kept found => by
  have differ : other ≠ moduleName := by
    rintro rfl
    exact Option.some_ne_none kept (found.symm.trans missing)
  refine ⟨(set missing .sentinel other kept found).1, ?_⟩
  rw [Package.start, List.count_append, List.count_singleton, if_neg (by simpa using differ.symm),
    Nat.add_zero]

end Keeps

theorem requireAt_keeps {fuel : Nat} {moduleName : LuaString} {s : Package Value}
    {result : Except LuaString (ModuleValue Value) × Package Value}
    (ran : requireAt searchers fuel moduleName s = some result) : Keeps s result.2 := by
  induction fuel generalizing moduleName s result with
  | zero => cases ran
  | succ fuel ih =>
    rw [requireAt] at ran
    split at ran
    · cases ran
      exact Keeps.publish s _
    · cases ran
      exact Keeps.publish s _
    next missing =>
      split at ran
      · cases ran
        exact (Keeps.publish s _).trans (Keeps.publish _ _)
      next loader events _ =>
        obtain ⟨answer, executed, finished⟩ := Option.map_eq_some_iff.mp ran
        have loaded := exec_preserves Keeps.refl Keeps.trans (fun _ _ _ => ih) executed
        subst finished
        -- the entries of other modules survive the loading
        intro other kept found
        have differ : other ≠ moduleName := by
          rintro rfl
          exact Option.some_ne_none kept (found.symm.trans missing)
        have started : ((s.publish [⟨ascii "MODULE_LOAD_REQUIRED", moduleName⟩]).publish
            events).cached moduleName = none := missing
        obtain ⟨entry, count⟩ := ((Keeps.start started).trans loaded) other kept found
        obtain ⟨result, after⟩ := answer
        cases result with
        | error error => exact ⟨entry, count⟩
        | ok value => exact ⟨(after.cached_set differ _).trans entry, count⟩

/-- A module that is there, or that is being loaded, stays and is not loaded again,
whatever code is run. -/
theorem exec_cached {fuel : Nat} {code : Code Value} {s : Package Value}
    {result : Except LuaString (Option (ModuleValue Value)) × Package Value}
    (ran : exec (requireAt searchers fuel) code s = some result) : Keeps s result.2 :=
  exec_preserves Keeps.refl Keeps.trans (fun _ _ _ => requireAt_keeps) ran

/-! ### Returning -/

/-- Code that requires nothing returns with any function for modules. -/
def Code.IsPlain : Code Value → Prop
  | .require _ _ => False
  | _ => True

def Entry.isSentinel : Entry Value → Bool
  | sentinel => true
  | value _ => false

/-- Whether the module is being loaded, or an error has ended that. -/
def Package.isMarked (s : Package Value) (moduleName : LuaString) : Bool :=
  (s.loaded moduleName).any Entry.isSentinel

theorem Package.isMarked_set (s : Package Value) {moduleName other : LuaString}
    (differ : other ≠ moduleName) (entry : Entry Value) :
    (s.set moduleName entry).isMarked other = s.isMarked other :=
  congrArg (Option.any Entry.isSentinel) (Function.update_of_ne differ _ _)

theorem Package.isMarked_start (s : Package Value) (moduleName : LuaString) :
    (s.start moduleName).isMarked moduleName = true := by
  have found : (s.start moduleName).loaded moduleName = some .sentinel := Function.update_self _ _ _
  rw [Package.isMarked, found]
  rfl

/-- A module that is not cached is not being loaded. -/
theorem not_isMarked {s : Package Value} {moduleName : LuaString}
    (missing : s.cached moduleName = none) : ¬s.isMarked moduleName := by
  intro marked
  rw [Package.isMarked] at marked
  rw [Package.cached] at missing
  cases found : s.loaded moduleName with
  | none =>
    rw [found] at marked
    exact Bool.false_ne_true marked
  | some entry =>
    rw [found] at marked missing
    cases entry with
    | sentinel => exact Option.some_ne_none _ missing
    | value v => exact Bool.false_ne_true marked

/-- The modules that are not being loaded, of those that may require others. -/
def unmarked (modules : Finset LuaString) (s : Package Value) : Finset LuaString :=
  modules.filter fun moduleName => ¬s.isMarked moduleName

/-- Sentinels stay in place. -/
def MarksKept (s s' : Package Value) : Prop :=
  ∀ moduleName, s.isMarked moduleName → s'.isMarked moduleName

theorem MarksKept.trans {s s' s'' : Package Value} (first : MarksKept s s')
    (second : MarksKept s' s'') : MarksKept s s'' := fun moduleName marked =>
  second moduleName (first moduleName marked)

theorem MarksKept.card_le {modules : Finset LuaString} {s s' : Package Value}
    (kept : MarksKept s s') : (unmarked modules s').card ≤ (unmarked modules s).card := by
  refine Finset.card_le_card fun moduleName member => ?_
  rw [unmarked, Finset.mem_filter] at member ⊢
  exact ⟨member.1, mt (kept moduleName) member.2⟩

/-- Starting adds a mark. -/
theorem marksKept_start (s : Package Value) (moduleName : LuaString) :
    MarksKept s (s.start moduleName) := fun other marked => by
  by_cases same : other = moduleName
  · rw [same]
    exact s.isMarked_start moduleName
  · exact (s.isMarked_set same .sentinel).trans marked

/-- A mark more on one of the modules is one module less. -/
theorem card_start {modules : Finset LuaString} {s : Package Value} {moduleName : LuaString}
    (member : moduleName ∈ modules) (missing : s.cached moduleName = none) :
    (unmarked modules (s.start moduleName)).card < (unmarked modules s).card := by
  refine Finset.card_lt_card ⟨fun other found => ?_, fun contained => ?_⟩
  · rw [unmarked, Finset.mem_filter] at found ⊢
    exact ⟨found.1, mt (marksKept_start s moduleName other) found.2⟩
  · have left := contained (Finset.mem_filter.mpr ⟨member, not_isMarked missing⟩)
    exact (Finset.mem_filter.mp left).2 (s.isMarked_start moduleName)

/-- Code returns if the modules do that it requires. -/
theorem exec_returns_of {modules : Finset LuaString} {fuel : Nat}
    (each : ∀ (moduleName : LuaString) (s : Package Value), (unmarked modules s).card < fuel →
      ∃ result, requireAt searchers fuel moduleName s = some result ∧ MarksKept s result.2)
    (code : Code Value) (s : Package Value) (enough : (unmarked modules s).card < fuel) :
    ∃ result, exec (requireAt searchers fuel) code s = some result ∧ MarksKept s result.2 := by
  induction code generalizing s with
  | return_ value => exact ⟨_, rfl, fun _ marked => marked⟩
  | raise error => exact ⟨_, rfl, fun _ marked => marked⟩
  | require moduleName next ih =>
    obtain ⟨answer, required, kept⟩ := each moduleName s enough
    obtain ⟨result, ran, kept'⟩ := ih answer.1 answer.2 (Nat.lt_of_le_of_lt kept.card_le enough)
    exact ⟨result, by rw [exec, required]; exact ran, kept.trans kept'⟩

/-- A module returns, if the loaders of all but finitely many modules are plain. -/
theorem requireAt_returns {modules : Finset LuaString}
    (others : ∀ moduleName ∉ modules, ∀ loader events,
      search searchers moduleName [] = (.ok loader, events) → loader.IsPlain)
    (fuel : Nat) (moduleName : LuaString) (s : Package Value)
    (enough : (unmarked modules s).card < fuel) :
    ∃ result, requireAt searchers fuel moduleName s = some result ∧ MarksKept s result.2 := by
  induction fuel generalizing moduleName s with
  | zero => exact absurd enough (Nat.not_lt_zero _)
  | succ fuel ih =>
    rw [requireAt]
    split
    · exact ⟨_, rfl, fun _ marked => marked⟩
    · exact ⟨_, rfl, fun _ marked => marked⟩
    next missing =>
      split
      · exact ⟨_, rfl, fun _ marked => marked⟩
      next loader events found =>
        -- the loader itself returns, with the sentinel in place
        have executed : ∃ result, exec (requireAt searchers fuel) loader
            (((s.publish [⟨ascii "MODULE_LOAD_REQUIRED", moduleName⟩]).publish events).start
              moduleName) = some result ∧
            MarksKept (((s.publish [⟨ascii "MODULE_LOAD_REQUIRED", moduleName⟩]).publish
              events).start moduleName) result.2 := by
          by_cases member : moduleName ∈ modules
          · have fewer := card_start member (missing : s.cached moduleName = none)
            exact exec_returns_of ih loader _
              (Nat.lt_of_lt_of_le fewer (Nat.le_of_lt_succ enough))
          · have plain := others moduleName member loader events found
            cases loader with
            | return_ value => exact ⟨_, rfl, fun _ marked => marked⟩
            | raise error => exact ⟨_, rfl, fun _ marked => marked⟩
            | require other next => exact plain.elim
        obtain ⟨⟨result, after⟩, ran, kept⟩ := executed
        refine ⟨_, by rw [ran]; rfl, fun other marked => ?_⟩
        -- the module itself was not marked before
        have differ : other ≠ moduleName := fun same =>
          not_isMarked (missing : s.cached moduleName = none) (same ▸ marked)
        have still : after.isMarked other := kept other (marksKept_start _ moduleName other marked)
        cases result with
        | error error => exact still
        | ok value => exact (after.isMarked_set differ _).trans still

/-- All code returns, with as much fuel as there are modules that may require others. -/
theorem exec_returns {modules : Finset LuaString}
    (others : ∀ moduleName ∉ modules, ∀ loader events,
      search searchers moduleName [] = (.ok loader, events) → loader.IsPlain)
    (code : Code Value) (s : Package Value) :
    ∃ result, exec (requireAt searchers (modules.card + 1)) code s = some result := by
  have enough : (unmarked modules s).card < modules.card + 1 :=
    Nat.lt_succ_of_le (Finset.card_filter_le _ _)
  obtain ⟨result, ran, -⟩ := exec_returns_of (requireAt_returns others _) code s enough
  exact ⟨result, ran⟩

/-! ### Searchers that are not asked -/

/-- Only what is found matters. -/
theorem requireAt_congr {searchers' : List (Searcher Value)}
    (same : ∀ moduleName, search searchers moduleName [] = search searchers' moduleName [])
    (fuel : Nat) : requireAt searchers fuel = requireAt searchers' fuel := by
  induction fuel with
  | zero => rfl
  | succ fuel ih =>
    funext moduleName s
    rw [requireAt, requireAt, ih, same]

/-- Nothing was published but that modules are required. -/
def PublishesRequired (s s' : Package Value) : Prop :=
  ∃ moduleNames : List LuaString,
    s'.events = s.events ++ moduleNames.map (⟨ascii "MODULE_LOAD_REQUIRED", ·⟩)

theorem PublishesRequired.refl (s : Package Value) : PublishesRequired s s :=
  ⟨[], (List.append_nil _).symm⟩

theorem PublishesRequired.trans {s s' s'' : Package Value} (first : PublishesRequired s s')
    (second : PublishesRequired s' s'') : PublishesRequired s s'' := by
  obtain ⟨moduleNames, events⟩ := first
  obtain ⟨more, events'⟩ := second
  exact ⟨moduleNames ++ more, by rw [events', events, List.map_append, List.append_assoc]⟩

/-- If the search publishes nothing, then only `runtime.require` does. -/
theorem requireAt_publishes (silent : ∀ moduleName, (search searchers moduleName []).2 = [])
    {fuel : Nat} {moduleName : LuaString} {s : Package Value}
    {result : Except LuaString (ModuleValue Value) × Package Value}
    (ran : requireAt searchers fuel moduleName s = some result) :
    PublishesRequired s result.2 := by
  induction fuel generalizing moduleName s result with
  | zero => cases ran
  | succ fuel ih =>
    have required : PublishesRequired s
        (s.publish [⟨ascii "MODULE_LOAD_REQUIRED", moduleName⟩]) := ⟨[moduleName], rfl⟩
    rw [requireAt] at ran
    split at ran
    · cases ran
      exact required
    · cases ran
      exact required
    · have quiet := silent moduleName
      split at ran
      next error events found =>
        cases ran
        rw [found] at quiet
        subst quiet
        exact required.trans ⟨[], rfl⟩
      next loader events found =>
        obtain ⟨answer, executed, finished⟩ := Option.map_eq_some_iff.mp ran
        rw [found] at quiet
        subst quiet
        have loading := exec_preserves PublishesRequired.refl PublishesRequired.trans
          (fun _ _ _ => ih) executed
        have started : PublishesRequired (s.publish [⟨ascii "MODULE_LOAD_REQUIRED", moduleName⟩])
            (((s.publish [⟨ascii "MODULE_LOAD_REQUIRED", moduleName⟩]).publish []).start
              moduleName) := ⟨[], rfl⟩
        have loaded := (required.trans started).trans loading
        subst finished
        obtain ⟨result, after⟩ := answer
        cases result with
        | error error => exact loaded
        | ok value => exact loaded

end EvoRuntime.Lua
