import EvoRuntime.Repl.StackRuns

/-!
# The program and its sessions

## Main result

`dotty_session`: `dotty` comes back if and only if there is a session for its input, and then it
leaves the same world and an empty stack. It comes back whenever no global variable raises an
error on reading.

## Proof strategy

`completeLine` and `dottyLoop` are followed by induction on the lines in the one direction
(`_of_group`, `_of_session`), and on the fuel in the other (`completed_of_run`,
`session_of_dottyLoop`). Each line takes something from the input, and so the fuel is enough.
-/
namespace EvoRuntime.Repl

open Lua

variable {World V : Type} (lua : Interpreter World V)

/-! ## Reading a chunk -/

section Reading

variable {lua} {world world' : World} {stdin rest : LuaString} {lines more : List LuaString} {fuel : Nat}

/-- More lines are read until there is a chunk. -/
theorem completeLine_of_group (nonempty : lines ≠ [])
    (taken : Taken lua.LUA_MAXINPUT stdin more rest) (pending : Pending lua (lines ++ more).dropLast)
    (complete : ¬Incomplete lua (chunk (lines ++ more)))
    (prompted : morePrompts lua more.length world = some world') (enough : more.length < fuel) :
    (completeLine lua fuel).run { stack := [lua.string (chunk lines)], world, stdin } =
      some (some (lua.loadbuffer (chunk (lines ++ more))).status,
        { stack := [(lua.loadbuffer (chunk (lines ++ more))).value lua], world := world', stdin := rest }) := by
  obtain ⟨fuel, rfl⟩ := Nat.exists_eq_succ_of_ne_zero (Nat.ne_of_gt (Nat.zero_lt_of_lt enough))
  induction more generalizing lines world stdin fuel with
  | nil =>
    obtain rfl := taken
    obtain rfl := Option.some.inj prompted
    rw [List.append_nil] at complete ⊢
    exact run_completeLine_complete lua world rest fuel complete
  | cons buf more ih =>
    have some_ := taken.nonempty
    obtain ⟨-, rfl, others⟩ := taken
    obtain ⟨between, shown, prompted⟩ := Option.bind_eq_some_iff.mp prompted
    have waiting : Incomplete lua (chunk lines) := by
      refine pending lines ?_ nonempty
      rw [List.dropLast_append_of_ne_nil (List.cons_ne_nil _ _)]
      exact List.prefix_append _ _
    rw [List.append_cons] at pending complete ⊢
    rw [run_completeLine_more lua world stdin fuel waiting some_, shown, Option.bind_some,
      ← chunk_concat nonempty]
    obtain ⟨fuel, rfl⟩ : ∃ less, fuel = less + 1 :=
      Nat.exists_eq_succ_of_ne_zero (by rw [List.length_cons] at enough; omega)
    exact ih (by simp) others pending complete prompted fuel
      (by rw [List.length_cons] at enough; omega)

/-- The input ends before there is a chunk. -/
theorem completeLine_of_pending (nonempty : lines ≠ []) (taken : Taken lua.LUA_MAXINPUT stdin more [])
    (pending : Pending lua (lines ++ more))
    (prompted : morePrompts lua (more.length + 1) world = some world') (enough : more.length < fuel) :
    (completeLine lua fuel).run { stack := [lua.string (chunk lines)], world, stdin } =
      some (none, { stack := [lua.string (chunk (lines ++ more))], world := world', stdin := [] }) := by
  obtain ⟨fuel, rfl⟩ := Nat.exists_eq_succ_of_ne_zero (Nat.ne_of_gt (Nat.zero_lt_of_lt enough))
  induction more generalizing lines world stdin fuel with
  | nil =>
    obtain rfl := taken
    obtain ⟨between, shown, same⟩ := Option.bind_eq_some_iff.mp prompted
    obtain rfl := Option.some.inj same
    rw [List.append_nil] at pending ⊢
    rw [run_completeLine_ended lua world fuel (pending lines List.prefix_rfl nonempty), shown]
    rfl
  | cons buf more ih =>
    have some_ := taken.nonempty
    obtain ⟨-, rfl, others⟩ := taken
    obtain ⟨between, shown, prompted⟩ := Option.bind_eq_some_iff.mp prompted
    have waiting := pending lines (List.prefix_append _ _) nonempty
    rw [List.append_cons] at pending ⊢
    rw [run_completeLine_more lua world stdin fuel waiting some_, shown, Option.bind_some,
      ← chunk_concat nonempty]
    obtain ⟨fuel, rfl⟩ : ∃ less, fuel = less + 1 :=
      Nat.exists_eq_succ_of_ne_zero (by rw [List.length_cons] at enough; omega)
    exact ih (by simp) others pending prompted fuel (by rw [List.length_cons] at enough; omega)

/-- What the loop of `loadline` comes back with. -/
inductive Completed (lua : Interpreter World V) (lines : List LuaString) (world : World)
    (stdin : LuaString) : Option Status → State World V → Prop
  | loaded (more : List LuaString) {world' : World} {rest : LuaString}
      (taken : Taken lua.LUA_MAXINPUT stdin more rest) (pending : Pending lua (lines ++ more).dropLast)
      (complete : ¬Incomplete lua (chunk (lines ++ more)))
      (prompted : morePrompts lua more.length world = some world') :
      Completed lua lines world stdin (some (lua.loadbuffer (chunk (lines ++ more))).status)
        { stack := [(lua.loadbuffer (chunk (lines ++ more))).value lua], world := world', stdin := rest }
  | ended (more : List LuaString) {world' : World} {stack : List V}
      (taken : Taken lua.LUA_MAXINPUT stdin more []) (pending : Pending lua (lines ++ more))
      (prompted : morePrompts lua (more.length + 1) world = some world') :
      Completed lua lines world stdin none { stack, world := world', stdin := [] }

/-- The induction is on the fuel, and `Pending` is what holds of the lines read so far. -/
theorem completed_of_run {status : Option Status} {after : State World V} (nonempty : lines ≠ [])
    (pending : Pending lua lines.dropLast)
    (ran : (completeLine lua fuel).run { stack := [lua.string (chunk lines)], world, stdin } =
      some (status, after)) : Completed lua lines world stdin status after := by
  induction fuel generalizing lines world stdin with
  | zero => cases ran
  | succ fuel ih =>
    by_cases waiting : Incomplete lua (chunk lines)
    · have waited : Pending lua lines := by
        obtain ⟨front, last, rfl⟩ := (List.eq_nil_or_concat' lines).resolve_left nonempty
        rw [List.dropLast_concat] at pending
        exact pending_concat.mpr ⟨pending, waiting⟩
      by_cases none_ : stdin = []
      · subst none_
        rw [run_completeLine_ended lua world fuel waiting] at ran
        obtain ⟨world', shown, same⟩ := Option.map_eq_some_iff.mp ran
        cases same
        refine .ended [] rfl ((List.append_nil lines).symm ▸ waited) ?_
        rw [List.length_nil, Nat.zero_add, morePrompts, shown]
        rfl
      · rw [run_completeLine_more lua world stdin fuel waiting none_] at ran
        obtain ⟨between, shown, later⟩ := Option.bind_eq_some_iff.mp ran
        rw [← chunk_concat nonempty] at later
        have buffer : takeLine lua.LUA_MAXINPUT stdin ≠ [] := mt (takeLine_eq_nil_iff lua stdin).mp none_
        rcases ih (by simp) (by rwa [List.dropLast_concat]) later with
          ⟨more, taken, pending', complete, prompted⟩ | ⟨more, taken, pending', prompted⟩
        · rw [← List.append_cons] at pending' complete ⊢
          exact .loaded (_ :: more) ⟨buffer, rfl, taken⟩ pending' complete
            (by rw [List.length_cons, morePrompts, shown]; exact prompted)
        · rw [← List.append_cons] at pending'
          exact .ended (_ :: more) ⟨buffer, rfl, taken⟩ pending'
            (by rw [List.length_cons, morePrompts, shown]; exact prompted)
    · rw [run_completeLine_complete lua world stdin fuel waiting] at ran
      cases ran
      have done : Completed lua lines world stdin
          (some (lua.loadbuffer (chunk (lines ++ []))).status)
          { stack := [(lua.loadbuffer (chunk (lines ++ []))).value lua], world, stdin } :=
        .loaded [] rfl (by rwa [List.append_nil]) (by rwa [List.append_nil]) rfl
      rwa [List.append_nil] at done

theorem loadline_of_group (stack : List V) (taken : Taken lua.LUA_MAXINPUT stdin lines rest)
    (group : Group lua lines) (prompted : prompts lua lines.length world = some world') :
    (loadline lua).run { stack, world, stdin } =
      some (some (lua.loadbuffer (chunk lines)).status,
        { stack := [(lua.loadbuffer (chunk lines)).value lua], world := world', stdin := rest }) := by
  obtain ⟨buf, more, rfl⟩ := List.exists_cons_of_ne_nil group.nonempty
  have some_ := taken.nonempty
  obtain ⟨-, rfl, others⟩ := taken
  obtain ⟨between, shown, prompted⟩ := Option.bind_eq_some_iff.mp prompted
  have enough := others.length_le
  rw [run_loadline_more lua stack world _ some_, shown, Option.bind_some]
  exact completeLine_of_group (List.cons_ne_nil _ _) others group.pending group.complete prompted
    (by omega)

theorem loadline_of_pending (stack : List V) (taken : Taken lua.LUA_MAXINPUT stdin lines [])
    (pending : Pending lua lines) (prompted : prompts lua (lines.length + 1) world = some world') :
    ∃ stack', (loadline lua).run { stack, world, stdin } =
      some (none, { stack := stack', world := world', stdin := [] }) := by
  obtain ⟨between, shown, prompted⟩ := Option.bind_eq_some_iff.mp prompted
  cases lines with
  | nil =>
    obtain rfl := taken
    obtain rfl := Option.some.inj prompted
    exact ⟨[], by rw [run_loadline_ended, shown]; rfl⟩
  | cons buf more =>
    have some_ := taken.nonempty
    obtain ⟨-, rfl, others⟩ := taken
    have enough := others.length_le
    refine ⟨[lua.string (chunk ([takeLine lua.LUA_MAXINPUT stdin] ++ more))], ?_⟩
    rw [run_loadline_more lua stack world _ some_, shown, Option.bind_some]
    exact completeLine_of_pending (List.cons_ne_nil _ _) others pending prompted (by omega)

/-- There is a chunk, or the input has ended. -/
theorem loadline_cases {status : Option Status} {before after : State World V}
    (ran : (loadline lua).run before = some (status, after)) :
    (∃ lines, status = some (lua.loadbuffer (chunk lines)).status ∧
      after.stack = [(lua.loadbuffer (chunk lines)).value lua] ∧ Group lua lines ∧
      Taken lua.LUA_MAXINPUT before.stdin lines after.stdin ∧
      prompts lua lines.length before.world = some after.world) ∨
    ∃ lines, status = none ∧ after.stdin = [] ∧ Pending lua lines ∧
      Taken lua.LUA_MAXINPUT before.stdin lines [] ∧
      prompts lua (lines.length + 1) before.world = some after.world := by
  obtain ⟨stack, world, stdin⟩ := before
  by_cases none_ : stdin = []
  · subst none_
    rw [run_loadline_ended] at ran
    obtain ⟨world', shown, same⟩ := Option.map_eq_some_iff.mp ran
    cases same
    refine Or.inr ⟨[], rfl, rfl, pending_nil, rfl, ?_⟩
    rw [List.length_nil, Nat.zero_add, prompts, shown]
    rfl
  · rw [run_loadline_more lua stack world _ none_] at ran
    obtain ⟨between, shown, later⟩ := Option.bind_eq_some_iff.mp ran
    have buffer : takeLine lua.LUA_MAXINPUT stdin ≠ [] := mt (takeLine_eq_nil_iff lua stdin).mp none_
    rcases completed_of_run (List.cons_ne_nil _ _) pending_nil later with
      ⟨more, taken, pending, complete, prompted⟩ | ⟨more, taken, pending, prompted⟩
    · refine Or.inl ⟨_ :: more, rfl, rfl, ⟨List.cons_ne_nil _ _, pending, complete⟩,
        ⟨buffer, rfl, taken⟩, ?_⟩
      rw [List.length_cons, prompts, shown]
      exact prompted
    · refine Or.inr ⟨_ :: more, rfl, rfl, pending, ⟨buffer, rfl, taken⟩, ?_⟩
      rw [List.length_cons, prompts, shown]
      exact prompted

end Reading

/-! ## Whole sessions -/

section Whole

variable {lua} {world final : World} {stdin : LuaString} {fuel : Nat}

theorem printed_length {values : List V} {world' : World} {rest : LuaString}
    (answered : printed lua world stdin values = some (world', rest)) : rest.length ≤ stdin.length := by
  obtain ⟨found, global⟩ : ∃ found, lua.getglobal world (ascii "print") = found := ⟨_, rfl⟩
  rw [printed, global] at answered
  rcases found with ⟨error | print, between⟩
  · cases answered
  · obtain ⟨called, outcome⟩ : ∃ called, lua.call between print values = called := ⟨_, rfl⟩
    dsimp only at answered
    rw [outcome] at answered
    rcases called with ⟨error | results, last, read⟩
    all_goals
      cases answered
      rw [List.length_drop]
      exact Nat.sub_le _ _

/-- The input does not grow. -/
theorem answer_length {world' : World} {rest : LuaString} {loaded : Loaded V}
    (answered : answer lua world stdin loaded = some (world', rest)) : rest.length ≤ stdin.length := by
  have shorter (n : Nat) : (stdin.drop n).length ≤ stdin.length := by
    rw [List.length_drop]
    exact Nat.sub_le _ _
  cases loaded with
  | syntaxError message =>
    cases answered
    exact le_rfl
  | err message =>
    cases answered
    exact le_rfl
  | ok function =>
    obtain ⟨called, outcome⟩ : ∃ called, lua.call world function [] = called := ⟨_, rfl⟩
    rw [answer, outcome] at answered
    rcases called with ⟨error | results, between, read⟩
    · cases answered
      exact shorter read
    · cases results with
      | nil =>
        cases answered
        exact shorter read
      | cons first others => exact (printed_length answered).trans (shorter read)

theorem dottyLoop_of_session (session : Session lua world stdin final) (stack : List V)
    (enough : stdin.length < fuel) :
    ∃ stack' world', (dottyLoop lua fuel).run { stack, world, stdin } =
      some ((), { stack := stack', world := world', stdin := [] }) ∧
      final = lua.fputs world' .stdout (cString [newline]) := by
  induction session generalizing stack fuel with
  | ended taken pending prompted =>
    obtain ⟨fuel, rfl⟩ := Nat.exists_eq_succ_of_ne_zero (Nat.ne_of_gt (Nat.zero_lt_of_lt enough))
    obtain ⟨stack', ran⟩ := loadline_of_pending stack taken pending prompted
    refine ⟨stack', _, ?_, rfl⟩
    rw [dottyLoop, run_bind, ran]
    rfl
  | round taken group prompted answered more ih =>
    obtain ⟨fuel, rfl⟩ := Nat.exists_eq_succ_of_ne_zero (Nat.ne_of_gt (Nat.zero_lt_of_lt enough))
    have ran := loadline_of_group stack taken group prompted
    obtain ⟨leftover, evaluated⟩ := run_evaluate lua _ _ (lua.loadbuffer (chunk _))
    rw [answered] at evaluated
    have shorter := taken.length_le
    have some_ := List.length_pos_iff.mpr group.nonempty
    have less := answer_length answered
    obtain ⟨stack', world', later, same⟩ := ih leftover (show _ < fuel by omega)
    refine ⟨stack', world', ?_, same⟩
    rw [dottyLoop, run_bind, ran]
    dsimp only [Option.bind_some]
    rw [run_bind, evaluated]
    exact later

theorem session_of_dottyLoop {before after : State World V}
    (ran : (dottyLoop lua fuel).run before = some ((), after)) :
    after.stdin = [] ∧
      Session lua before.world before.stdin (lua.fputs after.world .stdout (cString [newline])) := by
  induction fuel generalizing before with
  | zero => cases ran
  | succ fuel ih =>
    rw [dottyLoop, run_bind] at ran
    obtain ⟨⟨status, between⟩, read, ran⟩ := Option.bind_eq_some_iff.mp ran
    rcases loadline_cases read with
      ⟨lines, rfl, stack, group, taken, prompted⟩ | ⟨lines, rfl, ended, pending, taken, prompted⟩
    · dsimp only at ran
      obtain ⟨stack', world', rest⟩ := between
      dsimp only at stack taken prompted ran
      subst stack
      obtain ⟨leftover, evaluated⟩ := run_evaluate lua world' rest (lua.loadbuffer (chunk lines))
      rw [run_bind, evaluated] at ran
      cases answered : answer lua world' rest (lua.loadbuffer (chunk lines)) with
      | none =>
        rw [answered] at ran
        cases ran
      | some reply =>
        rw [answered] at ran
        obtain ⟨ended, session⟩ := ih ran
        exact ⟨ended, .round taken group prompted answered session⟩
    · cases ran
      exact ⟨ended, .ended taken pending prompted⟩

/-- No global variable raises an error on reading. -/
def Readable (lua : Interpreter World V) : Prop :=
  ∀ world name, ∃ value world', lua.getglobal world name = (.ok value, world')

theorem Readable.prompt (readable : Readable lua) (firstline : Bool) (world : World) :
    ∃ world', prompt lua firstline world = some world' := by
  obtain ⟨value, world', found⟩ := readable world (if firstline then ascii "_PROMPT" else ascii "_PROMPT2")
  exact ⟨_, by rw [Repl.prompt, found]⟩

theorem Readable.printed (readable : Readable lua) (world : World) (stdin : LuaString)
    (values : List V) : ∃ reply, printed lua world stdin values = some reply := by
  obtain ⟨print, between, found⟩ := readable world (ascii "print")
  rw [Repl.printed, found]
  dsimp only
  rcases lua.call between print values with ⟨error | results, world', read⟩
  · exact ⟨_, rfl⟩
  · exact ⟨_, rfl⟩

theorem Readable.answer (readable : Readable lua) (world : World) (stdin : LuaString)
    (loaded : Loaded V) : ∃ reply, answer lua world stdin loaded = some reply := by
  cases loaded with
  | syntaxError message => exact ⟨_, rfl⟩
  | err message => exact ⟨_, rfl⟩
  | ok function =>
    rw [Repl.answer]
    rcases lua.call world function [] with ⟨error | results, between, read⟩
    · exact ⟨_, rfl⟩
    · cases results with
      | nil => exact ⟨_, rfl⟩
      | cons first others => exact readable.printed between _ _

theorem Readable.completeLine (readable : Readable lua) {text : LuaString}
    (enough : stdin.length < fuel) :
    ∃ outcome, (completeLine lua fuel).run { stack := [lua.string text], world, stdin } = some outcome := by
  induction fuel generalizing world stdin text with
  | zero => exact absurd enough (Nat.not_lt_zero _)
  | succ fuel ih =>
    by_cases waiting : Incomplete lua text
    · obtain ⟨world', shown⟩ := readable.prompt false world
      by_cases none_ : stdin = []
      · subst none_
        exact ⟨_, by rw [run_completeLine_ended lua world fuel waiting, shown]; rfl⟩
      · rw [run_completeLine_more lua world stdin fuel waiting none_, shown]
        have some_ := List.length_pos_iff.mpr none_
        have buffer := List.length_pos_iff.mpr (mt (takeLine_eq_nil_iff lua stdin).mp none_)
        refine ih ?_
        rw [List.length_drop]
        omega
    · exact ⟨_, run_completeLine_complete lua world stdin fuel waiting⟩

theorem Readable.loadline (readable : Readable lua) (before : State World V) :
    ∃ outcome, (loadline lua).run before = some outcome := by
  obtain ⟨stack, world, stdin⟩ := before
  obtain ⟨world', shown⟩ := readable.prompt true world
  by_cases none_ : stdin = []
  · subst none_
    exact ⟨_, by rw [run_loadline_ended, shown]; rfl⟩
  · rw [run_loadline_more lua stack world _ none_, shown]
    exact readable.completeLine (Nat.lt_succ_self _)

theorem Readable.dottyLoop (readable : Readable lua) {before : State World V}
    (enough : before.stdin.length < fuel) : ∃ outcome, (dottyLoop lua fuel).run before = some outcome := by
  induction fuel generalizing before with
  | zero => exact absurd enough (Nat.not_lt_zero _)
  | succ fuel ih =>
    obtain ⟨⟨status, between⟩, read⟩ := readable.loadline before
    rw [Repl.dottyLoop, run_bind, read]
    rcases loadline_cases read with
      ⟨lines, rfl, stack, group, taken, -⟩ | ⟨lines, rfl, -⟩
    · obtain ⟨stack', world', rest⟩ := between
      dsimp only at stack taken ⊢
      subst stack
      obtain ⟨leftover, evaluated⟩ := run_evaluate lua world' rest (lua.loadbuffer (chunk lines))
      obtain ⟨reply, answered⟩ := readable.answer world' rest (lua.loadbuffer (chunk lines))
      have shorter := taken.length_le
      have some_ := List.length_pos_iff.mpr group.nonempty
      have less := answer_length answered
      rw [answered] at evaluated
      obtain ⟨outcome, later⟩ : ∃ outcome, (Repl.dottyLoop lua fuel).run
          { stack := leftover, world := reply.1, stdin := reply.2 } = some outcome :=
        ih (show reply.2.length < fuel by omega)
      refine ⟨outcome, ?_⟩
      dsimp only [Option.bind_some]
      rw [run_bind, evaluated]
      exact later
    · exact ⟨_, rfl⟩

theorem run_dotty {before after : State World V} : (dotty lua).run before = some ((), after) ↔
    ∃ last, (dottyLoop lua (before.stdin.length + 1)).run before = some ((), last) ∧
      after = { stack := [], world := lua.fputs last.world .stdout (cString [newline]), stdin := last.stdin } := by
  have ran : (dotty lua).run before = ((dottyLoop lua (before.stdin.length + 1)).run before).bind fun r =>
      some ((), { stack := [], world := lua.fputs r.2.world .stdout (cString [newline]), stdin := r.2.stdin }) := by
    rw [dotty, run_bind, run_get]
    dsimp only [Option.bind_some]
    rw [run_bind]
    refine congrArg _ (funext fun r => ?_)
    rw [run_bind, run_settop]
    rfl
  rw [ran, Option.bind_eq_some_iff]
  constructor
  · rintro ⟨⟨⟨⟩, last⟩, looped, same⟩
    cases same
    exact ⟨last, looped, rfl⟩
  · rintro ⟨last, looped, rfl⟩
    exact ⟨((), last), looped, rfl⟩

end Whole

/-- The main result: `dotty` comes back if and only if there is a session for its input, and then it
leaves the same world and an empty stack. It comes back whenever no global variable raises an
error on reading. -/
theorem dotty_session (lua : Interpreter World V) (before : State World V) :
    (∀ after, (dotty lua).run before = some ((), after) ↔
      after.stack = [] ∧ after.stdin = [] ∧ Session lua before.world before.stdin after.world) ∧
    (Readable lua → ∃ after, (dotty lua).run before = some ((), after)) := by
  refine ⟨fun after => ⟨fun ran => ?_, fun ⟨stack, ended, session⟩ => ?_⟩, fun readable => ?_⟩
  · obtain ⟨last, looped, rfl⟩ := run_dotty.mp ran
    obtain ⟨ended, session⟩ := session_of_dottyLoop looped
    exact ⟨rfl, ended, session⟩
  · obtain ⟨stack', world', looped, same⟩ :=
      dottyLoop_of_session session before.stack (Nat.lt_succ_self _)
    refine run_dotty.mpr ⟨_, looped, ?_⟩
    rw [← same, ← stack, ← ended]
  · obtain ⟨⟨⟨⟩, last⟩, looped⟩ := readable.dottyLoop (Nat.lt_succ_self before.stdin.length)
    exact ⟨_, run_dotty.mpr ⟨last, looped, rfl⟩⟩

/-- The world is what has been written. A chunk returns its text, and every global variable is
`nil`, which can be called like `print`. -/
def echo : Interpreter LuaString (Option LuaString) where
  nil := none
  string := some
  isnil := Option.isNone
  tostring := id
  tostring_string := fun _ => rfl
  traceback := none
  getglobal world _ := (.ok none, world)
  loadbuffer text := if text.getLast? = some 0x28 then .syntaxError eof else .ok (some text)
  call world function args :=
    match function with
    | some text => (.ok [some text], world, 0)
    | none => (.ok [], world ++ (args.filterMap id).flatten, 0)
  handle world _ error := (error, world)
  fputs world _ text := world ++ text
  LUA_PROMPT := ascii "> "
  LUA_PROMPT2 := ascii ">> "
  LUA_MAXINPUT := 512
  room := by decide

/-- The first chunk has two lines, and the second one asks for a value. -/
example : ((dotty echo).run { world := [], stdin := ascii "f(\n)\n=x\n" }).map (·.2.world) =
    some (ascii "> >> f(\n)> return x> \n") := by decide +kernel

end EvoRuntime.Repl
