import EvoRuntime.Repl.Sessions

/-!
# Runs on known stacks

What the functions of the program do to the stacks that they can find. Each lemma says what a
function comes back with, so that no proof has to unfold one that is called by another.
-/
namespace EvoRuntime.Repl

open Lua

variable {World V : Type} (lua : Interpreter World V)

/-! ## The C API -/

section Runs

variable (stack : List V) (v : V) (world : World) (stdin : LuaString)

theorem run_bind {α β : Type} (m : Action World V α) (f : α → Action World V β) (st : State World V) :
    (m >>= f).run st = (m.run st).bind fun r => (f r.1).run r.2 := rfl

theorem run_pure {α : Type} (a : α) (st : State World V) :
    (pure a : Action World V α).run st = some (a, st) := rfl

theorem run_get (st : State World V) : (get : Action World V _).run st = some (st, st) := rfl

theorem run_push : (push v).run { stack, world, stdin } =
    some ((), { stack := stack ++ [v], world, stdin }) := rfl

theorem run_gettop (st : State World V) : gettop.run st = some (st.stack.length, st) := rfl

theorem run_setWorld (world' : World) : (setWorld world').run { stack, world, stdin } =
    some ((), { stack, world := world', stdin }) := rfl

theorem run_position_last : (position (-1)).run { stack := stack ++ [v], world, stdin } =
    some (stack.length, { stack := stack ++ [v], world, stdin }) := by
  have top : (((stack ++ [v]).length : Int) + -1).toNat = stack.length := by
    rw [List.length_append, List.length_singleton]
    omega
  have held : -(-1 : Int) ≤ (stack ++ [v]).length := by
    rw [List.length_append, List.length_singleton]
    omega
  rw [position, run_bind, run_gettop]
  dsimp only [Option.bind_some]
  rw [if_neg (by omega), if_pos ⟨by omega, held⟩, top]
  rfl

theorem run_position_first : (position 1).run { stack := v :: stack, world, stdin } =
    some (0, { stack := v :: stack, world, stdin }) := by
  have held : (1 : Int) ≤ (v :: stack).length := by
    rw [List.length_cons]
    omega
  rw [position, run_bind, run_gettop]
  dsimp only [Option.bind_some]
  rw [if_pos ⟨by omega, held⟩]
  rfl

theorem run_value_last : (value (-1)).run { stack := stack ++ [v], world, stdin } =
    some (v, { stack := stack ++ [v], world, stdin }) := by
  rw [value, run_bind, run_position_last]
  dsimp only [Option.bind_some]
  rw [run_bind, run_get]
  dsimp only [Option.bind_some]
  rw [List.getElem?_concat_length]
  rfl

theorem run_value_first : (value 1).run { stack := v :: stack, world, stdin } =
    some (v, { stack := v :: stack, world, stdin }) := by
  rw [value, run_bind, run_position_first]
  rfl

theorem run_tostring_last : (tostring lua (-1)).run { stack := stack ++ [v], world, stdin } =
    some (lua.tostring v, { stack := stack ++ [v], world, stdin }) := by
  rw [tostring, run_bind, run_value_last]
  rfl

theorem run_pop (values : List V) : (pop values.length).run { stack := stack ++ values, world, stdin } =
    some ((), { stack, world, stdin }) := by
  have below : (stack ++ values).take ((stack ++ values).length - values.length) = stack := by simp
  rw [pop, run_bind, run_gettop]
  dsimp only [Option.bind_some]
  rw [if_pos (by simp)]
  exact congrArg (fun s => some ((), (⟨s, world, stdin⟩ : State World V))) below

theorem run_pop_last : (pop 1).run { stack := stack ++ [v], world, stdin } =
    some ((), { stack, world, stdin }) := run_pop stack world stdin [v]

theorem run_remove_first : (remove 1).run { stack := v :: stack, world, stdin } =
    some ((), { stack, world, stdin }) := by
  rw [remove, run_bind, run_position_first]
  rfl

theorem run_insert_first : (insert 1).run { stack := stack ++ [v], world, stdin } =
    some ((), { stack := v :: stack, world, stdin }) := by
  obtain ⟨bottom, above, shape⟩ : ∃ bottom above, stack ++ [v] = bottom :: above :=
    List.exists_cons_of_ne_nil (by simp)
  have last := run_value_last stack v world stdin
  rw [shape] at last ⊢
  rw [insert, run_bind, run_position_first]
  dsimp only [Option.bind_some]
  rw [run_bind, last]
  have below : (bottom :: above).dropLast = stack := by rw [← shape, List.dropLast_concat]
  exact congrArg (fun s => some ((), (⟨v :: s, world, stdin⟩ : State World V))) below

theorem run_concat (strings : List LuaString) :
    (concat lua strings.length).run { stack := stack ++ strings.map lua.string, world, stdin } =
      some ((), { stack := stack ++ [lua.string strings.flatten], world, stdin }) := by
  have top : (stack ++ strings.map lua.string).drop
      ((stack ++ strings.map lua.string).length - strings.length) = strings.map lua.string := by simp
  have texts : (strings.map lua.string).mapM lua.tostring = some strings := by
    induction strings with
    | nil => rfl
    | cons s strings ih => simp [lua.tostring_string, ih]
  have popped := run_pop stack world stdin (strings.map lua.string)
  rw [List.length_map] at popped
  rw [concat, run_bind, run_gettop]
  dsimp only [Option.bind_some]
  rw [run_bind, run_get]
  dsimp only [Option.bind_some]
  rw [top, texts]
  dsimp only
  rw [run_bind, popped]
  rfl

/-- A line is joined with the text in front of it. -/
theorem run_join {α : Type} (next : Action World V α) (text line : LuaString) :
    (do
      push (lua.string [newline])
      insert (-2)
      concat lua 3
      next : Action World V α).run { stack := [lua.string text, lua.string line], world, stdin } =
      next.run { stack := [lua.string (text ++ [newline] ++ line)], world, stdin } := by
  have inserted : (insert (-2)).run
      { stack := [lua.string text, lua.string line, lua.string [newline]], world, stdin } =
      some ((), { stack := [lua.string text, lua.string [newline], lua.string line], world, stdin }) :=
    rfl
  have joined := run_concat lua [] world stdin [text, [newline], line]
  rw [List.flatten_cons, List.flatten_cons, List.flatten_singleton, ← List.append_assoc] at joined
  rw [run_bind, run_push]
  dsimp only [Option.bind_some, List.cons_append, List.nil_append]
  rw [run_bind, inserted]
  exact congrArg (Option.bind · fun r => next.run r.2) joined

/-! ## Lines -/

theorem run_fputs (stream : Stream) (text : LuaString) :
    (fputs lua stream text).run { stack, world, stdin } =
      some ((), { stack, world := lua.fputs world stream (cString text), stdin }) := rfl

theorem run_write_prompt (firstline : Bool) :
    (write_prompt lua firstline).run { stack, world, stdin } =
      (prompt lua firstline world).map fun world' => ((), { stack, world := world', stdin }) := by
  rw [write_prompt, getglobal, run_bind, run_bind, run_get, prompt]
  dsimp only [Option.bind_some]
  rcases lua.getglobal world (if firstline then ascii "_PROMPT" else ascii "_PROMPT2") with
    ⟨_ | p, world'⟩
  · rfl
  · dsimp only
    rw [run_bind, run_setWorld]
    dsimp only [Option.bind_some]
    rw [run_push]
    dsimp only [Option.bind_some]
    rw [run_bind, run_tostring_last]
    dsimp only [Option.bind_some]
    rw [run_bind, run_fputs]
    exact run_pop stack _ stdin [p]

theorem takeLine_eq_nil_iff : takeLine lua.LUA_MAXINPUT stdin = [] ↔ stdin = [] := by
  have room := lua.room
  rw [takeLine, List.take_eq_nil_iff]
  constructor
  · rintro (none_ | nothing)
    · omega
    · exact nothing
  · exact Or.inr

theorem run_fgets_ended : (fgets lua).run { stack, world, stdin := [] } =
    some (none, { stack, world, stdin := [] }) := by
  rw [fgets, run_bind, run_get]
  dsimp only [Option.bind_some]
  rw [if_pos ((takeLine_eq_nil_iff lua []).mpr rfl)]
  rfl

theorem run_fgets (more : stdin ≠ []) : (fgets lua).run { stack, world, stdin } =
    some (some (takeLine lua.LUA_MAXINPUT stdin),
      { stack, world, stdin := stdin.drop (takeLine lua.LUA_MAXINPUT stdin).length }) := by
  rw [fgets, run_bind, run_get]
  dsimp only [Option.bind_some]
  rw [if_neg (mt (takeLine_eq_nil_iff lua stdin).mp more)]
  rfl

/-- At the end of the input, only the prompt is shown. -/
theorem run_pushline_ended (firstline : Bool) :
    (pushline lua firstline).run { stack, world, stdin := [] } =
      (prompt lua firstline world).map fun world' => (false, { stack, world := world', stdin := [] }) := by
  rw [pushline, run_bind, run_write_prompt]
  cases prompt lua firstline world with
  | none => rfl
  | some world' =>
    dsimp only [Option.map_some, Option.bind_some]
    rw [run_bind, run_fgets_ended]
    rfl

theorem run_pushline (firstline : Bool) (more : stdin ≠ []) :
    (pushline lua firstline).run { stack, world, stdin } =
      (prompt lua firstline world).map fun world' =>
        (true,
          { stack := stack ++ [lua.string (pushedText firstline (takeLine lua.LUA_MAXINPUT stdin))]
            world := world'
            stdin := stdin.drop (takeLine lua.LUA_MAXINPUT stdin).length }) := by
  rw [pushline, run_bind, run_write_prompt]
  cases prompt lua firstline world with
  | none => rfl
  | some world' =>
    dsimp only [Option.map_some, Option.bind_some]
    rw [run_bind, run_fgets lua stack world' stdin more, pushedText]
    dsimp only [Option.bind_some]
    split_ifs <;> rfl

/-! ## Loading a chunk -/

def Loaded.status : Loaded V → Status
  | .ok _ => .ok
  | .syntaxError _ => .syntaxError
  | .err _ => .err

/-- A function or a message. -/
def Loaded.value : Loaded V → V
  | .ok function => function
  | .syntaxError message => lua.string message
  | .err message => message

theorem run_loadbuffer (text : LuaString) : (loadbuffer lua text).run { stack, world, stdin } =
    some ((lua.loadbuffer text).status,
      { stack := stack ++ [(lua.loadbuffer text).value lua], world, stdin }) := by
  rw [loadbuffer]
  cases lua.loadbuffer text <;> rfl

theorem run_incomplete_of_atEnd (message : LuaString) (atEnd : AtEnd message) :
    (incomplete lua .syntaxError).run { stack := stack ++ [lua.string message], world, stdin } =
      some (true, { stack, world, stdin }) := by
  rw [incomplete, if_pos rfl, run_bind, run_tostring_last, lua.tostring_string]
  dsimp only [Option.bind_some]
  rw [AtEnd] at atEnd
  rw [if_pos atEnd, run_bind, run_pop_last]
  rfl

/-- A text is incomplete, or it is left on the stack what loading it has given. -/
theorem run_incomplete {text : LuaString} (complete : ¬Incomplete lua text) :
    (incomplete lua (lua.loadbuffer text).status).run
        { stack := stack ++ [(lua.loadbuffer text).value lua], world, stdin } =
      some (false, { stack := stack ++ [(lua.loadbuffer text).value lua], world, stdin }) := by
  cases loaded : lua.loadbuffer text with
  | ok function => rfl
  | err message => rfl
  | syntaxError message =>
    have notAtEnd : ¬AtEnd message := fun atEnd => complete ⟨message, loaded, atEnd⟩
    rw [Loaded.status, Loaded.value, incomplete, if_pos rfl, run_bind, run_tostring_last,
      lua.tostring_string]
    dsimp only [Option.bind_some]
    rw [AtEnd] at notAtEnd
    rw [if_neg notAtEnd]
    rfl

/-! ### Reading until the chunk is complete -/

variable (fuel : Nat) {text : LuaString}

theorem run_completeLine_complete (complete : ¬Incomplete lua text) :
    (completeLine lua (fuel + 1)).run { stack := [lua.string text], world, stdin } =
      some (some (lua.loadbuffer text).status,
        { stack := [(lua.loadbuffer text).value lua], world, stdin }) := by
  rw [completeLine, tostring, run_bind, run_bind, run_value_first]
  dsimp only [Option.bind_some, run_pure]
  rw [lua.tostring_string]
  dsimp only
  rw [run_bind, run_loadbuffer]
  dsimp only [Option.bind_some]
  rw [run_bind, run_incomplete lua _ _ _ complete]
  rfl

/-- A text that is not complete is left alone on the stack. -/
theorem run_completeLine_incomplete (waiting : Incomplete lua text) :
    (completeLine lua (fuel + 1)).run { stack := [lua.string text], world, stdin } =
      ((pushline lua false).run { stack := [lua.string text], world, stdin }).bind fun r =>
        (if r.1 then (do
            push (lua.string [newline])
            insert (-2)
            concat lua 3
            completeLine lua fuel) else return none : Action World V (Option Status)).run r.2 := by
  obtain ⟨message, loaded, atEnd⟩ := waiting
  rw [completeLine, tostring, run_bind, run_bind, run_value_first]
  dsimp only [Option.bind_some, run_pure]
  rw [lua.tostring_string]
  dsimp only
  rw [run_bind, run_loadbuffer, loaded]
  dsimp only [Option.bind_some, Loaded.status, Loaded.value]
  rw [run_bind, run_incomplete_of_atEnd lua _ _ _ _ atEnd]
  rfl

theorem run_completeLine_ended (waiting : Incomplete lua text) :
    (completeLine lua (fuel + 1)).run { stack := [lua.string text], world, stdin := [] } =
      (prompt lua false world).map fun world' =>
        (none, { stack := [lua.string text], world := world', stdin := [] }) := by
  rw [run_completeLine_incomplete lua world [] fuel waiting, run_pushline_ended]
  cases prompt lua false world <;> rfl

theorem run_completeLine_more (waiting : Incomplete lua text) (more : stdin ≠ []) :
    (completeLine lua (fuel + 1)).run { stack := [lua.string text], world, stdin } =
      (prompt lua false world).bind fun world' =>
        (completeLine lua fuel).run
          { stack := [lua.string (text ++ [newline] ++
              pushedText false (takeLine lua.LUA_MAXINPUT stdin))]
            world := world'
            stdin := stdin.drop (takeLine lua.LUA_MAXINPUT stdin).length } := by
  rw [run_completeLine_incomplete lua world stdin fuel waiting, run_pushline lua _ _ _ _ more]
  cases prompt lua false world with
  | none => rfl
  | some world' =>
    exact run_join lua world' _ (completeLine lua fuel) text _

/-! ### The first line -/

theorem run_settop (st : State World V) :
    (settop lua 0).run st = some ((), { stack := [], world := st.world, stdin := st.stdin }) := by
  have nothing : st.stack.take 0 ++ List.replicate (0 - st.stack.length) lua.nil = [] := by
    rw [List.take_zero, Nat.zero_sub, List.replicate_zero, List.append_nil]
  exact congrArg (fun s => some ((), (⟨s, st.world, st.stdin⟩ : State World V))) nothing

theorem run_loadline_ended :
    (loadline lua).run { stack, world, stdin := [] } =
      (prompt lua true world).map fun world' => (none, { stack := [], world := world', stdin := [] }) := by
  rw [loadline, run_bind, run_settop]
  dsimp only [Option.bind_some]
  rw [run_bind, run_pushline_ended]
  cases prompt lua true world <;> rfl

theorem run_loadline_more (more : stdin ≠ []) :
    (loadline lua).run { stack, world, stdin } =
      (prompt lua true world).bind fun world' =>
        (completeLine lua ((stdin.drop (takeLine lua.LUA_MAXINPUT stdin).length).length + 1)).run
          { stack := [lua.string (chunk [takeLine lua.LUA_MAXINPUT stdin])]
            world := world'
            stdin := stdin.drop (takeLine lua.LUA_MAXINPUT stdin).length } := by
  rw [loadline, run_bind, run_settop]
  dsimp only [Option.bind_some]
  rw [run_bind, run_pushline lua [] world stdin true more]
  cases prompt lua true world <;> rfl

end Runs

/-! ## Running a chunk -/

section Evaluating

variable (stack : List V) (v : V) (world : World) (stdin : LuaString)

theorem run_l_message (text : LuaString) : (l_message lua text).run { stack, world, stdin } =
    some ((), { stack, world := message lua world text, stdin }) := rfl

theorem run_report_ok (st : State World V) : (report lua .ok).run st = some ((), st) := rfl

/-- The error is removed from the stack, unless it is `nil`. -/
theorem run_report {status : Status} (error : status ≠ .ok) :
    (report lua status).run { stack := stack ++ [v], world, stdin } =
      some ((), { stack := if lua.isnil v then stack ++ [v] else stack, world := complain lua world v, stdin }) := by
  rw [report, if_pos error, run_bind, run_value_last, complain]
  dsimp only [Option.bind_some]
  cases lua.isnil v with
  | true => rfl
  | false =>
    rw [if_pos (show (!false) = true from rfl), run_bind, run_tostring_last]
    dsimp only [Option.bind_some]
    rw [run_bind, run_l_message]
    exact run_pop_last stack v _ stdin

/-- The message that is left of an error. -/
def handled (errfunc : Nat) (world : World) (error : V) : V × World :=
  if errfunc = 0 then (error, world)
  else lua.handle world (stack[errfunc - 1]?.getD lua.nil) error

theorem run_pcall (function : V) (args : List V) (nresults : Option Nat) (errfunc : Nat) :
    (pcall lua args.length nresults errfunc).run { stack := stack ++ function :: args, world, stdin } =
      match lua.call world function args with
      | (.ok results, world', read) =>
        some (.ok,
          { stack := stack ++ adjust lua nresults results, world := world', stdin := stdin.drop read })
      | (.error error, world', read) =>
        some (.err,
          { stack := stack ++ [(handled lua stack errfunc world' error).1]
            world := (handled lua stack errfunc world' error).2
            stdin := stdin.drop read }) := by
  have depth : (stack ++ function :: args).length - (args.length + 1) = stack.length := by
    rw [List.length_append, List.length_cons, Nat.add_sub_cancel]
  rw [pcall, run_bind, run_get]
  dsimp only [Option.bind_some]
  rw [depth, List.drop_left, List.take_left]
  dsimp only
  rcases lua.call world function args with ⟨error | results, world', read⟩ <;> rfl

/-- The function is called with the handler below it. -/
theorem run_docall (function : V) :
    (docall lua 0 false).run { stack := [function], world, stdin } =
      match lua.call world function [] with
      | (.ok results, world', read) =>
        some (.ok, { stack := results, world := world', stdin := stdin.drop read })
      | (.error error, world', read) =>
        some (.err,
          { stack := [(lua.handle world' lua.traceback error).1]
            world := (lua.handle world' lua.traceback error).2
            stdin := stdin.drop read }) := by
  have inserted : (insert (1 : Nat)).run { stack := [function, lua.traceback], world, stdin } =
      some ((), { stack := [lua.traceback, function], world, stdin }) :=
    run_insert_first [function] lua.traceback world stdin
  have called := run_pcall lua [lua.traceback] world stdin function [] none 1
  rw [docall, run_bind, run_gettop]
  dsimp only [Option.bind_some, List.length_singleton, Nat.sub_zero]
  rw [run_bind, run_push]
  dsimp only [Option.bind_some, List.cons_append, List.nil_append]
  rw [run_bind, inserted]
  dsimp only [Option.bind_some]
  rw [run_bind]
  refine (congrArg (Option.bind · _) called).trans ?_
  rcases lua.call world function [] with ⟨error | results, world', read⟩
  · rfl
  · exact congrArg (Option.bind · fun r => (pure Status.ok : Action World V Status).run r.2)
      (run_remove_first results lua.traceback world' (stdin.drop read))

/-- An error is reported, and nothing is printed. -/
theorem run_evaluate_error {status : Status} (error : status ≠ .ok) :
    (do
      report lua status
      if status = .ok ∧ 0 < (← gettop) then printResults lua : Action World V Unit).run
        { stack := [v], world, stdin } =
      some ((), { stack := if lua.isnil v then [v] else [], world := complain lua world v, stdin }) := by
  have reported := run_report lua [] v world stdin error
  rw [List.nil_append] at reported
  rw [run_bind, reported]
  dsimp only [Option.bind_some]
  rw [run_bind, run_gettop]
  dsimp only [Option.bind_some]
  rw [if_neg (fun both => error both.1)]
  rfl

/-- The values on the stack are handed to `print`. -/
theorem run_printResults (values : List V) :
    ∃ leftover : List V, (printResults lua).run { stack := values, world, stdin } =
      (printed lua world stdin values).map fun r =>
        ((), { stack := leftover, world := r.1, stdin := r.2 }) := by
  rw [printResults, getglobal, run_bind, run_bind, run_get, printed]
  dsimp only [Option.bind_some]
  rcases lua.getglobal world (ascii "print") with ⟨error | print, world'⟩
  · exact ⟨[], rfl⟩
  · dsimp only
    have called := run_pcall lua [] world' stdin print values (some 0) 0
    rw [List.nil_append] at called
    rw [run_bind, run_setWorld]
    dsimp only [Option.bind_some]
    rw [run_push]
    dsimp only [Option.bind_some]
    rw [run_bind, run_insert_first]
    dsimp only [Option.bind_some]
    rw [run_bind, run_gettop]
    dsimp only [Option.bind_some, List.length_cons, Nat.add_one_sub_one]
    rw [run_bind, called]
    rcases lua.call world' print values with ⟨error | results, world'', read⟩
    · exact ⟨_, rfl⟩
    · exact ⟨_, rfl⟩

/-- What is left on the stack is not looked at. -/
theorem run_evaluate (loaded : Loaded V) :
    ∃ leftover : List V,
      (evaluate lua loaded.status).run { stack := [loaded.value lua], world, stdin } =
        (answer lua world stdin loaded).map fun r =>
          ((), { stack := leftover, world := r.1, stdin := r.2 }) := by
  cases loaded with
  | syntaxError message =>
    exact ⟨_, run_evaluate_error lua _ world stdin (by decide : Status.syntaxError ≠ .ok)⟩
  | err message => exact ⟨_, run_evaluate_error lua _ world stdin (by decide : Status.err ≠ .ok)⟩
  | ok function =>
    rw [Loaded.status, Loaded.value, evaluate, if_pos rfl, run_bind, run_docall, answer]
    rcases lua.call world function [] with ⟨error | results, world', read⟩
    · exact ⟨_, run_evaluate_error lua _ _ _ (by decide : Status.err ≠ .ok)⟩
    · dsimp only [Option.bind_some]
      rw [run_bind, run_report_ok]
      dsimp only [Option.bind_some]
      rw [run_bind, run_gettop]
      dsimp only [Option.bind_some]
      cases results with
      | nil => exact ⟨[], rfl⟩
      | cons first others =>
        rw [if_pos ⟨rfl, Nat.zero_lt_succ _⟩]
        exact run_printResults lua world' (stdin.drop read) (first :: others)

end Evaluating

end EvoRuntime.Repl
