import EvoRuntime.Library.Runs
import EvoRuntime.Library.Shifting
import EvoRuntime.Vm.LuaVirtualMachine
import Mathlib.Algebra.Group.Int.Defs
import Mathlib.Algebra.Group.Prod

/-!
# The stack between calls

`LuaVirtualMachine` keeps an offset that should be zero whenever the stack is as high as it
was before the call. Neither is true of every call.

## Main result

`stack_discipline_iff`: the calls leave the stack and the offset as they were if and only
if no call is `LoadPackage` or `DoString`, and every file of `DoFile` runs without an error
and returns nothing.

## Proof strategy

`Shifts` adds up what the functions of the C API do to the height of the stack and to the
offset. `call_level` compares a call with its sum.
-/
namespace EvoRuntime.Vm

open Lua Library

variable {World : Type} (lua : Interpreter World)

/-! ## Calls -/

inductive Call
  | LoadPackage (packageName : LuaString) (packageLoader : Option Value)
  | DoString (chunk chunkName : LuaString)
  | DoFile (filePath : LuaString)
  | SetGlobalArgs (argv : List LuaString)
  | BindStaticLibraryExports (fieldName : LuaString) (staticExportsTable : Nat)
  | CreateGlobalNamespace (name : LuaString)

/-- What a call returns is not looked at. -/
def Call.perform : Call → Action World Unit
  | .LoadPackage packageName packageLoader => do
    let _ ← loadPackage lua packageName packageLoader
  | .DoString chunk chunkName => do
    let _ ← doString lua chunk chunkName
  | .DoFile filePath => do
    let _ ← doFile lua filePath
  | .SetGlobalArgs argv => do
    let _ ← setGlobalArgs lua argv
  | .BindStaticLibraryExports fieldName staticExportsTable =>
    bindStaticLibraryExports lua fieldName staticExportsTable
  | .CreateGlobalNamespace name => createGlobalNamespace lua name

/-- Calls that come back, one after the other. -/
def machine : System (LuaVirtualMachine World) Call Unit where
  Initial vm := ∃ world, vm = construct world
  Enabled _ _ := True
  step vm call := ((call.perform lua).run vm).elim (.error ()) fun result => .ok result.2

/-- The stack has the height that the call has found, and the offset is zero. -/
structure Level (before : LuaVirtualMachine World) (after : LuaVirtualMachine World) : Prop where
  height : after.stack.length = before.stack.length
  offset : after.relativeStackOffset = 0

/-- The call is none of those that leave something on the stack. -/
def Call.Balanced (vm : LuaVirtualMachine World) : Call → Prop
  | .LoadPackage .. | .DoString .. => False
  | .DoFile filePath => ∃ function world world',
    lua.loadfile vm.world (cString filePath) = (.ok function, world) ∧
      lua.call world function = (.ok [], world')
  | _ => True

/-! ## What the C API does to the stack -/

/-- The height of the stack and the offset. -/
def position (vm : LuaVirtualMachine World) : Int × Int := (vm.stack.length, vm.relativeStackOffset)

section Position

variable {lua : Interpreter World}

theorem position_stays {α : Type} {m : Action World α} (shifts : Shifts position (0, 0) m)
    {vm vm' : LuaVirtualMachine World} {a : α} (ended : m.run vm = some (a, vm')) :
    position vm' = position vm := (shifts vm a vm' ended).trans (add_zero _)

theorem shifts_push (value : Value) : Shifts position (1, 0) (push value : Action World Unit) := by
  apply Shifts.modify
  intro vm
  simp [position]

theorem shifts_pop : Shifts position (-1, 0) (pop : Action World Value) := by
  apply Shifts.of_get
  intro vm value vm' popped
  cases stack : vm.stack with
  | nil =>
    rw [stack] at popped
    exact absurd popped.symm (Option.some_ne_none _)
  | cons value rest =>
    rw [stack] at popped
    cases popped
    simp [position, stack]

theorem shifts_peek (n : Nat) : Shifts position (0, 0) (peek n : Action World Value) :=
  .get_bind fun _ => .pure

theorem shifts_setWorld (world : World) : Shifts position (0, 0) (setWorld world) := by
  apply Shifts.modify
  intro vm
  exact (add_zero _).symm

theorem shifts_unprotected {α : Type} (result : Except Value α × World) :
    Shifts position (0, 0) (unprotected result) := by
  obtain ⟨_ | a, world⟩ := result
  · exact .failure
  · exact (Shifts.bind (shifts_setWorld world) fun _ => .pure).of_eq (add_zero 0)

theorem shifts_getglobal (name : LuaString) : Shifts position (1, 0) (getglobal lua name) :=
  .get_bind fun _ => (Shifts.bind (shifts_unprotected _) shifts_push).of_eq (zero_add _)

theorem shifts_setglobal (name : LuaString) : Shifts position (-1, 0) (setglobal lua name) :=
  (Shifts.bind shifts_pop fun _ => .get_bind fun _ => shifts_unprotected _).of_eq (add_zero _)

theorem shifts_getfield (name : LuaString) : Shifts position (1, 0) (getfield lua name) :=
  (Shifts.bind (shifts_peek 1) fun _ =>
    .get_bind fun _ => Shifts.bind (shifts_unprotected _) shifts_push).of_eq (by decide)

theorem shifts_setfield (name : LuaString) : Shifts position (-1, 0) (setfield lua name) :=
  (Shifts.bind (shifts_peek 2) fun _ =>
    Shifts.bind shifts_pop fun _ => .get_bind fun _ => shifts_unprotected _).of_eq (by decide)

theorem shifts_newtable : Shifts position (1, 0) (newtable lua) :=
  .get_bind fun _ =>
    (Shifts.bind (shifts_setWorld _) fun _ => shifts_push _).of_eq (zero_add _)

theorem shifts_rawseti (index : Nat) : Shifts position (-1, 0) (rawseti lua index) :=
  (Shifts.bind (shifts_peek 2) fun _ =>
    Shifts.bind shifts_pop fun _ => .get_bind fun _ => shifts_setWorld _).of_eq (by decide)

theorem shifts_istable : Shifts position (0, 0) (istable : Action World Bool) := by
  refine (Shifts.bind (shifts_peek 1) fun value => ?_).of_eq (add_zero 0)
  cases value <;> exact .pure

theorem shifts_call : Shifts position (0, 0) (call lua) :=
  (Shifts.bind shifts_pop fun _ => .get_bind fun _ =>
    Shifts.bind (shifts_unprotected _) fun _ => shifts_push _).of_eq (by decide)

/-- One result or one message takes the place of the function. -/
theorem shifts_pcall (errfunc : Option Nat) : Shifts position (0, 0) (pcall lua (some 1) errfunc) := by
  have one (results : List Value) : (adjust (some 1) results).length = 1 := by
    simp only [adjust, List.length_append, List.length_take, List.length_replicate]
    omega
  have pushes (results : List Value) :
      Shifts position (1, 0) (pushAll (adjust (some 1) results) : Action World Unit) := by
    apply Shifts.modify
    intro vm
    simp only [position, List.length_append, List.length_reverse, one, Prod.mk_add_mk]
    push_cast
    rw [Int.add_comm, Int.add_zero]
  -- Whether the call raises an error or not, one value is pushed.
  have next (function : Value) :
      Shifts position (1, 0) (callProtected lua (some 1) errfunc function) := by
    apply Shifts.get_bind
    intro vm
    split
    · exact (Shifts.bind (shifts_setWorld _) fun _ =>
        Shifts.bind (pushes _) fun _ => .pure).of_eq (by decide)
    · exact (Shifts.bind (shifts_setWorld _) fun _ =>
        Shifts.bind (shifts_push _) fun _ => .pure).of_eq (by decide)
  exact (Shifts.bind shifts_pop next).of_eq (by decide)

theorem shifts_pushLoaded (loaded : Except Value Value × World) :
    Shifts position (1, 0) (pushLoaded loaded) := by
  obtain ⟨message | function, world⟩ := loaded <;>
    exact (Shifts.bind (shifts_setWorld _) fun _ =>
      Shifts.bind (shifts_push _) fun _ => .pure).of_eq (by decide)

theorem shifts_report (r : Report) : Shifts position (0, 0) (report r : Action World Unit) :=
  .modify fun _ => (add_zero _).symm

theorem shifts_shiftOffset (amount : Int) :
    Shifts position (0, amount) (shiftOffset amount : Action World Unit) := by
  apply Shifts.modify
  intro vm
  simp [position]

theorem shifts_checkStack : Shifts position (0, 0) (checkStack : Action World Bool) := by
  apply Shifts.get_bind
  intro vm
  split
  · exact (Shifts.bind (shifts_report _) fun _ => .pure).of_eq (add_zero 0)
  · exact .pure

/-! ## The functions of the class -/

/-- `package` is left on the stack. -/
theorem shifts_loadPackage (packageName : LuaString) (packageLoader : Option Value) :
    Shifts position (1, 0) (loadPackage lua packageName packageLoader) :=
  (Shifts.bind (shifts_getglobal _) fun _ =>
    Shifts.bind (shifts_getfield _) fun _ =>
    Shifts.bind (shifts_push _) fun _ =>
    Shifts.bind shifts_call fun _ =>
    Shifts.bind (shifts_setfield _) fun _ =>
    Shifts.bind shifts_pop fun _ => .pure).of_eq (by decide)

theorem shifts_setGlobalArgs (argv : List LuaString) :
    Shifts position (0, 0) (setGlobalArgs lua argv) :=
  (Shifts.bind shifts_newtable fun _ =>
    Shifts.bind (shifts_shiftOffset 1) fun _ =>
    Shifts.bind (Shifts.forM fun i =>
      (Shifts.bind (shifts_push _) fun _ => shifts_rawseti i).of_eq (by decide)) fun _ =>
    Shifts.bind (shifts_setglobal _) fun _ =>
    Shifts.bind (shifts_shiftOffset (-1)) fun _ => .pure).of_eq (by decide)

theorem shifts_bindStaticLibraryExports (fieldName : LuaString) (staticExportsTable : Nat) :
    Shifts position (0, 0) (bindStaticLibraryExports lua fieldName staticExportsTable) := by
  have drops : Shifts position (-3, 0) (do
      let _ ← pop
      let _ ← pop
      let _ ← pop : Action World Unit) :=
    (Shifts.bind shifts_pop fun _ => Shifts.bind shifts_pop fun _ =>
      Shifts.bind shifts_pop fun _ => .pure).of_eq (by decide)
  have stores (isTable : Bool) : Shifts position (-3, 0) (do
      if isTable then do
        push (.lightuserdata staticExportsTable)
        setfield lua (cString fieldName)
      let _ ← pop
      let _ ← pop
      let _ ← pop : Action World Unit) := by
    cases isTable with
    | false => exact drops
    | true =>
      exact (Shifts.bind ((Shifts.bind (shifts_push _) fun _ =>
        shifts_setfield _)) fun _ => drops).of_eq (by decide)
  exact (Shifts.bind (shifts_getglobal _) fun _ =>
    Shifts.bind (shifts_getfield _) fun _ =>
    Shifts.bind (shifts_getfield _) fun _ =>
    Shifts.bind shifts_istable stores).of_eq (by decide)

theorem shifts_createGlobalNamespace (name : LuaString) :
    Shifts position (0, 0) (createGlobalNamespace lua name) :=
  (Shifts.bind shifts_newtable fun _ => shifts_setglobal _).of_eq (by decide)

/-- The height of the stack. -/
def height (vm : LuaVirtualMachine World) : Int := vm.stack.length

theorem shifts_height {α : Type} {m : Action World α} {amount : Int × Int}
    (shifts : Shifts position amount m) : Shifts height amount.1 m :=
  shifts.map (AddMonoidHom.fst ℤ ℤ)

/-- A function or a message is left. -/
theorem height_compileChunk (chunk chunkName : LuaString) :
    Shifts height 1 (compileChunk lua chunk chunkName) := by
  have next (success : Bool) : Shifts height 0 (if success then do
      shiftOffset 1
      pure true
    else do
      report (.compileError (← peek 1))
      pure false : Action World Bool) := by
    cases success with
    | true =>
      exact ((shifts_height (shifts_shiftOffset 1)).bind fun _ => .pure).of_eq (by decide)
    | false =>
      exact ((shifts_height (shifts_peek 1)).bind fun _ =>
        (shifts_height (shifts_report _)).bind fun _ => .pure).of_eq (by decide)
  have loads : Shifts height 1 (loadbuffer lua (cString chunk) (cString chunkName)) :=
    .get_bind fun _ => shifts_height (shifts_pushLoaded _)
  exact (loads.bind next).of_eq (add_zero 1)

/-- The result or the message takes the place of what was on top. -/
theorem height_runCompiledChunk : Shifts height 0 (runCompiledChunk lua) := by
  have next (success : Bool) : Shifts height 0 (if success then do
      shiftOffset (-1)
      checkStack
    else do
      report (.runtimeError (← peek 1))
      pure false : Action World Bool) := by
    cases success with
    | true =>
      exact ((shifts_height (shifts_shiftOffset (-1))).bind fun _ =>
        shifts_height shifts_checkStack).of_eq (by decide)
    | false =>
      exact ((shifts_height (shifts_peek 1)).bind fun _ =>
        (shifts_height (shifts_report _)).bind fun _ => .pure).of_eq (by decide)
  exact ((shifts_height (shifts_pcall _)).bind next).of_eq (by decide)

theorem height_doString (chunk chunkName : LuaString) :
    Shifts height 1 (doString lua chunk chunkName) := by
  have next (success : Bool) : Shifts height 0 (if success then checkStack
    else do
      report .inDoString
      pure false : Action World Bool) := by
    cases success with
    | true => exact shifts_height shifts_checkStack
    | false => exact ((shifts_height (shifts_report _)).bind fun _ => .pure).of_eq (by decide)
  exact ((height_compileChunk _ _).bind fun _ => height_runCompiledChunk.bind next).of_eq (by decide)

/-- The number of values that `DoFile` leaves: all results, or the message. -/
def left (lua : Interpreter World) (vm : LuaVirtualMachine World) (filePath : LuaString) : Nat :=
  match lua.loadfile vm.world (cString filePath) with
  | (.error _, _) => 1
  | (.ok function, world) =>
    match lua.call world function with
    | (.ok results, _) => results.length
    | (.error _, _) => 1

theorem dofile_position {vm vm' : LuaVirtualMachine World} {filePath : LuaString} {status : Bool}
    (ended : (dofile lua (cString filePath)).run vm = some (status, vm')) :
    position vm' = position vm + ((left lua vm filePath : Int), 0) := by
  have start : (dofile lua (cString filePath)).run vm =
      (pushLoaded (lua.loadfile vm.world (cString filePath)) >>= fun loaded =>
        if loaded then pcall lua none none else pure false).run vm := rfl
  rw [start] at ended
  unfold left
  cases loaded : lua.loadfile vm.world (cString filePath) with
  | mk result world =>
    rw [loaded] at ended
    cases result with
    | error message =>
      cases ended
      simp [position]
    | ok function =>
      have run : (callProtected lua none none function).run { vm with world := world } =
          some (status, vm') := ended
      unfold callProtected at run
      rw [StateT.run_bind, StateT.run_get, pure_bind] at run
      dsimp only at run ⊢
      cases called : lua.call world function with
      | mk outcome world' =>
        rw [called] at run
        cases outcome with
        | error error =>
          cases run
          simp [position]
        | ok results =>
          cases run
          simp [position, adjust, Int.add_comm]

theorem doFile_position {vm vm' : LuaVirtualMachine World} {filePath : LuaString} {returned : Bool}
    (ended : (doFile lua filePath).run vm = some (returned, vm')) :
    position vm' = position vm + ((left lua vm filePath : Int), 0) := by
  have next (status : Bool) : Shifts position (0, 0) (if status then checkStack
    else do
      report (.scriptError (← peek 1))
      pure false : Action World Bool) := by
    cases status with
    | true => exact shifts_checkStack
    | false =>
      exact ((shifts_peek 1).bind fun _ => (shifts_report _).bind fun _ => .pure).of_eq (by decide)
  rw [doFile, StateT.run_bind] at ended
  obtain ⟨⟨status, middle⟩, run, rest⟩ := Option.bind_eq_some_iff.mp ended
  exact (position_stays (next status) rest).trans (dofile_position run)

/-- `DoFile` leaves nothing only where the file runs and returns nothing. -/
theorem left_eq_zero {vm : LuaVirtualMachine World} {filePath : LuaString} :
    left lua vm filePath = 0 ↔ (Call.DoFile filePath).Balanced lua vm := by
  constructor
  · intro nothing
    unfold left at nothing
    cases loaded : lua.loadfile vm.world (cString filePath) with
    | mk result world =>
      rw [loaded] at nothing
      cases result with
      -- A file that is not loaded leaves the message.
      | error message => exact absurd nothing Nat.one_ne_zero
      | ok function =>
        dsimp only at nothing
        cases called : lua.call world function with
        | mk outcome world' =>
          rw [called] at nothing
          cases outcome with
          | error error => exact absurd nothing Nat.one_ne_zero
          | ok results =>
            rw [List.eq_nil_of_length_eq_zero nothing] at called
            exact ⟨function, world, world', loaded, called⟩
  · rintro ⟨function, world, world', loaded, called⟩
    rw [left, loaded]
    dsimp only
    rw [called]
    rfl

theorem level_iff {vm vm' : LuaVirtualMachine World} (aligned : vm.relativeStackOffset = 0) :
    Level vm vm' ↔ position vm' = position vm := by
  rw [position, position, Prod.mk.injEq, Int.ofNat_inj, aligned]
  constructor
  · exact fun level => ⟨level.height, level.offset⟩
  · exact fun same => ⟨same.1, same.2⟩

/-- What a function returns makes no difference. -/
theorem shifts_discard {G α : Type} [AddMonoid G] {measure : LuaVirtualMachine World → G} {amount : G}
    {m : Action World α} (shifts : Shifts measure amount m) :
    Shifts measure amount (do let _ ← m : Action World Unit) :=
  (shifts.bind fun _ => .pure).of_eq (add_zero amount)

/-- A call from a state with the offset zero. -/
theorem call_level {vm vm' : LuaVirtualMachine World} {call : Call}
    (aligned : vm.relativeStackOffset = 0) (ended : (call.perform lua).run vm = some ((), vm')) :
    Level vm vm' ↔ call.Balanced lua vm := by
  -- A call that shifts nothing is balanced, one that raises the stack is not.
  have level (shifts : Shifts position (0, 0) (call.perform lua)) : Level vm vm' :=
    (level_iff aligned).mpr (position_stays shifts ended)
  have rises (shifts : Shifts height 1 (call.perform lua)) : ¬Level vm vm' := by
    intro level
    have higher := shifts vm () vm' ended
    rw [height, height, level.height] at higher
    omega
  cases call with
  | LoadPackage packageName packageLoader =>
    exact iff_of_false (rises (shifts_discard (shifts_height (shifts_loadPackage _ _)))) id
  | DoString chunk chunkName =>
    exact iff_of_false (rises (shifts_discard (height_doString _ _))) id
  | DoFile filePath =>
    have performs : (Call.DoFile filePath).perform lua = doFile lua filePath >>= fun _ => pure () := rfl
    rw [performs, StateT.run_bind] at ended
    obtain ⟨⟨returned, middle⟩, run, rest⟩ := Option.bind_eq_some_iff.mp ended
    cases rest
    rw [level_iff aligned, doFile_position run, ← left_eq_zero, add_eq_left, Prod.mk_eq_zero,
      Int.natCast_eq_zero]
    exact and_iff_left rfl
  | SetGlobalArgs argv => exact iff_of_true (level (shifts_discard (shifts_setGlobalArgs _))) trivial
  | BindStaticLibraryExports fieldName staticExportsTable =>
    exact iff_of_true (level (shifts_bindStaticLibraryExports _ _)) trivial
  | CreateGlobalNamespace name =>
    exact iff_of_true (level (shifts_createGlobalNamespace _)) trivial

end Position

/-- From the constructed machine on, every call that comes back leaves the stack as it was, with
the offset at zero, if and only if every such call is balanced. -/
theorem stack_discipline_iff (lua : Interpreter World) (world : World) (calls : List Call) :
    (machine lua).Each (fun before _ after => Level before after) calls (construct world) ↔
      (machine lua).Each (fun before call _ => call.Balanced lua before) calls (construct world) := by
  have returned {vm vm' : LuaVirtualMachine World} {call : Call}
      (stepped : (machine lua).step vm call = .ok vm') :
      (call.perform lua).run vm = some ((), vm') := by
    change ((call.perform lua).run vm).elim (Except.error ())
      (fun result => Except.ok result.2) = _ at stepped
    cases run : (call.perform lua).run vm with
    | none =>
      rw [run] at stepped
      cases stepped
    | some result =>
      rw [run] at stepped
      cases stepped
      rfl
  apply System.each_congr
  · intro vm call vm' aligned _ stepped
    exact call_level aligned (returned stepped)
  · exact fun vm call vm' aligned _ stepped level => level.offset
  · rfl

/-- `package` is the table 1 and `package.loaded` the table 2; every chunk raises an error. -/
def raising : Interpreter Unit where
  globals := .table 0
  newtable _ := (.table 3, ())
  getfield _ table _ := (.ok (if table = .table 0 then .table 1 else .table 2), ())
  setfield _ _ _ _ := (.ok (), ())
  rawseti _ _ _ _ := ()
  loadbuffer _ _ _ := (.ok (.function 0), ())
  loadfile _ _ := (.ok (.function 0), ())
  call _ function := if function = .function 0 then (.error (.string (ascii "failed")), ())
    else (.ok [.table 4], ())
  handle _ _ error := (error, ())

/-- `LoadPackage` leaves `package` on the stack, and `DoString` the message of an error
together with an offset of one. -/
theorem loadPackage_unbalanced :
    ¬(machine raising).Each (fun before _ after => Level before after)
        [.LoadPackage (ascii "uv") none] (construct ()) ∧
      (machine raising).step (construct ()) (.LoadPackage (ascii "uv") none) =
        .ok { construct () with stack := [.table 1, onLuaError] } ∧
      (machine raising).step (construct ()) (.DoString (ascii "error()") (ascii "main")) =
        .ok { construct () with
          stack := [.string (ascii "failed"), onLuaError]
          relativeStackOffset := 1
          reports := [.runtimeError (.string (ascii "failed")), .inDoString] } := by
  refine ⟨?_, rfl, rfl⟩
  intro each
  have level := (each { construct () with stack := [.table 1, onLuaError] } trivial rfl).1
  exact absurd level.height (by decide)

end EvoRuntime.Vm
