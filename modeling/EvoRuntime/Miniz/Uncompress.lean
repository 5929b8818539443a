import EvoRuntime.Lua.Strings
import Mathlib.Algebra.Group.Int.Defs

/-!
# Uncompressing into a growing buffer

`miniz.uncompress` does not know how long the data is. It starts with a buffer of the size
that the caller guesses, and doubles it for as long as `mz_uncompress` finds it too small
and the size stays below `INT_MAX`.

Main result: data of up to half of `INT_MAX` bytes comes out the same for every guess.
Proof strategy: a buffer that is too small can be doubled without reaching `INT_MAX`, so
the loop ends only with a buffer that is large enough.
-/
namespace EvoRuntime.Miniz

open Lua

def INT_MAX : Nat := 2 ^ 31 - 1

def MZ_OK : Int := 0
def MZ_BUF_ERROR : Int := -5

/-- What a call leaves in a buffer of `capacity` bytes and in `out_len`. -/
structure MzReturn (capacity : Nat) where
  ret : Int
  outb : LuaString
  length_eq : outb.length = capacity
  out_len : Nat

/-- The library function: `out_len` is the size of `outb` on entry. -/
abbrev MzUncompress := (outb inb : LuaString) → MzReturn outb.length

/-- `std::vector::resize`. -/
def resize (outb : LuaString) (out_len : Nat) : LuaString :=
  outb.take out_len ++ List.replicate (out_len - outb.length) 0

@[simp] theorem length_resize (outb : LuaString) (out_len : Nat) :
    (resize outb out_len).length = out_len := by
  simp only [resize, List.length_append, List.length_take, List.length_replicate]
  omega

/-- The variables of `lmz_uncompress` behind its loop. -/
structure Locals where
  ret : Int
  outb : LuaString
  out_len : Nat

def MzReturn.locals {capacity : Nat} (call : MzReturn capacity) : Locals :=
  { ret := call.ret, outb := call.outb, out_len := call.out_len }

/-- The `do` loop, entered with `out_len` equal to the size of the buffer. -/
def uncompressLoop (mz_uncompress : MzUncompress) (inb outb : LuaString) : Locals :=
  let call := mz_uncompress outb inb
  if call.ret = MZ_BUF_ERROR then
    let out_len := call.outb.length * 2
    let outb' := resize call.outb out_len
    if 1 < out_len ∧ out_len < INT_MAX then uncompressLoop mz_uncompress inb outb'
    else { ret := call.ret, outb := outb', out_len := out_len }
  else call.locals
termination_by INT_MAX - outb.length
decreasing_by
  -- The size doubles and stays below the bound.
  have size : out_len = outb.length * 2 := congrArg (· * 2) call.length_eq
  change INT_MAX - (resize call.outb out_len).length < _
  rw [length_resize]
  clear_value out_len
  omega

/-- What the Lua caller gets: the data, or `nil` and the text that `mz_error` has for
the status, if there is one. -/
inductive Results where
  | data (text : LuaString)
  | failure (message : Option LuaString)
  deriving DecidableEq

def results (mz_error : Int → Option LuaString) (final : Locals) : Results :=
  if final.ret = MZ_OK then .data (final.outb.take final.out_len)
  else .failure (mz_error final.ret)

/-- `miniz.uncompress(inb, hint)`. The size is an unsigned 64-bit integer. -/
def lmz_uncompress (mz_uncompress : MzUncompress) (mz_error : Int → Option LuaString)
    (inb : LuaString) (hint : Option Int) : Except LuaString Results :=
  let out_len := (hint.getD (inb.length * 2) % 2 ^ 64).toNat
  if out_len < 1 ∨ out_len > INT_MAX then
    .error (ascii "Initial buffer size must be between 1 and 2147483647")
  else .ok (results mz_error (uncompressLoop mz_uncompress inb (resize [] out_len)))

/-- `mz_uncompress` asks for a larger buffer exactly when there are fewer than `size`
bytes for what `inb` decompresses to. Otherwise it delivers that, or another error. -/
structure Uncompresses (mz_uncompress : MzUncompress) (inb : LuaString) (size : Nat)
    (outcome : Except Int LuaString) : Prop where
  short : ∀ outb, (mz_uncompress outb inb).ret = MZ_BUF_ERROR ↔ outb.length < size
  data : ∀ text, outcome = .ok text → text.length = size ∧ ∀ outb, size ≤ outb.length →
    (mz_uncompress outb inb).ret = MZ_OK ∧ (mz_uncompress outb inb).out_len = size ∧
      (mz_uncompress outb inb).outb.take size = text
  failure : ∀ error, outcome = .error error → error ≠ MZ_OK ∧ ∀ outb, size ≤ outb.length →
    (mz_uncompress outb inb).ret = error

/-- The result that does not mention a hint. -/
def delivered (mz_error : Int → Option LuaString) : Except Int LuaString → Results
  | .ok text => .data text
  | .error error => .failure (mz_error error)

variable {mz_uncompress : MzUncompress} {inb : LuaString} {size : Nat}
  {outcome : Except Int LuaString}

/-- The loop ends with a call that had enough room: no size on the way there is out of
bounds, as a buffer that is too small has less than half of `INT_MAX` bytes. -/
theorem uncompressLoop_enough (callee : Uncompresses mz_uncompress inb size outcome)
    (bound : size ≤ INT_MAX / 2) (outb : LuaString) (positive : 0 < outb.length) :
    ∃ enough : LuaString, size ≤ enough.length ∧
      uncompressLoop mz_uncompress inb outb = (mz_uncompress enough inb).locals := by
  induction outb using uncompressLoop.induct mz_uncompress inb with
  | case1 outb call short out_len outb' inside ih =>
    obtain ⟨enough, room, same⟩ := ih (by rw [length_resize]; omega)
    refine ⟨enough, room, ?_⟩
    rw [uncompressLoop]
    exact (if_pos short).trans ((if_pos inside).trans same)
  | case2 outb call short out_len outside =>
    -- Too small a buffer is below half of the bound.
    have small := (callee.short outb).mp short
    have length := call.length_eq
    exact absurd ⟨by omega, by omega⟩ outside
  | case3 outb call large =>
    have room : size ≤ outb.length := Nat.le_of_not_lt fun small => large ((callee.short outb).mpr small)
    refine ⟨outb, room, ?_⟩
    rw [uncompressLoop]
    exact if_neg large

/-- A call with enough room delivers what the input holds. -/
theorem results_enough (callee : Uncompresses mz_uncompress inb size outcome)
    (mz_error : Int → Option LuaString) {enough : LuaString} (room : size ≤ enough.length) :
    results mz_error (mz_uncompress enough inb).locals = delivered mz_error outcome := by
  cases outcome with
  | ok text =>
    obtain ⟨ok, out_len, content⟩ := (callee.data text rfl).2 enough room
    simp only [results, MzReturn.locals, if_pos ok, out_len, content, delivered]
  | error error =>
    obtain ⟨other, failed⟩ := callee.failure error rfl
    have status := failed enough room
    simp only [results, MzReturn.locals, status, if_neg other, delivered]

theorem lmz_uncompress_delivers (callee : Uncompresses mz_uncompress inb size outcome)
    (mz_error : Int → Option LuaString) (bound : size ≤ INT_MAX / 2) (hint : Int)
    (least : 1 ≤ hint) (most : hint ≤ INT_MAX) :
    lmz_uncompress mz_uncompress mz_error inb (some hint) = .ok (delivered mz_error outcome) := by
  have maximum : INT_MAX = 2147483647 := rfl
  have unchanged : hint % 2 ^ 64 = hint := Int.emod_eq_of_lt (by omega) (by omega)
  have accepted : ¬(hint.toNat < 1 ∨ hint.toNat > INT_MAX) := by omega
  obtain ⟨enough, room, ended⟩ := uncompressLoop_enough callee bound (resize [] hint.toNat)
    (by rw [length_resize]; omega)
  simp only [lmz_uncompress, Option.getD_some, unchanged, if_neg accepted, ended]
  rw [results_enough callee mz_error room]

/-- The text of a zlib stream whose only block is stored: behind two bytes of header and
one that marks the last block come its length and the complement of that. -/
def storedText (inb : LuaString) : LuaString :=
  (inb.drop 7).take ((inb.getD 3 0).toNat + 256 * (inb.getD 4 0).toNat)

def uncompressStored (outb inb : LuaString) : MzReturn outb.length where
  ret := if outb.length < (storedText inb).length then MZ_BUF_ERROR else MZ_OK
  outb := (storedText inb ++ outb.drop (storedText inb).length).take outb.length
  length_eq := by
    rw [List.length_take, List.length_append, List.length_drop]
    omega
  out_len := min (storedText inb).length outb.length

theorem uncompressStored_uncompresses (inb : LuaString) :
    Uncompresses uncompressStored inb (storedText inb).length (.ok (storedText inb)) where
  short outb := by simp [uncompressStored, MZ_OK, MZ_BUF_ERROR]
  data text same := by
    obtain rfl := Except.ok.inj same
    refine ⟨rfl, fun outb room => ⟨if_neg (Nat.not_lt.mpr room), Nat.min_eq_left room, ?_⟩⟩
    simp [uncompressStored, List.take_take, Nat.min_eq_left room]
  failure error other := nomatch other

/-- Three bytes of data, and a buffer for one to begin with. -/
theorem lmz_uncompress_delivers_stored :
    lmz_uncompress uncompressStored (fun _ => none)
        [0x78, 0x01, 0x01, 0x03, 0x00, 0xFC, 0xFF, 0x61, 0x62, 0x63, 0x02, 0x4D, 0x01, 0x27]
        (some 1) =
      .ok (.data (ascii "abc")) :=
  lmz_uncompress_delivers (uncompressStored_uncompresses _) (fun _ => none) (by decide) 1
    (by decide) (by decide)

end EvoRuntime.Miniz
