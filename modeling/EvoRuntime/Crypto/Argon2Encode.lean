import EvoRuntime.Crypto.Argon2
import EvoRuntime.Crypto.Base64Text

/-!
# `argon2_to_base64` writes base64 text

The accumulator wraps, but only the bits counted by `acc_len` are ever read again:
`Encoding` relates these to the bytes read and the characters written. The unrolled
loop reads three bytes into the accumulator before it writes.
-/
namespace EvoRuntime.Crypto

open Lua Library

/-- The encoder has read the bytes `read` and has written the digits `written`. -/
structure Encoding (read written : List Nat) (state : EncodeState) : Prop where
  digits : DigitsOf 6 written
  dst : state.dst = written.map character
  bits : Converting 6 8 read written state.accLen (state.acc.toNat % 2 ^ state.accLen)

/-! ### The accumulator -/

theorem shiftAmount {w : Nat} (small : w < 32) : (UInt32.ofNat w).toNat % 32 = w := by
  rw [UInt32.toNat_ofNat_of_lt' (Nat.lt_trans small (by decide)), Nat.mod_eq_of_lt small]

theorem toNat_shiftIn (acc d : UInt32) (w : Nat) (small : w < 32) :
    ((acc <<< UInt32.ofNat w) + d).toNat = (acc.toNat * 2 ^ w + d.toNat) % 2 ^ 32 := by
  rw [UInt32.toNat_add, UInt32.toNat_shiftLeft, shiftAmount small, Nat.shiftLeft_eq, Nat.mod_add_mod]

theorem toNat_leading (acc mask : UInt32) (held v : Nat) (small : held < 32)
    (ones : mask.toNat = 2 ^ v - 1) :
    ((acc >>> UInt32.ofNat held) &&& mask).toNat = acc.toNat / 2 ^ held % 2 ^ v := by
  rw [UInt32.toNat_and, UInt32.toNat_shiftRight, shiftAmount small, Nat.shiftRight_eq_div_pow, ones,
    Nat.and_two_pow_sub_one_eq_mod]

theorem toNat_flush (acc : UInt32) {held : Nat} (few : held < 6) :
    ((acc <<< UInt32.ofNat (6 - held)) &&& 0x3F).toNat =
      acc.toNat % 2 ^ held * 2 ^ (6 - held) := by
  have ones : (0x3F : UInt32).toNat = 2 ^ 6 - 1 := by decide
  have shifted := toNat_shiftIn acc 0 (6 - held) (by omega)
  -- The held bits move up to the front of a digit, and zeros follow them.
  have kept := held_shift (show held + (6 - held) ≤ 32 by omega) acc.toNat 0 (Nat.two_pow_pos _)
  rw [UInt32.add_zero, UInt32.toNat_zero] at shifted
  rw [show held + (6 - held) = 6 by omega] at kept
  rw [UInt32.toNat_and, shifted, ones, Nat.and_two_pow_sub_one_eq_mod, kept, Nat.add_zero]

theorem shift_block (acc : UInt32) (a b c : UInt8) :
    (acc <<< 24) + (a.toUInt32 <<< 16) + (b.toUInt32 <<< 8) + c.toUInt32 =
      (((((acc <<< 8) + a.toUInt32) <<< 8) + b.toUInt32) <<< 8) + c.toUInt32 := by
  -- Both sides shift modulo 2^32, so they agree as numbers.
  apply UInt32.toNat_inj.mp
  have first := a.toNat_lt
  have second := b.toNat_lt
  simp only [UInt32.toNat_add, UInt32.toNat_shiftLeft, Nat.shiftLeft_eq, UInt8.toNat_toUInt32,
    UInt32.reduceToNat, Nat.reduceMod, Nat.reducePow]
  omega

theorem base64Chars_eq : base64Chars = alphabet := by decide

namespace Encoding

variable {read written : List Nat} {dst : LuaString} {acc : UInt32} {accLen : Nat}

theorem readByte (state : Encoding read written ⟨dst, acc, accLen⟩) (fits : accLen + 8 ≤ 32)
    (c : UInt8) :
    Encoding (read ++ [c.toNat]) written ⟨dst, (acc <<< 8) + c.toUInt32, accLen + 8⟩ := by
  -- Above the held bits the accumulator may wrap, below it does not.
  have held : ((acc <<< 8) + c.toUInt32).toNat % 2 ^ (accLen + 8) =
      acc.toNat % 2 ^ accLen * 2 ^ 8 + c.toNat := by
    have shifted := toNat_shiftIn acc c.toUInt32 8 (by decide)
    rw [UInt8.toNat_toUInt32] at shifted
    exact (congrArg (· % 2 ^ (accLen + 8)) shifted).trans (held_shift fits _ _ c.toNat_lt)
  refine ⟨state.digits, state.dst, ?_⟩
  show Converting 6 8 _ _ _ (((acc <<< 8) + c.toUInt32).toNat % 2 ^ (accLen + 8))
  rw [held]
  exact state.bits.readDigit c.toNat c.toNat_lt

/-- One round of the inner loop. -/
theorem writeChar (state : Encoding read written ⟨dst, acc, accLen + 6⟩) (small : accLen < 32) :
    Encoding read (written ++ [acc.toNat / 2 ^ accLen % 2 ^ 6])
      ⟨dst ++ [b64ByteToChar ((acc >>> UInt32.ofNat accLen) &&& 0x3F)], acc, accLen⟩ := by
  have bits := state.bits.writeDigit
  rw [held_leading, held_remaining] at bits
  refine ⟨digitsOf_append state.digits (Nat.mod_lt _ (by decide)), ?_, bits⟩
  have dst := state.dst
  simp only at dst
  rw [dst, List.map_append, b64ByteToChar, base64Chars_eq,
    toNat_leading acc 0x3F accLen 6 small (by decide)]
  rfl

/-- After the inner loop less than one digit is held. -/
theorem emit (state : Encoding read written ⟨dst, acc, accLen⟩) (fits : accLen ≤ 32) :
    ∃ written', Encoding read written' (emitChars dst acc accLen) ∧
      (emitChars dst acc accLen).accLen < 6 := by
  fun_induction emitChars dst acc accLen generalizing written with
  -- The inner loop writes digits as long as there is a whole one.
  | case1 dst accLen ih => exact ih (state.writeChar (by omega)) (by omega)
  | case2 dst accLen few =>
    refine ⟨written, state, ?_⟩
    by_contra many
    exact few (accLen - 6) (by simp only at many; omega)

end Encoding

/-! ### The loops -/

theorem encodeBlocks_encoding (src : LuaString) (state : EncodeState) {read written : List Nat}
    (encoding : Encoding read written state) (empty : state.accLen = 0) :
    ∃ taken written', src = taken ++ (encodeBlocks src state).2 ∧
      Encoding (read ++ octets taken) written' (encodeBlocks src state).1 ∧
      (encodeBlocks src state).1.accLen = 0 := by
  fun_induction encodeBlocks src state generalizing read written with
  | case1 a b c src state ih =>
    obtain ⟨dst, acc', accLen⟩ := state
    subst empty
    -- The block reads three bytes at once, as if one after the other.
    have block := ((encoding.readByte (by decide) a).readByte (by decide) b).readByte (by decide) c
    rw [← shift_block] at block
    obtain ⟨written', emitted, -⟩ := block.emit (by decide)
    obtain ⟨taken, written'', shape, encoded, none⟩ := ih emitted rfl
    refine ⟨a :: b :: c :: taken, written'', by rw [List.cons_append, List.cons_append,
      List.cons_append, ← shape], ?_, none⟩
    simpa [octets] using encoded
  | case2 src state few => exact ⟨[], written, rfl, by simpa [octets] using encoding, empty⟩

theorem encodeBytes_encoding (src : LuaString) (state : EncodeState) {read written : List Nat}
    (encoding : Encoding read written state) (few : state.accLen < 6) :
    ∃ written', Encoding (read ++ octets src) written' (encodeBytes src state) ∧
      (encodeBytes src state).accLen < 6 := by
  induction src generalizing state read written with
  | nil => exact ⟨written, by simpa [octets, encodeBytes] using encoding, few⟩
  | cons c src ih =>
    obtain ⟨dst, acc, accLen⟩ := state
    simp only at few
    obtain ⟨written', emitted, few'⟩ := (encoding.readByte (by omega) c).emit (by omega)
    obtain ⟨written'', encoded, few''⟩ := ih _ emitted few'
    refine ⟨written'', ?_, few''⟩
    simpa [octets, encodeBytes] using encoded

/-- The bits that are left make up a last digit. -/
theorem encodePartial_regroups (state : EncodeState) {read written : List Nat}
    (encoding : Encoding read written state) (few : state.accLen < 6) :
    ∃ digits pad, encodePartial state = digits.map character ∧ DigitsOf 6 digits ∧ pad < 6 ∧
      Regroups 8 6 pad read digits := by
  obtain ⟨digits, dst, bits⟩ := encoding
  unfold encodePartial
  split
  next some =>
    have flushed := bits.regroups_flush (show state.accLen + (6 - state.accLen) = 6 by omega)
    have last := toNat_flush state.acc few
    refine ⟨_, 6 - state.accLen, ?_, digitsOf_append digits ?_, by omega, flushed⟩
    · rw [dst, List.map_append, b64ByteToChar, base64Chars_eq, last]
      rfl
    · rw [← last, UInt32.toNat_and]
      exact Nat.lt_of_le_of_lt Nat.and_le_right (by decide)
  next none =>
    have zero : state.accLen = 0 := by omega
    rw [zero] at bits
    exact ⟨written, 0, dst, digits, by decide, bits.regroups_empty⟩

/-! ### The function -/

theorem toNat_encodedSize {n : Nat} (fits : encodedLength n < 2 ^ 64) :
    (encodedSize (UInt64.ofNat n)).toNat = encodedLength n := by
  have bits := encodedLength_bits n
  have small : n < 2 ^ 64 := by omega
  have size : (UInt64.ofNat n).toNat = n := UInt64.toNat_ofNat_of_lt' small
  have two : UInt64.ofNat n % 3 = 2 ↔ n % 3 = 2 := by
    rw [← UInt64.toNat_inj, UInt64.toNat_mod, size]
    rfl
  have one : UInt64.ofNat n % 3 = 1 ↔ n % 3 = 1 := by
    rw [← UInt64.toNat_inj, UInt64.toNat_mod, size]
    rfl
  have whole : ((UInt64.ofNat n / 3) <<< 2).toNat = n / 3 * 4 % 2 ^ 64 := by
    rw [UInt64.toNat_shiftLeft, UInt64.toNat_div, size, Nat.shiftLeft_eq]
    rfl
  -- `olen` is computed modulo 2^64, which the text does not reach.
  have remainders : n % 3 = 0 ∨ n % 3 = 1 ∨ n % 3 = 2 := by omega
  simp only [encodedSize, two, one]
  rcases remainders with left | left | left
  · have length : encodedLength n = 4 * (n / 3) := by simp [encodedLength, left]
    rw [if_neg (by omega), if_neg (by omega), whole]
    omega
  · have length : encodedLength n = 4 * (n / 3) + 2 := by simp [encodedLength, left]
    rw [if_neg (by omega), if_pos left, UInt64.toNat_add, whole]
    change (_ + 2) % 2 ^ 64 = _
    omega
  · have length : encodedLength n = 4 * (n / 3) + 3 := by simp [encodedLength, left]
    rw [if_pos left, UInt64.toNat_add, UInt64.toNat_add, whole]
    change ((_ + 1) % 2 ^ 64 + 2) % 2 ^ 64 = _
    omega

/-- With room for the text and its NUL, both are written. -/
theorem argon2ToBase64_eq (dstLen : UInt64) (src : LuaString)
    (room : encodedLength src.length < dstLen.toNat) :
    argon2ToBase64 dstLen src =
      (base64Text src ++ [0], some (UInt64.ofNat (encodedLength src.length))) := by
  have fits := Nat.lt_trans room dstLen.toNat_lt
  have size := toNat_encodedSize fits
  have initial : Encoding [] [] ⟨[], 0, 0⟩ := ⟨by simp [DigitsOf], rfl, Converting.start 6 8⟩
  obtain ⟨taken, written, shape, blocks, empty⟩ := encodeBlocks_encoding src _ initial rfl
  obtain ⟨written', bytes, few⟩ :=
    encodeBytes_encoding (encodeBlocks src ⟨[], 0, 0⟩).2 _ blocks (by omega)
  obtain ⟨digits, pad, text, digitsOf, small, regroups⟩ := encodePartial_regroups _ bytes few
  -- What the unrolled loop leaves is read by the loop over single bytes.
  have read : [] ++ octets taken ++ octets (encodeBlocks src ⟨[], 0, 0⟩).2 = octets src := by
    rw [List.nil_append, octets, octets, ← List.map_append, ← shape, octets]
  rw [read] at regroups
  unfold argon2ToBase64
  rw [if_neg (by rw [UInt64.le_iff_toNat_le, size]; omega)]
  simp only [text, eq_sextets regroups digitsOf small]
  rw [← size, UInt64.ofNat_toNat]
  rfl

theorem argon2ToBase64_full (dstLen : UInt64) (src : LuaString)
    (full : dstLen.toNat ≤ encodedLength src.length) (fits : encodedLength src.length < 2 ^ 64) :
    argon2ToBase64 dstLen src = ([], none) := by
  unfold argon2ToBase64
  rw [if_pos (by rw [UInt64.le_iff_toNat_le, toNat_encodedSize fits]; exact full)]

end EvoRuntime.Crypto
