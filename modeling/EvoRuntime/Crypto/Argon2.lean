import EvoRuntime.Lua.Strings

/-!
# The Argon2 base64 codec

A C buffer that is only written from its start on is the list of the bytes written
so far. `static_cast<size_t>(-1)`, returned on failure, is `none`. The bit counters
stay below 32 and are natural numbers; the accumulators wrap.
-/
namespace EvoRuntime.Crypto

open Lua

def base64Chars : LuaString :=
  ascii "ABCDEFGHIJKLMNOPQRSTUVWXYZ" ++ ascii "abcdefghijklmnopqrstuvwxyz" ++ ascii "0123456789+/"

def b64ByteToChar (x : UInt32) : UInt8 := base64Chars.getD x.toNat 0

/-! ### The comparison macros -/

def EQ (x y : UInt32) : UInt32 := (((0 - (x ^^^ y)) >>> 8) &&& 0xFF) ^^^ 0xFF

def GT (x y : UInt32) : UInt32 := ((y - x) >>> 8) &&& 0xFF

def GE (x y : UInt32) : UInt32 := GT y x ^^^ 0xFF

def LE (x y : UInt32) : UInt32 := GE y x

/-- A `char`, which is signed, as an `int` that is then used as an `unsigned`. -/
def signedChar (c : UInt8) : UInt32 := c.toInt8.toInt32.toUInt32

/-- The code of a character literal. -/
def code (c : Char) : UInt32 := UInt32.ofNat c.toNat

def b64CharToByte (c : UInt32) : UInt32 :=
  let x := (GE c (code 'A') &&& LE c (code 'Z') &&& (c - code 'A')) |||
    (GE c (code 'a') &&& LE c (code 'z') &&& (c - (code 'a' - 26))) |||
    (GE c (code '0') &&& LE c (code '9') &&& (c - (code '0' - 52))) |||
    (EQ c (code '+') &&& 62) ||| (EQ c (code '/') &&& 63)
  x ||| (EQ x 0 &&& (EQ c (code 'A') ^^^ 0xFF))

/-! ### `argon2_to_base64` -/

structure EncodeState where
  dst : LuaString
  acc : UInt32
  accLen : Nat

/-- `while(acc_len >= 6)`. -/
def emitChars (dst : LuaString) (acc : UInt32) : Nat → EncodeState
  -- the digit on top of the bits that are left
  | accLen + 6 =>
    emitChars (dst ++ [b64ByteToChar ((acc >>> UInt32.ofNat accLen) &&& 0x3F)]) acc accLen
  | accLen => ⟨dst, acc, accLen⟩

/-- Three bytes at a time, with the bytes that remain. -/
def encodeBlocks : LuaString → EncodeState → EncodeState × LuaString
  | a :: b :: c :: src, state =>
    encodeBlocks src (emitChars state.dst
      ((state.acc <<< 24) + (a.toUInt32 <<< 16) + (b.toUInt32 <<< 8) + c.toUInt32) 24)
  -- at most two bytes are left for the loop over single bytes
  | src, state => (state, src)

def encodeBytes : LuaString → EncodeState → EncodeState
  | [], state => state
  | c :: src, state =>
    encodeBytes src (emitChars state.dst ((state.acc <<< 8) + c.toUInt32) (state.accLen + 8))

def encodePartial (state : EncodeState) : LuaString :=
  if state.accLen > 0 then
    state.dst ++ [b64ByteToChar ((state.acc <<< UInt32.ofNat (6 - state.accLen)) &&& 0x3F)]
  else state.dst

/-- The length of the text without its NUL. -/
def encodedSize (srcLen : UInt64) : UInt64 :=
  let olen := (srcLen / 3) <<< 2
  if srcLen % 3 = 2 then olen + 1 + 2
  else if srcLen % 3 = 1 then olen + 2
  else olen

/-- What is written to `dst`, and the returned value. -/
def argon2ToBase64 (dstLen : UInt64) (src : LuaString) : LuaString × Option UInt64 :=
  let olen := encodedSize (UInt64.ofNat src.length)
  -- the NUL needs a byte as well
  if dstLen ≤ olen then ([], none)
  else
    let (state, rest) := encodeBlocks src ⟨[], 0, 0⟩
    (encodePartial (encodeBytes rest state) ++ [0], some olen)

/-! ### `argon2_from_base64` -/

structure DecodeState where
  buf : LuaString
  len : UInt64
  acc : UInt32
  accLen : Nat

/-- The loop over the characters, and whether it found the buffer full. -/
def decodeChars (dstLen : UInt64) : LuaString → DecodeState → DecodeState × Bool
  -- the NUL that ends the text is no digit
  | [], state => (state, false)
  | c :: src, state =>
    let d := b64CharToByte (signedChar c)
    -- 0xFF marks a byte that is no digit
    if d > 63 then (state, false)
    else
      let acc := (state.acc <<< 6) + d
      let accLen := state.accLen + 6
      if accLen ≥ 8 then
        let accLen := accLen - 8
        if state.len ≥ dstLen then (⟨state.buf, state.len, acc, accLen⟩, true)
        else
          let byte := ((acc >>> UInt32.ofNat accLen) &&& 0xFF).toUInt8
          decodeChars dstLen src ⟨state.buf ++ [byte], state.len + 1, acc, accLen⟩
      else decodeChars dstLen src ⟨state.buf, state.len, acc, accLen⟩

/-- What is written to `dst`, and the returned value. -/
def argon2FromBase64 (dstLen : UInt64) (src : LuaString) : LuaString × Option UInt64 :=
  let (state, full) := decodeChars dstLen src ⟨[], 0, 0, 0⟩
  if full then (state.buf, none)
  -- a lone character, or bits behind the last byte that are not zero
  else if state.accLen > 4 ∨ state.acc &&& ((1 <<< UInt32.ofNat state.accLen) - 1) ≠ 0 then
    (state.buf, none)
  else (state.buf, some state.len)

example : argon2ToBase64 12 (ascii "saltsalt") = (ascii "c2FsdHNhbHQ" ++ [0], some 11) := by decide

example : argon2FromBase64 8 (ascii "c2FsdHNhbHQ") = (ascii "saltsalt", some 8) := by decide

end EvoRuntime.Crypto
