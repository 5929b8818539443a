import EvoRuntime.Crypto.Argon2Decode

/-!
# `crypto.toCompactBase64` and `crypto.fromCompactBase64`

Both write into the space that `reserve` returns and commit what the C++ function
says it has written. The writable length is at least the length asked for; how much
more it is depends on the history of the buffer, so it is a parameter.

The size asked for has no place for the NUL that `argon2_to_base64` writes:
`compactBase64_roundTrips_iff` says that one more byte decides.
-/
namespace EvoRuntime.Crypto

open Lua Library

/-- `math.ceil(a / b)`. -/
def ceilDiv (a b : Nat) : Nat := (a + b - 1) / b

def getSizeOfCompactBase64 (input : LuaString) : Nat :=
  let blockCount := input.length / 3
  let numLeftoverBytes := input.length % 3
  let numLeftoverBits := numLeftoverBytes * 8
  let numLeftoverChars := ceilDiv numLeftoverBits 6
  blockCount * 4 + numLeftoverChars

/-- `commit` and `tostring` after the reserved space was written to. The committed
length is what the C++ function returned; `(size_t) -1` is no length of any buffer. -/
def commit (reserved : UInt64) (result : LuaString × Option UInt64) : Except LuaError LuaString :=
  let outOfRange : LuaError := ⟨"bad argument #1 to 'commit' (number out of range)"⟩
  match result.2 with
  | none => .error outOfRange
  | some numBytesWritten =>
    -- more than the writable length cannot be committed
    if numBytesWritten > reserved then .error outOfRange
    else .ok (result.1.take numBytesWritten.toNat)

/-- `len` is the writable length returned by `reserve(requiredSpace)`. -/
def toCompactBase64 (len : UInt64) (input : LuaString) : Except LuaError LuaString :=
  commit len (argon2ToBase64 len input)

/-- The space that `fromCompactBase64` asks for. -/
def decodedSpace (encodedHash : LuaString) : Nat := ceilDiv (encodedHash.length * 3) 4

def fromCompactBase64 (len : UInt64) (encodedHash : LuaString) : Except LuaError LuaString :=
  commit len (argon2FromBase64 len encodedHash)

/-! ### Sizes -/

theorem getSizeOfCompactBase64_eq (input : LuaString) :
    getSizeOfCompactBase64 input = encodedLength input.length := by
  have remainders : input.length % 3 = 0 ∨ input.length % 3 = 1 ∨ input.length % 3 = 2 := by omega
  unfold getSizeOfCompactBase64 encodedLength ceilDiv
  rcases remainders with left | left | left <;> simp only [left] <;> simp <;> omega

theorem decodedSpace_enough (s : LuaString) : s.length ≤ decodedSpace (base64Text s) := by
  have bits := encodedLength_bits s.length
  rw [decodedSpace, length_base64Text, ceilDiv]
  omega

/-! ### The encoder -/

theorem toCompactBase64_roomy {len : UInt64} {s : LuaString}
    (room : getSizeOfCompactBase64 s < len.toNat) : toCompactBase64 len s = .ok (base64Text s) := by
  rw [getSizeOfCompactBase64_eq] at room
  have size : (UInt64.ofNat (encodedLength s.length)).toNat = encodedLength s.length :=
    UInt64.toNat_ofNat_of_lt' (Nat.lt_trans room len.toNat_lt)
  rw [toCompactBase64, argon2ToBase64_eq len s room, commit]
  dsimp only
  rw [if_neg (by rw [gt_iff_lt, UInt64.lt_iff_toNat_lt, size]; omega), size, ← length_base64Text,
    List.take_left]

/-- Without room for the NUL nothing is committed. -/
theorem toCompactBase64_tight {len : UInt64} {s : LuaString}
    (tight : getSizeOfCompactBase64 s = len.toNat) :
    toCompactBase64 len s = .error ⟨"bad argument #1 to 'commit' (number out of range)"⟩ := by
  rw [getSizeOfCompactBase64_eq] at tight
  rw [toCompactBase64, argon2ToBase64_full len s (by omega) (by have limit := len.toNat_lt; omega)]
  rfl

/-- A text that is returned is the standard one. -/
theorem toCompactBase64_ok {len : UInt64} {s text : LuaString}
    (reserved : getSizeOfCompactBase64 s ≤ len.toNat) (returned : toCompactBase64 len s = .ok text) :
    text = base64Text s := by
  rcases Nat.lt_or_eq_of_le reserved with room | tight
  · rw [toCompactBase64_roomy room, Except.ok.injEq] at returned
    exact returned.symm
  · rw [toCompactBase64_tight tight] at returned
    exact absurd returned nofun

/-- `toCompactBase64` returns a text of the expected length, from which
`fromCompactBase64` restores the input. -/
def CompactRoundTrips (len : UInt64) (s : LuaString) : Prop :=
  ∃ text, toCompactBase64 len s = .ok text ∧ text.length = getSizeOfCompactBase64 s ∧
    ∀ len' : UInt64, decodedSpace text ≤ len'.toNat → fromCompactBase64 len' text = .ok s

/-- With the writable length returned by `reserve`, the round trip works exactly if
it is longer than the length asked for. -/
theorem compactBase64_roundTrips_iff (s : LuaString) (len : UInt64)
    (reserved : getSizeOfCompactBase64 s ≤ len.toNat) :
    CompactRoundTrips len s ↔ getSizeOfCompactBase64 s < len.toNat := by
  constructor
  · rintro ⟨text, returned, -⟩
    refine Nat.lt_of_le_of_ne reserved fun tight => ?_
    rw [toCompactBase64_tight tight] at returned
    exact absurd returned nofun
  · intro room
    refine ⟨base64Text s, toCompactBase64_roomy room, ?_, fun len' enough => ?_⟩
    · rw [length_base64Text, getSizeOfCompactBase64_eq]
    · have fits : s.length ≤ len'.toNat := Nat.le_trans (decodedSpace_enough s) enough
      -- The Lua string ends where the text does.
      have nul : readText [] = [] := rfl
      have reads := readText_append (base64Text_mem_alphabet s) []
      rw [nul, List.append_nil] at reads
      have size : (UInt64.ofNat s.length).toNat = s.length :=
        UInt64.toNat_ofNat_of_lt' (Nat.lt_of_le_of_lt fits len'.toNat_lt)
      rw [fromCompactBase64, argon2FromBase64_accepts len' _ s fits reads, commit]
      dsimp only
      rw [if_neg (by rw [gt_iff_lt, UInt64.lt_iff_toNat_lt, size]; omega), size, List.take_length]

theorem compactBase64_roundTrips_salt :
    CompactRoundTrips 128 (ascii "saltsalt") ↔
      getSizeOfCompactBase64 (ascii "saltsalt") < (128 : UInt64).toNat :=
  compactBase64_roundTrips_iff (ascii "saltsalt") 128 (by decide)

/-- 96 bytes take 128 characters, the size with which the buffer was created. -/
theorem compactBase64_not_roundTrips :
    getSizeOfCompactBase64 (List.replicate 96 0) ≤ (128 : UInt64).toNat ∧
      ¬CompactRoundTrips 128 (List.replicate 96 0) := by
  refine ⟨by decide, ?_⟩
  rintro ⟨text, returned, -⟩
  have failed : toCompactBase64 128 (List.replicate 96 0) =
      .error ⟨"bad argument #1 to 'commit' (number out of range)"⟩ := by rfl
  rw [failed] at returned
  exact absurd returned nofun

end EvoRuntime.Crypto
