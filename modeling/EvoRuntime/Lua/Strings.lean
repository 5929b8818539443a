import Mathlib.Algebra.Group.Nat.Defs
import Mathlib.Data.List.Basic
import Mathlib.Data.List.TakeWhile
import Mathlib.Tactic.Common

/-!
# Lua strings

A Lua string is a sequence of bytes without a terminator, so it is modelled by
the list of its bytes. `sub` is `string.sub`, with indices that start at one and
count from the end when they are negative.
-/
namespace EvoRuntime.Lua

abbrev LuaString := List UInt8

/-- The bytes of a text literal of the source. -/
def ascii (text : String) : LuaString :=
  text.toList.map fun c => UInt8.ofNat c.toNat

/-- An error raised by Lua code. -/
structure LuaError where
  message : String
  deriving DecidableEq, Repr

/-- LuaJIT refuses to build a string of this many bytes. -/
def maxStringLength : Nat := 2 ^ 31

/-- `string.sub(s, i, j)`; an omitted `j` is `-1`. -/
def sub (s : LuaString) (i : Int) (j : Int := -1) : LuaString :=
  let start := if i < 0 then max (s.length + i + 1) 1 else max i 1
  let stop := if j < 0 then s.length + j + 1 else min j s.length
  (s.drop (start - 1).toNat).take (stop - (start - 1)).toNat

/-- `string.lower(s)`. -/
def lower (s : LuaString) : LuaString :=
  s.map fun c => if 0x41 ≤ c ∧ c ≤ 0x5A then c + 0x20 else c

/-- `string.format("%d", n)` for an integer that is not negative. -/
def decimal (n : Nat) : LuaString := (Nat.toDigits 10 n).map fun c => UInt8.ofNat c.toNat

/-- What `ffi.string(s)` and `std::string(s)` read from a `char*`: the bytes in front
of the first NUL. -/
def cString (s : LuaString) : LuaString := s.takeWhile (· ≠ 0)

/-- `string.byte(s)`: the first byte, or `nil` for the empty string. -/
def byte (s : LuaString) : Option UInt8 := s.head?

/-- A given text can be checked for bytes of one kind by evaluating it. -/
theorem clean_of_any {kind : UInt8 → Bool} {s : LuaString} (clean : s.any kind = false) :
    ∀ c ∈ s, kind c = false :=
  fun c member => eq_false_of_ne_true (List.any_eq_false.mp clean c member)

theorem sub_from (s : LuaString) (n : Nat) : sub s (n + 1) = s.drop n := by
  have start : max ((n : Int) + 1) 1 - 1 = n := by omega
  have stop : ((s.length : Int) + -1 + 1 - n).toNat = s.length - n := by omega
  simp only [sub, if_neg (show ¬((n : Int) + 1 < 0) by omega), start, Int.toNat_natCast,
    if_pos (show (-1 : Int) < 0 by decide), stop]
  exact List.take_of_length_le (by simp)

theorem sub_range (s : LuaString) (i j : Nat) : sub s (i + 1) j = (s.take j).drop i := by
  have start : max ((i : Int) + 1) 1 - 1 = i := by omega
  have stop : (min (j : Int) s.length - i).toNat = min j s.length - i := by omega
  simp only [sub, if_neg (show ¬((i : Int) + 1 < 0) by omega), start, Int.toNat_natCast,
    if_neg (show ¬((j : Int) < 0) by omega), stop]
  rw [List.drop_take, List.take_eq_take_iff, List.length_drop]
  omega

/-- A one-byte slice is the byte at that index, or empty past the end. -/
theorem sub_single (s : LuaString) (n : Nat) : sub s (n + 1) (n + 1) = s[n]?.toList := by
  have range := sub_range s n (n + 1)
  push_cast at range
  rw [range, List.drop_take, Nat.add_sub_cancel_left, List.take_one, List.head?_drop]

/-- A negative start counts bytes from the end. -/
theorem sub_suffix (s : LuaString) (n : Nat) (positive : 0 < n) (fits : n ≤ s.length) :
    sub s (-n) = s.drop (s.length - n) := by
  have start : (max ((s.length : Int) + -n + 1) 1 - 1) = ((s.length - n : Nat) : Int) := by omega
  have stop : ((s.length : Int) + -1 + 1 - ((s.length - n : Nat) : Int)).toNat = n := by omega
  simp only [sub, if_pos (show -(n : Int) < 0 by omega), start, Int.toNat_natCast,
    if_pos (show (-1 : Int) < 0 by decide), stop]
  exact List.take_of_length_le (by simp; omega)

/-! ### Lower case -/

@[simp] theorem lower_nil : lower [] = [] := rfl

@[simp] theorem length_lower (s : LuaString) : (lower s).length = s.length := List.length_map _

theorem lower_append (s t : LuaString) : lower (s ++ t) = lower s ++ lower t := List.map_append

theorem lower_cons_other {c : UInt8} (other : ¬(0x41 ≤ c ∧ c ≤ 0x5A)) (s : LuaString) :
    lower (c :: s) = c :: lower s := by
  rw [lower, List.map_cons, if_neg other]
  rfl

/-- Lower case brings in no byte but lower case letters. -/
theorem mem_lower_other {c : UInt8} (other : ¬(0x61 ≤ c ∧ c ≤ 0x7A)) {s : LuaString}
    (member : c ∈ lower s) : c ∈ s := by
  obtain ⟨d, inside, rfl⟩ := List.mem_map.mp member
  split at other
  next upper =>
    -- A letter would become a lower case letter.
    simp only [UInt8.le_iff_toNat_le, UInt8.toNat_add] at upper other
    have low : (0x41 : UInt8).toNat = 0x41 := rfl
    have high : (0x5A : UInt8).toNat = 0x5A := rfl
    have step : (0x20 : UInt8).toNat = 0x20 := rfl
    have first : (0x61 : UInt8).toNat = 0x61 := rfl
    have last : (0x7A : UInt8).toNat = 0x7A := rfl
    omega
  next same => rwa [if_neg same]

/-! ### C strings -/

/-- `strncpy` to an array of `size` characters, and a NUL at its end. -/
def copyCString (size : Nat) (s : LuaString) : LuaString :=
  ((cString s ++ List.replicate size 0).take size).set (size - 1) 0

/-- A text that survives the copy has no NUL in it and leaves room for one. -/
theorem cString_copyCString {size : Nat} {s : LuaString} (clean : 0 ∉ s) (fits : s.length < size) :
    cString (copyCString size s) = s := by
  have nonzero : ∀ c ∈ s, c ≠ 0 := fun c member zero => clean (zero ▸ member)
  have whole : cString s = s := List.takeWhile_eq_self_iff.mpr (by simpa using nonzero)
  obtain ⟨more, rfl⟩ : ∃ more, size = s.length + (more + 1) := ⟨size - s.length - 1, by omega⟩
  have copied : copyCString (s.length + (more + 1)) s = s ++ List.replicate (more + 1) 0 := by
    rw [copyCString, whole, List.take_append, List.take_of_length_le (by omega),
      Nat.add_sub_cancel_left, List.take_replicate, Nat.min_eq_left (by omega),
      List.set_append_right _ _ (by omega), List.set_replicate_self]
  rw [copied, List.replicate_succ, cString, List.takeWhile_append_of_pos (by simpa using nonzero),
    List.takeWhile_cons_of_neg (by simp), List.append_nil]

/-! ### Numbers as text -/

theorem digit_byte {c : Char} (digit : c.isDigit) :
    0x30 ≤ UInt8.ofNat c.toNat ∧ UInt8.ofNat c.toNat ≤ 0x39 ∧
      Char.ofNat (UInt8.ofNat c.toNat).toNat = c := by
  obtain ⟨least, most⟩ := Char.isDigit_iff_toNat.mp digit
  have byte : (UInt8.ofNat c.toNat).toNat = c.toNat :=
    UInt8.toNat_ofNat_of_lt' (Nat.lt_of_le_of_lt most (by decide))
  rw [UInt8.le_iff_toNat_le, UInt8.le_iff_toNat_le, byte]
  exact ⟨least, most, Char.ofNat_toNat c⟩

theorem decimal_byte {n : Nat} {c : UInt8} (member : c ∈ decimal n) : 0x30 ≤ c ∧ c ≤ 0x39 := by
  obtain ⟨d, digit, rfl⟩ := List.mem_map.mp member
  have byte := digit_byte (Nat.isDigit_of_mem_toDigits (by decide) (by decide) digit)
  exact ⟨byte.1, byte.2.1⟩

theorem decimal_injective {m n : Nat} (same : decimal m = decimal n) : m = n := by
  have chars : ∀ k, (decimal k).map (fun c => Char.ofNat c.toNat) = Nat.toDigits 10 k := by
    intro k
    rw [decimal, List.map_map]
    refine (List.map_congr_left fun c digit => ?_).trans (List.map_id _)
    exact (digit_byte (Nat.isDigit_of_mem_toDigits (by decide) (by decide) digit)).2.2
  rw [← Nat.ofDigitChars_ten_toDigits (n := m), ← chars, same, chars, Nat.ofDigitChars_ten_toDigits]

end EvoRuntime.Lua
