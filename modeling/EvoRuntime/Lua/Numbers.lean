import Mathlib.Algebra.Group.Int.Defs
import Mathlib.Algebra.Group.Nat.Defs
import Mathlib.Tactic.Common

/-!
# Lua numbers

Numbers are doubles. Integers that need more than 53 bits are rounded to nearest,
ties to even. Library functions convert their arguments to 32-bit integers, and what
they do with numbers out of range depends on the platform.
-/
namespace EvoRuntime.Lua

/-- `tonumber(n)` for an unsigned 64-bit integer, and the result of integer arithmetic. -/
def roundToDouble (n : Nat) : Nat :=
  let unit := 2 ^ (n.log2 + 1 - 53)
  let low := n % unit
  let significand := n / unit
  if 2 * low > unit ∨ 2 * low = unit ∧ significand % 2 = 1 then (significand + 1) * unit
  else significand * unit

structure IntegerArguments where
  toInt : Int → Int
  toInt_eq : ∀ n, -2 ^ 31 ≤ n → n < 2 ^ 31 → toInt n = n

theorem roundToDouble_eq {n : Nat} (exact_ : n < 2 ^ 53) : roundToDouble n = n := by
  have bits : n.log2 + 1 - 53 = 0 := by
    rcases Nat.eq_zero_or_pos n with rfl | positive
    · decide
    · have fits := (Nat.log2_lt (by omega)).mpr exact_
      omega
  simp [roundToDouble, bits, Nat.mod_one]

/-- Rounding does not bring a large integer into the exact range. -/
theorem lt_of_roundToDouble_lt {n : Nat} (exact_ : roundToDouble n < 2 ^ 53) : n < 2 ^ 53 := by
  by_contra large
  have bits : 53 ≤ n.log2 := (Nat.le_log2 (by omega)).mpr (by omega)
  have below : 2 ^ n.log2 ≤ n := Nat.log2_self_le (by omega)
  obtain ⟨k, exponent⟩ : ∃ k, n.log2 + 1 - 53 = k + 1 := ⟨n.log2 - 53, by omega⟩
  have power : 2 ^ n.log2 = 2 ^ 52 * 2 ^ (k + 1) := by
    rw [← Nat.pow_add]
    congr 1
    omega
  have significand : 2 ^ 52 ≤ n / 2 ^ (k + 1) :=
    (Nat.le_div_iff_mul_le (Nat.two_pow_pos _)).mpr (power ▸ below)
  have unit : 2 ≤ 2 ^ (k + 1) := Nat.le_self_pow (by omega) 2
  -- Rounding down leaves at least `2 ^ 52` units.
  have floor : 2 ^ 53 ≤ n / 2 ^ (k + 1) * 2 ^ (k + 1) := Nat.mul_le_mul significand unit
  have rounded : n / 2 ^ (k + 1) * 2 ^ (k + 1) ≤ roundToDouble n := by
    simp only [roundToDouble, exponent]
    split
    · exact Nat.mul_le_mul_right _ (Nat.le_succ _)
    · exact Nat.le_refl _
  omega
end EvoRuntime.Lua
