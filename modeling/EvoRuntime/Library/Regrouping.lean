import Mathlib.Data.Nat.Digits.Defs
import Mathlib.Tactic.Ring

/-!
# Regrouping bits into digits of another width

A list of digits of `v` bits and a list of digits of `w` bits carry the same bits
if they are the digits of the same number, the first digit being the most
significant one. `Regroups` allows zero bits after the last digit; up to the width
of one digit, each side then determines the other.

`Converting` is the invariant of a converter: it has read some digits, has written
others, and holds the bits in between.
-/
namespace EvoRuntime.Library

/-- The number with these digits of `width` bits, the first one most significant. -/
def value (width : Nat) (digits : List Nat) : Nat := Nat.ofDigits (2 ^ width) digits.reverse

def DigitsOf (width : Nat) (digits : List Nat) : Prop := ∀ d ∈ digits, d < 2 ^ width

theorem digitsOf_append {width : Nat} {ds : List Nat} (digits : DigitsOf width ds) {d : Nat}
    (small : d < 2 ^ width) : DigitsOf width (ds ++ [d]) :=
  List.forall_mem_append.mpr ⟨digits, List.forall_mem_singleton.mpr small⟩

@[simp] theorem value_nil (width : Nat) : value width [] = 0 := rfl

theorem value_append (width : Nat) (xs ys : List Nat) :
    value width (xs ++ ys) = value width xs * 2 ^ (width * ys.length) + value width ys := by
  rw [value, List.reverse_append, Nat.ofDigits_append, List.length_reverse, ← pow_mul, Nat.add_comm,
    Nat.mul_comm]
  rfl

@[simp] theorem value_singleton (width d : Nat) : value width [d] = d := Nat.ofDigits_singleton

theorem value_cons (width d : Nat) (ds : List Nat) :
    value width (d :: ds) = d * 2 ^ (width * ds.length) + value width ds := by
  rw [← List.singleton_append, value_append, value_singleton]

theorem value_inj {width : Nat} (positive : 0 < width) {xs ys : List Nat}
    (left : DigitsOf width xs) (right : DigitsOf width ys) (length : xs.length = ys.length)
    (same : value width xs = value width ys) : xs = ys := by
  have reversed := Nat.ofDigits_inj_of_len_eq (Nat.one_lt_two_pow (by omega)) (by simpa using length)
    (fun d member => left d (List.mem_reverse.mp member))
    (fun d member => right d (List.mem_reverse.mp member)) same
  exact List.reverse_inj.mp reversed

/-! ## Regrouping -/

/-- The digits `ys` carry the bits of `xs` and then `pad` zero bits. -/
structure Regroups (v w pad : Nat) (xs ys : List Nat) : Prop where
  bits : w * ys.length = v * xs.length + pad
  same : value w ys = value v xs * 2 ^ pad

namespace Regroups

variable {v w pad pad' : Nat} {xs xs' ys ys' : List Nat}

theorem append (first : Regroups v w 0 xs ys) (second : Regroups v w pad xs' ys') :
    Regroups v w pad (xs ++ xs') (ys ++ ys') := by
  refine ⟨?_, ?_⟩
  · rw [List.length_append, List.length_append, Nat.mul_add, Nat.mul_add, first.bits, second.bits]
    omega
  · rw [value_append, value_append, first.same, second.same, second.bits, pow_add, pow_zero]
    ring

/-- The digits to be regrouped determine the regrouped ones. -/
theorem right_unique (first : Regroups v w pad xs ys) (second : Regroups v w pad' xs ys')
    (digits : DigitsOf w ys) (digits' : DigitsOf w ys') (small : pad < w) (small' : pad' < w) :
    ys = ys' := by
  -- The number of digits is a rounded-up quotient, whatever the padding is.
  have split : ∀ n m, w * n = v * xs.length + m → m < w → n = (v * xs.length + w - 1) / w := by
    intro n m bits small
    refine (Nat.div_eq_of_lt_le ?_ ?_).symm
    · rw [Nat.mul_comm, bits]; omega
    · rw [Nat.add_mul, Nat.mul_comm n w, bits]; omega
  have length : ys.length = ys'.length := by
    rw [split _ _ first.bits small, split _ _ second.bits small']
  have pads : pad = pad' := by
    have left := first.bits
    have right := second.bits
    rw [length] at left
    omega
  -- Digit lists of one length are equal if they have the same value.
  refine value_inj (by omega) digits digits' length ?_
  rw [first.same, second.same, pads]

/-- The regrouped digits determine those they were made from. -/
theorem left_unique (first : Regroups v w pad xs ys) (second : Regroups v w pad' xs' ys)
    (digits : DigitsOf v xs) (digits' : DigitsOf v xs') (small : pad < v) (small' : pad' < v) :
    xs = xs' := by
  -- Here it is rounded down.
  have split : ∀ n m, w * ys.length = v * n + m → m < v → n = w * ys.length / v := by
    intro n m bits small
    rw [bits, Nat.mul_add_div (by omega), Nat.div_eq_of_lt small, Nat.add_zero]
  have length : xs.length = xs'.length := by
    rw [split _ _ first.bits small, split _ _ second.bits small']
  have pads : pad = pad' := by
    have left := first.bits
    have right := second.bits
    rw [length] at left
    omega
  refine value_inj (by omega) digits digits' length ?_
  have same : value v xs * 2 ^ pad = value v xs' * 2 ^ pad := by
    rw [← first.same, second.same, pads]
  exact Nat.eq_of_mul_eq_mul_right (Nat.two_pow_pos pad) same

end Regroups

/-! ## Converters -/

/-- A converter to digits of `v` bits has read digits of `w` bits, has written some
digits and holds `held` bits with the value `rest`. -/
structure Converting (v w : Nat) (read written : List Nat) (held rest : Nat) : Prop where
  bits : w * read.length = v * written.length + held
  same : value w read = value v written * 2 ^ held + rest
  rest_lt : rest < 2 ^ held

namespace Converting

variable {v w held rest : Nat} {read written : List Nat}

theorem start (v w : Nat) : Converting v w [] [] 0 0 := ⟨rfl, rfl, by decide⟩

theorem readDigit (state : Converting v w read written held rest) (d : Nat) (small : d < 2 ^ w) :
    Converting v w (read ++ [d]) written (held + w) (rest * 2 ^ w + d) := by
  refine ⟨?_, ?_, ?_⟩
  · rw [List.length_append, Nat.mul_add, state.bits, List.length_singleton]
    omega
  · rw [value_append, state.same, value_singleton, List.length_singleton, Nat.mul_one, pow_add]
    ring
  · calc rest * 2 ^ w + d < (rest + 1) * 2 ^ w := by rw [Nat.add_mul]; omega
      _ ≤ 2 ^ held * 2 ^ w := Nat.mul_le_mul_right _ state.rest_lt
      _ = 2 ^ (held + w) := (pow_add 2 held w).symm

theorem writeDigit (state : Converting v w read written (held + v) rest) :
    Converting v w read (written ++ [rest / 2 ^ held]) held (rest % 2 ^ held) := by
  refine ⟨?_, ?_, Nat.mod_lt _ (Nat.two_pow_pos held)⟩
  · rw [state.bits, List.length_append, List.length_singleton]
    ring
  · rw [state.same, value_append, value_singleton, List.length_singleton, Nat.mul_one, Nat.add_mul,
      Nat.add_assoc, Nat.div_add_mod', pow_add]
    ring

/-- If only zero bits are held, what was written regroups to what was read. -/
theorem regroups_of_rest (state : Converting v w read written held 0) :
    Regroups v w held written read :=
  ⟨state.bits, state.same⟩

/-- If what was read is the regrouping of some digits, these are as many as were
written, and only the zero bits are held. -/
theorem held_of_regroups {pad : Nat} {xs : List Nat} (state : Converting v w read written held rest)
    (few : held < v) (regroups : Regroups v w pad xs read) (digits : DigitsOf v xs)
    (digits' : DigitsOf v written) (small : pad < v) :
    written = xs ∧ held = pad ∧ rest = 0 := by
  have bits := state.bits
  rw [regroups.bits] at bits
  have length : xs.length = written.length := by
    have left := congrArg (· / v) bits
    simp only [Nat.mul_add_div (Nat.zero_lt_of_lt few), Nat.div_eq_of_lt few,
      Nat.div_eq_of_lt small, Nat.add_zero] at left
    exact left
  have pads : held = pad := by
    rw [length] at bits
    omega
  have same := state.same
  rw [regroups.same, ← pads] at same
  -- The quotient is what was written, and the remainder what is held.
  have top := congrArg (· / 2 ^ held) same
  have bottom := congrArg (· % 2 ^ held) same
  simp only [Nat.mul_div_cancel _ (Nat.two_pow_pos held), Nat.mul_comm (value v written),
    Nat.mul_add_div (Nat.two_pow_pos held), Nat.div_eq_of_lt state.rest_lt, Nat.add_zero] at top
  simp only [Nat.mul_mod_left, Nat.mul_add_mod_self_right, Nat.mod_eq_of_lt state.rest_lt] at bottom
  exact ⟨value_inj (by omega) digits' digits length.symm top.symm, pads, bottom.symm⟩

/-- With `pad` zero bits the held bits make up a last digit. -/
theorem regroups_flush {pad : Nat} (state : Converting v w read written held rest)
    (whole : held + pad = v) :
    Regroups w v pad read (written ++ [rest * 2 ^ pad]) := by
  refine ⟨?_, ?_⟩
  · rw [List.length_append, Nat.mul_add, List.length_singleton, state.bits]
    omega
  · rw [value_append, value_singleton, List.length_singleton, Nat.mul_one, state.same, ← whole,
      pow_add]
    ring

theorem regroups_empty (state : Converting v w read written 0 rest) :
    Regroups w v 0 read written := by
  have none : rest = 0 := by simpa using state.rest_lt
  refine ⟨state.bits.symm, ?_⟩
  rw [state.same, none]
  simp

end Converting

/-! ## Held bits in an accumulator -/

/-- Shifting a digit into an accumulator of `size` bits keeps the held bits. -/
theorem held_shift {size held w : Nat} (fits : held + w ≤ size) (acc d : Nat) (small : d < 2 ^ w) :
    (acc * 2 ^ w + d) % 2 ^ size % 2 ^ (held + w) = acc % 2 ^ held * 2 ^ w + d := by
  rw [Nat.mod_mod_of_dvd _ (pow_dvd_pow 2 fits), Nat.add_comm held w, pow_add, Nat.mod_mul,
    Nat.mul_comm acc, Nat.mul_add_mod, Nat.mod_eq_of_lt small, Nat.mul_add_div (Nat.two_pow_pos w),
    Nat.div_eq_of_lt small, Nat.add_zero, Nat.add_comm, Nat.mul_comm]

/-- The leading held digit, read from the accumulator. -/
theorem held_leading (acc held v : Nat) :
    acc % 2 ^ (held + v) / 2 ^ held = acc / 2 ^ held % 2 ^ v := by
  rw [pow_add, Nat.mod_mul_right_div_self]

theorem held_remaining (acc held v : Nat) :
    acc % 2 ^ (held + v) % 2 ^ held = acc % 2 ^ held :=
  Nat.mod_mod_of_dvd _ (pow_dvd_pow 2 (Nat.le_add_right held v))

end EvoRuntime.Library
