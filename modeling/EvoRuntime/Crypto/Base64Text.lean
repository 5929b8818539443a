import EvoRuntime.Library.Regrouping
import EvoRuntime.Lua.Strings
import Mathlib.Data.List.GetD
import Mathlib.Data.List.Nodup

/-!
# Unpadded standard base64

The text of a byte string: each group of three bytes becomes four characters, two
remaining bytes become three and one remaining byte becomes two. The digits of the
text regroup the bits of the bytes, so the text determines the byte string.
-/
namespace EvoRuntime.Crypto

open Lua Library

def alphabet : LuaString :=
  ascii "ABCDEFGHIJKLMNOPQRSTUVWXYZabcdefghijklmnopqrstuvwxyz0123456789+/"

def character (digit : Nat) : UInt8 := alphabet.getD digit 0

def octets (s : LuaString) : List Nat := s.map UInt8.toNat

/-- The digits of the text, of six bits each. -/
def sextets : List Nat → List Nat
  | a :: b :: c :: rest =>
    [a / 4, a % 4 * 16 + b / 16, b % 16 * 4 + c / 64, c % 64] ++ sextets rest
  | [a, b] => [a / 4, a % 4 * 16 + b / 16, b % 16 * 4]
  | [a] => [a / 4, a % 4 * 16]
  | [] => []

def base64Text (s : LuaString) : LuaString := (sextets (octets s)).map character

/-- The length of the text of `n` bytes. -/
def encodedLength (n : Nat) : Nat :=
  4 * (n / 3) + if n % 3 = 0 then 0 else if n % 3 = 1 then 2 else 3

/-- The zero bits in the last digit. -/
def padding (n : Nat) : Nat := if n % 3 = 0 then 0 else if n % 3 = 1 then 4 else 2

theorem padding_lt (n : Nat) : padding n < 6 := by
  unfold padding
  split
  · decide
  · split <;> decide

theorem encodedLength_bits (n : Nat) : 6 * encodedLength n = 8 * n + padding n := by
  unfold encodedLength padding
  split
  · omega
  · split <;> omega

/-! ### The alphabet -/

theorem alphabet_length : alphabet.length = 64 := by decide

theorem alphabet_nodup : alphabet.Nodup := by decide

theorem character_mem {d : Nat} (small : d < 64) : character d ∈ alphabet := by
  rw [character, List.getD_eq_getElem _ _ (by rw [alphabet_length]; exact small)]
  exact List.getElem_mem _

theorem character_injective {d e : Nat} (left : d < 64) (right : e < 64)
    (same : character d = character e) : d = e := by
  rw [character, List.getD_eq_getElem _ _ (by rw [alphabet_length]; exact left), character,
    List.getD_eq_getElem _ _ (by rw [alphabet_length]; exact right)] at same
  exact (List.Nodup.getElem_inj_iff alphabet_nodup).mp same

theorem characters_injective {ds es : List Nat} (left : DigitsOf 6 ds) (right : DigitsOf 6 es)
    (same : ds.map character = es.map character) : ds = es := by
  induction ds generalizing es with
  | nil => exact (List.map_eq_nil_iff.mp same.symm).symm
  | cons d ds ih =>
    cases es with
    | nil => simp at same
    | cons e es =>
      simp only [List.map_cons, List.cons.injEq] at same
      rw [character_injective (left d List.mem_cons_self) (right e List.mem_cons_self) same.1,
        ih (fun d member => left d (List.mem_cons_of_mem _ member))
          (fun e member => right e (List.mem_cons_of_mem _ member)) same.2]

/-! ### The digits of the text -/

theorem octets_digits (s : LuaString) : DigitsOf 8 (octets s) := by
  intro d member
  obtain ⟨c, -, rfl⟩ := List.mem_map.mp member
  exact c.toNat_lt

theorem octets_injective {s t : LuaString} (same : octets s = octets t) : s = t :=
  List.map_injective_iff.mpr (fun _ _ => UInt8.toNat_inj.mp) same

theorem sextets_digits {bytes : List Nat} (digits : DigitsOf 8 bytes) :
    DigitsOf 6 (sextets bytes) := by
  fun_induction sextets bytes with
  | case1 a b c rest ih =>
    simp only [DigitsOf, List.mem_cons, List.mem_append, List.not_mem_nil, or_false, or_imp,
      forall_and, forall_eq] at digits ih ⊢
    obtain ⟨small, small', small'', rest⟩ := digits
    exact ⟨⟨by omega, by omega, by omega, by omega⟩, ih rest⟩
  | case2 a b =>
    simp only [DigitsOf, List.mem_cons, forall_eq_or_imp, List.not_mem_nil, or_false,
      forall_eq] at digits ⊢
    omega
  | case3 a =>
    simp only [DigitsOf, List.mem_cons, forall_eq_or_imp, List.not_mem_nil, or_false,
      forall_eq] at digits ⊢
    omega
  | case4 => simp [DigitsOf]

theorem padding_add_three (n : Nat) : padding (n + 3) = padding n := by
  simp [padding]

/-- The digits carry the bits of the bytes. -/
theorem sextets_regroups (bytes : List Nat) :
    Regroups 8 6 (padding bytes.length) bytes (sextets bytes) := by
  fun_induction sextets bytes with
  | case1 a b c rest ih =>
    -- Three bytes are exactly four digits, so no bits are left over.
    have block : Regroups 8 6 0 [a, b, c]
        [a / 4, a % 4 * 16 + b / 16, b % 16 * 4 + c / 64, c % 64] := by
      refine ⟨rfl, ?_⟩
      simp only [value_cons, value_nil, List.length_cons, List.length_nil]
      omega
    rw [List.length_cons, List.length_cons, List.length_cons, padding_add_three]
    exact block.append ih
  | case2 a b =>
    refine ⟨rfl, ?_⟩
    change value 6 _ = value 8 [a, b] * 2 ^ 2
    simp only [value_cons, value_nil, List.length_cons, List.length_nil]
    omega
  | case3 a =>
    refine ⟨rfl, ?_⟩
    change value 6 _ = value 8 [a] * 2 ^ 4
    simp only [value_cons, value_nil, List.length_cons, List.length_nil]
    omega
  | case4 => exact ⟨rfl, rfl⟩

/-- Digits that carry the bits of the bytes are those of the text. -/
theorem eq_sextets {pad : Nat} {s : LuaString} {ds : List Nat}
    (regroups : Regroups 8 6 pad (octets s) ds) (digits : DigitsOf 6 ds) (small : pad < 6) :
    ds = sextets (octets s) :=
  regroups.right_unique (sextets_regroups _) digits (sextets_digits (octets_digits s)) small
    (padding_lt _)

theorem length_base64Text (s : LuaString) : (base64Text s).length = encodedLength s.length := by
  have bits := (sextets_regroups (octets s)).bits
  have expected := encodedLength_bits s.length
  rw [octets, List.length_map] at bits
  rw [base64Text, List.length_map, octets]
  omega

theorem base64Text_injective {s t : LuaString} (same : base64Text s = base64Text t) : s = t := by
  have digits := characters_injective (sextets_digits (octets_digits s))
    (sextets_digits (octets_digits t)) same
  -- Both byte strings regroup to the same digits.
  have left := sextets_regroups (octets s)
  have right := sextets_regroups (octets t)
  rw [← digits] at right
  exact octets_injective (left.left_unique right (octets_digits s) (octets_digits t)
    (Nat.lt_trans (padding_lt _) (by decide)) (Nat.lt_trans (padding_lt _) (by decide)))

theorem base64Text_mem_alphabet (s : LuaString) : ∀ c ∈ base64Text s, c ∈ alphabet := by
  intro c member
  obtain ⟨d, digit, rfl⟩ := List.mem_map.mp member
  exact character_mem (sextets_digits (octets_digits s) d digit)

example : base64Text (ascii "saltsalt") = ascii "c2FsdHNhbHQ" := by decide

end EvoRuntime.Crypto
