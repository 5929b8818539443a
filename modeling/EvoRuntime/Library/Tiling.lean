import Mathlib.Data.List.Basic
import Mathlib.Data.List.Forall2
import Mathlib.Tactic.Common

/-!
# Cutting into pieces

An interval is cut into pieces of one length, the last of which may be shorter. The pieces
cover it without gaps and overlaps, and those of a list make up the list. Initial parts of
the pieces make up the list only if they are the whole pieces.
-/
namespace EvoRuntime.Library

variable {α : Type*}

/-- Ranges, as start and length, that cover an interval from left to right. -/
inductive Tiles : List (Nat × Nat) → Nat → Nat → Prop
  | nil (start : Nat) : Tiles [] start start
  | cons {start length stop : Nat} {rest : List (Nat × Nat)} (positive : 0 < length)
      (more : Tiles rest (start + length) stop) : Tiles ((start, length) :: rest) start stop

theorem Tiles.concat {ranges : List (Nat × Nat)} {start stop length : Nat}
    (tiles : Tiles ranges start stop) (positive : 0 < length) :
    Tiles (ranges ++ [(stop, length)]) start (stop + length) := by
  induction tiles with
  | nil start => exact .cons positive (.nil _)
  | cons positive' more ih => exact .cons positive' ih

/-- The size divided by the length of a piece, rounded up. -/
def pieceCount (piece size : Nat) : Nat := (size + piece - 1) / piece

def pieceLength (piece size i : Nat) : Nat := min piece (size - i * piece)

variable {piece size : Nat}

theorem lt_pieceCount_iff (positive : 0 < piece) (i : Nat) :
    i < pieceCount piece size ↔ i * piece < size := by
  rw [pieceCount, ← Nat.succ_le_iff, Nat.le_div_iff_mul_le positive, Nat.succ_mul]
  omega

theorem pieceLength_pos (positive : 0 < piece) {i : Nat} (inside : i * piece < size) :
    0 < pieceLength piece size i := by
  rw [pieceLength]
  omega

theorem pieceCount_covers (positive : 0 < piece) : size ≤ pieceCount piece size * piece := by
  have beyond : ¬pieceCount piece size * piece < size :=
    (lt_pieceCount_iff positive _).not.mp (Nat.lt_irrefl _)
  exact Nat.not_lt.mp beyond

/-- A piece that is not the last one ends where the next one begins. -/
theorem piece_end {i : Nat} (more : i * piece + pieceLength piece size i < size) :
    i * piece + pieceLength piece size i = (i + 1) * piece := by
  rw [pieceLength] at more ⊢
  rw [Nat.succ_mul]
  omega

theorem last_piece (positive : 0 < piece) {i : Nat} (inside : i * piece < size)
    (ends : size ≤ i * piece + pieceLength piece size i) : i + 1 = pieceCount piece size := by
  have covered : ¬i + 1 < pieceCount piece size := by
    rw [lt_pieceCount_iff positive, Nat.succ_mul]
    rw [pieceLength] at ends
    omega
  have below := (lt_pieceCount_iff positive i).mpr inside
  omega

/-- The first pieces cover the interval up to where they end. -/
theorem tiles_pieces (positive : 0 < piece) (k : Nat) (inside : k ≤ pieceCount piece size) :
    Tiles ((List.range k).map fun i => (i * piece, pieceLength piece size i)) 0
      (min (k * piece) size) := by
  induction k with
  | zero =>
    rw [Nat.zero_mul, Nat.zero_min]
    exact .nil 0
  | succ k ih =>
    have below := (lt_pieceCount_iff positive k).mp inside
    have before := ih (Nat.le_of_succ_le inside)
    rw [Nat.min_eq_left (Nat.le_of_lt below)] at before
    have next : min ((k + 1) * piece) size = k * piece + pieceLength piece size k := by
      rw [pieceLength, Nat.succ_mul]
      omega
    rw [List.range_succ, List.map_append, next]
    exact before.concat (pieceLength_pos positive below)

theorem tiles_all (positive : 0 < piece) :
    Tiles ((List.range (pieceCount piece size)).map fun i => (i * piece, pieceLength piece size i))
      0 size := by
  have tiles : Tiles ((List.range (pieceCount piece size)).map fun i =>
      (i * piece, pieceLength piece size i)) 0 (min (pieceCount piece size * piece) size) :=
    tiles_pieces positive _ (Nat.le_refl _)
  rwa [Nat.min_eq_right (pieceCount_covers positive)] at tiles

/-! ### Pieces of a list -/

def cut (piece : Nat) (xs : List α) : List (List α) :=
  (List.range (pieceCount piece xs.length)).map fun i => (xs.drop (i * piece)).take piece

theorem length_cut (piece : Nat) (xs : List α) : (cut piece xs).length = pieceCount piece xs.length := by
  rw [cut, List.length_map, List.length_range]

theorem flatten_cut (positive : 0 < piece) (xs : List α) : (cut piece xs).flatten = xs := by
  have first (k : Nat) : ((List.range k).map fun i => (xs.drop (i * piece)).take piece).flatten =
      xs.take (k * piece) := by
    induction k with
    | zero => simp
    | succ k ih =>
      rw [List.range_succ, List.map_append, List.flatten_append, ih, Nat.succ_mul, List.take_add]
      simp
  rw [cut, first, List.take_of_length_le (pieceCount_covers positive)]

/-- Initial parts that are as long as the whole are the whole. -/
theorem eq_of_flatten {parts wholes : List (List α)} (initial : List.Forall₂ (· <+: ·) parts wholes)
    (lengths : parts.flatten.length = wholes.flatten.length) : parts = wholes := by
  have shorter {parts wholes : List (List α)} (initial : List.Forall₂ (· <+: ·) parts wholes) :
      parts.flatten.length ≤ wholes.flatten.length := by
    induction initial with
    | nil => exact Nat.le_refl _
    | cons first _ ih =>
      rw [List.flatten_cons, List.flatten_cons, List.length_append, List.length_append]
      exact Nat.add_le_add first.length_le ih
  induction initial with
  | nil => rfl
  | cons first rest ih =>
    rw [List.flatten_cons, List.flatten_cons, List.length_append, List.length_append] at lengths
    have one := first.length_le
    have others := shorter rest
    rw [first.eq_of_length (by omega), ih (by omega)]

theorem flatten_eq_iff (positive : 0 < piece) {xs : List α} {parts : List (List α)}
    (initial : List.Forall₂ (· <+: ·) parts (cut piece xs)) :
    parts.flatten = xs ↔ parts = cut piece xs := by
  constructor
  · intro whole
    exact eq_of_flatten initial (by rw [whole, flatten_cut positive])
  · rintro rfl
    exact flatten_cut positive xs

end EvoRuntime.Library
