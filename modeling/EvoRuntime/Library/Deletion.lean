import EvoRuntime.Library.Joining
import EvoRuntime.Library.Patterns
import Mathlib.Data.List.Infix

/-!
# Deleting units in passes

A unit starts with an opening character, ends with a closing one, and has neither of them in
between. A pass deletes all units of one kind, and several passes run one after the other. What
one pass deletes may leave a unit of an earlier kind behind, put together from what stood around
it.

## Main results

`vanishes_iff`: what the passes delete as a whole is a sequence of units that may themselves be
interrupted by what earlier passes delete.

`infix_run_iff`: a unit is left in a text if and only if the text contains the unit interrupted
by texts that vanish, of which one is still there when the pass for the unit comes.

## Proof strategy

Both are shown one pass at a time. An interrupted text behind a pass comes from an interrupted
text in front of it (`Spread.pull`), and goes over to one unless the pass deletes it
(`Spread.push`).
-/
namespace EvoRuntime.Library

variable {α : Type*} {opening closing : α}

def IsBracketed (opening closing : α) (w : List α) : Prop :=
  ∃ body, w = opening :: (body ++ [closing]) ∧ opening ∉ body ++ [closing] ∧
    closing ∉ opening :: body

/-- Deleting all units of one kind, from the front to the end. -/
structure DeletionPass (opening closing : α) where
  IsUnit : List α → Prop
  delete : List α → List α
  bracketed : ∀ {w}, IsUnit w → IsBracketed opening closing w
  delete_nil : delete [] = []
  delete_unit : ∀ {w}, IsUnit w → ∀ s, delete (w ++ s) = delete s
  delete_other : ∀ {c s}, (∀ w, IsUnit w → ¬w <+: c :: s) → delete (c :: s) = c :: delete s

/-- The passes run one after the other. -/
def runPasses (passes : List (DeletionPass opening closing)) (s : List α) : List α :=
  passes.foldl (fun s pass => pass.delete s) s

/-- A text with something between its characters: `Spread w insertions x` says that `x` is `w`
with one of the insertions behind each character but the last one. -/
inductive Spread : List α → List (List α) → List α → Prop
  | last (c : α) : Spread [c] [] [c]
  | cons (c : α) (v : List α) {w x : List α} {insertions : List (List α)}
      (later : Spread w insertions x) : Spread (c :: w) (v :: insertions) (c :: (v ++ x))

/-- A sequence of units, each of them interrupted by what the passes in front of its own pass
delete. -/
inductive Vanishes : List (DeletionPass opening closing) → List α → Prop
  | nil {passes : List (DeletionPass opening closing)} : Vanishes passes []
  | cons {passes before after : List (DeletionPass opening closing)}
      {pass : DeletionPass opening closing} {w x rest : List α} {insertions : List (List α)}
      (at_pass : passes = before ++ pass :: after) (unit : pass.IsUnit w)
      (spread : Spread w insertions x) (inner : ∀ v ∈ insertions, Vanishes before v)
      (later : Vanishes passes rest) : Vanishes passes (x ++ rest)

/-- It is empty, or starts with the opening character and ends with the closing one. -/
structure IsClosed (opening closing : α) (v : List α) : Prop where
  starts : ∀ c ∈ v.head?, c = opening
  ends : ∀ c ∈ v.getLast?, c = closing

/-! ## Brackets -/

variable {u w x s t v : List α} {insertions : List (List α)}

theorem IsBracketed.prefix_eq (left : IsBracketed opening closing u)
    (right : IsBracketed opening closing w) (inside : u <+: w ++ s) : u = w := by
  obtain ⟨body, rfl, -, clean⟩ := left
  obtain ⟨body', rfl, -, clean'⟩ := right
  obtain ⟨rest, same⟩ := inside
  simp only [List.cons_append, List.append_assoc, List.nil_append, List.cons.injEq, true_and] at same
  have bodies := delimited_inj (fun inside => clean (List.mem_cons_of_mem _ inside))
    (fun inside => clean' (List.mem_cons_of_mem _ inside)) same
  rw [bodies.1]

/-- The opening character occurs only at the start. -/
theorem IsBracketed.not_opening (bracketed : IsBracketed opening closing w) (nonempty : s ≠ []) :
    w ≠ s ++ opening :: t := by
  obtain ⟨body, rfl, clean, -⟩ := bracketed
  intro same
  obtain ⟨c, s, rfl⟩ := List.exists_cons_of_ne_nil nonempty
  refine clean ?_
  rw [(List.cons.inj same).2]
  exact List.mem_append_right _ List.mem_cons_self

/-- The closing character occurs only at the end. -/
theorem IsBracketed.not_closing (bracketed : IsBracketed opening closing w) (nonempty : t ≠ []) :
    w ≠ s ++ closing :: t := by
  obtain ⟨body, rfl, -, clean⟩ := bracketed
  intro same
  rcases t.eq_nil_or_concat with rfl | ⟨t, c, rfl⟩
  · exact nonempty rfl
  · have front : opening :: body = s ++ closing :: t := by
      have whole : (opening :: body) ++ [closing] = (s ++ closing :: t) ++ [c] := by
        simpa using same
      exact (List.append_inj' whole rfl).1
    exact clean (front ▸ List.mem_append_right _ List.mem_cons_self)

theorem IsBracketed.ne_nil (bracketed : IsBracketed opening closing w) : w ≠ [] := by
  obtain ⟨body, rfl, -⟩ := bracketed
  exact List.cons_ne_nil _ _

theorem IsBracketed.isClosed (bracketed : IsBracketed opening closing w) :
    IsClosed opening closing w := by
  obtain ⟨body, rfl, -⟩ := bracketed
  refine ⟨by simp, ?_⟩
  rw [← List.cons_append, List.getLast?_concat]
  simp

/-- What begins a text that has two parts ends within the first one or goes on behind it. -/
theorem prefix_of_parts (inside : u <+: s ++ t) : u <+: s ∨ ∃ r, u = s ++ r ∧ r ≠ [] ∧ r <+: t := by
  rcases List.prefix_or_prefix_of_prefix inside (List.prefix_append s t) with short | ⟨r, rfl⟩
  · exact .inl short
  · by_cases empty : r = []
    · exact .inl (by rw [empty, List.append_nil])
    · exact .inr ⟨r, rfl, empty, (List.prefix_append_right_inj s).mp inside⟩

/-! ## One pass -/

namespace DeletionPass

variable (pass : DeletionPass opening closing)

/-- A text is empty, begins with a unit, or begins with a character that stays. -/
theorem induct {motive : List α → Prop} (nil : motive [])
    (unit : ∀ w s, pass.IsUnit w → motive s → motive (w ++ s))
    (other : ∀ c s, (∀ w, pass.IsUnit w → ¬w <+: c :: s) → motive s → motive (c :: s))
    (s : List α) : motive s := by
  induction size : s.length using Nat.strong_induction_on generalizing s with
  | _ n ih =>
    subst size
    cases s with
    | nil => exact nil
    | cons c s =>
      by_cases starts : ∃ w, pass.IsUnit w ∧ w <+: c :: s
      · obtain ⟨w, isUnit, rest, same⟩ := starts
        have shorter : rest.length < (c :: s).length := by
          rw [← same, List.length_append]
          have := List.length_pos_iff.mpr (pass.bracketed isUnit).ne_nil
          omega
        rw [← same]
        exact unit w rest isUnit (ih _ shorter rest rfl)
      · exact other c s (fun w isUnit inside => starts ⟨w, isUnit, inside⟩)
          (ih _ (Nat.lt_succ_self _) s rfl)

variable {pass}

theorem delete_cons_of_ne {c : α} (other : c ≠ opening) (s : List α) :
    pass.delete (c :: s) = c :: pass.delete s := by
  refine pass.delete_other fun w unit inside => ?_
  obtain ⟨body, rfl, -⟩ := pass.bracketed unit
  exact other (List.cons_prefix_cons.mp inside).1.symm

theorem delete_append_of_starts (a : List α) {b : List α} (starts : ∀ c ∈ b.head?, c = opening) :
    pass.delete (a ++ b) = pass.delete a ++ pass.delete b := by
  induction a using pass.induct with
  | nil => rw [pass.delete_nil, List.nil_append, List.nil_append]
  | unit w a isUnit ih => rw [List.append_assoc, pass.delete_unit isUnit, pass.delete_unit isUnit, ih]
  | other c a kept ih =>
    rw [pass.delete_other kept, List.cons_append, pass.delete_other, ih, List.cons_append]
    intro w isUnit inside
    -- A unit across the border would have a second opening character.
    rcases prefix_of_parts (s := c :: a) inside with short | ⟨r, same, nonempty, ⟨more, rfl⟩⟩
    · exact kept w isUnit short
    · obtain ⟨d, r, rfl⟩ := List.exists_cons_of_ne_nil nonempty
      obtain rfl := starts d rfl
      exact (pass.bracketed isUnit).not_opening (List.cons_ne_nil c a) same

theorem delete_append_of_ends {a : List α} (ends : ∀ c ∈ a.getLast?, c = closing) (b : List α) :
    pass.delete (a ++ b) = pass.delete a ++ pass.delete b := by
  induction a using pass.induct with
  | nil => rw [pass.delete_nil, List.nil_append, List.nil_append]
  | unit w a isUnit ih =>
    rw [List.append_assoc, pass.delete_unit isUnit, pass.delete_unit isUnit, ih]
    intro c last
    exact ends c (List.mem_getLast?_append_of_mem_getLast? last)
  | other c a kept ih =>
    rw [pass.delete_other kept, List.cons_append, pass.delete_other, ih, List.cons_append]
    · intro d last
      exact ends d (@List.mem_getLast?_append_of_mem_getLast? _ [c] _ _ last)
    · intro w isUnit inside
      -- A unit across the border would have a closing character in front of its end.
      rcases prefix_of_parts (s := c :: a) inside with short | ⟨r, same, nonempty, -⟩
      · exact kept w isUnit short
      · have whole := List.dropLast_append_getLast (List.cons_ne_nil c a)
        have last := ends _ (List.getLast?_eq_getLast_of_ne_nil (List.cons_ne_nil c a))
        rw [last] at whole
        rw [← whole, List.append_assoc] at same
        exact (pass.bracketed isUnit).not_closing nonempty same

theorem delete_append_of_closed (closed : IsClosed opening closing v) (s : List α) :
    pass.delete (v ++ s) = pass.delete v ++ pass.delete s :=
  delete_append_of_ends closed.ends s

/-- A text that becomes closed was closed before. -/
theorem isClosed_of_delete (closed : IsClosed opening closing (pass.delete v)) :
    IsClosed opening closing v := by
  refine ⟨?_, ?_⟩
  · induction v using pass.induct with
    | nil => simp
    | unit w s isUnit ih =>
      obtain ⟨body, rfl, -⟩ := pass.bracketed isUnit
      simp
    | other c s kept ih =>
      have starts := closed.starts
      rw [pass.delete_other kept] at starts
      simpa using starts
  · have ends := closed.ends
    clear closed
    induction v using pass.induct with
    | nil => simp
    | unit w s isUnit ih =>
      rw [pass.delete_unit isUnit] at ends
      rcases s.eq_nil_or_concat with rfl | ⟨s, c, rfl⟩
      · rw [List.append_nil]
        exact (pass.bracketed isUnit).isClosed.ends
      · have last := ih ends
        rw [List.concat_eq_append, List.getLast?_concat] at last
        rwa [List.concat_eq_append, ← List.append_assoc, List.getLast?_concat]
    | other c s kept ih =>
      rw [pass.delete_other kept] at ends
      cases s with
      | nil =>
        rw [pass.delete_nil] at ends
        exact ends
      | cons d s =>
        rw [List.getLast?_cons_cons]
        refine ih fun e last => ends e ?_
        exact @List.mem_getLast?_append_of_mem_getLast? _ [c] _ _ last

/-- What is left can be cut where the text in front of the pass can be cut. -/
theorem exists_cut {y z : List α} (deleted : pass.delete s = y ++ z) :
    ∃ x t, s = x ++ t ∧ pass.delete x = y ∧ pass.delete t = z := by
  induction s using pass.induct generalizing y with
  | nil =>
    rw [pass.delete_nil] at deleted
    obtain ⟨rfl, rfl⟩ := List.append_eq_nil_iff.mp deleted.symm
    exact ⟨[], [], rfl, pass.delete_nil, pass.delete_nil⟩
  | unit w s isUnit ih =>
    rw [pass.delete_unit isUnit] at deleted
    obtain ⟨x, t, rfl, first, second⟩ := ih deleted
    exact ⟨w ++ x, t, (List.append_assoc ..).symm, by rwa [pass.delete_unit isUnit], second⟩
  | other c s kept ih =>
    rw [pass.delete_other kept] at deleted
    cases y with
    | nil => exact ⟨[], c :: s, rfl, pass.delete_nil, (pass.delete_other kept).trans deleted⟩
    | cons d y =>
      obtain ⟨rfl, rest⟩ := List.cons.inj deleted
      obtain ⟨x, t, rfl, first, second⟩ := ih rest
      refine ⟨c :: x, t, rfl, ?_, second⟩
      rw [pass.delete_other, first]
      exact fun w isUnit inside => kept w isUnit (inside.trans (List.prefix_append (c :: x) t))

/-- The first character that is left, and what stood in front of it. -/
theorem exists_kept {c : α} {y : List α} (deleted : pass.delete s = c :: y) :
    ∃ v t, s = v ++ c :: t ∧ pass.delete v = [] ∧ pass.delete t = y ∧
      ∀ w, pass.IsUnit w → ¬w <+: c :: t := by
  induction s using pass.induct with
  | nil =>
    rw [pass.delete_nil] at deleted
    cases deleted
  | unit w s isUnit ih =>
    rw [pass.delete_unit isUnit] at deleted
    obtain ⟨v, t, rfl, vanished, rest, kept⟩ := ih deleted
    exact ⟨w ++ v, t, (List.append_assoc ..).symm, by rwa [pass.delete_unit isUnit], rest, kept⟩
  | other d s kept ih =>
    rw [pass.delete_other kept] at deleted
    obtain ⟨rfl, rest⟩ := List.cons.inj deleted
    exact ⟨[], s, rfl, pass.delete_nil, rest, kept⟩

/-- A text that is deleted as a whole begins with a unit. -/
theorem exists_unit (nonempty : s ≠ []) (vanished : pass.delete s = []) :
    ∃ w t, s = w ++ t ∧ pass.IsUnit w ∧ pass.delete t = [] := by
  induction s using pass.induct with
  | nil => exact absurd rfl nonempty
  | unit w s isUnit _ => exact ⟨w, s, rfl, isUnit, by rwa [pass.delete_unit isUnit] at vanished⟩
  | other c s kept _ =>
    rw [pass.delete_other kept] at vanished
    cases vanished

end DeletionPass

theorem isClosed_nil : IsClosed opening closing [] := ⟨by simp, by simp⟩

variable {passes : List (DeletionPass opening closing)} {pass : DeletionPass opening closing}

theorem isClosed_of_run (vanished : runPasses passes v = []) : IsClosed opening closing v := by
  induction passes generalizing v with
  | nil =>
    obtain rfl : v = [] := vanished
    exact isClosed_nil
  | cons pass passes ih => exact DeletionPass.isClosed_of_delete (ih vanished)

/-! ## Interrupted texts -/

namespace Spread

theorem exists_of_cons {c : α} (nonempty : w ≠ []) (spread : Spread (c :: w) insertions x) :
    ∃ v later y, insertions = v :: later ∧ x = c :: (v ++ y) ∧ Spread w later y := by
  cases spread with
  | last => exact absurd rfl nonempty
  | cons _ v later => exact ⟨v, _, _, rfl, rfl, later⟩

theorem eq_of_empty (spread : Spread w insertions x) (empty : ∀ v ∈ insertions, v = []) : x = w := by
  induction spread with
  | last c => rfl
  | cons c v later ih =>
    rw [empty v List.mem_cons_self, List.nil_append,
      ih fun other member => empty other (List.mem_cons_of_mem _ member)]

theorem plain (nonempty : w ≠ []) : ∃ insertions, Spread w insertions w ∧ ∀ v ∈ insertions, v = [] := by
  induction w with
  | nil => exact absurd rfl nonempty
  | cons c w ih =>
    cases w with
    | nil => exact ⟨[], .last c, List.forall_mem_nil _⟩
    | cons d w =>
      obtain ⟨insertions, spread, empty⟩ := ih (List.cons_ne_nil d w)
      exact ⟨[] :: insertions, .cons c [] spread, List.forall_mem_cons.mpr ⟨rfl, empty⟩⟩

/-- An interrupted text behind a pass comes from one in front of it, which does not begin with a
unit. -/
theorem pull {insertions' : List (List α)} {x' : List α} (spread : Spread w insertions' x')
    (deleted : pass.delete s = x' ++ t) :
    ∃ v x r insertions, s = v ++ (x ++ r) ∧ pass.delete v = [] ∧ pass.delete r = t ∧
      insertions.map pass.delete = insertions' ∧ Spread w insertions x ∧
      ∀ u, pass.IsUnit u → ¬u <+: x ++ r := by
  induction spread generalizing s with
  | last c =>
    obtain ⟨v, r, rfl, vanished, rest, kept⟩ := DeletionPass.exists_kept deleted
    exact ⟨v, [c], r, [], rfl, vanished, rest, rfl, .last c, kept⟩
  | @cons c v' w x' insertions' later ih =>
    rw [List.cons_append, List.append_assoc] at deleted
    obtain ⟨v, s, rfl, vanished, rest, kept⟩ := DeletionPass.exists_kept deleted
    obtain ⟨v₁, s, rfl, first, rest⟩ := DeletionPass.exists_cut rest
    obtain ⟨v₂, x, r, insertions, rfl, gone, behind, deletions, spread, -⟩ := ih rest
    -- What stood behind `c` is the interruption with `v₂`, which the pass deletes.
    have starts : ∀ c ∈ v₂.head?, c = opening :=
      (DeletionPass.isClosed_of_delete (gone ▸ isClosed_nil)).starts
    have insertion : pass.delete (v₁ ++ v₂) = v' := by
      rw [DeletionPass.delete_append_of_starts v₁ starts, first, gone, List.append_nil]
    refine ⟨v, c :: (v₁ ++ v₂ ++ x), r, (v₁ ++ v₂) :: insertions, ?_, vanished, behind, ?_,
      .cons c _ spread, ?_⟩
    · simp only [List.cons_append, List.append_assoc]
    · rw [List.map_cons, insertion, deletions]
    · simpa only [List.cons_append, List.append_assoc] using kept

/-- What is deleted of an interrupted text, when its characters stay. -/
theorem delete_tail (spread : Spread w insertions x) (clean : opening ∉ w)
    (closed : ∀ v ∈ insertions, IsClosed opening closing v) :
    ∃ x', Spread w (insertions.map pass.delete) x' ∧
      ∀ t, pass.delete (x ++ t) = x' ++ pass.delete t := by
  induction spread with
  | last c =>
    have other : c ≠ opening := fun same => clean (same ▸ List.mem_cons_self)
    exact ⟨[c], .last c, fun t => DeletionPass.delete_cons_of_ne other t⟩
  | cons c v later ih =>
    have other : c ≠ opening := fun same => clean (same ▸ List.mem_cons_self)
    obtain ⟨x', spread, deleted⟩ := ih (fun inside => clean (List.mem_cons_of_mem _ inside))
      (List.forall_mem_of_forall_mem_cons closed)
    refine ⟨c :: (pass.delete v ++ x'), .cons c _ spread, fun t => ?_⟩
    rw [List.cons_append, DeletionPass.delete_cons_of_ne other, List.append_assoc,
      DeletionPass.delete_append_of_closed (closed v List.mem_cons_self), deleted, List.cons_append,
      List.append_assoc]

/-- An interruption begins with the opening character, before there is a closing one. -/
theorem exists_opening (spread : Spread w insertions x) (clean : closing ∉ w.dropLast)
    (closed : ∀ v ∈ insertions, IsClosed opening closing v)
    (interrupted : ∃ v ∈ insertions, v ≠ []) :
    ∃ y z, x = y ++ opening :: z ∧ y ≠ [] ∧ closing ∉ y := by
  induction spread with
  | last c =>
    obtain ⟨v, member, -⟩ := interrupted
    cases member
  | @cons c v w x insertions later ih =>
    have nonempty : w ≠ [] := by
      cases later <;> exact List.cons_ne_nil _ _
    rw [List.dropLast_cons_of_ne_nil nonempty, List.mem_cons, not_or] at clean
    cases v with
    | cons d v =>
      obtain rfl := (closed (d :: v) List.mem_cons_self).starts d rfl
      exact ⟨[c], v ++ x, rfl, List.cons_ne_nil _ _, by simpa using clean.1⟩
    | nil =>
      have later_interrupted : ∃ v ∈ insertions, v ≠ [] := by
        obtain ⟨v, member, nonempty⟩ := interrupted
        exact ⟨v, (List.mem_cons.mp member).resolve_left nonempty, nonempty⟩
      obtain ⟨y, z, rfl, -, rest⟩ := ih clean.2 (List.forall_mem_of_forall_mem_cons closed)
        later_interrupted
      exact ⟨c :: y, z, rfl, List.cons_ne_nil _ _, by simpa using ⟨clean.1, rest⟩⟩

/-- An interrupted text does not begin with a unit, unless it is the unit itself. -/
theorem no_unit (spread : Spread w insertions x) (bracketed : IsBracketed opening closing w)
    (closed : ∀ v ∈ insertions, IsClosed opening closing v)
    (apart : pass.IsUnit w → ∃ v ∈ insertions, v ≠ []) (isUnit : pass.IsUnit u) (t : List α) :
    ¬u <+: x ++ t := by
  intro inside
  by_cases empty : ∀ v ∈ insertions, v = []
  · rw [spread.eq_of_empty empty] at inside
    obtain rfl := (pass.bracketed isUnit).prefix_eq bracketed inside
    obtain ⟨v, member, nonempty⟩ := apart isUnit
    exact nonempty (empty v member)
  · have clean : closing ∉ w.dropLast := by
      obtain ⟨body, rfl, -, clean⟩ := bracketed
      rwa [← List.cons_append, List.dropLast_concat]
    push Not at empty
    -- The unit would end in front of the first interruption, or reach into it.
    obtain ⟨y, z, rfl, nonempty, front⟩ := spread.exists_opening clean closed empty
    rw [List.append_assoc] at inside
    rcases prefix_of_parts inside with short | ⟨r, same, rest, ⟨more, start⟩⟩
    · obtain ⟨body, rfl, -⟩ := pass.bracketed isUnit
      exact front (short.subset (by simp))
    · obtain ⟨d, r, rfl⟩ := List.exists_cons_of_ne_nil rest
      obtain rfl : d = opening := (List.cons.inj start).1
      exact (pass.bracketed isUnit).not_opening nonempty same

/-- An interrupted text goes over to one behind a pass that does not delete it. -/
theorem push (spread : Spread w insertions x) (bracketed : IsBracketed opening closing w)
    (closed : ∀ v ∈ insertions, IsClosed opening closing v)
    (apart : pass.IsUnit w → ∃ v ∈ insertions, v ≠ []) :
    ∃ x', Spread w (insertions.map pass.delete) x' ∧
      ∀ t, pass.delete (x ++ t) = x' ++ pass.delete t := by
  have kept : ∀ t u, pass.IsUnit u → ¬u <+: x ++ t :=
    fun t _ isUnit => spread.no_unit bracketed closed apart isUnit t
  obtain ⟨body, rfl, clean, -⟩ := bracketed
  have nonempty : body ++ [closing] ≠ [] :=
    List.append_ne_nil_of_right_ne_nil _ (List.cons_ne_nil _ _)
  obtain ⟨v, later, y, rfl, rfl, rest⟩ := spread.exists_of_cons nonempty
  obtain ⟨x', spread, deleted⟩ := rest.delete_tail clean (List.forall_mem_of_forall_mem_cons closed)
  refine ⟨opening :: (pass.delete v ++ x'), .cons opening _ spread, fun t => ?_⟩
  have starts := kept t
  have first := closed v List.mem_cons_self
  rw [List.cons_append, List.append_assoc] at starts ⊢
  rw [pass.delete_other starts, DeletionPass.delete_append_of_closed first, deleted,
    List.cons_append, List.append_assoc]

end Spread

/-- What has no opening character is passed over. -/
theorem DeletionPass.delete_free (clean : opening ∉ s) (t : List α) :
    pass.delete (s ++ t) = s ++ pass.delete t := by
  induction s with
  | nil => rfl
  | cons c s ih =>
    rw [List.mem_cons, not_or] at clean
    rw [List.cons_append, delete_cons_of_ne (Ne.symm clean.1), ih clean.2, List.cons_append]

/-- So is a unit of another kind. -/
theorem DeletionPass.delete_bracketed (bracketed : IsBracketed opening closing w)
    (other : ¬pass.IsUnit w) (t : List α) : pass.delete (w ++ t) = w ++ pass.delete t := by
  obtain ⟨insertions, spread, empty⟩ := Spread.plain bracketed.ne_nil
  have closed : ∀ v ∈ insertions, IsClosed opening closing v :=
    fun v member => empty v member ▸ isClosed_nil
  obtain ⟨x, spread', deleted⟩ := spread.push bracketed closed fun isUnit => absurd isUnit other
  rw [deleted, spread'.eq_of_empty]
  intro v member
  obtain ⟨u, inside, rfl⟩ := List.mem_map.mp member
  rw [empty u inside, pass.delete_nil]

/-! ## What vanishes -/

/-- An interrupted unit is deleted by its own pass, if it is whole by then. -/
theorem run_spread (before after : List (DeletionPass opening closing)) (isUnit : pass.IsUnit w)
    (spread : Spread w insertions x) (vanished : ∀ v ∈ insertions, runPasses before v = [])
    (t : List α) :
    runPasses (before ++ pass :: after) (x ++ t) = runPasses (before ++ pass :: after) t := by
  induction before generalizing x insertions t with
  | nil =>
    rw [spread.eq_of_empty vanished]
    exact congrArg (runPasses after) (pass.delete_unit isUnit t)
  | cons first before ih =>
    by_cases apart : first.IsUnit w → ∃ v ∈ insertions, v ≠ []
    · -- The pass shortens the interruptions, and the later ones see the unit with less in it.
      have closed : ∀ v ∈ insertions, IsClosed opening closing v :=
        fun v member => isClosed_of_run (vanished v member)
      obtain ⟨x', spread', deleted⟩ := spread.push (pass.bracketed isUnit) closed apart
      have inner : ∀ v ∈ insertions.map first.delete, runPasses before v = [] := by
        intro v member
        obtain ⟨u, inside, rfl⟩ := List.mem_map.mp member
        exact vanished u inside
      exact (congrArg (runPasses (before ++ pass :: after)) (deleted t)).trans (ih spread' inner _)
    · -- The unit is whole already, and is deleted here.
      push Not at apart
      rw [spread.eq_of_empty apart.2]
      exact congrArg (runPasses (before ++ pass :: after)) (first.delete_unit apart.1 t)

theorem run_of_vanishes (vanishes : Vanishes passes v) : runPasses passes v = [] := by
  induction vanishes with
  | @nil passes =>
    induction passes with
    | nil => rfl
    | cons pass passes ih => exact (congrArg (runPasses passes) pass.delete_nil).trans ih
  | @cons passes before after pass w x rest insertions at_pass isUnit spread _ _ inner later =>
    subst at_pass
    rw [run_spread before after isUnit spread inner, later]

/-- The first unit of a text that the passes delete. -/
theorem exists_first_unit (vanished : runPasses passes s = []) (nonempty : s ≠ []) :
    ∃ before pass after w insertions x t, passes = before ++ pass :: after ∧ pass.IsUnit w ∧
      Spread w insertions x ∧ (∀ v ∈ insertions, runPasses before v = []) ∧ s = x ++ t ∧
      runPasses passes t = [] := by
  induction passes generalizing s with
  | nil => exact absurd vanished nonempty
  | cons first passes ih =>
    by_cases starts : ∃ w t, s = w ++ t ∧ first.IsUnit w
    · obtain ⟨w, t, rfl, isUnit⟩ := starts
      obtain ⟨insertions, spread, plain⟩ := Spread.plain (first.bracketed isUnit).ne_nil
      refine ⟨[], first, passes, w, insertions, w, t, rfl, isUnit, spread, plain, rfl, ?_⟩
      have behind : first.delete (w ++ t) = first.delete t := first.delete_unit isUnit t
      exact (congrArg (runPasses passes) behind).symm.trans vanished
    · -- The first character stays, so a later pass deletes it.
      have stays : first.delete s ≠ [] := by
        intro empty
        obtain ⟨w, t, same, isUnit, -⟩ := first.exists_unit nonempty empty
        exact starts ⟨w, t, same, isUnit⟩
      obtain ⟨before, pass, after, w, insertions', x', t', rfl, isUnit, spread', inner, left, rest⟩ :=
        ih vanished stays
      obtain ⟨v, x, t, insertions, rfl, gone, behind, rfl, spread, -⟩ := spread'.pull left
      -- Anything in front of it would be deleted by the first pass, and begin with its unit.
      obtain rfl : v = [] := by
        by_contra some
        obtain ⟨u, r, rfl, isUnit, -⟩ := first.exists_unit some gone
        exact starts ⟨u, r ++ (x ++ t), List.append_assoc .., isUnit⟩
      refine ⟨first :: before, pass, after, w, insertions, x, t, rfl, isUnit, spread, ?_, rfl, ?_⟩
      · exact fun v member => inner _ (List.mem_map_of_mem member)
      · exact (congrArg (runPasses (before ++ pass :: after)) behind).trans rest

theorem Spread.length_insertion (spread : Spread w insertions x) (member : v ∈ insertions) :
    v.length < x.length := by
  induction spread with
  | last => cases member
  | @cons c first w x insertions later ih =>
    simp only [List.length_cons, List.length_append]
    rcases List.mem_cons.mp member with rfl | member
    · omega
    · have := ih member
      omega

/-- What the passes delete as a whole. -/
theorem vanishes_iff : Vanishes passes v ↔ runPasses passes v = [] := by
  refine ⟨run_of_vanishes, fun vanished => ?_⟩
  induction size : v.length using Nat.strong_induction_on generalizing passes v with
  | _ n ih =>
    subst size
    by_cases nonempty : v = []
    · rw [nonempty]
      exact .nil
    · obtain ⟨before, pass, after, w, insertions, x, t, at_pass, isUnit, spread, inner, rfl, rest⟩ :=
        exists_first_unit vanished nonempty
      have first : x ≠ [] := by
        cases spread <;> exact List.cons_ne_nil _ _
      have shorter := List.length_pos_iff.mpr first
      rw [List.length_append] at ih
      -- The interruptions and the rest are shorter than the whole.
      refine .cons at_pass isUnit spread (fun u member => ?_) (ih _ (by omega) rest rfl)
      have smaller := spread.length_insertion member
      exact ih _ (by omega) (inner u member) rfl

/-! ## What is left -/

/-- The passes delete the interruptions, and each pass for the text itself comes while one of them
is still there. -/
structure Survives (passes : List (DeletionPass opening closing)) (w : List α)
    (insertions : List (List α)) : Prop where
  vanish : ∀ v ∈ insertions, Vanishes passes v
  in_time : ∀ before pass after, passes = before ++ pass :: after → pass.IsUnit w →
    ∃ v ∈ insertions, ¬Vanishes before v

theorem survives_nil : Survives ([] : List (DeletionPass opening closing)) w insertions ↔
    ∀ v ∈ insertions, v = [] := by
  have vanishes : ∀ v, Vanishes ([] : List (DeletionPass opening closing)) v ↔ v = [] :=
    fun v => vanishes_iff
  constructor
  · exact fun survives v member => (vanishes v).mp (survives.vanish v member)
  · refine fun empty => ⟨fun v member => (vanishes v).mpr (empty v member), ?_⟩
    intro before pass after split
    exact absurd split.symm (List.append_ne_nil_of_right_ne_nil _ (List.cons_ne_nil _ _))

/-- One pass less: it must not delete the text itself. -/
theorem survives_cons : Survives (pass :: passes) w insertions ↔
    Survives passes w (insertions.map pass.delete) ∧ (pass.IsUnit w → ∃ v ∈ insertions, v ≠ []) := by
  have step : ∀ before v, Vanishes (pass :: before) v ↔ Vanishes before (pass.delete v) :=
    fun before v => vanishes_iff.trans (vanishes_iff (v := pass.delete v)).symm
  constructor
  · intro survives
    refine ⟨⟨fun v member => ?_, ?_⟩, fun isUnit => ?_⟩
    · obtain ⟨u, inside, rfl⟩ := List.mem_map.mp member
      exact (step passes u).mp (survives.vanish u inside)
    · rintro before other after rfl isUnit
      obtain ⟨v, member, still⟩ := survives.in_time (pass :: before) other after rfl isUnit
      exact ⟨_, List.mem_map_of_mem member, fun vanished => still ((step before v).mpr vanished)⟩
    · obtain ⟨v, member, still⟩ := survives.in_time [] pass passes rfl isUnit
      exact ⟨v, member, fun empty => still (empty ▸ .nil)⟩
  · rintro ⟨survives, apart⟩
    refine ⟨fun v member => ?_, ?_⟩
    · exact (step passes v).mpr (survives.vanish _ (List.mem_map_of_mem member))
    · intro before other after split isUnit
      cases before with
      | nil =>
        obtain ⟨rfl, -⟩ := List.cons.inj split
        obtain ⟨v, member, nonempty⟩ := apart isUnit
        exact ⟨v, member, fun vanished => nonempty (vanishes_iff.mp vanished)⟩
      | cons first before =>
        obtain ⟨rfl, rest⟩ := List.cons.inj split
        obtain ⟨_, member, still⟩ := survives.in_time before other after rest isUnit
        obtain ⟨v, inside, rfl⟩ := List.mem_map.mp member
        exact ⟨v, inside, fun vanished => still ((step before v).mp vanished)⟩

/-- A text between brackets is left exactly if it was interrupted in this way. -/
theorem infix_run_iff (bracketed : IsBracketed opening closing w) :
    w <:+: runPasses passes s ↔
      ∃ insertions x, Spread w insertions x ∧ x <:+: s ∧ Survives passes w insertions := by
  induction passes generalizing s with
  | nil =>
    constructor
    · intro inside
      obtain ⟨insertions, spread, empty⟩ := Spread.plain bracketed.ne_nil
      exact ⟨insertions, w, spread, inside, survives_nil.mpr empty⟩
    · rintro ⟨insertions, x, spread, inside, survives⟩
      rwa [spread.eq_of_empty (survives_nil.mp survives)] at inside
  | cons pass passes ih =>
    refine (ih (s := pass.delete s)).trans ?_
    constructor
    · rintro ⟨insertions', x', spread', ⟨a, b, inside⟩, survives⟩
      rw [List.append_assoc] at inside
      obtain ⟨y, r, rfl, -, behind⟩ := DeletionPass.exists_cut inside.symm
      obtain ⟨v, x, t, insertions, rfl, -, -, rfl, spread, kept⟩ := spread'.pull behind
      refine ⟨insertions, x, spread, ⟨y ++ v, t, by simp only [List.append_assoc]⟩,
        survives_cons.mpr ⟨survives, fun isUnit => ?_⟩⟩
      -- Without an interruption the pass would find the unit.
      by_contra empty
      push Not at empty
      refine kept w isUnit ?_
      rw [spread.eq_of_empty empty]
      exact List.prefix_append w t
    · rintro ⟨insertions, x, spread, ⟨a, b, rfl⟩, survives⟩
      obtain ⟨later, apart⟩ := survives_cons.mp survives
      have closed : ∀ v ∈ insertions, IsClosed opening closing v :=
        fun v member => isClosed_of_run (vanishes_iff.mp (survives.vanish v member))
      obtain ⟨x', spread', deleted⟩ := spread.push bracketed closed apart
      have starts : ∀ c ∈ (x ++ b).head?, c = opening := by
        have first := bracketed.isClosed.starts
        cases spread <;> exact first
      refine ⟨insertions.map pass.delete, x', spread', ⟨pass.delete a, pass.delete b, ?_⟩, later⟩
      rw [List.append_assoc a, DeletionPass.delete_append_of_starts a starts, deleted,
        List.append_assoc]

/-! ## Texts that stay as they are -/

theorem DeletionPass.delete_sublist (pass : DeletionPass opening closing) (s : List α) :
    (pass.delete s).Sublist s := by
  induction s using pass.induct with
  | nil => rw [pass.delete_nil]
  | unit w s isUnit ih =>
    rw [pass.delete_unit isUnit]
    exact ih.trans (List.sublist_append_right w s)
  | other c s kept ih =>
    rw [pass.delete_other kept]
    exact ih.cons_cons c

theorem DeletionPass.delete_eq_self_iff :
    pass.delete s = s ↔ ∀ w, pass.IsUnit w → ¬w <:+: s := by
  constructor
  · rintro same w isUnit ⟨a, b, rfl⟩
    have starts : ∀ c ∈ (w ++ b).head?, c = opening := by
      obtain ⟨body, rfl, -⟩ := pass.bracketed isUnit
      simp
    rw [List.append_assoc, delete_append_of_starts a starts, pass.delete_unit isUnit] at same
    -- Nothing grows, and the unit is gone.
    have sizes := congrArg List.length same
    have front := (pass.delete_sublist a).length_le
    have behind := (pass.delete_sublist b).length_le
    have whole := List.length_pos_iff.mpr (pass.bracketed isUnit).ne_nil
    simp only [List.length_append] at sizes
    omega
  · intro clean
    induction s using pass.induct with
    | nil => exact pass.delete_nil
    | unit w s isUnit _ => exact absurd (List.prefix_append w s).isInfix (clean w isUnit)
    | other c s kept ih =>
      rw [pass.delete_other kept,
        ih fun w isUnit inside => clean w isUnit (inside.trans (List.suffix_cons c s).isInfix)]

theorem runPasses_sublist (passes : List (DeletionPass opening closing)) (s : List α) :
    (runPasses passes s).Sublist s := by
  induction passes generalizing s with
  | nil => exact .refl s
  | cons pass passes ih => exact (ih (pass.delete s)).trans (pass.delete_sublist s)

/-- The passes leave a text as it is if and only if it has no units. -/
theorem runPasses_eq_self_iff :
    runPasses passes s = s ↔ ∀ pass ∈ passes, ∀ w, pass.IsUnit w → ¬w <:+: s := by
  induction passes with
  | nil => exact iff_of_true rfl (List.forall_mem_nil _)
  | cons pass passes ih =>
    rw [List.forall_mem_cons, ← ih, ← DeletionPass.delete_eq_self_iff]
    constructor
    · intro same
      have first : pass.delete s = s := by
        refine (pass.delete_sublist s).eq_of_length_le ?_
        have later := (runPasses_sublist passes (pass.delete s)).length_le
        rwa [show runPasses passes (pass.delete s) = s from same] at later
      refine ⟨first, ?_⟩
      rw [runPasses, List.foldl_cons, first] at same
      exact same
    · rintro ⟨first, later⟩
      exact (congrArg (runPasses passes) first).trans later

/-! ## Patterns -/

/-- All matches of a pattern are deleted. -/
def DeletionPass.ofPattern (p : Pattern α)
    (bracketed : ∀ w, p.Denotes w → IsBracketed opening closing w) : DeletionPass opening closing where
  IsUnit := p.Denotes
  delete := p.replaceAll []
  bracketed := bracketed _
  delete_nil := by rw [Pattern.replaceAll, Pattern.replaceFrom, ite_self]
  delete_unit {w} denotes s := by
    obtain ⟨found, matched⟩ := Option.isSome_iff_exists.mp (Pattern.matchHere_complete denotes s)
    obtain ⟨unit, inside⟩ := Pattern.matchHere_sound matched
    obtain rfl := (bracketed _ unit).prefix_eq (bracketed w denotes) inside
    exact Pattern.replaceAll_found [] (bracketed _ unit).ne_nil matched
  delete_other none := Pattern.replaceAll_none [] (Pattern.matchHere_eq_none_iff.mpr none)

end EvoRuntime.Library
