import Mathlib.Data.List.Induction
import Mathlib.Data.List.Nodup
import Mathlib.Tactic.Common

/-!
# Schedules

A job needs some things and gives others. It may be done once everything it needs is there,
either from the start or given by a job that was done before.

If the jobs can be listed so that each of them only needs what is there or what jobs in front of
it give, then no schedule gets stuck: one that cannot go on has done all jobs. A job that needs
something of each other job comes last in every schedule.
-/
namespace EvoRuntime.Library

variable {α : Type*}

structure Job (α : Type*) where
  needs : List α
  gives : List α

/-- Everything that the job needs is there once the others have been done. -/
def Job.Ready (there : α → Prop) (done : List (Job α)) (job : Job α) : Prop :=
  ∀ thing ∈ job.needs, there thing ∨ ∃ other ∈ done, thing ∈ other.gives

/-- Some of the jobs are done, each of them once and when it is ready. -/
inductive Schedule (jobs : List (Job α)) (there : α → Prop) : List (Job α) → Prop
  | start : Schedule jobs there []
  | next {done : List (Job α)} {job : Job α} (before : Schedule jobs there done)
      (member : job ∈ jobs) (new : job ∉ done) (ready : job.Ready there done) :
      Schedule jobs there (done ++ [job])

/-- No other job is ready. -/
def Stuck (jobs : List (Job α)) (there : α → Prop) (done : List (Job α)) : Prop :=
  ∀ job ∈ jobs, job ∉ done → ¬job.Ready there done

/-- Each job needs only what is there or what jobs in front of it give. -/
def Ordered (jobs : List (Job α)) (there : α → Prop) : Prop :=
  ∀ before job after, jobs = before ++ job :: after → job.Ready there before

variable {jobs done front : List (Job α)} {job : Job α} {there : α → Prop}

theorem Job.Ready.mono (ready : job.Ready there front) (more : ∀ other ∈ front, other ∈ done) :
    job.Ready there done := by
  intro thing needed
  rcases ready thing needed with present | ⟨other, member, given⟩
  · exact Or.inl present
  · exact Or.inr ⟨other, more other member, given⟩

/-- Jobs that are ready from the start can stand in front of one that needs what they give. -/
theorem ordered_concat {last : Job α} (first : ∀ job ∈ front, job.Ready there [])
    (then_ : last.Ready there front) : Ordered (front ++ [last]) there := by
  intro before job after split
  rcases List.eq_nil_or_concat' after with rfl | ⟨rest, final, rfl⟩
  · obtain ⟨rfl, same⟩ := List.append_inj' split rfl
    exact List.singleton_inj.mp same ▸ then_
  · rw [← List.cons_append, ← List.append_assoc] at split
    have inFront : job ∈ front := by
      rw [(List.append_inj' split rfl).1]
      exact List.mem_append_right before List.mem_cons_self
    exact (first job inFront).mono (List.forall_mem_nil _)

namespace Schedule

theorem subset (schedule : Schedule jobs there done) : ∀ job ∈ done, job ∈ jobs := by
  induction schedule with
  | start => exact List.forall_mem_nil _
  | next before member new ready ih =>
    exact List.forall_mem_append.mpr ⟨ih, List.forall_mem_singleton.mpr member⟩

theorem nodup (schedule : Schedule jobs there done) : done.Nodup := by
  induction schedule with
  | start => exact List.nodup_nil
  | next before member new ready ih =>
    refine List.nodup_append.mpr ⟨ih, List.nodup_singleton _, fun job earlier last same => ?_⟩
    rintro rfl
    exact new (List.mem_singleton.mp same ▸ earlier)

theorem length_le (schedule : Schedule jobs there done) : done.length ≤ jobs.length :=
  schedule.nodup.length_le_of_subset schedule.subset

/-- Every schedule goes on until no other job is ready. -/
theorem exists_stuck (schedule : Schedule jobs there done) :
    ∃ more, Schedule jobs there (done ++ more) ∧ Stuck jobs there (done ++ more) := by
  -- The induction is on how many jobs there are still to be done at most.
  obtain ⟨left, bound⟩ : ∃ left, jobs.length ≤ done.length + left := ⟨_, Nat.le_add_left _ _⟩
  induction left generalizing done with
  | zero =>
    refine ⟨[], by rwa [List.append_nil], fun job member new ready => ?_⟩
    rw [List.append_nil] at new ready
    have longer := (schedule.next member new ready).length_le
    rw [List.length_append, List.length_singleton] at longer
    omega
  | succ left ih =>
    by_cases stuck : Stuck jobs there done
    · exact ⟨[], by rwa [List.append_nil], by rwa [List.append_nil]⟩
    · rw [Stuck] at stuck
      push Not at stuck
      obtain ⟨job, member, new, ready⟩ := stuck
      have fewer : jobs.length ≤ (done ++ [job]).length + left := by
        rw [List.length_append, List.length_singleton]
        omega
      obtain ⟨more, rest, ends⟩ := ih (schedule.next member new ready) fewer
      rw [List.append_assoc] at rest ends
      exact ⟨[job] ++ more, rest, ends⟩

/-- A job of the schedule was ready when it was done. -/
theorem ready_of_split (schedule : Schedule jobs there done) {before after : List (Job α)}
    (split : done = before ++ job :: after) : job.Ready there before := by
  induction schedule generalizing after with
  | start => exact absurd split (by simp)
  | next earlier member new ready ih =>
    rcases List.eq_nil_or_concat' after with rfl | ⟨rest, last, rfl⟩
    · obtain ⟨rfl, same⟩ := List.append_inj' split rfl
      obtain rfl := List.singleton_inj.mp same
      exact ready
    · rw [← List.cons_append, ← List.append_assoc] at split
      exact ih (List.append_inj' split rfl).1

/-- Of jobs in order, the first one that has not been done is ready. -/
theorem all_of_stuck (ordered : Ordered jobs there) (stuck : Stuck jobs there done) :
    ∀ job ∈ jobs, job ∈ done := by
  suffices all : ∀ front rest, jobs = front ++ rest → ∀ job ∈ front, job ∈ done from
    all jobs [] (List.append_nil jobs).symm
  intro front
  induction front using List.reverseRecOn with
  | nil => exact fun _ _ => List.forall_mem_nil _
  | append_singleton front last ih =>
    intro rest split
    rw [List.append_assoc, List.singleton_append] at split
    have earlier := ih (last :: rest) split
    refine List.forall_mem_append.mpr ⟨earlier, List.forall_mem_singleton.mpr ?_⟩
    by_contra undone
    have member : last ∈ jobs := split ▸ List.mem_append_right front List.mem_cons_self
    exact stuck last member undone ((ordered front last rest split).mono earlier)

/-- A schedule that cannot go on has done every job once. -/
theorem perm_of_stuck (schedule : Schedule jobs there done) (distinct : jobs.Nodup)
    (ordered : Ordered jobs there) (stuck : Stuck jobs there done) : done.Perm jobs := by
  rw [List.perm_ext_iff_of_nodup schedule.nodup distinct]
  exact fun job => ⟨schedule.subset job, all_of_stuck ordered stuck job⟩

/-- A job that needs something of each other job comes last. -/
theorem eq_concat_of_last (schedule : Schedule jobs there done) {last : Job α} (scheduled : last ∈ done)
    (needed : ∀ job ∈ jobs, job ≠ last → ∃ thing ∈ last.needs, ¬there thing ∧
      ∀ other ∈ jobs, thing ∈ other.gives → other = job) :
    ∃ others, done = others ++ [last] := by
  obtain ⟨before, after, split⟩ := List.append_of_mem scheduled
  rcases after with _ | ⟨later, after⟩
  · exact ⟨before, split⟩
  -- What a later job gives was not there when the last job was done.
  exfalso
  have member : later ∈ done := split ▸ by simp
  have distinct := schedule.nodup
  rw [split] at distinct
  have differs : later ≠ last := fun same =>
    (List.nodup_cons.mp (List.nodup_append.mp distinct).2.1).1 (same ▸ List.mem_cons_self)
  obtain ⟨thing, needs, absent, only⟩ := needed later (schedule.subset later member) differs
  rcases schedule.ready_of_split split thing needs with present | ⟨other, earlier, given⟩
  · exact absent present
  · have inDone : other ∈ done := split ▸ List.mem_append_left _ earlier
    have same := only other (schedule.subset other inDone) given
    subst same
    exact (List.nodup_append.mp distinct).2.2 other earlier other (by simp) rfl

end Schedule

end EvoRuntime.Library
