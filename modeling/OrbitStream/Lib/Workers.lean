/-
OrbitStream/Lib/Workers.lean

Workers that take jobs from a queue.

A job is a list of tasks, and the jobs are numbered as they are queued.  A worker that has
nothing to do takes the first job that waits, and does its tasks one after the other.  In every
run each task is done, at a worker or waiting, and only once (`Reachable.counted`), and a task
is overtaken only as far as there are workers: behind it come tasks of fewer earlier jobs
than there are workers (`Reachable.overtaken`).
-/
import Mathlib.Data.Fintype.BigOperators
import Mathlib.Data.Multiset.AddSub
import Mathlib.Logic.Relation

namespace Lib

/-- Workers, the jobs that were queued for them, and the tasks done so far. -/
structure Workers (ι τ : Type*) where
  jobs : List (List τ) := []
  taken : Nat := 0
  /-- the number of a worker's job, and what is left of it -/
  work : ι → Nat × List τ := fun _ => (0, [])
  done : List (Nat × τ) := []

namespace Workers

variable {ι τ : Type*}

/-- Tasks of the job with a number. -/
def label (job : Nat × List τ) : List (Nat × τ) := job.2.map fun x => (job.1, x)

/-- The tasks of jobs, of which the first has this number. -/
def labels : Nat → List (List τ) → List (Nat × τ)
  | _, [] => []
  | k, job :: jobs => label (k, job) ++ labels (k + 1) jobs

theorem labels_append (k : Nat) (jobs jobs' : List (List τ)) :
    labels k (jobs ++ jobs') = labels k jobs ++ labels (k + jobs.length) jobs' := by
  induction jobs generalizing k with
  | nil => rfl
  | cons job jobs ih =>
    show label (k, job) ++ labels (k + 1) (jobs ++ jobs') = (label (k, job) ++ _) ++ _
    rw [ih, List.append_assoc, List.length_cons, Nat.add_right_comm, Nat.add_assoc k]

/-- The tasks of a job have its number. -/
theorem mem_labels {jobs : List (List τ)} {j : Nat} {job : List τ} {x : τ}
    (hjob : jobs[j]? = some job) (hx : x ∈ job) (k : Nat) : (k + j, x) ∈ labels k jobs := by
  induction jobs generalizing j k with
  | nil => cases hjob
  | cons first jobs ih =>
    show _ ∈ label (k, first) ++ _
    cases j with
    | zero =>
      obtain rfl := Option.some.inj hjob
      exact List.mem_append_left _ (List.mem_map.mpr ⟨x, hx, rfl⟩)
    | succ j =>
      have hrest := ih hjob (k + 1)
      rw [Nat.add_right_comm] at hrest
      exact List.mem_append_right _ hrest

variable [DecidableEq ι]

/-- What may happen next. -/
inductive Step : Workers ι τ → Workers ι τ → Prop
  | queue (w : Workers ι τ) (job : List τ) : Step w { w with jobs := w.jobs ++ [job] }
  | take (w : Workers ι τ) (i : ι) {job : List τ} :
      (w.work i).2 = [] → w.jobs[w.taken]? = some job →
      Step w { w with
        taken := w.taken + 1, work := Function.update w.work i (w.taken, job) }
  | perform (w : Workers ι τ) (i : ι) {k : Nat} {x : τ} {rest : List τ} :
      w.work i = (k, x :: rest) →
      Step w { w with
        work := Function.update w.work i (k, rest), done := w.done ++ [(k, x)] }

/-- The states of a run from the start. -/
def Reachable (w : Workers ι τ) : Prop := Relation.ReflTransGen Step {} w

/-- Jobs are queued one after the other. -/
theorem queue_all (w : Workers ι τ) (jobs : List (List τ)) :
    Relation.ReflTransGen Step w { w with jobs := w.jobs ++ jobs } := by
  induction jobs using List.reverseRecOn with
  | nil =>
    rw [List.append_nil]
  | append_singleton jobs job ih =>
    rw [← List.append_assoc]
    exact ih.tail (.queue _ job)

/-! ### Each task is somewhere -/

variable [Fintype ι] {w w' : Workers ι τ}

/-- The tasks at the workers. -/
def atWork (w : Workers ι τ) : Multiset (Nat × τ) := ∑ i, (label (w.work i) : Multiset (Nat × τ))

/-- The tasks of jobs that were taken are done or at a worker. -/
structure Inv (w : Workers ι τ) : Prop where
  taken : w.taken ≤ w.jobs.length
  counted : (w.done : Multiset (Nat × τ)) + w.atWork = labels 0 (w.jobs.take w.taken)
  doneTaken : ∀ x ∈ w.done, x.1 < w.taken
  workTaken : ∀ i, (w.work i).2 ≠ [] → (w.work i).1 < w.taken

theorem atWork_update (w : Workers ι τ) (i : ι) (job : Nat × List τ) :
    label (w.work i) + (∑ j, (label (Function.update w.work i job j) : Multiset (Nat × τ))) =
      label job + w.atWork := by
  have hothers : ∀ j ∈ Finset.univ.erase i,
      (label (Function.update w.work i job j) : Multiset (Nat × τ)) = label (w.work j) := by
    intro j hj
    rw [Function.update_of_ne (Finset.ne_of_mem_erase hj)]
  rw [atWork, ← Finset.add_sum_erase _ _ (Finset.mem_univ i),
    ← Finset.add_sum_erase Finset.univ (fun j => (label (w.work j) : Multiset (Nat × τ)))
      (Finset.mem_univ i), Finset.sum_congr rfl hothers, Function.update_self]
  exact add_left_comm _ _ _

theorem Inv.step (h : Inv w) (hstep : Step w w') : Inv w' := by
  cases hstep with
  | queue job =>
    refine ⟨?_, ?_, h.doneTaken, h.workTaken⟩
    · rw [List.length_append]
      exact Nat.le_add_right_of_le h.taken
    · rw [List.take_append_of_le_length h.taken]
      exact h.counted
  | @take i job hidle hjob =>
    obtain ⟨hlt, hget⟩ := List.getElem?_eq_some_iff.mp hjob
    refine ⟨hlt, ?_, fun x hx => Nat.lt_succ_of_lt (h.doneTaken x hx), ?_⟩
    · have hmoved := atWork_update w i (w.taken, job)
      have hnone : label (w.work i) = [] := by
        rw [label, hidle]
        rfl
      rw [hnone, Multiset.coe_nil, zero_add] at hmoved
      show (w.done : Multiset (Nat × τ)) + ∑ j, _ = _
      rw [hmoved, List.take_add_one, hjob, Option.toList_some, labels_append, Nat.zero_add,
        List.length_take_of_le h.taken, ← Multiset.coe_add, ← h.counted, labels, labels,
        List.append_nil, add_assoc, add_comm w.atWork]
    · refine (Function.forall_update_iff w.work fun _ job => job.2 ≠ [] → job.1 < _).mpr ⟨?_, ?_⟩
      · exact fun _ => Nat.lt_succ_self _
      · exact fun j _ hj => Nat.lt_succ_of_lt (h.workTaken j hj)
  | @perform i k x rest hwork =>
    have hk : k < w.taken := by
      have := h.workTaken i (by rw [hwork]; exact List.cons_ne_nil _ _)
      rwa [hwork] at this
    refine ⟨h.taken, ?_, ?_, ?_⟩
    · have hmoved := atWork_update w i (k, rest)
      rw [hwork] at hmoved
      show ((w.done ++ [(k, x)] : List _) : Multiset (Nat × τ)) + ∑ j, _ = _
      rw [← h.counted, ← Multiset.coe_add, add_assoc]
      congr 1
      -- the other tasks of the worker are on both sides
      rw [← add_right_inj (label (k, rest) : Multiset (Nat × τ)), ← hmoved, ← add_assoc]
      congr 1
      show (label (k, rest) : Multiset (Nat × τ)) + {(k, x)} = ((k, x) :: label (k, rest) : List _)
      rw [add_comm, Multiset.singleton_add, Multiset.cons_coe]
    · intro y hy
      rcases List.mem_append.mp hy with hy | hy
      · exact h.doneTaken y hy
      · rw [List.mem_singleton.mp hy]
        exact hk
    · refine (Function.forall_update_iff w.work fun _ job => job.2 ≠ [] → job.1 < _).mpr ⟨?_, ?_⟩
      · exact fun _ => hk
      · exact fun j _ => h.workTaken j

omit [DecidableEq ι] in
theorem inv_start : Inv ({} : Workers ι τ) := by
  refine ⟨Nat.le_refl _, ?_, nofun, fun i hi => absurd rfl hi⟩
  show (0 : Multiset (Nat × τ)) + ∑ _, 0 = 0
  rw [zero_add]
  exact Finset.sum_const_zero

theorem Reachable.inv (h : Reachable w) : Inv w := by
  induction h with
  | refl => exact inv_start
  | tail _ hstep ih => exact ih.step hstep

/-- Each task of the jobs is done, at a worker, or waits. -/
theorem Reachable.counted (h : Reachable w) :
    (w.done : Multiset (Nat × τ)) + w.atWork + labels w.taken (w.jobs.drop w.taken) =
      labels 0 w.jobs := by
  rw [h.inv.counted]
  conv_rhs => rw [← List.take_append_drop w.taken w.jobs]
  rw [labels_append, Nat.zero_add, List.length_take_of_le h.inv.taken, Multiset.coe_add]

/-- No task is done that was not queued, and none more often. -/
theorem Reachable.done_subperm (h : Reachable w) : w.done.Subperm (labels 0 w.jobs) := by
  rw [← Multiset.coe_le, ← h.counted, add_assoc]
  exact Multiset.le_add_right _ _

/-- When no job is left then all tasks are done. -/
theorem Reachable.done_perm (h : Reachable w) (hidle : ∀ i, (w.work i).2 = [])
    (hall : w.taken = w.jobs.length) : w.done.Perm (labels 0 w.jobs) := by
  have hnone : w.atWork = 0 := by
    refine Finset.sum_eq_zero fun i _ => ?_
    rw [label, hidle]
    rfl
  rw [← Multiset.coe_eq_coe, ← h.counted, hnone, hall, List.drop_length, add_zero]
  exact (add_zero _).symm

/-! ### Who is overtaken -/

/-- Tasks of which earlier jobs come behind one of job `k`, or still may. -/
structure Late (w : Workers ι τ) (k : Nat) (after : List (Nat × τ)) (late : Finset Nat) :
    Prop where
  few : late.card < Fintype.card ι
  came : ∀ y ∈ after, y.1 < k → y.1 ∈ late
  mayCome : ∀ i, (w.work i).2 ≠ [] → (w.work i).1 < k → (w.work i).1 ∈ late

/-- Each task is overtaken by few. -/
def Orderly (w : Workers ι τ) : Prop :=
  ∀ before x after, w.done = before ++ x :: after → ∃ late, Late w x.1 after late

/-- The last task done is overtaken by what the other workers have. -/
theorem late_last {i : ι} {k : Nat} {rest : List τ} {done : List (Nat × τ)} :
    ∃ late, Late { w with work := Function.update w.work i (k, rest), done := done } k [] late := by
  refine ⟨(Finset.univ.erase i).image fun j => (w.work j).1, ?_, nofun, ?_⟩
  · refine Nat.lt_of_le_of_lt Finset.card_image_le ?_
    rw [Finset.card_erase_of_mem (Finset.mem_univ i), Finset.card_univ]
    exact Nat.sub_lt (Fintype.card_pos_iff.mpr ⟨i⟩) Nat.one_pos
  · refine (Function.forall_update_iff w.work fun _ job => job.2 ≠ [] → job.1 < k → job.1 ∈ _).mpr
      ⟨fun _ hlt => absurd hlt (Nat.lt_irrefl k), fun j hji _ _ => ?_⟩
    exact Finset.mem_image_of_mem _ (Finset.mem_erase.mpr ⟨hji, Finset.mem_univ j⟩)

theorem Orderly.step (h : Orderly w) (hinv : Inv w) (hstep : Step w w') : Orderly w' := by
  cases hstep with
  | queue job =>
    intro before x after hdone
    obtain ⟨late, hlate⟩ := h before x after hdone
    exact ⟨late, hlate.few, hlate.came, hlate.mayCome⟩
  | @take i job hidle hjob =>
    intro before x after hdone
    obtain ⟨late, hlate⟩ := h before x after hdone
    -- the job that is taken is later than all that was done
    have hx : x.1 < w.taken := hinv.doneTaken x (hdone ▸ List.mem_append_right _ List.mem_cons_self)
    refine ⟨late, hlate.few, hlate.came, ?_⟩
    refine (Function.forall_update_iff w.work
      fun _ job => job.2 ≠ [] → job.1 < x.1 → job.1 ∈ late).mpr ⟨?_, ?_⟩
    · exact fun _ hlt => absurd hlt (Nat.lt_asymm hx)
    · exact fun j _ => hlate.mayCome j
  | @perform i k x rest hwork =>
    intro before y after hdone
    rcases List.eq_nil_or_concat after with rfl | ⟨after, z, rfl⟩
    · obtain ⟨-, hy⟩ := List.append_inj' hdone rfl
      rw [← List.head_eq_of_cons_eq hy]
      exact late_last
    · rw [List.concat_eq_append, ← List.cons_append, ← List.append_assoc] at hdone
      obtain ⟨hdone, hz⟩ := List.append_inj' hdone rfl
      obtain ⟨late, hlate⟩ := h before y after hdone
      have hk : k < y.1 → k ∈ late := by
        intro hlt
        have := hlate.mayCome i (by rw [hwork]; exact List.cons_ne_nil _ _) (by rwa [hwork])
        rwa [hwork] at this
      refine ⟨late, hlate.few, ?_, ?_⟩
      · intro u hu hlt
        rw [List.concat_eq_append, List.mem_append, List.mem_singleton] at hu
        rcases hu with hu | rfl
        · exact hlate.came u hu hlt
        · rw [← List.head_eq_of_cons_eq hz] at hlt ⊢
          exact hk hlt
      · refine (Function.forall_update_iff w.work
          fun _ job => job.2 ≠ [] → job.1 < y.1 → job.1 ∈ late).mpr ⟨?_, ?_⟩
        · exact fun _ => hk
        · exact fun j _ => hlate.mayCome j

theorem Reachable.orderly (h : Reachable w) : Orderly w := by
  induction h with
  | refl => exact fun before x after hdone => absurd hdone (by simp)
  | tail hrun hstep ih => exact ih.step (Reachable.inv hrun) hstep

/-- Behind a task come tasks of fewer earlier jobs than there are workers. -/
theorem Reachable.overtaken (h : Reachable w) {before after : List (Nat × τ)} {x : Nat × τ}
    (hdone : w.done = before ++ x :: after) :
    ∃ late : Finset Nat, late.card < Fintype.card ι ∧ ∀ y ∈ after, y.1 < x.1 → y.1 ∈ late := by
  obtain ⟨late, hlate⟩ := h.orderly before x after hdone
  exact ⟨late, hlate.few, hlate.came⟩

end Workers

end Lib
