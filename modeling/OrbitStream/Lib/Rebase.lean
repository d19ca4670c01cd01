/-
OrbitStream/Lib/Rebase.lean

Numbers that are sent on relative to a base.

The base is the first number that is seen, and one value of the type stands for "no
base yet".  So a first number that happens to be this value is not remembered, and
the next one becomes the base: the distances of the input are kept if and only if a
base was there, or the first number is another one, or all numbers are that value
(`Measured.offsets_iff`).
-/
import Mathlib.Algebra.Group.Basic

namespace Lib

variable {G : Type*} [DecidableEq G] {unset base x : G}

/-- The base after a number was seen. -/
def rebase (unset base x : G) : G := if base = unset then x else base

theorem rebase_of_ne (h : base ≠ unset) (x : G) : rebase unset base x = base := if_neg h

theorem rebase_unset (x : G) : rebase unset unset x = x := if_pos rfl

theorem rebase_eq_unset : rebase unset base x = unset ↔ base = unset ∧ x = unset := by
  by_cases h : base = unset
  · rw [h, rebase_unset]
    simp
  · rw [rebase_of_ne h]
    simp [h]

variable [AddCommGroup G]

/-- Numbers with what they are sent on as, from a base; the first one is sent as `last` if
there is no base yet. -/
inductive Measured (unset last : G) : G → List (G × G) → Prop
  | nil (base : G) : Measured unset last base []
  | cons {base x : G} {l : List (G × G)} (h : Measured unset last (rebase unset base x) l) :
      Measured unset last base ((x, last + (x - rebase unset base x)) :: l)

namespace Measured

variable {last o : G} {l : List (G × G)}

/-- A base that is there stays. -/
theorem eq_of_base (hm : Measured unset last base l) (h : base ≠ unset) :
    ∀ p ∈ l, p.2 = last + (p.1 - base) := by
  induction hm with
  | nil base => exact fun p hp => absurd hp List.not_mem_nil
  | cons hm ih =>
    rw [rebase_of_ne h] at ih ⊢
    intro p hp
    rcases List.mem_cons.mp hp with rfl | hp
    · rfl
    · exact ih h p hp

/-- Without a base, the first number is sent as `last`. -/
theorem head_of_unset (hm : Measured unset last unset ((x, o) :: l)) : o = last := by
  cases hm with
  | cons hm => rw [rebase_unset, sub_self, add_zero]

/-- Without a base, every number before the base is found is sent as the first one was. -/
theorem unset_iff (hm : Measured unset last unset l) :
    (∀ p ∈ l, p.2 - last = p.1 - unset) ↔ ∀ p ∈ l, p.1 = unset := by
  induction l with
  | nil => simp
  | cons p l ih =>
    cases hm with
    | @cons _ x _ hm =>
    rw [rebase_unset] at hm ⊢
    rw [List.forall_mem_cons, List.forall_mem_cons]
    have hhead : last + (x - x) - last = x - unset ↔ x = unset := by
      rw [sub_self, add_zero, sub_self, eq_comm, sub_eq_zero]
    rw [hhead]
    refine and_congr_right ?_
    rintro rfl
    exact ih hm

/-- **When the distances are kept.** -/
theorem offsets_iff (hm : Measured unset last base ((x, o) :: l)) :
    (∀ p ∈ l, p.2 - o = p.1 - x) ↔ base ≠ unset ∨ x ≠ unset ∨ ∀ p ∈ l, p.1 = unset := by
  cases hm with
  | cons hm =>
  by_cases hset : rebase unset base x = unset
  · obtain ⟨rfl, rfl⟩ := rebase_eq_unset.mp hset
    rw [hset] at hm ⊢
    rw [sub_self, add_zero, hm.unset_iff]
    simp
  · have hall := hm.eq_of_base hset
    have hor : base ≠ unset ∨ x ≠ unset := by
      rw [rebase_eq_unset, not_and_or] at hset
      exact hset
    constructor
    · exact fun _ => hor.imp_right .inl
    · intro _ p hp
      rw [hall p hp, add_sub_add_left_eq_sub, sub_sub_sub_cancel_right]

end Measured

end Lib
