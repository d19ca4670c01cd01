/-
OrbitStream/Lib/Scan.lean

A scan for a greatest element that remembers the greatest value seen only through a
lossy function: the next element is taken if it exceeds what is remembered of the
value of the current one.

If what is remembered is never above the value itself, the scan always reaches a
greatest element, and leaves it again if and only if an element behind the last
greatest one exceeds what is remembered of it (`foldl_pick_iff`).
-/
import Mathlib.Order.Lattice

namespace Lib

variable {α β : Type*} [LinearOrder α] (v : β → α) (r : α → α)

/-- The element that the scan goes on with. -/
def pick (c x : β) : β := if r (v c) < v x then x else c

variable {v r} {c m : β} {l pre post : List β}

theorem foldl_pick_mem : l.foldl (pick v r) c ∈ c :: l := by
  induction l generalizing c with
  | nil => exact List.mem_cons_self
  | cons x l ih =>
    rcases List.mem_cons.mp (ih (c := pick v r c x)) with heq | hmem
    · rw [List.foldl_cons, heq, pick]
      split
      · exact List.mem_cons_of_mem c List.mem_cons_self
      · exact List.mem_cons_self
    · exact List.mem_cons_of_mem c (List.mem_cons_of_mem x hmem)

/-- A greatest element is taken, or one of its value is kept. -/
theorem pick_greatest (hr : r (v c) ≤ v c) (hc : v c ≤ v m) : v (pick v r c m) = v m := by
  rw [pick]
  split
  · rfl
  · rename_i hlt
    exact le_antisymm hc (le_trans (not_lt.mp hlt) hr)

/-- Behind the last greatest element. -/
theorem foldl_pick_behind (hc : v c = v m) (hpost : ∀ x ∈ post, v x < v m) :
    v (post.foldl (pick v r) c) = v m ↔ ∀ x ∈ post, v x ≤ r (v m) := by
  induction post with
  | nil => exact iff_of_true hc (by simp)
  | cons x post ih =>
    have hrest : ∀ y ∈ post, v y < v m := fun y hy => hpost y (List.mem_cons_of_mem x hy)
    rw [List.foldl_cons, List.forall_mem_cons, pick, hc]
    by_cases hlt : r (v m) < v x
    · -- the scan goes on among smaller elements
      rw [if_pos hlt]
      refine iff_of_false ?_ (fun h => absurd hlt (not_lt.mpr h.1))
      exact ne_of_lt (hpost _ foldl_pick_mem)
    · rw [if_neg hlt, ih hrest, and_iff_right (not_lt.mp hlt)]

/-- Every list has a last greatest element. -/
theorem exists_last_greatest (v : β → α) (c : β) (l : List β) :
    ∃ pre m post, c :: l = pre ++ m :: post ∧ (∀ x ∈ c :: l, v x ≤ v m) ∧
      ∀ x ∈ post, v x < v m := by
  induction l generalizing c with
  | nil => exact ⟨[], c, [], rfl, by simp, by simp⟩
  | cons x l ih =>
    obtain ⟨pre, m, post, hsplit, hmax, hpost⟩ := ih x
    by_cases hc : v c ≤ v m
    · refine ⟨c :: pre, m, post, by rw [hsplit, List.cons_append], ?_, hpost⟩
      rw [List.forall_mem_cons]
      exact ⟨hc, hmax⟩
    · have hlt := not_le.mp hc
      refine ⟨[], c, x :: l, rfl, ?_, fun y hy => lt_of_le_of_lt (hmax y hy) hlt⟩
      rw [List.forall_mem_cons]
      exact ⟨le_refl _, fun y hy => le_of_lt (lt_of_le_of_lt (hmax y hy) hlt)⟩

/-- **Where the scan ends.** -/
theorem foldl_pick_iff (hsplit : c :: l = pre ++ m :: post)
    (hr : ∀ x ∈ c :: l, r (v x) ≤ v x) (hmax : ∀ x ∈ c :: l, v x ≤ v m)
    (hpost : ∀ x ∈ post, v x < v m) :
    v (l.foldl (pick v r) c) = v m ↔ ∀ x ∈ post, v x ≤ r (v m) := by
  rcases pre with - | ⟨c', pre⟩
  · obtain ⟨rfl, rfl⟩ := List.cons.inj hsplit
    exact foldl_pick_behind rfl hpost
  · obtain ⟨rfl, hl⟩ := List.cons.inj hsplit
    rw [List.append_eq] at hl
    subst hl
    rw [List.foldl_append, List.foldl_cons]
    apply foldl_pick_behind ?_ hpost
    have hmem : pre.foldl (pick v r) c ∈ c :: (pre ++ m :: post) :=
      List.mem_append_left (m :: post) foldl_pick_mem
    exact pick_greatest (hr _ hmem) (hmax _ hmem)

end Lib
