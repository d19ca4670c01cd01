/-
OrbitStream/Lib/Sets.lean

Ordered sets by size: what the number of elements of a `Std.TreeSet` says about
its members.
-/
import Mathlib.Data.List.Nodup

namespace Lib

variable {α : Type*} {cmp : α → α → Ordering} [Std.TransCmp cmp] [Std.LawfulEqCmp cmp]

theorem treeSet_toList_nodup (t : Std.TreeSet α cmp) : t.toList.Nodup := by
  refine t.ordered_toList.imp ?_
  rintro a b hab rfl
  have heq : cmp a a = .eq := Std.ReflCmp.compare_self
  rw [heq] at hab
  cases hab

/-- All members of a one-element set are equal. -/
theorem treeSet_eq_of_size_one {t : Std.TreeSet α cmp} (h : t.size = 1) {a b : α}
    (ha : a ∈ t) (hb : b ∈ t) : a = b := by
  have hlen : t.toList.length = 1 := by rw [Std.TreeSet.length_toList, h]
  obtain ⟨c, hc⟩ := List.length_eq_one_iff.mp hlen
  rw [← Std.TreeSet.mem_toList, hc, List.mem_singleton] at ha hb
  rw [ha, hb]

/-- A set whose members all equal `a` has one element. -/
theorem treeSet_size_one_of_forall {t : Std.TreeSet α cmp} {a : α} (ha : a ∈ t)
    (h : ∀ b ∈ t, b = a) : t.size = 1 := by
  have hrep : t.toList = List.replicate t.toList.length a :=
    List.eq_replicate_of_mem fun b hb => h b (Std.TreeSet.mem_toList.mp hb)
  have hnd := treeSet_toList_nodup t
  rw [hrep, List.nodup_replicate] at hnd
  have hpos : 0 < t.toList.length := List.length_pos_of_mem (Std.TreeSet.mem_toList.mpr ha)
  rw [Std.TreeSet.length_toList] at hnd hpos
  omega

omit [Std.LawfulEqCmp cmp] in
theorem treeSet_size_eq_zero {t : Std.TreeSet α cmp} : t.size = 0 ↔ ∀ a, a ∉ t := by
  rw [← Std.TreeSet.isEmpty_iff_forall_not_mem, Std.TreeSet.isEmpty_eq_size_eq_zero]
  simp

end Lib
