/-
OrbitStream/Lib/Round.lean

Going round a list.

The index goes up by one and starts over at the end of the list.  From any index, as many
turns as the list has elements meet each of them once (`walk_perm`).
-/
import Mathlib.Data.List.Nodup
import Mathlib.Data.List.Rotate

namespace Lib

variable {α : Type*}

/-- The index after `i` in a list of this length. -/
def turn (length i : Nat) : Nat := if i + 1 ≥ length then 0 else i + 1

/-- The elements met in so many turns. -/
def walk (l : List α) : Nat → Nat → List α
  | 0, _ => []
  | n + 1, i => l[i]?.toList ++ walk l n (turn l.length i)

theorem turn_lt {length i : Nat} (h : i < length) : turn length i < length := by
  rw [turn]
  split
  · omega
  · omega

theorem rotate_turn (l : List α) {i : Nat} (h : i < l.length) :
    l.rotate (turn l.length i) = l.rotate (i + 1) := by
  rw [turn]
  split
  · rw [show i + 1 = l.length by omega, List.rotate_length, List.rotate_zero]
  · rfl

/-- A round is a rotation of the list. -/
theorem walk_eq_take (l : List α) {n i : Nat} (hn : n ≤ l.length) (hi : i < l.length) :
    walk l n i = (l.rotate i).take n := by
  induction n generalizing i with
  | zero => rw [walk, List.take_zero]
  | succ n ih =>
    have hdrop : l.drop i = l[i] :: l.drop (i + 1) := List.drop_eq_getElem_cons hi
    have htake : l.take (i + 1) = l.take i ++ [l[i]] := (List.take_append_getElem hi).symm
    rw [walk, ih (by omega) (turn_lt hi), rotate_turn l hi,
      List.rotate_eq_drop_append_take (Nat.le_of_lt hi), List.rotate_eq_drop_append_take hi, hdrop,
      htake, List.getElem?_eq_getElem hi, ← List.append_assoc]
    show l[i] :: _ = _
    rw [List.cons_append, List.take_succ_cons, List.take_append_of_le_length]
    · rfl
    · rw [List.length_append, List.length_drop, List.length_take]
      omega

theorem walk_perm (l : List α) {i : Nat} (hi : i < l.length) : (walk l l.length i).Perm l := by
  rw [walk_eq_take l (Nat.le_refl _) hi, List.take_of_length_le (by rw [List.length_rotate])]
  exact l.rotate_perm i

/-- What is left of a list without repetitions is told by its elements. -/
theorem sublist_eq_filter [DecidableEq α] {l l' : List α} (h : l'.Sublist l) (hl : l.Nodup) :
    l' = l.filter (· ∈ l') := by
  induction h with
  | slnil => rfl
  | @cons l₁ l₂ a h ih =>
    rw [List.nodup_cons] at hl
    rw [List.filter_cons, if_neg]
    · exact ih hl.2
    · rw [decide_eq_true_iff]
      exact fun hmem => hl.1 (h.subset hmem)
  | @cons_cons l₁ l₂ a h ih =>
    rw [List.nodup_cons] at hl
    rw [List.filter_cons, if_pos (decide_eq_true List.mem_cons_self), List.cons.injEq]
    refine ⟨rfl, (ih hl.2).trans ?_⟩
    apply List.filter_congr
    intro x hx
    have hne : x ≠ a := fun heq => hl.1 (heq ▸ hx)
    simp [hne]

end Lib
