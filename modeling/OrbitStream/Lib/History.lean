/-
OrbitStream/Lib/History.lean

Histories in arrays.  To record a value, every element of the array is moved one place
back, the last ones first, and the value is put in front.  The array then holds the latest
values, the most recent one first (`toList_record`, `foldl_take`).
-/
import Mathlib.Data.List.TakeDrop

namespace Lib

variable {α : Type*} {n : ℕ}

/-- The elements before place `i` moved one place back, the last one first. -/
def moveBack (v : Vector α n) : (i : ℕ) → i < n → Vector α n
  | 0, _ => v
  | i + 1, h => moveBack (v.set (i + 1) v[i]) i (Nat.lt_of_succ_lt h)

/-- What stands where after the move. -/
theorem getElem_moveBack (v : Vector α n) {i j : ℕ} (hi : i < n) (hj : j < n) :
    (moveBack v i hi)[j] = if 0 < j ∧ j ≤ i then v[j - 1] else v[j] := by
  induction i generalizing v with
  | zero =>
      rw [moveBack, if_neg (by omega)]
  | succ i ih =>
      rw [moveBack, ih (v.set (i + 1) v[i]) (Nat.lt_of_succ_lt hi)]
      simp only [Vector.getElem_set]
      -- the place written last is behind all that are read from now on
      by_cases hlast : j = i + 1
      · subst hlast
        rw [if_neg (by omega), if_pos rfl, if_pos (by omega)]
        rfl
      · by_cases hin : 0 < j ∧ j ≤ i
        · rw [if_pos hin, if_neg (by omega), if_pos (by omega)]
        · rw [if_neg hin, if_neg (fun h => hlast h.symm), if_neg (by omega)]

/-- A value put in front of a history. -/
def record (v : Vector α (n + 1)) (a : α) : Vector α (n + 1) :=
  (moveBack v n (Nat.lt_succ_self n)).set 0 a

/-- Recording drops the oldest element. -/
theorem toList_record (v : Vector α (n + 1)) (a : α) :
    (record v a).toList = (a :: v.toList).take (n + 1) := by
  apply List.ext_getElem
  · simp
  · intro j hj _
    have hj : j < n + 1 := by simpa using hj
    have hget : (record v a)[j] = if j = 0 then a else v[j - 1] := by
      rw [record, Vector.getElem_set]
      rcases j with - | j
      · rfl
      · rw [if_neg (by omega), getElem_moveBack, if_pos (by omega), if_neg (by omega)]
    rcases j with - | j
    · simpa using hget
    · simpa using hget

/-- What is left of a history after many values: the latest of them, and behind them what
was there. -/
theorem foldl_take {l : List α} (hl : l.length ≤ n) (as : List α) :
    as.foldl (fun l a => (a :: l).take n) l = (as.reverse ++ l).take n := by
  induction as generalizing l with
  | nil => exact (List.take_of_length_le hl).symm
  | cons a as ih =>
      have hlen : ((a :: l).take n).length ≤ n := List.length_take_le n _
      rw [List.foldl_cons, ih hlen, List.reverse_cons, List.append_assoc, List.singleton_append,
        List.take_append, List.take_append, List.take_take]
      congr 2
      omega

end Lib
