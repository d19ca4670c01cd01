/-
OrbitStream/Lib/BitSize.lean

The number of bits of a number, found by halving.

A test with a mask asks whether a number has bits at or above some place
(`and_mask`).  Searching from the top, a shift to the right by half of the width
follows each test that succeeds (`Sized.step`), and in the other direction, towards a
number whose top bit is set, a shift to the left follows each test that fails
(`Normed.step`).
-/
import Mathlib.Algebra.Group.Nat.Defs
import Mathlib.Data.Nat.Size

namespace Lib

/-- The bits of `x` from `k` on, for a number of `n` bits. -/
theorem and_mask {x n k : Nat} (hk : k ≤ n) (hx : x < 2 ^ n) :
    (2 ^ n - 2 ^ k) &&& x = 0 ↔ x < 2 ^ k := by
  have hmask : 2 ^ n - 2 ^ k = (2 ^ (n - k) - 1) <<< k := by
    rw [Nat.shiftLeft_eq, Nat.sub_mul, Nat.one_mul, ← Nat.pow_add, Nat.sub_add_cancel hk]
  have hand : (2 ^ n - 2 ^ k) &&& x = (x >>> k) <<< k := by
    apply Nat.eq_of_testBit_eq
    intro i
    rw [hmask, Nat.testBit_and, Nat.testBit_shiftLeft, Nat.testBit_shiftLeft,
      Nat.testBit_two_pow_sub_one, Nat.testBit_shiftRight]
    by_cases hi : k ≤ i
    · rw [Nat.add_sub_cancel' hi]
      by_cases hin : i < n
      · have hlt : i - k < n - k := Nat.sub_lt_sub_right hi hin
        simp [hi, hlt]
      · have hbit : x.testBit i = false :=
          Nat.testBit_lt_two_pow (Nat.lt_of_lt_of_le hx (Nat.pow_le_pow_right (by decide)
            (Nat.not_lt.mp hin)))
        simp [hbit]
    · simp [hi]
  rw [hand, Nat.shiftLeft_eq, Nat.shiftRight_eq_div_pow]
  have hpos : 2 ^ k ≠ 0 := Nat.ne_of_gt (Nat.two_pow_pos k)
  rw [Nat.mul_eq_zero, or_iff_left hpos, Nat.div_eq_zero_iff, or_iff_right hpos]

theorem size_shiftRight {x w : Nat} (h : 2 ^ w ≤ x) : x.size = w + (x >>> w).size := by
  have hiff : ∀ j, x < 2 ^ (w + j) ↔ x >>> w < 2 ^ j := by
    intro j
    rw [Nat.shiftRight_eq_div_pow, Nat.div_lt_iff_lt_mul (Nat.two_pow_pos w), ← Nat.pow_add,
      Nat.add_comm]
  apply Nat.le_antisymm
  · rw [Nat.size_le, hiff]
    exact Nat.lt_size_self _
  · have hw : w < x.size := Nat.lt_size.mpr h
    obtain ⟨j, hj⟩ := Nat.exists_eq_add_of_lt hw
    have hx : x < 2 ^ (w + (j + 1)) := by
      rw [← Nat.add_assoc, ← hj]
      exact Nat.lt_size_self x
    have hle := Nat.size_le.mpr ((hiff (j + 1)).mp hx)
    omega

/-! ### From the top -/

/-- `bits` of the bits of `n` are counted, and the others are among the next `w`. -/
structure Sized (n bits w : Nat) : Prop where
  lt : n >>> bits < 2 ^ w
  size : n.size = bits + (n >>> bits).size

theorem Sized.start {n w : Nat} (h : n < 2 ^ w) : Sized n 0 w := ⟨h, (Nat.zero_add _).symm⟩

/-- One test, of the upper half. -/
theorem Sized.step {n bits : Nat} (w mask : Nat) (h : Sized n bits (w + w))
    (hmask : mask = 2 ^ (w + w) - 2 ^ w) :
    Sized n (if mask &&& (n >>> bits) ≠ 0 then bits + w else bits) w := by
  have hand := and_mask (Nat.le_add_left w w) h.lt
  rw [hmask]
  by_cases hlt : n >>> bits < 2 ^ w
  · rw [if_neg (not_not_intro (hand.mpr hlt))]
    exact ⟨hlt, h.size⟩
  · rw [if_pos (fun h0 => hlt (hand.mp h0))]
    refine ⟨?_, ?_⟩
    · rw [Nat.shiftRight_add, Nat.shiftRight_eq_div_pow _ w,
        Nat.div_lt_iff_lt_mul (Nat.two_pow_pos w), ← Nat.pow_add]
      exact h.lt
    · rw [Nat.shiftRight_add, Nat.add_assoc, ← size_shiftRight (Nat.not_lt.mp hlt)]
      exact h.size

/-- The last test, of one bit. -/
theorem Sized.last {n bits : Nat} (h : Sized n bits 1) :
    (if 1 &&& (n >>> bits) ≠ 0 then bits + 1 else bits) = n.size := by
  have hlt : n >>> bits < 2 := h.lt
  rw [h.size]
  rcases Nat.le_one_iff_eq_zero_or_eq_one.mp (Nat.le_of_lt_succ hlt) with hzero | hone
  · rw [hzero]
    rfl
  · rw [hone]
    rfl

/-! ### Towards the top -/

/-- Shifted by `zeros`, the number has no bits above `n`, and one at or above `k`. -/
structure Normed (a n k zeros : Nat) : Prop where
  ge : 2 ^ k ≤ a <<< zeros
  lt : a <<< zeros < 2 ^ n

/-- One test, of the upper bits; the shift must not reach the top. -/
theorem Normed.step {a n k zeros : Nat} (w mask k' : Nat) (h : Normed a n k zeros)
    (hmask : mask = 2 ^ (n + 1) - 2 ^ k') (hk : k' ≤ k + w) (hn : k' + w ≤ n) :
    Normed a n k' (if mask &&& (a <<< zeros) = 0 then zeros + w else zeros) := by
  have hlt : a <<< zeros < 2 ^ (n + 1) :=
    Nat.lt_trans h.lt (Nat.pow_lt_pow_right (by decide) (Nat.lt_succ_self n))
  rw [hmask]
  by_cases hsmall : a <<< zeros < 2 ^ k'
  · rw [if_pos ((and_mask (by omega) hlt).mpr hsmall)]
    have hge : 2 ^ k * 2 ^ w ≤ a <<< zeros * 2 ^ w := Nat.mul_le_mul_right _ h.ge
    have hup : a <<< zeros * 2 ^ w < 2 ^ k' * 2 ^ w :=
      Nat.mul_lt_mul_of_pos_right hsmall (Nat.two_pow_pos w)
    rw [← Nat.pow_add] at hge hup
    refine ⟨?_, ?_⟩
    · rw [Nat.shiftLeft_add, Nat.shiftLeft_eq _ w]
      exact Nat.le_trans (Nat.pow_le_pow_right (by decide) hk) hge
    · rw [Nat.shiftLeft_add, Nat.shiftLeft_eq _ w]
      exact Nat.lt_of_lt_of_le hup (Nat.pow_le_pow_right (by decide) hn)
  · rw [if_neg (fun h0 => hsmall ((and_mask (by omega) hlt).mp h0))]
    exact ⟨Nat.not_lt.mp hsmall, h.lt⟩

/-- With the top bit set, the shift and the bits of the number make up the width. -/
theorem Normed.size {a n zeros : Nat} (h : Normed a (n + 1) n zeros) (ha : a ≠ 0) :
    zeros = n + 1 - a.size := by
  have hsize : (a <<< zeros).size = n + 1 :=
    Nat.le_antisymm (Nat.size_le.mpr h.lt) (Nat.lt_size.mpr h.ge)
  rw [Nat.size_shiftLeft ha] at hsize
  omega

end Lib
