/-
OrbitStream/Lib/Bytes.lean

Numbers as bytes, the least significant byte first, and reads from a string of
bytes that may end before the read does.
-/
import Mathlib.Algebra.Group.Int.Defs
import Mathlib.Algebra.Group.Nat.Defs
import Mathlib.Data.List.Basic

namespace Lib

/-- The lowest `w` bytes of `n`. -/
def toLe : Nat → Nat → List UInt8
  | 0, _ => []
  | w + 1, n => UInt8.ofNat n :: toLe w (n / 256)

/-- The number that bytes stand for. -/
def ofLe : List UInt8 → Nat
  | [] => 0
  | b :: bs => b.toNat + 256 * ofLe bs

@[simp] theorem length_toLe (w n : Nat) : (toLe w n).length = w := by
  induction w generalizing n with
  | zero => rfl
  | succ w ih => simp [toLe, ih]

theorem ofLe_toLe (w n : Nat) : ofLe (toLe w n) = n % 256 ^ w := by
  induction w generalizing n with
  | zero => simp [toLe, ofLe, Nat.mod_one]
  | succ w ih =>
    have hbyte : (UInt8.ofNat n).toNat = n % 256 := by simp
    rw [toLe, ofLe, ih, hbyte, Nat.pow_succ, Nat.mul_comm (256 ^ w) 256, Nat.mod_mul]

theorem ofLe_toLe_of_lt {w n : Nat} (h : n < 256 ^ w) : ofLe (toLe w n) = n := by
  rw [ofLe_toLe, Nat.mod_eq_of_lt h]

/-- The number of 32 bits with a sign that bytes stand for. -/
def ofLeInt (bs : List UInt8) : Int :=
  if ofLe bs < 2 ^ 31 then (ofLe bs : Int) else (ofLe bs : Int) - 2 ^ 32

theorem ofLeInt_toLe {n : Nat} (h : n < 2 ^ 31) : ofLeInt (toLe 4 n) = n := by
  have hle : ofLe (toLe 4 n) = n := ofLe_toLe_of_lt (Nat.lt_trans h (by decide))
  rw [ofLeInt, hle, if_pos h]

section

variable {α : Type*} {x y : List α} {n cut : Nat}

/-- A read that ends before the cut gets what was written. -/
theorem take_take_append (hx : x.length = n) (h : n ≤ cut) :
    ((x ++ y).take cut).take n = x ∧ ((x ++ y).take cut).drop n = y.take (cut - n) := by
  subst hx
  have hsplit : (x ++ y).take cut = x ++ y.take (cut - x.length) := by
    rw [List.take_append, List.take_of_length_le h]
  rw [hsplit]
  simp

/-- A read across the cut is short, and leaves nothing. -/
theorem take_take_short (h : cut < n) :
    ((x.take cut).take n).length ≠ n ∧ (x.take cut).drop n = [] := by
  have hlen : (x.take cut).length ≤ cut := List.length_take_le _ _
  refine ⟨?_, ?_⟩
  · rw [List.length_take]
    omega
  · exact List.drop_eq_nil_of_le (by omega)

end

end Lib
