/-
OrbitStream/Lib/Serial.lean

Serial numbers of 16 bits.

`ahead a b` is how far `a` lies ahead of `b` going upwards around the circle, and
`a` is newer than `b` when that distance is positive and less than half of the
circle.  Numbers that lie within half of the circle of each other as naturals
compare serially the way they compare as naturals, and a counter that follows a
number moves by the distance the number moves.
-/
import Mathlib.Algebra.Group.Nat.Defs
import Mathlib.Data.Nat.Basic

namespace Lib

/-- The distance from `b` up to `a` modulo `2 ^ 16`. -/
def ahead (a b : UInt16) : Nat := (a - b).toNat

/-- `a` is serially greater than `b`. -/
def Newer (a b : UInt16) : Prop := 0 < ahead a b ∧ ahead a b < 2 ^ 15

instance (a b : UInt16) : Decidable (Newer a b) := inferInstanceAs (Decidable (_ ∧ _))

theorem ahead_eq (a b : UInt16) : ahead a b = (2 ^ 16 - b.toNat + a.toNat) % 2 ^ 16 :=
  UInt16.toNat_sub a b

@[simp] theorem ahead_self (a : UInt16) : ahead a a = 0 := by
  simp [ahead]

/-- A smaller number within half of the circle is older. -/
theorem newer_of_lt {a b : UInt16} (h : b.toNat < a.toNat) (hd : a.toNat - b.toNat < 2 ^ 15) :
    Newer a b := by
  have ha := a.toNat_lt
  have h' : ahead a b = a.toNat - b.toNat := by
    rw [ahead_eq]
    omega
  rw [Newer, h']
  omega

/-- Within half of the circle a newer number is the greater one. -/
theorem lt_of_newer {a b : UInt16} (h : Newer a b) (hd : b.toNat - a.toNat < 2 ^ 15) :
    b.toNat < a.toNat := by
  have ha := a.toNat_lt
  have hb := b.toNat_lt
  obtain ⟨h0, h1⟩ := h
  rw [ahead_eq] at h0 h1
  omega

theorem sub_lt_of_newer {a b : UInt16} (h : Newer a b) (hlt : b.toNat < a.toNat) :
    a.toNat - b.toNat < 2 ^ 15 := by
  have ha := a.toNat_lt
  obtain ⟨h0, h1⟩ := h
  rw [ahead_eq] at h0 h1
  omega

theorem newer_succ (a : UInt16) : Newer (a + 1) a := by
  have ha := a.toNat_lt
  have hone : (1 : UInt16).toNat = 1 := rfl
  rw [Newer, ahead_eq, UInt16.toNat_add, hone]
  omega

/-- Counts less than half of the circle apart compare as they do on the circle. -/
theorem newer_ofNat {n m : Nat} (h : m < n) (hd : n - m < 2 ^ 15) :
    Newer (UInt16.ofNat n) (UInt16.ofNat m) := by
  rw [Newer, ahead_eq, UInt16.toNat_ofNat', UInt16.toNat_ofNat']
  omega

theorem Newer.ne {a b : UInt16} (h : Newer a b) : a ≠ b := by
  rintro rfl
  exact absurd h.1 (by rw [ahead_self]; omega)

theorem Newer.not_newer {a b : UInt16} (h : Newer a b) : ¬ Newer b a := by
  obtain ⟨h0, h1⟩ := h
  have ha := a.toNat_lt
  have hb := b.toNat_lt
  rw [ahead_eq] at h0 h1
  rw [Newer, ahead_eq]
  omega

/-- In a window of half of the circle the distances from its start are compared. -/
theorem newer_iff_window {a b base : UInt16} (ha : ahead a base < 2 ^ 15)
    (hb : ahead b base < 2 ^ 15) : Newer a b ↔ ahead b base < ahead a base := by
  have ha' := a.toNat_lt
  have hb' := b.toNat_lt
  have hbase := base.toNat_lt
  rw [ahead_eq] at ha hb
  rw [Newer, ahead_eq, ahead_eq, ahead_eq]
  omega

theorem ahead_inj {a b base : UInt16} : ahead a base = ahead b base ↔ a = b := by
  refine ⟨?_, fun h => h ▸ rfl⟩
  intro h
  have ha := a.toNat_lt
  have hb := b.toNat_lt
  have hbase := base.toNat_lt
  rw [ahead_eq, ahead_eq] at h
  exact UInt16.toNat_inj.mp (by omega)

/-- A counter that follows `a - base` moves by the distance `a` moves. -/
theorem follow {a b base last cur : UInt16} (hcur : cur = b - base + last) :
    a - base + last = cur + UInt16.ofNat (ahead a b) := by
  apply UInt16.toNat_inj.mp
  have ha := a.toNat_lt
  have hb := b.toNat_lt
  have hbase := base.toNat_lt
  rw [hcur, ahead_eq]
  simp only [UInt16.toNat_add, UInt16.toNat_sub, UInt16.toNat_ofNat']
  omega

end Lib
