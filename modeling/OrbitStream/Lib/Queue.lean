/-
OrbitStream/Lib/Queue.lean

Queues that are kept in order and cut at the back.

`insertNew` walks from the front, drops an element that is already there, and puts a new one
before the first element that is older.  `insertNew_some` says where it ends up, from which
every order that the comparison agrees with is kept (`pairwise_insertNew`).  `trimBack` takes
elements from the back as long as the rest is bad; what stays is the longest good start of
the queue (`trimBack_longest`).
-/
import Mathlib.Data.List.Basic

namespace Lib

variable {α : Type*}

/-! ### Insertion -/

/-- The queue with `x`, unless an element before its place is the same. -/
def insertNew (same older : α → α → Bool) (x : α) : List α → Option (List α)
  | [] => some [x]
  | y :: ys =>
    if same y x then none
    else if older y x then some (x :: y :: ys)
    else (insertNew same older x ys).map (y :: ·)

section

variable {same older : α → α → Bool} {x : α} {l l' : List α}

theorem insertNew_some (h : insertNew same older x l = some l') :
    ∃ front back, l = front ++ back ∧ l' = front ++ x :: back ∧
      (∀ y ∈ front, same y x = false ∧ older y x = false) ∧
      ∀ y ∈ back.head?, same y x = false ∧ older y x = true := by
  induction l generalizing l' with
  | nil =>
    refine ⟨[], [], rfl, (Option.some.inj h).symm, ?_, ?_⟩
    · exact fun y hy => absurd hy List.not_mem_nil
    · exact fun y hy => absurd hy (Option.not_mem_none y)
  | cons y ys ih =>
    rw [insertNew] at h
    by_cases hsame : same y x = true
    · rw [if_pos hsame] at h
      cases h
    rw [if_neg hsame] at h
    rw [Bool.not_eq_true] at hsame
    by_cases holder : older y x = true
    · -- its place is before the first older element
      rw [if_pos holder] at h
      refine ⟨[], y :: ys, rfl, (Option.some.inj h).symm, ?_, ?_⟩
      · exact fun z hz => absurd hz List.not_mem_nil
      · intro z hz
        obtain rfl := Option.mem_some.mp hz
        exact ⟨hsame, holder⟩
    · rw [if_neg holder] at h
      rw [Bool.not_eq_true] at holder
      obtain ⟨rest, hrest, rfl⟩ := Option.map_eq_some_iff.mp h
      obtain ⟨front, back, rfl, rfl, hfront, hback⟩ := ih hrest
      refine ⟨y :: front, back, rfl, rfl, ?_, hback⟩
      exact List.forall_mem_cons.mpr ⟨⟨hsame, holder⟩, hfront⟩

theorem insertNew_none (h : insertNew same older x l = none) : ∃ y ∈ l, same y x = true := by
  induction l with
  | nil => cases h
  | cons y ys ih =>
    rw [insertNew] at h
    by_cases hsame : same y x = true
    · exact ⟨y, List.mem_cons_self, hsame⟩
    rw [if_neg hsame] at h
    by_cases holder : older y x = true
    · rw [if_pos holder] at h
      cases h
    · rw [if_neg holder, Option.map_eq_none_iff] at h
      obtain ⟨z, hz, hzx⟩ := ih h
      exact ⟨z, List.mem_cons_of_mem y hz, hzx⟩

theorem mem_of_insertNew (h : insertNew same older x l = some l') {y : α} :
    y ∈ l' ↔ y = x ∨ y ∈ l := by
  obtain ⟨front, back, rfl, rfl, -, -⟩ := insertNew_some h
  simp only [List.mem_append, List.mem_cons]
  constructor
  · rintro (hy | hy | hy)
    · exact Or.inr (Or.inl hy)
    · exact Or.inl hy
    · exact Or.inr (Or.inr hy)
  · rintro (hy | hy | hy)
    · exact Or.inr (Or.inl hy)
    · exact Or.inl hy
    · exact Or.inr (Or.inr hy)

/-- An order is kept if it holds between `x` and the elements that the comparison puts
before it and behind it. -/
theorem pairwise_insertNew {R : α → α → Prop} (htrans : ∀ a b c, R a b → R b c → R a c)
    (hafter : ∀ y ∈ l, same y x = false → older y x = false → R y x)
    (hbefore : ∀ y ∈ l, same y x = false → older y x = true → R x y) (hl : l.Pairwise R)
    (h : insertNew same older x l = some l') : l'.Pairwise R := by
  obtain ⟨front, back, rfl, rfl, hfront, hback⟩ := insertNew_some h
  have hx : ∀ y ∈ back, R x y := by
    intro y hy
    rcases back with - | ⟨z, back⟩
    · cases hy
    have hz := hback z rfl
    have hxz := hbefore z (List.mem_append_right front List.mem_cons_self) hz.1 hz.2
    rcases List.mem_cons.mp hy with rfl | hy
    · exact hxz
    · -- what is behind the first older element comes after it
      exact htrans x z y hxz (List.rel_of_pairwise_cons (List.pairwise_append.mp hl).2.1 hy)
  rw [List.pairwise_append] at hl ⊢
  refine ⟨hl.1, List.pairwise_cons.mpr ⟨hx, hl.2.1⟩, ?_⟩
  intro y hy z hz
  have hyx := hafter y (List.mem_append_left back hy) (hfront y hy).1 (hfront y hy).2
  rcases List.mem_cons.mp hz with rfl | hz
  · exact hyx
  · exact htrans y x z hyx (hx z hz)

end

/-! ### Cutting -/

/-- Elements are taken from the back as long as the queue is bad. -/
def trimBack (bad : List α → Bool) (l : List α) : List α :=
  if l ≠ [] ∧ bad l = true then trimBack bad l.dropLast else l
termination_by l.length
decreasing_by
  have hpos := List.length_pos_iff.mpr (by assumption : l ≠ [] ∧ bad l = true).1
  rw [List.length_dropLast]
  omega

/-- `l'` is the longest start of `l` with `P`. -/
structure Longest (P : List α → Prop) (l l' : List α) : Prop where
  start : l' <+: l
  holds : P l'
  longest : ∀ k, k <+: l → P k → k.length ≤ l'.length

section

variable {bad : List α → Bool} {l : List α}

theorem trimBack_of_good (h : bad l = false) : trimBack bad l = l := by
  rw [trimBack, if_neg]
  rintro ⟨-, hbad⟩
  rw [h] at hbad
  cases hbad

/-- What is left is the longest good start. -/
theorem trimBack_longest (bad : List α → Bool) (l : List α) :
    Longest (fun k => k ≠ [] → bad k = false) l (trimBack bad l) := by
  induction hn : l.length generalizing l with
  | zero =>
    obtain rfl := List.eq_nil_of_length_eq_zero hn
    rw [trimBack, if_neg fun h => h.1 rfl]
    exact ⟨List.prefix_refl [], fun h => absurd rfl h, fun k hk _ => hk.length_le⟩
  | succ n ih =>
    by_cases hbad : bad l = true
    · have hne : l ≠ [] := by
        rintro rfl
        cases hn
      have hlast := ih l.dropLast (by rw [List.length_dropLast, hn]; rfl)
      rw [trimBack, if_pos ⟨hne, hbad⟩]
      refine ⟨hlast.start.trans (List.dropLast_prefix l), hlast.holds, ?_⟩
      intro k hk hgood
      apply hlast.longest k ?_ hgood
      -- the whole of the queue is bad, so a good start leaves the last element out
      have hlt : k.length < l.length := by
        by_contra hlong
        have hkl := hk.eq_of_length_le (Nat.le_of_not_lt hlong)
        rw [hkl] at hgood
        rw [hgood hne] at hbad
        cases hbad
      apply List.prefix_of_prefix_length_le hk (List.dropLast_prefix l)
      rw [List.length_dropLast]
      exact Nat.le_sub_one_of_lt hlt
    · rw [Bool.not_eq_true] at hbad
      rw [trimBack_of_good hbad]
      exact ⟨List.prefix_refl l, fun _ => hbad, fun k hk _ => hk.length_le⟩

/-- Only the starts of the queue are looked at. -/
theorem Longest.congr {P Q : List α → Prop} {l' : List α} (h : Longest P l l')
    (hPQ : ∀ k, k <+: l → (P k ↔ Q k)) : Longest Q l l' :=
  ⟨h.start, (hPQ l' h.start).mp h.holds, fun k hk hQ => h.longest k hk ((hPQ k hk).mpr hQ)⟩

theorem Longest.eq_of_whole {P : List α → Prop} {l' : List α} (h : Longest P l l') (hP : P l) :
    l' = l := h.start.eq_of_length_le (h.longest l (List.prefix_refl l) hP)

/-- The ends of a queue in order. -/
theorem rel_head_last {R : α → α → Prop} (hl : l.Pairwise R) {a b : α} (ha : l.head? = some a)
    (hb : l.getLast? = some b) : a = b ∨ R a b := by
  rcases l with - | ⟨c, l⟩
  · cases ha
  · obtain rfl := Option.some.inj ha
    rcases List.mem_cons.mp (List.mem_of_getLast? hb) with rfl | hmem
    · exact Or.inl rfl
    · exact Or.inr (List.rel_of_pairwise_cons hl hmem)

end

end Lib
