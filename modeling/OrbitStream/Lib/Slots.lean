/-
OrbitStream/Lib/Slots.lean

A table of slots, each with a key and an occupant; one value stands for "free".

An occupant is given the first free slot (`take`) and leaves all its slots at once
(`release`); to assign it anew is to release it and let it take a slot (`assign`).
The occupants of the table change accordingly (`occupants_release`,
`occupants_take`), the keys never do, and a table with fewer occupants than slots
has a free one (`exists_seat_free`).  So occupants of a small enough set can all be
assigned, one after the other, and none loses its slot (`foldl_assign`).
-/
import Mathlib.Data.List.Nodup
import Mathlib.Data.List.Perm.Subperm

namespace Lib

variable {κ α : Type*} [DecidableEq α] {free x y : α} {k : κ} {l : List (κ × α)}

/-- The key of the first slot of an occupant. -/
def seat? (x : α) (l : List (κ × α)) : Option κ := (l.find? fun s => s.2 = x).map Prod.fst

/-- All slots of an occupant become free. -/
def release (free x : α) (l : List (κ × α)) : List (κ × α) :=
  l.map fun s => if s.2 = x then (s.1, free) else s

/-- The first free slot is given to an occupant. -/
def take (free x : α) : List (κ × α) → List (κ × α)
  | [] => []
  | s :: l => if s.2 = free then (s.1, x) :: l else s :: take free x l

/-- An occupant leaves its slots and takes the first free one. -/
def assign (free x : α) (l : List (κ × α)) : List (κ × α) := take free x (release free x l)

/-- The occupants, slot by slot. -/
def occupants (free : α) (l : List (κ × α)) : List α := (l.map Prod.snd).filter (· ≠ free)

/-! ### Seats -/

theorem seat?_cons (x : α) (s : κ × α) (l : List (κ × α)) :
    seat? x (s :: l) = if s.2 = x then some s.1 else seat? x l := by
  rw [seat?, List.find?_cons]
  by_cases h : s.2 = x
  · rw [if_pos h, decide_eq_true h]
    rfl
  · rw [if_neg h, decide_eq_false h]
    rfl

theorem seat?_eq_none : seat? x l = none ↔ ∀ s ∈ l, s.2 ≠ x := by
  rw [seat?, Option.map_eq_none_iff, List.find?_eq_none]
  simp only [decide_eq_true_eq, ne_eq]

theorem mem_of_seat? (h : seat? x l = some k) : (k, x) ∈ l := by
  obtain ⟨s, hs, rfl⟩ := Option.map_eq_some_iff.mp h
  have hx : s.2 = x := by
    simpa using List.find?_some hs
  rw [← hx]
  exact List.mem_of_find?_eq_some hs

theorem mem_occupants : x ∈ occupants free l ↔ x ≠ free ∧ ∃ s ∈ l, s.2 = x := by
  rw [occupants, List.mem_filter, List.mem_map, decide_eq_true_eq, and_comm]

/-- Distinct occupants have one slot each. -/
theorem countP_le_one (h : (occupants free l).Nodup) (hx : x ≠ free) :
    l.countP (fun s => s.2 = x) ≤ 1 := by
  have hcount : l.countP (fun s => s.2 = x) = (occupants free l).count x := by
    have hfilter : (occupants free l).count x = (l.map Prod.snd).count x :=
      List.count_filter (p := (· ≠ free)) (by simpa using hx)
    rw [hfilter, List.count, List.countP_map]
    rfl
  rw [hcount]
  exact List.nodup_iff_count_le_one.mp h x

theorem seat?_of_mem_occupants (h : x ∈ occupants free l) : ∃ k, seat? x l = some k := by
  obtain ⟨-, s, hs, hx⟩ := mem_occupants.mp h
  rcases hseat : seat? x l with - | k
  · exact absurd hx (seat?_eq_none.mp hseat s hs)
  · exact ⟨k, rfl⟩

omit [DecidableEq α] in
/-- In a table of distinct keys a slot has one occupant. -/
theorem occupant_unique (hl : (l.map Prod.fst).Nodup) (hx : (k, x) ∈ l) (hy : (k, y) ∈ l) :
    x = y := by
  have hsame : (k, x) = (k, y) := List.inj_on_of_nodup_map hl hx hy rfl
  exact congrArg Prod.snd hsame

/-! ### Release -/

theorem map_fst_release (free x : α) (l : List (κ × α)) :
    (release free x l).map Prod.fst = l.map Prod.fst := by
  rw [release, List.map_map]
  apply List.map_congr_left
  intro s _
  show (if s.2 = x then (s.1, free) else s).1 = s.1
  split
  · rfl
  · rfl

theorem release_free (free : α) (l : List (κ × α)) : release free free l = l := by
  rw [release]
  conv_rhs => rw [← List.map_id l]
  apply List.map_congr_left
  rintro ⟨k, a⟩ -
  dsimp only [id]
  split
  · rename_i h
    rw [h]
  · rfl

theorem mem_release {s : κ × α} (h : s ∈ release free x l) : s.2 = free ∨ s ∈ l ∧ s.2 ≠ x := by
  obtain ⟨t, ht, rfl⟩ := List.mem_map.mp h
  split
  · exact .inl rfl
  · rename_i hx
    exact .inr ⟨ht, hx⟩

theorem occupants_release (free x : α) (l : List (κ × α)) :
    occupants free (release free x l) = (occupants free l).filter (· ≠ x) := by
  induction l with
  | nil => rfl
  | cons s l ih =>
    rw [occupants, release, List.map_cons, List.map_cons, List.filter_cons, occupants, List.map_cons,
      List.filter_cons]
    rw [occupants, release, occupants] at ih
    by_cases hx : s.2 = x
    · rw [if_pos hx, if_neg (by simp), ih]
      by_cases hfree : s.2 = free
      · rw [if_neg (by simp [hfree])]
      · rw [if_pos (by simp [hfree]), List.filter_cons, if_neg (by simp [hx])]
    · rw [if_neg hx]
      by_cases hfree : s.2 = free
      · rw [if_neg (by simp [hfree]), if_neg (by simp [hfree]), ih]
      · rw [if_pos (by simp [hfree]), if_pos (by simp [hfree]), List.filter_cons,
          if_pos (by simp [hx]), ih]

theorem seat?_release_of_ne (hfree : y ≠ free) (hxy : y ≠ x) :
    seat? y (release free x l) = seat? y l := by
  induction l with
  | nil => rfl
  | cons s l ih =>
    rw [release, List.map_cons, seat?_cons, seat?_cons, ← release, ih]
    by_cases hx : s.2 = x
    · rw [if_pos hx, if_neg (Ne.symm hfree), if_neg fun h => hxy (h.symm.trans hx)]
    · rw [if_neg hx]

/-! ### Take -/

/-- Either no slot is free, or the first free one is taken. -/
theorem take_cases (free x : α) (l : List (κ × α)) :
    (seat? free l = none ∧ take free x l = l) ∨
      ∃ pre k post, l = pre ++ (k, free) :: post ∧ (∀ s ∈ pre, s.2 ≠ free) ∧
        seat? free l = some k ∧ take free x l = pre ++ (k, x) :: post := by
  induction l with
  | nil => exact .inl ⟨rfl, rfl⟩
  | cons s l ih =>
    rw [seat?_cons, take]
    by_cases h : s.2 = free
    · rw [if_pos h, if_pos h]
      exact .inr ⟨[], s.1, l, by rw [← h]; rfl, by simp, rfl, rfl⟩
    · rw [if_neg h, if_neg h]
      rcases ih with ⟨hnone, htake⟩ | ⟨pre, k, post, rfl, hpre, hseat, htake⟩
      · exact .inl ⟨hnone, by rw [htake]⟩
      · refine .inr ⟨s :: pre, k, post, rfl, ?_, hseat, by rw [htake]; rfl⟩
        intro t ht
        rcases List.mem_cons.mp ht with rfl | ht
        · exact h
        · exact hpre t ht

theorem take_of_full (h : seat? free l = none) : take free x l = l := by
  rcases take_cases free x l with ⟨-, htake⟩ | ⟨pre, k, post, -, -, hseat, -⟩
  · exact htake
  · rw [h] at hseat
    cases hseat

theorem map_fst_take (free x : α) (l : List (κ × α)) :
    (take free x l).map Prod.fst = l.map Prod.fst := by
  rcases take_cases free x l with ⟨-, htake⟩ | ⟨pre, k, post, rfl, -, -, htake⟩
  · rw [htake]
  · rw [htake, List.map_append, List.map_append]
    rfl

theorem take_free (free : α) (l : List (κ × α)) : take free free l = l := by
  rcases take_cases free free l with ⟨-, htake⟩ | ⟨pre, k, post, rfl, -, -, htake⟩
  · exact htake
  · exact htake

theorem mem_take {s : κ × α} (h : s ∈ take free x l) :
    s ∈ l ∨ s.2 = x ∧ seat? free l = some s.1 := by
  rcases take_cases free x l with ⟨-, htake⟩ | ⟨pre, k, post, hl, -, hseat, htake⟩
  · rw [htake] at h
    exact .inl h
  · rw [htake, List.mem_append, List.mem_cons] at h
    rcases h with h | rfl | h
    · exact .inl (hl ▸ List.mem_append_left _ h)
    · exact .inr ⟨rfl, hseat⟩
    · exact .inl (hl ▸ List.mem_append_right _ (List.mem_cons_of_mem _ h))

theorem occupants_append (free : α) (l l' : List (κ × α)) :
    occupants free (l ++ l') = occupants free l ++ occupants free l' := by
  rw [occupants, List.map_append, List.filter_append]
  rfl

theorem occupants_take (hx : x ≠ free) (hseat : seat? free l = some k) :
    (occupants free (take free x l)).Perm (x :: occupants free l) := by
  rcases take_cases free x l with ⟨hnone, -⟩ | ⟨pre, k, post, rfl, -, -, htake⟩
  · rw [hseat] at hnone
    cases hnone
  · rw [htake, occupants_append, occupants_append]
    have htaken : occupants free ((k, x) :: post) = x :: occupants free post := by
      rw [occupants, List.map_cons, List.filter_cons, if_pos (by simp [hx])]
      rfl
    have hfree : occupants free ((k, free) :: post) = occupants free post := by
      rw [occupants, List.map_cons, List.filter_cons, if_neg (by simp)]
      rfl
    rw [htaken, hfree]
    exact List.perm_middle

theorem seat?_append (x : α) (l l' : List (κ × α)) :
    seat? x (l ++ l') = (seat? x l).or (seat? x l') := by
  rw [seat?, List.find?_append, Option.map_or]
  rfl

theorem seat?_take_of_ne (hfree : y ≠ free) (hxy : y ≠ x) :
    seat? y (take free x l) = seat? y l := by
  rcases take_cases free x l with ⟨-, htake⟩ | ⟨pre, k, post, rfl, -, -, htake⟩
  · rw [htake]
  · rw [htake, seat?_append, seat?_append, seat?_cons, seat?_cons, if_neg (Ne.symm hxy),
      if_neg (Ne.symm hfree)]

theorem seat?_take_self (hx : ∀ s ∈ l, s.2 ≠ x) (hseat : seat? free l = some k) :
    seat? x (take free x l) = some k := by
  rcases take_cases free x l with ⟨hnone, -⟩ | ⟨pre, k', post, rfl, -, hseat', htake⟩
  · rw [hseat] at hnone
    cases hnone
  · have hpre : seat? x pre = none :=
      seat?_eq_none.mpr fun s hs => hx s (List.mem_append_left _ hs)
    rw [htake, seat?_append, hpre, Option.none_or, seat?_cons, if_pos rfl, ← hseat', hseat]

/-! ### Assign -/

theorem length_assign (free x : α) (l : List (κ × α)) : (assign free x l).length = l.length := by
  have hkeys : (assign free x l).map Prod.fst = l.map Prod.fst := by
    rw [assign, map_fst_take, map_fst_release]
  simpa using congrArg List.length hkeys

/-- Assigning "free" changes nothing. -/
theorem assign_free (free : α) (l : List (κ × α)) : assign free free l = l := by
  rw [assign, release_free, take_free]

/-- The others stay, and nobody else comes. -/
theorem mem_occupants_assign (hx : x ≠ free) :
    y ∈ occupants free (assign free x l) ↔
      y ∈ occupants free l ∧ y ≠ x ∨ y = x ∧ seat? free (release free x l) ≠ none := by
  have hreleased : y ∈ occupants free (release free x l) ↔ y ∈ occupants free l ∧ y ≠ x := by
    rw [occupants_release, List.mem_filter, decide_eq_true_eq]
  rw [assign]
  rcases hseat : seat? free (release free x l) with - | k
  · rw [take_of_full hseat, hreleased]
    simp
  · rw [(occupants_take hx hseat).mem_iff, List.mem_cons, hreleased]
    constructor
    · rintro (h | h)
      · exact .inr ⟨h, by simp⟩
      · exact .inl h
    · rintro (h | h)
      · exact .inr h
      · exact .inl h.1

theorem nodup_occupants_release (h : (occupants free l).Nodup) :
    (occupants free (release free x l)).Nodup := by
  rw [occupants_release]
  exact h.filter _

/-- Each occupant keeps to one slot. -/
theorem nodup_occupants_assign (h : (occupants free l).Nodup) :
    (occupants free (assign free x l)).Nodup := by
  by_cases hx : x = free
  · rw [hx, assign_free]
    exact h
  · rw [assign]
    have hreleased := nodup_occupants_release (x := x) h
    rcases hseat : seat? free (release free x l) with - | k
    · rw [take_of_full hseat]
      exact hreleased
    · rw [(occupants_take hx hseat).nodup_iff, List.nodup_cons]
      refine ⟨?_, hreleased⟩
      rw [occupants_release, List.mem_filter]
      simp

/-! ### Room for all -/

/-- An occupant finds a slot when it is assigned if there is a free one, or if it has one. -/
theorem exists_seat_of_room (h : seat? free l ≠ none ∨ x ∈ occupants free l) :
    seat? free (release free x l) ≠ none := by
  have hslot : ∃ s ∈ l, s.2 = free ∨ s.2 = x := by
    rcases h with h | h
    · obtain ⟨k, hk⟩ := Option.ne_none_iff_exists'.mp h
      exact ⟨(k, free), mem_of_seat? hk, .inl rfl⟩
    · obtain ⟨-, s, hs, hx⟩ := mem_occupants.mp h
      exact ⟨s, hs, .inr hx⟩
  obtain ⟨s, hs, hfree⟩ := hslot
  intro hnone
  have hmem : (if s.2 = x then (s.1, free) else s) ∈ release free x l :=
    List.mem_map_of_mem (f := fun s => if s.2 = x then (s.1, free) else s) hs
  apply seat?_eq_none.mp hnone _ hmem
  split
  · rfl
  · rename_i hx
    exact hfree.resolve_right hx

/-- A table with fewer occupants than slots has a free slot. -/
theorem exists_seat_free (h : (occupants free l).length < l.length) : seat? free l ≠ none := by
  intro hnone
  have hall : occupants free l = l.map Prod.snd := by
    rw [occupants, List.filter_eq_self]
    intro a ha
    obtain ⟨s, hs, rfl⟩ := List.mem_map.mp ha
    exact decide_eq_true (seat?_eq_none.mp hnone s hs)
  rw [hall, List.length_map] at h
  exact Nat.lt_irrefl _ h

/-- Who belongs to a set that fits into the table finds a slot when it is assigned. -/
theorem exists_seat_release {u : List α} (hnodup : (occupants free l).Nodup)
    (hsub : occupants free l ⊆ u) (hfits : u.length ≤ l.length) (hx : x ∈ u) :
    seat? free (release free x l) ≠ none := by
  apply exists_seat_free
  have hout : (occupants free (release free x l)).length < u.length := by
    have hcons : x :: occupants free (release free x l) ⊆ u := by
      intro y hy
      rcases List.mem_cons.mp hy with rfl | hy
      · exact hx
      · rw [occupants_release] at hy
        exact hsub (List.mem_filter.mp hy).1
    have hdistinct : (x :: occupants free (release free x l)).Nodup := by
      rw [List.nodup_cons]
      refine ⟨?_, nodup_occupants_release hnodup⟩
      rw [occupants_release, List.mem_filter]
      simp
    exact (hdistinct.subperm hcons).length_le
  rw [release, List.length_map]
  exact Nat.lt_of_lt_of_le hout hfits

/-- **Room for all.**  If the occupants belong to a set that fits into the table, then so do
they after members of the set were assigned one by one, and all of these have a slot. -/
theorem foldl_assign {u : List α} (hnodup : (occupants free l).Nodup)
    (hsub : occupants free l ⊆ u) (hfits : u.length ≤ l.length) {xs : List α}
    (hxs : ∀ x ∈ xs, x ≠ free → x ∈ u) :
    (∀ x ∈ xs, x ≠ free → x ∈ occupants free (xs.foldl (fun l x => assign free x l) l)) ∧
      occupants free l ⊆ occupants free (xs.foldl (fun l x => assign free x l) l) := by
  induction xs generalizing l with
  | nil => exact ⟨by simp, fun _ h => h⟩
  | cons x xs ih =>
    rw [List.foldl_cons]
    have hrest : ∀ x ∈ xs, x ≠ free → x ∈ u := fun y hy => hxs y (List.mem_cons_of_mem _ hy)
    by_cases hx : x = free
    · rw [hx, assign_free]
      obtain ⟨hall, hkept⟩ := ih hnodup hsub hfits hrest
      refine ⟨?_, hkept⟩
      intro y hy hyfree
      rcases List.mem_cons.mp hy with rfl | hy
      · exact absurd rfl hyfree
      · exact hall y hy hyfree
    · have hxu : x ∈ u := hxs x List.mem_cons_self hx
      have hseat := exists_seat_release hnodup hsub hfits hxu
      have hmem : ∀ y, y ∈ occupants free (assign free x l) ↔ y ∈ occupants free l ∨ y = x := by
        intro y
        rw [mem_occupants_assign hx]
        by_cases hyx : y = x
        · simp [hyx, hseat]
        · simp [hyx]
      obtain ⟨hall, hkept⟩ := ih (l := assign free x l) (nodup_occupants_assign hnodup)
        (fun y hy => ((hmem y).mp hy).elim (fun h => hsub h) fun h => h ▸ hxu)
        (by rw [length_assign]; exact hfits) hrest
      refine ⟨?_, fun y hy => hkept ((hmem y).mpr (.inl hy))⟩
      intro y hy hyfree
      rcases List.mem_cons.mp hy with rfl | hy
      · exact hkept ((hmem y).mpr (.inr rfl))
      · exact hall y hy hyfree

end Lib
