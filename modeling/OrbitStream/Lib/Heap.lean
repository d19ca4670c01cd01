/-
OrbitStream/Lib/Heap.lean

The binary heap behind `std::priority_queue`, on lists: `push` and `pop` move a hole
along a path of the heap the way `push_heap` and `pop_heap` of the C++ library do,
with a comparison `lt`.

No element is lost, whatever the comparison is (`push_perm`, `pop_perm`).  It need only
be a strict weak order on the elements that are in the heap (`WeakOn`): then the heap
order is kept (`push_isHeap`, `pop_spec`), and nothing is above the top
(`IsHeap.not_lt_top`).
-/
import Mathlib.Order.RelClasses
import Mathlib.Data.List.Basic

namespace Lib.Heap

variable {α : Type*} (lt : α → α → Bool)

/-- The parent of a place in the heap. -/
def parent (i : Nat) : Nat := (i - 1) / 2

theorem parent_lt {i : Nat} (h : 0 < i) : parent i < i := by
  rw [parent]
  omega

/-- `__push_heap`: move a hole up until `value` fits into it. -/
def siftUp (l : List α) (hole : Nat) (value : α) : List α :=
  if 0 < hole ∧ lt (l.getD (parent hole) value) value then
    siftUp (l.set hole (l.getD (parent hole) value)) (parent hole) value
  else l.set hole value
termination_by hole
decreasing_by exact parent_lt (by omega)

/-- The loop of `__adjust_heap`: move a hole down to a leaf, filling it from the larger
child each time.  A last child without a sibling is handled behind the loop. -/
def sink (l : List α) (hole : Nat) (value : α) : List α × Nat :=
  if hole < (l.length - 1) / 2 then
    if lt (l.getD (2 * hole + 2) value) (l.getD (2 * hole + 1) value) then
      sink (l.set hole (l.getD (2 * hole + 1) value)) (2 * hole + 1) value
    else sink (l.set hole (l.getD (2 * hole + 2) value)) (2 * hole + 2) value
  else if l.length % 2 = 0 ∧ hole = (l.length - 2) / 2 then
    (l.set hole (l.getD (2 * hole + 1) value), 2 * hole + 1)
  else (l, hole)
termination_by l.length - hole
decreasing_by
  · rw [List.length_set]
    omega
  · rw [List.length_set]
    omega

/-- `push`: the new element starts at the end. -/
def push (l : List α) (value : α) : List α := siftUp lt (l ++ [value]) l.length value

/-- `pop`: the last element takes the place of the first one. -/
def pop (l : List α) : List α :=
  match l.getLast? with
  | none => []
  | some value =>
    if l.dropLast = [] then []
    else siftUp lt (sink lt l.dropLast 0 value).1 (sink lt l.dropLast 0 value).2 value

/-- `top`. -/
def top (l : List α) : Option α := l.head?

/-! ### Order -/

/-- `lt` is a strict weak order on the elements of `S`. -/
structure WeakOn (S : α → Prop) : Prop where
  asymm : ∀ {a b : α}, S a → S b → lt a b = true → lt b a = false
  trans : ∀ {a b c : α}, S a → S b → S c → lt a b = false → lt b c = false → lt a c = false

/-- The order of a subtype, in the form that the proofs here use. -/
theorem weakOn_iff {S : α → Prop} :
    WeakOn lt S ↔ IsStrictWeakOrder {a // S a} (fun a b => lt a b = true) := by
  constructor
  · intro h
    refine { irrefl := ?_, trans := ?_, incomp_trans := ?_ }
    · rintro ⟨a, ha⟩ haa
      have hno := h.asymm ha ha haa
      rw [hno] at haa
      cases haa
    · rintro ⟨a, ha⟩ ⟨b, hb⟩ ⟨c, hc⟩ hab hbc
      rcases hac : lt a c with - | -
      · have hcb := h.asymm hb hc hbc
        have hno := h.trans ha hc hb hac hcb
        exact absurd hab (by simp [hno])
      · rfl
    · rintro ⟨a, ha⟩ ⟨b, hb⟩ ⟨c, hc⟩ ⟨hab, hba⟩ ⟨hbc, hcb⟩
      simp only [Bool.not_eq_true] at hab hba hbc hcb ⊢
      exact ⟨h.trans ha hb hc hab hbc, h.trans hc hb ha hcb hba⟩
  · intro h
    have hasymm : ∀ {a b : α}, S a → S b → lt a b = true → lt b a = false := by
      intro a b ha hb hab
      rcases hba : lt b a with - | -
      · rfl
      · exact absurd (h.trans ⟨a, ha⟩ ⟨b, hb⟩ ⟨a, ha⟩ hab hba) (h.irrefl ⟨a, ha⟩)
    refine ⟨hasymm, ?_⟩
    intro a b c ha hb hc hab hbc
    rcases hac : lt a c with - | -
    · rfl
    · -- `a` is below `c`, so neither is `b` below `a` nor `c` below `b`
      rcases hba : lt b a with - | -
      · rcases hcb : lt c b with - | -
        · have hinc := h.incomp_trans ⟨a, ha⟩ ⟨b, hb⟩ ⟨c, hc⟩ (by simp [hab, hba])
            (by simp [hbc, hcb])
          exact absurd hac hinc.1
        · have hab' := h.trans ⟨a, ha⟩ ⟨c, hc⟩ ⟨b, hb⟩ hac hcb
          exact absurd hab' (by simp [hab])
      · have hbc' := h.trans ⟨b, hb⟩ ⟨a, ha⟩ ⟨c, hc⟩ hba hac
        exact absurd hbc' (by simp [hbc])

variable {lt}

/-- The element at `i` is not below the one at `j`. -/
def Above (lt : α → α → Bool) (l : List α) (i j : Nat) : Prop :=
  ∀ a b, l[i]? = some a → l[j]? = some b → lt a b = false

/-- No element is above its parent. -/
def IsHeap (lt : α → α → Bool) (l : List α) : Prop := ∀ j, 0 < j → Above lt l (parent j) j

/-- The heap order, but for the element at `hole`: its children are below its
parent. -/
structure HeapBut (lt : α → α → Bool) (l : List α) (hole : Nat) : Prop where
  away : ∀ j, 0 < j → j ≠ hole → parent j ≠ hole → Above lt l (parent j) j
  around : ∀ j, 0 < j → parent j = hole → 0 < hole → Above lt l (parent hole) j

/-- Nothing in a heap is above its top. -/
theorem IsHeap.not_lt_top {S : α → Prop} {l : List α} {t x : α} (h : IsHeap lt l)
    (hS : ∀ a ∈ l, S a) (ho : WeakOn lt S) (ht : top l = some t) (hx : x ∈ l) :
    lt t x = false := by
  have ht0 : l[0]? = some t := by
    rw [← List.head?_eq_getElem?]
    exact ht
  have hall : ∀ (j : Nat) (a : α), l[j]? = some a → lt t a = false := by
    intro j
    -- along the path from the element to the top
    induction j using Nat.strongRecOn with
    | ind j ih =>
      intro a ha
      rcases Nat.eq_zero_or_pos j with rfl | hj
      · rw [ht0] at ha
        cases ha
        rcases htt : lt t t with - | -
        · rfl
        · have hmem := hS t (List.mem_of_getElem? ht0)
          have hno := ho.asymm hmem hmem htt
          rw [hno] at htt
          cases htt
      · have hlt : j < l.length := (List.getElem?_eq_some_iff.mp ha).1
        have hp : parent j < l.length := Nat.lt_trans (parent_lt hj) hlt
        have hpar := List.getElem?_eq_getElem hp
        exact ho.trans (hS t (List.mem_of_getElem? ht0)) (hS _ (List.mem_of_getElem? hpar))
          (hS a (List.mem_of_getElem? ha)) (ih _ (parent_lt hj) _ hpar) (h j hj _ _ hpar ha)
  obtain ⟨j, hj⟩ := List.mem_iff_getElem?.mp hx
  exact hall j x hj

/-! ### Pushing -/

section

variable {l : List α} {i j hole : Nat} {x : α}

theorem Above.set (h : Above lt l i j) (hi : i ≠ hole) (hj : j ≠ hole) :
    Above lt (l.set hole x) i j := by
  intro a b ha hb
  rw [List.getElem?_set_ne hi.symm] at ha
  rw [List.getElem?_set_ne hj.symm] at hb
  exact h a b ha hb

theorem above_set_left (h : ∀ b, l[j]? = some b → lt x b = false) (hj : j ≠ hole) :
    Above lt (l.set hole x) hole j := by
  intro a b ha hb
  rw [List.getElem?_set_ne hj.symm] at hb
  obtain ⟨hlt, rfl⟩ := List.getElem?_eq_some_iff.mp ha
  rw [List.getElem_set_self]
  exact h b hb

theorem above_set_right (h : ∀ a, l[i]? = some a → lt a x = false) (hi : i ≠ hole) :
    Above lt (l.set hole x) i hole := by
  intro a b ha hb
  rw [List.getElem?_set_ne hi.symm] at ha
  obtain ⟨hlt, rfl⟩ := List.getElem?_eq_some_iff.mp hb
  rw [List.getElem_set_self]
  exact h a ha

theorem IsHeap.heapBut (h : IsHeap lt l) : HeapBut lt l 0 where
  away j hj _ _ := h j hj
  around _ _ _ h0 := absurd h0 (Nat.lt_irrefl 0)

/-- A value that is not above its parent nor below its children fills the hole. -/
theorem HeapBut.fill (h : HeapBut lt l hole)
    (hup : 0 < hole → ∀ a, l[parent hole]? = some a → lt a x = false)
    (hdown : ∀ j b, 0 < j → parent j = hole → l[j]? = some b → lt x b = false) :
    IsHeap lt (l.set hole x) := by
  intro j hj
  by_cases hjh : j = hole
  · subst hjh
    exact above_set_right (hup hj) (Nat.ne_of_lt (parent_lt hj))
  by_cases hpar : parent j = hole
  · rw [hpar]
    exact above_set_left (fun b => hdown j b hj hpar) hjh
  · exact (h.away j hj hjh hpar).set hpar hjh

end

section

variable {S : α → Prop} (ho : WeakOn lt S) {l : List α} (hS : ∀ a ∈ l, S a) {hole : Nat}
  {a value : α}

include ho hS

/-- The parent moves into the hole, and the hole to the parent. -/
theorem HeapBut.up (h : HeapBut lt l hole) (hpos : 0 < hole) (ha : l[parent hole]? = some a) :
    HeapBut lt (l.set hole a) (parent hole) := by
  have hne : parent hole ≠ hole := Nat.ne_of_lt (parent_lt hpos)
  refine ⟨?_, ?_⟩
  · intro j hj hjp hpp
    have hjh : j ≠ hole := by
      rintro rfl
      exact hpp rfl
    by_cases hpar : parent j = hole
    · rw [hpar]
      exact above_set_left (fun b => h.around j hj hpar hpos a b ha) hjh
    · exact (h.away j hj hjh hpar).set hpar hjh
  · intro j hj hpar hp0
    have hpp : parent (parent hole) < parent hole := parent_lt hp0
    have hpph : parent (parent hole) ≠ hole := by
      have hlt := parent_lt hpos
      omega
    have hgrand : ∀ g, l[parent (parent hole)]? = some g → lt g a = false :=
      fun g hg => h.away (parent hole) hp0 hne hpph g a hg ha
    by_cases hjh : j = hole
    · subst hjh
      exact above_set_right hgrand hpph
    · apply Above.set ?_ hpph hjh
      -- a sibling of the hole: below the parent, and so below the grandparent
      intro g b hg hb
      have hsib := h.away j hj hjh (by rw [hpar]; exact hne) a b (by rw [hpar]; exact ha) hb
      exact ho.trans (hS g (List.mem_of_getElem? hg)) (hS a (List.mem_of_getElem? ha))
        (hS b (List.mem_of_getElem? hb)) (hgrand g hg) hsib

/-- A value above the parent of the hole is above the children of the new hole. -/
theorem HeapBut.up_children (h : HeapBut lt l hole) (hpos : 0 < hole)
    (ha : l[parent hole]? = some a) (hv : S value) (hlt : lt a value = true) {j : Nat} {b : α}
    (hj : 0 < j) (hpar : parent j = parent hole) (hb : (l.set hole a)[j]? = some b) :
    lt value b = false := by
  have hne : parent hole ≠ hole := Nat.ne_of_lt (parent_lt hpos)
  have hSa := hS a (List.mem_of_getElem? ha)
  have hva := ho.asymm hSa hv hlt
  by_cases hjh : j = hole
  · subst hjh
    obtain ⟨hlen, rfl⟩ := List.getElem?_eq_some_iff.mp hb
    rw [List.getElem_set_self]
    exact hva
  · rw [List.getElem?_set_ne (Ne.symm hjh)] at hb
    have hab := h.away j hj hjh (by rw [hpar]; exact hne) a b (by rw [hpar]; exact ha) hb
    exact ho.trans hv hSa (hS b (List.mem_of_getElem? hb)) hva hab

end

theorem getD_eq {l : List α} {i : Nat} (value : α) (h : i < l.length) :
    l[i]? = some (l.getD i value) := by
  rw [List.getD_eq_getElem?_getD, List.getElem?_eq_getElem h]
  rfl

/-- Moving the hole from `i` to `j` keeps the elements. -/
theorem set_set_perm_set {l : List α} {i j : Nat} {value : α} (hij : i ≠ j) (hi : i < l.length)
    (hj : j < l.length) :
    ((l.set i (l.getD j value)).set j value).Perm (l.set i value) := by
  have hi' : i < (l.set i value).length := by rwa [List.length_set]
  have hj' : j < (l.set i value).length := by rwa [List.length_set]
  have hperm := List.set_set_perm hi' hj'
  rw [List.getElem_set_self, List.getElem_set_ne hij, List.set_set] at hperm
  rw [List.getD_eq_getElem?_getD, List.getElem?_eq_getElem hj]
  exact hperm

theorem siftUp_isHeap {S : α → Prop} (ho : WeakOn lt S) {l : List α} {hole : Nat} {value : α}
    (hS : ∀ a ∈ l, S a) (hv : S value) (hlen : hole < l.length) (hb : HeapBut lt l hole)
    (hdown : ∀ j b, 0 < j → parent j = hole → l[j]? = some b → lt value b = false) :
    IsHeap lt (siftUp lt l hole value) := by
  fun_induction siftUp lt l hole value with
  | case1 l hole h ih =>
    have hp : parent hole < l.length := Nat.lt_trans (parent_lt h.1) hlen
    -- the parent moves down into the hole
    have ha := getD_eq value hp
    apply ih
    · intro a ha'
      rcases List.mem_or_eq_of_mem_set ha' with hmem | rfl
      · exact hS a hmem
      · exact hS _ (List.mem_of_getElem? ha)
    · rw [List.length_set]
      exact hp
    · exact hb.up ho hS h.1 ha
    · intro j b hj hpar hb'
      exact hb.up_children ho hS h.1 ha hv h.2 hj hpar hb'
  | case2 l hole h =>
    -- the value stops below a parent that is not behind it
    apply hb.fill ?_ hdown
    intro hpos a ha
    have hp : parent hole < l.length := Nat.lt_trans (parent_lt hpos) hlen
    rw [getD_eq value hp] at ha
    obtain rfl := Option.some.inj ha
    simpa [hpos] using h

theorem siftUp_perm {l : List α} {hole : Nat} {value : α} (hlen : hole < l.length) :
    (siftUp lt l hole value).Perm (l.set hole value) := by
  fun_induction siftUp lt l hole value with
  | case1 l hole h ih =>
    have hlt := parent_lt h.1
    have hp : parent hole < l.length := Nat.lt_trans hlt hlen
    refine (ih ?_).trans (set_set_perm_set (Nat.ne_of_gt hlt) hlen hp)
    rw [List.length_set]
    exact hp
  | case2 l hole h => exact List.Perm.refl _

theorem push_perm (l : List α) (value : α) : (push lt l value).Perm (value :: l) := by
  have hset : (l ++ [value]).set l.length value = l ++ [value] := by simp
  have hperm : (push lt l value).Perm ((l ++ [value]).set l.length value) :=
    siftUp_perm (by simp)
  rw [hset] at hperm
  exact hperm.trans (List.perm_append_singleton value l)

theorem push_isHeap {S : α → Prop} (ho : WeakOn lt S) {l : List α} {value : α}
    (hS : ∀ a ∈ l, S a) (hv : S value) (h : IsHeap lt l) : IsHeap lt (push lt l value) := by
  have hend : ∀ j b, (l ++ [value])[j]? = some b → j ≤ l.length := by
    intro j b hj
    have hlt := (List.getElem?_eq_some_iff.mp hj).1
    simp only [List.length_append, List.length_singleton] at hlt
    omega
  apply siftUp_isHeap ho
  · intro a ha
    rcases List.mem_append.mp ha with ha | ha
    · exact hS a ha
    · rw [List.mem_singleton.mp ha]
      exact hv
  · exact hv
  · simp
  · -- the new leaf has no children, so the list is a heap but for the leaf
    refine ⟨?_, ?_⟩
    · intro j hj hne hpar a b ha hb
      have hjl : j < l.length := by
        have hle := hend j b hb
        omega
      have hpl : parent j < l.length := Nat.lt_trans (parent_lt hj) hjl
      rw [List.getElem?_append_left hjl] at hb
      rw [List.getElem?_append_left hpl] at ha
      exact h j hj a b ha hb
    · intro j hj hpar hpos a b ha hb
      have hle := hend j b hb
      have hlt := parent_lt hj
      omega
  · intro j b hj hpar hb
    have hle := hend j b hb
    have hlt := parent_lt hj
    omega

/-! ### Popping -/

/-- A child that is not below its sibling moves into the hole, and the hole to the
child. -/
theorem HeapBut.down {l : List α} {hole c : Nat} {a : α} (h : HeapBut lt l hole) (hc : 0 < c)
    (hpar : parent c = hole) (ha : l[c]? = some a)
    (hsib : ∀ j b, 0 < j → parent j = hole → j ≠ c → l[j]? = some b → lt a b = false) :
    HeapBut lt (l.set hole a) c := by
  have hlt := parent_lt hc
  refine ⟨?_, ?_⟩
  · intro j hj hjc hpc
    by_cases hjh : j = hole
    · subst hjh
      exact above_set_right (fun g hg => h.around c hc hpar hj g a hg ha)
        (Nat.ne_of_lt (parent_lt hj))
    by_cases hjp : parent j = hole
    · rw [hjp]
      exact above_set_left (fun b => hsib j b hj hjp hjc) hjh
    · exact (h.away j hj hjh hjp).set hjp hjh
  · intro j hj hjc hc0
    have hltj := parent_lt hj
    rw [hpar]
    apply above_set_left ?_ (by omega)
    intro b hb
    exact h.away j hj (by omega) (by omega) a b (by rw [hjc]; exact ha) hb

theorem parent_eq_iff {j i : Nat} (hj : 0 < j) : parent j = i ↔ j = 2 * i + 1 ∨ j = 2 * i + 2 := by
  rw [parent]
  omega

/-- What `sink` makes of a heap with a hole: the hole is at a leaf. -/
structure Sunk (lt : α → α → Bool) (S : α → Prop) (value : α) (l : List α) (hole : Nat)
    (r : List α × Nat) : Prop where
  heapBut : HeapBut lt r.1 r.2
  lt_length : r.2 < r.1.length
  leaf : r.1.length ≤ 2 * r.2 + 1
  perm : (r.1.set r.2 value).Perm (l.set hole value)
  mem : ∀ a ∈ r.1, S a

section

variable {S : α → Prop} {l : List α} {hole c : Nat} {value : α}

theorem Sunk.of_child {r : List α × Nat}
    (h : Sunk lt S value (l.set hole (l.getD c value)) c r) (hlt : hole < c) (hc : c < l.length) :
    Sunk lt S value l hole r :=
  { h with perm := h.perm.trans (set_set_perm_set (Nat.ne_of_lt hlt) (Nat.lt_trans hlt hc) hc) }

theorem mem_set_getD (hS : ∀ a ∈ l, S a) (hc : c < l.length) :
    ∀ a ∈ l.set hole (l.getD c value), S a := by
  intro a ha
  rcases List.mem_or_eq_of_mem_set ha with hmem | rfl
  · exact hS a hmem
  · exact hS _ (List.mem_of_getElem? (getD_eq _ hc))

/-- The hole moves to the child `c` when that is not below the other child. -/
theorem HeapBut.down_getD (hb : HeapBut lt l hole) (hc : c < l.length)
    (hchild : c = 2 * hole + 1 ∨ c = 2 * hole + 2)
    (hsib : ∀ j, (j = 2 * hole + 1 ∨ j = 2 * hole + 2) → j ≠ c → j < l.length →
      lt (l.getD c value) (l.getD j value) = false) :
    HeapBut lt (l.set hole (l.getD c value)) c := by
  have hpos : 0 < c := by omega
  apply hb.down hpos ((parent_eq_iff hpos).mpr hchild) (getD_eq _ hc)
  intro j b hj hpar hne hjb
  have hjl := (List.getElem?_eq_some_iff.mp hjb).1
  rw [getD_eq value hjl] at hjb
  rw [← Option.some.inj hjb]
  exact hsib j ((parent_eq_iff hj).mp hpar) hne hjl

theorem sink_sunk (ho : WeakOn lt S) (hS : ∀ a ∈ l, S a) (hlen : hole < l.length)
    (hb : HeapBut lt l hole) : Sunk lt S value l hole (sink lt l hole value) := by
  fun_induction sink lt l hole value with
  | case1 l hole hlt hcmp ih =>
    have hc : 2 * hole + 1 < l.length := by omega
    have hc' : 2 * hole + 2 < l.length := by omega
    refine Sunk.of_child (ih ?_ ?_ ?_) (by omega) hc
    · exact mem_set_getD hS hc
    · rw [List.length_set]
      exact hc
    · apply hb.down_getD hc (Or.inl rfl)
      intro j hj hne _
      obtain rfl : j = 2 * hole + 2 := by omega
      exact ho.asymm (hS _ (List.mem_of_getElem? (getD_eq _ hc')))
        (hS _ (List.mem_of_getElem? (getD_eq _ hc))) hcmp
  | case2 l hole hlt hcmp ih =>
    have hc : 2 * hole + 2 < l.length := by omega
    refine Sunk.of_child (ih ?_ ?_ ?_) (by omega) hc
    · exact mem_set_getD hS hc
    · rw [List.length_set]
      exact hc
    · apply hb.down_getD hc (Or.inr rfl)
      intro j hj hne _
      obtain rfl : j = 2 * hole + 1 := by omega
      simpa using hcmp
  | case3 l hole hlt hlast =>
    have hc : 2 * hole + 1 < l.length := by omega
    refine Sunk.of_child (c := 2 * hole + 1) ?_ (by omega) hc
    refine ⟨?_, ?_, ?_, List.Perm.refl _, mem_set_getD hS hc⟩
    · -- the last place of the heap has no sibling
      apply hb.down_getD hc (Or.inl rfl)
      intro j hj hne hjl
      omega
    · rw [List.length_set]
      exact hc
    · show (l.set hole _).length ≤ 2 * (2 * hole + 1) + 1
      rw [List.length_set]
      omega
  | case4 l hole hlt hlast =>
    refine ⟨hb, hlen, ?_, List.Perm.refl _, hS⟩
    show l.length ≤ 2 * hole + 1
    omega

end

section

variable {S : α → Prop} (ho : WeakOn lt S) {l : List α} (hS : ∀ a ∈ l, S a) (h : IsHeap lt l)

include ho hS h

/-- `pop` keeps the heap order, and takes the top out. -/
theorem pop_spec : IsHeap lt (pop lt l) ∧ (pop lt l).Perm l.tail := by
  rcases hlast : l.getLast? with - | value
  · have hnil := List.getLast?_eq_none_iff.mp hlast
    subst hnil
    refine ⟨?_, List.Perm.refl _⟩
    intro j _ a b ha
    simp [pop] at ha
  · obtain ⟨pre, rfl⟩ := List.getLast?_eq_some_iff.mp hlast
    have hdrop : (pre ++ [value]).dropLast = pre := by simp
    rcases pre with - | ⟨t, pre⟩
    · refine ⟨?_, List.Perm.refl _⟩
      intro j _ a b ha
      simp [pop] at ha
    · have hpop : pop lt (t :: pre ++ [value]) =
          siftUp lt (sink lt (t :: pre) 0 value).1 (sink lt (t :: pre) 0 value).2 value := by
        simp only [pop, hlast, hdrop]
        rw [if_neg (by simp)]
      have hpre : IsHeap lt (t :: pre) := by
        intro j hj a b ha hb
        have hjl := (List.getElem?_eq_some_iff.mp hb).1
        have hpl := Nat.lt_trans (parent_lt hj) hjl
        exact h j hj a b (by rwa [List.getElem?_append_left hpl])
          (by rwa [List.getElem?_append_left hjl])
      have hsunk : Sunk lt S value (t :: pre) 0 (sink lt (t :: pre) 0 value) :=
        sink_sunk ho (fun a ha => hS a (List.mem_append_left _ ha)) (by simp) hpre.heapBut
      rw [hpop]
      refine ⟨?_, ?_⟩
      · apply siftUp_isHeap ho hsunk.mem (hS value (by simp)) hsunk.lt_length hsunk.heapBut
        intro j b hj hpar hb
        -- the hole is at a leaf: it has no child
        have hjl := (List.getElem?_eq_some_iff.mp hb).1
        have hleaf := hsunk.leaf
        rcases (parent_eq_iff hj).mp hpar with hj' | hj'
        · omega
        · omega
      · refine (siftUp_perm hsunk.lt_length).trans (hsunk.perm.trans ?_)
        show (value :: pre).Perm (pre ++ [value])
        exact (List.perm_append_singleton value pre).symm

end

/-- `sink` keeps the elements, whatever the comparison is. -/
theorem sink_perm {l : List α} {hole : Nat} {value : α} (hlen : hole < l.length) :
    (sink lt l hole value).2 < (sink lt l hole value).1.length ∧
      ((sink lt l hole value).1.set (sink lt l hole value).2 value).Perm (l.set hole value) := by
  fun_induction sink lt l hole value with
  | case1 l hole hlt hcmp ih =>
    have hc : 2 * hole + 1 < l.length := by omega
    obtain ⟨hlast, hperm⟩ := ih (by rwa [List.length_set])
    exact ⟨hlast, hperm.trans (set_set_perm_set (by omega) hlen hc)⟩
  | case2 l hole hlt hcmp ih =>
    have hc : 2 * hole + 2 < l.length := by omega
    obtain ⟨hlast, hperm⟩ := ih (by rwa [List.length_set])
    exact ⟨hlast, hperm.trans (set_set_perm_set (by omega) hlen hc)⟩
  | case3 l hole hlt hlast =>
    have hc : 2 * hole + 1 < l.length := by omega
    exact ⟨by rwa [List.length_set], set_set_perm_set (by omega) hlen hc⟩
  | case4 l hole hlt hlast => exact ⟨hlen, List.Perm.refl _⟩

/-- `pop` takes out the top and nothing else, whatever the comparison is. -/
theorem pop_perm (l : List α) : (pop lt l).Perm l.tail := by
  rcases hlast : l.getLast? with - | value
  · have hnil := List.getLast?_eq_none_iff.mp hlast
    subst hnil
    exact List.Perm.refl _
  · obtain ⟨pre, rfl⟩ := List.getLast?_eq_some_iff.mp hlast
    have hdrop : (pre ++ [value]).dropLast = pre := by simp
    rcases pre with - | ⟨t, pre⟩
    · exact List.Perm.refl _
    · have hpop : pop lt (t :: pre ++ [value]) =
          siftUp lt (sink lt (t :: pre) 0 value).1 (sink lt (t :: pre) 0 value).2 value := by
        simp only [pop, hlast, hdrop]
        rw [if_neg (by simp)]
      obtain ⟨hlen, hperm⟩ := @sink_perm _ lt (t :: pre) 0 value (Nat.succ_pos _)
      rw [hpop]
      refine (siftUp_perm hlen).trans (hperm.trans ?_)
      show (value :: pre).Perm (pre ++ [value])
      exact (List.perm_append_singleton value pre).symm

theorem isHeap_nil : IsHeap lt ([] : List α) := by
  intro j _ a b ha
  simp at ha

/-- Elements pushed in any order. -/
theorem foldl_push {S : α → Prop} (ho : WeakOn lt S) (as : List α) {l : List α}
    (hS : ∀ a ∈ l, S a) (has : ∀ a ∈ as, S a) (h : IsHeap lt l) :
    IsHeap lt (as.foldl (push lt) l) ∧ (as.foldl (push lt) l).Perm (as ++ l) := by
  induction as generalizing l with
  | nil => exact ⟨h, List.Perm.refl _⟩
  | cons a as ih =>
    have ha := has a List.mem_cons_self
    have hmem : ∀ b ∈ push lt l a, S b := by
      intro b hb
      rcases List.mem_cons.mp ((push_perm l a).mem_iff.mp hb) with rfl | hb
      · exact ha
      · exact hS b hb
    obtain ⟨hheap, hperm⟩ := ih hmem (fun b hb => has b (List.mem_cons_of_mem a hb))
      (push_isHeap ho hS ha h)
    refine ⟨hheap, hperm.trans ?_⟩
    exact ((push_perm l a).append_left as).trans List.perm_middle

end Lib.Heap
