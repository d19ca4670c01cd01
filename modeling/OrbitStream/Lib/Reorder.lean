/-
OrbitStream/Lib/Reorder.lean

Reorder buffers.

A reorder buffer of depth `k` takes elements in any order, and lets one of least
rank out when it holds more than `k`.  An element is on time if no more than `k` of
those before it rank above it (`OnTime`).  If all are, then they leave in the order
of their ranks: `Sorted` holds at the start, and is kept by `Sorted.push` and
`Sorted.pop`.  If one is not, then something above it has left already
(`exists_of_late`).

Ranks that are known modulo some number can be compared if those are close that may
be in the buffer together (`Near`); `Sorted.above_lt` says which these are.
-/
import Mathlib.Data.List.Perm.Basic

namespace Lib.Reorder

variable {α : Type*}

/-! ### Sequences -/

/-- Each element of a sequence has a property, given those before it. -/
def Each (P : List α → α → Prop) (pushed : List α) : Prop :=
  ∀ i < pushed.length, ∀ x ∈ pushed[i]?, P (pushed.take i) x

instance (P : List α → α → Prop) [∀ l x, Decidable (P l x)] (pushed : List α) :
    Decidable (Each P pushed) :=
  inferInstanceAs (Decidable (∀ i < pushed.length, ∀ x ∈ pushed[i]?, _))

section

variable {P : List α → α → Prop} {pushed : List α} {x : α}

theorem each_concat : Each P (pushed ++ [x]) ↔ Each P pushed ∧ P pushed x := by
  refine ⟨fun h => ⟨?_, ?_⟩, fun h => ?_⟩
  · intro i hi y hy
    have hlt : i < (pushed ++ [x]).length := by
      rw [List.length_append]
      exact Nat.lt_add_right _ hi
    have hp := h i hlt y (by rwa [List.getElem?_append_left hi])
    rwa [List.take_append_of_le_length (Nat.le_of_lt hi)] at hp
  · have hp := h pushed.length (by simp) x (by simp)
    rwa [List.take_left] at hp
  · intro i hi y hy
    rw [List.length_append, List.length_singleton] at hi
    rcases Nat.lt_succ_iff_lt_or_eq.mp hi with hi | rfl
    · rw [List.getElem?_append_left hi] at hy
      rw [List.take_append_of_le_length (Nat.le_of_lt hi)]
      exact h.1 i hi y hy
    · obtain rfl : x = y := by simpa using hy
      rw [List.take_left]
      exact h.2

/-- Where a sequence stops to have the property. -/
theorem exists_of_not_each (h : ¬ Each P pushed) :
    ∃ pre x post, pushed = pre ++ x :: post ∧ ¬ P pre x := by
  rw [Each] at h
  push Not at h
  obtain ⟨i, hi, x, hx, hp⟩ := h
  refine ⟨pushed.take i, x, pushed.drop (i + 1), ?_, hp⟩
  obtain ⟨_, rfl⟩ := List.getElem?_eq_some_iff.mp hx
  rw [List.getElem_cons_drop, List.take_append_drop]

end

/-! ### Ranks -/

variable (rank : α → Nat)

/-- How many elements rank above `x`. -/
def above (pushed : List α) (x : α) : Nat := pushed.countP fun y => rank x < rank y

/-- `x` comes in time for a buffer of depth `k`. -/
def OnTime (k : Nat) (pushed : List α) (x : α) : Prop := above rank pushed x ≤ k

/-- `x` lies within `w` of each element that may still be in the buffer. -/
def Near (k w : Nat) (pushed : List α) (x : α) : Prop :=
  ∀ y ∈ pushed, above rank pushed y < k → rank x < rank y + w ∧ rank y < rank x + w

instance (k : Nat) (pushed : List α) (x : α) : Decidable (OnTime rank k pushed x) :=
  inferInstanceAs (Decidable (_ ≤ _))

instance (k w : Nat) (pushed : List α) (x : α) : Decidable (Near rank k w pushed x) :=
  inferInstanceAs (Decidable (∀ y ∈ pushed, _))

/-- The buffer after `pushed` came and `popped` left. -/
structure Sorted (k : Nat) (pushed popped buffer : List α) : Prop where
  perm : (popped ++ buffer).Perm pushed
  ordered : popped.Pairwise fun p q => rank p ≤ rank q
  le : ∀ p ∈ popped, ∀ q ∈ buffer, rank p ≤ rank q
  full : popped ≠ [] → k ≤ buffer.length

variable {rank} {k w : Nat} {pushed popped buffer buffer' : List α} {x y : α}

theorem above_perm {l l' : List α} (h : l.Perm l') (x : α) : above rank l x = above rank l' x :=
  h.countP_eq _

theorem above_append (l l' : List α) (x : α) :
    above rank (l ++ l') x = above rank l x + above rank l' x :=
  List.countP_append

/-- If an element is late, something above it has left, in whatever order it was. -/
theorem exists_of_late (hperm : (popped ++ buffer).Perm pushed) (hsize : buffer.length ≤ k)
    (hlate : ¬ OnTime rank k pushed x) : ∃ p ∈ popped, rank x < rank p := by
  have hbuffer : above rank buffer x ≤ buffer.length := List.countP_le_length
  have hpos : 0 < above rank popped x := by
    rw [OnTime, ← above_perm hperm, above_append] at hlate
    omega
  obtain ⟨p, hp, hlt⟩ := List.countP_pos_iff.mp hpos
  exact ⟨p, hp, of_decide_eq_true hlt⟩

namespace Sorted

theorem nil : Sorted rank k ([] : List α) [] [] :=
  ⟨List.Perm.refl _, List.Pairwise.nil, fun _ hp => absurd hp List.not_mem_nil,
    fun h => absurd rfl h⟩

/-- What left does not rank above an element that is on time: else the whole buffer
would, too. -/
theorem le_of_onTime (h : Sorted rank k pushed popped buffer) (hx : OnTime rank k pushed x) :
    ∀ p ∈ popped, rank p ≤ rank x := by
  intro p hp
  by_contra hlt
  have hlt : rank x < rank p := Nat.lt_of_not_le hlt
  have hbuffer : above rank buffer x = buffer.length := by
    apply List.countP_eq_length.mpr
    intro q hq
    exact decide_eq_true (Nat.lt_of_lt_of_le hlt (h.le p hp q hq))
  have hpopped : 0 < above rank popped x :=
    List.countP_pos_iff.mpr ⟨p, hp, decide_eq_true hlt⟩
  have hfull := h.full (List.ne_nil_of_mem hp)
  rw [OnTime, ← above_perm h.perm, above_append, hbuffer] at hx
  omega

theorem push (h : Sorted rank k pushed popped buffer) (hx : OnTime rank k pushed x)
    (hbuffer : buffer'.Perm (x :: buffer)) : Sorted rank k (pushed ++ [x]) popped buffer' := by
  refine ⟨?_, h.ordered, ?_, ?_⟩
  · have hmiddle : (popped ++ x :: buffer).Perm (x :: (popped ++ buffer)) := List.perm_middle
    refine (hbuffer.append_left popped).trans (hmiddle.trans ?_)
    exact (h.perm.cons x).trans (List.perm_append_singleton x pushed).symm
  · intro p hp q hq
    rcases List.mem_cons.mp (hbuffer.mem_iff.mp hq) with rfl | hq
    · exact h.le_of_onTime hx p hp
    · exact h.le p hp q hq
  · intro hne
    rw [hbuffer.length_eq, List.length_cons]
    exact Nat.le_succ_of_le (h.full hne)

theorem pop (h : Sorted rank k pushed popped buffer) (hperm : (x :: buffer').Perm buffer)
    (hleast : ∀ q ∈ buffer, rank x ≤ rank q) (hk : k ≤ buffer'.length) :
    Sorted rank k pushed (popped ++ [x]) buffer' := by
  have hx : x ∈ buffer := hperm.mem_iff.mp List.mem_cons_self
  refine ⟨?_, ?_, ?_, fun _ => hk⟩
  · rw [List.append_assoc]
    exact (hperm.append_left popped).trans h.perm
  · rw [List.pairwise_append]
    refine ⟨h.ordered, List.pairwise_singleton _ _, ?_⟩
    intro p hp q hq
    rw [List.mem_singleton.mp hq]
    exact h.le p hp x hx
  · intro p hp q hq
    have hq' : q ∈ buffer := hperm.mem_iff.mp (List.mem_cons_of_mem x hq)
    rcases List.mem_append.mp hp with hp | hp
    · exact h.le p hp q hq'
    · rw [List.mem_singleton.mp hp]
      exact hleast q hq'

/-- The buffer may be made less deep at any time. -/
theorem mono {k' : Nat} (h : Sorted rank k pushed popped buffer) (hk : k' ≤ k) :
    Sorted rank k' pushed popped buffer :=
  { h with full := fun hne => Nat.le_trans hk (h.full hne) }

/-- Of all that came, fewer rank above an element of the buffer than are there. -/
theorem above_lt (h : Sorted rank k pushed popped buffer) (hy : y ∈ buffer) :
    above rank pushed y < buffer.length := by
  have hpopped : above rank popped y = 0 := by
    apply List.countP_eq_zero.mpr
    intro p hp
    simpa using h.le p hp y hy
  have hbuffer : above rank buffer y < buffer.length := by
    apply Nat.lt_of_le_of_ne List.countP_le_length
    intro heq
    have hself := List.countP_eq_length.mp heq y hy
    simp at hself
  rw [← above_perm h.perm, above_append, hpopped, Nat.zero_add]
  exact hbuffer

end Sorted

end Lib.Reorder
