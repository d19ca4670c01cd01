/-
OrbitStream/Lib/Run.lean

Rules for loops that may fail.

A loop body `f : σ → α → Except ε σ` is iterated over a list by `List.foldlM`.
The rules say that a loop whose body succeeds under an invariant, and restores
it, succeeds as a whole.  The invariant may speak about the elements still to be
visited (`foldlM_rule`); the common case in which it does not is `foldlM_ok`.
`Outcome` describes a computation that may fail, for loops that need not go
through, `AllSteps` a run of which every step meets a condition, and
`Throughout` such a run that cannot fail.

The last section is about a flag that one event sets, another clears and all
others leave alone: when the events raised are exactly the edges of a condition,
the flag follows the condition.
-/
import Mathlib.Data.List.Basic

namespace Lib

universe u

variable {σ α ε : Type*} {f : σ → α → Except ε σ}

/-- The loop rule: the invariant is indexed by what is left to visit. -/
theorem foldlM_rule {P : List α → σ → Prop}
    (h : ∀ a l s, P (a :: l) s → ∃ s', f s a = .ok s' ∧ P l s') :
    ∀ (l : List α) (s : σ), P l s → ∃ s', l.foldlM f s = .ok s' ∧ P [] s' := by
  intro l
  induction l with
  | nil => exact fun s hs => ⟨s, rfl, hs⟩
  | cons a l ih =>
      intro s hs
      obtain ⟨s₁, h₁, hP₁⟩ := h a l s hs
      obtain ⟨s₂, h₂, hP₂⟩ := ih s₁ hP₁
      refine ⟨s₂, ?_, hP₂⟩
      rw [List.foldlM_cons, h₁]
      exact h₂

/-- An invariant that every visited element restores. -/
theorem foldlM_ok {P : σ → Prop} {l : List α}
    (h : ∀ s, P s → ∀ a ∈ l, ∃ s', f s a = .ok s' ∧ P s') {s : σ} (hs : P s) :
    ∃ s', l.foldlM f s = .ok s' ∧ P s' := by
  have hrule := foldlM_rule (f := f) (P := fun r s => (∀ a ∈ r, a ∈ l) ∧ P s) ?_ l s
    ⟨fun _ h => h, hs⟩
  · obtain ⟨s', he, -, hP⟩ := hrule
    exact ⟨s', he, hP⟩
  · rintro a r s ⟨hr, hP⟩
    obtain ⟨s', he, hP'⟩ := h s hP a (hr a List.mem_cons_self)
    exact ⟨s', he, fun b hb => hr b (List.mem_cons_of_mem _ hb), hP'⟩

/-- A loop whose body succeeds everywhere succeeds. -/
theorem exists_mapM_ok {g : α → Except ε α} {l : List α} (h : ∀ a ∈ l, ∃ b, g a = .ok b) :
    ∃ l', l.mapM g = .ok l' := by
  induction l with
  | nil => exact ⟨[], rfl⟩
  | cons a l ih =>
      obtain ⟨b, hb⟩ := h a List.mem_cons_self
      obtain ⟨l', hl'⟩ := ih fun x hx => h x (List.mem_cons_of_mem _ hx)
      refine ⟨b :: l', ?_⟩
      rw [List.mapM_cons, hb, hl']
      rfl

/-- The result of a loop that changes each element on its own. -/
theorem mapM_eq_map {g : α → Except ε α} {l l' : List α} (h : l.mapM g = .ok l') :
    l' = l.map fun a => (g a).toOption.getD a := by
  induction l generalizing l' with
  | nil => exact (Except.ok.inj h).symm
  | cons a l ih =>
      rw [List.mapM_cons] at h
      rcases ha : g a with e | b
      · rw [ha] at h
        cases h
      · rcases hl : l.mapM g with e | t
        · rw [ha, hl] at h
          cases h
        · rw [ha, hl] at h
          rw [← Except.ok.inj h, List.map_cons, ha, ih hl]
          rfl

/-! ### Computations that may fail -/

/-- What is known of a computation that may fail: `P` of its result, or `E` of
its error. -/
def Outcome (P : σ → Prop) (E : ε → Prop) : Except ε σ → Prop
  | .ok s => P s
  | .error e => E e

variable {P : σ → Prop} {E : ε → Prop}

theorem Outcome.bind {σ τ : Type u} {P : σ → Prop} {Q : τ → Prop} {x : Except ε σ}
    {g : σ → Except ε τ} (hx : Outcome P E x) (hg : ∀ s, P s → Outcome Q E (g s)) :
    Outcome Q E (x >>= g) := by
  rcases x with e | s
  · exact hx
  · exact hg s hx

theorem Outcome.imp {Q : σ → Prop} {x : Except ε σ} (hx : Outcome P E x)
    (h : ∀ s, P s → Q s) : Outcome Q E x := by
  rcases x with e | s
  · exact hx
  · exact h s hx

/-- The loop rule for a body that may fail. -/
theorem Outcome.foldlM {l : List α} (h : ∀ s, P s → ∀ a ∈ l, Outcome P E (f s a)) {s : σ}
    (hs : P s) : Outcome P E (l.foldlM f s) := by
  induction l generalizing s with
  | nil => exact hs
  | cons a l ih =>
      rw [List.foldlM_cons]
      apply (h s hs a List.mem_cons_self).bind
      intro s' hs'
      exact ih (fun t ht b hb => h t ht b (List.mem_cons_of_mem _ hb)) hs'

/-- A computation that cannot fail. -/
theorem Outcome.ok {x : Except ε σ} (hx : Outcome P (fun _ => False) x) :
    ∃ s, x = .ok s ∧ P s := by
  rcases x with e | s
  · exact absurd hx not_false
  · exact ⟨s, rfl, hx⟩

/-- The error of a computation that fails. -/
def fault? : Except ε σ → Option ε
  | .ok _ => none
  | .error e => some e

theorem exists_ok_of_fault? {x : Except ε σ} (h : fault? x = none) : ∃ s, x = .ok s := by
  cases x with
  | error e => cases h
  | ok s => exact ⟨s, rfl⟩

theorem eq_error_of_fault? {x : Except ε σ} {e : ε} (h : fault? x = some e) : x = .error e := by
  rcases x with e' | s
  · rw [Option.some.inj h]
  · cases h

/-- A computation that fails exactly if `C` does not hold; else `P` holds of its
result. -/
structure Checked (x : Except ε σ) (C : Prop) (P : σ → Prop) : Prop where
  ok : C → ∃ s, x = .ok s ∧ P s
  fails : ¬ C → ∃ e, x = .error e

section

variable {x : Except ε σ} {K : Prop}

theorem Checked.of_ok {s : σ} (h : P s) : Checked (.ok s : Except ε σ) True P :=
  ⟨fun _ => ⟨s, rfl, h⟩, fun hno => absurd trivial hno⟩

theorem Checked.congr {L : Prop} (h : Checked x K P) (hKL : K ↔ L) : Checked x L P :=
  ⟨fun hL => h.ok (hKL.mpr hL), fun hL => h.fails fun hK => hL (hKL.mp hK)⟩

/-- The second computation may use what is known of the result of the first. -/
theorem Checked.bind {σ τ : Type u} {P : σ → Prop} {Q : τ → Prop} {x : Except ε σ}
    {g : σ → Except ε τ} {L : Prop} (hx : Checked x K P) (hg : ∀ s, P s → Checked (g s) L Q) :
    Checked (x >>= g) (K ∧ L) Q := by
  refine ⟨?_, ?_⟩
  · rintro ⟨hK, hL⟩
    obtain ⟨s, rfl, hs⟩ := hx.ok hK
    exact (hg s hs).ok hL
  · intro hno
    by_cases hK : K
    · obtain ⟨s, rfl, hs⟩ := hx.ok hK
      exact (hg s hs).fails fun hL => hno ⟨hK, hL⟩
    · obtain ⟨e, rfl⟩ := hx.fails hK
      exact ⟨e, rfl⟩

/-- Nothing is checked behind the first computation. -/
theorem Checked.map {σ τ : Type u} {P : σ → Prop} {Q : τ → Prop} {x : Except ε σ} {g : σ → τ}
    (hx : Checked x K P) (hg : ∀ s, P s → Q (g s)) :
    Checked (x >>= fun s => pure (g s)) K Q :=
  (hx.bind fun s hs => Checked.of_ok (hg s hs)).congr ⟨fun h => h.1, fun h => ⟨h, trivial⟩⟩

theorem Checked.ite {c : Prop} [Decidable c] {y : Except ε σ} {L : Prop}
    (hx : c → Checked x K P) (hy : ¬ c → Checked y L P) :
    Checked (if c then x else y) ((c → K) ∧ (¬ c → L)) P := by
  by_cases hc : c
  · rw [if_pos hc]
    exact (hx hc).congr ⟨fun hK => ⟨fun _ => hK, absurd hc⟩, fun h => h.1 hc⟩
  · rw [if_neg hc]
    exact (hy hc).congr ⟨fun hL => ⟨fun h => absurd h hc, fun _ => hL⟩, fun h => h.2 hc⟩

/-- A check that is made only if `c` holds. -/
theorem Checked.guard {c : Prop} [Decidable c] {s : σ} (hx : c → Checked x K P)
    (hs : ¬ c → P s) : Checked (if c then x else .ok s) (c → K) P :=
  (Checked.ite hx fun hc => Checked.of_ok (hs hc)).congr
    ⟨fun h => h.1, fun h => ⟨h, fun _ => trivial⟩⟩

theorem Checked.exists_ok_iff (h : Checked x K P) : (∃ s, x = .ok s) ↔ K := by
  constructor
  · rintro ⟨s, rfl⟩
    by_contra hK
    obtain ⟨e, he⟩ := h.fails hK
    cases he
  · intro hK
    obtain ⟨s, hs, -⟩ := h.ok hK
    exact ⟨s, hs⟩

theorem Checked.of_eq_ok (h : Checked x K P) {s : σ} (hs : x = .ok s) : P s := by
  obtain ⟨s', hs', hP⟩ := h.ok (h.exists_ok_iff.mp ⟨s, hs⟩)
  rw [hs] at hs'
  rw [Except.ok.inj hs']
  exact hP

theorem Checked.fault? (h : Checked x K P) : fault? x = none ↔ K := by
  constructor
  · intro hx
    by_contra hK
    obtain ⟨e, rfl⟩ := h.fails hK
    cases hx
  · intro hK
    obtain ⟨s, rfl, -⟩ := h.ok hK
    rfl

end

/-! ### Runs whose steps meet a condition -/

/-- Every step of the run meets `C` in the state it finds. -/
def AllSteps (f : σ → α → Except ε σ) (C : σ → α → Prop) : σ → List α → Prop
  | _, [] => True
  | s, a :: l => C s a ∧
      match f s a with
      | .ok s' => AllSteps f C s' l
      | .error _ => True

instance decidableAllSteps (f : σ → α → Except ε σ) (C : σ → α → Prop)
    [∀ s a, Decidable (C s a)] : ∀ (s : σ) (l : List α), Decidable (AllSteps f C s l)
  | _, [] => isTrue trivial
  | s, a :: l =>
      have : Decidable (match f s a with
          | .ok s' => AllSteps f C s' l
          | .error _ => True) :=
        match f s a with
        | .ok s' => decidableAllSteps f C s' l
        | .error _ => isTrue trivial
      inferInstanceAs (Decidable (_ ∧ _))

variable {C : σ → α → Prop}

theorem AllSteps.left {pre post : List α} {s : σ} (h : AllSteps f C s (pre ++ post)) :
    AllSteps f C s pre := by
  induction pre generalizing s with
  | nil => trivial
  | cons a pre ih =>
      obtain ⟨ha, hrest⟩ := h
      rw [List.append_eq] at hrest
      refine ⟨ha, ?_⟩
      rcases hstep : f s a with - | s'
      · trivial
      · rw [hstep] at hrest
        exact ih hrest

/-- The rule for runs: a step that meets the condition keeps the invariant. -/
theorem AllSteps.outcome (h : ∀ s a, P s → C s a → Outcome P E (f s a)) {l : List α} {s : σ}
    (hl : AllSteps f C s l) (hs : P s) : Outcome P E (l.foldlM f s) := by
  induction l generalizing s with
  | nil => exact hs
  | cons a l ih =>
      obtain ⟨ha, hrest⟩ := hl
      have h₁ := h s a hs ha
      rw [List.foldlM_cons]
      rcases hstep : f s a with e | s'
      · rw [hstep] at h₁
        exact h₁
      · rw [hstep] at h₁ hrest
        exact ih hrest h₁

/-- Every step of a run that cannot fail meets `C` in the state it finds. -/
def Throughout (g : σ → α → σ) (C : σ → α → Prop) : σ → List α → Prop
  | _, [] => True
  | s, a :: l => C s a ∧ Throughout g C (g s a) l

instance decidableThroughout (g : σ → α → σ) (C : σ → α → Prop) [∀ s a, Decidable (C s a)] :
    ∀ (s : σ) (l : List α), Decidable (Throughout g C s l)
  | _, [] => isTrue trivial
  | s, a :: l =>
      have := decidableThroughout g C (g s a) l
      inferInstanceAs (Decidable (_ ∧ _))

variable {g : σ → α → σ}

theorem Throughout.left {pre post : List α} {s : σ} (h : Throughout g C s (pre ++ post)) :
    Throughout g C s pre := by
  induction pre generalizing s with
  | nil => trivial
  | cons a pre ih => exact ⟨h.1, ih h.2⟩

theorem Throughout.and {D : σ → α → Prop} {l : List α} {s : σ} (h : Throughout g C s l)
    (h' : Throughout g D s l) : Throughout g (fun s a => C s a ∧ D s a) s l := by
  induction l generalizing s with
  | nil => trivial
  | cons a l ih => exact ⟨⟨h.1, h'.1⟩, ih h.2 h'.2⟩

theorem Throughout.at {pre post : List α} {a : α} {s : σ}
    (h : Throughout g C s (pre ++ a :: post)) : C (pre.foldl g s) a := by
  induction pre generalizing s with
  | nil => exact h.1
  | cons b pre ih => exact ih h.2

/-- A condition that holds throughout, as one on every step of the run. -/
theorem throughout_iff {l : List α} {s : σ} :
    Throughout g C s l ↔ ∀ pre a post, l = pre ++ a :: post → C (pre.foldl g s) a := by
  constructor
  · rintro h pre a post rfl
    exact h.at
  · intro h
    induction l generalizing s with
    | nil => trivial
    | cons a l ih =>
      refine ⟨h [] a l rfl, ih ?_⟩
      rintro pre b post rfl
      exact h (a :: pre) b post rfl

/-- The rule for runs that cannot fail. -/
theorem Throughout.foldl (h : ∀ s a, P s → C s a → P (g s a)) {l : List α} {s : σ}
    (hl : Throughout g C s l) (hs : P s) : P (l.foldl g s) := by
  induction l generalizing s with
  | nil => exact hs
  | cons a l ih => exact ih hl.2 (h s a hs hl.1)

/-- Two conditions that agree under an invariant, which the second one keeps, hold
throughout the same runs; the invariant is indexed by what is left of the run. -/
theorem throughout_congr_rule {P : List α → σ → Prop} {D : σ → α → Prop}
    (hiff : ∀ s a l, P (a :: l) s → (C s a ↔ D s a))
    (hkeep : ∀ s a l, P (a :: l) s → D s a → P l (g s a)) (l : List α) {s : σ} (hs : P l s) :
    Throughout g C s l ↔ Throughout g D s l := by
  induction l generalizing s with
  | nil => rfl
  | cons a l ih =>
      constructor
      · rintro ⟨hC, hrest⟩
        have hD := (hiff s a l hs).mp hC
        exact ⟨hD, (ih (hkeep s a l hs hD)).mp hrest⟩
      · rintro ⟨hD, hrest⟩
        exact ⟨(hiff s a l hs).mpr hD, (ih (hkeep s a l hs hD)).mpr hrest⟩

/-- The case of an invariant that does not look ahead. -/
theorem throughout_congr {D : σ → α → Prop} (hiff : ∀ s a, P s → (C s a ↔ D s a))
    (hkeep : ∀ s a, P s → D s a → P (g s a)) (l : List α) {s : σ} (hs : P s) :
    Throughout g C s l ↔ Throughout g D s l :=
  throughout_congr_rule (P := fun _ => P) (fun s a _ => hiff s a) (fun s a _ => hkeep s a) l hs

/-- A run does not fail if and only if every step meets its condition, when the
condition is on what `p` shows of a state and a step acts on that as `h` does. -/
theorem Checked.foldlM {τ : Type*} {p : σ → τ} {h : τ → α → τ} {D : τ → α → Prop}
    (hstep : ∀ s a, Checked (f s a) (D (p s) a) fun s' => p s' = h (p s) a) (l : List α) (s : σ) :
    Checked (l.foldlM f s) (Throughout h D (p s) l) fun s' => p s' = l.foldl h (p s) := by
  induction l generalizing s with
  | nil => exact Checked.of_ok rfl
  | cons a l ih =>
      rw [List.foldlM_cons]
      apply (hstep s a).bind
      intro s' hs'
      rw [List.foldl_cons, ← hs']
      exact ih s'

/-! ### Logs -/

/-- A new entry leaves the positions of the others alone. -/
theorem getElem?_concat {l : List α} {x y : α} {i : Nat} :
    (l ++ [x])[i]? = some y ↔ l[i]? = some y ∨ i = l.length ∧ y = x := by
  rcases Nat.lt_trichotomy i l.length with hi | rfl | hi
  · rw [List.getElem?_append_left hi]
    exact ⟨.inl, fun h => h.elim id fun h => absurd h.1 (Nat.ne_of_lt hi)⟩
  · simp [eq_comm]
  · rw [List.getElem?_eq_none (by simp; omega), List.getElem?_eq_none (Nat.le_of_lt hi)]
    simp only [reduceCtorEq, false_or, false_iff, not_and]
    exact fun h => absurd h (Nat.ne_of_gt hi)

/-! ### Flags driven by edges -/

section Flag

variable {β : Type*} [DecidableEq α] {step : β → α → β} {g : β → Bool} {on off : α}

/-- `step` sets the flag `g` on one event, clears it on another. -/
def Drives (step : β → α → β) (g : β → Bool) (on off : α) : Prop :=
  ∀ b a, g (step b a) = if a = on then true else if a = off then false else g b

theorem Drives.foldl_of_not_off (h : Drives step g on off) {l : List α} (hl : off ∉ l)
    (b : β) : g (l.foldl step b) = true ↔ g b = true ∨ on ∈ l := by
  induction l generalizing b with
  | nil => simp
  | cons a l ih =>
      rw [List.mem_cons, not_or] at hl
      rw [List.foldl_cons, ih hl.2, h, List.mem_cons]
      by_cases ha : a = on
      · simp [ha]
      · have ha' : a ≠ off := fun e => hl.1 e.symm
        have hon : ¬ on = a := fun e => ha e.symm
        simp [ha, ha', hon]

theorem Drives.foldl_of_not_on (h : Drives step g on off) {l : List α} (hl : on ∉ l)
    (b : β) : g (l.foldl step b) = true ↔ g b = true ∧ off ∉ l := by
  induction l generalizing b with
  | nil => simp
  | cons a l ih =>
      rw [List.mem_cons, not_or] at hl
      have ha' : a ≠ on := fun e => hl.1 e.symm
      rw [List.foldl_cons, ih hl.2, h, List.mem_cons]
      by_cases ha : a = off
      · simp [ha, show off ≠ on from ha ▸ ha']
      · have hoff : ¬ off = a := fun e => ha e.symm
        simp [ha, ha', hoff]

/-- A flag driven by the rising and falling edges of a condition follows it. -/
theorem Drives.foldl_follows (h : Drives step g on off) {l : List α} {old now : Prop}
    (hon : on ∈ l ↔ now ∧ ¬ old) (hoff : off ∈ l ↔ old ∧ ¬ now) {b : β}
    (hb : g b = true ↔ old) : g (l.foldl step b) = true ↔ now := by
  by_cases hn : now
  · rw [h.foldl_of_not_off fun hc => (hoff.mp hc).2 hn, hb, hon]
    tauto
  · rw [h.foldl_of_not_on fun hc => hn (hon.mp hc).1, hb, hoff]
    tauto

end Flag

end Lib
