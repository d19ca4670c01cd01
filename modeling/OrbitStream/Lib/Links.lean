/-
OrbitStream/Lib/Links.lean

Link tables: a partial map together with its reverse index.

A link table stores every edge `n → m` twice, once as the target of `n`
(`fwd n = some m`) and once as a member of the source set of `m`
(`n ∈ back m`).  Nothing in the type keeps the two halves together; that they
agree is `Consistent`, and the operations below are written the way an
object graph with back pointers updates them, touching one half and then the
other.

Each operation comes with two facts: it keeps `Consistent`, and it changes the
forward half in the obvious way.  A client therefore reasons about `fwd` alone
and reads the reverse index off it with `Consistent.mem_back`.
-/
import Mathlib.Data.Finset.Card
import Mathlib.Logic.Function.Basic

namespace Lib

/-- A forward table and its reverse index, as stored. -/
structure Links (α β : Type*) where
  /-- the target of a source, if it has one -/
  fwd : α → Option β
  /-- the sources recorded at a target -/
  back : β → Finset α

namespace Links

variable {α β : Type*}

/-- The table with no link. -/
def empty : Links α β where
  fwd := fun _ => none
  back := fun _ => ∅

/-- The two halves record the same edges. -/
def Consistent (L : Links α β) : Prop :=
  ∀ n m, L.fwd n = some m ↔ n ∈ L.back m

theorem Consistent.mem_back {L : Links α β} (h : L.Consistent) {n : α} {m : β} :
    n ∈ L.back m ↔ L.fwd n = some m := (h n m).symm

theorem consistent_empty : (empty : Links α β).Consistent := by
  intro n m
  simp [empty]

variable [DecidableEq α] [DecidableEq β]

/-! ### Operations -/

/-- The reverse index with `n` taken out of the source set of its target. -/
def detach (L : Links α β) (n : α) : β → Finset α :=
  match L.fwd n with
  | none => L.back
  | some m => Function.update L.back m ((L.back m).erase n)

/-- Point `n` at `m`, leaving the old target first. -/
def bind (L : Links α β) (n : α) (m : β) : Links α β where
  fwd := Function.update L.fwd n (some m)
  back := Function.update (L.detach n) m (insert n (L.detach n m))

/-- Drop the link of `n`. -/
def unbind (L : Links α β) (n : α) : Links α β where
  fwd := Function.update L.fwd n none
  back := L.detach n

/-- Drop every link into `m`. -/
def release (L : Links α β) (m : β) : Links α β where
  fwd := fun n => if n ∈ L.back m then none else L.fwd n
  back := Function.update L.back m ∅

/-- Point every member of a list at its own new target, one after the other. -/
def bindEach (L : Links α β) (ns : List α) (f : α → β) : Links α β :=
  ns.foldl (fun L n => L.bind n (f n)) L

theorem mem_detach {L : Links α β} {n n' : α} {m : β} :
    n' ∈ L.detach n m ↔ n' ∈ L.back m ∧ ¬ (n' = n ∧ L.fwd n = some m) := by
  rcases e : L.fwd n with - | m₀
  · simp [detach, e]
  · by_cases hm : m = m₀
    · subst hm
      simp [detach, e, and_comm]
    · have hm' : m₀ ≠ m := fun h => hm h.symm
      simp [detach, e, Function.update_of_ne hm, hm']

/-- Forget everything stored at `n`, in both roles. -/
def blank (L : Links α α) (n : α) : Links α α where
  fwd := Function.update L.fwd n none
  back := Function.update L.back n ∅

/-! ### The forward half -/

theorem fwd_bind (L : Links α β) (n n' : α) (m : β) :
    (L.bind n m).fwd n' = if n' = n then some m else L.fwd n' := by
  simp [bind, Function.update_apply]

theorem fwd_unbind (L : Links α β) (n n' : α) :
    (L.unbind n).fwd n' = if n' = n then none else L.fwd n' := by
  simp [unbind, Function.update_apply]

theorem fwd_blank (L : Links α α) (n n' : α) :
    (L.blank n).fwd n' = if n' = n then none else L.fwd n' := by
  simp [blank, Function.update_apply]

/-- Blanking a node that points nowhere changes no forward link. -/
theorem fwd_blank_of_none {L : Links α α} {n : α} (h : L.fwd n = none) (n' : α) :
    (L.blank n).fwd n' = L.fwd n' := by
  rw [fwd_blank]
  split
  · next hn => rw [hn, h]
  · rfl

theorem Consistent.fwd_release {L : Links α β} (h : L.Consistent) (m : β) (n : α) :
    (L.release m).fwd n = if L.fwd n = some m then none else L.fwd n := by
  simp only [release, h.mem_back]

theorem fwd_bindEach (L : Links α β) (ns : List α) (f : α → β) (n : α) :
    (L.bindEach ns f).fwd n = if n ∈ ns then some (f n) else L.fwd n := by
  induction ns generalizing L with
  | nil => simp [bindEach]
  | cons a ns ih =>
      have hstep : (L.bindEach (a :: ns) f).fwd n
          = ((L.bind a (f a)).bindEach ns f).fwd n := rfl
      rw [hstep, ih, fwd_bind]
      by_cases hn : n ∈ ns
      · simp [hn]
      · by_cases ha : n = a
        · subst ha; simp
        · simp [hn, ha]

/-! ### Consistency is kept -/

theorem Consistent.bind {L : Links α β} (h : L.Consistent) (n : α) (m : β) :
    (L.bind n m).Consistent := by
  intro n' m'
  rw [fwd_bind]
  have hback : n' ∈ (L.bind n m).back m'
      ↔ (m' = m ∧ n' = n) ∨ n' ∈ L.detach n m' := by
    by_cases hm : m' = m
    · subst hm; simp [Links.bind]
    · simp [Links.bind, hm]
  rw [hback, mem_detach, h.mem_back]
  by_cases hn : n' = n
  · subst hn
    simp [eq_comm]
  · simp [hn]

theorem Consistent.unbind {L : Links α β} (h : L.Consistent) (n : α) :
    (L.unbind n).Consistent := by
  intro n' m'
  have hback : n' ∈ (L.unbind n).back m' ↔ n' ∈ L.detach n m' := Iff.rfl
  rw [fwd_unbind, hback, mem_detach, h.mem_back]
  by_cases hn : n' = n
  · subst hn; simp
  · simp [hn]

theorem Consistent.release {L : Links α β} (h : L.Consistent) (m : β) :
    (L.release m).Consistent := by
  intro n' m'
  rw [h.fwd_release]
  by_cases hm : m' = m
  · subst hm
    by_cases hf : L.fwd n' = some m' <;> simp [Links.release, hf]
  · have hback : n' ∈ (L.release m).back m' ↔ n' ∈ L.back m' := by
      simp [Links.release, Function.update_of_ne hm]
    rw [hback, h.mem_back]
    by_cases hf : L.fwd n' = some m
    · have hne : ¬ m = m' := fun e => hm e.symm
      simp [hf, hne]
    · simp [hf]

/-- Blanking `n` is harmless once no other source points at it and it points
at no other target. -/
theorem Consistent.blank {L : Links α α} (h : L.Consistent) {n : α}
    (hin : ∀ a, L.fwd a = some n → a = n) (hout : ∀ b, L.fwd n = some b → b = n) :
    (L.blank n).Consistent := by
  intro a b
  rw [fwd_blank]
  by_cases hb : b = n
  · subst hb
    have hback : (L.blank b).back b = ∅ := by simp [Links.blank]
    rw [hback]
    by_cases ha : a = b
    · simp [ha]
    · have hne : L.fwd a ≠ some b := fun e => ha (hin a e)
      simp [ha, hne]
  · have hback : (L.blank n).back b = L.back b := by simp [Links.blank, hb]
    rw [hback, h.mem_back]
    by_cases ha : a = n
    · subst ha
      have hne : L.fwd a ≠ some b := fun e => hb (hout b e)
      simp [hne]
    · simp [ha]

theorem Consistent.bindEach {L : Links α β} (h : L.Consistent) (ns : List α)
    (f : α → β) : (L.bindEach ns f).Consistent := by
  induction ns generalizing L with
  | nil => exact h
  | cons a ns ih => exact ih (h.bind a (f a))

/-! ### Taking a node out

A node that leaves the graph drops its own link, then the links into it, and is
forgotten. -/

theorem Consistent.fwd_isolate {L : Links α α} (h : L.Consistent) (r n : α) :
    (((L.unbind r).release r).blank r).fwd n
      = if n = r ∨ L.fwd n = some r then none else L.fwd n := by
  rw [fwd_blank, (h.unbind r).fwd_release, fwd_unbind]
  by_cases hn : n = r
  · simp [hn]
  · by_cases hr : L.fwd n = some r <;> simp [hn, hr]

theorem Consistent.isolate {L : Links α α} (h : L.Consistent) (r : α) :
    (((L.unbind r).release r).blank r).Consistent := by
  have h' := (h.unbind r).release r
  refine h'.blank ?_ ?_
  · intro a ha
    rw [(h.unbind r).fwd_release] at ha
    split at ha
    · cases ha
    · contradiction
  · intro b hb
    rw [(h.unbind r).fwd_release, fwd_unbind] at hb
    simp at hb

end Links

end Lib
