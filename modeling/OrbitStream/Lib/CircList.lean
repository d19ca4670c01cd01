/-
OrbitStream/Lib/CircList.lean

Circular doubly linked lists in a heap.

A node holds a value and the addresses of the next and of the previous node; the list is
given by the address of its head, and 0 is the address of no node.  Every operation goes
through the heap: it is `none` when it reads, writes or frees an address where no node is
allocated, and the loops are `none` when they do not come to their end.

`IsRing r l` says that the heap of `r` holds exactly the nodes of `l`, linked to a ring in
this order.  Each operation has a rule that says what it does to `l`; none of them fails on
a ring.  The two ends are treated alike: `Links before after l` describes a piece of a ring
between two addresses, and `Links.setPrev`, `Links.setNext` attach an end of it to another
address.
-/
import Mathlib.Data.List.Basic
import Mathlib.Data.List.Induction
import Mathlib.Logic.Function.Basic

namespace Lib

universe u

/-- A node of the heap, with null links when it is new. -/
structure Node (α : Type u) where
  val : α
  next : Nat := 0
  prev : Nat := 0

/-- A heap of nodes with the pointer to a head. -/
structure CircList (α : Type u) where
  head : Nat := 0
  heap : Nat → Option (Node α) := fun _ => none
  fresh : Nat := 1

namespace CircList

variable {α σ : Type u}

/-! ### Operations -/

def modify (r : CircList α) (a : Nat) (f : Node α → Node α) : Option (CircList α) :=
  (r.heap a).map fun n => { r with heap := Function.update r.heap a (some (f n)) }

/-- A new node, and its address. -/
def alloc (r : CircList α) (v : α) : CircList α × Nat :=
  ({ r with heap := Function.update r.heap r.fresh (some { val := v }), fresh := r.fresh + 1 },
    r.fresh)

/-- Freeing null does nothing. -/
def free (r : CircList α) (a : Nat) : Option (CircList α) :=
  if a = 0 then some r
  else (r.heap a).map fun _ => { r with heap := Function.update r.heap a none }

/-- The node `a` becomes the last one. -/
def append (r : CircList α) (a : Nat) : Option (CircList α) :=
  if r.head = 0 then do
    let r ← r.modify a fun n => { n with prev := a, next := a }
    some { r with head := a }
  else do
    -- the new node goes between the last one and the head
    let h ← r.heap r.head
    let r ← r.modify a fun n => { n with prev := h.prev, next := r.head }
    let r ← r.modify r.head fun n => { n with prev := a }
    r.modify h.prev fun n => { n with next := a }

/-- The head is taken off; its address, or null. -/
def popHead (r : CircList α) : Option (CircList α × Nat) :=
  if r.head = 0 then some (r, 0)
  else do
    let pop ← r.heap r.head
    -- a node that is its own successor is the only one
    if r.head = pop.next then some ({ r with head := 0 }, r.head)
    else
      let r' ← { r with head := pop.next }.modify pop.next fun n => { n with prev := pop.prev }
      let h ← r'.heap pop.next
      let r' ← r'.modify h.prev fun n => { n with next := pop.next }
      some (r', r.head)

/-- All nodes from `cur` on are freed, until the links lead back to the head. -/
def freeFrom : Nat → CircList α → Nat → Option (CircList α)
  | 0, _, _ => none
  | fuel + 1, r, cur => do
    -- the successor is read before the node is freed
    let n ← r.heap cur
    let r ← r.free cur
    if n.next = r.head then some r else freeFrom fuel r n.next

def clear (r : CircList α) : Option (CircList α) :=
  if r.head = 0 then some r
  else do
    let r ← freeFrom r.fresh r r.head
    some { r with head := 0 }

/-- The nodes from `cur` back to the head are visited: `f` may change the value. -/
def walkBack (f : α → σ → σ × α) : Nat → CircList α → Nat → σ → Option (CircList α × σ)
  | 0, _, _, _ => none
  | fuel + 1, r, cur, s => do
    let n ← r.heap cur
    let out := f n.val s
    let r ← r.modify cur fun n => { n with val := out.2 }
    if cur = r.head then some (r, out.1) else walkBack f fuel r n.prev out.1

/-- The values from `cur` on, until the links lead back to the head. -/
def readFrom : Nat → CircList α → Nat → Option (List α)
  | 0, _, _ => none
  | fuel + 1, r, cur => do
    let n ← r.heap cur
    if n.next = r.head then some [n.val]
    else do
      let vs ← readFrom fuel r n.next
      some (n.val :: vs)

/-- The values from the head to the tail. -/
def toList (r : CircList α) : Option (List α) :=
  if r.head = 0 then some [] else readFrom r.fresh r r.head

/-- The links of all nodes agree: the next of a node has it as its previous one, and the
previous of a node has it as its next one. -/
def Linked (r : CircList α) : Prop :=
  ∀ a n, r.heap a = some n →
    (∃ p, r.heap n.next = some p ∧ p.prev = a) ∧ ∃ p, r.heap n.prev = some p ∧ p.next = a

/-! ### Pieces of a ring -/

/-- The address of the first node, or `d`. -/
def first (d : Nat) : List (Nat × α) → Nat
  | [] => d
  | x :: _ => x.1

/-- The address of the last node, or `d`. -/
def last (d : Nat) : List (Nat × α) → Nat
  | [] => d
  | x :: l => last x.1 l

@[simp] theorem first_nil (d : Nat) : first d ([] : List (Nat × α)) = d := rfl

@[simp] theorem first_cons (d : Nat) (x : Nat × α) (l : List (Nat × α)) : first d (x :: l) = x.1 :=
  rfl

@[simp] theorem last_nil (d : Nat) : last d ([] : List (Nat × α)) = d := rfl

@[simp] theorem last_cons (d : Nat) (x : Nat × α) (l : List (Nat × α)) :
    last d (x :: l) = last x.1 l := rfl

@[simp] theorem first_append (d : Nat) (l l' : List (Nat × α)) :
    first d (l ++ l') = first (first d l') l := by
  cases l with
  | nil => rfl
  | cons x l => rfl

@[simp] theorem last_append (d : Nat) (l l' : List (Nat × α)) :
    last d (l ++ l') = last (last d l) l' := by
  induction l generalizing d with
  | nil => rfl
  | cons x l ih => exact ih x.1

/-- The nodes of `l` are linked in this order; the first one points back to `before`, the
last one on to `after`. -/
def Links (heap : Nat → Option (Node α)) (before after : Nat) : List (Nat × α) → Prop
  | [] => True
  | x :: l => heap x.1 = some ⟨x.2, first after l, before⟩ ∧ Links heap x.1 after l

section

variable {heap heap' : Nat → Option (Node α)} {before after : Nat} {l l' : List (Nat × α)}
  {x : Nat × α}

theorem links_append :
    Links heap before after (l ++ l') ↔
      Links heap before (first after l') l ∧ Links heap (last before l) after l' := by
  induction l generalizing before with
  | nil => simp [Links]
  | cons x l ih => simp only [List.cons_append, Links, first_append, last_cons, ih, and_assoc]

/-- Only the nodes of the piece matter. -/
theorem Links.congr (h : Links heap before after l)
    (heq : ∀ a ∈ l.map Prod.fst, heap' a = heap a) : Links heap' before after l := by
  induction l generalizing before with
  | nil => trivial
  | cons x l ih =>
    rw [List.map_cons, List.forall_mem_cons] at heq
    exact ⟨heq.1.trans h.1, ih h.2 heq.2⟩

theorem Links.update (h : Links heap before after l) {a : Nat} (ha : a ∉ l.map Prod.fst)
    (n : Option (Node α)) : Links (Function.update heap a n) before after l := by
  apply h.congr
  intro b hb
  have hne : b ≠ a := fun hba => ha (hba ▸ hb)
  exact Function.update_of_ne hne n heap

theorem first_mem (d : Nat) (hl : l ≠ []) : first d l ∈ l.map Prod.fst := by
  cases l with
  | nil => exact absurd rfl hl
  | cons x l => exact List.mem_cons_self

theorem last_mem (d : Nat) (hl : l ≠ []) : last d l ∈ l.map Prod.fst := by
  rcases List.eq_nil_or_concat l with rfl | ⟨t, y, rfl⟩
  · exact absurd rfl hl
  · simp

/-- What is at an address of a piece. -/
theorem Links.heap_eq (h : Links heap before after (l ++ x :: l')) :
    heap x.1 = some ⟨x.2, first after l', last before l⟩ :=
  ((links_append.mp h).2).1

theorem Links.at_first (h : Links heap before after l) (d : Nat) (hl : l ≠ []) :
    ∃ n, heap (first d l) = some n ∧ n.prev = before := by
  cases l with
  | nil => exact absurd rfl hl
  | cons x l => exact ⟨_, h.1, rfl⟩

theorem Links.at_last (h : Links heap before after l) (d : Nat) (hl : l ≠ []) :
    ∃ n, heap (last d l) = some n ∧ n.next = after := by
  rcases List.eq_nil_or_concat l with rfl | ⟨t, y, rfl⟩
  · exact absurd rfl hl
  · rw [List.concat_eq_append] at h ⊢
    rw [last_append]
    exact ⟨_, h.heap_eq, rfl⟩

end

/-! ### Changes of one node -/

/-- Only the node at `a` differs. -/
structure Edit (r r' : CircList α) (a : Nat) : Prop where
  head : r'.head = r.head
  fresh : r'.fresh = r.fresh
  other : ∀ b, b ≠ a → r'.heap b = r.heap b

theorem modify_eq {r : CircList α} {a : Nat} {n : Node α} (h : r.heap a = some n)
    (f : Node α → Node α) :
    ∃ r', r.modify a f = some r' ∧ Edit r r' a ∧ r'.heap a = some (f n) := by
  rw [modify, h]
  refine ⟨_, rfl, ⟨rfl, rfl, ?_⟩, Function.update_self _ _ _⟩
  exact fun b hb => Function.update_of_ne hb _ _

section

variable {r r' : CircList α} {a before after : Nat} {l l' : List (Nat × α)} {x : Nat × α}

theorem Links.edit (h : Links r.heap before after l) (he : Edit r r' a)
    (ha : a ∉ l.map Prod.fst) : Links r'.heap before after l := by
  apply h.congr
  intro b hb
  exact he.other b fun hba => ha (hba ▸ hb)

/-- Changes of both ends of a piece leave the other nodes alone. -/
theorem Edit.outside {r₁ : CircList α} (he₁ : Edit r r₁ (first 0 l)) (he₂ : Edit r₁ r' (last 0 l))
    (hl : l ≠ []) {b : Nat} (hb : b ∉ l.map Prod.fst) : r'.heap b = r.heap b := by
  have hlast : b ≠ last 0 l := fun hbl => hb (hbl ▸ last_mem 0 hl)
  have hfirst : b ≠ first 0 l := fun hbf => hb (hbf ▸ first_mem 0 hl)
  rw [he₂.other b hlast, he₁.other b hfirst]

/-- The first node gets another predecessor. -/
theorem Links.setPrev (h : Links r.heap before after l) (hl : l ≠ []) (hn : (l.map Prod.fst).Nodup)
    (before' : Nat) :
    ∃ r', r.modify (first 0 l) (fun n => { n with prev := before' }) = some r' ∧
      Edit r r' (first 0 l) ∧ Links r'.heap before' after l := by
  cases l with
  | nil => exact absurd rfl hl
  | cons x l =>
    rw [List.map_cons, List.nodup_cons] at hn
    obtain ⟨r', hrun, he, hat⟩ := modify_eq h.1 fun n => { n with prev := before' }
    exact ⟨r', hrun, he, hat, h.2.edit he hn.1⟩

/-- The last node gets another successor. -/
theorem Links.setNext (h : Links r.heap before after l) (hl : l ≠ []) (hn : (l.map Prod.fst).Nodup)
    (after' : Nat) :
    ∃ r', r.modify (last 0 l) (fun n => { n with next := after' }) = some r' ∧
      Edit r r' (last 0 l) ∧ Links r'.heap before after' l := by
  rcases List.eq_nil_or_concat l with rfl | ⟨t, y, rfl⟩
  · exact absurd rfl hl
  · rw [List.concat_eq_append] at h hn ⊢
    rw [List.map_append, List.nodup_append] at hn
    have hy : y.1 ∉ t.map Prod.fst := fun hmem => hn.2.2 y.1 hmem y.1 List.mem_cons_self rfl
    rw [last_append]
    obtain ⟨r', hrun, he, hat⟩ := modify_eq h.heap_eq fun n => { n with next := after' }
    refine ⟨r', hrun, he, links_append.mpr ⟨?_, hat, trivial⟩⟩
    exact (links_append.mp h).1.edit he hy

/-- A node gets another value. -/
theorem Links.setVal (h : Links r.heap before after (l ++ x :: l'))
    (hn : ((l ++ x :: l').map Prod.fst).Nodup) (v : α) :
    ∃ r', r.modify x.1 (fun n => { n with val := v }) = some r' ∧ Edit r r' x.1 ∧
      Links r'.heap before after (l ++ (x.1, v) :: l') := by
  rw [List.map_append, List.map_cons, List.nodup_append, List.nodup_cons] at hn
  have hx : x.1 ∉ l.map Prod.fst := fun hmem => hn.2.2 x.1 hmem x.1 List.mem_cons_self rfl
  obtain ⟨r', hrun, he, hat⟩ := modify_eq h.heap_eq fun n => { n with val := v }
  obtain ⟨hleft, -, hright⟩ := links_append.mp h
  refine ⟨r', hrun, he, links_append.mpr ⟨?_, hat, ?_⟩⟩
  · exact hleft.edit he hx
  · exact hright.edit he hn.2.1.1

end

/-! ### Rings -/

/-- The heap holds the nodes of `l`, linked to a ring, and no others. -/
structure IsRing (r : CircList α) (l : List (Nat × α)) : Prop where
  head : r.head = first 0 l
  links : Links r.heap (last 0 l) (first 0 l) l
  nodup : (l.map Prod.fst).Nodup
  only : ∀ a n, r.heap a = some n → a ∈ l.map Prod.fst
  bound : ∀ a ∈ l.map Prod.fst, 0 < a ∧ a < r.fresh
  pos : 0 < r.fresh

theorem isRing_empty : IsRing ({} : CircList α) [] where
  head := rfl
  links := trivial
  nodup := List.nodup_nil
  only a n h := by cases h
  bound a h := by cases h
  pos := Nat.one_pos

namespace IsRing

variable {r : CircList α} {l l' : List (Nat × α)} {x : Nat × α}

/-- No more nodes than addresses were given out. -/
theorem length_le (h : IsRing r l) : l.length ≤ r.fresh := by
  have hsub : l.map Prod.fst ⊆ List.range r.fresh :=
    fun a ha => List.mem_range.mpr (h.bound a ha).2
  have hle := h.nodup.length_le_of_subset hsub
  rwa [List.length_map, List.length_range] at hle

theorem head_pos (h : IsRing r (x :: l)) : r.head = x.1 ∧ r.head ≠ 0 := by
  have hhead : r.head = x.1 := h.head
  have hpos := (h.bound x.1 List.mem_cons_self).1
  exact ⟨hhead, by omega⟩

theorem not_mem_fresh (h : IsRing r l) : r.fresh ∉ l.map Prod.fst :=
  fun hmem => absurd (h.bound r.fresh hmem).2 (Nat.lt_irrefl _)

end IsRing

namespace IsRing

variable {r : CircList α} {l l' : List (Nat × α)} {x : Nat × α}

/-- The ring after a new node was linked in. -/
theorem of_append (h : IsRing r l) {v : α} {r' : CircList α}
    (hfresh : r'.fresh = r.fresh + 1) (hhead : r'.head = first r.fresh l)
    (hlinks : Links r'.heap r.fresh (first r.fresh l) (l ++ [(r.fresh, v)]))
    (hother : ∀ b, b ∉ l.map Prod.fst → b ≠ r.fresh → r'.heap b = r.heap b) :
    IsRing r' (l ++ [(r.fresh, v)]) := by
  refine ⟨?_, ?_, ?_, ?_, ?_, ?_⟩
  · rw [first_append]
    exact hhead
  · rw [first_append, last_append]
    exact hlinks
  · rw [List.map_append]
    refine List.nodup_append.mpr ⟨h.nodup, List.pairwise_singleton _ _, ?_⟩
    intro a ha b hb hab
    rw [List.map_singleton, List.mem_singleton] at hb
    rw [hab, hb] at ha
    exact h.not_mem_fresh ha
  · intro a n ha
    rw [List.map_append, List.mem_append]
    by_contra hno
    rw [not_or, List.map_singleton, List.mem_singleton] at hno
    rw [hother a hno.1 hno.2] at ha
    exact hno.1 (h.only a n ha)
  · intro a ha
    rw [List.map_append, List.mem_append, List.map_singleton, List.mem_singleton] at ha
    have hpos := h.pos
    rcases ha with ha | rfl
    · have hb := h.bound a ha
      omega
    · omega
  · omega

/-- A new node is appended. -/
theorem append (h : IsRing r l) (v : α) :
    ∃ r', (r.alloc v).1.append (r.alloc v).2 = some r' ∧ IsRing r' (l ++ [(r.fresh, v)]) := by
  have hnew := h.not_mem_fresh
  have hlinks : Links (r.alloc v).1.heap (last 0 l) (first 0 l) l := h.links.update hnew _
  have hat : (r.alloc v).1.heap r.fresh = some { val := v } := Function.update_self _ _ _
  have hother : ∀ b, b ≠ r.fresh → (r.alloc v).1.heap b = r.heap b :=
    fun b hb => Function.update_of_ne hb _ _
  show ∃ r', (r.alloc v).1.append r.fresh = some r' ∧ _
  cases l with
  | nil =>
    have hhead : (r.alloc v).1.head = 0 := h.head
    obtain ⟨r₁, hrun, he, hat₁⟩ := modify_eq hat fun n => { n with prev := r.fresh, next := r.fresh }
    refine ⟨{ r₁ with head := r.fresh }, ?_, ?_⟩
    · rw [CircList.append, if_pos hhead, hrun]
      rfl
    · apply h.of_append
      · exact he.fresh
      · rfl
      · exact ⟨hat₁, trivial⟩
      · exact fun b _ hb => (he.other b hb).trans (hother b hb)
  | cons x l =>
    obtain ⟨hhead, hne⟩ := h.head_pos
    -- the links of the new node, then those of the head, then those of the last node
    obtain ⟨r₁, hrun₁, he₁, hat₁⟩ := modify_eq hat fun n =>
      { n with prev := last 0 (x :: l), next := x.1 }
    obtain ⟨r₂, hrun₂, he₂, hlinks₂⟩ := (hlinks.edit he₁ hnew).setPrev (List.cons_ne_nil x l)
      h.nodup r.fresh
    obtain ⟨r₃, hrun₃, he₃, hlinks₃⟩ := hlinks₂.setNext (List.cons_ne_nil x l) h.nodup r.fresh
    have houtside : ∀ b, b ∉ (x :: l).map Prod.fst → r₃.heap b = r₁.heap b :=
      fun b hb => he₂.outside he₃ (List.cons_ne_nil x l) hb
    refine ⟨r₃, ?_, ?_⟩
    · have hhead₀ : (r.alloc v).1.head = x.1 := hhead
      have hne₀ : (r.alloc v).1.head ≠ 0 := hne
      have hhead₁ : r₁.head = first 0 (x :: l) := he₁.head.trans hhead
      rw [CircList.append, if_neg hne₀, hhead₀, hlinks.1]
      simp only [Option.bind_eq_bind, Option.bind_some]
      rw [hrun₁, Option.bind_some, hhead₁, hrun₂, Option.bind_some, hrun₃]
    · apply h.of_append
      · rw [he₃.fresh, he₂.fresh, he₁.fresh]
        rfl
      · rw [he₃.head, he₂.head, he₁.head]
        exact hhead
      · refine links_append.mpr ⟨hlinks₃, ?_, trivial⟩
        rw [houtside r.fresh hnew, hat₁]
        rfl
      · intro b hb hf
        rw [houtside b hb, he₁.other b hf, hother b hf]

/-- The ring after the first node was taken out and freed. -/
theorem of_pop (h : IsRing r (x :: l)) {r₁ : CircList α} (hfresh : r₁.fresh = r.fresh)
    (hhead : r₁.head = first 0 l) (hlinks : Links r₁.heap (last 0 l) (first 0 l) l)
    (hother : ∀ b, b ∉ l.map Prod.fst → r₁.heap b = r.heap b) :
    ∃ r', r₁.free x.1 = some r' ∧ IsRing r' l := by
  have hn := h.nodup
  rw [List.map_cons, List.nodup_cons] at hn
  have hx := (h.bound x.1 List.mem_cons_self).1
  have hat : r₁.heap x.1 = some _ := (hother x.1 hn.1).trans h.links.1
  refine ⟨{ r₁ with heap := Function.update r₁.heap x.1 none }, ?_, ?_⟩
  · rw [free, if_neg (by omega), hat]
    rfl
  · refine ⟨hhead, hlinks.update hn.1 none, hn.2, ?_, ?_, by rw [hfresh]; exact h.pos⟩
    · intro a n ha
      by_contra hno
      by_cases hax : a = x.1
      · subst hax
        cases (Function.update_self x.1 none r₁.heap).symm.trans ha
      · have hold := (Function.update_of_ne hax none r₁.heap).symm.trans ha
        rw [hother a hno] at hold
        rcases List.mem_cons.mp (h.only a n hold) with heq | hmem
        · exact hax heq
        · exact hno hmem
    · intro a ha
      rw [hfresh]
      exact h.bound a (List.mem_cons_of_mem _ ha)

/-- The head is taken off and freed. -/
theorem popHead (h : IsRing r (x :: l)) :
    ∃ r₁ r', r.popHead = some (r₁, x.1) ∧ r₁.free x.1 = some r' ∧ IsRing r' l := by
  obtain ⟨hhead, hne⟩ := h.head_pos
  have hlinks := h.links
  rw [CircList.popHead, if_neg hne, hhead, hlinks.1]
  simp only [Option.bind_eq_bind, Option.bind_some]
  cases l with
  | nil =>
    rw [first_nil, first_cons, if_pos rfl]
    obtain ⟨r', hfree, hring⟩ : ∃ r', free { r with head := 0 } x.1 = some r' ∧ IsRing r' [] :=
      h.of_pop rfl rfl trivial fun _ _ => rfl
    exact ⟨_, r', rfl, hfree, hring⟩
  | cons y l =>
    -- the rest is closed to a ring: its first node back to the last, the last on to the first
    have hn := h.nodup
    rw [List.map_cons, List.nodup_cons] at hn
    have hxy : ¬ x.1 = y.1 := fun hxy => hn.1 (hxy ▸ List.mem_cons_self)
    obtain ⟨r₁, hrun₁, he₁, hlinks₁⟩ := Links.setPrev (r := { r with head := y.1 }) hlinks.2
      (List.cons_ne_nil y l) hn.2 (last 0 (x :: y :: l))
    obtain ⟨r₂, hrun₂, he₂, hlinks₂⟩ := hlinks₁.setNext (List.cons_ne_nil y l) hn.2 y.1
    obtain ⟨r', hfree, hring⟩ := h.of_pop (he₂.fresh.trans he₁.fresh) (he₂.head.trans he₁.head)
      hlinks₂ fun b hb => he₁.outside he₂ (List.cons_ne_nil y l) hb
    refine ⟨r₂, r', ?_, hfree, hring⟩
    rw [first_cons, if_neg hxy]
    simp only [first_cons] at hrun₁
    rw [hrun₁, Option.bind_some, hlinks₁.1, Option.bind_some]
    show (r₁.modify (last 0 (y :: l)) _).bind _ = _
    rw [hrun₂, Option.bind_some]

end IsRing

/-- The loop that frees a piece whose last node points to the head. -/
theorem freeFrom_eq {l : List (Nat × α)} {r : CircList α} {before fuel : Nat} (hl : l ≠ [])
    (hfuel : l.length ≤ fuel) (hlinks : Links r.heap before r.head l)
    (hn : (l.map Prod.fst).Nodup) (hhead : r.head ∉ l.tail.map Prod.fst)
    (hpos : ∀ a ∈ l.map Prod.fst, 0 < a) (honly : ∀ a n, r.heap a = some n → a ∈ l.map Prod.fst) :
    ∃ r', freeFrom fuel r (first 0 l) = some r' ∧ r'.fresh = r.fresh ∧ ∀ a, r'.heap a = none := by
  -- the piece is what is left to free; the head was freed first, but its address stays
  induction l generalizing r before fuel with
  | nil => exact absurd rfl hl
  | cons x l ih =>
    obtain ⟨fuel, rfl⟩ : ∃ k, fuel = k + 1 := ⟨fuel - 1, by simp at hfuel; omega⟩
    rw [List.map_cons, List.nodup_cons] at hn
    have hx : ¬ x.1 = 0 := Nat.pos_iff_ne_zero.mp (hpos x.1 List.mem_cons_self)
    have hfree : r.free x.1 = some { r with heap := Function.update r.heap x.1 none } := by
      rw [free, if_neg hx, hlinks.1]
      rfl
    have honly' : ∀ a n, Function.update r.heap x.1 none a = some n → a ∈ l.map Prod.fst := by
      intro a n ha
      by_cases hax : a = x.1
      · subst hax
        cases (Function.update_self x.1 none r.heap).symm.trans ha
      · rw [Function.update_of_ne hax] at ha
        exact (List.mem_cons.mp (honly a n ha)).resolve_left hax
    rw [first_cons, freeFrom, hlinks.1]
    simp only [Option.bind_eq_bind, Option.bind_some, hfree]
    cases l with
    | nil =>
      rw [first_nil, if_pos rfl]
      refine ⟨_, rfl, rfl, ?_⟩
      intro a
      apply Option.eq_none_iff_forall_not_mem.mpr
      intro n hn
      cases honly' a n hn
    | cons y l =>
      have hyhead : ¬ y.1 = r.head := fun hy => hhead (hy ▸ List.mem_cons_self)
      rw [first_cons, if_neg hyhead]
      refine ih (r := { r with heap := Function.update r.heap x.1 none }) (List.cons_ne_nil y l)
        (Nat.le_of_succ_le_succ hfuel) (hlinks.2.update hn.1 none) hn.2 ?_ ?_ honly'
      · exact fun hmem => hhead (List.mem_cons_of_mem _ hmem)
      · exact fun a ha => hpos a (List.mem_cons_of_mem _ ha)

namespace IsRing

variable {r : CircList α} {l l' : List (Nat × α)} {x : Nat × α}

/-- All nodes are freed. -/
theorem clear (h : IsRing r l) : ∃ r', r.clear = some r' ∧ IsRing r' [] := by
  cases l with
  | nil =>
    have hhead : r.head = 0 := h.head
    refine ⟨r, ?_, h⟩
    rw [CircList.clear, if_pos hhead]
  | cons x l =>
    obtain ⟨hhead, hne⟩ := h.head_pos
    have hn := h.nodup
    rw [List.map_cons, List.nodup_cons] at hn
    have hlinks : Links r.heap (last 0 (x :: l)) r.head (x :: l) := hhead ▸ h.links
    obtain ⟨r', hrun, hfresh, hnone⟩ := freeFrom_eq (List.cons_ne_nil x l) h.length_le hlinks
      h.nodup (hhead ▸ hn.1) (fun a ha => (h.bound a ha).1) h.only
    refine ⟨{ r' with head := 0 }, ?_, ?_⟩
    · rw [first_cons, ← hhead] at hrun
      rw [CircList.clear, if_neg hne, hrun]
      rfl
    · refine ⟨rfl, trivial, List.nodup_nil, ?_, ?_, by show 0 < r'.fresh; rw [hfresh]; exact h.pos⟩
      · intro a n ha
        cases (hnone a).symm.trans ha
      · intro a ha
        cases ha

end IsRing

/-- `f` on the value of a node. -/
def onVal (f : α → σ → σ × α) (x : Nat × α) (s : σ) : σ × (Nat × α) :=
  ((f x.2 s).1, (x.1, (f x.2 s).2))

theorem mapAccumr_cons {β γ : Type u} (f : α → γ → γ × β) (x : α) (l : List α) (s : γ) :
    (x :: l).mapAccumr f s =
      ((f x (l.mapAccumr f s).1).1, (f x (l.mapAccumr f s).1).2 :: (l.mapAccumr f s).2) :=
  rfl

theorem mapAccumr_concat {β γ : Type u} (f : α → γ → γ × β) (l : List α) (x : α) (s : γ) :
    (l ++ [x]).mapAccumr f s =
      ((l.mapAccumr f (f x s).1).1, (l.mapAccumr f (f x s).1).2 ++ [(f x s).2]) := by
  induction l with
  | nil => rfl
  | cons y l ih => simp only [List.cons_append, mapAccumr_cons, ih]

theorem IsRing.setVal {r : CircList α} {l l' : List (Nat × α)} {x : Nat × α}
    (h : IsRing r (l ++ x :: l')) (v : α) :
    ∃ r', r.modify x.1 (fun n => { n with val := v }) = some r' ∧
      IsRing r' (l ++ (x.1, v) :: l') := by
  have hmap : (l ++ (x.1, v) :: l').map Prod.fst = (l ++ x :: l').map Prod.fst := by simp
  obtain ⟨r', hrun, he, hlinks⟩ := h.links.setVal h.nodup v
  refine ⟨r', hrun, ?_⟩
  refine ⟨?_, ?_, hmap ▸ h.nodup, ?_, ?_, he.fresh ▸ h.pos⟩
  · rw [he.head, h.head, first_append, first_append]
    rfl
  · rw [first_append, last_append] at hlinks ⊢
    exact hlinks
  · intro a n ha
    rw [hmap]
    by_cases hax : a = x.1
    · rw [hax]
      simp
    · exact h.only a n (he.other a hax ▸ ha)
  · rw [hmap, he.fresh]
    exact h.bound

/-- The nodes of `l` are visited from the last one to the head. -/
theorem IsRing.walkBack (f : α → σ → σ × α) {l : List (Nat × α)} (hl : l ≠ []) {r : CircList α}
    {l' : List (Nat × α)} {fuel : Nat} (h : IsRing r (l ++ l')) (hfuel : l.length ≤ fuel) (s : σ) :
    ∃ r', CircList.walkBack f fuel r (last 0 l) s = some (r', (l.mapAccumr (onVal f) s).1) ∧
      IsRing r' ((l.mapAccumr (onVal f) s).2 ++ l') := by
  -- the nodes visited move from the end of `l` to the front of `l'`
  induction l using List.reverseRecOn generalizing r l' fuel s with
  | nil => exact absurd rfl hl
  | append_singleton t x ih =>
    obtain ⟨fuel, rfl⟩ : ∃ k, fuel = k + 1 := ⟨fuel - 1, by simp at hfuel; omega⟩
    rw [List.append_assoc, List.singleton_append] at h
    obtain ⟨r₁, hrun, hring⟩ := h.setVal (f x.2 s).2
    rw [last_append, mapAccumr_concat]
    rw [last_cons, last_nil, CircList.walkBack, h.links.heap_eq]
    simp only [Option.bind_eq_bind, Option.bind_some, hrun]
    have hhead := hring.head
    rw [first_append, first_cons] at hhead
    cases t with
    | nil =>
      rw [first_nil] at hhead
      rw [if_pos hhead.symm]
      exact ⟨r₁, rfl, hring⟩
    | cons y t =>
      have hn := h.nodup
      rw [List.cons_append, List.map_cons, List.nodup_cons] at hn
      have hxy : ¬ x.1 = r₁.head := by
        rw [hhead, first_cons]
        intro hxy
        exact hn.1 (by simp [← hxy])
      rw [if_neg hxy]
      obtain ⟨r', hwalk, hring'⟩ := ih (List.cons_ne_nil y t) hring
        (by simp at hfuel ⊢; omega) (f x.2 s).1
      refine ⟨r', hwalk, ?_⟩
      rw [List.append_assoc]
      exact hring'

/-! ### Reading a ring -/

theorem readFrom_eq {r : CircList α} {l : List (Nat × α)} {before fuel : Nat} (hl : l ≠ [])
    (hfuel : l.length ≤ fuel) (hlinks : Links r.heap before r.head l)
    (hhead : r.head ∉ l.tail.map Prod.fst) :
    readFrom fuel r (first 0 l) = some (l.map Prod.snd) := by
  induction l generalizing before fuel with
  | nil => exact absurd rfl hl
  | cons x l ih =>
    obtain ⟨fuel, rfl⟩ : ∃ k, fuel = k + 1 := ⟨fuel - 1, by simp at hfuel; omega⟩
    rw [first_cons, readFrom, hlinks.1]
    simp only [Option.bind_eq_bind, Option.bind_some]
    cases l with
    | nil =>
      rw [first_nil, if_pos rfl]
      rfl
    | cons y l =>
      have hyhead : ¬ y.1 = r.head := fun hy => hhead (hy ▸ List.mem_cons_self)
      have hrest := ih (List.cons_ne_nil y l) (Nat.le_of_succ_le_succ hfuel) hlinks.2
        fun hmem => hhead (List.mem_cons_of_mem _ hmem)
      rw [first_cons] at hrest
      rw [first_cons, if_neg hyhead, hrest]
      rfl

namespace IsRing

variable {r : CircList α} {l : List (Nat × α)}

theorem toList (h : IsRing r l) : r.toList = some (l.map Prod.snd) := by
  cases l with
  | nil =>
    have hhead : r.head = 0 := h.head
    rw [CircList.toList, if_pos hhead]
    rfl
  | cons x l =>
    obtain ⟨hhead, hne⟩ := h.head_pos
    have hn := h.nodup
    rw [List.map_cons, List.nodup_cons] at hn
    have hlinks : Links r.heap (last 0 (x :: l)) r.head (x :: l) := hhead ▸ h.links
    rw [CircList.toList, if_neg hne, ← readFrom_eq (List.cons_ne_nil x l) h.length_le hlinks (hhead ▸ hn.1),
      first_cons, hhead]

/-- The links of a ring agree, also across its ends. -/
theorem linked (h : IsRing r l) : r.Linked := by
  intro a n ha
  obtain ⟨x, hx, rfl⟩ := List.mem_map.mp (h.only a n ha)
  obtain ⟨t, u, rfl⟩ := List.append_of_mem hx
  have hlinks := h.links
  have hne : t ++ x :: u ≠ [] := by simp
  obtain ⟨hleft, -, hright⟩ := links_append.mp hlinks
  rw [hlinks.heap_eq] at ha
  rw [← Option.some.inj ha]
  refine ⟨?_, ?_⟩
  · by_cases hu : u = []
    · -- the last node: its next is the head
      obtain ⟨p, hp, hprev⟩ := hlinks.at_first 0 hne
      subst hu
      exact ⟨p, hp, hprev.trans (by rw [last_append]; rfl)⟩
    · exact hright.at_first _ hu
  · by_cases ht : t = []
    · -- the head: its previous is the last node
      obtain ⟨p, hp, hnext⟩ := hlinks.at_last 0 hne
      subst ht
      exact ⟨p, hp, hnext⟩
    · exact hleft.at_last _ ht

end IsRing

end CircList

end Lib
