/-
OrbitStream/Lib/Memory.lean

A memory of bytes, for code that reads and writes a buffer at computed offsets.

Numbers are stored with the most significant byte first.  An access fails if one of
its bytes is not mapped; what is mapped is a parameter, so that the same code can be
run on a buffer with a guarded end and on a memory that answers everywhere.
`Touches` says of a computation which fields it accesses and what it yields: it fails
exactly if one of the fields is not mapped.
-/
import Mathlib.Algebra.Group.Nat.Defs
import Mathlib.Data.List.Induction
import OrbitStream.Lib.Run

namespace Lib

universe u

/-- A memory of bytes. -/
abbrev Mem := Nat → UInt8

namespace Mem

/-- The number in the `w` bytes from `i` on. -/
def getBe (m : Mem) (i : Nat) : Nat → Nat
  | 0 => 0
  | w + 1 => 256 * m.getBe i w + (m (i + w)).toNat

/-- The lowest `w` bytes of `v` are written from `i` on. -/
def putBe (m : Mem) (i w v : Nat) : Mem := fun a =>
  if i ≤ a ∧ a < i + w then UInt8.ofNat (v / 256 ^ (i + w - 1 - a)) else m a

/-- The lowest `w` bytes of `v`, as they are written. -/
def toBe : Nat → Nat → List UInt8
  | 0, _ => []
  | w + 1, v => toBe w (v / 256) ++ [UInt8.ofNat v]

/-- Bytes at the start of a memory. -/
def lay (bytes : List UInt8) (m : Mem) : Mem := fun a => bytes.getD a (m a)

/-- The memory holds the bytes from `i` on. -/
def Holds (m : Mem) : Nat → List UInt8 → Prop
  | _, [] => True
  | i, b :: bytes => m i = b ∧ Holds m (i + 1) bytes

variable {m m' : Mem} {i j w : Nat}

theorem getBe_lt (m : Mem) (i w : Nat) : m.getBe i w < 256 ^ w := by
  induction w with
  | zero => simp [getBe]
  | succ w ih =>
    have hb := (m (i + w)).toNat_lt
    rw [getBe, Nat.pow_succ]
    omega

theorem getBe_congr (h : ∀ a, i ≤ a → a < i + w → m a = m' a) :
    m.getBe i w = m'.getBe i w := by
  induction w with
  | zero => rfl
  | succ w ih =>
    rw [getBe, getBe, ih fun a ha hlt => h a ha (by omega), h (i + w) (by omega) (by omega)]

theorem getBe_eq_zero (h : ∀ a, i ≤ a → a < i + w → m a = 0) : m.getBe i w = 0 := by
  induction w with
  | zero => rfl
  | succ w ih =>
    rw [getBe, ih fun a ha hlt => h a ha (by omega), h (i + w) (by omega) (by omega)]
    rfl

/-- A write changes nothing outside its field. -/
theorem putBe_of_outside {v a : Nat} (h : a < i ∨ i + w ≤ a) : m.putBe i w v a = m a := by
  rw [putBe, if_neg]
  omega

theorem getBe_putBe_of_disjoint {v w' : Nat} (h : j + w' ≤ i ∨ i + w ≤ j) :
    (m.putBe i w v).getBe j w' = m.getBe j w' := by
  apply getBe_congr
  intro a ha hlt
  exact putBe_of_outside (by omega)

theorem getBe_putBe (m : Mem) (i w v : Nat) : (m.putBe i w v).getBe i w = v % 256 ^ w := by
  induction w generalizing v with
  | zero => simp [getBe, Nat.mod_one]
  | succ w ih =>
    -- all bytes but the last are those of the quotient
    have hinit : (m.putBe i (w + 1) v).getBe i w = (m.putBe i w (v / 256)).getBe i w := by
      apply getBe_congr
      intro a ha hlt
      have hexp : i + (w + 1) - 1 - a = (i + w - 1 - a) + 1 := by omega
      rw [putBe, putBe, if_pos (by omega), if_pos ⟨ha, hlt⟩, hexp, Nat.pow_succ,
        Nat.mul_comm, Nat.div_div_eq_div_mul]
    have hlast : (m.putBe i (w + 1) v (i + w)).toNat = v % 256 := by
      have hexp : i + (w + 1) - 1 - (i + w) = 0 := by omega
      rw [putBe, if_pos (by omega), hexp, Nat.pow_zero, Nat.div_one]
      simp
    rw [getBe, hinit, ih, hlast, Nat.pow_succ, Nat.mul_comm (256 ^ w) 256, Nat.mod_mul]
    omega

theorem getBe_putBe_of_lt {v : Nat} (h : v < 256 ^ w) : (m.putBe i w v).getBe i w = v := by
  rw [getBe_putBe, Nat.mod_eq_of_lt h]

/-! #### Lists of words -/

/-- Numbers of four bytes are written at offsets from `off`. -/
def putWords (m : Mem) (off : Nat) (ws : List (Nat × Nat)) : Mem :=
  ws.foldl (fun m w => m.putBe (off + w.1) 4 w.2) m

/-- The byte that the words leave at an address, if they cover it. -/
def patch (off : Nat) (ws : List (Nat × Nat)) (a : Nat) : Option UInt8 :=
  ws.foldl (fun o w => if off + w.1 ≤ a ∧ a < off + w.1 + 4
    then some (UInt8.ofNat (w.2 / 256 ^ (off + w.1 + 4 - 1 - a))) else o) none

theorem putWords_append (m : Mem) (off : Nat) (ws ws' : List (Nat × Nat)) :
    m.putWords off (ws ++ ws') = (m.putWords off ws).putWords off ws' := List.foldl_append

theorem putWords_apply (m : Mem) (off : Nat) (ws : List (Nat × Nat)) (a : Nat) :
    m.putWords off ws a = (patch off ws a).getD (m a) := by
  induction ws using List.reverseRecOn with
  | nil => rfl
  | append_singleton ws w ih =>
    rw [putWords_append, patch, List.foldl_concat]
    show (m.putWords off ws).putBe (off + w.1) 4 w.2 a = _
    by_cases hcover : off + w.1 ≤ a ∧ a < off + w.1 + 4
    · rw [putBe, if_pos hcover, if_pos hcover]
      rfl
    · rw [putBe, if_neg hcover, if_neg hcover, ih]
      rfl

theorem putWords_of_outside {off a : Nat} {ws : List (Nat × Nat)}
    (h : ∀ w ∈ ws, a < off + w.1 ∨ off + w.1 + 4 ≤ a) : m.putWords off ws a = m a := by
  induction ws generalizing m with
  | nil => rfl
  | cons w ws ih =>
    rw [List.forall_mem_cons] at h
    exact (ih h.2).trans (putBe_of_outside h.1)

@[simp] theorem length_toBe (w v : Nat) : (toBe w v).length = w := by
  induction w generalizing v with
  | zero => rfl
  | succ w ih => simp [toBe, ih]

theorem holds_append {bs cs : List UInt8} :
    m.Holds i (bs ++ cs) ↔ m.Holds i bs ∧ m.Holds (i + bs.length) cs := by
  induction bs generalizing i with
  | nil => simp [Holds]
  | cons b bs ih =>
    have hshift : i + 1 + bs.length = i + (b :: bs).length := by
      rw [List.length_cons]
      omega
    rw [List.cons_append, Holds, Holds, ih, hshift, and_assoc]

theorem Holds.congr {bs : List UInt8} (h : m.Holds i bs)
    (hm : ∀ k < bs.length, m' (i + k) = m (i + k)) : m'.Holds i bs := by
  induction bs generalizing i with
  | nil => trivial
  | cons b bs ih =>
    rw [List.length_cons] at hm
    refine ⟨(hm 0 (by omega)).trans h.1, ih h.2 ?_⟩
    intro k hk
    have hshift : i + 1 + k = i + (k + 1) := by omega
    rw [hshift]
    exact hm (k + 1) (by omega)

theorem Holds.getD {bs : List UInt8} (h : m.Holds i bs) {k : Nat} (hk : k < bs.length) :
    m (i + k) = bs.getD k 0 := by
  induction bs generalizing i k with
  | nil => exact absurd hk (Nat.not_lt_zero k)
  | cons b bs ih =>
    rcases k with - | k
    · exact h.1
    · have hshift : i + (k + 1) = i + 1 + k := by omega
      rw [hshift, ih h.2 (Nat.lt_of_succ_lt_succ hk), List.getD_cons_succ]

/-- A byte is written to the memory and to the list. -/
theorem Holds.set {bs : List UInt8} (h : m.Holds i bs) (k v : Nat) :
    (m.putBe (i + k) 1 v).Holds i (bs.set k (UInt8.ofNat v)) := by
  induction bs generalizing i k with
  | nil => trivial
  | cons b bs ih =>
    rcases k with - | k
    · refine ⟨?_, h.2.congr ?_⟩
      · rw [putBe, if_pos (by omega)]
        simp
      · intro k hk
        exact putBe_of_outside (Or.inr (by omega))
    · have hshift : i + (k + 1) = i + 1 + k := by omega
      refine ⟨(putBe_of_outside (Or.inl (by omega))).trans h.1, ?_⟩
      rw [hshift]
      exact ih h.2 k

/-- The bytes are copied to `i`. -/
def copy (m : Mem) (i : Nat) (bs : List UInt8) : Mem := fun a =>
  if i ≤ a ∧ a < i + bs.length then bs.getD (a - i) 0 else m a

theorem copy_of_outside {bs : List UInt8} {a : Nat} (h : a < i ∨ i + bs.length ≤ a) :
    m.copy i bs a = m a := if_neg (by omega)

/-- The `n` bytes from `i` on. -/
def read (m : Mem) (i n : Nat) : List UInt8 := (List.range n).map fun k => m (i + k)

theorem read_succ (m : Mem) (i n : Nat) : m.read i (n + 1) = m i :: m.read (i + 1) n := by
  rw [read, List.range_succ_eq_map, List.map_cons, List.map_map]
  refine congrArg (m i :: ·) (List.map_congr_left ?_)
  intro k _
  show m (i + (k + 1)) = m (i + 1 + k)
  rw [Nat.add_right_comm, Nat.add_assoc]

theorem holds_iff_read {bs : List UInt8} : m.Holds i bs ↔ m.read i bs.length = bs := by
  induction bs generalizing i with
  | nil => exact ⟨fun _ => rfl, fun _ => trivial⟩
  | cons b bs ih => rw [Holds, ih, List.length_cons, read_succ, List.cons.injEq]

theorem holds_copy (m : Mem) (i : Nat) (bs : List UInt8) : (m.copy i bs).Holds i bs := by
  rw [holds_iff_read]
  apply List.ext_getElem
  · simp [read]
  · intro k hk hk'
    have hshift : i + k - i = k := by omega
    simp only [read, List.getElem_map, List.getElem_range]
    rw [copy, if_pos (by omega), hshift, List.getD_eq_getElem?_getD, List.getElem?_eq_getElem hk',
      Option.getD_some]

theorem holds_lay (bytes : List UInt8) (m : Mem) : (lay bytes m).Holds 0 bytes := by
  have hsuffix : ∀ pre post, bytes = pre ++ post → (lay bytes m).Holds pre.length post := by
    intro pre post
    induction post generalizing pre with
    | nil => exact fun _ => trivial
    | cons b post ih =>
      intro heq
      refine ⟨?_, ?_⟩
      · rw [lay, heq]
        simp
      · have hrest := ih (pre ++ [b]) (by rw [heq]; simp)
        rwa [List.length_append] at hrest
  exact hsuffix [] bytes rfl

theorem holds_toBe (m : Mem) (i w : Nat) : m.Holds i (toBe w (m.getBe i w)) := by
  induction w with
  | zero => trivial
  | succ w ih =>
    have hb := (m (i + w)).toNat_lt
    have hinit : (256 * m.getBe i w + (m (i + w)).toNat) / 256 = m.getBe i w := by omega
    rw [Mem.getBe, toBe, holds_append, hinit, length_toBe]
    refine ⟨ih, ?_, trivial⟩
    apply UInt8.toNat_inj.mp
    simp only [UInt8.toNat_ofNat']
    omega

/-- A number that was written as bytes is read back. -/
theorem Holds.getBe {v : Nat} (h : m.Holds i (toBe w v)) : m.getBe i w = v % 256 ^ w := by
  induction w generalizing v with
  | zero => simp [Mem.getBe, Nat.mod_one]
  | succ w ih =>
    rw [toBe, holds_append, length_toBe] at h
    have hbyte : (m (i + w)).toNat = v % 256 := by
      rw [h.2.1]
      simp
    rw [Mem.getBe, ih h.1, hbyte, Nat.pow_succ, Nat.mul_comm (256 ^ w) 256, Nat.mod_mul]
    omega

end Mem

/-! ### Accesses -/

/-- All `w` bytes from `i` on are mapped. -/
def Mapped (ok : Nat → Bool) (i w : Nat) : Prop := ∀ k < w, ok (i + k) = true

instance (ok : Nat → Bool) (i w : Nat) : Decidable (Mapped ok i w) :=
  inferInstanceAs (Decidable (∀ k < w, ok (i + k) = true))

/-- A buffer of `len` bytes with a guarded end. -/
def below (len : Nat) : Nat → Bool := fun a => decide (a < len)

/-- A memory that answers everywhere. -/
def everywhere : Nat → Bool := fun _ => true

theorem mapped_below {len i w : Nat} : Mapped (below len) i w ↔ w = 0 ∨ i + w ≤ len := by
  constructor
  · intro h
    rcases w with - | w
    · exact Or.inl rfl
    · have hlast := h w (Nat.lt_succ_self w)
      simp only [below, decide_eq_true_eq] at hlast
      omega
  · intro h k hk
    simp only [below, decide_eq_true_eq]
    omega

theorem mapped_everywhere (i w : Nat) : Mapped everywhere i w := fun _ _ => rfl

/-- The number in a field; the address of a field that is not mapped is the error. -/
def load (ok : Nat → Bool) (m : Mem) (i w : Nat) : Except Nat Nat :=
  if Mapped ok i w then .ok (m.getBe i w) else .error i

def store (ok : Nat → Bool) (m : Mem) (i w v : Nat) : Except Nat Mem :=
  if Mapped ok i w then .ok (m.putBe i w v) else .error i

/-- The computation yields `v` if the fields (start and width, from `off` on) are
mapped, and fails otherwise. -/
def Touches {α : Type u} (ok : Nat → Bool) (off : Nat) (fields : List (Nat × Nat))
    (x : Except Nat α) (v : α) : Prop :=
  Checked x (∀ f ∈ fields, Mapped ok (off + f.1) f.2) (· = v)

namespace Touches

variable {α β : Type u} {ok : Nat → Bool} {off : Nat} {fields fields' : List (Nat × Nat)}
  {x : Except Nat α} {v : α}

theorem pure (v : α) : Touches ok off [] (Except.ok v) v where
  ok _ := ⟨v, rfl, rfl⟩
  fails h := absurd (fun f hf => by simp at hf) h

theorem bind {g : α → Except Nat β} {w : β} (hx : Touches ok off fields x v)
    (hg : Touches ok off fields' (g v) w) : Touches ok off (fields ++ fields') (x >>= g) w := by
  refine (Checked.bind hx fun s hs => ?_).congr List.forall_mem_append.symm
  rw [hs]
  exact hg

theorem map {g : α → β} (hx : Touches ok off fields x v) :
    Touches ok off fields (x >>= fun a => Except.ok (g a)) (g v) :=
  Checked.map hx fun _ hs => congrArg g hs

theorem ite {c : Prop} [Decidable c] {y : Except Nat α} {v' : α}
    (hx : Touches ok off fields x v) (hy : Touches ok off fields' y v') :
    Touches ok off (if c then fields else fields') (if c then x else y) (if c then v else v') := by
  by_cases hc : c
  · rw [if_pos hc, if_pos hc, if_pos hc]
    exact hx
  · rw [if_neg hc, if_neg hc, if_neg hc]
    exact hy

theorem load (m : Mem) (i w : Nat) :
    Touches ok off [(i, w)] (load ok m (off + i) w) (m.getBe (off + i) w) where
  ok h := ⟨_, if_pos (h (i, w) (by simp)), rfl⟩
  fails h := ⟨_, if_neg fun hmap => h fun f hf => by rwa [List.mem_singleton.mp hf]⟩

theorem store (m : Mem) (i w v : Nat) :
    Touches ok off [(i, w)] (store ok m (off + i) w v) (m.putBe (off + i) w v) where
  ok h := ⟨_, if_pos (h (i, w) (by simp)), rfl⟩
  fails h := ⟨_, if_neg fun hmap => h fun f hf => by rwa [List.mem_singleton.mp hf]⟩

/-- A loop touches what its rounds touch. -/
theorem foldlM {γ : Type*} {body : α → γ → Except Nat α} {fieldsOf : γ → List (Nat × Nat)}
    {next : α → γ → α} (h : ∀ s c, Touches ok off (fieldsOf c) (body s c) (next s c)) (l : List γ)
    (s : α) : Touches ok off (l.flatMap fieldsOf) (l.foldlM body s) (l.foldl next s) := by
  induction l generalizing s with
  | nil => exact Touches.pure s
  | cons c l ih => exact (h s c).bind (ih (next s c))

theorem eq_ok (h : Touches ok off fields x v)
    (hf : ∀ f ∈ fields, Mapped ok (off + f.1) f.2) : x = .ok v := by
  obtain ⟨s, hx, rfl⟩ := h.ok hf
  exact hx

end Touches

end Lib
