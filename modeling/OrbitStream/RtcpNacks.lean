/-
OrbitStream/RtcpNacks.lean

The encoder of generic NACKs, `janus_rtcp_nacks` (`rtp/janus_rtcp_processor.cc`), and
`SendRtcpNackList` of `rtp/nack_processor.cc`, which relays its result.

The encoder sorts the sequence numbers as plain integers and goes through them once: a
number within 16 of the packet of the current block sets a bit there, a number further
on opens a new block.  `blocks` is this grouping without the buffer.  It never wraps, so
that decoding gives back the numbers in ascending order without duplicates
(`nacks_round_trip`), and how many blocks there are decides whether the buffer suffices
(`send_nack_list_iff`).
-/
import Mathlib.Data.List.Sort
import Mathlib.Data.List.Dedup
import Mathlib.Data.Nat.Bitwise
import OrbitStream.RtcpDispatch
import OrbitStream.RtcpWalk

namespace Orbit.Janus

open Lib

/-! ### The encoder -/

/-- The loop of `janus_rtcp_nacks` over the sorted numbers: the return value and the
buffer.  The current block starts at word `words`. -/
def nacksLoop (len : Nat) : List UInt16 → UInt16 → Nat → Mem → Int × Mem
  | [], _, words, m => (words * 4 + 4, m.putBe 2 2 words)
  | npid :: nacks, pid, words, m =>
    if (npid.toNat : Int) - pid.toNat < 1 then nacksLoop len nacks pid words m
    else if (npid.toNat : Int) - pid.toNat > 16 then
      if len < (words + 1) * 4 + 4 then (-1, m)
      else nacksLoop len nacks npid (words + 1) (m.putBe ((words + 1) * 4) 2 npid.toNat)
    else
      nacksLoop len nacks pid words (m.putBe (words * 4 + 2) 2
        (m.getBe (words * 4 + 2) 2 ||| 1 <<< (npid.toNat - pid.toNat - 1)))

/-- `memset(packet, 0, len)`. -/
def zeroed (m : Mem) (len : Nat) : Mem := fun a => if a < len then 0 else m a

/-- `sort_asc` as an order. -/
def sortAsc (a b : UInt16) : Prop := a.toNat ≤ b.toNat

instance (a b : UInt16) : Decidable (sortAsc a b) := inferInstanceAs (Decidable (_ ≤ _))

instance : IsTrans UInt16 sortAsc := ⟨fun _ _ _ => Nat.le_trans⟩

instance : Std.Total sortAsc := ⟨fun a b => Nat.le_total a.toNat b.toNat⟩

/-- `g_slist_sort(nacks, sort_asc)`. -/
def sorted (nacks : List UInt16) : List UInt16 := nacks.insertionSort sortAsc

/-- `janus_rtcp_nacks`: the return value and the buffer. -/
def janusRtcpNacks (m : Mem) (len : Nat) (nacks : List UInt16) : Int × Mem :=
  if len < 16 then (-1, m)
  else match sorted nacks with
    | [] => (-1, m)
    | pid :: nacks =>
      nacksLoop len nacks pid 3
        ((((zeroed m len).putBe 0 1 129).putBe 1 1 rtcpRtpfb).putBe 12 2 pid.toNat)

/-! ### Blocks -/

/-- The numbers grouped into blocks of a packet and a bitmap, the current block first. -/
def blocks (pid blp : Nat) : List Nat → List (Nat × Nat)
  | [] => [(pid, blp)]
  | n :: ns =>
    if n ≤ pid then blocks pid blp ns
    else if 16 < n - pid then (pid, blp) :: blocks n 0 ns
    else blocks pid (blp ||| 1 <<< (n - pid - 1)) ns

/-- The blocks for a list of sequence numbers. -/
def nackBlocks (nacks : List UInt16) : List (Nat × Nat) :=
  match (sorted nacks).map UInt16.toNat with
  | [] => []
  | pid :: ns => blocks pid 0 ns

section

variable {pid blp n v : Nat} {ns : List Nat}

theorem blocks_ne_nil (pid blp : Nat) (ns : List Nat) : blocks pid blp ns ≠ [] := by
  induction ns generalizing pid blp with
  | nil => exact List.cons_ne_nil _ _
  | cons n ns ih =>
    rw [blocks]
    split
    · exact ih pid blp
    · split
      · exact List.cons_ne_nil _ _
      · exact ih pid _

/-- The packets of two blocks are at least 17 apart. -/
theorem length_blocks_le (blp hi : Nat) (hpid : pid ≤ hi) (hns : ∀ n ∈ ns, n ≤ hi) :
    pid + 17 * (blocks pid blp ns).length ≤ hi + 17 := by
  induction ns generalizing pid blp with
  | nil =>
    simp only [blocks, List.length_singleton]
    omega
  | cons n ns ih =>
    rw [List.forall_mem_cons] at hns
    rw [blocks]
    split
    · exact ih blp hpid hns.2
    · split
      · -- a new block opens at least 17 behind the last one
        have hrest := ih 0 hns.1 hns.2
        rw [List.length_cons]
        omega
      · exact ih _ hpid hns.2

theorem mem_entrySeqs : v ∈ entrySeqs pid blp ↔
    v = pid ∨ (pid < v ∧ v ≤ pid + 16 ∧ blp.testBit (v - pid - 1) = true) := by
  rw [entrySeqs, List.mem_cons, List.mem_map]
  refine or_congr Iff.rfl ?_
  constructor
  · rintro ⟨j, hj, rfl⟩
    obtain ⟨hrange, hbit⟩ := List.mem_filter.mp hj
    have hlt := List.mem_range.mp hrange
    refine ⟨by omega, by omega, ?_⟩
    rwa [show pid + j + 1 - pid - 1 = j by omega]
  · rintro ⟨hlo, hhi, hbit⟩
    exact ⟨v - pid - 1, List.mem_filter.mpr ⟨List.mem_range.mpr (by omega), hbit⟩, by omega⟩

/-- Setting a bit adds its number. -/
theorem mem_entrySeqs_or (hlo : pid < n) (hhi : n ≤ pid + 16) :
    v ∈ entrySeqs pid (blp ||| 1 <<< (n - pid - 1)) ↔ v ∈ entrySeqs pid blp ∨ v = n := by
  rw [mem_entrySeqs, mem_entrySeqs, Nat.testBit_or, Bool.or_eq_true, Nat.one_shiftLeft,
    Nat.testBit_two_pow]
  constructor
  · rintro (rfl | ⟨h₁, h₂, hbit | hbit⟩)
    · exact Or.inl (Or.inl rfl)
    · exact Or.inl (Or.inr ⟨h₁, h₂, hbit⟩)
    · exact Or.inr (by have := of_decide_eq_true hbit; omega)
  · rintro ((rfl | ⟨h₁, h₂, hbit⟩) | rfl)
    · exact Or.inl rfl
    · exact Or.inr ⟨h₁, h₂, Or.inl hbit⟩
    · exact Or.inr ⟨hlo, hhi, Or.inr (decide_eq_true rfl)⟩

/-- The numbers that the blocks stand for. -/
theorem mem_blocks (hs : ns.Pairwise (· ≤ ·)) (hge : ∀ n ∈ ns, pid ≤ n) :
    v ∈ (blocks pid blp ns).flatMap (fun b => entrySeqs b.1 b.2) ↔
      v ∈ entrySeqs pid blp ∨ v ∈ ns := by
  induction ns generalizing pid blp with
  | nil => simp [blocks]
  | cons n ns ih =>
    rw [List.pairwise_cons] at hs
    rw [List.forall_mem_cons] at hge
    rw [blocks, List.mem_cons]
    split
    · next hle =>
      -- a duplicate of the packet of the block
      obtain rfl : n = pid := Nat.le_antisymm hle hge.1
      rw [ih hs.2 hge.2]
      constructor
      · rintro (h | h)
        · exact Or.inl h
        · exact Or.inr (Or.inr h)
      · rintro (h | rfl | h)
        · exact Or.inl h
        · exact Or.inl List.mem_cons_self
        · exact Or.inr h
    · next hlt =>
      split
      · have hroot : v ∈ entrySeqs n 0 ↔ v = n := by
          rw [mem_entrySeqs]
          simp
        rw [List.flatMap_cons, List.mem_append, ih hs.2 hs.1, hroot]
      · next hnear => rw [ih hs.2 hge.2, mem_entrySeqs_or (by omega) (by omega), or_assoc]

theorem pairwise_entrySeqs (pid blp : Nat) : (entrySeqs pid blp).Pairwise (· < ·) := by
  rw [entrySeqs, List.pairwise_cons]
  refine ⟨?_, ?_⟩
  · intro v hv
    obtain ⟨j, -, rfl⟩ := List.mem_map.mp hv
    omega
  · apply List.Pairwise.map
    · intro i j hij
      exact Nat.add_lt_add_right (Nat.add_lt_add_left hij pid) 1
    · exact List.Pairwise.filter _ List.pairwise_lt_range

/-- The blocks stand for the numbers in ascending order. -/
theorem pairwise_blocks (hs : ns.Pairwise (· ≤ ·)) (hge : ∀ n ∈ ns, pid ≤ n) :
    ((blocks pid blp ns).flatMap fun b => entrySeqs b.1 b.2).Pairwise (· < ·) := by
  induction ns generalizing pid blp with
  | nil =>
    rw [blocks, List.flatMap_singleton]
    exact pairwise_entrySeqs pid blp
  | cons n ns ih =>
    rw [List.pairwise_cons] at hs
    rw [List.forall_mem_cons] at hge
    rw [blocks]
    split
    · exact ih hs.2 hge.2
    · split
      · next hfar =>
        rw [List.flatMap_cons, List.pairwise_append]
        refine ⟨pairwise_entrySeqs pid blp, ih hs.2 hs.1, ?_⟩
        intro u hu v hv
        -- the current block ends at `pid + 16`, and the next one starts behind it
        have hend : u ≤ pid + 16 := by
          rcases mem_entrySeqs.mp hu with rfl | ⟨-, hle, -⟩
          · omega
          · exact hle
        have hstart : n ≤ v := by
          rcases (mem_blocks hs.2 hs.1).mp hv with h | h
          · rcases mem_entrySeqs.mp h with rfl | ⟨hlt, -, -⟩
            · exact Nat.le_refl v
            · omega
          · exact hs.1 v h
        omega
      · exact ih hs.2 hge.2

end

/-! ### The encoder and the blocks -/

def blockBytes (b : Nat × Nat) : List UInt8 := Mem.toBe 2 b.1 ++ Mem.toBe 2 b.2

/-- What the loop leaves in the buffer behind the blocks that are complete. -/
structure Encoded (m m' : Mem) (words : Nat) (bs : List (Nat × Nat)) : Prop where
  blocks : m'.Holds (words * 4) (bs.flatMap blockBytes)
  length : m'.getBe 2 2 = (words + bs.length - 1) % 65536
  rest : ∀ a, a < words * 4 → a ≠ 2 → a ≠ 3 → m' a = m a

theorem holds_blockBytes {m : Mem} {i pid blp : Nat} (hpid : m.getBe i 2 = pid)
    (hblp : m.getBe (i + 2) 2 = blp) : m.Holds i (blockBytes (pid, blp)) := by
  subst hpid hblp
  rw [blockBytes, Mem.holds_append, Mem.length_toBe]
  exact ⟨Mem.holds_toBe m _ 2, Mem.holds_toBe m _ 2⟩

/-- The block before a new one stays as it is. -/
theorem Encoded.cons {m m' : Mem} {words pid npid : Nat} {bs : List (Nat × Nat)}
    (h : Encoded (m.putBe ((words + 1) * 4) 2 npid) m' (words + 1) bs) (hwords : 3 ≤ words)
    (hpid : m.getBe (words * 4) 2 = pid) :
    Encoded m m' words ((pid, m.getBe (words * 4 + 2) 2) :: bs) where
  blocks := by
    have hstart : words * 4 + (blockBytes (pid, m.getBe (words * 4 + 2) 2)).length =
        (words + 1) * 4 := by
      simp only [blockBytes, List.length_append, Mem.length_toBe]
      omega
    rw [List.flatMap_cons, Mem.holds_append, hstart]
    refine ⟨?_, h.blocks⟩
    -- the later blocks are written behind it
    apply (holds_blockBytes hpid rfl).congr
    intro k hk
    have hk4 : k < 4 := by simpa [blockBytes] using hk
    rw [h.rest _ (by omega) (by omega) (by omega)]
    exact Mem.putBe_of_outside (by omega)
  length := by
    rw [h.length, List.length_cons]
    congr 1
    omega
  rest a ha h2 h3 := by
    rw [h.rest a (by omega) h2 h3]
    exact Mem.putBe_of_outside (by omega)

/-- The bitmap of the current block may have changed before. -/
theorem Encoded.of_putBe {m m' : Mem} {words v : Nat} {bs : List (Nat × Nat)}
    (h : Encoded (m.putBe (words * 4 + 2) 2 v) m' words bs) : Encoded m m' words bs where
  blocks := h.blocks
  length := h.length
  rest a ha h2 h3 := (h.rest a ha h2 h3).trans (Mem.putBe_of_outside (by omega))

/-- The loop has encoded the blocks, or has failed since they do not fit. -/
def LoopDone (len : Nat) (m : Mem) (words : Nat) (bs : List (Nat × Nat)) (res : Int × Mem) : Prop :=
  if (words + bs.length) * 4 ≤ len then
    ∃ m', res = ((((words + bs.length) * 4 : Nat) : Int), m') ∧ Encoded m m' words bs
  else res.1 = -1

/-- What is done from a later block on is done from an earlier one on. -/
theorem LoopDone.imp {len : Nat} {m m₁ : Mem} {words words₁ : Nat} {bs bs₁ : List (Nat × Nat)}
    {res : Int × Mem} (h : LoopDone len m₁ words₁ bs₁ res)
    (hcount : words₁ + bs₁.length = words + bs.length)
    (himp : ∀ m', Encoded m₁ m' words₁ bs₁ → Encoded m m' words bs) :
    LoopDone len m words bs res := by
  rw [LoopDone, hcount] at h
  rw [LoopDone]
  split at h
  · next hle =>
    rw [if_pos hle]
    obtain ⟨m', hrun, henc⟩ := h
    exact ⟨m', hrun, himp m' henc⟩
  · next hgt =>
    rw [if_neg hgt]
    exact h

theorem nacksLoop_spec (len : Nat) (nacks : List UInt16) (pid : UInt16) (words : Nat) (m : Mem)
    (hwords : 3 ≤ words) (hlen : (words + 1) * 4 ≤ len) (hpid : m.getBe (words * 4) 2 = pid.toNat)
    (hzero : ∀ a, (words + 1) * 4 ≤ a → a < len → m a = 0) {bs : List (Nat × Nat)}
    (hbs : bs = blocks pid.toNat (m.getBe (words * 4 + 2) 2) (nacks.map UInt16.toNat)) :
    LoopDone len m words bs (nacksLoop len nacks pid words m) := by
  induction nacks generalizing pid words m bs with
  | nil =>
    subst hbs
    rw [LoopDone, List.map_nil, blocks, List.length_singleton, if_pos hlen]
    refine ⟨m.putBe 2 2 words, ?_, ?_, ?_, ?_⟩
    · rw [nacksLoop]
      congr 1
      omega
    · rw [List.flatMap_singleton]
      apply (holds_blockBytes hpid rfl).congr
      intro k hk
      exact Mem.putBe_of_outside (Or.inr (by omega))
    · rw [Mem.getBe_putBe]
      rfl
    · intro a ha h2 h3
      exact Mem.putBe_of_outside (by omega)
  | cons npid nacks ih =>
    rw [List.map_cons, blocks] at hbs
    rw [nacksLoop]
    by_cases hdup : npid.toNat ≤ pid.toNat
    · rw [if_pos hdup] at hbs
      rw [if_pos (show (npid.toNat : Int) - pid.toNat < 1 by omega)]
      exact ih pid words m hwords hlen hpid hzero hbs
    rw [if_neg hdup] at hbs
    rw [if_neg (show ¬ (npid.toNat : Int) - pid.toNat < 1 by omega)]
    by_cases hfar : 16 < npid.toNat - pid.toNat
    · rw [if_pos hfar] at hbs
      rw [if_pos (show (npid.toNat : Int) - pid.toNat > 16 by omega)]
      have hpos : 0 < (blocks npid.toNat 0 (nacks.map UInt16.toNat)).length :=
        List.length_pos_iff.mpr (blocks_ne_nil _ _ _)
      by_cases hfit : len < (words + 1) * 4 + 4
      · -- no room for the block
        rw [if_pos hfit, LoopDone, if_neg ?_]
        rw [hbs, List.length_cons]
        omega
      · rw [if_neg hfit]
        -- the block starts in bytes that `memset` has cleared
        have hblp : (m.putBe ((words + 1) * 4) 2 npid.toNat).getBe ((words + 1) * 4 + 2) 2 = 0 := by
          rw [Mem.getBe_putBe_of_disjoint (by omega)]
          exact Mem.getBe_eq_zero fun a ha hlt => hzero a (by omega) (by omega)
        have hnext := ih npid (words + 1) (m.putBe ((words + 1) * 4) 2 npid.toNat) (by omega)
          (by omega) (Mem.getBe_putBe_of_lt npid.toNat_lt)
          (fun a ha hlt => (Mem.putBe_of_outside (by omega)).trans (hzero a (by omega) hlt))
          (by rw [hblp])
        have hcount : words + 1 + (blocks npid.toNat 0 (nacks.map UInt16.toNat)).length =
            words + bs.length := by
          rw [hbs, List.length_cons]
          omega
        exact hnext.imp hcount fun m' henc => hbs ▸ henc.cons hwords hpid
    · rw [if_neg hfar] at hbs
      rw [if_neg (show ¬ (npid.toNat : Int) - pid.toNat > 16 by omega)]
      -- the number is a bit of the current block
      have hbit : m.getBe (words * 4 + 2) 2 ||| 1 <<< (npid.toNat - pid.toNat - 1) < 256 ^ 2 := by
        have hlt : 2 ^ (npid.toNat - pid.toNat - 1) < 2 ^ 16 :=
          Nat.pow_lt_pow_right (by omega) (by omega)
        rw [Nat.one_shiftLeft]
        exact Nat.or_lt_two_pow (n := 16) (Mem.getBe_lt m _ 2) hlt
      have hsame := ih pid words (m.putBe (words * 4 + 2) 2
          (m.getBe (words * 4 + 2) 2 ||| 1 <<< (npid.toNat - pid.toNat - 1))) hwords hlen
        ((Mem.getBe_putBe_of_disjoint (by omega)).trans hpid)
        (fun a ha hlt => (Mem.putBe_of_outside (by omega)).trans (hzero a ha hlt))
        (hbs.trans (by rw [Mem.getBe_putBe_of_lt hbit]))
      exact hsame.imp rfl fun m' henc => henc.of_putBe

theorem blocks_lt {pid blp : Nat} {ns : List Nat} (hpid : pid < 65536) (hblp : blp < 65536)
    (hns : ∀ n ∈ ns, n < 65536) : ∀ b ∈ blocks pid blp ns, b.1 < 65536 ∧ b.2 < 65536 := by
  induction ns generalizing pid blp with
  | nil =>
    intro b hb
    rw [List.mem_singleton.mp hb]
    exact ⟨hpid, hblp⟩
  | cons n ns ih =>
    rw [List.forall_mem_cons] at hns
    rw [blocks]
    split
    · exact ih hpid hblp hns.2
    · split
      · rw [List.forall_mem_cons]
        exact ⟨⟨hpid, hblp⟩, ih hns.1 (by omega) hns.2⟩
      · have hbit : 1 <<< (n - pid - 1) < 2 ^ 16 := by
          rw [Nat.one_shiftLeft]
          exact Nat.pow_lt_pow_right (by omega) (by omega)
        exact ih hpid (Nat.or_lt_two_pow (n := 16) hblp hbit) hns.2

section

variable (nacks : List UInt16)

theorem mem_sorted_lt : ∀ n ∈ (sorted nacks).map UInt16.toNat, n < 65536 := by
  intro n hn
  obtain ⟨x, -, rfl⟩ := List.mem_map.mp hn
  exact x.toNat_lt

theorem pairwise_sorted : ((sorted nacks).map UInt16.toNat).Pairwise (· ≤ ·) :=
  List.Pairwise.map UInt16.toNat (fun _ _ hab => hab) (List.pairwise_insertionSort sortAsc nacks)

theorem nackBlocks_lt : ∀ b ∈ nackBlocks nacks, b.1 < 65536 ∧ b.2 < 65536 := by
  have hlt := mem_sorted_lt nacks
  rw [nackBlocks]
  rcases hsort : (sorted nacks).map UInt16.toNat with - | ⟨pid, ns⟩
  · exact fun b hb => absurd hb List.not_mem_nil
  · rw [hsort, List.forall_mem_cons] at hlt
    exact blocks_lt hlt.1 (by omega) hlt.2

theorem length_nackBlocks_lt : (nackBlocks nacks).length + 2 < 65536 := by
  have hlt := mem_sorted_lt nacks
  rw [nackBlocks]
  rcases hsort : (sorted nacks).map UInt16.toNat with - | ⟨pid, ns⟩
  · decide
  · rw [hsort, List.forall_mem_cons] at hlt
    have hcount := length_blocks_le 0 65535 (show pid ≤ 65535 by omega)
      fun n hn => Nat.le_of_lt_succ (hlt.2 n hn)
    show (blocks pid 0 ns).length + 2 < 65536
    omega

/-- The packet that the encoder makes. -/
def nackPacket : GenericNack where
  padding := false
  ssrc := 0
  media := 0
  entries := (nackBlocks nacks).map fun b => (UInt16.ofNat b.1, UInt16.ofNat b.2)
  length_lt := by
    rw [List.length_map]
    exact length_nackBlocks_lt nacks

theorem nackPacket_entries : (nackPacket nacks).entries.flatMap GenericNack.entryBytes =
    (nackBlocks nacks).flatMap blockBytes := by
  rw [nackPacket, List.flatMap_map]
  apply List.flatMap_congr
  intro b hb
  obtain ⟨hpid, hblp⟩ := nackBlocks_lt nacks b hb
  rw [GenericNack.entryBytes, blockBytes, UInt16.toNat_ofNat_of_lt' hpid,
    UInt16.toNat_ofNat_of_lt' hblp]

theorem nackBlocks_pos (hne : nacks ≠ []) : 0 < (nackBlocks nacks).length := by
  rw [nackBlocks]
  rcases hsort : sorted nacks with - | ⟨pid, ns⟩
  · have hlen := List.length_insertionSort sortAsc nacks
    rw [show nacks.insertionSort sortAsc = [] from hsort] at hlen
    exact absurd (List.length_eq_zero_iff.mp hlen.symm) hne
  · exact List.length_pos_iff.mpr (blocks_ne_nil _ _ _)

end

/-- The buffer when the loop of the encoder starts. -/
def nackStart (m : Mem) (len pid : Nat) : Mem :=
  (((zeroed m len).putBe 0 1 129).putBe 1 1 rtcpRtpfb).putBe 12 2 pid

theorem nackStart_zero {m : Mem} {len pid a : Nat} (hlo : 2 ≤ a) (hhi : a < len)
    (hpid : a < 12 ∨ 14 ≤ a) : nackStart m len pid a = 0 := by
  rw [nackStart, Mem.putBe_of_outside (by omega), Mem.putBe_of_outside (by omega),
    Mem.putBe_of_outside (by omega), zeroed, if_pos hhi]

/-- The blocks behind the header are the packet. -/
theorem holds_nackPacket {nacks : List UInt16} {m m' : Mem} {len pid : Nat} (hlen : 16 ≤ len)
    (h : Encoded (nackStart m len pid) m' 3 (nackBlocks nacks)) :
    m'.Holds 0 (nackPacket nacks).packet.encode := by
  have hrest : ∀ a, 4 ≤ a → a < 12 → m' a = 0 := by
    intro a hlo hhi
    rw [h.rest a hhi (by omega) (by omega)]
    exact nackStart_zero (by omega) (by omega) (Or.inl hhi)
  have hlength : m'.Holds 2 (Mem.toBe 2 (nackPacket nacks).packet.words) := by
    have hget : m'.getBe 2 2 = (nackPacket nacks).packet.words := by
      have hlt := length_nackBlocks_lt nacks
      rw [h.length, Nat.mod_eq_of_lt (by omega)]
      simp only [GenericNack.packet, nackPacket, List.length_map]
      omega
    rw [← hget]
    exact Mem.holds_toBe m' 2 2
  have hssrcs : ∀ i, 4 ≤ i → i + 4 ≤ 12 → m'.Holds i (Mem.toBe 4 0) := by
    intro i hlo hhi
    have hget : m'.getBe i 4 = 0 :=
      Mem.getBe_eq_zero fun a ha hlt => hrest a (by omega) (by omega)
    rw [← hget]
    exact Mem.holds_toBe m' i 4
  have hbody : m'.Holds 4 (nackPacket nacks).packet.body := by
    show m'.Holds 4 (Mem.toBe 4 0 ++ (Mem.toBe 4 0 ++
      (nackPacket nacks).entries.flatMap GenericNack.entryBytes))
    rw [Mem.holds_append, Mem.holds_append, nackPacket_entries, Mem.length_toBe]
    exact ⟨hssrcs 4 (by omega) (by omega), hssrcs 8 (by omega) (by omega), h.blocks⟩
  refine ⟨?_, ?_, ?_⟩
  · rw [h.rest 0 (by omega) (by omega) (by omega), nackStart, Mem.putBe_of_outside (by omega),
      Mem.putBe_of_outside (by omega)]
    rfl
  · rw [h.rest 1 (by omega) (by omega) (by omega), nackStart, Mem.putBe_of_outside (by omega)]
    rfl
  · rw [Mem.holds_append, Mem.length_toBe]
    exact ⟨hlength, hbody⟩

/-- The encoder writes its packet, or fails when the blocks do not fit. -/
theorem janusRtcpNacks_spec {nacks : List UInt16} (m : Mem) (len : Nat) (hne : nacks ≠ []) :
    if 12 + 4 * (nackBlocks nacks).length ≤ len then
      ∃ m', janusRtcpNacks m len nacks =
          (((12 + 4 * (nackBlocks nacks).length : Nat) : Int), m') ∧
        m'.Holds 0 (nackPacket nacks).packet.encode
    else (janusRtcpNacks m len nacks).1 = -1 := by
  have hpos := nackBlocks_pos nacks hne
  by_cases hlen : len < 16
  · rw [if_neg (by omega), janusRtcpNacks, if_pos hlen]
  rw [janusRtcpNacks, if_neg hlen]
  rcases hsort : sorted nacks with - | ⟨pid, ns⟩
  · simp [nackBlocks, hsort] at hpos
  have hblp : (nackStart m len pid.toNat).getBe (3 * 4 + 2) 2 = 0 := by
    apply Mem.getBe_eq_zero
    intro a ha hlt
    exact nackStart_zero (by omega) (by omega) (by omega)
  -- the first number opens the first block, behind header and SSRCs
  have hblocks : nackBlocks nacks = blocks pid.toNat
      ((nackStart m len pid.toNat).getBe (3 * 4 + 2) 2) (ns.map UInt16.toNat) := by
    rw [hblp, nackBlocks, hsort]
    rfl
  have hloop := nacksLoop_spec len ns pid 3 (nackStart m len pid.toNat) (by omega)
    (by omega) (Mem.getBe_putBe_of_lt pid.toNat_lt)
    (fun a ha hlt => nackStart_zero (by omega) hlt (by omega)) hblocks
  have hcount : (3 + (nackBlocks nacks).length) * 4 = 12 + 4 * (nackBlocks nacks).length := by omega
  rw [LoopDone, hcount] at hloop
  split at hloop
  · next hle =>
    rw [if_pos hle]
    obtain ⟨m', hrun, henc⟩ := hloop
    exact ⟨m', hrun, holds_nackPacket (by omega) henc⟩
  · next hgt =>
    rw [if_neg hgt]
    exact hloop

/-! ### Decoding what was encoded -/

/-- The sequence numbers in ascending order, without duplicates. -/
def ascending (nacks : List UInt16) : List Nat :=
  (nacks.map UInt16.toNat).dedup.insertionSort (· ≤ ·)

theorem pairwise_ascending (nacks : List UInt16) : (ascending nacks).Pairwise (· < ·) := by
  have hle := List.pairwise_insertionSort (· ≤ ·) (nacks.map UInt16.toNat).dedup
  have hne : (ascending nacks).Nodup :=
    (List.perm_insertionSort _ _).nodup_iff.mpr (List.nodup_dedup _)
  exact (hle.and hne).imp fun h => Nat.lt_of_le_of_ne h.1 h.2

theorem mem_ascending {nacks : List UInt16} {v : Nat} :
    v ∈ ascending nacks ↔ v ∈ nacks.map UInt16.toNat := by
  rw [ascending, List.mem_insertionSort, List.mem_dedup]

/-- The blocks stand for the numbers they were made of. -/
theorem flatMap_nackBlocks (nacks : List UInt16) :
    ((nackBlocks nacks).flatMap fun b => entrySeqs b.1 b.2) = ascending nacks := by
  have hsorted := pairwise_sorted nacks
  have hmem : ∀ v, v ∈ (sorted nacks).map UInt16.toNat ↔ v ∈ ascending nacks := by
    intro v
    rw [mem_ascending, List.mem_map, List.mem_map]
    simp only [sorted, List.mem_insertionSort]
  -- an ascending list is determined by its elements
  have hlist : ((nackBlocks nacks).flatMap fun b => entrySeqs b.1 b.2).Pairwise (· < ·) ∧
      ∀ v, v ∈ ((nackBlocks nacks).flatMap fun b => entrySeqs b.1 b.2) ↔ v ∈ ascending nacks := by
    rw [nackBlocks]
    rcases hsort : (sorted nacks).map UInt16.toNat with - | ⟨pid, ns⟩
    · rw [hsort] at hmem
      exact ⟨List.Pairwise.nil, hmem⟩
    · rw [hsort, List.pairwise_cons] at hsorted
      rw [hsort] at hmem
      refine ⟨pairwise_blocks hsorted.2 hsorted.1, fun v => ?_⟩
      have hroot : v ∈ entrySeqs pid 0 ↔ v = pid := by
        rw [mem_entrySeqs]
        simp
      rw [← hmem, List.mem_cons]
      exact (mem_blocks hsorted.2 hsorted.1).trans (or_congr hroot Iff.rfl)
  exact hlist.1.eq_of_mem_iff (pairwise_ascending nacks) hlist.2

/-- The decoder on what the encoder wrote. -/
theorem getNacks_nackPacket {nacks : List UInt16} {m : Mem}
    (h : m.Holds 0 (nackPacket nacks).packet.encode) :
    getNacks (below (12 + 4 * (nackBlocks nacks).length)) m (12 + 4 * (nackBlocks nacks).length) =
        .ok (ascending nacks) ∧
      length m 0 = 2 + (nackBlocks nacks).length := by
  have hwords : (nackPacket nacks).packet.words = 2 + (nackBlocks nacks).length := by
    simp only [GenericNack.packet, nackPacket, List.length_map]
    omega
  have hsize : (nackPacket nacks).packet.encode.length = 12 + 4 * (nackBlocks nacks).length := by
    rw [SubPacket.length_encode, hwords]
    omega
  have hseqs : ((nackPacket nacks).entries.flatMap fun e => entrySeqs e.1.toNat e.2.toNat) =
      (nackBlocks nacks).flatMap fun b => entrySeqs b.1 b.2 := by
    rw [nackPacket, List.flatMap_map]
    apply List.flatMap_congr
    intro b hb
    obtain ⟨hpid, hblp⟩ := nackBlocks_lt nacks b hb
    rw [UInt16.toNat_ofNat_of_lt' hpid, UInt16.toNat_ofNat_of_lt' hblp]
  have hread := (nackPacket nacks).getNacks_eq h
  rw [hsize, hseqs, flatMap_nackBlocks] at hread
  exact ⟨hread, (Holds.length h).trans hwords⟩

/-- Decoding an encoded list yields its numbers in ascending order, and the length field
fits the bytes. -/
theorem nacks_round_trip (nacks : List UInt16) (hne : nacks ≠ []) (m : Mem) (len : Nat)
    (hfit : 12 + 4 * (nackBlocks nacks).length ≤ len) :
    ∃ (n : Nat) (m' : Mem), janusRtcpNacks m len nacks = ((n : Int), m') ∧
      getNacks (below n) m' n = .ok (ascending nacks) ∧ length m' 0 = n / 4 - 1 := by
  have hspec := janusRtcpNacks_spec m len hne
  rw [if_pos hfit] at hspec
  obtain ⟨m', hrun, hholds⟩ := hspec
  obtain ⟨hread, hlength⟩ := getNacks_nackPacket hholds
  refine ⟨_, m', hrun, hread, ?_⟩
  rw [hlength]
  omega

theorem nacks_round_trip_wrap :
    [(3 : UInt16), 65535, 20, 3, 19].length ≠ 0 ∧
      ∃ (n : Nat) (m' : Mem), janusRtcpNacks (fun _ => 7) 120 [3, 65535, 20, 3, 19] = ((n : Int), m') ∧
        getNacks (below n) m' n = .ok [3, 19, 20, 65535] := by
  refine ⟨by decide, ?_⟩
  obtain ⟨n, m', hrun, hread, -⟩ := nacks_round_trip [3, 65535, 20, 3, 19] (by decide)
    (fun _ => 7) 120 (by decide +kernel)
  refine ⟨n, m', hrun, hread.trans ?_⟩
  decide +kernel

/-! ### `NackProcessor::SendRtcpNackList` -/

/-- `dataPacket`; `data` are the bytes that were copied to it. -/
structure DataPacket where
  comp : Nat
  length : Int
  type : Rtcp.PacketType
  data : List UInt8
  deriving DecidableEq, Repr

/-- `RtcpNackCreate`: the size of the NACK and the buffer. -/
def rtcpNackCreate (nackbuf : Mem) (nacks : List UInt16) : Int × Mem :=
  if nacks.length = 0 then (0, nackbuf) else janusRtcpNacks nackbuf 120 nacks.reverse

/-- What `SendRtcpNackList` hands on: the length for `memcpy`, and the packet for
`RelayPacket`.  A negative length becomes a huge one for `memcpy`, and nothing behind it is
reached. -/
structure Sent where
  copied : Int
  relayed : Option DataPacket
  deriving DecidableEq, Repr

def sendRtcpNackList (nackbuf : Mem) (nackList : List UInt16) (packetType : Rtcp.PacketType) :
    Sent :=
  let res := rtcpNackCreate nackbuf nackList
  { copied := res.1
    relayed :=
      if res.1 < 0 then none
      else some
        { comp := 0
          length := res.1
          type := packetType
          data := (List.range res.1.toNat).map res.2 } }

/-- The order of the numbers does not matter to the encoder. -/
theorem sorted_reverse (nacks : List UInt16) : sorted nacks.reverse = sorted nacks := by
  have hperm : (sorted nacks.reverse).Perm (sorted nacks) :=
    (List.perm_insertionSort sortAsc _).trans
      ((List.reverse_perm nacks).trans (List.perm_insertionSort sortAsc nacks).symm)
  have hanti : ∀ a b : UInt16, a ∈ sorted nacks.reverse → b ∈ sorted nacks →
      sortAsc a b → sortAsc b a → a = b :=
    fun a b _ _ hab hba => UInt16.toNat_inj.mp (Nat.le_antisymm hab hba)
  exact hperm.eq_of_pairwise hanti (List.pairwise_insertionSort sortAsc _)
    (List.pairwise_insertionSort sortAsc _)

theorem nackBlocks_reverse (nacks : List UInt16) : nackBlocks nacks.reverse = nackBlocks nacks := by
  rw [nackBlocks, nackBlocks, sorted_reverse]

/-- `RtcpNackCreate` on a list that is not empty. -/
theorem rtcpNackCreate_spec {nacks : List UInt16} (m : Mem) (hne : nacks ≠ []) :
    if (nackBlocks nacks).length ≤ 27 then
      ∃ m', rtcpNackCreate m nacks = (((12 + 4 * (nackBlocks nacks).length : Nat) : Int), m') ∧
        getNacks (below (12 + 4 * (nackBlocks nacks).length)) m'
          (12 + 4 * (nackBlocks nacks).length) = .ok (ascending nacks)
    else (rtcpNackCreate m nacks).1 = -1 := by
  have hne' : nacks.reverse ≠ [] := by simpa using hne
  have hspec := janusRtcpNacks_spec m 120 hne'
  -- `RtcpNackCreate` turns the list around, which the sorting undoes
  have hasc : ascending nacks.reverse = ascending nacks := by
    rw [← flatMap_nackBlocks, ← flatMap_nackBlocks, nackBlocks_reverse]
  have hrun : rtcpNackCreate m nacks = janusRtcpNacks m 120 nacks.reverse :=
    if_neg fun h => hne (List.length_eq_zero_iff.mp h)
  rw [hrun]
  split at hspec
  · next hfit =>
    rw [nackBlocks_reverse] at hfit
    obtain ⟨m', hencode, hholds⟩ := hspec
    have hread := (getNacks_nackPacket hholds).1
    rw [nackBlocks_reverse] at hencode hread
    rw [if_pos (by omega)]
    exact ⟨m', hencode, hasc ▸ hread⟩
  · next hgt =>
    rw [nackBlocks_reverse] at hgt
    rw [if_neg (by omega)]
    exact hspec

/-- The lengths that `SendRtcpNackList` hands on are those of a NACK if and only if the
list is not empty and has at most 27 blocks. -/
theorem send_nack_list_iff (nackbuf : Mem) (nackList : List UInt16) (packetType : Rtcp.PacketType) :
    (0 < (sendRtcpNackList nackbuf nackList packetType).copied ∧
        ∀ packet, (sendRtcpNackList nackbuf nackList packetType).relayed = some packet →
          ∃ k : Nat, 1 ≤ k ∧ packet.length = 12 + 4 * k ∧ packet.length ≤ 120) ↔
      nackList ≠ [] ∧ (nackBlocks nackList).length ≤ 27 := by
  by_cases hne : nackList = []
  · subst hne
    exact ⟨fun h => absurd h.1 (Int.lt_irrefl 0), fun h => absurd rfl h.1⟩
  have hspec := rtcpNackCreate_spec nackbuf hne
  have hpos := nackBlocks_pos nackList hne
  split at hspec
  · next hfit =>
    refine ⟨fun _ => ⟨hne, hfit⟩, fun _ => ?_⟩
    obtain ⟨m', hrun, -⟩ := hspec
    simp only [sendRtcpNackList, hrun]
    refine ⟨by omega, ?_⟩
    intro packet hpacket
    rw [if_neg (by omega)] at hpacket
    rw [← Option.some.inj hpacket]
    exact ⟨(nackBlocks nackList).length, hpos, by simp only; omega, by simp only; omega⟩
  · next hgt =>
    refine ⟨fun h => ?_, fun h => absurd h.2 hgt⟩
    have hcopied := h.1
    simp only [sendRtcpNackList, hspec] at hcopied
    omega

/-- An empty list, and 28 numbers that are 17 apart. -/
theorem send_nack_list_breaks :
    sendRtcpNackList (fun _ => 0) [] .video = ⟨0, some ⟨0, 0, .video, []⟩⟩ ∧
      sendRtcpNackList (fun _ => 0) ((List.range 28).map fun i => UInt16.ofNat (17 * i)) .video =
        ⟨-1, none⟩ := by
  decide +kernel

end Orbit.Janus
