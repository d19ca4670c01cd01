/-
OrbitStream/RtcpStrip.lean

`janus_rtcp_remove_nacks` of `rtp/janus_rtcp_processor.cc` on compound packets.

The function looks for the first generic NACK (`findNacks_eq`) and moves what is behind it
forward, byte by byte (`moveBytes_eq`).  The bytes that are still to be moved are never
written before they are read, so the rest arrives as it was, and the packet is the one
without its first NACK (`remove_nacks_strips`).
-/
import OrbitStream.RtcpRewrite

namespace Orbit.Janus

open Lib

/-- A generic NACK. -/
def SubPacket.isNack (p : SubPacket) : Bool := decide (p.type.toNat = rtcpRtpfb ∧ p.rc = 1)

/-! ### The search -/

/-- A round of the search: the offset and the size of a NACK end it. -/
def findStep (off : Nat) (found : Option (Nat × Nat)) (p : SubPacket) : Step (Option (Nat × Nat)) :=
  if p.isNack = true then .stop (some (off, p.encode.length)) else .next found

theorem findNacksRound_eq {m : Mem} {off : Nat} {p : SubPacket} (h : m.Holds off p.encode)
    (found : Option (Nat × Nat)) : findNacksRound off (m, found) = (findStep off found p).on m := by
  have hpos := p.words_pos
  rw [findNacksRound, findStep, SubPacket.isNack, Holds.type h, Holds.rc h, Holds.length h, size,
    Holds.length h, p.length_encode, if_neg (Nat.ne_of_gt hpos)]
  by_cases htype : p.type.toNat = rtcpRtpfb
  · by_cases hrc : p.rc = 1
    · simp [htype, hrc, Step.on]
    · simp [htype, hrc, Step.on]
  · simp [htype, Step.on]

theorem findNacksFields_header {off : Nat} {s : Mem × Option (Nat × Nat)} {c : Nat × Nat}
    (hc : c ∈ findNacksFields off s) : c.1 + c.2 ≤ 4 := by
  have hsub : findNacksFields off s ⊆ [(1, 1), (0, 1), (2, 2)] := by
    rw [findNacksFields]
    split
    · split
      · simp
      · simp
    · simp
  have hall : ∀ c ∈ [(1, 1), (0, 1), (2, 2)], c.1 + c.2 ≤ 4 := by decide
  exact hall c (hsub hc)

/-- The search finds the first NACK. -/
theorem findNacks_eq {ps : List SubPacket} {m : Mem} {len : Nat} (hne : ps ≠ [])
    (hm : m.Holds 0 (encode ps)) (hlen : (encode ps).length = len) :
    loop (below len) (findNacksBody (below len)) 0 len (m, none) =
      .ok (m, scan findStep 0 ps none) := by
  subst hlen
  apply loop_scan (findNacksBody_touches _) ?_ hne none hm (Nat.le_of_eq (Nat.zero_add _))
  intro p _ off found hp hend
  refine ⟨?_, findNacksRound_eq hp found⟩
  intro c hc
  have hheader := findNacksFields_header hc
  have hsize := p.length_encode
  exact mapped_below.mpr (Or.inr (by omega))

section

variable {pre post : List SubPacket} {p : SubPacket} (hpre : ∀ q ∈ pre, ¬ q.isNack = true)

include hpre

theorem scan_findStep_none (off : Nat) : scan findStep off pre none = none := by
  induction pre generalizing off with
  | nil => rfl
  | cons q pre ih =>
    rw [List.forall_mem_cons] at hpre
    rw [scan, findStep, if_neg hpre.1]
    exact ih hpre.2 _

theorem scan_findStep_some (hp : p.isNack = true) (off : Nat) :
    scan findStep off (pre ++ p :: post) none =
      some (off + (encode pre).length, p.encode.length) := by
  induction pre generalizing off with
  | nil =>
    rw [List.nil_append, scan, findStep, if_pos hp]
    rfl
  | cons q pre ih =>
    rw [List.forall_mem_cons] at hpre
    rw [List.cons_append, scan, findStep, if_neg hpre.1, length_encode_cons, ← Nat.add_assoc]
    exact ih hpre.2 _

end

/-! ### The move -/

/-- The memory after `n` bytes from `dst + gap` on were moved to `dst`. -/
def moved (m : Mem) (dst gap n : Nat) : Mem := fun a =>
  if dst ≤ a ∧ a < dst + n then m (a + gap) else m a

/-- The next byte is still the one that was there. -/
theorem moveByte_moved {m : Mem} {dst gap n len : Nat} (hgap : 0 < gap)
    (hlen : dst + (gap + n) < len) :
    moveByte (below len) dst gap (moved m dst gap n) n = .ok (moved m dst gap (n + 1)) := by
  have hload : load (below len) (moved m dst gap n) (dst + (gap + n)) 1 =
      .ok (m (dst + (gap + n))).toNat := by
    rw [load, if_pos (mapped_below.mpr (Or.inr (by omega)))]
    have hbyte : moved m dst gap n (dst + (gap + n)) = m (dst + (gap + n)) := if_neg (by omega)
    rw [Mem.getBe, Mem.getBe, Nat.mul_zero, Nat.zero_add, Nat.add_zero, hbyte]
  rw [moveByte, hload]
  show store (below len) (moved m dst gap n) (dst + n) 1 _ = _
  rw [store, if_pos (mapped_below.mpr (Or.inr (by omega)))]
  congr 1
  funext a
  by_cases ha : a = dst + n
  · subst ha
    have hfrom : dst + n + gap = dst + (gap + n) := by omega
    rw [Mem.putBe, if_pos (by omega), moved, if_pos (by omega), hfrom]
    simp
  · rw [Mem.putBe_of_outside (by omega), moved, moved]
    by_cases hin : dst ≤ a ∧ a < dst + n
    · rw [if_pos hin, if_pos (by omega)]
    · rw [if_neg hin, if_neg (by omega)]

/-- All bytes arrive as they were. -/
theorem moveBytes_eq {m : Mem} {dst gap len : Nat} (hgap : 0 < gap) (n : Nat)
    (hlen : dst + (gap + n) ≤ len) :
    (List.range n).foldlM (moveByte (below len) dst gap) m = .ok (moved m dst gap n) := by
  induction n with
  | zero =>
    have hnone : moved m dst gap 0 = m := by
      funext a
      exact if_neg (by omega)
    rw [hnone]
    rfl
  | succ n ih =>
    rw [List.range_succ, List.foldlM_append, ih (by omega)]
    show [n].foldlM (moveByte (below len) dst gap) (moved m dst gap n) = _
    rw [List.foldlM_cons, moveByte_moved hgap (by omega)]
    rfl

theorem holds_moved {m : Mem} {dst gap : Nat} {bs : List UInt8} (h : m.Holds (dst + gap) bs) :
    (moved m dst gap bs.length).Holds dst bs := by
  rw [Mem.holds_iff_read] at h ⊢
  refine Eq.trans (List.map_congr_left ?_) h
  intro k hk
  have hk' := List.mem_range.mp hk
  show moved m dst gap bs.length (dst + k) = m (dst + gap + k)
  rw [moved, if_pos (by omega), Nat.add_right_comm]

/-! ### The packet without its first NACK -/

theorem encode_append (ps qs : List SubPacket) : encode (ps ++ qs) = encode ps ++ encode qs :=
  List.flatMap_append

/-- The move closes the gap of the NACK. -/
theorem removeNacks_found {pre post : List SubPacket} {p : SubPacket}
    (hpre : ∀ q ∈ pre, ¬ q.isNack = true) (hp : p.isNack = true) {m : Mem} {len : Nat}
    (hm : m.Holds 0 (encode (pre ++ p :: post))) (hlen : (encode (pre ++ p :: post)).length = len)
    (hversion : version m 0 = 2) :
    ∃ m', removeNacks (below len) m len = .ok ((encode (pre ++ post)).length, m') ∧
      m'.Holds 0 (encode (pre ++ post)) := by
  have hloop := findNacks_eq (by simp) hm hlen
  rw [scan_findStep_some hpre hp, Nat.zero_add] at hloop
  rw [encode_append, encode_cons, Mem.holds_append, Mem.holds_append, Nat.zero_add] at hm
  have hsize := p.length_encode
  have htotal : len = (encode pre).length + (p.encode.length + (encode post).length) := by
    rw [← hlen, encode_append, encode_cons, List.length_append, List.length_append]
  have hleft : (encode (pre ++ post)).length = len - p.encode.length := by
    rw [encode_append, List.length_append]
    omega
  rw [removeNacks, if_neg (by omega),
    ifVersion_eq (mapped_below.mpr (Or.inr (by omega))) hversion, hloop, hleft]
  show ∃ m', (if len < (encode pre).length + p.encode.length then _ else _) = _ ∧ _
  rw [if_neg (by omega), encode_append]
  by_cases hlast : len = (encode pre).length + p.encode.length
  · -- nothing is behind the NACK
    have hnone : encode post = [] := List.eq_nil_of_length_eq_zero (by omega)
    rw [if_pos hlast, hnone, List.append_nil]
    exact ⟨m, rfl, hm.1⟩
  · rw [if_neg hlast, moveBytes_eq (by omega) _ (by omega)]
    refine ⟨_, rfl, ?_⟩
    have hrest : len - ((encode pre).length + p.encode.length) = (encode post).length := by omega
    rw [Mem.holds_append, Nat.zero_add, hrest]
    exact ⟨hm.1.congr fun k hk => if_neg (by omega), holds_moved hm.2.2⟩

/-- The packet that is left: without its first NACK, if it is of version 2. -/
def stripped : List SubPacket → List SubPacket
  | [] => []
  | p :: ps => if p.version = 2 then (p :: ps).eraseP SubPacket.isNack else p :: ps

/-- The function returns the length and the bytes of the packet without its first NACK. -/
theorem remove_nacks_strips (ps : List SubPacket) (stale : Mem) :
    ∃ m', removeNacks (below (encode ps).length) (Mem.lay (encode ps) stale) (encode ps).length =
        .ok ((encode (stripped ps)).length, m') ∧
      m'.Holds 0 (encode (stripped ps)) := by
  have hm := Mem.holds_lay (encode ps) stale
  rcases ps with - | ⟨p, ps⟩
  · exact ⟨_, rfl, trivial⟩
  have hsize := p.length_encode
  have hlen := length_encode_cons p ps
  have hversion := Holds.version (holds_encode_cons.mp hm).1
  rw [stripped]
  by_cases hv : p.version = 2
  · rw [if_pos hv]
    by_cases hex : ∃ q ∈ p :: ps, q.isNack = true
    · obtain ⟨q, hq, hnack⟩ := hex
      obtain ⟨r, pre, post, hpre, hr, heq, herase⟩ := List.exists_of_eraseP hq hnack
      rw [herase]
      rw [heq] at hm hversion ⊢
      exact removeNacks_found hpre hr hm rfl (hversion.trans hv)
    · have hnone : ∀ q ∈ p :: ps, ¬ q.isNack = true := fun q hq hnack => hex ⟨q, hq, hnack⟩
      have hloop := findNacks_eq (List.cons_ne_nil p ps) hm rfl
      rw [scan_findStep_none hnone] at hloop
      rw [List.eraseP_of_forall_not hnone]
      refine ⟨_, ?_, hm⟩
      rw [removeNacks, if_neg (by omega),
        ifVersion_eq (mapped_below.mpr (Or.inr (by omega))) (hversion.trans hv), hloop]
      rfl
  · -- a packet of another version is left alone
    rw [if_neg hv]
    refine ⟨_, ?_, hm⟩
    have hfirst : load (below (encode (p :: ps)).length) (Mem.lay (encode (p :: ps)) stale) 0 1 =
        .ok (Mem.getBe (Mem.lay (encode (p :: ps)) stale) 0 1) :=
      if_pos (mapped_below.mpr (Or.inr (by omega)))
    rw [removeNacks, if_neg (by omega), ifVersion, hfirst]
    exact if_neg fun h => hv (hversion.symm.trans h)

end Orbit.Janus
