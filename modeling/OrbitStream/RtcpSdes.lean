/-
OrbitStream/RtcpSdes.lean

The encoder of SDES packets, `janus_rtcp_sdes` (`rtp/janus_rtcp_processor.cc`).

`rtcp_sdes` has an SSRC between the header and the chunk, so the SSRC of the chunk stands at
byte 8 and the item at byte 12 (`sdes_built`), where RFC 3550 has the chunk right behind the
header.  Names are padded by four bytes instead of to four bytes, so the length is a multiple
of four for one residue only.
-/
import OrbitStream.RtcpNacks
import OrbitStream.RtcpRewrite

namespace Orbit.Janus

open Lib

/-- `plen`. -/
def sdesLength (cnamelen : Nat) : Nat :=
  12 + (cnamelen + 2) + if (cnamelen + 2) % 4 ≠ 0 then 4 else 0

/-- `janus_rtcp_sdes`: the return value and the buffer. -/
def janusRtcpSdes (m : Mem) (len : Nat) (cname : List UInt8) : Int × Mem :=
  if len = 0 ∨ cname.length = 0 then (-1, m)
  else
    let m := zeroed m len
    let m := (m.putBe 0 1 (128 + m.getBe 0 1 / 32 % 2 * 32 + 1)).putBe 1 1 rtcpSdes
    let plen := sdesLength cname.length
    if len < plen then (-1, m)
    else
      let m := m.putBe 2 2 (plen / 4 - 1)
      let m := (m.putBe 12 1 1).putBe 13 1 cname.length
      (plen, m.copy 14 cname)

/-- What RFC 3550 says of a packet with one chunk that has a CNAME, and that the rewriting
of SSRCs is about this chunk. -/
structure SdesLayout (m : Mem) (plen : Nat) (cname : List UInt8) : Prop where
  aligned : plen % 4 = 0
  length_eq : plen = 4 * (length m 0 + 1)
  item : m.Holds 8 (1 :: UInt8.ofNat cname.length :: cname)
  rewritten : ∀ a now ctx, ∃ ret m' ctx', fixSsrc (below plen) a now ctx m plen = .ok (ret, m', ctx') ∧
    (a.setsL → m'.getBe 4 4 = a.newssrcl.toNat) ∧ ∀ b, b < 4 ∨ 8 ≤ b → m' b = m b

theorem sdesLength_bounds {n : Nat} (hn : n ≤ 255) :
    14 + n ≤ sdesLength n ∧ sdesLength n < 300 := by
  rw [sdesLength]
  split <;> omega

/-- The buffer when the packet fits. -/
def sdesBuffer (m : Mem) (len : Nat) (cname : List UInt8) : Mem :=
  (((setHeader (zeroed m len) 1 rtcpSdes (sdesLength cname.length / 4 - 1)).putBe 12 1 1).putBe 13 1
    cname.length).copy 14 cname

section

variable (m : Mem) {len : Nat} {cname : List UInt8}

theorem janusRtcpSdes_eq (hpos : 1 ≤ cname.length) (hfit : sdesLength cname.length ≤ len) :
    janusRtcpSdes m len cname = (((sdesLength cname.length : Nat) : Int), sdesBuffer m len cname) := by
  have hlong : 12 ≤ sdesLength cname.length := by
    rw [sdesLength]
    omega
  rw [janusRtcpSdes, if_neg (by omega)]
  exact if_neg (by omega)

/-- The item is behind the header. -/
theorem sdesBuffer_header {k : Nat} (hk : k < 12) : sdesBuffer m len cname k =
    setHeader (zeroed m len) 1 rtcpSdes (sdesLength cname.length / 4 - 1) k := by
  rw [sdesBuffer, Mem.copy_of_outside (by omega), Mem.putBe_of_outside (by omega),
    Mem.putBe_of_outside (by omega)]

/-- The body that is built: the SSRC of the chunk is at byte 8, and the item at byte 12. -/
theorem sdes_built (hle : cname.length ≤ 255) (hfit : sdesLength cname.length ≤ len) :
    (∀ a, 4 ≤ a → a < 12 → sdesBuffer m len cname a = 0) ∧
      (sdesBuffer m len cname).Holds 12 (1 :: UInt8.ofNat cname.length :: cname) := by
  obtain ⟨hlong, -⟩ := sdesLength_bounds hle
  have hcopy := Mem.holds_copy (((setHeader (zeroed m len) 1 rtcpSdes
    (sdesLength cname.length / 4 - 1)).putBe 12 1 1).putBe 13 1 cname.length) 14 cname
  refine ⟨?_, ?_, ?_, hcopy⟩
  · -- neither the header nor the item reaches these bytes
    intro a ha hlt
    rw [sdesBuffer_header m hlt, setHeader, Mem.putBe_of_outside (by omega),
      Mem.putBe_of_outside (by omega), Mem.putBe_of_outside (by omega), zeroed, if_pos (by omega)]
  · rw [sdesBuffer, Mem.copy_of_outside (by omega), Mem.putBe_of_outside (by omega)]
    rfl
  · rw [sdesBuffer, Mem.copy_of_outside (by omega), Mem.putBe, if_pos (by omega)]
    simp

end

/-- No packet that is built has the layout of RFC 3550. -/
theorem sdes_layout_never (m : Mem) (len : Nat) (cname : List UInt8) (hpos : 1 ≤ cname.length)
    (hle : cname.length ≤ 255) (hfit : sdesLength cname.length ≤ len) :
    ∃ m', janusRtcpSdes m len cname = (((sdesLength cname.length : Nat) : Int), m') ∧
      ¬ SdesLayout m' (sdesLength cname.length) cname := by
  refine ⟨_, janusRtcpSdes_eq m hpos hfit, ?_⟩
  intro h
  -- where the item should start, there is the SSRC of the chunk
  have hzero := (sdes_built m hle hfit).1 8 (by omega) (by omega)
  have hone : sdesBuffer m len cname 8 = 1 := h.item.1
  rw [hzero] at hone
  cases hone

/-- The name `orbitvideo` in a buffer that is long enough for it. -/
def orbitvideo : List UInt8 := [111, 114, 98, 105, 116, 118, 105, 100, 101, 111]

theorem sdes_layout_never_orbitvideo :
    (1 ≤ orbitvideo.length ∧ orbitvideo.length ≤ 255 ∧ sdesLength orbitvideo.length ≤ 24) ∧
      ∃ m', janusRtcpSdes (fun _ => 0) 24 orbitvideo = (24, m') ∧ ¬ SdesLayout m' 24 orbitvideo :=
  ⟨by decide, sdes_layout_never (fun _ => 0) 24 orbitvideo (by decide) (by decide) (by decide)⟩

/-- A name of one byte: a length that is no multiple of four, and an item behind byte 8. -/
theorem sdes_of_one_byte :
    (janusRtcpSdes (fun _ => 0) 24 [97]).1 = 19 ∧
      (janusRtcpSdes (fun _ => 0) 24 [97]).2.read 0 19 =
        [0x81, 202, 0, 3, 0, 0, 0, 0, 0, 0, 0, 0, 1, 1, 97, 0, 0, 0, 0] ∧
      ¬ SdesLayout (janusRtcpSdes (fun _ => 0) 24 [97]).2 19 [97] := by
  refine ⟨by decide +kernel, by decide +kernel, ?_⟩
  intro h
  exact absurd h.aligned (by decide)

end Orbit.Janus
