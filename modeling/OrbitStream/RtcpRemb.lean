/-
OrbitStream/RtcpRemb.lean

The bitrate in a REMB: `janus_rtcp_remb`, which writes it, `janus_rtcp_get_remb` and
`janus_rtcp_cap_remb`, which read it back, and `RtcpHeader::setREMBBitRate` of
`rtp/rtp_headers.h`, which encodes it once more.

A bitrate is stored as a mantissa of 18 bits and an exponent.  The encoders look for the
least exponent that makes the mantissa fit (`encodeBitrate_eq`), so that only low bits are
lost.  The decoders shift the mantissa as a number of 32 bits, and lose high bits from
2 ^ 32 on (`remb_round_trip_iff`); so a REMB of such a bitrate may pass the cap
(`cap_remb_iff`).  The two encoders compare with the greatest mantissa in different ways
(`remb_encoders_iff`).
-/
import Mathlib.Data.List.Forall2
import Mathlib.Data.Nat.Find
import Mathlib.Order.Bounds.Basic
import OrbitStream.RtcpRewrite

namespace Orbit.Janus

open Lib

/-! ### Mantissa and exponent -/

/-- The exponents with which a bitrate fits. -/
def exponents (bitrate : Nat) : Set Nat := {e | bitrate ≤ 0x3FFFF * 2 ^ e}

/-- `brMantissa` of the REMB at `off`. -/
def mantissaAt (m : Mem) (off : Nat) : Nat :=
  m.getBe (off + 17) 1 % 4 * 65536 + m.getBe (off + 18) 1 * 256 + m.getBe (off + 19) 1

/-- `brExp` of the REMB at `off`. -/
def expAt (m : Mem) (off : Nat) : Nat := m.getBe (off + 17) 1 / 4

/-- The bitrate that the REMB at `off` stands for. -/
def valueAt (m : Mem) (off : Nat) : Nat := mantissaAt m off * 2 ^ expAt m off

/-- The three bytes of exponent and mantissa. -/
def putBitrate (m : Mem) (off exp mantissa : Nat) : Mem :=
  ((m.putBe (off + 17) 1 (exp * 4 + mantissa / 65536 % 4)).putBe (off + 18) 1
    (mantissa / 256)).putBe (off + 19) 1 mantissa

section

variable {b e : Nat}

theorem exists_isLeast_exponents (hb : b ≤ 0x3FFFF * 2 ^ 46) :
    ∃ e, IsLeast (exponents b) e ∧ e ≤ 46 := by
  have hex : ∃ e, b ≤ 0x3FFFF * 2 ^ e := ⟨46, hb⟩
  exact ⟨Nat.find hex, ⟨Nat.find_spec hex, fun e he => Nat.find_min' hex he⟩, Nat.find_min' hex hb⟩

/-- With a smaller exponent the bitrate does not fit. -/
theorem lt_of_isLeast (he : IsLeast (exponents b) e) {j : Nat} (hj : j < e) :
    0x3FFFF * 2 ^ j < b := by
  by_contra hle
  have hmin : e ≤ j := he.2 (Nat.le_of_not_lt hle)
  omega

/-- The mantissa has 18 bits. -/
theorem mantissa_le (he : IsLeast (exponents b) e) : b / 2 ^ e ≤ 0x3FFFF := by
  apply Nat.div_le_of_le_mul
  rw [Nat.mul_comm]
  exact he.1

theorem two_pow_le {i j : Nat} (h : i ≤ j) : 2 ^ i ≤ 2 ^ j := Nat.pow_le_pow_right (by decide) h

/-- What is left of a bitrate from 2 ^ 32 on is not below 2 ^ 32. -/
theorem le_decoded (he : IsLeast (exponents b) e) (hb : 2 ^ 32 ≤ b) :
    2 ^ 32 ≤ b / 2 ^ e * 2 ^ e := by
  have hge : 15 ≤ e := by
    by_contra hlt
    have hfit : b ≤ 0x3FFFF * 2 ^ e := he.1
    have hpow := two_pow_le (show e ≤ 14 by omega)
    omega
  by_cases hexp : e = 15
  · subst hexp
    omega
  · -- the mantissa of a bitrate with an exponent is at least half of the greatest one
    obtain ⟨j, rfl⟩ : ∃ j, e = j + 1 := ⟨e - 1, by omega⟩
    have hhalf : 0x1FFFF ≤ b / 2 ^ (j + 1) := by
      have hlt := lt_of_isLeast he (Nat.lt_succ_self j)
      rw [Nat.le_div_iff_mul_le (Nat.two_pow_pos _), Nat.pow_succ]
      omega
    have hpow : 2 ^ 16 ≤ 2 ^ (j + 1) := two_pow_le (by omega)
    calc 2 ^ 32 ≤ 0x1FFFF * 2 ^ 16 := by decide
      _ ≤ b / 2 ^ (j + 1) * 2 ^ (j + 1) := Nat.mul_le_mul hhalf hpow

/-- The shift of 32 bits is right below 2 ^ 32. -/
theorem shl32_eq_iff (he : IsLeast (exponents b) e) :
    shl32 (b / 2 ^ e) e = b / 2 ^ e * 2 ^ e ↔ b < 2 ^ 32 := by
  constructor
  · intro h
    by_contra hle
    have hdecoded := le_decoded he (Nat.le_of_not_lt hle)
    have hlt : shl32 (b / 2 ^ e) e < 2 ^ 32 := Nat.mod_lt _ (by decide)
    omega
  · intro hb
    have hexp : e ≤ 15 := he.2 (show b ≤ 0x3FFFF * 2 ^ 15 by omega)
    have hle := Nat.div_mul_le_self b (2 ^ e)
    rw [shl32, Nat.mod_eq_of_lt (show e < 32 by omega), Nat.mod_eq_of_lt (by omega)]

end

/-- The search finds the least exponent. -/
theorem encodeBitrate_eq {b : UInt64} {e : Nat} (hb : b.toNat ≤ 0x3FFFF * 2 ^ 46)
    (he : IsLeast (exponents b.toNat) e) : encodeBitrate b = (e, b.toNat / 2 ^ e) := by
  have hexp : e ≤ 46 := he.2 hb
  -- no exponent up to 46 makes the greatest mantissa leave 64 bits
  have hwide : ∀ j ≤ 46, 0x3FFFF * 2 ^ j % 2 ^ 64 = 0x3FFFF * 2 ^ j := by
    intro j hj
    have hpow := two_pow_le hj
    exact Nat.mod_eq_of_lt (by omega)
  have hfind : (List.range 64).find? (fun b' => decide (b.toNat ≤ 0x3FFFF * 2 ^ b' % 2 ^ 64)) =
      some e := by
    rw [List.find?_range_eq_some]
    refine ⟨?_, List.mem_range.mpr (by omega), ?_⟩
    · rw [hwide e hexp]
      exact decide_eq_true he.1
    · intro j hj
      have hlt := lt_of_isLeast he hj
      rw [hwide j (by omega), Bool.not_eq_true', decide_eq_false_iff_not]
      omega
  have hmantissa := mantissa_le he
  rw [encodeBitrate, hfind]
  show (e, b.toNat / 2 ^ e % 2 ^ 32) = _
  rw [Nat.mod_eq_of_lt (by omega)]

section

variable {m : Mem} {off exp mantissa : Nat}

theorem byte_putBitrate (hexp : exp < 64) :
    (putBitrate m off exp mantissa).getBe (off + 17) 1 = exp * 4 + mantissa / 65536 % 4 := by
  rw [putBitrate, Mem.getBe_putBe_of_disjoint (Or.inl (by omega)),
    Mem.getBe_putBe_of_disjoint (Or.inl (by omega)), Mem.getBe_putBe]
  omega

theorem expAt_putBitrate (hexp : exp < 64) : expAt (putBitrate m off exp mantissa) off = exp := by
  rw [expAt, byte_putBitrate hexp]
  omega

theorem mantissaAt_putBitrate (hexp : exp < 64) (hmantissa : mantissa ≤ 0x3FFFF) :
    mantissaAt (putBitrate m off exp mantissa) off = mantissa := by
  rw [mantissaAt, byte_putBitrate hexp, putBitrate,
    Mem.getBe_putBe_of_disjoint (Or.inl (by omega)), Mem.getBe_putBe, Mem.getBe_putBe]
  omega

theorem putBitrate_outside {a : Nat} (ha : a < off + 17 ∨ off + 20 ≤ a) :
    putBitrate m off exp mantissa a = m a := by
  rw [putBitrate, Mem.putBe_of_outside (by omega), Mem.putBe_of_outside (by omega),
    Mem.putBe_of_outside (by omega)]

end

/-! ### `janus_rtcp_remb` and `janus_rtcp_get_remb` -/

/-- The letters of `remb->id` and the number of SSRCs. -/
def putRembId (m : Mem) : Mem :=
  ((((m.putBe 12 1 82).putBe 13 1 69).putBe 14 1 77).putBe 15 1 66).putBe 16 1 1

/-- `janus_rtcp_remb`: the return value and the buffer. -/
def janusRtcpRemb (m : Mem) (len : Nat) (bitrate : UInt64) : Int × Mem :=
  if len ≠ 24 then (-1, m)
  else
    let (newbrexp, newbrmantissa) := encodeBitrate bitrate
    (24, putBitrate (putRembId (setHeader m 15 rtcpPsfb (len / 4 - 1))) 0 newbrexp newbrmantissa)

theorem rembAt_iff {m : Mem} {off : Nat} :
    rembAt m off = true ↔ m.getBe (off + 12) 1 = 82 ∧ m.getBe (off + 13) 1 = 69 ∧
      m.getBe (off + 14) 1 = 77 ∧ m.getBe (off + 15) 1 = 66 := by
  simp only [rembAt, Bool.if_false_right, Bool.and_eq_true, decide_eq_true_eq]

/-- The function on a packet that starts with a REMB. -/
theorem getRemb_first {m : Mem} {len : Nat} (hversion : version m 0 = 2)
    (htype : type m 0 = rtcpPsfb) (hrc : rc m 0 = 15) (hremb : rembAt m 0 = true)
    (hlen : 20 ≤ len) : getRemb (below len) m len = .ok (bitrateAt m 0) := by
  have hround : getRembRound 0 (m, 0) = .stop (m, bitrateAt m 0) := by
    rw [getRembRound, if_pos htype, if_pos hrc, if_pos hremb]
  obtain ⟨hR, hE, hM, -⟩ := rembAt_iff.mp hremb
  have hread : getRembFields 0 (m, 0) = [(1, 1), (0, 1), (12, 1), (13, 1), (14, 1), (15, 1),
      (17, 1), (18, 1), (19, 1)] := by
    rw [getRembFields, if_pos htype, if_pos hrc, if_pos hremb, rembFields, if_pos hR, if_pos hE,
      if_pos hM]
    rfl
  have hfields : ∀ f ∈ getRembFields 0 (m, 0), Mapped (below len) (0 + f.1) f.2 := by
    rw [hread]
    intro f hf
    have hend : f.1 + f.2 ≤ 20 := by
      revert f
      decide
    exact mapped_below.mpr (Or.inr (by omega))
  have hinside : Inside (below len)
      (fun off s => ∀ f ∈ getRembFields off s, Mapped (below len) (off + f.1) f.2)
      getRembRound 0 len (m, 0) := by
    rw [Inside, hround]
    exact ⟨hfields, trivial⟩
  obtain ⟨r, hr, rfl⟩ := (loop_checked (below len) (getRembBody_touches _) 0 len (m, 0)).ok hinside
  rw [getRemb, if_neg (by omega), ifVersion_eq (mapped_below.mpr (Or.inr (by omega))) hversion, hr,
    walked_stop hround]
  rfl

theorem rembAt_putRembId (m : Mem) : rembAt (putRembId m) 0 = true :=
  rembAt_iff.mpr ⟨rfl, rfl, rfl, rfl⟩

theorem rembAt_putBitrate (m : Mem) (off exp mantissa : Nat) :
    rembAt (putBitrate m off exp mantissa) off = rembAt m off := by
  have hbyte : ∀ k < 17, (putBitrate m off exp mantissa).getBe (off + k) 1 = m.getBe (off + k) 1 := by
    intro k hk
    apply Mem.getBe_congr
    intro a ha hlt
    exact putBitrate_outside (Or.inl (by omega))
  rw [rembAt, rembAt, hbyte 12 (by omega), hbyte 13 (by omega), hbyte 14 (by omega),
    hbyte 15 (by omega)]

section

variable (m : Mem) (bitrate : UInt64)

/-- What `janus_rtcp_remb` writes before the bitrate. -/
theorem written_remb : version (janusRtcpRemb m 24 bitrate).2 0 = 2 ∧
    type (janusRtcpRemb m 24 bitrate).2 0 = rtcpPsfb ∧
    rc (janusRtcpRemb m 24 bitrate).2 0 = 15 ∧ rembAt (janusRtcpRemb m 24 bitrate).2 0 = true := by
  have hkept : ∀ k < 4,
      (janusRtcpRemb m 24 bitrate).2 (0 + k) = setHeader m 15 rtcpPsfb 5 (0 + k) := by
    intro k hk
    show putBitrate (putRembId (setHeader m 15 rtcpPsfb 5)) 0 _ _ (0 + k) = _
    rw [putBitrate_outside (Or.inl (by omega)), putRembId, Mem.putBe_of_outside (Or.inl (by omega)),
      Mem.putBe_of_outside (Or.inl (by omega)), Mem.putBe_of_outside (Or.inl (by omega)),
      Mem.putBe_of_outside (Or.inl (by omega)), Mem.putBe_of_outside (Or.inl (by omega))]
  refine ⟨?_, ?_, ?_, ?_⟩
  · rw [version_congr hkept, version_setHeader m (by decide)]
  · rw [type_congr hkept, type_setHeader m (by decide)]
  · rw [rc_congr hkept, rc_setHeader m (by decide)]
  · exact (rembAt_putBitrate _ 0 _ _).trans (rembAt_putRembId _)

variable {bitrate} {e : Nat}

/-- The exponent and the mantissa that `janus_rtcp_remb` writes. -/
theorem written_bitrate (hb : bitrate.toNat ≤ 0x3FFFF * 2 ^ 46)
    (he : IsLeast (exponents bitrate.toNat) e) :
    expAt (janusRtcpRemb m 24 bitrate).2 0 = e ∧
      mantissaAt (janusRtcpRemb m 24 bitrate).2 0 = bitrate.toNat / 2 ^ e := by
  have hexp : e ≤ 46 := he.2 hb
  have hmem : (janusRtcpRemb m 24 bitrate).2 =
      putBitrate (putRembId (setHeader m 15 rtcpPsfb 5)) 0 (encodeBitrate bitrate).1
        (encodeBitrate bitrate).2 := rfl
  rw [hmem, encodeBitrate_eq hb he]
  exact ⟨expAt_putBitrate (by omega), mantissaAt_putBitrate (by omega) (mantissa_le he)⟩

/-- The bitrate that is written is read back but for its low bits if and only if it is
below 2 ^ 32. -/
theorem remb_round_trip_iff (hb : bitrate.toNat ≤ 0x3FFFF <<< 46)
    (he : IsLeast {e | bitrate.toNat ≤ 0x3FFFF <<< e} e) :
    getRemb (below 24) (janusRtcpRemb m 24 bitrate).2 24 =
        .ok ((bitrate.toNat >>> e) <<< e) ↔ bitrate.toNat < 2 ^ 32 := by
  simp only [Nat.shiftLeft_eq, Nat.shiftRight_eq_div_pow] at hb he ⊢
  obtain ⟨hversion, htype, hrc, hremb⟩ := written_remb m bitrate
  obtain ⟨hexp, hmantissa⟩ := written_bitrate m hb he
  have hread : bitrateAt (janusRtcpRemb m 24 bitrate).2 0 = shl32 (bitrate.toNat / 2 ^ e) e := by
    rw [← hmantissa, ← hexp]
    rfl
  rw [getRemb_first hversion htype hrc hremb (by decide), hread, ← shl32_eq_iff he]
  exact ⟨Except.ok.inj, congrArg Except.ok⟩

end

theorem remb_round_trip_300000 :
    IsLeast {e | (300000 : UInt64).toNat ≤ 0x3FFFF <<< e} 1 ∧
      getRemb (below 24) (janusRtcpRemb (fun _ => 0) 24 300000).2 24 = .ok 300000 := by
  have hleast : IsLeast {e | (300000 : UInt64).toNat ≤ 0x3FFFF <<< e} 1 := by
    refine ⟨by decide, ?_⟩
    intro e he
    by_contra hlt
    obtain rfl : e = 0 := by omega
    exact absurd he (by decide)
  exact ⟨hleast, (remb_round_trip_iff (fun _ => 0) (by decide) hleast).mpr (by decide)⟩

theorem remb_of_two_pow_32_is_read_as_zero :
    (4294967296 : UInt64).toNat ≤ 0x3FFFF <<< 46 ∧
      (∀ e < 15, ¬ (4294967296 : UInt64).toNat ≤ 0x3FFFF <<< e) ∧
      (4294967296 : UInt64).toNat ≤ 0x3FFFF <<< 15 ∧
      ((4294967296 : UInt64).toNat >>> 15) <<< 15 = 4294967296 ∧
      getRemb (below 24) (janusRtcpRemb (fun _ => 0) 24 4294967296).2 24 = .ok 0 := by
  decide +kernel

/-! ### `RtcpHeader::setREMBBitRate` -/

/-- `htonl` and `ntohl`. -/
def byteSwap (x : Nat) : Nat :=
  x % 256 * 2 ^ 24 + x / 2 ^ 8 % 256 * 2 ^ 16 + x / 2 ^ 16 % 256 * 2 ^ 8 + x / 2 ^ 24 % 256

/-- The loop of `setREMBBitRate`: the exponent. -/
def rembLoop (bitRate max exp : Nat) : Nat :=
  if max ≤ bitRate ∧ exp < 64 then rembLoop bitRate (max * 2 % 2 ^ 64) (exp + 1) else exp
termination_by 64 - exp

/-- `setREMBBitRate`: the field `brLength` of 24 bits. -/
def setREMBBitRate (bitRate : UInt64) : Nat :=
  let exp := rembLoop bitRate.toNat 0x3FFFF 0
  -- a count of 64 is taken modulo 64 by the processor
  let mantissa := bitRate.toNat / 2 ^ (exp % 64)
  let line := mantissa % 2 ^ 18 + exp % 64 * 2 ^ 18
  byteSwap line / 2 ^ 8

/-- `getBrExp`. -/
def getBrExp (brLength : Nat) : Nat := byteSwap brLength / 2 ^ 26

/-- `getBrMantis`. -/
def getBrMantis (brLength : Nat) : Nat := byteSwap brLength / 2 ^ 8 % 2 ^ 18

theorem byteSwap_bytes {x y z w : Nat} (hx : x < 256) (hy : y < 256) (hz : z < 256) (hw : w < 256) :
    byteSwap (x * 2 ^ 24 + y * 2 ^ 16 + z * 2 ^ 8 + w) =
      w * 2 ^ 24 + z * 2 ^ 16 + y * 2 ^ 8 + x := by
  have hthird : (x * 2 ^ 24 + y * 2 ^ 16 + z * 2 ^ 8 + w) / 2 ^ 8 % 256 = z := by omega
  have hsecond : (x * 2 ^ 24 + y * 2 ^ 16 + z * 2 ^ 8 + w) / 2 ^ 16 % 256 = y := by omega
  have hfirst : (x * 2 ^ 24 + y * 2 ^ 16 + z * 2 ^ 8 + w) / 2 ^ 24 % 256 = x := by omega
  rw [byteSwap, hthird, hsecond, hfirst]
  omega

/-- The bytes of 24 bits come back in the upper three bytes. -/
theorem byteSwap_byteSwap {x : Nat} (hx : x < 2 ^ 24) :
    byteSwap (byteSwap x / 2 ^ 8) = x * 2 ^ 8 := by
  have hbytes : x = 0 * 2 ^ 24 + x / 2 ^ 16 * 2 ^ 16 + x / 2 ^ 8 % 256 * 2 ^ 8 + x % 256 := by omega
  have hswap : byteSwap x / 2 ^ 8 =
      0 * 2 ^ 24 + x % 256 * 2 ^ 16 + x / 2 ^ 8 % 256 * 2 ^ 8 + x / 2 ^ 16 := by
    have hx' := byteSwap_bytes (x := 0) (y := x / 2 ^ 16) (z := x / 2 ^ 8 % 256) (w := x % 256)
      (by omega) (by omega) (by omega) (by omega)
    rw [← hbytes] at hx'
    rw [hx']
    omega
  rw [hswap, byteSwap_bytes (by omega) (by omega) (by omega) (by omega)]
  omega

theorem getBrExp_line {mantissa exp : Nat} (hm : mantissa < 2 ^ 18) (he : exp < 64) :
    getBrExp (byteSwap (mantissa + exp * 2 ^ 18) / 2 ^ 8) = exp := by
  rw [getBrExp, byteSwap_byteSwap (by omega)]
  omega

theorem getBrMantis_line {mantissa exp : Nat} (hm : mantissa < 2 ^ 18) (he : exp < 64) :
    getBrMantis (byteSwap (mantissa + exp * 2 ^ 18) / 2 ^ 8) = mantissa := by
  rw [getBrMantis, byteSwap_byteSwap (by omega)]
  omega

/-- The loop stops at the first exponent with which the bitrate is below the limit. -/
theorem rembLoop_eq {bitRate e j : Nat} (he : e ≤ 46) (hlt : bitRate < 0x3FFFF * 2 ^ e)
    (hge : ∀ i < e, 0x3FFFF * 2 ^ i ≤ bitRate) (hj : j ≤ e) :
    rembLoop bitRate (0x3FFFF * 2 ^ j) j = e := by
  induction hn : e - j generalizing j with
  | zero =>
    obtain rfl : j = e := by omega
    rw [rembLoop, if_neg (by omega)]
  | succ n ih =>
    have hpow := two_pow_le (show j + 1 ≤ 46 by omega)
    have hmax : 0x3FFFF * 2 ^ j * 2 % 2 ^ 64 = 0x3FFFF * 2 ^ (j + 1) := by
      rw [Nat.mod_eq_of_lt (by omega)]
      omega
    rw [rembLoop, if_pos ⟨hge j (by omega), by omega⟩, hmax]
    exact ih (by omega) (by omega)

section

variable {b : UInt64} {k : Nat}

/-- What `setREMBBitRate` makes of a bitrate that stays below the limit with `e`, and not
with a smaller exponent. -/
theorem setREMBBitRate_eq {e : Nat} (he : e ≤ 46) (hlt : b.toNat < 0x3FFFF * 2 ^ e)
    (hge : ∀ i < e, 0x3FFFF * 2 ^ i ≤ b.toNat) :
    getBrExp (setREMBBitRate b) = e ∧ getBrMantis (setREMBBitRate b) = b.toNat / 2 ^ e := by
  have hloop : rembLoop b.toNat 0x3FFFF 0 = e := rembLoop_eq (j := 0) he hlt hge (Nat.zero_le e)
  have hmantissa : b.toNat / 2 ^ e < 2 ^ 18 := by
    rw [Nat.div_lt_iff_lt_mul (Nat.two_pow_pos e)]
    omega
  have hfield : setREMBBitRate b = byteSwap (b.toNat / 2 ^ e + e * 2 ^ 18) / 2 ^ 8 := by
    rw [setREMBBitRate, hloop, Nat.mod_eq_of_lt (show e < 64 by omega), Nat.mod_eq_of_lt hmantissa]
  rw [hfield]
  exact ⟨getBrExp_line hmantissa (by omega), getBrMantis_line hmantissa (by omega)⟩

/-- At a limit the exponent is one too high, and the lowest bit of the mantissa is lost. -/
theorem setREMBBitRate_limit (hk : k < 46) (hb : b.toNat = 0x3FFFF * 2 ^ k) :
    getBrExp (setREMBBitRate b) = k + 1 ∧ getBrMantis (setREMBBitRate b) = 0x1FFFF := by
  have hpos := Nat.two_pow_pos k
  have hlt : b.toNat < 0x3FFFF * 2 ^ (k + 1) := by omega
  have hge : ∀ i < k + 1, 0x3FFFF * 2 ^ i ≤ b.toNat := by
    intro i hi
    have hpow := two_pow_le (Nat.lt_succ_iff.mp hi)
    omega
  have hdiv : b.toNat / 2 ^ (k + 1) = 0x1FFFF := by
    apply Nat.div_eq_of_lt_le
    · omega
    · omega
  rw [← hdiv]
  exact setREMBBitRate_eq hk hlt hge

end

/-- The two encoders agree on the bitrates that are not a limit. -/
theorem remb_encoders_iff (m : Mem) (b : UInt64) (hb : b.toNat < 2 ^ 32) :
    shl32 (getBrMantis (setREMBBitRate b)) (getBrExp (setREMBBitRate b)) =
        valueAt (janusRtcpRemb m 24 b).2 0 ↔ ∀ k, b.toNat ≠ 0x3FFFF * 2 ^ k := by
  obtain ⟨e, he, -⟩ := exists_isLeast_exponents (b := b.toNat) (by omega)
  have hexp : e ≤ 15 := he.2 (show b.toNat ≤ 0x3FFFF * 2 ^ 15 by omega)
  obtain ⟨hwexp, hwmantissa⟩ := written_bitrate m (by omega) he
  rw [valueAt, hwexp, hwmantissa]
  by_cases hlimit : b.toNat = 0x3FFFF * 2 ^ e
  · have hpos := Nat.two_pow_pos e
    obtain ⟨hgexp, hgmantissa⟩ := setREMBBitRate_limit (by omega) hlimit
    rw [hgexp, hgmantissa]
    refine ⟨?_, fun hno => absurd hlimit (hno e)⟩
    intro heq
    -- the value that is left is less by one unit of the exponent
    have hle : shl32 0x1FFFF (e + 1) ≤ 0x1FFFF * 2 ^ (e + 1) := by
      rw [shl32, Nat.mod_eq_of_lt (show e + 1 < 32 by omega)]
      exact Nat.mod_le _ _
    have hvalue : b.toNat / 2 ^ e * 2 ^ e = b.toNat := by
      rw [hlimit, Nat.mul_div_cancel _ hpos]
    omega
  · have hfit : b.toNat ≤ 0x3FFFF * 2 ^ e := he.1
    obtain ⟨hgexp, hgmantissa⟩ := setREMBBitRate_eq (by omega) (by omega)
      fun i hi => Nat.le_of_lt (lt_of_isLeast he hi)
    rw [hgexp, hgmantissa]
    refine ⟨?_, fun _ => (shl32_eq_iff he).mpr hb⟩
    intro _ k hk
    -- a limit has its own exponent as the least one
    have hle : e ≤ k := he.2 (Nat.le_of_eq hk)
    by_cases heq : k = e
    · rw [heq] at hk
      exact hlimit hk
    · have hpow := two_pow_le (show e + 1 ≤ k by omega)
      omega

theorem remb_encoders_300000 :
    (300000 : UInt64).toNat < 2 ^ 32 ∧
      shl32 (getBrMantis (setREMBBitRate 300000)) (getBrExp (setREMBBitRate 300000)) =
        valueAt (janusRtcpRemb (fun _ => 0) 24 300000).2 0 := by
  refine ⟨by decide, (remb_encoders_iff (fun _ => 0) 300000 (by decide)).mpr ?_⟩
  intro k hk
  have hk' : (300000 : UInt64).toNat = 300000 := by decide
  rcases k with - | - | k
  · omega
  · omega
  · have hpow := two_pow_le (show 2 ≤ k + 2 by omega)
    omega

/-- The greatest mantissa itself. -/
theorem remb_encoders_differ :
    shl32 (getBrMantis (setREMBBitRate 0x3FFFF)) (getBrExp (setREMBBitRate 0x3FFFF)) = 0x3FFFE ∧
      valueAt (janusRtcpRemb (fun _ => 0) 24 0x3FFFF).2 0 = 0x3FFFF := by
  decide +kernel

/-! ### `janus_rtcp_cap_remb` -/

namespace SubPacket

/-- A REMB: the identifier stands behind the two SSRCs. -/
def isRemb (p : SubPacket) : Bool :=
  decide (p.type.toNat = rtcpPsfb ∧ p.rc = 15 ∧ p.body.getD 8 0 = 82 ∧ p.body.getD 9 0 = 69 ∧
    p.body.getD 10 0 = 77 ∧ p.body.getD 11 0 = 66)

def brMantissa (p : SubPacket) : Nat :=
  (p.body.getD 13 0).toNat % 4 * 65536 + (p.body.getD 14 0).toNat * 256 + (p.body.getD 15 0).toNat

def brExp (p : SubPacket) : Nat := (p.body.getD 13 0).toNat / 4

/-- The bitrate that a REMB stands for. -/
def bitrate (p : SubPacket) : Nat := p.brMantissa * 2 ^ p.brExp

/-- `origbitrate`, with the shift of 32 bits. -/
def origbitrate (p : SubPacket) : Nat := shl32 p.brMantissa p.brExp

/-- A sub-packet of version 2 that has room for the SSRCs of a feedback message and for the
bitrate of a REMB. -/
structure Proper (p : SubPacket) : Prop where
  version : p.version = 2
  feedback : p.type.toNat = rtcpRtpfb ∨ p.type.toNat = rtcpPsfb → 2 ≤ p.words
  remb : p.isRemb = true → 4 ≤ p.words

/-- The REMB with another bitrate. -/
def withBitrate (p : SubPacket) (exp mantissa : Nat) : SubPacket :=
  { p with
    body := ((p.body.set 13 (UInt8.ofNat (exp * 4 + mantissa / 65536 % 4))).set 14
      (UInt8.ofNat (mantissa / 256))).set 15 (UInt8.ofNat mantissa)
    body_length := by simp only [List.length_set, p.body_length] }

/-- What a round makes of a sub-packet. -/
def capped (cap : UInt64) (p : SubPacket) : SubPacket :=
  if p.isRemb = true ∧ cap.toNat < p.origbitrate then
    p.withBitrate (encodeBitrate cap).1 (encodeBitrate cap).2
  else p

variable {p : SubPacket} {cap : UInt64}

theorem words_capped : (p.capped cap).words = p.words := by
  rw [capped]
  split
  · rfl
  · rfl

theorem origbitrate_le (p : SubPacket) : p.origbitrate ≤ p.bitrate := by
  have hpow : 2 ^ (p.brExp % 32) ≤ 2 ^ p.brExp := two_pow_le (Nat.mod_le _ _)
  exact (Nat.mod_le _ _).trans (Nat.mul_le_mul_left _ hpow)

theorem getD_set_ne {bs : List UInt8} {i k : Nat} (h : i ≠ k) (b : UInt8) :
    (bs.set i b).getD k 0 = bs.getD k 0 := by
  rw [List.getD_eq_getElem?_getD, List.getElem?_set_ne h, List.getD_eq_getElem?_getD]

theorem getD_set_self {bs : List UInt8} {k : Nat} (h : k < bs.length) (b : UInt8) :
    (bs.set k b).getD k 0 = b := by
  rw [List.getD_eq_getElem?_getD, List.getElem?_set_self h, Option.getD_some]

variable {exp mantissa : Nat}

theorem bitrate_withBitrate (hwords : 4 ≤ p.words) (hexp : exp < 64) (hm : mantissa ≤ 0x3FFFF) :
    (p.withBitrate exp mantissa).bitrate = mantissa * 2 ^ exp := by
  have hlen := p.body_length
  have h13 : ((p.withBitrate exp mantissa).body.getD 13 0).toNat =
      exp * 4 + mantissa / 65536 % 4 := by
    show ((((p.body.set 13 _).set 14 _).set 15 _).getD 13 0).toNat = _
    rw [getD_set_ne (by decide), getD_set_ne (by decide), getD_set_self (by omega),
      UInt8.toNat_ofNat']
    omega
  have h14 : ((p.withBitrate exp mantissa).body.getD 14 0).toNat = mantissa / 256 % 256 := by
    show ((((p.body.set 13 _).set 14 _).set 15 _).getD 14 0).toNat = _
    rw [getD_set_ne (by decide), getD_set_self (by rw [List.length_set]; omega),
      UInt8.toNat_ofNat']
  have h15 : ((p.withBitrate exp mantissa).body.getD 15 0).toNat = mantissa % 256 := by
    show ((((p.body.set 13 _).set 14 _).set 15 _).getD 15 0).toNat = _
    rw [getD_set_self (by rw [List.length_set, List.length_set]; omega), UInt8.toNat_ofNat']
  have hbrExp : (p.withBitrate exp mantissa).brExp = exp := by
    rw [brExp, h13]
    omega
  have hbrMantissa : (p.withBitrate exp mantissa).brMantissa = mantissa := by
    rw [brMantissa, h13, h14, h15]
    omega
  rw [bitrate, hbrExp, hbrMantissa]

end SubPacket

section

variable {m : Mem} {off : Nat} {p : SubPacket} {cap : UInt64}

theorem byte_of_holds (h : m.Holds off p.encode) {k : Nat} (hk : k < 4 * p.words) :
    m.getBe (off + (4 + k)) 1 = (p.body.getD k 0).toNat := by
  have hbyte : m (off + 4 + k) = p.body.getD k 0 := (Holds.body h).getD (by rwa [p.body_length])
  rw [← hbyte, Nat.add_assoc, Mem.getBe, Mem.getBe, Nat.mul_zero, Nat.zero_add, Nat.add_zero]

/-- The letters of the identifier, in a sub-packet that has room for them. -/
theorem rembAt_of_holds (h : m.Holds off p.encode) (hwords : 3 ≤ p.words)
    (htype : p.type.toNat = rtcpPsfb) (hrc : p.rc = 15) : rembAt m off = p.isRemb := by
  rw [Bool.eq_iff_iff, rembAt_iff, byte_of_holds h (k := 8) (by omega),
    byte_of_holds h (k := 9) (by omega), byte_of_holds h (k := 10) (by omega),
    byte_of_holds h (k := 11) (by omega), SubPacket.isRemb, decide_eq_true_eq,
    ← UInt8.toNat_inj, ← UInt8.toNat_inj, ← UInt8.toNat_inj, ← UInt8.toNat_inj]
  exact ⟨fun hid => ⟨htype, hrc, hid⟩, fun hid => hid.2.2⟩

theorem bitrateAt_of_holds (h : m.Holds off p.encode) (hwords : 4 ≤ p.words) :
    bitrateAt m off = p.origbitrate := by
  have h13 := byte_of_holds h (k := 13) (by omega)
  have h14 := byte_of_holds h (k := 14) (by omega)
  have h15 := byte_of_holds h (k := 15) (by omega)
  rw [bitrateAt, h13, h14, h15]
  rfl

/-- The bitrate is written inside the REMB. -/
theorem holds_putBitrate (h : m.Holds off p.encode) (exp mantissa : Nat) :
    (putBitrate m off exp mantissa).Holds off (p.withBitrate exp mantissa).encode := by
  have hbody := (((Holds.body h).set 13 (exp * 4 + mantissa / 65536 % 4)).set 14
    (mantissa / 256)).set 15 mantissa
  have hkept : ∀ a < off + 4, putBitrate m off exp mantissa a = m a :=
    fun a ha => putBitrate_outside (Or.inl (by omega))
  refine ⟨(hkept off (by omega)).trans h.1, (hkept (off + 1) (by omega)).trans h.2.1, ?_⟩
  rw [Mem.holds_append, Mem.length_toBe]
  refine ⟨(Mem.holds_append.mp h.2.2).1.congr ?_, hbody⟩
  intro k hk
  rw [Mem.length_toBe] at hk
  exact hkept _ (by omega)

theorem capRembRound_eq (u : Unit) :
    capRembRound cap off (m, u) = .next (if type m off = rtcpPsfb ∧ rc m off = 15 ∧
      rembAt m off = true ∧ cap.toNat < bitrateAt m off then capAt cap m off else m, u) := by
  rw [capRembRound]
  by_cases htype : type m off = rtcpPsfb
  · by_cases hrc : rc m off = 15
    · by_cases hremb : rembAt m off = true
      · by_cases hcap : cap.toNat < bitrateAt m off
        · simp [htype, hrc, hremb, hcap]
        · simp [htype, hrc, hremb, hcap]
      · simp [htype, hrc, hremb]
    · simp [htype, hrc]
  · simp [htype]

/-- The letters of the identifier are not those of the sub-packet only if it has none, and
then it is the last one. -/
theorem last_of_rembAt {qs : List SubPacket} (hp : p.Proper) (hqs : ∀ q ∈ qs, q.Proper)
    (h : m.Holds off (encode (p :: qs))) (hremb : p.isRemb ≠ true)
    (htype : p.type.toNat = rtcpPsfb) (hrc : p.rc = 15) (hat : rembAt m off = true) :
    p.words = 2 ∧ qs = [] := by
  obtain ⟨hpm, hqm⟩ := holds_encode_cons.mp h
  have hfeedback := hp.feedback (Or.inr htype)
  have hwords : p.words = 2 := by
    by_contra hne
    exact hremb ((rembAt_of_holds hpm (by omega) htype hrc).symm.trans hat)
  refine ⟨hwords, ?_⟩
  rcases qs with - | ⟨q, qs⟩
  · rfl
  · -- the first letter would be the first byte of the next sub-packet, of version 2
    have hversion := (hqs q List.mem_cons_self).version
    rw [p.length_encode, hwords] at hqm
    rw [← Holds.version (holds_encode_cons.mp hqm).1, version] at hversion
    have hletter : m.getBe (off + (2 * 4 + 4)) 1 = 82 := (rembAt_iff.mp hat).1
    omega

/-- A round replaces a REMB above the cap, and leaves every other sub-packet. -/
theorem capRembRound_capped {qs : List SubPacket} (hp : p.Proper) (hqs : ∀ q ∈ qs, q.Proper)
    (h : m.Holds off (encode (p :: qs))) (u : Unit) :
    ∃ m' u', capRembRound cap off (m, u) = .next (m', u') ∧
      m'.Holds off (encode (p.capped cap :: qs)) ∧ ∀ b < off, m' b = m b := by
  obtain ⟨hpm, hqm⟩ := holds_encode_cons.mp h
  have hsize := p.length_encode
  refine ⟨_, _, capRembRound_eq u, ?_, ?_⟩
  · rw [Holds.type hpm, Holds.rc hpm]
    by_cases hremb : p.isRemb = true
    · obtain ⟨htype, hrc, -⟩ := decide_eq_true_iff.mp hremb
      have hwords := hp.remb hremb
      have hat : rembAt m off = true := (rembAt_of_holds hpm (by omega) htype hrc).trans hremb
      rw [bitrateAt_of_holds hpm hwords]
      by_cases hcap : cap.toNat < p.origbitrate
      · rw [if_pos ⟨htype, hrc, hat, hcap⟩, SubPacket.capped, if_pos ⟨hremb, hcap⟩,
          holds_encode_cons]
        refine ⟨holds_putBitrate hpm _ _, ?_⟩
        rw [SubPacket.length_encode]
        show Mem.Holds _ (off + (p.words * 4 + 4)) _
        rw [← hsize]
        exact hqm.congr fun k hk => putBitrate_outside (Or.inr (by omega))
      · rw [if_neg fun hc => hcap hc.2.2.2, SubPacket.capped, if_neg fun hc => hcap hc.2]
        exact h
    · have hsame : p.capped cap = p := if_neg fun hc => hremb hc.1
      rw [hsame]
      by_cases hall : p.type.toNat = rtcpPsfb ∧ p.rc = 15 ∧ rembAt m off = true ∧
          cap.toNat < bitrateAt m off
      · -- the letters and the bitrate are behind the packet
        obtain ⟨hwords, rfl⟩ := last_of_rembAt hp hqs h hremb hall.1 hall.2.1 hall.2.2.1
        rw [if_pos hall]
        refine h.congr ?_
        intro k hk
        rw [length_encode_cons] at hk
        have hnil : (encode []).length = 0 := rfl
        exact putBitrate_outside (Or.inl (by omega))
      · rw [if_neg hall]
        exact h
  · intro b hb
    by_cases hall : type m off = rtcpPsfb ∧ rc m off = 15 ∧ rembAt m off = true ∧
        cap.toNat < bitrateAt m off
    · rw [if_pos hall]
      exact putBitrate_outside (Or.inl (by omega))
    · rw [if_neg hall]

end

/-- What `janus_rtcp_cap_remb` makes of a compound packet. -/
theorem capRemb_capped {ps : List SubPacket} (hps : ∀ p ∈ ps, p.Proper) {m : Mem}
    (hm : m.Holds 0 (encode ps)) {cap : UInt64} (hcap : cap ≠ 0) :
    ∃ ret m', capRemb everywhere cap m (encode ps).length = .ok (ret, m') ∧
      m'.Holds 0 (encode (ps.map (SubPacket.capped cap))) := by
  rcases ps with - | ⟨p, ps⟩
  · exact ⟨-1, m, rfl, trivial⟩
  have hne : p :: ps ≠ [] := List.cons_ne_nil p ps
  have hround : ∀ q qs off m (u : Unit), q :: qs <:+ p :: ps → m.Holds off (encode (q :: qs)) →
      ∃ m' u', capRembRound cap off (m, u) = .next (m', u') ∧
        m'.Holds off (encode (q.capped cap :: qs)) ∧ ∀ b < off, m' b = m b := by
    intro q qs off m u hsuf hq
    have hproper : ∀ r ∈ q :: qs, r.Proper := fun r hr => hps r (hsuf.subset hr)
    exact capRembRound_capped (hproper q List.mem_cons_self)
      (fun r hr => hproper r (List.mem_cons_of_mem q hr)) hq u
  obtain ⟨hwalked, -⟩ := walked_map (fun _ => SubPacket.words_capped) hround hne () hm
  have hversion : version m 0 = 2 := by
    rw [Holds.version (holds_encode_cons.mp hm).1]
    exact (hps p List.mem_cons_self).version
  have hpos : (encode (p :: ps)).length ≠ 0 := by
    rw [length_encode_cons, p.length_encode]
    omega
  refine ⟨0, _, ?_, hwalked⟩
  rw [capRemb, if_neg hpos, ifVersion_eq (mapped_everywhere 0 1) hversion, if_neg hcap,
    loop_everywhere (capRembBody_touches everywhere cap)]
  rfl

/-- What capping should make of a sub-packet: a REMB that is not above the cap, and no change
but to a REMB that was. -/
structure Capped (cap : Nat) (p p' : SubPacket) : Prop where
  le : p'.isRemb = true → p'.bitrate ≤ cap
  same : p.isRemb = false ∨ p.bitrate ≤ cap → p' = p

/-- The code caps a REMB that it takes for one above the cap. -/
theorem capped_of_lt {p : SubPacket} {cap : UInt64} (hp : p.Proper) (hremb : p.isRemb = true)
    (hcap : cap.toNat < p.origbitrate) : Capped cap.toNat p (p.capped cap) := by
  have horig : p.origbitrate < 2 ^ 32 := Nat.mod_lt _ (by decide)
  obtain ⟨e, he, hexp⟩ := exists_isLeast_exponents (b := cap.toNat) (by omega)
  rw [SubPacket.capped, if_pos ⟨hremb, hcap⟩, encodeBitrate_eq (by omega) he]
  refine ⟨?_, ?_⟩
  · intro _
    rw [SubPacket.bitrate_withBitrate (hp.remb hremb) (by omega) (mantissa_le he)]
    exact Nat.div_mul_le_self _ _
  · have hle := p.origbitrate_le
    rintro (hno | hbitrate)
    · rw [hno] at hremb
      cases hremb
    · omega

/-- All REMBs are capped if and only if none of those above the cap has 32 bits that are
not. -/
theorem cap_remb_iff (ps : List SubPacket) (hps : ∀ p ∈ ps, p.Proper) (stale : Mem) (cap : UInt64)
    (hcap : 0 < cap) :
    (∃ ret m' ps', capRemb everywhere cap (Mem.lay (encode ps) stale) (encode ps).length =
          .ok (ret, m') ∧
        m'.read 0 (encode ps).length = encode ps' ∧ List.Forall₂ (Capped cap.toNat) ps ps') ↔
      ∀ p ∈ ps, p.isRemb = true → cap.toNat < p.bitrate → cap.toNat < p.origbitrate := by
  have hne : cap ≠ 0 := by
    rintro rfl
    exact absurd hcap (by decide)
  obtain ⟨ret, m', hrun, hm'⟩ := capRemb_capped hps (Mem.holds_lay (encode ps) stale) hne
  have hlength : (encode (ps.map (SubPacket.capped cap))).length = (encode ps).length := by
    clear hps hrun hm'
    induction ps with
    | nil => rfl
    | cons p ps ih =>
      rw [List.map_cons, length_encode_cons, length_encode_cons, ih, SubPacket.length_encode,
        SubPacket.words_capped, SubPacket.length_encode]
  rw [Mem.holds_iff_read, hlength] at hm'
  constructor
  · rintro ⟨ret', m'', ps', hrun', hread, hcapped⟩ p hp hremb hlt
    obtain ⟨rfl, rfl⟩ := Prod.mk.inj (Except.ok.inj (hrun.symm.trans hrun'))
    obtain rfl := encode_injective (hread.symm.trans hm')
    rw [List.forall₂_map_right_iff, List.forall₂_same] at hcapped
    by_contra hle
    -- then the sub-packet was left as it was
    have hsame : p.capped cap = p := if_neg fun hc => hle hc.2
    have hbitrate := (hcapped p hp).le
    rw [hsame] at hbitrate
    have hbound := hbitrate hremb
    omega
  · intro hcond
    refine ⟨ret, m', _, hrun, hm', ?_⟩
    rw [List.forall₂_map_right_iff, List.forall₂_same]
    intro p hp
    by_cases hall : p.isRemb = true ∧ cap.toNat < p.origbitrate
    · exact capped_of_lt (hps p hp) hall.1 hall.2
    · have hsame : p.capped cap = p := if_neg hall
      rw [hsame]
      refine ⟨?_, fun _ => rfl⟩
      intro hremb
      by_contra hlt
      exact hall ⟨hremb, hcond p hp hremb (Nat.lt_of_not_le hlt)⟩

/-- A REMB with the given exponent and mantissa. -/
def rembPacket (exp mantissa : UInt8) : SubPacket where
  first := 0x8F
  type := 206
  words := 5
  body := [0, 0, 0, 0, 0, 0, 0, 0, 82, 69, 77, 66, 1, exp * 4, 0, mantissa, 0, 0, 0, 1]
  body_length := rfl
  words_pos := by decide
  words_lt := by decide

theorem cap_remb_of_400 :
    (rembPacket 3 50).bitrate = 400 ∧
      ∃ ret m' ps', capRemb everywhere 100 (Mem.lay (encode [rembPacket 3 50]) fun _ => 0) 24 =
          .ok (ret, m') ∧
        m'.read 0 24 = encode ps' ∧ List.Forall₂ (Capped 100) [rembPacket 3 50] ps' := by
  have hproper : ∀ p ∈ [rembPacket 3 50], p.Proper := by
    intro p hp
    rw [List.mem_singleton.mp hp]
    exact ⟨by decide, by decide, by decide⟩
  refine ⟨by decide, (cap_remb_iff _ hproper (fun _ => 0) 100 (by decide)).mpr ?_⟩
  decide

/-- A REMB of 2 ^ 32, for which the code computes 0. -/
theorem cap_remb_misses :
    (rembPacket 31 2).bitrate = 2 ^ 32 ∧ (rembPacket 31 2).isRemb = true ∧
      (capRemb everywhere 100 (Mem.lay (encode [rembPacket 31 2]) fun _ => 0) 24).map
        (fun r => r.2.read 0 24) = .ok (encode [rembPacket 31 2]) := by
  decide +kernel

end Orbit.Janus
