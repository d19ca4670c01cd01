/-
OrbitStream/RtcpBounds.lean

Which buffers the functions that walk over a compound RTCP packet leave
(`rtp/janus_rtcp_processor.cc`).

A function uses the bytes of a sub-packet up to a place that depends on the header, and for a REMB
on its letters (`Walker.reach`).  `Walker.Fits` follows the length fields through the bytes that
came in, and asks at each sub-packet whether that many bytes are left.  No test of the code does
so: `walker_in_bounds` says that the buffers that fit are the ones that are not left, as long as
`janus_rtcp_fix_ssrc` and `janus_rtcp_cap_remb` do not write from a short sub-packet into the
header of the next.
-/
import OrbitStream.RtcpRewrite

namespace Orbit.Janus

open Lib

/-! ### Calls -/

/-- The functions that walk over a compound packet, with their arguments. -/
inductive Walker
  | getNacks
  | fixSsrc (a : FixArgs) (now : Nat → Int) (ctx : Option RtcpContext)
  | hasFir
  | hasPli
  | getRemb
  | capRemb (bitrate : UInt64)
  | removeNacks

namespace Walker

/-- A call, of which only the accesses count. -/
def run (w : Walker) (ok : Nat → Bool) (m : Mem) (len : Nat) : Except Nat Unit :=
  match w with
  | getNacks => do let _ ← Janus.getNacks ok m len; .ok ()
  | fixSsrc a now ctx => do let _ ← Janus.fixSsrc ok a now ctx m len; .ok ()
  | hasFir => do let _ ← Janus.hasFir ok m len; .ok ()
  | hasPli => do let _ ← Janus.hasPli ok m len; .ok ()
  | getRemb => do let _ ← Janus.getRemb ok m len; .ok ()
  | capRemb bitrate => do let _ ← Janus.capRemb ok bitrate m len; .ok ()
  | removeNacks => do let _ ← Janus.removeNacks ok m len; .ok ()

/-- The functions that test for an empty packet. -/
def testsLen : Walker → Bool
  | hasFir | hasPli => false
  | _ => true

end Walker

/-! ### The bytes that are used of a sub-packet -/

/-- The letters of a REMB, up to the first wrong one. -/
def lettersReach (m : Mem) (off : Nat) : Nat :=
  if m.getBe (off + 12) 1 = 82 then
    if m.getBe (off + 13) 1 = 69 then if m.getBe (off + 14) 1 = 77 then 16 else 15 else 14
  else 13

/-- The letters and, of a REMB, the bytes up to `n`. -/
def rembReach (n : Nat) (m : Mem) (off : Nat) : Nat :=
  if rembAt m off = true then n else lettersReach m off

/-- The entries of a generic NACK: all of the sub-packet. -/
def entriesReach (m : Mem) (off : Nat) : Nat := if 3 ≤ length m off then size m off else 0

section

variable (a : FixArgs) (m : Mem) (off : Nat)

/-- The bytes up to `n`, if the SSRC of the sender is set there. -/
def reachL (n : Nat) : Nat := if a.setsL then n else 0

/-- The bytes up to `n`, if the SSRC of the receiver is set there. -/
def reachR (n : Nat) : Nat := if a.setsR then n else 0

def reportReach (n : Nat) : Nat := max (reachL a 8) (if 0 < rc m off then reachR a n else 0)

def rtpfbReach : Nat :=
  max (reachL a 8)
    (if rc m off = 1 then max (reachR a 12) (entriesReach m off)
      else if rc m off = 3 then reachR a 16 else 0)

def psfbReach : Nat :=
  max (reachL a 8)
    (if rc m off = 1 then reachR a 12
      else if rc m off = 4 then reachR a 16
      else if rc m off = 5 then reachR a 16
      else if rc m off = 15 then rembReach 24 m off else 0)

/-- What `janus_rtcp_fix_ssrc` uses of a sub-packet behind its header. -/
def fixReach (ctx : Option RtcpContext) : Nat :=
  if type m off = rtcpSr then max (if ctx.isSome = true then 16 else 0) (reportReach a m off 32)
  else if type m off = rtcpRr then reportReach a m off 12
  else if type m off = rtcpSdes then reachL a 12
  else if type m off = rtcpBye then reachL a 8
  else if type m off = rtcpApp then reachL a 8
  else if type m off = rtcpFir then reachR a 16
  else if type m off = rtcpRtpfb then rtpfbReach a m off
  else if type m off = rtcpPsfb then psfbReach a m off
  else 0

end

namespace Walker

/-- The bytes of the sub-packet at `off` that a function uses, counted from its start. -/
def reach (w : Walker) (m : Mem) (off : Nat) : Nat :=
  match w with
  | getNacks =>
    max 4 (if type m off = rtcpRtpfb ∧ rc m off = 1 then entriesReach m off else 0)
  | fixSsrc a _ ctx => max 4 (fixReach a m off ctx)
  | getRemb | capRemb _ =>
    max 4 (if type m off = rtcpPsfb ∧ rc m off = 15 then rembReach 20 m off else 0)
  | hasFir | hasPli | removeNacks => 4

/-- The sub-packets that a function does not look behind. -/
def stops (w : Walker) (m : Mem) (off : Nat) : Bool :=
  match w with
  | getRemb => decide (type m off = rtcpPsfb ∧ rc m off = 15 ∧ rembAt m off = true)
  | removeNacks => decide (type m off = rtcpRtpfb ∧ rc m off = 1)
  | _ => false

/-- The calls that write while they walk. -/
def writes : Walker → Bool
  | fixSsrc a _ _ => decide (a.setsL ∨ a.setsR)
  | capRemb _ => true
  | _ => false

/-- A call that returns before it walks. -/
def idle : Walker → Bool
  | capRemb bitrate => decide (bitrate = 0)
  | _ => false

end Walker

/-- Bytes as they are read, from address 0 on. -/
def seen (bytes : List UInt8) : Mem := Mem.lay bytes fun _ => 0

/-- The walk ends at the first sub-packet. -/
def Walker.Last (w : Walker) (bytes : List UInt8) : Prop :=
  w.stops (seen bytes) 0 = true ∨ length (seen bytes) 0 = 0 ∨ bytes.length ≤ size (seen bytes) 0

/-- At each sub-packet that the length fields lead to, as many bytes are left as the function
uses. -/
def Walker.Fits (w : Walker) (bytes : List UInt8) : Prop :=
  w.reach (seen bytes) 0 ≤ bytes.length ∧
    ∀ _h : ¬ w.Last bytes, w.Fits (bytes.drop (size (seen bytes) 0))
termination_by bytes.length
decreasing_by
  simp only [Walker.Last, size] at _h ⊢
  rw [List.length_drop]
  omega

/-- Each sub-packet but the last has the bytes that a call that writes uses of it. -/
def Walker.Apart (w : Walker) (bytes : List UInt8) : Prop :=
  ∀ _h : ¬ w.Last bytes,
    (w.writes = true → w.reach (seen bytes) 0 ≤ size (seen bytes) 0) ∧
      w.Apart (bytes.drop (size (seen bytes) 0))
termination_by bytes.length
decreasing_by
  simp only [Walker.Last, size] at _h ⊢
  rw [List.length_drop]
  omega

/-- The packets that a call does not leave. -/
def Walker.InBounds (w : Walker) (bytes : List UInt8) : Prop :=
  if bytes = [] then w.testsLen = true
  else version (seen bytes) 0 = 2 → w.idle = true ∨ (w.Fits bytes ∧ w.Apart bytes)

/-! ### The fields end where the function stops reading -/

/-- All fields end before byte `n`. -/
def Ends (n : Nat) (fields : List (Nat × Nat)) : Prop := ∀ f ∈ fields, f.2 = 0 ∨ f.1 + f.2 ≤ n

section

variable {n i k : Nat} {fields fields' : List (Nat × Nat)} {c : Prop} [Decidable c]

theorem mapped_iff_ends {off : Nat} :
    (∀ f ∈ fields, Mapped (below (off + n)) (off + f.1) f.2) ↔ Ends n fields := by
  refine forall₂_congr fun f _ => mapped_below.trans ?_
  omega

theorem ends_append : Ends n (fields ++ fields') ↔ Ends n fields ∧ Ends n fields' :=
  List.forall_mem_append

theorem ends_nil : Ends n [] := fun _ hf => absurd hf List.not_mem_nil

theorem ends_single : Ends n [(i, k + 1)] ↔ i + (k + 1) ≤ n := by
  simp [Ends]

theorem ends_ite : Ends n (if c then fields else fields') ↔
    (c → Ends n fields) ∧ (¬ c → Ends n fields') := by
  by_cases hc : c
  · simp [hc]
  · simp [hc]

theorem ite_le {k' : Nat} : (if c then k else k') ≤ n ↔ (c → k ≤ n) ∧ (¬ c → k' ≤ n) := by
  by_cases hc : c
  · simp [hc]
  · simp [hc]

variable {a : FixArgs}

theorem ends_wordL : Ends n (filled (wordL a i)) ↔ reachL a (i + 4) ≤ n := by
  by_cases h : a.setsL
  · simp [wordL, filled, reachL, h, ends_single]
  · simp [wordL, filled, reachL, h, ends_nil]

theorem ends_wordR : Ends n (filled (wordR a i)) ↔ reachR a (i + 4) ≤ n := by
  by_cases h : a.setsR
  · simp [wordR, filled, reachR, h, ends_single]
  · simp [wordR, filled, reachR, h, ends_nil]

variable {m : Mem} {off : Nat}

theorem reachR_le {j : Nat} (hj : j ≤ k) (h : reachR a k ≤ n) : reachR a j ≤ n := by
  rw [reachR, ite_le] at h ⊢
  exact ⟨fun hr => Nat.le_trans hj (h.1 hr), h.2⟩

theorem ends_rembFields : Ends n (rembFields m off) ↔ lettersReach m off ≤ n := by
  by_cases hr : m.getBe (off + 12) 1 = 82
  · by_cases he : m.getBe (off + 13) 1 = 69
    · by_cases hm : m.getBe (off + 14) 1 = 77
      · simp only [rembFields, lettersReach, ends_append, ends_single, if_pos hr, if_pos he,
          if_pos hm]
        omega
      · simp only [rembFields, lettersReach, ends_append, ends_single, if_pos hr, if_pos he,
          if_neg hm, ends_nil, and_true]
        omega
    · simp only [rembFields, lettersReach, ends_append, ends_single, if_pos hr, if_neg he, ends_nil,
        and_true]
      omega
  · simp only [rembFields, lettersReach, ends_append, ends_single, if_neg hr, ends_nil, and_true]

/-- A REMB whose fields behind the letters end at `k`. -/
theorem ends_remb {k : Nat} (hk : 16 ≤ k) (h : rembAt m off = true → (Ends n fields ↔ k ≤ n)) :
    Ends n (rembFields m off ++ if rembAt m off = true then fields else []) ↔
      rembReach k m off ≤ n := by
  rw [ends_append, ends_rembFields, ends_ite, rembReach]
  by_cases hremb : rembAt m off = true
  · have hletters : lettersReach m off ≤ 16 := by
      rw [lettersReach]
      repeat' split
      all_goals omega
    rw [if_pos hremb, ← h hremb]
    refine ⟨fun hends => hends.2.1 hremb, fun hends => ⟨?_, fun _ => hends, absurd hremb⟩⟩
    have hkn := (h hremb).mp hends
    omega
  · rw [if_neg hremb]
    exact ⟨fun hends => hends.1, fun hends => ⟨hends, fun hpos => absurd hpos hremb,
      fun _ => ends_nil⟩⟩

theorem ends_nackFields : Ends n (nackFields m off) ↔ entriesReach m off ≤ n := by
  have hsize : size m off = length m off * 4 + 4 := rfl
  rw [entriesReach, ite_le]
  constructor
  · refine fun h => ⟨fun hlength => ?_, fun _ => Nat.zero_le n⟩
    -- the last entry
    have hlast := h (14 + 4 * (length m off - 3), 2) (List.mem_flatMap.mpr
      ⟨length m off - 3, List.mem_range.mpr (by omega), by simp⟩)
    simp only at hlast
    omega
  · rintro ⟨h, -⟩ f hf
    obtain ⟨i, hi, hf⟩ := List.mem_flatMap.mp hf
    have hlt := List.mem_range.mp hi
    have hle := h (by omega)
    simp only [List.mem_cons, List.not_mem_nil, or_false] at hf
    rcases hf with rfl | rfl
    · right
      simp only
      omega
    · right
      simp only
      omega

theorem ends_reportFields {rb : Nat} (h4 : 4 ≤ n) :
    Ends n (reportFields a m off rb) ↔ reportReach a m off (rb + 4) ≤ n := by
  rw [reportFields, ends_append, ends_wordL, reportReach, Nat.max_le]
  refine and_congr_right fun _ => ?_
  by_cases hr : a.setsR
  · by_cases hrc : 0 < rc m off
    · simp only [if_pos hr, if_pos hrc, reachR, ends_append, ends_single]
      omega
    · simp only [if_pos hr, if_neg hrc, ends_append, ends_single, ends_nil, and_true]
      omega
  · simp [hr, reachR, ends_nil]

theorem ends_firFields : Ends n (firFields a m off) ↔ reachR a 16 ≤ n := by
  rw [firFields, ends_append, ends_wordR]
  refine and_iff_right_of_imp fun h => ?_
  by_cases hr : a.setsR
  · rw [reachR, if_pos hr] at h
    simp only [if_pos hr, ends_append, ends_ite, ends_single, ends_nil, implies_true, and_true]
    omega
  · rw [if_neg hr]
    exact ends_nil

theorem ends_rtpfbFields (h4 : 4 ≤ n) :
    Ends n (rtpfbFields a m off) ↔ rtpfbReach a m off ≤ n := by
  have hheader : Ends n [(0, 1)] := ends_single.mpr (by omega)
  have hlength : Ends n [(2, 2)] := ends_single.mpr (by omega)
  simp only [rtpfbFields, rtpfbReach, ends_append, ends_ite, ends_wordL, ends_wordR, ends_nackFields,
    Nat.max_le, ite_le, hheader, hlength, ends_nil, true_and, Nat.zero_le, implies_true, and_true]
  exact And.comm

theorem ends_psfbFields (h4 : 4 ≤ n) : Ends n (psfbFields a m off) ↔ psfbReach a m off ≤ n := by
  have hheader : Ends n [(0, 1)] := ends_single.mpr (by omega)
  have hlog : Ends n [(16, 1), (17, 1), (18, 1), (19, 1), (20, 4)] ↔ 24 ≤ n := by
    simp [Ends]
    omega
  have hremb : Ends n (rembFields m off ++ if rembAt m off = true then
      filled (wordR a 20) ++ [(16, 1), (17, 1), (18, 1), (19, 1), (20, 4)] else []) ↔
        rembReach 24 m off ≤ n := by
    refine ends_remb (by decide) fun _ => ?_
    rw [ends_append, ends_wordR, hlog, reachR, ite_le]
    exact and_iff_right_of_imp fun h => ⟨fun _ => h, fun _ => Nat.zero_le n⟩
  rw [psfbFields, ends_append, ends_append, and_iff_right hheader, ends_wordL, And.comm, psfbReach,
    Nat.max_le]
  refine and_congr_right fun _ => ?_
  by_cases h1 : rc m off = 1
  · rw [if_pos h1, if_pos h1]
    exact ends_wordR
  rw [if_neg h1, if_neg h1]
  by_cases h4 : rc m off = 4
  · rw [if_pos h4, if_pos h4, ends_append, ends_wordR, ends_wordR]
    exact and_iff_right_of_imp (reachR_le (by decide))
  rw [if_neg h4, if_neg h4]
  by_cases h5 : rc m off = 5
  · rw [if_pos h5, if_pos h5]
    exact ends_wordR
  rw [if_neg h5, if_neg h5]
  by_cases h15 : rc m off = 15
  · rw [if_pos h15, if_pos h15]
    exact hremb
  · rw [if_neg h15, if_neg h15]
    exact iff_of_true ends_nil (Nat.zero_le n)

theorem ends_fixFields (s : Mem × Option RtcpContext) (h4 : 4 ≤ n) :
    Ends n (fixFields a off s) ↔ fixReach a s.1 off s.2 ≤ n := by
  have hheader : Ends n [(1, 1)] := ends_single.mpr (by omega)
  have hctx : Ends n (ctxFields s.2) ↔ (if s.2.isSome = true then 16 else 0) ≤ n := by
    by_cases hsome : s.2.isSome = true
    · rw [ctxFields, if_pos hsome, if_pos hsome]
      simp [Ends]
      omega
    · rw [ctxFields, if_neg hsome, if_neg hsome]
      exact iff_of_true ends_nil (Nat.zero_le n)
  rw [fixFields, ends_append, and_iff_right hheader, fixReach]
  by_cases hsr : type s.1 off = rtcpSr
  · rw [if_pos hsr, if_pos hsr, ends_append, Nat.max_le, hctx, ends_reportFields h4]
  rw [if_neg hsr, if_neg hsr, otherFields]
  -- the rest of the types, one after the other
  simp only [ends_ite, ite_le, ends_reportFields h4, ends_wordL, ends_firFields,
    ends_rtpfbFields h4, ends_psfbFields h4, ends_nil, Nat.zero_le]

end

/-! ### What a function uses depends on these bytes only -/

/-- Two memories agree on `n` bytes. -/
def Same (m : Mem) (off : Nat) (m' : Mem) (off' n : Nat) : Prop :=
  ∀ k < n, m' (off' + k) = m (off + k)

section

variable {m m' : Mem} {off off' n k : Nat}

theorem Same.getBe (h : Same m off m' off' n) {i w : Nat} (hi : i + w ≤ n) :
    m'.getBe (off' + i) w = m.getBe (off + i) w := by
  induction w with
  | zero => rfl
  | succ w ih =>
    rw [Mem.getBe, Mem.getBe, ih (by omega), Nat.add_assoc, Nat.add_assoc, h (i + w) (by omega)]

theorem Same.header (h : Same m off m' off' n) (h4 : 4 ≤ n) :
    type m' off' = type m off ∧ rc m' off' = rc m off ∧ length m' off' = length m off := by
  refine ⟨h.getBe (by omega), ?_, h.getBe (by omega)⟩
  have hfirst := h.getBe (i := 0) (w := 1) (by omega)
  rw [Nat.add_zero, Nat.add_zero] at hfirst
  rw [rc, rc, hfirst]

/-- The letters that are compared are among them, and so all agree. -/
theorem Same.letters (h : Same m off m' off' n) (hn : lettersReach m off ≤ n) :
    lettersReach m' off' = lettersReach m off ∧ rembAt m' off' = rembAt m off := by
  rw [lettersReach] at hn
  rw [lettersReach, lettersReach, rembAt, rembAt]
  by_cases hr : m.getBe (off + 12) 1 = 82
  · rw [if_pos hr] at hn
    by_cases he : m.getBe (off + 13) 1 = 69
    · rw [if_pos he] at hn
      by_cases hm : m.getBe (off + 14) 1 = 77
      · rw [if_pos hm] at hn
        rw [h.getBe (by omega), h.getBe (by omega), h.getBe (by omega), h.getBe (by omega)]
        exact ⟨rfl, rfl⟩
      · rw [if_neg hm] at hn
        rw [h.getBe (by omega), h.getBe (by omega), h.getBe (i := 14) (by omega)]
        simp only [if_neg hm, and_self]
    · rw [if_neg he] at hn
      rw [h.getBe (by omega), h.getBe (i := 13) (by omega)]
      simp only [if_neg he, and_self]
  · rw [if_neg hr] at hn
    rw [h.getBe (i := 12) (by omega)]
    simp only [if_neg hr, and_self]

theorem rembReach_congr (h : Same m off m' off' n) (hk : 16 ≤ k) (hn : rembReach k m off ≤ n) :
    rembReach k m' off' = rembReach k m off ∧ rembAt m' off' = rembAt m off := by
  have hletters : lettersReach m off ≤ n := by
    by_cases hremb : rembAt m off = true
    · have hle : lettersReach m off ≤ 16 := by
        rw [lettersReach]
        repeat' split
        all_goals omega
      rw [rembReach, if_pos hremb] at hn
      omega
    · rwa [rembReach, if_neg hremb] at hn
  obtain ⟨hl, hr⟩ := h.letters hletters
  rw [rembReach, rembReach, hr, hl]
  exact ⟨rfl, rfl⟩

end

namespace Walker

variable {w : Walker}

theorem four_le_reach (w : Walker) (m : Mem) (off : Nat) : 4 ≤ w.reach m off := by
  cases w with
  | getNacks => exact Nat.le_max_left _ _
  | fixSsrc a now ctx => exact Nat.le_max_left _ _
  | hasFir => exact Nat.le_refl 4
  | hasPli => exact Nat.le_refl 4
  | getRemb => exact Nat.le_max_left _ _
  | capRemb bitrate => exact Nat.le_max_left _ _
  | removeNacks => exact Nat.le_refl 4

section

variable {m m' : Mem} {off off' n : Nat}

theorem fixReach_congr {a : FixArgs} {ctx : Option RtcpContext} (h : Same m off m' off' n)
    (h4 : 4 ≤ n) (hn : fixReach a m off ctx ≤ n) : fixReach a m' off' ctx = fixReach a m off ctx := by
  obtain ⟨htype, hrc, hlength⟩ := h.header h4
  have hsize : size m' off' = size m off := by rw [size, size, hlength]
  have hpsfb : type m off = rtcpPsfb → psfbReach a m' off' = psfbReach a m off := by
    intro hpsfb
    have hle : psfbReach a m off ≤ n := by
      rw [fixReach, hpsfb] at hn
      exact hn
    rw [psfbReach, Nat.max_le] at hle
    rw [psfbReach, psfbReach, hrc]
    by_cases h15 : rc m off = 15
    · rw [h15] at hle ⊢
      have hremb : rembReach 24 m' off' = rembReach 24 m off :=
        (rembReach_congr h (by decide) hle.2).1
      show max (reachL a 8) (rembReach 24 m' off') = max (reachL a 8) (rembReach 24 m off)
      rw [hremb]
    · rw [if_neg h15, if_neg h15]
  by_cases hp : type m off = rtcpPsfb
  · rw [fixReach, fixReach, htype, hp]
    exact hpsfb hp
  · simp only [fixReach, reportReach, rtpfbReach, entriesReach, htype, hrc, hlength, hsize, if_neg hp]

theorem reach_congr (h : Same m off m' off' n) (h4 : 4 ≤ n) (hn : w.reach m off ≤ n) :
    w.reach m' off' = w.reach m off ∧ w.stops m' off' = w.stops m off := by
  obtain ⟨htype, hrc, hlength⟩ := h.header h4
  have hsize : size m' off' = size m off := by rw [size, size, hlength]
  have hremb : ∀ k, 16 ≤ k →
      max 4 (if type m off = rtcpPsfb ∧ rc m off = 15 then rembReach k m off else 0) ≤ n →
      (if type m off = rtcpPsfb ∧ rc m off = 15 then rembReach k m' off' else 0) =
          (if type m off = rtcpPsfb ∧ rc m off = 15 then rembReach k m off else 0) ∧
        (type m off = rtcpPsfb ∧ rc m off = 15 → rembAt m' off' = rembAt m off) := by
    intro k hk hle
    by_cases hc : type m off = rtcpPsfb ∧ rc m off = 15
    · rw [if_pos hc, Nat.max_le] at hle
      obtain ⟨hreach, hat⟩ := rembReach_congr h hk hle.2
      rw [if_pos hc, if_pos hc]
      exact ⟨hreach, fun _ => hat⟩
    · rw [if_neg hc, if_neg hc]
      exact ⟨rfl, fun hpos => absurd hpos hc⟩
  cases w with
  | getNacks => simp only [reach, stops, entriesReach, htype, hrc, hlength, hsize, and_self]
  | fixSsrc a now ctx =>
    rw [reach, Nat.max_le] at hn
    rw [reach, reach, fixReach_congr h h4 hn.2]
    exact ⟨rfl, rfl⟩
  | hasFir => exact ⟨rfl, rfl⟩
  | hasPli => exact ⟨rfl, rfl⟩
  | getRemb =>
    obtain ⟨hreach, hat⟩ := hremb 20 (by decide) hn
    refine ⟨?_, ?_⟩
    · rw [reach, reach, htype, hrc, hreach]
    · rw [stops, stops, htype, hrc, decide_eq_decide]
      exact and_congr_right fun hp => and_congr_right fun h15 => by rw [hat ⟨hp, h15⟩]
  | capRemb bitrate =>
    obtain ⟨hreach, -⟩ := hremb 20 (by decide) hn
    exact ⟨by rw [reach, reach, htype, hrc, hreach], rfl⟩
  | removeNacks => exact ⟨rfl, by rw [stops, stops, htype, hrc]⟩

end

/-! ### The walk and the scan of the bytes -/

/-- What a round of a function accesses and does, in terms of the bytes that it uses; `good` is
what the rounds keep of the rest of the state. -/
structure Walks {σ : Type} (w : Walker) (good : σ → Prop)
    (fields : Nat → Mem × σ → List (Nat × Nat)) (round : Nat → Mem × σ → Step (Mem × σ)) :
    Prop where
  ends : ∀ {off m x n}, good x → 4 ≤ n → (Ends n (fields off (m, x)) ↔ w.reach m off ≤ n)
  stop : ∀ {off m x}, w.stops m off = true → ∃ s, round off (m, x) = .stop s
  header : ∀ {off m x n}, w.stops m off = true → Ends n (fields off (m, x)) → 4 ≤ n
  next : ∀ {off m x}, good x → w.stops m off = false → ∃ m' x', round off (m, x) = .next (m', x') ∧
    good x' ∧ ∀ b, m' b ≠ m b → w.writes = true ∧ off + 4 ≤ b ∧ b < off + w.reach m off

theorem same_seen {m : Mem} {off : Nat} {bytes : List UInt8} (h : m.Holds off bytes) :
    Same m off (seen bytes) 0 bytes.length := by
  intro k hk
  rw [h.getD hk, Nat.zero_add]
  rfl

/-- What is behind the place up to which a round writes is as it came in. -/
theorem holds_behind {m m' : Mem} {off n : Nat} {bytes : List UInt8} (hm : m.Holds off bytes)
    (hn : n ≤ bytes.length) (hkept : ∀ b, off + n ≤ b → m' b = m b) :
    m'.Holds (off + n) (bytes.drop n) := by
  have hsplit : m.Holds off (bytes.take n ++ bytes.drop n) := by
    rwa [List.take_append_drop]
  rw [Mem.holds_append, List.length_take_of_le hn] at hsplit
  exact hsplit.2.congr fun k _ => hkept _ (Nat.le_add_right _ _)

/-- A sub-packet without a whole header is left. -/
theorem not_inside_of_short {σ : Type} {good : σ → Prop}
    {fields : Nat → Mem × σ → List (Nat × Nat)} {round : Nat → Mem × σ → Step (Mem × σ)}
    (h : Walks w good fields round) {off left : Nat} {m : Mem} {x : σ} (hx : good x)
    (hshort : ¬ 4 ≤ left) :
    ¬ Inside (below (off + left))
      (fun i s => ∀ f ∈ fields i s, Mapped (below (off + left)) (i + f.1) f.2) round off left
        (m, x) := by
  rw [Inside, mapped_iff_ends]
  rintro ⟨hends, hrest⟩
  rcases hstops : w.stops m off with - | -
  · obtain ⟨m', x', hnext, -⟩ := h.next hx hstops
    rw [hnext] at hrest
    have hmapped := mapped_below.mp hrest.1
    omega
  · exact hshort (h.header hstops hends)

/-- The rounds stay inside the buffer if and only if the bytes that came in fit. -/
theorem inside_iff {σ : Type} {good : σ → Prop} {fields : Nat → Mem × σ → List (Nat × Nat)}
    {round : Nat → Mem × σ → Step (Mem × σ)} (h : Walks w good fields round) (len : Nat) :
    ∀ (bytes : List UInt8) (off : Nat) (m : Mem) (x : σ), good x → m.Holds off bytes →
      len = off + bytes.length → w.Apart bytes →
      (Inside (below len) (fun off s => ∀ f ∈ fields off s, Mapped (below len) (off + f.1) f.2)
        round off bytes.length (m, x) ↔ w.Fits bytes) := by
  intro bytes
  -- the recursion is on the bytes that are left
  induction hk : bytes.length using Nat.strongRecOn generalizing bytes with
  | _ k ih =>
  subst hk
  rintro off m x hx hm rfl hapart
  have hsame := same_seen hm
  rw [Fits]
  by_cases h4 : 4 ≤ bytes.length
  swap
  · have hreach := w.four_le_reach (seen bytes) 0
    exact iff_of_false (not_inside_of_short h hx h4) fun hfits => by omega
  rw [Inside, mapped_iff_ends, h.ends hx h4]
  by_cases hreach : w.reach m off ≤ bytes.length
  swap
  · refine iff_of_false (fun hin => hreach hin.1) ?_
    rintro ⟨hle, -⟩
    have hback : Same (seen bytes) 0 m off bytes.length := fun k hk => (hsame k hk).symm
    rw [← (reach_congr hback h4 hle).1] at hle
    exact hreach hle
  obtain ⟨hreach', hstops'⟩ := reach_congr hsame h4 hreach
  obtain ⟨-, -, hlength⟩ := hsame.header h4
  have hsize : size (seen bytes) 0 = size m off := by rw [size, size, hlength]
  rw [hreach', and_iff_right hreach, and_iff_right hreach]
  rcases hstops : w.stops m off with - | -
  · obtain ⟨m', x', hnext, hx', hkept⟩ := h.next hx hstops
    have hheader : Same m off m' off 4 := by
      intro k hk
      by_contra hne
      have hbehind := hkept _ hne
      omega
    obtain ⟨-, -, hlength'⟩ := hheader.header (Nat.le_refl 4)
    have hsize' : size m' off = size m off := by rw [size, size, hlength']
    have hlast : w.Last bytes ↔ length m off = 0 ∨ bytes.length ≤ size m off := by
      rw [Last, hstops', hstops, hlength, hsize]
      simp
    rw [hnext]
    show (Mapped _ _ _ ∧ ∀ _h : ¬ (length m' off = 0 ∨ bytes.length ≤ size m' off), _) ↔ _
    rw [and_iff_right (mapped_below.mpr (Or.inr (by omega))), hlength', hsize', ← hlast, hsize]
    refine forall_congr' fun hgo => ?_
    rw [Apart, hreach', hsize] at hapart
    obtain ⟨hroom, hrest⟩ := hapart hgo
    rw [hlast] at hgo
    have hdrop : (bytes.drop (size m off)).length = bytes.length - size m off := List.length_drop
    have hpos : 4 ≤ size m off := Nat.le_add_left _ _
    have htail : m'.Holds (off + size m off) (bytes.drop (size m off)) := by
      refine holds_behind hm (by omega) fun b hb => ?_
      by_contra hne
      obtain ⟨hwrites, -, hlt⟩ := hkept _ hne
      have hle := hroom hwrites
      omega
    rw [← hdrop]
    exact ih _ (by omega) _ rfl _ m' x' hx' htail (by omega) hrest
  · obtain ⟨s', hstop⟩ := h.stop (x := x) hstops
    have hlast : w.Last bytes := Or.inl (hstops'.trans hstops)
    rw [hstop]
    exact iff_of_true trivial fun hgo => absurd hlast hgo

/-- A function that only reads, and looks at every sub-packet. -/
theorem walks_of_reads {σ : Type} {fields : Nat → Mem × σ → List (Nat × Nat)}
    {round : Nat → Mem × σ → Step (Mem × σ)}
    (hends : ∀ {off m x n}, 4 ≤ n → (Ends n (fields off (m, x)) ↔ w.reach m off ≤ n))
    (hstops : ∀ m off, w.stops m off = false)
    (hround : ∀ off m x, ∃ x', round off (m, x) = .next (m, x')) :
    Walks w (fun _ => True) fields round where
  ends := fun _ h4 => hends h4
  stop := fun h => by rw [hstops] at h; cases h
  header := fun h => by rw [hstops] at h; cases h
  next := by
    intro off m x _ _
    obtain ⟨x', hx'⟩ := hround off m x
    exact ⟨m, x', hx', trivial, fun b hne => absurd rfl hne⟩

theorem walks_getNacks : Walks getNacks (fun _ => True) getNacksFields getNacksRound := by
  refine walks_of_reads ?_ (fun _ _ => rfl) ?_
  · intro off m x n h4
    have hheader : Ends n [(1, 1)] ∧ Ends n [(0, 1)] ∧ Ends n [(2, 2)] :=
      ⟨ends_single.mpr (by omega), ends_single.mpr (by omega), ends_single.mpr (by omega)⟩
    rw [reach, Nat.max_le, and_iff_right h4, getNacksFields, ends_append, and_iff_right hheader.1]
    by_cases htype : type m off = rtcpRtpfb
    · by_cases hrc : rc m off = 1
      · rw [if_pos htype, if_pos hrc, if_pos ⟨htype, hrc⟩, ends_append, and_iff_right hheader.2.1,
          ends_append, and_iff_right hheader.2.2]
        exact ends_nackFields
      · rw [if_pos htype, if_neg hrc, if_neg fun h => hrc h.2]
        exact iff_of_true (ends_append.mpr ⟨hheader.2.1, ends_nil⟩) (Nat.zero_le n)
    · rw [if_neg htype, if_neg fun h => htype h.1]
      exact iff_of_true ends_nil (Nat.zero_le n)
  · intro off m x
    rw [getNacksRound]
    split
    · split
      · exact ⟨_, rfl⟩
      · exact ⟨x, rfl⟩
    · exact ⟨x, rfl⟩

theorem walks_hasFir : Walks hasFir (fun _ => True) (fun _ _ => [(1, 1)]) hasFirRound := by
  refine walks_of_reads ?_ (fun _ _ => rfl) fun off m x => ⟨_, hasFirRound_eq m off x⟩
  intro off m x n h4
  exact iff_of_true (ends_single.mpr (by omega)) h4

theorem walks_hasPli : Walks hasPli (fun _ => True) hasPliFields hasPliRound := by
  refine walks_of_reads ?_ (fun _ _ => rfl) fun off m x => ⟨_, hasPliRound_eq m off x⟩
  intro off m x n h4
  refine iff_of_true (fun f hf => ?_) h4
  have hheader := hasPliFields_header hf
  omega

theorem walks_removeNacks :
    Walks removeNacks (fun _ => True) findNacksFields findNacksRound where
  ends := by
    intro off m x n _ h4
    refine iff_of_true ?_ h4
    simp only [findNacksFields, ends_append, ends_ite, ends_single, ends_nil, implies_true, and_true]
    omega
  stop := by
    intro off m x h
    obtain ⟨htype, hrc⟩ := of_decide_eq_true h
    rw [findNacksRound, if_pos htype, if_pos hrc]
    exact ⟨_, rfl⟩
  header := by
    intro off m x n h hends
    obtain ⟨htype, hrc⟩ := of_decide_eq_true h
    rw [findNacksFields, if_pos htype, if_pos hrc] at hends
    have hlength := hends (2, 2) (by simp)
    omega
  next := by
    intro off m x _ h
    have hno := of_decide_eq_false h
    refine ⟨m, x, ?_, trivial, fun b hne => absurd rfl hne⟩
    rw [findNacksRound]
    split
    · rw [if_neg fun hrc => hno ⟨‹_›, hrc⟩]
    · rfl

/-- The fields of a REMB, for the functions that look for one. -/
theorem ends_rembSearch {m : Mem} {off n : Nat} {fields : List (Nat × Nat)} (h4 : 4 ≤ n)
    (h : Ends n fields ↔ 20 ≤ n) :
    Ends n ([(1, 1)] ++ if type m off = rtcpPsfb then [(0, 1)] ++ if rc m off = 15 then
        rembFields m off ++ if rembAt m off = true then fields else [] else [] else []) ↔
      max 4 (if type m off = rtcpPsfb ∧ rc m off = 15 then rembReach 20 m off else 0) ≤ n := by
  have hheader : Ends n [(1, 1)] ∧ Ends n [(0, 1)] :=
    ⟨ends_single.mpr (by omega), ends_single.mpr (by omega)⟩
  rw [Nat.max_le, and_iff_right h4, ends_append, and_iff_right hheader.1]
  by_cases htype : type m off = rtcpPsfb
  · rw [if_pos htype, ends_append, and_iff_right hheader.2]
    by_cases hrc : rc m off = 15
    · have hboth : type m off = rtcpPsfb ∧ rc m off = 15 := ⟨htype, hrc⟩
      rw [if_pos hrc, if_pos hboth]
      exact ends_remb (by decide) fun _ => h
    · have hno : ¬ (type m off = rtcpPsfb ∧ rc m off = 15) := fun hc => hrc hc.2
      rw [if_neg hrc, if_neg hno]
      exact iff_of_true ends_nil (Nat.zero_le n)
  · have hno : ¬ (type m off = rtcpPsfb ∧ rc m off = 15) := fun hc => htype hc.1
    rw [if_neg htype, if_neg hno]
    exact iff_of_true ends_nil (Nat.zero_le n)

theorem ends_bitrate {n : Nat} : Ends n [(17, 1), (18, 1), (19, 1)] ↔ 20 ≤ n := by
  simp [Ends]
  omega

theorem walks_getRemb : Walks getRemb (fun _ => True) getRembFields getRembRound where
  ends := fun _ h4 => ends_rembSearch h4 ends_bitrate
  stop := by
    intro off m x h
    obtain ⟨htype, hrc, hremb⟩ := of_decide_eq_true h
    rw [getRembRound, if_pos htype, if_pos hrc, if_pos hremb]
    exact ⟨_, rfl⟩
  header := by
    intro off m x n h hends
    obtain ⟨htype, hrc, hremb⟩ := of_decide_eq_true h
    rw [getRembFields, if_pos htype, if_pos hrc, if_pos hremb] at hends
    have hlast := hends (19, 1) (by simp)
    omega
  next := by
    intro off m x _ h
    have hno := of_decide_eq_false h
    refine ⟨m, x, ?_, trivial, fun b hne => absurd rfl hne⟩
    rw [getRembRound]
    split
    · split
      · rw [if_neg fun hremb => hno ⟨‹_›, ‹_›, hremb⟩]
      · rfl
    · rfl

theorem capAt_of_outside {bitrate : UInt64} {m : Mem} {off b : Nat}
    (h : b < off + 17 ∨ off + 20 ≤ b) : capAt bitrate m off b = m b := by
  rw [capAt, Mem.putBe_of_outside (by omega), Mem.putBe_of_outside (by omega),
    Mem.putBe_of_outside (by omega)]

theorem walks_capRemb (bitrate : UInt64) :
    Walks (capRemb bitrate) (fun _ => True) (capRembFields bitrate) (capRembRound bitrate) where
  ends := by
    intro off m x n _ h4
    apply ends_rembSearch h4
    rw [ends_append, ends_bitrate]
    refine and_iff_left_of_imp fun h => ?_
    split
    · exact ends_bitrate.mpr h
    · exact ends_nil
  stop := fun h => by cases h
  header := fun h => by cases h
  next := by
    intro off m x _ _
    have hsame : ∀ b, m b ≠ m b → (capRemb bitrate).writes = true ∧ off + 4 ≤ b ∧
        b < off + (capRemb bitrate).reach m off := fun b hne => absurd rfl hne
    rw [capRembRound]
    split
    · split
      · split
        · split
          · rename_i htype hrc hremb _
            refine ⟨_, _, rfl, trivial, fun b hne => ⟨rfl, ?_⟩⟩
            have hreach : (capRemb bitrate).reach m off = 20 := by
              rw [reach, if_pos ⟨htype, hrc⟩, rembReach, if_pos hremb]
              rfl
            rw [hreach]
            by_contra hout
            exact hne (capAt_of_outside (by omega))
          · exact ⟨m, x, rfl, trivial, hsame⟩
        · exact ⟨m, x, rfl, trivial, hsame⟩
      · exact ⟨m, x, rfl, trivial, hsame⟩
    · exact ⟨m, x, rfl, trivial, hsame⟩

/-- The words are among the fields. -/
def Covered (ws fields : List (Nat × Nat)) : Prop := ∀ w ∈ ws, (w.1, 4) ∈ fields

section

variable {ws ws' fields fields' : List (Nat × Nat)} {c : Prop} [Decidable c]

theorem covered_filled (ws : List (Nat × Nat)) : Covered ws (filled ws) :=
  fun w hw => List.mem_map.mpr ⟨w, hw, rfl⟩

theorem covered_nil : Covered [] fields := fun _ hw => absurd hw List.not_mem_nil

theorem Covered.append (h : Covered ws fields) (h' : Covered ws' fields') :
    Covered (ws ++ ws') (fields ++ fields') := by
  intro w hw
  rcases List.mem_append.mp hw with hw | hw
  · exact List.mem_append_left _ (h w hw)
  · exact List.mem_append_right _ (h' w hw)

theorem Covered.behind (h : Covered ws fields) : Covered ws (fields' ++ fields) :=
  fun w hw => List.mem_append_right _ (h w hw)

theorem Covered.before (h : Covered ws fields) : Covered ws (fields ++ fields') :=
  fun w hw => List.mem_append_left _ (h w hw)

theorem Covered.ite (h : Covered ws fields) (h' : Covered ws' fields') :
    Covered (if c then ws else ws') (if c then fields else fields') := by
  by_cases hc : c
  · rwa [if_pos hc, if_pos hc]
  · rwa [if_neg hc, if_neg hc]

variable {a : FixArgs} {m : Mem} {off : Nat}

theorem covered_single {i v : Nat} : Covered [(i, v)] [(i, 4)] := by
  intro w hw
  rw [List.mem_singleton.mp hw]
  exact List.mem_singleton_self _

theorem covered_report (rb : Nat) : Covered (reportWords a m off rb) (reportFields a m off rb) :=
  (covered_filled _).append
    (Covered.ite (Covered.behind (Covered.ite covered_single covered_nil)) covered_nil)

theorem covered_fir : Covered (firWords a m off) (firFields a m off) :=
  (Covered.ite (Covered.behind (Covered.ite covered_single covered_nil)) covered_nil).append
    (covered_filled _)

theorem covered_rtpfb : Covered (rtpfbWords a m off) (rtpfbFields a m off) :=
  Covered.behind (Covered.append (Covered.ite (covered_filled _).before
    (Covered.ite (covered_filled _) covered_nil)) (covered_filled _))

theorem covered_psfb : Covered (psfbWords a m off) (psfbFields a m off) := by
  apply Covered.behind
  refine Covered.append ?_ (covered_filled _)
  apply Covered.ite (covered_filled _)
  apply Covered.ite ((covered_filled _).append (covered_filled _))
  apply Covered.ite (covered_filled _)
  apply Covered.ite ?_ covered_nil
  exact Covered.behind (Covered.ite (covered_filled _).before covered_nil)

/-- Every word that a round of `janus_rtcp_fix_ssrc` writes is one of its accesses. -/
theorem covered_fix (s : Mem × Option RtcpContext) :
    Covered (fixWords a s.1 off) (fixFields a off s) := by
  apply Covered.behind
  apply Covered.ite (covered_report 28).behind
  apply Covered.ite (covered_report 8)
  apply Covered.ite (covered_filled _)
  apply Covered.ite (covered_filled _)
  apply Covered.ite (covered_filled _)
  apply Covered.ite covered_fir
  apply Covered.ite covered_rtpfb
  exact Covered.ite covered_psfb covered_nil

theorem fixWords_of_unset (hl : ¬ a.setsL) (hr : ¬ a.setsR) : fixWords a m off = [] := by
  simp [fixWords, otherWords, reportWords, firWords, rtpfbWords, psfbWords, wordL, wordR, hl, hr]

end

theorem walks_fixSsrc (a : FixArgs) (now : Nat → Int) (ctx : Option RtcpContext) :
    Walks (fixSsrc a now ctx) (fun c => c.isSome = ctx.isSome) (fixFields a) (fixRound a now) where
  ends := by
    intro off m x n hx h4
    have hreach : fixReach a m off x = fixReach a m off ctx := by rw [fixReach, fixReach, hx]
    rw [ends_fixFields (m, x) h4, reach, Nat.max_le, and_iff_right h4, hreach]
  stop := fun h => by cases h
  header := fun h => by cases h
  next := by
    intro off m x hx _
    refine ⟨_, _, rfl, ?_, ?_⟩
    · split
      · rw [afterSr, Option.isSome_map, hx]
      · exact hx
    · intro b hne
      -- a byte that changes is one of a word
      obtain ⟨w, hw, hlo, hhi⟩ : ∃ w ∈ fixWords a m off, off + w.1 ≤ b ∧ b < off + w.1 + 4 := by
        by_contra hno
        refine hne (Mem.putWords_of_outside fun w hw => ?_)
        by_contra hin
        exact hno ⟨w, hw, by omega, by omega⟩
      have hwrites : a.setsL ∨ a.setsR := by
        by_contra hunset
        rw [not_or] at hunset
        rw [fixWords_of_unset hunset.1 hunset.2] at hw
        cases hw
      have hreach : fixReach a m off x = fixReach a m off ctx := by rw [fixReach, fixReach, hx]
      have hends : Ends (reach (fixSsrc a now ctx) m off) (fixFields a off (m, x)) := by
        rw [ends_fixFields (m, x) (four_le_reach (fixSsrc a now ctx) m off), hreach]
        exact Nat.le_max_right _ _
      have hbefore := hends _ (covered_fix (m, x) w hw)
      have hbehind := fixWords_range hw
      refine ⟨decide_eq_true hwrites, ?_⟩
      omega

/-! ### Bounds -/

/-- The fields of all sub-packets that the loop gets to lie inside the buffer. -/
def FieldsInside (w : Walker) (m : Mem) (len : Nat) : Prop :=
  match w with
  | getNacks => Inside (below len)
      (fun off s => ∀ f ∈ getNacksFields off s, Mapped (below len) (off + f.1) f.2)
      getNacksRound 0 len (m, [])
  | fixSsrc a now ctx => Inside (below len)
      (fun off s => ∀ f ∈ fixFields a off s, Mapped (below len) (off + f.1) f.2)
      (fixRound a now) 0 len (m, ctx)
  | hasFir => Inside (below len)
      (fun off _ => ∀ f ∈ [(1, 1)], Mapped (below len) (off + f.1) f.2) hasFirRound 0 len (m, false)
  | hasPli => Inside (below len)
      (fun off s => ∀ f ∈ hasPliFields off s, Mapped (below len) (off + f.1) f.2)
      hasPliRound 0 len (m, false)
  | getRemb => Inside (below len)
      (fun off s => ∀ f ∈ getRembFields off s, Mapped (below len) (off + f.1) f.2)
      getRembRound 0 len (m, 0)
  | capRemb bitrate => bitrate = 0 ∨ Inside (below len)
      (fun off s => ∀ f ∈ capRembFields bitrate off s, Mapped (below len) (off + f.1) f.2)
      (capRembRound bitrate) 0 len (m, ())
  | removeNacks => Inside (below len)
      (fun off s => ∀ f ∈ findNacksFields off s, Mapped (below len) (off + f.1) f.2)
      findNacksRound 0 len (m, none)

section

variable {α : Type} {m : Mem} {len : Nat} {other : α} {run : Except Nat α} {K : Prop}

/-- A call that starts with the test of `version`. -/
theorem ifVersion_checked (hrun : Checked run K fun _ => True) :
    Checked (ifVersion (below len) m other run) (0 < len ∧ (version m 0 = 2 → K))
      fun _ => True := by
  have hfirst : Checked (load (below len) m 0 1) (0 < len) (· = m.getBe 0 1) := by
    have hload : Checked (load (below len) m 0 1) (Mapped (below len) 0 1) (· = m.getBe 0 1) :=
      ⟨fun h => ⟨_, if_pos h, rfl⟩, fun h => ⟨_, if_neg h⟩⟩
    refine hload.congr (mapped_below.trans ?_)
    omega
  apply hfirst.bind
  rintro - rfl
  exact Checked.guard (fun _ => hrun) fun _ => trivial

/-- A call that tests for an empty packet before. -/
theorem ifLen_checked {empty : α} (hrun : Checked run K fun _ => True) :
    Checked (if len = 0 then .ok empty else ifVersion (below len) m other run)
      (len = 0 ∨ (0 < len ∧ (version m 0 = 2 → K))) fun _ => True := by
  refine (Checked.ite (fun _ => Checked.of_ok trivial) fun _ => ifVersion_checked hrun).congr ?_
  constructor
  · rintro ⟨-, h⟩
    by_cases hlen : len = 0
    · exact Or.inl hlen
    · exact Or.inr (h hlen)
  · rintro (hlen | h)
    · exact ⟨fun _ => trivial, fun hne => absurd hlen hne⟩
    · exact ⟨fun _ => trivial, fun _ => h⟩

end

/-- The bytes behind a NACK are moved inside the buffer. -/
theorem moveBytes_ok (len nacks nacksLen : Nat) (m : Mem) :
    ∃ m', (List.range (len - (nacks + nacksLen))).foldlM (moveByte (below len) nacks nacksLen) m =
      .ok m' := by
  have hmove : ∀ m i, Touches (below len) nacks [(nacksLen + i, 1), (i, 1)]
      (moveByte (below len) nacks nacksLen m i)
      (m.putBe (nacks + i) 1 (m.getBe (nacks + (nacksLen + i)) 1)) :=
    fun m i => (Touches.load m _ 1).bind (Touches.store m i 1 _)
  refine ⟨_, (Touches.foldlM hmove _ m).eq_ok ?_⟩
  intro f hf
  obtain ⟨i, hi, hf⟩ := List.mem_flatMap.mp hf
  -- the byte read is the farther one
  have hlt := List.mem_range.mp hi
  apply mapped_below.mpr
  simp only [List.mem_cons, List.not_mem_nil, or_false] at hf
  rcases hf with rfl | rfl
  · exact Or.inr (by simp only; omega)
  · exact Or.inr (by simp only; omega)

theorem run_checked (w : Walker) (m : Mem) (len : Nat) :
    Checked (w.run (below len) m len)
      ((w.testsLen = true ∧ len = 0) ∨ (0 < len ∧ (version m 0 = 2 → w.FieldsInside m len)))
      fun _ => True := by
  have hset : ∀ {K : Prop}, (len = 0 ∨ K) ↔ ((true = true ∧ len = 0) ∨ K) := by simp
  have hunset : ∀ {K : Prop}, K ↔ ((false = true ∧ len = 0) ∨ K) := by simp
  cases w with
  | getNacks =>
    have hloop := loop_checked (below len) (getNacksBody_touches (below len)) 0 len (m, [])
    exact ((ifLen_checked (hloop.map fun _ _ => trivial)).map fun _ _ => trivial).congr hset
  | fixSsrc a now ctx =>
    have hloop := loop_checked (below len) (fixSsrcBody_touches (below len) a now) 0 len (m, ctx)
    exact ((ifLen_checked (hloop.map fun _ _ => trivial)).map fun _ _ => trivial).congr hset
  | hasFir =>
    have hloop := loop_checked (below len) (hasFirBody_touches (below len)) 0 len (m, false)
    exact ((ifVersion_checked (hloop.map fun _ _ => trivial)).map fun _ _ => trivial).congr hunset
  | hasPli =>
    have hloop := loop_checked (below len) (hasPliBody_touches (below len)) 0 len (m, false)
    exact ((ifVersion_checked (hloop.map fun _ _ => trivial)).map fun _ _ => trivial).congr hunset
  | getRemb =>
    have hloop := loop_checked (below len) (getRembBody_touches (below len)) 0 len (m, 0)
    exact ((ifLen_checked (hloop.map fun _ _ => trivial)).map fun _ _ => trivial).congr hset
  | capRemb bitrate =>
    have hloop := loop_checked (below len) (capRembBody_touches (below len) bitrate) 0 len (m, ())
    have hrun := Checked.ite (c := bitrate = 0) (x := .ok ((0 : Int), m)) (P := fun _ => True)
      (fun _ => Checked.of_ok trivial)
      fun _ => hloop.map (g := fun s => ((0 : Int), s.1)) fun _ _ => trivial
    -- without a bitrate the loop is not entered
    have hcond : ∀ {K : Prop}, ((bitrate = 0 → True) ∧ (¬ bitrate = 0 → K)) ↔ (bitrate = 0 ∨ K) := by
      intro K
      rw [or_iff_not_imp_left]
      exact ⟨fun h => h.2, fun h => ⟨fun _ => trivial, h⟩⟩
    exact ((ifLen_checked (hrun.congr hcond)).map fun _ _ => trivial).congr hset
  | removeNacks =>
    -- only the search can leave the buffer: the bytes are moved after a test of the length
    have hloop := loop_checked (below len) (findNacksBody_touches (below len)) 0 len (m, none)
    refine ((ifLen_checked ?_).map fun _ _ => trivial).congr hset
    refine (hloop.bind (L := True) (Q := fun _ => True) ?_).congr (iff_of_eq (and_true _))
    rintro ⟨m', nacks⟩ -
    rcases nacks with - | ⟨nacks, nacksLen⟩
    · exact Checked.of_ok trivial
    · obtain ⟨m'', hmove⟩ := moveBytes_ok len nacks nacksLen m'
      simp only [hmove]
      split
      · exact Checked.of_ok trivial
      · split
        · exact Checked.of_ok trivial
        · exact Checked.of_ok trivial

theorem fieldsInside_iff (w : Walker) {bytes : List UInt8} {m : Mem} (hm : m.Holds 0 bytes)
    (h : w.Apart bytes) :
    w.FieldsInside m bytes.length ↔ w.idle = true ∨ w.Fits bytes := by
  have hlen : bytes.length = 0 + bytes.length := (Nat.zero_add _).symm
  have hbusy : w.idle = false → (w.Fits bytes ↔ w.idle = true ∨ w.Fits bytes) := by
    intro hidle
    rw [hidle]
    simp
  cases w with
  | getNacks =>
    exact (inside_iff walks_getNacks _ bytes 0 m [] trivial hm hlen h).trans (hbusy rfl)
  | fixSsrc a now ctx =>
    exact (inside_iff (walks_fixSsrc a now ctx) _ bytes 0 m ctx rfl hm hlen h).trans (hbusy rfl)
  | hasFir =>
    exact (inside_iff walks_hasFir _ bytes 0 m false trivial hm hlen h).trans (hbusy rfl)
  | hasPli =>
    exact (inside_iff walks_hasPli _ bytes 0 m false trivial hm hlen h).trans (hbusy rfl)
  | getRemb =>
    exact (inside_iff walks_getRemb _ bytes 0 m 0 trivial hm hlen h).trans (hbusy rfl)
  | capRemb bitrate =>
    refine or_congr ?_ (inside_iff (walks_capRemb bitrate) _ bytes 0 m () trivial hm hlen h)
    exact (decide_eq_true_iff (p := bitrate = 0)).symm
  | removeNacks =>
    exact (inside_iff walks_removeNacks _ bytes 0 m none trivial hm hlen h).trans (hbusy rfl)

/-- A call that does not write keeps out of the next sub-packet. -/
theorem apart_of_reads {w : Walker} (h : w.writes = false) (bytes : List UInt8) :
    w.Apart bytes := by
  induction hk : bytes.length using Nat.strongRecOn generalizing bytes with
  | _ k ih =>
  subst hk
  rw [Apart]
  intro hgo
  refine ⟨fun hwrites => absurd (h.symm.trans hwrites) Bool.false_ne_true, ih _ ?_ _ rfl⟩
  rw [Last, size] at hgo
  rw [List.length_drop, size]
  omega

end Walker

/-- **Bounds.**  A call stays inside a packet of which each sub-packet has the bytes that the
function uses of it; and only inside such a packet, if the call does not write, or if no
sub-packet but the last is too short for what it writes.  The functions are total, so they also
end. -/
theorem walker_in_bounds (w : Walker) (bytes : List UInt8) (stale : Mem) :
    (w.InBounds bytes →
      ∃ r, w.run (below bytes.length) (Mem.lay bytes stale) bytes.length = .ok r) ∧
    ((w.writes = true → w.Apart bytes) →
      (∃ r, w.run (below bytes.length) (Mem.lay bytes stale) bytes.length = .ok r) →
        w.InBounds bytes) := by
  have hm := Mem.holds_lay bytes stale
  have hchecked := (w.run_checked (Mem.lay bytes stale) bytes.length).exists_ok_iff
  rw [hchecked]
  by_cases hnil : bytes = []
  · rw [Walker.InBounds, if_pos hnil, hnil]
    simp
  · have hpos : 0 < bytes.length := List.length_pos_iff.mpr hnil
    have hfirst : version (Mem.lay bytes stale) 0 = version (seen bytes) 0 := by
      rw [version, version, ← (Walker.same_seen hm).getBe (i := 0) (w := 1) (by omega)]
    rw [Walker.InBounds, if_neg hnil, hfirst]
    constructor
    · refine fun h => Or.inr ⟨hpos, fun hversion => ?_⟩
      rcases h hversion with hidle | ⟨hfits, hapart⟩
      · cases w with
        | capRemb bitrate => exact Or.inl (of_decide_eq_true hidle)
        | _ => cases hidle
      · exact (w.fieldsInside_iff hm hapart).mpr (Or.inr hfits)
    · intro hwrites h hversion
      have hapart : w.Apart bytes := by
        rcases hw : w.writes with - | -
        · exact Walker.apart_of_reads hw bytes
        · exact hwrites hw
      have hinside := (h.resolve_left fun hempty => by omega).2 hversion
      exact ((w.fieldsInside_iff hm hapart).mp hinside).imp_right fun hfits => ⟨hfits, hapart⟩

/-- A BYE of one SSRC, in which `janus_rtcp_fix_ssrc` sets the SSRC. -/
theorem walker_in_bounds_bye :
    ∃ r, (Walker.fixSsrc ⟨true, 1, 1⟩ (fun _ => 0) none).run (below 8)
      (Mem.lay [0x81, 203, 0, 1, 0, 0, 0, 7] fun _ => 0) 8 = .ok r := by
  have hlast : (Walker.fixSsrc ⟨true, 1, 1⟩ (fun _ => 0) none).Last [0x81, 203, 0, 1, 0, 0, 0, 7] :=
    Or.inr (Or.inr (by decide))
  apply (walker_in_bounds (.fixSsrc ⟨true, 1, 1⟩ (fun _ => 0) none)
    [0x81, 203, 0, 1, 0, 0, 0, 7] _).1
  refine fun _ => Or.inr ⟨?_, ?_⟩
  · rw [Walker.Fits]
    exact ⟨by decide, fun h => absurd hlast h⟩
  · rw [Walker.Apart]
    exact fun h => absurd hlast h

/-- The header of a NACK with three more words, of which the buffer has none. -/
theorem truncated_nack_is_read :
    Walker.getNacks.run (below 4) (Mem.lay [0x81, 205, 0, 3] fun _ => 0) 4 = .error 12 := by
  decide +kernel

end Orbit.Janus
