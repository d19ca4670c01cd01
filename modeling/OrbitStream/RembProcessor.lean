/-
OrbitStream/RembProcessor.lean

Slow links (`rtp/remb_processor.{h,cc}`).

The clock has 64 bits, and the two times the processor keeps have 32, so from an uptime of
`2 ^ 32` microseconds on every time it kept looks more than an hour old: each call begins
a new window, and no action holds off the next.  The constructor sets none of the times
and counts.

A run carries the windows beside the processor, with the exact times (`SlowLinkRun`).  The
processor's window is the exact one as long as that began before `2 ^ 32` (`restarts_iff`),
and the law of slow-link control holds in a run if and only if no call meets the
difference (`lawful_iff`).
-/
import Mathlib.Algebra.Group.Nat.Defs
import OrbitStream.Lib.Run

namespace Orbit

open Lib

/-- `USEC_PER_SEC`. -/
def usecPerSec : UInt64 := 1000000

/-- `SLOW_LINK_NACKS_PER_SEC`. -/
def slowLinkNacksPerSec : UInt32 := 8

/-- `RembProcessor`, without `peer_bitrate_`, which nothing reads. -/
structure RembProcessor where
  bitrate : UInt64
  nackPeriodTs : UInt32
  lastSlowlinkTime : UInt32
  nackRecentCnt : UInt32
  deriving DecidableEq, Repr

namespace RembProcessor

/-- The constructor: the other members hold what the memory held. -/
def new (nackPeriodTs lastSlowlinkTime nackRecentCnt : UInt32) : RembProcessor :=
  ⟨0, nackPeriodTs, lastSlowlinkTime, nackRecentCnt⟩

/-- `RembProcessor::VideoCallSlowLink`; the packet that `SendRembPacket` writes is not
sent. -/
def videoCallSlowLink (r : RembProcessor) (uplink video : Int) : RembProcessor :=
  if uplink ≠ 0 ∧ ¬ video ≠ 0 then r
  else if ¬ uplink ≠ 0 ∧ video ≠ 0 then
    let bitrate := if r.bitrate > 0 then r.bitrate else 512 * 1024
    let bitrate := bitrate / 2
    { r with bitrate := if bitrate < 64 * 1024 then 64 * 1024 else bitrate }
  else r

/-- `SlowLinkUpdate` up to the count: a window that is too old is given up. -/
def accumulate (r : RembProcessor) (nacks : UInt32) (now : UInt64) : RembProcessor :=
  let r :=
    if now - r.nackPeriodTs.toUInt64 > 2 * usecPerSec then
      { r with nackPeriodTs := now.toUInt32, nackRecentCnt := 0 }
    else r
  { r with nackRecentCnt := r.nackRecentCnt + nacks }

/-- The last action is too recent for another one. -/
def holdsOff (r : RembProcessor) (now : UInt64) : Bool :=
  ¬ now - r.lastSlowlinkTime.toUInt64 > 1 * usecPerSec

/-- The test in front of the action. -/
def acts (r : RembProcessor) (now : UInt64) : Bool :=
  r.nackRecentCnt ≥ slowLinkNacksPerSec ∧ ¬ r.holdsOff now

/-- `RembProcessor::SlowLinkUpdate`. -/
def slowLinkUpdate (r : RembProcessor) (nacks : UInt32) (video uplink : Int) (now : UInt64) :
    RembProcessor :=
  let r := r.accumulate nacks now
  if r.acts now then
    { r.videoCallSlowLink uplink video with
      lastSlowlinkTime := now.toUInt32, nackPeriodTs := now.toUInt32, nackRecentCnt := 0 }
  else r

end RembProcessor

/-- The arguments of a call. -/
structure SlowLinkCall where
  nacks : UInt32
  video : Int
  uplink : Int
  now : UInt64
  deriving DecidableEq, Repr

/-- A processor in a run, with the window that is open: when it began, the nacks counted
in it, and the time of the last action. -/
structure SlowLinkRun where
  processor : RembProcessor
  windowStart : Nat
  windowNacks : Nat := 0
  lastAction : Option Nat := none
  deriving DecidableEq, Repr

namespace SlowLinkRun

/-- A run begins: the first window is the one the processor was made with. -/
def start (nackPeriodTs lastSlowlinkTime nackRecentCnt : UInt32) : SlowLinkRun where
  processor := .new nackPeriodTs lastSlowlinkTime nackRecentCnt
  windowStart := nackPeriodTs.toNat

/-- The window is more than two seconds old, or no window at all. -/
def Restarts (s : SlowLinkRun) (now : UInt64) : Prop :=
  now.toNat < s.windowStart ∨ s.windowStart + 2000000 < now.toNat

instance (s : SlowLinkRun) (now : UInt64) : Decidable (s.Restarts now) :=
  inferInstanceAs (Decidable (_ ∨ _))

/-- The nacks of the window of this call, its own included. -/
def nacksWith (s : SlowLinkRun) (c : SlowLinkCall) : Nat :=
  if s.Restarts c.now then c.nacks.toNat else s.windowNacks + c.nacks.toNat

/-- One call. -/
def call (s : SlowLinkRun) (c : SlowLinkCall) : SlowLinkRun :=
  let processor := s.processor.slowLinkUpdate c.nacks c.video c.uplink c.now
  if (s.processor.accumulate c.nacks c.now).acts c.now then
    { processor := processor, windowStart := c.now.toNat, windowNacks := 0,
      lastAction := some c.now.toNat }
  else
    { processor := processor,
      windowStart := if s.Restarts c.now then c.now.toNat else s.windowStart,
      windowNacks := s.nacksWith c, lastAction := s.lastAction }

/-- The law of slow-link control at a call: no nack of the window is forgotten, and an
action comes only with enough of them, more than a second after the one before, and leaves
a downlink video enough of its bitrate. -/
def Lawful (s : SlowLinkRun) (c : SlowLinkCall) : Prop :=
  let counted := s.processor.accumulate c.nacks c.now
  s.nacksWith c ≤ counted.nackRecentCnt.toNat ∧
    (counted.acts c.now = true →
      slowLinkNacksPerSec.toNat ≤ s.nacksWith c ∧
      (∀ last ∈ s.lastAction, last + 1000000 < c.now.toNat) ∧
      (c.uplink = 0 → c.video ≠ 0 → 64 * 1024 ≤
        (s.processor.slowLinkUpdate c.nacks c.video c.uplink c.now).bitrate.toNat))

/-- What the processor counts up to a call, itself included, before its counter wraps. -/
def counted (s : SlowLinkRun) (c : SlowLinkCall) : Nat :=
  if s.Restarts c.now ∨ 2 ^ 32 ≤ s.windowStart then c.nacks.toNat
  else s.processor.nackRecentCnt.toNat + c.nacks.toNat

/-- A window that goes on has no nacks yet if it began at `2 ^ 32` or later; if it began
before, the counter does not wrap, and what the memory held at first makes no difference
to the test.  If there are nacks enough, the last action was before `2 ^ 32`, or is more
than a second ago. -/
def WithinClock (s : SlowLinkRun) (c : SlowLinkCall) : Prop :=
  (¬ s.Restarts c.now → 2 ^ 32 ≤ s.windowStart → s.windowNacks = 0) ∧
  (¬ s.Restarts c.now → s.windowStart < 2 ^ 32 →
    s.counted c < 2 ^ 32 ∧
      (s.counted c < slowLinkNacksPerSec.toNat ∨
        slowLinkNacksPerSec.toNat ≤ s.windowNacks + c.nacks.toNat ∨
        s.processor.holdsOff c.now = true)) ∧
  (slowLinkNacksPerSec.toNat ≤ s.counted c → ∀ last ∈ s.lastAction,
    last < 2 ^ 32 ∨ last + 1000000 < c.now.toNat)

instance (s : SlowLinkRun) (c : SlowLinkCall) : Decidable (WithinClock s c) :=
  inferInstanceAs (Decidable ((_ → _ → _) ∧ (_ → _ → _) ∧ (_ → ∀ _ ∈ _, _)))

/-- The processor keeps the low 32 bits of its times.  Its window is the exact one, or a
later one if that began at `2 ^ 32` or later; `t` is the time of the last call. -/
structure Timed (s : SlowLinkRun) (t : Nat) : Prop where
  window : ∃ v, s.processor.nackPeriodTs.toNat = v % 2 ^ 32 ∧
    (v = s.windowStart ∨ 2 ^ 32 ≤ s.windowStart ∧ s.windowStart ≤ v) ∧ (v ≤ t ∨ v < 2 ^ 32)
  count : s.windowNacks ≤ s.processor.nackRecentCnt.toNat
  last : ∀ last, s.lastAction = some last →
    s.processor.lastSlowlinkTime.toNat = last % 2 ^ 32 ∧ last ≤ t

theorem timed_start (nackPeriodTs lastSlowlinkTime nackRecentCnt : UInt32) (t : Nat) :
    Timed (start nackPeriodTs lastSlowlinkTime nackRecentCnt) t := by
  have hlt := nackPeriodTs.toNat_lt
  refine ⟨⟨nackPeriodTs.toNat, ?_, .inl rfl, .inr hlt⟩, Nat.zero_le _, ?_⟩
  · exact (Nat.mod_eq_of_lt hlt).symm
  · intro last hlast
    cases hlast

/-! ### What one call does -/

/-- How old a kept time looks: one in the future looks very old. -/
theorem looks_older_iff (kept : UInt32) {now limit : UInt64} (hlimit : limit.toNat < 2 ^ 32) :
    now - kept.toUInt64 > limit ↔
      now.toNat < kept.toNat ∨ kept.toNat + limit.toNat < now.toNat := by
  have hkept := kept.toNat_lt
  have hnow := now.toNat_lt
  rw [gt_iff_lt, UInt64.lt_iff_toNat_lt, UInt64.toNat_sub, UInt32.toNat_toUInt64]
  omega

variable {s : SlowLinkRun} {c : SlowLinkCall} {t : Nat}

/-- The processor begins a new window where one begins, and also if the window began at
`2 ^ 32` or later. -/
theorem restarts_iff (h : Timed s t) {now : UInt64} (hnow : t ≤ now.toNat) :
    now - s.processor.nackPeriodTs.toUInt64 > 2 * usecPerSec ↔
      s.Restarts now ∨ 2 ^ 32 ≤ s.windowStart := by
  obtain ⟨v, hkept, hv, hvt⟩ := h.window
  have hlimit : (2 * usecPerSec).toNat = 2000000 := rfl
  rw [looks_older_iff _ (by rw [hlimit]; decide), hlimit, hkept]
  unfold Restarts
  rcases Nat.lt_or_ge s.windowStart (2 ^ 32) with hsmall | hlarge
  · obtain rfl : v = s.windowStart := hv.elim id fun hl => absurd hl.1 (Nat.not_le.mpr hsmall)
    rw [Nat.mod_eq_of_lt hsmall]
    omega
  · -- what was kept is more than an hour too small
    have hvlarge : 2 ^ 32 ≤ v := by omega
    have hmod : v % 2 ^ 32 + 2 ^ 32 ≤ v := by omega
    omega

theorem accumulate_lastSlowlinkTime (r : RembProcessor) (nacks : UInt32) (now : UInt64) :
    (r.accumulate nacks now).lastSlowlinkTime = r.lastSlowlinkTime := by
  unfold RembProcessor.accumulate
  split <;> rfl

/-- The counter and the window of the processor after the first half of a call. -/
theorem accumulate_eq (h : Timed s t) (hnow : t ≤ c.now.toNat) :
    (s.processor.accumulate c.nacks c.now).nackRecentCnt.toNat = s.counted c % 2 ^ 32 ∧
      (s.processor.accumulate c.nacks c.now).nackPeriodTs
        = if s.Restarts c.now ∨ 2 ^ 32 ≤ s.windowStart then c.now.toUInt32
          else s.processor.nackPeriodTs := by
  unfold RembProcessor.accumulate counted
  by_cases hr : s.Restarts c.now ∨ 2 ^ 32 ≤ s.windowStart
  · rw [if_pos ((restarts_iff h hnow).mpr hr), if_pos hr, if_pos hr]
    refine ⟨?_, rfl⟩
    show (0 + c.nacks).toNat = _
    rw [UInt32.zero_add, Nat.mod_eq_of_lt c.nacks.toNat_lt]
  · rw [if_neg fun hc => hr ((restarts_iff h hnow).mp hc), if_neg hr, if_neg hr]
    exact ⟨UInt32.toNat_add _ _, rfl⟩

/-- The bitrate after an action for a downlink video. -/
theorem bitrate_floor (r : RembProcessor) {uplink video : Int} (hu : uplink = 0)
    (hv : video ≠ 0) : 64 * 1024 ≤ (r.videoCallSlowLink uplink video).bitrate.toNat := by
  unfold RembProcessor.videoCallSlowLink
  rw [if_neg fun h => h.1 hu, if_pos ⟨fun h => h hu, hv⟩]
  show 64 * 1024 ≤ UInt64.toNat
    (if (if r.bitrate > 0 then r.bitrate else 512 * 1024) / 2 < 64 * 1024 then 64 * 1024
      else (if r.bitrate > 0 then r.bitrate else 512 * 1024) / 2)
  generalize (if r.bitrate > 0 then r.bitrate else 512 * 1024) / 2 = halved
  split
  · decide
  · rename_i hge
    exact UInt64.le_iff_toNat_le.mp (UInt64.not_lt.mp hge)

/-- When the processor acts. -/
theorem acts_iff (h : Timed s t) (hnow : t ≤ c.now.toNat) :
    (s.processor.accumulate c.nacks c.now).acts c.now = true ↔
      slowLinkNacksPerSec.toNat ≤ s.counted c % 2 ^ 32 ∧
        ¬ s.processor.holdsOff c.now = true := by
  unfold RembProcessor.acts
  rw [decide_eq_true_iff, ge_iff_le, UInt32.le_iff_toNat_le, (accumulate_eq h hnow).1]
  unfold RembProcessor.holdsOff
  rw [accumulate_lastSlowlinkTime]

/-- No nack is forgotten at a call exactly under these two conditions. -/
theorem kept_iff (h : Timed s t) : s.nacksWith c ≤ s.counted c % 2 ^ 32 ↔
    (¬ s.Restarts c.now → 2 ^ 32 ≤ s.windowStart → s.windowNacks = 0) ∧
    (¬ s.Restarts c.now → s.windowStart < 2 ^ 32 → s.counted c < 2 ^ 32) := by
  have hcount := h.count
  have hc := c.nacks.toNat_lt
  unfold nacksWith counted
  by_cases hr : s.Restarts c.now
  · simp only [hr, not_true_eq_false, false_implies, and_self, true_or, if_true, iff_true]
    exact Nat.le_of_eq (Nat.mod_eq_of_lt hc).symm
  · rcases Nat.lt_or_ge s.windowStart (2 ^ 32) with hsmall | hlarge
    · have hnot : ¬ 2 ^ 32 ≤ s.windowStart := Nat.not_le.mpr hsmall
      have hlt := s.processor.nackRecentCnt.toNat_lt
      simp only [hr, hnot, hsmall, or_false, if_false, not_false_eq_true, false_implies,
        implies_true, true_implies, true_and]
      omega
    · have hnot : ¬ s.windowStart < 2 ^ 32 := Nat.not_lt.mpr hlarge
      simp only [hr, hnot, hlarge, or_true, if_true, if_false, not_false_eq_true,
        false_implies, implies_true, true_implies, and_true]
      rw [Nat.mod_eq_of_lt hc]
      omega

/-- Where no nack is forgotten the counter does not wrap. -/
theorem counted_lt (h : Timed s t) (hkept : s.nacksWith c ≤ s.counted c % 2 ^ 32) :
    s.counted c < 2 ^ 32 := by
  by_cases hr : s.Restarts c.now ∨ 2 ^ 32 ≤ s.windowStart
  · unfold counted
    rw [if_pos hr]
    exact c.nacks.toNat_lt
  · rw [not_or, Nat.not_le] at hr
    exact ((kept_iff h).mp hkept).2 hr.1 hr.2

/-- An action before `2 ^ 32` is remembered as it was, and one later is forgotten. -/
theorem holdsOff_iff (h : Timed s t) (hnow : t ≤ c.now.toNat) {last : Nat}
    (hlast : s.lastAction = some last) :
    s.processor.holdsOff c.now = true ↔ last < 2 ^ 32 ∧ c.now.toNat ≤ last + 1000000 := by
  obtain ⟨hkept, hle⟩ := h.last last hlast
  have hlimit : (1 * usecPerSec).toNat = 1000000 := rfl
  unfold RembProcessor.holdsOff
  rw [decide_eq_true_iff, looks_older_iff _ (by rw [hlimit]; decide), hlimit, hkept]
  rcases Nat.lt_or_ge last (2 ^ 32) with hsmall | hlarge
  · rw [Nat.mod_eq_of_lt hsmall]
    omega
  · have hmod : last % 2 ^ 32 + 2 ^ 32 ≤ last := by omega
    omega

/-- The law holds at a call exactly under the condition. -/
theorem lawful_call_iff (h : Timed s t) (hnow : t ≤ c.now.toNat) :
    Lawful s c ↔ WithinClock s c := by
  unfold Lawful WithinClock
  simp only
  rw [(accumulate_eq h hnow).1, acts_iff h hnow]
  constructor
  · rintro ⟨hkept, hacts⟩
    have hlt := counted_lt h hkept
    rw [Nat.mod_eq_of_lt hlt] at hacts
    obtain ⟨hlate, -⟩ := (kept_iff h).mp hkept
    refine ⟨hlate, ?_, ?_⟩
    · intro hr hsmall
      refine ⟨hlt, ?_⟩
      by_contra hno
      rw [not_or, not_or, Nat.not_lt] at hno
      obtain ⟨henough, hfew, hheld⟩ := hno
      have hnacks := (hacts ⟨henough, hheld⟩).1
      rw [nacksWith, if_neg hr] at hnacks
      exact hfew hnacks
    · intro henough last hlast
      by_contra hno
      rw [not_or, Nat.not_lt, Nat.not_lt] at hno
      have hheld : ¬ s.processor.holdsOff c.now = true := by
        rw [holdsOff_iff h hnow hlast]
        exact fun hc => Nat.not_lt.mpr hno.1 hc.1
      have hapart := (hacts ⟨henough, hheld⟩).2.1 last hlast
      exact Nat.not_lt.mpr hno.2 hapart
  · rintro ⟨hlate, hearly, hapart⟩
    have hkept := (kept_iff h).mpr ⟨hlate, fun hr hsmall => (hearly hr hsmall).1⟩
    refine ⟨hkept, ?_⟩
    rw [Nat.mod_eq_of_lt (counted_lt h hkept)]
    rintro ⟨henough, hheld⟩
    refine ⟨?_, ?_, ?_⟩
    · unfold nacksWith
      by_cases hr : s.Restarts c.now
      · rw [if_pos hr]
        rw [counted, if_pos (.inl hr)] at henough
        exact henough
      · rw [if_neg hr]
        rcases Nat.lt_or_ge s.windowStart (2 ^ 32) with hsmall | hlarge
        · rcases (hearly hr hsmall).2 with hfew | hmany | hh
          · exact absurd henough (Nat.not_le.mpr hfew)
          · exact hmany
          · exact absurd hh hheld
        · rw [hlate hr hlarge, Nat.zero_add]
          rw [counted, if_pos (.inr hlarge)] at henough
          exact henough
    · intro last hlast
      rcases hapart henough last hlast with hsmall | hold
      · rw [holdsOff_iff h hnow hlast] at hheld
        omega
      · exact hold
    · intro hu hv
      have hacts : (s.processor.accumulate c.nacks c.now).acts c.now = true := by
        rw [acts_iff h hnow, Nat.mod_eq_of_lt (counted_lt h hkept)]
        exact ⟨henough, hheld⟩
      unfold RembProcessor.slowLinkUpdate
      rw [if_pos hacts]
      exact bitrate_floor _ hu hv

/-- A call under the condition keeps the invariant. -/
theorem Timed.call (h : Timed s t) (hnow : t ≤ c.now.toNat) (hc : WithinClock s c) :
    Timed (s.call c) c.now.toNat := by
  have hlow : c.now.toUInt32.toNat = c.now.toNat % 2 ^ 32 := UInt64.toNat_toUInt32 _
  have hkept := ((lawful_call_iff h hnow).mpr hc).1
  unfold SlowLinkRun.call RembProcessor.slowLinkUpdate
  by_cases hacts : (s.processor.accumulate c.nacks c.now).acts c.now = true
  · rw [if_pos hacts, if_pos hacts]
    refine ⟨⟨c.now.toNat, hlow, .inl rfl, .inl (Nat.le_refl _)⟩, Nat.zero_le _, ?_⟩
    intro last hlast
    obtain rfl : c.now.toNat = last := Option.some.inj hlast
    exact ⟨hlow, Nat.le_refl _⟩
  · rw [if_neg hacts, if_neg hacts]
    refine ⟨?_, hkept, ?_⟩
    · obtain ⟨v, hv, hwhich, hle⟩ := h.window
      show ∃ v, (s.processor.accumulate c.nacks c.now).nackPeriodTs.toNat = _ ∧ _
      rw [(accumulate_eq h hnow).2]
      by_cases hr : s.Restarts c.now
      · simp only [hr, true_or, if_true]
        exact ⟨c.now.toNat, hlow, .inl rfl, .inl (Nat.le_refl _)⟩
      · rcases Nat.lt_or_ge s.windowStart (2 ^ 32) with hsmall | hlarge
        · have hnot : ¬ 2 ^ 32 ≤ s.windowStart := Nat.not_le.mpr hsmall
          simp only [hr, hnot, or_false, if_false]
          exact ⟨v, hv, hwhich.elim .inl fun hl => absurd hl.1 hnot,
            hle.imp (fun hvt => Nat.le_trans hvt hnow) id⟩
        · -- the processor has begun a window of its own inside the exact one
          simp only [hr, hlarge, or_true, if_true, if_false]
          refine ⟨c.now.toNat, hlow, .inr ⟨trivial, ?_⟩, .inl (Nat.le_refl _)⟩
          omega
    · intro last hlast
      obtain ⟨hk, hle⟩ := h.last last hlast
      show (s.processor.accumulate c.nacks c.now).lastSlowlinkTime.toNat = _ ∧ _
      rw [accumulate_lastSlowlinkTime]
      exact ⟨hk, Nat.le_trans hle hnow⟩

/-- The law of slow-link control, for every run with a clock that does not go back: it
holds throughout if and only if every call meets the condition. -/
theorem lawful_iff (nackPeriodTs lastSlowlinkTime nackRecentCnt : UInt32)
    (calls : List SlowLinkCall)
    (hclock : (calls.map fun c => c.now.toNat).Pairwise (· ≤ ·)) :
    Throughout call Lawful (start nackPeriodTs lastSlowlinkTime nackRecentCnt) calls ↔
      Throughout call WithinClock (start nackPeriodTs lastSlowlinkTime nackRecentCnt)
        calls := by
  refine throughout_congr_rule
    (P := fun rest s => ∃ t, Timed s t ∧ (∀ c ∈ rest, t ≤ c.now.toNat) ∧
      (rest.map fun c => c.now.toNat).Pairwise (· ≤ ·)) ?_ ?_ calls
    ⟨0, timed_start _ _ _ 0, fun _ _ => Nat.zero_le _, hclock⟩
  · rintro s c rest ⟨t, h, hnow, -⟩
    exact lawful_call_iff h (hnow c List.mem_cons_self)
  · rintro s c rest ⟨t, h, hnow, hsorted⟩ hc
    obtain ⟨hnext, hrest⟩ := List.pairwise_cons.mp hsorted
    refine ⟨c.now.toNat, h.call (hnow c List.mem_cons_self) hc, ?_, hrest⟩
    intro d hd
    exact hnext _ (List.mem_map_of_mem hd)

/-- Two bursts of nacks within a second: the second is held off. -/
theorem lawful_iff_bursts :
    Throughout call Lawful (start 0 0 0) [⟨8, 1, 0, 2000001⟩, ⟨8, 1, 0, 2500000⟩] :=
  (lawful_iff 0 0 0 [⟨8, 1, 0, 2000001⟩, ⟨8, 1, 0, 2500000⟩] (by decide)).mpr (by decide)

/-- The same an hour and twelve minutes later, a microsecond apart; and four nacks that the
next call forgets. -/
theorem not_lawful :
    ¬ Throughout call Lawful (start 0 0 0)
      [⟨8, 1, 0, 4294967296⟩, ⟨8, 1, 0, 4294967297⟩] ∧
    ¬ Throughout call Lawful (start 0 0 0)
      [⟨4, 1, 0, 4294967296⟩, ⟨4, 1, 0, 4294967297⟩] := by
  refine ⟨?_, ?_⟩
  · intro h
    have hapart := (h.2.1.2 (by decide)).2.1 4294967296 (by decide)
    exact absurd hapart (by decide)
  · intro h
    exact absurd h.2.1.1 (by decide)

end SlowLinkRun

end Orbit
