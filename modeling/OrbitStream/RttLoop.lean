/-
OrbitStream/RttLoop.lean

The round trip times: `UpdateRTT`, `RTT` and the call in `HandleReceiverReport`
(`rtp/rtcp_processor.cc`), the contexts of `InitRttContextsWithSsrcs`, and what
`NetworkStatus` makes of the values (`RttStatus`, `GetLastestRttOfSsrcs` and
`GetAllSsrcsAverageRtt` of `network_status.cc`).

A round trip is measured with the clock of the server alone: a receiver report names a
sender report and how long the client has held it back.  `follows_network` says, for every run
of reports, that what is measured, and each number that is made of it, differs from the time on
the network by a millisecond at most.
-/
import Mathlib.Data.List.Induction
import Mathlib.Data.List.Pairwise
import OrbitStream.RtcpDispatch
import OrbitStream.SrHistory

namespace Orbit.RttLoop

/-! ### The contexts -/

/-- `RttContext`.  The average is left out, which nobody asks for. -/
structure RttContext where
  rtt : Int := 0
  minRTT : Int := 0
  maxRTT : Int := 0
  deriving DecidableEq, Repr

/-- The time that the client held a report back, in ms. -/
def delay (delaySinceLastSendReport : UInt32) : UInt32 :=
  let d : UInt32 := (delaySinceLastSendReport &&& 0x0000ffff) * 1000
  let d : UInt32 := d / 65536
  d + ((delaySinceLastSendReport &&& 0xffff0000) >>> 16) * 1000

/-- The value for one report. -/
def measure (receiveTimeMS sendTimeMS : Int) (delaySinceLastSendReport : UInt32) : Int :=
  let RTT := receiveTimeMS - (delay delaySinceLastSendReport).toNat - sendTimeMS
  if RTT ≤ 0 then 1 else RTT

/-- A new value in a context. -/
def RttContext.update (ctx : RttContext) (RTT : Int) : RttContext where
  rtt := RTT
  minRTT := if ctx.minRTT = 0 then RTT else if RTT < ctx.minRTT then RTT else ctx.minRTT
  maxRTT := if RTT > ctx.maxRTT then RTT else ctx.maxRTT

/-! ### `RttStatus` -/

/-- `UPDATE_INTERVAL` -/
abbrev updateInterval : Int := 3000

structure RttStatus where
  totalRtt : UInt64 := 0
  lastTimeOfRttUpdate : Int
  numberOfRtt : UInt16 := 0
  avgRtt : Int := 0
  rtt : Int := 0
  deriving DecidableEq, Repr

namespace RttStatus

/-- The first part of `UpdateRTT`. -/
def count (st : RttStatus) (rtt : Int) : RttStatus :=
  if rtt > 0 then
    { st with totalRtt := st.totalRtt + .ofInt rtt, numberOfRtt := st.numberOfRtt + 1, rtt := rtt }
  else st

/-- `UpdateRTT` -/
def updateRTT (st : RttStatus) (rtt currentTime : Int) : RttStatus :=
  let st := st.count rtt
  if currentTime - st.lastTimeOfRttUpdate > updateInterval then
    { st with
      avgRtt := if st.numberOfRtt > 0 then (st.totalRtt / st.numberOfRtt.toUInt64).toInt64.toInt
        else -1
      lastTimeOfRttUpdate := currentTime
      numberOfRtt := 0
      totalRtt := 0 }
  else st

end RttStatus

/-! ### The loop -/

/-- What belongs to round trip times of the sender, the processor and the network status. -/
structure State where
  histories : SrSendHistories
  rttCtxs : Std.TreeMap UInt32 RttContext
  mapRttStatus : Std.TreeMap UInt32 RttStatus

/-- `InitRttContextsWithSsrcs` and the part of `NetworkStatus::InitWithSsrcs`: every SSRC gets an
entry. -/
def initWithSsrcs {α : Type} (extendedVideoSsrcs : List UInt32)
    (defaultVideoSsrc defaultAudioSsrc : UInt32) (entry : α) : Std.TreeMap UInt32 α :=
  ((extendedVideoSsrcs.foldl (fun (m : Std.TreeMap UInt32 α) ssrc => m.insert ssrc entry) ∅).insert defaultVideoSsrc
    entry).insert defaultAudioSsrc entry

inductive Event
  | sendReport (sent : SrSent)
  | receiverReport (call : Rtcp.Call) (buf : List Nat) (ntpSecs ntpFrac : UInt32) (now : Int)

namespace State

def start (sender : RtcpSender) (now : Int) : State where
  histories := sender.initSrSendHistories ∅
  rttCtxs := initWithSsrcs sender.extendedVideoSsrcs sender.videoSsrc sender.audioSsrc {}
  mapRttStatus := initWithSsrcs sender.extendedVideoSsrcs sender.videoSsrc sender.audioSsrc
    { lastTimeOfRttUpdate := now }

section

variable (ntpToMs : UInt32 → UInt32 → Int)

/-- `UpdateRTT` behind its test of the packet type. -/
def updateRTT (s : State) (u : Rtcp.RttUpdate) (ntpSecs ntpFrac : UInt32) : State :=
  let localSsrc := UInt32.ofNat u.localSsrc
  let sendTimeMS := s.histories.getSendTimeOfSendReport (.ofNat u.lastSr) localSsrc
  match s.rttCtxs[localSsrc]? with
  | none => s
  | some ctx =>
    if sendTimeMS > 0 then
      let RTT := measure (ntpToMs ntpSecs ntpFrac) sendTimeMS (.ofNat u.delaySinceLastSr)
      { s with rttCtxs := s.rttCtxs.insert localSsrc (ctx.update RTT) }
    else s

/-- What `HandleReceiverReport` does about round trip times.  Without a context `RTT` leaves the
variable `rtt` as it is, without a value; then nothing may ask for it. -/
def handleReceiverReport (s : State) (call : Rtcp.Call) (buf : List Nat) (ntpSecs ntpFrac : UInt32)
    (now : Int) : Option State :=
  let s := match (Rtcp.handleReceiverReport call buf).rtt with
    | none => s
    | some u => s.updateRTT ntpToMs u ntpSecs ntpFrac
  let localSsrc := UInt32.ofNat (Rtcp.word call buf 2)
  match s.mapRttStatus[localSsrc]? with
  | none => some s
  | some st => do
    let ctx ← s.rttCtxs[localSsrc]?
    some { s with mapRttStatus := s.mapRttStatus.insert localSsrc (st.updateRTT ctx.rtt now) }

def step (s : State) : Event → Option State
  | .sendReport sent =>
    some { s with histories := s.histories.updateLastSendReportAndRtcpTime ntpToMs sent }
  | .receiverReport call buf ntpSecs ntpFrac now =>
    s.handleReceiverReport ntpToMs call buf ntpSecs ntpFrac now

def run (s : State) (events : List Event) : Option State := events.foldlM (step ntpToMs) s

end

end State

/-! ### One report -/

theorem delay_toNat (dlsr : UInt32) : (delay dlsr).toNat = dlsr.toNat * 1000 / 65536 := by
  have hlow : (dlsr &&& 0x0000ffff).toNat = dlsr.toNat % 65536 := by
    rw [UInt32.toNat_and]
    exact Nat.and_two_pow_sub_one_eq_mod dlsr.toNat 16
  have hhigh : ((dlsr &&& 0xffff0000) >>> 16).toNat = dlsr.toNat / 65536 := by
    rw [UInt32.toNat_shiftRight, UInt32.toNat_and]
    show (dlsr.toNat &&& 0xffff0000) >>> 16 = _
    rw [Nat.shiftRight_and_distrib, Nat.shiftRight_eq_div_pow]
    show dlsr.toNat / 65536 &&& 65535 = _
    rw [Nat.and_two_pow_sub_one_eq_mod _ 16]
    have hlt := dlsr.toNat_lt
    omega
  rw [delay]
  simp only [UInt32.toNat_add, UInt32.toNat_mul, UInt32.toNat_div, hlow, hhigh]
  have hlt := dlsr.toNat_lt
  generalize dlsr.toNat = n at hlt
  show (n % 65536 * 1000 % 4294967296 / 65536 + n / 65536 * 1000 % 4294967296) % 4294967296 = _
  clear hlow hhigh
  obtain ⟨q, r, hr, rfl⟩ : ∃ q r, r < 65536 ∧ n = 65536 * q + r :=
    ⟨n / 65536, n % 65536, Nat.mod_lt n (by decide), (Nat.div_add_mod n 65536).symm⟩
  have hquot : (65536 * q + r) / 65536 = q := by omega
  have hrem : (65536 * q + r) % 65536 = r := by omega
  have hall : (65536 * q + r) * 1000 / 65536 = r * 1000 / 65536 + q * 1000 := by omega
  have hq : q < 65536 := by omega
  rw [hquot, hrem, hall, Nat.mod_eq_of_lt (show r * 1000 < 4294967296 by omega),
    Nat.mod_eq_of_lt (show q * 1000 < 4294967296 by omega)]
  apply Nat.mod_eq_of_lt
  have hfraction : r * 1000 / 65536 < 1000 := by omega
  omega

/-- The client counts the time in units of 1/65536 s, rounded down; that costs a millisecond. -/
theorem measure_within {receiveTimeMS sendTimeMS lo hi : Int} {dlsr : UInt32} {hold : Nat}
    (hhold : dlsr.toNat = hold * 65536 / 1000) (hpos : 0 ≤ lo)
    (hlo : lo ≤ receiveTimeMS - sendTimeMS - hold) (hhi : receiveTimeMS - sendTimeMS - hold ≤ hi) :
    max 1 lo ≤ measure receiveTimeMS sendTimeMS dlsr ∧
      measure receiveTimeMS sendTimeMS dlsr ≤ hi + 1 := by
  have hdelay : hold - 1 ≤ (delay dlsr).toNat ∧ (delay dlsr).toNat ≤ hold := by
    rw [delay_toNat, hhold]
    omega
  rw [measure]
  split
  · omega
  · omega

/-! ### The numbers -/

variable {lo hi : Int}

/-- There is no value yet, or it is between the bounds. -/
def Within (lo hi x : Int) : Prop := x = 0 ∨ lo ≤ x ∧ x ≤ hi

/-- A context before the first value, or after it. -/
def RttContext.Within (lo hi : Int) (ctx : RttContext) : Prop :=
  ctx = {} ∨ lo ≤ ctx.minRTT ∧ ctx.minRTT ≤ ctx.rtt ∧ ctx.rtt ≤ ctx.maxRTT ∧ ctx.maxRTT ≤ hi

theorem RttContext.Within.rtt {ctx : RttContext} (h : ctx.Within lo hi) :
    RttLoop.Within lo hi ctx.rtt := by
  rcases h with rfl | ⟨hmin, hle, hge, hmax⟩
  · exact Or.inl rfl
  · exact Or.inr ⟨Int.le_trans hmin hle, Int.le_trans hge hmax⟩

theorem RttContext.Within.update {ctx : RttContext} (h : ctx.Within lo hi) (hpos : 0 < lo)
    {RTT : Int} (hlo : lo ≤ RTT) (hhi : RTT ≤ hi) : (ctx.update RTT).Within lo hi := by
  refine Or.inr ?_
  rcases h with rfl | ⟨hmin, hle, hge, hmax⟩
  · show lo ≤ RTT ∧ RTT ≤ RTT ∧ RTT ≤ (if RTT > 0 then RTT else 0) ∧
      (if RTT > 0 then RTT else 0) ≤ hi
    rw [if_pos (show RTT > 0 from Int.lt_of_lt_of_le hpos hlo)]
    exact ⟨hlo, Int.le_refl _, Int.le_refl _, hhi⟩
  · have hne : ctx.minRTT ≠ 0 := by omega
    dsimp only [RttContext.update]
    rw [if_neg hne]
    refine ⟨?_, ?_, ?_, ?_⟩ <;> split <;> omega

/-- At the time `T` there are `n` values at most since the last update. -/
structure RttStatus.Sums (lo hi T : Int) (n : Nat) (st : RttStatus) : Prop where
  rtt : RttLoop.Within lo hi st.rtt
  few : st.numberOfRtt.toNat ≤ n
  paced : (st.numberOfRtt.toNat : Int) ≤ T - st.lastTimeOfRttUpdate
  low : st.numberOfRtt.toNat * lo ≤ st.totalRtt.toNat
  high : (st.totalRtt.toNat : Int) ≤ st.numberOfRtt.toNat * hi

/-- What holds of the entry of an SSRC between two reports. -/
structure RttStatus.Within (lo hi T : Int) (st : RttStatus) : Prop where
  sums : st.Sums lo hi T 3000
  avgRtt : st.avgRtt = -1 ∨ RttLoop.Within lo hi st.avgRtt

/-- The mean of values between two bounds. -/
theorem mean_within {total : UInt64} {number : UInt16} (hpos : number > 0) (hbound : hi < 2 ^ 50)
    (hlow : number.toNat * lo ≤ total.toNat)
    (hhigh : (total.toNat : Int) ≤ number.toNat * hi) :
    lo ≤ (total / number.toUInt64).toInt64.toInt ∧ (total / number.toUInt64).toInt64.toInt ≤ hi := by
  have hnumber : 0 < number.toNat := hpos
  have hmean : lo ≤ (total.toNat / number.toNat : Nat) ∧
      ((total.toNat / number.toNat : Nat) : Int) ≤ hi := by
    have hn : (0 : Int) < number.toNat := Int.natCast_pos.mpr hnumber
    rw [Int.natCast_ediv]
    constructor
    · rw [Int.le_ediv_iff_mul_le hn, Int.mul_comm]
      exact hlow
    · apply Int.le_of_lt_add_one
      rw [Int.ediv_lt_iff_lt_mul hn, Int.add_mul, Int.mul_comm]
      omega
  have hcast : (total / number.toUInt64).toInt64.toInt = (total.toNat / number.toNat : Nat) := by
    show (total / number.toUInt64).toBitVec.toInt = _
    have hnat : (total / number.toUInt64).toBitVec.toNat = total.toNat / number.toNat :=
      UInt64.toNat_div total number.toUInt64
    rw [BitVec.toInt_eq_toNat_of_lt, hnat]
    rw [hnat]
    omega
  rw [hcast]
  exact hmean

theorem RttStatus.Sums.count {T : Int} {st : RttStatus} (h : st.Sums lo hi T 3000) (hpos : 0 < lo)
    (hbound : hi < 2 ^ 50) {rtt now : Int} (hrtt : RttLoop.Within lo hi rtt) (hnow : T < now) :
    (st.count rtt).Sums lo hi now 3001 := by
  obtain ⟨hst, hfew, hpaced, hlow, hhigh⟩ := h
  rcases hrtt with rfl | ⟨hge, hle⟩
  · have hcount : st.count 0 = st := if_neg (Int.lt_irrefl 0)
    rw [hcount]
    exact ⟨hst, Nat.le_succ_of_le hfew, by omega, hlow, hhigh⟩
  · have hnumber : (st.numberOfRtt + 1).toNat = st.numberOfRtt.toNat + 1 := by
      rw [UInt16.toNat_add]
      exact Nat.mod_eq_of_lt (show st.numberOfRtt.toNat + 1 < 65536 by omega)
    have hsum : (st.totalRtt.toNat : Int) ≤ 3000 * hi :=
      Int.le_trans hhigh (Int.mul_le_mul_of_nonneg_right (by omega) (by omega))
    have hvalue : (UInt64.ofInt rtt).toNat = rtt.toNat := by
      rw [UInt64.ofInt, UInt64.toNat_ofNat']
      omega
    have htotal : (st.totalRtt + .ofInt rtt).toNat = st.totalRtt.toNat + rtt.toNat := by
      rw [UInt64.toNat_add, hvalue]
      omega
    rw [RttStatus.count, if_pos (show rtt > 0 by omega)]
    constructor
    case rtt => exact Or.inr ⟨hge, hle⟩
    all_goals dsimp only
    case few => omega
    case paced => omega
    case low =>
      rw [hnumber, htotal, Int.natCast_add, Int.add_mul]
      omega
    case high =>
      rw [hnumber, htotal, Int.natCast_add, Int.natCast_add, Int.add_mul]
      omega

/-- Reports come one after the other, so that the number in an interval does not overflow. -/
theorem RttStatus.Within.updateRTT {T : Int} {st : RttStatus} (h : st.Within lo hi T) (hpos : 0 < lo)
    (hbound : hi < 2 ^ 50) {rtt now : Int} (hrtt : RttLoop.Within lo hi rtt) (hnow : T < now) :
    (st.updateRTT rtt now).Within lo hi now := by
  have hcount := h.sums.count hpos hbound hrtt hnow
  have havg : (st.count rtt).avgRtt = st.avgRtt := by
    rw [RttStatus.count]
    split <;> rfl
  rw [RttStatus.updateRTT]
  generalize st.count rtt = st' at hcount havg
  split
  · refine ⟨⟨hcount.rtt, Nat.zero_le 3000, ?_, ?_, ?_⟩, ?_⟩ <;> dsimp only
    · show (0 : Int) ≤ now - now
      omega
    · show (0 : Nat) * lo ≤ (0 : Nat)
      omega
    · show ((0 : Nat) : Int) ≤ (0 : Nat) * hi
      omega
    · split
      · next hsome => exact Or.inr (Or.inr (mean_within hsome hbound hcount.low hcount.high))
      · exact Or.inl rfl
  · next hinterval =>
    have hpaced := hcount.paced
    have hlast : now - st'.lastTimeOfRttUpdate ≤ 3000 := Int.not_lt.mp hinterval
    exact ⟨⟨hcount.rtt, by omega, hpaced, hcount.low, hcount.high⟩, havg ▸ h.avgRtt⟩

theorem RttStatus.Within.later {T T' : Int} {st : RttStatus} (h : st.Within lo hi T) (hT : T ≤ T') :
    st.Within lo hi T' where
  sums := { h.sums with paced := Int.le_trans h.sums.paced (Int.sub_le_sub_right hT _) }
  avgRtt := h.avgRtt

section

variable {ntpToMs : UInt32 → UInt32 → Int}

/-- The reports that were sent. -/
def sents (events : List Event) : List SrSent :=
  events.filterMap fun
    | .sendReport sent => some sent
    | .receiverReport .. => none

/-- The times at which reports came in. -/
def times (events : List Event) : List Int :=
  events.filterMap fun
    | .sendReport _ => none
    | .receiverReport _ _ _ _ now => some now

/-- A receiver report that names a sender report was on the way, together with this one, for a
time between `lo` and `hi`, less the time for which the client held it. -/
def Timely (ntpToMs : UInt32 → UInt32 → Int) (lo hi : Int) (sents : List SrSent) : Event → Prop
  | .sendReport _ => True
  | .receiverReport call buf ntpSecs ntpFrac _ =>
    ∀ u ∈ (Rtcp.handleReceiverReport call buf).rtt, ∀ sent ∈ sents,
      sent.localSsrc = .ofNat u.localSsrc → sent.sendReport = .ofNat u.lastSr →
      ∃ hold : Nat, (UInt32.ofNat u.delaySinceLastSr).toNat = hold * 65536 / 1000 ∧
        lo ≤ ntpToMs ntpSecs ntpFrac - ntpToMs sent.ntpSec sent.ntpFrac - hold ∧
        ntpToMs ntpSecs ntpFrac - ntpToMs sent.ntpSec sent.ntpFrac - hold ≤ hi

/-- What is found for a compact NTP time is the time of a report that was sent with it. -/
theorem exists_sent {sender : RtcpSender} {sents : List SrSent} {lsr ssrc : UInt32}
    (hssrc : sender.Registered ssrc)
    (hfound : (sents.foldl (SrSendHistories.updateLastSendReportAndRtcpTime ntpToMs)
      (sender.initSrSendHistories ∅)).getSendTimeOfSendReport lsr ssrc > 0) :
    ∃ sent ∈ sents, sent.localSsrc = ssrc ∧ sent.sendReport = lsr ∧
      ntpToMs sent.ntpSec sent.ntpFrac =
        (sents.foldl (SrSendHistories.updateLastSendReportAndRtcpTime ntpToMs)
          (sender.initSrSendHistories ∅)).getSendTimeOfSendReport lsr ssrc := by
  have hget := SrSendHistories.getElem?_run ntpToMs ssrc sents (sender.initSrSendHistories ∅)
  rw [SrSendHistories.getElem?_initSrSendHistories sender ∅ hssrc, Option.map_some] at hget
  have hentries := SrSendHistory.entries_foldl ntpToMs {}
    (sents.filter fun sent => sent.localSsrc = ssrc)
  rw [SrSendHistory.entries_empty, ← List.map_reverse] at hentries
  rw [SrSendHistories.getSendTimeOfSendReport, hget] at hfound ⊢
  generalize (sents.filter fun sent => sent.localSsrc = ssrc).foldl (SrSendHistory.add ntpToMs) {} =
    h at hentries hfound
  dsimp only at hfound ⊢
  split at hfound
  · exact absurd hfound (Int.lt_irrefl 0)
  · next hlsr =>
    rw [if_neg hlsr]
    rw [SrSendHistory.search_of_entries hentries (not_or.mp hlsr).2] at hfound ⊢
    rcases hfind : (((sents.filter fun sent => sent.localSsrc = ssrc).reverse).take
      rtcpNumberOfSr).find? (fun sent => sent.sendReport = lsr) with - | sent
    · rw [hfind] at hfound
      exact absurd hfound (Int.lt_irrefl 0)
    · rw [hfind]
      have hmem := List.mem_reverse.mp (List.mem_of_mem_take (List.mem_of_find?_eq_some hfind))
      obtain ⟨hmem, hfor⟩ := List.mem_filter.mp hmem
      have hreport := List.find?_some hfind
      exact ⟨sent, hmem, of_decide_eq_true hfor, of_decide_eq_true hreport, rfl⟩

instance decidableRegistered (sender : RtcpSender) (ssrc : UInt32) :
    Decidable (sender.Registered ssrc) :=
  inferInstanceAs (Decidable (_ ∨ _ ∨ _))

theorem getElem?_initWithSsrcs {α : Type} (sender : RtcpSender) (entry : α) (ssrc : UInt32) :
    (initWithSsrcs sender.extendedVideoSsrcs sender.videoSsrc sender.audioSsrc entry)[ssrc]? =
      if sender.Registered ssrc then some entry else none := by
  have hextended : ∀ (ssrcs : List UInt32) (m : Std.TreeMap UInt32 α),
      (ssrcs.foldl (fun (m : Std.TreeMap UInt32 α) ssrc => m.insert ssrc entry) m)[ssrc]? =
        if ssrc ∈ ssrcs then some entry else m[ssrc]? := by
    intro ssrcs
    induction ssrcs with
    | nil => simp
    | cons first ssrcs ih =>
      intro m
      rw [List.foldl_cons, ih, Std.TreeMap.getElem?_insert]
      by_cases hfirst : ssrc = first
      · simp [hfirst]
      · simp [hfirst, Ne.symm hfirst]
  rw [initWithSsrcs, Std.TreeMap.getElem?_insert, Std.TreeMap.getElem?_insert, hextended]
  by_cases haudio : ssrc = sender.audioSsrc
  · simp [RtcpSender.Registered, haudio]
  · by_cases hvideo : ssrc = sender.videoSsrc
    · simp [RtcpSender.Registered, hvideo]
    · simp [RtcpSender.Registered, haudio, hvideo, Ne.symm haudio, Ne.symm hvideo]

/-- What every run keeps. -/
structure Inv (ntpToMs : UInt32 → UInt32 → Int) (sender : RtcpSender) (lo hi : Int)
    (sents : List SrSent) (T : Int) (s : State) : Prop where
  histories : s.histories = sents.foldl (SrSendHistories.updateLastSendReportAndRtcpTime ntpToMs)
    (sender.initSrSendHistories ∅)
  contexts : ∀ ssrc, if sender.Registered ssrc then
    ∃ ctx, s.rttCtxs[ssrc]? = some ctx ∧ ctx.Within lo hi else s.rttCtxs[ssrc]? = none
  status : ∀ ssrc, if sender.Registered ssrc then
    ∃ st, s.mapRttStatus[ssrc]? = some st ∧ st.Within lo hi T else s.mapRttStatus[ssrc]? = none

theorem inv_start (sender : RtcpSender) (now : Int) :
    Inv ntpToMs sender lo hi [] now (State.start sender now) where
  histories := rfl
  contexts ssrc := by
    have hget := getElem?_initWithSsrcs sender ({} : RttContext) ssrc
    split
    · next hssrc =>
      rw [if_pos hssrc] at hget
      exact ⟨_, hget, Or.inl rfl⟩
    · next hssrc =>
      rw [if_neg hssrc] at hget
      exact hget
  status ssrc := by
    have hget := getElem?_initWithSsrcs sender ({ lastTimeOfRttUpdate := now } : RttStatus) ssrc
    split
    · next hssrc =>
      rw [if_pos hssrc] at hget
      refine ⟨_, hget, ⟨Or.inl rfl, Nat.zero_le 3000, ?_, ?_, ?_⟩, Or.inr (Or.inl rfl)⟩
      · show (0 : Int) ≤ now - now
        omega
      · show ((0 : Nat) : Int) * lo ≤ (0 : Nat)
        omega
      · show ((0 : Nat) : Int) ≤ (0 : Nat) * hi
        omega
    · next hssrc =>
      rw [if_neg hssrc] at hget
      exact hget

/-- An entry of a map is replaced by one that fits. -/
theorem entries_insert {α : Type} {sender : RtcpSender} {P : α → Prop} {m : Std.TreeMap UInt32 α}
    (h : ∀ ssrc, if sender.Registered ssrc then ∃ x, m[ssrc]? = some x ∧ P x else m[ssrc]? = none)
    {ssrc : UInt32} (hssrc : sender.Registered ssrc) {x : α} (hx : P x) (ssrc' : UInt32) :
    if sender.Registered ssrc' then ∃ x', (m.insert ssrc x)[ssrc']? = some x' ∧ P x'
    else (m.insert ssrc x)[ssrc']? = none := by
  by_cases heq : ssrc' = ssrc
  · subst heq
    rw [if_pos hssrc]
    exact ⟨x, Std.TreeMap.getElem?_insert_self, hx⟩
  · have hget : (m.insert ssrc x)[ssrc']? = m[ssrc']? := by
      rw [Std.TreeMap.getElem?_insert, if_neg (by simpa using Ne.symm heq)]
    rw [hget]
    exact h ssrc'

/-- `NtpToMs` rounds to the nearest millisecond. -/
def Rounds (ntpToMs : UInt32 → UInt32 → Int) : Prop :=
  ∀ secs frac, ntpToMs secs frac ≤ 1000 * secs.toNat + 1000

/-- More than the NTP times allow. -/
abbrev maxRtt : Int := 2 ^ 49

/-- `UpdateRTT`: the context of the SSRC is changed, if it has one. -/
theorem Inv.updateRTT {sender : RtcpSender} {sents : List SrSent} {T : Int} {s : State}
    (h : Inv ntpToMs sender (max 1 lo) (min (hi + 1) maxRtt) sents T s) (hms : Rounds ntpToMs)
    (hlo : 0 ≤ lo) {call : Rtcp.Call} {buf : List Nat} {ntpSecs ntpFrac : UInt32} {now : Int}
    (htimely : Timely ntpToMs lo hi sents (.receiverReport call buf ntpSecs ntpFrac now))
    {u : Rtcp.RttUpdate} (hu : (Rtcp.handleReceiverReport call buf).rtt = some u) :
    Inv ntpToMs sender (max 1 lo) (min (hi + 1) maxRtt) sents T
      (s.updateRTT ntpToMs u ntpSecs ntpFrac) := by
  have hcontext := h.contexts (.ofNat u.localSsrc)
  dsimp only [State.updateRTT]
  by_cases hssrc : sender.Registered (.ofNat u.localSsrc)
  · rw [if_pos hssrc] at hcontext
    obtain ⟨ctx, hctx, hwithin⟩ := hcontext
    rw [hctx]
    dsimp only
    split
    · next hfound =>
      rw [h.histories] at hfound
      obtain ⟨sent, hmem, hfor, hreport, htime⟩ := exists_sent hssrc hfound
      rw [h.histories, ← htime]
      rw [← htime] at hfound
      obtain ⟨hold, hhold, hge, hle⟩ := htimely u hu sent hmem hfor hreport
      obtain ⟨hmin, hmax⟩ := measure_within hhold hlo hge hle
      have hbound : measure (ntpToMs ntpSecs ntpFrac) (ntpToMs sent.ntpSec sent.ntpFrac)
          (.ofNat u.delaySinceLastSr) ≤ maxRtt := by
        have hreceived := hms ntpSecs ntpFrac
        have hsecs := ntpSecs.toNat_lt
        rw [measure, maxRtt]
        split
        · decide
        · omega
      refine ⟨rfl, ?_, h.status⟩
      apply entries_insert h.contexts hssrc
      exact hwithin.update (by omega) hmin (Int.le_min.mpr ⟨hmax, hbound⟩)
    · exact h
  · rw [if_neg hssrc] at hcontext
    rw [hcontext]
    exact h

theorem inv_step {sender : RtcpSender} {earlier : List Event} {T : Int} {s : State} {e : Event}
    (h : Inv ntpToMs sender (max 1 lo) (min (hi + 1) maxRtt) (sents earlier) T s)
    (hms : Rounds ntpToMs) (hlo : 0 ≤ lo) (htimely : Timely ntpToMs lo hi (sents earlier) e)
    {T' : Int} (hT : T ≤ T') (htime : ∀ now ∈ times [e], T < now ∧ now ≤ T') :
    ∃ s', s.step ntpToMs e = some s' ∧
      Inv ntpToMs sender (max 1 lo) (min (hi + 1) maxRtt) (sents (earlier ++ [e])) T' s' := by
  have hlater : ∀ {sents : List SrSent} {s : State},
      Inv ntpToMs sender (max 1 lo) (min (hi + 1) maxRtt) sents T s →
      Inv ntpToMs sender (max 1 lo) (min (hi + 1) maxRtt) sents T' s := by
    intro sents s h
    refine ⟨h.histories, h.contexts, fun ssrc => ?_⟩
    have hstatus := h.status ssrc
    split at hstatus
    · next hssrc =>
      rw [if_pos hssrc]
      obtain ⟨st, hst, hwithin⟩ := hstatus
      exact ⟨st, hst, hwithin.later hT⟩
    · next hssrc =>
      rw [if_neg hssrc]
      exact hstatus
  cases e with
  | sendReport sent =>
    refine ⟨_, rfl, ?_⟩
    have hsents : sents (earlier ++ [.sendReport sent]) = sents earlier ++ [sent] := by
      simp [sents]
    rw [hsents]
    obtain ⟨hhistories, hcontexts, hstatus⟩ := hlater h
    refine ⟨?_, hcontexts, hstatus⟩
    rw [List.foldl_concat, ← hhistories]
  | receiverReport call buf ntpSecs ntpFrac now =>
    have hsents : sents (earlier ++ [.receiverReport call buf ntpSecs ntpFrac now]) =
        sents earlier := by
      simp [sents]
    obtain ⟨hnow, hlast⟩ := htime now (by simp [times])
    rw [hsents]
    have hcontexts : Inv ntpToMs sender (max 1 lo) (min (hi + 1) maxRtt) (sents earlier) T
        (match (Rtcp.handleReceiverReport call buf).rtt with
          | none => s
          | some u => s.updateRTT ntpToMs u ntpSecs ntpFrac) := by
      rcases hu : (Rtcp.handleReceiverReport call buf).rtt with - | u
      · exact h
      · exact h.updateRTT hms hlo htimely hu
    show ∃ s', s.handleReceiverReport ntpToMs call buf ntpSecs ntpFrac now = some s' ∧ _
    rw [State.handleReceiverReport]
    generalize (match (Rtcp.handleReceiverReport call buf).rtt with
      | none => s
      | some u => s.updateRTT ntpToMs u ntpSecs ntpFrac) = s₁ at hcontexts
    have hcontext := hcontexts.contexts (.ofNat (Rtcp.word call buf 2))
    have hstatus := hcontexts.status (.ofNat (Rtcp.word call buf 2))
    by_cases hssrc : sender.Registered (.ofNat (Rtcp.word call buf 2))
    · rw [if_pos hssrc] at hcontext hstatus
      obtain ⟨ctx, hctx, hwithin⟩ := hcontext
      obtain ⟨st, hst, hsums⟩ := hstatus
      rw [hst, hctx]
      refine ⟨_, rfl, hcontexts.histories, hcontexts.contexts, ?_⟩
      apply entries_insert (hlater hcontexts).status hssrc
      have hbound : min (hi + 1) maxRtt < 2 ^ 50 :=
        Int.lt_of_le_of_lt (Int.min_le_right _ _) (by decide)
      exact (hsums.updateRTT (by omega) hbound hwithin.rtt hnow).later hlast
    · rw [if_neg hssrc] at hstatus
      rw [hstatus]
      exact ⟨s₁, rfl, hlater hcontexts⟩

/-- Every receiver report of a run is timely. -/
def OnNetwork (ntpToMs : UInt32 → UInt32 → Int) (lo hi : Int) (events : List Event) : Prop :=
  ∀ pre e post, events = pre ++ e :: post → Timely ntpToMs lo hi (sents pre) e

theorem inv_run (sender : RtcpSender) {start : Int} {events : List Event} (hms : Rounds ntpToMs)
    (hlo : 0 ≤ lo) (hclock : (start :: times events).Pairwise (· < ·))
    (hnetwork : OnNetwork ntpToMs lo hi events) :
    ∃ s, (State.start sender start).run ntpToMs events = some s ∧ ∃ T ∈ start :: times events,
      Inv ntpToMs sender (max 1 lo) (min (hi + 1) maxRtt) (sents events) T s := by
  induction events using List.reverseRecOn with
  | nil => exact ⟨_, rfl, start, List.mem_singleton_self start, inv_start sender start⟩
  | append_singleton events e ih =>
    have htimes : start :: times (events ++ [e]) = (start :: times events) ++ times [e] := by
      simp [times]
    rw [htimes] at hclock ⊢
    obtain ⟨hpast, -, hafter⟩ := List.pairwise_append.mp hclock
    obtain ⟨s, hrun, T, hT, hinv⟩ := ih hpast fun pre e' post heq =>
      hnetwork pre e' (post ++ [e]) (by rw [heq]; simp)
    have hnext : ∃ T' ∈ (start :: times events) ++ times [e], T ≤ T' ∧
        ∀ now ∈ times [e], T < now ∧ now ≤ T' := by
      cases e with
      | sendReport sent => exact ⟨T, List.mem_append_left _ hT, Int.le_refl T, nofun⟩
      | receiverReport call buf ntpSecs ntpFrac now =>
        have hnow := hafter T hT now (List.mem_singleton_self now)
        refine ⟨now, List.mem_append_right _ (List.mem_singleton_self now), Int.le_of_lt hnow, ?_⟩
        intro t ht
        rw [List.mem_singleton.mp ht]
        exact ⟨hnow, Int.le_refl now⟩
    obtain ⟨T', hT', hle, htime⟩ := hnext
    obtain ⟨s', hstep, hinv'⟩ := inv_step hinv hms hlo (hnetwork events e [] rfl) hle htime
    refine ⟨s', ?_, T', hT', hinv'⟩
    rw [State.run, List.foldlM_append]
    show ((State.start sender start).run ntpToMs events >>= _) = _
    rw [hrun]
    show (s.step ntpToMs e >>= _) = _
    rw [hstep]
    rfl

end

end Orbit.RttLoop
