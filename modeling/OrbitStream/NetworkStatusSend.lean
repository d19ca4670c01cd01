/-
OrbitStream/NetworkStatusSend.lean

The send side of `NetworkStatus` (`network_status.cc`, `network_status.h`), and the sender
reports made from it (`RtcpSender::SendSrPacketInternal`).

For every SSRC that is registered there is a `SendPacketsStatus`.  A packet sent adds to
its counters; a receiver report of the peer is turned into the packets sent and lost since
the previous one, which are added up over all SSRCs into the total fraction lost.

The differences of the counters of the peer are unsigned, and so are their totals: the
total fraction is right in a run whose reports lower no counter, lose no more packets than
are sent, and leave a hundredfold of what is sent in all within 32 bits (`send_fraction`).  The
counters of packets and bytes are those of the packets sent, but the time stamp is added to
like them: it is the one of the last packet only if all those before it add up to zero
(`sender_report_iff`).
-/
import Mathlib.Algebra.BigOperators.Group.List.Basic
import Mathlib.Algebra.BigOperators.Ring.Finset
import Mathlib.Algebra.Group.Nat.Defs
import Mathlib.Algebra.GroupWithZero.Nat
import Mathlib.Algebra.Order.BigOperators.Group.List
import Mathlib.Algebra.Order.Ring.Nat
import Mathlib.Algebra.Ring.Int.Defs
import Mathlib.Data.List.Dedup
import Mathlib.Data.List.Induction
import OrbitStream.Lib.Run

namespace Orbit

open Lib

/-- `SendPacketsStatus`. -/
structure SendPacketsStatus where
  lastUpdateTime : Int := 0
  currentHighestSeqnumber : UInt32 := 0
  lastCumulativeLost : UInt32 := 0
  sendFractionLost : UInt32 := 0
  sendPackets : Int32 := 0
  sendBytes : Int32 := 0
  lastTs : UInt32 := 0
  expectSendPackets : UInt32 := 0
  sendLost : UInt32 := 0
  deriving DecidableEq, Repr

namespace SendPacketsStatus

/-- `set_send_packets`. -/
def setSendPackets (st : SendPacketsStatus) (increaseNumber : Int32) : SendPacketsStatus :=
  { st with sendPackets := st.sendPackets + increaseNumber }

/-- `set_send_bytes`. -/
def setSendBytes (st : SendPacketsStatus) (increaseNumber : Int32) : SendPacketsStatus :=
  { st with sendBytes := st.sendBytes + increaseNumber }

/-- `set_last_ts`. -/
def setLastTs (st : SendPacketsStatus) (lastTs : UInt32) : SendPacketsStatus :=
  { st with lastTs := st.lastTs + lastTs }

/-- `CalculateSendFractionLost`. -/
def calculateSendFractionLost (st : SendPacketsStatus) (highestSeqnumber cumulativeLost : UInt32)
    (currentTime : Int) : SendPacketsStatus :=
  let st := if st.lastUpdateTime = 0 then { st with lastUpdateTime := currentTime } else st
  if currentTime - st.lastUpdateTime < 3000 then st
  else
    let seqDuration := (highestSeqnumber - st.currentHighestSeqnumber).toInt32
    let lostCount := (cumulativeLost - st.lastCumulativeLost).toInt32
    { st with
      sendFractionLost :=
        if seqDuration > 0 ∧ lostCount ≥ 0 then (lostCount * 100 / seqDuration).toUInt32
        else st.sendFractionLost
      lastUpdateTime := currentTime
      currentHighestSeqnumber := highestSeqnumber
      lastCumulativeLost := cumulativeLost
      expectSendPackets := seqDuration.toUInt32
      sendLost := lostCount.toUInt32 }

end SendPacketsStatus

/-- A receiver report, and what the clock shows when it comes. -/
structure ReceiverReport where
  ssrc : UInt32
  highestSeqnumber : UInt32
  cumulativeLost : UInt32
  currentTime : Int
  deriving DecidableEq, Repr

/-- A packet that is sent. -/
structure SentPacket where
  isVideo : Bool
  ssrc : UInt32
  len : Int32
  timestamp : UInt32
  deriving DecidableEq, Repr

/-- The send side of `NetworkStatus`. -/
structure SendStatus where
  mapSendPacketsStatus : Std.TreeMap UInt32 SendPacketsStatus := ∅
  sendFractionLost : UInt32 := 0
  cumulateSendLost : UInt32 := 0
  sendPackets : UInt32 := 0
  videoSendPackets : UInt32 := 0
  audioSendPackets : UInt32 := 0
  sendNackCount : Int32 := 0
  recvNackCount : Int32 := 0

namespace SendStatus

/-- `InitWithSsrcs`. -/
def initWithSsrcs (s : SendStatus) (extendedVideoSsrcs : List UInt32)
    (defaultVideoSsrc defaultAudioSsrc : UInt32) : SendStatus :=
  let statuses := extendedVideoSsrcs.foldl (fun m ssrc => m.insert ssrc {}) s.mapSendPacketsStatus
  { s with
    mapSendPacketsStatus := (statuses.insert defaultAudioSsrc {}).insert defaultVideoSsrc {} }

/-! ### The loss of what is sent -/

/-- The totals of the loop over the SSRCs: sent, lost, and lost since the beginning. -/
def totals (s : SendStatus) : UInt32 × UInt32 × UInt32 :=
  s.mapSendPacketsStatus.toList.foldl (fun t e =>
    (t.1 + e.2.expectSendPackets, t.2.1 + e.2.sendLost, t.2.2 + e.2.lastCumulativeLost)) (0, 0, 0)

/-- `UpdateTotalSendFractionLost`. -/
def updateTotalSendFractionLost (s : SendStatus) : SendStatus :=
  let totalSend := s.totals.1
  let totalSendLost := s.totals.2.1
  { s with
    cumulateSendLost := s.totals.2.2
    sendFractionLost := if totalSend > 0 ∧ totalSendLost ≥ 0 then totalSendLost * 100 / totalSend
      else s.sendFractionLost }

/-- `StatisticSendFractionLost`. -/
def statisticSendFractionLost (s : SendStatus) (r : ReceiverReport) : SendStatus :=
  match s.mapSendPacketsStatus[r.ssrc]? with
  | none => s
  | some st =>
      let st := st.calculateSendFractionLost r.highestSeqnumber r.cumulativeLost r.currentTime
      let s := { s with mapSendPacketsStatus := s.mapSendPacketsStatus.insert r.ssrc st }
      s.updateTotalSendFractionLost

/-! ### What is sent -/

/-- `SendingPacket`. -/
def sendingPacket (s : SendStatus) (p : SentPacket) : SendStatus :=
  let s := { s with sendPackets := s.sendPackets + 1 }
  let s := if p.isVideo then { s with videoSendPackets := s.videoSendPackets + 1 }
    else { s with audioSendPackets := s.audioSendPackets + 1 }
  match s.mapSendPacketsStatus[p.ssrc]? with
  | none => s
  | some st =>
      let st := ((st.setSendPackets 1).setSendBytes p.len).setLastTs p.timestamp
      { s with mapSendPacketsStatus := s.mapSendPacketsStatus.insert p.ssrc st }

/-- `IncreaseNackCount`. -/
def increaseNackCount (s : SendStatus) (isSend : Bool) : SendStatus :=
  if isSend then { s with sendNackCount := s.sendNackCount + 1 }
  else { s with recvNackCount := s.recvNackCount + 1 }

/-- `GetSendPackets`. -/
def getSendPackets (s : SendStatus) (ssrc : UInt32) : Int32 :=
  match s.mapSendPacketsStatus[ssrc]? with
  | some st => st.sendPackets
  | none => -1

/-- `GetSendBytes`. -/
def getSendBytes (s : SendStatus) (ssrc : UInt32) : Int32 :=
  match s.mapSendPacketsStatus[ssrc]? with
  | some st => st.sendBytes
  | none => -1

/-- `GetLastTs`. -/
def getLastTs (s : SendStatus) (ssrc : UInt32) : UInt32 :=
  match s.mapSendPacketsStatus[ssrc]? with
  | some st => st.lastTs
  | none => 0xFFFFFFFF

end SendStatus

/-- The fields of a sender report that come from the statistics, and the SSRC it is for. -/
structure SenderReport where
  localSsrc : UInt32
  rtpTs : UInt32
  sPackets : UInt32
  sOctets : UInt32
  deriving DecidableEq, Repr

/-- `ReportPacketType`, of the sender reports. -/
inductive ReportPacketType
  | audioSr
  | videoSr
  deriving DecidableEq, Repr

/-- `RtcpSender`: the SSRCs of the transport and the times of the last reports, in µs. -/
structure RtcpSender where
  audioSsrc : UInt32
  videoSsrc : UInt32
  extendedVideoSsrcs : List UInt32 := []
  audioRtcpLastSr : UInt64 := 0
  videoRtcpLastSr : UInt64 := 0
  deriving DecidableEq, Repr

namespace RtcpSender

/-- `DEFAULT_RTCP_SR_INTERVAL`, 500 ms. -/
def defaultRtcpSrInterval : UInt64 := 500000

/-- The report for one SSRC, sent if there are packets to report. -/
def report (s : SendStatus) (ssrc : UInt32) : List SenderReport :=
  if s.getSendPackets ssrc > 0 then
    [⟨ssrc, s.getLastTs ssrc, (s.getSendPackets ssrc).toUInt32, (s.getSendBytes ssrc).toUInt32⟩]
  else []

/-- `SendSrPacketInternal`, with the reports that it sends. -/
def sendSrPacketInternal (sender : RtcpSender) (s : SendStatus) (type : ReportPacketType)
    (now : UInt64) : RtcpSender × List SenderReport :=
  match type with
  | .audioSr =>
      if now - sender.audioRtcpLastSr ≥ defaultRtcpSrInterval then
        ({ sender with audioRtcpLastSr := now }, report s sender.audioSsrc)
      else (sender, [])
  | .videoSr =>
      if now - sender.videoRtcpLastSr < defaultRtcpSrInterval then (sender, [])
      else
        ({ sender with videoRtcpLastSr := now },
          if sender.extendedVideoSsrcs ≠ [] then sender.extendedVideoSsrcs.flatMap (report s)
          else report s sender.videoSsrc)

end RtcpSender

/-! ### Deltas and totals -/

namespace SendPacketsStatus

/-- Whether a report of this time is turned into a new loss: not the first one, and not less
than three seconds after the last one that was. -/
def due (st : SendPacketsStatus) (currentTime : Int) : Bool :=
  decide (st.lastUpdateTime ≠ 0 ∧ 3000 ≤ currentTime - st.lastUpdateTime)

/-- What a report makes of the status of its SSRC. -/
def receive (st : SendPacketsStatus) (r : ReceiverReport) : SendPacketsStatus :=
  st.calculateSendFractionLost r.highestSeqnumber r.cumulativeLost r.currentTime

theorem receive_of_due {st : SendPacketsStatus} {r : ReceiverReport}
    (h : st.due r.currentTime = true) :
    ((st.receive r).expectSendPackets = r.highestSeqnumber - st.currentHighestSeqnumber ∧
      (st.receive r).sendLost = r.cumulativeLost - st.lastCumulativeLost) ∧
    (st.receive r).currentHighestSeqnumber = r.highestSeqnumber ∧
      (st.receive r).lastCumulativeLost = r.cumulativeLost ∧
      (st.receive r).lastUpdateTime = r.currentTime := by
  rw [due, decide_eq_true_iff] at h
  rw [receive, calculateSendFractionLost, if_neg h.1]
  dsimp only
  rw [if_neg (by omega)]
  exact ⟨⟨UInt32.toUInt32_toInt32 _, UInt32.toUInt32_toInt32 _⟩, rfl, rfl, rfl⟩

/-- Any other report only starts the clock, if it is the first. -/
theorem receive_of_not_due {st : SendPacketsStatus} {r : ReceiverReport}
    (h : st.due r.currentTime = false) :
    st.receive r = { st with
      lastUpdateTime := if st.lastUpdateTime = 0 then r.currentTime else st.lastUpdateTime } := by
  rw [due, decide_eq_false_iff_not] at h
  rw [receive, calculateSendFractionLost]
  by_cases hzero : st.lastUpdateTime = 0
  · rw [if_pos hzero, if_pos hzero]
    dsimp only
    rw [if_pos (by omega)]
  · rw [if_neg hzero, if_neg hzero]
    dsimp only
    rw [if_pos (by omega)]

end SendPacketsStatus

/-- The reports for an SSRC. -/
def reportsOf (ssrc : UInt32) (reports : List ReceiverReport) : List ReceiverReport :=
  reports.filter fun r => r.ssrc = ssrc

/-- The reports of an SSRC that are turned into a loss: the first one starts the clock, and then
it is each that comes three seconds or more after the one before that was. -/
def counted (since : Int) : List ReceiverReport → List ReceiverReport
  | [] => []
  | r :: l =>
      if since = 0 then counted r.currentTime l
      else if r.currentTime - since < 3000 then counted since l
      else r :: counted r.currentTime l

/-- How much a counter grew to the last of these reports from the one before it; the first of
them is compared with `old`, and `grown` stands if there is none. -/
def growth (counter : ReceiverReport → UInt32) (old : UInt32) (grown : Int) :
    List ReceiverReport → Int
  | [] => grown
  | r :: l => growth counter (counter r) ((counter r).toNat - old.toNat) l

/-- The packets that an SSRC has sent since its last report but one that counts. -/
def sentSince (reports : List ReceiverReport) (ssrc : UInt32) : Int :=
  growth ReceiverReport.highestSeqnumber 0 0 (counted 0 (reportsOf ssrc reports))

/-- The packets that it has lost since then. -/
def lostSince (reports : List ReceiverReport) (ssrc : UInt32) : Int :=
  growth ReceiverReport.cumulativeLost 0 0 (counted 0 (reportsOf ssrc reports))

/-- No counter is lowered by the last report that counts, no more packets are lost than are sent
on an SSRC, and what is sent in all, a hundredfold, fits into 32 bits. -/
structure Plausible (ssrcs : List UInt32) (reports : List ReceiverReport) : Prop where
  sent : ∀ ssrc ∈ ssrcs, 0 ≤ sentSince reports ssrc
  lost : ∀ ssrc ∈ ssrcs, 0 ≤ lostSince reports ssrc
  fewer : ∀ ssrc ∈ ssrcs, lostSince reports ssrc ≤ sentSince reports ssrc
  fits : 100 * (ssrcs.map (sentSince reports)).sum < 4294967296

instance (ssrcs : List UInt32) (reports : List ReceiverReport) :
    Decidable (Plausible ssrcs reports) :=
  -- the SSRCs of the list are gone through, not all that there can be
  have : Decidable (∀ ssrc ∈ ssrcs, 0 ≤ sentSince reports ssrc) := List.decidableBAll _ _
  have : Decidable (∀ ssrc ∈ ssrcs, 0 ≤ lostSince reports ssrc) := List.decidableBAll _ _
  have : Decidable (∀ ssrc ∈ ssrcs, lostSince reports ssrc ≤ sentSince reports ssrc) :=
    List.decidableBAll _ _
  decidable_of_iff
    ((∀ ssrc ∈ ssrcs, 0 ≤ sentSince reports ssrc) ∧ (∀ ssrc ∈ ssrcs, 0 ≤ lostSince reports ssrc) ∧
      (∀ ssrc ∈ ssrcs, lostSince reports ssrc ≤ sentSince reports ssrc) ∧
      100 * (ssrcs.map (sentSince reports)).sum < 4294967296)
    ⟨fun ⟨hs, hl, hf, hb⟩ => ⟨hs, hl, hf, hb⟩, fun ⟨hs, hl, hf, hb⟩ => ⟨hs, hl, hf, hb⟩⟩

theorem reportsOf_concat (ssrc : UInt32) (l : List ReceiverReport) (r : ReceiverReport) :
    reportsOf ssrc (l ++ [r]) =
      if r.ssrc = ssrc then reportsOf ssrc l ++ [r] else reportsOf ssrc l := by
  rw [reportsOf, List.filter_append, List.filter_cons, List.filter_nil]
  by_cases h : r.ssrc = ssrc
  · rw [if_pos (decide_eq_true h), if_pos h]
    rfl
  · rw [if_neg (by rwa [decide_eq_true_eq]), if_neg h, List.append_nil]
    rfl

theorem growth_lt {counter : ReceiverReport → UInt32} (l : List ReceiverReport) {old : UInt32}
    {grown : Int} (h : grown < 4294967296) : growth counter old grown l < 4294967296 := by
  induction l generalizing old grown with
  | nil => exact h
  | cons r l ih =>
    apply ih
    have := (counter r).toNat_lt
    omega

theorem toNat_sub_eq_iff (a b : UInt32) :
    ((a - b).toNat : Int) = (a.toNat : Int) - b.toNat ↔ b.toNat ≤ a.toNat := by
  have ha := a.toNat_lt
  have hb := b.toNat_lt
  rw [UInt32.toNat_sub]
  omega

theorem toNat_sub_eq_emod (a b : UInt32) :
    ((a - b).toNat : Int) = ((a.toNat : Int) - b.toNat) % 4294967296 := by
  have ha := a.toNat_lt
  have hb := b.toNat_lt
  rw [UInt32.toNat_sub]
  omega

theorem counted_of_due {st : SendPacketsStatus} {r : ReceiverReport}
    (h : st.due r.currentTime = true) (l : List ReceiverReport) :
    counted st.lastUpdateTime (r :: l) = r :: counted r.currentTime l := by
  rw [SendPacketsStatus.due, decide_eq_true_iff] at h
  rw [counted, if_neg h.1, if_neg (by omega)]

theorem counted_of_not_due {st : SendPacketsStatus} {r : ReceiverReport}
    (h : st.due r.currentTime = false) (l : List ReceiverReport) :
    counted st.lastUpdateTime (r :: l) = counted (st.receive r).lastUpdateTime l := by
  rw [SendPacketsStatus.receive_of_not_due h]
  rw [SendPacketsStatus.due, decide_eq_false_iff_not] at h
  rw [counted]
  by_cases hzero : st.lastUpdateTime = 0
  · rw [if_pos hzero, if_pos hzero]
  · rw [if_neg hzero, if_pos (by omega), if_neg hzero]

namespace SendPacketsStatus

/-- The differences that are stored are the growth of the counters, in 32 bits. -/
theorem foldl_receive (l : List ReceiverReport) (st : SendPacketsStatus) (sent lost : Int)
    (hsent : (st.expectSendPackets.toNat : Int) = sent % 4294967296)
    (hlost : (st.sendLost.toNat : Int) = lost % 4294967296) :
    ((l.foldl receive st).expectSendPackets.toNat : Int) =
        growth ReceiverReport.highestSeqnumber st.currentHighestSeqnumber sent
          (counted st.lastUpdateTime l) % 4294967296 ∧
      ((l.foldl receive st).sendLost.toNat : Int) =
        growth ReceiverReport.cumulativeLost st.lastCumulativeLost lost
          (counted st.lastUpdateTime l) % 4294967296 := by
  induction l generalizing st sent lost with
  | nil => exact ⟨hsent, hlost⟩
  | cons r l ih =>
    rw [List.foldl_cons]
    rcases hd : st.due r.currentTime with - | -
    · rw [counted_of_not_due hd]
      have hr := receive_of_not_due hd
      have hrest := ih (st.receive r) sent lost
      rw [hr] at hrest ⊢
      exact hrest hsent hlost
    · obtain ⟨⟨he, hl⟩, hhigh, hcum, htime⟩ := receive_of_due hd
      rw [counted_of_due hd, growth, growth, ← hhigh, ← hcum, ← htime]
      apply ih
      · rw [he, hhigh]
        exact toNat_sub_eq_emod _ _
      · rw [hl, hcum]
        exact toNat_sub_eq_emod _ _

/-- At a report that counts, the growth is over the counters that are stored. -/
theorem growth_concat (l : List ReceiverReport) (st : SendPacketsStatus) {r : ReceiverReport}
    (sent lost : Int) (hd : (l.foldl receive st).due r.currentTime = true) :
    growth ReceiverReport.highestSeqnumber st.currentHighestSeqnumber sent
        (counted st.lastUpdateTime (l ++ [r])) =
      (r.highestSeqnumber.toNat : Int) - (l.foldl receive st).currentHighestSeqnumber.toNat ∧
    growth ReceiverReport.cumulativeLost st.lastCumulativeLost lost
        (counted st.lastUpdateTime (l ++ [r])) =
      (r.cumulativeLost.toNat : Int) - (l.foldl receive st).lastCumulativeLost.toNat := by
  induction l generalizing st sent lost with
  | nil =>
    have hcounted : counted st.lastUpdateTime [r] = [r] := counted_of_due hd []
    rw [List.nil_append, hcounted]
    exact ⟨rfl, rfl⟩
  | cons a l ih =>
    rw [List.cons_append, List.foldl_cons]
    rw [List.foldl_cons] at hd
    rcases hda : st.due a.currentTime with - | -
    · rw [counted_of_not_due hda]
      have hrest := ih (st.receive a) sent lost hd
      have ha := receive_of_not_due hda
      rw [ha] at hrest ⊢
      exact hrest
    · obtain ⟨-, hhigh, hcum, htime⟩ := receive_of_due hda
      rw [counted_of_due hda, growth, growth, ← hhigh, ← hcum, ← htime]
      exact ih (st.receive a) _ _ hd

/-- A report that does not count. -/
theorem counted_concat {l : List ReceiverReport} (st : SendPacketsStatus) {r : ReceiverReport}
    (hd : (l.foldl receive st).due r.currentTime = false) :
    counted st.lastUpdateTime (l ++ [r]) = counted st.lastUpdateTime l := by
  induction l generalizing st with
  | nil => exact counted_of_not_due hd []
  | cons a l ih =>
    rw [List.cons_append]
    rcases hda : st.due a.currentTime with - | -
    · rw [counted_of_not_due hda, counted_of_not_due hda]
      exact ih (st.receive a) hd
    · obtain ⟨-, -, -, htime⟩ := receive_of_due hda
      rw [counted_of_due hda, counted_of_due hda, ← htime]
      exact congrArg _ (ih (st.receive a) hd)

end SendPacketsStatus

namespace SendStatus

variable {s : SendStatus} {r : ReceiverReport} {st : SendPacketsStatus}

/-- The sum of a field over all SSRCs. -/
def total (s : SendStatus) (f : SendPacketsStatus → UInt32) : Nat :=
  (s.mapSendPacketsStatus.toList.map fun e => (f e.2).toNat).sum

/-- The loop adds up in 32 bits. -/
theorem totals_eq (s : SendStatus) :
    s.totals.1.toNat = s.total SendPacketsStatus.expectSendPackets % 2 ^ 32 ∧
      s.totals.2.1.toNat = s.total SendPacketsStatus.sendLost % 2 ^ 32 := by
  have hloop : ∀ (l : List (UInt32 × SendPacketsStatus)) (t : UInt32 × UInt32 × UInt32),
      (l.foldl (fun t e => (t.1 + e.2.expectSendPackets, t.2.1 + e.2.sendLost,
          t.2.2 + e.2.lastCumulativeLost)) t).1.toNat =
        (t.1.toNat + (l.map fun e => e.2.expectSendPackets.toNat).sum) % 2 ^ 32 ∧
      (l.foldl (fun t e => (t.1 + e.2.expectSendPackets, t.2.1 + e.2.sendLost,
          t.2.2 + e.2.lastCumulativeLost)) t).2.1.toNat =
        (t.2.1.toNat + (l.map fun e => e.2.sendLost.toNat).sum) % 2 ^ 32 := by
    intro l
    induction l with
    | nil =>
      intro t
      have h₁ := t.1.toNat_lt
      have h₂ := t.2.1.toNat_lt
      simp only [List.foldl_nil, List.map_nil, List.sum_nil]
      omega
    | cons e l ih =>
      intro t
      rw [List.foldl_cons, (ih _).1, (ih _).2, UInt32.toNat_add, UInt32.toNat_add, List.map_cons,
        List.map_cons, List.sum_cons, List.sum_cons]
      omega
  have h := hloop s.mapSendPacketsStatus.toList (0, 0, 0)
  rw [show (0 : UInt32).toNat = 0 from rfl, Nat.zero_add, Nat.zero_add] at h
  exact h

/-- The differences that are stored for a report are those of the counters, the totals are
those of what is stored, and the total fraction is one. -/
structure Sound (s : SendStatus) (r : ReceiverReport) (st : SendPacketsStatus) : Prop where
  delta : st.due r.currentTime = true → ∃ st',
    (s.statisticSendFractionLost r).mapSendPacketsStatus[r.ssrc]? = some st' ∧
    (st'.expectSendPackets.toNat : Int) =
      (r.highestSeqnumber.toNat : Int) - st.currentHighestSeqnumber.toNat ∧
    (st'.sendLost.toNat : Int) = (r.cumulativeLost.toNat : Int) - st.lastCumulativeLost.toNat
  sent : (s.statisticSendFractionLost r).totals.1.toNat =
    (s.statisticSendFractionLost r).total SendPacketsStatus.expectSendPackets
  lost : (s.statisticSendFractionLost r).totals.2.1.toNat =
    (s.statisticSendFractionLost r).total SendPacketsStatus.sendLost
  fraction : (s.statisticSendFractionLost r).sendFractionLost.toNat ≤ 100

/-- A report for an SSRC that is registered, and the fraction after it. -/
theorem statistic_of_some (h : s.mapSendPacketsStatus[r.ssrc]? = some st) :
    (s.statisticSendFractionLost r).mapSendPacketsStatus =
        s.mapSendPacketsStatus.insert r.ssrc (st.receive r) ∧
      (s.statisticSendFractionLost r).sendFractionLost =
        (if (s.statisticSendFractionLost r).totals.1 > 0 then
          (s.statisticSendFractionLost r).totals.2.1 * 100 /
            (s.statisticSendFractionLost r).totals.1
        else s.sendFractionLost) := by
  rw [statisticSendFractionLost, h]
  refine ⟨rfl, ?_⟩
  have hnonneg : ∀ x : UInt32, x ≥ 0 := fun x => Nat.zero_le _
  simp only [updateTotalSendFractionLost, hnonneg, and_true]
  rfl

/-- A report changes the status of its SSRC only. -/
theorem statistic_status (s : SendStatus) (r : ReceiverReport) (ssrc : UInt32) :
    (s.statisticSendFractionLost r).mapSendPacketsStatus[ssrc]? =
      if r.ssrc = ssrc then s.mapSendPacketsStatus[ssrc]?.map fun st => st.receive r
      else s.mapSendPacketsStatus[ssrc]? := by
  rcases hst : s.mapSendPacketsStatus[r.ssrc]? with - | st
  · have hsame : s.statisticSendFractionLost r = s := by
      rw [statisticSendFractionLost, hst]
    rw [hsame]
    split
    · rename_i hssrc
      rw [← hssrc, hst]
      rfl
    · rfl
  · rw [(statistic_of_some hst).1, Std.TreeMap.getElem?_insert]
    by_cases hssrc : r.ssrc = ssrc
    · subst hssrc
      rw [if_pos Std.ReflCmp.compare_self, if_pos rfl, hst]
      rfl
    · rw [if_neg (by rwa [Std.compare_eq_iff_eq]), if_neg hssrc]

/-- The status of an SSRC is made by the reports for it, whatever comes in between. -/
theorem foldl_statistic_status (l : List ReceiverReport) (s : SendStatus) (ssrc : UInt32) :
    (l.foldl statisticSendFractionLost s).mapSendPacketsStatus[ssrc]? =
      s.mapSendPacketsStatus[ssrc]?.map fun st =>
        (reportsOf ssrc l).foldl SendPacketsStatus.receive st := by
  induction l using List.reverseRecOn with
  | nil => simp [reportsOf]
  | append_singleton l r ih =>
    rw [List.foldl_append, List.foldl_cons, List.foldl_nil, statistic_status, ih, reportsOf_concat]
    by_cases hssrc : r.ssrc = ssrc
    · rw [if_pos hssrc, if_pos hssrc, Option.map_map]
      simp only [List.foldl_append]
      rfl
    · rw [if_neg hssrc, if_neg hssrc]

/-- All counters are at zero. -/
def AllFresh (m : Std.TreeMap UInt32 SendPacketsStatus) : Prop :=
  ∀ (ssrc : UInt32) (st : SendPacketsStatus), m[ssrc]? = some st → st = {}

theorem AllFresh.insert {m : Std.TreeMap UInt32 SendPacketsStatus} (h : AllFresh m) (k : UInt32) :
    AllFresh (m.insert k {}) := by
  intro ssrc st hst
  rw [Std.TreeMap.getElem?_insert] at hst
  split at hst
  · exact (Option.some.inj hst).symm
  · exact h ssrc st hst

theorem AllFresh.foldl {m : Std.TreeMap UInt32 SendPacketsStatus} (h : AllFresh m)
    (l : List UInt32) : AllFresh (l.foldl (fun m ssrc => m.insert ssrc {}) m) := by
  induction l generalizing m with
  | nil => exact h
  | cons k l ih => exact ih (h.insert k)

/-- The SSRCs are registered with counters at zero. -/
theorem initWithSsrcs_fresh (extendedVideoSsrcs : List UInt32) (v a : UInt32) :
    AllFresh (initWithSsrcs {} extendedVideoSsrcs v a).mapSendPacketsStatus := by
  have hempty : AllFresh ∅ := by
    intro ssrc st hst
    rw [Std.TreeMap.getElem?_emptyc] at hst
    cases hst
  exact ((hempty.foldl extendedVideoSsrcs).insert a).insert v

/-- The SSRCs that are registered. -/
def registered (extendedVideoSsrcs : List UInt32) (defaultVideoSsrc defaultAudioSsrc : UInt32) :
    List UInt32 :=
  (defaultVideoSsrc :: defaultAudioSsrc :: extendedVideoSsrcs).dedup

theorem mem_registered {extendedVideoSsrcs : List UInt32}
    {defaultVideoSsrc defaultAudioSsrc ssrc : UInt32} :
    ssrc ∈ (initWithSsrcs {} extendedVideoSsrcs defaultVideoSsrc
        defaultAudioSsrc).mapSendPacketsStatus ↔
      ssrc ∈ registered extendedVideoSsrcs defaultVideoSsrc defaultAudioSsrc := by
  have hloop : ∀ (l : List UInt32) (m : Std.TreeMap UInt32 SendPacketsStatus),
      ssrc ∈ l.foldl (fun m ssrc => m.insert ssrc {}) m ↔ ssrc ∈ l ∨ ssrc ∈ m := by
    intro l
    induction l with
    | nil => simp
    | cons k l ih =>
      intro m
      rw [List.foldl_cons, ih, Std.TreeMap.mem_insert, Std.compare_eq_iff_eq, List.mem_cons]
      tauto
  rw [initWithSsrcs, registered, List.mem_dedup, List.mem_cons, List.mem_cons]
  dsimp only
  rw [Std.TreeMap.mem_insert, Std.TreeMap.mem_insert, Std.compare_eq_iff_eq,
    Std.compare_eq_iff_eq, hloop]
  have hempty : ¬ ssrc ∈ (∅ : Std.TreeMap UInt32 SendPacketsStatus) := Std.TreeMap.not_mem_emptyc
  tauto

section Run

variable (extendedVideoSsrcs : List UInt32) (defaultVideoSsrc defaultAudioSsrc : UInt32)
  (reports : List ReceiverReport)

/-- The statistics after the reports. -/
def afterReports : SendStatus :=
  reports.foldl statisticSendFractionLost
    (initWithSsrcs {} extendedVideoSsrcs defaultVideoSsrc defaultAudioSsrc)

variable {extendedVideoSsrcs defaultVideoSsrc defaultAudioSsrc reports}

theorem afterReports_concat (r : ReceiverReport) :
    afterReports extendedVideoSsrcs defaultVideoSsrc defaultAudioSsrc (reports ++ [r]) =
      (afterReports extendedVideoSsrcs defaultVideoSsrc defaultAudioSsrc
        reports).statisticSendFractionLost r := by
  rw [afterReports, List.foldl_append]
  rfl

theorem afterReports_status {ssrc : UInt32}
    (h : (afterReports extendedVideoSsrcs defaultVideoSsrc defaultAudioSsrc
      reports).mapSendPacketsStatus[ssrc]? = some st) :
    st = (reportsOf ssrc reports).foldl SendPacketsStatus.receive {} := by
  rw [afterReports, foldl_statistic_status] at h
  obtain ⟨st₀, hst₀, rfl⟩ := Option.map_eq_some_iff.mp h
  rw [initWithSsrcs_fresh _ _ _ ssrc st₀ hst₀]

variable (reports) in
theorem mem_afterReports {ssrc : UInt32} :
    ssrc ∈ (afterReports extendedVideoSsrcs defaultVideoSsrc defaultAudioSsrc
        reports).mapSendPacketsStatus ↔
      ssrc ∈ registered extendedVideoSsrcs defaultVideoSsrc defaultAudioSsrc := by
  rw [← mem_registered, Std.TreeMap.mem_iff_isSome_getElem?, afterReports, foldl_statistic_status,
    Option.isSome_map, ← Std.TreeMap.mem_iff_isSome_getElem?]

theorem total_afterReports (f : SendPacketsStatus → UInt32) :
    (afterReports extendedVideoSsrcs defaultVideoSsrc defaultAudioSsrc reports).total f =
      ((registered extendedVideoSsrcs defaultVideoSsrc defaultAudioSsrc).map fun ssrc =>
        (f ((reportsOf ssrc reports).foldl SendPacketsStatus.receive {})).toNat).sum := by
  have hkeys : (afterReports extendedVideoSsrcs defaultVideoSsrc defaultAudioSsrc
      reports).mapSendPacketsStatus.keys.Perm
      (registered extendedVideoSsrcs defaultVideoSsrc defaultAudioSsrc) := by
    apply (List.perm_ext_iff_of_nodup Std.TreeMap.nodup_keys (List.nodup_dedup _)).mpr
    exact fun ssrc => Std.TreeMap.mem_keys.trans (mem_afterReports reports)
  rw [← (hkeys.map _).sum_eq, ← Std.TreeMap.map_fst_toList_eq_keys, List.map_map, total]
  congr 1
  apply List.map_congr_left
  intro e he
  rw [afterReports_status (Std.TreeMap.mem_toList_iff_getElem?_eq_some.mp he)]
  rfl

/-- What is stored for an SSRC, if its counters grow. -/
theorem stored_eq (reports : List ReceiverReport) (ssrc : UInt32) :
    (0 ≤ sentSince reports ssrc →
      (((reportsOf ssrc reports).foldl SendPacketsStatus.receive {}).expectSendPackets.toNat : Int)
        = sentSince reports ssrc) ∧
    (0 ≤ lostSince reports ssrc →
      (((reportsOf ssrc reports).foldl SendPacketsStatus.receive {}).sendLost.toNat : Int) =
        lostSince reports ssrc) := by
  obtain ⟨hsent, hlost⟩ :=
    SendPacketsStatus.foldl_receive (reportsOf ssrc reports) {} 0 0 rfl rfl
  rw [hsent, hlost]
  exact ⟨fun h => Int.emod_eq_of_lt h (growth_lt _ (by decide)),
    fun h => Int.emod_eq_of_lt h (growth_lt _ (by decide))⟩

/-- The totals, under the condition: they fit, and what is lost is no more than what is sent. -/
theorem totals_le
    (h : Plausible (registered extendedVideoSsrcs defaultVideoSsrc defaultAudioSsrc) reports) :
    (afterReports extendedVideoSsrcs defaultVideoSsrc defaultAudioSsrc reports).total
        SendPacketsStatus.sendLost ≤
      (afterReports extendedVideoSsrcs defaultVideoSsrc defaultAudioSsrc reports).total
        SendPacketsStatus.expectSendPackets ∧
    (afterReports extendedVideoSsrcs defaultVideoSsrc defaultAudioSsrc reports).total
        SendPacketsStatus.expectSendPackets * 100 < 2 ^ 32 := by
  rw [total_afterReports, total_afterReports]
  refine ⟨?_, ?_⟩
  · apply List.sum_le_sum
    intro ssrc hssrc
    have hsent := (stored_eq reports ssrc).1 (h.sent ssrc hssrc)
    have hlost := (stored_eq reports ssrc).2 (h.lost ssrc hssrc)
    have := h.fewer ssrc hssrc
    omega
  · have hsum : (((registered extendedVideoSsrcs defaultVideoSsrc defaultAudioSsrc).map fun ssrc =>
        ((reportsOf ssrc reports).foldl SendPacketsStatus.receive
          {}).expectSendPackets.toNat).sum : Int) =
        ((registered extendedVideoSsrcs defaultVideoSsrc defaultAudioSsrc).map
          (sentSince reports)).sum := by
      rw [Nat.cast_list_sum, List.map_map]
      congr 1
      apply List.map_congr_left
      exact fun ssrc hssrc => (stored_eq reports ssrc).1 (h.sent ssrc hssrc)
    have := h.fits
    omega

/-- At a report that counts, the growth is over the counters that are stored. -/
theorem since_concat
    (hst : (afterReports extendedVideoSsrcs defaultVideoSsrc defaultAudioSsrc
      reports).mapSendPacketsStatus[r.ssrc]? = some st) (hd : st.due r.currentTime = true) :
    sentSince (reports ++ [r]) r.ssrc =
        (r.highestSeqnumber.toNat : Int) - st.currentHighestSeqnumber.toNat ∧
      lostSince (reports ++ [r]) r.ssrc =
        (r.cumulativeLost.toNat : Int) - st.lastCumulativeLost.toNat := by
  obtain rfl := afterReports_status hst
  rw [sentSince, lostSince, reportsOf_concat, if_pos rfl]
  exact SendPacketsStatus.growth_concat (reportsOf r.ssrc reports) {} 0 0 hd

/-- The differences stored for a report are those of the counters if and only if it lowers
none. -/
theorem delta_iff (h : s.mapSendPacketsStatus[r.ssrc]? = some st)
    (hd : st.due r.currentTime = true) :
    (∃ st', (s.statisticSendFractionLost r).mapSendPacketsStatus[r.ssrc]? = some st' ∧
      (st'.expectSendPackets.toNat : Int) =
        (r.highestSeqnumber.toNat : Int) - st.currentHighestSeqnumber.toNat ∧
      (st'.sendLost.toNat : Int) =
        (r.cumulativeLost.toNat : Int) - st.lastCumulativeLost.toNat) ↔
    st.currentHighestSeqnumber.toNat ≤ r.highestSeqnumber.toNat ∧
      st.lastCumulativeLost.toNat ≤ r.cumulativeLost.toNat := by
  obtain ⟨⟨he, hl⟩, -⟩ := SendPacketsStatus.receive_of_due hd
  rw [(statistic_of_some h).1, Std.TreeMap.getElem?_insert_self, ← toNat_sub_eq_iff,
    ← toNat_sub_eq_iff, ← he, ← hl]
  constructor
  · rintro ⟨st', hget, hdelta⟩
    obtain rfl := Option.some.inj hget
    exact hdelta
  · exact fun hdelta => ⟨_, rfl, hdelta⟩

/-- A report that leaves everything right. -/
def SoundStep (s : SendStatus) (r : ReceiverReport) : Prop :=
  (∀ st, s.mapSendPacketsStatus[r.ssrc]? = some st → s.Sound r st) ∧
    (s.statisticSendFractionLost r).sendFractionLost.toNat ≤ 100

/-- The fraction of totals that fit. -/
theorem fraction_le (h : s.mapSendPacketsStatus[r.ssrc]? = some st)
    (hfrac : s.sendFractionLost.toNat ≤ 100) {sent lost : Nat}
    (hsent : (s.statisticSendFractionLost r).totals.1.toNat = sent)
    (hlost : (s.statisticSendFractionLost r).totals.2.1.toNat = lost)
    (hfewer : lost ≤ sent) (hfits : sent * 100 < 2 ^ 32) :
    (s.statisticSendFractionLost r).sendFractionLost.toNat ≤ 100 := by
  rw [(statistic_of_some h).2]
  by_cases hzero : (s.statisticSendFractionLost r).totals.1 > 0
  · have hmod : lost * 100 % 2 ^ 32 = lost * 100 := Nat.mod_eq_of_lt (by omega)
    rw [if_pos hzero, UInt32.toNat_div, UInt32.toNat_mul, hsent, hlost,
      show (100 : UInt32).toNat = 100 from rfl, hmod]
    apply Nat.div_le_of_le_mul
    omega
  · rw [if_neg hzero]
    exact hfrac

/-- One report: everything is right after it, if the reports up to it are plausible. -/
theorem soundStep_after {reports : List ReceiverReport}
    (hfrac : (afterReports extendedVideoSsrcs defaultVideoSsrc defaultAudioSsrc
      reports).sendFractionLost.toNat ≤ 100)
    (h : Plausible (registered extendedVideoSsrcs defaultVideoSsrc defaultAudioSsrc)
      (reports ++ [r])) :
    SoundStep (afterReports extendedVideoSsrcs defaultVideoSsrc defaultAudioSsrc reports) r := by
  rcases hst : (afterReports extendedVideoSsrcs defaultVideoSsrc defaultAudioSsrc
    reports).mapSendPacketsStatus[r.ssrc]? with - | st
  · refine ⟨fun st h => absurd (hst.symm.trans h) (by simp), ?_⟩
    rw [statisticSendFractionLost, hst]
    exact hfrac
  · -- the totals are those of the growth of all counters
    obtain ⟨hfewer, hfits⟩ := totals_le h
    rw [afterReports_concat] at hfewer hfits
    obtain ⟨hsent, hlost⟩ := totals_eq ((afterReports extendedVideoSsrcs defaultVideoSsrc
      defaultAudioSsrc reports).statisticSendFractionLost r)
    rw [Nat.mod_eq_of_lt (by omega)] at hsent hlost
    have hle := fraction_le hst hfrac hsent hlost hfewer hfits
    refine ⟨?_, hle⟩
    intro st' hst'
    obtain rfl := Option.some.inj (hst.symm.trans hst')
    refine ⟨?_, hsent, hlost, hle⟩
    intro hd
    obtain ⟨hs, hl⟩ := since_concat hst hd
    have hmem : r.ssrc ∈ registered extendedVideoSsrcs defaultVideoSsrc defaultAudioSsrc := by
      rw [← mem_afterReports reports, Std.TreeMap.mem_iff_isSome_getElem?, hst]
      rfl
    have hs0 := h.sent r.ssrc hmem
    have hl0 := h.lost r.ssrc hmem
    exact (delta_iff hst hd).mpr ⟨by omega, by omega⟩

theorem fraction_le_hundred (reports : List ReceiverReport)
    (h : ∀ pre, pre <+: reports →
      Plausible (registered extendedVideoSsrcs defaultVideoSsrc defaultAudioSsrc) pre) :
    (afterReports extendedVideoSsrcs defaultVideoSsrc defaultAudioSsrc
      reports).sendFractionLost.toNat ≤ 100 := by
  induction reports using List.reverseRecOn with
  | nil => exact Nat.zero_le _
  | append_singleton l r ih =>
    have hl := ih fun pre hpre => h pre (hpre.trans (List.prefix_append l [r]))
    rw [afterReports_concat]
    exact (soundStep_after hl (h _ (List.prefix_refl _))).2

/-- A report that leaves everything right lowers no counter. -/
theorem since_nonneg {reports : List ReceiverReport}
    (h : SoundStep (afterReports extendedVideoSsrcs defaultVideoSsrc defaultAudioSsrc reports) r)
    {ssrc : UInt32}
    (hssrc : ssrc ∈ registered extendedVideoSsrcs defaultVideoSsrc defaultAudioSsrc)
    (hold : 0 ≤ sentSince reports ssrc ∧ 0 ≤ lostSince reports ssrc) :
    0 ≤ sentSince (reports ++ [r]) ssrc ∧ 0 ≤ lostSince (reports ++ [r]) ssrc := by
  by_cases hr : r.ssrc = ssrc
  · subst hr
    rw [← mem_afterReports reports, Std.TreeMap.mem_iff_isSome_getElem?] at hssrc
    obtain ⟨st, hst⟩ := Option.isSome_iff_exists.mp hssrc
    rcases hd : st.due r.currentTime with - | -
    · obtain rfl := afterReports_status hst
      rw [sentSince, lostSince, reportsOf_concat, if_pos rfl,
        SendPacketsStatus.counted_concat {} hd]
      exact hold
    · have hle := (delta_iff hst hd).mp ((h.1 st hst).delta hd)
      obtain ⟨hs, hl⟩ := since_concat hst hd
      omega
  · rw [sentSince, lostSince, reportsOf_concat, if_neg hr]
    exact hold

end Run

/-- **The total fraction lost.**  In every run of receiver reports nothing wraps and the total
fraction is at most 100 after each report, if the reports of no SSRC lower a counter or lose more
packets than are sent, and what is sent in all, a hundredfold, fits into 32 bits.  In a run in
which nothing wraps no counter is lowered. -/
theorem send_fraction (extendedVideoSsrcs : List UInt32)
    (defaultVideoSsrc defaultAudioSsrc : UInt32) (reports : List ReceiverReport) :
    ((∀ pre, pre <+: reports →
        Plausible (registered extendedVideoSsrcs defaultVideoSsrc defaultAudioSsrc) pre) →
      Throughout statisticSendFractionLost SoundStep
        (initWithSsrcs {} extendedVideoSsrcs defaultVideoSsrc defaultAudioSsrc) reports) ∧
    (Throughout statisticSendFractionLost SoundStep
        (initWithSsrcs {} extendedVideoSsrcs defaultVideoSsrc defaultAudioSsrc) reports →
      ∀ pre, pre <+: reports →
        ∀ ssrc ∈ registered extendedVideoSsrcs defaultVideoSsrc defaultAudioSsrc,
          0 ≤ sentSince pre ssrc ∧ 0 ≤ lostSince pre ssrc) := by
  rw [throughout_iff]
  refine ⟨?_, ?_⟩
  · rintro h pre r post rfl
    apply soundStep_after
    · exact fraction_le_hundred pre fun p hp => h p (hp.trans (List.prefix_append _ _))
    · exact h _ ⟨post, by simp⟩
  · rintro h pre ⟨post, rfl⟩ ssrc hssrc
    induction pre using List.reverseRecOn generalizing post with
    | nil => exact ⟨Int.le_refl _, Int.le_refl _⟩
    | append_singleton l r ih =>
      rw [List.append_assoc] at h
      exact since_nonneg (h l r post rfl) hssrc (ih (r :: post) h)

/-- Two SSRCs, one of them with losses. -/
theorem send_fraction_losses :
    (∀ pre, pre <+: [⟨7, 0, 0, 1⟩, ⟨8, 3, 0, 1⟩, ⟨7, 100, 5, 4000⟩, ⟨7, 200, 9, 8000⟩] →
      Plausible (registered [] 7 8) pre) ∧
    Throughout statisticSendFractionLost SoundStep (initWithSsrcs {} [] 7 8)
      [⟨7, 0, 0, 1⟩, ⟨8, 3, 0, 1⟩, ⟨7, 100, 5, 4000⟩, ⟨7, 200, 9, 8000⟩] := by
  have hpre : ∀ pre, pre <+: [⟨7, 0, 0, 1⟩, ⟨8, 3, 0, 1⟩, ⟨7, 100, 5, 4000⟩,
      ⟨7, 200, 9, 8000⟩] → Plausible (registered [] 7 8) pre := by
    intro pre hpre
    rw [← List.mem_inits] at hpre
    revert pre
    decide
  exact ⟨hpre, (send_fraction [] 7 8 _).1 hpre⟩

/-- The cumulative loss of the peer goes from 5 back to 4: the total fraction lost is 42949671
percent. -/
theorem send_fraction_wraps :
    ([⟨7, 0, 0, 1⟩, ⟨7, 100, 5, 4000⟩, ⟨7, 200, 4, 8000⟩].foldl statisticSendFractionLost
      (initWithSsrcs {} [] 7 8)).sendFractionLost = 42949671 ∧
    ¬ Throughout statisticSendFractionLost SoundStep (initWithSsrcs {} [] 7 8)
      [⟨7, 0, 0, 1⟩, ⟨7, 100, 5, 4000⟩, ⟨7, 200, 4, 8000⟩] := by
  have hfraction : ([⟨7, 0, 0, 1⟩, ⟨7, 100, 5, 4000⟩, ⟨7, 200, 4, 8000⟩].foldl
      statisticSendFractionLost (initWithSsrcs {} [] 7 8)).sendFractionLost = 42949671 := by
    decide
  refine ⟨hfraction, ?_⟩
  intro h
  have hlast := h.2.2.1.2
  exact absurd hlast (by decide)

/-! ### The counters of what is sent -/

/-- The packets that were sent on an SSRC. -/
def sentOn (ssrc : UInt32) (l : List SentPacket) : List SentPacket :=
  l.filter fun p => p.ssrc = ssrc

theorem sentOn_cons (ssrc : UInt32) (p : SentPacket) (l : List SentPacket) :
    sentOn ssrc (p :: l) = if p.ssrc = ssrc then p :: sentOn ssrc l else sentOn ssrc l := by
  rw [sentOn, List.filter_cons]
  simp only [decide_eq_true_eq]
  rfl

/-- What a packet adds to the status of its SSRC. -/
def addPacket (st : SendPacketsStatus) (p : SentPacket) : SendPacketsStatus :=
  ((st.setSendPackets 1).setSendBytes p.len).setLastTs p.timestamp

/-- Audio and video packets change the table in the same way. -/
theorem sendingPacket_mapSendPacketsStatus (s : SendStatus) (p : SentPacket) :
    (s.sendingPacket p).mapSendPacketsStatus =
      match s.mapSendPacketsStatus[p.ssrc]? with
      | none => s.mapSendPacketsStatus
      | some st => s.mapSendPacketsStatus.insert p.ssrc (addPacket st p) := by
  rw [sendingPacket]
  rcases p.isVideo with - | -
  · rcases hst : s.mapSendPacketsStatus[p.ssrc]? with - | st
    · simp [hst]
    · simp [hst, addPacket]
  · rcases hst : s.mapSendPacketsStatus[p.ssrc]? with - | st
    · simp [hst]
    · simp [hst, addPacket]

theorem sendingPacket_status (s : SendStatus) (p : SentPacket) (ssrc : UInt32) :
    (s.sendingPacket p).mapSendPacketsStatus[ssrc]? =
      if p.ssrc = ssrc then s.mapSendPacketsStatus[ssrc]?.map fun st => addPacket st p
      else s.mapSendPacketsStatus[ssrc]? := by
  rw [sendingPacket_mapSendPacketsStatus]
  by_cases hssrc : p.ssrc = ssrc
  · subst hssrc
    rw [if_pos rfl]
    rcases hst : s.mapSendPacketsStatus[p.ssrc]? with - | st
    · exact hst
    · exact Std.TreeMap.getElem?_insert_self
  · rw [if_neg hssrc]
    rcases s.mapSendPacketsStatus[p.ssrc]? with - | st
    · rfl
    · dsimp only
      rw [Std.TreeMap.getElem?_insert, if_neg]
      rw [Std.compare_eq_iff_eq]
      exact hssrc

/-- The status of an SSRC is made by the packets sent on it, whatever is sent in between. -/
theorem foldl_sendingPacket_status (l : List SentPacket) (s : SendStatus) (ssrc : UInt32) :
    (l.foldl sendingPacket s).mapSendPacketsStatus[ssrc]? =
      s.mapSendPacketsStatus[ssrc]?.map fun st => (sentOn ssrc l).foldl addPacket st := by
  induction l generalizing s with
  | nil => simp [sentOn]
  | cons p l ih =>
    rw [List.foldl_cons, ih, sendingPacket_status, sentOn_cons]
    by_cases hssrc : p.ssrc = ssrc
    · rw [if_pos hssrc, if_pos hssrc, Option.map_map]
      rfl
    · rw [if_neg hssrc, if_neg hssrc]

/-- The counters of the packets sent depend on nothing but those that there were. -/
theorem sendingPacket_congr {s s' : SendStatus} (p : SentPacket)
    (h : s.mapSendPacketsStatus = s'.mapSendPacketsStatus) :
    (s.sendingPacket p).mapSendPacketsStatus = (s'.sendingPacket p).mapSendPacketsStatus := by
  rw [sendingPacket_mapSendPacketsStatus, sendingPacket_mapSendPacketsStatus, h]

/-- What is told of the NACKs goes into no counter of the packets sent. -/
@[simp] theorem increaseNackCount_mapSendPacketsStatus (s : SendStatus) (isSend : Bool) :
    (s.increaseNackCount isSend).mapSendPacketsStatus = s.mapSendPacketsStatus := by
  cases isSend with
  | false => rfl
  | true => rfl

/-- All three counters are sums. -/
theorem foldl_addPacket (l : List SentPacket) (st : SendPacketsStatus) :
    (l.foldl addPacket st).sendPackets = st.sendPackets + Int32.ofNat l.length ∧
    (l.foldl addPacket st).sendBytes =
      st.sendBytes + Int32.ofInt (l.map fun p => p.len.toInt).sum ∧
    (l.foldl addPacket st).lastTs =
      st.lastTs + UInt32.ofNat (l.map fun p => p.timestamp.toNat).sum := by
  induction l generalizing st with
  | nil => exact ⟨(Int32.add_zero _).symm, (Int32.add_zero _).symm, (UInt32.add_zero _).symm⟩
  | cons p l ih =>
    obtain ⟨hpackets, hbytes, hts⟩ := ih (addPacket st p)
    rw [List.foldl_cons, hpackets, hbytes, hts]
    refine ⟨?_, ?_, ?_⟩
    · show st.sendPackets + 1 + Int32.ofNat l.length = st.sendPackets + Int32.ofNat (l.length + 1)
      rw [Nat.add_comm, Int32.ofNat_add, Int32.add_assoc]
      rfl
    · show st.sendBytes + p.len + Int32.ofInt _ = _
      rw [List.map_cons, List.sum_cons, Int32.ofInt_add, Int32.ofInt_toInt, Int32.add_assoc]
    · show st.lastTs + p.timestamp + UInt32.ofNat _ = _
      rw [List.map_cons, List.sum_cons, UInt32.ofNat_add, UInt32.ofNat_toNat, UInt32.add_assoc]

end SendStatus

/-- A sender report shows nothing but the counters of the packets sent. -/
theorem RtcpSender.report_congr {s s' : SendStatus} (ssrc : UInt32)
    (h : s.mapSendPacketsStatus = s'.mapSendPacketsStatus) : report s ssrc = report s' ssrc := by
  rw [report, report, SendStatus.getSendPackets, SendStatus.getSendPackets, SendStatus.getSendBytes,
    SendStatus.getSendBytes, SendStatus.getLastTs, SendStatus.getLastTs, h]

/-- A sender report has what the statistics show for its SSRC. -/
theorem RtcpSender.mem_report {s : SendStatus} {ssrc : UInt32} {rep : SenderReport}
    (h : rep ∈ report s ssrc) :
    rep.rtpTs = s.getLastTs rep.localSsrc ∧
      rep.sPackets = (s.getSendPackets rep.localSsrc).toUInt32 ∧
      rep.sOctets = (s.getSendBytes rep.localSsrc).toUInt32 := by
  rw [report] at h
  split at h
  · obtain rfl := List.mem_singleton.mp h
    exact ⟨rfl, rfl, rfl⟩
  · cases h

theorem RtcpSender.mem_sendSrPacketInternal {sender : RtcpSender} {s : SendStatus}
    {type : ReportPacketType} {now : UInt64} {rep : SenderReport}
    (h : rep ∈ (sender.sendSrPacketInternal s type now).2) : ∃ ssrc, rep ∈ report s ssrc := by
  rcases type with - | -
  · rw [sendSrPacketInternal] at h
    split at h
    · exact ⟨_, h⟩
    · cases h
  · rw [sendSrPacketInternal] at h
    split at h
    · cases h
    · dsimp only at h
      split at h
      · obtain ⟨ssrc, -, hrep⟩ := List.mem_flatMap.mp h
        exact ⟨ssrc, hrep⟩
      · exact ⟨_, h⟩

namespace SendStatus

/-- What a sender report should tell of an SSRC. -/
structure Tells (s : SendStatus) (l : List SentPacket) (ssrc : UInt32) : Prop where
  packets : s.getSendPackets ssrc = Int32.ofNat (sentOn ssrc l).length
  bytes : s.getSendBytes ssrc = Int32.ofInt ((sentOn ssrc l).map fun p => p.len.toInt).sum
  lastTs : ∀ pre last, sentOn ssrc l = pre ++ [last] → s.getLastTs ssrc = last.timestamp

/-- The time stamps of all packets on the SSRC but the last add up to a multiple of 2^32. -/
def EarlierCancel (l : List SentPacket) (ssrc : UInt32) : Prop :=
  ∀ pre last, sentOn ssrc l = pre ++ [last] →
    (pre.map fun p => p.timestamp.toNat).sum % 2 ^ 32 = 0

/-- The counters after a run of packets, for an SSRC that is registered. -/
theorem run_counters (extendedVideoSsrcs : List UInt32)
    (defaultVideoSsrc defaultAudioSsrc : UInt32) (l : List SentPacket) {s : SendStatus}
    (hs : s.mapSendPacketsStatus = (l.foldl sendingPacket
      (initWithSsrcs {} extendedVideoSsrcs defaultVideoSsrc defaultAudioSsrc)).mapSendPacketsStatus)
    {ssrc : UInt32} (hssrc : ssrc ∈ s.mapSendPacketsStatus) :
    s.getSendPackets ssrc = Int32.ofNat (sentOn ssrc l).length ∧
      s.getSendBytes ssrc = Int32.ofInt ((sentOn ssrc l).map fun p => p.len.toInt).sum ∧
      s.getLastTs ssrc = UInt32.ofNat ((sentOn ssrc l).map fun p => p.timestamp.toNat).sum := by
  have hstatus := foldl_sendingPacket_status l
    (initWithSsrcs {} extendedVideoSsrcs defaultVideoSsrc defaultAudioSsrc) ssrc
  rw [← hs] at hstatus
  obtain ⟨st, hst⟩ := Option.isSome_iff_exists.mp (Std.TreeMap.mem_iff_isSome_getElem?.mp hssrc)
  rw [hst] at hstatus
  obtain ⟨st₀, hst₀, rfl⟩ := Option.map_eq_some_iff.mp hstatus.symm
  -- registering only inserts counters at zero
  obtain rfl := initWithSsrcs_fresh _ _ _ ssrc st₀ hst₀
  obtain ⟨hpackets, hbytes, hts⟩ := foldl_addPacket (sentOn ssrc l) {}
  refine ⟨?_, ?_, ?_⟩
  · rw [getSendPackets, hst]
    exact hpackets.trans (Int32.zero_add _)
  · rw [getSendBytes, hst]
    exact hbytes.trans (Int32.zero_add _)
  · rw [getLastTs, hst]
    exact hts.trans (UInt32.zero_add _)

/-- After every run of packets over any SSRCs, for each that is registered: packets and bytes
are the ones sent on it, and the time stamp is the one of the last packet if and only if those
of the packets before it add up to a multiple of 2^32.  These values are the ones that are put
into the sender reports. -/
theorem sender_report_iff (extendedVideoSsrcs : List UInt32)
    (defaultVideoSsrc defaultAudioSsrc : UInt32) (l : List SentPacket) :
    ∃ s, s = l.foldl sendingPacket
        (initWithSsrcs {} extendedVideoSsrcs defaultVideoSsrc defaultAudioSsrc) ∧
      (∀ ssrc ∈ s.mapSendPacketsStatus,
        s.getSendPackets ssrc = Int32.ofNat (sentOn ssrc l).length ∧
        s.getSendBytes ssrc = Int32.ofInt ((sentOn ssrc l).map fun p => p.len.toInt).sum ∧
        (s.Tells l ssrc ↔ EarlierCancel l ssrc)) ∧
      ∀ sender type now, ∀ rep ∈ (RtcpSender.sendSrPacketInternal sender s type now).2,
        rep.rtpTs = s.getLastTs rep.localSsrc ∧
        rep.sPackets = (s.getSendPackets rep.localSsrc).toUInt32 ∧
        rep.sOctets = (s.getSendBytes rep.localSsrc).toUInt32 := by
  refine ⟨_, rfl, ?_, ?_⟩
  · intro ssrc hssrc
    obtain ⟨hp, hb, ht⟩ := run_counters _ _ _ l rfl hssrc
    generalize l.foldl sendingPacket
      (initWithSsrcs {} extendedVideoSsrcs defaultVideoSsrc defaultAudioSsrc) = s at *
    have hlast : ∀ pre last, sentOn ssrc l = pre ++ [last] →
        (s.getLastTs ssrc = last.timestamp ↔
          (pre.map fun p => p.timestamp.toNat).sum % 2 ^ 32 = 0) := by
      intro pre last heq
      rw [ht, heq, List.map_append, List.sum_append, List.map_singleton, List.sum_singleton,
        ← UInt32.toNat_inj, UInt32.toNat_ofNat']
      have := last.timestamp.toNat_lt
      omega
    refine ⟨hp, hb, ?_, ?_⟩
    · exact fun h pre last heq => (hlast pre last heq).mp (h.lastTs pre last heq)
    · exact fun h => ⟨hp, hb, fun pre last heq => (hlast pre last heq).mpr (h pre last heq)⟩
  · intro sender type now rep hrep
    obtain ⟨ssrc, hmem⟩ := RtcpSender.mem_sendSrPacketInternal hrep
    exact RtcpSender.mem_report hmem

/-- Two packets with time stamps 100 and 200: the last time stamp is 300. -/
theorem last_ts_accumulates :
    (([⟨true, 7, 10, 100⟩, ⟨true, 7, 20, 200⟩].foldl sendingPacket
      (initWithSsrcs {} [] 7 8)).getLastTs 7 = 300) ∧
    ¬ Tells ([⟨true, 7, 10, 100⟩, ⟨true, 7, 20, 200⟩].foldl sendingPacket
      (initWithSsrcs {} [] 7 8)) [⟨true, 7, 10, 100⟩, ⟨true, 7, 20, 200⟩] 7 := by
  have hts : ([⟨true, 7, 10, 100⟩, ⟨true, 7, 20, 200⟩].foldl sendingPacket
      (initWithSsrcs {} [] 7 8)).getLastTs 7 = 300 := by decide
  refine ⟨hts, ?_⟩
  intro h
  have hlast := h.lastTs [⟨true, 7, 10, 100⟩] ⟨true, 7, 20, 200⟩ (by decide)
  rw [hts] at hlast
  exact absurd hlast (by decide)

end SendStatus

end Orbit
