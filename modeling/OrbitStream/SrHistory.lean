/-
OrbitStream/SrHistory.lean

The history of sender reports (`InitSrSendHistories`, `UpdateLastSendReportAndRtcpTime` and
`GetSendTimeOfSendReport` of `rtp/rtcp_sender.{h,cc}`).

The sender keeps two arrays for each SSRC, of the compact NTP times of the reports it has
sent and of the times when it sent them.  A new report goes in front of both; the search
for a report stops at half their length.  It finds the latest of the reports it looks at
(`getSendTimeOfSendReport_run`).
-/
import OrbitStream.Lib.History
import OrbitStream.NetworkStatusSend

namespace Orbit

open Lib

/-- `RTCP_NUMBER_OF_SR`. -/
abbrev rtcpNumberOfSr : ℕ := 60

/-- `SrSendHistory`. -/
structure SrSendHistory where
  lastSendReport : Vector UInt32 (2 * rtcpNumberOfSr) := Vector.replicate _ 0
  lastRtcpTime : Vector Int (2 * rtcpNumberOfSr) := Vector.replicate _ 0

/-- A report that is sent: its NTP time and the SSRC it is for. -/
structure SrSent where
  ntpSec : UInt32
  ntpFrac : UInt32
  localSsrc : UInt32

/-- The compact NTP time of a report. -/
def SrSent.sendReport (sent : SrSent) : UInt32 := (sent.ntpSec <<< 16) + (sent.ntpFrac >>> 16)

namespace SrSendHistory

/-- The loop that shifts the old elements of the arrays, for the places from `i` down. -/
def shiftOld (h : SrSendHistory) : (i : ℕ) → i < 2 * rtcpNumberOfSr → SrSendHistory
  | 0, _ => h
  | i + 1, hi =>
      shiftOld
        { lastSendReport := h.lastSendReport.set (i + 1) h.lastSendReport[i]
          lastRtcpTime := h.lastRtcpTime.set (i + 1) h.lastRtcpTime[i] }
        i (Nat.lt_of_succ_lt hi)

/-- The old elements are shifted, and the new ones put in front. -/
def addNew (h : SrSendHistory) (sendReport : UInt32) (time : Int) : SrSendHistory :=
  let shifted := h.shiftOld (2 * rtcpNumberOfSr - 1) (by decide)
  { lastSendReport := shifted.lastSendReport.set 0 sendReport
    lastRtcpTime := shifted.lastRtcpTime.set 0 time }

/-- The loop that searches for a report. -/
def search (h : SrSendHistory) (sendReport : UInt32) : Option Int :=
  (List.finRange rtcpNumberOfSr).findSome? fun i =>
    if h.lastSendReport[i.val] = sendReport then some h.lastRtcpTime[i.val] else none

end SrSendHistory

/-- `sr_send_histories_`. -/
abbrev SrSendHistories := Std.TreeMap UInt32 SrSendHistory

/-- `InitSrSendHistories`. -/
def RtcpSender.initSrSendHistories (sender : RtcpSender) (histories : SrSendHistories) :
    SrSendHistories :=
  ((sender.extendedVideoSsrcs.foldl (fun m localSsrc => m.insert localSsrc {}) histories).insert
    sender.videoSsrc {}).insert sender.audioSsrc {}

/-- The SSRCs that have a history. -/
def RtcpSender.Registered (sender : RtcpSender) (ssrc : UInt32) : Prop :=
  ssrc ∈ sender.extendedVideoSsrcs ∨ ssrc = sender.videoSsrc ∨ ssrc = sender.audioSsrc

namespace SrSendHistories

/-- `UpdateLastSendReportAndRtcpTime`; `ntpToMs` is `Clock::NtpToMs`, which rounds in
floating point. -/
def updateLastSendReportAndRtcpTime (ntpToMs : UInt32 → UInt32 → Int)
    (histories : SrSendHistories) (sent : SrSent) : SrSendHistories :=
  match histories[sent.localSsrc]? with
  | none => histories
  | some h =>
      histories.insert sent.localSsrc
        (h.addNew sent.sendReport (ntpToMs sent.ntpSec sent.ntpFrac))

/-- `GetSendTimeOfSendReport`. -/
def getSendTimeOfSendReport (histories : SrSendHistories) (sendReport ssrc : UInt32) : Int :=
  match histories[ssrc]? with
  | none => 0
  | some h =>
      if h.lastSendReport[0] = 0 ∨ sendReport = 0 then 0
      else (h.search sendReport).getD 0

end SrSendHistories

/-! ### The two arrays as one history -/

namespace SrSendHistory

variable {h : SrSendHistory} {sendReport : UInt32} {time : Int}

/-- The two arrays, place by place. -/
def entries (h : SrSendHistory) : List (UInt32 × Int) :=
  h.lastSendReport.toList.zip h.lastRtcpTime.toList

/-- Both arrays are moved in the same way. -/
theorem shiftOld_eq (h : SrSendHistory) {i : ℕ} (hi : i < 2 * rtcpNumberOfSr) :
    h.shiftOld i hi = ⟨moveBack h.lastSendReport i hi, moveBack h.lastRtcpTime i hi⟩ := by
  induction i generalizing h with
  | zero => rfl
  | succ i ih => rw [shiftOld, ih, moveBack, moveBack]

theorem entries_addNew (h : SrSendHistory) (sendReport : UInt32) (time : Int) :
    (h.addNew sendReport time).entries =
      ((sendReport, time) :: h.entries).take (2 * rtcpNumberOfSr) := by
  have hreports : (h.addNew sendReport time).lastSendReport.toList =
      (sendReport :: h.lastSendReport.toList).take (2 * rtcpNumberOfSr) := by
    rw [addNew, shiftOld_eq]
    exact toList_record (n := 119) h.lastSendReport sendReport
  have htimes : (h.addNew sendReport time).lastRtcpTime.toList =
      (time :: h.lastRtcpTime.toList).take (2 * rtcpNumberOfSr) := by
    rw [addNew, shiftOld_eq]
    exact toList_record (n := 119) h.lastRtcpTime time
  rw [entries, hreports, htimes, List.zip, ← List.take_zipWith]
  rfl

/-- The search looks at the first half of the history. -/
theorem search_eq (h : SrSendHistory) (sendReport : UInt32) :
    h.search sendReport = (h.entries.take rtcpNumberOfSr).findSome? fun entry =>
      if entry.1 = sendReport then some entry.2 else none := by
  have hmap : h.entries.take rtcpNumberOfSr = (List.finRange rtcpNumberOfSr).map fun i =>
      (h.lastSendReport[i.val], h.lastRtcpTime[i.val]) := by
    apply List.ext_getElem
    · simp only [entries, List.length_take, List.length_zip, Vector.length_toList,
        List.length_map, List.length_finRange]
      rfl
    · intro i _ _
      simp [entries]
  rw [hmap, List.findSome?_map]
  rfl

end SrSendHistory

/-! ### Runs -/

section Runs

variable {ntpToMs : UInt32 → UInt32 → Int} {ssrc : UInt32}

/-- What a history notes of a report. -/
def SrSent.entry (ntpToMs : UInt32 → UInt32 → Int) (sent : SrSent) : UInt32 × Int :=
  (sent.sendReport, ntpToMs sent.ntpSec sent.ntpFrac)

/-- The reports for an SSRC, the latest one first. -/
def latestFirst (ssrc : UInt32) (sents : List SrSent) : List SrSent :=
  (sents.filter fun sent => sent.localSsrc = ssrc).reverse

/-- The history of one SSRC with a report added. -/
def SrSendHistory.add (ntpToMs : UInt32 → UInt32 → Int) (h : SrSendHistory) (sent : SrSent) :
    SrSendHistory :=
  h.addNew sent.sendReport (ntpToMs sent.ntpSec sent.ntpFrac)

theorem SrSendHistory.length_entries (h : SrSendHistory) :
    h.entries.length = 2 * rtcpNumberOfSr := by
  simp [entries]

theorem SrSendHistory.entries_empty :
    entries {} = List.replicate (2 * rtcpNumberOfSr) (0, 0) := by
  simp [entries]

theorem SrSendHistory.entries_foldl (ntpToMs : UInt32 → UInt32 → Int) (h : SrSendHistory)
    (sents : List SrSent) :
    (sents.foldl (add ntpToMs) h).entries =
      ((sents.map (SrSent.entry ntpToMs)).reverse ++ h.entries).take (2 * rtcpNumberOfSr) := by
  rw [← foldl_take (Nat.le_of_eq h.length_entries)]
  induction sents generalizing h with
  | nil => rfl
  | cons sent sents ih =>
      rw [List.foldl_cons, ih, add, entries_addNew]
      rfl

theorem SrSendHistory.head?_entries (h : SrSendHistory) :
    h.entries.head? = some (h.lastSendReport[0], h.lastRtcpTime[0]) := by
  rw [List.head?_eq_getElem?]
  simp [entries]

/-- A search that a history answers from the reports it was made of. -/
theorem SrSendHistory.search_of_entries {h : SrSendHistory} {latest : List SrSent} {lsr : UInt32}
    (hentries : h.entries = (latest.map (SrSent.entry ntpToMs) ++
      List.replicate (2 * rtcpNumberOfSr) (0, 0)).take (2 * rtcpNumberOfSr)) (hlsr : lsr ≠ 0) :
    h.search lsr = ((latest.take rtcpNumberOfSr).find? fun sent => sent.sendReport = lsr).map
      fun sent => ntpToMs sent.ntpSec sent.ntpFrac := by
  have hfind : ∀ l : List SrSent,
      (l.map (SrSent.entry ntpToMs)).findSome?
          (fun entry => if entry.1 = lsr then some entry.2 else none) =
        (l.find? fun sent => sent.sendReport = lsr).map
          fun sent => ntpToMs sent.ntpSec sent.ntpFrac := by
    intro l
    induction l with
    | nil => rfl
    | cons sent l ih =>
        rw [List.map_cons, List.findSome?_cons, List.find?_cons, ih, SrSent.entry]
        by_cases heq : sent.sendReport = lsr
        · simp [heq]
        · simp [heq]
  -- what was in the arrays before the first report is not found
  have hrest : ∀ k : ℕ, ((List.replicate (2 * rtcpNumberOfSr) ((0, 0) : UInt32 × Int)).take
      k).findSome? (fun entry => if entry.1 = lsr then some entry.2 else none) = none := by
    intro k
    rw [List.findSome?_eq_none_iff]
    intro entry hentry
    rw [List.eq_of_mem_replicate (List.mem_of_mem_take hentry)]
    exact if_neg fun h => hlsr h.symm
  rw [search_eq, hentries, List.take_take, List.take_append, List.findSome?_append, hrest,
    Option.or_none, ← List.map_take, hfind]
  rfl

namespace SrSendHistories

/-- A report for one SSRC leaves the histories of the others alone. -/
theorem getElem?_update (histories : SrSendHistories) (sent : SrSent) (ssrc : UInt32) :
    (histories.updateLastSendReportAndRtcpTime ntpToMs sent)[ssrc]? =
      if sent.localSsrc = ssrc then histories[ssrc]?.map fun h => h.add ntpToMs sent
      else histories[ssrc]? := by
  rw [updateLastSendReportAndRtcpTime]
  by_cases hssrc : sent.localSsrc = ssrc
  · subst hssrc
    rw [if_pos rfl]
    split
    · rename_i hget
      rw [hget]
      rfl
    · rename_i h hget
      rw [hget, Std.TreeMap.getElem?_insert_self]
      rfl
  · rw [if_neg hssrc]
    split
    · rfl
    · rw [Std.TreeMap.getElem?_insert, if_neg (by simp [hssrc])]

/-- The history of an SSRC is made by the reports for it, whatever is sent in between. -/
theorem getElem?_run (ntpToMs : UInt32 → UInt32 → Int) (ssrc : UInt32) (sents : List SrSent)
    (histories : SrSendHistories) :
    (sents.foldl (updateLastSendReportAndRtcpTime ntpToMs) histories)[ssrc]? =
      histories[ssrc]?.map fun h =>
        (sents.filter fun sent => sent.localSsrc = ssrc).foldl (SrSendHistory.add ntpToMs) h := by
  induction sents generalizing histories with
  | nil => simp
  | cons sent sents ih =>
      rw [List.foldl_cons, ih, getElem?_update, List.filter_cons]
      by_cases hssrc : sent.localSsrc = ssrc
      · rw [if_pos hssrc, if_pos (decide_eq_true hssrc), Option.map_map]
        rfl
      · rw [if_neg hssrc, if_neg (by simpa using hssrc)]

/-- Registering an SSRC clears its history. -/
theorem getElem?_initSrSendHistories (sender : RtcpSender) (histories : SrSendHistories)
    (hssrc : sender.Registered ssrc) :
    (sender.initSrSendHistories histories)[ssrc]? = some {} := by
  have hextended : ∀ (ssrcs : List UInt32) (histories : SrSendHistories),
      ssrc ∈ ssrcs ∨ histories[ssrc]? = some {} →
      (ssrcs.foldl (fun m localSsrc => m.insert localSsrc {}) histories)[ssrc]? = some {} := by
    intro ssrcs
    induction ssrcs with
    | nil => exact fun histories h => h.resolve_left List.not_mem_nil
    | cons localSsrc ssrcs ih =>
        intro histories h
        refine ih _ ?_
        rcases h with h | h
        · rcases List.mem_cons.mp h with rfl | h
          · exact .inr Std.TreeMap.getElem?_insert_self
          · exact .inl h
        · refine .inr ?_
          rw [Std.TreeMap.getElem?_insert, h]
          exact ite_self _
  rw [RtcpSender.initSrSendHistories, Std.TreeMap.getElem?_insert, Std.TreeMap.getElem?_insert]
  by_cases haudio : ssrc = sender.audioSsrc
  · rw [if_pos (by simp [haudio])]
  · rw [if_neg (by simpa using fun h => haudio h.symm)]
    by_cases hvideo : ssrc = sender.videoSsrc
    · rw [if_pos (by simp [hvideo])]
    · rw [if_neg (by simpa using fun h => hvideo h.symm)]
      refine hextended _ _ (.inl ?_)
      exact hssrc.resolve_right (not_or.mpr ⟨hvideo, haudio⟩)

/-- After every run of reports, the time that is found for a compact NTP time is that of the
latest report with it, among the last ones for the SSRC. -/
theorem getSendTimeOfSendReport_run (ntpToMs : UInt32 → UInt32 → Int) (sender : RtcpSender)
    (histories : SrSendHistories) (sents : List SrSent) {lsr ssrc : UInt32} (hlsr : lsr ≠ 0)
    (hssrc : sender.Registered ssrc)
    (hsents : ∀ sent ∈ sents, sent.localSsrc = ssrc → sent.sendReport ≠ 0) :
    (sents.foldl (updateLastSendReportAndRtcpTime ntpToMs)
        (sender.initSrSendHistories histories)).getSendTimeOfSendReport lsr ssrc =
      (((latestFirst ssrc sents).take rtcpNumberOfSr).find? fun sent =>
        sent.sendReport = lsr).elim 0 fun sent => ntpToMs sent.ntpSec sent.ntpFrac := by
  have hget := getElem?_run ntpToMs ssrc sents (sender.initSrSendHistories histories)
  rw [getElem?_initSrSendHistories sender histories hssrc, Option.map_some] at hget
  rw [getSendTimeOfSendReport, hget]
  have hentries := SrSendHistory.entries_foldl ntpToMs {}
    (sents.filter fun sent => sent.localSsrc = ssrc)
  rw [SrSendHistory.entries_empty, ← List.map_reverse, ← latestFirst] at hentries
  generalize (sents.filter fun sent => sent.localSsrc = ssrc).foldl (SrSendHistory.add ntpToMs) {} =
    h at hentries
  show (if h.lastSendReport[0] = 0 ∨ lsr = 0 then 0 else (h.search lsr).getD 0) = _
  rw [SrSendHistory.search_of_entries hentries hlsr]
  have hfirst := SrSendHistory.head?_entries h
  rw [hentries] at hfirst
  rcases hlatest : latestFirst ssrc sents with - | ⟨sent, earlier⟩
  · exact ite_self _
  · -- the array begins with a report, and that has a compact NTP time
    have hmem : sent ∈ latestFirst ssrc sents := by
      rw [hlatest]
      exact List.mem_cons_self
    obtain ⟨hmem, hfor⟩ := List.mem_filter.mp (List.mem_reverse.mp hmem)
    have hzero : h.lastSendReport[0] ≠ 0 := by
      rw [hlatest] at hfirst
      have hreport : sent.sendReport = h.lastSendReport[0] :=
        congrArg Prod.fst (Option.some.inj hfirst)
      rw [← hreport]
      exact hsents sent hmem (of_decide_eq_true hfor)
    have helim : ∀ found : Option SrSent,
        (found.map fun sent => ntpToMs sent.ntpSec sent.ntpFrac).getD 0 =
          found.elim 0 fun sent => ntpToMs sent.ntpSec sent.ntpFrac := by
      rintro (- | found)
      · rfl
      · rfl
    rw [if_neg (not_or.mpr ⟨hzero, hlsr⟩)]
    exact helim _

theorem getSendTimeOfSendReport_run_two :
    ([⟨1, 0, 7⟩, ⟨2, 0, 8⟩, ⟨1, 1, 7⟩].foldl
        (updateLastSendReportAndRtcpTime fun sec frac => 1000 * sec.toNat + frac.toNat)
        (RtcpSender.initSrSendHistories ⟨7, 8, [], 0, 0⟩ ∅)).getSendTimeOfSendReport 0x10000 7 =
      1001 :=
  getSendTimeOfSendReport_run (fun sec frac => 1000 * sec.toNat + frac.toNat) ⟨7, 8, [], 0, 0⟩ ∅
    [⟨1, 0, 7⟩, ⟨2, 0, 8⟩, ⟨1, 1, 7⟩] (by decide) (.inr (.inr rfl))
    (by simp [SrSent.sendReport]; decide)

end SrSendHistories

end Runs

end Orbit
