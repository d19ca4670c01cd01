/-
OrbitStream/NetworkStatusRecv.lean

The receive side of `NetworkStatus` (`network_status.cc`): the loss of the packets
received, taken over intervals of three seconds.

Video and audio are kept in the same way.  An interval has the smallest and the
largest sequence number received, the numbers themselves, and the numbers found
missing; zero stands for a minimum or maximum that is not set yet.  A packet that
finds no minimum opens the interval; every other one is counted if its number is
above the maximum, or if it was found missing a short time ago.  The packet that is
counted more than three seconds after the last update closes the interval.

A packet with number zero that opens an interval leaves the minimum unset, so it is
counted outside the range that is expected.  What is received fits into what is
expected if and only if these packets are no more than the numbers missing from the
range (`recv_loss_iff`).  Numbers are compared as they are and not around the circle:
after a wrap no packet is above the maximum until the interval is closed, which only
a packet that is counted can do.  An in-order stream is counted while every wrap falls
between two intervals (`recv_in_order`), and is dead after a wrap inside of one
(`stuck`).
-/
import Mathlib.Algebra.Group.Nat.Defs
import Mathlib.Data.List.Chain
import Mathlib.Data.List.Induction
import Mathlib.Data.List.Nodup
import OrbitStream.Lib.Run
import OrbitStream.Lib.Serial

namespace Orbit

open Lib

/-- A packet for the receive statistics: its sequence number, and what the clock shows at
the start of the call, when a loss or a late packet is noted, and at the end of the call. -/
structure RecvPacket where
  seqnumber : UInt16
  start : Int
  noted : Int
  now : Int
  deriving DecidableEq, Repr

/-- The number of a packet. -/
def RecvPacket.number (a : RecvPacket) : Nat := a.seqnumber.toNat

/-- What is computed when an interval is closed, with the numbers counted in it. -/
structure Interval where
  expected : Nat
  received : Nat
  seqLost : Nat
  counted : List Nat
  time : Int
  deriving DecidableEq, Repr

/-- The fraction of an interval, in percent. -/
def Interval.fraction (i : Interval) : Nat := i.seqLost * 100 % 2 ^ 32 / i.expected

/-- Whatever is received fits into what is expected: nothing wraps, and the fraction is one. -/
structure Interval.Fits (i : Interval) : Prop where
  counted : i.received = i.counted.length
  received : i.received ≤ i.expected
  lost : (i.seqLost : Int) = (i.expected : Int) - i.received
  fraction : i.fraction ≤ 100

/-- The statistics of one kind of media. -/
structure RecvStatistic where
  lastTimeOfRecvFractionUpdate : Int := 0
  maxRecvSeqn : Nat := 0
  minRecvSeqn : Nat := 0
  recvSeqnVector : List Nat := []
  numberOfReceived : Nat := 0
  lostOfRecvMap : Std.TreeMap Nat Int := ∅
  recvFractionLost : Nat := 0
  recvCumulativeLost : Nat := 0
  expectRecvPackets : Nat := 0
  lostOfRecv : Nat := 0

namespace RecvStatistic

/-- `UPDATE_INTERVAL`, in ms. -/
def updateInterval : Int := 3000

/-- `SEQ_MISSING_WAIT`, in µs. -/
def seqMissingWait : Int := 12000

/-- `recv_seqn_vector_.push_back(seqnumber); number_of_received_++;`. -/
def count (st : RecvStatistic) (seqnumber : Nat) : RecvStatistic :=
  { st with
    recvSeqnVector := st.recvSeqnVector ++ [seqnumber]
    numberOfReceived := (st.numberOfReceived + 1) % 2 ^ 32 }

/-- The first part of a call. -/
def prepare (st : RecvStatistic) (seqnumber : Nat) (time : Int) : RecvStatistic :=
  let st := if st.lastTimeOfRecvFractionUpdate = 0 then
    { st with lastTimeOfRecvFractionUpdate := time } else st
  -- zero stands for unset, also when it is the number of a packet
  let st := if st.maxRecvSeqn = 0 then { st with maxRecvSeqn := seqnumber } else st
  if st.minRecvSeqn = 0 then { st with minRecvSeqn := seqnumber }.count seqnumber else st

/-- `int new_lost = seqnumber - max_recv_seqn_;`. -/
def newLost (st : RecvStatistic) (seqnumber : Nat) : Int :=
  ((seqnumber : Int) - st.maxRecvSeqn).bmod (2 ^ 32)

/-- The loop that records the numbers found missing. -/
def recordLost (seqnumber : Nat) (tm : Int) : Nat → Std.TreeMap Nat Int → Std.TreeMap Nat Int
  | 0, lost => lost
  | lostCounter + 1, lost =>
      recordLost seqnumber tm lostCounter
        (lost.insert ((seqnumber + 2 ^ 32 - (lostCounter + 1)) % 2 ^ 32) tm)

/-- Whether the packet is a new one or one to count in spite of being old; a new one moves the
maximum. -/
def classify (st : RecvStatistic) (seqnumber : Nat) (time : Int) : Option RecvStatistic :=
  if st.newLost seqnumber > 0 then
    some { st with
      maxRecvSeqn := seqnumber
      lostOfRecvMap :=
        -- the numbers in between are missing so far
        if st.newLost seqnumber > 1 then
          recordLost seqnumber time (st.newLost seqnumber - 1).toNat st.lostOfRecvMap
        else st.lostOfRecvMap }
  -- a packet that comes twice
  else if seqnumber ∈ st.recvSeqnVector then none
  else
    match st.lostOfRecvMap[seqnumber]? with
    -- below the maximum and not missing: of an earlier interval
    | none => none
    | some found => if time > found + seqMissingWait / 1000 then none else some st

/-- What is computed at the end of an interval. -/
def interval (st : RecvStatistic) (time : Int) : Interval :=
  let expected := (st.maxRecvSeqn + 2 ^ 32 - st.minRecvSeqn + 1) % 2 ^ 32
  { expected := expected
    received := st.numberOfReceived
    seqLost := (expected + 2 ^ 32 - st.numberOfReceived) % 2 ^ 32
    counted := st.recvSeqnVector
    time := time }

/-- The update at the end of an interval. -/
def close (st : RecvStatistic) (i : Interval) : RecvStatistic :=
  -- the range, the numbers counted and those missing start over
  { lastTimeOfRecvFractionUpdate := i.time
    recvFractionLost := if i.expected > 0 then i.fraction else st.recvFractionLost
    recvCumulativeLost := (st.recvCumulativeLost + i.seqLost) % 2 ^ 32
    expectRecvPackets := i.expected
    lostOfRecv := i.seqLost }

/-- `StatisticRecvFractionOfVideo` and `StatisticRecvFractionOfAudio`, with the interval that
is closed, whose loss and time are reported to the registry of sessions. -/
def statisticRecvFraction (st : RecvStatistic) (a : RecvPacket) :
    RecvStatistic × Option Interval :=
  let st := st.prepare a.number a.start
  match st.classify a.number a.noted with
  | none => (st, none)
  | some st =>
      let st := st.count a.number
      if a.now - st.lastTimeOfRecvFractionUpdate > updateInterval then
        (st.close (st.interval a.now), some (st.interval a.now))
      else (st, none)

/-- The statistics after a packet. -/
def step (st : RecvStatistic) (a : RecvPacket) : RecvStatistic := (st.statisticRecvFraction a).1

/-- The interval that a packet closes. -/
def closed? (st : RecvStatistic) (a : RecvPacket) : Option Interval :=
  (st.statisticRecvFraction a).2

end RecvStatistic

/-- The receive side of `NetworkStatus`. -/
structure RecvStatus where
  video : RecvStatistic := {}
  audio : RecvStatistic := {}
  recvFractionLost : Nat := 0
  cumulateRecvLost : Nat := 0

namespace RecvStatus

/-- The statistics of a kind of media. -/
def kind (s : RecvStatus) (isVideo : Bool) : RecvStatistic := if isVideo then s.video else s.audio

/-- `StatisticRecvFractionOfVideo`. -/
def statisticRecvFractionOfVideo (s : RecvStatus) (a : RecvPacket) : RecvStatus :=
  { s with video := s.video.step a }

/-- `StatisticRecvFractionOfAudio`. -/
def statisticRecvFractionOfAudio (s : RecvStatus) (a : RecvPacket) : RecvStatus :=
  { s with audio := s.audio.step a }

/-- `StatisticRecvFractionLost`. -/
def statisticRecvFractionLost (s : RecvStatus) (isVideo : Bool) (a : RecvPacket) : RecvStatus :=
  let s := if isVideo then s.statisticRecvFractionOfVideo a else s.statisticRecvFractionOfAudio a
  let lost := (s.video.lostOfRecv + s.audio.lostOfRecv) % 2 ^ 32
  let recvCount := (s.video.expectRecvPackets + s.audio.expectRecvPackets) % 2 ^ 32
  { s with
    recvFractionLost := if recvCount > 0 then lost * 100 % 2 ^ 32 / recvCount
      else s.recvFractionLost
    cumulateRecvLost := (s.video.recvCumulativeLost + s.audio.recvCumulativeLost) % 2 ^ 32 }

/-- A packet of either kind. -/
def step (s : RecvStatus) (p : Bool × RecvPacket) : RecvStatus :=
  s.statisticRecvFractionLost p.1 p.2

end RecvStatus

namespace RecvStatistic

variable {st : RecvStatistic} {a : RecvPacket}

/-! ### The invariant -/

/-- What always holds: the minimum and the maximum are both unset or both set; apart from zeros
the numbers counted are in their range, each once, and what is missing is strictly inside. -/
structure Inv (st : RecvStatistic) : Prop where
  number : st.numberOfReceived = st.recvSeqnVector.length % 2 ^ 32
  range : st.minRecvSeqn = 0 ∧ st.maxRecvSeqn = 0 ∨
    0 < st.minRecvSeqn ∧ st.minRecvSeqn ≤ st.maxRecvSeqn ∧ st.maxRecvSeqn < 2 ^ 16
  vector : ∀ x ∈ st.recvSeqnVector, x = 0 ∨ st.minRecvSeqn ≤ x ∧ x ≤ st.maxRecvSeqn
  nodup : (st.recvSeqnVector.filter (· ≠ 0)).Nodup
  lost : ∀ x ∈ st.lostOfRecvMap, st.minRecvSeqn < x ∧ x < st.maxRecvSeqn

/-- The statistics with the time of the first call. -/
def touch (st : RecvStatistic) (time : Int) : RecvStatistic :=
  { st with lastTimeOfRecvFractionUpdate :=
      if st.lastTimeOfRecvFractionUpdate = 0 then time else st.lastTimeOfRecvFractionUpdate }

/-- Whether a packet that finds a minimum is counted. -/
def counts (st : RecvStatistic) (a : RecvPacket) : Bool :=
  decide (st.maxRecvSeqn < a.number) ||
    (decide (a.number ∉ st.recvSeqnVector) &&
      match st.lostOfRecvMap[a.number]? with
      | none => false
      | some found => decide (a.noted ≤ found + 12))

/-- Whether a packet is counted more than three seconds after the last update. -/
def due (st : RecvStatistic) (a : RecvPacket) : Bool :=
  decide (a.now - (st.touch a.start).lastTimeOfRecvFractionUpdate > 3000)

/-- Whether a packet closes the interval. -/
def closes (st : RecvStatistic) (a : RecvPacket) : Bool :=
  decide (st.minRecvSeqn ≠ 0) && st.counts a && st.due a

theorem number_lt (a : RecvPacket) : a.number < 2 ^ 16 := a.seqnumber.toNat_lt

theorem newLost_eq (a : RecvPacket) (h : st.maxRecvSeqn < 2 ^ 16) :
    st.newLost a.number = (a.number : Int) - st.maxRecvSeqn := by
  have ha := number_lt a
  rw [newLost, Int.bmod_def]
  omega

theorem touch_eq (st : RecvStatistic) (time : Int) :
    (if st.lastTimeOfRecvFractionUpdate = 0 then
      { st with lastTimeOfRecvFractionUpdate := time } else st) = st.touch time := by
  rw [touch]
  split
  · rfl
  · rfl

theorem prepare_of_unset (hmin : st.minRecvSeqn = 0) (hmax : st.maxRecvSeqn = 0)
    (seqnumber : Nat) (time : Int) :
    st.prepare seqnumber time =
      { st.touch time with minRecvSeqn := seqnumber, maxRecvSeqn := seqnumber }.count seqnumber := by
  rw [prepare, touch_eq]
  dsimp only
  rw [if_pos (show (st.touch time).maxRecvSeqn = 0 from hmax),
    if_pos (show (st.touch time).minRecvSeqn = 0 from hmin)]

theorem prepare_of_set (hmin : st.minRecvSeqn ≠ 0) (hmax : st.maxRecvSeqn ≠ 0)
    (seqnumber : Nat) (time : Int) : st.prepare seqnumber time = st.touch time := by
  rw [prepare, touch_eq]
  rw [if_neg (show (st.touch time).maxRecvSeqn ≠ 0 from hmax),
    if_neg (show (st.touch time).minRecvSeqn ≠ 0 from hmin)]

/-- A packet that finds no minimum becomes the minimum. -/
theorem statistic_of_unset (hmin : st.minRecvSeqn = 0) (hmax : st.maxRecvSeqn = 0)
    (a : RecvPacket) :
    st.statisticRecvFraction a =
      ({ st.touch a.start with minRecvSeqn := a.number, maxRecvSeqn := a.number }.count a.number,
        none) := by
  rw [statisticRecvFraction, prepare_of_unset hmin hmax a.number a.start]
  have hnone : classify (({ st.touch a.start with
      minRecvSeqn := a.number, maxRecvSeqn := a.number } : RecvStatistic).count a.number)
      a.number a.noted = none := by
    have hzero : newLost (({ st.touch a.start with
        minRecvSeqn := a.number, maxRecvSeqn := a.number } : RecvStatistic).count a.number)
        a.number = 0 := by
      rw [newLost]
      show ((a.number : Int) - a.number).bmod (2 ^ 32) = 0
      rw [Int.sub_self]
      rfl
    -- it was counted when it became the minimum, so it is taken for one that comes twice
    rw [classify, hzero, if_neg (by decide), if_pos]
    show a.number ∈ st.recvSeqnVector ++ [a.number]
    simp
  simp only [hnone]

/-- The statistics once a packet that finds a minimum is counted; the interval is still open. -/
def extended (st : RecvStatistic) (a : RecvPacket) : RecvStatistic :=
  { st.touch a.start with
    maxRecvSeqn := max st.maxRecvSeqn a.number
    lostOfRecvMap := recordLost a.number a.noted (a.number - st.maxRecvSeqn - 1)
      st.lostOfRecvMap }.count a.number

theorem classify_of_counts (hmax : st.maxRecvSeqn < 2 ^ 16) (h : st.counts a = true) :
    ∃ st', (st.touch a.start).classify a.number a.noted = some st' ∧
      st'.count a.number = st.extended a := by
  have hnew : (st.touch a.start).newLost a.number = (a.number : Int) - st.maxRecvSeqn :=
    newLost_eq a hmax
  rw [classify, hnew]
  by_cases hlt : st.maxRecvSeqn < a.number
  · -- a new packet: `recordLost` does nothing when no number was left out
    rw [if_pos (by omega)]
    refine ⟨_, rfl, ?_⟩
    have hlost : (if (a.number : Int) - st.maxRecvSeqn > 1 then
        recordLost a.number a.noted ((a.number : Int) - st.maxRecvSeqn - 1).toNat
          (st.touch a.start).lostOfRecvMap
        else (st.touch a.start).lostOfRecvMap) =
        recordLost a.number a.noted (a.number - st.maxRecvSeqn - 1) st.lostOfRecvMap := by
      split
      · congr 1
        omega
      · rw [show a.number - st.maxRecvSeqn - 1 = 0 by omega]
        rfl
    rw [hlost, extended, Nat.max_eq_right (Nat.le_of_lt hlt)]
  · -- a late one, found among the missing in time
    rw [counts, decide_eq_false hlt, Bool.false_or, Bool.and_eq_true, decide_eq_true_iff] at h
    obtain ⟨hvec, hlate⟩ := h
    rw [if_neg (by omega), if_neg (show a.number ∉ (st.touch a.start).recvSeqnVector from hvec)]
    show ∃ st', (match st.lostOfRecvMap[a.number]? with
      | none => none
      | some found => if a.noted > found + 12 then none else some (st.touch a.start)) = some st' ∧ _
    rcases hfound : st.lostOfRecvMap[a.number]? with - | found
    · rw [hfound] at hlate
      cases hlate
    · rw [hfound] at hlate
      refine ⟨st.touch a.start, ?_, ?_⟩
      · dsimp only
        rw [if_neg (Int.not_lt.mpr (of_decide_eq_true hlate))]
      · rw [extended, Nat.max_eq_left (by omega), show a.number - st.maxRecvSeqn - 1 = 0 by omega]
        rfl

theorem classify_of_not_counts (hmax : st.maxRecvSeqn < 2 ^ 16) (h : st.counts a = false) :
    (st.touch a.start).classify a.number a.noted = none := by
  have hnew : (st.touch a.start).newLost a.number = (a.number : Int) - st.maxRecvSeqn :=
    newLost_eq a hmax
  rw [counts, Bool.or_eq_false_iff, decide_eq_false_iff_not] at h
  obtain ⟨hlt, hlate⟩ := h
  rw [classify, hnew, if_neg (by omega)]
  by_cases hvec : a.number ∈ st.recvSeqnVector
  · exact if_pos hvec
  · rw [if_neg (show a.number ∉ (st.touch a.start).recvSeqnVector from hvec)]
    rw [decide_eq_true hvec, Bool.true_and] at hlate
    show (match st.lostOfRecvMap[a.number]? with
      | none => none
      | some found => if a.noted > found + 12 then none else some (st.touch a.start)) = none
    rcases hfound : st.lostOfRecvMap[a.number]? with - | found
    · rfl
    · rw [hfound] at hlate
      exact if_pos (Int.not_le.mp (of_decide_eq_false hlate))

/-- What a packet can do: become the minimum, be ignored, be counted, or be counted and close
the interval. -/
theorem statistic_cases (h : st.Inv) (a : RecvPacket) :
    (st.minRecvSeqn = 0 ∧ st.maxRecvSeqn = 0 ∧ st.statisticRecvFraction a =
      ({ st.touch a.start with minRecvSeqn := a.number, maxRecvSeqn := a.number }.count a.number,
        none)) ∨
    (st.minRecvSeqn ≠ 0 ∧ st.counts a = false ∧
      st.statisticRecvFraction a = (st.touch a.start, none)) ∨
    (st.minRecvSeqn ≠ 0 ∧ st.counts a = true ∧ st.due a = false ∧
      st.statisticRecvFraction a = (st.extended a, none)) ∨
    (st.minRecvSeqn ≠ 0 ∧ st.counts a = true ∧ st.due a = true ∧
      st.statisticRecvFraction a = ((st.extended a).close ((st.extended a).interval a.now),
        some ((st.extended a).interval a.now))) := by
  rcases h.range with ⟨hmin, hmax⟩ | ⟨hpos, hle, hlt⟩
  · exact .inl ⟨hmin, hmax, statistic_of_unset hmin hmax a⟩
  · have hmin : st.minRecvSeqn ≠ 0 := by omega
    right
    have hmax : st.maxRecvSeqn ≠ 0 := by omega
    rw [statisticRecvFraction, prepare_of_set hmin hmax a.number a.start]
    rcases hc : st.counts a with - | -
    · left
      rw [classify_of_not_counts hlt hc]
      exact ⟨hmin, rfl, rfl⟩
    · right
      obtain ⟨st', hsome, hext⟩ := classify_of_counts hlt hc
      rw [hsome]
      dsimp only
      rw [hext]
      have hdue : st.due a = decide (a.now - (st.extended a).lastTimeOfRecvFractionUpdate >
          updateInterval) := rfl
      rcases hd : st.due a with - | -
      · rw [hdue] at hd
        rw [if_neg (of_decide_eq_false hd)]
        exact .inl ⟨hmin, rfl, rfl, rfl⟩
      · rw [hdue] at hd
        rw [if_pos (of_decide_eq_true hd)]
        exact .inr ⟨hmin, rfl, rfl, rfl⟩

/-! ### Every packet keeps the invariant -/

theorem mem_recordLost {seqnumber : Nat} {tm : Int} {x n : Nat} {lost : Std.TreeMap Nat Int}
    (hn : n < seqnumber) (hs : seqnumber < 2 ^ 16) (h : x ∈ recordLost seqnumber tm n lost) :
    x ∈ lost ∨ seqnumber - n ≤ x ∧ x < seqnumber := by
  induction n generalizing lost with
  | zero => exact .inl h
  | succ n ih =>
    rcases ih (by omega) h with hmem | hrange
    · rw [Std.TreeMap.mem_insert, Std.compare_eq_iff_eq] at hmem
      rcases hmem with heq | hmem
      · omega
      · exact .inl hmem
    · omega

/-- A number that is counted in an open interval is not zero. -/
theorem counts_pos (h : st.Inv) (hc : st.counts a = true) : 0 < a.number := by
  rw [counts, Bool.or_eq_true, decide_eq_true_iff, Bool.and_eq_true] at hc
  rcases hc with hlt | ⟨-, hlate⟩
  · omega
  · rcases hfound : st.lostOfRecvMap[a.number]? with - | found
    · rw [hfound] at hlate
      cases hlate
    · have hmem : a.number ∈ st.lostOfRecvMap := by
        rw [Std.TreeMap.mem_iff_isSome_getElem?, hfound]
        rfl
      exact Nat.zero_lt_of_lt (h.lost _ hmem).1

/-- A number that is counted in an open interval has not been counted in it before, and is in
the range that it leaves. -/
theorem counts_fresh (h : st.Inv) (hc : st.counts a = true) :
    a.number ∉ st.recvSeqnVector ∧ st.minRecvSeqn ≤ a.number := by
  have hpos := counts_pos h hc
  have hrange := h.range
  rw [counts, Bool.or_eq_true, decide_eq_true_iff, Bool.and_eq_true, decide_eq_true_iff] at hc
  rcases hc with hlt | ⟨hvec, hlate⟩
  · refine ⟨?_, by omega⟩
    intro hmem
    have := h.vector _ hmem
    omega
  · refine ⟨hvec, ?_⟩
    rcases hfound : st.lostOfRecvMap[a.number]? with - | found
    · rw [hfound] at hlate
      cases hlate
    · have hmem : a.number ∈ st.lostOfRecvMap := by
        rw [Std.TreeMap.mem_iff_isSome_getElem?, hfound]
        rfl
      exact Nat.le_of_lt (h.lost _ hmem).1

theorem inv_init : Inv {} where
  number := rfl
  range := .inl ⟨rfl, rfl⟩
  vector := by simp
  nodup := by simp
  lost := by simp

theorem Inv.touch (h : st.Inv) (time : Int) : (st.touch time).Inv :=
  ⟨h.number, h.range, h.vector, h.nodup, h.lost⟩

theorem number_count (h : st.numberOfReceived = st.recvSeqnVector.length % 2 ^ 32) (n : Nat) :
    (st.count n).numberOfReceived = (st.count n).recvSeqnVector.length % 2 ^ 32 := by
  show (st.numberOfReceived + 1) % 2 ^ 32 = (st.recvSeqnVector ++ [n]).length % 2 ^ 32
  rw [h, List.length_append, Nat.mod_add_mod]
  rfl

theorem Inv.opened (h : st.Inv) (hmin : st.minRecvSeqn = 0) (hmax : st.maxRecvSeqn = 0)
    (a : RecvPacket) :
    Inv ({ st.touch a.start with
      minRecvSeqn := a.number, maxRecvSeqn := a.number }.count a.number) := by
  -- without a minimum only zeros have been counted, and nothing is missing
  have hzero : ∀ x ∈ st.recvSeqnVector, x = 0 := by
    intro x hx
    have := h.vector x hx
    omega
  have hempty : ∀ x, x ∉ st.lostOfRecvMap := by
    intro x hx
    have := h.lost x hx
    omega
  refine ⟨number_count h.number _, ?_, ?_, ?_, fun x hx => absurd hx (hempty x)⟩
  · show a.number = 0 ∧ a.number = 0 ∨ 0 < a.number ∧ a.number ≤ a.number ∧ a.number < 2 ^ 16
    have := number_lt a
    omega
  · intro x hx
    rcases List.mem_append.mp hx with hx | hx
    · exact .inl (hzero x hx)
    · rw [List.mem_singleton.mp hx]
      exact .inr ⟨Nat.le_refl _, Nat.le_refl _⟩
  · show ((st.recvSeqnVector ++ [a.number]).filter (· ≠ 0)).Nodup
    have hnil : st.recvSeqnVector.filter (· ≠ 0) = [] := by
      rw [List.filter_eq_nil_iff]
      intro x hx
      simp [hzero x hx]
    rw [List.filter_append, hnil, List.nil_append]
    exact (List.nodup_singleton a.number).filter _

theorem Inv.extended (h : st.Inv) (hmin : st.minRecvSeqn ≠ 0) (hc : st.counts a = true) :
    (st.extended a).Inv := by
  obtain ⟨hvec, hle⟩ := counts_fresh h hc
  have hpos := counts_pos h hc
  have hlt := number_lt a
  have hrange := h.range
  refine ⟨number_count h.number _, ?_, ?_, ?_, ?_⟩
  · show st.minRecvSeqn = 0 ∧ max st.maxRecvSeqn a.number = 0 ∨ 0 < st.minRecvSeqn ∧
      st.minRecvSeqn ≤ max st.maxRecvSeqn a.number ∧ max st.maxRecvSeqn a.number < 2 ^ 16
    omega
  · intro x hx
    show x = 0 ∨ st.minRecvSeqn ≤ x ∧ x ≤ max st.maxRecvSeqn a.number
    rcases List.mem_append.mp hx with hx | hx
    · have := h.vector x hx
      omega
    · have := List.mem_singleton.mp hx
      omega
  · show ((st.recvSeqnVector ++ [a.number]).filter (· ≠ 0)).Nodup
    rw [List.filter_append, List.filter_singleton, decide_eq_true (by omega : a.number ≠ 0)]
    refine h.nodup.append (List.nodup_singleton _) ?_
    intro x hx hxa
    rw [List.mem_singleton.mp hxa] at hx
    exact hvec (List.mem_filter.mp hx).1
  · intro x hx
    show st.minRecvSeqn < x ∧ x < max st.maxRecvSeqn a.number
    have hx : x ∈ recordLost a.number a.noted (a.number - st.maxRecvSeqn - 1)
      st.lostOfRecvMap := hx
    rcases mem_recordLost (by omega) hlt hx with hx | hx
    · have := h.lost x hx
      omega
    · omega

theorem Inv.closed (st : RecvStatistic) (i : Interval) : (st.close i).Inv :=
  ⟨rfl, .inl ⟨rfl, rfl⟩, by simp [close], by simp [close], by simp [close]⟩

theorem step_inv (h : st.Inv) (a : RecvPacket) : (st.step a).Inv := by
  rw [step]
  rcases statistic_cases h a with ⟨hmin, hmax, hs⟩ | ⟨-, -, hs⟩ | ⟨hmin, hc, -, hs⟩ | ⟨-, -, -, hs⟩
  · rw [hs]
    exact h.opened hmin hmax a
  · rw [hs]
    exact h.touch a.start
  · rw [hs]
    exact h.extended hmin hc
  · rw [hs]
    exact Inv.closed _ _

/-! ### What is received and what is expected -/

/-- The packets with number zero that were counted. -/
def zeros (st : RecvStatistic) : Nat := st.recvSeqnVector.count 0

/-- The numbers of the range that are missing when the packet is counted. -/
def gaps (st : RecvStatistic) (a : RecvPacket) : Nat :=
  ((List.range' st.minRecvSeqn (max st.maxRecvSeqn a.number - st.minRecvSeqn + 1)).filter
    fun x => x ∉ st.recvSeqnVector ++ [a.number]).length

/-- The numbers of a range are counted or missing. -/
theorem length_filter_add_gaps {V : List Nat} {low n : Nat} (hlow : 0 < low)
    (hV : ∀ x ∈ V, x = 0 ∨ low ≤ x ∧ x < low + n) (hnodup : (V.filter (· ≠ 0)).Nodup) :
    (V.filter (· ≠ 0)).length + ((List.range' low n).filter (· ∉ V)).length = n := by
  -- each number of the list once, so the list is as long as its part of the range
  have hperm : (V.filter (· ≠ 0)).Perm ((List.range' low n).filter (· ∈ V)) := by
    rw [List.perm_ext_iff_of_nodup hnodup ((List.nodup_range' ..).filter _)]
    intro x
    simp only [List.mem_filter, List.mem_range'_1, decide_eq_true_eq]
    constructor
    · rintro ⟨hx, hne⟩
      have := hV x hx
      exact ⟨by omega, hx⟩
    · rintro ⟨hx, hmem⟩
      exact ⟨hmem, by omega⟩
  have hsplit := (List.range' low n).length_eq_length_filter_add (fun x => decide (x ∈ V))
  rw [hperm.length_eq]
  simp only [List.length_range', decide_not] at hsplit ⊢
  omega

theorem extended_length (h : st.Inv) (hmin : st.minRecvSeqn ≠ 0) (hc : st.counts a = true) :
    (st.extended a).recvSeqnVector.length + st.gaps a =
      st.zeros + (max st.maxRecvSeqn a.number - st.minRecvSeqn + 1) := by
  have hinv := h.extended hmin hc
  have hpos := counts_pos h hc
  have hrange := h.range
  have hvector : (st.extended a).recvSeqnVector = st.recvSeqnVector ++ [a.number] := rfl
  have hspan : ∀ x ∈ (st.extended a).recvSeqnVector, x = 0 ∨ st.minRecvSeqn ≤ x ∧
      x < st.minRecvSeqn + (max st.maxRecvSeqn a.number - st.minRecvSeqn + 1) := by
    intro x hx
    have hx' : x = 0 ∨ st.minRecvSeqn ≤ x ∧ x ≤ max st.maxRecvSeqn a.number := hinv.vector x hx
    omega
  have hgaps := length_filter_add_gaps (Nat.pos_of_ne_zero hmin) hspan hinv.nodup
  have hzeros : (st.extended a).recvSeqnVector.count 0 = st.zeros := by
    have hne : a.number ≠ 0 := by omega
    rw [hvector, List.count_append, List.count_singleton, zeros]
    simp [hne]
  have hsplit := (st.extended a).recvSeqnVector.length_eq_length_filter_add (· == 0)
  rw [← List.countP_eq_length_filter] at hsplit
  have hcount : (st.extended a).recvSeqnVector.countP (· == 0) = st.zeros := hzeros
  have hne : (st.extended a).recvSeqnVector.filter (fun x => !(x == 0)) =
      (st.extended a).recvSeqnVector.filter (· ≠ 0) := by
    apply List.filter_congr
    intro x _
    rw [decide_not]
    rfl
  rw [hcount, hne] at hsplit
  rw [gaps, ← hvector]
  omega

theorem extended_expected (h : st.Inv) :
    ((st.extended a).interval a.now).expected =
      max st.maxRecvSeqn a.number - st.minRecvSeqn + 1 := by
  show (max st.maxRecvSeqn a.number + 2 ^ 32 - st.minRecvSeqn + 1) % 2 ^ 32 = _
  have := number_lt a
  have := h.range
  omega

/-- An interval fits if and only if the zeros in it are no more than the numbers missing. -/
theorem interval_fits_iff (h : st.Inv) (hmin : st.minRecvSeqn ≠ 0) (hc : st.counts a = true) :
    ((st.extended a).interval a.now).Fits ↔ st.zeros ≤ st.gaps a := by
  have hlength := extended_length h hmin hc
  have hexpected := extended_expected (a := a) h
  have hnumber : ((st.extended a).interval a.now).received =
      (st.extended a).recvSeqnVector.length % 2 ^ 32 := (h.extended hmin hc).number
  have hcounted : ((st.extended a).interval a.now).counted =
      (st.extended a).recvSeqnVector := rfl
  have hlost : ((st.extended a).interval a.now).seqLost =
      (((st.extended a).interval a.now).expected + 2 ^ 32 -
        ((st.extended a).interval a.now).received) % 2 ^ 32 := rfl
  generalize (st.extended a).interval a.now = i at *
  have hlt := number_lt a
  have hrange := h.range
  constructor
  · intro hfits
    have hreceived := hfits.received
    rw [hfits.counted, hcounted] at hreceived
    omega
  · intro hle
    -- no more is counted than expected, so the counter has not wrapped
    have hreceived : i.received = (st.extended a).recvSeqnVector.length := by omega
    have hfit : i.received ≤ i.expected := by omega
    have hseq : i.seqLost = i.expected - i.received := by omega
    refine ⟨by rw [hreceived, hcounted], hfit, by omega, ?_⟩
    rw [Interval.fraction, hseq, Nat.mod_eq_of_lt (by omega)]
    apply Nat.div_le_of_le_mul
    omega

/-- The interval that a packet closes, if it closes one. -/
theorem closed?_eq (h : st.Inv) (a : RecvPacket) :
    st.closed? a = if st.closes a then some ((st.extended a).interval a.now) else none := by
  rw [closed?, closes]
  rcases statistic_cases h a with ⟨hmin, -, hs⟩ | ⟨-, hc, hs⟩ | ⟨-, -, hd, hs⟩ | ⟨hmin, hc, hd, hs⟩
  · rw [hs, decide_eq_false (not_not_intro hmin)]
    rfl
  · rw [hs, hc, Bool.and_false]
    rfl
  · rw [hs, hd, Bool.and_false]
    rfl
  · rw [hs, hc, hd, decide_eq_true hmin]
    rfl

/-- What is lost is part of what is expected, and that is at most the numbers there are. -/
def Bounded (st : RecvStatistic) : Prop :=
  st.lostOfRecv ≤ st.expectRecvPackets ∧ st.expectRecvPackets ≤ 2 ^ 16

/-- A packet changes the totals only by closing an interval. -/
theorem step_bounded (h : st.Inv) (hb : st.Bounded)
    (hfits : ∀ i, st.closed? a = some i → i.Fits) : (st.step a).Bounded := by
  rw [step]
  rcases statistic_cases h a with ⟨-, -, hs⟩ | ⟨-, -, hs⟩ | ⟨-, -, -, hs⟩ | ⟨hmin, hc, hd, hs⟩
  · rw [hs]
    exact hb
  · rw [hs]
    exact hb
  · rw [hs]
    exact hb
  · have hi := hfits ((st.extended a).interval a.now) (by rw [closed?, hs])
    have hexpected := extended_expected (a := a) h
    have hlost := hi.lost
    have hlt := number_lt a
    have hrange := h.range
    rw [hs]
    show ((st.extended a).interval a.now).seqLost ≤ ((st.extended a).interval a.now).expected ∧
      ((st.extended a).interval a.now).expected ≤ 2 ^ 16
    omega

end RecvStatistic

namespace RecvStatus

variable {s : RecvStatus} {p : Bool × RecvPacket}

/-- The interval that the packet closes fits, and so does the total of both kinds. -/
def Sound (s : RecvStatus) (p : Bool × RecvPacket) : Prop :=
  (∀ i, (s.kind p.1).closed? p.2 = some i → i.Fits) ∧ (s.step p).recvFractionLost ≤ 100

/-- If the packet closes an interval, the packets with number zero that opened it are no more
than the numbers missing from its range. -/
def ZerosFit (s : RecvStatus) (p : Bool × RecvPacket) : Prop :=
  (s.kind p.1).closes p.2 = true → (s.kind p.1).zeros ≤ (s.kind p.1).gaps p.2

/-- A packet is a step of the statistics of its kind, and none of the other kind. -/
theorem kind_step (s : RecvStatus) (p : Bool × RecvPacket) (isVideo : Bool) :
    (s.step p).kind isVideo =
      if p.1 = isVideo then (s.kind isVideo).step p.2 else s.kind isVideo := by
  obtain ⟨b, a⟩ := p
  rcases b with - | -
  · rcases isVideo with - | -
    · rfl
    · rfl
  · rcases isVideo with - | -
    · rfl
    · rfl

/-- The invariant of both kinds. -/
def Inv (s : RecvStatus) : Prop := ∀ isVideo, (s.kind isVideo).Inv

theorem inv_init : Inv {} := by
  intro isVideo
  rcases isVideo with - | -
  · exact RecvStatistic.inv_init
  · exact RecvStatistic.inv_init

theorem step_inv (h : s.Inv) (p : Bool × RecvPacket) : (s.step p).Inv := by
  intro isVideo
  rw [kind_step]
  split
  · exact RecvStatistic.step_inv (h isVideo) p.2
  · exact h isVideo

/-- The fraction of both kinds together. -/
def FractionBounded (s : RecvStatus) : Prop :=
  (∀ isVideo, (s.kind isVideo).Bounded) ∧ s.recvFractionLost ≤ 100

theorem step_fractionBounded (h : s.Inv) (hb : s.FractionBounded)
    (hfits : ∀ i, (s.kind p.1).closed? p.2 = some i → i.Fits) : (s.step p).FractionBounded := by
  have hkind : ∀ isVideo, ((s.step p).kind isVideo).Bounded := by
    intro isVideo
    rw [kind_step]
    split
    · rename_i heq
      rw [← heq]
      exact RecvStatistic.step_bounded (h p.1) (hb.1 p.1) hfits
    · exact hb.1 isVideo
  refine ⟨hkind, ?_⟩
  obtain ⟨hvideo, hvmax⟩ : ((s.step p).video).Bounded := hkind true
  obtain ⟨haudio, hamax⟩ : ((s.step p).audio).Bounded := hkind false
  have htotal : (s.step p).recvFractionLost =
      if ((s.step p).video.expectRecvPackets + (s.step p).audio.expectRecvPackets) % 2 ^ 32 > 0 then
        ((s.step p).video.lostOfRecv + (s.step p).audio.lostOfRecv) % 2 ^ 32 * 100 % 2 ^ 32 /
          (((s.step p).video.expectRecvPackets + (s.step p).audio.expectRecvPackets) % 2 ^ 32)
      else s.recvFractionLost := by
    obtain ⟨b, a⟩ := p
    rcases b with - | -
    · rfl
    · rfl
  rw [htotal]
  split
  · rw [Nat.mod_eq_of_lt (a := _ * 100) (by omega)]
    apply Nat.div_le_of_le_mul
    omega
  · exact hb.2

theorem fits_iff_zerosFit {s : RecvStatus} (h : s.Inv) (p : Bool × RecvPacket) :
    (∀ i, (s.kind p.1).closed? p.2 = some i → i.Fits) ↔ s.ZerosFit p := by
  rw [ZerosFit, RecvStatistic.closed?_eq (h p.1)]
  by_cases hcloses : (s.kind p.1).closes p.2 = true
  · have hsplit := hcloses
    rw [RecvStatistic.closes, Bool.and_eq_true, Bool.and_eq_true, decide_eq_true_iff] at hsplit
    obtain ⟨⟨hmin, hc⟩, -⟩ := hsplit
    simp only [hcloses, if_true, Option.some.injEq, forall_eq', true_imp_iff]
    exact RecvStatistic.interval_fits_iff (h p.1) hmin hc
  · simp [hcloses]

/-- In every run, with any clock, everything received fits into what is expected at every
close if and only if at every close the packets with number zero that opened the interval are
no more than the numbers missing from its range. -/
theorem recv_loss_iff (l : List (Bool × RecvPacket)) :
    Throughout step Sound {} l ↔ Throughout step ZerosFit {} l := by
  have hempty : ({} : RecvStatus).FractionBounded := by
    refine ⟨?_, Nat.zero_le _⟩
    intro isVideo
    rcases isVideo with - | -
    · exact ⟨Nat.le_refl _, Nat.zero_le _⟩
    · exact ⟨Nat.le_refl _, Nat.zero_le _⟩
  apply throughout_congr (P := fun s => s.Inv ∧ s.FractionBounded) ?_ ?_ l ⟨inv_init, hempty⟩
  · rintro s p ⟨h, hb⟩
    constructor
    · rintro ⟨hfits, -⟩
      exact (fits_iff_zerosFit h p).mp hfits
    · intro hzeros
      have hfits := (fits_iff_zerosFit h p).mpr hzeros
      exact ⟨hfits, (step_fractionBounded h hb hfits).2⟩
  · rintro s p ⟨h, hb⟩ hzeros
    exact ⟨step_inv h p, step_fractionBounded h hb ((fits_iff_zerosFit h p).mpr hzeros)⟩

/-- The packets 0, 1 and 2, the last one more than three seconds after the first: three
received of two expected, and a loss of 2^32 - 1 packets. -/
theorem recv_loss_underflows :
    ∃ i, (([(true, ⟨0, 1, 1, 1⟩), (true, ⟨1, 2, 2, 2⟩)].foldl step {} : RecvStatus).kind
        true).closed? ⟨2, 4000, 4000, 4000⟩ = some i ∧
      i.expected = 2 ∧ i.received = 3 ∧ i.seqLost = 4294967295 ∧ i.fraction = 2147483598 ∧
      ¬ i.Fits := by
  refine ⟨⟨2, 3, 4294967295, [0, 1, 2], 4000⟩, by decide, rfl, rfl, rfl, by decide, ?_⟩
  intro hfits
  exact absurd hfits.received (by decide)

end RecvStatus

/-! ### In-order streams -/

namespace RecvStatistic

variable {st : RecvStatistic} {a : RecvPacket}

/-- The statistics after these packets. -/
def run (ps : List RecvPacket) : RecvStatistic := ps.foldl step {}

/-- Every packet is the next one that is sent or, after a loss, one of the next 2^15. -/
def InOrder (ps : List RecvPacket) : Prop :=
  ps.IsChain fun a b => Newer b.seqnumber a.seqnumber

/-- Every packet is the next one. -/
def Consecutive (ps : List RecvPacket) : Prop :=
  ps.IsChain fun a b => b.seqnumber = a.seqnumber + 1

/-- A packet after a wrap finds no minimum: the packet before it has closed the interval. -/
def WrapsAtRest (ps : List RecvPacket) : Prop :=
  ∀ pre a b post, ps = pre ++ a :: b :: post → b.number < a.number →
    (run (pre ++ [a])).minRecvSeqn = 0

/-- The packet is counted, in the interval that it leaves open or in the one that it closes. -/
def Counted (st : RecvStatistic) (a : RecvPacket) : Prop :=
  match st.closed? a with
  | none => (st.step a).recvSeqnVector = st.recvSeqnVector ++ [a.number] ∧
      (st.step a).numberOfReceived = (st.numberOfReceived + 1) % 2 ^ 32
  | some i => i.counted = st.recvSeqnVector ++ [a.number] ∧
      i.received = (st.numberOfReceived + 1) % 2 ^ 32

/-- The packet closes an interval, and what is lost in it is recorded. -/
def Recorded (st : RecvStatistic) (a : RecvPacket) : Prop :=
  ∃ i, st.closed? a = some i ∧ i.time = a.now ∧
    (st.step a).lastTimeOfRecvFractionUpdate = a.now ∧
    (st.step a).recvFractionLost = i.fraction ∧ (st.step a).lostOfRecv = i.seqLost ∧
    (st.step a).recvCumulativeLost = (st.recvCumulativeLost + i.seqLost) % 2 ^ 32

theorem run_concat (ps : List RecvPacket) (a : RecvPacket) :
    run (ps ++ [a]) = (run ps).step a := by
  rw [run, List.foldl_append]
  rfl

theorem run_inv (ps : List RecvPacket) : (run ps).Inv := by
  induction ps using List.reverseRecOn with
  | nil => exact inv_init
  | append_singleton ps a ih =>
    rw [run_concat]
    exact step_inv ih a

/-- A packet that finds no minimum is counted, another one if and only if its number counts. -/
theorem counted_iff (h : st.Inv) (a : RecvPacket) :
    st.Counted a ↔ st.minRecvSeqn = 0 ∨ st.counts a = true := by
  rw [Counted, closed?, step]
  rcases statistic_cases h a with ⟨hmin, -, hs⟩ | ⟨hmin, hc, hs⟩ | ⟨-, hc, -, hs⟩ | ⟨-, hc, -, hs⟩
  · rw [hs]
    exact ⟨fun _ => .inl hmin, fun _ => ⟨rfl, rfl⟩⟩
  · rw [hs, hc]
    refine ⟨?_, by simp [hmin]⟩
    rintro ⟨hvec, -⟩
    -- what is ignored leaves the vector as it is
    have hlen : st.recvSeqnVector.length = (st.recvSeqnVector ++ [a.number]).length :=
      congrArg List.length hvec
    rw [List.length_append, List.length_singleton] at hlen
    omega
  · rw [hs]
    exact ⟨fun _ => .inr hc, fun _ => ⟨rfl, rfl⟩⟩
  · rw [hs]
    exact ⟨fun _ => .inr hc, fun _ => ⟨rfl, rfl⟩⟩

/-- A packet that is counted closes the interval that it finds if it is time. -/
theorem recorded_of_counts (h : st.Inv) (hmin : st.minRecvSeqn ≠ 0) (hc : st.counts a = true)
    (hd : st.due a = true) : st.Recorded a := by
  rw [Recorded, closed?, step]
  rcases statistic_cases h a with ⟨hzero, -, -⟩ | ⟨-, hnot, -⟩ | ⟨-, -, hnot, -⟩ | ⟨-, -, -, hs⟩
  · exact absurd hzero hmin
  · rw [hc] at hnot
    cases hnot
  · rw [hd] at hnot
    cases hnot
  · rw [hs]
    have hexpected := extended_expected (a := a) h
    refine ⟨_, rfl, rfl, rfl, if_pos ?_, rfl, rfl⟩
    omega

/-- In an open interval of an in-order stream the maximum is the number of the last packet. -/
theorem step_max (h : st.Inv) (hlast : st.minRecvSeqn ≠ 0 → st.maxRecvSeqn < a.number)
    (hmin : (st.step a).minRecvSeqn ≠ 0) : (st.step a).maxRecvSeqn = a.number := by
  rw [step] at hmin ⊢
  rcases statistic_cases h a with ⟨-, -, hs⟩ | ⟨hopen, hc, -⟩ | ⟨hopen, -, -, hs⟩ | ⟨-, -, -, hs⟩
  · rw [hs]
    rfl
  · rw [counts, decide_eq_true (hlast hopen)] at hc
    cases hc
  · rw [hs]
    exact Nat.max_eq_right (Nat.le_of_lt (hlast hopen))
  · rw [hs] at hmin
    exact absurd rfl hmin

theorem InOrder.newer {pre post : List RecvPacket} {a b : RecvPacket}
    (h : InOrder (pre ++ a :: b :: post)) : Newer b.seqnumber a.seqnumber :=
  (List.isChain_append_cons_cons.mp h).2.1

/-- A packet of an in-order stream is above the maximum that it finds. -/
theorem max_lt_of_in_order {ps : List RecvPacket} (hin : InOrder ps) (hwrap : WrapsAtRest ps) :
    ∀ pre a post, ps = pre ++ a :: post → (run pre).minRecvSeqn ≠ 0 →
      (run pre).maxRecvSeqn < a.number := by
  intro pre
  induction pre using List.reverseRecOn with
  | nil => exact fun a post _ hmin => absurd rfl hmin
  | append_singleton pre b ih =>
    intro a post heq hmin
    rw [List.append_assoc, List.singleton_append] at heq
    have hnewer : Newer a.seqnumber b.seqnumber := by
      rw [heq] at hin
      exact hin.newer
    -- a lower number would be a wrap, after which there is no minimum
    have hle : b.number ≤ a.number := by
      refine Nat.le_of_not_lt fun hlt => hmin ?_
      exact hwrap pre b a post heq hlt
    have hne : a.number ≠ b.number := fun h => hnewer.ne (UInt16.toNat_inj.mp h)
    rw [run_concat] at hmin ⊢
    rw [step_max (run_inv pre) (ih b (a :: post) heq) hmin]
    omega

theorem counts_of_lt (h : st.maxRecvSeqn < a.number) : st.counts a = true := by
  rw [counts, decide_eq_true h, Bool.true_or]

/-- A packet with a lower number than the maximum that was not found missing is not counted. -/
theorem counts_zero (h : st.Inv) (hzero : a.number = 0) : st.counts a = false := by
  refine Bool.eq_false_iff.mpr fun hc => ?_
  have hpos := counts_pos h hc
  omega

/-- After a packet that finds no minimum the minimum is the number of that packet. -/
theorem step_of_unset (h : st.Inv) (hmin : st.minRecvSeqn = 0) (a : RecvPacket) :
    (st.step a).minRecvSeqn = a.number ∧ (st.step a).lastTimeOfRecvFractionUpdate =
      (st.touch a.start).lastTimeOfRecvFractionUpdate := by
  rw [step]
  rcases statistic_cases h a with ⟨-, -, hs⟩ | ⟨hset, -⟩ | ⟨hset, -⟩ | ⟨hset, -⟩
  · rw [hs]
    exact ⟨rfl, rfl⟩
  · exact absurd hmin hset
  · exact absurd hmin hset
  · exact absurd hmin hset

/-- In an in-order stream whose wraps fall between two intervals every packet is counted, and a
packet that finds an open interval more than three seconds after the last update records it. -/
theorem counted_of_in_order {ps : List RecvPacket} (hin : InOrder ps) (hwrap : WrapsAtRest ps)
    {pre post : List RecvPacket} {a : RecvPacket} (heq : ps = pre ++ a :: post) :
    (run pre).Counted a ∧
      ((run pre).minRecvSeqn ≠ 0 → (run pre).due a = true → (run pre).Recorded a) := by
  have hlt := max_lt_of_in_order hin hwrap pre a post heq
  refine ⟨?_, ?_⟩
  · rw [counted_iff (run_inv pre)]
    by_cases hmin : (run pre).minRecvSeqn = 0
    · exact .inl hmin
    · exact .inr (counts_of_lt (hlt hmin))
  · exact fun hmin hdue => recorded_of_counts (run_inv pre) hmin (counts_of_lt (hlt hmin)) hdue

/-- Whether a packet is due only depends on the time of the last update, once that is set. -/
theorem due_of_touched {last : Int} (hlast : st.lastTimeOfRecvFractionUpdate = last)
    (hset : last ≠ 0) (hnow : a.now - last > 3000) : st.due a = true := by
  have htouch : (st.touch a.start).lastTimeOfRecvFractionUpdate = last := by
    rw [← hlast] at hset ⊢
    exact if_neg hset
  rw [due, htouch]
  exact decide_eq_true hnow

/-- Three packets in a row, all more than three seconds after the last update, record an
interval: at most two of them find no minimum. -/
theorem recorded_of_three {ps : List RecvPacket} (hin : InOrder ps) (hwrap : WrapsAtRest ps)
    {pre post : List RecvPacket} {a b c : RecvPacket} (heq : ps = pre ++ a :: b :: c :: post)
    (hstart : a.start ≠ 0) (hlate : ∀ p ∈ [a, b, c],
      p.now - ((run pre).touch a.start).lastTimeOfRecvFractionUpdate > 3000) :
    (run pre).Recorded a ∨ (run (pre ++ [a])).Recorded b ∨
      (run (pre ++ [a] ++ [b])).Recorded c := by
  have ha := counted_of_in_order hin hwrap heq
  have heqb : ps = (pre ++ [a]) ++ b :: c :: post := by
    rw [heq, List.append_assoc]
    rfl
  have heqc : ps = (pre ++ [a] ++ [b]) ++ c :: post := by
    rw [heqb, List.append_assoc (pre ++ [a])]
    rfl
  have hb := counted_of_in_order hin hwrap heqb
  have hc := counted_of_in_order hin hwrap heqc
  have hset : ((run pre).touch a.start).lastTimeOfRecvFractionUpdate ≠ 0 := by
    show (if (run pre).lastTimeOfRecvFractionUpdate = 0 then a.start
      else (run pre).lastTimeOfRecvFractionUpdate) ≠ 0
    split
    · exact hstart
    · assumption
  by_cases hmin : (run pre).minRecvSeqn = 0
  · right
    obtain ⟨hmina, hlasta⟩ := step_of_unset (run_inv pre) hmin a
    rw [← run_concat] at hmina hlasta
    by_cases hzero : a.number = 0
    · -- the number zero leaves the minimum unset; the next number is another one
      right
      rw [hzero] at hmina
      obtain ⟨hminb, hlastb⟩ := step_of_unset (run_inv (pre ++ [a])) hmina b
      rw [← run_concat] at hminb hlastb
      have hlast : ((run (pre ++ [a])).touch b.start).lastTimeOfRecvFractionUpdate =
          ((run pre).touch a.start).lastTimeOfRecvFractionUpdate := by
        rw [← hlasta] at hset ⊢
        exact if_neg hset
      have hne : b.number ≠ 0 := by
        rw [heq] at hin
        rw [← hzero]
        exact fun h => hin.newer.ne (UInt16.toNat_inj.mp h)
      refine hc.2 (by rw [hminb]; exact hne) ?_
      exact due_of_touched (hlastb.trans hlast) hset (hlate c (by simp))
    · left
      refine hb.2 (by rw [hmina]; exact hzero) ?_
      exact due_of_touched hlasta hset (hlate b (by simp))
  · left
    exact ha.2 hmin (decide_eq_true (hlate a (by simp)))

/-- After a wrap inside of an interval nothing moves any more: with the largest number as the
maximum and nothing missing, no packet is counted and none closes the interval. -/
theorem stuck (h : st.Inv) (hmax : st.maxRecvSeqn = 65535) (hlost : ∀ x, x ∉ st.lostOfRecvMap)
    (ps : List RecvPacket) :
    Throughout step (fun st a => ¬ st.Counted a ∧ st.closed? a = none) st ps := by
  induction ps generalizing st with
  | nil => trivial
  | cons a ps ih =>
    have hmin : st.minRecvSeqn ≠ 0 := by
      have := h.range
      omega
    have hnot : st.counts a = false := by
      have hlt := number_lt a
      -- no number is above the maximum, and none is found missing
      have hnone : st.lostOfRecvMap[a.number]? = none :=
        Std.TreeMap.getElem?_eq_none (hlost a.number)
      rw [counts, hnone, decide_eq_false (by omega), Bool.and_false]
      rfl
    have hclosed : st.closed? a = none := by
      rw [closed?_eq h, closes, hnot, Bool.and_false]
      rfl
    have hstep : st.step a = st.touch a.start := by
      rw [step]
      rcases statistic_cases h a with ⟨hzero, -⟩ | ⟨-, -, hs⟩ | ⟨-, hc, -⟩ | ⟨-, hc, -⟩
      · exact absurd hzero hmin
      · rw [hs]
      · rw [hnot] at hc
        cases hc
      · rw [hnot] at hc
        cases hc
    refine ⟨⟨?_, hclosed⟩, ?_⟩
    · rw [counted_iff h, hnot]
      simp [hmin]
    · rw [hstep]
      exact ih (h.touch a.start) hmax hlost

/-- A packet after a wrap of a stream without losses has number zero, and no interval that is
open counts it. -/
theorem not_counted_of_wrap {a b : RecvPacket} {pre : List RecvPacket}
    (hnext : b.seqnumber = a.seqnumber + 1) (hlt : b.number < a.number)
    (hmin : (run (pre ++ [a])).minRecvSeqn ≠ 0) : ¬ (run (pre ++ [a])).Counted b := by
  have hzero : b.number = 0 := by
    have ha := number_lt a
    rw [RecvPacket.number, hnext, UInt16.toNat_add] at hlt ⊢
    rw [RecvPacket.number] at hlt ha
    rw [show (1 : UInt16).toNat = 1 from rfl] at hlt ⊢
    omega
  rw [counted_iff (run_inv _), counts_zero (run_inv _) hzero]
  simp [hmin]

end RecvStatistic

namespace RecvStatus

open RecvStatistic (run InOrder Consecutive WrapsAtRest)

/-- The packets of one kind. -/
def packetsOf (isVideo : Bool) (l : List (Bool × RecvPacket)) : List RecvPacket :=
  (l.filter fun p => p.1 = isVideo).map Prod.snd

/-- The statistics of a kind are those of its packets, whatever comes in between. -/
theorem kind_run (l : List (Bool × RecvPacket)) (isVideo : Bool) :
    (l.foldl step {}).kind isVideo = run (packetsOf isVideo l) := by
  induction l using List.reverseRecOn with
  | nil =>
    rcases isVideo with - | -
    · rfl
    · rfl
  | append_singleton l p ih =>
    rw [List.foldl_append, packetsOf, List.filter_append, List.map_append]
    show ((l.foldl step {}).step p).kind isVideo = _
    rw [kind_step, ih]
    split
    · rename_i heq
      rw [List.filter_singleton, decide_eq_true heq]
      exact (RecvStatistic.run_concat _ _).symm
    · rename_i hne
      rw [List.filter_singleton, decide_eq_false hne]
      exact (congrArg run (List.append_nil _)).symm

/-- In every run, for the packets of either kind: if they come in order and every wrap falls
between two intervals, every packet is counted, an interval that a packet finds open more than
three seconds after the last update is recorded, and three packets in a row that come so late
do record one.  A stream without losses is counted only if every wrap falls between two
intervals. -/
theorem recv_in_order (l : List (Bool × RecvPacket)) (isVideo : Bool) :
    (l.foldl step {}).kind isVideo = run (packetsOf isVideo l) ∧
    (InOrder (packetsOf isVideo l) → WrapsAtRest (packetsOf isVideo l) →
      (∀ pre a post, packetsOf isVideo l = pre ++ a :: post → (run pre).Counted a ∧
        ((run pre).minRecvSeqn ≠ 0 → (run pre).due a = true → (run pre).Recorded a)) ∧
      ∀ pre a b c post, packetsOf isVideo l = pre ++ a :: b :: c :: post → a.start ≠ 0 →
        (∀ p ∈ [a, b, c],
          p.now - ((run pre).touch a.start).lastTimeOfRecvFractionUpdate > 3000) →
        (run pre).Recorded a ∨ (run (pre ++ [a])).Recorded b ∨
          (run (pre ++ [a] ++ [b])).Recorded c) ∧
    (Consecutive (packetsOf isVideo l) →
      ((∀ pre a post, packetsOf isVideo l = pre ++ a :: post → (run pre).Counted a) ↔
        WrapsAtRest (packetsOf isVideo l))) := by
  refine ⟨kind_run l isVideo, fun hin hwrap => ⟨?_, ?_⟩, fun hnext => ⟨?_, ?_⟩⟩
  · exact fun pre a post heq => RecvStatistic.counted_of_in_order hin hwrap heq
  · exact fun pre a b c post heq => RecvStatistic.recorded_of_three hin hwrap heq
  · intro hcounted pre a b post heq hlt
    by_contra hmin
    have hb : b.seqnumber = a.seqnumber + 1 := by
      rw [heq] at hnext
      exact (List.isChain_append_cons_cons.mp hnext).2.1
    refine RecvStatistic.not_counted_of_wrap hb hlt hmin (hcounted (pre ++ [a]) b post ?_)
    rw [heq, List.append_assoc]
    rfl
  · intro hwrap pre a post heq
    refine (RecvStatistic.counted_of_in_order (hnext.imp ?_) hwrap heq).1
    intro a b hb
    rw [hb]
    exact newer_succ a.seqnumber

/-- A wrap between two intervals: the last number before it closes the interval. -/
theorem recv_in_order_wrap :
    (run [⟨65534, 1, 1, 1⟩, ⟨65535, 5000, 5000, 5000⟩]).Counted ⟨0, 5001, 5001, 5001⟩ := by
  have hrun := recv_in_order [(true, ⟨65534, 1, 1, 1⟩), (true, ⟨65535, 5000, 5000, 5000⟩),
    (true, ⟨0, 5001, 5001, 5001⟩)] true
  refine (hrun.2.1 ?_ ?_).1 _ _ [] rfl |>.1
  · exact .cons_cons (by decide) (.cons_cons (by decide) (.singleton _))
  · intro pre a b post heq hlt
    have heq : [(⟨65534, 1, 1, 1⟩ : RecvPacket), ⟨65535, 5000, 5000, 5000⟩,
      ⟨0, 5001, 5001, 5001⟩] = pre ++ a :: b :: post := heq
    rcases pre with - | ⟨x, - | ⟨y, pre⟩⟩
    · simp only [List.nil_append, List.cons.injEq] at heq
      obtain ⟨rfl, rfl, -⟩ := heq
      exact absurd hlt (by decide)
    · simp only [List.cons_append, List.nil_append, List.cons.injEq] at heq
      obtain ⟨rfl, rfl, rfl, -⟩ := heq
      decide
    · have hlen := congrArg List.length heq
      simp only [List.length_cons, List.length_append, List.length_nil] at hlen
      omega

/-- A wrap inside of an interval: the packet 0 is in order and comes five seconds later, but is
not counted and closes nothing, nor does any packet after it. -/
theorem recv_dies_at_wrap :
    InOrder [⟨65535, 1, 1, 1⟩, ⟨0, 5000, 5000, 5000⟩] ∧
    ¬ (run [⟨65535, 1, 1, 1⟩]).Counted ⟨0, 5000, 5000, 5000⟩ ∧
    (run [⟨65535, 1, 1, 1⟩]).due ⟨0, 5000, 5000, 5000⟩ = true ∧
    (run [⟨65535, 1, 1, 1⟩]).closed? ⟨0, 5000, 5000, 5000⟩ = none ∧
    ∀ ps, Throughout RecvStatistic.step (fun st a => ¬ st.Counted a ∧ st.closed? a = none)
      (run [⟨65535, 1, 1, 1⟩]) ps := by
  have hstuck := RecvStatistic.stuck (RecvStatistic.run_inv [⟨65535, 1, 1, 1⟩]) (by decide)
    (fun x => Std.TreeMap.not_mem_emptyc)
  have hfirst := (hstuck [⟨0, 5000, 5000, 5000⟩]).1
  exact ⟨.cons_cons (by decide) (.singleton _), hfirst.1, by decide, hfirst.2, hstuck⟩

end RecvStatus

end Orbit
