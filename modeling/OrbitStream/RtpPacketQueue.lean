/-
OrbitStream/RtpPacketQueue.lean

The queue that puts RTP packets in order (`rtp/rtp_packet_queue.{h,cc}`).

`queue_` has the newest packet in front and the oldest one at the back, where packets are
popped and where the queue is cut when it spans too much time.  The comparison of sequence
numbers knows the wrap (`rtpSequenceLessThan_iff`).  The span is divided by the timebase in
`double`; here the quotient is the rational number.

Every order that the numbers agree with is kept by runs of pushes (`pushAll_ordered`).  From
this follow the order in which a window is popped (`drain_in_order`) and that a push keeps
as much as the limit allows (`push_longest`).  `old_filter_iff` says which packets the filter
of `popPacket` drops: the marker of a queue that gave no packet yet is `-1`, which is the
number 65535 in the comparison.
-/
import Mathlib.Algebra.Order.Field.Rat
import Mathlib.Data.List.Induction
import OrbitStream.Lib.Queue
import OrbitStream.Lib.Serial
import OrbitStream.Rtp

namespace Orbit

open Lib

/-- `rtpSequenceLessThan`. -/
def rtpSequenceLessThan (x y : UInt16) : Bool :=
  let diff : Int := y.toNat - x.toNat
  if diff > 0 then diff < 0x8000
  else if diff < 0 then diff < -0x8000
  else false

/-- `RtpPacketQueue`. -/
structure RtpPacketQueue where
  queue : List DataPacket := []
  lastSequenceNumberGiven : Int := -1
  timebase : UInt32 := 0
  depthInSeconds : ℚ
  maxDepthInSeconds : ℚ

namespace RtpPacketQueue

/-- `DEFAULT_DEPTH`. -/
def defaultDepth : ℚ := 3

/-- `DEFAULT_MAX`. -/
def defaultMax : ℚ := 5

/-- The constructor. -/
def new (depthInSeconds maxDepthInSeconds : ℚ) : RtpPacketQueue :=
  if depthInSeconds ≥ maxDepthInSeconds then
    { depthInSeconds := defaultDepth, maxDepthInSeconds := defaultMax }
  else { depthInSeconds, maxDepthInSeconds }

/-- `setTimebase`. -/
def setTimebase (q : RtpPacketQueue) (timebase : UInt32) : RtpPacketQueue := { q with timebase }

/-- The time between two packets, as `getDepthInSeconds` computes it. -/
def span (timebase : UInt32) (newest oldest : DataPacket) : ℚ :=
  (newest.timestamp - oldest.timestamp).toNat / timebase.toNat

/-- `getDepthInSeconds` of a queue. -/
def depthOf (timebase : UInt32) (queue : List DataPacket) : ℚ :=
  match queue.head?, queue.getLast? with
  | some newest, some oldest =>
    if 0 < timebase ∧ 1 < queue.length then span timebase newest oldest else 0
  | _, _ => 0

/-- `getDepthInSeconds`. -/
def getDepthInSeconds (q : RtpPacketQueue) : ℚ := depthOf q.timebase q.queue

/-- The packet is too late, or the one that was given last. -/
def isLate (q : RtpPacketQueue) (seq : UInt16) : Bool :=
  decide (0 ≤ q.lastSequenceNumberGiven ∧
    (rtpSequenceLessThan seq (UInt16.ofInt q.lastSequenceNumberGiven - 50) = true ∨
      (seq.toNat : Int) = q.lastSequenceNumberGiven))

def sameSeq (p packet : DataPacket) : Bool := p.seqNumber == packet.seqNumber

def olderSeq (p packet : DataPacket) : Bool := rtpSequenceLessThan p.seqNumber packet.seqNumber

/-- The loop that looks for the place of a packet; `none` if it is discarded. -/
def insertPacket (packet : DataPacket) (queue : List DataPacket) : Option (List DataPacket) :=
  insertNew sameSeq olderSeq packet queue

/-- The loop that enforces the maximal depth.  With a negative limit the source would pop
from an empty list in the end. -/
def enforceMax (q : RtpPacketQueue) (queue : List DataPacket) : List DataPacket :=
  trimBack (fun queue => decide (q.maxDepthInSeconds < depthOf q.timebase queue)) queue

/-- `pushPacket`. -/
def pushPacket (q : RtpPacketQueue) (packet : DataPacket) : RtpPacketQueue :=
  if q.isLate packet.seqNumber then q
  else { q with queue := q.enforceMax ((insertPacket packet.stored q.queue).getD q.queue) }

/-- `popPacket`. -/
def popPacket (q : RtpPacketQueue) (ignoreDepth ignoreOldPacket : Bool) :
    Option DataPacket × RtpPacketQueue :=
  match q.queue.getLast? with
  | none => (none, q)
  | some packet =>
    if ignoreDepth ∨ q.getDepthInSeconds > q.depthInSeconds then
      if ignoreOldPacket ∧
          rtpSequenceLessThan packet.seqNumber (UInt16.ofInt q.lastSequenceNumberGiven) = true then
        (none, { q with queue := q.queue.dropLast })
      else
        (some packet, { q with
          queue := q.queue.dropLast, lastSequenceNumberGiven := packet.seqNumber.toNat })
    else (none, q)

/-- `getNextPacket`. -/
def getNextPacket (q : RtpPacketQueue) (ignoreDepth : Bool) : Option DataPacket × RtpPacketQueue :=
  match q.queue.getLast? with
  | none => (none, q)
  | some packet =>
    if ignoreDepth ∨ q.getDepthInSeconds > q.depthInSeconds then
      (some packet, { q with lastSequenceNumberGiven := packet.seqNumber.toNat })
    else (none, q)

/-! ### The order of sequence numbers -/

theorem rtpSequenceLessThan_iff {x y : UInt16} : rtpSequenceLessThan x y = true ↔ Newer y x := by
  have hx := x.toNat_lt
  have hy := y.toNat_lt
  rw [Newer, ahead_eq, rtpSequenceLessThan]
  split
  · rw [decide_eq_true_eq]
    omega
  · split
    · rw [decide_eq_true_eq]
      omega
    · simp only [Bool.false_eq_true, false_iff]
      omega

theorem olderSeq_iff {p packet : DataPacket} :
    olderSeq p packet = true ↔ Newer packet.seqNumber p.seqNumber := rtpSequenceLessThan_iff

theorem sameSeq_iff {p packet : DataPacket} :
    sameSeq p packet = true ↔ p.seqNumber = packet.seqNumber := beq_iff_eq

theorem not_newer_of_olderSeq {p packet : DataPacket} (h : olderSeq p packet = false) :
    ¬ Newer packet.seqNumber p.seqNumber := by
  rw [← olderSeq_iff, h]
  exact Bool.false_ne_true

theorem ne_of_sameSeq {p packet : DataPacket} (h : sameSeq p packet = false) :
    p.seqNumber ≠ packet.seqNumber := by
  rw [Ne, ← sameSeq_iff, h]
  exact Bool.false_ne_true

/-! ### The depth -/

section

variable {timebase : UInt32} {queue : List DataPacket}

theorem span_self (p : DataPacket) : span timebase p p = 0 := by
  rw [span, UInt32.sub_self]
  simp

/-- The tests for a timebase and for two packets change nothing. -/
theorem depthOf_eq_span {newest oldest : DataPacket} (hnew : queue.head? = some newest)
    (hold : queue.getLast? = some oldest) : depthOf timebase queue = span timebase newest oldest := by
  rw [depthOf, hnew, hold]
  show (if 0 < timebase ∧ 1 < queue.length then span timebase newest oldest else 0) = _
  by_cases htb : 0 < timebase
  · by_cases hlen : 1 < queue.length
    · rw [if_pos ⟨htb, hlen⟩]
    · -- the only packet is the newest and the oldest one
      rw [if_neg fun h => hlen h.2]
      rcases queue with - | ⟨p, - | ⟨r, queue⟩⟩
      · cases hnew
      · have hp : p = newest := Option.some.inj hnew
        have hp' : p = oldest := Option.some.inj hold
        rw [← hp, ← hp', span_self]
      · exact absurd (show 1 < queue.length + 2 by omega) hlen
  · have hzero : timebase = 0 := by
      apply UInt32.toNat_inj.mp
      rw [UInt32.lt_iff_toNat_lt] at htb
      exact Nat.eq_zero_of_not_pos htb
    rw [if_neg fun h => htb h.1, hzero, span]
    simp

/-- The time between the ends of the queue is within the limit. -/
def InDepth (timebase : UInt32) (max : ℚ) (queue : List DataPacket) : Prop :=
  ∀ newest ∈ queue.head?, ∀ oldest ∈ queue.getLast?, span timebase newest oldest ≤ max

theorem inDepth_iff {max : ℚ} :
    InDepth timebase max queue ↔ (queue ≠ [] → depthOf timebase queue ≤ max) := by
  rcases queue with - | ⟨p, queue⟩
  · exact ⟨fun _ h => absurd rfl h, fun _ _ h => absurd h (Option.not_mem_none _)⟩
  have hold := List.getLast?_eq_some_getLast (List.cons_ne_nil p queue)
  rw [depthOf_eq_span rfl hold]
  constructor
  · exact fun h _ => h p rfl _ hold
  · intro h newest hnew oldest hold'
    obtain rfl := Option.mem_some.mp hnew
    rw [hold] at hold'
    obtain rfl := Option.mem_some.mp hold'
    exact h (List.cons_ne_nil p queue)

/-- The queue is cut no more than the limit asks for. -/
theorem enforceMax_longest (q : RtpPacketQueue) (queue : List DataPacket) :
    Longest (InDepth q.timebase q.maxDepthInSeconds) queue (q.enforceMax queue) := by
  apply (trimBack_longest _ queue).congr
  intro k _
  rw [inDepth_iff]
  simp

end

/-! ### Draining -/

/-- `popPacket(true)` until there is no packet. -/
def drain (q : RtpPacketQueue) : List DataPacket :=
  match _h : q.popPacket true false with
  | (none, _) => []
  | (some packet, q') => packet :: q'.drain
termination_by q.queue.length
decreasing_by
  have h := _h
  rw [popPacket] at h
  rcases hlast : q.queue.getLast? with - | oldest
  · rw [hlast] at h
    cases h
  · have hne : q.queue ≠ [] := by
      intro hnil
      rw [hnil] at hlast
      cases hlast
    rw [hlast] at h
    simp only [Bool.false_eq_true, false_and, true_or, if_true, if_false, Prod.mk.injEq] at h
    rw [← h.2]
    show q.queue.dropLast.length < q.queue.length
    rw [List.length_dropLast]
    exact Nat.sub_one_lt (List.length_pos_iff.mpr hne).ne'

/-- The packets come from the back. -/
theorem drain_eq (q : RtpPacketQueue) : q.drain = q.queue.reverse := by
  obtain ⟨queue, last, timebase, depth, max⟩ := q
  induction queue using List.reverseRecOn generalizing last with
  | nil =>
    rw [drain]
    rfl
  | append_singleton queue p ih =>
    have hpop : (RtpPacketQueue.mk (queue ++ [p]) last timebase depth max).popPacket true false =
        (some p, RtpPacketQueue.mk queue p.seqNumber.toNat timebase depth max) := by
      rw [popPacket]
      simp
    rw [drain]
    split
    · next h =>
      rw [hpop] at h
      cases h
    · next h =>
      rw [hpop] at h
      cases h
      rw [ih, List.reverse_concat]

/-! ### Runs of pushes -/

/-- A fresh queue after a run of pushes. -/
def pushAll (depth max : ℚ) (timebase : UInt32) (ps : List RtpPacket) : RtpPacketQueue :=
  ps.foldl (fun q p => q.pushPacket p.toDataPacket) ((new depth max).setTimebase timebase)

theorem pushAll_concat (depth max : ℚ) (timebase : UInt32) (ps : List RtpPacket) (p : RtpPacket) :
    pushAll depth max timebase (ps ++ [p]) =
      (pushAll depth max timebase ps).pushPacket p.toDataPacket := by
  rw [pushAll, List.foldl_append]
  rfl

section

variable {q : RtpPacketQueue} {p : RtpPacket}

/-- No packet is late before one was given. -/
theorem pushPacket_eq (hlast : q.lastSequenceNumberGiven = -1) :
    q.pushPacket p.toDataPacket = { q with
      queue := q.enforceMax ((insertPacket p.toDataPacket q.queue).getD q.queue) } := by
  have hlate : q.isLate p.seqNumber = false := by
    rw [isLate, hlast]
    rfl
  rw [pushPacket, hlate, p.stored_eq]
  rfl

end

theorem new_queue (depth max : ℚ) : (new depth max).queue = [] := by
  unfold new
  split
  · rfl
  · rfl

theorem new_last (depth max : ℚ) : (new depth max).lastSequenceNumberGiven = -1 := by
  unfold new
  split
  · rfl
  · rfl

/-- What a run of pushes on a fresh queue leaves alone. -/
structure Fresh (depth max : ℚ) (timebase : UInt32) (q : RtpPacketQueue) : Prop where
  last : q.lastSequenceNumberGiven = -1
  timebase : q.timebase = timebase
  max : q.maxDepthInSeconds = (new depth max).maxDepthInSeconds

theorem pushAll_frame (depth max : ℚ) (timebase : UInt32) (ps : List RtpPacket) :
    Fresh depth max timebase (pushAll depth max timebase ps) := by
  induction ps using List.reverseRecOn with
  | nil => exact ⟨new_last depth max, rfl, rfl⟩
  | append_singleton ps p ih =>
    rw [pushAll_concat, pushPacket_eq ih.last]
    exact ⟨ih.last, ih.timebase, ih.max⟩

/-- One more push: the packet is inserted and the queue is cut. -/
theorem pushAll_cut (depth max : ℚ) (timebase : UInt32) (ps : List RtpPacket) (p : RtpPacket) :
    Longest (InDepth timebase (new depth max).maxDepthInSeconds)
      ((insertPacket p.toDataPacket (pushAll depth max timebase ps).queue).getD
        (pushAll depth max timebase ps).queue)
      (pushAll depth max timebase (ps ++ [p])).queue := by
  have hq := pushAll_frame depth max timebase ps
  have hcut := enforceMax_longest (pushAll depth max timebase ps)
    ((insertPacket p.toDataPacket (pushAll depth max timebase ps).queue).getD
      (pushAll depth max timebase ps).queue)
  rw [hq.timebase, hq.max] at hcut
  rw [pushAll_concat, pushPacket_eq hq.last]
  exact hcut

/-! ### Order -/

/-- An order of packets that their numbers agree with, newest first. -/
structure Agrees (R : DataPacket → DataPacket → Prop) (ps : List RtpPacket) : Prop where
  trans : ∀ a b c, R a b → R b c → R a c
  rel : ∀ p ∈ ps, ∀ r ∈ ps, p.seqNumber ≠ r.seqNumber → ¬ Newer r.seqNumber p.seqNumber →
    R p.toDataPacket r.toDataPacket

/-- The queue holds pushed packets, in order. -/
structure Ordered (R : DataPacket → DataPacket → Prop) (ps : List RtpPacket)
    (queue : List DataPacket) : Prop where
  ordered : queue.Pairwise R
  pushed : ∀ p ∈ queue, ∃ r ∈ ps, r.toDataPacket = p

section

variable {R : DataPacket → DataPacket → Prop} {ps : List RtpPacket} {queue : List DataPacket}
  {p : RtpPacket}

theorem Agrees.left {rs : List RtpPacket} (h : Agrees R (ps ++ rs)) : Agrees R ps :=
  ⟨h.trans, fun p hp r hr => h.rel p (List.mem_append_left rs hp) r (List.mem_append_left rs hr)⟩

theorem Ordered.start {queue' : List DataPacket} (h : Ordered R ps queue)
    (hstart : queue' <+: queue) : Ordered R ps queue' :=
  ⟨h.ordered.sublist hstart.sublist, fun p hp => h.pushed p (hstart.subset hp)⟩

theorem Ordered.insert (hR : Agrees R (ps ++ [p])) (h : Ordered R ps queue) :
    Ordered R (ps ++ [p]) ((insertPacket p.toDataPacket queue).getD queue) := by
  have hp : p ∈ ps ++ [p] := List.mem_concat_self
  have hqueue : ∀ y ∈ queue, ∃ r ∈ ps ++ [p], r.toDataPacket = y := by
    intro y hy
    obtain ⟨r, hr, hry⟩ := h.pushed y hy
    exact ⟨r, List.mem_append_left [p] hr, hry⟩
  rcases hins : insertPacket p.toDataPacket queue with - | queue'
  · exact ⟨h.ordered, hqueue⟩
  rw [insertPacket] at hins
  refine ⟨pairwise_insertNew hR.trans ?_ ?_ h.ordered hins, ?_⟩
  · intro y hy hsame holder
    obtain ⟨r, hr, rfl⟩ := hqueue y hy
    exact hR.rel r hr p hp (ne_of_sameSeq hsame) (not_newer_of_olderSeq holder)
  · intro y hy hsame holder
    obtain ⟨r, hr, rfl⟩ := hqueue y hy
    exact hR.rel p hp r hr (ne_of_sameSeq hsame).symm (olderSeq_iff.mp holder).not_newer
  · intro y hy
    rcases (mem_of_insertNew hins).mp hy with rfl | hy
    · exact ⟨p, hp, rfl⟩
    · exact hqueue y hy

/-- Every queue that pushes can lead to is in order. -/
theorem pushAll_ordered (depth max : ℚ) (timebase : UInt32) (hR : Agrees R ps) :
    Ordered R ps (pushAll depth max timebase ps).queue := by
  induction ps using List.reverseRecOn with
  | nil =>
    have hnil : (pushAll depth max timebase []).queue = [] :=
      new_queue depth max
    rw [hnil]
    exact ⟨List.Pairwise.nil, fun p hp => absurd hp List.not_mem_nil⟩
  | append_singleton ps p ih =>
    have hins := (ih hR.left).insert hR
    exact hins.start (pushAll_cut depth max timebase ps p).start

end

/-! ### Draining a window -/

/-- No two packets of a run lie further apart than the limit. -/
def WithinDepth (timebase : UInt32) (max : ℚ) (ps : List RtpPacket) : Prop :=
  ∀ p ∈ ps, ∀ r ∈ ps, p = r ∨ Newer p.seqNumber r.seqNumber →
    span timebase p.toDataPacket r.toDataPacket ≤ max

/-- Further from the start of a window. -/
def Ahead (base : UInt16) (a b : DataPacket) : Prop :=
  ahead b.seqNumber base < ahead a.seqNumber base

section

variable {base : UInt16} {ps : List RtpPacket} {queue : List DataPacket} {p : RtpPacket}

theorem agrees_ahead (hwindow : ∀ p ∈ ps, ahead p.seqNumber base < 2 ^ 15) :
    Agrees (Ahead base) ps := by
  refine ⟨fun a b c hab hbc => Nat.lt_trans hbc hab, ?_⟩
  intro p hp r hr hne hnot
  rw [newer_iff_window (hwindow r hr) (hwindow p hp)] at hnot
  exact Nat.lt_of_le_of_ne (Nat.le_of_not_lt hnot) fun heq => hne (ahead_inj.mp heq).symm

theorem Ordered.newer (h : Ordered (Ahead base) ps queue)
    (hwindow : ∀ p ∈ ps, ahead p.seqNumber base < 2 ^ 15) :
    queue.Pairwise fun a b => Newer a.seqNumber b.seqNumber := by
  apply h.ordered.imp_of_mem
  intro a b ha hb hab
  obtain ⟨r, hr, rfl⟩ := h.pushed a ha
  obtain ⟨t, ht, rfl⟩ := h.pushed b hb
  exact (newer_iff_window (hwindow r hr) (hwindow t ht)).mpr hab

theorem Ordered.inDepth {timebase : UInt32} {max : ℚ} (h : Ordered (Ahead base) ps queue)
    (hwindow : ∀ r ∈ ps, ahead r.seqNumber base < 2 ^ 15) (hdepth : WithinDepth timebase max ps) :
    InDepth timebase max queue := by
  intro newest hnew oldest hold
  obtain ⟨r, hr, hrnew⟩ := h.pushed newest (List.mem_of_head? hnew)
  obtain ⟨t, ht, htold⟩ := h.pushed oldest (List.mem_of_getLast? hold)
  rcases rel_head_last (h.newer hwindow) hnew hold with heq | hlt
  · rw [← heq, ← hrnew]
    exact hdepth r hr r hr (Or.inl rfl)
  · rw [← hrnew, ← htold] at hlt ⊢
    exact hdepth r hr t ht (Or.inr hlt)

/-- The number of a packet is in the queue that it was given to, kept or not. -/
theorem insertPacket_number {n : UInt16}
    (h : p.seqNumber = n ∨ ∃ y ∈ queue, y.seqNumber = n) :
    ∃ y ∈ (insertPacket p.toDataPacket queue).getD queue, y.seqNumber = n := by
  rcases hins : insertPacket p.toDataPacket queue with - | queue'
  · rcases h with rfl | hn
    · obtain ⟨y, hy, hsame⟩ := insertNew_none hins
      exact ⟨y, hy, sameSeq_iff.mp hsame⟩
    · exact hn
  · rcases h with hn | ⟨y, hy, hn⟩
    · exact ⟨p.toDataPacket, (mem_of_insertNew hins).mpr (Or.inl rfl), hn⟩
    · exact ⟨y, (mem_of_insertNew hins).mpr (Or.inr hy), hn⟩

/-- A run in one window, with packets that lie within the limit, loses no number. -/
theorem pushAll_complete (depth max : ℚ) (timebase : UInt32)
    (hwindow : ∀ p ∈ ps, ahead p.seqNumber base < 2 ^ 15)
    (hdepth : WithinDepth timebase (new depth max).maxDepthInSeconds ps) :
    ∀ r ∈ ps, ∃ p ∈ (pushAll depth max timebase ps).queue, p.seqNumber = r.seqNumber := by
  induction ps using List.reverseRecOn with
  | nil => exact fun r hr => absurd hr List.not_mem_nil
  | append_singleton ps p ih =>
    have hleft : ∀ r ∈ ps, r ∈ ps ++ [p] := fun r hr => List.mem_append_left [p] hr
    have hR := agrees_ahead hwindow
    have hins := (pushAll_ordered depth max timebase hR.left).insert hR
    have hps := ih (fun r hr => hwindow r (hleft r hr))
      fun r hr t ht => hdepth r (hleft r hr) t (hleft t ht)
    -- the queue is not cut
    rw [(pushAll_cut depth max timebase ps p).eq_of_whole (hins.inDepth hwindow hdepth)]
    intro r hr
    apply insertPacket_number
    rcases List.mem_append.mp hr with hr | hr
    · exact Or.inr (hps r hr)
    · obtain rfl := List.mem_singleton.mp hr
      exact Or.inl rfl

end

/-- In whatever order the packets of one window come, each number is popped once and the
oldest first. -/
theorem drain_in_order (depth max : ℚ) (timebase : UInt32) (base : UInt16) (ps : List RtpPacket)
    (hwindow : ∀ p ∈ ps, ahead p.seqNumber base < 2 ^ 15)
    (hdepth : WithinDepth timebase (new depth max).maxDepthInSeconds ps) :
    let popped := (pushAll depth max timebase ps).drain.map DataPacket.seqNumber
    popped.Pairwise (fun a b => Newer b a) ∧ popped.Nodup ∧
      ∀ n, n ∈ popped ↔ ∃ p ∈ ps, p.seqNumber = n := by
  intro popped
  have h := pushAll_ordered depth max timebase (agrees_ahead hwindow)
  have hpopped : popped = ((pushAll depth max timebase ps).queue.map
      DataPacket.seqNumber).reverse := by
    rw [← List.map_reverse, ← drain_eq]
  have horder : popped.Pairwise fun a b => Newer b a := by
    rw [hpopped, List.pairwise_reverse, List.pairwise_map]
    exact h.newer hwindow
  refine ⟨horder, horder.imp fun hab => hab.ne.symm, ?_⟩
  intro n
  rw [hpopped, List.mem_reverse, List.mem_map]
  constructor
  · rintro ⟨p, hp, rfl⟩
    obtain ⟨r, hr, rfl⟩ := h.pushed p hp
    exact ⟨r, hr, rfl⟩
  · rintro ⟨r, hr, rfl⟩
    exact pushAll_complete depth max timebase hwindow hdepth r hr

/-- Numbers around the wrap, one of them twice. -/
def aroundWrap : List RtpPacket :=
  [.ofHeader 1 5000, .ofHeader 65534 1000, .ofHeader 0 4000, .ofHeader 65535 2000, .ofHeader 0 4000]

theorem drain_around_wrap :
    (∀ p ∈ aroundWrap, ahead p.seqNumber 65534 < 2 ^ 15) ∧ WithinDepth 1000 5 aroundWrap ∧
      (((pushAll 3 5 1000 aroundWrap).drain.map DataPacket.seqNumber).Pairwise
        fun a b => Newer b a) := by
  have hwindow : ∀ p ∈ aroundWrap, ahead p.seqNumber 65534 < 2 ^ 15 := by decide
  have hspan : ∀ p ∈ aroundWrap, ∀ r ∈ aroundWrap,
      p.data = r.data ∨ Newer p.seqNumber r.seqNumber →
        span 1000 p.toDataPacket r.toDataPacket ≤ (new 3 5).maxDepthInSeconds := by decide +kernel
  have hdepth : WithinDepth 1000 (new 3 5).maxDepthInSeconds aroundWrap := by
    intro p hp r hr h
    exact hspan p hp r hr (h.imp_left fun hpr => congrArg (fun r : RtpPacket => r.data) hpr)
  exact ⟨hwindow, hdepth, (drain_in_order 3 5 1000 65534 aroundWrap hwindow hdepth).1⟩

/-! ### The limit of the depth -/

/-- The time of a packet, counted from `t0`. -/
def offset (t0 : UInt32) (p : DataPacket) : Nat := (p.timestamp - t0).toNat

/-- The packets of a run go up in time with their numbers.  Numbers that are half of the
circle apart are on no side of each other. -/
def GoesUp (t0 : UInt32) (ps : List RtpPacket) : Prop :=
  ∀ p ∈ ps, ∀ r ∈ ps, p.seqNumber ≠ r.seqNumber → ¬ Newer r.seqNumber p.seqNumber →
    offset t0 r.toDataPacket ≤ offset t0 p.toDataPacket

/-- The time from the oldest packet to the newest one is within the limit. -/
def InTime (t0 timebase : UInt32) (max : ℚ) (queue : List DataPacket) : Prop :=
  ∀ newest ∈ queue.head?, ∀ oldest ∈ queue.getLast?,
    ((offset t0 newest : ℚ) - offset t0 oldest) / timebase.toNat ≤ max

section

variable {t0 : UInt32}

theorem agrees_offset {ps : List RtpPacket} (h : GoesUp t0 ps) :
    Agrees (fun a b => offset t0 b ≤ offset t0 a) ps :=
  ⟨fun _ _ _ hab hbc => Nat.le_trans hbc hab, h⟩

/-- The difference modulo `2 ^ 32` is the time between the two. -/
theorem span_eq {timebase : UInt32} {newest oldest : DataPacket}
    (h : offset t0 oldest ≤ offset t0 newest) : span timebase newest oldest =
      ((offset t0 newest : ℚ) - offset t0 oldest) / timebase.toNat := by
  have hdiff : (newest.timestamp - oldest.timestamp).toNat = offset t0 newest - offset t0 oldest := by
    have h0 := t0.toNat_lt
    have hnew := newest.timestamp.toNat_lt
    have hold := oldest.timestamp.toNat_lt
    simp only [offset, UInt32.toNat_sub] at h ⊢
    omega
  rw [span, hdiff, Nat.cast_sub h]

theorem inDepth_iff_inTime {timebase : UInt32} {max : ℚ} {queue : List DataPacket}
    (h : queue.Pairwise fun a b => offset t0 b ≤ offset t0 a) :
    InDepth timebase max queue ↔ InTime t0 timebase max queue := by
  have hends : ∀ newest ∈ queue.head?, ∀ oldest ∈ queue.getLast?, span timebase newest oldest =
      ((offset t0 newest : ℚ) - offset t0 oldest) / timebase.toNat := by
    intro newest hnew oldest hold
    apply span_eq
    rcases rel_head_last h hnew hold with rfl | hle
    · exact Nat.le_refl _
    · exact hle
  constructor
  · intro hdepth newest hnew oldest hold
    rw [← hends newest hnew oldest hold]
    exact hdepth newest hnew oldest hold
  · intro htime newest hnew oldest hold
    rw [hends newest hnew oldest hold]
    exact htime newest hnew oldest hold

end

/-- A packet that is kept is put between the packets that are not older and those that are,
and what stays is the longest part from the newest packet on within the limit.  When the
packets go up in time with their numbers, they are in the order of time and the limit is on
the time from the oldest to the newest.  About the source this speaks for `0 ≤ max`: under a
limit below zero its loop does not stop at the empty list. -/
theorem push_longest (depth max : ℚ) (timebase : UInt32) (ps : List RtpPacket) (packet : RtpPacket)
    (queue : List DataPacket)
    (hkept : insertPacket packet.toDataPacket (pushAll depth max timebase ps).queue = some queue) :
    (∃ front back, (pushAll depth max timebase ps).queue = front ++ back ∧
      queue = front ++ packet.toDataPacket :: back ∧
      (∀ p ∈ front, p.seqNumber ≠ packet.seqNumber ∧ ¬ Newer packet.seqNumber p.seqNumber) ∧
      ∀ p ∈ back.head?, Newer packet.seqNumber p.seqNumber) ∧
    Longest (InDepth timebase (new depth max).maxDepthInSeconds) queue
      (pushAll depth max timebase (ps ++ [packet])).queue ∧
    ∀ t0, GoesUp t0 (ps ++ [packet]) →
      queue.Pairwise (fun a b => offset t0 b ≤ offset t0 a) ∧
      Longest (InTime t0 timebase (new depth max).maxDepthInSeconds) queue
        (pushAll depth max timebase (ps ++ [packet])).queue := by
  have hcut := pushAll_cut depth max timebase ps packet
  rw [hkept, Option.getD_some] at hcut
  refine ⟨?_, hcut, ?_⟩
  · obtain ⟨front, back, hold, hnew, hfront, hback⟩ := insertNew_some hkept
    refine ⟨front, back, hold, hnew, ?_, ?_⟩
    · exact fun p hp => ⟨ne_of_sameSeq (hfront p hp).1, not_newer_of_olderSeq (hfront p hp).2⟩
    · exact fun p hp => olderSeq_iff.mp (hback p hp).2
  · intro t0 ht
    have hR := agrees_offset ht
    have hins := (pushAll_ordered depth max timebase hR.left).insert hR
    rw [hkept] at hins
    refine ⟨hins.ordered, hcut.congr ?_⟩
    intro k hk
    exact inDepth_iff_inTime (hins.start hk).ordered

/-- Six seconds, where five are allowed. -/
theorem push_longest_of_six :
    insertPacket (RtpPacket.ofHeader 3 2000).toDataPacket
        (pushAll 3 5 1000 [.ofHeader 1 4294963296, .ofHeader 2 0]).queue =
          some [(RtpPacket.ofHeader 3 2000).toDataPacket, (RtpPacket.ofHeader 2 0).toDataPacket,
            (RtpPacket.ofHeader 1 4294963296).toDataPacket] ∧
      Longest (InTime 4294963296 1000 5)
        [(RtpPacket.ofHeader 3 2000).toDataPacket, (RtpPacket.ofHeader 2 0).toDataPacket,
          (RtpPacket.ofHeader 1 4294963296).toDataPacket]
        (pushAll 3 5 1000 [.ofHeader 1 4294963296, .ofHeader 2 0, .ofHeader 3 2000]).queue := by
  have hkept : insertPacket (RtpPacket.ofHeader 3 2000).toDataPacket
      (pushAll 3 5 1000 [.ofHeader 1 4294963296, .ofHeader 2 0]).queue =
        some [(RtpPacket.ofHeader 3 2000).toDataPacket, (RtpPacket.ofHeader 2 0).toDataPacket,
          (RtpPacket.ofHeader 1 4294963296).toDataPacket] := by decide +kernel
  have ht : GoesUp 4294963296
      ([.ofHeader 1 4294963296, .ofHeader 2 0] ++ [.ofHeader 3 2000]) := by
    unfold GoesUp
    decide +kernel
  exact ⟨hkept, ((push_longest 3 5 1000 _ _ _ hkept).2.2 4294963296 ht).2⟩

/-! ### The filter for old packets -/

/-- What can be done with a queue. -/
inductive Op
  | setTimebase (timebase : UInt32)
  | pushPacket (packet : RtpPacket)
  | popPacket (ignoreDepth ignoreOldPacket : Bool)
  | getNextPacket (ignoreDepth : Bool)

/-- One call; the packets that were given out are collected. -/
def step (s : RtpPacketQueue × List DataPacket) : Op → RtpPacketQueue × List DataPacket
  | .setTimebase timebase => (s.1.setTimebase timebase, s.2)
  | .pushPacket packet => (s.1.pushPacket packet.toDataPacket, s.2)
  | .popPacket ignoreDepth ignoreOldPacket =>
    let out := s.1.popPacket ignoreDepth ignoreOldPacket
    (out.2, s.2 ++ out.1.toList)
  | .getNextPacket ignoreDepth =>
    let out := s.1.getNextPacket ignoreDepth
    (out.2, s.2 ++ out.1.toList)

/-- The calls on a fresh queue. -/
def run (depth max : ℚ) (ops : List Op) : RtpPacketQueue × List DataPacket :=
  ops.foldl step (new depth max, [])

/-- The marker of a queue that gave these packets. -/
def marker (given : List DataPacket) : Int :=
  given.getLast?.elim (-1) fun packet => packet.seqNumber.toNat

theorem marker_append (given : List DataPacket) (out : Option DataPacket) :
    marker (given ++ out.toList) = out.elim (marker given) fun packet => packet.seqNumber.toNat := by
  rcases out with - | packet
  · rw [Option.toList_none, List.append_nil]
    rfl
  · rw [marker, Option.toList_some, List.getLast?_concat]
    rfl

theorem pushPacket_last (q : RtpPacketQueue) (packet : DataPacket) :
    (q.pushPacket packet).lastSequenceNumberGiven = q.lastSequenceNumberGiven := by
  unfold pushPacket
  split
  · rfl
  · rfl

theorem popPacket_last (q : RtpPacketQueue) (ignoreDepth ignoreOldPacket : Bool) :
    (q.popPacket ignoreDepth ignoreOldPacket).2.lastSequenceNumberGiven =
      (q.popPacket ignoreDepth ignoreOldPacket).1.elim q.lastSequenceNumberGiven
        fun packet => packet.seqNumber.toNat := by
  unfold popPacket
  rcases q.queue.getLast? with - | packet
  · rfl
  dsimp only
  split_ifs
  · rfl
  · rfl
  · rfl

theorem getNextPacket_last (q : RtpPacketQueue) (ignoreDepth : Bool) :
    (q.getNextPacket ignoreDepth).2.lastSequenceNumberGiven =
      (q.getNextPacket ignoreDepth).1.elim q.lastSequenceNumberGiven
        fun packet => packet.seqNumber.toNat := by
  unfold getNextPacket
  rcases q.queue.getLast? with - | packet
  · rfl
  dsimp only
  split_ifs
  · rfl
  · rfl

theorem run_concat (depth max : ℚ) (ops : List Op) (op : Op) :
    run depth max (ops ++ [op]) = step (run depth max ops) op := by
  rw [run, List.foldl_append]
  rfl

/-- The marker is the number of the packet that was given last. -/
theorem run_last (depth max : ℚ) (ops : List Op) :
    (run depth max ops).1.lastSequenceNumberGiven = marker (run depth max ops).2 := by
  induction ops using List.reverseRecOn with
  | nil => exact new_last depth max
  | append_singleton ops op ih =>
    rw [run_concat]
    cases op with
    | setTimebase timebase => exact ih
    | pushPacket packet => exact (pushPacket_last _ _).trans ih
    | popPacket ignoreDepth ignoreOldPacket =>
      rw [step, marker_append, ← ih]
      exact popPacket_last _ ignoreDepth ignoreOldPacket
    | getNextPacket ignoreDepth =>
      rw [step, marker_append, ← ih]
      exact getNextPacket_last _ ignoreDepth

/-- The filter compares with the marker, whether or not a packet was given. -/
theorem popPacket_filtered {q : RtpPacketQueue} {packet : DataPacket}
    (hlast : q.queue.getLast? = some packet) : (q.popPacket true true).1 = none ↔
      Newer (UInt16.ofInt q.lastSequenceNumberGiven) packet.seqNumber := by
  rw [← rtpSequenceLessThan_iff, popPacket, hlast]
  dsimp only
  rw [if_pos (Or.inl rfl)]
  split_ifs with h
  · exact ⟨fun _ => h.2, fun _ => rfl⟩
  · exact ⟨fun hnone => hnone.elim, fun hold => absurd ⟨rfl, hold⟩ h⟩

theorem ofInt_toNat (n : UInt16) : UInt16.ofInt n.toNat = n := by
  have hn := n.toNat_lt
  apply UInt16.toNat_inj.mp
  rw [UInt16.ofInt, UInt16.toNat_ofNat']
  omega

theorem newer_minus_one {n : UInt16} :
    Newer (UInt16.ofInt (-1)) n ↔ 32768 ≤ n.toNat ∧ n.toNat ≤ 65534 := by
  have hn := n.toNat_lt
  have hone : (UInt16.ofInt (-1)).toNat = 65535 := rfl
  rw [Newer, ahead_eq, hone]
  omega

/-- An old packet is filtered out and no other one, except that before any packet was given
the marker is a number too: then the upper half of the numbers counts as old. -/
theorem old_filter_iff (depth max : ℚ) (ops : List Op) (packet : DataPacket)
    (hlast : (run depth max ops).1.queue.getLast? = some packet) :
    ((((run depth max ops).1.popPacket true true).1 = none) ↔
        ∃ given, (run depth max ops).2.getLast? = some given ∧
          Newer given.seqNumber packet.seqNumber) ↔
      ((run depth max ops).2 ≠ [] ∨
        ¬ (32768 ≤ packet.seqNumber.toNat ∧ packet.seqNumber.toNat ≤ 65534)) := by
  rw [popPacket_filtered hlast, run_last]
  rcases hgiven : (run depth max ops).2.getLast? with - | given
  · have hnil := List.getLast?_eq_none_iff.mp hgiven
    rw [hnil]
    show (Newer (UInt16.ofInt (-1)) packet.seqNumber ↔ _) ↔ _
    rw [newer_minus_one]
    simp
  · have hne : (run depth max ops).2 ≠ [] := by
      intro hnil
      rw [hnil] at hgiven
      cases hgiven
    have hmark : UInt16.ofInt (marker (run depth max ops).2) = given.seqNumber := by
      rw [marker, hgiven]
      exact ofInt_toNat given.seqNumber
    rw [hmark]
    simp [hne]


/-- A late packet. -/
def lateOps : List Op :=
  [.pushPacket (.ofHeader 40000 0), .popPacket true false, .pushPacket (.ofHeader 39990 0)]

theorem old_filter_after_40000 :
    (run 3 5 lateOps).1.queue.getLast? =
          some (RtpPacket.ofHeader 39990 0).toDataPacket ∧
      ((run 3 5 lateOps).1.popPacket true true).1 = none := by
  have hlast : (run 3 5 lateOps).1.queue.getLast? =
        some (RtpPacket.ofHeader 39990 0).toDataPacket := by decide +kernel
  have hgiven : (run 3 5 lateOps).2 = [(RtpPacket.ofHeader 40000 0).toDataPacket] := by
    decide +kernel
  refine ⟨hlast, ((old_filter_iff 3 5 _ _ hlast).mpr (Or.inl ?_)).mpr ?_⟩
  · rw [hgiven]
    exact List.cons_ne_nil _ _
  · rw [hgiven]
    exact ⟨_, rfl, by decide⟩

/-- The first packet of a stream is thrown away. -/
theorem first_packet_is_filtered :
    (run 3 5 [.pushPacket (.ofHeader 40000 0)]).1.queue.getLast? =
        some (RtpPacket.ofHeader 40000 0).toDataPacket ∧
      ¬ (((run 3 5 [.pushPacket (.ofHeader 40000 0)]).1.popPacket true true).1 = none ↔
        ∃ given, (run 3 5 [.pushPacket (.ofHeader 40000 0)]).2.getLast? = some given ∧
          Newer given.seqNumber (RtpPacket.ofHeader 40000 0).seqNumber) := by
  have hpop : ((run 3 5 [.pushPacket (.ofHeader 40000 0)]).1.popPacket true true).1 = none := by
    decide +kernel
  have hgiven : (run 3 5 [.pushPacket (.ofHeader 40000 0)]).2 = [] := by decide +kernel
  refine ⟨by decide +kernel, ?_⟩
  intro h
  obtain ⟨given, hlast, -⟩ := h.mp hpop
  rw [hgiven] at hlast
  cases hlast

end RtpPacketQueue

end Orbit
