/-
OrbitStream/StreamRecorder.lean

The recorder of one stream (`modules/stream_recorder_element.{h,cc}`).

The packets of each track wait in a `RtpPacketBuffer`, which holds a hundred packets of audio
and sixty of video.  One that is more is popped, stamped, and given to the source element of
the track (`Track.pushed`); when the recorder is deleted the buffers are emptied.  Audio is not
taken before the first packet of video came, and video not if it does not parse.  The flags
`use_push_mode` and `use_ntp_time` have their default values, that is both are set.

`recorded_in_order` says that nothing else is dropped and nothing is doubled, whatever the
order of the packets is, and when the packets of a track come out in the order in which they
were sent, with sequence numbers that wrap.  The stamps follow the sender's clock within a
track; the two tracks are in step only if their first packets were taken as far apart as they
were sent (`in_step_iff`).
-/
import Mathlib.Data.List.TakeWhile
import OrbitStream.Lib.Reorder
import OrbitStream.RtcpDispatch
import OrbitStream.RtpPacketBuffer

namespace Orbit.StreamRecorder

open Lib

/-- `dataPacket`, with what the recording keeps of it.  The buffer has 1500 bytes. -/
structure MediaPacket extends RtpPacket where
  type : Rtcp.PacketType
  remoteNtpTimeMs : Int := -1
  length_le : length ≤ 1500

/-- `dataPacketComparator` -/
def after (p q : MediaPacket) : Bool := dataPacketComparator p.toDataPacket q.toDataPacket

/-- `IsValidVideoPacket`: the payload parses. -/
def isValidVideoPacket (parse : Depacketizer) (p : MediaPacket) : Bool :=
  (parse (RtpHeader.getPayloadType p.data) ((p.data.drop 12).take (p.length - 12))).isSome

/-! ### A track -/

/-- `JITTER_TIME` -/
def jitterTime : Int := 0

/-- One track: the vector behind its queue, the times the stamps are made of, and the buffers
that its source element was given, with their decoding times. -/
structure Track where
  queue : List MediaPacket := []
  prebufferingSize : Nat
  startTime : Int := 0
  delayTime : Int := 0
  ntpStartTime : Int := 0
  pushed : List (MediaPacket × UInt64) := []

namespace Track

/-- `RtpPacketBuffer::PushPacket` -/
def pushPacket (t : Track) (packet : MediaPacket) : Track :=
  { t with queue := Heap.push after t.queue packet }

/-- `RtpPacketBuffer::PrebufferingDone` -/
def prebufferingDone (t : Track) : Bool := t.prebufferingSize < t.queue.length

/-- `RtpPacketBuffer::PopPacket` -/
def popPacket (t : Track) : Option MediaPacket × Track :=
  if t.prebufferingSize < t.queue.length then
    (Heap.top t.queue, { t with queue := Heap.pop after t.queue })
  else (none, t)

variable (clock : Nat → Int) (rate : Int)

/-- The part of `_PushAudioPacket` and `_PushVideoPacket` that starts the times: `clock n` is the
running time of the pipeline when packet `n` is pushed. -/
def start (t : Track) (p : MediaPacket) : Track :=
  let ts : Int := (RtpHeader.getTimestamp p.data).toNat
  let t :=
    if t.startTime = 0 then { t with startTime := ts, delayTime := clock t.pushed.length } else t
  if t.ntpStartTime = 0 ∧ p.remoteNtpTimeMs ≠ -1 then
    { t with ntpStartTime := p.remoteNtpTimeMs - (ts - t.startTime).tdiv rate }
  else t

/-- The time of a packet within its track, in ms. -/
def time (t : Track) (p : MediaPacket) : Int :=
  if t.ntpStartTime > 0 then p.remoteNtpTimeMs - t.ntpStartTime
  else (((RtpHeader.getTimestamp p.data).toNat : Int) - t.startTime).tdiv rate

/-- `GST_BUFFER_DTS(buffer)` -/
def stamp (t : Track) (p : MediaPacket) : UInt64 :=
  UInt64.ofInt ((t.time rate p + jitterTime) * 1000000 + t.delayTime)

/-- `_PushAudioPacket` with a rate of 48, `_PushVideoPacket` with one of 90. -/
def emit (t : Track) (p : MediaPacket) : Track :=
  let t := t.start clock rate p
  { t with pushed := t.pushed ++ [(p, t.stamp rate p)] }

/-- A pop, and the push that follows. -/
def release (t : Track) : Track :=
  match t.popPacket with
  | (none, t) => t
  | (some p, t) => t.emit clock rate p

/-- One half of a round of the loop in `FlushData`. -/
def drain (t : Track) : Track := if t.queue ≠ [] then t.release clock rate else t

/-- The common part of `PushAudioPacket` and `PushVideoPacket`. -/
def push (t : Track) (packet : MediaPacket) : Track :=
  let t := t.pushPacket packet
  if t.prebufferingDone = true then t.release clock rate else t

/-- The packets in the order in which they were given to the source element. -/
def emitted (t : Track) : List MediaPacket := t.pushed.map Prod.fst

end Track

/-! ### The recorder -/

/-- The running times of the pipeline when the packets of each track are pushed. -/
structure Clocks where
  audio : Nat → Int
  video : Nat → Int

/-- `StreamRecorderElement`, with `use_push_mode` and `use_ntp_time` set. -/
structure Recorder where
  videoEncoding : UInt8
  videoQueueData : Bool := false
  audio : Track := { prebufferingSize := 100 }
  video : Track := { prebufferingSize := 60 }

namespace Recorder

variable (parse : Depacketizer) (clocks : Clocks)

/-- `PushAudioPacket` -/
def pushAudioPacket (r : Recorder) (packet : MediaPacket) : Recorder :=
  if r.videoQueueData = true then { r with audio := r.audio.push clocks.audio 48 packet } else r

/-- `PushVideoPacket` -/
def pushVideoPacket (r : Recorder) (packet : MediaPacket) : Recorder :=
  let r := { r with videoQueueData := true }
  if isValidVideoPacket parse packet = true then
    { r with video := r.video.push clocks.video 90 packet }
  else r

/-- `ReplayPipeline::PushPacket` -/
def push (r : Recorder) (packet : MediaPacket) : Recorder :=
  match packet.type with
  | .audio => r.pushAudioPacket clocks packet
  | .video => r.pushVideoPacket parse clocks packet
  | _ => r

/-- One round of the loop of `FlushData`. -/
def flushRound (r : Recorder) : Recorder :=
  { r with audio := r.audio.drain clocks.audio 48, video := r.video.drain clocks.video 90 }

/-- The loop, for a number of rounds. -/
def flushLoop : Nat → Recorder → Recorder
  | 0, r => r
  | n + 1, r =>
    if r.audio.queue = [] ∧ r.video.queue = [] then r else flushLoop n (r.flushRound clocks)

/-- `FlushData`: each round pops a packet, so that there are no more rounds than packets. -/
def flushData (r : Recorder) : Recorder :=
  let r := { r with
    audio := { r.audio with prebufferingSize := 0 }
    video := { r.video with prebufferingSize := 0 } }
  flushLoop clocks (r.audio.queue.length + r.video.queue.length) r

/-- A recorder from its start to its end. -/
def record (videoEncoding : UInt8) (packets : List MediaPacket) : Recorder :=
  (packets.foldl (push parse clocks) { videoEncoding }).flushData clocks

end Recorder

/-! ### What is taken -/

/-- The packets of audio behind the first one of video. -/
def audioOf (packets : List MediaPacket) : List MediaPacket :=
  (packets.dropWhile fun p => p.type ≠ .video).filter fun p => p.type = .audio

/-- The packets of video that parse. -/
def videoOf (parse : Depacketizer) (packets : List MediaPacket) : List MediaPacket :=
  packets.filter fun p => p.type = .video ∧ isValidVideoPacket parse p = true

/-! ### One track -/

namespace Track

variable {clock : Nat → Int} {rate : Int} {t : Track} {p : MediaPacket}

@[simp] theorem start_pushed (t : Track) (p : MediaPacket) :
    (t.start clock rate p).pushed = t.pushed := by
  simp only [start]
  split_ifs
  · rfl
  · rfl
  · rfl
  · rfl

@[simp] theorem start_queue (t : Track) (p : MediaPacket) :
    (t.start clock rate p).queue = t.queue := by
  simp only [start]
  split_ifs
  · rfl
  · rfl
  · rfl
  · rfl

@[simp] theorem start_prebufferingSize (t : Track) (p : MediaPacket) :
    (t.start clock rate p).prebufferingSize = t.prebufferingSize := by
  simp only [start]
  split_ifs
  · rfl
  · rfl
  · rfl
  · rfl

@[simp] theorem emit_queue (t : Track) (p : MediaPacket) :
    (t.emit clock rate p).queue = t.queue := start_queue t p

@[simp] theorem emit_prebufferingSize (t : Track) (p : MediaPacket) :
    (t.emit clock rate p).prebufferingSize = t.prebufferingSize := start_prebufferingSize t p

@[simp] theorem emit_emitted (t : Track) (p : MediaPacket) :
    (t.emit clock rate p).emitted = t.emitted ++ [p] := by
  show ((t.start clock rate p).pushed ++ [(p, _)]).map Prod.fst = _
  rw [start_pushed, List.map_append]
  rfl

variable (clock rate) in
/-- A release takes the top of the heap out, if enough packets wait behind it. -/
theorem release_cases (t : Track) :
    t.queue.length ≤ t.prebufferingSize ∧ t.release clock rate = t ∨
      ∃ p, t.prebufferingSize < t.queue.length ∧ Heap.top t.queue = some p ∧
        t.release clock rate = emit clock rate { t with queue := Heap.pop after t.queue } p := by
  rcases Nat.lt_or_ge t.prebufferingSize t.queue.length with hsize | hsize
  · right
    have hne : t.queue ≠ [] := List.ne_nil_of_length_pos (Nat.zero_lt_of_lt hsize)
    obtain ⟨p, rest, hqueue⟩ := List.exists_cons_of_ne_nil hne
    have htop : Heap.top t.queue = some p := by
      rw [hqueue]
      rfl
    refine ⟨p, hsize, htop, ?_⟩
    rw [release, popPacket, if_pos hsize, htop]
  · left
    refine ⟨hsize, ?_⟩
    rw [release, popPacket, if_neg (Nat.not_lt.mpr hsize)]

theorem top_cons_perm (htop : Heap.top t.queue = some p) :
    (p :: Heap.pop after t.queue).Perm t.queue := by
  obtain ⟨rest, hqueue⟩ := List.head?_eq_some_iff.mp htop
  have hperm := @Heap.pop_perm _ after t.queue
  rw [hqueue] at hperm ⊢
  exact hperm.cons p

/-! #### Each packet once -/

/-- What was given to the source element and what waits is what came. -/
def Once (pushed : List MediaPacket) (t : Track) : Prop := (t.emitted ++ t.queue).Perm pushed

variable {pushed : List MediaPacket}

theorem Once.release (h : Once pushed t) : Once pushed (t.release clock rate) := by
  rcases t.release_cases clock rate with ⟨-, heq⟩ | ⟨p, -, htop, heq⟩
  · rwa [heq]
  · rw [heq, Once, emit_emitted, emit_queue, List.append_assoc]
    exact ((top_cons_perm htop).append_left t.emitted).trans h

theorem pushPacket_perm (t : Track) (p : MediaPacket) :
    (t.pushPacket p).queue.Perm (p :: t.queue) := Heap.push_perm t.queue p

theorem Once.push (h : Once pushed t) (p : MediaPacket) :
    Once (pushed ++ [p]) (t.push clock rate p) := by
  have hpush : Once (pushed ++ [p]) (t.pushPacket p) := by
    refine ((t.pushPacket_perm p).append_left t.emitted).trans (List.perm_middle.trans ?_)
    exact (h.cons p).trans (List.perm_append_singleton p pushed).symm
  rw [Track.push]
  split
  · exact hpush.release
  · exact hpush

variable (clock rate) in
theorem length_release_le (t : Track) :
    (t.release clock rate).queue.length ≤ t.queue.length ∧
      (t.release clock rate).queue.length ≤ max t.prebufferingSize (t.queue.length - 1) := by
  rcases t.release_cases clock rate with ⟨hsize, heq⟩ | ⟨p, hsize, htop, heq⟩
  · rw [heq]
    omega
  · have hlength := (top_cons_perm htop).length_eq
    rw [List.length_cons] at hlength
    rw [heq, emit_queue]
    dsimp only
    omega

theorem release_prebufferingSize (t : Track) :
    (t.release clock rate).prebufferingSize = t.prebufferingSize := by
  rcases t.release_cases clock rate with ⟨-, heq⟩ | ⟨p, -, -, heq⟩
  · rw [heq]
  · rw [heq, emit_prebufferingSize]

theorem push_prebufferingSize (t : Track) (p : MediaPacket) :
    (t.push clock rate p).prebufferingSize = t.prebufferingSize := by
  rw [push]
  split
  · rw [release_prebufferingSize]
    rfl
  · rfl

variable (clock rate) in
/-- The packets that wait after a push are no more than the buffer holds back. -/
theorem length_push_le (h : t.queue.length ≤ t.prebufferingSize) (p : MediaPacket) :
    (t.push clock rate p).queue.length ≤ t.prebufferingSize := by
  have hlength := (t.pushPacket_perm p).length_eq
  rw [List.length_cons] at hlength
  rw [push]
  split
  · have hle := ((t.pushPacket p).length_release_le clock rate).2
    have hsize : (t.pushPacket p).prebufferingSize = t.prebufferingSize := rfl
    omega
  · rename_i hdone
    rw [Bool.not_eq_true] at hdone
    exact Nat.not_lt.mp (of_decide_eq_false hdone)

variable (clock rate) in
/-- Half a round takes a packet out, if there is one. -/
theorem length_drain_le (h : t.prebufferingSize = 0) :
    (t.drain clock rate).queue.length ≤ t.queue.length - 1 ∧
      (t.drain clock rate).prebufferingSize = 0 := by
  rw [drain]
  split
  · have hle := (t.length_release_le clock rate).2
    rw [h, Nat.zero_max] at hle
    exact ⟨hle, by rw [release_prebufferingSize, h]⟩
  · rename_i hnil
    rw [not_not.mp hnil]
    exact ⟨Nat.zero_le _, h⟩

theorem emitted_release (t : Track) : t.emitted <+: (t.release clock rate).emitted := by
  rcases t.release_cases clock rate with ⟨-, heq⟩ | ⟨p, -, -, heq⟩
  · rw [heq]
  · rw [heq, emit_emitted]
    exact List.prefix_append _ _

theorem emitted_push (t : Track) (p : MediaPacket) :
    t.emitted <+: (t.push clock rate p).emitted := by
  rw [push]
  split
  · exact (t.pushPacket p).emitted_release
  · exact List.prefix_refl _

/-! #### The order -/

/-- The numbers in the headers are the ranks modulo `2 ^ 16`. -/
def Numbered (rank : MediaPacket → Nat) (packets : List MediaPacket) : Prop :=
  ∀ p ∈ packets, p.toDataPacket.seqNumber = UInt16.ofNat (rank p)

/-- The ranks are close enough to be compared. -/
def Close (rank : MediaPacket → Nat) (packets : List MediaPacket) : Prop :=
  ∀ p ∈ packets, ∀ q ∈ packets, rank p < rank q + 2 ^ 15

section

variable {rank : MediaPacket → Nat} {packets : List MediaPacket}

theorem after_iff (hnumber : Numbered rank packets) (hclose : Close rank packets)
    {p q : MediaPacket} (hp : p ∈ packets) (hq : q ∈ packets) :
    after p q = true ↔ rank q < rank p := by
  have hpq := hclose p hp q hq
  have hqp := hclose q hq p hp
  rw [after, dataPacketComparator_iff, hnumber p hp, hnumber q hq]
  rcases Nat.lt_trichotomy (rank q) (rank p) with hlt | heq | hlt
  · exact iff_of_true (newer_ofNat hlt (by omega)) hlt
  · rw [heq]
    exact iff_of_false (fun h => h.ne rfl) (Nat.lt_irrefl _)
  · exact iff_of_false (newer_ofNat hlt (by omega)).not_newer (Nat.lt_asymm hlt)

theorem not_after_iff (hnumber : Numbered rank packets) (hclose : Close rank packets)
    {p q : MediaPacket} (hp : p ∈ packets) (hq : q ∈ packets) :
    after p q = false ↔ rank p ≤ rank q := by
  rw [← Bool.not_eq_true, after_iff hnumber hclose hp hq, Nat.not_lt]

theorem weakOn (hnumber : Numbered rank packets) (hclose : Close rank packets) :
    Heap.WeakOn after (· ∈ packets) := by
  refine ⟨?_, ?_⟩
  · intro p q hp hq h
    rw [after_iff hnumber hclose hp hq] at h
    exact (not_after_iff hnumber hclose hq hp).mpr (Nat.le_of_lt h)
  · intro p q r hp hq hr hpq hqr
    rw [not_after_iff hnumber hclose hp hq] at hpq
    rw [not_after_iff hnumber hclose hq hr] at hqr
    exact (not_after_iff hnumber hclose hp hr).mpr (Nat.le_trans hpq hqr)

end

/-- A track whose packets were on time so far. -/
structure Ordered (rank : MediaPacket → Nat) (pushed : List MediaPacket) (t : Track) : Prop where
  sorted : Reorder.Sorted rank t.prebufferingSize pushed t.emitted t.queue
  isHeap : Heap.IsHeap after t.queue
  close : Close rank t.queue

section

variable {rank : MediaPacket → Nat}

theorem Ordered.release (h : Ordered rank pushed t) (hnumber : Numbered rank t.queue) :
    Ordered rank pushed (t.release clock rate) := by
  rcases t.release_cases clock rate with ⟨-, heq⟩ | ⟨p, hsize, htop, heq⟩
  · rwa [heq]
  · have ho := weakOn hnumber h.close
    have hperm := top_cons_perm htop
    have hlength := hperm.length_eq
    rw [List.length_cons] at hlength
    have hmem : ∀ q ∈ Heap.pop after t.queue, q ∈ t.queue :=
      fun q hq => hperm.mem_iff.mp (List.mem_cons_of_mem p hq)
    have hp : p ∈ t.queue := hperm.mem_iff.mp List.mem_cons_self
    rw [heq]
    refine ⟨?_, ?_, ?_⟩
    · rw [emit_emitted, emit_queue, emit_prebufferingSize]
      apply h.sorted.pop hperm
      · intro q hq
        apply (not_after_iff hnumber h.close hp hq).mp
        exact h.isHeap.not_lt_top (fun _ ha => ha) ho htop hq
      · show t.prebufferingSize ≤ (Heap.pop after t.queue).length
        omega
    · rw [emit_queue]
      exact (Heap.pop_spec ho (fun _ ha => ha) h.isHeap).1
    · rw [emit_queue]
      exact fun q hq r hr => h.close q (hmem q hq) r (hmem r hr)

theorem Ordered.numbered (h : Ordered rank pushed t) (hnumber : Numbered rank pushed) :
    Numbered rank t.queue :=
  fun p hp => hnumber p (h.sorted.perm.mem_iff.mp (List.mem_append_right _ hp))

theorem Ordered.push (h : Ordered rank pushed t) (hsize : t.queue.length ≤ t.prebufferingSize)
    (hnumber : Numbered rank (pushed ++ [p]))
    (htime : Reorder.OnTime rank t.prebufferingSize pushed p)
    (hnear : Reorder.Near rank t.prebufferingSize (2 ^ 15) pushed p) :
    Ordered rank (pushed ++ [p]) (t.push clock rate p) := by
  have hperm := t.pushPacket_perm p
  -- what waits in the buffer is near to the packet
  have hclose : Close rank (p :: t.queue) := by
    have hp : ∀ q ∈ t.queue, rank p < rank q + 2 ^ 15 ∧ rank q < rank p + 2 ^ 15 := by
      intro q hq
      apply hnear q (h.sorted.perm.mem_iff.mp (List.mem_append_right _ hq))
      exact Nat.lt_of_lt_of_le (h.sorted.above_lt hq) hsize
    intro q hq r hr
    rcases List.mem_cons.mp hq with rfl | hq'
    · rcases List.mem_cons.mp hr with rfl | hr'
      · exact Nat.lt_add_of_pos_right (Nat.two_pow_pos 15)
      · exact (hp r hr').1
    · rcases List.mem_cons.mp hr with rfl | hr'
      · exact (hp q hq').2
      · exact h.close q hq' r hr'
  have hpush : Ordered rank (pushed ++ [p]) (t.pushPacket p) := by
    have hnumber' : Numbered rank (p :: t.queue) := by
      intro q hq
      apply hnumber q
      rcases List.mem_cons.mp hq with rfl | hq
      · exact List.mem_append_right _ List.mem_cons_self
      · apply List.mem_append_left
        exact h.sorted.perm.mem_iff.mp (List.mem_append_right _ hq)
    refine ⟨h.sorted.push htime hperm, ?_, ?_⟩
    · exact Heap.push_isHeap (weakOn hnumber' hclose) (fun q hq => List.mem_cons_of_mem p hq)
        List.mem_cons_self h.isHeap
    · intro q hq r hr
      exact hclose q (hperm.mem_iff.mp hq) r (hperm.mem_iff.mp hr)
  rw [Track.push]
  split
  · exact hpush.release (hpush.numbered hnumber)
  · exact hpush

end

/-! #### Runs -/

/-- The track after the packets of a sequence were pushed. -/
def run (clock : Nat → Int) (rate : Int) (t : Track) (packets : List MediaPacket) : Track :=
  packets.foldl (push clock rate) t

theorem run_concat (t : Track) (packets : List MediaPacket) (p : MediaPacket) :
    t.run clock rate (packets ++ [p]) = (t.run clock rate packets).push clock rate p := by
  rw [run, List.foldl_append]
  rfl

section

variable (clock rate) (k : Nat) (packets : List MediaPacket)

theorem run_once : Once packets (run clock rate { prebufferingSize := k } packets) := by
  induction packets using List.reverseRecOn with
  | nil => exact List.Perm.refl _
  | append_singleton packets p ih =>
    rw [run_concat]
    exact ih.push p

theorem run_prebufferingSize :
    (run clock rate { prebufferingSize := k } packets).prebufferingSize = k := by
  induction packets using List.reverseRecOn with
  | nil => rfl
  | append_singleton packets p ih => rw [run_concat, push_prebufferingSize, ih]

theorem length_run_le : (run clock rate { prebufferingSize := k } packets).queue.length ≤ k := by
  induction packets using List.reverseRecOn with
  | nil => exact Nat.zero_le _
  | append_singleton packets p ih =>
    have hsize := run_prebufferingSize clock rate k packets
    have hle := length_push_le clock rate (by rwa [hsize]) p
    rw [run_concat]
    rwa [hsize] at hle

end

section

variable {rank : MediaPacket → Nat} {k : Nat} {packets : List MediaPacket}

variable (clock rate) in
theorem run_ordered (hnumber : Numbered rank packets)
    (htime : Reorder.Each (Reorder.OnTime rank k) packets)
    (hnear : Reorder.Each (Reorder.Near rank k (2 ^ 15)) packets) :
    Ordered rank packets (run clock rate { prebufferingSize := k } packets) := by
  induction packets using List.reverseRecOn with
  | nil =>
    exact ⟨Reorder.Sorted.nil, Heap.isHeap_nil, fun p hp => absurd hp List.not_mem_nil⟩
  | append_singleton packets p ih =>
    obtain ⟨htimes, htime⟩ := Reorder.each_concat.mp htime
    obtain ⟨hnears, hnear⟩ := Reorder.each_concat.mp hnear
    have hrun := ih (fun q hq => hnumber q (List.mem_append_left _ hq)) htimes hnears
    have hsize := run_prebufferingSize clock rate k packets
    rw [run_concat]
    apply hrun.push ?_ hnumber
    · rwa [hsize]
    · rwa [hsize]
    · rw [hsize]
      exact length_run_le clock rate k packets

/-- The packets that were given to the source element stay in front. -/
theorem emitted_run (t : Track) (packets : List MediaPacket) :
    t.emitted <+: (t.run clock rate packets).emitted := by
  induction packets using List.reverseRecOn with
  | nil => exact List.prefix_refl _
  | append_singleton packets p ih =>
    rw [run_concat]
    exact ih.trans (emitted_push _ p)

/-- A packet that is late comes out behind one that was sent later. -/
theorem not_ordered_of_late {out : List MediaPacket}
    (hstart : (run clock rate { prebufferingSize := k } packets).emitted <+: out)
    {post : List MediaPacket} (hperm : out.Perm (packets ++ p :: post))
    (hlate : ¬ Reorder.OnTime rank k packets p) :
    ¬ out.Pairwise fun p q => rank p ≤ rank q := by
  have honce := run_once clock rate k packets
  obtain ⟨q, hq, hlt⟩ := Reorder.exists_of_late honce (length_run_le clock rate k packets) hlate
  obtain ⟨rest, rfl⟩ := hstart
  -- the packet is among those that come out later
  have hrest : rest.Perm ((run clock rate { prebufferingSize := k } packets).queue ++ p :: post) := by
    apply (List.perm_append_left_iff _).mp (hperm.trans _)
    rw [← List.append_assoc]
    exact honce.symm.append_right _
  have hp : p ∈ rest := hrest.mem_iff.mpr (List.mem_append_right _ List.mem_cons_self)
  intro hordered
  exact Nat.not_le_of_lt hlt ((List.pairwise_append.mp hordered).2.2 q hq p hp)

end

/-! #### The stamps -/

/-- The stamp of a packet whose time the sender's clock tells, counted from packet `p`. -/
def ntpStamp (clock : Nat → Int) (p q : MediaPacket) : UInt64 :=
  UInt64.ofInt ((q.remoteNtpTimeMs - p.remoteNtpTimeMs) * 1000000 + clock 0)

/-- The first packet has set the times, if its timestamp is not zero, and all packets carry the
sender's time. -/
structure Stamped (clock : Nat → Int) (t : Track) : Prop where
  known : ∀ p ∈ t.emitted ++ t.queue, 0 < p.remoteNtpTimeMs
  unset : t.pushed = [] → t.startTime = 0 ∧ t.ntpStartTime = 0
  set : ∀ p ∈ t.emitted.head?, p.toDataPacket.timestamp ≠ 0 →
    t.startTime ≠ 0 ∧ t.ntpStartTime = p.remoteNtpTimeMs ∧ t.delayTime = clock 0 ∧
      ∀ e ∈ t.pushed, e.2 = ntpStamp clock p e.1

theorem stamp_eq (hntp : 0 < t.ntpStartTime) :
    t.stamp rate p =
      UInt64.ofInt ((p.remoteNtpTimeMs - t.ntpStartTime) * 1000000 + t.delayTime) := by
  rw [stamp, time, if_pos hntp, jitterTime, Int.add_zero]

variable (clock rate) in
/-- The first packet of a track. -/
theorem start_first (hknown : 0 < p.remoteNtpTimeMs) (hpushed : t.pushed = [])
    (hunset : t.startTime = 0 ∧ t.ntpStartTime = 0) :
    (t.start clock rate p).startTime = p.toDataPacket.timestamp.toNat ∧
      (t.start clock rate p).ntpStartTime = p.remoteNtpTimeMs ∧
      (t.start clock rate p).delayTime = clock 0 := by
  have hne : p.remoteNtpTimeMs ≠ -1 := by omega
  rw [start, if_pos hunset.1, hpushed]
  dsimp only
  rw [if_pos ⟨hunset.2, hne⟩]
  refine ⟨rfl, ?_, rfl⟩
  show p.remoteNtpTimeMs - Int.tdiv (_ - _) rate = _
  rw [Int.sub_self, Int.zero_tdiv, Int.sub_zero]

/-- A packet that follows does not move them. -/
theorem start_later (hstart : t.startTime ≠ 0) (hntp : t.ntpStartTime ≠ 0) :
    t.start clock rate p = t := by
  rw [start, if_neg hstart]
  exact if_neg fun h => hntp h.1

theorem Stamped.emit (h : Stamped clock t) (hp : 0 < p.remoteNtpTimeMs) :
    Stamped clock (t.emit clock rate p) := by
  refine ⟨?_, ?_, ?_⟩
  · intro q hq
    rw [emit_emitted, emit_queue, List.append_assoc] at hq
    rcases List.mem_append.mp hq with hq | hq
    · exact h.known q (List.mem_append_left _ hq)
    · rcases List.mem_cons.mp hq with rfl | hq
      · exact hp
      · exact h.known q (List.mem_append_right _ hq)
  · intro hnil
    have hne : (t.start clock rate p).pushed ++ [(p, (t.start clock rate p).stamp rate p)] ≠ [] := by
      simp
    exact absurd hnil hne
  · intro q hq hts
    rw [emit_emitted] at hq
    show (t.start clock rate p).startTime ≠ 0 ∧
      (t.start clock rate p).ntpStartTime = q.remoteNtpTimeMs ∧
      (t.start clock rate p).delayTime = clock 0 ∧ ∀ e ∈ (t.start clock rate p).pushed ++
        [(p, (t.start clock rate p).stamp rate p)], e.2 = ntpStamp clock q e.1
    rcases hpushed : t.pushed with - | ⟨e, pushed⟩
    · -- the packet is the first one
      have hemitted : t.emitted = [] := by
        rw [emitted, hpushed]
        rfl
      obtain rfl : p = q := by simpa [hemitted] using hq
      obtain ⟨hstart, hntp, hdelay⟩ := start_first clock rate hp hpushed
        (h.unset hpushed)
      refine ⟨?_, hntp, hdelay, ?_⟩
      · rw [hstart]
        exact fun hzero => hts (UInt32.toNat_inj.mp (Int.ofNat_eq_zero.mp hzero))
      · intro e he
        rw [start_pushed, hpushed, List.nil_append, List.mem_singleton] at he
        rw [he, stamp_eq (by rwa [hntp]), hntp, hdelay]
        rfl
    · have hhead : q ∈ t.emitted.head? := by
        rw [emitted, hpushed] at hq ⊢
        exact hq
      obtain ⟨hstart, hntp, hdelay, hstamps⟩ := h.set q hhead hts
      have hknown := h.known q (List.mem_append_left _ (List.mem_of_mem_head? hhead))
      have hlater : t.start clock rate p = t := start_later hstart (by omega)
      rw [hlater]
      refine ⟨hstart, hntp, hdelay, ?_⟩
      intro e' he'
      rcases List.mem_append.mp he' with he' | he'
      · exact hstamps e' he'
      · rw [List.mem_singleton.mp he', stamp_eq (by omega), hntp, hdelay]
        rfl

theorem Stamped.release (h : Stamped clock t) : Stamped clock (t.release clock rate) := by
  rcases t.release_cases clock rate with ⟨-, heq⟩ | ⟨p, -, htop, heq⟩
  · rwa [heq]
  · have hperm := top_cons_perm htop
    rw [heq]
    apply Stamped.emit
    · refine ⟨?_, h.unset, h.set⟩
      intro q hq
      apply h.known q
      rcases List.mem_append.mp hq with hq | hq
      · exact List.mem_append_left _ hq
      · exact List.mem_append_right _ (hperm.mem_iff.mp (List.mem_cons_of_mem p hq))
    · exact h.known p (List.mem_append_right _ (hperm.mem_iff.mp List.mem_cons_self))

theorem Stamped.push (h : Stamped clock t) (hp : 0 < p.remoteNtpTimeMs) :
    Stamped clock (t.push clock rate p) := by
  have hpush : Stamped clock (t.pushPacket p) := by
    refine ⟨?_, h.unset, h.set⟩
    intro q hq
    rcases List.mem_append.mp hq with hq | hq
    · exact h.known q (List.mem_append_left _ hq)
    · rcases List.mem_cons.mp ((t.pushPacket_perm p).mem_iff.mp hq) with rfl | hq
      · exact hp
      · exact h.known q (List.mem_append_right _ hq)
  rw [Track.push]
  split
  · exact hpush.release
  · exact hpush

variable (clock rate) in
theorem run_stamped (k : Nat) {packets : List MediaPacket}
    (hknown : ∀ p ∈ packets, 0 < p.remoteNtpTimeMs) :
    Stamped clock (run clock rate { prebufferingSize := k } packets) := by
  induction packets using List.reverseRecOn with
  | nil =>
    refine ⟨fun p hp => absurd hp List.not_mem_nil, fun _ => ⟨rfl, rfl⟩, ?_⟩
    intro p hp
    cases hp
  | append_singleton packets p ih =>
    rw [run_concat]
    apply (ih fun q hq => hknown q (List.mem_append_left _ hq)).push
    exact hknown p (List.mem_append_right _ List.mem_cons_self)

end Track

/-! ### The recorder and its tracks -/

section

variable (parse : Depacketizer) (packets : List MediaPacket) (p : MediaPacket)

theorem audioOf_concat : audioOf (packets ++ [p]) =
    if p.type = .audio ∧ packets.any (fun q => q.type = .video) = true then audioOf packets ++ [p]
    else audioOf packets := by
  rcases hany : packets.any (fun q => q.type = .video) with - | -
  · -- no video came yet
    have hnil : packets.dropWhile (fun q => q.type ≠ .video) = [] := by
      apply List.dropWhile_eq_nil_iff.mpr
      intro q hq
      have hq' := List.any_eq_false.mp hany q hq
      simpa using hq'
    rw [if_neg fun h => Bool.false_ne_true h.2, audioOf, audioOf, List.dropWhile_append, hnil]
    by_cases hp : p.type = .video
    · simp [hp]
    · simp [hp]
  · have hne : packets.dropWhile (fun q => q.type ≠ .video) ≠ [] := by
      rw [Ne, List.dropWhile_eq_nil_iff]
      intro hall
      obtain ⟨q, hq, hvideo⟩ := List.any_eq_true.mp hany
      have hq' := hall q hq
      simp_all
    rw [audioOf, List.dropWhile_append, if_neg (by simpa using hne), List.filter_append]
    by_cases hp : p.type = .audio
    · rw [if_pos ⟨hp, rfl⟩, audioOf]
      simp [hp]
    · rw [if_neg fun h => hp h.1, audioOf]
      simp [hp]

theorem videoOf_concat : videoOf parse (packets ++ [p]) =
    if p.type = .video ∧ isValidVideoPacket parse p = true then videoOf parse packets ++ [p]
    else videoOf parse packets := by
  rw [videoOf, List.filter_append]
  split_ifs with hp
  · simp [hp, videoOf]
  · rw [videoOf]
    simp_all

end

namespace Recorder

variable (parse : Depacketizer) (clocks : Clocks) (videoEncoding : UInt8)
  (packets : List MediaPacket)

/-- The tracks take what `audioOf` and `videoOf` say. -/
theorem foldl_push : packets.foldl (push parse clocks) { videoEncoding } =
    { videoEncoding := videoEncoding
      videoQueueData := packets.any fun p => p.type = .video
      audio := Track.run clocks.audio 48 { prebufferingSize := 100 } (audioOf packets)
      video := Track.run clocks.video 90 { prebufferingSize := 60 } (videoOf parse packets) } := by
  induction packets using List.reverseRecOn with
  | nil => rfl
  | append_singleton packets p ih =>
    rw [List.foldl_append, ih, List.foldl_cons, List.foldl_nil, audioOf_concat, videoOf_concat,
      List.any_append]
    rcases htype : p.type with - | - | - | - | - | -
    · -- video
      by_cases hvalid : isValidVideoPacket parse p = true
      · simp [push, pushVideoPacket, htype, hvalid, Track.run_concat]
      · simp [push, pushVideoPacket, htype, hvalid]
    · -- audio
      rcases hany : packets.any (fun q => q.type = .video) with - | -
      · simp [push, pushAudioPacket, htype]
      · simp [push, pushAudioPacket, htype, Track.run_concat]
    · simp [push, htype]
    · simp [push, htype]
    · simp [push, htype]
    · simp [push, htype]

variable {parse clocks videoEncoding packets} {P Q : Track → Prop} {r : Recorder}

/-- What a release keeps is kept by `FlushData`, on each track. -/
theorem flushLoop_keeps (hP : ∀ t, P t → P (t.release clocks.audio 48))
    (hQ : ∀ t, Q t → Q (t.release clocks.video 90)) (n : Nat) (h : P r.audio ∧ Q r.video) :
    P (flushLoop clocks n r).audio ∧ Q (flushLoop clocks n r).video := by
  induction n generalizing r with
  | zero => exact h
  | succ n ih =>
    rw [flushLoop]
    split
    · exact h
    · apply ih
      refine ⟨?_, ?_⟩
      · show P (r.audio.drain clocks.audio 48)
        rw [Track.drain]
        split
        · exact hP _ h.1
        · exact h.1
      · show Q (r.video.drain clocks.video 90)
        rw [Track.drain]
        split
        · exact hQ _ h.2
        · exact h.2

/-- Nothing waits behind the loop: a round takes a packet out of each queue that has one. -/
theorem flushLoop_empty {n : Nat}
    (hsize : r.audio.prebufferingSize = 0 ∧ r.video.prebufferingSize = 0)
    (hn : r.audio.queue.length + r.video.queue.length ≤ n) :
    (flushLoop clocks n r).audio.queue = [] ∧ (flushLoop clocks n r).video.queue = [] := by
  induction n generalizing r with
  | zero =>
    obtain ⟨haudio, hvideo⟩ := Nat.add_eq_zero_iff.mp (Nat.le_zero.mp hn)
    exact ⟨List.eq_nil_of_length_eq_zero haudio, List.eq_nil_of_length_eq_zero hvideo⟩
  | succ n ih =>
    rw [flushLoop]
    split
    · assumption
    · rename_i hne
      obtain ⟨haudio, hasize⟩ :=
        Track.length_drain_le clocks.audio 48 hsize.1
      obtain ⟨hvideo, hvsize⟩ :=
        Track.length_drain_le clocks.video 90 hsize.2
      apply ih ⟨hasize, hvsize⟩
      show (r.audio.drain clocks.audio 48).queue.length +
        (r.video.drain clocks.video 90).queue.length ≤ n
      have hpos : r.audio.queue.length ≠ 0 ∨ r.video.queue.length ≠ 0 := by
        rw [← not_and_or, List.length_eq_zero_iff, List.length_eq_zero_iff]
        exact hne
      omega

section

variable (parse clocks videoEncoding packets)

/-- What holds of the tracks when the recorder is deleted, and is kept by a release, holds of
them in the end. -/
theorem record_keeps (hP : ∀ t, P t → P (t.release clocks.audio 48))
    (hQ : ∀ t, Q t → Q (t.release clocks.video 90))
    (haudio : P { Track.run clocks.audio 48 { prebufferingSize := 100 } (audioOf packets) with
      prebufferingSize := 0 })
    (hvideo : Q { Track.run clocks.video 90 { prebufferingSize := 60 } (videoOf parse packets) with
      prebufferingSize := 0 }) :
    P (record parse clocks videoEncoding packets).audio ∧
      Q (record parse clocks videoEncoding packets).video := by
  rw [record, foldl_push, flushData]
  exact flushLoop_keeps hP hQ _ ⟨haudio, hvideo⟩

theorem record_empty :
    (record parse clocks videoEncoding packets).audio.queue = [] ∧
      (record parse clocks videoEncoding packets).video.queue = [] := by
  rw [record, foldl_push, flushData]
  exact flushLoop_empty ⟨rfl, rfl⟩ (Nat.le_refl _)

/-- Each packet that is taken comes out, once. -/
theorem record_perm :
    (record parse clocks videoEncoding packets).audio.emitted.Perm (audioOf packets) ∧
      (record parse clocks videoEncoding packets).video.emitted.Perm (videoOf parse packets) := by
  have honce := record_keeps parse clocks videoEncoding packets
    (P := Track.Once (audioOf packets)) (Q := Track.Once (videoOf parse packets))
    (fun t => Track.Once.release) (fun t => Track.Once.release)
    (Track.run_once clocks.audio 48 100 (audioOf packets))
    (Track.run_once clocks.video 90 60 (videoOf parse packets))
  obtain ⟨hempty, hempty'⟩ := record_empty parse clocks videoEncoding packets
  rw [Track.Once, Track.Once, hempty, hempty', List.append_nil, List.append_nil] at honce
  exact honce

/-- The packets that came out before the recorder is deleted stay in front. -/
theorem record_prefix :
    (Track.run clocks.audio 48 { prebufferingSize := 100 } (audioOf packets)).emitted <+:
        (record parse clocks videoEncoding packets).audio.emitted ∧
      (Track.run clocks.video 90 { prebufferingSize := 60 } (videoOf parse packets)).emitted <+:
        (record parse clocks videoEncoding packets).video.emitted :=
  record_keeps parse clocks videoEncoding packets (P := fun t => _ <+: t.emitted)
    (Q := fun t => _ <+: t.emitted) (fun t h => h.trans t.emitted_release) (fun t h => h.trans t.emitted_release)
    (List.prefix_refl _) (List.prefix_refl _)

end

end Recorder

namespace Track

variable {clock : Nat → Int} {rate : Int} {rank : MediaPacket → Nat} {k : Nat}
  {packets out : List MediaPacket}

/-- What comes out of a track is in order only if each packet was on time. -/
theorem onTime_of_pairwise (hperm : out.Perm packets)
    (hstart : (run clock rate { prebufferingSize := k } packets).emitted <+: out)
    (hordered : out.Pairwise fun p q => rank p ≤ rank q) :
    Reorder.Each (Reorder.OnTime rank k) packets := by
  by_contra hlate
  obtain ⟨pre, p, post, rfl, hp⟩ := Reorder.exists_of_not_each hlate
  have hpre : (run clock rate { prebufferingSize := k } pre).emitted <+:
      (run clock rate { prebufferingSize := k } (pre ++ p :: post)).emitted := by
    rw [run, run, List.foldl_append]
    exact emitted_run _ (p :: post)
  exact not_ordered_of_late (hpre.trans hstart) hperm hp hordered

end Track

/-! ### The recording of a stream -/

section

variable (parse : Depacketizer) (clocks : Clocks) (videoEncoding : UInt8)
  (packets : List MediaPacket)

/-- **The recorder.**  With the flags as they are by default, and whatever order the packets come
in: each packet of audio behind the first packet of video, and each packet of video that parses,
is given to the source element of its track once, and nothing else is.  If those that can wait
together are near to each other, then a track is in the order of the sequence numbers, across
their wrap, if and only if no packet comes behind more than a hundred (sixty for video) that were
sent later. -/
theorem recorded_in_order (parse : Depacketizer) (clocks : Clocks) (videoEncoding : UInt8)
    (packets : List MediaPacket) :
    let r := Recorder.record parse clocks videoEncoding packets
    (r.audio.emitted.Perm (audioOf packets) ∧
      ∀ rank, Track.Numbered rank (audioOf packets) →
        Reorder.Each (Reorder.Near rank 100 (2 ^ 15)) (audioOf packets) →
        (r.audio.emitted.Pairwise (fun p q => rank p ≤ rank q) ↔
          Reorder.Each (Reorder.OnTime rank 100) (audioOf packets))) ∧
    (r.video.emitted.Perm (videoOf parse packets) ∧
      ∀ rank, Track.Numbered rank (videoOf parse packets) →
        Reorder.Each (Reorder.Near rank 60 (2 ^ 15)) (videoOf parse packets) →
        (r.video.emitted.Pairwise (fun p q => rank p ≤ rank q) ↔
          Reorder.Each (Reorder.OnTime rank 60) (videoOf parse packets))) := by
  obtain ⟨haudio, hvideo⟩ := Recorder.record_perm parse clocks videoEncoding packets
  obtain ⟨hstart, hstart'⟩ := Recorder.record_prefix parse clocks videoEncoding packets
  refine ⟨⟨haudio, ?_⟩, hvideo, ?_⟩
  · intro rank hnumber hnear
    refine ⟨Track.onTime_of_pairwise haudio hstart, fun htime => ?_⟩
    have hrun := Track.run_ordered clocks.audio 48 hnumber htime hnear
    have hkeep := Recorder.record_keeps parse clocks videoEncoding packets
      (P := Track.Ordered rank (audioOf packets)) (Q := fun _ => True)
      (fun t h => h.release (h.numbered hnumber)) (fun _ h => h)
      ⟨hrun.sorted.mono (Nat.zero_le _), hrun.isHeap, hrun.close⟩ trivial
    exact hkeep.1.sorted.ordered
  · intro rank hnumber hnear
    refine ⟨Track.onTime_of_pairwise hvideo hstart', fun htime => ?_⟩
    have hrun := Track.run_ordered clocks.video 90 hnumber htime hnear
    have hkeep := Recorder.record_keeps parse clocks videoEncoding packets
      (P := fun _ => True) (Q := Track.Ordered rank (videoOf parse packets))
      (fun _ h => h) (fun t h => h.release (h.numbered hnumber)) trivial
      ⟨hrun.sorted.mono (Nat.zero_le _), hrun.isHeap, hrun.close⟩
    exact hkeep.2.sorted.ordered

/-- A packet of the given type with the given number and timestamp. -/
def mediaPacket (type : Rtcp.PacketType) (seq : UInt16) (timestamp : UInt32) (ntp : Int) :
    MediaPacket where
  toRtpPacket := RtpPacket.ofHeader seq timestamp
  type := type
  remoteNtpTimeMs := ntp
  length_le := Nat.le_of_ble_eq_true rfl

/-- Three packets of audio behind one of video: the last one was sent before the second, and
their numbers wrap. -/
def aroundWrap : List MediaPacket :=
  [mediaPacket .video 7 1 5, mediaPacket .audio 65534 1 5, mediaPacket .audio 0 3 7,
    mediaPacket .audio 65535 2 6]

theorem recorded_in_order_wrap :
    let rank : MediaPacket → Nat := fun p =>
      if p.toDataPacket.seqNumber = 0 then 65536 else p.toDataPacket.seqNumber.toNat
    let clocks : Clocks := ⟨fun _ => 0, fun _ => 0⟩
    (Recorder.record vp8 clocks 100 aroundWrap).audio.emitted.Perm
        (aroundWrap.filter fun p => p.type = .audio) ∧
      (Recorder.record vp8 clocks 100 aroundWrap).audio.emitted.Pairwise
        fun p q => rank p ≤ rank q := by
  intro rank clocks
  obtain ⟨⟨hperm, hordered⟩, -⟩ := recorded_in_order vp8 clocks 100 aroundWrap
  refine ⟨hperm, (hordered rank ?_ ?_).mpr ?_⟩
  · show ∀ p ∈ audioOf aroundWrap, _
    decide
  · decide
  · decide

/-- **The stamps.**  With the flags as they are by default: if the sender's time of each packet is
known, and the first packet of a track does not have the timestamp zero, then the stamps of the
track follow the sender's time from where the pipeline stood at its first packet.  So audio and
video are in step if and only if the first packets of the two tracks were pushed as far apart as
they were sent. -/
theorem in_step_iff
    (hknown : ∀ p ∈ audioOf packets ++ videoOf parse packets, 0 < p.remoteNtpTimeMs)
    {a v : MediaPacket}
    (ha : a ∈ (Recorder.record parse clocks videoEncoding packets).audio.emitted.head?)
    (hv : v ∈ (Recorder.record parse clocks videoEncoding packets).video.emitted.head?)
    (hats : a.toDataPacket.timestamp ≠ 0) (hvts : v.toDataPacket.timestamp ≠ 0) :
    let r := Recorder.record parse clocks videoEncoding packets
    (∀ e ∈ r.audio.pushed, e.2 = Track.ntpStamp clocks.audio a e.1) ∧
    (∀ e ∈ r.video.pushed, e.2 = Track.ntpStamp clocks.video v e.1) ∧
    ((∀ e ∈ r.audio.pushed, ∀ f ∈ r.video.pushed,
        e.2 - f.2 = UInt64.ofInt ((e.1.remoteNtpTimeMs - f.1.remoteNtpTimeMs) * 1000000)) ↔
      UInt64.ofInt (clocks.audio 0 - clocks.video 0) =
        UInt64.ofInt ((a.remoteNtpTimeMs - v.remoteNtpTimeMs) * 1000000)) := by
  have hstamped := Recorder.record_keeps parse clocks videoEncoding packets
    (P := Track.Stamped clocks.audio) (Q := Track.Stamped clocks.video)
    (fun t => Track.Stamped.release) (fun t => Track.Stamped.release) ?_ ?_
  · obtain ⟨-, -, -, haudio⟩ := hstamped.1.set a ha hats
    obtain ⟨-, -, -, hvideo⟩ := hstamped.2.set v hv hvts
    refine ⟨haudio, hvideo, ?_⟩
    -- the difference of two stamps is the one of the sender's times, and a constant
    have hdiff : ∀ e f : MediaPacket,
        Track.ntpStamp clocks.audio a e - Track.ntpStamp clocks.video v f =
          UInt64.ofInt ((e.remoteNtpTimeMs - f.remoteNtpTimeMs) * 1000000) +
            (UInt64.ofInt (clocks.audio 0 - clocks.video 0) -
              UInt64.ofInt ((a.remoteNtpTimeMs - v.remoteNtpTimeMs) * 1000000)) := by
      intro e f
      rw [Track.ntpStamp, Track.ntpStamp, UInt64.sub_eq_add_neg, UInt64.sub_eq_add_neg,
        ← UInt64.ofInt_neg, ← UInt64.ofInt_neg, ← UInt64.ofInt_add, ← UInt64.ofInt_add,
        ← UInt64.ofInt_add]
      apply congrArg
      omega
    refine ⟨fun hstep => ?_, fun hconst e he f hf => ?_⟩
    · obtain ⟨e, he, rfl⟩ := List.mem_map.mp (List.mem_of_mem_head? ha)
      obtain ⟨f, hf, rfl⟩ := List.mem_map.mp (List.mem_of_mem_head? hv)
      have heq := hstep e he f hf
      rw [haudio e he, hvideo f hf, hdiff] at heq
      rw [← UInt64.sub_add_cancel (UInt64.ofInt (clocks.audio 0 - clocks.video 0)) _,
        UInt64.add_eq_left.mp heq, UInt64.zero_add]
    · rw [haudio e he, hvideo f hf, hdiff, hconst, UInt64.sub_self, UInt64.add_zero]
  · have hrun := Track.run_stamped clocks.audio 48 100
      fun p hp => hknown p (List.mem_append_left _ hp)
    exact ⟨hrun.known, hrun.unset, hrun.set⟩
  · have hrun := Track.run_stamped clocks.video 90 60
      fun p hp => hknown p (List.mem_append_right _ hp)
    exact ⟨hrun.known, hrun.unset, hrun.set⟩


/-- A packet of audio that was sent 2 ms after one of video. -/
def audioLater : List MediaPacket := [mediaPacket .video 7 1 5, mediaPacket .audio 8 1 7]

theorem in_step_iff_later :
    let parse : Depacketizer := fun _ _ => some .videoFrameDelta
    let r := Recorder.record parse ⟨fun _ => 2000000, fun _ => 0⟩ 100 audioLater
    ∀ e ∈ r.audio.pushed, ∀ f ∈ r.video.pushed,
      e.2 - f.2 = UInt64.ofInt ((e.1.remoteNtpTimeMs - f.1.remoteNtpTimeMs) * 1000000) := by
  intro parse r
  obtain ⟨haudio, hvideo⟩ := Recorder.record_perm parse ⟨fun _ => 2000000, fun _ => 0⟩ 100 audioLater
  have ha : r.audio.emitted = [mediaPacket .audio 8 1 7] := List.perm_singleton.mp haudio
  have hv : r.video.emitted = [mediaPacket .video 7 1 5] := List.perm_singleton.mp hvideo
  have h := in_step_iff parse ⟨fun _ => 2000000, fun _ => 0⟩ 100 audioLater (by decide)
    (a := mediaPacket .audio 8 1 7) (v := mediaPacket .video 7 1 5)
    (by
      show _ ∈ r.audio.emitted.head?
      rw [ha]
      rfl)
    (by
      show _ ∈ r.video.emitted.head?
      rw [hv]
      rfl)
    (by decide) (by decide)
  exact h.2.2.mpr rfl

end

end Orbit.StreamRecorder
