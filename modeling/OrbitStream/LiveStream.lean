/-
OrbitStream/LiveStream.lean

The packets that the live stream takes out of its jitter buffers
(`live_stream/live_stream_processor.cc`, `PopVideoPacket` and `PopAudioPacket`).

A packet that comes too late is dropped.  Late is what has no greater number than the
last packet that was passed on, and a number that is smaller by more than 8000 counts
as one behind a wrap.

This agrees with the order of sequence numbers unless a packet is half the circle or
more ahead without a wrap, or between 8001 and half the circle behind: it is then
passed on though it is late.  A run passes on exactly the packets that are newer than
the last one passed on if and only if none of its pops finds such a packet
(`late_filter_iff`).
-/
import Mathlib.Data.List.Chain
import OrbitStream.Lib.Run
import OrbitStream.RtpPacketBuffer

namespace Orbit

open Lib

/-- A jitter buffer and the number of the last packet passed on: `video_queue_` and
`last_video_seq_`, or `audio_queue_` and `last_audio_seq_`. -/
structure LateFilter where
  queue : RtpPacketBuffer
  lastSeq : Int := -1
  deriving DecidableEq, Repr

/-- The body of `PopVideoPacket` and `PopAudioPacket`. -/
def LateFilter.popPacket (f : LateFilter) : Option DataPacket × LateFilter :=
  match f.queue.heapPop with
  | (none, queue) => (none, { f with queue := queue })
  | (some packet, queue) =>
      let seq : Int := (RtpHeader.getSeqNumber packet.data).toNat
      if f.lastSeq = -1 then (some packet, ⟨queue, seq⟩)
      else if seq > f.lastSeq then (some packet, ⟨queue, seq⟩)
      else if seq < f.lastSeq ∧ (seq - f.lastSeq).natAbs > 8000 then (some packet, ⟨queue, seq⟩)
      else (none, ⟨queue, f.lastSeq⟩)

/-- `LiveStreamProcessorImpl`, the two streams. -/
structure LiveStreamProcessorImpl where
  video : LateFilter := { queue := { prebufferingSize := 20 } }
  audio : LateFilter := { queue := { prebufferingSize := 30 } }
  deriving DecidableEq, Repr

namespace LiveStreamProcessorImpl

/-- `LiveStreamProcessorImpl::PopVideoPacket`. -/
def popVideoPacket (s : LiveStreamProcessorImpl) : Option DataPacket × LiveStreamProcessorImpl :=
  (s.video.popPacket.1, { s with video := s.video.popPacket.2 })

/-- `LiveStreamProcessorImpl::PopAudioPacket`. -/
def popAudioPacket (s : LiveStreamProcessorImpl) : Option DataPacket × LiveStreamProcessorImpl :=
  (s.audio.popPacket.1, { s with audio := s.audio.popPacket.2 })

end LiveStreamProcessorImpl

/-! ### Runs -/

/-- The processor, and the packets it has passed on. -/
structure LiveStream where
  processor : LiveStreamProcessorImpl := {}
  video : List DataPacket := []
  audio : List DataPacket := []
  deriving DecidableEq, Repr

namespace LiveStream

/-- A packet arrives, or one is asked for. -/
inductive Op
  | pushVideo (packet : RtpPacket)
  | pushAudio (packet : RtpPacket)
  | popVideo
  | popAudio

/-- A push into the jitter buffer of a stream. -/
def push (f : LateFilter) (packet : RtpPacket) : LateFilter :=
  { f with queue := f.queue.heapPush packet.toDataPacket }

/-- One step. -/
def step (s : LiveStream) : Op → LiveStream
  | .pushVideo packet =>
      { s with processor := { s.processor with video := push s.processor.video packet } }
  | .pushAudio packet =>
      { s with processor := { s.processor with audio := push s.processor.audio packet } }
  | .popVideo =>
      { s with
        processor := s.processor.popVideoPacket.2
        video := s.video ++ s.processor.popVideoPacket.1.toList }
  | .popAudio =>
      { s with
        processor := s.processor.popAudioPacket.2
        audio := s.audio ++ s.processor.popAudioPacket.1.toList }

/-- A popped packet is passed on if and only if it is the first, or newer than the last one
that was passed on. -/
def Decides (f : LateFilter) (passed : List DataPacket) : Prop :=
  ∀ p, f.queue.heapPop.1 = some p → (f.popPacket.1 = some p ↔
    passed = [] ∨ ∃ l, passed.getLast? = some l ∧ Newer p.seqNumber l.seqNumber)

/-- The same for the stream that a step pops from. -/
def Decided (s : LiveStream) : Op → Prop
  | .popVideo => Decides s.processor.video s.video
  | .popAudio => Decides s.processor.audio s.audio
  | .pushVideo _ => True
  | .pushAudio _ => True

/-- The packet on top is less than half the circle above the last number, and below it by at
most 8000 or by more than half the circle. -/
def InTime (f : LateFilter) : Prop :=
  ∀ p ∈ f.queue.heapPop.1, f.lastSeq = -1 ∨
    (p.seqNumber.toNat - f.lastSeq < 0x8000 ∧
      (f.lastSeq - p.seqNumber.toNat ≤ 8000 ∨ f.lastSeq - p.seqNumber.toNat > 0x8000))

/-- The condition on a step. -/
def Punctual (s : LiveStream) : Op → Prop
  | .popVideo => InTime s.processor.video
  | .popAudio => InTime s.processor.audio
  | .pushVideo _ => True
  | .pushAudio _ => True

instance (f : LateFilter) : Decidable (InTime f) :=
  inferInstanceAs (Decidable (∀ p ∈ f.queue.heapPop.1, _))

instance (s : LiveStream) : (op : Op) → Decidable (s.Punctual op)
  | .popVideo => inferInstanceAs (Decidable (InTime s.processor.video))
  | .popAudio => inferInstanceAs (Decidable (InTime s.processor.audio))
  | .pushVideo _ => isTrue trivial
  | .pushAudio _ => isTrue trivial

/-! ### One pop -/

section

variable {f : LateFilter} {passed : List DataPacket} {p : DataPacket}

/-- The number that is remembered is that of the last packet passed on. -/
def Follows (f : LateFilter) (passed : List DataPacket) : Prop :=
  f.lastSeq = match passed.getLast? with
    | none => -1
    | some l => (l.seqNumber.toNat : Int)

/-- Whether a popped packet is passed on. -/
def Passes (f : LateFilter) (p : DataPacket) : Prop :=
  f.lastSeq = -1 ∨ f.lastSeq < p.seqNumber.toNat ∨ f.lastSeq - p.seqNumber.toNat > 8000

/-- What a pop that finds a packet does. -/
theorem popPacket_of_some (hpop : f.queue.heapPop.1 = some p) :
    (Passes f p ∧ f.popPacket = (some p, ⟨f.queue.heapPop.2, p.seqNumber.toNat⟩)) ∨
      (¬ Passes f p ∧ f.popPacket = (none, ⟨f.queue.heapPop.2, f.lastSeq⟩)) := by
  have hpair : f.queue.heapPop = (some p, f.queue.heapPop.2) := Prod.ext hpop rfl
  have hseq : RtpHeader.getSeqNumber p.data = p.seqNumber := rfl
  rw [LateFilter.popPacket, hpair]
  dsimp only
  rw [hseq, Passes]
  split_ifs with hfirst habove hwrap
  · exact .inl ⟨.inl hfirst, rfl⟩
  · exact .inl ⟨.inr (.inl habove), rfl⟩
  · exact .inl ⟨.inr (.inr (by omega)), rfl⟩
  · exact .inr ⟨by omega, rfl⟩

theorem popPacket_of_none (hpop : f.queue.heapPop.1 = none) :
    f.popPacket = (none, ⟨f.queue.heapPop.2, f.lastSeq⟩) := by
  have hpair : f.queue.heapPop = (none, f.queue.heapPop.2) := Prod.ext hpop rfl
  rw [LateFilter.popPacket, hpair]

theorem popPacket_eq_iff (hpop : f.queue.heapPop.1 = some p) :
    f.popPacket.1 = some p ↔ Passes f p := by
  rcases popPacket_of_some hpop with ⟨hp, heq⟩ | ⟨hp, heq⟩
  · rw [heq]
    exact iff_of_true rfl hp
  · rw [heq]
    exact iff_of_false (by simp) hp

theorem Follows.pop (h : Follows f passed) :
    Follows f.popPacket.2 (passed ++ f.popPacket.1.toList) := by
  rcases hpop : f.queue.heapPop.1 with - | p
  · rw [popPacket_of_none hpop, Option.toList_none, List.append_nil]
    exact h
  · rcases popPacket_of_some hpop with ⟨-, heq⟩ | ⟨-, heq⟩
    · rw [heq, Option.toList_some, Follows, List.getLast?_concat]
    · rw [heq, Option.toList_none, List.append_nil]
      exact h

/-- When the plain comparison agrees with the order of sequence numbers. -/
theorem passes_iff_newer {a b : UInt16} :
    (((b.toNat : Int) < a.toNat ∨ (b.toNat : Int) - a.toNat > 8000) ↔ Newer a b) ↔
      ((a.toNat : Int) - b.toNat < 0x8000 ∧
        ((b.toNat : Int) - a.toNat ≤ 8000 ∨ (b.toNat : Int) - a.toNat > 0x8000)) := by
  have ha := a.toNat_lt
  have hb := b.toNat_lt
  rw [Newer, ahead_eq]
  omega

/-- **One pop decides rightly if and only if the packet on top is in time.** -/
theorem decides_iff (h : Follows f passed) : Decides f passed ↔ InTime f := by
  refine forall_congr' fun p => ?_
  refine forall_congr' fun hpop => ?_
  rw [popPacket_eq_iff hpop, Passes]
  rw [Follows] at h
  rcases hlast : passed.getLast? with - | l
  · -- the first packet: both hold
    rw [hlast] at h
    exact iff_of_true (iff_of_true (.inl h) (.inl (List.getLast?_eq_none_iff.mp hlast)))
      (.inl h)
  · rw [hlast] at h
    have hne : passed ≠ [] := by
      rintro rfl
      cases hlast
    have hset : f.lastSeq ≠ -1 := by
      rw [h]
      exact fun hneg => by simp at hneg
    have hnewer : (passed = [] ∨ ∃ l', some l = some l' ∧ Newer p.seqNumber l'.seqNumber) ↔
        Newer p.seqNumber l.seqNumber := by
      simp [hne]
    rw [hnewer, or_iff_right hset, or_iff_right hset, h]
    exact passes_iff_newer

/-- What is passed on in time is newer than what was passed on before. -/
theorem chain_pop (h : Follows f passed) (hin : InTime f)
    (hchain : (passed.map DataPacket.seqNumber).IsChain fun a b => Newer b a) :
    ((passed ++ f.popPacket.1.toList).map DataPacket.seqNumber).IsChain fun a b => Newer b a := by
  rcases hpop : f.popPacket.1 with - | p
  · rw [Option.toList_none, List.append_nil]
    exact hchain
  · have htop : f.queue.heapPop.1 = some p := by
      rcases htop : f.queue.heapPop.1 with - | q
      · rw [popPacket_of_none htop] at hpop
        cases hpop
      · rcases popPacket_of_some htop with ⟨-, heq⟩ | ⟨-, heq⟩
        · rw [heq] at hpop
          exact hpop
        · rw [heq] at hpop
          cases hpop
    rw [Option.toList_some, List.map_append, List.isChain_append]
    refine ⟨hchain, by simp, ?_⟩
    intro x hx y hy
    rcases ((decides_iff h).mpr hin p htop).mp hpop with rfl | ⟨l, hl, hnewer⟩
    · cases hx
    · rw [List.getLast?_map, hl] at hx
      cases hx
      cases hy
      exact hnewer

end

/-! ### Every run -/

/-- Both numbers are those of the last packets passed on. -/
structure Tracks (s : LiveStream) : Prop where
  video : Follows s.processor.video s.video
  audio : Follows s.processor.audio s.audio

theorem Tracks.step {s : LiveStream} (h : Tracks s) (op : Op) : Tracks (s.step op) := by
  cases op with
  | pushVideo packet => exact ⟨h.video, h.audio⟩
  | pushAudio packet => exact ⟨h.video, h.audio⟩
  | popVideo => exact ⟨h.video.pop, h.audio⟩
  | popAudio => exact ⟨h.video, h.audio.pop⟩

theorem run_tracks (ops : List Op) : Tracks (ops.foldl step {}) := by
  apply List.foldlRecOn (motive := Tracks) ops step
  · exact ⟨rfl, rfl⟩
  · exact fun s h op _ => h.step op

/-- What has been passed on so far is in the order of its numbers. -/
structure Ordered (s : LiveStream) : Prop extends Tracks s where
  videoChain : (s.video.map DataPacket.seqNumber).IsChain fun a b => Newer b a
  audioChain : (s.audio.map DataPacket.seqNumber).IsChain fun a b => Newer b a

theorem Ordered.step {s : LiveStream} (h : Ordered s) {op : Op} (hop : s.Punctual op) :
    Ordered (s.step op) := by
  refine ⟨h.toTracks.step op, ?_, ?_⟩
  · cases op with
    | popVideo => exact chain_pop h.video hop h.videoChain
    | pushVideo packet => exact h.videoChain
    | pushAudio packet => exact h.videoChain
    | popAudio => exact h.videoChain
  · cases op with
    | popAudio => exact chain_pop h.audio hop h.audioChain
    | pushVideo packet => exact h.audioChain
    | pushAudio packet => exact h.audioChain
    | popVideo => exact h.audioChain

theorem decided_iff {s : LiveStream} (h : Tracks s) (op : Op) : s.Decided op ↔ s.Punctual op := by
  cases op with
  | popVideo => exact decides_iff h.video
  | popAudio => exact decides_iff h.audio
  | pushVideo packet => exact Iff.rfl
  | pushAudio packet => exact Iff.rfl

/-- **The late filter.**  In a run, every popped packet of either stream is passed on exactly
if it is the first or newer than the last one passed on, and the numbers passed on increase,
if and only if every pop finds a packet in time. -/
theorem late_filter_iff (ops : List Op) :
    ((∀ pre op post, ops = pre ++ op :: post → Decided (pre.foldl step {}) op) ∧
      ((ops.foldl step {}).video.map DataPacket.seqNumber).IsChain (fun a b => Newer b a) ∧
      ((ops.foldl step {}).audio.map DataPacket.seqNumber).IsChain (fun a b => Newer b a)) ↔
    Throughout step Punctual {} ops := by
  have hiff : (∀ pre op post, ops = pre ++ op :: post → Decided (pre.foldl step {}) op) ↔
      Throughout step Punctual {} ops := by
    rw [throughout_iff]
    refine forall_congr' fun pre => forall_congr' fun op => ?_
    exact forall_congr' fun post => imp_congr_right fun _ => decided_iff (run_tracks pre) op
  rw [hiff]
  refine ⟨And.left, fun h => ⟨h, ?_⟩⟩
  have hend : Ordered (ops.foldl step {}) := by
    apply h.foldl (P := Ordered)
    · exact fun s op hs hop => hs.step hop
    · exact ⟨⟨rfl, rfl⟩, by simp, by simp⟩
  exact ⟨hend.videoChain, hend.audioChain⟩

/-- Enough packets for the jitter buffer, a pop, and a packet. -/
def beforePop (seq : UInt16) : List Op :=
  (List.range 21).map (fun i => .pushVideo (vp8RtpPacket (20000 + UInt16.ofNat i) false)) ++
    [.popVideo, .pushVideo (vp8RtpPacket seq false)]

/-- A packet that is 10000 behind the last one, so late, is passed on. -/
theorem late_packet_passed_on :
    ((beforePop 10000 ++ [Op.popVideo]).foldl step {}).video.map DataPacket.seqNumber =
        [20000, 10000] ∧
      ahead 20000 10000 < 0x8000 ∧ ¬ Newer 10000 20000 ∧
      ¬ Decided ((beforePop 10000).foldl step {}) .popVideo := by
  refine ⟨by decide +kernel, by decide, by decide, ?_⟩
  rw [decided_iff (run_tracks _)]
  decide +kernel

end LiveStream

end Orbit
