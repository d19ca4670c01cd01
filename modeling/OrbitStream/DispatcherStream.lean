/-
OrbitStream/DispatcherStream.lean

The numbers of the packets that the room of a video dispatcher forwards
(`VideoDispatcherRoom::SelectiveVideoForward`).

The forwarding thread measures sequence numbers and timestamps from the first packet
it forwards.  The bases are signed variables that start at -1, and -1 is what says
that there is no base yet: a packet with the sequence number 65535, or the timestamp
0xFFFFFFFF, leaves its base unset and the next packet sets it.

What a step does to the bases and what it forwards is `step_forwards`.  The numbers of a
stream keep their distances if and only if the thread had its bases, or the first
packet does not carry these numbers, or all do (`stream_offsets_iff`).
-/
import Mathlib.Data.UInt
import OrbitStream.DispatcherRoom
import OrbitStream.Lib.Rebase

namespace Orbit

open Lib

namespace VideoDispatcherRoom

/-- The packet that a step forwards, with the packet it is forwarded as. -/
def forwarded (r r' : VideoDispatcherRoom) : Op → Option (DataPacket × MediaOutputPacket)
  | .selectiveVideoForward _ (some p) _ =>
      if r.running = false ∨ r.plugins.length = 0 ∨ r.currentViewer = -1 ∨ p.length = 0 then none
      else some (p, r'.loop.output p)
  | _ => none

/-- The packets that a run forwards. -/
def stream : VideoDispatcherRoom → List Op → List (DataPacket × MediaOutputPacket)
  | _, [] => []
  | r, op :: ops =>
      match step r op with
      | .error _ => []
      | .ok r' => (forwarded r r' op).toList ++ stream r' ops

/-- The packets that have been handed to subscribers. -/
def videos (r : VideoDispatcherRoom) : List MediaOutputPacket :=
  r.dispatched.filterMap fun
    | .video _ packet => some packet
    | .fir _ _ => none
    | .webcast _ => none

variable {r r' r₁ r₂ : VideoDispatcherRoom}

/-! ### What a step does to the bases -/

/-- The variables that output numbers are computed from stay, and no subscriber gets a
packet. -/
structure Quiet (r r' : VideoDispatcherRoom) : Prop where
  baseSeq : r'.loop.baseSeq = r.loop.baseSeq
  lastSeq : r'.loop.lastSeq = r.loop.lastSeq
  baseTs : r'.loop.baseTs = r.loop.baseTs
  lastTs : r'.loop.lastTs = r.loop.lastTs
  videos : r'.videos = r.videos

theorem Quiet.of_eq (hloop : r'.loop = r.loop) (hdispatched : r'.dispatched = r.dispatched) :
    Quiet r r' := by
  refine ⟨?_, ?_, ?_, ?_, ?_⟩
  · rw [hloop]
  · rw [hloop]
  · rw [hloop]
  · rw [hloop]
  · rw [VideoDispatcherRoom.videos, hdispatched]
    rfl

theorem Quiet.refl (r : VideoDispatcherRoom) : Quiet r r := Quiet.of_eq rfl rfl

theorem Quiet.trans (h : Quiet r r₁) (h' : Quiet r₁ r₂) : Quiet r r₂ :=
  ⟨h'.baseSeq.trans h.baseSeq, h'.lastSeq.trans h.lastSeq, h'.baseTs.trans h.baseTs,
    h'.lastTs.trans h.lastTs, h'.videos.trans h.videos⟩

theorem Quiet.of_left (h : Quiet r₁ r') (hloop : r₁.loop = r.loop)
    (hdispatched : r₁.dispatched = r.dispatched) : Quiet r r' :=
  (Quiet.of_eq hloop hdispatched).trans h

/-- A key frame request leaves the thread alone. -/
theorem sendFirPacket_quiet (r : VideoDispatcherRoom) (viewer : Int) :
    Outcome (Quiet r) (fun _ => True) (r.sendFirPacket viewer) := by
  rw [sendFirPacket]
  split
  · exact Quiet.refl r
  · show Outcome _ _ (r.participant viewer >>= _)
    rcases r.participant viewer with e | p
    · trivial
    · refine ⟨rfl, rfl, rfl, rfl, ?_⟩
      show List.filterMap _ (r.dispatched ++ [_]) = _
      rw [List.filterMap_append]
      exact List.append_nil _

theorem processMessage_quiet (r : VideoDispatcherRoom) (s t : Int) :
    Outcome (fun x => Quiet r x.1) (fun _ => True) (r.processMessage s t) := by
  rw [processMessage]
  split
  · apply Outcome.foldlM (P := fun x : VideoDispatcherRoom × Bool => Quiet r x.1)
    · intro x hx p _
      rw [setPublisher]
      split
      · apply (sendFirPacket_quiet _ (p.2 : Int)).bind
        intro r₁ h₁
        exact hx.trans (h₁.of_left rfl rfl)
      · exact hx
    · exact Quiet.refl r
  · exact Quiet.refl r

theorem requestFirPacket_quiet (r : VideoDispatcherRoom) (s now : Int) :
    Outcome (Quiet r) (fun _ => True) (r.requestFirPacket s now) := by
  rw [requestFirPacket]
  split
  · split
    · exact Quiet.refl r
    · apply (sendFirPacket_quiet _ r.currentViewer).imp
      exact fun r₁ h₁ => h₁.of_left rfl rfl
  · exact Quiet.refl r

theorem forceFir_quiet (r : VideoDispatcherRoom) (now : Int) :
    Outcome (Quiet r) (fun _ => True) (r.forceFir now) := by
  rw [forceFir]
  split
  · apply (sendFirPacket_quiet _ r.currentViewer).imp
    intro r₁ h₁
    exact ⟨h₁.baseSeq, h₁.lastSeq, h₁.baseTs, h₁.lastTs, h₁.videos⟩
  · exact Quiet.refl r

theorem removeParticipant_quiet (r : VideoDispatcherRoom) (p : Plugin) :
    Quiet r (r.removeParticipant p) := by
  rw [removeParticipant]
  split
  · exact Quiet.of_eq rfl rfl
  · exact Quiet.of_eq rfl rfl

/-- Every subscriber is handed the one packet. -/
theorem publish_videos (r : VideoDispatcherRoom) (p : DataPacket) (webcast : Bool) :
    ∃ n, (r.publish p webcast).videos =
      r.videos ++ List.replicate n ((r.loop.rewrite p.data).output p) := by
  refine ⟨(r.plugins.zipIdx.filter fun p => (p.2 : Int) ≠ r.currentViewer).length, ?_⟩
  have hmap : ∀ l : List (Plugin × Nat), (l.map fun q =>
      Dispatch.video q.1 ((r.loop.rewrite p.data).output p)).filterMap (fun
        | .video _ packet => some packet
        | .fir _ _ => none
        | .webcast _ => none) =
          List.replicate l.length ((r.loop.rewrite p.data).output p) := by
    intro l
    induction l with
    | nil => rfl
    | cons q l ih =>
      rw [List.map_cons, List.filterMap_cons, ih]
      rfl
  show List.filterMap _ (r.dispatched ++ List.map _ _ ++ _) = _
  rw [List.filterMap_append, List.filterMap_append, hmap]
  split
  · exact List.append_nil _
  · exact List.append_nil _

/-- A step forwards nothing and is quiet, or forwards a packet with its numbers rewritten. -/
def Forwards (r : VideoDispatcherRoom) (op : Op) (r' : VideoDispatcherRoom) : Prop :=
  (forwarded r r' op = none ∧ Quiet r r') ∨
    ∃ p r₁, Quiet r r₁ ∧ r'.loop = r₁.loop.rewrite p.data ∧
      forwarded r r' op = some (p, r'.loop.output p) ∧
      ∃ n, r'.videos = r.videos ++ List.replicate n (r'.loop.output p)

theorem selectiveVideoForward_forwards (r : VideoDispatcherRoom) (now : Int)
    (packet : Option DataPacket) (webcast : Bool) :
    Outcome (Forwards r (.selectiveVideoForward now packet webcast)) (fun _ => True)
      (r.selectiveVideoForward now packet webcast) := by
  rw [selectiveVideoForward]
  split
  · rename_i hidle
    refine .inl ⟨?_, Quiet.refl r⟩
    rcases packet with - | p
    · rfl
    · rw [forwarded, if_pos (by tauto)]
  · rename_i hgo
    apply (forceFir_quiet r now).bind
    intro r₁ h₁
    rcases r₁.participant r₁.currentViewer with e | q
    · trivial
    · rcases packet with - | p
      · exact .inl ⟨rfl, h₁⟩
      · show Forwards r _ (if p.length ≠ 0 then r₁.publish p webcast else r₁)
        by_cases hlen : p.length ≠ 0
        · rw [if_pos hlen]
          obtain ⟨n, hn⟩ := publish_videos r₁ p webcast
          refine .inr ⟨p, r₁, h₁, rfl, ?_, n, ?_⟩
          · rw [forwarded, if_neg (by tauto)]
          · rw [hn, h₁.videos]
            rfl
        · rw [if_neg hlen]
          refine .inl ⟨?_, h₁⟩
          rw [forwarded, if_pos (by tauto)]

/-- **One step of the room**, as far as the forwarding thread and the subscribers see it. -/
theorem step_forwards {op : Op} (hop : ∀ now, op ≠ .start now) (h : step r op = .ok r') :
    Forwards r op r' := by
  have hout : Outcome (Forwards r op) (fun _ => True) (step r op) := by
    cases op with
    | start now => exact absurd rfl (hop now)
    | destroy => exact .inl ⟨rfl, Quiet.of_eq rfl rfl⟩
    | setupLiveStream support => exact .inl ⟨rfl, Quiet.of_eq rfl rfl⟩
    | addParticipant p => exact .inl ⟨rfl, Quiet.of_eq rfl rfl⟩
    | removeParticipant p => exact .inl ⟨rfl, removeParticipant_quiet r p⟩
    | processMessage s t =>
      show Outcome _ _ (r.processMessage s t >>= fun x => pure x.1)
      apply (processMessage_quiet r s t).bind
      exact fun x hx => .inl ⟨rfl, hx⟩
    | sendFirPacketToViewer =>
      apply (sendFirPacket_quiet r r.currentViewer).imp
      exact fun r₁ h₁ => .inl ⟨rfl, h₁⟩
    | requestFirPacket s now =>
      apply (requestFirPacket_quiet r s now).imp
      exact fun r₁ h₁ => .inl ⟨rfl, h₁⟩
    | selectiveVideoForward now p w => exact selectiveVideoForward_forwards r now p w
  rw [h] at hout
  exact hout

/-! ### Output numbers -/

theorem toUInt16_eq_iff {b : Int16} : b.toUInt16 = 65535 ↔ b = -1 := by
  constructor
  · intro h
    exact congrArg UInt16.toInt16 h
  · rintro rfl
    rfl

theorem toUInt32_eq_iff {b : Int32} : b.toUInt32 = 0xFFFFFFFF ↔ b = -1 := by
  constructor
  · intro h
    exact congrArg UInt32.toInt32 h
  · rintro rfl
    rfl

theorem rewrite_baseSeq (l : ForwardLoop) (data : List UInt8) :
    (l.rewrite data).baseSeq.toUInt16 =
      rebase 65535 l.baseSeq.toUInt16 (RtpHeader.getSeqNumber data) := by
  show (if l.baseSeq = -1 then _ else l.baseSeq).toUInt16 = _
  by_cases h : l.baseSeq = -1
  · rw [if_pos h, toUInt16_eq_iff.mpr h, rebase_unset]
    rfl
  · rw [if_neg h, rebase_of_ne (fun h' => h (toUInt16_eq_iff.mp h'))]

theorem rewrite_baseTs (l : ForwardLoop) (data : List UInt8) :
    (l.rewrite data).baseTs.toUInt32 =
      rebase 0xFFFFFFFF l.baseTs.toUInt32 (RtpHeader.getTimestamp data) := by
  show (if l.baseTs = -1 then _ else l.baseTs).toUInt32 = _
  by_cases h : l.baseTs = -1
  · rw [if_pos h, toUInt32_eq_iff.mpr h, rebase_unset]
    rfl
  · rw [if_neg h, rebase_of_ne (fun h' => h (toUInt32_eq_iff.mp h'))]

/-- The sum is computed in `int` and cut to 16 bits. -/
theorem rewrite_seq (l : ForwardLoop) (data : List UInt8) :
    (l.rewrite data).seq.toUInt16 = l.lastSeq.toUInt16 +
      (RtpHeader.getSeqNumber data - (l.rewrite data).baseSeq.toUInt16) := by
  have hcut : ∀ (last base : Int16) (h : UInt16),
      (Int16.ofInt (last.toInt + ((h.toNat : Int) - base.toInt))).toUInt16 =
        last.toUInt16 + (h - base.toUInt16) := by
    intro last base h
    have hh : Int16.ofInt h.toNat = h.toInt16 := by
      apply Int16.toBitVec_inj.mp
      simp
    rw [Int16.ofInt_add, Int16.ofInt_sub, Int16.ofInt_toInt, Int16.ofInt_toInt, hh]
    rfl
  exact hcut l.lastSeq (l.rewrite data).baseSeq (RtpHeader.getSeqNumber data)

open scoped UInt16.CommRing UInt32.CommRing in
/-- The stream of a run, as numbers measured from the bases the thread has. -/
theorem stream_measured {ops : List Op} (hops : ∀ now, Op.start now ∉ ops) :
    Measured 65535 r.loop.lastSeq.toUInt16 r.loop.baseSeq.toUInt16
      ((stream r ops).map fun x => (x.1.seqNumber, x.2.seqNumber)) ∧
    Measured 0xFFFFFFFF r.loop.lastTs.toUInt32 r.loop.baseTs.toUInt32
      ((stream r ops).map fun x => (x.1.timestamp, x.2.timestamp)) := by
  induction ops generalizing r with
  | nil => exact ⟨Measured.nil _, Measured.nil _⟩
  | cons op ops ih =>
    rw [stream]
    rcases hstep : step r op with e | r'
    · exact ⟨Measured.nil _, Measured.nil _⟩
    · have hrest := ih (r := r') fun now hmem => hops now (List.mem_cons_of_mem op hmem)
      have hop : ∀ now, op ≠ .start now := by
        rintro now rfl
        exact hops now List.mem_cons_self
      dsimp only
      rcases step_forwards hop hstep with ⟨hnone, hbases⟩ | ⟨p, r₁, hbases, hloop, hsome, -⟩
      · rw [hnone, ← hbases.lastSeq, ← hbases.baseSeq, ← hbases.lastTs, ← hbases.baseTs]
        exact hrest
      · have hlastSeq : r'.loop.lastSeq = r.loop.lastSeq := by
          rw [hloop]
          exact hbases.lastSeq
        have hlastTs : r'.loop.lastTs = r.loop.lastTs := by
          rw [hloop]
          exact hbases.lastTs
        have hbaseSeq : r'.loop.baseSeq.toUInt16 =
            rebase 65535 r.loop.baseSeq.toUInt16 p.seqNumber := by
          rw [hloop, rewrite_baseSeq, hbases.baseSeq]
          rfl
        have hbaseTs : r'.loop.baseTs.toUInt32 =
            rebase 0xFFFFFFFF r.loop.baseTs.toUInt32 p.timestamp := by
          rw [hloop, rewrite_baseTs, hbases.baseTs]
          rfl
        have hseq : (r'.loop.output p).seqNumber = r.loop.lastSeq.toUInt16 +
            (p.seqNumber - rebase 65535 r.loop.baseSeq.toUInt16 p.seqNumber) := by
          rw [← hbaseSeq, hloop]
          show (r₁.loop.rewrite p.data).seq.toUInt16 = _
          rw [rewrite_seq, hbases.lastSeq]
          rfl
        have hts : (r'.loop.output p).timestamp = r.loop.lastTs.toUInt32 +
            (p.timestamp - rebase 0xFFFFFFFF r.loop.baseTs.toUInt32 p.timestamp) := by
          rw [← hbaseTs, hloop, ← hbases.lastTs]
          rfl
        rw [hlastSeq, hlastTs, hbaseSeq, hbaseTs] at hrest
        rw [hsome, Option.toList_some, List.singleton_append, List.map_cons, List.map_cons,
          hseq, hts]
        exact ⟨Measured.cons hrest.1, Measured.cons hrest.2⟩

/-- **The numbers of a stream.**  Every packet that the thread forwards keeps the distance of
its sequence number and of its timestamp to the first one if and only if the thread has its
bases, or the first packet has another sequence number than 65535 and another timestamp than
0xFFFFFFFF, or all packets have these. -/
theorem stream_offsets_iff (r : VideoDispatcherRoom) (ops : List Op)
    (hops : ∀ now, Op.start now ∉ ops) (first : DataPacket × MediaOutputPacket)
    (rest : List (DataPacket × MediaOutputPacket)) (h : stream r ops = first :: rest) :
    (∀ x ∈ rest, x.2.seqNumber - first.2.seqNumber = x.1.seqNumber - first.1.seqNumber ∧
      x.2.timestamp - first.2.timestamp = x.1.timestamp - first.1.timestamp) ↔
    (r.loop.baseSeq ≠ -1 ∨ first.1.seqNumber ≠ 65535 ∨ ∀ x ∈ rest, x.1.seqNumber = 65535) ∧
    (r.loop.baseTs ≠ -1 ∨ first.1.timestamp ≠ 0xFFFFFFFF ∨
      ∀ x ∈ rest, x.1.timestamp = 0xFFFFFFFF) := by
  obtain ⟨hseq, hts⟩ := stream_measured (r := r) hops
  rw [h, List.map_cons] at hseq hts
  have hs := hseq.offsets_iff
  have ht := hts.offsets_iff
  rw [List.forall_mem_map, List.forall_mem_map, ne_eq, toUInt16_eq_iff] at hs
  rw [List.forall_mem_map, List.forall_mem_map, ne_eq, toUInt32_eq_iff] at ht
  rw [forall₂_and]
  exact and_congr hs ht

/-- A room with a publisher and a subscriber, and its thread started. -/
def twoSeats : VideoDispatcherRoom :=
  { start {} 0 with
    plugins := [⟨1, 10⟩, ⟨2, 20⟩], publisherStreamId := 10, currentViewer := 0 }

/-- Two iterations that each find a packet. -/
def twoPackets (p q : RtpPacket) : List Op :=
  [.selectiveVideoForward 1 (some p.toDataPacket) false,
    .selectiveVideoForward 2 (some q.toDataPacket) false]

/-- Numbers across the wrap. -/
theorem stream_offsets_iff_across_wrap :
    (∀ now, Op.start now ∉ twoPackets (.ofHeader 65534 7) (.ofHeader 3 3007)) ∧
    ((stream twoSeats (twoPackets (.ofHeader 65534 7) (.ofHeader 3 3007))).map
      fun x => (x.2.seqNumber, x.2.timestamp)) = [(0, 0), (5, 3000)] ∧
    ∃ first rest, stream twoSeats (twoPackets (.ofHeader 65534 7) (.ofHeader 3 3007)) =
        first :: rest ∧
      ∀ x ∈ rest, x.2.seqNumber - first.2.seqNumber = x.1.seqNumber - first.1.seqNumber ∧
        x.2.timestamp - first.2.timestamp = x.1.timestamp - first.1.timestamp := by
  have hops : ∀ now, Op.start now ∉ twoPackets (.ofHeader 65534 7) (.ofHeader 3 3007) := by
    intro now
    simp [twoPackets]
  refine ⟨hops, by decide +kernel, _, _, rfl, ?_⟩
  refine (stream_offsets_iff twoSeats _ hops _ _ rfl).mpr ⟨.inr (.inl ?_), .inr (.inl ?_)⟩
  · decide +kernel
  · decide +kernel

/-- A first packet with the number 65535 and its successor get the same number. -/
theorem stream_restarts_at_wrap :
    ∃ r first rest, run [.start 0, .addParticipant ⟨1, 10⟩, .addParticipant ⟨2, 20⟩,
        .processMessage 10 2] = .ok r ∧
      stream r (twoPackets (.ofHeader 65535 7) (.ofHeader 0 3007)) = first :: rest ∧
      first.1.seqNumber = 65535 ∧ first.2.seqNumber = 0 ∧
      (rest.map fun x => (x.1.seqNumber, x.2.seqNumber)) = [(0, 0)] ∧
      ¬ ∀ x ∈ rest, x.2.seqNumber - first.2.seqNumber = x.1.seqNumber - first.1.seqNumber := by
  refine ⟨_, _, _, rfl, rfl, ?_, ?_, ?_, ?_⟩
  · decide +kernel
  · decide +kernel
  · decide +kernel
  · decide +kernel

end VideoDispatcherRoom

end Orbit
