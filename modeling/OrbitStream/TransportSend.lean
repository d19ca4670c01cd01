/-
OrbitStream/TransportSend.lean

What a stream sends: `queueData` of `transport_delegate.cc`, which rewrites a packet,
counts it, puts it into a cache for retransmissions and hands it to the `RtpSender`, and
`HandleNackItem` of `rtp/rtcp_processor.cc`, which sends packets of these caches again.

There is a cache for the audio, one for each extended SSRC, and one for all other video.
Each of them reads the clock on its own, so a processor has its own sequence of readings.

A run is logged: `queued` are the packets handed to the `RtpSender`, in their order.  A
packet that was relayed for a NACK carries the cache and the place in it where it comes from.
`retransmissions` says that the priority queue loses and doubles nothing, and that what is
sent again is, byte for byte, what was sent before; `nack_isolation` that a NACK has no effect
on the streams it is not about, nor on the sender reports, and `reported_once` that these count
a packet once, however often it is sent.
-/
import OrbitStream.NetworkStatusSend
import OrbitStream.Retransmit
import OrbitStream.RtcpRewrite
import OrbitStream.RtpSender

namespace Orbit.TransportSend

open Lib Janus

/-! ### The settings -/

/-- The SSRCs of the local and of the remote SDP, `should_rewrite_ssrc_`, and the payload
types of the client (`outIn_payload_`). -/
structure Setup where
  audioSsrc : UInt32 := 44444
  videoSsrc : UInt32 := 55543
  videoRtxSsrc : UInt32 := 55555
  remoteAudioSsrc : UInt32
  remoteVideoSsrc : UInt32
  remoteVideoRtxSsrc : UInt32
  shouldRewriteSsrc : Bool := true
  outInPayload : Std.TreeMap Nat Nat := ∅

/-- `SdpInfo::GetCodec` -/
def Setup.getCodec (setup : Setup) (sourceCodec : Nat) : Nat :=
  let result := setup.outInPayload.getD sourceCodec 0
  if result = 0 then sourceCodec else result

-- the priorities of `rtp_sender.h`
abbrev retransmitPriority : Int := 5
abbrev videoRtxPriority : Int := 2
abbrev rtcpPriority : Int := 5
abbrev audioPriority : Int := 6
abbrev rembPriority : Int := 8
abbrev defaultPriority : Int := 10

/-- `RtcpHeader::isRtcp`; an SDES alone is not taken for RTCP. -/
def isRtcp (buf : Mem) : Bool := decide (type buf 0 ∈ [200, 204, 203, 201, 206, 205])

/-- `RtpHeader::getSSRC` -/
def getSSRC (buf : Mem) : UInt32 := UInt32.ofNat (buf.getBe 8 4)

/-- `RtpHeader::setSSRC` -/
def setSSRC (buf : Mem) (ssrc : UInt32) : Mem := buf.putBe 8 4 ssrc.toNat

/-- `RtpHeader::getTimestamp` -/
def getTimestamp (buf : Mem) : UInt32 := UInt32.ofNat (buf.getBe 4 4)

/-! ### The caches -/

/-- A `NackProcessor` of `RtcpProcessor`. -/
inductive Processor
  | audio
  | defaultVideo
  | extended (ssrc : UInt32)
  deriving DecidableEq, Repr

/-- `GetNackProcessor` -/
def getNackProcessor (extendedVideoSsrcs : List UInt32) (mediaSsrc : UInt32) : Processor :=
  if mediaSsrc ∈ extendedVideoSsrcs then .extended mediaSsrc else .defaultVideo

def fbnackBody (ok : Nat → Bool) (off : Nat) (s : Mem × Option Nat) :
    Except Nat (Janus.Step (Mem × Option Nat)) := do
  let type ← load ok s.1 (off + 1) 1
  if type = rtcpRtpfb then
    let fmt ← load ok s.1 off 1
    if fmt % 32 = 1 then
      let media ← load ok s.1 (off + 8) 4
      .ok (.stop (s.1, some media))
    else .ok (.next s)
  else .ok (.next s)

/-- `janus_rtcp_get_fbnack_media_ssrc`; the error codes are converted to `uint32_t`. -/
def getFbnackMediaSsrc (ok : Nat → Bool) (m : Mem) (len : Nat) : Except Nat UInt32 :=
  if len = 0 then .ok (UInt32.ofNat (2 ^ 32 - 1))
  else ifVersion ok m (UInt32.ofNat (2 ^ 32 - 2)) do
    let s ← loop ok (fbnackBody ok) 0 len (m, none)
    .ok (UInt32.ofNat (s.2.getD 0))

/-! ### The state -/

/-- A packet that was handed to the `RtpSender`; `origin` is the cache it was relayed from
and the number under which it was pushed there, `pushed` the cache it was pushed to. -/
structure Queued where
  type : Rtcp.PacketType
  origin : Option (Processor × Nat)
  pushed : Option Processor
  packet : RtpSendPacket
  deriving DecidableEq, Repr

structure Transport where
  setup : Setup
  logs : Processor → Retransmit.Log := fun _ => {}
  status : SendStatus := {}
  rtpSender : RtpSender.State := {}
  queued : List Queued := []

/-- What `malloc` leaves behind the bytes of the packet, and the clock in `WriteAndSend`. -/
structure Ambient where
  stale : Mem
  now : Int

section

variable (extendedVideoSsrcs : List UInt32)

/-- `ResetRelayPacketCodec` -/
def resetRelayPacketCodec (setup : Setup) (data : Mem) (type : Rtcp.PacketType) : Mem :=
  if type = .video ∧ isRtcp data = false then
    let payload := data.getBe 1 1 % 128
    let newCodec := setup.getCodec payload
    if payload ≠ newCodec then data.putBe 1 1 (data.getBe 1 1 / 128 * 128 + newCodec % 128)
    else data
  else data

/-- `janus_rtcp_fix_ssrc` as `queueData` calls it, without a context. -/
def fixed (newssrcl newssrcr : UInt32) (buf : Mem) (len : Nat) : Mem :=
  match fixSsrc everywhere ⟨true, newssrcl, newssrcr⟩ (fun _ => 0) none buf len with
  | .ok r => r.2.1
  | .error _ => buf

/-- The SSRCs that an RTCP packet gets.  A sender report on the video keeps its own. -/
def rewriteRtcp (setup : Setup) (type : Rtcp.PacketType) (buf : Mem) (len : Nat) : Mem :=
  match type with
  | .audio => fixed setup.audioSsrc setup.remoteAudioSsrc buf len
  | .video =>
    if Janus.type buf 0 ≠ 200 then fixed setup.videoSsrc setup.remoteVideoSsrc buf len else buf
  | .videoRtx => fixed setup.videoRtxSsrc setup.remoteVideoRtxSsrc buf len
  | _ => buf

/-- The SSRC that an RTP packet gets. -/
def rewriteRtp (setup : Setup) (type : Rtcp.PacketType) (buf : Mem) : Mem :=
  match type with
  | .audio => setSSRC buf setup.audioSsrc
  | .video => if setup.shouldRewriteSsrc then setSSRC buf setup.videoSsrc else buf
  | .videoRtx => setSSRC buf setup.videoRtxSsrc
  | _ => buf

/-- `SendingPacket`, for the audio and the video. -/
def count (setup : Setup) (type : Rtcp.PacketType) (buf : Mem) (len : Nat) (timestamp : UInt32)
    (status : SendStatus) : SendStatus :=
  match type with
  | .audio => status.sendingPacket ⟨false, setup.audioSsrc, Int32.ofNat len, timestamp⟩
  | .video => status.sendingPacket ⟨true, getSSRC buf, Int32.ofNat len, timestamp⟩
  | _ => status

/-- The cache that `NackPushVideoPacket` or `NackPushAudioPacket` puts the packet into. -/
def pushedTo (type : Rtcp.PacketType) (buf : Mem) : Option Processor :=
  match type with
  | .video => some (getNackProcessor extendedVideoSsrcs (getSSRC buf))
  | .audio => some .audio
  | _ => none

def rtpPriority (type : Rtcp.PacketType) : Int :=
  match type with
  | .audio => audioPriority
  | .video => defaultPriority
  | .videoRtx => videoRtxPriority
  | .retransmit => retransmitPriority
  | _ => defaultPriority

variable (clock : Processor → Nat → Int)

/-- `NackProcessor::PushPacket`, of one of the processors. -/
def Transport.push (s : Transport) (p : Processor) (buf : Mem) (len : Nat) : Transport :=
  { s with logs := Function.update s.logs p (Retransmit.step (clock p) (s.logs p) (.push buf len)) }

/-- `WriteAndSend`, to the one transport that there is. -/
def Transport.writeAndSend (s : Transport) (type : Rtcp.PacketType)
    (origin : Option (Processor × Nat)) (pushed : Option Processor) (priority : Int)
    (data : List UInt8) (now : Int) : Transport :=
  { s with
    rtpSender := RtpSender.writeAndSend s.rtpSender 0 priority data now
    queued := s.queued ++
      [⟨type, origin, pushed, ⟨priority, RtpHeader.getSeqNumber data, now, 0, data⟩⟩] }

/-- `queueData` of an RTP packet, from `ResetRelayPacketCodec` on. -/
def Transport.queueRtp (s : Transport) (type : Rtcp.PacketType)
    (origin : Option (Processor × Nat)) (buf : Mem) (len : Nat) (now : Int) : Transport :=
  let timestamp := getTimestamp buf
  let buf := rewriteRtp s.setup type buf
  let s := { s with status := count s.setup type buf len timestamp s.status }
  let pushed := pushedTo extendedVideoSsrcs type buf
  let s := match pushed with
    | some p => s.push clock p buf len
    | none => s
  s.writeAndSend type origin pushed (rtpPriority type) ((List.range len).map buf) now

/-- `queueData` of an RTCP packet. -/
def Transport.queueRtcp (s : Transport) (type : Rtcp.PacketType)
    (origin : Option (Processor × Nat)) (buf : Mem) (len : Nat) (now : Int) : Transport :=
  let buf := rewriteRtcp s.setup type buf len
  s.writeAndSend type origin none (if type = .remb then rembPriority else rtcpPriority)
    ((List.range len).map buf) now

/-- `queueData` -/
def Transport.queueData (s : Transport) (type : Rtcp.PacketType)
    (origin : Option (Processor × Nat)) (data : List UInt8) (a : Ambient) : Transport :=
  let buf := resetRelayPacketCodec s.setup (Mem.lay data a.stale) type
  if isRtcp buf then s.queueRtcp type origin buf data.length a.now
  else s.queueRtp extendedVideoSsrcs clock type origin buf data.length a.now

/-- `RelayPacket`, of a packet that a cache was asked for. -/
def Transport.relayPacket (p : Processor) (ambient : Nat → Ambient) (s : Transport)
    (r : Retransmit.Logged × Nat) : Transport :=
  s.queueData extendedVideoSsrcs clock .retransmit (some (p, r.1.index)) r.1.data (ambient r.2)

/-- `GetRtcpNackPackets` and `ProcessRtcpNackPackets` of one of the processors; a packet that
asks for something is counted. -/
def Transport.processNacks (s : Transport) (p : Processor) (m : Mem) (len : Nat)
    (ambient : Nat → Ambient) : Transport :=
  match getNacks everywhere m len with
  | .error _ => s
  | .ok nacks =>
    if nacks.length = 0 then s
    else
      let log := Retransmit.step (clock p) (s.logs p) (.nacks m len)
      let s' := { s with logs := Function.update s.logs p log }
      let s' := (log.relays.drop (s.logs p).relays.length).zipIdx.foldl
        (Transport.relayPacket extendedVideoSsrcs clock p ambient) s'
      { s' with status := s'.status.increaseNackCount false }

/-- The processor that `HandleNackItem` finds. -/
def askedProcessor (type : Rtcp.PacketType) (m : Mem) (len : Nat) : Option Processor :=
  match type with
  | .video =>
    match getFbnackMediaSsrc everywhere m len with
    | .ok mediaSsrc => some (getNackProcessor extendedVideoSsrcs mediaSsrc)
    | .error _ => none
  | .audio => some .audio
  | _ => none

/-- `HandleNackItem`; the packets it relays meet `ambient`, one after the other. -/
def Transport.handleNackItem (s : Transport) (type : Rtcp.PacketType) (m : Mem) (len : Nat)
    (ambient : Nat → Ambient) : Transport :=
  match askedProcessor extendedVideoSsrcs type m len with
  | some p => s.processNacks extendedVideoSsrcs clock p m len ambient
  | none => s

/-- What can happen: the settings change, a packet is queued, a NACK arrives, or the thread
that sends makes a round. -/
inductive Event
  | configure (setup : Setup)
  | queue (type : Rtcp.PacketType) (data : List UInt8) (a : Ambient)
  | nack (type : Rtcp.PacketType) (m : Mem) (len : Nat) (ambient : Nat → Ambient)
  | round (transportReady : Bool)

def step (s : Transport) : Event → Transport
  | .configure setup => { s with setup := setup }
  | .queue type data a => s.queueData extendedVideoSsrcs clock type none data a
  | .nack type m len ambient => s.handleNackItem extendedVideoSsrcs clock type m len ambient
  | .round transportReady =>
    { s with rtpSender := RtpSender.sendThreadLoop s.rtpSender transportReady }

/-- A run from the start, after `InitWithSsrcs`. -/
def run (setup : Setup) (events : List Event) : Transport :=
  events.foldl (step extendedVideoSsrcs clock)
    { setup := setup
      status := SendStatus.initWithSsrcs {} extendedVideoSsrcs setup.videoSsrc setup.audioSsrc }

end

/-! ### The queue of the sender -/

/-- All packets that the sender has, or had. -/
def Transport.handled (s : Transport) : List RtpSendPacket :=
  s.rtpSender.sendPq ++ s.rtpSender.written

theorem handled_writeAndSend (s : Transport) (type : Rtcp.PacketType)
    (origin : Option (Processor × Nat)) (pushed : Option Processor) (priority : Int)
    (data : List UInt8) (now : Int) :
    (s.writeAndSend type origin pushed priority data now).handled.Perm
      (s.handled ++ [⟨priority, RtpHeader.getSeqNumber data, now, 0, data⟩]) := by
  have hpush := @Heap.push_perm _ RtpSender.comparator s.rtpSender.sendPq
    ⟨priority, RtpHeader.getSeqNumber data, now, 0, data⟩
  show (Heap.push _ _ _ ++ s.rtpSender.written).Perm _
  refine (hpush.append_right s.rtpSender.written).trans ?_
  exact (List.perm_append_singleton _ s.handled).symm

/-- A round of the thread that sends takes nothing away, whatever the order in the queue. -/
theorem handled_round (s : RtpSender.State) (transportReady : Bool) :
    ((RtpSender.sendThreadLoop s transportReady).sendPq ++
      (RtpSender.sendThreadLoop s transportReady).written).Perm (s.sendPq ++ s.written) := by
  rcases transportReady with - | -
  · exact List.Perm.refl _
  · rcases htop : Heap.top s.sendPq with - | p
    · simp [RtpSender.sendThreadLoop, htop]
    · have hpq : s.sendPq = p :: s.sendPq.tail := (List.cons_head?_tail htop).symm
      have hpop := @Heap.pop_perm _ RtpSender.comparator s.sendPq
      have hloop : RtpSender.sendThreadLoop s true =
          ⟨Heap.pop RtpSender.comparator s.sendPq, s.written ++ [p]⟩ := by
        simp only [RtpSender.sendThreadLoop, htop]
      rw [hloop]
      show (Heap.pop _ s.sendPq ++ (s.written ++ [p])).Perm _
      refine (hpop.append_right _).trans ?_
      rw [hpq, List.tail_cons, ← List.append_assoc]
      exact List.perm_append_singleton p _

/-! ### What a call of `queueData` does -/

section

variable {ext : List UInt32} {clock : Processor → Nat → Int}

/-- The bytes are those of the buffer, as far as the header is concerned. -/
theorem header_map_range (buf : Mem) {len : Nat} (h : 12 ≤ len) :
    RtpHeader.getSSRC ((List.range len).map buf) = getSSRC buf ∧
      RtpHeader.getTimestamp ((List.range len).map buf) = getTimestamp buf := by
  have hbyte : ∀ i < 12, RtpHeader.byte ((List.range len).map buf) i = (buf i).toNat :=
    fun i hi => RtpHeader.byte_map_range buf (by omega)
  refine ⟨?_, ?_⟩
  · rw [RtpHeader.getSSRC, hbyte 8 (by omega), hbyte 9 (by omega), hbyte 10 (by omega),
      hbyte 11 (by omega), getSSRC]
    congr 1
    show _ = 256 * (256 * (256 * (256 * 0 + (buf 8).toNat) + (buf 9).toNat) + (buf 10).toNat) +
      (buf 11).toNat
    omega
  · rw [RtpHeader.getTimestamp, hbyte 4 (by omega), hbyte 5 (by omega), hbyte 6 (by omega),
      hbyte 7 (by omega), getTimestamp]
    congr 1
    show _ = 256 * (256 * (256 * (256 * 0 + (buf 4).toNat) + (buf 5).toNat) + (buf 6).toNat) +
      (buf 7).toNat
    omega

/-- What `SendingPacket` is told about a packet that is put into a cache. -/
def Queued.sent (q : Queued) : Option SentPacket :=
  if q.pushed.isSome then
    some ⟨decide (q.type = .video), RtpHeader.getSSRC q.packet.buf, Int32.ofNat q.packet.buf.length,
      RtpHeader.getTimestamp q.packet.buf⟩
  else none

/-- A packet is put only into the cache of its own stream. -/
def Queued.InPlace (ext : List UInt32) (q : Queued) : Prop :=
  ∀ p ∈ q.pushed, (q.type = .audio ∧ p = .audio) ∨
    (q.type = .video ∧ p ≠ .audio ∧ (12 ≤ q.packet.buf.length →
      p = getNackProcessor ext (RtpHeader.getSSRC q.packet.buf)))

/-- All that a call of `queueData` does: it hands one packet to the sender, and puts it into
at most one cache, and only then counts it. -/
structure Hands (ext : List UInt32) (clock : Processor → Nat → Int) (s s' : Transport)
    (q : Queued) : Prop where
  queued : s'.queued = s.queued ++ [q]
  handled : s'.handled.Perm (s.handled ++ [q.packet])
  setup : s'.setup = s.setup
  inPlace : q.InPlace ext
  logs : ∀ p, s'.logs p = s.logs p ∧ q.pushed ≠ some p ∨
    q.pushed = some p ∧ ∃ buf len, q.packet.buf = (List.range len).map buf ∧
      s'.logs p = Retransmit.step (clock p) (s.logs p) (.push buf len)
  status : (q.pushed.isSome → 12 ≤ q.packet.buf.length) →
    s'.status = (q.sent.toList).foldl SendStatus.sendingPacket s.status

theorem getNackProcessor_ne_audio (ext : List UInt32) (mediaSsrc : UInt32) :
    getNackProcessor ext mediaSsrc ≠ .audio := by
  rw [getNackProcessor]
  split
  · simp
  · simp

theorem hands_writeAndSend (s : Transport) (type : Rtcp.PacketType)
    (origin : Option (Processor × Nat)) (priority : Int) (data : List UInt8) (now : Int) :
    Hands ext clock s (s.writeAndSend type origin none priority data now)
      ⟨type, origin, none, ⟨priority, RtpHeader.getSeqNumber data, now, 0, data⟩⟩ where
  queued := rfl
  handled := handled_writeAndSend s type origin none priority data now
  setup := rfl
  inPlace p hp := by cases hp
  logs p := Or.inl ⟨rfl, by simp⟩
  status h := rfl

theorem getSSRC_setSSRC (buf : Mem) (ssrc : UInt32) : getSSRC (setSSRC buf ssrc) = ssrc := by
  rw [getSSRC, setSSRC, Mem.getBe_putBe_of_lt ssrc.toNat_lt]
  exact UInt32.ofNat_toNat

/-- The time stamp lies in front of the SSRC. -/
theorem getTimestamp_rewriteRtp (setup : Setup) (type : Rtcp.PacketType) (buf : Mem) :
    getTimestamp (rewriteRtp setup type buf) = getTimestamp buf := by
  have hset : ∀ ssrc, getTimestamp (setSSRC buf ssrc) = getTimestamp buf := by
    intro ssrc
    rw [getTimestamp, setSSRC, Mem.getBe_putBe_of_disjoint (by omega)]
    rfl
  cases type with
  | audio => exact hset _
  | video =>
    show getTimestamp (if setup.shouldRewriteSsrc then _ else buf) = _
    split
    · exact hset _
    · rfl
  | videoRtx => exact hset _
  | other => rfl
  | retransmit => rfl
  | remb => rfl

/-- A packet that is counted and put into a cache. -/
theorem hands_cached (s : Transport) {type : Rtcp.PacketType} {origin : Option (Processor × Nat)}
    {p : Processor} {priority now : Int} {buf : Mem} {len : Nat} {sent : SentPacket} {q : Queued}
    (hq : q = ⟨type, origin, some p,
      ⟨priority, RtpHeader.getSeqNumber ((List.range len).map buf), now, 0, (List.range len).map buf⟩⟩)
    (hin : q.InPlace ext) (hsent : 12 ≤ len → q.sent = some sent) :
    Hands ext clock s
      ((Transport.push clock { s with status := s.status.sendingPacket sent } p buf len).writeAndSend
        type origin (some p) priority ((List.range len).map buf) now) q := by
  subst hq
  refine ⟨rfl, handled_writeAndSend _ type origin (some p) priority _ now, rfl, hin, ?_, ?_⟩
  · intro p'
    show Function.update s.logs p _ p' = _ ∧ _ ∨ _
    by_cases hp : p' = p
    · subst hp
      exact Or.inr ⟨rfl, buf, len, rfl, Function.update_self _ _ _⟩
    · refine Or.inl ⟨Function.update_of_ne hp _ _, ?_⟩
      exact fun h => hp (Option.some.inj h).symm
  · intro hlong
    rw [hsent (by simpa using hlong rfl)]
    rfl

/-- What `queueData` does with a packet that it takes for RTP. -/
theorem hands_queueRtp (s : Transport) (type : Rtcp.PacketType)
    (origin : Option (Processor × Nat)) (buf : Mem) (len : Nat) (now : Int) :
    ∃ q, q.type = type ∧ q.origin = origin ∧
      Hands ext clock s (s.queueRtp ext clock type origin buf len now) q := by
  have hts := getTimestamp_rewriteRtp s.setup type buf
  have hssrc : type = .audio → getSSRC (rewriteRtp s.setup type buf) = s.setup.audioSsrc := by
    rintro rfl
    exact getSSRC_setSSRC buf _
  dsimp only [Transport.queueRtp]
  rw [← hts]
  generalize rewriteRtp s.setup type buf = buf at hssrc
  have hheader := fun h : 12 ≤ len => header_map_range buf h
  refine ⟨⟨type, origin, pushedTo ext type buf, ⟨rtpPriority type,
    RtpHeader.getSeqNumber ((List.range len).map buf), now, 0, (List.range len).map buf⟩⟩,
    rfl, rfl, ?_⟩
  cases type with
  | audio =>
    apply hands_cached s rfl
    · rintro p ⟨⟩
      exact Or.inl ⟨rfl, rfl⟩
    · intro hlen
      obtain ⟨h₁, h₂⟩ := hheader hlen
      simp [Queued.sent, h₁, h₂, hssrc]
  | video =>
    apply hands_cached s rfl
    · rintro p ⟨⟩
      refine Or.inr ⟨rfl, getNackProcessor_ne_audio _ _, ?_⟩
      intro hlen
      rw [(hheader (by simpa using hlen)).1]
    · intro hlen
      obtain ⟨h₁, h₂⟩ := hheader hlen
      simp [Queued.sent, h₁, h₂]
  | videoRtx => exact hands_writeAndSend s _ origin _ _ now
  | other => exact hands_writeAndSend s _ origin _ _ now
  | retransmit => exact hands_writeAndSend s _ origin _ _ now
  | remb => exact hands_writeAndSend s _ origin _ _ now

variable (ext clock) in
theorem hands_queueData (s : Transport) (type : Rtcp.PacketType)
    (origin : Option (Processor × Nat)) (data : List UInt8) (a : Ambient) :
    ∃ q, q.type = type ∧ q.origin = origin ∧
      Hands ext clock s (s.queueData ext clock type origin data a) q := by
  dsimp only [Transport.queueData]
  split
  · exact ⟨_, rfl, rfl, hands_writeAndSend s type origin _ _ a.now⟩
  · exact hands_queueRtp s type origin _ _ a.now

/-- A packet that is relayed goes out as it is. -/
theorem relayPacket_eq (s : Transport) (p : Processor) (ambient : Nat → Ambient)
    (r : Retransmit.Logged × Nat) :
    s.relayPacket ext clock p ambient r = s.writeAndSend .retransmit (some (p, r.1.index)) none
      retransmitPriority r.1.data (ambient r.2).now := by
  have hdata : (List.range r.1.data.length).map (Mem.lay r.1.data (ambient r.2).stale) = r.1.data := by
    have hholds := Mem.holds_iff_read.mp (Mem.holds_lay r.1.data (ambient r.2).stale)
    simpa [Mem.read] using hholds
  have hreset : resetRelayPacketCodec s.setup (Mem.lay r.1.data (ambient r.2).stale) .retransmit =
      Mem.lay r.1.data (ambient r.2).stale := if_neg (by simp)
  have hsame : ∀ data, data = r.1.data → s.writeAndSend .retransmit (some (p, r.1.index)) none
      retransmitPriority data (ambient r.2).now = s.writeAndSend .retransmit
        (some (p, r.1.index)) none retransmitPriority r.1.data (ambient r.2).now := by
    rintro _ rfl
    rfl
  dsimp only [Transport.relayPacket, Transport.queueData]
  rw [hreset]
  -- it is handed over in the same way if it is taken for RTCP
  split
  · exact hsame _ hdata
  · exact hsame _ hdata

/-- A packet that is relayed from the cache `p`, as the sender gets it. -/
def again (p : Processor) (ambient : Nat → Ambient) (r : Retransmit.Logged × Nat) : Queued where
  type := .retransmit
  origin := some (p, r.1.index)
  pushed := none
  packet := ⟨retransmitPriority, RtpHeader.getSeqNumber r.1.data, (ambient r.2).now, 0, r.1.data⟩

variable (ext clock) in
/-- The relays of a NACK, one after the other, go to the sender and nowhere else. -/
theorem foldl_relayPacket (p : Processor) (ambient : Nat → Ambient)
    (rs : List (Retransmit.Logged × Nat)) (s : Transport) :
    ∃ rtpSender, rs.foldl (Transport.relayPacket ext clock p ambient) s =
        { s with rtpSender := rtpSender, queued := s.queued ++ rs.map (again p ambient) } ∧
      (rtpSender.sendPq ++ rtpSender.written).Perm
        (s.handled ++ rs.map fun r => (again p ambient r).packet) := by
  induction rs generalizing s with
  | nil =>
    refine ⟨s.rtpSender, ?_, ?_⟩
    · simp
    · rw [List.map_nil, List.append_nil]
      exact List.Perm.refl _
  | cons r rs ih =>
    obtain ⟨rtpSender, heq, hperm⟩ := ih (s.relayPacket ext clock p ambient r)
    have hhandled := handled_writeAndSend s .retransmit (some (p, r.1.index)) none
      retransmitPriority r.1.data (ambient r.2).now
    refine ⟨rtpSender, ?_, ?_⟩
    · rw [List.foldl_cons, heq, relayPacket_eq, List.map_cons]
      simp [Transport.writeAndSend, again]
    · rw [relayPacket_eq] at hperm
      refine hperm.trans ((hhandled.append_right _).trans ?_)
      rw [List.append_assoc]
      exact List.Perm.refl _

end

/-! ### What a run keeps -/

/-- What was relayed has the bytes of a packet that was queued before it, with the same
place in the same cache. -/
def Again (pre : List Queued) (q : Queued) : Prop :=
  ∀ p k, q.origin = some (p, k) → q.type = .retransmit ∧ q.pushed = none ∧
    q.packet.priority = retransmitPriority ∧
      ∃ q₀, (pre.filter fun q => decide (q.pushed = some p))[k]? = some q₀ ∧
        q.packet.buf = q₀.packet.buf

/-- So it is for every packet and those before it. -/
def Faithful (l : List Queued) : Prop :=
  ∀ pre q post, l = pre ++ q :: post → Again pre q

theorem Again.append {pre : List Queued} {q : Queued} (h : Again pre q) (l : List Queued) :
    Again (pre ++ l) q := by
  intro p k hq
  obtain ⟨htype, hpushed, hprio, q₀, hq₀, hbuf⟩ := h p k hq
  refine ⟨htype, hpushed, hprio, q₀, ?_, hbuf⟩
  have hlt := (List.getElem?_eq_some_iff.mp hq₀).1
  rw [List.filter_append, List.getElem?_append_left hlt]
  exact hq₀

theorem Faithful.concat {l : List Queued} {q : Queued} (h : Faithful l) (hq : Again l q) :
    Faithful (l ++ [q]) := by
  intro pre q' post heq
  rcases List.eq_nil_or_concat post with rfl | ⟨post, q'', rfl⟩
  · obtain ⟨rfl, hlast⟩ := List.append_inj' heq rfl
    obtain rfl := List.singleton_inj.mp hlast
    exact hq
  · rw [List.concat_eq_append, ← List.cons_append, ← List.append_assoc] at heq
    exact h pre q' post (List.append_inj' heq rfl).1

theorem Faithful.append {l l' : List Queued} (h : Faithful l) (hq : ∀ q ∈ l', Again l q) :
    Faithful (l ++ l') := by
  induction l' using List.reverseRecOn with
  | nil => simpa using h
  | append_singleton l' q ih =>
    rw [← List.append_assoc]
    apply (ih fun x hx => hq x (List.mem_append_left _ hx)).concat
    exact (hq q (List.mem_append_right _ List.mem_cons_self)).append l'

structure Inv (ext : List UInt32) (s : Transport) : Prop where
  handled : s.handled.Perm (s.queued.map Queued.packet)
  counted : ∀ p, Retransmit.Counted (s.logs p).cache.retransmitList (s.logs p).pushes
    (s.logs p).relays
  pushes : ∀ p, (s.logs p).pushes.reverse.map Retransmit.Pushed.buf =
    (s.queued.filter fun q => decide (q.pushed = some p)).map fun q => q.packet.buf
  relays : ∀ p k, s.queued.countP (fun q => decide (q.origin = some (p, k))) =
    (Retransmit.timesOf k (s.logs p).relays).length
  faithful : Faithful s.queued
  inPlace : ∀ q ∈ s.queued, q.InPlace ext

section

variable {ext : List UInt32} {clock : Processor → Nat → Int} {s s' : Transport} {q : Queued}

theorem Inv.hands (h : Inv ext s) (hands : Hands ext clock s s' q) (horigin : q.origin = none) :
    Inv ext s' where
  handled := by
    rw [hands.queued, List.map_append]
    exact hands.handled.trans (h.handled.append_right _)
  counted p := by
    rcases hands.logs p with ⟨hsame, -⟩ | ⟨-, buf, len, -, hpush⟩
    · rw [hsame]
      exact h.counted p
    · rw [hpush]
      exact (h.counted p).push _ _ _
  pushes p := by
    rw [hands.queued, List.filter_append, List.map_append, ← h.pushes p]
    rcases hands.logs p with ⟨hsame, hne⟩ | ⟨hp, buf, len, hbuf, hpush⟩
    · rw [hsame, List.filter_singleton, decide_eq_false hne]
      simp
    · rw [hpush, List.filter_singleton, decide_eq_true hp]
      simp [Retransmit.step, hbuf]
  relays p k := by
    have hsame : (s'.logs p).relays = (s.logs p).relays := by
      rcases hands.logs p with ⟨hsame, -⟩ | ⟨-, buf, len, -, hpush⟩
      · rw [hsame]
      · rw [hpush]
        rfl
    rw [hands.queued, List.countP_append, h.relays p k, hsame, List.countP_singleton, horigin]
    rfl
  faithful := by
    rw [hands.queued]
    apply h.faithful.concat
    intro p k hq
    rw [horigin] at hq
    cases hq
  inPlace q' hq' := by
    rw [hands.queued] at hq'
    rcases List.mem_append.mp hq' with hq' | hq'
    · exact h.inPlace q' hq'
    · rw [List.mem_singleton.mp hq']
      exact hands.inPlace

/-- A NACK that asks for something. -/
def asks (m : Mem) (len : Nat) : Bool :=
  match getNacks everywhere m len with
  | .ok nacks => nacks.length ≠ 0
  | .error _ => false

/-- Any other is not read. -/
theorem processNacks_of_not_asks {m : Mem} {len : Nat} (hasks : asks m len = false) (s : Transport)
    (p : Processor) (ambient : Nat → Ambient) : s.processNacks ext clock p m len ambient = s := by
  rw [Transport.processNacks]
  rw [asks] at hasks
  rcases hnacks : getNacks everywhere m len with e | nacks
  · rfl
  · rw [hnacks] at hasks
    exact if_pos (by simpa using hasks)

/-- One that is read: the packets that a processor relays for it are handed over. -/
theorem processNacks_of_asks {m : Mem} {len : Nat} (hasks : asks m len = true) (s : Transport)
    (p : Processor) (ambient : Nat → Ambient) :
    ∃ (log : Retransmit.Log) (rtpSender : RtpSender.State) (new : List Retransmit.Logged),
      s.processNacks ext clock p m len ambient =
        { s with
          logs := Function.update s.logs p log
          status := s.status.increaseNackCount false
          rtpSender := rtpSender
          queued := s.queued ++ new.zipIdx.map (again p ambient) } ∧
      (rtpSender.sendPq ++ rtpSender.written).Perm
        (s.handled ++ new.zipIdx.map fun r => (again p ambient r).packet) ∧
      log = Retransmit.step (clock p) (s.logs p) (.nacks m len) ∧
      log.relays = (s.logs p).relays ++ new := by
  rw [asks] at hasks
  rw [Transport.processNacks]
  rcases hnacks : getNacks everywhere m len with e | nacks
  · rw [hnacks] at hasks
    cases hasks
  · rw [hnacks] at hasks
    have hsome : ¬ nacks.length = 0 := of_decide_eq_true hasks
    have hdrop : (Retransmit.step (clock p) (s.logs p) (.nacks m len)).relays.drop
        (s.logs p).relays.length =
        (Retransmit.processRtcpNackPackets (clock p) (s.logs p).cache m len).relays.map
          (Retransmit.Relay.log (s.logs p).pushes.length) := List.drop_left
    obtain ⟨rtpSender, heq, hperm⟩ := foldl_relayPacket ext clock p ambient
      ((Retransmit.processRtcpNackPackets (clock p) (s.logs p).cache m len).relays.map
        (Retransmit.Relay.log (s.logs p).pushes.length)).zipIdx
      { s with logs := Function.update s.logs p
                (Retransmit.step (clock p) (s.logs p) (.nacks m len)) }
    refine ⟨_, rtpSender, _, ?_, hperm, rfl, rfl⟩
    simp only [if_neg hsome]
    rw [hdrop, heq]

variable (ext clock) in
/-- Nothing happens, or a NACK that asks for something is read by a processor. -/
theorem handleNackItem_cases (s : Transport) (type : Rtcp.PacketType) (m : Mem) (len : Nat)
    (ambient : Nat → Ambient) :
    (¬ ((askedProcessor ext type m len).isSome ∧ asks m len) ∧
      s.handleNackItem ext clock type m len ambient = s) ∨
    ∃ p, askedProcessor ext type m len = some p ∧ asks m len = true ∧
      s.handleNackItem ext clock type m len ambient =
        s.processNacks ext clock p m len ambient := by
  rw [Transport.handleNackItem]
  rcases hasked : askedProcessor ext type m len with - | p
  · exact Or.inl ⟨by simp, rfl⟩
  · rcases hasks : asks m len with - | -
    · exact Or.inl ⟨by simp, processNacks_of_not_asks hasks s p ambient⟩
    · exact Or.inr ⟨p, rfl, rfl, rfl⟩

/-- What is relayed then are packets of the cache. -/
theorem processNacks_spec (hclock : ∀ p i j, i ≤ j → clock p i ≤ clock p j) (h : Inv ext s)
    (p : Processor) {m : Mem} {len : Nat} (hasks : asks m len = true) (ambient : Nat → Ambient) :
    ∃ (log : Retransmit.Log) (rtpSender : RtpSender.State) (new : List Retransmit.Logged),
      s.processNacks ext clock p m len ambient =
        { s with
          logs := Function.update s.logs p log
          status := s.status.increaseNackCount false
          rtpSender := rtpSender
          queued := s.queued ++ new.zipIdx.map (again p ambient) } ∧
      (rtpSender.sendPq ++ rtpSender.written).Perm
        (s.handled ++ new.zipIdx.map fun r => (again p ambient r).packet) ∧
      log.pushes = (s.logs p).pushes ∧ log.relays = (s.logs p).relays ++ new ∧
      Retransmit.Counted log.cache.retransmitList log.pushes log.relays ∧
      ∀ l ∈ new, ∃ pk, (s.logs p).pushes.reverse[l.index]? = some pk ∧ l.data = pk.buf := by
  obtain ⟨log, rtpSender, new, heq, hperm, rfl, hrelays⟩ := processNacks_of_asks hasks s p ambient
  obtain ⟨nacks, -, hcalled⟩ :=
    Retransmit.called_processRtcpNackPackets (hclock p) (h.counted p) m len
  refine ⟨_, rtpSender, new, heq, hperm, rfl, hrelays, hcalled.counted, ?_⟩
  obtain rfl := List.append_cancel_left hrelays
  exact fun l hl => hcalled.exists_pushed hl

/-- The packets of a NACK come from the cache that it asks. -/
theorem again_of_pushed (h : Inv ext s) {p : Processor} {l : Retransmit.Logged}
    (hl : ∃ pk, (s.logs p).pushes.reverse[l.index]? = some pk ∧ l.data = pk.buf)
    (ambient : Nat → Ambient) (i : Nat) :
    Again s.queued (again p ambient (l, i)) := by
  rintro p' k ⟨⟩
  obtain ⟨pk, hpk, hdata⟩ := hl
  refine ⟨rfl, rfl, rfl, ?_⟩
  have hplace := congrArg (fun list => list[l.index]?) (h.pushes p)
  simp only [List.getElem?_map] at hplace
  rw [hpk, Option.map_some] at hplace
  obtain ⟨q₀, hq₀, hbuf⟩ := Option.map_eq_some_iff.mp hplace.symm
  exact ⟨q₀, hq₀, by rw [hbuf]; exact hdata⟩

theorem Inv.processNacks (hclock : ∀ p i j, i ≤ j → clock p i ≤ clock p j) (h : Inv ext s)
    (p : Processor) {m : Mem} {len : Nat} (hasks : asks m len = true) (ambient : Nat → Ambient) :
    Inv ext (s.processNacks ext clock p m len ambient) := by
  obtain ⟨log, rtpSender, new, heq, hperm, hpushes, hrelays, hcounted, hnew⟩ :=
    processNacks_spec hclock h p hasks ambient
  rw [heq]
  refine ⟨?_, ?_, ?_, ?_, ?_, ?_⟩
  · show (rtpSender.sendPq ++ rtpSender.written).Perm _
    refine hperm.trans ?_
    rw [List.map_append, List.map_map]
    exact h.handled.append_right _
  · intro p'
    show Retransmit.Counted (Function.update s.logs p log p').cache.retransmitList
      (Function.update s.logs p log p').pushes (Function.update s.logs p log p').relays
    by_cases hp : p' = p
    · subst hp
      rw [Function.update_self]
      exact hcounted
    · rw [Function.update_of_ne hp]
      exact h.counted p'
  · intro p'
    have hnone : (new.zipIdx.map (again p ambient)).filter
        (fun q => decide (q.pushed = some p')) = [] := by
      rw [List.filter_eq_nil_iff]
      intro q hq
      obtain ⟨r, -, rfl⟩ := List.mem_map.mp hq
      simp [again]
    show (Function.update s.logs p log p').pushes.reverse.map _ = _
    rw [List.filter_append, hnone, List.append_nil, ← h.pushes p']
    by_cases hp : p' = p
    · subst hp
      rw [Function.update_self, hpushes]
    · rw [Function.update_of_ne hp]
  · intro p' k
    show (s.queued ++ _).countP _ =
      (Retransmit.timesOf k (Function.update s.logs p log p').relays).length
    rw [List.countP_append, h.relays p' k, List.countP_map]
    by_cases hp : p' = p
    · subst hp
      have hcount : new.zipIdx.countP ((fun q => decide (q.origin = some (p', k))) ∘
          again p' ambient) = new.countP fun l => decide (l.index = k) := by
        conv_rhs => rw [← List.zipIdx_map_fst 0 new, List.countP_map]
        apply List.countP_congr
        intro r _
        simp [again]
      rw [hcount, Function.update_self, hrelays, Retransmit.length_timesOf,
        Retransmit.length_timesOf, List.countP_append]
    · have hcount : new.zipIdx.countP ((fun q => decide (q.origin = some (p', k))) ∘
          again p ambient) = 0 := by
        rw [List.countP_eq_zero]
        intro r _
        simp [again, Ne.symm hp]
      rw [hcount, Function.update_of_ne hp]
      rfl
  · apply h.faithful.append
    intro q hq
    obtain ⟨⟨l, i⟩, hr, rfl⟩ := List.mem_map.mp hq
    exact again_of_pushed h (hnew l (List.fst_mem_of_mem_zipIdx hr)) ambient i
  · intro q hq
    rcases List.mem_append.mp hq with hq | hq
    · exact h.inPlace q hq
    · obtain ⟨r, -, rfl⟩ := List.mem_map.mp hq
      rintro p' ⟨⟩

theorem Inv.step (hclock : ∀ p i j, i ≤ j → clock p i ≤ clock p j) (h : Inv ext s) (e : Event) :
    Inv ext (TransportSend.step ext clock s e) := by
  cases e with
  | configure setup => exact ⟨h.handled, h.counted, h.pushes, h.relays, h.faithful, h.inPlace⟩
  | queue type data a =>
    obtain ⟨q, -, horigin, hands⟩ := hands_queueData ext clock s type none data a
    exact h.hands hands horigin
  | nack type m len ambient =>
    show Inv ext (s.handleNackItem ext clock type m len ambient)
    rcases handleNackItem_cases ext clock s type m len ambient with ⟨-, hsame⟩ |
      ⟨p, -, hasks, heq⟩
    · rw [hsame]
      exact h
    · rw [heq]
      exact h.processNacks hclock p hasks ambient
  | round transportReady =>
    refine ⟨?_, h.counted, h.pushes, h.relays, h.faithful, h.inPlace⟩
    exact (handled_round s.rtpSender transportReady).trans h.handled

variable (ext) in
theorem inv_run (hclock : ∀ p i j, i ≤ j → clock p i ≤ clock p j) (setup : Setup)
    (events : List Event) : Inv ext (run ext clock setup events) := by
  induction events using List.reverseRecOn with
  | nil =>
    refine ⟨List.Perm.refl _, fun p => Retransmit.Counted.init, fun p => rfl, fun p k => rfl, ?_, ?_⟩
    · intro pre q post heq
      simp [run] at heq
    · intro q hq
      cases hq
  | append_singleton events e ih =>
    rw [run, List.foldl_append]
    exact ih.step hclock e

theorem asked_cases {type : Rtcp.PacketType} {m : Mem} {len : Nat} {p : Processor}
    (h : askedProcessor ext type m len = some p) :
    type = .audio ∧ p = .audio ∨ type = .video ∧
      ∃ x, getFbnackMediaSsrc everywhere m len = .ok x ∧ p = getNackProcessor ext x := by
  cases type with
  | audio => exact Or.inl ⟨rfl, (Option.some.inj h).symm⟩
  | video =>
    refine Or.inr ⟨rfl, ?_⟩
    change (match getFbnackMediaSsrc everywhere m len with
      | .ok mediaSsrc => some (getNackProcessor ext mediaSsrc)
      | .error _ => none) = some p at h
    rcases hx : getFbnackMediaSsrc everywhere m len with e | x
    · rw [hx] at h
      cases h
    · rw [hx] at h
      exact ⟨x, rfl, (Option.some.inj h).symm⟩
  | videoRtx => cases h
  | other => cases h
  | retransmit => cases h
  | remb => cases h

/-- Two SSRCs with the same processor are the same, or both have no processor of their own. -/
theorem same_processor {x y : UInt32} (h : getNackProcessor ext x = getNackProcessor ext y) :
    if x ∈ ext then y = x else y ∉ ext := by
  rw [getNackProcessor, getNackProcessor] at h
  by_cases hx : x ∈ ext
  · by_cases hy : y ∈ ext
    · rw [if_pos hx, if_pos hy] at h
      rw [if_pos hx]
      exact (Processor.extended.inj h).symm
    · rw [if_pos hx, if_neg hy] at h
      cases h
  · by_cases hy : y ∈ ext
    · rw [if_neg hx, if_pos hy] at h
      cases h
    · rw [if_neg hx]
      exact hy

/-- A packet in the cache that a NACK asks is of the medium and of the stream it is about. -/
theorem own_of_asked (h : Inv ext s) {type : Rtcp.PacketType} {m : Mem} {len : Nat} {p : Processor}
    (hasked : askedProcessor ext type m len = some p) (hmem : q ∈ s.queued)
    (hpushed : q.pushed = some p) :
    q.type = type ∧ ∀ x, type = .video → getFbnackMediaSsrc everywhere m len = .ok x →
      12 ≤ q.packet.buf.length →
        if x ∈ ext then RtpHeader.getSSRC q.packet.buf = x
        else RtpHeader.getSSRC q.packet.buf ∉ ext := by
  have hplace := h.inPlace q hmem p hpushed
  refine ⟨?_, ?_⟩
  · rcases asked_cases hasked with ⟨rfl, rfl⟩ | ⟨rfl, x, -, rfl⟩
    · rcases hplace with ⟨htype, -⟩ | ⟨-, hne, -⟩
      · exact htype
      · exact absurd rfl hne
    · rcases hplace with ⟨-, haudio⟩ | ⟨htype, -⟩
      · exact absurd haudio (getNackProcessor_ne_audio ext x)
      · exact htype
  · rintro x rfl hx hlen
    rcases asked_cases hasked with ⟨habs, -⟩ | ⟨-, y, hy, rfl⟩
    · cases habs
    · obtain rfl := Except.ok.inj (hx.symm.trans hy)
      rcases hplace with ⟨-, haudio⟩ | ⟨-, -, hown⟩
      · exact absurd haudio (getNackProcessor_ne_audio ext x)
      · exact same_processor (hown hlen)

/-- A video packet with number 5. -/
def packetFive (ssrc : UInt8) : List UInt8 := [0x80, 100, 0, 5, 0, 0, 0, 9, 0, 0, 0, ssrc]

/-- A NACK for number 5. -/
def nackFive (ssrc : UInt8) : Mem :=
  Mem.lay [0x81, 205, 0, 3, 0, 0, 0, 1, 0, 0, 0, ssrc, 0, 5, 0, 0] fun _ => 0

def ownSsrcs : Setup where
  remoteAudioSsrc := 1
  remoteVideoSsrc := 2
  remoteVideoRtxSsrc := 3
  shouldRewriteSsrc := false

/-- Two streams, one of them with a cache of its own. -/
def twoStreams : List Event :=
  [.queue .video (packetFive 7) ⟨fun _ => 0, 0⟩, .queue .video (packetFive 8) ⟨fun _ => 0, 0⟩]

/-- The run of the two streams, and a NACK for the first one. -/
def nackedRun : Transport :=
  run [7] (fun _ n => 20 * n) ownSsrcs
    (twoStreams ++ [.nack .video (nackFive 7) 16 fun _ => ⟨fun _ => 0, 1⟩])

theorem nackedRun_clock (p : Processor) (i j : Nat) (h : i ≤ j) :
    (fun (_ : Processor) n => ((20 * n : Nat) : Int)) p i ≤
      (fun (_ : Processor) n => ((20 * n : Nat) : Int)) p j := by
  show ((20 * i : Nat) : Int) ≤ ((20 * j : Nat) : Int)
  omega

/-- After every run under clocks that do not go back: each packet that was handed to the sender is
in its queue or was written to the transport, once; what was relayed has the bytes of a packet
of the cache that was queued before, and is neither cached nor rewritten again; and no packet is
relayed more than five times. -/
theorem retransmissions (hclock : ∀ p i j, i ≤ j → clock p i ≤ clock p j) (setup : Setup)
    (events : List Event) :
    (run ext clock setup events).handled.Perm
        ((run ext clock setup events).queued.map Queued.packet) ∧
      Faithful (run ext clock setup events).queued ∧
      ∀ p k, (run ext clock setup events).queued.countP
        (fun q => decide (q.origin = some (p, k))) ≤ 5 := by
  have hinv := inv_run ext hclock setup events
  refine ⟨hinv.handled, hinv.faithful, ?_⟩
  intro p k
  rw [hinv.relays p k]
  exact ((hinv.counted p).bounded k).1

theorem retransmissions_five :
    nackedRun.queued.map (fun q => (q.origin, q.pushed)) = [(none, some (.extended 7)),
        (none, some .defaultVideo), (some (.extended 7, 0), none)] ∧
      Faithful nackedRun.queued ∧ nackedRun.handled.Perm (nackedRun.queued.map Queued.packet) := by
  obtain ⟨hperm, hfaithful, -⟩ := @retransmissions [7] _ nackedRun_clock ownSsrcs
    (twoStreams ++ [.nack .video (nackFive 7) 16 fun _ => ⟨fun _ => 0, 1⟩])
  exact ⟨by decide +kernel, hfaithful, hperm⟩

/-- A NACK on the video makes the stream that it names send packets again, or all video that
has no cache of its own; one on the audio the audio.  The other caches are as before, and so are
the sender reports: of the statistics only the number of NACKs received goes up. -/
theorem nack_isolation (hclock : ∀ p i j, i ≤ j → clock p i ≤ clock p j) (setup : Setup)
    (events : List Event) (type : Rtcp.PacketType) (m : Mem) (len : Nat) (ambient : Nat → Ambient) :
    ∃ new, (run ext clock setup (events ++ [.nack type m len ambient])).queued =
        (run ext clock setup events).queued ++ new ∧
      (run ext clock setup (events ++ [.nack type m len ambient])).status =
        (if (askedProcessor ext type m len).isSome ∧ asks m len then
          (run ext clock setup events).status.increaseNackCount false
        else (run ext clock setup events).status) ∧
      (∀ ssrc, RtcpSender.report (run ext clock setup (events ++ [.nack type m len ambient])).status
        ssrc = RtcpSender.report (run ext clock setup events).status ssrc) ∧
      (∀ p, askedProcessor ext type m len ≠ some p →
        (run ext clock setup (events ++ [.nack type m len ambient])).logs p =
          (run ext clock setup events).logs p) ∧
      ∀ q ∈ new, ∃ q₀ ∈ (run ext clock setup events).queued, q.packet.buf = q₀.packet.buf ∧
        q₀.type = type ∧ ∀ x, type = .video → getFbnackMediaSsrc everywhere m len = .ok x →
          12 ≤ q.packet.buf.length →
            if x ∈ ext then RtpHeader.getSSRC q.packet.buf = x
            else RtpHeader.getSSRC q.packet.buf ∉ ext := by
  have hinv := inv_run ext hclock setup events
  have hrun : run ext clock setup (events ++ [.nack type m len ambient]) =
      (run ext clock setup events).handleNackItem ext clock type m len ambient := by
    rw [run, List.foldl_append]
    rfl
  rw [hrun]
  generalize run ext clock setup events = s at hinv
  have hnothing : s = { s with queued := s.queued ++ [] } := by
    rw [List.append_nil]
  rcases handleNackItem_cases ext clock s type m len ambient with ⟨hno, hsame⟩ |
    ⟨p, hasked, hasks, hprocess⟩
  · rw [hsame, if_neg hno]
    exact ⟨[], congrArg Transport.queued hnothing, rfl, fun _ => rfl, fun _ _ => rfl,
      fun q hq => by cases hq⟩
  · have hread : (askedProcessor ext type m len).isSome ∧ asks m len := by
      rw [hasked]
      exact ⟨rfl, hasks⟩
    obtain ⟨log, rtpSender, new, heq, -, -, -, -, hnew⟩ :=
      processNacks_spec hclock hinv p hasks ambient
    rw [hprocess, heq, if_pos hread]
    refine ⟨_, rfl, rfl, ?_, ?_, ?_⟩
    · intro ssrc
      exact RtcpSender.report_congr ssrc (SendStatus.increaseNackCount_mapSendPacketsStatus _ _)
    · intro p' hp
      exact Function.update_of_ne (fun h => hp (by rw [hasked, h])) _ _
    · intro q hq
      obtain ⟨⟨l, i⟩, hr, rfl⟩ := List.mem_map.mp hq
      obtain ⟨-, -, -, q₀, hq₀, hbuf⟩ := again_of_pushed hinv
        (hnew l (List.fst_mem_of_mem_zipIdx hr)) ambient i p l.index rfl
      obtain ⟨hmem, hpushed⟩ := List.mem_filter.mp (List.mem_of_getElem? hq₀)
      obtain ⟨htype, hown⟩ := own_of_asked hinv hasked hmem (of_decide_eq_true hpushed)
      rw [hbuf]
      exact ⟨q₀, hmem, rfl, htype, hown⟩

theorem nack_isolation_five :
    ∃ q ∈ nackedRun.queued, q.origin = some (.extended 7, 0) ∧
      RtpHeader.getSSRC q.packet.buf = 7 := by
  obtain ⟨new, hqueued, -, -, -, hnew⟩ := @nack_isolation [7] _ nackedRun_clock ownSsrcs
    twoStreams .video (nackFive 7) 16 fun _ => ⟨fun _ => 0, 1⟩
  have hlast : nackedRun.queued = (run [7] (fun _ n => 20 * n) ownSsrcs twoStreams).queued ++
      [⟨.retransmit, some (.extended 7, 0), none, ⟨5, 5, 1, 0, packetFive 7⟩⟩] := by
    decide +kernel
  obtain rfl := List.append_cancel_left (hqueued.symm.trans hlast)
  refine ⟨_, hqueued ▸ List.mem_append_right _ List.mem_cons_self, rfl, ?_⟩
  obtain ⟨q₀, -, -, -, hssrc⟩ := hnew _ List.mem_cons_self
  exact hssrc 7 rfl (by decide +kernel) (by decide)

/-- What the statistics were told of packets, as long as these have a whole header. -/
theorem status_run (setup : Setup) (events : List Event)
    (hlong : ∀ q ∈ (run ext clock setup events).queued,
      q.pushed.isSome → 12 ≤ q.packet.buf.length) :
    (run ext clock setup events).status.mapSendPacketsStatus =
      (((run ext clock setup events).queued.filterMap Queued.sent).foldl SendStatus.sendingPacket
        (SendStatus.initWithSsrcs {} ext setup.videoSsrc setup.audioSsrc)).mapSendPacketsStatus := by
  induction events using List.reverseRecOn with
  | nil => rfl
  | append_singleton events e ih =>
    have hrun : run ext clock setup (events ++ [e]) =
        step ext clock (run ext clock setup events) e := by
      rw [run, List.foldl_append]
      rfl
    rw [hrun] at hlong ⊢
    generalize run ext clock setup events = s at ih hlong
    cases e with
    | configure setup => exact ih hlong
    | round transportReady => exact ih hlong
    | queue type data a =>
      obtain ⟨q, -, -, hands⟩ := hands_queueData ext clock s type none data a
      change ∀ q ∈ (s.queueData ext clock type none data a).queued, _ at hlong
      show (s.queueData ext clock type none data a).status.mapSendPacketsStatus =
        SendStatus.mapSendPacketsStatus
          (((s.queueData ext clock type none data a).queued.filterMap _).foldl _ _)
      rw [hands.queued] at hlong ⊢
      rw [hands.status (hlong q (List.mem_append_right _ List.mem_cons_self)), List.filterMap_append,
        List.foldl_append]
      have hbefore := ih fun q hq => hlong q (List.mem_append_left _ hq)
      rcases hsent : q.sent with - | sent
      · simpa [hsent] using hbefore
      · simpa [hsent] using SendStatus.sendingPacket_congr sent hbefore
    | nack type m len ambient =>
      change ∀ q ∈ (s.handleNackItem ext clock type m len ambient).queued, _ at hlong
      show (s.handleNackItem ext clock type m len ambient).status.mapSendPacketsStatus =
        SendStatus.mapSendPacketsStatus
          (((s.handleNackItem ext clock type m len ambient).queued.filterMap _).foldl _ _)
      rcases handleNackItem_cases ext clock s type m len ambient with ⟨-, hsame⟩ |
        ⟨p, -, hasks, hprocess⟩
      · rw [hsame] at hlong ⊢
        exact ih hlong
      · -- what is relayed is in no cache, and so it was not counted
        obtain ⟨log, rtpSender, new, heq, -, -, -⟩ := processNacks_of_asks hasks s p ambient
        rw [hprocess, heq] at hlong ⊢
        have hnone : (new.zipIdx.map (again p ambient)).filterMap Queued.sent = [] := by
          rw [List.filterMap_eq_nil_iff]
          intro q hq
          obtain ⟨r, -, rfl⟩ := List.mem_map.mp hq
          rfl
        rw [List.filterMap_append, hnone, List.append_nil,
          SendStatus.increaseNackCount_mapSendPacketsStatus]
        exact ih fun q hq => hlong q (List.mem_append_left _ hq)

/-- The packets that `SendingPacket` was told about, for one SSRC. -/
theorem sentOn_filterMap (ssrc : UInt32) (l : List Queued) :
    SendStatus.sentOn ssrc (l.filterMap Queued.sent) =
      (l.filter fun q => q.pushed.isSome && decide (RtpHeader.getSSRC q.packet.buf = ssrc)).filterMap
        Queued.sent := by
  induction l with
  | nil => rfl
  | cons q l ih =>
    by_cases hpushed : q.pushed.isSome
    · have hsent : q.sent = some ⟨decide (q.type = .video), RtpHeader.getSSRC q.packet.buf,
          Int32.ofNat q.packet.buf.length, RtpHeader.getTimestamp q.packet.buf⟩ := if_pos hpushed
      rw [List.filterMap_cons_some hsent, SendStatus.sentOn_cons, List.filter_cons]
      by_cases hssrc : RtpHeader.getSSRC q.packet.buf = ssrc
      · rw [if_pos hssrc, if_pos (by simp [hpushed, hssrc]), List.filterMap_cons_some hsent, ih]
      · rw [if_neg hssrc, if_neg (by simp [hssrc]), ih]
    · have hsent : q.sent = none := if_neg hpushed
      rw [List.filterMap_cons_none hsent, ih, List.filter_cons_of_neg (by simp [hpushed])]

/-- After every run of packets with whole headers: the packets and bytes that the sender
reports of an SSRC show are those of the media packets with this SSRC, each counted when it
was queued first, and not when it was sent again. -/
theorem reported_once (setup : Setup) (events : List Event)
    (hlong : ∀ q ∈ (run ext clock setup events).queued, q.pushed.isSome → 12 ≤ q.packet.buf.length)
    {ssrc : UInt32} (hssrc : ssrc ∈ (run ext clock setup events).status.mapSendPacketsStatus) :
    (run ext clock setup events).status.getSendPackets ssrc =
        Int32.ofNat ((run ext clock setup events).queued.countP fun q =>
          q.pushed.isSome && decide (RtpHeader.getSSRC q.packet.buf = ssrc)) ∧
      (run ext clock setup events).status.getSendBytes ssrc =
        Int32.ofInt (((run ext clock setup events).queued.filter fun q =>
          q.pushed.isSome && decide (RtpHeader.getSSRC q.packet.buf = ssrc)).map fun q =>
            (Int32.ofNat q.packet.buf.length).toInt).sum := by
  have hstatus := status_run setup events hlong
  obtain ⟨hpackets, hbytes, -⟩ := SendStatus.run_counters ext setup.videoSsrc setup.audioSsrc _
    hstatus hssrc
  generalize (run ext clock setup events).queued = l at hpackets hbytes
  have hall : ∀ l : List Queued, (∀ q ∈ l, q.pushed.isSome) → l.filterMap Queued.sent =
      l.map fun q => ⟨decide (q.type = .video), RtpHeader.getSSRC q.packet.buf,
        Int32.ofNat q.packet.buf.length, RtpHeader.getTimestamp q.packet.buf⟩ := by
    intro l hl
    rw [← List.filterMap_eq_map]
    apply List.filterMap_congr
    intro q hq
    exact if_pos (hl q hq)
  have hpushed : ∀ q ∈ l.filter fun q =>
      q.pushed.isSome && decide (RtpHeader.getSSRC q.packet.buf = ssrc), q.pushed.isSome := by
    intro q hq
    have hcond := (List.mem_filter.mp hq).2
    rw [Bool.and_eq_true] at hcond
    exact hcond.1
  rw [sentOn_filterMap, hall _ hpushed] at hpackets hbytes
  refine ⟨?_, ?_⟩
  · rw [hpackets, List.length_map, List.countP_eq_length_filter]
  · rw [hbytes, List.map_map]
    rfl

theorem reported_once_five : nackedRun.status.getSendPackets 7 = 1 := by
  obtain ⟨hpackets, -⟩ := @reported_once [7] (fun _ n => 20 * n) ownSsrcs
    (twoStreams ++ [.nack .video (nackFive 7) 16 fun _ => ⟨fun _ => 0, 1⟩])
    (by decide +kernel) 7 (by decide +kernel)
  exact hpackets.trans (by decide +kernel)

end

end Orbit.TransportSend
