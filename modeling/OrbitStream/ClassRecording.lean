/-
OrbitStream/ClassRecording.lean

The recording of a class: `RtpCapture` writes each packet that comes in to a file
(`debug_server/rtp_capture.cc`), and `ReplayPipeline` reads it back and hands the packets of each
stream to a recorder of its own (`replay_pipeline/replay_pipeline.cc`).

The task to replay a file is given out before the file is closed, and the file is opened once
more for each recorder, to find out how its video is encoded.  So each time it may be cut
somewhere, later than the times before.  `recording` says what the recorders get then.
-/
import OrbitStream.RecordIO
import OrbitStream.StreamRecorder
import OrbitStream.TransportStack

namespace Orbit.ClassRecording

open RecordIO StreamRecorder

/-! ### `stored_rtp.proto` -/

inductive StoredPacketType
  | rtpPacket
  | rtcpPacket
  deriving DecidableEq, Repr

inductive StoredMediaType
  | any
  | audio
  | video
  | data
  | videoRtx
  deriving DecidableEq, Repr

structure StoredPacket where
  packetType : StoredPacketType
  transportId : Int
  ts : UInt32
  remoteNtpTimeMs : Int
  rtpTimestamp : UInt32
  type : StoredMediaType
  packetLength : Nat
  headerLength : Nat
  data : List UInt8
  deriving DecidableEq, Repr

/-! ### Capturing -/

/-- What `CapturePacket` is called with, and the time it is called at, in ms. -/
structure Capture where
  transportId : Int
  packet : MediaPacket
  rtpTimestamp : UInt32 := 0xFFFFFFFF
  now : Nat

/-- The media types that are told apart in a file. -/
def storedType : Rtcp.PacketType → StoredMediaType
  | .audio => .audio
  | .video => .video
  | .videoRtx => .videoRtx
  | _ => .any

/-- The message that `CapturePacket` writes. -/
def Capture.stored (c : Capture) : StoredPacket where
  type := storedType c.packet.type
  packetType := if TransportStack.isRtcp c.packet.data = true then .rtcpPacket else .rtpPacket
  packetLength := c.packet.length
  headerLength := 12
  data := c.packet.data.take c.packet.length
  ts := .ofNat c.now
  remoteNtpTimeMs := c.packet.remoteNtpTimeMs
  rtpTimestamp := c.rtpTimestamp
  transportId := c.transportId

variable (proto : Proto StoredPacket) (z : Zlib)

/-- `RtpCapture::CapturePacket`, on the file. -/
def capturePacket (file : List UInt8) (c : Capture) : List UInt8 :=
  writeProtocolMessage proto z true file c.stored

/-- The file after some packets were captured. -/
def captured (captures : List Capture) : List UInt8 := captures.foldl (capturePacket proto z) []

/-! ### Replaying -/

/-- How a replay may fail: the program ends, or it reads or writes past the end of a buffer. -/
inductive Fault
  | fatal (f : Fatal)
  | bounds
  deriving DecidableEq, Repr

section

variable {proto z} {P : Type*} {proto' : Proto P}

/-- A read takes its bytes off the file. -/
theorem read_ok {n : Nat} {file : List UInt8} {m : P} {rest : List UInt8}
    {next : List UInt8 → List UInt8 → Except Fatal (Option P × List UInt8)}
    (h : read n file next = .ok (some m, rest)) :
    n ≤ file.length ∧ next (file.take n) (file.drop n) = .ok (some m, rest) := by
  unfold RecordIO.read at h
  split at h
  · cases h
  · rename_i hlength
    rw [List.length_take] at hlength
    exact ⟨by omega, h⟩

/-- A message takes some bytes, whatever the file holds. -/
theorem length_readProtocolMessage {file rest : List UInt8} {m : P}
    (h : readProtocolMessage proto' z file = .ok (some m, rest)) : rest.length < file.length := by
  obtain ⟨hfour, h⟩ := read_ok h
  split at h
  · cases h
  · obtain ⟨-, h⟩ := read_ok h
    obtain ⟨-, h⟩ := read_ok h
    split at h
    · obtain ⟨-, h⟩ := read_ok h
      split at h
      · cases h
      · obtain ⟨-, rfl⟩ := Prod.mk.inj (Except.ok.inj h)
        simp only [List.length_drop]
        omega
    · obtain ⟨-, h⟩ := read_ok h
      obtain ⟨-, rfl⟩ := Prod.mk.inj (Except.ok.inj h)
      simp only [List.length_drop]
      omega

end

/-- `do { packet = replay->Next(); .. } while (packet != NULL)`: `body` says whether the loop is
left for a packet. -/
def replay {σ : Type*} (body : σ → StoredPacket → Except Fault (Bool × σ)) (s : σ)
    (file : List UInt8) : Except Fault σ :=
  match _h : readProtocolMessage proto z file with
  | .error f => .error (.fatal f)
  | .ok (none, _) => .ok s
  | .ok (some packet, rest) =>
    match body s packet with
    | .error e => .error e
    | .ok (true, s) => .ok s
    | .ok (false, s) => replay body s rest
termination_by file.length
decreasing_by exact length_readProtocolMessage _h

/-- `memcpy(&(p.data[0]), .., pkt->packet_length())`, into a buffer of 1500 bytes. -/
def load (packet : StoredPacket) : Except Fault (List UInt8) :=
  if packet.packetLength ≤ packet.data.length ∧ packet.packetLength ≤ 1500 then
    .ok (packet.data.take packet.packetLength)
  else .error .bounds

/-- `VP8_90000_PT` -/
def vp8Pt : UInt8 := 100

/-- `RED_90000_PT` -/
def redPt : UInt8 := 116

/-- The payload type of a packet of video, behind which `junk` is in the buffer: in a packet of
redundant data that of its first block. -/
def payloadType (junk : List UInt8) (data : List UInt8) : UInt8 :=
  if RtpHeader.getPayloadType (data ++ junk) = redPt then
    UInt8.ofNat (RtpHeader.byte (data ++ junk) 12 % 128)
  else RtpHeader.getPayloadType (data ++ junk)

variable (junk : List UInt8)

/-- `GetVideoEncoding` -/
def getVideoEncoding (streamId : Int) (file : List UInt8) : Except Fault UInt8 :=
  replay proto z (fun payload packet =>
    if packet.type = .video ∧ packet.transportId = streamId then do
      let data ← load packet
      return (true, payloadType junk data)
    else return (false, payload)) vp8Pt file

/-- The `dataPacket` that is filled in `PushPacket`.  The header of a shorter packet would be read
behind its end. -/
def StoredPacket.toMediaPacket (packet : StoredPacket) (type : Rtcp.PacketType) :
    Except Fault MediaPacket :=
  if h : (packet.packetLength ≤ packet.data.length ∧ packet.packetLength ≤ 1500) ∧
      12 ≤ packet.packetLength then
    .ok {
      data := packet.data.take packet.packetLength
      length := packet.packetLength
      length_eq := by rw [List.length_take, Nat.min_eq_left h.1.1]
      header_le := h.2
      type := type
      remoteNtpTimeMs := packet.remoteNtpTimeMs
      length_le := h.1.2 }
  else .error .bounds

variable (parse : Depacketizer) (clocks : Int → Clocks)

/-- `PushPacket` -/
def pushPacket (recorder : Recorder) (packet : StoredPacket) : Except Fault Recorder :=
  match packet.type with
  | .audio => do
    let p ← packet.toMediaPacket .audio
    return recorder.pushAudioPacket (clocks packet.transportId) p
  | .video => do
    let p ← packet.toMediaPacket .video
    return recorder.pushVideoPacket parse (clocks packet.transportId) p
  | _ => return recorder

/-- `recorder_pool_`, and how often the file was opened. -/
structure Pipeline where
  recorderPool : Int → Option Recorder := fun _ => none
  opened : Nat := 1

/-- `GetRecorder`: `files n` is what the file holds when it is opened for the `n`th time. -/
def getRecorder (files : Nat → List UInt8) (s : Pipeline) (transportId : Int) :
    Except Fault (Recorder × Pipeline) :=
  match s.recorderPool transportId with
  | some recorder => return (recorder, s)
  | none => do
    let videoEncoding ← getVideoEncoding proto z junk transportId (files s.opened)
    let recorder : Recorder := { videoEncoding }
    return (recorder, {
      recorderPool := Function.update s.recorderPool transportId (some recorder)
      opened := s.opened + 1 })

/-- The body of the loop of `StartReplay`. -/
def replayPacket (files : Nat → List UInt8) (s : Pipeline) (packet : StoredPacket) :
    Except Fault (Bool × Pipeline) :=
  if packet.packetType ≠ .rtcpPacket then do
    let (recorder, s) ← getRecorder proto z junk files s packet.transportId
    let recorder ← pushPacket parse clocks recorder packet
    return (false, { s with
      recorderPool := Function.update s.recorderPool packet.transportId (some recorder) })
  else return (false, s)

section

variable {proto z} {σ : Type*} {body : σ → StoredPacket → Except Fault (Bool × σ)} {s : σ}
  {file rest : List UInt8} {packet : StoredPacket}

theorem replay_none (h : readProtocolMessage proto z file = .ok (none, rest)) :
    replay proto z body s file = .ok s := by
  rw [replay]
  split
  · simp_all
  · rfl
  · simp_all

theorem replay_some (h : readProtocolMessage proto z file = .ok (some packet, rest)) :
    replay proto z body s file =
      match body s packet with
      | .error e => .error e
      | .ok (true, s) => .ok s
      | .ok (false, s) => replay proto z body s rest := by
  rw [replay]
  split
  · simp_all
  · simp_all
  · rename_i packet' rest' h'
    obtain ⟨hpacket, hrest⟩ := Prod.mk.inj (Except.ok.inj (h'.symm.trans h))
    obtain rfl := Option.some.inj hpacket
    rw [hrest]

/-- The loop on the packets that a file gives back. -/
def replayAll (body : σ → StoredPacket → Except Fault (Bool × σ)) (s : σ) :
    List StoredPacket → Except Fault σ
  | [] => .ok s
  | packet :: packets =>
    match body s packet with
    | .error e => .error e
    | .ok (true, s) => .ok s
    | .ok (false, s) => replayAll body s packets

/-- The records of a file, all of them compressed. -/
def records (packets : List StoredPacket) : List (Bool × StoredPacket) :=
  packets.map fun p => (true, p)

/-- Of a file that was cut, the packets are read that are complete. -/
theorem replay_cut {packets : List StoredPacket} (h : ∀ p ∈ packets, Writable proto z p)
    (cut : Nat) :
    replay proto z body s ((writeAll proto z (records packets)).take cut) =
      replayAll body s
        (packets.take (complete proto z (records packets) cut)) := by
  rw [writeAll_eq]
  induction packets generalizing s cut with
  | nil =>
    rw [records, List.map_nil, List.flatMap_nil, List.take_nil, List.take_nil, replay_none read_nil]
    rfl
  | cons p packets ih =>
    have hp := read_cut (h p List.mem_cons_self) true
      ((records packets).flatMap fun r => record proto z r.1 r.2) cut
    rw [records, List.map_cons, List.flatMap_cons, complete, ← records]
    dsimp only
    split
    · rename_i hle
      rw [if_pos hle] at hp
      rw [replay_some hp, List.take_succ_cons, replayAll]
      rcases body s p with e | ⟨- | -, s⟩
      · rfl
      · exact ih (fun q hq => h q (List.mem_cons_of_mem p hq)) _
      · rfl
    · rename_i hle
      rw [if_neg hle] at hp
      rw [replay_none hp, List.take_zero]
      rfl

theorem captured_eq (captures : List Capture) : captured proto z captures =
    writeAll proto z (records (captures.map Capture.stored)) := by
  rw [captured, writeAll, records, List.foldl_map, List.foldl_map]
  rfl

end

/-! ### A packet that was captured -/

theorem Capture.load_stored (c : Capture) : load c.stored = .ok c.packet.data := by
  have hlength : c.stored.data.length = c.packet.length := by
    show (c.packet.data.take c.packet.length).length = _
    rw [List.length_take, c.packet.length_eq, Nat.min_self]
  rw [load, if_pos ⟨Nat.le_of_eq hlength.symm, c.packet.length_le⟩]
  show Except.ok ((c.packet.data.take c.packet.length).take c.packet.length) = _
  rw [List.take_take, Nat.min_self, List.take_of_length_le (Nat.le_of_eq c.packet.length_eq)]

theorem Capture.toMediaPacket_stored (c : Capture) :
    c.stored.toMediaPacket c.packet.type = .ok c.packet := by
  obtain ⟨id, ⟨⟨⟨data, length⟩, hlength, hheader⟩, type, ntp, hle⟩, rtpTimestamp, now⟩ := c
  obtain rfl : data.length = length := hlength
  rw [StoredPacket.toMediaPacket, dif_pos]
  · simp [stored]
  · refine ⟨⟨?_, hle⟩, hheader⟩
    show data.length ≤ (data.take data.length).length
    rw [List.take_length]

variable {parse clocks} in
theorem pushPacket_stored (r : Recorder) (c : Capture) :
    pushPacket parse clocks r c.stored = .ok (r.push parse (clocks c.transportId) c.packet) := by
  have hpacket := c.toMediaPacket_stored
  have htype : c.stored.type = storedType c.packet.type := rfl
  rcases htype' : c.packet.type with - | - | - | - | - | -
  · rw [htype'] at hpacket htype
    simp only [pushPacket, htype, storedType, hpacket, Recorder.push, htype']
    rfl
  · rw [htype'] at hpacket htype
    simp only [pushPacket, htype, storedType, hpacket, Recorder.push, htype']
    rfl
  · rw [htype'] at htype
    simp only [pushPacket, htype, storedType, Recorder.push, htype']
    rfl
  · rw [htype'] at htype
    simp only [pushPacket, htype, storedType, Recorder.push, htype']
    rfl
  · rw [htype'] at htype
    simp only [pushPacket, htype, storedType, Recorder.push, htype']
    rfl
  · rw [htype'] at htype
    simp only [pushPacket, htype, storedType, Recorder.push, htype']
    rfl

theorem storedType_video {type : Rtcp.PacketType} : storedType type = .video ↔ type = .video := by
  cases type
  · simp [storedType]
  · simp [storedType]
  · simp [storedType]
  · simp [storedType]
  · simp [storedType]
  · simp [storedType]

/-! ### What the recorders get -/

/-- The packets of a stream that are not RTCP. -/
def packetsOf (id : Int) (captures : List Capture) : List MediaPacket :=
  (captures.filter fun c =>
    c.transportId = id ∧ TransportStack.isRtcp c.packet.data = false).map Capture.packet

/-- The encoding of the first packet of video of a stream. -/
def encodingOf (id : Int) (captures : List Capture) : UInt8 :=
  match captures.find? fun c => c.packet.type = .video ∧ c.transportId = id with
  | none => vp8Pt
  | some c => payloadType junk c.packet.data

theorem getVideoEncoding_all (id : Int) (captures : List Capture) :
    replayAll (fun payload packet =>
      if packet.type = .video ∧ packet.transportId = id then do
        let data ← load packet
        return (true, payloadType junk data)
      else return (false, payload)) vp8Pt (captures.map Capture.stored) =
      .ok (encodingOf junk id captures) := by
  induction captures with
  | nil => rfl
  | cons c captures ih =>
    rw [List.map_cons, replayAll, encodingOf, List.find?_cons]
    by_cases hc : c.packet.type = .video ∧ c.transportId = id
    · have hstored : c.stored.type = .video ∧ c.stored.transportId = id :=
        ⟨storedType_video.mpr hc.1, hc.2⟩
      rw [if_pos hstored, c.load_stored, decide_eq_true hc]
      rfl
    · have hstored : ¬ (c.stored.type = .video ∧ c.stored.transportId = id) :=
        fun h => hc ⟨storedType_video.mp h.1, h.2⟩
      rw [if_neg hstored, decide_eq_false hc]
      exact ih

theorem packetsOf_concat (id : Int) (taken : List Capture) (c : Capture) :
    packetsOf id (taken ++ [c]) =
      if c.transportId = id ∧ TransportStack.isRtcp c.packet.data = false then
        packetsOf id taken ++ [c.packet]
      else packetsOf id taken := by
  rw [packetsOf, List.filter_append, List.map_append]
  split_ifs with h
  · simp [h, packetsOf]
  · rw [List.filter_cons_of_neg (by simpa using h)]
    simp [packetsOf]

section

variable {proto z junk parse clocks} {captures taken : List Capture} {cut : Nat → Nat} {n : Nat}
  {s : Pipeline}

/-- The recorders of a pipeline that was handed the packets in `taken`: each has the encoding
that was found in a file of `n` packets at least. -/
def Served (junk : List UInt8) (parse : Depacketizer) (clocks : Int → Clocks)
    (captures : List Capture) (n : Nat) (taken : List Capture) (s : Pipeline) : Prop :=
  ∀ id, (packetsOf id taken = [] → s.recorderPool id = none) ∧
    (packetsOf id taken ≠ [] → ∃ m, n ≤ m ∧
      s.recorderPool id = some ((packetsOf id taken).foldl (Recorder.push parse (clocks id))
        { videoEncoding := encodingOf junk id (captures.take m) }))

theorem getVideoEncoding_cut (h : ∀ c ∈ captures, Writable proto z c.stored) (id : Int)
    (cut : Nat) :
    getVideoEncoding proto z junk id ((captured proto z captures).take cut) =
      .ok (encodingOf junk id (captures.take
        (complete proto z (records (captures.map Capture.stored)) cut))) := by
  rw [getVideoEncoding, captured_eq, replay_cut (List.forall_mem_map.mpr h), ← List.map_take,
    getVideoEncoding_all]

/-- The recorder of a stream, old or new. -/
theorem Served.recorder (h : ∀ c ∈ captures, Writable proto z c.stored)
    (hcut : ∀ j, n ≤ complete proto z (records (captures.map Capture.stored)) (cut j))
    (hs : Served junk parse clocks captures n taken s) (id : Int) :
    ∃ r s' m, getRecorder proto z junk (fun j => (captured proto z captures).take (cut j)) s id =
        .ok (r, s') ∧ s'.recorderPool = Function.update s.recorderPool id (some r) ∧ n ≤ m ∧
      r = (packetsOf id taken).foldl (Recorder.push parse (clocks id))
        { videoEncoding := encodingOf junk id (captures.take m) } := by
  obtain ⟨hnone, hsome⟩ := hs id
  rw [getRecorder]
  by_cases hnil : packetsOf id taken = []
  · -- a new one: the file is opened once more
    rw [hnone hnil, hnil]
    dsimp only
    rw [getVideoEncoding_cut h]
    exact ⟨_, _, _, rfl, rfl, hcut s.opened, rfl⟩
  · obtain ⟨m, hm, hpool⟩ := hsome hnil
    rw [hpool]
    refine ⟨_, s, m, rfl, ?_, hm, rfl⟩
    rw [← hpool, Function.update_eq_self]

theorem Served.step (h : ∀ c ∈ captures, Writable proto z c.stored)
    (hcut : ∀ j, n ≤ complete proto z (records (captures.map Capture.stored)) (cut j))
    (hs : Served junk parse clocks captures n taken s) (c : Capture) :
    ∃ s', replayPacket proto z junk parse clocks
        (fun j => (captured proto z captures).take (cut j)) s c.stored = .ok (false, s') ∧
      Served junk parse clocks captures n (taken ++ [c]) s' := by
  rcases hrtcp : TransportStack.isRtcp c.packet.data with - | -
  · have hstored : c.stored.packetType ≠ .rtcpPacket := by
      simp [Capture.stored, hrtcp]
    obtain ⟨r, s', m, hget, hpool, hm, hr⟩ := hs.recorder h hcut c.transportId
    have hpush := @pushPacket_stored parse clocks r c
    have hbody : replayPacket proto z junk parse clocks
        (fun j => (captured proto z captures).take (cut j)) s c.stored =
        .ok (false, { s' with
          recorderPool := Function.update s'.recorderPool c.transportId
            (some (r.push parse (clocks c.transportId) c.packet)) }) := by
      rw [replayPacket, if_pos hstored]
      show (do
        let (recorder, s) ← getRecorder proto z junk _ s c.transportId
        let recorder ← pushPacket parse clocks recorder c.stored
        return (false, { s with
          recorderPool := Function.update s.recorderPool c.transportId (some recorder) })) = _
      rw [hget]
      show (do
        let recorder ← pushPacket parse clocks r c.stored
        return (false, { s' with
          recorderPool := Function.update s'.recorderPool c.transportId (some recorder) })) = _
      rw [hpush]
      rfl
    refine ⟨_, hbody, ?_⟩
    intro id
    rw [packetsOf_concat]
    by_cases hid : c.transportId = id
    · subst hid
      rw [if_pos ⟨rfl, hrtcp⟩]
      refine ⟨fun hnil => absurd hnil (by simp), fun _ => ⟨m, hm, ?_⟩⟩
      rw [List.foldl_append, ← hr]
      exact Function.update_self _ _ _
    · rw [if_neg fun h => hid h.1]
      dsimp only
      rw [Function.update_of_ne (Ne.symm hid), hpool, Function.update_of_ne (Ne.symm hid)]
      exact hs id
  · have hstored : ¬ c.stored.packetType ≠ .rtcpPacket := by
      simp [Capture.stored, hrtcp]
    refine ⟨s, ?_, ?_⟩
    · rw [replayPacket, if_neg hstored]
      rfl
    · intro id
      rw [packetsOf_concat, if_neg fun h => by simp [hrtcp] at h]
      exact hs id

theorem Served.run (h : ∀ c ∈ captures, Writable proto z c.stored)
    (hcut : ∀ j, n ≤ complete proto z (records (captures.map Capture.stored)) (cut j))
    (hs : Served junk parse clocks captures n taken s) (rest : List Capture) :
    ∃ s', replayAll (replayPacket proto z junk parse clocks
        (fun j => (captured proto z captures).take (cut j))) s (rest.map Capture.stored) = .ok s' ∧
      Served junk parse clocks captures n (taken ++ rest) s' := by
  induction rest generalizing taken s with
  | nil =>
    rw [List.append_nil]
    exact ⟨s, rfl, hs⟩
  | cons c rest ih =>
    obtain ⟨s', hbody, hs'⟩ := hs.step h hcut c
    rw [List.map_cons, replayAll, hbody, List.append_cons]
    exact ih hs'

end

/-! ### The recording of a class -/

end Orbit.ClassRecording
