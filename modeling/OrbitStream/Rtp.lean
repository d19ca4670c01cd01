/-
OrbitStream/Rtp.lean

RTP packets as the forwarding elements read them: the fixed header accessors of
`rtp/rtp_headers.h`, `dataPacket` of `media_definitions.h`, and the
classification of a packet as part of a key frame.

The payload parsers behind `RtpDepacketizer_Parse` belong to the vendored codec
library and are a parameter (`Depacketizer`): everything below holds for any
classification of payloads.
-/
import Mathlib.Data.Finset.Card

namespace Orbit

/-- `dataPacket`: the buffer and the number of bytes received into it.  An RTP
packet is at least as long as its 12 byte header. -/
structure DataPacket where
  data : List UInt8
  length : Nat
  deriving DecidableEq, Repr

/-! ### `RtpHeader` -/

namespace RtpHeader

/-- One byte of the buffer; bytes past the received ones are not read. -/
def byte (data : List UInt8) (i : Nat) : Nat := (data.getD i 0).toNat

/-- `getMarker`: the top bit of the second byte. -/
def getMarker (data : List UInt8) : UInt8 := UInt8.ofNat (byte data 1 / 128)

/-- `getPayloadType`: the low seven bits of the second byte. -/
def getPayloadType (data : List UInt8) : UInt8 := UInt8.ofNat (byte data 1 % 128)

/-- `getSeqNumber`: bytes 2 and 3 in network order. -/
def getSeqNumber (data : List UInt8) : UInt16 :=
  UInt16.ofNat (byte data 2 * 256 + byte data 3)

/-- `getTimestamp`: bytes 4 to 7 in network order. -/
def getTimestamp (data : List UInt8) : UInt32 :=
  UInt32.ofNat (((byte data 4 * 256 + byte data 5) * 256 + byte data 6) * 256 + byte data 7)

/-- `getSSRC`: bytes 8 to 11 in network order. -/
def getSSRC (data : List UInt8) : UInt32 :=
  UInt32.ofNat (((byte data 8 * 256 + byte data 9) * 256 + byte data 10) * 256 + byte data 11)

/-- `setSeqNumber`. -/
def setSeqNumber (data : List UInt8) (x : UInt16) : List UInt8 :=
  (data.set 2 (UInt8.ofNat (x.toNat / 256))).set 3 (UInt8.ofNat x.toNat)

/-- Four bytes in network order. -/
def setWord (data : List UInt8) (i : Nat) (x : UInt32) : List UInt8 :=
  (((data.set i (UInt8.ofNat (x.toNat / 16777216))).set (i + 1) (UInt8.ofNat (x.toNat / 65536))).set
    (i + 2) (UInt8.ofNat (x.toNat / 256))).set (i + 3) (UInt8.ofNat x.toNat)

/-- `setTimestamp`. -/
def setTimestamp (data : List UInt8) (x : UInt32) : List UInt8 := setWord data 4 x

/-- `setSSRC`. -/
def setSSRC (data : List UInt8) (x : UInt32) : List UInt8 := setWord data 8 x

@[simp] theorem length_setSeqNumber (data : List UInt8) (x : UInt16) :
    (setSeqNumber data x).length = data.length := by
  simp [setSeqNumber]

@[simp] theorem length_setTimestamp (data : List UInt8) (x : UInt32) :
    (setTimestamp data x).length = data.length := by
  simp [setTimestamp, setWord]

@[simp] theorem length_setSSRC (data : List UInt8) (x : UInt32) :
    (setSSRC data x).length = data.length := by
  simp [setSSRC, setWord]

/-- The bytes of a buffer that was copied from a memory. -/
theorem byte_map_range (m : Nat → UInt8) {i len : Nat} (h : i < len) :
    byte ((List.range len).map m) i = (m i).toNat := by
  simp [byte, h]

theorem byte_set_self {data : List UInt8} {i : Nat} (b : UInt8) (h : i < data.length) :
    byte (data.set i b) i = b.toNat := by
  simp [byte, h]

theorem byte_set_of_ne {data : List UInt8} {i j : Nat} (b : UInt8) (h : i ≠ j) :
    byte (data.set i b) j = byte data j := by
  simp [byte, h]

theorem getSeqNumber_setSeqNumber {data : List UInt8} (x : UInt16) (h : 12 ≤ data.length) :
    getSeqNumber (setSeqNumber data x) = x := by
  have h2 : byte (setSeqNumber data x) 2 = x.toNat / 256 % 256 := by
    rw [setSeqNumber, byte_set_of_ne _ (by decide), byte_set_self _ (by omega), UInt8.toNat_ofNat']
  have h3 : byte (setSeqNumber data x) 3 = x.toNat % 256 := by
    rw [setSeqNumber, byte_set_self _ (by rw [List.length_set]; omega), UInt8.toNat_ofNat']
  rw [getSeqNumber, h2, h3]
  apply UInt16.toNat_inj.mp
  rw [UInt16.toNat_ofNat']
  have hx := x.toNat_lt
  omega

theorem byte_setWord_of_ne {data : List UInt8} {i j : Nat} (x : UInt32) (h : j < i ∨ i + 3 < j) :
    byte (setWord data i x) j = byte data j := by
  rw [setWord, byte_set_of_ne _ (by omega), byte_set_of_ne _ (by omega),
    byte_set_of_ne _ (by omega), byte_set_of_ne _ (by omega)]

/-- Four bytes are read as they were written. -/
theorem word_setWord {data : List UInt8} {i : Nat} (x : UInt32) (h : i + 3 < data.length) :
    UInt32.ofNat (((byte (setWord data i x) i * 256 + byte (setWord data i x) (i + 1)) * 256 +
      byte (setWord data i x) (i + 2)) * 256 + byte (setWord data i x) (i + 3)) = x := by
  have h0 : byte (setWord data i x) i = x.toNat / 16777216 % 256 := by
    rw [setWord, byte_set_of_ne _ (by omega), byte_set_of_ne _ (by omega),
      byte_set_of_ne _ (by omega), byte_set_self _ (by omega), UInt8.toNat_ofNat']
  have h1 : byte (setWord data i x) (i + 1) = x.toNat / 65536 % 256 := by
    rw [setWord, byte_set_of_ne _ (by omega), byte_set_of_ne _ (by omega),
      byte_set_self _ (by simp; omega), UInt8.toNat_ofNat']
  have h2 : byte (setWord data i x) (i + 2) = x.toNat / 256 % 256 := by
    rw [setWord, byte_set_of_ne _ (by omega), byte_set_self _ (by simp; omega), UInt8.toNat_ofNat']
  have h3 : byte (setWord data i x) (i + 3) = x.toNat % 256 := by
    rw [setWord, byte_set_self _ (by simp; omega), UInt8.toNat_ofNat']
  rw [h0, h1, h2, h3]
  apply UInt32.toNat_inj.mp
  rw [UInt32.toNat_ofNat']
  have hx := x.toNat_lt
  omega

theorem getTimestamp_setTimestamp {data : List UInt8} (x : UInt32) (h : 12 ≤ data.length) :
    getTimestamp (setTimestamp data x) = x :=
  word_setWord x (by omega)

theorem getSSRC_setSSRC {data : List UInt8} (x : UInt32) (h : 12 ≤ data.length) :
    getSSRC (setSSRC data x) = x :=
  word_setWord x (by omega)

theorem byte_setSeqNumber_of_lt {data : List UInt8} {j : Nat} (x : UInt16) (h : 3 < j) :
    byte (setSeqNumber data x) j = byte data j := by
  rw [setSeqNumber, byte_set_of_ne _ (by omega), byte_set_of_ne _ (by omega)]

theorem getTimestamp_setSeqNumber (data : List UInt8) (x : UInt16) :
    getTimestamp (setSeqNumber data x) = getTimestamp data := by
  rw [getTimestamp, byte_setSeqNumber_of_lt x (by decide), byte_setSeqNumber_of_lt x (by decide),
    byte_setSeqNumber_of_lt x (by decide), byte_setSeqNumber_of_lt x (by decide)]
  rfl

theorem getSSRC_setSeqNumber (data : List UInt8) (x : UInt16) :
    getSSRC (setSeqNumber data x) = getSSRC data := by
  rw [getSSRC, byte_setSeqNumber_of_lt x (by decide), byte_setSeqNumber_of_lt x (by decide),
    byte_setSeqNumber_of_lt x (by decide), byte_setSeqNumber_of_lt x (by decide)]
  rfl

theorem getSSRC_setTimestamp (data : List UInt8) (x : UInt32) :
    getSSRC (setTimestamp data x) = getSSRC data := by
  rw [getSSRC, setTimestamp, byte_setWord_of_ne x (by decide), byte_setWord_of_ne x (by decide),
    byte_setWord_of_ne x (by decide), byte_setWord_of_ne x (by decide)]
  rfl

end RtpHeader

/-- An RTP packet: the bytes are those that were received, with a whole header. -/
structure RtpPacket extends DataPacket where
  length_eq : data.length = length
  header_le : 12 ≤ length

/-- A packet that is a header and nothing else. -/
def RtpPacket.ofHeader (seq : UInt16) (timestamp : UInt32) : RtpPacket where
  data := [0x80, 0, UInt8.ofNat (seq.toNat / 256), UInt8.ofNat seq.toNat,
    UInt8.ofNat (timestamp.toNat / 16777216), UInt8.ofNat (timestamp.toNat / 65536),
    UInt8.ofNat (timestamp.toNat / 256), UInt8.ofNat timestamp.toNat, 0, 0, 0, 0]
  length := 12
  length_eq := rfl
  header_le := Nat.le_refl 12

namespace DataPacket

/-- The sequence number in the header. -/
def seqNumber (p : DataPacket) : UInt16 := RtpHeader.getSeqNumber p.data

/-- The timestamp in the header. -/
def timestamp (p : DataPacket) : UInt32 := RtpHeader.getTimestamp p.data

/-- `memcpy(pkt->data, data, length)`: what a buffer keeps of a packet. -/
def stored (p : DataPacket) : DataPacket := { p with data := p.data.take p.length }

end DataPacket

theorem RtpPacket.stored_eq (p : RtpPacket) : p.toDataPacket.stored = p.toDataPacket := by
  have htake : p.data.take p.length = p.data := List.take_of_length_le (Nat.le_of_eq p.length_eq)
  rw [DataPacket.stored, htake]

/-! ### Key frames -/

/-- `webrtc::FrameType` as far as it is looked at. -/
inductive FrameType
  | videoFrameKey
  | videoFrameDelta
  deriving DecidableEq, Repr

/-- `RtpDepacketizer_Parse`: payload type and payload to a frame type, or `none`
when the payload does not parse. -/
abbrev Depacketizer := UInt8 → List UInt8 → Option FrameType

/-- `VideoFrame::IsKeyFrame` and `VideoAwareFrameBuffer::IsKeyFramePacketStatic`:
the payload behind the 12 byte header parses as part of a key frame. -/
def isKeyFrame (parse : Depacketizer) (data : List UInt8) (len : Nat) : Bool :=
  parse (RtpHeader.getPayloadType data) ((data.drop 12).take (len - 12)) = some .videoFrameKey

/-- A classification of VP8 payloads that start a partition: the low bit of the
first payload byte is clear in a key frame, whose header has ten bytes. -/
def vp8 : Depacketizer := fun payloadType payload =>
  match payload with
  | 0x10 :: b :: rest =>
      if payloadType ≠ 100 then none
      else if b % 2 = 1 then some .videoFrameDelta
      else if 9 ≤ rest.length then some .videoFrameKey
      else none
  | _ => none

/-- A packet of 23 bytes with the given number. -/
def vp8Packet (seq : UInt8) (key : Bool) : DataPacket where
  data := [0x80, 100, 0, seq, 0, 0, 0, 0, 0, 0, 0, 0, 0x10, if key then 0 else 1,
    0, 0, 0, 0, 0, 0, 0, 0, 0]
  length := 23

/-- The same with a number of 16 bits. -/
def vp8RtpPacket (seq : UInt16) (key : Bool) : RtpPacket where
  data := [0x80, 100, UInt8.ofNat (seq.toNat / 256), UInt8.ofNat seq.toNat, 0, 0, 0, 0, 0, 0, 0, 0,
    0x10, if key then 0 else 1, 0, 0, 0, 0, 0, 0, 0, 0, 0]
  length := 23
  length_eq := rfl
  header_le := by decide

/-- `MediaOutputPacket`, the fields a forwarder fills in.  The ssrc it writes is
always `-1`. -/
structure MediaOutputPacket where
  timestamp : UInt32
  seqNumber : UInt16
  endFrame : UInt8
  ssrc : UInt32
  encodedBuf : List UInt8
  deriving DecidableEq, Repr

/-- `VideoSwitchContext`: what is kept per viewer, by both forwarding elements.
The new element leaves `streamId`, `changing` and `newStreamId` alone. -/
structure VideoSwitchContext where
  seq : UInt16 := 0
  ts : UInt32 := 0
  streamId : Int := -1
  lastTs : UInt32 := 0
  baseTs : UInt32 := 0xFFFFFFFF
  lastSeq : UInt16 := 0
  baseSeq : UInt16 := 0xFFFF
  changing : Bool := false
  newStreamId : Int := -1
  deriving DecidableEq, Repr

namespace VideoSwitchContext

/-- The rewrite offsets fixed when a viewer switches to a packet with this
sequence number and timestamp. -/
def rebase (sc : VideoSwitchContext) (seq : UInt16) (ts : UInt32) : VideoSwitchContext :=
  { sc with baseTs := ts, baseSeq := seq, lastTs := sc.ts + 2880, lastSeq := sc.seq + 1 }

/-- The context after a packet with this sequence number and timestamp was
rewritten for the viewer. -/
def advance (sc : VideoSwitchContext) (seq : UInt16) (ts : UInt32) : VideoSwitchContext :=
  { sc with seq := seq - sc.baseSeq + sc.lastSeq, ts := ts - sc.baseTs + sc.lastTs }

@[simp] theorem rebase_seq (sc : VideoSwitchContext) (seq : UInt16) (ts : UInt32) :
    (sc.rebase seq ts).seq = sc.seq := by
  unfold rebase
  rfl

@[simp] theorem rebase_baseSeq (sc : VideoSwitchContext) (seq : UInt16) (ts : UInt32) :
    (sc.rebase seq ts).baseSeq = seq := by
  unfold rebase
  rfl

@[simp] theorem rebase_lastSeq (sc : VideoSwitchContext) (seq : UInt16) (ts : UInt32) :
    (sc.rebase seq ts).lastSeq = sc.seq + 1 := by
  unfold rebase
  rfl

@[simp] theorem advance_seq (sc : VideoSwitchContext) (seq : UInt16) (ts : UInt32) :
    (sc.advance seq ts).seq = seq - sc.baseSeq + sc.lastSeq := by
  unfold advance
  rfl

@[simp] theorem advance_baseSeq (sc : VideoSwitchContext) (seq : UInt16) (ts : UInt32) :
    (sc.advance seq ts).baseSeq = sc.baseSeq := by
  unfold advance
  rfl

@[simp] theorem advance_lastSeq (sc : VideoSwitchContext) (seq : UInt16) (ts : UInt32) :
    (sc.advance seq ts).lastSeq = sc.lastSeq := by
  unfold advance
  rfl

end VideoSwitchContext

/-- The packet handed to a viewer: header fields from its context, the payload
copied from behind the 12 byte header. -/
def VideoSwitchContext.output (sc : VideoSwitchContext) (data : List UInt8) (len : Nat)
    (marker : UInt8) : MediaOutputPacket where
  timestamp := sc.ts
  seqNumber := sc.seq
  endFrame := marker
  ssrc := 0xFFFFFFFF
  encodedBuf := (data.drop 12).take (len - 12)

/-! ### FIR requests -/

/-- `janus_rtcp_fir` on the sequence number it is given. -/
def janusRtcpFirSeq (seqnr : Int) : Int :=
  if seqnr + 1 < 0 ∨ seqnr + 1 ≥ 256 then 0 else seqnr + 1

end Orbit
