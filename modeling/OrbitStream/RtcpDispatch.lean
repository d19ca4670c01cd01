/-
OrbitStream/RtcpDispatch.lean

The dispatch of an incoming compound RTCP packet (`rtp/rtcp_processor.cc`).

`RtcpProcessIncomingRtcp` walks over the packet types that the WebRTC parser yields
and calls a handler for each, but the handlers get the whole buffer: the receiver
report handler reads its fields at fixed offsets from the start of the buffer, and
the NACK handler scans the buffer for all NACKs.  So what a handler does depends on
the sub-packets before the one it was called for.

The buffer is a list of 32-bit words in host byte order.  A compound packet is a
list of well-formed sub-packets; the parser is given by the types it yields for
each of them.  `exactly_once_iff` and `reports_attributed` say for which compound
packets each element is handled once, and each report is read from its own block.
-/
import Mathlib.Algebra.Group.Nat.Defs
import Mathlib.Data.List.Nodup

namespace Orbit.Rtcp

/-! ### The types the parser yields -/

/-- `webrtc::RTCPUtility::RTCPPacketTypes`, without `kInvalid`, which marks the end of
the packet. -/
inductive PacketTypes
  | rr
  | sr
  | reportBlockItem
  | sdes
  | sdesChunk
  | bye
  | extendedIj
  | extendedIjItem
  | rtpfbNack
  | rtpfbNackItem
  | psfbPli
  | psfbRpsi
  | psfbSli
  | psfbSliItem
  | psfbApp
  | psfbRemb
  | psfbRembItem
  | rtpfbTmmbr
  | rtpfbTmmbrItem
  | rtpfbTmmbn
  | rtpfbTmmbnItem
  | psfbFir
  | psfbFirItem
  | rtpfbSrReq
  | xrHeader
  | xrReceiverReferenceTime
  | xrDlrrReportBlock
  | xrDlrrReportBlockItem
  | xrVoipMetric
  | app
  | appItem
  | transportFeedback
  deriving DecidableEq, Repr

/-- The types that the switch of `RtcpProcessIncomingRtcp` names; the others take its
default. -/
def PacketTypes.hasCase : PacketTypes → Bool
  | .reportBlockItem | .sdesChunk | .extendedIjItem | .psfbSliItem | .psfbRemb
  | .psfbRembItem | .rtpfbTmmbrItem | .rtpfbTmmbnItem | .psfbFirItem
  | .xrDlrrReportBlockItem => false
  | _ => true

/-- The cases that call `HandleNackItem`: `kRtpfbNack` falls through to
`kRtpfbNackItem`. -/
def PacketTypes.isNack : PacketTypes → Bool
  | .rtpfbNack | .rtpfbNackItem => true
  | _ => false

/-- The loop of `RtcpProcessIncomingRtcp`: of the elements that the parser has left,
those on which the switch is run.  The default iterates the parser once more than the
other cases. -/
def dispatched : List PacketTypes → List PacketTypes
  | [] => []
  | [t] => [t]
  | t :: next :: rest =>
    if t.hasCase then t :: dispatched (next :: rest) else t :: dispatched rest

theorem dispatched_sublist (ts : List PacketTypes) : (dispatched ts).Sublist ts := by
  fun_induction dispatched ts with
  | case1 => exact List.Sublist.refl _
  | case2 t => exact List.Sublist.refl _
  | case3 t next rest h ih => exact ih.cons_cons t
  | case4 t next rest h ih => exact (ih.cons next).cons_cons t

/-- Nothing is skipped if and only if at most the last element has no case of its
own. -/
theorem dispatched_eq_self_iff (ts : List PacketTypes) :
    dispatched ts = ts ↔ ∀ t ∈ ts.dropLast, t.hasCase = true := by
  fun_induction dispatched ts with
  | case1 => simp
  | case2 t => simp
  | case3 t next rest h ih =>
    rw [List.cons_inj_right, ih, List.dropLast_cons_cons]
    simp [h]
  | case4 t next rest h ih =>
    constructor
    · intro heq
      -- what is left of the list is too short for the element that was skipped
      have hlen := congrArg List.length heq
      have hle := (dispatched_sublist rest).length_le
      simp only [List.length_cons] at hlen
      omega
    · intro hall
      exact absurd (hall t (by simp)) h

/-! ### The words of a sub-packet -/

/-- The first word of a sub-packet, of version 2. -/
def header (padding : Bool) (rc type length : Nat) : Nat :=
  2 * 2 ^ 30 + padding.toNat * 2 ^ 29 + rc * 2 ^ 24 + type * 2 ^ 16 + length

/-- The `version` of an `rtcp_header`. -/
def version (h : Nat) : Nat := h / 2 ^ 30

/-- The `rc` of an `rtcp_header`. -/
def rc (h : Nat) : Nat := h / 2 ^ 24 % 32

/-- The `type` of an `rtcp_header`. -/
def type (h : Nat) : Nat := h / 2 ^ 16 % 256

/-- The `length` of an `rtcp_header`, in words without the header. -/
def length (h : Nat) : Nat := h % 2 ^ 16

section

variable {c t n : Nat}

theorem version_header (padding : Bool) (hc : c < 32) (ht : t < 256) (hn : n < 65536) :
    version (header padding c t n) = 2 := by
  have hp := padding.toNat_le
  simp only [version, header]
  omega

theorem rc_header (padding : Bool) (hc : c < 32) (ht : t < 256) (hn : n < 65536) :
    rc (header padding c t n) = c := by
  have hp := padding.toNat_le
  simp only [rc, header]
  omega

theorem type_header (padding : Bool) (c : Nat) (ht : t < 256) (hn : n < 65536) :
    type (header padding c t n) = t := by
  simp only [type, header]
  omega

theorem length_header (padding : Bool) (c t : Nat) (hn : n < 65536) :
    length (header padding c t n) = n := by
  simp only [length, header]
  omega

end

/-- One entry of a generic NACK: a packet and the bits of the 16 packets behind it. -/
structure NackItem where
  pid : Nat
  blp : Nat
  blp_lt : blp < 2 ^ 16
  deriving DecidableEq, Repr

namespace NackItem

def word (i : NackItem) : Nat := i.pid * 2 ^ 16 + i.blp

/-- The sequence numbers that an entry asks for. -/
def seqs (i : NackItem) : List Nat :=
  i.pid :: ((List.range 16).filter i.blp.testBit).map (i.pid + · + 1)

end NackItem

/-- A report block of a receiver report. -/
structure Block where
  sourceSsrc : Nat
  fractionLost : Nat
  lost : Nat
  highestSeqnum : Nat
  jitter : Nat
  lastSr : Nat
  delaySinceLastSr : Nat
  lost_lt : lost < 2 ^ 24
  deriving DecidableEq, Repr

def Block.words (b : Block) : List Nat :=
  [b.sourceSsrc, b.fractionLost * 2 ^ 24 + b.lost, b.highestSeqnum, b.jitter, b.lastSr,
    b.delaySinceLastSr]

/-- A receiver report (type 201). -/
structure ReceiverReport where
  ssrc : Nat
  blocks : List Block
  extension : List Nat
  padding : Bool
  count_lt : blocks.length < 32
  length_lt : (ssrc :: (blocks.flatMap Block.words ++ extension)).length < 65536

/-- A generic NACK (type 205, format 1). -/
structure GenericNack where
  ssrc : Nat
  media : Nat
  items : List NackItem
  padding : Bool
  length_lt : (ssrc :: media :: items.map NackItem.word).length < 65536

/-- A sub-packet of any other kind, with the types that the parser yields for it. -/
structure OtherPacket where
  count : Nat
  type : Nat
  body : List Nat
  yields : List PacketTypes
  padding : Bool
  count_lt : count < 32
  type_lt : type < 256
  length_lt : body.length < 65536
  not_report : type ≠ 201
  not_nack : ¬ (type = 205 ∧ count = 1)
  yields_other : ∀ t ∈ yields, t ≠ .rr ∧ t.isNack = false

inductive SubPacket
  | receiverReport (r : ReceiverReport)
  | genericNack (n : GenericNack)
  | other (p : OtherPacket)

namespace SubPacket

def padding : SubPacket → Bool
  | receiverReport r => r.padding
  | genericNack n => n.padding
  | other p => p.padding

def count : SubPacket → Nat
  | receiverReport r => r.blocks.length
  | genericNack _ => 1
  | other p => p.count

def type : SubPacket → Nat
  | receiverReport _ => 201
  | genericNack _ => 205
  | other p => p.type

def body : SubPacket → List Nat
  | receiverReport r => r.ssrc :: (r.blocks.flatMap Block.words ++ r.extension)
  | genericNack n => n.ssrc :: n.media :: n.items.map NackItem.word
  | other p => p.body

def encode (p : SubPacket) : List Nat :=
  header p.padding p.count p.type p.body.length :: p.body

/-- What the parser yields: the header of a report or of a NACK is followed by its
blocks or items. -/
def yields : SubPacket → List PacketTypes
  | receiverReport r => .rr :: List.replicate r.blocks.length .reportBlockItem
  | genericNack n => .rtpfbNack :: List.replicate n.items.length .rtpfbNackItem
  | other p => p.yields

/-- The sequence numbers that a generic NACK asks for. -/
def nackSeqs : SubPacket → List Nat
  | genericNack n => n.items.flatMap NackItem.seqs
  | _ => []

/-- The blocks of a receiver report. -/
def blocks : SubPacket → List Block
  | receiverReport r => r.blocks
  | _ => []

theorem count_lt (p : SubPacket) : p.count < 32 := by
  rcases p with r | n | p
  · exact r.count_lt
  · show 1 < 32
    omega
  · exact p.count_lt

theorem type_lt (p : SubPacket) : p.type < 256 := by
  rcases p with r | n | p
  · show 201 < 256
    omega
  · show 205 < 256
    omega
  · exact p.type_lt

theorem length_lt (p : SubPacket) : p.body.length < 65536 := by
  rcases p with r | n | p
  · exact r.length_lt
  · exact n.length_lt
  · exact p.length_lt

end SubPacket

/-- The buffer of a compound packet. -/
def encode (ps : List SubPacket) : List Nat := ps.flatMap SubPacket.encode

/-- What the parser yields for a compound packet. -/
def yields (ps : List SubPacket) : List PacketTypes := ps.flatMap SubPacket.yields

/-! ### The scan for NACKs -/

/-- The loop of the janus functions over the sub-packets of a buffer: the words from
each header on.  `skip` words are left of the sub-packet before. -/
def scan : Nat → List Nat → List (List Nat)
  | _, [] => []
  | skip + 1, _ :: rest => scan skip rest
  | 0, h :: rest => (h :: rest) :: if length h = 0 then [] else scan (length h) rest

/-- Is this the header of a generic NACK? -/
def isGenericNack (h : Nat) : Bool := type h == 205 && rc h == 1

/-- The sequence numbers of a word of a NACK. -/
def wordSeqs (w : Nat) : List Nat :=
  w / 2 ^ 16 :: ((List.range 16).filter (w % 2 ^ 16).testBit).map (w / 2 ^ 16 + · + 1)

/-- The sequence numbers in the sub-packet at the start of a list of words. -/
def packetSeqs : List Nat → List Nat
  | [] => []
  | h :: rest =>
    if isGenericNack h then ((rest.drop 2).take (length h - 2)).flatMap wordSeqs else []

/-- `janus_rtcp_get_nacks`. -/
def getNacks : List Nat → List Nat
  | [] => []
  | h :: rest => if version h ≠ 2 then [] else (scan 0 (h :: rest)).flatMap packetSeqs

/-- `janus_rtcp_get_fbnack_media_ssrc`; the error codes are converted to `uint32_t`. -/
def getFbnackMediaSsrc : List Nat → Nat
  | [] => 2 ^ 32 - 1
  | h :: rest =>
    if version h ≠ 2 then 2 ^ 32 - 2
    else match (scan 0 (h :: rest)).find? (fun ws => ws.head?.any isGenericNack) with
      | some ws => ws.getD 2 0
      | none => 0

/-! ### The handlers -/

/-- `packetType` of `media_definitions.h`. -/
inductive PacketType
  | video
  | audio
  | videoRtx
  | other
  | retransmit
  | remb
  deriving DecidableEq, Repr

/-- What a call of `RtcpProcessIncomingRtcp` depends on besides the packet: the
stream it came in on, for which media `GetNackProcessor` finds a processor, and the
words that the buffer holds behind the packet. -/
structure Call where
  packetType : PacketType
  hasNackProcessor : Nat → Bool
  stale : Nat → Nat

/-- The arguments of `UpdateRTT`, when it goes past its test of the packet type. -/
structure RttUpdate where
  localSsrc : Nat
  lastSr : Nat
  delaySinceLastSr : Nat
  deriving DecidableEq, Repr

/-- The arguments of `UpdateJitters` and `StatisticSendFractionLost`. -/
structure StatusUpdate where
  isVideo : Bool
  jitter : Nat
  highestSeqnumber : Nat
  cumulativeLost : Nat
  localSsrc : Nat
  deriving DecidableEq, Repr

/-- What `HandleReceiverReport` does to the statistics. -/
structure ReportUpdate where
  rtt : Option RttUpdate
  status : Option StatusUpdate
  deriving DecidableEq, Repr

/-- The effects of the modelled handlers: an update of the statistics, and a call of
`ProcessRtcpNackPackets` with the sequence numbers it works on. -/
inductive Effect
  | report (u : ReportUpdate)
  | nacks (seqs : List Nat)
  deriving DecidableEq, Repr

section

variable (call : Call) (buf : List Nat)

/-- A word of the buffer, counted from its start. -/
def word (i : Nat) : Nat := buf[i]?.getD (call.stale i)

/-- `HandleReceiverReport`, with `UpdateRTT`. -/
def handleReceiverReport : ReportUpdate :=
  let localSsrc := word call buf 2
  let status (isVideo : Bool) : StatusUpdate :=
    { isVideo := isVideo
      jitter := word call buf 5
      highestSeqnumber := word call buf 4
      cumulativeLost := word call buf 3 % 2 ^ 24
      localSsrc := localSsrc }
  { rtt :=
      if type (word call buf 0) = 201 then some ⟨localSsrc, word call buf 6, word call buf 7⟩
      else none
    status :=
      match call.packetType with
      | .video => some (status true)
      | .audio => some (status false)
      | _ => none }

/-- `HandleNackItem`: the sequence numbers for which it calls
`ProcessRtcpNackPackets`, if it does. -/
def handleNackItem : Option (List Nat) :=
  match call.packetType with
  | .video =>
    if call.hasNackProcessor (getFbnackMediaSsrc buf) ∧ getNacks buf ≠ [] then
      some (getNacks buf)
    else none
  | .audio => if getNacks buf ≠ [] then some (getNacks buf) else none
  | _ => none

/-- The switch of `RtcpProcessIncomingRtcp`. -/
def handle : PacketTypes → List Effect
  | .rr => [.report (handleReceiverReport call buf)]
  | .rtpfbNack | .rtpfbNackItem => ((handleNackItem call buf).map Effect.nacks).toList
  | _ => []

/-- `RtcpProcessIncomingRtcp`, on the elements that the parser yields. -/
def processIncomingRtcp (ts : List PacketTypes) : List Effect :=
  (dispatched ts).flatMap (handle call buf)

end

/-- The sequence numbers handed to `ProcessRtcpNackPackets`, over all calls. -/
def handedNacks (effects : List Effect) : List Nat :=
  effects.flatMap fun
    | .nacks seqs => seqs
    | .report _ => []

/-- The updates of the statistics. -/
def reportUpdates (effects : List Effect) : List ReportUpdate :=
  effects.filterMap fun
    | .report u => some u
    | .nacks _ => none

/-! ### What the handlers see of a compound packet -/

theorem wordSeqs_word (i : NackItem) : wordSeqs i.word = i.seqs := by
  have hlt := i.blp_lt
  have hpid : i.word / 2 ^ 16 = i.pid := by
    simp only [NackItem.word]
    omega
  have hblp : i.word % 2 ^ 16 = i.blp := by
    simp only [NackItem.word]
    omega
  rw [wordSeqs, NackItem.seqs, hpid, hblp]

/-- A scan passes over the words of the sub-packet it is in. -/
theorem scan_append (ws rest : List Nat) : scan ws.length (ws ++ rest) = scan 0 rest := by
  induction ws with
  | nil => rfl
  | cons w ws ih => exact ih

theorem packetSeqs_encode (p : SubPacket) (rest : List Nat) :
    packetSeqs (p.encode ++ rest) = p.nackSeqs := by
  have htype := type_header p.padding p.count p.type_lt p.length_lt
  have hrc := rc_header p.padding p.count_lt p.type_lt p.length_lt
  have hlen := length_header p.padding p.count p.type p.length_lt
  simp only [SubPacket.encode, List.cons_append, packetSeqs, isGenericNack, htype, hrc, hlen]
  rcases p with r | n | p
  · simp [SubPacket.type, SubPacket.nackSeqs]
  · simp [SubPacket.type, SubPacket.count, SubPacket.body, SubPacket.nackSeqs,
      List.flatMap_map, wordSeqs_word]
  · have hnot := p.not_nack
    apply if_neg
    show ¬ ((p.type == 205 && p.count == 1) = true)
    simpa using hnot

theorem encode_cons (p : SubPacket) (ps : List SubPacket) :
    encode (p :: ps) =
      header p.padding p.count p.type p.body.length :: (p.body ++ encode ps) := by
  simp [encode, SubPacket.encode]

/-- The scan finds the NACKs of the sub-packets in front of the first one that is a
bare header. -/
theorem scan_encode (ps : List SubPacket) :
    (scan 0 (encode ps)).flatMap packetSeqs =
      (ps.takeWhile fun p => p.body ≠ []).flatMap SubPacket.nackSeqs := by
  induction ps with
  | nil => rfl
  | cons p ps ih =>
    have hlen := length_header p.padding p.count p.type p.length_lt
    have hseqs := packetSeqs_encode p (encode ps)
    rw [encode_cons, scan, List.flatMap_cons, hlen]
    simp only [SubPacket.encode, List.cons_append] at hseqs
    rw [hseqs]
    rcases hbody : p.body with - | ⟨w, ws⟩
    · -- a NACK has a body, so nothing is missing from this sub-packet
      have hnone : p.nackSeqs = [] := by
        rcases p with r | n | p
        · rfl
        · simp [SubPacket.body] at hbody
        · rfl
      simp [hbody, hnone]
    · rw [if_neg (by simp), scan_append, ih]
      simp [hbody]

theorem getNacks_encode (ps : List SubPacket) :
    getNacks (encode ps) = (ps.takeWhile fun p => p.body ≠ []).flatMap SubPacket.nackSeqs := by
  rw [← scan_encode]
  rcases ps with - | ⟨p, ps⟩
  · rfl
  · have hver := version_header p.padding p.count_lt p.type_lt p.length_lt
    rw [encode_cons, getNacks, hver, if_neg (by simp)]

/-- Each dispatched NACK header or item hands over all that the scan finds. -/
theorem count_handedNacks (call : Call) (buf : List Nat) (x : Nat) (ts : List PacketTypes) :
    (handedNacks (ts.flatMap (handle call buf))).count x =
      ts.countP PacketTypes.isNack * ((handleNackItem call buf).getD []).count x := by
  induction ts with
  | nil => simp [handedNacks]
  | cons t ts ih =>
    have hhead : (handedNacks (handle call buf t)).count x =
        if t.isNack then ((handleNackItem call buf).getD []).count x else 0 := by
      rcases hcall : handleNackItem call buf with - | seqs
      · cases t <;> simp [handle, hcall, handedNacks, PacketTypes.isNack]
      · cases t <;> simp [handle, hcall, handedNacks, PacketTypes.isNack]
    have happ : handedNacks ((t :: ts).flatMap (handle call buf)) =
        handedNacks (handle call buf t) ++ handedNacks (ts.flatMap (handle call buf)) := by
      simp [handedNacks]
    rw [happ, List.count_append, ih, hhead, List.countP_cons]
    split
    · rw [Nat.add_mul, Nat.one_mul, Nat.add_comm]
    · rw [Nat.add_zero, Nat.zero_add]

/-- Each dispatched receiver report reads the same words. -/
theorem reportUpdates_eq (call : Call) (buf : List Nat) (ts : List PacketTypes) :
    reportUpdates (ts.flatMap (handle call buf)) =
      List.replicate (ts.count .rr) (handleReceiverReport call buf) := by
  induction ts with
  | nil => rfl
  | cons t ts ih =>
    have happ : reportUpdates ((t :: ts).flatMap (handle call buf)) =
        reportUpdates (handle call buf t) ++ reportUpdates (ts.flatMap (handle call buf)) := by
      simp [reportUpdates]
    rw [happ, ih]
    cases t
    case rr => simp [handle, reportUpdates, List.replicate_succ]
    case rtpfbNack | rtpfbNackItem =>
      rcases handleNackItem call buf with - | seqs <;> simp_all [handle, reportUpdates]
    all_goals simp [handle, reportUpdates]

/-! ### Every element once -/

/-- An item asks for each number once. -/
theorem NackItem.nodup_seqs (i : NackItem) : i.seqs.Nodup := by
  refine List.nodup_cons.mpr ⟨?_, ?_⟩
  · intro hmem
    obtain ⟨j, -, hj⟩ := List.mem_map.mp hmem
    omega
  · apply List.Nodup.map
    · intro a b hab
      simpa using hab
    · exact List.nodup_range.filter _

theorem count_items_le (x : Nat) (items : List NackItem) :
    (items.flatMap NackItem.seqs).count x ≤ items.length := by
  induction items with
  | nil => simp
  | cons i items ih =>
    have hone := List.nodup_iff_count_le_one.mp i.nodup_seqs x
    rw [List.flatMap_cons, List.count_append, List.length_cons]
    omega

theorem SubPacket.count_nackSeqs_le (p : SubPacket) (x : Nat) :
    p.nackSeqs.count x ≤ p.yields.count .rtpfbNackItem := by
  rcases p with r | n | p
  · simp [nackSeqs]
  · have hle := count_items_le x n.items
    simpa [nackSeqs, yields, List.count_cons] using hle
  · simp [nackSeqs]

/-- There are more NACK elements than items if there is a NACK, as its header is one. -/
theorem SubPacket.count_item_le (p : SubPacket) :
    p.yields.count .rtpfbNackItem ≤ p.yields.countP PacketTypes.isNack := by
  apply List.countP_mono_left
  intro t _ ht
  rw [eq_of_beq ht]
  rfl

theorem count_item_lt {ps : List SubPacket} {n : GenericNack} (h : .genericNack n ∈ ps)
    (x : Nat) :
    (ps.flatMap SubPacket.nackSeqs).count x < (yields ps).countP PacketTypes.isNack := by
  have hall : ∀ qs : List SubPacket,
      (qs.flatMap SubPacket.nackSeqs).count x ≤ (yields qs).countP PacketTypes.isNack := by
    intro qs
    induction qs with
    | nil => simp
    | cons q qs ih =>
      have hq := Nat.le_trans (q.count_nackSeqs_le x) q.count_item_le
      simp only [List.flatMap_cons, List.count_append, yields, List.countP_append] at ih ⊢
      omega
  obtain ⟨pre, post, rfl⟩ := List.append_of_mem h
  have hpre := hall pre
  have hpost := hall post
  have hn := count_items_le x n.items
  have hnack : (SubPacket.genericNack n).yields.countP PacketTypes.isNack = n.items.length + 1 := by
    simp [SubPacket.yields, List.countP_cons, List.countP_replicate, PacketTypes.isNack]
  simp only [yields, List.flatMap_append, List.flatMap_cons, List.count_append,
    List.countP_append, hnack, SubPacket.nackSeqs] at hpre hpost ⊢
  omega

/-- A compound packet without NACK items hands nothing over. -/
theorem handleNackItem_eq_none (call : Call) {ps : List SubPacket}
    (h : ∀ n, .genericNack n ∈ ps → n.items = []) : handleNackItem call (encode ps) = none := by
  have hnone : getNacks (encode ps) = [] := by
    rw [getNacks_encode]
    apply List.flatMap_eq_nil_iff.mpr
    intro p hp
    have hmem := (List.takeWhile_sublist _).subset hp
    rcases p with r | n | p
    · rfl
    · simp [SubPacket.nackSeqs, h n hmem]
    · rfl
  simp [handleNackItem, hnone]
  cases call.packetType <;> rfl

/-- **Exactly-once dispatch.**  Every element is handled once in order, and the
sequence numbers of every generic NACK are handed over once, if and only if at most
the last element has no case of its own, and no generic NACK has an item. -/
theorem exactly_once_iff (call : Call) (ps : List SubPacket) :
    (dispatched (yields ps) = yields ps ∧
      handedNacks (processIncomingRtcp call (encode ps) (yields ps)) =
        ps.flatMap SubPacket.nackSeqs) ↔
    (∀ t ∈ (yields ps).dropLast, t.hasCase = true) ∧
      ∀ n, .genericNack n ∈ ps → n.items = [] := by
  rw [dispatched_eq_self_iff]
  refine and_congr_right fun hcase => ?_
  have hself := (dispatched_eq_self_iff _).mpr hcase
  rw [processIncomingRtcp, hself]
  constructor
  · intro hhanded n hn
    rcases hitems : n.items with - | ⟨i, items⟩
    · rfl
    · -- the first number of the item is handed over for every NACK element, and there
      -- are more of these than items that could ask for it
      have hcount := congrArg (List.count i.pid) hhanded
      rw [count_handedNacks] at hcount
      have hlt := count_item_lt hn i.pid
      have hmem : i.pid ∈ ps.flatMap SubPacket.nackSeqs := by
        refine List.mem_flatMap.mpr ⟨_, hn, ?_⟩
        simp [SubPacket.nackSeqs, hitems, NackItem.seqs]
      have hpos := List.count_pos_iff.mpr hmem
      rw [← hcount] at hlt hpos
      have hfound := Nat.pos_of_mul_pos_left hpos
      have hle := Nat.le_mul_of_pos_right ((yields ps).countP PacketTypes.isNack) hfound
      omega
  · intro hitems
    have hnone := handleNackItem_eq_none call hitems
    have hexp : ps.flatMap SubPacket.nackSeqs = [] := by
      apply List.flatMap_eq_nil_iff.mpr
      rintro (r | n | p) hp
      · rfl
      · simp [SubPacket.nackSeqs, hitems n hp]
      · rfl
    rw [hexp]
    apply List.eq_nil_iff_forall_not_mem.mpr
    intro x hx
    have hpos := List.count_pos_iff.mpr hx
    rw [count_handedNacks, hnone] at hpos
    simp at hpos

/-- A packet with one NACK of one item: the header and the item each hand over what
the whole packet asks for. -/
def nackOnce : List SubPacket :=
  [.genericNack
    { ssrc := 1, media := 2, items := [⟨7, 1, by decide⟩], padding := false, length_lt := by decide }]

theorem nack_handed_twice :
    dispatched (yields nackOnce) = yields nackOnce ∧
      nackOnce.flatMap SubPacket.nackSeqs = [7, 8] ∧
      handedNacks (processIncomingRtcp ⟨.video, fun _ => true, fun _ => 0⟩ (encode nackOnce)
        (yields nackOnce)) = [7, 8, 7, 8] := by
  decide

/-! ### The blocks of receiver reports -/

/-- What the block of a report is to change in the statistics. -/
def blockUpdate (call : Call) (b : Block) : ReportUpdate :=
  { rtt := some ⟨b.sourceSsrc, b.lastSr, b.delaySinceLastSr⟩
    status := some
      { isVideo := call.packetType = .video
        jitter := b.jitter
        highestSeqnumber := b.highestSeqnum
        cumulativeLost := b.lost
        localSsrc := b.sourceSsrc } }

/-- The updates that the reports of a compound packet ask for. -/
def blockUpdates (call : Call) (ps : List SubPacket) : List ReportUpdate :=
  (ps.flatMap SubPacket.blocks).map (blockUpdate call)

/-- The one receiver report, if there is one, comes first, has one block, and came in
on the audio or the video stream. -/
def ReportFirst (call : Call) (ps : List SubPacket) : Prop :=
  (∀ r, .receiverReport r ∉ ps) ∨
    (call.packetType = .video ∨ call.packetType = .audio) ∧
      ∃ r b rest, ps = .receiverReport r :: rest ∧ r.blocks = [b] ∧
        ∀ r', .receiverReport r' ∉ rest

theorem rr_mem_yields {ps : List SubPacket} (h : .rr ∈ yields ps) :
    ∃ r, .receiverReport r ∈ ps := by
  obtain ⟨p, hp, ht⟩ := List.mem_flatMap.mp h
  rcases p with r | n | p
  · exact ⟨r, hp⟩
  · simp [SubPacket.yields] at ht
  · exact absurd rfl (p.yields_other _ ht).1

theorem count_rr_dispatched {ts : List PacketTypes} (h : .rr ∉ ts) :
    (dispatched ts).count .rr = 0 := by
  apply List.count_eq_zero.mpr
  intro hmem
  exact h ((dispatched_sublist ts).subset hmem)

/-- The header of a report has a case of its own, so what follows it is dispatched. -/
theorem dispatched_rr (ts : List PacketTypes) :
    dispatched (.rr :: ts) = .rr :: dispatched ts := by
  rcases ts with - | ⟨t, ts⟩
  · rfl
  · simp [dispatched, PacketTypes.hasCase]

theorem word_zero (call : Call) (p : SubPacket) (ps : List SubPacket) :
    type (word call (encode (p :: ps)) 0) = p.type := by
  rw [encode_cons]
  exact type_header _ _ p.type_lt p.length_lt

/-- A first report is read from its own first block. -/
theorem handleReceiverReport_first (call : Call) {r : ReceiverReport} {b : Block}
    {bs : List Block} (hr : r.blocks = b :: bs) (ps : List SubPacket) :
    (handleReceiverReport call (encode (.receiverReport r :: ps))).rtt =
        (blockUpdate call b).rtt ∧
      (call.packetType = .video ∨ call.packetType = .audio →
        (handleReceiverReport call (encode (.receiverReport r :: ps))).status =
          (blockUpdate call b).status) := by
  have htype := word_zero call (.receiverReport r) ps
  have hwords : encode (.receiverReport r :: ps) =
      header r.padding r.blocks.length 201 (SubPacket.receiverReport r).body.length ::
        r.ssrc :: (b.words ++ (bs.flatMap Block.words ++ r.extension ++ encode ps)) := by
    rw [encode_cons]
    simp [SubPacket.padding, SubPacket.count, SubPacket.type, SubPacket.body, hr]
  refine ⟨?_, ?_⟩
  · simp only [handleReceiverReport, htype]
    simp [SubPacket.type, hwords, word, Block.words, blockUpdate]
  · rintro (h | h)
    · simpa [handleReceiverReport, h, hwords, word, Block.words, blockUpdate] using b.lost_lt
    · simpa [handleReceiverReport, h, hwords, word, Block.words, blockUpdate] using b.lost_lt

theorem blocks_eq_nil {ps : List SubPacket} (h : ∀ r, .receiverReport r ∉ ps) :
    ps.flatMap SubPacket.blocks = [] := by
  apply List.flatMap_eq_nil_iff.mpr
  rintro (r | n | p) hp
  · exact absurd hp (h r)
  · rfl
  · rfl

theorem no_report_of_blocks {ps : List SubPacket} (h : ps.flatMap SubPacket.blocks = [])
    (hne : ∀ r, .receiverReport r ∈ ps → r.blocks ≠ []) (r : ReceiverReport) :
    .receiverReport r ∉ ps := by
  intro hr
  exact hne r hr (List.flatMap_eq_nil_iff.mp h _ hr)

/-- A packet that does not start with a report gives no round trip time. -/
theorem handleReceiverReport_other (call : Call) {p : SubPacket} (ps : List SubPacket)
    (hp : ∀ r, p ≠ .receiverReport r) :
    (handleReceiverReport call (encode (p :: ps))).rtt = none := by
  have htype : type (word call (encode (p :: ps)) 0) ≠ 201 := by
    rw [word_zero]
    rcases p with r | n | p
    · exact absurd rfl (hp r)
    · show 205 ≠ 201
      omega
    · exact p.not_report
  simp [handleReceiverReport, htype]

/-- The statistics get the blocks of the reports if the condition is met. -/
theorem ReportFirst.attributed {call : Call} {ps : List SubPacket} (h : ReportFirst call ps) :
    reportUpdates (processIncomingRtcp call (encode ps) (yields ps)) = blockUpdates call ps := by
  rw [processIncomingRtcp, reportUpdates_eq, blockUpdates]
  rcases h with hnone | ⟨hmedia, r, b, rest, rfl, hblocks, hrest⟩
  · rw [blocks_eq_nil hnone, count_rr_dispatched]
    · rfl
    · intro hrr
      obtain ⟨r, hr⟩ := rr_mem_yields hrr
      exact hnone r hr
  · have hyields : yields (.receiverReport r :: rest) = .rr :: .reportBlockItem :: yields rest := by
      simp [yields, SubPacket.yields, hblocks]
    have hno : PacketTypes.rr ∉ .reportBlockItem :: yields rest := by
      intro hrr
      rcases List.mem_cons.mp hrr with hrr | hrr
      · cases hrr
      · obtain ⟨r', hr'⟩ := rr_mem_yields hrr
        exact hrest r' hr'
    obtain ⟨hrtt, hstatus⟩ := handleReceiverReport_first call hblocks rest
    rw [hyields, dispatched_rr, List.count_cons_self, count_rr_dispatched hno,
      List.flatMap_cons, blocks_eq_nil hrest, List.append_nil]
    show [handleReceiverReport call _] = r.blocks.map (blockUpdate call)
    rw [hblocks]
    exact congrArg (fun u => [u]) (congrArg₂ ReportUpdate.mk hrtt (hstatus hmedia))

/-- If every report has a block and no two blocks carry the same fields, the
statistics get the blocks of the reports only if the condition is met. -/
theorem reportFirst_of_attributed {call : Call} {ps : List SubPacket}
    (hne : ∀ r, .receiverReport r ∈ ps → r.blocks ≠ []) (hnodup : (blockUpdates call ps).Nodup)
    (h : reportUpdates (processIncomingRtcp call (encode ps) (yields ps)) = blockUpdates call ps) :
    ReportFirst call ps := by
  rw [processIncomingRtcp, reportUpdates_eq] at h
  rcases ps with - | ⟨p, ps⟩
  · exact Or.inl (by simp)
  by_cases hp : ∃ r, p = .receiverReport r
  · obtain ⟨r, rfl⟩ := hp
    obtain ⟨b, bs, hblocks⟩ := List.exists_cons_of_ne_nil (hne r List.mem_cons_self)
    have hyields : yields (.receiverReport r :: ps) =
        .rr :: (List.replicate r.blocks.length .reportBlockItem ++ yields ps) := by
      simp [yields, SubPacket.yields]
    have hexp : blockUpdates call (.receiverReport r :: ps) = blockUpdate call b ::
        (bs.map (blockUpdate call) ++ blockUpdates call ps) := by
      simp [blockUpdates, SubPacket.blocks, hblocks]
    -- the report is read at least once, and twice the same fields are not expected
    rw [hyields, dispatched_rr, List.count_cons_self] at h
    have hcopies := hnodup
    rw [← h, List.nodup_replicate] at hcopies
    have hzero : (dispatched (List.replicate r.blocks.length .reportBlockItem ++ yields ps)).count
        .rr = 0 := by omega
    rw [hzero, hexp] at h
    obtain ⟨hview, htail⟩ := List.cons.inj h
    obtain ⟨hbs, hps⟩ := List.append_eq_nil_iff.mp htail.symm
    have hmedia : call.packetType = .video ∨ call.packetType = .audio := by
      have hstatus := congrArg ReportUpdate.status hview
      cases hpt : call.packetType <;> simp [handleReceiverReport, blockUpdate, hpt] at hstatus ⊢
    refine Or.inr ⟨hmedia, r, b, ps, rfl, ?_, ?_⟩
    · rw [hblocks, List.map_eq_nil_iff.mp hbs]
    · apply no_report_of_blocks (List.map_eq_nil_iff.mp hps)
      intro r' hr'
      exact hne r' (List.mem_cons_of_mem _ hr')
  · have hrtt := handleReceiverReport_other call ps fun r hr => hp ⟨r, hr⟩
    rcases hblocks : (p :: ps).flatMap SubPacket.blocks with - | ⟨b, bs⟩
    · exact Or.inl (no_report_of_blocks hblocks hne)
    · -- an update without a round trip time is none of those expected
      have hmem : blockUpdate call b ∈ blockUpdates call (p :: ps) := by
        rw [blockUpdates, hblocks]
        exact List.mem_cons_self
      rw [← h] at hmem
      rw [← List.eq_of_mem_replicate hmem] at hrtt
      cases hrtt

/-- **Attribution of receiver reports.**  The statistics are updated with the blocks
of the reports in a compound packet if the one report comes first and has one block;
and only then, if every report has a block and no two carry the same fields. -/
theorem reports_attributed (call : Call) (ps : List SubPacket) :
    (ReportFirst call ps →
      reportUpdates (processIncomingRtcp call (encode ps) (yields ps)) =
        blockUpdates call ps) ∧
    ((∀ r, .receiverReport r ∈ ps → r.blocks ≠ []) → (blockUpdates call ps).Nodup →
      reportUpdates (processIncomingRtcp call (encode ps) (yields ps)) = blockUpdates call ps →
      ReportFirst call ps) :=
  ⟨ReportFirst.attributed, reportFirst_of_attributed⟩

/-- A receiver report, and a goodbye behind it. -/
def reportOnly : List SubPacket :=
  [.receiverReport
    { ssrc := 1, blocks := [⟨9, 0, 10, 11, 12, 13, 14, by decide⟩], extension := []
      padding := false, count_lt := by decide, length_lt := by decide },
   .other
    { count := 1, type := 203, body := [1], yields := [.bye], padding := false
      count_lt := by decide, type_lt := by decide, length_lt := by decide
      not_report := by decide, not_nack := by decide, yields_other := by decide }]

theorem reports_attributed_only :
    ReportFirst ⟨.video, fun _ => true, fun _ => 0⟩ reportOnly ∧
      reportUpdates (processIncomingRtcp ⟨.video, fun _ => true, fun _ => 0⟩
        (encode reportOnly) (yields reportOnly)) =
          [⟨some ⟨9, 13, 14⟩, some ⟨true, 12, 11, 10, 9⟩⟩] := by
  have hfirst : ReportFirst ⟨.video, fun _ => true, fun _ => 0⟩ reportOnly :=
    Or.inr ⟨Or.inl rfl, _, _, _, rfl, rfl, by simp⟩
  exact ⟨hfirst, (reports_attributed _ reportOnly).1 hfirst⟩

/-- A sender report without blocks, and a receiver report behind it. -/
def reportSecond : List SubPacket :=
  [.other
    { count := 0, type := 200, body := [1, 2, 3, 4, 5, 6], yields := [.sr], padding := false
      count_lt := by decide, type_lt := by decide, length_lt := by decide
      not_report := by decide, not_nack := by decide, yields_other := by decide },
   .receiverReport
    { ssrc := 1, blocks := [⟨9, 0, 10, 11, 12, 13, 14, by decide⟩], extension := []
      padding := false, count_lt := by decide, length_lt := by decide }]

/-- The report is read from the words of the sender report. -/
theorem second_report_misread :
    blockUpdates ⟨.audio, fun _ => true, fun _ => 0⟩ reportSecond =
        [⟨some ⟨9, 13, 14⟩, some ⟨false, 12, 11, 10, 9⟩⟩] ∧
      reportUpdates (processIncomingRtcp ⟨.audio, fun _ => true, fun _ => 0⟩
        (encode reportSecond) (yields reportSecond)) =
          [⟨none, some ⟨false, 5, 4, 3, 2⟩⟩] := by
  decide

end Orbit.Rtcp
