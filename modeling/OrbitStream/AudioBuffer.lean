/-
OrbitStream/AudioBuffer.lean

The conceal decision of the audio buffer (`AudioBufferManagerOfStable1` of
`modules/audio_buffer_manager.{h,cc}`).

`PopAudioPacket` leaves the oldest packet in the queue if the one before it is missing, and
`DecodePacket` conceals the missing one then.  Both look at the plain difference of the
numbers, and they agree on every packet (`popAudioPacket_eq`); but next to the wrap the
difference is not 2, and the missing packets 65535 and 0 are not concealed.

`expected` is what should be played of the numbers received.  In a run what was played,
followed by what is due for the packets in the queue, is what should be played, if and
only if no turn meets a missing number next to the wrap and no push meets a full queue
(`conceals_iff`).
-/
import Mathlib.Data.List.Chain
import OrbitStream.Lib.Run
import OrbitStream.RtpPacketQueue

namespace Orbit

open Lib

/-- `DEFAULT_PREBUFFERING`. -/
def defaultPrebuffering : Nat := 15

/-- `PCMU_8000_PT`. -/
def pcmu8000Pt : UInt8 := 0

/-- `OPUS_48000_PT`. -/
def opus48000Pt : UInt8 := 111

/-- The function of the codec that `DecodePacket` calls. -/
inductive OpusCall
  | decode
  | decodeFec
  | decodePlc
  deriving DecidableEq, Repr

/-- `AudioBufferManagerOfStable1`, without the codecs. -/
structure AudioBufferManagerOfStable1 where
  currentDecodeIndex : Int := -1
  audioQueue : RtpPacketQueue := .new RtpPacketQueue.defaultDepth RtpPacketQueue.defaultMax
  muted : Bool := false
  prebuffering : Bool := true

namespace AudioBufferManagerOfStable1

/-- The timebase of the queue when a packet is pushed. -/
def timebaseFor (m : AudioBufferManagerOfStable1) (packet : DataPacket) : UInt32 :=
  if RtpHeader.getPayloadType packet.data = pcmu8000Pt then 8000
  else if RtpHeader.getPayloadType packet.data = opus48000Pt then 48000
  else m.audioQueue.timebase

/-- `AudioBufferManagerOfStable1::PushAudioPacket`. -/
def pushAudioPacket (m : AudioBufferManagerOfStable1) (packet : DataPacket) :
    AudioBufferManagerOfStable1 :=
  if m.muted then m
  else
    let audioQueue := (m.audioQueue.setTimebase (m.timebaseFor packet)).pushPacket packet
    { m with
      audioQueue := audioQueue
      prebuffering := ¬ audioQueue.queue.length > defaultPrebuffering }

/-- `AudioBufferManagerOfStable1::HasPacket`. -/
def hasPacket (m : AudioBufferManagerOfStable1) : Bool :=
  ¬ m.prebuffering ∧ m.audioQueue.queue ≠ []

/-- `AudioBufferManagerOfStable1::PopAudioPacket`. -/
def popAudioPacket (m : AudioBufferManagerOfStable1) :
    Option DataPacket × AudioBufferManagerOfStable1 :=
  if ¬ m.hasPacket then (none, m)
  else
    let inbuf := m.audioQueue.getNextPacket true
    match inbuf.1 with
    -- not reached: the queue has a packet
    | none => (none, m)
    | some rtpPacket =>
        let seq : Int := rtpPacket.seqNumber.toNat
        if m.currentDecodeIndex - seq > 0x8000 ∨ seq - m.currentDecodeIndex = 1 ∨
            m.currentDecodeIndex = -1 ∨ seq - m.currentDecodeIndex ≠ 2 then
          (some rtpPacket, { m with audioQueue := (inbuf.2.popPacket true false).2 })
        else (some rtpPacket, { m with audioQueue := inbuf.2 })

/-- `AudioBufferManagerOfStable1::DecodePacket`, by the call of the codec; `hasFec` is
`WebRtcOpus_PacketHasFec`. -/
def decodePacket (hasFec : List UInt8 → Bool) (m : AudioBufferManagerOfStable1)
    (packet : DataPacket) : OpusCall × AudioBufferManagerOfStable1 :=
  let current : Int := packet.seqNumber.toNat
  if m.currentDecodeIndex ≠ -1 ∧ current - m.currentDecodeIndex = 2 then
    (if hasFec ((packet.data.take packet.length).drop 12) then .decodeFec else .decodePlc,
      { m with currentDecodeIndex := m.currentDecodeIndex + 1 })
  else (.decode, { m with currentDecodeIndex := current })

end AudioBufferManagerOfStable1

/-- The steps of a stream: a packet is received, or it is the turn of the stream in
`StartMix`. -/
inductive AudioOp
  | push (packet : RtpPacket)
  | turn

/-- The numbers of the packets received in a run. -/
def pushed : List AudioOp → List UInt16
  | [] => []
  | .push packet :: ops => packet.seqNumber :: pushed ops
  | .turn :: ops => pushed ops

/-- A manager in a run: the numbers received, and the calls of the codec with the
`current_decode_index_` they leave. -/
structure AudioRun where
  manager : AudioBufferManagerOfStable1 := {}
  received : List UInt16 := []
  decoded : List (OpusCall × Int) := []

namespace AudioRun

/-- One step. -/
def step (hasFec : List UInt8 → Bool) (s : AudioRun) : AudioOp → AudioRun
  | .push packet =>
      { s with
        manager := s.manager.pushAudioPacket packet.toDataPacket
        received := s.received ++ [packet.seqNumber] }
  | .turn =>
      match s.manager.popAudioPacket with
      | (none, m) => { s with manager := m }
      | (some packet, m) =>
          let decoded := m.decodePacket hasFec packet
          { s with
            manager := decoded.2
            decoded := s.decoded ++ [(decoded.1, decoded.2.currentDecodeIndex)] }

/-! ### What should be played -/

/-- A number that is played: of a packet, or of one that is missing and concealed. -/
structure Played where
  concealed : Bool
  number : UInt16
  deriving DecidableEq, Repr

/-- The number that is missing between the last one played and the next, if one is. -/
def gap (current : Option UInt16) (n : UInt16) : List Played :=
  match current with
  | none => []
  | some c => if n = c + 2 then [⟨true, c + 1⟩] else []

/-- What should be played of the numbers received, after the number `current`. -/
def expected : Option UInt16 → List UInt16 → List Played
  | _, [] => []
  | current, n :: rest => gap current n ++ ⟨false, n⟩ :: expected (some n) rest

/-- A call of the codec, and the index behind it. -/
def played (decoded : OpusCall × Int) : Played where
  concealed := decoded.1 ≠ .decode
  number := UInt16.ofInt decoded.2

/-- The number played last. -/
def current (s : AudioRun) : Option UInt16 :=
  if s.manager.currentDecodeIndex = -1 then none
  else some (UInt16.ofInt s.manager.currentDecodeIndex)

/-- The numbers in the queue, the oldest first. -/
def waiting (s : AudioRun) : List UInt16 :=
  (s.manager.audioQueue.queue.map DataPacket.seqNumber).reverse

/-- What was played, and is due for the packets in the queue, is what should be played of
the packets received: each missing one is concealed once and each received one decoded
once, in order. -/
def Accounted (s : AudioRun) : Prop :=
  s.decoded.map played ++ expected s.current s.waiting = expected none s.received

/-- The law of concealment at a step: everything is accounted for behind it, and a turn
that has a packet plays a number. -/
def Conceals (hasFec : List UInt8 → Bool) (s : AudioRun) (op : AudioOp) : Prop :=
  Accounted (s.step hasFec op) ∧
    (op = .turn → s.manager.hasPacket = true →
      (s.step hasFec op).decoded.length = s.decoded.length + 1)

/-- A push finds a queue with room, and is not late; if a turn finds a number missing in
front of the oldest packet, it is not next to the wrap. -/
def Unwrapped (s : AudioRun) : AudioOp → Prop
  | .push packet =>
      s.manager.audioQueue.isLate packet.seqNumber = false ∧
        RtpPacketQueue.depthOf (s.manager.timebaseFor packet.toDataPacket)
          (packet.toDataPacket :: s.manager.audioQueue.queue)
            ≤ s.manager.audioQueue.maxDepthInSeconds
  | .turn =>
      s.manager.hasPacket = true → ∀ c ∈ s.current, c + 2 ∈ s.waiting.head? →
        c + 1 ≠ 65535 ∧ c + 1 ≠ 0

instance (s : AudioRun) : DecidablePred (Unwrapped s)
  | .push _ => inferInstanceAs (Decidable (_ ∧ _))
  | .turn =>
      letI : Decidable (∀ c ∈ s.current, c + 2 ∈ s.waiting.head? → c + 1 ≠ 65535 ∧ c + 1 ≠ 0) :=
        Option.decidableForallMem _
      inferInstanceAs (Decidable (s.manager.hasPacket = true → _))

/-- The next number that arrives, or the one behind it. -/
def Next (r n : UInt16) : Prop := n = r + 1 ∨ n = r + 2

instance : DecidableRel Next := fun _ _ => inferInstanceAs (Decidable (_ ∨ _))

theorem expected_concat (current : Option UInt16) (l : List UInt16) (n : UInt16) :
    expected current (l ++ [n])
      = expected current l ++ (gap (l.getLast?.or current) n ++ [⟨false, n⟩]) := by
  induction l generalizing current with
  | nil => rfl
  | cons m rest ih =>
      rw [List.cons_append, expected, ih, expected, List.getLast?_cons]
      rcases rest.getLast? with - | r
      · simp
      · simp

/-- As many packets are decoded as are received. -/
theorem countP_expected (current : Option UInt16) (l : List UInt16) :
    (expected current l).countP (fun p => !p.concealed) = l.length := by
  induction l generalizing current with
  | nil => rfl
  | cons n rest ih =>
      have hgap : (gap current n).countP (fun p => !p.concealed) = 0 := by
        unfold gap
        split
        · rfl
        · split <;> rfl
      rw [expected, List.countP_append, List.countP_cons_of_pos rfl, hgap, ih, List.length_cons,
        Nat.zero_add]

/-! ### The two decisions -/

section Decisions

variable {m : AudioBufferManagerOfStable1} {packet : DataPacket} {front : List DataPacket}

/-- The test of `DecodePacket`. -/
def Missing (m : AudioBufferManagerOfStable1) (packet : DataPacket) : Prop :=
  m.currentDecodeIndex ≠ -1 ∧ (packet.seqNumber.toNat : Int) - m.currentDecodeIndex = 2

theorem decodePacket_of_missing (hasFec : List UInt8 → Bool) (h : Missing m packet) :
    m.decodePacket hasFec packet =
      (if hasFec ((packet.data.take packet.length).drop 12) then .decodeFec else .decodePlc,
        { m with currentDecodeIndex := m.currentDecodeIndex + 1 }) := if_pos h

theorem decodePacket_of_not_missing (hasFec : List UInt8 → Bool) (h : ¬ Missing m packet) :
    m.decodePacket hasFec packet =
      (.decode, { m with currentDecodeIndex := packet.seqNumber.toNat }) := if_neg h

/-- `PopAudioPacket` leaves a packet in the queue exactly if `DecodePacket` will conceal the
one before it. -/
theorem popAudioPacket_eq (hhas : m.hasPacket = true)
    (hqueue : m.audioQueue.queue = front ++ [packet]) :
    ∃ q : RtpPacketQueue, m.popAudioPacket = (some packet, { m with audioQueue := q }) ∧
      (Missing m packet → q.queue = front ++ [packet]) ∧ (¬ Missing m packet → q.queue = front) := by
  have hlast : m.audioQueue.queue.getLast? = some packet := by
    rw [hqueue, List.getLast?_concat]
  unfold AudioBufferManagerOfStable1.popAudioPacket RtpPacketQueue.getNextPacket
    RtpPacketQueue.popPacket
  rw [if_neg (not_not.mpr hhas), hlast]
  simp only [true_or, if_true, hlast, Bool.false_eq_true, false_and, if_false]
  split
  · rename_i hpop
    refine ⟨_, rfl, ?_, fun _ => ?_⟩
    · rintro ⟨hne, hdiff⟩
      omega
    · show m.audioQueue.queue.dropLast = front
      rw [hqueue, List.dropLast_concat]
  · rename_i hstay
    refine ⟨_, rfl, fun _ => hqueue, fun hno => absurd ⟨?_, ?_⟩ hno⟩
    · omega
    · omega

end Decisions

section Step

variable (hasFec : List UInt8 → Bool) {s : AudioRun} {packet : DataPacket}
  {front : List DataPacket}

/-- The turn of a stream whose number is missing: it is concealed, and the packet stays. -/
theorem turn_of_missing (hhas : s.manager.hasPacket = true)
    (hqueue : s.manager.audioQueue.queue = front ++ [packet]) (hmiss : Missing s.manager packet) :
    ∃ q call, q.queue = front ++ [packet] ∧ call ≠ OpusCall.decode ∧
      s.step hasFec .turn = { s with
        manager := { s.manager with
          audioQueue := q, currentDecodeIndex := s.manager.currentDecodeIndex + 1 }
        decoded := s.decoded ++ [(call, s.manager.currentDecodeIndex + 1)] } := by
  obtain ⟨q, hpop, hstays, -⟩ := popAudioPacket_eq hhas hqueue
  refine ⟨q, if hasFec ((packet.data.take packet.length).drop 12) then .decodeFec
    else .decodePlc, hstays hmiss, ?_, ?_⟩
  · split
    · exact OpusCall.noConfusion
    · exact OpusCall.noConfusion
  · have hdecode := decodePacket_of_missing (m := { s.manager with audioQueue := q }) hasFec hmiss
    simp only [step, hpop, hdecode]

/-- The turn of a stream whose oldest packet is the next one: it is decoded. -/
theorem turn_of_not_missing (hhas : s.manager.hasPacket = true)
    (hqueue : s.manager.audioQueue.queue = front ++ [packet])
    (hmiss : ¬ Missing s.manager packet) :
    ∃ q : RtpPacketQueue, q.queue = front ∧
      s.step hasFec .turn = { s with
        manager := { s.manager with
          audioQueue := q, currentDecodeIndex := packet.seqNumber.toNat }
        decoded := s.decoded ++ [(.decode, (packet.seqNumber.toNat : Int))] } := by
  obtain ⟨q, hpop, -, hgoes⟩ := popAudioPacket_eq hhas hqueue
  refine ⟨q, hgoes hmiss, ?_⟩
  have hdecode := decodePacket_of_not_missing (m := { s.manager with audioQueue := q }) hasFec
    hmiss
  simp only [step, hpop, hdecode]

/-- Nothing happens in the turn of a stream without a packet. -/
theorem turn_of_no_packet (hhas : s.manager.hasPacket ≠ true) : s.step hasFec .turn = s := by
  unfold step AudioBufferManagerOfStable1.popAudioPacket
  rw [if_pos hhas]

end Step

/-! ### Pushes in order -/

section Push

variable {s : AudioRun} {p : RtpPacket}

theorem newer_of_next {r n : UInt16} (h : Next r n) : Newer n r := by
  have hr := r.toNat_lt
  have hone : (1 : UInt16).toNat = 1 := rfl
  have htwo : (2 : UInt16).toNat = 2 := rfl
  rw [Newer, ahead_eq]
  rcases h with rfl | rfl
  · rw [UInt16.toNat_add, hone]
    omega
  · rw [UInt16.toNat_add, htwo]
    omega

/-- A packet that is newer than all others comes to the front. -/
theorem insertPacket_front {packet : DataPacket} {queue : List DataPacket}
    (h : ∀ y ∈ queue.head?, Newer packet.seqNumber y.seqNumber) :
    RtpPacketQueue.insertPacket packet queue = some (packet :: queue) := by
  rcases queue with - | ⟨y, rest⟩
  · rfl
  · have hnewer := h y rfl
    have hsame : RtpPacketQueue.sameSeq y packet ≠ true := by
      rw [RtpPacketQueue.sameSeq_iff.ne]
      exact hnewer.ne.symm
    unfold RtpPacketQueue.insertPacket
    rw [insertNew, if_neg hsame, if_pos (RtpPacketQueue.olderSeq_iff.mpr hnewer)]

/-- A push in order puts the packet in front, or it makes the queue no longer. -/
theorem push_queue (hunmuted : s.manager.muted = false)
    (hnewer : ∀ y ∈ s.manager.audioQueue.queue.head?, Newer p.seqNumber y.seqNumber) :
    (Unwrapped s (.push p) → (s.manager.pushAudioPacket p.toDataPacket).audioQueue.queue
        = p.toDataPacket :: s.manager.audioQueue.queue) ∧
      (¬ Unwrapped s (.push p) →
        (s.manager.pushAudioPacket p.toDataPacket).audioQueue.queue.length
          ≤ s.manager.audioQueue.queue.length) := by
  have hpush : (s.manager.pushAudioPacket p.toDataPacket).audioQueue
      = (s.manager.audioQueue.setTimebase (s.manager.timebaseFor p.toDataPacket)).pushPacket
        p.toDataPacket := by
    unfold AudioBufferManagerOfStable1.pushAudioPacket
    rw [hunmuted]
    rfl
  rw [hpush]
  unfold RtpPacketQueue.pushPacket
  rw [p.stored_eq]
  show (_ → RtpPacketQueue.queue (if s.manager.audioQueue.isLate p.seqNumber = true then _ else _)
    = _) ∧ (_ → (RtpPacketQueue.queue (if s.manager.audioQueue.isLate p.seqNumber = true then _
      else _)).length ≤ _)
  rcases hlate : s.manager.audioQueue.isLate p.seqNumber with - | -
  · rw [if_neg Bool.false_ne_true]
    show (_ → RtpPacketQueue.enforceMax _ _ = _) ∧ (_ → (RtpPacketQueue.enforceMax _ _).length ≤ _)
    have hins : RtpPacketQueue.insertPacket p.toDataPacket (s.manager.audioQueue.setTimebase
        (s.manager.timebaseFor p.toDataPacket)).queue
          = some (p.toDataPacket :: s.manager.audioQueue.queue) := insertPacket_front hnewer
    rw [hins, Option.getD_some]
    unfold RtpPacketQueue.enforceMax
    refine ⟨?_, ?_⟩
    · rintro ⟨-, hroom⟩
      apply trimBack_of_good
      exact decide_eq_false (not_lt.mpr hroom)
    · intro hfull
      have hbad : s.manager.audioQueue.maxDepthInSeconds
          < RtpPacketQueue.depthOf (s.manager.timebaseFor p.toDataPacket)
            (p.toDataPacket :: s.manager.audioQueue.queue) :=
        lt_of_not_ge fun hroom => hfull ⟨hlate, hroom⟩
      have hcut := (trimBack_longest (fun queue => decide (s.manager.audioQueue.maxDepthInSeconds
        < RtpPacketQueue.depthOf (s.manager.timebaseFor p.toDataPacket) queue))
        (p.toDataPacket :: s.manager.audioQueue.queue))
      rcases Nat.lt_or_ge (trimBack (fun queue => decide (s.manager.audioQueue.maxDepthInSeconds
        < RtpPacketQueue.depthOf (s.manager.timebaseFor p.toDataPacket) queue))
        (p.toDataPacket :: s.manager.audioQueue.queue)).length
          (s.manager.audioQueue.queue.length + 1) with hlt | hge
      · exact Nat.le_of_lt_succ hlt
      · -- a queue that is not cut would be within the limit
        have heq := hcut.start.eq_of_length_le hge
        have hgood := hcut.holds (by rw [heq]; exact List.cons_ne_nil _ _)
        rw [heq] at hgood
        exact absurd hbad (of_decide_eq_false hgood)
  · rw [if_pos rfl]
    refine ⟨?_, fun _ => Nat.le_refl _⟩
    rintro ⟨hno, -⟩
    rw [hlate] at hno
    cases hno

end Push

/-! ### Every step -/

/-- The queue and the index follow the numbers received. -/
structure Tracks (s : AudioRun) : Prop where
  unmuted : s.manager.muted = false
  index : s.manager.currentDecodeIndex = -1 ∨
    ∃ c : UInt16, s.manager.currentDecodeIndex = c.toNat
  last : s.waiting.getLast?.or s.current = s.received.getLast?
  chain : (s.current.toList ++ s.waiting).IsChain Next

theorem tracks_start : Tracks {} := by
  have hqueue : ({} : AudioRun).manager.audioQueue.queue = [] :=
    RtpPacketQueue.new_queue RtpPacketQueue.defaultDepth RtpPacketQueue.defaultMax
  have hwaiting : ({} : AudioRun).waiting = [] := by
    rw [waiting, hqueue]
    rfl
  refine ⟨rfl, .inl rfl, ?_, ?_⟩
  · rw [hwaiting]
    rfl
  · rw [hwaiting]
    exact List.IsChain.nil

theorem accounted_start : Accounted {} := by
  have hqueue : ({} : AudioRun).manager.audioQueue.queue = [] :=
    RtpPacketQueue.new_queue RtpPacketQueue.defaultDepth RtpPacketQueue.defaultMax
  rw [Accounted, waiting, hqueue]
  rfl

section Invariant

variable (hasFec : List UInt8 → Bool) {s : AudioRun} {p : RtpPacket} {packet : DataPacket}
  {front : List DataPacket}

theorem current_of_start (h : s.manager.currentDecodeIndex = -1) : s.current = none := if_pos h

theorem current_of_index {c : UInt16} (h : s.manager.currentDecodeIndex = c.toNat) :
    s.current = some c := by
  rw [current, h, if_neg (by omega), RtpPacketQueue.ofInt_toNat]

theorem ofInt_succ {c : UInt16} (h : c.toNat + 1 < 2 ^ 16) :
    UInt16.ofInt ((c.toNat : Int) + 1) = c + 1 := by
  have hone : (1 : UInt16).toNat = 1 := rfl
  have hsucc : (c + 1).toNat = c.toNat + 1 := by
    rw [UInt16.toNat_add, hone]
    omega
  rw [← RtpPacketQueue.ofInt_toNat (c + 1), hsucc]
  rfl

/-- What a turn finds missing: the number is next to the wrap, or the test sees it. -/
theorem missing_iff {m : AudioBufferManagerOfStable1} {c : UInt16}
    (hindex : m.currentDecodeIndex = c.toNat) (hnext : Next c packet.seqNumber) :
    Missing m packet ↔ packet.seqNumber = c + 2 ∧ c.toNat + 2 < 2 ^ 16 := by
  have hc := c.toNat_lt
  have hone : (1 : UInt16).toNat = 1 := rfl
  have htwo : (2 : UInt16).toNat = 2 := rfl
  rw [Missing, hindex]
  rcases hnext with hn | hn
  · have hne : packet.seqNumber ≠ c + 2 := by
      rw [hn]
      intro he
      have hnat := congrArg UInt16.toNat he
      rw [UInt16.toNat_add, UInt16.toNat_add, hone, htwo] at hnat
      omega
    have hnum : packet.seqNumber.toNat = (c.toNat + 1) % 2 ^ 16 := by
      rw [hn, UInt16.toNat_add, hone]
    constructor
    · rintro ⟨-, hdiff⟩
      omega
    · exact fun h => absurd h.1 hne
  · have hnum : packet.seqNumber.toNat = (c.toNat + 2) % 2 ^ 16 := by
      rw [hn, UInt16.toNat_add, htwo]
    constructor
    · rintro ⟨-, hdiff⟩
      exact ⟨hn, by omega⟩
    · rintro ⟨-, hlt⟩
      exact ⟨by omega, by omega⟩

/-- The newest packet of the queue is the one received last. -/
theorem Tracks.newer (h : Tracks s) (hnext : ∀ r ∈ s.received.getLast?, Next r p.seqNumber) :
    ∀ y ∈ s.manager.audioQueue.queue.head?, Newer p.seqNumber y.seqNumber := by
  intro y hy
  apply newer_of_next
  apply hnext
  have hlast : s.waiting.getLast? = some y.seqNumber := by
    rw [waiting, List.getLast?_reverse, List.head?_map, Option.mem_def.mp hy]
    rfl
  rw [← h.last, hlast]
  rfl

theorem current_push : (s.step hasFec (.push p)).current = s.current := by
  show current ⟨s.manager.pushAudioPacket p.toDataPacket, _, _⟩ = _
  unfold AudioBufferManagerOfStable1.pushAudioPacket
  split <;> rfl

theorem waiting_push (h : (s.manager.pushAudioPacket p.toDataPacket).audioQueue.queue
    = p.toDataPacket :: s.manager.audioQueue.queue) :
    (s.step hasFec (.push p)).waiting = s.waiting ++ [p.seqNumber] := by
  show waiting ⟨s.manager.pushAudioPacket p.toDataPacket, _, _⟩ = _
  rw [waiting, h, List.map_cons, List.reverse_cons]
  rfl

/-- A push is accounted for exactly if the packet stays in the queue and no other leaves. -/
theorem accounted_push_iff (h : Tracks s) (hacc : Accounted s)
    (hnext : ∀ r ∈ s.received.getLast?, Next r p.seqNumber) :
    Accounted (s.step hasFec (.push p)) ↔ Unwrapped s (.push p) := by
  obtain ⟨hgood, hbad⟩ := push_queue h.unmuted (h.newer hnext)
  have hdecoded : (s.step hasFec (.push p)).decoded = s.decoded := rfl
  have hreceived : (s.step hasFec (.push p)).received = s.received ++ [p.seqNumber] := rfl
  unfold Accounted at hacc ⊢
  rw [hdecoded, hreceived, current_push, expected_concat]
  constructor
  · intro heq
    by_contra hno
    -- a packet was received and none is waiting for it
    have hcount := congrArg (List.countP fun p => !p.concealed) heq
    have hbefore := congrArg (List.countP fun p => !p.concealed) hacc
    have hshort : (s.step hasFec (.push p)).waiting.length ≤ s.waiting.length := by
      rw [waiting, waiting, List.length_reverse, List.length_reverse, List.length_map,
        List.length_map]
      exact hbad hno
    rw [List.countP_append, countP_expected, ← List.append_assoc, List.countP_append,
      List.countP_append, countP_expected, List.countP_singleton] at hcount
    rw [List.countP_append, countP_expected, countP_expected] at hbefore
    simp only [Bool.not_false, if_true] at hcount
    omega
  · intro hroom
    rw [waiting_push hasFec (hgood hroom), expected_concat, ← List.append_assoc, hacc, h.last,
      Option.or_none]

theorem Tracks.push (h : Tracks s) (hnext : ∀ r ∈ s.received.getLast?, Next r p.seqNumber)
    (hroom : Unwrapped s (.push p)) : Tracks (s.step hasFec (.push p)) := by
  have hwaiting := waiting_push hasFec ((push_queue h.unmuted (h.newer hnext)).1 hroom)
  have hindex : (s.step hasFec (.push p)).manager.currentDecodeIndex
      = s.manager.currentDecodeIndex := by
    show (s.manager.pushAudioPacket p.toDataPacket).currentDecodeIndex = _
    unfold AudioBufferManagerOfStable1.pushAudioPacket
    split <;> rfl
  refine ⟨?_, ?_, ?_, ?_⟩
  · show (s.manager.pushAudioPacket p.toDataPacket).muted = false
    unfold AudioBufferManagerOfStable1.pushAudioPacket
    split
    · exact h.unmuted
    · exact h.unmuted
  · rw [hindex]
    exact h.index
  · show _ = (s.received ++ [p.seqNumber]).getLast?
    rw [hwaiting, List.getLast?_concat, List.getLast?_concat]
    rfl
  · rw [current_push, hwaiting, ← List.append_assoc, List.isChain_append]
    refine ⟨h.chain, List.isChain_singleton _, ?_⟩
    intro r hr n hn
    obtain rfl : p.seqNumber = n := Option.some.inj hn
    apply hnext
    rw [← h.last]
    rw [List.getLast?_append] at hr
    cases hcur : s.current
    · rw [hcur] at hr
      exact hr
    · rw [hcur] at hr
      exact hr

theorem exists_oldest (hhas : s.manager.hasPacket = true) :
    ∃ front packet, s.manager.audioQueue.queue = front ++ [packet] := by
  have hne : s.manager.audioQueue.queue ≠ [] := (of_decide_eq_true hhas).2
  exact ⟨_, _, (List.dropLast_append_getLast hne).symm⟩

theorem waiting_of_queue (h : s.manager.audioQueue.queue = front ++ [packet]) :
    s.waiting = packet.seqNumber :: (front.map DataPacket.seqNumber).reverse := by
  rw [waiting, h, List.map_append, List.reverse_append]
  rfl

/-- A number next to the wrap is missing in front of the oldest packet. -/
def WrapMissing (s : AudioRun) : Prop :=
  ∃ c, s.current = some c ∧ s.waiting.head? = some (c + 2) ∧ 2 ^ 16 ≤ c.toNat + 2

theorem unwrapped_turn_iff (hhas : s.manager.hasPacket = true) :
    Unwrapped s .turn ↔ ¬ WrapMissing s := by
  have hone : (1 : UInt16).toNat = 1 := rfl
  have hlast : (65535 : UInt16).toNat = 65535 := rfl
  have hzero : (0 : UInt16).toNat = 0 := rfl
  constructor
  · rintro h ⟨c, hcur, hhead, hwrap⟩
    have hc := c.toNat_lt
    obtain ⟨hne, hne'⟩ := h hhas c hcur hhead
    rw [Ne, ← UInt16.toNat_inj, UInt16.toNat_add, hone, hlast] at hne
    rw [Ne, ← UInt16.toNat_inj, UInt16.toNat_add, hone, hzero] at hne'
    omega
  · intro h _ c hcur hhead
    have hsmall : c.toNat + 2 < 2 ^ 16 :=
      Nat.lt_of_not_le fun hge => h ⟨c, hcur, hhead, hge⟩
    rw [Ne, Ne, ← UInt16.toNat_inj, ← UInt16.toNat_inj, UInt16.toNat_add, hone, hlast, hzero]
    omega

/-- The turn of a stream whose number is missing is accounted for. -/
theorem turn_concealed (h : Tracks s) (hacc : Accounted s) (hhas : s.manager.hasPacket = true)
    (hqueue : s.manager.audioQueue.queue = front ++ [packet]) (hmiss : Missing s.manager packet) :
    ¬ WrapMissing s ∧ Accounted (s.step hasFec .turn) ∧ Tracks (s.step hasFec .turn) := by
  obtain ⟨q, call, hq, hcall, hstep⟩ := turn_of_missing hasFec hhas hqueue hmiss
  have hwaiting := waiting_of_queue hqueue
  have hchain := h.chain
  have hlast := h.last
  obtain ⟨c, hindex⟩ := h.index.resolve_left hmiss.1
  rw [hwaiting, current_of_index hindex] at hchain hlast
  rw [Accounted, hwaiting, expected, current_of_index hindex] at hacc
  obtain ⟨hnext, hrest⟩ := List.isChain_cons_cons.mp hchain
  obtain ⟨hn, hsmall⟩ := (missing_iff hindex hnext).mp hmiss
  have hone : (1 : UInt16).toNat = 1 := rfl
  have hnewindex : (s.step hasFec .turn).manager.currentDecodeIndex = (c + 1).toNat := by
    rw [hstep, UInt16.toNat_add, hone]
    show s.manager.currentDecodeIndex + 1 = _
    rw [hindex]
    omega
  have hnewwaiting : (s.step hasFec .turn).waiting
      = packet.seqNumber :: (front.map DataPacket.seqNumber).reverse := by
    apply waiting_of_queue
    rw [hstep]
    exact hq
  have hafter : packet.seqNumber = c + 1 + 1 := by
    rw [hn, UInt16.add_assoc]
    rfl
  refine ⟨?_, ?_, ?_⟩
  · rintro ⟨d, hd, -, hlarge⟩
    rw [current_of_index hindex] at hd
    obtain rfl := Option.some.inj hd
    omega
  · rw [Accounted, current_of_index hnewindex, hnewwaiting, hstep]
    show (s.decoded ++ [(call, s.manager.currentDecodeIndex + 1)]).map played
      ++ expected (some (c + 1)) _ = expected none s.received
    have hplayed : played (call, s.manager.currentDecodeIndex + 1) = ⟨true, c + 1⟩ := by
      rw [played, hindex, ofInt_succ (by omega)]
      simp [hcall]
    have hgap : gap (some (c + 1)) packet.seqNumber = [] := by
      rw [gap, if_neg]
      rw [hafter]
      intro he
      exact absurd ((UInt16.add_right_inj (c + 1)).mp he) (by decide)
    have hgap' : gap (some c) packet.seqNumber = [⟨true, c + 1⟩] := if_pos hn
    rw [List.map_append, List.map_singleton, hplayed, expected, hgap, List.nil_append, ← hacc,
      hgap', List.append_assoc]
  · refine ⟨?_, .inr ⟨c + 1, hnewindex⟩, ?_, ?_⟩
    · rw [hstep]
      exact h.unmuted
    · rw [current_of_index hnewindex, hnewwaiting, hstep]
      show _ = s.received.getLast?
      rw [← hlast, List.getLast?_cons]
      rfl
    · rw [current_of_index hnewindex, hnewwaiting]
      exact List.isChain_cons_cons.mpr ⟨.inl hafter, hrest⟩

/-- Of a packet that is not concealed before the turn, no number is missing but one next to
the wrap. -/
theorem gap_eq_nil_iff (h : Tracks s)
    (hqueue : s.manager.audioQueue.queue = front ++ [packet])
    (hmiss : ¬ Missing s.manager packet) :
    gap s.current packet.seqNumber = [] ↔ ¬ WrapMissing s := by
  have hwaiting := waiting_of_queue hqueue
  have hchain := h.chain
  rw [hwaiting] at hchain
  rcases h.index with hstart | ⟨c, hindex⟩
  · rw [current_of_start hstart]
    refine ⟨?_, fun _ => rfl⟩
    rintro - ⟨c, hc, -⟩
    rw [current_of_start hstart] at hc
    cases hc
  · rw [current_of_index hindex] at hchain ⊢
    have hnot := (missing_iff hindex (List.isChain_cons_cons.mp hchain).1).not.mp hmiss
    rw [gap]
    constructor
    · rintro he ⟨d, hd, hhead, -⟩
      rw [current_of_index hindex] at hd
      obtain rfl := Option.some.inj hd
      rw [hwaiting] at hhead
      rw [if_pos (Option.some.inj hhead)] at he
      cases he
    · intro hno
      rw [if_neg]
      intro hn
      apply hno
      refine ⟨c, current_of_index hindex, ?_, ?_⟩
      · rw [hwaiting, hn]
        rfl
      · exact Nat.le_of_not_lt fun hlt => hnot ⟨hn, hlt⟩

/-- The turn of a stream whose oldest packet is decoded is accounted for unless a number
next to the wrap was missing. -/
theorem turn_decoded (h : Tracks s) (hacc : Accounted s) (hhas : s.manager.hasPacket = true)
    (hqueue : s.manager.audioQueue.queue = front ++ [packet])
    (hmiss : ¬ Missing s.manager packet) :
    (Accounted (s.step hasFec .turn) ↔ ¬ WrapMissing s) ∧ Tracks (s.step hasFec .turn) := by
  obtain ⟨q, hq, hstep⟩ := turn_of_not_missing hasFec hhas hqueue hmiss
  have hwaiting := waiting_of_queue hqueue
  have hchain := h.chain
  have hlast := h.last
  rw [hwaiting] at hchain hlast
  rw [Accounted, hwaiting, expected] at hacc
  have hnewindex : (s.step hasFec .turn).manager.currentDecodeIndex
      = packet.seqNumber.toNat := by
    rw [hstep]
  have hnewwaiting : (s.step hasFec .turn).waiting
      = (front.map DataPacket.seqNumber).reverse := by
    rw [hstep, waiting]
    show (q.queue.map _).reverse = _
    rw [hq]
  refine ⟨?_, ?_, .inr ⟨_, hnewindex⟩, ?_, ?_⟩
  · have hplayed : played (.decode, (packet.seqNumber.toNat : Int))
        = ⟨false, packet.seqNumber⟩ := by
      rw [played, RtpPacketQueue.ofInt_toNat]
      rfl
    rw [← gap_eq_nil_iff h hqueue hmiss, Accounted, current_of_index hnewindex, hnewwaiting, hstep]
    show (s.decoded ++ [(OpusCall.decode, (packet.seqNumber.toNat : Int))]).map played
      ++ expected (some packet.seqNumber) _ = expected none s.received ↔ _
    rw [List.map_append, List.map_singleton, hplayed, ← hacc, List.append_assoc,
      List.append_cancel_left_eq]
    constructor
    · intro he
      have hlen := congrArg List.length he
      rw [List.length_append, List.length_append, List.length_singleton, List.length_cons] at hlen
      exact List.length_eq_zero_iff.mp (by omega)
    · intro he
      rw [he]
      rfl
  · rw [hstep]
    exact h.unmuted
  · rw [current_of_index hnewindex, hnewwaiting, hstep]
    show _ = s.received.getLast?
    rw [← hlast, List.getLast?_cons]
    cases (front.map DataPacket.seqNumber).reverse.getLast? <;> rfl
  · rw [current_of_index hnewindex, hnewwaiting]
    exact (List.isChain_append.mp hchain).2.1

/-- A turn with a packet plays a number.  Everything is accounted for behind it unless the
number missing is next to the wrap, and the queue and the index follow in any case. -/
theorem turn_of_packet (h : Tracks s) (hacc : Accounted s) (hhas : s.manager.hasPacket = true) :
    (s.step hasFec .turn).decoded.length = s.decoded.length + 1 ∧
      (Accounted (s.step hasFec .turn) ↔ ¬ WrapMissing s) ∧ Tracks (s.step hasFec .turn) := by
  obtain ⟨front, packet, hqueue⟩ := exists_oldest hhas
  by_cases hmiss : Missing s.manager packet
  · obtain ⟨hno, hnew, htracks⟩ := turn_concealed hasFec h hacc hhas hqueue hmiss
    obtain ⟨q, call, -, -, hstep⟩ := turn_of_missing hasFec hhas hqueue hmiss
    refine ⟨?_, ⟨fun _ => hno, fun _ => hnew⟩, htracks⟩
    rw [hstep]
    exact List.length_append
  · obtain ⟨q, -, hstep⟩ := turn_of_not_missing hasFec hhas hqueue hmiss
    refine ⟨?_, turn_decoded hasFec h hacc hhas hqueue hmiss⟩
    rw [hstep]
    exact List.length_append

theorem received_turn : (s.step hasFec .turn).received = s.received := by
  rcases hpop : s.manager.popAudioPacket with ⟨- | packet, m⟩
  · simp only [step, hpop]
  · simp only [step, hpop]

/-- The law holds at a step exactly under the condition. -/
theorem conceals_step_iff (h : Tracks s) (hacc : Accounted s) (op : AudioOp)
    (hnext : ∀ n ∈ (pushed [op]).head?, ∀ r ∈ s.received.getLast?, Next r n) :
    Conceals hasFec s op ↔ Unwrapped s op := by
  cases op with
  | push p =>
      rw [← accounted_push_iff hasFec h hacc (hnext p.seqNumber rfl)]
      refine ⟨fun hc => hc.1, fun ha => ⟨ha, ?_⟩⟩
      intro he
      cases he
  | turn =>
      by_cases hhas : s.manager.hasPacket = true
      · obtain ⟨hlen, hiff, -⟩ := turn_of_packet hasFec h hacc hhas
        rw [unwrapped_turn_iff hhas, ← hiff]
        exact ⟨fun hc => hc.1, fun ha => ⟨ha, fun _ _ => hlen⟩⟩
      · refine ⟨fun _ hc => absurd hc hhas, fun _ => ⟨?_, fun _ hc => absurd hc hhas⟩⟩
        rw [turn_of_no_packet hasFec hhas]
        exact hacc

theorem tracks_step (h : Tracks s) (hacc : Accounted s) (op : AudioOp)
    (hnext : ∀ n ∈ (pushed [op]).head?, ∀ r ∈ s.received.getLast?, Next r n)
    (hop : Unwrapped s op) : Tracks (s.step hasFec op) := by
  cases op with
  | push p => exact h.push hasFec (hnext p.seqNumber rfl) hop
  | turn =>
      by_cases hhas : s.manager.hasPacket = true
      · exact (turn_of_packet hasFec h hacc hhas).2.2
      · rw [turn_of_no_packet hasFec hhas]
        exact h

end Invariant

/-- Concealment, for every run of packets in order of which only single ones are missing:
the law holds throughout if and only if every push finds room and no turn finds a number
missing next to the wrap. -/
theorem conceals_iff (hasFec : List UInt8 → Bool) (ops : List AudioOp)
    (hnext : (pushed ops).IsChain Next) :
    Throughout (step hasFec) (Conceals hasFec) {} ops ↔
      Throughout (step hasFec) Unwrapped {} ops := by
  refine throughout_congr_rule
    (P := fun rest s => Tracks s ∧ Accounted s ∧ (s.received ++ pushed rest).IsChain Next)
    ?_ ?_ ops ⟨tracks_start, accounted_start, hnext⟩
  · rintro s op rest ⟨h, hacc, hchain⟩
    apply conceals_step_iff hasFec h hacc op
    cases op with
    | push p => exact fun n hn r hr => (List.isChain_append.mp hchain).2.2 r hr n hn
    | turn => exact fun n hn => absurd hn (Option.not_mem_none n)
  · rintro s op rest ⟨h, hacc, hchain⟩ hop
    have hfirst : ∀ n ∈ (pushed [op]).head?, ∀ r ∈ s.received.getLast?, Next r n := by
      cases op with
      | push p => exact fun n hn r hr => (List.isChain_append.mp hchain).2.2 r hr n hn
      | turn => exact fun n hn => absurd hn (Option.not_mem_none n)
    refine ⟨tracks_step hasFec h hacc op hfirst hop,
      ((conceals_step_iff hasFec h hacc op hfirst).mpr hop).1, ?_⟩
    cases op with
    | push p =>
        show ((s.received ++ [p.seqNumber]) ++ pushed rest).IsChain Next
        rw [List.append_assoc]
        exact hchain
    | turn =>
        rw [received_turn]
        exact hchain

/-- Nineteen packets, of which the last one comes behind a missing one, and turns. -/
def lossAt (missing : UInt16) (turns : Nat) : List AudioOp :=
  (List.range 18).map (fun i => .push (.ofHeader (missing - 18 + UInt16.ofNat i) 0))
    ++ .push (.ofHeader (missing + 1) 0) :: List.replicate turns .turn

theorem conceals_118 :
    Throughout (step fun _ => false) (Conceals fun _ => false) {} (lossAt 118 20) :=
  (conceals_iff (fun _ => false) (lossAt 118 20) (by decide +kernel)).mpr (by decide +kernel)

/-- The packet 65535 is missing: the nineteenth turn plays the packet behind it. -/
theorem not_conceals_65535 :
    ¬ Throughout (step fun _ => false) (Conceals fun _ => false) {} (lossAt 65535 19) := by
  intro h
  have hturn := throughout_iff.mp h (lossAt 65535 18) .turn [] rfl
  have hmissed : ¬ Accounted (((lossAt 65535 18).foldl (step fun _ => false) {}).step
      (fun _ => false) .turn) := by
    unfold Accounted
    decide +kernel
  exact hmissed hturn.1

end AudioRun

end Orbit
