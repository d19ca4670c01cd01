/-
OrbitStream/RtpPacketBuffer.lean

The packet buffers of the old forwarding element
(`modules/rtp_packet_buffer.{h,cc}`).

`queue_` is a `std::priority_queue` whose comparator takes the wrap of the
sequence numbers into account; its top is an element that no other one exceeds.
It is kept as the list of its elements in the order they were pushed, and the
top is found by a scan.  `VideoAwareFrameBuffer` puts a mode on top of it: a
normal buffer holds nothing, a storage buffer starts with a key frame and cannot
be popped, a play buffer is the plain one.

A packet that all others are newer than is on top, of the list (`top_of_newer`) and
of the heap behind it (`heap_top_of_newer`).  With the heap itself as the state, the
packets of one window are popped in the order of their numbers and none is lost
(`jitter_order`).  What a storage buffer holds after any
run is `stored_since`; it compares numbers without the wrap, so it holds what it
should if and only if no packet lies across the wrap from the key frame and the
prebuffering is done (`stored_newer_iff`).
-/
import OrbitStream.Lib.Heap
import OrbitStream.RtpPacketQueue

namespace Orbit

open Lib

/-- `dataPacketComparator`: whether `a` comes after `b`. -/
def dataPacketComparator (a b : DataPacket) : Bool :=
  let diff : Int := (RtpHeader.getSeqNumber a.data).toNat - (RtpHeader.getSeqNumber b.data).toNat
  if diff > 0 then diff < 0x8000
  else if diff < 0 then diff < -0x8000
  else false

/-- `RtpPacketBuffer`. -/
structure RtpPacketBuffer where
  queue : List DataPacket := []
  prebufferingSize : Nat := 0
  deriving DecidableEq, Repr

namespace RtpPacketBuffer

/-- `queue_.top()`. -/
def top (b : RtpPacketBuffer) : Option DataPacket :=
  match b.queue with
  | [] => none
  | p :: ps => some (ps.foldl (fun best x => if dataPacketComparator best x then x else best) p)

/-- `RtpPacketBuffer::PushPacket`. -/
def pushPacket (b : RtpPacketBuffer) (packet : DataPacket) : RtpPacketBuffer :=
  { b with queue := b.queue ++ [{ packet with data := packet.data.take packet.length }] }

/-- `RtpPacketBuffer::GetSize`. -/
def getSize (b : RtpPacketBuffer) : Nat := b.queue.length

/-- `RtpPacketBuffer::PrebufferingDone`. -/
def prebufferingDone (b : RtpPacketBuffer) : Bool := b.prebufferingSize < b.getSize

/-- `RtpPacketBuffer::TopPacket`. -/
def topPacket (b : RtpPacketBuffer) : Option DataPacket :=
  if b.prebufferingSize < b.queue.length then b.top else none

/-- `RtpPacketBuffer::PopPacket`: the packet and the buffer without it. -/
def popPacket (b : RtpPacketBuffer) : Option DataPacket × RtpPacketBuffer :=
  if b.prebufferingSize < b.queue.length then
    match b.top with
    | none => (none, b)
    | some p => (some p, { b with queue := b.queue.erase p })
  else (none, b)

/-- `RtpPacketBuffer::CleanBuffer`. -/
def cleanBuffer (b : RtpPacketBuffer) : RtpPacketBuffer := { b with queue := [] }

end RtpPacketBuffer

/-- `VideoAwareFrameBuffer::BufferType`. -/
inductive BufferType
  | normalBuffer
  | storageBuffer
  | playBuffer
  deriving DecidableEq, Repr

/-- `VideoAwareFrameBuffer`. -/
structure VideoAwareFrameBuffer extends RtpPacketBuffer where
  bufferType : BufferType := .normalBuffer
  hasKeyFrame : Bool := false
  keyFrameSeq : Nat := 0
  deriving DecidableEq, Repr

namespace VideoAwareFrameBuffer

/-- `VideoAwareFrameBuffer::SetBufferType`. -/
def setBufferType (b : VideoAwareFrameBuffer) (t : BufferType) : VideoAwareFrameBuffer :=
  { b with bufferType := t }

/-- `CleanBuffer` on a video buffer. -/
def clean (b : VideoAwareFrameBuffer) : VideoAwareFrameBuffer :=
  { b with toRtpPacketBuffer := b.toRtpPacketBuffer.cleanBuffer }

/-- `RtpPacketBuffer::PushPacket` on a video buffer. -/
def basePush (b : VideoAwareFrameBuffer) (packet : DataPacket) : VideoAwareFrameBuffer :=
  { b with toRtpPacketBuffer := b.toRtpPacketBuffer.pushPacket packet }

/-- `VideoAwareFrameBuffer::ResetBuffer`. -/
def resetBuffer (b : VideoAwareFrameBuffer) : VideoAwareFrameBuffer :=
  { b with hasKeyFrame := false }.clean

/-- `VideoAwareFrameBuffer::IsKeyFramePacket`. -/
def isKeyFramePacket (parse : Depacketizer) (packet : DataPacket) : Bool :=
  isKeyFrame parse packet.data packet.length

/-- `VideoAwareFrameBuffer::PushPacket`. -/
def push (parse : Depacketizer) (b : VideoAwareFrameBuffer) (packet : DataPacket) :
    VideoAwareFrameBuffer :=
  let curSeq := (RtpHeader.getSeqNumber packet.data).toNat
  match b.bufferType with
  | .normalBuffer => b.clean
  | .storageBuffer =>
      if isKeyFramePacket parse packet then
        { b.clean with keyFrameSeq := curSeq, hasKeyFrame := true }.basePush packet
      else if b.hasKeyFrame ∧ curSeq > b.keyFrameSeq then b.basePush packet
      else b
  | .playBuffer => b.basePush packet

/-- `VideoAwareFrameBuffer::PopPacket`. -/
def pop (b : VideoAwareFrameBuffer) : Option DataPacket × VideoAwareFrameBuffer :=
  match b.bufferType with
  | .playBuffer =>
      let (p, base) := b.toRtpPacketBuffer.popPacket
      (p, { b with toRtpPacketBuffer := base })
  | _ => (none, b)

end VideoAwareFrameBuffer

/-! ### The top -/

/-- The comparison is the one of `RtpPacketQueue`, with the arguments exchanged. -/
theorem dataPacketComparator_iff {a b : DataPacket} :
    dataPacketComparator a b = true ↔ Newer a.seqNumber b.seqNumber :=
  RtpPacketQueue.rtpSequenceLessThan_iff

namespace RtpPacketBuffer

section

variable {k : DataPacket} {rest : List DataPacket}

theorem not_after_of_newer {p : DataPacket} (h : Newer p.seqNumber k.seqNumber) :
    dataPacketComparator k p = false := by
  rw [← Bool.not_eq_true, dataPacketComparator_iff]
  exact h.not_newer

/-- The first packet is on top if all others are newer. -/
theorem top_of_newer {b : RtpPacketBuffer} (hb : b.queue = k :: rest)
    (hnewer : ∀ p ∈ rest, Newer p.seqNumber k.seqNumber) : b.top = some k := by
  have hscan : rest.foldl (fun best x => if dataPacketComparator best x then x else best) k = k := by
    apply List.foldlRecOn (motive := fun best => best = k) rest _ rfl
    rintro best rfl p hp
    rw [not_after_of_newer (hnewer p hp)]
    rfl
  rw [top, hb]
  exact congrArg some hscan

/-- In a window the comparison is a strict weak order. -/
theorem comparator_weakOn (base : UInt16) :
    Heap.WeakOn dataPacketComparator fun p => ahead p.seqNumber base < 2 ^ 15 := by
  have hiff : ∀ {a b : DataPacket}, ahead a.seqNumber base < 2 ^ 15 →
      ahead b.seqNumber base < 2 ^ 15 → (dataPacketComparator a b = false ↔
        ahead a.seqNumber base ≤ ahead b.seqNumber base) := by
    intro a b ha hb
    rw [← Bool.not_eq_true, dataPacketComparator_iff, newer_iff_window ha hb, Nat.not_lt]
  constructor
  · intro a b ha hb hab
    rw [dataPacketComparator_iff, newer_iff_window ha hb] at hab
    exact (hiff hb ha).mpr (Nat.le_of_lt hab)
  · intro a b c ha hb hc hab hbc
    exact (hiff ha hc).mpr (Nat.le_trans ((hiff ha hb).mp hab) ((hiff hb hc).mp hbc))

/-- So it is the top of the heap that the pushes build. -/
theorem heap_top_of_newer (hnewer : ∀ p ∈ rest, Newer p.seqNumber k.seqNumber) :
    Heap.top ((k :: rest).foldl (Heap.push dataPacketComparator) []) = some k := by
  have hwindow : ∀ p ∈ k :: rest, ahead p.seqNumber k.seqNumber < 2 ^ 15 := by
    intro p hp
    rcases List.mem_cons.mp hp with rfl | hp
    · rw [ahead_self]
      exact Nat.two_pow_pos 15
    · exact (hnewer p hp).2
  obtain ⟨hheap, hperm⟩ := Heap.foldl_push (comparator_weakOn k.seqNumber) (k :: rest)
    (fun p hp => absurd hp List.not_mem_nil) hwindow Heap.isHeap_nil
  rw [List.append_nil] at hperm
  rcases htop : Heap.top ((k :: rest).foldl (Heap.push dataPacketComparator) []) with - | t
  · rw [Heap.top, List.head?_eq_none_iff] at htop
    rw [htop] at hperm
    cases hperm.length_eq
  · -- nothing is above the top, and the first packet is above all others
    have ht := hheap.not_lt_top (fun p hp => hwindow p (hperm.mem_iff.mp hp))
      (comparator_weakOn k.seqNumber) htop (hperm.mem_iff.mpr List.mem_cons_self)
    rcases List.mem_cons.mp (hperm.mem_iff.mp (List.mem_of_head? htop)) with rfl | hmem
    · rfl
    · rw [dataPacketComparator_iff.mpr (hnewer t hmem)] at ht
      cases ht

end

/-! ### The heap -/

/-- `RtpPacketBuffer::PushPacket` on the vector behind `queue_`. -/
def heapPush (b : RtpPacketBuffer) (packet : DataPacket) : RtpPacketBuffer :=
  { b with queue := Heap.push dataPacketComparator b.queue packet.stored }

/-- `RtpPacketBuffer::PopPacket` on the vector behind `queue_`. -/
def heapPop (b : RtpPacketBuffer) : Option DataPacket × RtpPacketBuffer :=
  if b.prebufferingSize < b.queue.length then
    (Heap.top b.queue, { b with queue := Heap.pop dataPacketComparator b.queue })
  else (none, b)

/-- A call on a buffer. -/
inductive Call
  | pushPacket (packet : RtpPacket)
  | popPacket

/-- The packet a call brings. -/
def Call.packet? : Call → Option DataPacket
  | .pushPacket packet => some packet.toDataPacket
  | .popPacket => none

/-- A buffer, and the packets popped from it so far. -/
structure Jitter where
  buffer : RtpPacketBuffer
  popped : List DataPacket := []
  deriving DecidableEq, Repr

/-- One call; a pop hands its packet on. -/
def Jitter.call (s : Jitter) : Call → Jitter
  | .pushPacket packet => { s with buffer := s.buffer.heapPush packet.toDataPacket }
  | .popPacket => ⟨s.buffer.heapPop.2, s.popped ++ s.buffer.heapPop.1.toList⟩

/-- The buffer after calls that brought `pushed`: the vector is a heap of packets from one
window, and no packet is lost. -/
structure Jitter.Sorted (base : UInt16) (size : Nat) (pushed : List DataPacket) (s : Jitter) :
    Prop where
  isHeap : Heap.IsHeap dataPacketComparator s.buffer.queue
  window : ∀ p ∈ s.buffer.queue, ahead p.seqNumber base < 2 ^ 15
  perm : (s.popped ++ s.buffer.queue).Perm pushed
  prebuffering : s.buffer.prebufferingSize = size

section

variable {base : UInt16} {size : Nat} {pushed : List DataPacket} {s : Jitter} {p q : DataPacket}

/-- In a window, what is not behind a packet has its number or is newer. -/
theorem eq_or_newer_of_not_after (hp : ahead p.seqNumber base < 2 ^ 15)
    (hq : ahead q.seqNumber base < 2 ^ 15) (h : dataPacketComparator p q = false) :
    q.seqNumber = p.seqNumber ∨ Newer q.seqNumber p.seqNumber := by
  rw [← Bool.not_eq_true, dataPacketComparator_iff, newer_iff_window hp hq, Nat.not_lt] at h
  rcases Nat.eq_or_lt_of_le h with heq | hlt
  · exact .inl (ahead_inj.mp heq).symm
  · exact .inr ((newer_iff_window hq hp).mpr hlt)

theorem heapPop_isSome (b : RtpPacketBuffer) :
    b.heapPop.1.isSome = true ↔ b.prebufferingSize < b.queue.length := by
  by_cases hsize : b.prebufferingSize < b.queue.length
  · have hne : b.queue ≠ [] := List.ne_nil_of_length_pos (Nat.zero_lt_of_lt hsize)
    rw [heapPop, if_pos hsize]
    simp [Heap.top, hne, hsize]
  · rw [heapPop, if_neg hsize]
    simp [hsize]

namespace Jitter

/-- What a pop gives, and what it leaves. -/
theorem Sorted.heapPop (h : s.Sorted base size pushed) (hpop : s.buffer.heapPop.1 = some p) :
    p ∈ s.buffer.queue ∧
      (∀ q ∈ s.buffer.queue, q.seqNumber = p.seqNumber ∨ Newer q.seqNumber p.seqNumber) ∧
      Heap.IsHeap dataPacketComparator s.buffer.heapPop.2.queue ∧
      (p :: s.buffer.heapPop.2.queue).Perm s.buffer.queue := by
  have hsize := (heapPop_isSome s.buffer).mp (by rw [hpop]; rfl)
  rw [RtpPacketBuffer.heapPop, if_pos hsize] at hpop ⊢
  obtain ⟨rest, hcons⟩ := List.head?_eq_some_iff.mp hpop
  have hmem : p ∈ s.buffer.queue := List.mem_of_head? hpop
  obtain ⟨hheap, hperm⟩ := Heap.pop_spec (comparator_weakOn base) h.window h.isHeap
  refine ⟨hmem, ?_, hheap, ?_⟩
  · intro q hq
    exact eq_or_newer_of_not_after (h.window p hmem) (h.window q hq)
      (h.isHeap.not_lt_top h.window (comparator_weakOn base) hpop hq)
  · rw [hcons] at hperm ⊢
    exact hperm.cons p

theorem Sorted.call (h : s.Sorted base size pushed) {c : Call}
    (hc : ∀ p ∈ c.packet?, ahead p.seqNumber base < 2 ^ 15) :
    (s.call c).Sorted base size (pushed ++ c.packet?.toList) := by
  cases c with
  | pushPacket packet =>
    have hp := hc packet.toDataPacket rfl
    have hperm : (Heap.push dataPacketComparator s.buffer.queue packet.toDataPacket).Perm
        (packet.toDataPacket :: s.buffer.queue) := Heap.push_perm s.buffer.queue packet.toDataPacket
    have hcall : (s.call (.pushPacket packet)).buffer.queue =
        Heap.push dataPacketComparator s.buffer.queue packet.toDataPacket := by
      show Heap.push dataPacketComparator s.buffer.queue packet.toDataPacket.stored = _
      rw [packet.stored_eq]
    refine ⟨?_, ?_, ?_, h.prebuffering⟩
    · rw [hcall]
      exact Heap.push_isHeap (comparator_weakOn base) h.window hp h.isHeap
    · intro q hq
      rw [hcall] at hq
      rcases List.mem_cons.mp (hperm.mem_iff.mp hq) with rfl | hq
      · exact hp
      · exact h.window q hq
    · rw [hcall]
      show (s.popped ++ _).Perm (pushed ++ [packet.toDataPacket])
      refine (hperm.append_left s.popped).trans (List.perm_middle.trans ?_)
      exact (h.perm.cons _).trans (List.perm_append_singleton _ _).symm
  | popPacket =>
    show Sorted base size (pushed ++ []) ⟨s.buffer.heapPop.2, s.popped ++ s.buffer.heapPop.1.toList⟩
    rw [List.append_nil]
    rcases hpop : s.buffer.heapPop.1 with - | p
    · -- nothing is popped, and the buffer stays
      have hsize := (not_congr (heapPop_isSome s.buffer)).mp (by rw [hpop]; decide)
      rw [RtpPacketBuffer.heapPop, if_neg hsize, Option.toList_none, List.append_nil]
      exact h
    · obtain ⟨-, -, hheap, hperm⟩ := h.heapPop hpop
      refine ⟨hheap, ?_, ?_, ?_⟩
      · exact fun q hq => h.window q (hperm.mem_iff.mp (List.mem_cons_of_mem p hq))
      · rw [Option.toList_some, List.append_assoc]
        exact (hperm.append_left s.popped).trans h.perm
      · rw [← h.prebuffering, RtpPacketBuffer.heapPop]
        split_ifs
        · rfl
        · rfl

theorem run_sorted {calls : List Call}
    (h : ∀ p ∈ calls.filterMap Call.packet?, ahead p.seqNumber base < 2 ^ 15) :
    (calls.foldl call { buffer := { prebufferingSize := size } }).Sorted base size
      (calls.filterMap Call.packet?) := by
  induction calls using List.reverseRecOn with
  | nil => exact ⟨Heap.isHeap_nil, fun _ hp => absurd hp List.not_mem_nil, List.Perm.refl _, rfl⟩
  | append_singleton calls c ih =>
    have hlast : [c].filterMap Call.packet? = c.packet?.toList := by
      rcases hc : c.packet? with - | p
      · simp [hc]
      · simp [hc]
    rw [List.filterMap_append, hlast] at h ⊢
    rw [List.foldl_append]
    refine (ih fun p hp => h p (List.mem_append_left _ hp)).call ?_
    intro p hp
    exact h p (List.mem_append_right _ (Option.mem_toList.mpr hp))

end Jitter

end

/-- **The order of the jitter buffer.**  After any calls whose packets lie in one window, a pop
yields a packet if and only if more than the prebuffering count is stored; it is stored, all
others have its number or are newer, and it alone leaves; and what was popped and what is
stored is what was pushed. -/
theorem jitter_order (size : Nat) (base : UInt16) (calls : List Call)
    (h : ∀ p ∈ calls.filterMap Call.packet?, ahead p.seqNumber base < 2 ^ 15) :
    let s := calls.foldl Jitter.call { buffer := { prebufferingSize := size } }
    (s.buffer.heapPop.1.isSome = true ↔ size < s.buffer.queue.length) ∧
    (∀ p, s.buffer.heapPop.1 = some p → p ∈ s.buffer.queue ∧
      (∀ q ∈ s.buffer.queue, q.seqNumber = p.seqNumber ∨ Newer q.seqNumber p.seqNumber) ∧
      (p :: s.buffer.heapPop.2.queue).Perm s.buffer.queue) ∧
    (s.popped ++ s.buffer.queue).Perm (calls.filterMap Call.packet?) := by
  intro s
  have hs : s.Sorted base size (calls.filterMap Call.packet?) := Jitter.run_sorted h
  refine ⟨?_, ?_, hs.perm⟩
  · rw [heapPop_isSome, hs.prebuffering]
  · intro p hp
    obtain ⟨hmem, hleast, -, hperm⟩ := hs.heapPop hp
    exact ⟨hmem, hleast, hperm⟩

/-- Two packets across the wrap, pushed in the wrong order. -/
def acrossWrap : List Call :=
  [.pushPacket (vp8RtpPacket 2 false), .pushPacket (vp8RtpPacket 65535 false)]

theorem jitter_order_across_wrap :
    (∀ p ∈ acrossWrap.filterMap Call.packet?, ahead p.seqNumber 65535 < 2 ^ 15) ∧
      (acrossWrap.foldl Jitter.call { buffer := { prebufferingSize := 1 } }).buffer.heapPop.1 =
        some (vp8RtpPacket 65535 false).toDataPacket ∧
      (acrossWrap.foldl Jitter.call { buffer := { prebufferingSize := 1 } }).buffer.queue.Perm
        [(vp8RtpPacket 2 false).toDataPacket, (vp8RtpPacket 65535 false).toDataPacket] := by
  have hwin : ∀ p ∈ acrossWrap.filterMap Call.packet?, ahead p.seqNumber 65535 < 2 ^ 15 := by
    decide
  obtain ⟨-, -, hperm⟩ := jitter_order 1 65535 acrossWrap hwin
  refine ⟨hwin, ?_, hperm⟩
  decide +kernel

end RtpPacketBuffer

namespace VideoAwareFrameBuffer

/-! ### The storage buffer -/

/-- A buffer that starts to store, after a run of pushes. -/
def stored (parse : Depacketizer) (b : VideoAwareFrameBuffer) (ps : List RtpPacket) :
    VideoAwareFrameBuffer :=
  ps.foldl (fun b p => b.push parse p.toDataPacket) (b.setBufferType .storageBuffer).resetBuffer

/-- The buffer since a key frame packet was pushed. -/
structure Since (key : RtpPacket) (ps : List RtpPacket) (b : VideoAwareFrameBuffer) : Prop where
  storing : b.bufferType = .storageBuffer
  hasKeyFrame : b.hasKeyFrame = true
  keyFrameSeq : b.keyFrameSeq = key.seqNumber.toNat
  queue : b.queue = key.toDataPacket ::
    (ps.map RtpPacket.toDataPacket).filter fun p => key.seqNumber.toNat < p.seqNumber.toNat

section

variable {parse : Depacketizer} {b : VideoAwareFrameBuffer} {key p : RtpPacket}
  {ps : List RtpPacket}

theorem push_storing (h : b.bufferType = .storageBuffer) (packet : DataPacket) :
    (b.push parse packet).bufferType = .storageBuffer := by
  unfold push
  rw [h]
  dsimp only
  split_ifs
  · exact h
  · exact h
  · exact h

theorem stored_storing (b : VideoAwareFrameBuffer) (ps : List RtpPacket) :
    (stored parse b ps).bufferType = .storageBuffer := by
  apply List.foldlRecOn (motive := fun b : VideoAwareFrameBuffer => b.bufferType = .storageBuffer)
  · rfl
  · exact fun b h p _ => push_storing h p.toDataPacket

theorem basePush_queue (b : VideoAwareFrameBuffer) (p : RtpPacket) :
    (b.basePush p.toDataPacket).queue = b.queue ++ [p.toDataPacket] := by
  show b.queue ++ [p.toDataPacket.stored] = _
  rw [p.stored_eq]

theorem since_push_key (h : b.bufferType = .storageBuffer)
    (hkey : isKeyFramePacket parse key.toDataPacket = true) :
    Since key [] (b.push parse key.toDataPacket) := by
  have hpush : b.push parse key.toDataPacket = { b.clean with
      keyFrameSeq := key.seqNumber.toNat, hasKeyFrame := true }.basePush key.toDataPacket := by
    rw [push, h]
    exact if_pos hkey
  rw [hpush]
  exact ⟨h, rfl, rfl, basePush_queue _ key⟩

theorem Since.push (h : Since key ps b) (hp : isKeyFramePacket parse p.toDataPacket = false) :
    Since key (ps ++ [p]) (b.push parse p.toDataPacket) := by
  have hpush : b.push parse p.toDataPacket =
      if key.seqNumber.toNat < p.seqNumber.toNat then b.basePush p.toDataPacket else b := by
    rw [VideoAwareFrameBuffer.push, h.storing]
    dsimp only
    rw [hp, h.hasKeyFrame, h.keyFrameSeq]
    simp only [Bool.false_eq_true, if_false, true_and]
    rfl
  rw [hpush]
  by_cases hlt : key.seqNumber.toNat < p.seqNumber.toNat
  · rw [if_pos hlt]
    refine ⟨h.storing, h.hasKeyFrame, h.keyFrameSeq, ?_⟩
    rw [basePush_queue, h.queue, List.map_append, List.filter_append]
    simp [hlt]
  · rw [if_neg hlt]
    refine ⟨h.storing, h.hasKeyFrame, h.keyFrameSeq, ?_⟩
    rw [h.queue, List.map_append, List.filter_append]
    simp [hlt]

/-- What is in the buffer after a run: the last key frame packet and the packets since with
a greater number. -/
theorem stored_since {pre : List RtpPacket}
    (hkey : isKeyFramePacket parse key.toDataPacket = true)
    (hps : ∀ p ∈ ps, isKeyFramePacket parse p.toDataPacket = false) :
    Since key ps (stored parse b (pre ++ key :: ps)) := by
  induction ps using List.reverseRecOn with
  | nil =>
    rw [stored, List.foldl_append]
    exact since_push_key (stored_storing b pre) hkey
  | append_singleton ps p ih =>
    have hps' := ih fun p' hp' => hps p' (List.mem_append_left [p] hp')
    rw [← List.cons_append, ← List.append_assoc, stored, List.foldl_append]
    exact hps'.push (hps p List.mem_concat_self)

theorem newer_iff_lt {a b : UInt16} : (Newer a b ↔ b.toNat < a.toNat) ↔
    a.toNat - b.toNat < 2 ^ 15 ∧ b.toNat - a.toNat ≤ 2 ^ 15 := by
  have ha := a.toNat_lt
  have hb := b.toNat_lt
  rw [Newer, ahead_eq]
  omega

theorem push_prebuffering (b : VideoAwareFrameBuffer) (packet : DataPacket) :
    (b.push parse packet).prebufferingSize = b.prebufferingSize := by
  unfold push
  split
  · rfl
  · dsimp only
    split
    · rfl
    · split
      · rfl
      · rfl
  · rfl

variable (parse) in
theorem stored_prebuffering (b : VideoAwareFrameBuffer) (ps : List RtpPacket) :
    (stored parse b ps).prebufferingSize = b.prebufferingSize := by
  apply List.foldlRecOn
    (motive := fun s : VideoAwareFrameBuffer => s.prebufferingSize = b.prebufferingSize)
  · rfl
  · exact fun s h p _ => (push_prebuffering s p.toDataPacket).trans h

/-- The buffer holds the last key frame packet, on top, and the packets since that are newer,
if and only if none of the packets since lies across the wrap from it, as the number that is
remembered of the key frame is compared as a natural, and more packets are stored than the
prebuffering asks for. -/
theorem stored_newer_iff (parse : Depacketizer) (b : VideoAwareFrameBuffer) (pre : List RtpPacket)
    (key : RtpPacket) (since : List RtpPacket)
    (hkey : isKeyFramePacket parse key.toDataPacket = true)
    (hsince : ∀ p ∈ since, isKeyFramePacket parse p.toDataPacket = false) :
    ((stored parse b (pre ++ key :: since)).topPacket = some key.toDataPacket ∧
      Heap.top ((stored parse b (pre ++ key :: since)).queue.foldl
        (Heap.push dataPacketComparator) []) = some key.toDataPacket ∧
      (stored parse b (pre ++ key :: since)).queue.Perm (key.toDataPacket ::
        (since.map RtpPacket.toDataPacket).filter fun p => Newer p.seqNumber key.seqNumber)) ↔
    (∀ p ∈ since, p.seqNumber.toNat - key.seqNumber.toNat < 2 ^ 15 ∧
      key.seqNumber.toNat - p.seqNumber.toNat ≤ 2 ^ 15) ∧
    b.prebufferingSize ≤ ((since.map RtpPacket.toDataPacket).filter fun p =>
      Newer p.seqNumber key.seqNumber).length := by
  have h : Since key since (stored parse b (pre ++ key :: since)) := stored_since hkey hsince
  have hprebuffering := stored_prebuffering parse b (pre ++ key :: since)
  constructor
  · rintro ⟨htop, -, hperm⟩
    refine ⟨?_, ?_⟩
    · intro p hp
      rw [h.queue] at hperm
      have hmem : p.toDataPacket ∈ since.map RtpPacket.toDataPacket := List.mem_map_of_mem hp
      have hkept := (List.perm_cons key.toDataPacket).mp hperm |>.mem_iff (a := p.toDataPacket)
      rw [List.mem_filter, List.mem_filter, decide_eq_true_eq, decide_eq_true_eq,
        and_iff_right hmem, and_iff_right hmem] at hkept
      exact newer_iff_lt.mp hkept.symm
    · -- nothing is on top before the prebuffering is done
      rw [RtpPacketBuffer.topPacket, hprebuffering, hperm.length_eq, List.length_cons] at htop
      by_contra hmore
      rw [if_neg (by omega)] at htop
      cases htop
  · rintro ⟨hnear, hmore⟩
    have hfilter : ((since.map RtpPacket.toDataPacket).filter
        fun p => key.seqNumber.toNat < p.seqNumber.toNat) =
          (since.map RtpPacket.toDataPacket).filter fun p => Newer p.seqNumber key.seqNumber := by
      apply List.filter_congr
      intro p hp
      obtain ⟨r, hr, rfl⟩ := List.mem_map.mp hp
      exact decide_eq_decide.mpr (newer_iff_lt.mpr (hnear r hr)).symm
    have hnewer : ∀ p ∈ (since.map RtpPacket.toDataPacket).filter
        (fun p => Newer p.seqNumber key.seqNumber), Newer p.seqNumber key.seqNumber :=
      fun p hp => of_decide_eq_true (List.mem_filter.mp hp).2
    have hqueue := h.queue
    rw [hfilter] at hqueue
    have hlt : b.prebufferingSize < (key.toDataPacket :: (since.map RtpPacket.toDataPacket).filter
        fun p => Newer p.seqNumber key.seqNumber).length := Nat.lt_succ_of_le hmore
    rw [RtpPacketBuffer.topPacket, hprebuffering, hqueue, if_pos hlt]
    refine ⟨?_, RtpPacketBuffer.heap_top_of_newer hnewer, List.Perm.refl _⟩
    exact RtpPacketBuffer.top_of_newer hqueue hnewer

end

/-- A key frame and what follows it, far from the wrap, with a late packet. -/
theorem stored_newer_from_ten :
    isKeyFramePacket vp8 (vp8RtpPacket 10 true).toDataPacket = true ∧
      (stored vp8 {} [vp8RtpPacket 7 true, vp8RtpPacket 10 true, vp8RtpPacket 11 false,
        vp8RtpPacket 9 false]).queue.Perm
          [(vp8RtpPacket 10 true).toDataPacket, (vp8RtpPacket 11 false).toDataPacket] := by
  have hkey : isKeyFramePacket vp8 (vp8RtpPacket 10 true).toDataPacket = true := by decide
  have hiff := stored_newer_iff vp8 {} [vp8RtpPacket 7 true] (vp8RtpPacket 10 true)
    [vp8RtpPacket 11 false, vp8RtpPacket 9 false] hkey (by decide)
  exact ⟨hkey, (hiff.mpr (by decide)).2.2⟩

/-- The packet behind the wrap is dropped. -/
theorem stored_drops_behind_wrap :
    isKeyFramePacket vp8 (vp8RtpPacket 65535 true).toDataPacket = true ∧
      isKeyFramePacket vp8 (vp8RtpPacket 0 false).toDataPacket = false ∧
      Newer (vp8RtpPacket 0 false).seqNumber (vp8RtpPacket 65535 true).seqNumber ∧
      (stored vp8 {} [vp8RtpPacket 65535 true, vp8RtpPacket 0 false]).queue =
        [(vp8RtpPacket 65535 true).toDataPacket] ∧
      ¬ (stored vp8 {} [vp8RtpPacket 65535 true, vp8RtpPacket 0 false]).queue.Perm
        ((vp8RtpPacket 65535 true).toDataPacket :: ([vp8RtpPacket 0 false].map
          RtpPacket.toDataPacket).filter
            fun p => Newer p.seqNumber (vp8RtpPacket 65535 true).seqNumber) := by
  decide

end VideoAwareFrameBuffer

end Orbit
