/-
OrbitStream/VideoFrameQueue.lean

The per-stream packet queue of the new forwarding element
(`modules/video_frame_queue.{h,cc}`).

`frames_` is an ordered map from 16 bit sequence numbers to packets, so the
queue is read in numeric order of the sequence numbers.  A disabled queue drops
what it is given.  An enabled queue without a looker waits for a key frame: a
key frame packet replaces the whole content and is announced; with a looker
everything is kept, and the announcement is made whenever the first packet
belongs to a key frame.

The announcement (`prepared_listener_`) is the last action of every path that
makes it, so the operations return the new queue and whether it was made.

Main results: a push or a pop announces only a queue that starts with a key frame
(`pushFrame_announces`, `popPacket_announces`), and the packets of an enabled queue
are popped in serial order if and only if the queue does not reach across the wrap
(`drain_ascending_iff`).
-/
import OrbitStream.Lib.Serial
import OrbitStream.Rtp

namespace Orbit

open Lib

/-- `VideoFrame`: one stored packet. -/
structure VideoFrame where
  seq : UInt16
  ts : UInt32
  marker : UInt8
  data : List UInt8
  len : Nat
  isKeyframe : Bool
  deriving DecidableEq, Repr

/-- The constructor of `VideoFrame`. -/
def VideoFrame.ofPacket (parse : Depacketizer) (data : List UInt8) (len : Nat) : VideoFrame where
  seq := RtpHeader.getSeqNumber data
  ts := RtpHeader.getTimestamp data
  marker := RtpHeader.getMarker data
  data := data.take len
  len := len
  isKeyframe := isKeyFrame parse data len

/-- `VideoFrameQueue`. -/
structure VideoFrameQueue where
  id : Int
  frames : Std.TreeMap UInt16 VideoFrame := ∅
  enabled : Bool := false
  hasLooker : Bool := false

namespace VideoFrameQueue

/-- `frames_.begin()->second`. -/
def first (q : VideoFrameQueue) : Option VideoFrame :=
  match q.frames.keys.head? with
  | none => none
  | some k => q.frames[k]?

/-- `VideoFrameQueue::TopPacket`. -/
def topPacket (q : VideoFrameQueue) : Option VideoFrame :=
  if q.enabled then q.first else none

/-- `VideoFrameQueue::FirstIsKeyFrame`. -/
def firstIsKeyFrame (q : VideoFrameQueue) : Bool :=
  match q.first with
  | none => false
  | some f => f.isKeyframe

/-- `VideoFrameQueue::CheckPrepared`: whether the prepared event is fired. -/
def checkPrepared (q : VideoFrameQueue) : VideoFrameQueue × Bool := (q, q.firstIsKeyFrame)

/-- `frames_[seq] = frame`. -/
def store (q : VideoFrameQueue) (f : VideoFrame) : VideoFrameQueue :=
  { q with frames := q.frames.insert f.seq f }

/-- `VideoFrameQueue::PushPacketWhenHasLooker`. -/
def pushPacketWhenHasLooker (q : VideoFrameQueue) (f : VideoFrame) : VideoFrameQueue × Bool :=
  if q.frames.contains f.seq then (q, false)
  else (q.store f).checkPrepared

/-- `VideoFrameQueue::PushPacketWhenNoLooker`. -/
def pushPacketWhenNoLooker (q : VideoFrameQueue) (f : VideoFrame) : VideoFrameQueue × Bool :=
  if q.frames.contains f.seq then (q, false)
  else if f.isKeyframe then ({ q with frames := ∅ }.store f, true)
  else if q.firstIsKeyFrame then (q.store f, false)
  else (q, false)

/-- `VideoFrameQueue::PushPacket` on the packet built from its bytes. -/
def pushFrame (q : VideoFrameQueue) (f : VideoFrame) : VideoFrameQueue × Bool :=
  if ¬ q.enabled then (q, false)
  else if q.hasLooker then q.pushPacketWhenHasLooker f
  else q.pushPacketWhenNoLooker f

/-- `VideoFrameQueue::PushPacket`. -/
def pushPacket (parse : Depacketizer) (q : VideoFrameQueue) (packet : DataPacket) :
    VideoFrameQueue × Bool :=
  if packet.length = 0 then (q, false)
  else q.pushFrame (VideoFrame.ofPacket parse packet.data packet.length)

/-- `VideoFrameQueue::PopPacket`: the popped packet, then the queue. -/
def popPacket (q : VideoFrameQueue) : Option VideoFrame × VideoFrameQueue × Bool :=
  if ¬ q.enabled then (none, q, false)
  else
    match q.frames.keys.head? with
    | none => (none, q, false)
    | some k => (q.frames[k]?, { q with frames := q.frames.erase k }.checkPrepared)

/-- `VideoFrameQueue::Enable`. -/
def enable (q : VideoFrameQueue) : VideoFrameQueue := { q with enabled := true }

/-- `VideoFrameQueue::Disable`. -/
def disable (q : VideoFrameQueue) : VideoFrameQueue :=
  if q.enabled then { q with enabled := false, frames := ∅ } else q

/-- `VideoFrameQueue::SetHasLooker`. -/
def setHasLooker (q : VideoFrameQueue) (b : Bool) : VideoFrameQueue := { q with hasLooker := b }

end VideoFrameQueue

/-! ### The map -/

/-- Packets are stored under their numbers. -/
def Keyed (frames : Std.TreeMap UInt16 VideoFrame) : Prop :=
  ∀ (k : UInt16) (f : VideoFrame), frames[k]? = some f → f.seq = k

section

variable {frames : Std.TreeMap UInt16 VideoFrame}

theorem keyed_empty : Keyed ∅ := by
  intro k f hf
  rw [Std.TreeMap.getElem?_emptyc] at hf
  cases hf

theorem Keyed.insert (h : Keyed frames) (f : VideoFrame) : Keyed (frames.insert f.seq f) := by
  intro k g hg
  rw [Std.TreeMap.getElem?_insert] at hg
  split at hg
  · next hk =>
    rw [← Option.some.inj hg, Std.compare_eq_iff_eq.mp hk]
  · exact h k g hg

theorem Keyed.erase (h : Keyed frames) (k : UInt16) : Keyed (frames.erase k) := by
  intro k' f hf
  rw [Std.TreeMap.getElem?_erase] at hf
  split at hf
  · cases hf
  · exact h k' f hf

/-- The first key is the least number. -/
theorem head_keys_eq_some {k : UInt16} :
    frames.keys.head? = some k ↔ k ∈ frames ∧ ∀ k' ∈ frames, k.toNat ≤ k'.toNat := by
  rw [← Std.TreeMap.minKey?_eq_head?_keys, Std.TreeMap.minKey?_eq_some_iff_mem_and_forall]
  apply and_congr_right
  intro _
  apply forall₂_congr
  intro k' _
  rw [Std.isLE_compare, UInt16.le_iff_toNat_le]

theorem head_keys_eq_none : frames.keys.head? = none ↔ ∀ k, k ∉ frames := by
  rw [← Std.TreeMap.minKey?_eq_head?_keys, Std.TreeMap.minKey?_eq_none_iff,
    Std.TreeMap.isEmpty_iff_forall_not_mem]

theorem size_erase_lt {k : UInt16} (hk : k ∈ frames) : (frames.erase k).size < frames.size := by
  have hpos : 0 < frames.size := by
    rw [← Std.TreeMap.length_keys]
    exact List.length_pos_of_mem (Std.TreeMap.mem_keys.mpr hk)
  rw [Std.TreeMap.size_erase, if_pos (Std.TreeMap.mem_iff_contains.mp hk)]
  exact Nat.sub_one_lt hpos.ne'

end

namespace VideoFrameQueue

/-! ### What a push or a pop can do -/

/-- Neither a push nor a pop touches the flags or the id. -/
structure SameFlags (q q' : VideoFrameQueue) : Prop where
  id : q'.id = q.id
  enabled : q'.enabled = q.enabled
  hasLooker : q'.hasLooker = q.hasLooker

/-- The announcement is made by an enabled queue whose first packet belongs to
a key frame. -/
def Announces (r : VideoFrameQueue × Bool) : Prop :=
  r.2 = true → r.1.enabled = true ∧ ∃ f, r.1.topPacket = some f ∧ f.isKeyframe = true

theorem firstIsKeyFrame_iff {q : VideoFrameQueue} :
    q.firstIsKeyFrame = true ↔ ∃ f, q.first = some f ∧ f.isKeyframe = true := by
  rw [firstIsKeyFrame]
  rcases e : q.first with - | f <;> simp

theorem checkPrepared_announces {q : VideoFrameQueue} (he : q.enabled = true) :
    Announces q.checkPrepared := by
  intro h
  obtain ⟨f, hf, hk⟩ := firstIsKeyFrame_iff.mp h
  refine ⟨he, f, ?_, hk⟩
  show q.topPacket = some f
  rw [topPacket, if_pos he, hf]

/-- A push keeps the queue, or stores the packet: behind the others when there
is a looker or the queue starts with a key frame, in place of the others when
there is no looker and it belongs to a key frame. -/
theorem pushFrame_cases (q : VideoFrameQueue) (f : VideoFrame) :
    q.pushFrame f = (q, false) ∨
    (q.enabled = true ∧ f.seq ∉ q.frames ∧ q.hasLooker = true ∧
      q.pushFrame f = (q.store f).checkPrepared) ∨
    (q.enabled = true ∧ f.seq ∉ q.frames ∧ q.hasLooker = false ∧ f.isKeyframe = true ∧
      q.pushFrame f = ({ q with frames := ∅ }.store f, true)) ∨
    (q.enabled = true ∧ f.seq ∉ q.frames ∧ q.hasLooker = false ∧ f.isKeyframe = false ∧
      q.firstIsKeyFrame = true ∧ q.pushFrame f = (q.store f, false)) := by
  unfold pushFrame pushPacketWhenHasLooker pushPacketWhenNoLooker
  by_cases he : q.enabled = true
  · by_cases hc : q.frames.contains f.seq = true
    · left
      simp [hc]
    · have hn : f.seq ∉ q.frames := fun h => hc (Std.TreeMap.mem_iff_contains.mp h)
      by_cases hl : q.hasLooker = true
      · right; left
        exact ⟨he, hn, hl, by simp [he, hl, hc]⟩
      · rw [Bool.not_eq_true] at hl
        by_cases hk : f.isKeyframe = true
        · right; right; left
          exact ⟨he, hn, hl, hk, by simp [he, hl, hc, hk]⟩
        · by_cases hf : q.firstIsKeyFrame = true
          · right; right; right
            exact ⟨he, hn, hl, by simpa using hk, hf, by simp [he, hl, hc, hk, hf]⟩
          · left
            simp [hl, hk, hf]
  · left
    simp [he]

/-- A pop keeps the queue or takes its first packet out. -/
theorem popPacket_cases (q : VideoFrameQueue) :
    q.popPacket = (none, q, false) ∨
    (q.enabled = true ∧ ∃ k, q.frames.keys.head? = some k ∧
      q.popPacket = (q.frames[k]?, { q with frames := q.frames.erase k }.checkPrepared)) := by
  rw [popPacket]
  by_cases he : q.enabled = true
  · rcases hk : q.frames.keys.head? with - | k
    · left
      simp
    · right
      exact ⟨he, k, rfl, by simp [he]⟩
  · left
    simp [he]

/-- A queue that holds a single packet has it first. -/
theorem first_store_empty (q : VideoFrameQueue) (f : VideoFrame) :
    ({ q with frames := ∅ }.store f).first = some f := by
  have hk : (({ q with frames := ∅ } : VideoFrameQueue).store f).frames.keys.head? = some f.seq := by
    rw [head_keys_eq_some]
    constructor
    · simp [store]
    · intro k hk
      have hk' : f.seq = k := by simpa [store] using hk
      rw [hk']
  rw [first]
  rw [hk]
  simp [store]

theorem pushFrame_sameFlags (q : VideoFrameQueue) (f : VideoFrame) :
    SameFlags q (q.pushFrame f).1 := by
  rcases q.pushFrame_cases f with h | ⟨-, -, -, h⟩ | ⟨-, -, -, -, h⟩ | ⟨-, -, -, -, -, h⟩ <;>
    rw [h] <;> exact ⟨rfl, rfl, rfl⟩

theorem pushFrame_announces (q : VideoFrameQueue) (f : VideoFrame) :
    Announces (q.pushFrame f) := by
  rcases q.pushFrame_cases f with h | ⟨he, -, -, h⟩ | ⟨he, -, -, hk, h⟩ | ⟨-, -, -, -, -, h⟩
  · rw [h]
    intro hc
    cases hc
  · rw [h]
    exact checkPrepared_announces he
  · -- the key frame packet is the only one, so it is on top
    rw [h]
    intro _
    refine ⟨he, f, ?_, hk⟩
    show (if q.enabled then ({ q with frames := ∅ }.store f).first else none) = some f
    rw [if_pos he, first_store_empty]
  · rw [h]
    intro hc
    cases hc

theorem popPacket_sameFlags (q : VideoFrameQueue) : SameFlags q q.popPacket.2.1 := by
  rcases q.popPacket_cases with h | ⟨-, k, -, h⟩ <;> rw [h] <;> exact ⟨rfl, rfl, rfl⟩

theorem popPacket_announces (q : VideoFrameQueue) : Announces q.popPacket.2 := by
  rcases q.popPacket_cases with h | ⟨he, k, -, h⟩
  · rw [h]
    intro hc
    cases hc
  · rw [h]
    exact checkPrepared_announces he

/-! ### The order of popping -/

section

variable {q : VideoFrameQueue}

theorem pushFrame_keyed (h : Keyed q.frames) (f : VideoFrame) : Keyed (q.pushFrame f).1.frames := by
  rcases q.pushFrame_cases f with he | ⟨-, -, -, he⟩ | ⟨-, -, -, -, he⟩ | ⟨-, -, -, -, -, he⟩
  · rw [he]
    exact h
  · rw [he]
    exact h.insert f
  · rw [he]
    exact keyed_empty.insert f
  · rw [he]
    exact h.insert f

theorem popPacket_keyed (h : Keyed q.frames) : Keyed q.popPacket.2.1.frames := by
  rcases q.popPacket_cases with hpop | ⟨-, k, -, hpop⟩
  · rw [hpop]
    exact h
  · rw [hpop]
    exact h.erase k

/-- A pop of an enabled queue takes the packet with the least number. -/
theorem popPacket_spec (he : q.enabled = true) (h : Keyed q.frames) :
    ((∀ k, k ∉ q.frames) ∧ q.popPacket = (none, q, false)) ∨
    ∃ f, q.frames[f.seq]? = some f ∧ (∀ k ∈ q.frames, f.seq.toNat ≤ k.toNat) ∧
      q.popPacket = (some f, { q with frames := q.frames.erase f.seq }.checkPrepared) := by
  rw [popPacket, if_neg (not_not_intro he)]
  rcases hk : q.frames.keys.head? with - | k
  · exact Or.inl ⟨head_keys_eq_none.mp hk, rfl⟩
  · obtain ⟨hmem, hleast⟩ := head_keys_eq_some.mp hk
    obtain ⟨f, hf⟩ := Option.isSome_iff_exists.mp (Std.TreeMap.mem_iff_isSome_getElem?.mp hmem)
    obtain rfl := h k f hf
    right
    refine ⟨f, hf, hleast, ?_⟩
    dsimp only
    rw [hf]

end

/-- `PopPacket` until there is no packet. -/
def drain (q : VideoFrameQueue) : List VideoFrame :=
  match _h : q.popPacket with
  | (none, _) => []
  | (some f, q', _) => f :: q'.drain
termination_by q.frames.size
decreasing_by
  rcases q.popPacket_cases with hpop | ⟨-, k, hk, hpop⟩
  · rw [_h] at hpop
    cases hpop
  · rw [_h] at hpop
    simp only [Prod.mk.injEq, checkPrepared] at hpop
    obtain ⟨-, rfl, -⟩ := hpop
    exact size_erase_lt (head_keys_eq_some.mp hk).1

theorem drain_of_none {q : VideoFrameQueue} {r : VideoFrameQueue × Bool}
    (h : q.popPacket = (none, r)) : q.drain = [] := by
  rw [drain]
  split
  · rfl
  · next hpop =>
    rw [h] at hpop
    cases hpop

theorem drain_of_some {q q' : VideoFrameQueue} {f : VideoFrame} {b : Bool}
    (h : q.popPacket = (some f, q', b)) : q.drain = f :: q'.drain := by
  rw [drain]
  split
  · next hpop =>
    rw [h] at hpop
    cases hpop
  · next hpop =>
    rw [h] at hpop
    cases hpop
    rfl

/-- Every stored packet is popped, in the order of the numbers as naturals. -/
theorem drain_spec (q : VideoFrameQueue) (he : q.enabled = true) (h : Keyed q.frames) :
    (q.drain.map VideoFrame.seq).Pairwise (fun a b => a.toNat < b.toNat) ∧
      ∀ f, f ∈ q.drain ↔ q.frames[f.seq]? = some f := by
  induction hn : q.frames.size using Nat.strongRecOn generalizing q with
  | ind n ih =>
    rcases popPacket_spec he h with ⟨hempty, hpop⟩ | ⟨f, hf, hleast, hpop⟩
    · rw [drain_of_none hpop]
      refine ⟨List.Pairwise.nil, fun f => ⟨fun hf => absurd hf List.not_mem_nil, ?_⟩⟩
      intro hf
      exact absurd (Std.TreeMap.getElem?_eq_some_iff.mp hf).1 (hempty f.seq)
    · have hmem := (Std.TreeMap.getElem?_eq_some_iff.mp hf).1
      have hlt := size_erase_lt hmem
      rw [hn] at hlt
      obtain ⟨hsorted, hrest⟩ := ih _ hlt { q with frames := q.frames.erase f.seq } he
        (h.erase f.seq) rfl
      rw [drain_of_some hpop]
      -- what stays has other numbers
      have hother : ∀ g, g ∈ ({ q with frames := q.frames.erase f.seq } : VideoFrameQueue).drain ↔
          f.seq ≠ g.seq ∧ q.frames[g.seq]? = some g := by
        intro g
        rw [hrest, Std.TreeMap.getElem?_erase]
        simp
      constructor
      · rw [List.map_cons, List.pairwise_cons]
        refine ⟨?_, hsorted⟩
        intro n hn
        obtain ⟨g, hg, rfl⟩ := List.mem_map.mp hn
        obtain ⟨hne, hstored⟩ := (hother g).mp hg
        have hle := hleast g.seq (Std.TreeMap.getElem?_eq_some_iff.mp hstored).1
        exact Nat.lt_of_le_of_ne hle fun heq => hne (UInt16.toNat_inj.mp heq)
      · intro g
        rw [List.mem_cons, hother]
        constructor
        · rintro (rfl | ⟨-, hg⟩)
          · exact hf
          · exact hg
        · intro hg
          by_cases hseq : f.seq = g.seq
          · left
            rw [hseq, hg] at hf
            exact Option.some.inj hf
          · exact Or.inr ⟨hseq, hg⟩

/-! ### Runs -/

/-- What can be done with a queue. -/
inductive Op
  | pushPacket (packet : DataPacket)
  | popPacket
  | enable
  | disable
  | setHasLooker (hasLooker : Bool)

/-- One call. -/
def step (parse : Depacketizer) (q : VideoFrameQueue) : Op → VideoFrameQueue
  | .pushPacket packet => (q.pushPacket parse packet).1
  | .popPacket => q.popPacket.2.1
  | .enable => q.enable
  | .disable => q.disable
  | .setHasLooker hasLooker => q.setHasLooker hasLooker

/-- The calls on a new queue. -/
def run (parse : Depacketizer) (id : Int) (ops : List Op) : VideoFrameQueue :=
  ops.foldl (step parse) { id }

theorem step_keyed {parse : Depacketizer} {q : VideoFrameQueue} (h : Keyed q.frames) (op : Op) :
    Keyed (q.step parse op).frames := by
  cases op with
  | pushPacket packet =>
    show Keyed (q.pushPacket parse packet).1.frames
    unfold pushPacket
    split
    · exact h
    · exact pushFrame_keyed h _
  | popPacket => exact popPacket_keyed h
  | enable => exact h
  | disable =>
    show Keyed q.disable.frames
    unfold disable
    split
    · exact keyed_empty
    · exact h
  | setHasLooker hasLooker => exact h

theorem run_keyed (parse : Depacketizer) (id : Int) (ops : List Op) :
    Keyed (run parse id ops).frames :=
  List.foldlRecOn (motive := fun q : VideoFrameQueue => Keyed q.frames) ops _ keyed_empty
    fun _ h op _ => step_keyed h op

/-- The packets of an enabled queue are popped in serial order if and only if no two of
their numbers are half of the circle apart as naturals: the map knows no wrap. -/
theorem drain_ascending_iff (parse : Depacketizer) (id : Int) (ops : List Op)
    (he : (run parse id ops).enabled = true) :
    ((∀ f, f ∈ (run parse id ops).drain ↔ (run parse id ops).frames[f.seq]? = some f) ∧
        ((run parse id ops).drain.map VideoFrame.seq).Pairwise fun a b => Newer b a) ↔
      ∀ k ∈ (run parse id ops).frames, ∀ k' ∈ (run parse id ops).frames,
        k'.toNat - k.toNat < 2 ^ 15 := by
  have hkeyed := run_keyed parse id ops
  obtain ⟨hsorted, hall⟩ := drain_spec (run parse id ops) he hkeyed
  -- the numbers that are popped
  have hmem : ∀ k, k ∈ (run parse id ops).drain.map VideoFrame.seq ↔ k ∈ (run parse id ops).frames := by
    intro k
    rw [List.mem_map, Std.TreeMap.mem_iff_isSome_getElem?, Option.isSome_iff_exists]
    constructor
    · rintro ⟨f, hf, rfl⟩
      exact ⟨f, (hall f).mp hf⟩
    · rintro ⟨f, hf⟩
      obtain rfl := hkeyed k f hf
      exact ⟨f, (hall f).mpr hf, rfl⟩
  constructor
  · rintro ⟨-, hserial⟩ k hk k' hk'
    -- a smaller number is popped earlier, so the greater one is newer
    have hnewer : ∀ a ∈ (run parse id ops).drain.map VideoFrame.seq,
        ∀ b ∈ (run parse id ops).drain.map VideoFrame.seq, a.toNat < b.toNat → Newer b a := by
      apply List.Pairwise.forall_of_forall_of_flip
      · exact fun a _ hlt => absurd hlt (Nat.lt_irrefl a.toNat)
      · apply hserial.imp
        exact fun hab _ => hab
      · apply hsorted.imp
        exact fun hab hba => absurd hba (Nat.lt_asymm hab)
    by_cases hlt : k.toNat < k'.toNat
    · exact sub_lt_of_newer (hnewer k ((hmem k).mpr hk) k' ((hmem k').mpr hk') hlt) hlt
    · rw [Nat.sub_eq_zero_of_le (Nat.le_of_not_lt hlt)]
      exact Nat.two_pow_pos 15
  · intro hnear
    refine ⟨hall, hsorted.imp_of_mem ?_⟩
    intro a b ha hb hab
    exact newer_of_lt hab (hnear a ((hmem a).mp ha) b ((hmem b).mp hb))

/-- Two packets that come in the wrong order. -/
def swapped : List Op :=
  [.enable, .setHasLooker true, .pushPacket (RtpPacket.ofHeader 12 0).toDataPacket,
    .pushPacket (RtpPacket.ofHeader 10 0).toDataPacket]

theorem drain_swapped :
    (run vp8 1 swapped).enabled = true ∧
      ((run vp8 1 swapped).drain.map VideoFrame.seq).Pairwise fun a b => Newer b a := by
  have he : (run vp8 1 swapped).enabled = true := by decide +kernel
  have hkeys : (run vp8 1 swapped).frames.keys = [10, 12] := by decide +kernel
  refine ⟨he, ((drain_ascending_iff vp8 1 swapped he).mpr ?_).2⟩
  intro k hk k' hk'
  rw [← Std.TreeMap.mem_keys, hkeys, List.mem_pair] at hk hk'
  rcases hk with rfl | rfl
  · rcases hk' with rfl | rfl
    · decide
    · decide
  · rcases hk' with rfl | rfl
    · decide
    · decide

/-- The queue with the last number before the wrap and the first one behind it. -/
def acrossWrap : List Op :=
  [.enable, .setHasLooker true, .pushPacket (RtpPacket.ofHeader 65535 0).toDataPacket,
    .pushPacket (RtpPacket.ofHeader 0 3000).toDataPacket]

/-- The newer packet comes first. -/
theorem drain_across_wrap :
    (run vp8 1 acrossWrap).enabled = true ∧
      (∀ k ∈ (run vp8 1 acrossWrap).frames, ahead k 65535 < 2 ^ 15) ∧
      (run vp8 1 acrossWrap).drain.map VideoFrame.seq = [0, 65535] ∧
      ¬ ((run vp8 1 acrossWrap).drain.map VideoFrame.seq).Pairwise fun a b => Newer b a := by
  have hdrain : (run vp8 1 acrossWrap).drain.map VideoFrame.seq = [0, 65535] := by decide +kernel
  have hkeys : (run vp8 1 acrossWrap).frames.keys = [0, 65535] := by decide +kernel
  refine ⟨by decide +kernel, ?_, hdrain, ?_⟩
  · intro k hk
    rw [← Std.TreeMap.mem_keys, hkeys, List.mem_pair] at hk
    rcases hk with rfl | rfl
    · decide
    · decide
  · rw [hdrain]
    decide

end VideoFrameQueue

end Orbit
