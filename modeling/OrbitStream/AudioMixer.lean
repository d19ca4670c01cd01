/-
OrbitStream/AudioMixer.lean

One tick of the audio mixer (`AudioMixerElement::MixPacketLoopWithMultiThread` and
`AudioBufferManager::PopAndDecode`, with the speaker estimate fed by it).

A first loop over the streams adds the decoded frames up; a second one produces the
audio for every stream, the sum less its own frame.  What belongs to a stream is
found by its position, which both loops count.

After the first loop the sum, the packets and the muted streams are those of the
streams passed (`Gathered`), and the second loop queues for each stream the sum of the
others (`Produced`).  So every stream gets the others' frames, added up in 32 bits and
cut to 16: the sum of the others modulo 2^16 (`mix_of_others`), which is the sum
itself while it is in the range of a sample.  Nothing limits a sum that is not
(`mix_wraps`).

The muted streams share the packet that is made in the turn of the first of them, and that
packet is queued only if somebody listens to the first one: so every stream with a listener
is in exactly one packet if and only if the first muted stream has a listener or none of
them has (`fan_out_iff`).
-/
import OrbitStream.AudioEnergy
import OrbitStream.SpeakerEstimator

namespace Orbit

/-- `MediaDataPacket`: a decoded frame.  The buffer is filled with zeros behind it. -/
structure MediaDataPacket where
  length : Int
  mediaBuf : List Int16
  deriving DecidableEq, Repr

/-- A sample of the buffer. -/
def MediaDataPacket.sample (p : MediaDataPacket) (i : Nat) : Int16 := p.mediaBuf.getD i 0

/-- `AudioBufferManager` in a tick: whether it is muted, and what `GetAudio` of its jitter
buffer yields. -/
structure AudioBufferManager where
  muted : Bool := false
  audio : Option MediaDataPacket := none
  deriving DecidableEq, Repr

/-- `AudioBufferManager::PopAndDecode`: the packet, if there is one to mix. -/
def AudioBufferManager.popAndDecode (m : AudioBufferManager) : Option MediaDataPacket :=
  match m.audio with
  | none => none
  | some packet => if m.muted then none else some packet

/-- `UnencodedPacket`. -/
structure UnencodedPacket where
  streamVec : List Int
  timestamp : UInt32
  seqNumber : UInt16
  ssrc : UInt32
  unencodedBuf : List Int16
  deriving DecidableEq, Repr

/-- `AudioMixerElement`, and the variables of the loop. -/
structure AudioMixerElement where
  samples : Nat
  skipLow : Bool := false
  audioBufferManagers : Std.TreeMap Int AudioBufferManager := ∅
  audioMixerListeners : List Int := []
  speakerEstimator : Option SpeakerEstimator := none
  seq : Int16 := 0
  ts : Int32 := 0
  unencodedQueue : List UnencodedPacket := []

namespace AudioMixerElement

/-- The variables of the first loop. -/
structure Gather where
  buffer : Nat → Int32 := fun _ => 0
  audioEnergy : List Int32
  packetCollections : List (Nat × MediaDataPacket) := []
  vecStream : List Int := []
  participantCounter : Nat := 0

/-- The frame that the energy is computed of. -/
def frame (e : AudioMixerElement) (packet : MediaDataPacket) : List Int16 :=
  (List.range e.samples).map packet.sample

/-- One turn of the first loop. -/
def gather (e : AudioMixerElement) (g : Gather) (it : Int × AudioBufferManager) : Gather :=
  let g := if it.2.muted then { g with vecStream := g.vecStream ++ [it.1] } else g
  match it.2.popAndDecode with
  | none => { g with participantCounter := g.participantCounter + 1 }
  | some packet =>
      if packet.length < 0 then { g with participantCounter := g.participantCounter + 1 }
      else
        let energy := machineEnergy (e.frame packet)
        let g := { g with audioEnergy := g.audioEnergy.set g.participantCounter energy }
        -- too quiet: the energy is noted, but nothing is added to the sum
        if e.skipLow ∧ energy < 1000000 then
          { g with participantCounter := g.participantCounter + 1 }
        else
          { g with
            buffer := fun i => g.buffer i + (packet.sample i).toInt32
            packetCollections := (g.participantCounter, packet) :: g.packetCollections
            participantCounter := g.participantCounter + 1 }

/-- The variables of the second loop. -/
structure Produce where
  participantCounter : Nat := 0
  muteStreamSend : Bool := false
  queue : List UnencodedPacket := []
  updates : List (Int × Int32) := []

/-- The audio of a stream: the sum, less what the stream added to it. -/
def mixed (e : AudioMixerElement) (buffer : Nat → Int32) (own : Option MediaDataPacket) :
    List Int16 :=
  (List.range e.samples).map fun i =>
    match own with
    | some packet => (buffer i - (packet.sample i).toInt32).toInt16
    | none => (buffer i).toInt16

/-- One turn of the second loop. -/
def produce (e : AudioMixerElement) (g : Gather) (p : Produce) (it : Int × AudioBufferManager) :
    Produce :=
  if it.1 ∈ g.vecStream ∧ p.muteStreamSend then
    { p with participantCounter := p.participantCounter + 1 }
  else
    -- the muted streams share one packet, made in the turn of the first of them
    let streams := if it.1 ∈ g.vecStream then g.vecStream else [it.1]
    let muteStreamSend := p.muteStreamSend || decide (it.1 ∈ g.vecStream)
    let tmpBuf := e.mixed g.buffer (g.packetCollections.lookup p.participantCounter)
    if it.1 ∈ e.audioMixerListeners then
      { participantCounter := p.participantCounter + 1
        muteStreamSend := muteStreamSend
        queue := p.queue ++ [⟨streams, e.ts.toUInt32, e.seq.toUInt16, 0xFFFFFFFF, tmpBuf⟩]
        updates := p.updates ++ [(it.1, g.audioEnergy.getD p.participantCounter 0)] }
    else
      -- nobody listens to this stream: the packet is dropped, also when others share it
      { p with
        participantCounter := p.participantCounter + 1, muteStreamSend := muteStreamSend }

/-- The first loop. -/
def gathered (e : AudioMixerElement) : Gather :=
  e.audioBufferManagers.toList.foldl e.gather
    { audioEnergy := List.replicate e.audioBufferManagers.toList.length 0 }

/-- One iteration of `MixPacketLoopWithMultiThread`. -/
def tick (e : AudioMixerElement) : AudioMixerElement :=
  if e.audioBufferManagers.toList.length = 0 then e
  -- nobody contributed, so the tick ends before the counters move
  else if e.gathered.packetCollections.length = 0 then e
  else
    let g := e.gathered
    let e := { e with seq := e.seq + 1, ts := e.ts + Int32.ofNat e.samples }
    let p := e.audioBufferManagers.toList.foldl (e.produce g) {}
    { e with
      unencodedQueue := e.unencodedQueue ++ p.queue
      speakerEstimator := e.speakerEstimator.map fun s =>
        p.updates.foldl (fun s u => s.updateAudioEnergy u.1 u.2.toInt) s.nextFrame }

/-! ### What the streams give -/

/-- The packet of a stream that is added to the sum. -/
def contribution (e : AudioMixerElement) (m : AudioBufferManager) : Option MediaDataPacket :=
  m.popAndDecode.filter fun packet =>
    ¬ packet.length < 0 ∧ ¬ (e.skipLow ∧ machineEnergy (e.frame packet) < 1000000)

/-- What a stream adds to a place of the sum. -/
def added (e : AudioMixerElement) (i : Nat) (it : Int × AudioBufferManager) : Int :=
  match e.contribution it.2 with
  | some packet => (packet.sample i).toInt
  | none => 0

/-- The sum of what the other streams give. -/
def sumOfOthers (e : AudioMixerElement) (stream : Int) (i : Nat) : Int :=
  ((e.audioBufferManagers.toList.filter fun it => it.1 ≠ stream).map (e.added i)).sum

/-- The sums of what the other streams give, each cut to 16 bits. -/
def mixOfOthers (e : AudioMixerElement) (stream : Int) : List Int16 :=
  (List.range e.samples).map fun i => Int16.ofInt (e.sumOfOthers stream i)

variable {e : AudioMixerElement}

/-! ### The first loop -/

/-- The variables of the first loop after these streams. -/
structure Gathered (e : AudioMixerElement) (l : List (Int × AudioBufferManager)) (g : Gather) :
    Prop where
  counter : g.participantCounter = l.length
  buffer : ∀ i, g.buffer i = Int32.ofInt (l.map (e.added i)).sum
  packet : ∀ k, g.packetCollections.lookup k = (l[k]?).bind fun it => e.contribution it.2
  muted : g.vecStream = (l.filter fun it => it.2.muted).map Prod.fst

/-- One turn counts, notes a muted stream, and adds what the stream gives. -/
theorem gather_cases (e : AudioMixerElement) (g : Gather) (it : Int × AudioBufferManager) :
    (e.gather g it).participantCounter = g.participantCounter + 1 ∧
    (e.gather g it).vecStream = g.vecStream ++ (if it.2.muted then [it.1] else []) ∧
    ((e.contribution it.2 = none ∧ (e.gather g it).buffer = g.buffer ∧
        (e.gather g it).packetCollections = g.packetCollections) ∨
      ∃ packet, e.contribution it.2 = some packet ∧
        (e.gather g it).buffer = (fun i => g.buffer i + (packet.sample i).toInt32) ∧
        (e.gather g it).packetCollections =
          (g.participantCounter, packet) :: g.packetCollections) := by
  have hmuted : (if it.2.muted then { g with vecStream := g.vecStream ++ [it.1] } else g) =
      { g with vecStream := g.vecStream ++ (if it.2.muted then [it.1] else []) } := by
    split
    · rfl
    · rw [List.append_nil]
  rw [gather, hmuted, contribution]
  rcases it.2.popAndDecode with - | packet
  · exact ⟨rfl, rfl, .inl ⟨rfl, rfl, rfl⟩⟩
  · dsimp only
    rw [Option.filter_some]
    by_cases hlen : packet.length < 0
    · rw [if_pos hlen]
      exact ⟨rfl, rfl, .inl ⟨by simp [hlen], rfl, rfl⟩⟩
    · rw [if_neg hlen]
      by_cases hlow : e.skipLow ∧ machineEnergy (e.frame packet) < 1000000
      · rw [if_pos hlow]
        exact ⟨rfl, rfl, .inl ⟨by simp [hlow], rfl, rfl⟩⟩
      · rw [if_neg hlow]
        refine ⟨rfl, rfl, .inr ⟨packet, ?_, rfl, rfl⟩⟩
        rw [if_pos (decide_eq_true ⟨hlen, hlow⟩)]

theorem Gathered.gather {l : List (Int × AudioBufferManager)} {g : Gather}
    (h : Gathered e l g) (it : Int × AudioBufferManager) :
    Gathered e (l ++ [it]) (e.gather g it) := by
  obtain ⟨hcounter, hvec, hcases⟩ := gather_cases e g it
  have hmuted : (e.gather g it).vecStream =
      ((l ++ [it]).filter fun it => it.2.muted).map Prod.fst := by
    rw [hvec, h.muted, List.filter_append, List.map_append]
    congr 1
    by_cases hm : it.2.muted
    · simp [hm]
    · simp [hm]
  refine ⟨?_, ?_, ?_, hmuted⟩
  · rw [hcounter, h.counter, List.length_append]
    rfl
  · intro i
    rw [List.map_append, List.sum_append, Int32.ofInt_add, ← h.buffer i]
    rcases hcases with ⟨hnone, hbuf, -⟩ | ⟨packet, hsome, hbuf, -⟩
    · have hadded : ([it].map (e.added i)).sum = 0 := by
        simp [added, hnone]
      rw [hbuf, hadded]
      exact (Int32.add_zero _).symm
    · have hadded : ([it].map (e.added i)).sum = (packet.sample i).toInt := by
        simp [added, hsome]
      rw [hbuf, hadded, Int32.ofInt_int16ToInt]
  · intro k
    have hlast : (l ++ [it])[k]? = if k = l.length then some it else l[k]? := by
      by_cases hk : k = l.length
      · rw [if_pos hk, hk, List.getElem?_concat_length]
      · rw [if_neg hk]
        rcases Nat.lt_or_gt_of_ne hk with hlt | hgt
        · rw [List.getElem?_append_left hlt]
        · rw [List.getElem?_eq_none (by simp; omega), List.getElem?_eq_none (by omega)]
    rw [hlast]
    rcases hcases with ⟨hnone, -, hpackets⟩ | ⟨packet, hsome, -, hpackets⟩
    · rw [hpackets, h.packet]
      split
      · rename_i hk
        rw [hk, List.getElem?_eq_none (Nat.le_refl _), Option.bind_none, Option.bind_some, hnone]
      · rfl
    · rw [hpackets, List.lookup_cons, h.counter, h.packet]
      by_cases hk : k = l.length
      · rw [if_pos hk, hk, beq_self_eq_true, Option.bind_some, hsome]
      · rw [if_neg hk, beq_eq_false_iff_ne.mpr hk]

theorem foldl_gathered (energy : List Int32) (l : List (Int × AudioBufferManager)) :
    Gathered e l (l.foldl e.gather { audioEnergy := energy }) := by
  induction l using List.reverseRecOn with
  | nil => exact ⟨rfl, fun i => rfl, fun k => by simp, rfl⟩
  | append_singleton l it ih =>
    rw [List.foldl_append]
    exact ih.gather it

theorem gathered_spec (e : AudioMixerElement) :
    Gathered e e.audioBufferManagers.toList e.gathered :=
  foldl_gathered _ _

/-! ### The sum of the others -/

theorem ids_distinct (e : AudioMixerElement) :
    e.audioBufferManagers.toList.Pairwise fun a b => a.1 ≠ b.1 := by
  refine Std.TreeMap.distinct_keys_toList.imp ?_
  intro a b h heq
  exact h (Std.compare_eq_iff_eq.mpr heq)

/-- A stream is found by its id. -/
theorem eq_of_same_id {a b : Int × AudioBufferManager} (ha : a ∈ e.audioBufferManagers.toList)
    (hb : b ∈ e.audioBufferManagers.toList) (h : a.1 = b.1) : a = b := by
  have hsame : some a.2 = some b.2 := by
    rw [← Std.TreeMap.mem_toList_iff_getElem?_eq_some.mp ha,
      ← Std.TreeMap.mem_toList_iff_getElem?_eq_some.mp hb, h]
  exact Prod.ext h (Option.some.inj hsame)

/-- One stream and the others make up the whole sum. -/
theorem sum_eq_add_others {f : Int × AudioBufferManager → Int} {it : Int × AudioBufferManager}
    {l : List (Int × AudioBufferManager)} (hl : l.Pairwise fun a b => a.1 ≠ b.1) (hit : it ∈ l) :
    (l.map f).sum = f it + ((l.filter fun x => x.1 ≠ it.1).map f).sum := by
  induction l with
  | nil => cases hit
  | cons x l ih =>
    rw [List.pairwise_cons] at hl
    rw [List.map_cons, List.sum_cons]
    rcases List.mem_cons.mp hit with rfl | hmem
    · have hrest : l.filter (fun x => x.1 ≠ it.1) = l := by
        rw [List.filter_eq_self]
        exact fun x hx => decide_eq_true (hl.1 x hx).symm
      rw [List.filter_cons, if_neg (by simp), hrest]
    · have hx : x.1 ≠ it.1 := hl.1 it hmem
      rw [List.filter_cons, if_pos (decide_eq_true hx), List.map_cons, List.sum_cons, ih hl.2 hmem]
      omega

/-- A muted stream gives nothing. -/
theorem contribution_of_muted {m : AudioBufferManager} (h : m.muted = true) :
    e.contribution m = none := by
  rw [contribution, AudioBufferManager.popAndDecode]
  rcases m.audio with - | packet
  · rfl
  · rw [h]
    rfl

/-- The others of a stream that gives nothing are all that give something. -/
theorem sumOfOthers_of_none {it : Int × AudioBufferManager}
    (hit : it ∈ e.audioBufferManagers.toList) (h : e.contribution it.2 = none) (i : Nat) :
    e.sumOfOthers it.1 i = (e.audioBufferManagers.toList.map (e.added i)).sum := by
  have hadded : e.added i it = 0 := by
    rw [added, h]
  rw [sum_eq_add_others (ids_distinct e) hit, hadded, Int.zero_add]
  rfl

/-- The audio of a stream is the sum of the others, cut to 16 bits. -/
theorem mixed_eq {g : Gather} (hg : Gathered e e.audioBufferManagers.toList g)
    {it : Int × AudioBufferManager} (hit : it ∈ e.audioBufferManagers.toList) :
    e.mixed g.buffer (e.contribution it.2) = e.mixOfOthers it.1 := by
  rw [mixed, mixOfOthers]
  apply List.map_congr_left
  intro i _
  have hsum : g.buffer i = Int32.ofInt (e.added i it + e.sumOfOthers it.1 i) := by
    rw [hg.buffer i, sum_eq_add_others (ids_distinct e) hit]
    rfl
  rcases hc : e.contribution it.2 with - | packet
  · have hadded : e.added i it = 0 := by
      rw [added, hc]
    show (g.buffer i).toInt16 = Int16.ofInt (e.sumOfOthers it.1 i)
    rw [hsum, hadded, Int.zero_add, Int32.toInt16_ofInt]
  · have hadded : e.added i it = (packet.sample i).toInt := by
      rw [added, hc]
    show (g.buffer i - (packet.sample i).toInt32).toInt16 = Int16.ofInt (e.sumOfOthers it.1 i)
    rw [hsum, hadded, ← Int32.ofInt_int16ToInt, ← Int32.ofInt_sub, Int.add_comm, Int.add_sub_cancel,
      Int32.toInt16_ofInt]

/-- All muted streams get the same audio. -/
theorem mixOfOthers_of_muted {a b : Int × AudioBufferManager}
    (ha : a ∈ e.audioBufferManagers.toList) (hb : b ∈ e.audioBufferManagers.toList)
    (hma : a.2.muted = true) (hmb : b.2.muted = true) :
    e.mixOfOthers a.1 = e.mixOfOthers b.1 := by
  rw [mixOfOthers, mixOfOthers]
  apply List.map_congr_left
  intro i _
  rw [sumOfOthers_of_none ha (contribution_of_muted hma),
    sumOfOthers_of_none hb (contribution_of_muted hmb)]

/-! ### The second loop -/

/-- A stream is noted as muted if and only if it is. -/
theorem mem_vecStream_iff {g : Gather} (hg : Gathered e e.audioBufferManagers.toList g)
    {it : Int × AudioBufferManager} (hit : it ∈ e.audioBufferManagers.toList) :
    it.1 ∈ g.vecStream ↔ it.2.muted = true := by
  rw [hg.muted, List.mem_map]
  constructor
  · rintro ⟨x, hx, hid⟩
    obtain ⟨hx, hm⟩ := List.mem_filter.mp hx
    rw [← eq_of_same_id hx hit hid]
    exact hm
  · intro hm
    exact ⟨it, List.mem_filter.mpr ⟨hit, hm⟩, rfl⟩

/-- The variables of the second loop after these streams. -/
structure Produced (e : AudioMixerElement) (g : Gather) (l : List (Int × AudioBufferManager))
    (p : Produce) : Prop where
  counter : p.participantCounter = l.length
  send : p.muteStreamSend = true ↔ ∃ it ∈ l, it.2.muted = true
  others : ∀ u ∈ p.queue, ∀ stream ∈ u.streamVec, u.unencodedBuf = e.mixOfOthers stream
  own : ∀ it ∈ l, it.2.muted = false → it.1 ∈ e.audioMixerListeners →
    ∃ u ∈ p.queue, u.streamVec = [it.1]
  shared : ∀ it, l.find? (fun it => it.2.muted) = some it → it.1 ∈ e.audioMixerListeners →
    ∃ u ∈ p.queue, u.streamVec = g.vecStream

/-- One turn counts; it skips a muted stream that is not the first, and queues the sum of the
others exactly if somebody listens. -/
theorem produce_cases {g : Gather} (hg : Gathered e e.audioBufferManagers.toList g)
    {l : List (Int × AudioBufferManager)} {it : Int × AudioBufferManager}
    (hl : l ++ [it] <+: e.audioBufferManagers.toList) {p : Produce}
    (hcounter : p.participantCounter = l.length) :
    (e.produce g p it).participantCounter = l.length + 1 ∧
    (e.produce g p it).muteStreamSend = (p.muteStreamSend || it.2.muted) ∧
    (((e.produce g p it).queue = p.queue ∧
        (it.1 ∈ e.audioMixerListeners → it.2.muted = true ∧ p.muteStreamSend = true)) ∨
      ∃ u, (e.produce g p it).queue = p.queue ++ [u] ∧
        u.streamVec = (if it.2.muted then g.vecStream else [it.1]) ∧
        u.unencodedBuf = e.mixOfOthers it.1 ∧
        it.1 ∈ e.audioMixerListeners ∧ ¬ (it.2.muted = true ∧ p.muteStreamSend = true)) := by
  have hit : it ∈ e.audioBufferManagers.toList := hl.subset (by simp)
  have hlookup : g.packetCollections.lookup p.participantCounter = e.contribution it.2 := by
    have hat : e.audioBufferManagers.toList[l.length]? = some it := by
      obtain ⟨rest, hrest⟩ := hl
      rw [← hrest, List.append_assoc, List.getElem?_append_right (Nat.le_refl _), Nat.sub_self]
      rfl
    rw [hg.packet, hcounter, hat, Option.bind_some]
  have hmem := mem_vecStream_iff hg hit
  have hmute : decide (it.1 ∈ g.vecStream) = it.2.muted := by
    rw [Bool.eq_iff_iff, decide_eq_true_iff]
    exact hmem
  rw [produce]
  by_cases hskip : it.1 ∈ g.vecStream ∧ p.muteStreamSend = true
  · rw [if_pos hskip]
    refine ⟨by rw [hcounter], ?_, .inl ⟨rfl, fun _ => ⟨hmem.mp hskip.1, hskip.2⟩⟩⟩
    rw [hskip.2, Bool.true_or]
  · rw [if_neg hskip]
    dsimp only
    rw [hlookup, mixed_eq hg hit, hmute]
    by_cases hlisten : it.1 ∈ e.audioMixerListeners
    · rw [if_pos hlisten]
      refine ⟨by rw [hcounter], rfl, .inr ⟨_, rfl, ?_, rfl, hlisten,
        fun h => hskip ⟨hmem.mpr h.1, h.2⟩⟩⟩
      by_cases hm : it.1 ∈ g.vecStream
      · rw [if_pos hm, if_pos (hmem.mp hm)]
      · rw [if_neg hm, if_neg (fun h => hm (hmem.mpr h))]
    · rw [if_neg hlisten]
      exact ⟨by rw [hcounter], rfl, .inl ⟨rfl, fun h => absurd h hlisten⟩⟩

/-- The audio that is queued is right for all streams it is queued for. -/
theorem unencodedBuf_eq {g : Gather} (hg : Gathered e e.audioBufferManagers.toList g)
    {it : Int × AudioBufferManager} (hit : it ∈ e.audioBufferManagers.toList)
    {u : UnencodedPacket} (hvec : u.streamVec = if it.2.muted then g.vecStream else [it.1])
    (hbuf : u.unencodedBuf = e.mixOfOthers it.1) {stream : Int} (hstream : stream ∈ u.streamVec) :
    u.unencodedBuf = e.mixOfOthers stream := by
  rw [hbuf]
  rw [hvec] at hstream
  by_cases hm : it.2.muted = true
  · rw [if_pos hm, hg.muted, List.mem_map] at hstream
    obtain ⟨x, hx, rfl⟩ := hstream
    obtain ⟨hx, hmx⟩ := List.mem_filter.mp hx
    exact mixOfOthers_of_muted hit hx hm hmx
  · rw [if_neg hm, List.mem_singleton] at hstream
    rw [hstream]

theorem Produced.produce {g : Gather} (hg : Gathered e e.audioBufferManagers.toList g)
    {l : List (Int × AudioBufferManager)} {it : Int × AudioBufferManager}
    (hl : l ++ [it] <+: e.audioBufferManagers.toList) {p : Produce} (h : Produced e g l p) :
    Produced e g (l ++ [it]) (e.produce g p it) := by
  have hit : it ∈ e.audioBufferManagers.toList := hl.subset (by simp)
  obtain ⟨hcounter, hsend, hqueue⟩ := produce_cases hg hl h.counter
  have hkept : ∀ u ∈ p.queue, u ∈ (e.produce g p it).queue := by
    intro u hu
    rcases hqueue with ⟨hq, -⟩ | ⟨v, hq, -⟩
    · rw [hq]
      exact hu
    · rw [hq]
      exact List.mem_append_left _ hu
  refine ⟨?_, ?_, ?_, ?_, ?_⟩
  · rw [hcounter, List.length_append]
    rfl
  · rw [hsend, Bool.or_eq_true, h.send]
    simp only [List.mem_append, List.mem_singleton, or_and_right, exists_or, exists_eq_left]
  · intro u hu stream hstream
    rcases hqueue with ⟨hq, -⟩ | ⟨v, hq, hvec, hbuf, -⟩
    · rw [hq] at hu
      exact h.others u hu stream hstream
    · rw [hq, List.mem_append, List.mem_singleton] at hu
      rcases hu with hu | rfl
      · exact h.others u hu stream hstream
      · exact unencodedBuf_eq hg hit hvec hbuf hstream
  · intro x hx hm hlisten
    rcases List.mem_append.mp hx with hx | hx
    · obtain ⟨u, hu, hvec⟩ := h.own x hx hm hlisten
      exact ⟨u, hkept u hu, hvec⟩
    · obtain rfl := List.mem_singleton.mp hx
      rcases hqueue with ⟨-, hmuted⟩ | ⟨v, hq, hvec, -⟩
      · rw [(hmuted hlisten).1] at hm
        cases hm
      · refine ⟨v, by simp [hq], ?_⟩
        rw [hvec, if_neg (by simp [hm])]
  · intro x hx hlisten
    rw [List.find?_append] at hx
    rcases hfirst : l.find? (fun it => it.2.muted) with - | y
    · rw [hfirst, Option.none_or, List.find?_singleton] at hx
      split at hx
      · rename_i hm
        obtain rfl := Option.some.inj hx
        rcases hqueue with ⟨-, hmuted⟩ | ⟨v, hq, hvec, -⟩
        · obtain ⟨y, hy, hmy⟩ := h.send.mp (hmuted hlisten).2
          exact absurd hmy (List.find?_eq_none.mp hfirst y hy)
        · refine ⟨v, by simp [hq], ?_⟩
          rw [hvec, if_pos hm]
      · cases hx
    · rw [hfirst, Option.some_or] at hx
      obtain rfl := Option.some.inj hx
      obtain ⟨u, hu, hvec⟩ := h.shared y hfirst hlisten
      exact ⟨u, hkept u hu, hvec⟩

theorem foldl_produced {g : Gather} (hg : Gathered e e.audioBufferManagers.toList g)
    {l : List (Int × AudioBufferManager)} (hl : l <+: e.audioBufferManagers.toList) :
    Produced e g l (l.foldl (e.produce g) {}) := by
  induction l using List.reverseRecOn with
  | nil => exact ⟨rfl, by simp, by simp, by simp, by simp⟩
  | append_singleton l it ih =>
    rw [List.foldl_append]
    exact (ih ((List.prefix_append l [it]).trans hl)).produce hg hl

/-! ### One tick -/

/-- A number brought into the range of a sample. -/
def saturate (x : Int) : Int := max (-32768) (min x 32767)

theorem ofInt_eq_saturate {x : Int} (hlow : -32768 ≤ x) (hhigh : x ≤ 32767) :
    (Int16.ofInt x).toInt = saturate x := by
  rw [Int16.toInt_ofInt_of_le (by omega) (by omega), saturate]
  omega

/-- A tick in which no stream gives something queues nothing, any other tick queues the audio
of the second loop. -/
theorem tick_cases (e : AudioMixerElement) :
    (e.tick.unencodedQueue = e.unencodedQueue ∧
      ∀ it ∈ e.audioBufferManagers.toList, e.contribution it.2 = none) ∨
    e.tick.unencodedQueue = e.unencodedQueue ++ (e.audioBufferManagers.toList.foldl
      (produce { e with seq := e.seq + 1, ts := e.ts + Int32.ofNat e.samples } e.gathered)
        {}).queue := by
  rw [tick]
  by_cases hcount : e.audioBufferManagers.toList.length = 0
  · rw [if_pos hcount, List.length_eq_zero_iff.mp hcount]
    exact .inl ⟨rfl, by simp⟩
  · rw [if_neg hcount]
    by_cases hnone : e.gathered.packetCollections.length = 0
    · rw [if_pos hnone]
      refine .inl ⟨rfl, ?_⟩
      intro it hit
      obtain ⟨k, hk⟩ := List.mem_iff_getElem?.mp hit
      have hlookup := (gathered_spec e).packet k
      rw [hk, List.length_eq_zero_iff.mp hnone, Option.bind_some] at hlookup
      exact hlookup.symm
    · rw [if_neg hnone]
      exact .inr rfl

/-- The streams and the sums do not depend on the header of the packets. -/
theorem gathered_header (e : AudioMixerElement) (seq : Int16) (ts : Int32) :
    Gathered { e with seq := seq, ts := ts } e.audioBufferManagers.toList e.gathered :=
  ⟨(gathered_spec e).counter, (gathered_spec e).buffer, (gathered_spec e).packet,
    (gathered_spec e).muted⟩

/-- The packets of a tick, with what the second loop keeps about them. -/
theorem tick_queue (e : AudioMixerElement) :
    ∃ new, e.tick.unencodedQueue = e.unencodedQueue ++ new ∧
      (new = [] ∧ (∀ it ∈ e.audioBufferManagers.toList, e.contribution it.2 = none) ∨
        ∃ p, p.queue = new ∧ Produced e e.gathered e.audioBufferManagers.toList p) := by
  rcases tick_cases e with ⟨hqueue, hnone⟩ | hqueue
  · exact ⟨[], by rw [hqueue, List.append_nil], .inl ⟨rfl, hnone⟩⟩
  · have hp := foldl_produced (gathered_header e (e.seq + 1) (e.ts + Int32.ofNat e.samples))
      (List.prefix_refl _)
    exact ⟨_, hqueue, .inr ⟨_, rfl, hp.counter, hp.send, hp.others, hp.own, hp.shared⟩⟩

/-- What a tick queues for a stream is, at every sample, the sum of the other contributors
modulo 2^16, and so the saturated sum while the sum is in the range of a sample; the others
of a stream that contributes nothing are all contributors.  In a tick with a contributor every
stream with a listener that is not muted gets audio of its own, and the muted ones share the
audio that is made for the first of them. -/
theorem mix_of_others (e : AudioMixerElement) :
    ∃ new, e.tick.unencodedQueue = e.unencodedQueue ++ new ∧
      (∀ u ∈ new, ∀ stream ∈ u.streamVec, u.unencodedBuf.length = e.samples ∧
        ∀ i x, u.unencodedBuf[i]? = some x →
          x = Int16.ofInt (e.sumOfOthers stream i) ∧
          (-32768 ≤ e.sumOfOthers stream i → e.sumOfOthers stream i ≤ 32767 →
            x.toInt = saturate (e.sumOfOthers stream i))) ∧
      (∀ it ∈ e.audioBufferManagers.toList, e.contribution it.2 = none → ∀ i,
        e.sumOfOthers it.1 i = (e.audioBufferManagers.toList.map (e.added i)).sum) ∧
      ((∃ it ∈ e.audioBufferManagers.toList, e.contribution it.2 ≠ none) →
        (∀ it ∈ e.audioBufferManagers.toList, it.2.muted = false →
          it.1 ∈ e.audioMixerListeners → ∃ u ∈ new, u.streamVec = [it.1]) ∧
        ∀ it, e.audioBufferManagers.toList.find? (fun it => it.2.muted) = some it →
          it.1 ∈ e.audioMixerListeners → ∃ u ∈ new, u.streamVec =
            (e.audioBufferManagers.toList.filter fun it => it.2.muted).map Prod.fst) := by
  obtain ⟨new, hqueue, hnew⟩ := tick_queue e
  refine ⟨new, hqueue, ?_, fun it hit h => sumOfOthers_of_none hit h, ?_⟩
  · intro u hu stream hstream
    have hbuf : u.unencodedBuf = e.mixOfOthers stream := by
      rcases hnew with ⟨rfl, -⟩ | ⟨p, rfl, hp⟩
      · cases hu
      · exact hp.others u hu stream hstream
    rw [hbuf, mixOfOthers]
    refine ⟨by simp, ?_⟩
    intro i x hx
    rw [List.getElem?_map] at hx
    obtain ⟨j, hj, rfl⟩ := Option.map_eq_some_iff.mp hx
    obtain ⟨hlt, hji⟩ := List.getElem?_eq_some_iff.mp hj
    rw [List.getElem_range] at hji
    subst hji
    exact ⟨rfl, ofInt_eq_saturate⟩
  · rintro ⟨it, hit, hsome⟩
    rcases hnew with ⟨-, hnone⟩ | ⟨p, rfl, hp⟩
    · exact absurd (hnone it hit) hsome
    · refine ⟨hp.own, ?_⟩
      rw [← (gathered_spec e).muted]
      exact hp.shared

/-- Two loud streams and a listener: the sum 60000 wraps to -5536 instead of 32767. -/
theorem mix_wraps :
    ∃ e : AudioMixerElement, ∃ u ∈ e.tick.unencodedQueue, e.unencodedQueue = [] ∧
      u.streamVec = [3] ∧ e.sumOfOthers 3 0 = 60000 ∧
      u.unencodedBuf.map Int16.toInt = [-5536] ∧
      u.unencodedBuf.map Int16.toInt ≠ [saturate (e.sumOfOthers 3 0)] := by
  refine ⟨{ samples := 1, audioMixerListeners := [3]
            audioBufferManagers := ((((∅ : Std.TreeMap Int AudioBufferManager).insert 1
              ⟨false, some ⟨1, [30000]⟩⟩).insert 2 ⟨false, some ⟨1, [30000]⟩⟩).insert 3
              ⟨false, none⟩) }, ⟨[3], 1, 1, 0xFFFFFFFF, [-5536]⟩, ?_, rfl, rfl, ?_, rfl, ?_⟩
  · decide
  · decide
  · decide

/-! ### Who is in a packet -/

/-- How many of the packets name the stream. -/
def copies (queue : List UnencodedPacket) (stream : Int) : Nat :=
  queue.countP fun u => decide (stream ∈ u.streamVec)

/-- Every stream with a buffer and a listener is in exactly one of the packets. -/
def FannedOut (e : AudioMixerElement) (queue : List UnencodedPacket) : Prop :=
  ∀ it ∈ e.audioBufferManagers.toList, it.1 ∈ e.audioMixerListeners → copies queue it.1 = 1

/-- The first muted stream has a listener, or no muted stream has one. -/
def FirstMutedListens (e : AudioMixerElement) : Prop :=
  (∀ first, e.audioBufferManagers.toList.find? (fun it => it.2.muted) = some first →
    first.1 ∈ e.audioMixerListeners) ∨
  ∀ it ∈ e.audioBufferManagers.toList, it.2.muted = true → it.1 ∉ e.audioMixerListeners

/-- Whether the packet that the muted streams share is queued while these streams are passed. -/
def sharedSent (e : AudioMixerElement) (l : List (Int × AudioBufferManager)) : Bool :=
  match l.find? fun it => it.2.muted with
  | none => false
  | some first => decide (first.1 ∈ e.audioMixerListeners)

theorem copies_append (a b : List UnencodedPacket) (stream : Int) :
    copies (a ++ b) stream = copies a stream + copies b stream :=
  List.countP_append

theorem copies_singleton (u : UnencodedPacket) (stream : Int) :
    copies [u] stream = if stream ∈ u.streamVec then 1 else 0 := by
  simp [copies, List.countP_cons]

/-- A stream with a listener that is not muted is in one packet from its own turn on; a muted
stream is in one from the turn of the first muted stream on, if that has a listener. -/
structure Copied (e : AudioMixerElement) (l : List (Int × AudioBufferManager)) (p : Produce) :
    Prop where
  own : ∀ it ∈ e.audioBufferManagers.toList, it.2.muted = false →
    it.1 ∈ e.audioMixerListeners → copies p.queue it.1 = if it ∈ l then 1 else 0
  shared : ∀ it ∈ e.audioBufferManagers.toList, it.2.muted = true →
    copies p.queue it.1 = if e.sharedSent l then 1 else 0

theorem sharedSent_append (l : List (Int × AudioBufferManager)) (it : Int × AudioBufferManager) :
    e.sharedSent (l ++ [it]) = if l.any (fun it => it.2.muted) then e.sharedSent l
      else it.2.muted && decide (it.1 ∈ e.audioMixerListeners) := by
  rw [sharedSent, List.find?_append]
  by_cases hany : l.any (fun it => it.2.muted) = true
  · obtain ⟨first, hfirst⟩ := Option.isSome_iff_exists.mp
      (List.find?_isSome.mpr (List.any_eq_true.mp hany))
    rw [if_pos hany, sharedSent, hfirst, Option.some_or]
  · have hnone : l.find? (fun it => it.2.muted) = none := by
      rw [List.find?_eq_none]
      exact fun x hx hm => hany (List.any_eq_true.mpr ⟨x, hx, hm⟩)
    rw [if_neg hany, hnone, Option.none_or, List.find?_singleton]
    by_cases hm : it.2.muted = true
    · rw [if_pos hm, hm, Bool.true_and]
    · rw [if_neg hm, Bool.eq_false_of_not_eq_true hm, Bool.false_and]

theorem sharedSent_of_none {l : List (Int × AudioBufferManager)}
    (h : ¬ l.any (fun it => it.2.muted) = true) : e.sharedSent l = false := by
  have hnone : l.find? (fun it => it.2.muted) = none := by
    rw [List.find?_eq_none]
    exact fun x hx hm => h (List.any_eq_true.mpr ⟨x, hx, hm⟩)
  rw [sharedSent, hnone]

/-- The streams of the packet that a stream's turn may queue. -/
theorem mem_streamVec_iff {g : Gather} (hg : Gathered e e.audioBufferManagers.toList g)
    {x it : Int × AudioBufferManager} (hx : x ∈ e.audioBufferManagers.toList)
    (hit : it ∈ e.audioBufferManagers.toList) :
    x.1 ∈ (if it.2.muted then g.vecStream else [it.1]) ↔
      if it.2.muted then x.2.muted = true else x = it := by
  split
  · exact mem_vecStream_iff hg hx
  · rw [List.mem_singleton]
    exact ⟨eq_of_same_id hx hit, congrArg Prod.fst⟩

/-- What the turn of a stream adds to the copies of any other. -/
theorem copies_produce {g : Gather} (hg : Gathered e e.audioBufferManagers.toList g)
    {l : List (Int × AudioBufferManager)} {it : Int × AudioBufferManager}
    (hl : l ++ [it] <+: e.audioBufferManagers.toList) {p : Produce} (hp : Produced e g l p)
    {x : Int × AudioBufferManager} (hx : x ∈ e.audioBufferManagers.toList) :
    copies (e.produce g p it).queue x.1 = copies p.queue x.1 +
      if (it.1 ∈ e.audioMixerListeners ∧ ¬ (it.2.muted = true ∧ p.muteStreamSend = true)) ∧
        (if it.2.muted then x.2.muted = true else x = it) then 1 else 0 := by
  have hit : it ∈ e.audioBufferManagers.toList := hl.subset (by simp)
  obtain ⟨-, -, ⟨hq, hskipped⟩ | ⟨u, hq, hvec, -, hlisten, hfirst⟩⟩ :=
    produce_cases hg hl hp.counter
  · rw [hq, if_neg, Nat.add_zero]
    rintro ⟨⟨hlisten, hfirst⟩, -⟩
    exact hfirst (hskipped hlisten)
  · rw [hq, copies_append, copies_singleton, hvec]
    congr 1
    apply if_congr ?_ rfl rfl
    rw [mem_streamVec_iff hg hx hit]
    exact ⟨fun h => ⟨⟨hlisten, hfirst⟩, h⟩, fun h => h.2⟩

theorem Copied.produce {g : Gather} (hg : Gathered e e.audioBufferManagers.toList g)
    {l : List (Int × AudioBufferManager)} {it : Int × AudioBufferManager}
    (hl : l ++ [it] <+: e.audioBufferManagers.toList) {p : Produce} (hp : Produced e g l p)
    (h : Copied e l p) : Copied e (l ++ [it]) (e.produce g p it) := by
  refine ⟨?_, ?_⟩
  · intro x hx hm hlisten
    have hadds : ((it.1 ∈ e.audioMixerListeners ∧
          ¬ (it.2.muted = true ∧ p.muteStreamSend = true)) ∧
          if it.2.muted then x.2.muted = true else x = it) ↔ x = it := by
      constructor
      · rintro ⟨-, hx'⟩
        split at hx'
        · rw [hm] at hx'
          cases hx'
        · exact hx'
      · rintro rfl
        simp [hm, hlisten]
    rw [copies_produce hg hl hp hx, h.own x hx hm hlisten, if_congr hadds rfl rfl]
    by_cases hxit : x = it
    · have hfresh : x ∉ l := by
        intro hmem
        have hpair := (ids_distinct e).sublist hl.sublist
        exact (List.pairwise_append.mp hpair).2.2 x hmem it (by simp) (by rw [hxit])
      -- its turn is only now, so it had no copy before
      simp [hxit, hxit ▸ hfresh]
    · simp [hxit]
  · intro x hx hm
    have hany : l.any (fun it => it.2.muted) = true ↔ p.muteStreamSend = true := by
      rw [hp.send, List.any_eq_true]
    have hadds : ((it.1 ∈ e.audioMixerListeners ∧
          ¬ (it.2.muted = true ∧ p.muteStreamSend = true)) ∧
          if it.2.muted then x.2.muted = true else x = it) ↔
        ¬ p.muteStreamSend = true ∧ it.2.muted = true ∧ it.1 ∈ e.audioMixerListeners := by
      rcases hmit : it.2.muted with - | -
      · have hne : x ≠ it := by
          rintro rfl
          rw [hm] at hmit
          cases hmit
        simp [hne]
      · simp [hm, and_comm]
    rw [copies_produce hg hl hp hx, h.shared x hx hm, sharedSent_append, if_congr hadds rfl rfl]
    by_cases hsome : l.any (fun it => it.2.muted) = true
    · have hno : ¬ (¬ p.muteStreamSend = true ∧ it.2.muted = true ∧
          it.1 ∈ e.audioMixerListeners) := fun hadd => hadd.1 (hany.mp hsome)
      rw [if_pos hsome, if_neg hno, Nat.add_zero]
    · -- the first muted stream sends the packet of all, if somebody listens to it
      have hsend : ¬ p.muteStreamSend = true := fun hsend => hsome (hany.mpr hsend)
      rw [if_neg hsome, sharedSent_of_none hsome]
      simp [hsend]

theorem foldl_copied {g : Gather} (hg : Gathered e e.audioBufferManagers.toList g)
    {l : List (Int × AudioBufferManager)} (hl : l <+: e.audioBufferManagers.toList) :
    Copied e l (l.foldl (e.produce g) {}) := by
  induction l using List.reverseRecOn with
  | nil => exact ⟨by simp [copies], by simp [copies, sharedSent]⟩
  | append_singleton l it ih =>
    rw [List.foldl_append]
    have hprefix := (List.prefix_append l [it]).trans hl
    exact (ih hprefix).produce hg hl (foldl_produced hg hprefix)

theorem tick_copied (e : AudioMixerElement)
    (h : ∃ it ∈ e.audioBufferManagers.toList, e.contribution it.2 ≠ none) :
    ∃ p, e.tick.unencodedQueue = e.unencodedQueue ++ p.queue ∧
      Copied e e.audioBufferManagers.toList p := by
  rcases tick_cases e with ⟨-, hnone⟩ | hqueue
  · obtain ⟨it, hit, hsome⟩ := h
    exact absurd (hnone it hit) hsome
  · have hc := foldl_copied (gathered_header e (e.seq + 1) (e.ts + Int32.ofNat e.samples))
      (List.prefix_refl _)
    exact ⟨_, hqueue, hc.own, hc.shared⟩

/-- In a tick with a contributor, every stream with a buffer and a listener is in exactly one
of the packets queued if and only if the first muted stream has a listener or no muted stream
has one. -/
theorem fan_out_iff (e : AudioMixerElement)
    (h : ∃ it ∈ e.audioBufferManagers.toList, e.contribution it.2 ≠ none) :
    ∃ new, e.tick.unencodedQueue = e.unencodedQueue ++ new ∧
      (e.FannedOut new ↔ e.FirstMutedListens) := by
  obtain ⟨p, hqueue, hc⟩ := tick_copied e h
  refine ⟨p.queue, hqueue, ?_⟩
  constructor
  · intro hfan
    refine Classical.or_iff_not_imp_left.mpr ?_
    intro hsilent it hit hm hlisten
    push Not at hsilent
    obtain ⟨first, hfirst, hnone⟩ := hsilent
    have hnot : e.sharedSent e.audioBufferManagers.toList = false := by
      rw [sharedSent, hfirst]
      exact decide_eq_false hnone
    have hzero := hc.shared it hit hm
    rw [hnot, if_neg Bool.false_ne_true] at hzero
    have hone := hfan it hit hlisten
    omega
  · intro hcond it hit hlisten
    by_cases hm : it.2.muted = true
    · rcases hcond with hfirst | hnone
      · have hfind : (e.audioBufferManagers.toList.find? fun it => it.2.muted).isSome :=
          List.find?_isSome.mpr ⟨it, hit, hm⟩
        obtain ⟨first, hfind⟩ := Option.isSome_iff_exists.mp hfind
        have hsent : e.sharedSent e.audioBufferManagers.toList = true := by
          rw [sharedSent, hfind]
          exact decide_eq_true (hfirst first hfind)
        rw [hc.shared it hit hm, if_pos hsent]
      · exact absurd hlisten (hnone it hit hm)
    · rw [hc.own it hit (Bool.eq_false_of_not_eq_true hm) hlisten, if_pos hit]

/-- Two muted streams and one that talks. -/
def mutedRoom (listeners : List Int) : AudioMixerElement :=
  { samples := 1, audioMixerListeners := listeners
    audioBufferManagers := ((((∅ : Std.TreeMap Int AudioBufferManager).insert 1
      ⟨true, none⟩).insert 2 ⟨true, none⟩).insert 3 ⟨false, some ⟨1, [30000]⟩⟩) }

theorem fan_out_iff_muted_room :
    (mutedRoom [1, 2, 3]).contribution ⟨false, some ⟨1, [30000]⟩⟩ ≠ none ∧
      ∃ new, (mutedRoom [1, 2, 3]).tick.unencodedQueue = [] ++ new ∧
        ((mutedRoom [1, 2, 3]).FannedOut new ↔ (mutedRoom [1, 2, 3]).FirstMutedListens) :=
  ⟨by decide, fan_out_iff (mutedRoom [1, 2, 3])
    ⟨(3, ⟨false, some ⟨1, [30000]⟩⟩), by decide, by decide⟩⟩

/-- Nobody listens to the first muted stream: the second one, which has a listener, is in none
of the packets of the tick. -/
theorem fan_out_skips_a_muted_stream :
    (∃ it ∈ (mutedRoom [2, 3]).audioBufferManagers.toList,
      (mutedRoom [2, 3]).contribution it.2 ≠ none) ∧
    (2, ⟨true, none⟩) ∈ (mutedRoom [2, 3]).audioBufferManagers.toList ∧
    2 ∈ (mutedRoom [2, 3]).audioMixerListeners ∧
    (mutedRoom [2, 3]).unencodedQueue = [] ∧
    (mutedRoom [2, 3]).tick.unencodedQueue.map (fun u => u.streamVec) = [[3]] ∧
    ¬ (mutedRoom [2, 3]).FannedOut (mutedRoom [2, 3]).tick.unencodedQueue := by
  have hqueue : (mutedRoom [2, 3]).tick.unencodedQueue.map (fun u => u.streamVec) = [[3]] := by
    decide
  refine ⟨⟨(3, ⟨false, some ⟨1, [30000]⟩⟩), by decide, by decide⟩, by decide, by decide, rfl,
    hqueue, ?_⟩
  intro hfan
  have hone := hfan (2, ⟨true, none⟩) (by decide) (by decide)
  have hzero : copies (mutedRoom [2, 3]).tick.unencodedQueue 2 = 0 := by decide
  exact Nat.zero_ne_one (hzero.symm.trans hone)

end AudioMixerElement

end Orbit
