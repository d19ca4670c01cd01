/-
OrbitStream/AudioEncode.lean

The threads of the audio mixer (`AudioMixerElement` of `modules/audio_mixer_element.cc`).

The mixer thread ticks and queues what it has mixed.  Encode threads (`EncodeLoop`) take the packets
off the queue.  For each stream of a packet such a thread looks for the buffer of the stream, then
has the audio encoded, by the encoder of the first stream for which that works, and then hands
the result to the listener of the stream.  Between these three steps, for which it takes different
locks, the others go on: streams come, go and are muted, and the mixer ticks.  A tick itself is one
step: the mixer thread takes the lock of the listeners anew for each stream, but here they do not
change within a tick.

The encode threads are workers that take jobs from a queue (`simulates`).  So in every interleaving
a listener gets what was mixed for its stream, at most once a tick, and out of order only as far
as there are threads (`mixed_audio`).
-/
import OrbitStream.AudioMixer
import OrbitStream.Rtp
import OrbitStream.Lib.Workers

namespace Orbit.AudioEncode

open Lib AudioMixerElement

/-! ### The threads -/

/-- What the encoder of a stream is given. -/
inductive OpusInput
  | lossRate (percent : Int)
  | frame (samples : List Int16)
  deriving DecidableEq, Repr

/-- Where an encode thread is in the turn of a stream. -/
inductive Phase
  | search
  /-- the buffer of the stream was found, and has this encoder -/
  | found (codec : Nat)
  | encoded
  deriving DecidableEq, Repr

/-- The variables of `EncodeLoop`. -/
structure EncodeThread where
  /-- the number of its packet -/
  number : Nat := 0
  packet : UnencodedPacket := ⟨[], 0, 0, 0, []⟩
  /-- the streams that have not had their turn -/
  rest : List Int := []
  phase : Phase := .search
  /-- the encoded audio, after `is_encode` -/
  mixedPkt : Option (List UInt8) := none

/-- How the turn of a stream ends. -/
inductive Outcome
  | noBuffer
  | noListener
  | notEncoded
  | heard (packet : MediaOutputPacket)
  deriving DecidableEq, Repr

/-- The turn of a stream, for the packet with this number. -/
structure Turn where
  number : Nat
  stream : Int
  outcome : Outcome
  deriving DecidableEq, Repr

/-- A packet that was queued, in which tick, and what the mixer was before. -/
structure Made where
  tick : Nat
  mixer : AudioMixerElement
  packet : UnencodedPacket

/-- The mixer with its encode threads. -/
structure Mixing (n : Nat) where
  mixer : AudioMixerElement
  /-- the encoder of the buffer of a stream -/
  codecs : Int → Nat := fun _ => 0
  newCodec : Nat := 0
  /-- what each encoder was given -/
  inputs : Nat → List OpusInput := fun _ => []
  threads : Fin n → EncodeThread := fun _ => {}
  /-- how many ticks had something to mix -/
  ticks : Nat := 0
  made : List Made := []
  /-- how many packets were taken from the queue -/
  taken : Nat := 0
  turns : List Turn := []

/-- `AudioMixerElement::Start`, with an `AudioOption` of 48000 samples a second. -/
def start (n : Nat) : Mixing n := { mixer := { samples := 48000 / 100 } }

variable {n : Nat}

/-- The tick of a packet. -/
def Mixing.tickOf (s : Mixing n) (number : Nat) : Option Nat := (s.made[number]?).map Made.tick

/-- `AudioMixerElement::AddAudioBuffer`: nothing changes if the stream has a buffer. -/
def Mixing.addAudioBuffer (s : Mixing n) (stream : Int) : Mixing n :=
  match s.mixer.audioBufferManagers[stream]? with
  | some _ => s
  | none =>
      { s with
        mixer := { s.mixer with
          audioBufferManagers := s.mixer.audioBufferManagers.insert stream {} }
        codecs := Function.update s.codecs stream s.newCodec
        newCodec := s.newCodec + 1 }

/-- `AudioMixerElement::RemoveAudioBuffer`. -/
def Mixing.removeAudioBuffer (s : Mixing n) (stream : Int) : Mixing n :=
  { s with
    mixer := { s.mixer with audioBufferManagers := s.mixer.audioBufferManagers.erase stream } }

/-- `AudioMixerElement::PushPacket` and `AudioMixerElement::Mute`: what the buffer of a stream has
for the next tick is another, or it is muted. -/
def Mixing.setBuffer (s : Mixing n) (stream : Int) (manager : AudioBufferManager) : Mixing n :=
  match s.mixer.audioBufferManagers[stream]? with
  | none => s
  | some _ =>
      { s with
        mixer := { s.mixer with
          audioBufferManagers := s.mixer.audioBufferManagers.insert stream manager } }

/-- `AudioMixerElement::OnPacketLoss`, with `SetPacketLossPercent` of the buffer and its encoder. -/
def Mixing.onPacketLoss (s : Mixing n) (stream percent : Int) : Mixing n :=
  match s.mixer.audioBufferManagers[stream]? with
  | none => s
  | some _ =>
      if min (percent * 2) 100 < 20 then s
      else
        { s with
          inputs := Function.update s.inputs (s.codecs stream)
            (s.inputs (s.codecs stream) ++ [.lossRate (min (percent * 2) 100)]) }

/-- `AudioMixerElement::RegisterMixResultListener`. -/
def Mixing.registerMixResultListener (s : Mixing n) (stream : Int) : Mixing n :=
  if stream ∈ s.mixer.audioMixerListeners then s
  else
    { s with
      mixer := { s.mixer with
        audioMixerListeners := s.mixer.audioMixerListeners ++ [stream] } }

/-- `AudioMixerElement::UnregisterMixResultListener`. -/
def Mixing.unregisterMixResultListener (s : Mixing n) (stream : Int) : Mixing n :=
  { s with
    mixer := { s.mixer with
      audioMixerListeners := s.mixer.audioMixerListeners.filter fun x => x ≠ stream } }

/-- The packets that the next tick queues. -/
def Mixing.newPackets (s : Mixing n) : List UnencodedPacket :=
  s.mixer.tick.unencodedQueue.drop s.mixer.unencodedQueue.length

/-- One iteration of `MixPacketLoopWithMultiThread`, with the listeners that there are when it
begins. -/
def Mixing.tick (s : Mixing n) : Mixing n :=
  if s.mixer.gathered.packetCollections = [] then { s with mixer := s.mixer.tick }
  else
    { s with
      mixer := s.mixer.tick
      ticks := s.ticks + 1
      made := s.made ++ s.newPackets.map fun packet => ⟨s.ticks + 1, s.mixer, packet⟩ }

def Mixing.setThread (s : Mixing n) (i : Fin n) (t : EncodeThread) : Mixing n :=
  { s with threads := Function.update s.threads i t }

/-- The turn of the first stream ends. -/
def Mixing.endTurn (s : Mixing n) (i : Fin n) (stream : Int) (rest : List Int)
    (outcome : Outcome) : Mixing n :=
  { s with
    threads := Function.update s.threads i
      { s.threads i with rest := rest, phase := .search }
    turns := s.turns ++ [⟨(s.threads i).number, stream, outcome⟩] }

/-- A thread takes the next packet, if there is one. -/
def Mixing.tryTake (s : Mixing n) (i : Fin n) : Mixing n :=
  match s.mixer.unencodedQueue with
  | [] => s
  | packet :: queue =>
      { s with
        mixer := { s.mixer with unencodedQueue := queue }
        threads := Function.update s.threads i
          { number := s.taken, packet := packet, rest := packet.streamVec }
        taken := s.taken + 1 }

/-- All that an encoder was given, with the packet of a thread. -/
def Mixing.given (s : Mixing n) (i : Fin n) (codec : Nat) : List OpusInput :=
  s.inputs codec ++ [.frame ((s.threads i).packet.unencodedBuf.take 480)]

/-- `AudioBufferManager::EncodePacket`, unless the audio is encoded.  What the encoder makes depends
on all that it was given. -/
def Mixing.encodePacket (opus : List OpusInput → Option (List UInt8)) (s : Mixing n) (i : Fin n)
    (codec : Nat) : Mixing n :=
  match (s.threads i).mixedPkt with
  | some _ => s.setThread i { s.threads i with phase := .encoded }
  | none =>
      { s with
        inputs := Function.update s.inputs codec (s.given i codec)
        threads := Function.update s.threads i
          { s.threads i with phase := .encoded, mixedPkt := opus (s.given i codec) } }

/-- The next step of an encode thread. -/
def Mixing.encodeLoop (opus : List OpusInput → Option (List UInt8)) (s : Mixing n) (i : Fin n) :
    Mixing n :=
  match (s.threads i).rest with
  | [] => s.tryTake i
  | stream :: rest =>
      match (s.threads i).phase with
      | .search =>
          match s.mixer.audioBufferManagers[stream]? with
          | none => s.endTurn i stream rest .noBuffer
          | some _ => s.setThread i { s.threads i with phase := .found (s.codecs stream) }
      | .found codec => s.encodePacket opus i codec
      | .encoded =>
          if stream ∈ s.mixer.audioMixerListeners then
            match (s.threads i).mixedPkt with
            | none => s.endTurn i stream rest .notEncoded
            | some encodedBuf =>
                s.endTurn i stream rest (.heard
                  { timestamp := (s.threads i).packet.timestamp
                    seqNumber := (s.threads i).packet.seqNumber
                    endFrame := 0
                    ssrc := 0xFFFFFFFF
                    encodedBuf := encodedBuf })
          else s.endTurn i stream rest .noListener

/-- What can happen, in any order. -/
inductive Event (n : Nat)
  | addAudioBuffer (stream : Int)
  | removeAudioBuffer (stream : Int)
  | setBuffer (stream : Int) (manager : AudioBufferManager)
  | onPacketLoss (stream percent : Int)
  | registerMixResultListener (stream : Int)
  | unregisterMixResultListener (stream : Int)
  | tick
  | encodeLoop (i : Fin n)

def step (opus : List OpusInput → Option (List UInt8)) (s : Mixing n) : Event n → Mixing n
  | .addAudioBuffer stream => s.addAudioBuffer stream
  | .removeAudioBuffer stream => s.removeAudioBuffer stream
  | .setBuffer stream manager => s.setBuffer stream manager
  | .onPacketLoss stream percent => s.onPacketLoss stream percent
  | .registerMixResultListener stream => s.registerMixResultListener stream
  | .unregisterMixResultListener stream => s.unregisterMixResultListener stream
  | .tick => s.tick
  | .encodeLoop i => s.encodeLoop opus i

def run (opus : List OpusInput → Option (List UInt8)) (s : Mixing n) (events : List (Event n)) :
    Mixing n :=
  events.foldl (step opus) s

/-! ### The packets of a tick -/

section

variable {e : AudioMixerElement} {g : Gather}

/-- The streams of packets, one packet after the other. -/
def streamsOf (queue : List UnencodedPacket) : List Int := queue.flatMap UnencodedPacket.streamVec

theorem streamsOf_append (queue : List UnencodedPacket) (u : UnencodedPacket) :
    streamsOf (queue ++ [u]) = streamsOf queue ++ u.streamVec := by
  rw [streamsOf, List.flatMap_append, List.flatMap_singleton]
  rfl

/-- The packets that the second loop has made for these streams: each stream is in one of them
at most, a muted one only from the turn of the first muted stream on. -/
structure Apart (g : Gather) (l : List (Int × AudioBufferManager)) (p : Produce) : Prop where
  nodup : (streamsOf p.queue).Nodup
  passed : ∀ stream ∈ streamsOf p.queue, (∃ it ∈ l, it.2.muted = false ∧ it.1 = stream) ∨
    p.muteStreamSend = true ∧ stream ∈ g.vecStream

theorem nodup_vecStream (hg : Gathered e e.audioBufferManagers.toList g) : g.vecStream.Nodup := by
  rw [hg.muted, List.Nodup, List.pairwise_map]
  exact (ids_distinct e).sublist List.filter_sublist

theorem Apart.produce (hg : Gathered e e.audioBufferManagers.toList g)
    {l : List (Int × AudioBufferManager)} {it : Int × AudioBufferManager}
    (hl : l ++ [it] <+: e.audioBufferManagers.toList) {p : Produce}
    (hcounter : p.participantCounter = l.length) (h : Apart g l p) :
    Apart g (l ++ [it]) (e.produce g p it) := by
  obtain ⟨-, hsend, hqueue⟩ := produce_cases hg hl hcounter
  have hmem : ∀ x ∈ l ++ [it], x ∈ e.audioBufferManagers.toList := fun x hx => hl.subset hx
  have hit : it ∈ e.audioBufferManagers.toList := hmem it (by simp)
  have hkept : ∀ stream ∈ streamsOf p.queue,
      (∃ x ∈ l ++ [it], x.2.muted = false ∧ x.1 = stream) ∨
        (e.produce g p it).muteStreamSend = true ∧ stream ∈ g.vecStream := by
    intro stream hstream
    rcases h.passed stream hstream with ⟨x, hx, hrest⟩ | ⟨hp, hvec⟩
    · exact .inl ⟨x, List.mem_append_left _ hx, hrest⟩
    · rw [hsend, hp]
      exact .inr ⟨rfl, hvec⟩
  rcases hqueue with ⟨hq, -⟩ | ⟨u, hq, hvec, -, -, hfirst⟩
  · rw [← hq] at hkept
    exact ⟨hq ▸ h.nodup, hkept⟩
  · have hboth := streamsOf_append p.queue u
    rw [hvec] at hboth
    cases hm : it.2.muted with
    | true =>
      rw [hm, if_pos rfl] at hboth
      refine ⟨?_, ?_⟩
      · rw [hq, hboth]
        refine h.nodup.append (nodup_vecStream hg) fun stream hold hnew => ?_
        -- no muted stream was in a packet before
        rcases h.passed stream hold with ⟨x, hx, hxm, rfl⟩ | ⟨hp, -⟩
        · rw [mem_vecStream_iff hg (hmem x (List.mem_append_left _ hx)), hxm] at hnew
          cases hnew
        · exact hfirst ⟨hm, hp⟩
      · rw [hq, hboth]
        intro stream hstream
        rcases List.mem_append.mp hstream with hold | hnew
        · exact hkept stream hold
        · rw [hsend, hm, Bool.or_true]
          exact .inr ⟨rfl, hnew⟩
    | false =>
      rw [hm, if_neg Bool.false_ne_true] at hboth
      refine ⟨?_, ?_⟩
      · rw [hq, hboth]
        refine h.nodup.append (List.nodup_singleton _) fun stream hold hnew => ?_
        rw [List.mem_singleton.mp hnew] at hold
        rcases h.passed it.1 hold with ⟨x, hx, -, hid⟩ | ⟨-, hmuted⟩
        · have hpair := (ids_distinct e).sublist hl.sublist
          exact (List.pairwise_append.mp hpair).2.2 x hx it (by simp) hid
        · rw [mem_vecStream_iff hg hit, hm] at hmuted
          cases hmuted
      · rw [hq, hboth]
        intro stream hstream
        rcases List.mem_append.mp hstream with hold | hnew
        · exact hkept stream hold
        · exact .inl ⟨it, by simp, hm, (List.mem_singleton.mp hnew).symm⟩

theorem foldl_apart (hg : Gathered e e.audioBufferManagers.toList g)
    {l : List (Int × AudioBufferManager)} (hl : l <+: e.audioBufferManagers.toList) :
    Apart g l (l.foldl (e.produce g) {}) := by
  induction l using List.reverseRecOn with
  | nil => exact ⟨List.nodup_nil, nofun⟩
  | append_singleton l it ih =>
    rw [List.foldl_append]
    have hl' := (List.prefix_append l [it]).trans hl
    exact (ih hl').produce hg hl (foldl_produced hg hl').counter

/-- The second loop puts its numbers on each packet. -/
theorem produce_header (e : AudioMixerElement) (g : Gather) (p : Produce)
    (it : Int × AudioBufferManager) {u : UnencodedPacket} (hu : u ∈ (e.produce g p it).queue) :
    u ∈ p.queue ∨ u.seqNumber = e.seq.toUInt16 ∧ u.timestamp = e.ts.toUInt32 := by
  rw [produce] at hu
  split at hu
  · exact .inl hu
  · dsimp only at hu
    split at hu
    · rcases List.mem_append.mp hu with hu | hu
      · exact .inl hu
      · rw [List.mem_singleton.mp hu]
        exact .inr ⟨rfl, rfl⟩
    · exact .inl hu

theorem foldl_header (e : AudioMixerElement) (g : Gather) (l : List (Int × AudioBufferManager)) :
    ∀ u ∈ (l.foldl (e.produce g) {}).queue,
      u.seqNumber = e.seq.toUInt16 ∧ u.timestamp = e.ts.toUInt32 := by
  induction l using List.reverseRecOn with
  | nil => exact nofun
  | append_singleton l it ih =>
    rw [List.foldl_append]
    intro u hu
    rcases produce_header e g _ it hu with hu | hheader
    · exact ih u hu
    · exact hheader

/-- What a tick with something to mix queues. -/
structure Mixed (e : AudioMixerElement) (new : List UnencodedPacket) : Prop where
  nodup : (streamsOf new).Nodup
  others : ∀ u ∈ new, ∀ stream ∈ u.streamVec, u.unencodedBuf = e.mixOfOthers stream
  header : ∀ u ∈ new, u.seqNumber = (e.seq + 1).toUInt16 ∧
    u.timestamp = (e.ts + Int32.ofNat e.samples).toUInt32

/-- A tick changes nothing if there is nothing to mix. -/
theorem tick_of_nothing (h : e.gathered.packetCollections = []) : e.tick = e := by
  rw [AudioMixerElement.tick]
  split
  · rfl
  · rw [if_pos (List.length_eq_zero_iff.mpr h)]

/-- A tick with something to mix moves its numbers on and queues. -/
theorem tick_of_something (h : e.gathered.packetCollections ≠ []) :
    e.tick.samples = e.samples ∧ e.tick.seq = e.seq + 1 ∧
      e.tick.ts = e.ts + Int32.ofNat e.samples ∧
      ∃ new, e.tick.unencodedQueue = e.unencodedQueue ++ new ∧ Mixed e new := by
  have hcount : ¬e.audioBufferManagers.toList.length = 0 := by
    intro hcount
    refine h ?_
    rw [gathered, List.length_eq_zero_iff.mp hcount]
    rfl
  rw [AudioMixerElement.tick, if_neg hcount, if_neg fun hlen => h (List.length_eq_zero_iff.mp hlen)]
  refine ⟨rfl, rfl, rfl, _, rfl, ?_⟩
  have hg := gathered_header e (e.seq + 1) (e.ts + Int32.ofNat e.samples)
  have happart := foldl_apart hg (List.prefix_refl _)
  exact ⟨happart.nodup, (foldl_produced hg (List.prefix_refl _)).others, foldl_header _ _ _⟩

end

/-! ### The steps of a thread -/

section

variable {opus : List OpusInput → Option (List UInt8)} {s : Mixing n} {i : Fin n}

/-- A thread without streams takes a packet.  Otherwise it goes on with its first stream, has
its packet encoded, or ends the turn of the stream. -/
theorem encodeLoop_cases (opus : List OpusInput → Option (List UInt8)) (s : Mixing n) (i : Fin n) :
    ((s.threads i).rest = [] ∧ s.encodeLoop opus i = s.tryTake i) ∨
    ∃ stream rest, (s.threads i).rest = stream :: rest ∧
      ((∃ phase, s.encodeLoop opus i = s.setThread i { s.threads i with phase := phase }) ∨
      (∃ codec, s.encodeLoop opus i =
        { s with
          inputs := Function.update s.inputs codec (s.given i codec)
          threads := Function.update s.threads i
            { s.threads i with phase := .encoded, mixedPkt := opus (s.given i codec) } }) ∨
      ∃ outcome, s.encodeLoop opus i = s.endTurn i stream rest outcome ∧
        ∀ out, outcome = .heard out → out.timestamp = (s.threads i).packet.timestamp ∧
          out.seqNumber = (s.threads i).packet.seqNumber ∧
          (s.threads i).mixedPkt = some out.encodedBuf) := by
  rw [Mixing.encodeLoop]
  rcases hrest : (s.threads i).rest with - | ⟨stream, rest⟩
  · exact .inl ⟨rfl, rfl⟩
  · refine .inr ⟨stream, rest, rfl, ?_⟩
    dsimp only
    rcases (s.threads i).phase with - | codec | -
    · dsimp only
      rcases s.mixer.audioBufferManagers[stream]? with - | manager
      · exact .inr (.inr ⟨_, rfl, nofun⟩)
      · exact .inl ⟨_, rfl⟩
    · dsimp only
      rw [Mixing.encodePacket]
      split
      · exact .inl ⟨_, rfl⟩
      · exact .inr (.inl ⟨codec, rfl⟩)
    · refine .inr (.inr ?_)
      dsimp only
      split
      · rcases hmixed : (s.threads i).mixedPkt with - | encodedBuf
        · exact ⟨_, rfl, nofun⟩
        · refine ⟨_, rfl, ?_⟩
          rintro out ⟨rfl⟩
          exact ⟨rfl, rfl, rfl⟩
      · exact ⟨_, rfl, nofun⟩

/-! ### What holds in every run -/

/-- An encoder made this of the audio of a packet. -/
def EncodedFrom (opus : List OpusInput → Option (List UInt8)) (packet : UnencodedPacket)
    (encodedBuf : List UInt8) : Prop :=
  ∃ before, opus (before ++ [.frame (packet.unencodedBuf.take 480)]) = some encodedBuf

/-- The packet has the numbers of its tick, and for each of its streams the audio of the
others. -/
structure Made.Right (m : Made) : Prop where
  samples : m.mixer.samples = 480
  seqNumber : m.packet.seqNumber = UInt16.ofNat m.tick
  timestamp : m.packet.timestamp = UInt32.ofNat (480 * m.tick)
  others : ∀ stream ∈ m.packet.streamVec, m.packet.unencodedBuf = m.mixer.mixOfOthers stream

/-- The turns that a packet gives. -/
def Made.turns (m : Made) : List (Nat × Int) := m.packet.streamVec.map fun x => (m.tick, x)

/-- What a thread works on. -/
structure Works (opus : List OpusInput → Option (List UInt8)) (made : List Made)
    (t : EncodeThread) : Prop where
  packet : t.rest ≠ [] → ∃ m, made[t.number]? = some m ∧ t.packet = m.packet ∧
    t.rest <:+ m.packet.streamVec
  mixedPkt : ∀ encodedBuf, t.mixedPkt = some encodedBuf → EncodedFrom opus t.packet encodedBuf

/-- What a stream hears in its turn. -/
def Turn.Right (opus : List OpusInput → Option (List UInt8)) (made : List Made) (t : Turn) :
    Prop :=
  ∃ m, made[t.number]? = some m ∧ t.stream ∈ m.packet.streamVec ∧
    ∀ out, t.outcome = .heard out → out.timestamp = m.packet.timestamp ∧
      out.seqNumber = m.packet.seqNumber ∧ EncodedFrom opus m.packet out.encodedBuf

structure Inv (opus : List OpusInput → Option (List UInt8)) (s : Mixing n) : Prop where
  samples : s.mixer.samples = 480
  seq : s.mixer.seq = Int16.ofNat s.ticks
  ts : s.mixer.ts = Int32.ofNat (480 * s.ticks)
  queue : s.mixer.unencodedQueue = (s.made.drop s.taken).map Made.packet
  taken : s.taken ≤ s.made.length
  made : ∀ m ∈ s.made, m.Right
  ticks : ∀ m ∈ s.made, m.tick ≤ s.ticks
  nodup : (s.made.flatMap Made.turns).Nodup
  threads : ∀ i, Works opus s.made (s.threads i)
  turns : ∀ t ∈ s.turns, t.Right opus s.made

theorem inv_start (opus : List OpusInput → Option (List UInt8)) (n : Nat) :
    Inv opus (start n) :=
  ⟨rfl, rfl, rfl, rfl, Nat.le_refl _, nofun, nofun, List.nodup_nil,
    fun _ => ⟨fun h => absurd rfl h, nofun⟩, nofun⟩

theorem getElem?_append_of_some {made new : List Made} {k : Nat} {m : Made}
    (h : made[k]? = some m) : (made ++ new)[k]? = some m := by
  rw [List.getElem?_append_left (List.getElem?_eq_some_iff.mp h).1]
  exact h

theorem Works.append {made : List Made} {t : EncodeThread} (h : Works opus made t)
    (new : List Made) : Works opus (made ++ new) t := by
  refine ⟨fun hrest => ?_, h.mixedPkt⟩
  obtain ⟨m, hm, hpacket⟩ := h.packet hrest
  exact ⟨m, getElem?_append_of_some hm, hpacket⟩

theorem Turn.Right.append {made : List Made} {t : Turn} (h : t.Right opus made)
    (new : List Made) : t.Right opus (made ++ new) := by
  obtain ⟨m, hm, hturn⟩ := h
  exact ⟨m, getElem?_append_of_some hm, hturn⟩

/-- Buffers, listeners and encoders may change. -/
theorem Inv.settings (h : Inv opus s) (managers : Std.TreeMap Int AudioBufferManager)
    (listeners : List Int) (codecs : Int → Nat) (newCodec : Nat)
    (inputs : Nat → List OpusInput) :
    Inv opus
      { s with
        mixer := { s.mixer with
          audioBufferManagers := managers, audioMixerListeners := listeners }
        codecs := codecs, newCodec := newCodec, inputs := inputs } :=
  ⟨h.samples, h.seq, h.ts, h.queue, h.taken, h.made, h.ticks, h.nodup, h.threads, h.turns⟩

/-- What a tick queues has the numbers of the tick. -/
theorem Inv.right_of_mixed (h : Inv opus s) {new : List UnencodedPacket}
    (hnew : Mixed s.mixer new) : ∀ u ∈ new, (Made.mk (s.ticks + 1) s.mixer u).Right := by
  intro u hu
  obtain ⟨hseq, hts⟩ := hnew.header u hu
  refine ⟨h.samples, ?_, ?_, hnew.others u hu⟩
  · rw [h.seq] at hseq
    show u.seqNumber = UInt16.ofNat (s.ticks + 1)
    rw [hseq, UInt16.ofNat_add]
    rfl
  · rw [h.ts, h.samples] at hts
    show u.timestamp = UInt32.ofNat (480 * (s.ticks + 1))
    rw [hts, Nat.mul_add, UInt32.ofNat_add]
    rfl

/-- The turns of a tick are new ones. -/
theorem Inv.nodup_tick (h : Inv opus s) {new : List UnencodedPacket}
    (hnew : (streamsOf new).Nodup) :
    ((s.made ++ new.map fun u => Made.mk (s.ticks + 1) s.mixer u).flatMap Made.turns).Nodup := by
  have hturns : (new.map fun u => Made.mk (s.ticks + 1) s.mixer u).flatMap Made.turns =
      (streamsOf new).map fun x => (s.ticks + 1, x) := by
    rw [List.flatMap_map, streamsOf, List.map_flatMap]
    rfl
  rw [List.flatMap_append, hturns]
  refine h.nodup.append (hnew.map fun x y hxy => (Prod.mk.inj hxy).2) fun turn hold hlast => ?_
  obtain ⟨m, hm, hturn⟩ := List.mem_flatMap.mp hold
  obtain ⟨x, -, rfl⟩ := List.mem_map.mp hturn
  obtain ⟨y, -, hy⟩ := List.mem_map.mp hlast
  exact Nat.not_succ_le_self _ ((Prod.mk.inj hy).1 ▸ h.ticks m hm)

theorem Inv.tick (h : Inv opus s) : Inv opus s.tick := by
  rw [Mixing.tick]
  split
  · rename_i hnothing
    rw [tick_of_nothing hnothing]
    exact h
  · rename_i hsomething
    obtain ⟨hsamples, hseq, hts, new, hqueue, hnew⟩ := tick_of_something hsomething
    have hpackets : s.newPackets = new := by
      rw [Mixing.newPackets, hqueue, List.drop_left]
    rw [hpackets]
    refine ⟨hsamples.trans h.samples, ?_, ?_, ?_, ?_, ?_, ?_, h.nodup_tick hnew.nodup,
      fun i => (h.threads i).append _, fun t ht => (h.turns t ht).append _⟩
    · show _ = Int16.ofNat (s.ticks + 1)
      rw [hseq, h.seq, Int16.ofNat_add]
      rfl
    · show _ = Int32.ofNat (480 * (s.ticks + 1))
      rw [hts, h.ts, h.samples, Nat.mul_add, Int32.ofNat_add]
    · show s.mixer.tick.unencodedQueue = ((s.made ++ _).drop s.taken).map Made.packet
      rw [hqueue, h.queue, List.drop_append_of_le_length h.taken, List.map_append, List.map_map]
      congr 1
      exact (List.map_id new).symm
    · show s.taken ≤ (s.made ++ _).length
      rw [List.length_append]
      exact Nat.le_add_right_of_le h.taken
    · intro m hm
      rcases List.mem_append.mp hm with hm | hm
      · exact h.made m hm
      · obtain ⟨u, hu, rfl⟩ := List.mem_map.mp hm
        exact h.right_of_mixed hnew u hu
    · intro m hm
      rcases List.mem_append.mp hm with hm | hm
      · exact Nat.le_succ_of_le (h.ticks m hm)
      · obtain ⟨u, -, rfl⟩ := List.mem_map.mp hm
        exact Nat.le_refl _

theorem Inv.setThread (h : Inv opus s) {t : EncodeThread} (ht : Works opus s.made t) :
    Inv opus (s.setThread i t) := by
  refine ⟨h.samples, h.seq, h.ts, h.queue, h.taken, h.made, h.ticks, h.nodup, ?_, h.turns⟩
  exact (Function.forall_update_iff s.threads fun _ t => Works opus s.made t).mpr
    ⟨ht, fun j _ => h.threads j⟩

/-- The first packet of the queue is the next that was made. -/
theorem Inv.next (h : Inv opus s) {packet : UnencodedPacket} {queue : List UnencodedPacket}
    (hqueue : s.mixer.unencodedQueue = packet :: queue) :
    ∃ m, s.made[s.taken]? = some m ∧ m.packet = packet ∧
      queue = (s.made.drop (s.taken + 1)).map Made.packet := by
  rw [h.queue] at hqueue
  obtain ⟨m, made, hdrop, rfl, rfl⟩ := List.map_eq_cons_iff.mp hqueue
  refine ⟨m, ?_, rfl, ?_⟩
  · rw [← List.head?_drop, hdrop]
    rfl
  · rw [← List.tail_drop, hdrop]
    rfl

theorem Inv.tryTake (h : Inv opus s) : Inv opus (s.tryTake i) := by
  rw [Mixing.tryTake]
  rcases hqueue : s.mixer.unencodedQueue with - | ⟨packet, queue⟩
  · exact h
  · obtain ⟨m, hm, rfl, hrest⟩ := h.next hqueue
    refine ⟨h.samples, h.seq, h.ts, hrest, (List.getElem?_eq_some_iff.mp hm).1, h.made, h.ticks,
      h.nodup, ?_, h.turns⟩
    exact (Function.forall_update_iff s.threads fun _ t => Works opus s.made t).mpr
      ⟨⟨fun _ => ⟨m, hm, rfl, List.suffix_refl _⟩, nofun⟩, fun j _ => h.threads j⟩

theorem Inv.endTurn (h : Inv opus s) {stream : Int} {rest : List Int} {outcome : Outcome}
    (hrest : (s.threads i).rest = stream :: rest)
    (hout : ∀ out, outcome = .heard out → out.timestamp = (s.threads i).packet.timestamp ∧
      out.seqNumber = (s.threads i).packet.seqNumber ∧
      (s.threads i).mixedPkt = some out.encodedBuf) :
    Inv opus (s.endTurn i stream rest outcome) := by
  have hthread := h.threads i
  obtain ⟨m, hm, hpacket, hsuffix⟩ := hthread.packet (by rw [hrest]; exact List.cons_ne_nil _ _)
  rw [hrest] at hsuffix
  refine ⟨h.samples, h.seq, h.ts, h.queue, h.taken, h.made, h.ticks, h.nodup, ?_, ?_⟩
  · refine (Function.forall_update_iff s.threads fun _ t => Works opus s.made t).mpr
      ⟨⟨fun _ => ⟨m, hm, hpacket, ?_⟩, hthread.mixedPkt⟩, fun j _ => h.threads j⟩
    exact (List.suffix_cons stream rest).trans hsuffix
  · intro t ht
    rcases List.mem_append.mp ht with ht | ht
    · exact h.turns t ht
    · rw [List.mem_singleton.mp ht]
      refine ⟨m, hm, hsuffix.subset List.mem_cons_self, fun out hheard => ?_⟩
      obtain ⟨hts, hseq, hmixed⟩ := hout out hheard
      rw [← hpacket]
      exact ⟨hts, hseq, hthread.mixedPkt _ hmixed⟩

theorem Inv.encodeLoop (h : Inv opus s) : Inv opus (s.encodeLoop opus i) := by
  have hthread := h.threads i
  rcases encodeLoop_cases opus s i with ⟨-, heq⟩ |
    ⟨stream, rest, hrest, ⟨phase, heq⟩ | ⟨codec, heq⟩ | ⟨outcome, heq, hout⟩⟩
  · rw [heq]
    exact h.tryTake
  · rw [heq]
    exact h.setThread ⟨hthread.packet, hthread.mixedPkt⟩
  · rw [heq]
    have hgiven := h.settings s.mixer.audioBufferManagers s.mixer.audioMixerListeners s.codecs
      s.newCodec (Function.update s.inputs codec (s.given i codec))
    exact hgiven.setThread ⟨hthread.packet, fun encodedBuf hbuf => ⟨_, hbuf⟩⟩
  · rw [heq]
    exact h.endTurn hrest hout

theorem Inv.step (h : Inv opus s) (event : Event n) : Inv opus (step opus s event) := by
  cases event with
  | addAudioBuffer stream =>
    show Inv opus (s.addAudioBuffer stream)
    rw [Mixing.addAudioBuffer]
    split
    · exact h
    · exact h.settings _ _ _ _ _
  | removeAudioBuffer stream => exact h.settings _ _ _ _ _
  | setBuffer stream manager =>
    show Inv opus (s.setBuffer stream manager)
    rw [Mixing.setBuffer]
    split
    · exact h
    · exact h.settings _ _ _ _ _
  | onPacketLoss stream percent =>
    show Inv opus (s.onPacketLoss stream percent)
    rw [Mixing.onPacketLoss]
    split
    · exact h
    · split
      · exact h
      · exact h.settings _ _ _ _ _
  | registerMixResultListener stream =>
    show Inv opus (s.registerMixResultListener stream)
    rw [Mixing.registerMixResultListener]
    split
    · exact h
    · exact h.settings _ _ _ _ _
  | unregisterMixResultListener stream => exact h.settings _ _ _ _ _
  | tick => exact h.tick
  | encodeLoop i => exact h.encodeLoop

theorem inv_run (opus : List OpusInput → Option (List UInt8)) (n : Nat)
    (events : List (Event n)) : Inv opus (run opus (start n) events) := by
  induction events using List.reverseRecOn with
  | nil => exact inv_start opus n
  | append_singleton events event ih =>
    rw [run, List.foldl_append]
    exact ih.step event

/-! ### Workers -/

/-- The encode threads as workers; the jobs are the packets, the tasks the turns of streams. -/
def Mixing.workers (s : Mixing n) : Workers (Fin n) Int where
  jobs := s.made.map fun m => m.packet.streamVec
  taken := s.taken
  work := (fun t => (t.number, t.rest)) ∘ s.threads
  done := s.turns.map fun t => (t.number, t.stream)

theorem workers_setThread (s : Mixing n) (i : Fin n) (t : EncodeThread) :
    (s.setThread i t).workers =
      { s.workers with work := Function.update s.workers.work i (t.number, t.rest) } := by
  show Workers.mk _ _ ((fun t => (t.number, t.rest)) ∘ Function.update s.threads i t) _ = _
  rw [Function.comp_update]
  rfl

/-- A thread that keeps its number and its streams does nothing as a worker. -/
theorem workers_same (s : Mixing n) (i : Fin n) {t : EncodeThread}
    (hnumber : t.number = (s.threads i).number) (hrest : t.rest = (s.threads i).rest) :
    (s.setThread i t).workers = s.workers := by
  rw [workers_setThread, hnumber, hrest]
  show Workers.mk _ _ (Function.update s.workers.work i (s.workers.work i)) _ = _
  rw [Function.update_eq_self]

theorem simulates_encodeLoop (h : Inv opus s) :
    Relation.ReflTransGen Workers.Step s.workers (s.encodeLoop opus i).workers := by
  rcases encodeLoop_cases opus s i with ⟨hrest, heq⟩ |
    ⟨stream, rest, hrest, ⟨phase, heq⟩ | ⟨codec, heq⟩ | ⟨outcome, heq, -⟩⟩
  · rw [heq, Mixing.tryTake]
    rcases hqueue : s.mixer.unencodedQueue with - | ⟨packet, queue⟩
    · exact .refl
    · obtain ⟨m, hm, rfl, -⟩ := h.next hqueue
      have hjob : s.workers.jobs[s.workers.taken]? = some m.packet.streamVec := by
        show (s.made.map _)[s.taken]? = _
        rw [List.getElem?_map, hm]
        rfl
      have htake := Workers.Step.take s.workers i hrest hjob
      have hwork := workers_setThread s i
        { number := s.taken, packet := m.packet, rest := m.packet.streamVec }
      refine .single ?_
      convert htake using 1
      exact congrArg (fun w => { w with taken := s.taken + 1 }) hwork
  · have hsame : (s.setThread i { s.threads i with phase := phase }).workers = s.workers :=
      workers_same s i rfl rfl
    rw [heq, hsame]
  · have hsame : (s.setThread i { s.threads i with
        phase := .encoded, mixedPkt := opus (s.given i codec) }).workers = s.workers :=
      workers_same s i rfl rfl
    rw [heq]
    show Relation.ReflTransGen Workers.Step s.workers (s.setThread i _).workers
    rw [hsame]
  · rw [heq]
    have hwork : s.workers.work i = ((s.threads i).number, stream :: rest) := by
      show ((s.threads i).number, (s.threads i).rest) = _
      rw [hrest]
    have hperform := Workers.Step.perform s.workers i hwork
    have hthread := workers_setThread s i { s.threads i with rest := rest, phase := .search }
    refine .single ?_
    convert hperform using 1
    have hturns : (s.turns ++ [Turn.mk (s.threads i).number stream outcome]).map
        (fun t => (t.number, t.stream)) = s.workers.done ++ [((s.threads i).number, stream)] :=
      List.map_append
    show Workers.mk _ _ (s.setThread i _).workers.work ((s.turns ++ _).map _) = _
    rw [hthread, hturns]
    rfl

/-- Each event is steps of the workers. -/
theorem simulates (h : Inv opus s) (event : Event n) :
    Relation.ReflTransGen Workers.Step s.workers (step opus s event).workers := by
  cases event with
  | addAudioBuffer stream =>
    show Relation.ReflTransGen Workers.Step s.workers (s.addAudioBuffer stream).workers
    rw [Mixing.addAudioBuffer]
    split
    · exact .refl
    · exact .refl
  | removeAudioBuffer stream => exact .refl
  | setBuffer stream manager =>
    show Relation.ReflTransGen Workers.Step s.workers (s.setBuffer stream manager).workers
    rw [Mixing.setBuffer]
    split
    · exact .refl
    · exact .refl
  | onPacketLoss stream percent =>
    show Relation.ReflTransGen Workers.Step s.workers (s.onPacketLoss stream percent).workers
    rw [Mixing.onPacketLoss]
    split
    · exact .refl
    · split
      · exact .refl
      · exact .refl
  | registerMixResultListener stream =>
    show Relation.ReflTransGen Workers.Step s.workers (s.registerMixResultListener stream).workers
    rw [Mixing.registerMixResultListener]
    split
    · exact .refl
    · exact .refl
  | unregisterMixResultListener stream => exact .refl
  | tick =>
    show Relation.ReflTransGen Workers.Step s.workers s.tick.workers
    rw [Mixing.tick]
    split
    · exact .refl
    · have hjobs := Workers.queue_all s.workers (s.newPackets.map UnencodedPacket.streamVec)
      convert hjobs using 1
      show Workers.mk ((s.made ++ _).map _) _ _ _ = _
      rw [List.map_append, List.map_map]
      rfl
  | encodeLoop i => exact simulates_encodeLoop h

theorem reachable_workers (opus : List OpusInput → Option (List UInt8)) (n : Nat)
    (events : List (Event n)) : (run opus (start n) events).workers.Reachable := by
  induction events using List.reverseRecOn with
  | nil => exact .refl
  | append_singleton events event ih =>
    rw [run, List.foldl_append]
    exact ih.trans (simulates (inv_run opus n events) event)

/-! ### What the listeners hear -/

/-- The tasks of the workers are the turns of the packets, with their ticks. -/
theorem labels_turns {made : List Made} {tickOf : Nat → Option Nat} {k : Nat}
    (h : ∀ j m, made[j]? = some m → tickOf (k + j) = some m.tick) :
    (Workers.labels k (made.map fun m => m.packet.streamVec)).map
        (fun x => (tickOf x.1, x.2)) =
      (made.flatMap Made.turns).map fun x => (some x.1, x.2) := by
  induction made generalizing k with
  | nil => rfl
  | cons m made ih =>
    have hrest := @ih (k + 1) fun j m' hm' => by
      rw [Nat.add_right_comm]
      exact h (j + 1) m' hm'
    have hfirst : tickOf k = some m.tick := h 0 m rfl
    show (Workers.label (k, m.packet.streamVec) ++ Workers.labels (k + 1) (made.map _)).map _ =
      (m.turns ++ made.flatMap Made.turns).map _
    rw [List.map_append, List.map_append, hrest, Workers.label, Made.turns, List.map_map,
      List.map_map]
    congr 1
    apply List.map_congr_left
    intro stream _
    show (tickOf k, stream) = _
    rw [hfirst]
    rfl

/-- Nobody has two turns in a tick. -/
theorem nodup_turns (h : Inv opus s) (hrun : s.workers.Reachable) :
    (s.turns.map fun t => (s.tickOf t.number, t.stream)).Nodup := by
  obtain ⟨turns, hperm, hsub⟩ := hrun.done_subperm
  have hlabels := @labels_turns s.made s.tickOf 0 fun j m hm => by
    rw [Mixing.tickOf, Nat.zero_add, hm]
    rfl
  have hnodup : (s.workers.done.map fun x => (s.tickOf x.1, x.2)).Nodup := by
    refine (hperm.map _).nodup_iff.mp ((hsub.map _).nodup ?_)
    show ((Workers.labels 0 (s.made.map _)).map _).Nodup
    rw [hlabels]
    refine h.nodup.map fun x y hxy => ?_
    obtain ⟨htick, hstream⟩ := Prod.mk.inj hxy
    exact Prod.ext (Option.some.inj htick) hstream
  have hdone : s.workers.done.map (fun x => (s.tickOf x.1, x.2)) =
      s.turns.map fun t => (s.tickOf t.number, t.stream) := by
    show (s.turns.map _).map _ = _
    rw [List.map_map]
    rfl
  rw [← hdone]
  exact hnodup

/-- What a stream hears was mixed for it. -/
theorem Turn.Right.heard (h : Inv opus s) {t : Turn} (ht : t.Right opus s.made) :
    ∃ m, s.made[t.number]? = some m ∧ t.stream ∈ m.packet.streamVec ∧
      ∀ out, t.outcome = .heard out → out.seqNumber = UInt16.ofNat m.tick ∧
        out.timestamp = UInt32.ofNat (480 * m.tick) ∧
        ∃ before, opus (before ++ [.frame (m.mixer.mixOfOthers t.stream)]) =
          some out.encodedBuf := by
  obtain ⟨m, hm, hstream, hout⟩ := ht
  refine ⟨m, hm, hstream, fun out hheard => ?_⟩
  obtain ⟨hts, hseq, before, hbefore⟩ := hout out hheard
  have hright := h.made m (List.mem_of_getElem? hm)
  have hlength : (m.mixer.mixOfOthers t.stream).length ≤ 480 := by
    rw [mixOfOthers, List.length_map, List.length_range, hright.samples]
  rw [hright.others _ hstream, List.take_of_length_le hlength] at hbefore
  exact ⟨hseq.trans hright.seqNumber, hts.trans hright.timestamp, before, hbefore⟩

/-- **The audio of a conference.**  In every interleaving of the mixer, its encode threads, and
streams that come, go, are muted and get listeners: what a listener is given has the number and
the time of a tick, and is encoded from the sum of the other streams in that tick.  No stream has
two turns in a tick, and each that a packet was made for has had its turn once the threads are
done.  Behind a turn there come turns of fewer earlier packets than there are encode threads, so
with one thread all is in order. -/
theorem mixed_audio (opus : List OpusInput → Option (List UInt8)) (n : Nat)
    (events : List (Event n)) :
    let s := run opus (start n) events
    (∀ t ∈ s.turns, ∃ m, s.made[t.number]? = some m ∧ t.stream ∈ m.packet.streamVec ∧
      ∀ out, t.outcome = .heard out → out.seqNumber = UInt16.ofNat m.tick ∧
        out.timestamp = UInt32.ofNat (480 * m.tick) ∧
        ∃ before, opus (before ++ [.frame (m.mixer.mixOfOthers t.stream)]) =
          some out.encodedBuf) ∧
    (s.turns.map fun t => (s.tickOf t.number, t.stream)).Nodup ∧
    ((∀ i, (s.threads i).rest = []) → s.mixer.unencodedQueue = [] →
      ∀ k m, s.made[k]? = some m → ∀ stream ∈ m.packet.streamVec,
        ∃ t ∈ s.turns, t.number = k ∧ t.stream = stream) ∧
    ∀ before t after, s.turns = before ++ t :: after →
      ∃ late : Finset Nat, late.card < n ∧
        ∀ t' ∈ after, t'.number < t.number → t'.number ∈ late := by
  intro s
  have hinv : Inv opus s := inv_run opus n events
  have hrun : s.workers.Reachable := reachable_workers opus n events
  refine ⟨fun t ht => (hinv.turns t ht).heard hinv, nodup_turns hinv hrun, ?_, ?_⟩
  · intro hidle hqueue k m hm stream hstream
    have hall : s.workers.taken = s.workers.jobs.length := by
      show s.taken = (s.made.map _).length
      rw [hinv.queue, List.map_eq_nil_iff, List.drop_eq_nil_iff] at hqueue
      rw [List.length_map]
      exact Nat.le_antisymm hinv.taken hqueue
    have hjob : s.workers.jobs[k]? = some m.packet.streamVec := by
      show (s.made.map _)[k]? = _
      rw [List.getElem?_map, hm]
      rfl
    have htask := Workers.mem_labels hjob hstream 0
    rw [← (hrun.done_perm hidle hall).mem_iff, Nat.zero_add] at htask
    obtain ⟨t, ht, heq⟩ := List.mem_map.mp htask
    exact ⟨t, ht, (Prod.mk.inj heq).1, (Prod.mk.inj heq).2⟩
  · intro before t after hturns
    have hdone : s.workers.done = before.map (fun t => (t.number, t.stream)) ++
        (t.number, t.stream) :: after.map fun t => (t.number, t.stream) := by
      show s.turns.map _ = _
      rw [hturns, List.map_append]
      rfl
    obtain ⟨late, hfew, hlate⟩ := hrun.overtaken hdone
    rw [Fintype.card_fin] at hfew
    exact ⟨late, hfew, fun t' ht' hlt => hlate _ (List.mem_map_of_mem ht') hlt⟩

end

end Orbit.AudioEncode
