/-
OrbitStream/DispatcherRoom.lean

The room of a video dispatcher (`video_dispatcher/video_dispatcher_room.cc`, on
top of `Room` in `transport_plugin.h`).

The room forwards the packets of one participant, the publisher, to all others.
The publisher is remembered twice: by its stream id, and by its position in the
vector of participants, which the forwarding loop and the key frame requests use
as an index without looking at the size of the vector.

A participant that leaves is erased from the middle of the vector, and the
positions behind it move down; only the publisher's own leaving resets its
position.  So the position goes stale exactly when somebody leaves who stands in
front of the publisher (`removeParticipant_publisher`), and then names a wrong
participant or none (`remove_moves_the_publisher`).
-/
import OrbitStream.Lib.Run
import OrbitStream.Rtp

namespace Orbit

open Lib

/-- A `VideoDispatcherPlugin *`: its address, and the stream id it answers with. -/
structure Plugin where
  address : Nat
  streamId : Int
  deriving DecidableEq, Repr

/-- `MAX_DISPATCHER_PARTICIPANT_COUNT`. -/
def maxDispatcherParticipantCount : Nat := 100

/-- The local variables of the forwarding thread. -/
structure ForwardLoop where
  seq : Int16 := 0
  ts : Int32 := 0
  lastTs : Int32 := 0
  baseTs : Int32 := -1
  lastSeq : Int16 := 0
  baseSeq : Int16 := -1
  framekeyTimeout : Int := 0

/-- The output numbers of a packet. -/
def ForwardLoop.rewrite (l : ForwardLoop) (data : List UInt8) : ForwardLoop :=
  let h := RtpHeader.getSeqNumber data
  let t := RtpHeader.getTimestamp data
  let baseSeq := if l.baseSeq = -1 then h.toInt16 else l.baseSeq
  let baseTs := if l.baseTs = -1 then t.toInt32 else l.baseTs
  { l with
    baseSeq := baseSeq
    seq := Int16.ofInt (l.lastSeq.toInt + ((h.toNat : Int) - baseSeq.toInt))
    baseTs := baseTs
    ts := l.lastTs + (t.toInt32 - baseTs) }

/-- The packet handed to the subscribers. -/
def ForwardLoop.output (l : ForwardLoop) (packet : DataPacket) : MediaOutputPacket where
  timestamp := l.ts.toUInt32
  seqNumber := l.seq.toUInt16
  endFrame := RtpHeader.getMarker packet.data
  ssrc := 0xFFFFFFFF
  encodedBuf := (packet.data.drop 12).take (packet.length - 12)

/-- What the room hands to its plugins. -/
inductive Dispatch
  /-- `RelayRtcpPacket`: a FIR with this number and a PLI -/
  | fir (plugin : Plugin) (seqnr : Int)
  /-- `RelayMediaOutputPacket` -/
  | video (plugin : Plugin) (packet : MediaOutputPacket)
  /-- `RelayRtpVideoPacket` of the live stream -/
  | webcast (packet : MediaOutputPacket)
  deriving DecidableEq, Repr

/-- `VideoDispatcherRoom` and its forwarding thread. -/
structure VideoDispatcherRoom where
  plugins : List Plugin := []
  running : Bool := false
  publisherStreamId : Int := -1
  currentViewer : Int := -1
  firSeq : List Int := List.replicate maxDispatcherParticipantCount 0
  lastFirTime : Int := 0
  useWebcast : Bool := false
  loop : ForwardLoop := {}
  dispatched : List Dispatch := []

namespace VideoDispatcherRoom

/-- The vector of participants is read behind its end. -/
inductive Fault
  | outOfRange (index : Int)
  deriving DecidableEq, Repr

/-- `participants[i]`. -/
def participant (r : VideoDispatcherRoom) (i : Int) : Except Fault Plugin :=
  if 0 ≤ i then
    match r.plugins[i.toNat]? with
    | some p => .ok p
    | none => .error (.outOfRange i)
  else .error (.outOfRange i)

/-- `VideoDispatcherRoom::Start`, and the thread up to its loop. -/
def start (r : VideoDispatcherRoom) (now : Int) : VideoDispatcherRoom :=
  { r with running := true, loop := { framekeyTimeout := now } }

/-- `VideoDispatcherRoom::Destroy`. -/
def destroy (r : VideoDispatcherRoom) : VideoDispatcherRoom :=
  { r with running := false }

/-- `VideoDispatcherRoom::SetupLiveStream`. -/
def setupLiveStream (r : VideoDispatcherRoom) (support : Bool) : VideoDispatcherRoom :=
  { r with useWebcast := support }

/-- `VideoDispatcherRoom::AddParticipant`. -/
def addParticipant (r : VideoDispatcherRoom) (plugin : Plugin) : VideoDispatcherRoom :=
  { r with plugins := r.plugins ++ [plugin] }

/-- The position of a plugin in the vector, its length if it is not there. -/
def position (r : VideoDispatcherRoom) (plugin : Plugin) : Nat :=
  r.plugins.findIdx fun p => p.address = plugin.address

/-- `VideoDispatcherRoom::RemoveParticipant`. -/
def removeParticipant (r : VideoDispatcherRoom) (plugin : Plugin) : VideoDispatcherRoom :=
  let r :=
    if plugin.streamId = r.publisherStreamId then { r with currentViewer := -1 } else r
  { r with plugins := r.plugins.eraseIdx (r.position plugin) }

/-- `VideoDispatcherRoom::SendFirPacket`. -/
def sendFirPacket (r : VideoDispatcherRoom) (viewer : Int) : Except Fault VideoDispatcherRoom :=
  if viewer < 0 ∨ viewer > maxDispatcherParticipantCount - 1 then .ok r
  else do
    let fir := janusRtcpFirSeq (r.firSeq.getD viewer.toNat 0)
    let p ← r.participant viewer
    return { r with
      firSeq := r.firSeq.set viewer.toNat fir
      dispatched := r.dispatched ++ [.fir p fir] }

/-- `VideoDispatcherRoom::SendFirPacketToViewer`, through `SwitchPublisher`. -/
def sendFirPacketToViewer (r : VideoDispatcherRoom) : Except Fault VideoDispatcherRoom :=
  r.sendFirPacket r.currentViewer

/-- One turn of the loop of `ProcessMessage`, with the flag `success`. -/
def setPublisher (stream : Int) (x : VideoDispatcherRoom × Bool) (p : Plugin × Nat) :
    Except Fault (VideoDispatcherRoom × Bool) :=
  if stream = p.1.streamId then do
    let r := { x.1 with publisherStreamId := stream, currentViewer := p.2 }
    return (← r.sendFirPacket p.2, true)
  else .ok x

/-- `VideoDispatcherRoom::ProcessMessage`, with the value it returns; 2 is the
message that sets the publisher. -/
def processMessage (r : VideoDispatcherRoom) (stream : Int) (messageType : Int) :
    Except Fault (VideoDispatcherRoom × Bool) :=
  if messageType = 2 then r.plugins.zipIdx.foldlM (setPublisher stream) (r, false)
  else .ok (r, false)

/-- `VideoDispatcherRoom::RequestFirPacket`. -/
def requestFirPacket (r : VideoDispatcherRoom) (stream now : Int) :
    Except Fault VideoDispatcherRoom :=
  if r.currentViewer ≠ -1 ∧ stream ≠ r.publisherStreamId then
    if now < r.lastFirTime + 2000 then .ok r
    else
      -- the room asks for a key frame every two seconds at most
      { r with lastFirTime := now }.sendFirPacket r.currentViewer
  else .ok r

/-! ### The forwarding loop -/

/-- The publisher's packet goes to everybody else, and to the live stream. -/
def publish (r : VideoDispatcherRoom) (packet : DataPacket) (webcast : Bool) :
    VideoDispatcherRoom :=
  let loop := r.loop.rewrite packet.data
  let out := loop.output packet
  let subscribers := r.plugins.zipIdx.filter fun p => (p.2 : Int) ≠ r.currentViewer
  { r with
    loop := loop
    dispatched := r.dispatched ++ subscribers.map (fun p => .video p.1 out)
      ++ if r.useWebcast ∧ webcast then [.webcast out] else [] }

/-- The key frame request that the loop makes every ten seconds. -/
def forceFir (r : VideoDispatcherRoom) (now : Int) : Except Fault VideoDispatcherRoom :=
  if now - r.loop.framekeyTimeout > 10000 then
    let r := { r with loop := { r.loop with framekeyTimeout := now } }
    r.sendFirPacket r.currentViewer
  else .ok r

/-- One iteration of `SelectiveVideoForward` under the lock.  `packet` is what
the queue of the publisher yields, `webcast` whether the live stream is
started. -/
def selectiveVideoForward (r : VideoDispatcherRoom) (now : Int) (packet : Option DataPacket)
    (webcast : Bool) : Except Fault VideoDispatcherRoom :=
  if r.running = false ∨ r.plugins.length = 0 ∨ r.currentViewer = -1 then .ok r
  else do
    let r ← r.forceFir now
    let _ ← r.participant r.currentViewer
    match packet with
    | none => return r
    | some p => return if p.length ≠ 0 then r.publish p webcast else r

/-! ### Runs -/

/-- The operations of the room, and the iterations of its thread. -/
inductive Op
  | start (now : Int)
  | destroy
  | setupLiveStream (support : Bool)
  | addParticipant (plugin : Plugin)
  | removeParticipant (plugin : Plugin)
  | processMessage (stream messageType : Int)
  | sendFirPacketToViewer
  | requestFirPacket (stream now : Int)
  | selectiveVideoForward (now : Int) (packet : Option DataPacket) (webcast : Bool)
  deriving DecidableEq, Repr

/-- One step. -/
def step (r : VideoDispatcherRoom) : Op → Except Fault VideoDispatcherRoom
  | .start now => .ok (r.start now)
  | .destroy => .ok r.destroy
  | .setupLiveStream support => .ok (r.setupLiveStream support)
  | .addParticipant p => .ok (r.addParticipant p)
  | .removeParticipant p => .ok (r.removeParticipant p)
  | .processMessage s t => Prod.fst <$> r.processMessage s t
  | .sendFirPacketToViewer => r.sendFirPacketToViewer
  | .requestFirPacket s now => r.requestFirPacket s now
  | .selectiveVideoForward now p w => r.selectiveVideoForward now p w

/-- A run of a room from its construction. -/
def run (ops : List Op) : Except Fault VideoDispatcherRoom := ops.foldlM step {}

/-! ### The position of the publisher -/

variable {r r' : VideoDispatcherRoom}

/-- The current viewer is unset, or the position of the publisher. -/
def PublisherKnown (r : VideoDispatcherRoom) : Prop :=
  r.currentViewer ≠ -1 → 0 ≤ r.currentViewer ∧
    ∃ p, r.plugins[r.currentViewer.toNat]? = some p ∧ p.streamId = r.publisherStreamId

theorem PublisherKnown.participant (h : PublisherKnown r) (hc : r.currentViewer ≠ -1) :
    ∃ p, r.participant r.currentViewer = .ok p := by
  obtain ⟨h0, p, hp, -⟩ := h hc
  refine ⟨p, ?_⟩
  rw [VideoDispatcherRoom.participant, if_pos h0, hp]

/-- What an operation that does not move anybody leaves alone. -/
structure SameSeats (r r' : VideoDispatcherRoom) : Prop where
  plugins : r'.plugins = r.plugins
  publisher : r'.publisherStreamId = r.publisherStreamId
  current : r'.currentViewer = r.currentViewer

theorem SameSeats.refl (r : VideoDispatcherRoom) : SameSeats r r := ⟨rfl, rfl, rfl⟩

theorem SameSeats.trans {r₁ r₂ r₃ : VideoDispatcherRoom} (h : SameSeats r₁ r₂)
    (h' : SameSeats r₂ r₃) : SameSeats r₁ r₃ :=
  ⟨h'.plugins.trans h.plugins, h'.publisher.trans h.publisher, h'.current.trans h.current⟩

theorem SameSeats.known (hs : SameSeats r r') (h : PublisherKnown r) : PublisherKnown r' := by
  show r'.currentViewer ≠ -1 → _
  rw [hs.plugins, hs.publisher, hs.current]
  exact h

/-! ### One operation -/

/-- A key frame request finds its participant when the index is valid. -/
theorem sendFirPacket_ok {viewer : Int} (hp : 0 ≤ viewer → ∃ p, r.participant viewer = .ok p) :
    ∃ r', r.sendFirPacket viewer = .ok r' ∧ SameSeats r r' := by
  rw [sendFirPacket]
  split
  · exact ⟨r, rfl, SameSeats.refl r⟩
  · rename_i hv
    obtain ⟨p, hp⟩ := hp (by omega)
    rw [hp]
    exact ⟨_, rfl, rfl, rfl, rfl⟩

theorem PublisherKnown.sendFirPacket (h : PublisherKnown r) (hs : SameSeats r r') :
    ∃ s, r'.sendFirPacket r'.currentViewer = .ok s ∧ SameSeats r s := by
  have hp : 0 ≤ r'.currentViewer → ∃ p, r'.participant r'.currentViewer = .ok p :=
    fun h0 => (hs.known h).participant (by omega)
  obtain ⟨s, hs', hseats⟩ := sendFirPacket_ok hp
  exact ⟨s, hs', hs.trans hseats⟩

theorem PublisherKnown.addParticipant (h : PublisherKnown r) (plugin : Plugin) :
    PublisherKnown (r.addParticipant plugin) := by
  intro hc
  obtain ⟨h0, p, hp, hs⟩ := h hc
  refine ⟨h0, p, ?_, hs⟩
  show (r.plugins ++ [plugin])[r.currentViewer.toNat]? = some p
  rw [List.getElem?_append_left (List.getElem?_eq_some_iff.mp hp).1]
  exact hp

/-- Setting the publisher: every plugin of that stream id becomes the publisher
in turn, and is found at its position. -/
theorem PublisherKnown.processMessage (h : PublisherKnown r) (stream messageType : Int) :
    ∃ x, r.processMessage stream messageType = .ok x ∧ PublisherKnown x.1 := by
  rw [VideoDispatcherRoom.processMessage]
  split
  · have hloop := foldlM_ok (f := setPublisher stream) (l := r.plugins.zipIdx)
      (P := fun x => x.1.plugins = r.plugins ∧ PublisherKnown x.1) (s := (r, false)) ?_ ⟨rfl, h⟩
    · obtain ⟨x, hx, -, hk⟩ := hloop
      exact ⟨x, hx, hk⟩
    rintro ⟨s, b⟩ ⟨hs, hk⟩ ⟨p, i⟩ hp
    have hi : s.plugins[i]? = some p := by
      rw [hs]
      exact List.mk_mem_zipIdx_iff_getElem?.mp hp
    rw [setPublisher]
    split
    · rename_i heq
      have hk' : PublisherKnown { s with publisherStreamId := stream, currentViewer := (i : Int) } :=
        fun _ => ⟨Int.natCast_nonneg i, p, hi, heq.symm⟩
      obtain ⟨s', hs', hseats⟩ := hk'.sendFirPacket (SameSeats.refl _)
      refine ⟨(s', true), ?_, hseats.plugins.trans hs, hseats.known hk'⟩
      show (_ >>= _) = _
      rw [hs']
      rfl
    · exact ⟨(s, b), rfl, hs, hk⟩
  · exact ⟨(r, false), rfl, h⟩

theorem PublisherKnown.requestFirPacket (h : PublisherKnown r) (stream now : Int) :
    ∃ r', r.requestFirPacket stream now = .ok r' ∧ SameSeats r r' := by
  rw [VideoDispatcherRoom.requestFirPacket]
  split
  · split
    · exact ⟨r, rfl, SameSeats.refl r⟩
    · have hs : SameSeats r { r with lastFirTime := now } := ⟨rfl, rfl, rfl⟩
      exact h.sendFirPacket hs
  · exact ⟨r, rfl, SameSeats.refl r⟩

theorem PublisherKnown.forceFir (h : PublisherKnown r) (now : Int) :
    ∃ r', r.forceFir now = .ok r' ∧ SameSeats r r' := by
  rw [VideoDispatcherRoom.forceFir]
  split
  · have hs : SameSeats r { r with loop := { r.loop with framekeyTimeout := now } } :=
      ⟨rfl, rfl, rfl⟩
    exact h.sendFirPacket hs
  · exact ⟨r, rfl, SameSeats.refl r⟩

theorem PublisherKnown.selectiveVideoForward (h : PublisherKnown r) (now : Int)
    (packet : Option DataPacket) (webcast : Bool) :
    ∃ r', r.selectiveVideoForward now packet webcast = .ok r' ∧ SameSeats r r' := by
  rw [VideoDispatcherRoom.selectiveVideoForward]
  split
  · exact ⟨r, rfl, SameSeats.refl r⟩
  · rename_i hgo
    obtain ⟨r₁, h₁, hs⟩ := h.forceFir now
    have hc : r₁.currentViewer ≠ -1 := by
      rw [hs.current]
      exact fun hc => hgo (.inr (.inr hc))
    obtain ⟨p, hp⟩ := (hs.known h).participant hc
    rw [h₁]
    show ∃ r', (r₁.participant r₁.currentViewer >>= _) = .ok r' ∧ _
    rw [hp]
    rcases packet with - | q
    · exact ⟨r₁, rfl, hs⟩
    · refine ⟨_, rfl, hs.trans ?_⟩
      split
      · exact ⟨rfl, rfl, rfl⟩
      · exact ⟨rfl, rfl, rfl⟩

/-! ### Leaving -/

/-- Nobody leaves from the publisher's seat or from one in front of it, but the
publisher. -/
def StaysSeated (r : VideoDispatcherRoom) (plugin : Plugin) : Prop :=
  r.currentViewer = -1 ∨ plugin.streamId = r.publisherStreamId ∨
    r.position plugin = r.plugins.length ∨ r.currentViewer < r.position plugin

instance (r : VideoDispatcherRoom) (plugin : Plugin) : Decidable (r.StaysSeated plugin) :=
  inferInstanceAs (Decidable (_ ∨ _ ∨ _ ∨ _))

theorem PublisherKnown.removeParticipant (h : PublisherKnown r) {plugin : Plugin}
    (hp : r.StaysSeated plugin) : PublisherKnown (r.removeParticipant plugin) := by
  rw [VideoDispatcherRoom.removeParticipant]
  split
  · exact fun hc => absurd rfl hc
  · rename_i hid
    intro hc
    obtain ⟨h0, p, hget, hs⟩ := h hc
    refine ⟨h0, p, ?_, hs⟩
    show (r.plugins.eraseIdx (r.position plugin))[r.currentViewer.toNat]? = some p
    rcases hp with hp | hp | hp | hp
    · exact absurd hp hc
    · exact absurd hp hid
    · rw [List.eraseIdx_of_length_le (Nat.le_of_eq hp.symm)]
      exact hget
    · rw [List.getElem?_eraseIdx_of_lt (by omega)]
      exact hget

/-- **When a leaving participant loses the publisher.**  With distinct stream
ids the condition is exact. -/
theorem removeParticipant_publisher (h : PublisherKnown r)
    (hid : (r.plugins.map Plugin.streamId).Nodup) (plugin : Plugin) :
    PublisherKnown (r.removeParticipant plugin) ↔ r.StaysSeated plugin := by
  refine ⟨?_, h.removeParticipant⟩
  intro h'
  by_contra hp
  rw [StaysSeated, not_or, not_or, not_or] at hp
  obtain ⟨hc, hs, -, hlt⟩ := hp
  rw [VideoDispatcherRoom.removeParticipant, if_neg hs] at h'
  obtain ⟨h0, p, hget, hp⟩ := h hc
  obtain ⟨-, q, hget', hq⟩ := h' hc
  change (r.plugins.eraseIdx (r.position plugin))[r.currentViewer.toNat]? = some q at hget'
  rw [List.getElem?_eraseIdx_of_ge (by omega)] at hget'
  -- two neighbours with the publisher's stream id
  have hmap : (r.plugins.map Plugin.streamId)[r.currentViewer.toNat]? =
      (r.plugins.map Plugin.streamId)[r.currentViewer.toNat + 1]? := by
    rw [List.getElem?_map, List.getElem?_map, hget, hget', Option.map_some, Option.map_some, hp, hq]
  have hlen : r.currentViewer.toNat < (r.plugins.map Plugin.streamId).length := by
    rw [List.length_map]
    exact (List.getElem?_eq_some_iff.mp hget).1
  have heq := (List.getElem?_inj hlen hid).mp hmap
  omega

/-! ### Every run -/

/-- The condition on a step. -/
def Seated (r : VideoDispatcherRoom) : Op → Prop
  | .removeParticipant p => r.StaysSeated p
  | _ => True

instance (r : VideoDispatcherRoom) : (op : Op) → Decidable (r.Seated op)
  | .removeParticipant p => inferInstanceAs (Decidable (r.StaysSeated p))
  | .start _ | .destroy | .setupLiveStream _ | .addParticipant _ | .processMessage _ _
  | .sendFirPacketToViewer | .requestFirPacket _ _ | .selectiveVideoForward _ _ _ => isTrue trivial

theorem step_known (h : PublisherKnown r) {op : Op} (hop : r.Seated op) :
    ∃ r', step r op = .ok r' ∧ PublisherKnown r' := by
  cases op with
  | start now => exact ⟨_, rfl, h⟩
  | destroy => exact ⟨_, rfl, h⟩
  | setupLiveStream support => exact ⟨_, rfl, h⟩
  | addParticipant p => exact ⟨_, rfl, h.addParticipant p⟩
  | removeParticipant p => exact ⟨_, rfl, h.removeParticipant hop⟩
  | processMessage s t =>
      obtain ⟨x, hx, hk⟩ := h.processMessage s t
      refine ⟨x.1, ?_, hk⟩
      show Prod.fst <$> r.processMessage s t = _
      rw [hx]
      rfl
  | sendFirPacketToViewer =>
      obtain ⟨r', hr', hs⟩ := h.sendFirPacket (SameSeats.refl r)
      exact ⟨r', hr', hs.known h⟩
  | requestFirPacket s now =>
      obtain ⟨r', hr', hs⟩ := h.requestFirPacket s now
      exact ⟨r', hr', hs.known h⟩
  | selectiveVideoForward now p w =>
      obtain ⟨r', hr', hs⟩ := h.selectiveVideoForward now p w
      exact ⟨r', hr', hs.known h⟩

/-- **The publisher is where the room thinks.**  A run in which nobody leaves in
front of the publisher goes through, and in every state it reaches the current
viewer, if set, is the index of the participant with the publisher's stream
id. -/
theorem run_publisher_known (ops : List Op) (hops : AllSteps step Seated {} ops)
    (pre post : List Op) (hpre : ops = pre ++ post) :
    ∃ r, run pre = .ok r ∧ (r.currentViewer ≠ -1 → 0 ≤ r.currentViewer ∧
      ∃ p, r.plugins[r.currentViewer.toNat]? = some p ∧ p.streamId = r.publisherStreamId) := by
  subst hpre
  have hrun := hops.left.outcome (P := PublisherKnown) (E := fun _ => False) ?_
    (fun hc => absurd rfl hc)
  · exact hrun.ok
  · intro r op h hop
    obtain ⟨r', hr', hk⟩ := step_known h hop
    rw [hr']
    exact hk

/-- The first of three is the publisher when the second leaves. -/
theorem run_publisher_known_second_leaves :
    AllSteps step Seated {} [.addParticipant ⟨1, 10⟩, .addParticipant ⟨2, 20⟩,
      .addParticipant ⟨3, 30⟩, .processMessage 10 2, .removeParticipant ⟨2, 20⟩] ∧
    ∃ r, run [.addParticipant ⟨1, 10⟩, .addParticipant ⟨2, 20⟩,
      .addParticipant ⟨3, 30⟩, .processMessage 10 2, .removeParticipant ⟨2, 20⟩] = .ok r ∧
      (r.currentViewer ≠ -1 → 0 ≤ r.currentViewer ∧
        ∃ p, r.plugins[r.currentViewer.toNat]? = some p ∧ p.streamId = r.publisherStreamId) := by
  have hops : AllSteps step Seated {} [.addParticipant ⟨1, 10⟩, .addParticipant ⟨2, 20⟩,
      .addParticipant ⟨3, 30⟩, .processMessage 10 2, .removeParticipant ⟨2, 20⟩] := by
    decide +kernel
  exact ⟨hops, run_publisher_known _ hops _ [] (by simp)⟩

/-- The first of two leaves, the second is the publisher: the position of the
publisher is behind the end of the vector, and the next iteration of the loop
reads there. -/
theorem remove_moves_the_publisher :
    ∃ r, run [.start 0, .addParticipant ⟨1, 10⟩, .addParticipant ⟨2, 20⟩, .processMessage 20 2,
        .removeParticipant ⟨1, 10⟩] = .ok r ∧
      r.currentViewer ≠ -1 ∧ r.plugins = [⟨2, 20⟩] ∧ r.publisherStreamId = 20 ∧
      r.plugins[r.currentViewer.toNat]? = none ∧
      ∀ packet webcast, r.selectiveVideoForward 1 packet webcast = .error (.outOfRange 1) := by
  refine ⟨_, rfl, by decide, by decide, by decide, by decide, ?_⟩
  intro packet webcast
  rfl

end VideoDispatcherRoom

end Orbit
