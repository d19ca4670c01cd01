/-
OrbitStream/ForwardOld.lean

The old video forwarding element (`modules/video_forward_element.cc`).

The element keeps one buffer and one switch context per linked stream.  A switch
has two phases: an operation writes the wanted source into `new_stream_id` of a
context and marks it as changing, and a later iteration of the forwarding loop
moves it to `stream_id` once a key frame is on top of the new source's buffer.
All operations and every iteration run under one mutex and are steps.

A context in the map may be null (`operator[]` inserts one for a missing key),
and reading it is a fault.  The failed assertions are faults too; `asserts` says
whether the program is compiled with them.  `assert(base_seq != -1)` compares a
16 bit value with -1 and always holds.
-/
import OrbitStream.RtpPacketBuffer
import OrbitStream.VideoMap

namespace Orbit

/-- `VideoForwardElement`. -/
structure VideoForwardElement where
  videoQueues : Std.TreeMap Id VideoAwareFrameBuffer
  /-- `none` is a null pointer -/
  videoSwitchContexts : Std.TreeMap Id (Option VideoSwitchContext)
  keyFrameSeq : Std.TreeMap Id Int
  changing : Bool
  currentViewer : Id
  secondViewer : Id
  newViewer : Id
  requestKeyFrameStreamIds : List Id
  lastSwitchTime : Int
  /-- `OnRelayRtcpPacket`: the stream and the number of the FIR -/
  firsSent : List (Id × Int)
  /-- `OnRelayRtpPacket` -/
  relayed : List (Id × MediaOutputPacket)

namespace VideoForwardElement

/-- What stops the forwarding thread or an operation. -/
inductive Fault
  /-- a null context is dereferenced -/
  | nullContext (id : Id)
  /-- `assert(switch_context->new_stream_id != -1)` -/
  | newStreamIdUnset (id : Id)
  /-- `assert(switch_context->base_ts != -1)` -/
  | baseTsUnset (id : Id)
  deriving DecidableEq, Repr

/-- An element as its constructor leaves it. -/
def init : VideoForwardElement where
  videoQueues := ∅
  videoSwitchContexts := ∅
  keyFrameSeq := ∅
  changing := false
  currentViewer := -1
  secondViewer := -1
  newViewer := -1
  requestKeyFrameStreamIds := []
  lastSwitchTime := 0
  firsSent := []
  relayed := []

/-! ### Buffers and contexts -/

/-- `VideoForwardElement::GetVideoQueue`. -/
def getVideoQueue (e : VideoForwardElement) (id : Id) : Option VideoAwareFrameBuffer :=
  if id = -1 then none else e.videoQueues[id]?

/-- The buffer of a stream is replaced. -/
def setVideoQueue (e : VideoForwardElement) (id : Id) (b : VideoAwareFrameBuffer) :
    VideoForwardElement :=
  { e with videoQueues := e.videoQueues.insert id b }

/-- The context of a stream is replaced. -/
def setContext (e : VideoForwardElement) (id : Id) (sc : VideoSwitchContext) :
    VideoForwardElement :=
  { e with videoSwitchContexts := e.videoSwitchContexts.insert id (some sc) }

/-- `request_key_frame_stream_ids_.push_back(id)`. -/
def requestKeyFrame (e : VideoForwardElement) (id : Id) : VideoForwardElement :=
  { e with requestKeyFrameStreamIds := e.requestKeyFrameStreamIds ++ [id] }

/-- `video_switch_contexts_[id]`: a missing entry is made, with a null pointer. -/
def indexContext (e : VideoForwardElement) (id : Id) :
    VideoForwardElement × Option VideoSwitchContext :=
  match e.videoSwitchContexts[id]? with
  | some sc => (e, sc)
  | none => ({ e with videoSwitchContexts := e.videoSwitchContexts.insert id none }, none)

/-- `VideoForwardElement::PopFromBuffer` with `pop_from_queue` set. -/
def popFromBuffer (e : VideoForwardElement) (id : Id) : Option DataPacket × VideoForwardElement :=
  match e.getVideoQueue id with
  | none => (none, e)
  | some b =>
    if b.prebufferingDone then
      if b.bufferType ≠ .playBuffer then (none, e)
      else (b.pop.1, e.setVideoQueue id b.pop.2)
    else (none, e)

/-- `VideoForwardElement::SendFirPacket`. -/
def sendFirPacket (e : VideoForwardElement) (id : Id) : VideoForwardElement :=
  let fir := janusRtcpFirSeq (e.keyFrameSeq.getD id 0)
  { e with
    keyFrameSeq := e.keyFrameSeq.insert id fir
    firsSent := e.firsSent ++ [(id, fir)] }

/-! ### Operations -/

/-- `VideoForwardElement::OnIncomingPacket`. -/
def onIncomingPacket (parse : Depacketizer) (e : VideoForwardElement) (stream : Id)
    (packet : DataPacket) : VideoForwardElement :=
  match e.videoQueues[stream]? with
  | none => e
  | some b => e.setVideoQueue stream (b.push parse packet)

/-- The number of buffers that are not normal ones. -/
def activeBuffers (e : VideoForwardElement) : Nat :=
  (e.videoQueues.toList.filter fun q => q.2.bufferType ≠ .normalBuffer).length

/-- The end of `LinkVideoStream`: when the current viewer was alone and looked at
itself, it takes the new stream. -/
def takeNewStream (e : VideoForwardElement) (stream : Id) : VideoForwardElement :=
  let (e, context) := e.indexContext e.currentViewer
  match context with
  | some sc =>
      if sc.streamId = e.currentViewer ∧ sc.newStreamId = -1 then
        (e.setContext e.currentViewer
          { sc with newStreamId := stream, changing := true }).requestKeyFrame stream
      else e
  | none => e

/-- `VideoForwardElement::LinkVideoStream`. -/
def linkVideoStream (e : VideoForwardElement) (stream : Id) : VideoForwardElement :=
  let n := e.activeBuffers
  let e := if e.currentViewer = -1 then { e with currentViewer := stream } else e
  if e.videoQueues.contains stream then e
  else
    let queue : VideoAwareFrameBuffer :=
      { bufferType := if n < 2 then .playBuffer else .normalBuffer }
    let e := { e.setVideoQueue stream queue with changing := true }.setContext stream
      { streamId := -1, newStreamId := e.currentViewer, changing := true }
    let e := e.takeNewStream stream
    e.requestKeyFrame e.currentViewer

/-- `VideoForwardElement::ChangeContext`. -/
def changeContext (source : Id) (context : Option VideoSwitchContext) :
    Option VideoSwitchContext :=
  context.map fun sc =>
    if sc.streamId ≠ source then { sc with changing := true, newStreamId := source } else sc

/-- The second step of `SwitchPublisher`: a normal buffer of the new viewer
becomes a storage buffer. -/
def storeNewViewer (e : VideoForwardElement) (publisher : Id) : VideoForwardElement :=
  match e.getVideoQueue publisher with
  | some b =>
      match b.bufferType with
      | .normalBuffer => e.setVideoQueue publisher (b.setBufferType .storageBuffer).resetBuffer
      | .storageBuffer | .playBuffer => e
  | none => e

/-- `VideoForwardElement::SwitchPublisher`. -/
def switchPublisher (e : VideoForwardElement) (publisher : Id) : VideoForwardElement :=
  if publisher ≠ e.currentViewer ∧ publisher ≠ e.newViewer then
    let e := ({ e with newViewer := publisher }.requestKeyFrame publisher).storeNewViewer publisher
    { e with
      videoSwitchContexts := e.videoSwitchContexts.map fun id context =>
        if id = publisher then context else changeContext publisher context
      changing := true }
  else e

/-- The first lines of `UnlinkVideoStream`: the stream is erased, and a switch to
it is called off. -/
def eraseStream (e : VideoForwardElement) (stream : Id) : VideoForwardElement :=
  let e := { e with
    videoQueues := e.videoQueues.erase stream
    videoSwitchContexts := e.videoSwitchContexts.erase stream }
  if e.changing ∧ e.newViewer = stream then { e with newViewer := -1, changing := false } else e

/-- `first_stream_id`. -/
def firstStreamId (e : VideoForwardElement) : Id := e.videoQueues.keys.head?.getD (-1)

/-- One stream is left: it is shown to itself. -/
def showAlone (e : VideoForwardElement) (first : Id) : Except Fault VideoForwardElement :=
  match e.videoSwitchContexts[first]? with
  | none => .ok e
  | some none => .error (.nullContext first)
  | some (some sc) =>
    -- `SwitchPublisher` does not touch the context of the publisher
    let e := e.switchPublisher first
    let e := { e with currentViewer := first, changing := true, newViewer := first }
    .ok ((e.requestKeyFrame first).setContext first
      { sc with streamId := first, newStreamId := first, changing := true })

/-- One turn of the loop over the remaining contexts. -/
def repairContext (stream first : Id) (e : VideoForwardElement) (id : Id) :
    Except Fault VideoForwardElement :=
  match e.videoSwitchContexts[id]? with
  | none => .ok e
  | some none => .error (.nullContext id)
  | some (some sc) =>
    if sc.streamId = stream then
      .ok (e.setContext id { sc with streamId := -1, newStreamId := first, changing := true })
    else .ok e

/-- `VideoForwardElement::UnlinkVideoStream`. -/
def unlinkVideoStream (e : VideoForwardElement) (stream : Id) :
    Except Fault VideoForwardElement :=
  let e := e.eraseStream stream
  let first := e.firstStreamId
  if e.videoQueues.size = 0 then .ok { e with currentViewer := -1 }
  else if e.videoQueues.size = 1 then
    if first ≠ -1 then e.showAlone first else .ok e
  else if first ≠ -1 then
    let e := { e.switchPublisher first with currentViewer := first, changing := true }
    e.videoSwitchContexts.keys.foldlM (repairContext stream first) e
  else .ok e

/-- `VideoForwardElement::RequestSpeakerKeyFrame`. -/
def requestSpeakerKeyFrame (e : VideoForwardElement) : VideoForwardElement :=
  e.requestKeyFrame e.currentViewer

/-- `VideoForwardElement::ChangeToSpeaker`; `now` and `then'` are the two
readings of the clock. -/
def changeToSpeaker (e : VideoForwardElement) (stream : Id) (now then' : Int) :
    VideoForwardElement :=
  if stream < 0 then e
  else if stream ≠ e.currentViewer ∧ now - e.lastSwitchTime > 2000 then
    if e.videoQueues.contains stream then
      { e with lastSwitchTime := then' }.switchPublisher stream
    else e
  else e

/-! ### The forwarding loop -/

/-- The new source of a changing viewer has a key frame on top. -/
def keyFrameArrived (parse : Depacketizer) (e : VideoForwardElement) (sc : VideoSwitchContext) :
    Option (VideoAwareFrameBuffer × DataPacket) :=
  match e.getVideoQueue sc.newStreamId with
  | none => none
  | some b =>
    match b.topPacket with
    | none => none
    | some p => if VideoAwareFrameBuffer.isKeyFramePacket parse p then some (b, p) else none

/-- The changing phase completes the switch of the viewer `id`. -/
def completeChange (e : VideoForwardElement) (id : Id) (sc : VideoSwitchContext)
    (b : VideoAwareFrameBuffer) (p : DataPacket) : VideoForwardElement :=
  let e := e.setVideoQueue sc.newStreamId (b.setBufferType .playBuffer)
  let e := e.setContext id
    { sc.rebase (RtpHeader.getSeqNumber p.data) (RtpHeader.getTimestamp p.data) with
      changing := false, streamId := sc.newStreamId, newStreamId := -1 }
  if id ≠ e.newViewer ∧ id ≠ e.currentViewer then
    match e.getVideoQueue id with
    | some b => e.setVideoQueue id (b.clean.setBufferType .normalBuffer)
    | none => e
  else e

/-- One turn of the changing phase; the flag is `all_change_done`. -/
def changeOne (asserts : Bool) (parse : Depacketizer) (acc : VideoForwardElement × Bool)
    (id : Id) : Except Fault (VideoForwardElement × Bool) :=
  let e := acc.1
  match e.videoSwitchContexts[id]? with
  | none => .ok acc
  | some none => .error (.nullContext id)
  | some (some sc) =>
    if sc.changing then
      if asserts ∧ sc.newStreamId = -1 then .error (.newStreamIdUnset id)
      else
        match e.keyFrameArrived parse sc with
        | some (b, p) => .ok (e.completeChange id sc b p, acc.2)
        | none => .ok (e, false)
    else .ok acc

/-- The end of the changing phase. -/
def finishChange (e : VideoForwardElement) (allChangeDone : Bool) : VideoForwardElement :=
  if allChangeDone then
    let e := { e with changing := false }
    if e.newViewer ≠ -1 then
      { e with
        secondViewer := e.currentViewer
        currentViewer := e.newViewer
        newViewer := -1 }
    else e
  else e

/-- The changing phase of an iteration. -/
def changingPhase (asserts : Bool) (parse : Depacketizer) (e : VideoForwardElement)
    (ids : List Id) : Except Fault VideoForwardElement :=
  if e.changing then do
    let acc ← ids.foldlM (changeOne asserts parse) (e, true)
    return acc.1.finishChange acc.2
  else .ok e

/-- The state of the forward phase: the element, `play_packets` and `i`. -/
structure Forwarding where
  element : VideoForwardElement
  playPackets : Std.TreeMap Id (Option DataPacket)
  i : Nat

/-- The packet of a source in this iteration: the one popped before, or the next
one of its buffer. -/
def Forwarding.takePacket (acc : Forwarding) (source : Id) :
    Option DataPacket × VideoForwardElement :=
  match acc.playPackets[source]? with
  | some p => (p, acc.element)
  | none => acc.element.popFromBuffer source

/-- One turn of the forward phase. -/
def forwardOne (asserts : Bool) (acc : Forwarding) (id : Id) : Except Fault Forwarding :=
  let e := acc.element
  match e.videoSwitchContexts[id]? with
  | none => .ok acc
  | some none => .error (.nullContext id)
  | some (some sc) =>
    if sc.streamId = -1 then .ok acc
    else
      let (packet, e) := acc.takePacket sc.streamId
      let playPackets := acc.playPackets.insert sc.streamId packet
      match packet with
      | none => .ok { element := e, playPackets := playPackets, i := acc.i + 1 }
      | some p =>
        if asserts ∧ sc.baseTs = 0xFFFFFFFF then .error (.baseTsUnset id)
        else
          let sc := sc.advance (RtpHeader.getSeqNumber p.data) (RtpHeader.getTimestamp p.data)
          let out := sc.output p.data p.length (RtpHeader.getMarker p.data)
          let e := e.setContext id sc
          -- the live stream gets what the first viewer of the pass gets
          let relayed := e.relayed ++ (id, out) :: if acc.i = 0 then [(0, out)] else []
          .ok { element := { e with relayed := relayed }, playPackets := playPackets, i := acc.i + 1 }

/-- The requested key frames are asked for. -/
def sendRequests (e : VideoForwardElement) : VideoForwardElement :=
  { e.requestKeyFrameStreamIds.foldl sendFirPacket e with requestKeyFrameStreamIds := [] }

/-- One iteration of `SelectiveVideoForwardLoop` under the mutex. -/
def selectiveVideoForward (asserts : Bool) (parse : Depacketizer) (e : VideoForwardElement) :
    Except Fault VideoForwardElement :=
  if e.videoQueues.size = 0 then .ok e
  else do
    let e := e.sendRequests
    let streamIds := e.videoSwitchContexts.keys
    let e ← e.changingPhase asserts parse streamIds
    let acc ← streamIds.foldlM (forwardOne asserts) { element := e, playPackets := ∅, i := 0 }
    return acc.element

/-! ### Runs -/

/-- The operations and the iterations of the forwarding loop. -/
inductive Op
  | linkVideoStream (stream : Id)
  | unlinkVideoStream (stream : Id)
  | changeToSpeaker (stream : Id) (now then' : Int)
  | onIncomingPacket (stream : Id) (packet : DataPacket)
  | requestSpeakerKeyFrame
  | selectiveVideoForward
  deriving DecidableEq, Repr

/-- One step. -/
def step (asserts : Bool) (parse : Depacketizer) (e : VideoForwardElement) :
    Op → Except Fault VideoForwardElement
  | .linkVideoStream s => .ok (e.linkVideoStream s)
  | .unlinkVideoStream s => e.unlinkVideoStream s
  | .changeToSpeaker s now then' => .ok (e.changeToSpeaker s now then')
  | .onIncomingPacket s p => .ok (e.onIncomingPacket parse s p)
  | .requestSpeakerKeyFrame => .ok e.requestSpeakerKeyFrame
  | .selectiveVideoForward => e.selectiveVideoForward asserts parse

/-- A run of an element from its construction. -/
def run (asserts : Bool) (parse : Depacketizer) (ops : List Op) :
    Except Fault VideoForwardElement :=
  ops.foldlM (step asserts parse) init

end VideoForwardElement

end Orbit
