/-
OrbitStream/ForwardNew.lean

The new video forwarding element (`modules/video_forward_element_new.cc`).

The element owns one `VideoFrameQueue` and one `VideoSwitchContext` per linked
stream, and a `VideoMap` that decides who is shown what.  The map reports to the
element through listeners, the queues report prepared streams to the map, and
every public operation runs under one mutex, so an operation is one step.

A listener that finds no entry in a map dereferences a null pointer, and so does
one that finds no packet on top of a queue; both are faults here.  `log` records
what leaves the element and the two `LOG(INFO)` lines the statements below refer
to: the link of a stream and a source change with the queue it was served from.
-/
import OrbitStream.VideoFrameQueue
import OrbitStream.VideoMap

namespace Orbit

/-- What the element hands out, in order. -/
inductive Out
  /-- a FIR with this sequence number, and a PLI, relayed to a stream -/
  | fir (stream : Id) (seqnr : Int)
  /-- a stream was linked -/
  | linked (stream : Id)
  /-- a viewer's source changed, the queue of the new source and its top packet -/
  | srcChanged (viewer src : Id) (queue : VideoFrameQueue) (frame : VideoFrame)
  /-- `OnRelayRtpPacket(viewer, packet)`, with the packet it was rewritten from -/
  | relay (viewer : Id) (frame : VideoFrame) (packet : MediaOutputPacket)
  /-- `OnRelayRtpPacket(0, packet)`: the copy for the listener of the live stream -/
  | relayLive (packet : MediaOutputPacket)

/-- A null pointer is dereferenced. -/
inductive Fault
  | nullQueue (id : Id)
  | nullContext (id : Id)
  | nullPacket (id : Id)
  deriving DecidableEq, Repr

/-- `VideoForwardElementNew`. -/
structure VideoForwardElementNew where
  queueMap : Std.TreeMap Id VideoFrameQueue
  videoMapper : VideoMap
  videoSwitchContexts : Std.TreeMap Id VideoSwitchContext
  /-- `FirSender::firseq_map_` -/
  firseqMap : Std.TreeMap Id Int
  log : List Out

namespace VideoForwardElementNew

/-- An element as its constructor leaves it. -/
def init : VideoForwardElementNew where
  queueMap := ∅
  videoMapper := VideoMap.init
  videoSwitchContexts := ∅
  firseqMap := ∅
  log := []

/-- Append to the log. -/
def emit (e : VideoForwardElementNew) (o : Out) : VideoForwardElementNew :=
  { e with log := e.log ++ [o] }

/-- `FirSender::SendFir`. -/
def sendFir (e : VideoForwardElementNew) (stream : Id) : VideoForwardElementNew :=
  let fir := janusRtcpFirSeq (e.firseqMap.getD stream 0)
  { e with firseqMap := e.firseqMap.insert stream fir }.emit (.fir stream fir)

/-! ### The listeners -/

/-- `auto queue = queue_map_[stream]; queue->f()`. -/
def withQueue (e : VideoForwardElementNew) (stream : Id)
    (f : VideoFrameQueue → VideoFrameQueue) : Except Fault VideoForwardElementNew :=
  match e.queueMap[stream]? with
  | none => .error (.nullQueue stream)
  | some q => .ok { e with queueMap := e.queueMap.insert stream (f q) }

/-- The listener of source changes. -/
def onSrcChanged (e : VideoForwardElementNew) (viewer src : Id) :
    Except Fault VideoForwardElementNew :=
  match e.queueMap[src]? with
  | none => .error (.nullQueue src)
  | some q =>
    match q.topPacket with
    | none => .error (.nullPacket src)
    | some f =>
      match e.videoSwitchContexts[viewer]? with
      | none => .error (.nullContext viewer)
      | some sc =>
        .ok ({ e with videoSwitchContexts :=
          e.videoSwitchContexts.insert viewer (sc.rebase f.seq f.ts) }.emit
            (.srcChanged viewer src q f))

/-- The listeners registered in the constructor. -/
def listen (e : VideoForwardElementNew) :
    VideoMap.Event → Except Fault VideoForwardElementNew
  | .prepare id => .ok (e.sendFir id)
  | .enabled id => e.withQueue id VideoFrameQueue.enable
  | .disabled id => e.withQueue id VideoFrameQueue.disable
  | .hasLooker id => e.withQueue id (·.setHasLooker true)
  | .noLooker id => e.withQueue id (·.setHasLooker false)
  | .srcChanged viewer src => e.onSrcChanged viewer src

/-- A call on the map: its new state, and the listeners it called. -/
def callMapper (e : VideoForwardElementNew) (r : VideoMap × List VideoMap.Event) :
    Except Fault VideoForwardElementNew :=
  r.2.foldlM listen { e with videoMapper := r.1 }

/-- Put a queue back after a push or a pop; when it announced itself, its
listener calls `SetPrepared`. -/
def putQueue (e : VideoForwardElementNew) (stream : Id) (r : VideoFrameQueue × Bool) :
    Except Fault VideoForwardElementNew :=
  let e := { e with queueMap := e.queueMap.insert stream r.1 }
  if r.2 then e.callMapper (e.videoMapper.setPrepared r.1.id) else .ok e

/-! ### The public operations -/

/-- `VideoForwardElementNew::Contains`. -/
def contains (e : VideoForwardElementNew) (stream : Id) : Bool := e.queueMap.contains stream

/-- `VideoForwardElementNew::OnIncomingPacket`. -/
def onIncomingPacket (parse : Depacketizer) (e : VideoForwardElementNew) (stream : Id)
    (packet : DataPacket) : Except Fault VideoForwardElementNew :=
  match e.queueMap[stream]? with
  | none => .ok e
  | some q => e.putQueue stream (q.pushPacket parse packet)

/-- `VideoForwardElementNew::LinkVideoStream`. -/
def linkVideoStream (e : VideoForwardElementNew) (stream : Id) :
    Except Fault VideoForwardElementNew :=
  if e.contains stream then .ok e
  else
    let e := e.emit (.linked stream)
    let e := { e with
      queueMap := e.queueMap.insert stream { id := stream }
      videoSwitchContexts := e.videoSwitchContexts.insert stream {} }
    e.callMapper (e.videoMapper.add stream)

/-- `VideoForwardElementNew::UnlinkVideoStream`. -/
def unlinkVideoStream (e : VideoForwardElementNew) (stream : Id) :
    Except Fault VideoForwardElementNew := do
  let e ← e.callMapper (e.videoMapper.remove stream)
  return { e with
    queueMap := e.queueMap.erase stream
    videoSwitchContexts := e.videoSwitchContexts.erase stream }

/-- `VideoForwardElementNew::ChangeToSpeaker`. -/
def changeToSpeaker (e : VideoForwardElementNew) (stream : Id) :
    Except Fault VideoForwardElementNew :=
  e.callMapper (e.videoMapper.setMaster stream)

/-- `VideoForwardElementNew::RequestSpeakerKeyFrame`. -/
def requestSpeakerKeyFrame (e : VideoForwardElementNew) : VideoForwardElementNew :=
  if e.videoMapper.getMaster ≠ NOID then e.sendFir e.videoMapper.getMaster else e

/-- One turn of the first loop of `ForwardData`; the flag is `first`. -/
def forwardOne (acc : VideoForwardElementNew × Bool) (id : Id) :
    Except Fault (VideoForwardElementNew × Bool) :=
  let e := acc.1
  let src := e.videoMapper.getSrc id
  if src = NOID then .ok acc
  else
    match e.queueMap[src]? with
    | none => .error (.nullQueue src)
    | some q =>
      match q.topPacket with
      | none => .ok acc
      | some f =>
        match e.videoSwitchContexts[id]? with
        | none => .error (.nullContext id)
        | some sc =>
          let sc := sc.advance f.seq f.ts
          let packet := sc.output f.data f.len f.marker
          let e := { e with videoSwitchContexts := e.videoSwitchContexts.insert id sc }.emit
            (.relay id f packet)
          -- the live stream gets the first packet of the pass
          if acc.2 then .ok (e.emit (.relayLive packet), false) else .ok (e, false)

/-- One turn of the second loop of `ForwardData`. -/
def popOne (e : VideoForwardElementNew) (id : Id) : Except Fault VideoForwardElementNew :=
  match e.queueMap[id]? with
  | none => .ok e
  | some q => e.putQueue id q.popPacket.2

/-- `VideoForwardElementNew::ForwardData`. -/
def forwardData (e : VideoForwardElementNew) : Except Fault VideoForwardElementNew := do
  let acc ← e.videoMapper.getAllId.foldlM forwardOne (e, true)
  acc.1.queueMap.keys.foldlM popOne acc.1

/-! ### Runs -/

/-- The public operations, and one pass of the forwarding thread. -/
inductive Op
  | linkVideoStream (stream : Id)
  | unlinkVideoStream (stream : Id)
  | changeToSpeaker (stream : Id)
  | onIncomingPacket (stream : Id) (packet : DataPacket)
  | requestSpeakerKeyFrame
  | forwardData
  deriving DecidableEq, Repr

/-- One operation. -/
def step (parse : Depacketizer) (e : VideoForwardElementNew) :
    Op → Except Fault VideoForwardElementNew
  | .linkVideoStream s => e.linkVideoStream s
  | .unlinkVideoStream s => e.unlinkVideoStream s
  | .changeToSpeaker s => e.changeToSpeaker s
  | .onIncomingPacket s p => e.onIncomingPacket parse s p
  | .requestSpeakerKeyFrame => .ok e.requestSpeakerKeyFrame
  | .forwardData => e.forwardData

/-- A run of an element from its construction. -/
def run (parse : Depacketizer) (ops : List Op) : Except Fault VideoForwardElementNew :=
  ops.foldlM (step parse) init

end VideoForwardElementNew

end Orbit
