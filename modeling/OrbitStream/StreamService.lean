/-
OrbitStream/StreamService.lean

The sessions of the stream server (`server/orbit_stream_service_impl.cc`).

A session is a `SessionData` on the heap; the table maps session ids to addresses.
Four kinds of threads work on it:

* a request looks its session up in the table and then runs under the mutex of the
  session;
* the watchdog collects the streams that have been silent for too long, closes them
  one by one, each under the mutex of its session, and then deletes the sessions
  that have been destroyed for a minute;
* a recycle thread, started by the watchdog on a session without live streams, closes
  and deletes the pipeline under no mutex;
* the network threads report incoming packets.

A step of the model is one such critical section; a recycle thread moves in three
steps, and between its lookup and its critical section a request waits in `calls`.
The registry of sessions shown on the status page only enters by what it answers:
whether it knows the session, and whether the session has a live stream.
-/
import Mathlib.Data.Finset.Card
import OrbitStream.Lib.Run

namespace Orbit

open Lib

/-- `SessionState`. -/
inductive SessionState
  | active
  | closed
  | destroyed
  deriving DecidableEq, Repr

/-- A `MediaPipeline *`. -/
inductive MediaPipeline
  | null
  | live
  /-- the object is gone, the pointer is not null -/
  | deleted
  deriving DecidableEq, Repr

/-- What a `RecycleSessionThread` does next. -/
inductive RecyclePhase
  /-- `pipeline->CloseAll()` -/
  | closing
  /-- `delete pipeline` -/
  | deleting
  /-- `pipeline = NULL`, and the rest of `Destroy` -/
  | clearing
  deriving DecidableEq, Repr

/-- `SessionData`, with the threads that run on it.  `deletes` counts how often
its pipeline has been deleted, `freed` says that the object itself has been. -/
structure SessionData where
  sessionId : Int
  pipeline : MediaPipeline := .null
  state : SessionState := .active
  destroyTime : Int := 0
  recyclers : List RecyclePhase := []
  deletes : Nat := 0
  freed : Bool := false
  deriving DecidableEq, Repr

/-- What ends the process. -/
inductive ServiceFault
  | nullPipeline (session : Int)
  | deletedPipeline (session : Int)
  | deletedSession (address : Nat)
  | nullSessionInfo (session : Int)
  deriving DecidableEq, Repr

/-- `pipeline->…`. -/
def MediaPipeline.call (p : MediaPipeline) (session : Int) : Except ServiceFault Unit :=
  match p with
  | .null => .error (.nullPipeline session)
  | .live => .ok ()
  | .deleted => .error (.deletedPipeline session)

namespace SessionData

/-- `IsActive`. -/
def isActive (o : SessionData) : Bool := o.state = .active

/-- `Close`. -/
def close (o : SessionData) : SessionData := { o with state := .closed }

/-- `CanRecycle`: destroyed for more than 60,000 ms. -/
def canRecycle (o : SessionData) (now : Int) : Bool :=
  o.state = .destroyed ∧ now - o.destroyTime > 60000

/-- `if (pipeline != NULL) pipeline->CloseAll();`. -/
def closeAll (o : SessionData) : Except ServiceFault Unit :=
  if o.pipeline = .null then .ok () else o.pipeline.call o.sessionId

/-- The first half of `Destroy`. -/
def deletePipeline (o : SessionData) : Except ServiceFault SessionData :=
  if o.pipeline = .null then .ok o
  else do
    o.pipeline.call o.sessionId
    return { o with pipeline := .deleted, deletes := o.deletes + 1 }

/-- The second half of `Destroy`. -/
def clear (o : SessionData) (now : Int) : SessionData :=
  { o with pipeline := .null, destroyTime := now, state := .destroyed }

/-- `Destroy`. -/
def destroy (o : SessionData) (now : Int) : Except ServiceFault SessionData := do
  let o ← o.deletePipeline
  return o.clear now

/-- `CloseInvalidStream`; the registry is told afterwards. -/
def closeInvalidStream (o : SessionData) : Except ServiceFault Unit :=
  o.pipeline.call o.sessionId

/-- `CheckAndRecycleSession`.  `info` is what the registry answers: nothing, or
whether the session has live streams. -/
def checkAndRecycleSession (o : SessionData) (info : Option Bool) :
    Except ServiceFault SessionData :=
  match info with
  | none => .error (.nullSessionInfo o.sessionId)
  | some true => .ok o
  | some false =>
      .ok (if o.isActive then { o.close with recyclers := o.recyclers ++ [.closing] } else o)

/-- The next step of the `i`-th recycle thread of the session. -/
def recycle (o : SessionData) (i : Nat) (now : Int) : Except ServiceFault SessionData :=
  match o.recyclers[i]? with
  | none => .ok o
  | some .closing => do
      o.closeAll
      return { o with recyclers := o.recyclers.set i .deleting }
  | some .deleting => do
      let o ← o.deletePipeline
      return { o with recyclers := o.recyclers.set i .clearing }
  | some .clearing => .ok { o.clear now with recyclers := o.recyclers.eraseIdx i }

end SessionData

/-! ### Requests -/

/-- The messages of `SendSessionMessage`, with what the pipeline or the request
itself decides about the answer. -/
inductive SendMessage
  | iceCandidate (added : Bool)
  | sdpOffer (answered : Bool)
  | message (raiseHand : Bool) (muted : Nat)
  | mute
  | streamInfo
  | publishStreams
  | getStreamVideoMap
  | probeNet
  | setPublisher (set : Bool)
  | unknown
  deriving DecidableEq, Repr

/-- The messages of `RecvSessionMessage`; the registry lists the live streams. -/
inductive RecvMessage
  | iceCandidate
  | connectStatus (liveStreams : List Int)
  | unknown
  deriving DecidableEq, Repr

/-- The requests.  `CreateStream` draws its stream id. -/
inductive Request
  | closeSession (now : Int)
  | createStream (stream now : Int)
  | closeStream (stream : Int)
  | sendSessionMessage (message : SendMessage)
  | recvSessionMessage (message : RecvMessage)
  deriving DecidableEq, Repr

/-- A request after `GetSessionData`, with the address it was given. -/
structure Call where
  sessionId : Int
  request : Request
  session : Option Nat
  deriving DecidableEq, Repr

/-- The fields of the responses. -/
structure Reply where
  error : Bool := false
  errorMessage : String := ""
  messageAnswer : String := ""
  streamId : Option Int := none
  deriving DecidableEq, Repr

/-- Status ERROR with a message. -/
def Reply.failed (message : String) : Reply := { error := true, errorMessage := message }

/-- `NetworkStatusManager::Key`: a session and a stream, in this order. -/
structure StreamKey where
  sessionId : Int
  streamId : Int
  deriving DecidableEq, Repr

/-- `operator<` of the keys. -/
def StreamKey.cmp : StreamKey → StreamKey → Ordering :=
  compareLex (compareOn StreamKey.sessionId) (compareOn StreamKey.streamId)

/-- Where the watchdog stands: asleep, or with these streams still to close. -/
inductive WatchDog
  | asleep
  | pass (removeStream : List StreamKey)
  deriving DecidableEq, Repr

/-- `OrbitStreamServiceImpl` and the threads around it.  A session's address is
its position in `objects`. -/
structure OrbitStreamService where
  objects : List SessionData := []
  sessionData : Std.TreeMap Int Nat := ∅
  streamUpdateMap : Std.TreeMap StreamKey Int StreamKey.cmp := ∅
  watchDog : WatchDog := .asleep
  calls : List Call := []
  replies : List Reply := []

namespace OrbitStreamService

/-- `GetSessionData`. -/
def getSessionData (s : OrbitStreamService) (session : Int) : Option Nat :=
  s.sessionData[session]?

/-- `GetPipeline`. -/
def getPipeline (s : OrbitStreamService) (session : Int) : MediaPipeline :=
  match (s.getSessionData session).bind fun a => s.objects[a]? with
  | none => .null
  | some o => o.pipeline

/-- The object at an address, which must not have been deleted. -/
def session (s : OrbitStreamService) (a : Nat) : Except ServiceFault SessionData :=
  match s.objects[a]? with
  | some o => if o.freed then .error (.deletedSession a) else .ok o
  | none => .error (.deletedSession a)

def setSession (s : OrbitStreamService) (a : Nat) (o : SessionData) : OrbitStreamService :=
  { s with objects := s.objects.set a o }

def reply (s : OrbitStreamService) (r : Reply) : OrbitStreamService :=
  { s with replies := s.replies ++ [r] }

/-! ### The network status -/

/-- `stream_update_map_[key] = now`, by `Init` and `UpdateStreamIncommingTime`. -/
def updateStreamTime (s : OrbitStreamService) (key : StreamKey) (now : Int) :
    OrbitStreamService :=
  { s with streamUpdateMap := s.streamUpdateMap.insert key now }

/-- `NetworkStatusManager::Destroy`. -/
def destroyStream (s : OrbitStreamService) (key : StreamKey) : OrbitStreamService :=
  { s with streamUpdateMap := s.streamUpdateMap.erase key }

/-- `TraverseStreamMap`. -/
def traverseStreamMap (s : OrbitStreamService) (leaveTime now : Int) : List StreamKey :=
  (s.streamUpdateMap.toList.filter fun p => p.2 ≠ 0 ∧ now - p.2 > leaveTime).map Prod.fst

/-! ### The requests -/

/-- `CreateSession`.  The loop that draws an id ends with one that is not in the
table; a request of an unknown type is cancelled. -/
def createSession (s : OrbitStreamService) (session : Int) (implemented : Bool) :
    OrbitStreamService :=
  if s.getSessionData session = none ∧ implemented then
    { s with
      objects := s.objects ++ [{ sessionId := session, pipeline := .live }]
      sessionData := s.sessionData.insert session s.objects.length }
  else s

/-- `CloseSession` under the mutex. -/
def closeSession (s : OrbitStreamService) (a : Nat) (o : SessionData) (now : Int) :
    Except ServiceFault OrbitStreamService :=
  if o.isActive then do
    o.close.closeAll
    let o ← o.close.destroy now
    return (s.setSession a o).reply {}
  else .ok (s.reply {})

/-- The way to the pipeline that three of the requests share. -/
def withPipeline (s : OrbitStreamService) (o : SessionData) (session : Int) (missing : String)
    (f : MediaPipeline → Except ServiceFault OrbitStreamService) :
    Except ServiceFault OrbitStreamService :=
  if o.isActive then
    if s.getPipeline session = .null then .ok (s.reply (.failed missing))
    else f (s.getPipeline session)
  else .ok (s.reply (.failed "session was closed."))

/-- `CreateStream` under the mutex. -/
def createStream (s : OrbitStreamService) (o : SessionData) (session stream now : Int) :
    Except ServiceFault OrbitStreamService :=
  s.withPipeline o session "pipeline not found." fun p => do
    p.call session
    return (s.updateStreamTime ⟨session, stream⟩ now).reply { streamId := some stream }

/-- `CloseStream` under the mutex. -/
def closeStream (s : OrbitStreamService) (o : SessionData) :
    Except ServiceFault OrbitStreamService := do
  if o.isActive ∧ o.pipeline ≠ .null then
    o.pipeline.call o.sessionId
  return s.reply {}

/-- `SendSessionMessage` under the mutex. -/
def sendSessionMessage (s : OrbitStreamService) (o : SessionData) (session : Int)
    (message : SendMessage) : Except ServiceFault OrbitStreamService :=
  s.withPipeline o session "pipeline not found." fun p => do
    match message with
    | .iceCandidate added =>
        p.call session
        return s.reply (if added then {} else .failed "AddIceCandidate has error.")
    | .sdpOffer answered =>
        p.call session
        return s.reply (if answered then {} else .failed "ProcessSdpOffer has error.")
    | .message raiseHand muted =>
        p.call session
        return s.reply { messageAnswer := if raiseHand ∨ muted = 0 then "OK" else "" }
    | .mute =>
        p.call session
        return s.reply {}
    | .streamInfo | .probeNet => return s.reply { messageAnswer := "OK" }
    | .publishStreams | .getStreamVideoMap =>
        p.call session
        return s.reply { messageAnswer := "OK" }
    | .setPublisher set =>
        p.call session
        return s.reply { messageAnswer := if set then "OK" else "FAILED" }
    | .unknown =>
        return s.reply { errorMessage := "unknown request type.", messageAnswer := "FAILED" }

/-- `RecvSessionMessage` under the mutex. -/
def recvSessionMessage (s : OrbitStreamService) (o : SessionData) (session : Int)
    (message : RecvMessage) : Except ServiceFault OrbitStreamService :=
  s.withPipeline o session "Pipeline not found." fun p => do
    match message with
    | .iceCandidate =>
        p.call session
        return s.reply {}
    | .connectStatus liveStreams =>
        liveStreams.forM fun _ => p.call session
        return s.reply {}
    | .unknown => return s.reply (.failed "unknown request type.")

/-- The answer to a request whose session is not in the table. -/
def sessionNotFound : Request → Reply
  | .closeSession _ | .closeStream _ => {}
  | .createStream _ _ | .sendSessionMessage _ | .recvSessionMessage _ =>
      .failed "session not found."

/-- A request enters its critical section. -/
def serve (s : OrbitStreamService) (c : Call) : Except ServiceFault OrbitStreamService :=
  match c.session with
  | none => .ok (s.reply (sessionNotFound c.request))
  | some a => do
      let o ← s.session a
      match c.request with
      | .closeSession now => s.closeSession a o now
      | .createStream stream now => s.createStream o c.sessionId stream now
      | .closeStream _ => s.closeStream o
      | .sendSessionMessage m => s.sendSessionMessage o c.sessionId m
      | .recvSessionMessage m => s.recvSessionMessage o c.sessionId m

/-! ### The watchdog -/

/-- One entry of the list of streams to close. -/
def watchDogEntry (s : OrbitStreamService) (key : StreamKey) (info : Option Bool) :
    Except ServiceFault OrbitStreamService :=
  match s.getSessionData key.sessionId with
  | none => .ok s
  | some a => do
      let o ← s.session a
      o.closeInvalidStream
      let o ← o.checkAndRecycleSession info
      return s.setSession a o

/-- `delete session_data_item; session_data.erase(session_id);`. -/
def deleteSession (s : OrbitStreamService) (p : Int × Nat) : OrbitStreamService :=
  { s with
    objects := s.objects.modify p.2 fun o => { o with freed := true }
    sessionData := s.sessionData.erase p.1 }

/-- `should_remove`. -/
def shouldRemove (s : OrbitStreamService) (now : Int) : List (Int × Nat) :=
  s.sessionData.toList.filter fun p => s.objects[p.2]?.any fun o => o.canRecycle now

/-- The end of a pass: sessions destroyed long ago are deleted. -/
def watchDogSweep (s : OrbitStreamService) (now : Int) : OrbitStreamService :=
  (s.shouldRemove now).foldl deleteSession s

/-! ### Runs -/

/-- The steps of the threads. -/
inductive Op
  | createSession (session : Int) (implemented : Bool)
  /-- a request looks its session up -/
  | arrive (session : Int) (request : Request)
  /-- the `i`-th waiting request enters its critical section -/
  | serve (i : Nat)
  /-- `UpdateStreamIncommingTime` -/
  | incomingPacket (key : StreamKey) (now : Int)
  /-- an endpoint is deleted, by a thread of its own -/
  | destroyStream (key : StreamKey)
  /-- the watchdog wakes up -/
  | traverse (now : Int)
  /-- the watchdog closes the next stream of its list -/
  | watchDogEntry (info : Option Bool)
  /-- the watchdog is through with its list -/
  | watchDogSweep (now : Int)
  /-- a recycle thread of the session at `a` moves -/
  | recycle (a i : Nat) (now : Int)
  deriving DecidableEq, Repr

/-- One step; `leaveTime` is `FLAGS_leave_time`.  A step of a thread that is not
there, or not that far, changes nothing. -/
def step (leaveTime : Int) (s : OrbitStreamService) : Op → Except ServiceFault OrbitStreamService
  | .createSession session implemented => .ok (s.createSession session implemented)
  | .arrive session request =>
      .ok { s with calls := s.calls ++ [⟨session, request, s.getSessionData session⟩] }
  | .serve i =>
      match s.calls[i]? with
      | none => .ok s
      | some c => { s with calls := s.calls.eraseIdx i }.serve c
  | .incomingPacket key now => .ok (s.updateStreamTime key now)
  | .destroyStream key => .ok (s.destroyStream key)
  | .traverse now =>
      match s.watchDog with
      | .asleep => .ok { s with watchDog := .pass (s.traverseStreamMap leaveTime now) }
      | .pass _ => .ok s
  | .watchDogEntry info =>
      match s.watchDog with
      | .pass (key :: rest) => { s with watchDog := .pass rest }.watchDogEntry key info
      | _ => .ok s
  | .watchDogSweep now =>
      match s.watchDog with
      | .pass [] => .ok ({ s with watchDog := .asleep }.watchDogSweep now)
      | _ => .ok s
  | .recycle a i now =>
      match s.objects[a]? with
      | none => .ok s
      | some o =>
          if o.recyclers[i]? = none then .ok s
          else do
            let o ← s.session a
            return s.setSession a (← o.recycle i now)

/-- A run of the server from its start. -/
def run (leaveTime : Int) (ops : List Op) : Except ServiceFault OrbitStreamService :=
  ops.foldlM (step leaveTime) {}

end OrbitStreamService

end Orbit
