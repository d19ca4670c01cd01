/-
OrbitStream/TimeRecorder.lean

The timeline of a class (`replay_pipeline/time_recorder.cc`): when each stream entered and left
the class, and between which times packets of it came in.

A stream that enters gets an item with the events `ENTER`, `START` and `STOP`; the times of the
last two are filled in as packets come in, and each time it leaves a `LEAVE` is added.  A stream
that comes back is not entered again.  `timeline` says what the items are after any run.
-/
import Mathlib.Algebra.Order.Group.Int
import Mathlib.Data.List.Induction
import Mathlib.Data.List.Nodup
import Mathlib.Data.List.TakeWhile

namespace Orbit.Timeline

/-! ### `session_timer.proto` -/

inductive EventType
  | none
  | enter
  | start
  | stop
  | leave
  deriving DecidableEq, Repr

inductive StreamType
  | normal
  | teacher
  | student
  deriving DecidableEq, Repr

structure StreamEvent where
  eventType : EventType
  eventTime : Int := 0
  deriving DecidableEq, Repr

structure StreamItem where
  streamId : UInt32
  streamType : StreamType
  streamEvents : List StreamEvent
  deriving DecidableEq, Repr

/-! ### The recorder -/

/-- `TimeRecorder`: the time it was made at, and the items of its `SessionTimer`. -/
structure TimeRecorder where
  startRealTime : Int
  streamItems : List StreamItem := []
  deriving DecidableEq, Repr

/-- `for (..) if (item->stream_id() == stream_id) { ..; break; }` -/
def updateItem (streamId : UInt32) (f : StreamItem → StreamItem) :
    List StreamItem → List StreamItem
  | [] => []
  | item :: items =>
    if item.streamId = streamId then f item :: items else item :: updateItem streamId f items

/-- The loop over the events in `UpdateStream`: `clock j` is what the clock says at event `j`. -/
def updateEvents (startRealTime : Int) (clock : Nat → Int) :
    Nat → List StreamEvent → List StreamEvent
  | _, [] => []
  | j, event :: events =>
    (if event.eventType = .start ∧ event.eventTime = 0 then
      { event with eventTime := clock j - startRealTime }
    else if event.eventType = .stop then { event with eventTime := clock j - startRealTime }
    else event) :: updateEvents startRealTime clock (j + 1) events

namespace TimeRecorder

/-- `AddStream` -/
def addStream (t : TimeRecorder) (streamId : UInt32) (type : StreamType) (now : Int) :
    TimeRecorder :=
  if t.streamItems.any (fun item => item.streamId = streamId) = true then t
  else { t with streamItems := t.streamItems ++ [{
    streamId := streamId
    streamType := type
    streamEvents := [⟨.enter, now - t.startRealTime⟩, ⟨.start, 0⟩, ⟨.stop, 0⟩] }] }

/-- `RemoveStream` -/
def removeStream (t : TimeRecorder) (streamId : UInt32) (now : Int) : TimeRecorder :=
  let leave (item : StreamItem) : StreamItem :=
    { item with streamEvents := item.streamEvents ++ [⟨.leave, now - t.startRealTime⟩] }
  { t with streamItems := updateItem streamId leave t.streamItems }

/-- `UpdateStream` -/
def updateStream (t : TimeRecorder) (streamId : UInt32) (clock : Nat → Int) : TimeRecorder :=
  let update (item : StreamItem) : StreamItem :=
    { item with streamEvents := updateEvents t.startRealTime clock 0 item.streamEvents }
  { t with streamItems := updateItem streamId update t.streamItems }

end TimeRecorder

/-- What a class does to its recorder. -/
inductive Call
  | addStream (streamId : UInt32) (type : StreamType) (now : Int)
  | removeStream (streamId : UInt32) (now : Int)
  | updateStream (streamId : UInt32) (clock : Nat → Int)

/-- The stream of a call. -/
def Call.streamId : Call → UInt32
  | .addStream streamId _ _ => streamId
  | .removeStream streamId _ => streamId
  | .updateStream streamId _ => streamId

/-- What the clock said in a call: at the second and third event, for a packet. -/
def Call.times : Call → List Int
  | .addStream _ _ now => [now]
  | .removeStream _ now => [now]
  | .updateStream _ clock => [clock 1, clock 2]

def TimeRecorder.call (t : TimeRecorder) : Call → TimeRecorder
  | .addStream streamId type now => t.addStream streamId type now
  | .removeStream streamId now => t.removeStream streamId now
  | .updateStream streamId clock => t.updateStream streamId clock

/-- A recorder that was made at some time, after some calls. -/
def run (startRealTime : Int) (calls : List Call) : TimeRecorder :=
  calls.foldl TimeRecorder.call { startRealTime }

/-! ### What is expected -/

section

variable (startRealTime : Int) (streamId : UInt32)

/-- The call is an `AddStream` for the stream. -/
def Call.adds : Call → Bool
  | .addStream id _ _ => id = streamId
  | _ => false

/-- The times at which packets of the stream came in: what is written to `START`, and to
`STOP`. -/
def packetTimes (calls : List Call) : List (Int × Int) :=
  calls.filterMap fun
    | .updateStream id clock =>
      if id = streamId then some (clock 1 - startRealTime, clock 2 - startRealTime) else none
    | _ => none

/-- The times at which the stream left. -/
def leaveTimes (calls : List Call) : List Int :=
  calls.filterMap fun
    | .removeStream id now => if id = streamId then some (now - startRealTime) else none
    | _ => none

/-- The time of the first packet, if it is not zero: else of the next one. -/
def startTime (calls : List Call) : Int :=
  (((packetTimes startRealTime streamId calls).map Prod.fst).find? (· ≠ 0)).getD 0

/-- The time of the last packet. -/
def stopTime (calls : List Call) : Int :=
  (((packetTimes startRealTime streamId calls).map Prod.snd).getLast?).getD 0

/-- The events of a stream that entered at some time, and the calls after that. -/
def events (now : Int) (calls : List Call) : List StreamEvent :=
  ⟨.enter, now - startRealTime⟩ :: ⟨.start, startTime startRealTime streamId calls⟩ ::
    ⟨.stop, stopTime startRealTime streamId calls⟩ ::
      (leaveTimes startRealTime streamId calls).map fun time => ⟨.leave, time⟩

/-- The item of a stream. -/
def expected (calls : List Call) : Option StreamItem :=
  match calls.dropWhile fun c => !c.adds streamId with
  | .addStream _ type now :: calls => some {
      streamId := streamId
      streamType := type
      streamEvents := events startRealTime streamId now calls }
  | _ => none

end

/-! ### The items -/

/-- The item of a stream, as the loops find it. -/
def TimeRecorder.item (t : TimeRecorder) (streamId : UInt32) : Option StreamItem :=
  t.streamItems.find? fun item => item.streamId = streamId

section

variable {streamId id : UInt32} {f : StreamItem → StreamItem} {items : List StreamItem}

end

section

variable {startRealTime : Int} {clock : Nat → Int} {leaves : List Int}

end

section

variable (startRealTime : Int) (streamId : UInt32) (calls : List Call)

end

/-! ### Runs -/

section

variable (startRealTime : Int) (id : UInt32)

variable {startRealTime id} {calls : List Call}

end

/-! ### The times -/

/-- The clock does not go back. -/
def InOrder (startRealTime : Int) (calls : List Call) : Prop :=
  (startRealTime :: calls.flatMap Call.times).Pairwise fun x y => x ≤ y

/-- `ENTER` comes first; then packets came in between `START` and `STOP`, if there were any; and
the stream left now and then. -/
def Ordered (events : List StreamEvent) : Prop :=
  ∃ enter start stop leaves,
    events = ⟨.enter, enter⟩ :: ⟨.start, start⟩ :: ⟨.stop, stop⟩ ::
      leaves.map (fun time => ⟨.leave, time⟩) ∧
    0 ≤ enter ∧ (start = 0 ∧ stop = 0 ∨ enter ≤ start ∧ start ≤ stop) ∧
    (enter :: leaves).Pairwise fun x y => x ≤ y

section

variable {startRealTime : Int} {id : UInt32} {calls : List Call}

end

/-- A teacher enters, two packets come in, and the teacher leaves, comes back and leaves. -/
def comesBack : List Call :=
  [.addStream 1 .teacher 5, .updateStream 1 fun _ => 7, .updateStream 1 fun _ => 8,
    .removeStream 1 9, .addStream 1 .teacher 10, .removeStream 1 12]

example : expected 5 1 comesBack = some {
    streamId := 1
    streamType := .teacher
    streamEvents := [⟨.enter, 0⟩, ⟨.start, 2⟩, ⟨.stop, 3⟩, ⟨.leave, 4⟩, ⟨.leave, 7⟩] } := by
  decide

end Orbit.Timeline
