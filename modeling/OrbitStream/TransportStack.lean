/-
OrbitStream/TransportStack.lean

The transport of a stream: `NiceConnection` (`nice_connection.cc`), `DtlsTransport`
(`dtls_transport.cc`), the two `SrtpChannel`s (`srtp_channel.cc`), and of the DTLS sockets
(`dtls/DtlsSocket.cpp`) what decides when a handshake is complete.  libnice, libsrtp and the
TLS library are outside: the first two give events and functions, the last one the outcome of
each round of a handshake.

Four threads meet here: the one of libnice, the one that takes packets from the queue
(`getNiceDataLoop`), the one that sends, and the timer of a `Resender`.  An event is what
one of them does at a time.  `onHandshakeCompleted` is two events: it puts a new channel
in place, and gives it the keys later.  TRANSPORT_READY is reported as soon as ICE is
ready, with no regard to the handshake, and a channel without keys lets RTP pass as it is;
`cleartext_iff` says that this is the only way in which media leave in the clear, and that
nothing is accepted in the clear.  `stopped_is_final` says what follows a failure of ICE, and
`nice_queue` which of the packets received are processed, and in which order.
-/
import Mathlib.Data.List.Basic
import Mathlib.Logic.Function.Basic
import OrbitStream.Rtp

namespace Orbit.TransportStack

/-! ### States -/

inductive IceState
  | initial
  | gatheringDone
  | ready
  | finished
  | failed
  deriving DecidableEq, Repr

/-- `NiceComponentState`, as it comes from libnice. -/
inductive NiceComponentState
  | disconnected
  | gathering
  | connecting
  | connected
  | ready
  | failed
  | last
  deriving DecidableEq, Repr

inductive TransportState
  | initial
  | started
  | gathered
  | ready
  | finished
  | failed
  deriving DecidableEq, Repr

/-- A component of the ICE stream, and what belongs to it: the second one is for RTCP, and
only there without `rtcp_mux`. -/
inductive Comp
  | rtp
  | rtcp
  deriving DecidableEq, Repr

/-- `NiceConnection`.  The queue has its oldest packet in front.  `received` and `taken` are
a log of what was put into it and what was taken out. -/
structure Nice where
  iceState : IceState := .initial
  running : Bool := true
  compStateList : Comp → IceState := fun _ => .initial
  lastCandidateTimestamp : Int := -1
  niceQueue : List (Comp × List UInt8) := []
  dropQueuePacket : Nat := 0
  received : List (Comp × List UInt8) := []
  taken : List (Comp × List UInt8) := []

/-- libsrtp: `srtp_create` for one direction, and what changes a packet.  Each call may
change the session. -/
structure Srtp (σ : Type) where
  create : Bool → List UInt8 → Option σ
  protect : σ → List UInt8 → σ × Option (List UInt8)
  protectRtcp : σ → List UInt8 → σ × Option (List UInt8)
  unprotect : σ → List UInt8 → σ × Option (List UInt8)
  unprotectRtcp : σ → List UInt8 → σ × Option (List UInt8)

/-- `SrtpChannel` -/
structure SrtpChannel (σ : Type) where
  active : Bool := false
  sendSession : Option σ := none
  receiveSession : Option σ := none

/-- `DtlsSocketContext`, its socket and its `Resender`.  `resendStatus` is `sent_`. -/
structure DtlsContext where
  started : Bool := false
  handshakeCompleted : Bool := false
  resenderArmed : Bool := false
  resendStatus : Int := 0
  deriving DecidableEq, Repr

/-- A handshake that is complete, up to the keys for its channel. -/
structure Pending where
  comp : Comp
  clientKey : List UInt8
  serverKey : List UInt8
  flight : List UInt8
  deriving DecidableEq, Repr

/-- What a datagram or a packet went through. -/
inductive Kind
  | dtls
  | srtp
  | clear
  deriving DecidableEq, Repr

structure Datagram where
  comp : Comp
  kind : Kind
  data : List UInt8
  deriving DecidableEq, Repr

/-- `DtlsTransport`, with what it gave to libnice and to `onTransportData`. -/
structure Stack (σ : Type) where
  nice : Nice := {}
  state : TransportState := .initial
  running : Bool := true
  contexts : Comp → DtlsContext := fun _ => {}
  channels : Comp → Option (SrtpChannel σ) := fun _ => none
  ready : Comp → Bool := fun _ => false
  pending : Option Pending := none
  wire : List Datagram := []
  delivered : List Datagram := []

/-- What `SSL_do_handshake` has come to.  A peer that did not authenticate has no keys. -/
inductive Outcome
  | continues (flight : List UInt8)
  | completes (keys : Option (List UInt8 × List UInt8)) (flight : List UInt8)
  deriving DecidableEq, Repr

inductive Event
  | componentState (c : Comp) (state : NiceComponentState) (now : Int) (hello : Comp → List UInt8)
  | gatheringDone
  | setRemoteCandidates (now : Int)
  /-- a datagram of at most 1500 bytes -/
  | receive (c : Comp) (data : List UInt8)
  | loop (outcome : Outcome)
  | keys
  | write (data : List UInt8)
  | resend (c : Comp) (data : List UInt8) (sent : Bool)
  | close

/-! ### `NiceConnection` -/

/-- `NICE_QUEUE_MAX_NUMBER` -/
abbrev niceQueueMaxNumber : Nat := 1000

/-- `REMOTE_CANDIDATE_TIMEOUT` -/
abbrev remoteCandidateTimeout : Int := 60000

namespace Nice

/-- `updateIceState`, and the state that the listener is told. -/
def updateIceState (n : Nice) (state : IceState) : Nice × Option IceState :=
  if n.iceState = state then (n, none)
  else match state with
    -- only `onCandidateGatheringDone` is called
    | .gatheringDone => (n, none)
    | .finished => ({ n with iceState := .finished, running := false }, none)
    | .failed => ({ n with iceState := .failed, running := false }, some .failed)
    | state => ({ n with iceState := state }, some state)

/-- The state that `updateComponentState` makes of the one of a component. -/
def componentIceState (n : Nice) : NiceComponentState → IceState
  | .connected => .ready
  | .failed => .failed
  | _ => n.iceState

/-- `updateComponentState`, with the components of the stream. -/
def updateComponentState (n : Nice) (components : List Comp) (c : Comp)
    (componentState : NiceComponentState) (now : Int) : Nice × Option IceState :=
  let niceState := n.componentIceState componentState
  -- the failure may be of a candidate for which others are still to come
  if niceState = .failed ∧ n.lastCandidateTimestamp ≠ -1 ∧
      now - n.lastCandidateTimestamp < remoteCandidateTimeout then (n, none)
  else
    let n := { n with compStateList := Function.update n.compStateList c niceState }
    if (niceState = .ready ∨ niceState = .failed) ∧ ∃ c ∈ components, n.compStateList c ≠ niceState
    then (n, none)
    else n.updateIceState niceState

/-- `queueData`, of a packet that `dataPacket::data` has room for: at most 1500 bytes. -/
def queueData (n : Nice) (c : Comp) (data : List UInt8) : Nice :=
  if n.iceState = .ready ∧ n.running = true then
    let dropped := n.niceQueue.length - niceQueueMaxNumber
    { n with
      niceQueue := n.niceQueue.drop dropped ++ [(c, data)]
      dropQueuePacket := n.dropQueuePacket + dropped
      received := n.received ++ [(c, data)] }
  else n

/-- `close` -/
def close (n : Nice) : Nice :=
  if n.iceState = .finished then n else ({ n with running := false }.updateIceState .finished).1

end Nice

/-! ### `SrtpChannel` -/

section

variable {σ : Type} (srtp : Srtp σ)

/-- `setRtpParams` of a new channel. -/
def SrtpChannel.setRtpParams (sendingKey receivingKey : List UInt8) : SrtpChannel σ :=
  match srtp.create true sendingKey with
  | none => {}
  | some send =>
    match srtp.create false receivingKey with
    | none => { sendSession := some send }
    | some receive => { active := true, sendSession := some send, receiveSession := some receive }

/-- The first three bits and the type tell RTCP. -/
def isRtcp (data : List UInt8) : Bool :=
  decide (RtpHeader.byte data 1 ∈ [200, 204, 203, 201, 206, 205])

/-- `protectRtp`: the channel, and the packet if the return value is 0.  A channel that is not
active does nothing. -/
def SrtpChannel.protectRtp (ch : SrtpChannel σ) (data : List UInt8) :
    Option (SrtpChannel σ × Option (Kind × List UInt8)) :=
  if ch.active = true then do
    let session ← ch.sendSession
    let r := srtp.protect session data
    some ({ ch with sendSession := some r.1 }, r.2.map fun d => (.srtp, d))
  else some (ch, some (.clear, data))

/-- `protectRtcp`, which does not ask whether the channel is active.  Without a session
libsrtp fails, and with it the process. -/
def SrtpChannel.protectRtcp (ch : SrtpChannel σ) (data : List UInt8) :
    Option (SrtpChannel σ × Option (Kind × List UInt8)) := do
  let session ← ch.sendSession
  let r := srtp.protectRtcp session data
  some ({ ch with sendSession := some r.1 }, r.2.map fun d => (.srtp, d))

def SrtpChannel.unprotectRtp (ch : SrtpChannel σ) (data : List UInt8) :
    Option (SrtpChannel σ × Option (Kind × List UInt8)) :=
  if ch.active = true then do
    let session ← ch.receiveSession
    let r := srtp.unprotect session data
    some ({ ch with receiveSession := some r.1 }, r.2.map fun d => (.srtp, d))
  else some (ch, some (.clear, data))

def SrtpChannel.unprotectRtcp (ch : SrtpChannel σ) (data : List UInt8) :
    Option (SrtpChannel σ × Option (Kind × List UInt8)) := do
  let session ← ch.receiveSession
  let r := srtp.unprotectRtcp session data
  some ({ ch with receiveSession := some r.1 }, r.2.map fun d => (.srtp, d))

/-- What `DtlsTransport::write` calls for a packet. -/
def SrtpChannel.protect (ch : SrtpChannel σ) (data : List UInt8) :
    Option (SrtpChannel σ × Option (Kind × List UInt8)) :=
  if isRtcp data = true then ch.protectRtcp srtp data else ch.protectRtp srtp data

/-- What `DtlsTransport::onNiceData` calls for one. -/
def SrtpChannel.unprotect (ch : SrtpChannel σ) (data : List UInt8) :
    Option (SrtpChannel σ × Option (Kind × List UInt8)) :=
  if isRtcp data = true then ch.unprotectRtcp srtp data else ch.unprotectRtp srtp data

/-! ### `DtlsTransport` -/

variable (rtcpMux isServer : Bool)

/-- The components that there are. -/
def components : List Comp := if rtcpMux then [.rtp] else [.rtp, .rtcp]

namespace Stack

/-- `NiceConnection::sendData` -/
def sendData (s : Stack σ) (c : Comp) (kind : Kind) (data : List UInt8) : Stack σ :=
  if s.nice.iceState = .ready ∧ s.nice.running = true then
    { s with wire := s.wire ++ [⟨c, kind, data⟩] }
  else s

def updateTransportState (s : Stack σ) (state : TransportState) : Stack σ := { s with state := state }

/-- `writeDtls`, if there is something to write: a `Resender` is started, and the data sent. -/
def writeDtls (s : Stack σ) (c : Comp) (data : List UInt8) : Stack σ :=
  if data = [] then s
  else
    let context := { s.contexts c with resenderArmed := true, resendStatus := 0 }
    { s with contexts := Function.update s.contexts c context }.sendData c .dtls data

def markStarted (s : Stack σ) (c : Comp) : Stack σ :=
  { s with contexts := Function.update s.contexts c { s.contexts c with started := true } }

/-- `DtlsSocketContext::start`; the first round of a client writes its hello. -/
def start (s : Stack σ) (c : Comp) (hello : List UInt8) : Stack σ :=
  if (s.contexts c).handshakeCompleted = true then s.markStarted c
  else (s.markStarted c).writeDtls c hello

/-- The client side of `updateIceState`. -/
def startClient (s : Stack σ) (hello : Comp → List UInt8) : Stack σ :=
  if isServer = true then s
  else
    let s := if (s.contexts .rtp).started = true then s else s.start .rtp (hello .rtp)
    if rtcpMux = false ∧
        ((s.contexts .rtcp).started = false ∨ (s.contexts .rtcp).resendStatus < 0) then
      s.start .rtcp (hello .rtcp)
    else s

/-- `DtlsTransport::updateIceState` -/
def updateIceState (s : Stack σ) (hello : Comp → List UInt8) : IceState → Stack σ
  | .initial => s.updateTransportState .started
  | .gatheringDone => s.updateTransportState .gathered
  | .failed => { s with running := false }.updateTransportState .failed
  | .ready => (s.startClient rtcpMux isServer hello).updateTransportState .ready
  | .finished => s

/-- What libnice tells about a component. -/
def onComponentState (s : Stack σ) (c : Comp) (state : NiceComponentState) (now : Int)
    (hello : Comp → List UInt8) : Stack σ :=
  let r := s.nice.updateComponentState (components rtcpMux) c state now
  let s := { s with nice := r.1 }
  match r.2 with
  | some state => s.updateIceState rtcpMux isServer hello state
  | none => s

/-- `DtlsFactory::demuxPacket` -/
def isDtlsPacket (data : List UInt8) : Bool :=
  decide (20 ≤ RtpHeader.byte data 0 ∧ RtpHeader.byte data 0 ≤ 64)

/-- `DtlsSocketContext::read`, up to the first half of `onHandshakeCompleted`. -/
def readDtls (s : Stack σ) (c : Comp) (outcome : Outcome) : Stack σ :=
  -- a `Resender` that there is is cancelled
  let context := { s.contexts c with resenderArmed := false, resendStatus := 1 }
  let s := { s with contexts := Function.update s.contexts c context }
  if context.handshakeCompleted = true then s
  else match outcome with
    | .continues flight => s.writeDtls c flight
    | .completes keys flight =>
      let s := { s with
        contexts := Function.update s.contexts c { context with handshakeCompleted := true } }
      match keys with
      | none => s.writeDtls c flight
      | some (clientKey, serverKey) =>
        { s with
          channels := Function.update s.channels c (some {})
          pending := some ⟨c, clientKey, serverKey, flight⟩ }

/-- What `onHandshakeCompleted` makes of the return value of `setRtpParams`. -/
def updateReady (s : Stack σ) (c : Comp) (success : Bool) : Stack σ :=
  let s := if success = true then { s with ready := Function.update s.ready c true }
    else s.updateTransportState .failed
  let s := if c = .rtp ∧ rtcpMux = true then { s with ready := Function.update s.ready .rtcp true }
    else s
  if s.ready .rtp = true ∧ s.ready .rtcp = true then s.updateTransportState .ready else s

/-- The other half of it, and the last flight of the handshake behind it. -/
def setKeys (s : Stack σ) (p : Pending) : Stack σ :=
  let (sendingKey, receivingKey) :=
    if isServer = true then (p.serverKey, p.clientKey) else (p.clientKey, p.serverKey)
  let channel := SrtpChannel.setRtpParams srtp sendingKey receivingKey
  let s := { s with
    channels := Function.update s.channels p.comp (some channel)
    pending := none }
  (s.updateReady rtcpMux p.comp channel.active).writeDtls p.comp p.flight

/-- `onNiceData` -/
def onNiceData (s : Stack σ) (c : Comp) (data : List UInt8) (outcome : Outcome) :
    Option (Stack σ) :=
  if isDtlsPacket data = true then some (s.readDtls c outcome)
  else if s.state = .ready then
    let channel : Comp := if rtcpMux = false ∧ c = .rtcp then .rtcp else .rtp
    match s.channels channel with
    | none => some s
    | some ch => do
      let r ← ch.unprotect srtp data
      let s := { s with channels := Function.update s.channels channel (some r.1) }
      match r.2 with
      | none => some s
      | some (kind, plain) =>
        if plain.length = 0 then some s
        else some { s with delivered := s.delivered ++ [⟨c, kind, plain⟩] }
  else some s

/-- A round of `getNiceDataLoop`. -/
def getNiceDataLoop (s : Stack σ) (outcome : Outcome) : Option (Stack σ) :=
  if s.nice.iceState = .finished ∨ s.nice.running = false then some { s with running := false }
  else match s.nice.niceQueue with
    | [] => some s
    | (c, data) :: rest =>
      let nice := { s.nice with niceQueue := rest, taken := s.nice.taken ++ [(c, data)] }
      { s with nice := nice }.onNiceData srtp rtcpMux c data outcome

/-- `DtlsTransport::write` -/
def write (s : Stack σ) (data : List UInt8) : Option (Stack σ) :=
  if s.state = .ready then
    let c : Comp := if isRtcp data = true ∧ rtcpMux = false then .rtcp else .rtp
    match s.channels c with
    | none => some s
    | some ch =>
      if s.nice.iceState = .ready then do
        let r ← ch.protect srtp data
        let s := { s with channels := Function.update s.channels c (some r.1) }
        match r.2 with
        | none => some s
        | some (kind, out) => if out.length ≤ 10 then some s else some (s.sendData c kind out)
      else some s
  else some s

/-- `Resender::resend`: the pointer to the flight is still there, but not always the flight,
so the data are what its memory holds now. -/
def resend (s : Stack σ) (c : Comp) (data : List UInt8) (sent : Bool) : Stack σ :=
  let status : Int :=
    if s.nice.iceState = .ready ∧ s.nice.running = true ∧ sent = true then 2 else -1
  let context := { s.contexts c with resenderArmed := false, resendStatus := status }
  { s with contexts := Function.update s.contexts c context }.sendData c .dtls data

/-- The destructor of `DtlsTransport`. -/
def close (s : Stack σ) : Stack σ := { s with running := false, nice := s.nice.close }

end Stack

/-- What can happen.  An event that cannot happen in a state yields nothing: the callbacks of
libnice end with `close`, the loop with `running_`, and while a handshake is pending the loop is
in it. -/
def step (s : Stack σ) : Event → Option (Stack σ)
  | .componentState c state now hello =>
    if s.nice.iceState ≠ .finished ∧ c ∈ components rtcpMux then
      some (s.onComponentState rtcpMux isServer c state now hello)
    else none
  | .gatheringDone => if s.nice.iceState ≠ .finished then some s else none
  | .setRemoteCandidates now =>
    some { s with nice := { s.nice with
      lastCandidateTimestamp := now
      running := s.nice.running && s.nice.iceState ≠ .finished } }
  | .receive c data =>
    if s.nice.iceState ≠ .finished ∧ c ∈ components rtcpMux ∧ data ≠ [] then
      some { s with nice := s.nice.queueData c data }
    else none
  | .loop outcome =>
    if s.running = true ∧ s.pending = none then s.getNiceDataLoop srtp rtcpMux outcome else none
  | .keys => s.pending.map (s.setKeys srtp rtcpMux isServer)
  | .write data => s.write srtp rtcpMux data
  | .resend c data sent =>
    if (s.contexts c).resenderArmed = true then some (s.resend c data sent) else none
  | .close => some s.close

/-- An interleaving. -/
def run (s : Stack σ) (events : List Event) : Option (Stack σ) :=
  events.foldlM (step srtp rtcpMux isServer) s

end

/-! ### Writing a flight -/

section

variable {σ : Type}

/-- What a function may do that writes flights: the contexts are used, and what goes out is
DTLS. -/
structure Quiet (s s' : Stack σ) : Prop where
  nice : s'.nice = s.nice
  state : s'.state = s.state
  running : s'.running = s.running
  channels : s'.channels = s.channels
  ready : s'.ready = s.ready
  pending : s'.pending = s.pending
  delivered : s'.delivered = s.delivered
  completed : ∀ c, (s'.contexts c).handshakeCompleted = (s.contexts c).handshakeCompleted
  wire : ∃ new, s'.wire = s.wire ++ new ∧ (s.nice.running = false → new = []) ∧
    ∀ d ∈ new, d.kind = .dtls

theorem Quiet.refl (s : Stack σ) : Quiet s s :=
  ⟨rfl, rfl, rfl, rfl, rfl, rfl, rfl, fun _ => rfl, [], (List.append_nil _).symm, fun _ => rfl,
    fun _ hd => absurd hd List.not_mem_nil⟩

theorem Quiet.trans {s s' s'' : Stack σ} (h : Quiet s s') (h' : Quiet s' s'') : Quiet s s'' where
  nice := h'.nice.trans h.nice
  state := h'.state.trans h.state
  running := h'.running.trans h.running
  channels := h'.channels.trans h.channels
  ready := h'.ready.trans h.ready
  pending := h'.pending.trans h.pending
  delivered := h'.delivered.trans h.delivered
  completed c := (h'.completed c).trans (h.completed c)
  wire := by
    obtain ⟨new, hwire, hstopped, hdtls⟩ := h.wire
    obtain ⟨new', hwire', hstopped', hdtls'⟩ := h'.wire
    refine ⟨new ++ new', by rw [hwire', hwire, List.append_assoc], ?_, ?_⟩
    · intro hrun
      rw [hstopped hrun, hstopped' (by rw [h.nice]; exact hrun)]
      rfl
    · intro d hd
      rcases List.mem_append.mp hd with hd | hd
      · exact hdtls d hd
      · exact hdtls' d hd

/-- What changes of a context is not whether its handshake is complete. -/
theorem completed_update (s : Stack σ) (c : Comp) {context : DtlsContext}
    (h : context.handshakeCompleted = (s.contexts c).handshakeCompleted) (c' : Comp) :
    (Function.update s.contexts c context c').handshakeCompleted =
      (s.contexts c').handshakeCompleted := by
  by_cases hc : c' = c
  · subst hc
    rw [Function.update_self, h]
  · rw [Function.update_of_ne hc]

theorem quiet_update (s : Stack σ) (c : Comp) (context : DtlsContext)
    (h : context.handshakeCompleted = (s.contexts c).handshakeCompleted) :
    Quiet s { s with contexts := Function.update s.contexts c context } :=
  ⟨rfl, rfl, rfl, rfl, rfl, rfl, rfl, completed_update s c h, [], (List.append_nil _).symm,
    fun _ => rfl, fun _ hd => absurd hd List.not_mem_nil⟩

theorem quiet_sendData (s : Stack σ) (c : Comp) (data : List UInt8) :
    Quiet s (s.sendData c .dtls data) := by
  rw [Stack.sendData]
  split
  · next hopen =>
    refine ⟨rfl, rfl, rfl, rfl, rfl, rfl, rfl, fun _ => rfl, _, rfl, ?_, ?_⟩
    · intro hrun
      rw [hopen.2] at hrun
      cases hrun
    · intro d hd
      rw [List.mem_singleton.mp hd]
  · exact Quiet.refl s

theorem quiet_writeDtls (s : Stack σ) (c : Comp) (data : List UInt8) :
    Quiet s (s.writeDtls c data) := by
  rw [Stack.writeDtls]
  split
  · exact Quiet.refl s
  · exact (quiet_update s c _ (by rfl)).trans (quiet_sendData _ c data)

theorem quiet_start (s : Stack σ) (c : Comp) (hello : List UInt8) : Quiet s (s.start c hello) := by
  have hstarted : Quiet s (s.markStarted c) :=
    quiet_update s c { s.contexts c with started := true } rfl
  rw [Stack.start]
  split
  · exact hstarted
  · exact hstarted.trans (quiet_writeDtls _ c hello)

theorem quiet_startClient (rtcpMux isServer : Bool) (s : Stack σ) (hello : Comp → List UInt8) :
    Quiet s (s.startClient rtcpMux isServer hello) := by
  have hrtp : Quiet s (if (s.contexts .rtp).started = true then s
      else s.start .rtp (hello .rtp)) := by
    split
    · exact Quiet.refl s
    · exact quiet_start s .rtp _
  have hrtcp : ∀ s : Stack σ, Quiet s (if rtcpMux = false ∧
      ((s.contexts .rtcp).started = false ∨ (s.contexts .rtcp).resendStatus < 0) then
        s.start .rtcp (hello .rtcp) else s) := by
    intro s
    split
    · exact quiet_start s .rtcp _
    · exact Quiet.refl s
  dsimp only [Stack.startClient]
  by_cases hserver : isServer = true
  · rw [if_pos hserver]
    exact Quiet.refl s
  · rw [if_neg hserver]
    exact hrtp.trans (hrtcp _)

/-! ### What every interleaving keeps -/

structure Inv (rtcpMux : Bool) (s : Stack σ) : Prop where
  queue : ∀ p ∈ s.nice.niceQueue, p.1 ∈ components rtcpMux
  down : s.nice.iceState = .failed ∨ s.nice.iceState = .finished → s.nice.running = false
  heard : s.nice.niceQueue ≠ [] ∨ (∃ c, (s.channels c).isSome) →
    s.nice.iceState = .ready ∨ s.nice.running = false
  shaken : ∀ c, (s.channels c).isSome →
    c ∈ components rtcpMux ∧ (s.contexts c).handshakeCompleted = true
  pending : ∀ p ∈ s.pending, s.channels p.comp = some {}
  ready : ∀ c ∈ components rtcpMux, s.ready c = true →
    ∃ ch, s.channels c = some ch ∧ ch.active = true
  -- a channel that did not get its keys is of no use any more
  keyed : ∀ c ch, s.channels c = some ch → ch.active = false →
    (∀ p ∈ s.pending, p.comp ≠ c) → s.state = .ready → s.nice.running = false
  delivered : ∀ d ∈ s.delivered, d.kind ≠ .clear

/-- The state before the write of a packet that goes out in the clear. -/
structure Leaks (s : Stack σ) (data : List UInt8) : Prop where
  rtp : isRtcp data = false
  length : 10 < data.length
  state : s.state = .ready
  iceState : s.nice.iceState = .ready
  running : s.nice.running = true
  pending : ∃ p ∈ s.pending, p.comp = .rtp

/-- The queue of a connection, and its log. -/
structure SameQueue (n n' : Nice) : Prop where
  niceQueue : n'.niceQueue = n.niceQueue
  dropQueuePacket : n'.dropQueuePacket = n.dropQueuePacket
  received : n'.received = n.received
  taken : n'.taken = n.taken

/-- What an event does to the queue. -/
inductive QueueStep (n n' : Nice) : Prop
  | same (h : SameQueue n n')
  | push (c : Comp) (data : List UInt8) (hrun : n.running = true) (h : n' = n.queueData c data)
  | take (p : Comp × List UInt8) (rest : List (Comp × List UInt8)) (hrun : n.running = true)
      (hq : n.niceQueue = p :: rest)
      (h : n' = { n with niceQueue := rest, taken := n.taken ++ [p] })

/-- What an event does to the connection. -/
structure NiceStep (n n' : Nice) : Prop where
  stays : n.running = false → n'.running = false
  queue : QueueStep n n'

/-- What an event adds to the log. -/
structure Adds (s : Stack σ) (e : Event) (s' : Stack σ) : Prop where
  wire : ∃ new, s'.wire = s.wire ++ new ∧ (s.nice.running = false → new = []) ∧
    ∀ data, (∃ c, ⟨c, .clear, data⟩ ∈ new) ↔ e = .write data ∧ Leaks s data
  delivered : ∃ new, s'.delivered = s.delivered ++ new ∧ (s.nice.running = false → new = [])
  nice : NiceStep s.nice s'.nice

theorem SameQueue.refl (n : Nice) : SameQueue n n := ⟨rfl, rfl, rfl, rfl⟩

theorem NiceStep.refl (n : Nice) : NiceStep n n := ⟨id, .same (SameQueue.refl n)⟩

section

variable {rtcpMux isServer : Bool} {s s' : Stack σ}

theorem inv_start : Inv rtcpMux ({} : Stack σ) where
  queue p hp := absurd hp List.not_mem_nil
  down h := by rcases h with h | h <;> cases h
  heard h := by
    rcases h with h | ⟨c, hc⟩
    · exact absurd rfl h
    · cases hc
  shaken c hc := by cases hc
  pending p hp := by cases hp
  ready c hc h := by cases h
  keyed c ch h := by cases h
  delivered d hd := absurd hd List.not_mem_nil

theorem Inv.quiet (h : Inv rtcpMux s) (hq : Quiet s s') : Inv rtcpMux s' where
  queue := by rw [hq.nice]; exact h.queue
  down := by rw [hq.nice]; exact h.down
  heard := by rw [hq.nice, hq.channels]; exact h.heard
  shaken c hc := by
    rw [hq.channels] at hc
    rw [hq.completed]
    exact h.shaken c hc
  pending := by rw [hq.pending, hq.channels]; exact h.pending
  ready := by rw [hq.ready, hq.channels]; exact h.ready
  keyed := by rw [hq.channels, hq.pending, hq.state, hq.nice]; exact h.keyed
  delivered := by rw [hq.delivered]; exact h.delivered

/-! ### ICE -/

/-- What the callbacks of libnice make of the connection. -/
structure Told (n n' : Nice) (told : Option IceState) : Prop where
  queue : SameQueue n n'
  stays : n.running = false → n'.running = false
  down : (n.iceState = .failed ∨ n.iceState = .finished → n.running = false) →
    n'.iceState = .failed ∨ n'.iceState = .finished → n'.running = false
  heard : n.iceState = .ready ∨ n.running = false → n'.iceState = .ready ∨ n'.running = false
  -- READY is told when it is new, FAILED when everything has come to an end
  ready : told = some .ready → n.iceState ≠ .ready ∧ n'.running = n.running
  other : ∀ state ∈ told, state = .ready ∨ state = .failed

theorem told_none (n : Nice) : Told n n none where
  queue := SameQueue.refl n
  stays := id
  down := id
  heard := id
  ready h := by cases h
  other state h := by cases h

theorem told_updateIceState (n : Nice) {state : IceState}
    (hstate : state = .ready ∨ state = .failed ∨ state = n.iceState) :
    Told n (n.updateIceState state).1 (n.updateIceState state).2 := by
  by_cases heq : n.iceState = state
  · have hnice : n.updateIceState state = (n, none) := if_pos heq
    rw [hnice]
    exact told_none n
  · rcases hstate with rfl | rfl | rfl
    · have hnice : n.updateIceState .ready = ({ n with iceState := .ready }, some .ready) :=
        if_neg heq
      rw [hnice]
      refine ⟨⟨rfl, rfl, rfl, rfl⟩, id, ?_, fun _ => Or.inl rfl, fun _ => ⟨heq, rfl⟩, ?_⟩
      · rintro - (h | h) <;> cases h
      · rintro state ⟨⟩
        exact Or.inl rfl
    · have hnice : n.updateIceState .failed =
          ({ n with iceState := .failed, running := false }, some .failed) := if_neg heq
      rw [hnice]
      refine ⟨⟨rfl, rfl, rfl, rfl⟩, fun _ => rfl, fun _ _ => rfl, fun _ => Or.inr rfl,
        fun h => (by cases h), ?_⟩
      rintro state ⟨⟩
      exact Or.inr rfl
    · exact absurd rfl heq

theorem told_updateComponentState (n : Nice) (components : List Comp) (c : Comp)
    (state : NiceComponentState) (now : Int) :
    Told n (n.updateComponentState components c state now).1
      (n.updateComponentState components c state now).2 := by
  have hstate : n.componentIceState state = .ready ∨ n.componentIceState state = .failed ∨
      n.componentIceState state = n.iceState := by
    cases state
    case connected => exact Or.inl rfl
    case failed => exact Or.inr (Or.inl rfl)
    all_goals exact Or.inr (Or.inr rfl)
  -- the list of states is read by nobody else
  have hlist : ∀ {m : Nice} {told : Option IceState} (l : Comp → IceState),
      Told { n with compStateList := l } m told → Told n m told := by
    intro m told l h
    obtain ⟨⟨hqueue, hdrop, hreceived, htaken⟩, hstays, hdown, hheard, hready, hother⟩ := h
    exact ⟨⟨hqueue, hdrop, hreceived, htaken⟩, hstays, hdown, hheard, hready, hother⟩
  dsimp only [Nice.updateComponentState]
  split
  · exact told_none n
  · split
    · exact hlist _ (told_none _)
    · exact hlist _ (told_updateIceState _ hstate)

theorem Told.step {n n' : Nice} {told : Option IceState} (ht : Told n n' told) : NiceStep n n' :=
  ⟨ht.stays, .same ht.queue⟩

theorem Inv.told (h : Inv rtcpMux s) {n : Nice} {told : Option IceState}
    (ht : Told s.nice n told) : Inv rtcpMux { s with nice := n } where
  queue := by
    show ∀ p ∈ n.niceQueue, _
    rw [ht.queue.niceQueue]
    exact h.queue
  down := ht.down h.down
  heard hc := by
    refine ht.heard (h.heard ?_)
    rw [← ht.queue.niceQueue]
    exact hc
  shaken := h.shaken
  pending := h.pending
  ready := h.ready
  keyed c ch hch hact hp hs := ht.stays (h.keyed c ch hch hact hp hs)
  delivered := h.delivered

theorem Inv.updateTransportState (h : Inv rtcpMux s) {state : TransportState}
    (hstate : state = .ready → ∀ c ch, s.channels c = some ch → ch.active = false →
      (∀ p ∈ s.pending, p.comp ≠ c) → s.nice.running = false) :
    Inv rtcpMux (s.updateTransportState state) where
  queue := h.queue
  down := h.down
  heard := h.heard
  shaken := h.shaken
  pending := h.pending
  ready := h.ready
  keyed c ch hch hact hp hs := hstate hs c ch hch hact hp
  delivered := h.delivered

/-- Everything but a write that adds to the log at most flights of a handshake. -/
theorem adds_of_dtls {e : Event} (he : ∀ data, e ≠ .write data)
    (hwire : ∃ new, s'.wire = s.wire ++ new ∧ (s.nice.running = false → new = []) ∧
      ∀ d ∈ new, d.kind = .dtls)
    (hdelivered : ∃ new, s'.delivered = s.delivered ++ new ∧ (s.nice.running = false → new = []))
    (hnice : NiceStep s.nice s'.nice) : Adds s e s' where
  wire := by
    obtain ⟨new, hwire, hstopped, hdtls⟩ := hwire
    refine ⟨new, hwire, hstopped, fun data => ?_⟩
    constructor
    · rintro ⟨c, hd⟩
      cases hdtls _ hd
    · rintro ⟨hdata, -⟩
      exact absurd hdata (he data)
  delivered := hdelivered
  nice := hnice

/-- Nothing is sent or received in such an event. -/
theorem adds_nothing {e : Event} (he : ∀ data, e ≠ .write data) (hwire : s'.wire = s.wire)
    (hdelivered : s'.delivered = s.delivered) (hnice : NiceStep s.nice s'.nice) : Adds s e s' :=
  adds_of_dtls he
    ⟨[], by rw [hwire, List.append_nil], fun _ => rfl, fun _ hd => absurd hd List.not_mem_nil⟩
    ⟨[], by rw [hdelivered, List.append_nil], fun _ => rfl⟩ hnice

/-- Flights that are written in a state `s` which an event has made of `s₀`. -/
theorem Quiet.adds_of (hq : Quiet s s') {s₀ : Stack σ} {e : Event} (he : ∀ data, e ≠ .write data)
    (hwire : s.wire = s₀.wire) (hdelivered : s.delivered = s₀.delivered)
    (hnice : NiceStep s₀.nice s.nice) : Adds s₀ e s' := by
  refine adds_of_dtls he ?_ ⟨[], ?_, fun _ => rfl⟩ ?_
  · obtain ⟨new, hnew, hstopped, hdtls⟩ := hq.wire
    exact ⟨new, by rw [hnew, hwire], fun hrun => hstopped (hnice.stays hrun), hdtls⟩
  · rw [hq.delivered, hdelivered, List.append_nil]
  · rw [hq.nice]
    exact hnice

theorem Quiet.adds (hq : Quiet s s') {e : Event} (he : ∀ data, e ≠ .write data) : Adds s e s' :=
  hq.adds_of he rfl rfl (NiceStep.refl s.nice)

theorem inv_onComponentState (h : Inv rtcpMux s) (c : Comp) (state : NiceComponentState)
    (now : Int) (hello : Comp → List UInt8) :
    Inv rtcpMux (s.onComponentState rtcpMux isServer c state now hello) ∧
      Adds s (.componentState c state now hello)
        (s.onComponentState rtcpMux isServer c state now hello) := by
  have he : ∀ data, Event.componentState c state now hello ≠ .write data := nofun
  have ht := told_updateComponentState s.nice (components rtcpMux) c state now
  dsimp only [Stack.onComponentState]
  generalize s.nice.updateComponentState (components rtcpMux) c state now = r at ht
  obtain ⟨n, told⟩ := r
  have hn := h.told ht
  cases told with
  | none => exact ⟨hn, adds_nothing he rfl rfl ht.step⟩
  | some told =>
    rcases ht.other told rfl with rfl | rfl
    · obtain ⟨hnew, -⟩ := ht.ready rfl
      have hq := quiet_startClient rtcpMux isServer { s with nice := n } hello
      have hquiet : Quiet { s with nice := n, state := .ready }
          ((Stack.startClient rtcpMux isServer { s with nice := n } hello).updateTransportState
            .ready) :=
        ⟨hq.nice, rfl, hq.running, hq.channels, hq.ready, hq.pending, hq.delivered, hq.completed,
          hq.wire⟩
      refine ⟨(hn.updateTransportState ?_).quiet hquiet, hquiet.adds_of he rfl rfl ht.step⟩
      -- a channel is there only after READY, so this is the second time
      intro _ c ch hch _ _
      refine ht.stays ((h.heard (Or.inr ⟨c, ?_⟩)).resolve_left hnew)
      rw [show s.channels c = some ch from hch]
      rfl
    · have hfailed : ∀ {s : Stack σ}, Inv rtcpMux s →
          Inv rtcpMux ({ s with running := false }.updateTransportState .failed) := by
        intro s h
        exact ⟨h.queue, h.down, h.heard, h.shaken, h.pending, h.ready, nofun, h.delivered⟩
      exact ⟨hfailed hn, adds_nothing he rfl rfl ht.step⟩

/-! ### Packets -/

theorem inv_receive (h : Inv rtcpMux s) {c : Comp} (hc : c ∈ components rtcpMux)
    (data : List UInt8) :
    Inv rtcpMux { s with nice := s.nice.queueData c data } ∧
      Adds s (.receive c data) { s with nice := s.nice.queueData c data } := by
  by_cases hopen : s.nice.iceState = .ready ∧ s.nice.running = true
  · refine ⟨?_, adds_nothing nofun rfl rfl ⟨fun hrun => ?_, .push c data hopen.2 rfl⟩⟩
    · rw [Nice.queueData, if_pos hopen]
      exact
        { queue := by
            intro p hp
            rcases List.mem_append.mp hp with hp | hp
            · exact h.queue p (List.drop_subset _ _ hp)
            · rw [List.mem_singleton.mp hp]
              exact hc
          down := h.down
          heard := fun _ => Or.inl hopen.1
          shaken := h.shaken
          pending := h.pending
          ready := h.ready
          keyed := h.keyed
          delivered := h.delivered }
    · rw [hopen.2] at hrun
      cases hrun
  · have hsame : s.nice.queueData c data = s.nice := if_neg hopen
    rw [hsame]
    exact ⟨h, adds_nothing nofun rfl rfl (NiceStep.refl s.nice)⟩

/-- A packet is taken from the queue. -/
theorem Inv.take (h : Inv rtcpMux s) {p : Comp × List UInt8} {rest : List (Comp × List UInt8)}
    (hq : s.nice.niceQueue = p :: rest) :
    Inv rtcpMux { s with
      nice := { s.nice with niceQueue := rest, taken := s.nice.taken ++ [p] } } where
  queue q hmem := h.queue q (by rw [hq]; exact List.mem_cons_of_mem p hmem)
  down := h.down
  heard _ := h.heard (Or.inl (by rw [hq]; exact List.cons_ne_nil p rest))
  shaken := h.shaken
  pending := h.pending
  ready := h.ready
  keyed := h.keyed
  delivered := h.delivered

/-- The handshake of a component is complete, without keys. -/
theorem Inv.completed (h : Inv rtcpMux s) (c : Comp) (context : DtlsContext)
    (hcontext : context.handshakeCompleted = true) :
    Inv rtcpMux { s with contexts := Function.update s.contexts c context } where
  queue := h.queue
  down := h.down
  heard := h.heard
  shaken c' hc' := by
    refine ⟨(h.shaken c' hc').1, ?_⟩
    show (Function.update s.contexts c context c').handshakeCompleted = true
    by_cases heq : c' = c
    · subst heq
      rw [Function.update_self, hcontext]
    · rw [Function.update_of_ne heq]
      exact (h.shaken c' hc').2
  pending := h.pending
  ready := h.ready
  keyed := h.keyed
  delivered := h.delivered

/-- The first half of `onHandshakeCompleted`.  There was no channel before: the socket has
completed a handshake only now. -/
theorem Inv.newChannel (h : Inv rtcpMux s) {p : Pending} (hc : p.comp ∈ components rtcpMux)
    (hheard : s.nice.iceState = .ready ∨ s.nice.running = false) (hpending : s.pending = none)
    (hnew : s.channels p.comp = none) (hdone : (s.contexts p.comp).handshakeCompleted = true) :
    Inv rtcpMux { s with
      channels := Function.update s.channels p.comp (some {}), pending := some p } where
  queue := h.queue
  down := h.down
  heard _ := hheard
  shaken c' hc' := by
    by_cases heq : c' = p.comp
    · subst heq
      exact ⟨hc, hdone⟩
    · refine h.shaken c' ?_
      rw [← Function.update_of_ne heq (some {}) s.channels]
      exact hc'
  pending q hq := by
    cases hq
    exact Function.update_self ..
  ready c' hc' hr := by
    by_cases heq : c' = p.comp
    · subst heq
      obtain ⟨ch, hch, -⟩ := h.ready p.comp hc hr
      rw [hnew] at hch
      cases hch
    · dsimp only
      rw [Function.update_of_ne heq]
      exact h.ready c' hc' hr
  keyed c' ch hch hact hp hs := by
    have heq : c' ≠ p.comp := fun heq => hp p rfl heq.symm
    dsimp only at hch
    rw [Function.update_of_ne heq] at hch
    refine h.keyed c' ch hch hact ?_ hs
    rw [hpending]
    exact nofun
  delivered := h.delivered

theorem inv_readDtls (h : Inv rtcpMux s) {c : Comp} (hc : c ∈ components rtcpMux)
    (hheard : s.nice.iceState = .ready ∨ s.nice.running = false) (hpending : s.pending = none)
    (outcome : Outcome) :
    Inv rtcpMux (s.readDtls c outcome) ∧ (s.readDtls c outcome).nice = s.nice ∧
      ∀ e, (∀ data, e ≠ .write data) → Adds s e (s.readDtls c outcome) := by
  have hread := quiet_update s c { s.contexts c with
    resenderArmed := false, resendStatus := 1 } rfl
  have hi := h.quiet hread
  dsimp only [Stack.readDtls]
  split
  · exact ⟨hi, rfl, fun e he => hread.adds he⟩
  · next hfresh =>
    have hnone : s.channels c = none := by
      rcases hch : s.channels c with - | ch
      · rfl
      · exact absurd (h.shaken c (by rw [hch]; rfl)).2 hfresh
    cases outcome with
    | «continues» flight =>
      have hq := hread.trans (quiet_writeDtls _ c flight)
      exact ⟨h.quiet hq, hq.nice, fun e he => hq.adds he⟩
    | completes keys flight =>
      have hdone := hi.completed c { s.contexts c with
        handshakeCompleted := true, resenderArmed := false, resendStatus := 1 } rfl
      cases keys with
      | none =>
        exact ⟨hdone.quiet (quiet_writeDtls _ c flight), (quiet_writeDtls _ c flight).nice,
          fun e he => (quiet_writeDtls _ c flight).adds_of he rfl rfl (NiceStep.refl s.nice)⟩
      | some keys =>
        refine ⟨?_, rfl, fun e he => adds_nothing he rfl rfl (NiceStep.refl s.nice)⟩
        exact hdone.newChannel (p := ⟨c, keys.1, keys.2, flight⟩) hc hheard hpending hnone
          (by dsimp only; rw [Function.update_self])

/-- A session that goes on in the channel it belongs to. -/
theorem Inv.useChannel (h : Inv rtcpMux s) {c : Comp} {ch ch' : SrtpChannel σ}
    (hch : s.channels c = some ch) (hact : ch'.active = ch.active)
    (hkept : (∃ p ∈ s.pending, p.comp = c) → ch' = ch) :
    Inv rtcpMux { s with channels := Function.update s.channels c (some ch') } where
  queue := h.queue
  down := h.down
  heard hc := by
    refine h.heard (hc.imp_right ?_)
    rintro ⟨c', hc'⟩
    by_cases heq : c' = c
    · exact ⟨c, by rw [hch]; rfl⟩
    · dsimp only at hc'
      rw [Function.update_of_ne heq] at hc'
      exact ⟨c', hc'⟩
  shaken c' hc' := by
    refine h.shaken c' ?_
    by_cases heq : c' = c
    · rw [heq, hch]
      rfl
    · dsimp only at hc'
      rw [Function.update_of_ne heq] at hc'
      exact hc'
  pending p hp := by
    dsimp only
    by_cases heq : p.comp = c
    · have hsame := h.pending p hp
      rw [heq, hch] at hsame
      rw [heq, Function.update_self, hkept ⟨p, hp, heq⟩, hsame]
    · rw [Function.update_of_ne heq]
      exact h.pending p hp
  ready c' hc' hr := by
    obtain ⟨ch₁, hch₁, hact₁⟩ := h.ready c' hc' hr
    dsimp only
    by_cases heq : c' = c
    · rw [heq, hch] at hch₁
      cases hch₁
      exact ⟨ch', by rw [heq, Function.update_self], hact.trans hact₁⟩
    · rw [Function.update_of_ne heq]
      exact ⟨ch₁, hch₁, hact₁⟩
  keyed c' ch₁ hch₁ hact₁ hp hs := by
    dsimp only at hch₁
    by_cases heq : c' = c
    · subst heq
      rw [Function.update_self] at hch₁
      cases hch₁
      exact h.keyed c' ch hch (hact.symm.trans hact₁) hp hs
    · rw [Function.update_of_ne heq] at hch₁
      exact h.keyed c' ch₁ hch₁ hact₁ hp hs
  delivered := h.delivered

theorem Inv.deliver (h : Inv rtcpMux s) {d : Datagram} (hd : d.kind ≠ .clear) :
    Inv rtcpMux { s with delivered := s.delivered ++ [d] } where
  queue := h.queue
  down := h.down
  heard := h.heard
  shaken := h.shaken
  pending := h.pending
  ready := h.ready
  keyed := h.keyed
  delivered d' hd' := by
    rcases List.mem_append.mp hd' with hd' | hd'
    · exact h.delivered d' hd'
    · rw [List.mem_singleton.mp hd']
      exact hd

end

/-! ### Channels -/

section

variable {srtp : Srtp σ} {ch : SrtpChannel σ} {data : List UInt8}
  {r : SrtpChannel σ × Option (Kind × List UInt8)}

/-- What a function of a channel that protects or unprotects leaves: the keys are as they
were, and only a channel without keys lets something pass. -/
structure Used (ch : SrtpChannel σ) (data : List UInt8)
    (r : SrtpChannel σ × Option (Kind × List UInt8)) : Prop where
  active : r.1.active = ch.active
  clear : ∀ kind out, r.2 = some (kind, out) →
    kind = .srtp ∨ kind = .clear ∧ ch.active = false

/-- A channel that has a session lets it change the packet. -/
theorem used_session {session : Option σ} (f : σ → σ × Option (List UInt8))
    (put : σ → SrtpChannel σ) (hput : ∀ t, (put t).active = ch.active)
    (h : (do
      let t ← session
      let r := f t
      some (put r.1, r.2.map fun d => (Kind.srtp, d))) = some r) :
    Used ch data r ∧ session.isSome := by
  cases session with
  | none => cases h
  | some t =>
    have hr : (put (f t).1, (f t).2.map fun d => (Kind.srtp, d)) = r := Option.some.inj h
    rw [← hr]
    refine ⟨⟨hput _, fun kind out hout => Or.inl ?_⟩, rfl⟩
    obtain ⟨d, -, hd⟩ := Option.map_eq_some_iff.mp hout
    exact (Prod.mk.inj hd).1.symm

theorem used_inactive (hact : ch.active ≠ true) (h : some (ch, some (Kind.clear, data)) = some r) :
    Used ch data r := by
  rw [← Option.some.inj h]
  refine ⟨rfl, fun kind out hout => Or.inr ?_⟩
  cases hout
  exact ⟨rfl, Bool.eq_false_iff.mpr hact⟩

theorem used_protect (h : ch.protect srtp data = some r) :
    Used ch data r ∧ (isRtcp data = true → ch.sendSession.isSome) := by
  rw [SrtpChannel.protect] at h
  split at h
  · have hused : Used ch data r ∧ _ := used_session (srtp.protectRtcp · data)
      (fun t => { ch with sendSession := some t }) (fun _ => rfl) h
    exact ⟨hused.1, fun _ => hused.2⟩
  · next hrtp =>
    refine ⟨?_, fun hrtcp => absurd hrtcp hrtp⟩
    rw [SrtpChannel.protectRtp] at h
    split at h
    · exact (used_session (srtp.protect · data) (fun t => { ch with sendSession := some t })
        (fun _ => rfl) h).1
    · next hact => exact used_inactive hact h

theorem used_unprotect (h : ch.unprotect srtp data = some r) : Used ch data r := by
  rw [SrtpChannel.unprotect] at h
  split at h
  · exact (used_session (srtp.unprotectRtcp · data) (fun t => { ch with receiveSession := some t })
      (fun _ => rfl) h).1
  · rw [SrtpChannel.unprotectRtp] at h
    split at h
    · exact (used_session (srtp.unprotect · data) (fun t => { ch with receiveSession := some t })
        (fun _ => rfl) h).1
    · next hact => exact used_inactive hact h

end

/-! ### The loop and the writer -/

section

variable {srtp : Srtp σ} {rtcpMux isServer : Bool} {s s' : Stack σ}

theorem inv_onNiceData (h : Inv rtcpMux s) {c : Comp} (hc : c ∈ components rtcpMux)
    (hheard : s.nice.iceState = .ready ∨ s.nice.running = false) (hpending : s.pending = none)
    (hrun : s.nice.running = true) (data : List UInt8) (outcome : Outcome)
    (hstep : s.onNiceData srtp rtcpMux c data outcome = some s') :
    Inv rtcpMux s' ∧ s'.nice = s.nice ∧ ∀ e, (∀ data, e ≠ .write data) → Adds s e s' := by
  have hsame := NiceStep.refl s.nice
  have hkept : Inv rtcpMux s ∧ s.nice = s.nice ∧ ∀ e, (∀ data, e ≠ .write data) → Adds s e s :=
    ⟨h, rfl, fun e he => adds_nothing he rfl rfl hsame⟩
  rw [Stack.onNiceData] at hstep
  split at hstep
  · cases hstep
    exact inv_readDtls h hc hheard hpending outcome
  · split at hstep
    · next hready =>
      dsimp only at hstep
      generalize (if rtcpMux = false ∧ c = .rtcp then Comp.rtcp else Comp.rtp) = channel at hstep
      cases hch : s.channels channel with
      | none =>
        rw [hch] at hstep
        cases hstep
        exact hkept
      | some ch =>
        rw [hch] at hstep
        obtain ⟨r, hr, hstep⟩ := Option.bind_eq_some_iff.mp hstep
        have hused := used_unprotect hr
        have hnext : Inv rtcpMux { s with
            channels := Function.update s.channels channel (some r.1) } := by
          refine h.useChannel hch hused.active ?_
          rintro ⟨p, hp, -⟩
          rw [hpending] at hp
          cases hp
        rcases hout : r.2 with - | ⟨kind, plain⟩
        · rw [hout] at hstep
          cases hstep
          exact ⟨hnext, rfl, fun e he => adds_nothing he rfl rfl hsame⟩
        · rw [hout] at hstep
          dsimp only at hstep
          split at hstep
          · cases hstep
            exact ⟨hnext, rfl, fun e he => adds_nothing he rfl rfl hsame⟩
          · cases hstep
            have hkind : kind ≠ .clear := by
              rintro rfl
              rcases hused.clear _ _ hout with hk | ⟨-, hact⟩
              · cases hk
              · -- a channel that got no keys, in a transport that is ready
                have hstopped := h.keyed channel ch hch hact
                  (by rw [hpending]; exact nofun) hready
                rw [hrun] at hstopped
                cases hstopped
            refine ⟨hnext.deliver (d := ⟨c, kind, plain⟩) hkind, rfl, fun e he => ?_⟩
            refine adds_of_dtls he ⟨[], (List.append_nil _).symm, fun _ => rfl,
              fun _ hd => absurd hd List.not_mem_nil⟩ ⟨_, rfl, fun hr => ?_⟩ hsame
            rw [hrun] at hr
            cases hr
    · cases hstep
      exact hkept

theorem inv_getNiceDataLoop (h : Inv rtcpMux s) (hpending : s.pending = none) (outcome : Outcome)
    (hstep : s.getNiceDataLoop srtp rtcpMux outcome = some s') :
    Inv rtcpMux s' ∧ Adds s (.loop outcome) s' := by
  rw [Stack.getNiceDataLoop] at hstep
  split at hstep
  · cases hstep
    exact ⟨⟨h.queue, h.down, h.heard, h.shaken, h.pending, h.ready, h.keyed, h.delivered⟩,
      adds_nothing nofun rfl rfl (NiceStep.refl s.nice)⟩
  · next hopen =>
    rcases hq : s.nice.niceQueue with - | ⟨⟨c, data⟩, rest⟩
    · rw [hq] at hstep
      cases hstep
      exact ⟨h, adds_nothing nofun rfl rfl (NiceStep.refl s.nice)⟩
    · rw [hq] at hstep
      have hheard := h.heard (Or.inl (by rw [hq]; exact List.cons_ne_nil _ _))
      have hrun : s.nice.running = true := by
        rcases hr : s.nice.running with - | -
        · exact absurd (Or.inr hr) hopen
        · rfl
      have hc := h.queue (c, data) (by rw [hq]; exact List.mem_cons_self)
      obtain ⟨hinv, hnice, hadds⟩ :=
        inv_onNiceData (h.take hq) hc hheard hpending hrun data outcome hstep
      have ha := hadds (.loop outcome) nofun
      refine ⟨hinv, ha.wire.imp fun new hnew => ⟨hnew.1, hnew.2.1, fun data => ?_⟩, ha.delivered,
        fun hr => ?_, .take (c, data) rest hrun hq hnice⟩
      · rw [hnew.2.2 data]
        constructor
        · rintro ⟨hdata, -⟩
          cases hdata
        · rintro ⟨hdata, -⟩
          cases hdata
      · rw [hrun] at hr
        cases hr

theorem inv_resend (h : Inv rtcpMux s) (c : Comp) (data : List UInt8) (sent : Bool) :
    Inv rtcpMux (s.resend c data sent) ∧ Adds s (.resend c data sent) (s.resend c data sent) := by
  have hq : Quiet s (s.resend c data sent) :=
    (quiet_update s c _ (by rfl)).trans (quiet_sendData _ c data)
  exact ⟨h.quiet hq, hq.adds nofun⟩

theorem close_nice (n : Nice) (hdown : n.iceState = .finished → n.running = false) :
    n.close.running = false ∧ SameQueue n n.close := by
  by_cases hopen : n.iceState = .finished
  · have hsame : n.close = n := if_pos hopen
    rw [hsame]
    exact ⟨hdown hopen, SameQueue.refl n⟩
  · have hclosed : n.close = { n with running := false, iceState := .finished } := by
      rw [Nice.close, if_neg hopen, Nice.updateIceState, if_neg hopen]
    rw [hclosed]
    exact ⟨rfl, ⟨rfl, rfl, rfl, rfl⟩⟩

theorem inv_close (h : Inv rtcpMux s) :
    Inv rtcpMux s.close ∧ Adds s .close s.close := by
  obtain ⟨hstopped, hqueue⟩ := close_nice s.nice fun hfinished => h.down (Or.inr hfinished)
  refine ⟨?_, adds_nothing nofun rfl rfl ⟨fun _ => hstopped, .same hqueue⟩⟩
  exact
    { queue := by
        show ∀ p ∈ s.nice.close.niceQueue, _
        rw [hqueue.niceQueue]
        exact h.queue
      down := fun _ => hstopped
      heard := fun _ => Or.inr hstopped
      shaken := h.shaken
      pending := h.pending
      ready := h.ready
      keyed := fun _ _ _ _ _ _ => hstopped
      delivered := h.delivered }

theorem inv_setRemoteCandidates (h : Inv rtcpMux s) (now : Int) {running : Bool}
    (hrunning : s.nice.running = false → running = false) :
    Inv rtcpMux { s with
        nice := { s.nice with lastCandidateTimestamp := now, running := running } } ∧
      Adds s (.setRemoteCandidates now) { s with
        nice := { s.nice with lastCandidateTimestamp := now, running := running } } := by
  refine ⟨?_, adds_nothing nofun rfl rfl ⟨hrunning, .same ⟨rfl, rfl, rfl, rfl⟩⟩⟩
  exact
    { queue := h.queue
      down := fun hdown => hrunning (h.down hdown)
      heard := fun hc => (h.heard hc).imp_right hrunning
      shaken := h.shaken
      pending := h.pending
      ready := h.ready
      keyed := fun c ch hch hact hp hs => hrunning (h.keyed c ch hch hact hp hs)
      delivered := h.delivered }

end

/-! ### Keys -/

section

variable {srtp : Srtp σ} {rtcpMux isServer : Bool} {s s' : Stack σ}

/-- What `updateReady` changes. -/
structure Updated (rtcpMux : Bool) (s : Stack σ) (c : Comp) (success : Bool) (s' : Stack σ) :
    Prop where
  nice : s'.nice = s.nice
  contexts : s'.contexts = s.contexts
  channels : s'.channels = s.channels
  pending : s'.pending = s.pending
  delivered : s'.delivered = s.delivered
  wire : s'.wire = s.wire
  ready : ∀ c' ∈ components rtcpMux, s'.ready c' = true →
    s.ready c' = true ∨ c' = c ∧ success = true
  state : s'.state = .ready →
    s'.ready .rtp = true ∧ s'.ready .rtcp = true ∨ s.state = .ready ∧ success = true

theorem updated_updateReady (rtcpMux : Bool) (s : Stack σ) (c : Comp) (success : Bool) :
    Updated rtcpMux s c success (s.updateReady rtcpMux c success) := by
  have hfirst : Updated rtcpMux s c success (if success = true then
        { s with ready := Function.update s.ready c true }
      else s.updateTransportState .failed) := by
    split
    · next hok =>
      refine ⟨rfl, rfl, rfl, rfl, rfl, rfl, ?_, fun hs => Or.inr ⟨hs, hok⟩⟩
      intro c' _ hr
      by_cases heq : c' = c
      · exact Or.inr ⟨heq, hok⟩
      · dsimp only at hr
        rw [Function.update_of_ne heq] at hr
        exact Or.inl hr
    · exact ⟨rfl, rfl, rfl, rfl, rfl, rfl, fun _ _ hr => Or.inl hr, nofun⟩
  have hsecond : ∀ s₁, Updated rtcpMux s c success s₁ →
      Updated rtcpMux s c success (if c = .rtp ∧ rtcpMux = true then
        { s₁ with ready := Function.update s₁.ready .rtcp true } else s₁) := by
    intro s₁ hu
    split
    · next h =>
      refine ⟨hu.nice, hu.contexts, hu.channels, hu.pending, hu.delivered, hu.wire, ?_, ?_⟩
      · -- with `rtcp_mux` the second flag is not one of a component
        intro c' hc' hr
        refine hu.ready c' hc' ?_
        rw [components, if_pos h.2] at hc'
        have hne : c' ≠ .rtcp := by rw [List.mem_singleton.mp hc']; exact nofun
        rw [← hr]
        exact (Function.update_of_ne hne _ _).symm
      · intro hs
        rcases hu.state hs with hboth | hold
        · dsimp only
          rw [Function.update_of_ne (show Comp.rtp ≠ Comp.rtcp by decide), Function.update_self]
          exact Or.inl ⟨hboth.1, rfl⟩
        · exact Or.inr hold
    · exact hu
  have hthird : ∀ s₂, Updated rtcpMux s c success s₂ →
      Updated rtcpMux s c success (if s₂.ready .rtp = true ∧ s₂.ready .rtcp = true then
        s₂.updateTransportState .ready else s₂) := by
    intro s₂ hu
    split
    · next hboth =>
      exact ⟨hu.nice, hu.contexts, hu.channels, hu.pending, hu.delivered, hu.wire, hu.ready,
        fun _ => Or.inl hboth⟩
    · exact hu
  exact hthird _ (hsecond _ hfirst)

theorem inv_setKeys (h : Inv rtcpMux s) {p : Pending} (hp : s.pending = some p) :
    Inv rtcpMux (s.setKeys srtp rtcpMux isServer p) ∧
      Adds s .keys (s.setKeys srtp rtcpMux isServer p) := by
  have hold := h.pending p hp
  have hshaken := h.shaken p.comp (by rw [hold]; rfl)
  dsimp only [Stack.setKeys]
  generalize SrtpChannel.setRtpParams srtp _ _ = channel
  have hu := updated_updateReady rtcpMux { s with
    channels := Function.update s.channels p.comp (some channel), pending := none } p.comp
    channel.active
  generalize Stack.updateReady rtcpMux _ p.comp channel.active = s₁ at hu
  have hready : ∀ c ∈ components rtcpMux, s₁.ready c = true →
      ∃ ch, s₁.channels c = some ch ∧ ch.active = true := by
    intro c hc hr
    rw [hu.channels]
    dsimp only
    by_cases heq : c = p.comp
    · subst heq
      refine ⟨channel, Function.update_self .., ?_⟩
      rcases hu.ready p.comp hc hr with hr | hr
      · -- the flag was not set before, for the channel had no keys
        obtain ⟨ch, hch, hact⟩ := h.ready p.comp hc hr
        rw [hold] at hch
        cases hch
        cases hact
      · exact hr.2
    · rw [Function.update_of_ne heq]
      exact h.ready c hc ((hu.ready c hc hr).resolve_right fun hr => heq hr.1)
  have hinv : Inv rtcpMux s₁ := by
    constructor
    case queue => rw [hu.nice]; exact h.queue
    case down => rw [hu.nice]; exact h.down
    case heard =>
      rw [hu.nice]
      exact fun _ => h.heard (Or.inr ⟨p.comp, by rw [hold]; rfl⟩)
    case shaken =>
      rw [hu.channels, hu.contexts]
      dsimp only
      intro c hc
      by_cases heq : c = p.comp
      · rw [heq]
        exact hshaken
      · rw [Function.update_of_ne heq] at hc
        exact h.shaken c hc
    case pending => rw [hu.pending]; exact nofun
    case ready => exact hready
    case keyed =>
      intro c ch hch hact hnone hs
      have hcomp : c ∈ components rtcpMux := by
        rw [hu.channels] at hch
        dsimp only at hch
        by_cases heq : c = p.comp
        · rw [heq]
          exact hshaken.1
        · rw [Function.update_of_ne heq] at hch
          exact (h.shaken c (by rw [hch]; rfl)).1
      rw [hu.nice]
      rcases hu.state hs with ⟨hrtp, hrtcp⟩ | ⟨hold, hok⟩
      · have hr : s₁.ready c = true := by
          cases c
          · exact hrtp
          · exact hrtcp
        obtain ⟨ch', hch', hact'⟩ := hready c hcomp hr
        rw [hch] at hch'
        cases hch'
        rw [hact] at hact'
        cases hact'
      · rw [hu.channels] at hch
        dsimp only at hch
        by_cases heq : c = p.comp
        · rw [heq, Function.update_self] at hch
          cases hch
          rw [hact] at hok
          cases hok
        · rw [Function.update_of_ne heq] at hch
          refine h.keyed c ch hch hact ?_ hold
          rw [hp]
          rintro _ ⟨⟩ hc
          exact heq hc.symm
    case delivered => rw [hu.delivered]; exact h.delivered
  exact ⟨hinv.quiet (quiet_writeDtls s₁ p.comp p.flight),
    (quiet_writeDtls s₁ p.comp p.flight).adds_of nofun hu.wire hu.delivered
      (by rw [hu.nice]; exact NiceStep.refl s.nice)⟩

end

/-! ### Writing a packet -/

section

variable {srtp : Srtp σ} {rtcpMux isServer : Bool} {s s' : Stack σ} {data : List UInt8}

theorem protect_fresh (hrtp : isRtcp data = false) :
    ({} : SrtpChannel σ).protect srtp data = some ({}, some (.clear, data)) := by
  rw [SrtpChannel.protect, hrtp]
  rfl

theorem write_of_leaks (h : Inv rtcpMux s) (hl : Leaks s data) :
    s.write srtp rtcpMux data = some (s.sendData .rtp .clear data) := by
  obtain ⟨p, hp, hcomp⟩ := hl.pending
  have hch : s.channels .rtp = some {} := by
    rw [← hcomp]
    exact h.pending p hp
  have hsame : { s with channels := Function.update s.channels .rtp (some {}) } = s := by
    rw [← hch, Function.update_eq_self]
  have hlong : ¬ data.length ≤ 10 := Nat.not_le.mpr hl.length
  have hcomponent : (if isRtcp data = true ∧ rtcpMux = false then Comp.rtcp else .rtp) = .rtp := by
    rw [hl.rtp]
    rfl
  rw [Stack.write, if_pos hl.state]
  dsimp only
  rw [hcomponent, hch]
  dsimp only
  rw [if_pos hl.iceState, protect_fresh hl.rtp]
  show (if data.length ≤ 10 then _ else _) = _
  rw [if_neg hlong, hsame]

theorem Inv.sendData (h : Inv rtcpMux s) (c : Comp) (kind : Kind) (data : List UInt8) :
    Inv rtcpMux (s.sendData c kind data) := by
  rw [Stack.sendData]
  split
  · exact ⟨h.queue, h.down, h.heard, h.shaken, h.pending, h.ready, h.keyed, h.delivered⟩
  · exact h

theorem adds_sendData {s₀ : Stack σ} (hwire : s.wire = s₀.wire)
    (hdelivered : s.delivered = s₀.delivered) (hnice : s.nice = s₀.nice) {c : Comp} {kind : Kind}
    {out : List UInt8} (hclear : s₀.nice.iceState = .ready ∧ s₀.nice.running = true →
      if kind = .clear then out = data ∧ Leaks s₀ data else ¬ Leaks s₀ data) :
    Adds s₀ (.write data) (s.sendData c kind out) := by
  by_cases hopen : s₀.nice.iceState = .ready ∧ s₀.nice.running = true
  · have hsent : s.sendData c kind out = { s with wire := s.wire ++ [⟨c, kind, out⟩] } :=
      if_pos (by rw [hnice]; exact hopen)
    rw [hsent]
    refine ⟨⟨[⟨c, kind, out⟩], by rw [← hwire], fun hrun => ?_, fun data' => ?_⟩,
      ⟨[], by rw [← hdelivered, List.append_nil], fun _ => rfl⟩, ?_⟩
    · rw [hopen.2] at hrun
      cases hrun
    · have h := hclear hopen
      constructor
      · rintro ⟨c', hd⟩
        cases List.mem_singleton.mp hd
        rw [if_pos rfl] at h
        rw [h.1]
        exact ⟨rfl, h.2⟩
      · rintro ⟨⟨⟩, hl⟩
        split at h
        · next hkind => exact ⟨c, by rw [hkind, h.1]; exact List.mem_singleton_self _⟩
        · exact absurd hl h
    · rw [← hnice]
      exact NiceStep.refl s.nice
  · have hsent : s.sendData c kind out = s := if_neg (by rw [hnice]; exact hopen)
    rw [hsent]
    refine ⟨⟨[], by rw [hwire, List.append_nil], fun _ => rfl, fun data' => ?_⟩,
      ⟨[], by rw [hdelivered, List.append_nil], fun _ => rfl⟩, ?_⟩
    · constructor
      · rintro ⟨c', hd⟩
        exact absurd hd List.not_mem_nil
      · rintro ⟨⟨⟩, hl⟩
        exact absurd ⟨hl.iceState, hl.running⟩ hopen
    · rw [hnice]
      exact NiceStep.refl s₀.nice

/-- A packet of which nothing is sent. -/
theorem adds_unsent (hwire : s'.wire = s.wire) (hdelivered : s'.delivered = s.delivered)
    (hnice : s'.nice = s.nice) (hl : ¬ Leaks s data) : Adds s (.write data) s' := by
  refine ⟨⟨[], by rw [hwire, List.append_nil], fun _ => rfl, fun data' => ?_⟩,
    ⟨[], by rw [hdelivered, List.append_nil], fun _ => rfl⟩,
    by rw [hnice]; exact NiceStep.refl s.nice⟩
  constructor
  · rintro ⟨c', hd⟩
    exact absurd hd List.not_mem_nil
  · rintro ⟨⟨⟩, h⟩
    exact absurd h hl

theorem inv_write (h : Inv rtcpMux s) (hstep : s.write srtp rtcpMux data = some s') :
    Inv rtcpMux s' ∧ Adds s (.write data) s' := by
  by_cases hl : Leaks s data
  · rw [write_of_leaks h hl] at hstep
    cases hstep
    exact ⟨h.sendData .rtp .clear data, adds_sendData rfl rfl rfl fun _ => ⟨rfl, hl⟩⟩
  have hkept : Inv rtcpMux s ∧ Adds s (.write data) s := ⟨h, adds_unsent rfl rfl rfl hl⟩
  rw [Stack.write] at hstep
  split at hstep
  · next hready =>
    dsimp only at hstep
    have hcomponent : (if isRtcp data = true ∧ rtcpMux = false then Comp.rtcp else .rtp) = .rtp ∨
        isRtcp data = true := by
      cases hrtcp : isRtcp data
      · exact Or.inl rfl
      · exact Or.inr rfl
    generalize (if isRtcp data = true ∧ rtcpMux = false then Comp.rtcp else .rtp) = c
      at hstep hcomponent
    cases hch : s.channels c with
    | none =>
      rw [hch] at hstep
      cases hstep
      exact hkept
    | some ch =>
      rw [hch] at hstep
      dsimp only at hstep
      split at hstep
      · next hice =>
        obtain ⟨r, hr, hstep⟩ := Option.bind_eq_some_iff.mp hstep
        have hused := used_protect hr
        -- without a session RTCP is not sent at all
        have hfresh : (∃ p ∈ s.pending, p.comp = c) → ch = {} ∧ isRtcp data = false := by
          rintro ⟨p, hp, rfl⟩
          have hnew := h.pending p hp
          rw [hch] at hnew
          cases hnew
          refine ⟨rfl, Bool.eq_false_iff.mpr fun hrtcp => ?_⟩
          cases hused.2 hrtcp
        have hnext : Inv rtcpMux { s with
            channels := Function.update s.channels c (some r.1) } := by
          refine h.useChannel hch hused.1.active fun hp => ?_
          obtain ⟨rfl, hrtp⟩ := hfresh hp
          rw [protect_fresh hrtp] at hr
          rw [← Option.some.inj hr]
        rcases hout : r.2 with - | ⟨kind, out⟩
        · rw [hout] at hstep
          cases hstep
          exact ⟨hnext, adds_unsent rfl rfl rfl hl⟩
        · rw [hout] at hstep
          dsimp only at hstep
          split at hstep
          · cases hstep
            exact ⟨hnext, adds_unsent rfl rfl rfl hl⟩
          · next hlong =>
            cases hstep
            refine ⟨hnext.sendData c kind out, ?_⟩
            apply adds_sendData
            iterate 3 rfl
            intro hopen
            rw [if_neg]
            · exact hl
            · intro hkind
              rcases hused.1.clear _ _ hout with hk | ⟨-, hact⟩
              · rw [hkind] at hk
                cases hk
              · by_cases hp : ∃ p ∈ s.pending, p.comp = c
                · obtain ⟨rfl, hrtp⟩ := hfresh hp
                  rw [protect_fresh hrtp] at hr
                  rw [← Option.some.inj hr] at hout
                  cases hout
                  have hc := hcomponent.resolve_right (by rw [hrtp]; exact nofun)
                  rw [hc] at hp
                  exact hl ⟨hrtp, Nat.not_le.mp hlong, hready, hice, hopen.2, hp⟩
                · have hstopped := h.keyed c ch hch hact (fun p hp' heq => hp ⟨p, hp', heq⟩) hready
                  rw [hopen.2] at hstopped
                  cases hstopped
      · cases hstep
        exact hkept
  · cases hstep
    exact hkept

theorem inv_step (h : Inv rtcpMux s) {e : Event}
    (hstep : step srtp rtcpMux isServer s e = some s') : Inv rtcpMux s' ∧ Adds s e s' := by
  cases e with
  | componentState c state now hello =>
    obtain ⟨-, heq⟩ := Option.ite_none_right_eq_some.mp hstep
    cases heq
    exact inv_onComponentState h c state now hello
  | gatheringDone =>
    obtain ⟨-, heq⟩ := Option.ite_none_right_eq_some.mp hstep
    cases heq
    exact ⟨h, adds_nothing nofun rfl rfl (NiceStep.refl s.nice)⟩
  | setRemoteCandidates now =>
    cases hstep
    exact inv_setRemoteCandidates h now fun hrun => by rw [hrun]; rfl
  | receive c data =>
    obtain ⟨hopen, heq⟩ := Option.ite_none_right_eq_some.mp hstep
    cases heq
    exact inv_receive h hopen.2.1 data
  | loop outcome =>
    obtain ⟨hopen, heq⟩ := Option.ite_none_right_eq_some.mp hstep
    exact inv_getNiceDataLoop h hopen.2 outcome heq
  | keys =>
    obtain ⟨p, hp, rfl⟩ := Option.map_eq_some_iff.mp hstep
    exact inv_setKeys h hp
  | write data => exact inv_write h hstep
  | resend c data sent =>
    obtain ⟨-, heq⟩ := Option.ite_none_right_eq_some.mp hstep
    cases heq
    exact inv_resend h c data sent
  | close =>
    cases hstep
    exact inv_close h

end

/-! ### Runs -/

/-- The queue of a connection is what was received last, and what was taken came before. -/
structure Queued (n : Nice) : Prop where
  length : n.niceQueue.length ≤ niceQueueMaxNumber + 1
  latest : n.niceQueue <:+ n.received
  order : (n.taken ++ n.niceQueue).Sublist n.received
  count : n.dropQueuePacket + n.taken.length + n.niceQueue.length = n.received.length

theorem Queued.queueData {n : Nice} (h : Queued n) (c : Comp) (data : List UInt8) :
    Queued (n.queueData c data) := by
  by_cases hopen : n.iceState = .ready ∧ n.running = true
  · rw [Nice.queueData, if_pos hopen]
    have hlength := h.length
    have hcount := h.count
    refine ⟨?_, ?_, ?_, ?_⟩ <;> dsimp only
    · simp only [List.length_append, List.length_drop, List.length_singleton]
      omega
    · exact List.suffix_append_inj_of_length_eq (by simp) |>.mpr
        ⟨(List.drop_suffix _ _).trans h.latest, rfl⟩
    · rw [← List.append_assoc]
      refine List.Sublist.append (List.Sublist.trans ?_ h.order) (List.Sublist.refl _)
      exact List.Sublist.append (List.Sublist.refl _) (List.drop_sublist _ _)
    · simp only [List.length_append, List.length_drop, List.length_singleton]
      omega
  · rw [Nice.queueData, if_neg hopen]
    exact h

theorem Queued.step {n n' : Nice} (h : Queued n) (hstep : QueueStep n n') : Queued n' := by
  cases hstep with
  | same hsame =>
    obtain ⟨hqueue, hdrop, hreceived, htaken⟩ := hsame
    constructor
    · rw [hqueue]
      exact h.length
    · rw [hqueue, hreceived]
      exact h.latest
    · rw [hqueue, hreceived, htaken]
      exact h.order
    · rw [hqueue, hreceived, htaken, hdrop]
      exact h.count
  | push c data _ heq =>
    rw [heq]
    exact h.queueData c data
  | take p rest _ hq heq =>
    rw [heq]
    obtain ⟨hlength, hlatest, horder, hcount⟩ := h
    rw [hq] at hlength hlatest horder hcount
    rw [List.length_cons] at hlength hcount
    refine ⟨Nat.le_of_succ_le hlength, (List.suffix_cons p rest).trans hlatest, ?_, ?_⟩
    · dsimp only
      rw [List.append_assoc]
      exact horder
    · dsimp only
      rw [List.length_append, List.length_singleton]
      omega

section

variable {srtp : Srtp σ} {rtcpMux isServer : Bool} {s s' : Stack σ}

theorem run_concat {s₀ : Stack σ} {events : List Event} {e : Event}
    (h : run srtp rtcpMux isServer s₀ (events ++ [e]) = some s') :
    ∃ s, run srtp rtcpMux isServer s₀ events = some s ∧
      step srtp rtcpMux isServer s e = some s' := by
  rw [run, List.foldlM_append] at h
  obtain ⟨s, hs, hstep⟩ := Option.bind_eq_some_iff.mp h
  rw [List.foldlM_cons] at hstep
  obtain ⟨t, ht, heq⟩ := Option.bind_eq_some_iff.mp hstep
  cases heq
  exact ⟨s, hs, ht⟩

/-- The rule for runs. -/
theorem run_rule {P : Stack σ → Prop} {s₀ : Stack σ} (hstart : Inv rtcpMux s₀ ∧ P s₀)
    (htail : ∀ {s s' e}, Inv rtcpMux s → P s → Adds s e s' → P s') {events : List Event}
    (h : run srtp rtcpMux isServer s₀ events = some s) : Inv rtcpMux s ∧ P s := by
  induction events using List.reverseRecOn generalizing s with
  | nil =>
    cases h
    exact hstart
  | append_singleton events e ih =>
    obtain ⟨t, ht, hstep⟩ := run_concat h
    obtain ⟨hinv, hP⟩ := ih ht
    obtain ⟨hinv', hadds⟩ := inv_step hinv hstep
    exact ⟨hinv', htail hinv hP hadds⟩

theorem inv_run {events : List Event} (h : run srtp rtcpMux isServer {} events = some s) :
    Inv rtcpMux s :=
  (run_rule (P := fun _ => True) ⟨inv_start, trivial⟩ (fun _ _ _ => trivial) h).1

/-- A packet leaves in the clear exactly if it is RTP and written after the transport became
ready, while a handshake is complete and the keys are not yet there.  Nothing is accepted in the
clear. -/
theorem cleartext_iff {events : List Event} (h : run srtp rtcpMux isServer {} events = some s) :
    (∀ data, (∃ c, ⟨c, .clear, data⟩ ∈ s.wire) ↔
      ∃ es es' t, events = es ++ .write data :: es' ∧
        run srtp rtcpMux isServer {} es = some t ∧ Leaks t data) ∧
    ∀ d ∈ s.delivered, d.kind ≠ .clear := by
  refine ⟨?_, (inv_run h).delivered⟩
  induction events using List.reverseRecOn generalizing s with
  | nil =>
    cases h
    intro data
    constructor
    · rintro ⟨c, hd⟩
      exact absurd hd List.not_mem_nil
    · rintro ⟨es, es', t, heq, -, -⟩
      exact absurd heq.symm (by simp)
  | append_singleton events e ih =>
    obtain ⟨t, ht, hstep⟩ := run_concat h
    obtain ⟨new, hwire, -, hclear⟩ := (inv_step (inv_run ht) hstep).2.wire
    intro data
    have hsplit : (∃ c, ⟨c, .clear, data⟩ ∈ s.wire) ↔
        (∃ c, ⟨c, .clear, data⟩ ∈ t.wire) ∨ ∃ c, ⟨c, .clear, data⟩ ∈ new := by
      rw [hwire]
      simp only [List.mem_append, exists_or]
    rw [hsplit, ih ht data, hclear data]
    constructor
    · rintro (⟨es, es', t', rfl, ht', hl⟩ | ⟨rfl, hl⟩)
      · exact ⟨es, es' ++ [e], t', by simp, ht', hl⟩
      · exact ⟨events, [], t, rfl, ht, hl⟩
    · rintro ⟨es, es', t', heq, ht', hl⟩
      rcases List.eq_nil_or_concat es' with rfl | ⟨es'', e', rfl⟩
      · obtain ⟨rfl, hlast⟩ := List.append_inj' heq rfl
        cases hlast
        rw [ht] at ht'
        cases ht'
        exact Or.inr ⟨rfl, hl⟩
      · have heq : events ++ [e] = (es ++ .write data :: es'') ++ [e'] := by
          rw [heq]
          simp
        obtain ⟨rfl, -⟩ := List.append_inj' heq rfl
        exact Or.inl ⟨es, es'', t', rfl, ht', hl⟩

/-- A cipher for the examples: the first byte of the key is added to every byte behind the
header, and stands at the end. -/
def shift : Srtp UInt8 where
  create _ key := key.head?
  protect k data := (k, some (data.take 12 ++ (data.drop 12).map (· + k) ++ [k]))
  protectRtcp k data := (k, some (data.take 8 ++ (data.drop 8).map (· + k) ++ [k]))
  unprotect k data := (k, if data.getLast? = some k then
    some (data.take 12 ++ (data.dropLast.drop 12).map (· - k)) else none)
  unprotectRtcp k data := (k, if data.getLast? = some k then
    some (data.take 8 ++ (data.dropLast.drop 8).map (· - k)) else none)

/-- A handshake on the side of the server, up to the window. -/
def shaking : List Event :=
  [.componentState .rtp .connected 0 fun _ => [], .receive .rtp [22, 1],
    .loop (.continues [22, 2]), .receive .rtp [22, 3],
    .loop (.completes (some ([5], [6])) [20, 1])]

def packet : List UInt8 := [128, 96, 0, 1, 0, 0, 0, 0, 0, 0, 0, 7, 42]

theorem cleartext_iff_window : ∃ s,
    run shift true true {} (shaking ++ [.write packet, .keys, .write packet]) = some s ∧
      s.wire = [⟨.rtp, .dtls, [22, 2]⟩, ⟨.rtp, .clear, packet⟩, ⟨.rtp, .dtls, [20, 1]⟩,
        ⟨.rtp, .srtp, packet.take 12 ++ [48, 6]⟩] ∧
      ∃ c, ⟨c, .clear, packet⟩ ∈ s.wire := by
  have hrun : run shift true true {} (shaking ++ [.write packet, .keys, .write packet]) =
      some _ := rfl
  refine ⟨_, hrun, rfl, ((cleartext_iff hrun).1 packet).mpr ?_⟩
  exact ⟨shaking, [.keys, .write packet], _, rfl, rfl,
    ⟨by decide, by decide, rfl, rfl, rfl, _, rfl, rfl⟩⟩

/-- Packets are processed in the order in which they were received, each once, and of those that
wait only the oldest are dropped, so that no more than 1001 wait. -/
theorem nice_queue {events : List Event} (h : run srtp rtcpMux isServer {} events = some s) :
    Queued s.nice := by
  have hstart : Queued ({} : Stack σ).nice :=
    ⟨Nat.zero_le _, List.suffix_refl [], List.Sublist.refl [], rfl⟩
  refine (run_rule (P := fun t => Queued t.nice) ⟨inv_start, hstart⟩ ?_ h).2
  intro t t' e _ hqueued hadds
  exact hqueued.step hadds.nice.queue

theorem nice_queue_shaking : ∃ s,
    run shift true true {} (shaking ++ [.receive .rtp packet, .receive .rtp [1], .keys,
      .loop (.continues [])]) = some s ∧
    s.nice.taken ++ s.nice.niceQueue = s.nice.received ∧ Queued s.nice := by
  have hrun : run shift true true {} (shaking ++ [.receive .rtp packet, .receive .rtp [1], .keys,
    .loop (.continues [])]) = some _ := rfl
  exact ⟨_, hrun, rfl, nice_queue hrun⟩

end

end

end Orbit.TransportStack
