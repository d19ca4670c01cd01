/-
OrbitStream/KeyFrameRequests.lean

The requests for a key frame of a stream of video: `KeepTrackRtpSequenceNumber` sends one when it
gives up too many packets at once (`rtp/nack_processor.cc`), and `RtcpProcessIncomingRtp` sends it
again until a key frame comes in (`rtp/rtcp_processor.cc`).

The two are called for each packet, and for each that is recovered from others, so they may come
in any order.  `key_frame_requests` says when requests are sent in a run, and which.  If the flag
`enable_nack_request_fir` is off, none is ever sent, and packets are given up in silence.
-/
import OrbitStream.NackTracker
import OrbitStream.Rtp

namespace Orbit.KeyFrames

open Lib NackTracker

/-- `FIR_PLI_WAIT`, in milliseconds. -/
abbrev firPliWait : Int := 1000

/-- A request: when it was sent, how many packets were given up for it if it is not sent again,
and the packets of RTCP. -/
structure Request where
  time : Int
  lost : Option Nat
  sent : List Janus.DataPacket
  deriving DecidableEq, Repr

/-- What is noted of a stream. -/
inductive Mark
  | keyFrame
  | request (r : Request)
  deriving DecidableEq, Repr

def Mark.request? : Mark → Option Request
  | .keyFrame => none
  | .request r => some r

/-- The part of `RtcpProcessIncomingRtp` for key frames; `now` is `getTimeMS`. -/
def rtcpProcessIncomingRtp (parse : Depacketizer) (p : NackProcessor) (packet : RtpPacket)
    (now : Int) : NackProcessor × List Mark :=
  if isKeyFrame parse packet.data packet.length = true then
    ({ p with getFir := true }, [.keyFrame])
  else if p.getFir = false then
    if now - p.lastFirRequest > firPliWait then
      let (p, sent) := p.sendFirPacket
      ({ p with lastFirRequest := now }, [.request ⟨now, none, sent⟩])
    else (p, [])
  else (p, [])

/-- `SendNackByCondition`, as far as it asks for a key frame. -/
def sendNackByCondition (enableNackRequestFir : Bool) (p : NackProcessor) (seqnumber : UInt16)
    (now currentTime : Int) (nackbuf : Mem) : Option (NackProcessor × List Mark) := do
  let (p, o) ← keepTrackRtpSequenceNumber enableNackRequestFir p seqnumber now currentTime nackbuf
  some (p, if o.sent = [] then [] else [.request ⟨currentTime, some o.nacks.length, o.sent⟩])

inductive Event
  | sendNackByCondition (seqnumber : UInt16) (now currentTime : Int) (nackbuf : Mem)
  | rtcpProcessIncomingRtp (packet : RtpPacket) (now : Int)

/-- The processor of a stream, and what was noted so far. -/
structure State where
  p : NackProcessor := {}
  marks : List Mark := []

/-- The requests among the marks. -/
def State.requests (s : State) : List Request := s.marks.filterMap Mark.request?

variable (enableNackRequestFir : Bool) (parse : Depacketizer)

def step (s : State) : Event → Option State
  | .sendNackByCondition seqnumber now currentTime nackbuf => do
    let (p, marks) ← sendNackByCondition enableNackRequestFir s.p seqnumber now currentTime nackbuf
    some ⟨p, s.marks ++ marks⟩
  | .rtcpProcessIncomingRtp packet now =>
    let (p, marks) := rtcpProcessIncomingRtp parse s.p packet now
    some ⟨p, s.marks ++ marks⟩

def run (events : List Event) : Option State := events.foldlM (step enableNackRequestFir parse) {}

/-- The packets of a request: a FIR with its number, and a PLI. -/
def requestPackets (number : UInt8) : List Janus.DataPacket :=
  [⟨0, 20, .video, [0x84, 206, 0, 4, 0, 0, 0, 0, 0, 0, 0, 0, 0, 0, 0, 0, number, 0, 0, 0]⟩,
    ⟨0, 12, .video, [0x81, 206, 0, 2, 0, 0, 0, 0, 0, 0, 0, 0]⟩]

/-! ### One request -/

section

variable {p p' : NackProcessor} {n : Nat}

/-- The number of a FIR takes one byte, and the next request has the next number. -/
theorem sendFirPacket_eq (h : p.firSeq = ((n % 256 : Nat) : Int)) :
    p.sendFirPacket.2 = requestPackets (UInt8.ofNat (n + 1)) ∧
      p.sendFirPacket.1.firSeq = (((n + 1) % 256 : Nat) : Int) := by
  have hlt : n % 256 < 256 := Nat.mod_lt _ (by decide)
  have hnumber : UInt8.ofNat (n + 1) = UInt8.ofNat (n % 256 + 1) := by
    apply UInt8.toNat_inj.mp
    rw [UInt8.toNat_ofNat', UInt8.toNat_ofNat']
    omega
  rw [hnumber, Nat.add_mod n 1 256]
  generalize n % 256 = k at h hlt
  rcases Nat.lt_or_ge (k + 1) 256 with hk | hk
  · have hwrap : ¬ ((k : Int) + 1 < 0 ∨ (k : Int) + 1 ≥ 256) := by omega
    have hnext : ((k : Int) + 1).toNat = k + 1 := by omega
    have hbyte : UInt8.ofNat ((k + 1) * 16777216 / 65536) = 0 ∧
        UInt8.ofNat ((k + 1) * 16777216 / 256) = 0 := by
      refine ⟨UInt8.toNat_inj.mp ?_, UInt8.toNat_inj.mp ?_⟩
      · rw [UInt8.toNat_ofNat', UInt8.toNat_zero]
        omega
      · rw [UInt8.toNat_ofNat', UInt8.toNat_zero]
        omega
    refine ⟨?_, ?_⟩
    · simp [NackProcessor.sendFirPacket, Janus.janusRtcpFir, Janus.janusRtcpPli, Janus.firMessage,
        Janus.setHeader, Janus.rtcpPsfb, h, hwrap, hnext, hbyte, List.range_succ, Mem.putBe,
        Mem.getBe, requestPackets]
    · simp only [NackProcessor.sendFirPacket, Janus.janusRtcpFir, Janus.firMessage, h, if_neg hwrap]
      rw [if_neg (by decide)]
      show (k : Int) + 1 = _
      omega
  · obtain rfl : k = 255 := by omega
    refine ⟨?_, ?_⟩
    · simp [NackProcessor.sendFirPacket, Janus.janusRtcpFir, Janus.janusRtcpPli, Janus.firMessage,
        Janus.setHeader, Janus.rtcpPsfb, h, List.range_succ, Mem.putBe, Mem.getBe, requestPackets]
    · simp [NackProcessor.sendFirPacket, Janus.janusRtcpFir, Janus.firMessage, h]

/-- What `KeepTrackRtpSequenceNumber` does to the fields for key frames. -/
theorem track_cases {o : Tracked} {seqnumber : UInt16} {now currentTime : Int} {nackbuf : Mem}
    (h : keepTrackRtpSequenceNumber enableNackRequestFir p seqnumber now currentTime nackbuf =
      some (p', o)) :
    o.sent = [] ∧ p'.firSeq = p.firSeq ∧ p'.getFir = p.getFir ∧
        p'.lastFirRequest = p.lastFirRequest ∨
      enableNackRequestFir = true ∧ 100 < o.nacks.length ∧
        3000 ≤ currentTime - p.lastFirRequest ∧ o.sent = p.sendFirPacket.2 ∧
        p'.firSeq = p.sendFirPacket.1.firSeq ∧ p'.getFir = false ∧
        p'.lastFirRequest = currentTime := by
  simp only [keepTrackRtpSequenceNumber, Option.bind_eq_bind, Option.bind_eq_some_iff] at h
  obtain ⟨cur, -, ⟨r₁, curSeq, curSeqn⟩, -, ⟨r₂, len₁⟩, -, ⟨r₃, len₂, nacks⟩, -, r₄, -, h⟩ := h
  rw [answer] at h
  split at h
  · rename_i hmany
    simp only [Option.bind_eq_bind, Option.bind_eq_some_iff] at h
    obtain ⟨lastSeqs, -, h⟩ := h
    split at h
    · rename_i henable
      right
      obtain ⟨rfl, rfl⟩ := Prod.mk.inj (Option.some.inj h)
      exact ⟨henable, hmany.1, hmany.2, rfl, rfl, rfl, rfl⟩
    · left
      obtain ⟨rfl, rfl⟩ := Prod.mk.inj (Option.some.inj h)
      exact ⟨rfl, rfl, rfl, rfl⟩
  · left
    obtain ⟨rfl, rfl⟩ := Prod.mk.inj (Option.some.inj h)
    exact ⟨rfl, rfl, rfl, rfl⟩

end

/-! ### All requests -/

/-- A request comes more than a second behind the one before it, and three seconds if more packets
were given up for it. -/
def Spaced (r r' : Request) : Prop :=
  firPliWait < r'.time - r.time ∧ (r'.lost ≠ none → keyFrameInterval ≤ r'.time - r.time)

/-- A request that is sent again comes directly behind another: no key frame came in between. -/
def Repeats (marks : List Mark) : Prop :=
  ∀ pre r post, marks = pre ++ .request r :: post → r.lost = none →
    ∃ r', pre.getLast? = some (.request r')

/-- What holds in every run. -/
structure Inv (enableNackRequestFir : Bool) (s : State) : Prop where
  ring : ∃ l, s.p.lastSeqsVideo.IsRing l
  firSeq : s.p.firSeq = ((s.requests.length % 256 : Nat) : Int)
  waiting : s.p.getFir = false ↔ ∃ r, s.marks.getLast? = some (.request r)
  last : s.p.lastFirRequest = (s.requests.getLast?.map Request.time).getD 0
  spaced : s.requests.IsChain Spaced
  lost : ∀ r ∈ s.requests, ∀ k ∈ r.lost, retransmitPacketsLimit < k
  numbered : s.requests.map Request.sent =
    (List.range s.requests.length).map fun k => requestPackets (UInt8.ofNat (k + 1))
  repeats : Repeats s.marks
  off : enableNackRequestFir = false → s.requests = []

section

variable {enableNackRequestFir parse} {s : State} {p' : NackProcessor}

theorem requests_concat (p : NackProcessor) (marks : List Mark) (m : Mark) :
    State.requests ⟨p, marks ++ [m]⟩ = State.requests ⟨p, marks⟩ ++ m.request?.toList := by
  rcases m with - | r
  · simp [State.requests, Mark.request?]
  · simp [State.requests, Mark.request?]

/-- The last mark is the last request, if it is one. -/
theorem getLast_requests {r : Request} (h : s.marks.getLast? = some (.request r)) :
    s.requests.getLast? = some r := by
  obtain ⟨pre, hpre⟩ := List.getLast?_eq_some_iff.mp h
  have hconcat := requests_concat s.p pre (.request r)
  rw [← hpre] at hconcat
  have hlast : s.requests = State.requests ⟨s.p, pre⟩ ++ [r] := hconcat
  rw [hlast, List.getLast?_concat]

theorem Repeats.concat {marks : List Mark} (h : Repeats marks) {m : Mark}
    (hm : ∀ r, m = .request r → r.lost = none → ∃ r', marks.getLast? = some (.request r')) :
    Repeats (marks ++ [m]) := by
  intro pre r post heq hlost
  rcases List.eq_nil_or_concat post with rfl | ⟨post, m', rfl⟩
  · obtain ⟨rfl, hmark⟩ := List.append_inj' heq rfl
    exact hm r (List.singleton_inj.mp hmark) hlost
  · rw [List.concat_eq_append, ← List.cons_append, ← List.append_assoc] at heq
    exact h pre r post (List.append_inj' heq rfl).1 hlost

theorem inv_start : Inv enableNackRequestFir {} where
  ring := ⟨[], CircList.isRing_empty⟩
  firSeq := rfl
  waiting := by simp
  last := rfl
  spaced := List.IsChain.nil
  lost := fun _ hr => absurd hr List.not_mem_nil
  numbered := rfl
  repeats := fun pre r post heq => by simp at heq
  off := fun _ => rfl

/-- Nothing is noted. -/
theorem Inv.keep (h : Inv enableNackRequestFir s) (hring : ∃ l, p'.lastSeqsVideo.IsRing l)
    (hseq : p'.firSeq = s.p.firSeq) (hget : p'.getFir = s.p.getFir)
    (hlast : p'.lastFirRequest = s.p.lastFirRequest) :
    Inv enableNackRequestFir ⟨p', s.marks ++ []⟩ := by
  rw [List.append_nil]
  refine ⟨hring, hseq.trans h.firSeq, ?_, hlast.trans h.last, h.spaced, h.lost, h.numbered,
    h.repeats, h.off⟩
  show p'.getFir = false ↔ _
  rw [hget]
  exact h.waiting

theorem Inv.keyFrame (h : Inv enableNackRequestFir s) :
    Inv enableNackRequestFir ⟨{ s.p with getFir := true }, s.marks ++ [.keyFrame]⟩ := by
  have hrequests := requests_concat { s.p with getFir := true } s.marks .keyFrame
  rw [Mark.request?, Option.toList_none, List.append_nil] at hrequests
  refine ⟨h.ring, ?_, ?_, ?_, ?_, ?_, ?_, ?_, ?_⟩
  · rw [hrequests]
    exact h.firSeq
  · refine iff_of_false (fun hget => Bool.noConfusion hget) ?_
    rintro ⟨r, hr⟩
    rw [List.getLast?_concat] at hr
    cases hr
  · rw [hrequests]
    exact h.last
  · rw [hrequests]
    exact h.spaced
  · rw [hrequests]
    exact h.lost
  · rw [hrequests]
    exact h.numbered
  · exact h.repeats.concat fun r hr => nomatch hr
  · rw [hrequests]
    exact h.off

/-- A request is sent. -/
theorem Inv.request (h : Inv enableNackRequestFir s) (p' : NackProcessor) (r : Request)
    (hring : ∃ l, p'.lastSeqsVideo.IsRing l)
    (hsent : r.sent = s.p.sendFirPacket.2) (hseq : p'.firSeq = s.p.sendFirPacket.1.firSeq)
    (hget : p'.getFir = false) (hlast : p'.lastFirRequest = r.time)
    (hspaced : ∀ r' ∈ s.requests.getLast?, Spaced r' r)
    (hlost : ∀ k ∈ r.lost, retransmitPacketsLimit < k)
    (hrepeat : r.lost = none → ∃ r', s.marks.getLast? = some (.request r'))
    (hon : enableNackRequestFir = true) :
    Inv enableNackRequestFir ⟨p', s.marks ++ [.request r]⟩ := by
  have hrequests : State.requests ⟨p', s.marks ++ [.request r]⟩ = s.requests ++ [r] :=
    requests_concat p' s.marks (.request r)
  obtain ⟨hpackets, hnext⟩ := sendFirPacket_eq h.firSeq
  refine ⟨hring, ?_, ?_, ?_, ?_, ?_, ?_, ?_, ?_⟩
  · rw [hrequests, List.length_append]
    exact hseq.trans hnext
  · exact iff_of_true hget ⟨r, List.getLast?_concat⟩
  · rw [hrequests, List.getLast?_concat]
    exact hlast
  · rw [hrequests, List.isChain_append]
    refine ⟨h.spaced, List.isChain_singleton r, ?_⟩
    intro r' hr' r'' hr''
    obtain rfl : r = r'' := by simpa using hr''
    exact hspaced r' hr'
  · intro r' hr'
    rw [hrequests] at hr'
    rcases List.mem_append.mp hr' with hr' | hr'
    · exact h.lost r' hr'
    · rw [List.mem_singleton.mp hr']
      exact hlost
  · rw [hrequests, List.map_append, h.numbered, List.length_append, List.length_singleton,
      List.range_succ, List.map_append, List.map_singleton, List.map_singleton, hsent, hpackets]
  · apply h.repeats.concat
    intro r' hr' hnone
    obtain rfl := Mark.request.inj hr'
    exact hrepeat hnone
  · rw [hon]
    exact fun hoff => Bool.noConfusion hoff

/-- Behind a packet that is no key frame, the last request is not older than the wait. -/
def Answered (parse : Depacketizer) (s : State) (e : Event) : Prop :=
  ∀ packet now, e = .rtcpProcessIncomingRtp packet now →
    isKeyFrame parse packet.data packet.length = false →
      ∀ r, s.marks.getLast? = some (.request r) → now - r.time ≤ firPliWait

theorem Inv.step (h : Inv enableNackRequestFir s) (e : Event) :
    ∃ s', step enableNackRequestFir parse s e = some s' ∧ Inv enableNackRequestFir s' ∧
      Answered parse s' e := by
  rcases e with ⟨seqnumber, now, currentTime, nackbuf⟩ | ⟨packet, now⟩
  · obtain ⟨l, hring⟩ := h.ring
    obtain ⟨p', o, ls, l', htrack, -, -, -, hring', -⟩ := keepTrack_spec enableNackRequestFir hring
      seqnumber now currentTime nackbuf
    refine ⟨⟨p', s.marks ++ if o.sent = [] then [] else
      [.request ⟨currentTime, some o.nacks.length, o.sent⟩]⟩, ?_, ?_, fun _ _ he => nomatch he⟩
    · rw [KeyFrames.step, sendNackByCondition, htrack]
      rfl
    · rcases track_cases enableNackRequestFir htrack with
        ⟨hsent, hseq, hget, hlast⟩ | ⟨hon, hmany, hwait, hsent, hseq, hget, hlast⟩
      · rw [if_pos hsent]
        exact h.keep ⟨l', hring'⟩ hseq hget hlast
      · have hne : o.sent ≠ [] := by
          rw [hsent]
          exact List.cons_ne_nil _ _
        rw [if_neg hne]
        apply h.request p' ⟨currentTime, some o.nacks.length, o.sent⟩ ⟨l', hring'⟩ hsent hseq hget
          hlast ?_ ?_ (fun hnone => nomatch hnone) hon
        · intro r' hr'
          have hlast' := h.last
          rw [Option.mem_def.mp hr'] at hlast'
          have htime : s.p.lastFirRequest = r'.time := hlast'
          rw [htime] at hwait
          exact ⟨Int.lt_of_lt_of_le (by decide) hwait, fun _ => hwait⟩
        · intro k hk
          rw [← Option.some.inj hk]
          exact hmany
  · refine ⟨_, rfl, ?_, ?_⟩
    · show Inv enableNackRequestFir ⟨(rtcpProcessIncomingRtp parse s.p packet now).1,
        s.marks ++ (rtcpProcessIncomingRtp parse s.p packet now).2⟩
      rw [rtcpProcessIncomingRtp]
      split
      · exact h.keyFrame
      · split
        · rename_i hget
          obtain ⟨r, hr⟩ := h.waiting.mp hget
          have hlast := h.last
          rw [getLast_requests hr] at hlast
          have htime : s.p.lastFirRequest = r.time := hlast
          split
          · rename_i hwait
            rw [htime] at hwait
            apply h.request { s.p.sendFirPacket.1 with lastFirRequest := now }
              ⟨now, none, s.p.sendFirPacket.2⟩ h.ring rfl rfl hget rfl
            · intro r' hr'
              rw [getLast_requests hr] at hr'
              rw [← Option.some.inj hr']
              exact ⟨hwait, fun hsome => absurd rfl hsome⟩
            · exact fun k hk => nomatch hk
            · exact fun _ => ⟨r, hr⟩
            · -- there is a request already, so that the flag is on
              rcases hon : enableNackRequestFir with - | -
              · have hnil := getLast_requests hr
                rw [h.off hon] at hnil
                cases hnil
              · rfl
          · exact h.keep h.ring rfl rfl rfl
        · exact h.keep h.ring rfl rfl rfl
    · intro packet' now' he hkey r hr
      obtain ⟨rfl, rfl⟩ := Event.rtcpProcessIncomingRtp.inj he
      have hkey' : ¬ isKeyFrame parse packet.data packet.length = true := by
        rw [hkey]
        exact Bool.false_ne_true
      have hr : (s.marks ++ (rtcpProcessIncomingRtp parse s.p packet now).2).getLast? =
          some (.request r) := hr
      rw [rtcpProcessIncomingRtp, if_neg hkey'] at hr
      split at hr
      · split at hr
        · rw [List.getLast?_concat] at hr
          obtain rfl := Mark.request.inj (Option.some.inj hr)
          show now - now ≤ firPliWait
          rw [Int.sub_self]
          decide
        · rename_i hwait
          rw [List.append_nil] at hr
          have hlast := h.last
          rw [getLast_requests hr] at hlast
          have htime : s.p.lastFirRequest = r.time := hlast
          rw [← htime]
          exact Int.not_lt.mp hwait
      · rename_i hget
        rw [List.append_nil] at hr
        exact absurd (h.waiting.mpr ⟨r, hr⟩) hget

end

/-- **Requests for a key frame.**  In every run: a request is sent when more than a hundred packets
are given up at once, three seconds behind the last one at least, and it is sent again after more
than a second if no key frame has come in since, which is as soon as the next packet does.  The
requests are numbered from one on, modulo 256.  With the flag off there is none. -/
theorem key_frame_requests (events : List Event) :
    ∃ s, run enableNackRequestFir parse events = some s ∧
      s.requests.IsChain Spaced ∧
      (∀ r ∈ s.requests, ∀ k ∈ r.lost, retransmitPacketsLimit < k) ∧
      Repeats s.marks ∧
      (s.requests.map Request.sent =
        (List.range s.requests.length).map fun k => requestPackets (UInt8.ofNat (k + 1))) ∧
      (∀ e ∈ events.getLast?, Answered parse s e) ∧
      (enableNackRequestFir = false → s.requests = []) := by
  have hrun : ∃ s, run enableNackRequestFir parse events = some s ∧ Inv enableNackRequestFir s ∧
      ∀ e ∈ events.getLast?, Answered parse s e := by
    induction events using List.reverseRecOn with
    | nil => exact ⟨{}, rfl, inv_start, fun e he => nomatch he⟩
    | append_singleton events e ih =>
      obtain ⟨s, hrun, hinv, -⟩ := ih
      obtain ⟨s', hstep, hinv', hanswered⟩ := @Inv.step _ parse _ hinv e
      refine ⟨s', ?_, hinv', ?_⟩
      · rw [run] at hrun ⊢
        rw [List.foldlM_append, hrun, Option.bind_eq_bind, Option.bind_some, List.foldlM_cons, hstep]
        rfl
      · intro e' he'
        rw [List.getLast?_concat] at he'
        rw [← Option.some.inj he']
        exact hanswered
  obtain ⟨s, hrun, hinv, hanswered⟩ := hrun
  exact ⟨s, hrun, hinv.spaced, hinv.lost, hinv.repeats, hinv.numbered, hanswered, hinv.off⟩

end Orbit.KeyFrames
