/-
OrbitStream/ClassRoomPlugin.lean

A participant of a class room (`ClassRoomPlugin` of `classroom_plugin.{h,cc}`).

The video of the others reaches a participant on a few downstream SSRCs.  Each of them
is a slot that is linked to the SSRC of a source and has a context, by which sequence
numbers and timestamps are rewritten.  A slot that becomes free is given to the next
source, and the context stays with it: its next packet is to continue the stream.

The slots are a table of `Lib.Slots`; each source has at most one slot, and each
occupied slot has a context (`Seated`).

The marker for "no base yet" is -1 in both fields of a context, but the 16 bit field
never equals -1.  So the base of the sequence numbers stays 65535, and a reused slot
continues its stream if and only if the first packet of the new source has just this
number, and its timestamp is not the marker or all later ones are
(`reuse_continuous_iff`).
-/
import Mathlib.Data.UInt
import OrbitStream.Lib.Rebase
import OrbitStream.Lib.Run
import OrbitStream.Lib.Slots
import OrbitStream.Rtp

namespace Orbit

open Lib

/-- `ClassRoomSsrcSwitchContext`. -/
structure ClassRoomSsrcSwitchContext where
  ssrc : UInt32 := 0
  sourceSsrc : UInt32 := 0
  seq : UInt16 := 0
  ts : UInt32 := 0
  lastTs : UInt32 := 0
  baseTs : UInt32 := 0xFFFFFFFF
  lastSeq : UInt16 := 0
  baseSeq : UInt16 := 0xFFFF
  sourceStreamId : Int := 0
  deriving DecidableEq, Repr

namespace ClassRoomSsrcSwitchContext

/-- `RenewContext`. -/
def renewContext (c : ClassRoomSsrcSwitchContext) (ss sourceSs : UInt32) (sourceStreamId : Int) :
    ClassRoomSsrcSwitchContext :=
  { c with
    baseTs := 0xFFFFFFFF, baseSeq := 0xFFFF, ssrc := ss, sourceSsrc := sourceSs
    sourceStreamId := sourceStreamId }

/-- What `LinkToSsrc` does to the context of a slot that was used before. -/
def reuse (c : ClassRoomSsrcSwitchContext) (ss sourceSs : UInt32) (sourceStreamId : Int) :
    ClassRoomSsrcSwitchContext :=
  { c.renewContext ss sourceSs sourceStreamId with
    lastTs := c.ts + 2880, lastSeq := c.seq + 1, baseTs := 0xFFFFFFFF, baseSeq := 0xFFFF }

/-- What `RewriteRtpHeader` does to the context.  In `base_seq == -1` the 16 bits are promoted
to `int`, in `base_ts == -1` the -1 is converted to 32 bits. -/
def advance (c : ClassRoomSsrcSwitchContext) (seq : UInt16) (ts : UInt32) :
    ClassRoomSsrcSwitchContext :=
  let c := if (c.baseSeq.toNat : Int) = -1 then { c with baseSeq := seq } else c
  let c := { c with seq := c.lastSeq + (seq - c.baseSeq) }
  let c := if c.baseTs = 0xFFFFFFFF then { c with baseTs := ts } else c
  { c with ts := c.lastTs + (ts - c.baseTs) }

/-- 16 bits are never -1. -/
theorem not_baseSeq_unset (c : ClassRoomSsrcSwitchContext) : ¬ (c.baseSeq.toNat : Int) = -1 := by
  omega

/-- A packet is measured from 65535 or whatever base the context has, its timestamp from the
first one. -/
theorem advance_eq (c : ClassRoomSsrcSwitchContext) (seq : UInt16) (ts : UInt32) :
    c.advance seq ts =
      { c with
        seq := c.lastSeq + (seq - c.baseSeq)
        baseTs := rebase 0xFFFFFFFF c.baseTs ts
        ts := c.lastTs + (ts - rebase 0xFFFFFFFF c.baseTs ts) } := by
  rw [advance, if_neg c.not_baseSeq_unset, rebase]
  dsimp only
  split
  · rfl
  · rfl

end ClassRoomSsrcSwitchContext

/-- `PluginRole`. -/
inductive PluginRole
  | teacher
  | student
  deriving DecidableEq, Repr

/-- The assertions. -/
inductive ClassRoomFault
  | contextMissing
  | notLinked
  | noDownstream
  | noPlugin
  deriving DecidableEq, Repr

/-- `ClassRoomPlugin`; `transportReady` is that `transport_state_` of its transport is
`TRANSPORT_READY`, and `relayed` are the video packets sent to the browser so far. -/
structure ClassRoomPlugin where
  streamId : Int
  role : PluginRole := .teacher
  active : Bool := false
  transportReady : Bool := false
  upstreamSsrc : UInt32 := 0
  extendedSsrcVec : List (UInt32 × UInt32) := []
  videoSwitchContexts : Std.TreeMap UInt32 ClassRoomSsrcSwitchContext := ∅
  relayed : List DataPacket := []

namespace RtpPacket

/-- The rewritten header in front of the payload. -/
def rewritten (p : RtpPacket) (ssrc ts : UInt32) (seq : UInt16) : RtpPacket where
  data := RtpHeader.setSeqNumber (RtpHeader.setTimestamp (RtpHeader.setSSRC p.data ssrc) ts) seq
  length := p.length
  length_eq := by
    rw [RtpHeader.length_setSeqNumber, RtpHeader.length_setTimestamp, RtpHeader.length_setSSRC,
      p.length_eq]
  header_le := p.header_le

variable (p : RtpPacket) (ssrc ts : UInt32) (seq : UInt16)

theorem header_le_data : 12 ≤ p.data.length := p.length_eq ▸ p.header_le

@[simp] theorem seqNumber_rewritten : (p.rewritten ssrc ts seq).seqNumber = seq :=
  RtpHeader.getSeqNumber_setSeqNumber seq (by simpa using p.header_le_data)

@[simp] theorem timestamp_rewritten : (p.rewritten ssrc ts seq).timestamp = ts := by
  show RtpHeader.getTimestamp (RtpHeader.setSeqNumber _ seq) = ts
  rw [RtpHeader.getTimestamp_setSeqNumber,
    RtpHeader.getTimestamp_setTimestamp ts (by simpa using p.header_le_data)]

@[simp] theorem getSSRC_rewritten : RtpHeader.getSSRC (p.rewritten ssrc ts seq).data = ssrc := by
  show RtpHeader.getSSRC (RtpHeader.setSeqNumber _ seq) = ssrc
  rw [RtpHeader.getSSRC_setSeqNumber, RtpHeader.getSSRC_setTimestamp,
    RtpHeader.getSSRC_setSSRC ssrc p.header_le_data]

end RtpPacket

namespace ClassRoomPlugin

/-- `SetExtendedVideoSsrcs`. -/
def setExtendedVideoSsrcs (c : ClassRoomPlugin) (extendedVideoSsrcs : List UInt32) :
    ClassRoomPlugin :=
  { c with extendedSsrcVec := c.extendedSsrcVec ++ extendedVideoSsrcs.map fun ssrc => (ssrc, 0) }

/-- `UnlinkToSsrc`. -/
def unlinkToSsrc (c : ClassRoomPlugin) (otherSsrc : UInt32) : ClassRoomPlugin :=
  { c with extendedSsrcVec := release 0 otherSsrc c.extendedSsrcVec }

/-- The context that `LinkToSsrc` leaves at a slot. -/
def linkedContext (c : ClassRoomPlugin) (downstreamSsrc otherSsrc : UInt32) (otherStreamId : Int) :
    ClassRoomSsrcSwitchContext :=
  match c.videoSwitchContexts[downstreamSsrc]? with
  | some context => context.reuse downstreamSsrc otherSsrc otherStreamId
  | none => ClassRoomSsrcSwitchContext.renewContext {} downstreamSsrc otherSsrc otherStreamId

/-- `LinkToSsrc`. -/
def linkToSsrc (c : ClassRoomPlugin) (otherSsrc : UInt32) (otherStreamId : Int) :
    ClassRoomPlugin :=
  let c := c.unlinkToSsrc otherSsrc
  match seat? 0 c.extendedSsrcVec with
  | none => c
  | some downstreamSsrc =>
      { c with
        extendedSsrcVec := take 0 otherSsrc c.extendedSsrcVec
        videoSwitchContexts := c.videoSwitchContexts.insert downstreamSsrc
          (c.linkedContext downstreamSsrc otherSsrc otherStreamId) }

/-- `RewriteRtpHeader`: the rewritten packet, and the plugin. -/
def rewriteRtpHeader (c : ClassRoomPlugin) (p : RtpPacket) :
    Except ClassRoomFault (RtpPacket × ClassRoomPlugin) :=
  match seat? (RtpHeader.getSSRC p.data) c.extendedSsrcVec with
  | none => .error .notLinked
  | some downstreamSsrc =>
      match c.videoSwitchContexts[downstreamSsrc]? with
      | none => .error .contextMissing
      | some context =>
          if downstreamSsrc = 0 then .error .noDownstream
          else
            let context := context.advance p.seqNumber p.timestamp
            .ok (p.rewritten downstreamSsrc context.ts context.seq,
              { c with videoSwitchContexts := c.videoSwitchContexts.insert downstreamSsrc context })

/-- `RelayRtpPacket` of a video packet. -/
def relayRtpPacket (c : ClassRoomPlugin) (packet : RtpPacket) :
    Except ClassRoomFault ClassRoomPlugin :=
  if c.active then do
    let (p, c) ← c.rewriteRtpHeader packet
    return { c with relayed := c.relayed ++ [p.toDataPacket] }
  else .ok c

variable {c c' : ClassRoomPlugin} {p q : RtpPacket} {x : UInt32}

/-! ### Links -/

theorem extendedSsrcVec_linkToSsrc (c : ClassRoomPlugin) (x : UInt32) (streamId : Int) :
    (c.linkToSsrc x streamId).extendedSsrcVec = assign 0 x c.extendedSsrcVec := by
  rw [linkToSsrc]
  rcases hseat : seat? 0 (c.unlinkToSsrc x).extendedSsrcVec with - | d
  · exact (take_of_full hseat).symm
  · rfl

/-- A link renews the context of the slot that is taken, and leaves the others alone. -/
theorem videoSwitchContexts_linkToSsrc (c : ClassRoomPlugin) (x : UInt32) (streamId : Int)
    (d : UInt32) :
    (c.linkToSsrc x streamId).videoSwitchContexts[d]? =
      if seat? 0 (release 0 x c.extendedSsrcVec) = some d then some (c.linkedContext d x streamId)
      else c.videoSwitchContexts[d]? := by
  rw [linkToSsrc]
  show (match seat? 0 (release 0 x c.extendedSsrcVec) with
    | none => c.unlinkToSsrc x
    | some downstreamSsrc => _).videoSwitchContexts[d]? = _
  rcases seat? 0 (release 0 x c.extendedSsrcVec) with - | k
  · rw [if_neg (by simp)]
    rfl
  · show (c.videoSwitchContexts.insert k (c.linkedContext k x streamId))[d]? = _
    rw [Std.TreeMap.getElem?_insert]
    by_cases hk : k = d
    · rw [if_pos (by simp [hk]), if_pos (by rw [hk]), hk]
    · rw [if_neg (by simp [hk]), if_neg (by simp [hk])]

/-- What a link leaves alone. -/
theorem linkToSsrc_fields (c : ClassRoomPlugin) (x : UInt32) (streamId : Int) :
    (c.linkToSsrc x streamId).streamId = c.streamId ∧
      (c.linkToSsrc x streamId).upstreamSsrc = c.upstreamSsrc ∧
      (c.linkToSsrc x streamId).active = c.active ∧
      (c.linkToSsrc x streamId).transportReady = c.transportReady := by
  rw [linkToSsrc]
  split
  · exact ⟨rfl, rfl, rfl, rfl⟩
  · exact ⟨rfl, rfl, rfl, rfl⟩

theorem mem_occupants_linkToSsrc {y : UInt32} {streamId : Int}
    (h : y ∈ occupants 0 (c.linkToSsrc x streamId).extendedSsrcVec) :
    y ∈ occupants 0 c.extendedSsrcVec ∨ y = x := by
  rw [extendedSsrcVec_linkToSsrc] at h
  by_cases hx : x = 0
  · rw [hx, assign_free] at h
    exact .inl h
  · rcases (mem_occupants_assign hx).mp h with h | h
    · exact .inl h.1
    · exact .inr h.1

/-! ### Rewriting -/

/-- A packet is rewritten by the context of the first slot of its source. -/
theorem rewriteRtpHeader_eq {d : UInt32} {context : ClassRoomSsrcSwitchContext}
    (hseat : seat? (RtpHeader.getSSRC p.data) c.extendedSsrcVec = some d)
    (hcontext : c.videoSwitchContexts[d]? = some context) (hd : d ≠ 0) :
    c.rewriteRtpHeader p =
      .ok (p.rewritten d (context.advance p.seqNumber p.timestamp).ts
          (context.advance p.seqNumber p.timestamp).seq,
        { c with videoSwitchContexts :=
            c.videoSwitchContexts.insert d (context.advance p.seqNumber p.timestamp) }) := by
  rw [rewriteRtpHeader, hseat]
  dsimp only
  rw [hcontext]
  dsimp only
  rw [if_neg hd]

theorem rewriteRtpHeader_cases (h : c.rewriteRtpHeader p = .ok (q, c')) :
    ∃ d context, seat? (RtpHeader.getSSRC p.data) c.extendedSsrcVec = some d ∧
      c.videoSwitchContexts[d]? = some context ∧
      q = p.rewritten d (context.advance p.seqNumber p.timestamp).ts
        (context.advance p.seqNumber p.timestamp).seq ∧
      c' = { c with videoSwitchContexts :=
        c.videoSwitchContexts.insert d (context.advance p.seqNumber p.timestamp) } := by
  rcases hseat : seat? (RtpHeader.getSSRC p.data) c.extendedSsrcVec with - | d
  · rw [rewriteRtpHeader, hseat] at h
    cases h
  · rcases hcontext : c.videoSwitchContexts[d]? with - | context
    · rw [rewriteRtpHeader, hseat] at h
      dsimp only at h
      rw [hcontext] at h
      cases h
    · by_cases hd : d = 0
      · rw [rewriteRtpHeader, hseat] at h
        dsimp only at h
        rw [hcontext] at h
        dsimp only at h
        rw [if_pos hd] at h
        cases h
      · rw [rewriteRtpHeader_eq hseat hcontext hd] at h
        obtain ⟨rfl, rfl⟩ := Prod.mk.inj (Except.ok.inj h)
        exact ⟨d, context, rfl, hcontext, rfl, rfl⟩

/-! ### Slots and contexts -/

/-- Each source has at most one slot, and each occupied slot has a context. -/
structure Seated (c : ClassRoomPlugin) : Prop where
  once : (occupants 0 c.extendedSsrcVec).Nodup
  context : ∀ s ∈ c.extendedSsrcVec, s.2 ≠ 0 → c.videoSwitchContexts[s.1]? ≠ none

theorem seated_new (streamId : Int) (role : PluginRole) :
    Seated { streamId := streamId, role := role } :=
  ⟨List.nodup_nil, by simp⟩

/-- New slots are free. -/
theorem occupants_setExtendedVideoSsrcs (c : ClassRoomPlugin) (extended : List UInt32) :
    occupants 0 (c.setExtendedVideoSsrcs extended).extendedSsrcVec =
      occupants 0 c.extendedSsrcVec := by
  have hfree : occupants 0 (extended.map fun ssrc => (ssrc, (0 : UInt32))) = [] := by
    rw [occupants, List.map_map, List.filter_eq_nil_iff]
    simp
  show occupants 0 (c.extendedSsrcVec ++ _) = _
  rw [occupants_append, hfree, List.append_nil]

theorem Seated.setExtendedVideoSsrcs (h : Seated c) (extended : List UInt32) :
    Seated (c.setExtendedVideoSsrcs extended) := by
  refine ⟨?_, ?_⟩
  · rw [occupants_setExtendedVideoSsrcs]
    exact h.once
  · intro s hs hne
    rcases List.mem_append.mp hs with hs | hs
    · exact h.context s hs hne
    · obtain ⟨ssrc, -, rfl⟩ := List.mem_map.mp hs
      exact absurd rfl hne

theorem Seated.unlinkToSsrc (h : Seated c) (x : UInt32) : Seated (c.unlinkToSsrc x) := by
  refine ⟨nodup_occupants_release h.once, ?_⟩
  intro s hs hne
  rcases mem_release hs with hfree | ⟨hs, -⟩
  · exact absurd hfree hne
  · exact h.context s hs hne

theorem Seated.linkToSsrc (h : Seated c) (x : UInt32) (streamId : Int) :
    Seated (c.linkToSsrc x streamId) := by
  refine ⟨?_, ?_⟩
  · rw [extendedSsrcVec_linkToSsrc]
    exact nodup_occupants_assign h.once
  · intro s hs hne
    rw [extendedSsrcVec_linkToSsrc] at hs
    rw [videoSwitchContexts_linkToSsrc]
    rcases mem_take hs with hs | ⟨-, hseat⟩
    · split
      · simp
      · exact (h.unlinkToSsrc x).context s hs hne
    · rw [if_pos hseat]
      simp

theorem Seated.rewriteRtpHeader (h : Seated c) (hok : c.rewriteRtpHeader p = .ok (q, c')) :
    Seated c' := by
  obtain ⟨d, context, -, -, -, rfl⟩ := rewriteRtpHeader_cases hok
  refine ⟨h.once, ?_⟩
  intro s hs hne
  show (c.videoSwitchContexts.insert d _)[s.1]? ≠ none
  rw [Std.TreeMap.getElem?_insert]
  split
  · simp
  · exact h.context s hs hne

/-- A change that leaves the slots and the transport of a plugin as they are. -/
structure SameSlots (c c' : ClassRoomPlugin) : Prop where
  streamId : c'.streamId = c.streamId
  upstreamSsrc : c'.upstreamSsrc = c.upstreamSsrc
  transportReady : c'.transportReady = c.transportReady
  extendedSsrcVec : c'.extendedSsrcVec = c.extendedSsrcVec
  seated : Seated c → Seated c'

theorem SameSlots.refl (c : ClassRoomPlugin) : SameSlots c c := ⟨rfl, rfl, rfl, rfl, id⟩

/-- Relaying a packet changes contexts only. -/
theorem relayRtpPacket_same (h : c.relayRtpPacket p = .ok c') :
    SameSlots c c' ∧ c'.active = c.active := by
  rw [relayRtpPacket] at h
  split at h
  · rcases hrewrite : c.rewriteRtpHeader p with e | ⟨q, c₁⟩
    · rw [hrewrite] at h
      cases h
    · rw [hrewrite] at h
      obtain rfl := Except.ok.inj h
      have hseated : Seated c → Seated c₁ := fun hc => hc.rewriteRtpHeader hrewrite
      obtain ⟨d, context, -, -, -, rfl⟩ := rewriteRtpHeader_cases hrewrite
      exact ⟨⟨rfl, rfl, rfl, rfl, fun hc => ⟨(hseated hc).once, (hseated hc).context⟩⟩, rfl⟩
  · obtain rfl := Except.ok.inj h
    exact ⟨SameSlots.refl c, rfl⟩

/-! ### Histories -/

/-- The calls that a plugin gets. -/
inductive Call
  | linkToSsrc (otherSsrc : UInt32) (otherStreamId : Int)
  | unlinkToSsrc (otherSsrc : UInt32)
  | rewriteRtpHeader (p : RtpPacket)

/-- A plugin, and the packets it got and rewrote so far. -/
structure History where
  plugin : ClassRoomPlugin
  log : List (RtpPacket × RtpPacket) := []

/-- One call. -/
def History.call (h : History) : Call → Except ClassRoomFault History
  | .linkToSsrc otherSsrc otherStreamId =>
      .ok { h with plugin := h.plugin.linkToSsrc otherSsrc otherStreamId }
  | .unlinkToSsrc otherSsrc => .ok { h with plugin := h.plugin.unlinkToSsrc otherSsrc }
  | .rewriteRtpHeader p =>
      match h.plugin.rewriteRtpHeader p with
      | .ok (q, c) => .ok ⟨c, h.log ++ [(p, q)]⟩
      | .error e => .error e

theorem History.call_rewriteRtpHeader {h h' : History}
    (hok : h.call (.rewriteRtpHeader p) = .ok h') :
    ∃ q c, h.plugin.rewriteRtpHeader p = .ok (q, c) ∧ h' = ⟨c, h.log ++ [(p, q)]⟩ := by
  rw [History.call] at hok
  rcases hrewrite : h.plugin.rewriteRtpHeader p with e | ⟨q, c⟩
  · rw [hrewrite] at hok
    cases hok
  · rw [hrewrite] at hok
    exact ⟨q, c, rfl, (Except.ok.inj hok).symm⟩

/-- A new plugin with its slots. -/
def fresh (streamId : Int) (extended : List UInt32) : History where
  plugin := setExtendedVideoSsrcs { streamId := streamId } extended

/-- The packets that a slot has carried. -/
def carried (log : List (RtpPacket × RtpPacket)) (d : UInt32) : List (RtpPacket × RtpPacket) :=
  log.filter fun x => RtpHeader.getSSRC x.2.data = d

/-- The packets that came from a source. -/
def ofSource (log : List (RtpPacket × RtpPacket)) (source : UInt32) : List (RtpPacket × RtpPacket) :=
  log.filter fun x => RtpHeader.getSSRC x.1.data = source

/-- The call links or unlinks the source. -/
def Call.Touches (source : UInt32) : Call → Prop
  | .linkToSsrc otherSsrc _ => otherSsrc = source
  | .unlinkToSsrc otherSsrc => otherSsrc = source
  | .rewriteRtpHeader _ => False

/-- The slots have distinct keys, and the context of a slot remembers the last packet that the
slot has carried. -/
structure Remembers (h : History) : Prop where
  keys : (h.plugin.extendedSsrcVec.map Prod.fst).Nodup
  last : ∀ d e, (carried h.log d).getLast? = some e → ∃ context,
    h.plugin.videoSwitchContexts[d]? = some context ∧
      context.seq = e.2.seqNumber ∧ context.ts = e.2.timestamp

theorem remembers_fresh (streamId : Int) {extended : List UInt32} (hdistinct : extended.Nodup) :
    Remembers (fresh streamId extended) := by
  refine ⟨?_, by simp [fresh, carried]⟩
  have hkeys : (fresh streamId extended).plugin.extendedSsrcVec.map Prod.fst = extended := by
    show (([] : List (UInt32 × UInt32)) ++ extended.map fun ssrc => (ssrc, 0)).map Prod.fst = _
    rw [List.nil_append, List.map_map]
    exact List.map_id extended
  rw [hkeys]
  exact hdistinct

theorem linkedContext_of_some {d : UInt32} {context : ClassRoomSsrcSwitchContext}
    (h : c.videoSwitchContexts[d]? = some context) (x : UInt32) (streamId : Int) :
    c.linkedContext d x streamId = context.reuse d x streamId := by
  rw [linkedContext, h]

theorem map_fst_linkToSsrc (c : ClassRoomPlugin) (x : UInt32) (streamId : Int) :
    (c.linkToSsrc x streamId).extendedSsrcVec.map Prod.fst = c.extendedSsrcVec.map Prod.fst := by
  rw [extendedSsrcVec_linkToSsrc, assign, map_fst_take, map_fst_release]

theorem Remembers.call {h h' : History} (hr : Remembers h) {call : Call}
    (hok : h.call call = .ok h') : Remembers h' := by
  cases call with
  | linkToSsrc otherSsrc otherStreamId =>
    obtain rfl := Except.ok.inj hok
    refine ⟨by rw [map_fst_linkToSsrc]; exact hr.keys, ?_⟩
    intro d e he
    obtain ⟨context, hcontext, hseq, hts⟩ := hr.last d e he
    rw [videoSwitchContexts_linkToSsrc]
    split
    · exact ⟨_, rfl, by rw [linkedContext_of_some hcontext]; exact ⟨hseq, hts⟩⟩
    · exact ⟨context, hcontext, hseq, hts⟩
  | unlinkToSsrc otherSsrc =>
    obtain rfl := Except.ok.inj hok
    refine ⟨?_, hr.last⟩
    show ((release 0 otherSsrc h.plugin.extendedSsrcVec).map Prod.fst).Nodup
    rw [map_fst_release]
    exact hr.keys
  | rewriteRtpHeader p =>
    obtain ⟨q, c, hrewrite, rfl⟩ := History.call_rewriteRtpHeader hok
    obtain ⟨d, context, -, -, rfl, rfl⟩ := rewriteRtpHeader_cases hrewrite
    refine ⟨hr.keys, ?_⟩
    intro d' e he
    show ∃ context', (h.plugin.videoSwitchContexts.insert d _)[d']? = some context' ∧ _
    rw [Std.TreeMap.getElem?_insert]
    rw [carried, List.filter_append, List.filter_cons, List.filter_nil,
      RtpPacket.getSSRC_rewritten] at he
    by_cases hd : d = d'
    · rw [if_pos (by simp [hd])]
      rw [if_pos (by simp [hd]), List.getLast?_concat] at he
      obtain rfl := Option.some.inj he
      exact ⟨_, rfl, by simp, by simp⟩
    · rw [if_neg (by simp [hd])]
      rw [if_neg (by simp [hd]), List.append_nil] at he
      exact hr.last d' e he

theorem Remembers.run {h h' : History} (hr : Remembers h) {calls : List Call}
    (hok : calls.foldlM History.call h = .ok h') : Remembers h' := by
  have hout : Outcome Remembers (fun _ => True) (calls.foldlM History.call h) := by
    refine Outcome.foldlM ?_ hr
    intro s hs call _
    rcases hcall : s.call call with e | s'
    · trivial
    · exact hs.call hcall
  rw [hok] at hout
  exact hout

/-! ### A slot is reused -/

/-- The source holds the slot, and its packets are measured from 65535 and from this base. -/
structure Holds (source d : UInt32) (lastSeq : UInt16) (lastTs base : UInt32)
    (c : ClassRoomPlugin) : Prop where
  keys : (c.extendedSsrcVec.map Prod.fst).Nodup
  seat : seat? source c.extendedSsrcVec = some d
  context : ∃ context, c.videoSwitchContexts[d]? = some context ∧ context.baseSeq = 65535 ∧
    context.lastSeq = lastSeq ∧ context.lastTs = lastTs ∧ context.baseTs = base

section Reuse

variable {source d base lastTs : UInt32} {lastSeq : UInt16} {h h' : History}

/-- A slot of another occupant is another slot. -/
theorem Holds.ne_of_mem (hc : Holds source d lastSeq lastTs base c) {s : UInt32 × UInt32}
    (hs : s ∈ c.extendedSsrcVec) (hne : s.2 ≠ source) : s.1 ≠ d := by
  rintro rfl
  exact hne (occupant_unique hc.keys hs (mem_of_seat? hc.seat))

theorem Holds.unlinkToSsrc (hsource : source ≠ 0) (hc : Holds source d lastSeq lastTs base c)
    (hx : x ≠ source) : Holds source d lastSeq lastTs base (c.unlinkToSsrc x) := by
  refine ⟨?_, ?_, hc.context⟩
  · show ((release 0 x c.extendedSsrcVec).map Prod.fst).Nodup
    rw [map_fst_release]
    exact hc.keys
  · show seat? source (release 0 x c.extendedSsrcVec) = some d
    rw [seat?_release_of_ne hsource hx.symm]
    exact hc.seat

theorem Holds.linkToSsrc (hsource : source ≠ 0) (hc : Holds source d lastSeq lastTs base c)
    (hx : x ≠ source) (streamId : Int) :
    Holds source d lastSeq lastTs base (c.linkToSsrc x streamId) := by
  have hunlinked := hc.unlinkToSsrc hsource hx
  refine ⟨?_, ?_, ?_⟩
  · rw [map_fst_linkToSsrc]
    exact hc.keys
  · rw [extendedSsrcVec_linkToSsrc, assign, seat?_take_of_ne hsource hx.symm]
    exact hunlinked.seat
  · -- the slot that is taken was free, so it is not this one
    rw [videoSwitchContexts_linkToSsrc, if_neg]
    · exact hc.context
    · intro hseat
      exact hunlinked.ne_of_mem (mem_of_seat? hseat) hsource.symm rfl

/-- A packet of another source goes through another slot. -/
theorem Holds.rewrite_other (hc : Holds source d lastSeq lastTs base c)
    (hok : c.rewriteRtpHeader p = .ok (q, c')) (hne : RtpHeader.getSSRC p.data ≠ source) :
    Holds source d lastSeq lastTs base c' := by
  obtain ⟨k, context, hseat, -, -, rfl⟩ := rewriteRtpHeader_cases hok
  refine ⟨hc.keys, hc.seat, ?_⟩
  have hk : k ≠ d := hc.ne_of_mem (mem_of_seat? hseat) hne
  show ∃ context', (c.videoSwitchContexts.insert k _)[d]? = some context' ∧ _
  rw [Std.TreeMap.getElem?_insert, if_neg (by simp [hk])]
  exact hc.context

/-- A packet of the source is measured, and may set the base of the timestamps. -/
theorem Holds.rewrite_own (hc : Holds source d lastSeq lastTs base c)
    (hok : c.rewriteRtpHeader p = .ok (q, c')) (hp : RtpHeader.getSSRC p.data = source) :
    q.seqNumber = lastSeq + (p.seqNumber - 65535) ∧
      q.timestamp = lastTs + (p.timestamp - rebase 0xFFFFFFFF base p.timestamp) ∧
      Holds source d lastSeq lastTs (rebase 0xFFFFFFFF base p.timestamp) c' := by
  obtain ⟨k, context, hseat, hcontext, rfl, rfl⟩ := rewriteRtpHeader_cases hok
  rw [hp, hc.seat] at hseat
  obtain rfl := Option.some.inj hseat
  obtain ⟨context', hcontext', hbaseSeq, rfl, rfl, rfl⟩ := hc.context
  rw [hcontext'] at hcontext
  obtain rfl := Option.some.inj hcontext
  rw [RtpPacket.seqNumber_rewritten, RtpPacket.timestamp_rewritten,
    ClassRoomSsrcSwitchContext.advance_eq]
  refine ⟨by rw [hbaseSeq], rfl, hc.keys, hc.seat, ?_⟩
  show ∃ context', (c.videoSwitchContexts.insert d _)[d]? = some context' ∧ _
  rw [Std.TreeMap.getElem?_insert_self]
  exact ⟨_, rfl, hbaseSeq, rfl, rfl, rfl⟩

theorem ofSource_append (log log' : List (RtpPacket × RtpPacket)) (source : UInt32) :
    ofSource (log ++ log') source = ofSource log source ++ ofSource log' source :=
  List.filter_append log log'

/-- A call that does not touch the source: it stays in its slot, and only a packet of the source
is measured. -/
theorem Holds.call (hsource : source ≠ 0) {call : Call} (hcall : ¬ call.Touches source)
    (hc : Holds source d lastSeq lastTs base h.plugin) (hok : h.call call = .ok h') :
    ∃ new, h'.log = h.log ++ new ∧
      ((ofSource new source = [] ∧ Holds source d lastSeq lastTs base h'.plugin) ∨
        ∃ p q : RtpPacket, ofSource new source = [(p, q)] ∧
          q.seqNumber = lastSeq + (p.seqNumber - 65535) ∧
          q.timestamp = lastTs + (p.timestamp - rebase 0xFFFFFFFF base p.timestamp) ∧
          Holds source d lastSeq lastTs (rebase 0xFFFFFFFF base p.timestamp) h'.plugin) := by
  cases call with
  | linkToSsrc otherSsrc otherStreamId =>
    obtain rfl := Except.ok.inj hok
    exact ⟨[], (List.append_nil _).symm,
      .inl ⟨rfl, hc.linkToSsrc hsource hcall otherStreamId⟩⟩
  | unlinkToSsrc otherSsrc =>
    obtain rfl := Except.ok.inj hok
    exact ⟨[], (List.append_nil _).symm, .inl ⟨rfl, hc.unlinkToSsrc hsource hcall⟩⟩
  | rewriteRtpHeader p =>
    obtain ⟨q, c, hrewrite, rfl⟩ := History.call_rewriteRtpHeader hok
    refine ⟨[(p, q)], rfl, ?_⟩
    rw [ofSource, List.filter_cons, List.filter_nil]
    by_cases hp : RtpHeader.getSSRC p.data = source
    · rw [if_pos (by simp [hp])]
      exact .inr ⟨p, q, rfl, hc.rewrite_own hrewrite hp⟩
    · rw [if_neg (by simp [hp])]
      exact .inl ⟨rfl, hc.rewrite_other hrewrite hp⟩

open scoped UInt32.CommRing in
/-- What the source sends while it holds the slot. -/
theorem Holds.run (hsource : source ≠ 0) {calls : List Call}
    (hcalls : ∀ call ∈ calls, ¬ call.Touches source)
    (hc : Holds source d lastSeq lastTs base h.plugin)
    (hok : calls.foldlM History.call h = .ok h') :
    ∃ new, h'.log = h.log ++ new ∧
      (∀ x ∈ ofSource new source, x.2.seqNumber = lastSeq + (x.1.seqNumber - 65535)) ∧
      Measured 0xFFFFFFFF lastTs base
        ((ofSource new source).map fun x => (x.1.timestamp, x.2.timestamp)) := by
  induction calls generalizing h base with
  | nil =>
    obtain rfl := Except.ok.inj hok
    exact ⟨[], (List.append_nil _).symm, by simp [ofSource], Measured.nil _⟩
  | cons call calls ih =>
    have hrest : ∀ call ∈ calls, ¬ call.Touches source :=
      fun a ha => hcalls a (List.mem_cons_of_mem _ ha)
    rw [List.foldlM_cons] at hok
    rcases hcall : h.call call with e | h₁
    · rw [hcall] at hok
      cases hok
    · rw [hcall] at hok
      obtain ⟨first, hfirst, hcases⟩ :=
        hc.call hsource (hcalls call List.mem_cons_self) hcall
      rcases hcases with ⟨hnone, hc₁⟩ | ⟨p, q, hone, hseq, hts, hc₁⟩
      · obtain ⟨new, hlog, hseqs, hmeasured⟩ := ih hrest hc₁ hok
        refine ⟨first ++ new, by rw [hlog, hfirst, List.append_assoc], ?_⟩
        rw [ofSource_append, hnone, List.nil_append]
        exact ⟨hseqs, hmeasured⟩
      · obtain ⟨new, hlog, hseqs, hmeasured⟩ := ih hrest hc₁ hok
        refine ⟨first ++ new, by rw [hlog, hfirst, List.append_assoc], ?_⟩
        rw [ofSource_append, hone, List.singleton_append, List.forall_mem_cons, List.map_cons, hts]
        exact ⟨⟨hseq, hseqs⟩, Measured.cons hmeasured⟩

/-- A source that takes a slot which has carried packets continues behind the last of them. -/
theorem Remembers.holds_of_link (hr : Remembers h) (hsource : source ≠ 0) (streamId : Int)
    (hslot : seat? source (h.plugin.linkToSsrc source streamId).extendedSsrcVec = some d)
    {e : RtpPacket × RtpPacket} (hlast : (carried h.log d).getLast? = some e) :
    Holds source d (e.2.seqNumber + 1) (e.2.timestamp + 2880) 0xFFFFFFFF
      (h.plugin.linkToSsrc source streamId) := by
  refine ⟨by rw [map_fst_linkToSsrc]; exact hr.keys, hslot, ?_⟩
  have hgone : ∀ s ∈ release 0 source h.plugin.extendedSsrcVec, s.2 ≠ source := by
    intro s hs
    rcases mem_release hs with hfree | ⟨-, hne⟩
    · rw [hfree]
      exact hsource.symm
    · exact hne
  have hseat : seat? 0 (release 0 source h.plugin.extendedSsrcVec) = some d := by
    rw [extendedSsrcVec_linkToSsrc, assign] at hslot
    rcases hfree : seat? 0 (release 0 source h.plugin.extendedSsrcVec) with - | k
    · rw [take_of_full hfree, seat?_eq_none.mpr hgone] at hslot
      cases hslot
    · rw [seat?_take_self hgone hfree] at hslot
      exact hslot
  obtain ⟨context, hcontext, hseq, hts⟩ := hr.last d e hlast
  rw [videoSwitchContexts_linkToSsrc, if_pos hseat, linkedContext_of_some hcontext, ← hseq, ← hts]
  exact ⟨_, rfl, rfl, rfl, rfl, rfl⟩

end Reuse

open scoped UInt16.CommRing UInt32.CommRing in
/-- **Slot reuse.**  For every history of a plugin with distinct slots: when a source is linked
to a slot that has carried packets, its first packet continues the last one of the slot, and
its later packets keep their distance to the first one, if and only if the first packet has
the sequence number 65535, and its timestamp is not the marker for "no base" or all later
timestamps are. -/
theorem reuse_continuous_iff (streamId : Int) (extended : List UInt32) (hdistinct : extended.Nodup)
    (before after : List Call) (h h' : History)
    (hbefore : before.foldlM History.call (fresh streamId extended) = .ok h)
    (source d : UInt32) (hsource : source ≠ 0) (otherStreamId : Int)
    (hslot : seat? source (h.plugin.linkToSsrc source otherStreamId).extendedSsrcVec = some d)
    (last : RtpPacket × RtpPacket) (hlast : (carried h.log d).getLast? = some last)
    (hafter : after.foldlM History.call ⟨h.plugin.linkToSsrc source otherStreamId, []⟩ = .ok h')
    (hstays : ∀ call ∈ after, ¬ call.Touches source)
    (first : RtpPacket × RtpPacket) (rest : List (RtpPacket × RtpPacket))
    (hstream : ofSource h'.log source = first :: rest) :
    ((first.2.seqNumber = last.2.seqNumber + 1 ∧ first.2.timestamp = last.2.timestamp + 2880) ∧
      ∀ x ∈ rest, x.2.seqNumber - first.2.seqNumber = x.1.seqNumber - first.1.seqNumber ∧
        x.2.timestamp - first.2.timestamp = x.1.timestamp - first.1.timestamp) ↔
    first.1.seqNumber = 65535 ∧
      (first.1.timestamp ≠ 0xFFFFFFFF ∨ ∀ x ∈ rest, x.1.timestamp = 0xFFFFFFFF) := by
  have hr := (remembers_fresh streamId hdistinct).run hbefore
  have hholds := hr.holds_of_link hsource otherStreamId hslot hlast
  obtain ⟨new, hlog, hseqs, hmeasured⟩ := hholds.run hsource hstays hafter
  rw [List.nil_append] at hlog
  rw [← hlog, hstream] at hseqs hmeasured
  rw [List.forall_mem_cons] at hseqs
  obtain ⟨hfirst, hrest⟩ := hseqs
  rw [List.map_cons] at hmeasured
  have hts := hmeasured.offsets_iff
  rw [List.forall_mem_map, List.forall_mem_map] at hts
  have hseq : first.2.seqNumber = last.2.seqNumber + 1 ↔ first.1.seqNumber = 65535 := by
    rw [hfirst, add_eq_left, sub_eq_zero]
  have hstart : first.2.timestamp = last.2.timestamp + 2880 := hmeasured.head_of_unset
  have hoffsets : ∀ x ∈ rest,
      x.2.seqNumber - first.2.seqNumber = x.1.seqNumber - first.1.seqNumber := by
    intro x hx
    rw [hrest x hx, hfirst, add_sub_add_left_eq_sub, sub_sub_sub_cancel_right]
  rw [hseq, and_iff_left hstart]
  refine and_congr_right fun _ => ?_
  rw [forall₂_and, and_iff_right hoffsets, hts]
  simp

/-- A packet of a source. -/
def packet (ssrc : UInt32) (seq : UInt16) (ts : UInt32) : RtpPacket :=
  (RtpPacket.ofHeader seq ts).rewritten ssrc ts seq

/-- A source whose packet goes through the slot 7, and that leaves. -/
def firstSource : List Call :=
  [.linkToSsrc 1 1, .rewriteRtpHeader (packet 1 65535 100), .unlinkToSsrc 1]

/-- A second source that starts with the number 65535. -/
theorem reuse_continuous_from_wrap :
    ∃ h h' last first rest,
      firstSource.foldlM History.call (fresh 5 [7]) = .ok h ∧
      [.rewriteRtpHeader (packet 2 65535 5000), .rewriteRtpHeader (packet 2 0 5090)].foldlM
        History.call ⟨h.plugin.linkToSsrc 2 2, []⟩ = .ok h' ∧
      (carried h.log 7).getLast? = some last ∧ ofSource h'.log 2 = first :: rest ∧
      ((first.2.seqNumber = last.2.seqNumber + 1 ∧ first.2.timestamp = last.2.timestamp + 2880) ∧
        ∀ x ∈ rest, x.2.seqNumber - first.2.seqNumber = x.1.seqNumber - first.1.seqNumber ∧
          x.2.timestamp - first.2.timestamp = x.1.timestamp - first.1.timestamp) := by
  refine ⟨_, _, _, _, _, rfl, rfl, rfl, rfl,
    (reuse_continuous_iff 5 [7] (by decide) firstSource
      [.rewriteRtpHeader (packet 2 65535 5000), .rewriteRtpHeader (packet 2 0 5090)] _ _ rfl 2 7
      (by decide) 2 rfl _ rfl rfl ?_ _ _ rfl).mpr ⟨?_, ?_⟩⟩
  · intro call hcall
    rcases List.mem_cons.mp hcall with rfl | hcall
    · exact id
    · rcases List.mem_cons.mp hcall with rfl | hcall
      · exact id
      · cases hcall
  · decide
  · exact .inl (by decide)

/-- The last packet of the slot has the number 0, and the first one of the second source, which
comes with the number 100, gets the number 102 instead of 1. -/
theorem reuse_jumps :
    ∃ h h' last first,
      firstSource.foldlM History.call (fresh 5 [7]) = .ok h ∧
      [.rewriteRtpHeader (packet 2 100 5000)].foldlM
        History.call ⟨h.plugin.linkToSsrc 2 2, []⟩ = .ok h' ∧
      (carried h.log 7).getLast? = some last ∧ ofSource h'.log 2 = [first] ∧
      last.2.seqNumber = 0 ∧ first.2.seqNumber = 102 ∧
      first.2.seqNumber ≠ last.2.seqNumber + 1 := by
  refine ⟨_, _, _, _, rfl, rfl, rfl, rfl, ?_, ?_, ?_⟩
  · decide
  · decide
  · decide

end ClassRoomPlugin

end Orbit
