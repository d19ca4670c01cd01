/-
OrbitStream/ClassRoom.lean

The class room (`ClassRoom` of `classroom_plugin.{h,cc}`), its participants and the
events of their transports.

When the transport of a participant becomes ready, the room links it with every other
participant, in both directions; when a participant leaves, all others unlink it.  In
every run in which a participant keeps its SSRC, and no two have the same one, the
slots of a participant refer to other participants that are in the room (`Tidy`,
`slots_of_run`).

A participant has a fixed number of slots, but a room has no limit.  If at each ready
event there are enough slots, then any two participants whose transports are ready
are linked with each other (`Linked`), and every video packet finds its slot and its
context (`forwarding_finds_slot`).  With a seventh participant it does not
(`seventh_participant_unlinked`).
-/
import OrbitStream.ClassRoomPlugin

namespace Orbit

open Lib

/-- `ClassRoom`, the participants and the sets of streams. -/
structure ClassRoom where
  plugins : List ClassRoomPlugin := []
  masterStreams : List Int := []
  publishedStreams : List Int := []

namespace ClassRoom

/-- `AddParticipant` of a new plugin. -/
def addParticipant (r : ClassRoom) (streamId : Int) (role : PluginRole) : ClassRoom :=
  let plugin : ClassRoomPlugin := { streamId := streamId, role := role }
  let r := { r with plugins := r.plugins ++ [plugin] }
  if role = .teacher then { r with masterStreams := r.masterStreams.insert streamId }
  else { r with publishedStreams := r.publishedStreams.insert streamId }

/-- What `ProcessOffer` does to the plugin. -/
def processOffer (r : ClassRoom) (i : Nat) (upstreamSsrc : UInt32) (extended : List UInt32) :
    ClassRoom :=
  { r with plugins := r.plugins.modify i fun c =>
      { c with upstreamSsrc := upstreamSsrc }.setExtendedVideoSsrcs extended }

/-- One turn of the loop of `LinkSsrcsToParticipants`; `k` is the place of `new_plugin`. -/
def linkPair (streamId : Int) (k : Nat) (plugins : List ClassRoomPlugin) (i : Nat) :
    List ClassRoomPlugin :=
  match plugins[k]?, plugins[i]? with
  | some newPlugin, some oldPlugin =>
      if oldPlugin.streamId = streamId then plugins
      else
        (plugins.set i (oldPlugin.linkToSsrc newPlugin.upstreamSsrc newPlugin.streamId)).set k
          (newPlugin.linkToSsrc oldPlugin.upstreamSsrc oldPlugin.streamId)
  | _, _ => plugins

/-- `LinkSsrcsToParticipants`. -/
def linkSsrcsToParticipants (r : ClassRoom) (streamId : Int) : Except ClassRoomFault ClassRoom :=
  match r.plugins.findIdx? fun c => c.streamId = streamId with
  | none => .error .noPlugin
  | some k => .ok
      { r with plugins := (List.range r.plugins.length).foldl (linkPair streamId k) r.plugins }

/-- `updateState(TRANSPORT_READY)` of the transport of a participant, up to and with
`OnTransportStateChange`. -/
def updateState (r : ClassRoom) (i : Nat) : Except ClassRoomFault ClassRoom :=
  match r.plugins[i]? with
  | none => .ok r
  | some c =>
      let r := { r with plugins := r.plugins.modify i fun c => { c with transportReady := true } }
      r.linkSsrcsToParticipants c.streamId

/-- The rest of `updateState(TRANSPORT_READY)`. -/
def setActive (r : ClassRoom) (i : Nat) : ClassRoom :=
  { r with plugins := r.plugins.modify i fun c =>
      if c.transportReady then { c with active := true } else c }

/-- `RemoveParticipant`. -/
def removeParticipant (r : ClassRoom) (i : Nat) : ClassRoom :=
  match r.plugins[i]? with
  | none => r
  | some c =>
      { plugins := (r.plugins.eraseIdx i).map fun d => d.unlinkToSsrc c.upstreamSsrc
        masterStreams := r.masterStreams.filter (· ≠ c.streamId)
        publishedStreams := r.publishedStreams.filter (· ≠ c.streamId) }

/-- `PublishStreams`. -/
def publishStreams (r : ClassRoom) (streamIds : List Int) : ClassRoom :=
  { r with publishedStreams := streamIds }

/-- `should_forward` of `MuxRtpPacket`. -/
def shouldForward (r : ClassRoom) (streamId : Int) (c : ClassRoomPlugin) : Bool :=
  if c.streamId = streamId then false
  else streamId ∈ r.masterStreams || c.streamId ∈ r.masterStreams || streamId ∈ r.publishedStreams

/-- One turn of the loop of `MuxRtpPacket`. -/
def forwardTo (r : ClassRoom) (streamId : Int) (packet : RtpPacket) (c : ClassRoomPlugin) :
    Except ClassRoomFault ClassRoomPlugin :=
  if r.shouldForward streamId c then c.relayRtpPacket packet else .ok c

/-- `MuxRtpPacket`. -/
def muxRtpPacket (r : ClassRoom) (streamId : Int) (packet : RtpPacket) :
    Except ClassRoomFault ClassRoom :=
  match r.plugins.mapM (r.forwardTo streamId packet) with
  | .ok plugins => .ok { r with plugins := plugins }
  | .error e => .error e

/-- `IncomingRtpPacket` of a participant, with a packet of type `VIDEO_PACKET`. -/
def incomingRtpPacket (r : ClassRoom) (i : Nat) (packet : RtpPacket) :
    Except ClassRoomFault ClassRoom :=
  match r.plugins[i]? with
  | none => .ok r
  | some c => if c.active then r.muxRtpPacket c.streamId packet else .ok r

/-- The events of a room; a participant is given by its place. -/
inductive Event
  | addParticipant (streamId : Int) (role : PluginRole)
  | processOffer (i : Nat) (upstreamSsrc : UInt32) (extended : List UInt32)
  | updateState (i : Nat)
  | setActive (i : Nat)
  | removeParticipant (i : Nat)
  | publishStreams (streamIds : List Int)
  | incomingRtpPacket (i : Nat) (packet : RtpPacket)

/-- One event. -/
def step (r : ClassRoom) : Event → Except ClassRoomFault ClassRoom
  | .addParticipant streamId role => .ok (r.addParticipant streamId role)
  | .processOffer i upstreamSsrc extended => .ok (r.processOffer i upstreamSsrc extended)
  | .updateState i => r.updateState i
  | .setActive i => .ok (r.setActive i)
  | .removeParticipant i => .ok (r.removeParticipant i)
  | .publishStreams streamIds => .ok (r.publishStreams streamIds)
  | .incomingRtpPacket i packet => r.incomingRtpPacket i packet

/-! ### What the events do to the participants -/

/-- Stream ids are unique. -/
def Distinct (plugins : List ClassRoomPlugin) : Prop :=
  (plugins.map ClassRoomPlugin.streamId).Nodup

section Places

variable {plugins : List ClassRoomPlugin} {c d : ClassRoomPlugin} {i j : Nat}

theorem Distinct.place_eq (h : Distinct plugins) (hi : plugins[i]? = some c)
    (hj : plugins[j]? = some d) (hid : c.streamId = d.streamId) : i = j := by
  have hlt : i < (plugins.map ClassRoomPlugin.streamId).length := by
    rw [List.length_map]
    exact (List.getElem?_eq_some_iff.mp hi).1
  apply (List.getElem?_inj hlt h).mp
  rw [List.getElem?_map, List.getElem?_map, hi, hj, Option.map_some, Option.map_some, hid]

theorem Distinct.map (h : Distinct plugins) {g : ClassRoomPlugin → ClassRoomPlugin}
    (hg : ∀ c ∈ plugins, (g c).streamId = c.streamId) : Distinct (plugins.map g) := by
  have hids : (plugins.map g).map ClassRoomPlugin.streamId =
      plugins.map ClassRoomPlugin.streamId := by
    rw [List.map_map]
    exact List.map_congr_left hg
  rw [Distinct, hids]
  exact h

/-- A change at a place is a change of the participant with its stream id. -/
theorem Distinct.modify_eq (h : Distinct plugins) (hi : plugins[i]? = some c)
    (f : ClassRoomPlugin → ClassRoomPlugin) :
    plugins.modify i f = plugins.map fun d => if d.streamId = c.streamId then f d else d := by
  apply List.ext_getElem?
  intro j
  rw [List.getElem?_modify, List.getElem?_map]
  rcases hj : plugins[j]? with - | d
  · rfl
  · rw [Option.map_some]
    show some (if i = j then f d else d) = _
    by_cases hij : i = j
    · obtain rfl := hij
      obtain rfl := Option.some.inj (hi.symm.trans hj)
      rw [if_pos rfl, if_pos rfl]
    · rw [if_neg hij, if_neg fun hid => hij (h.place_eq hi hj hid.symm)]

/-- Who is removed at a place is the participant with its stream id. -/
theorem Distinct.eraseIdx_eq (h : Distinct plugins) (hi : plugins[i]? = some c) :
    plugins.eraseIdx i = plugins.filter fun d => d.streamId ≠ c.streamId := by
  induction plugins generalizing i with
  | nil => rfl
  | cons d plugins ih =>
    rw [Distinct, List.map_cons, List.nodup_cons] at h
    rcases i with - | i
    · obtain rfl := Option.some.inj hi
      rw [List.eraseIdx_cons_zero, List.filter_cons, if_neg (by simp), eq_comm,
        List.filter_eq_self]
      intro e he
      refine decide_eq_true fun hid => h.1 ?_
      rw [← hid]
      exact List.mem_map_of_mem he
    · rw [List.getElem?_cons_succ] at hi
      have hmem : c.streamId ∈ plugins.map ClassRoomPlugin.streamId :=
        List.mem_map_of_mem (List.mem_of_getElem? hi)
      rw [List.eraseIdx_cons_succ, ih h.2 hi, List.filter_cons, if_pos]
      exact decide_eq_true fun hid => h.1 (hid ▸ hmem)

end Places

/-- What the loop of `LinkSsrcsToParticipants` makes of a participant when `c` is ready. -/
def linked (plugins : List ClassRoomPlugin) (c d : ClassRoomPlugin) : ClassRoomPlugin :=
  if d.streamId = c.streamId then
    (plugins.filter fun o => o.streamId ≠ c.streamId).foldl
      (fun e o => e.linkToSsrc o.upstreamSsrc o.streamId) d
  else d.linkToSsrc c.upstreamSsrc c.streamId

section Link

variable {plugins : List ClassRoomPlugin} {c : ClassRoomPlugin} {k : Nat}

/-- Links do not change who a participant is. -/
theorem foldl_linkToSsrc_fields (others : List ClassRoomPlugin) (c : ClassRoomPlugin) :
    (others.foldl (fun e o => e.linkToSsrc o.upstreamSsrc o.streamId) c).streamId = c.streamId ∧
      (others.foldl (fun e o => e.linkToSsrc o.upstreamSsrc o.streamId) c).upstreamSsrc =
        c.upstreamSsrc ∧
      (others.foldl (fun e o => e.linkToSsrc o.upstreamSsrc o.streamId) c).active = c.active ∧
      (others.foldl (fun e o => e.linkToSsrc o.upstreamSsrc o.streamId) c).transportReady =
        c.transportReady := by
  induction others generalizing c with
  | nil => exact ⟨rfl, rfl, rfl, rfl⟩
  | cons o others ih =>
    rw [List.foldl_cons]
    obtain ⟨h₁, h₂, h₃, h₄⟩ := ih (c.linkToSsrc o.upstreamSsrc o.streamId)
    obtain ⟨g₁, g₂, g₃, g₄⟩ := c.linkToSsrc_fields o.upstreamSsrc o.streamId
    exact ⟨h₁.trans g₁, h₂.trans g₂, h₃.trans g₃, h₄.trans g₄⟩

/-- The loop after the places before `m`: the others there are linked to the new participant,
and it is linked to them. -/
theorem foldl_linkPair (hk : plugins[k]? = some c) (h : Distinct plugins) (m : Nat)
    (hm : m ≤ plugins.length) :
    (∀ i, i ≠ k → ((List.range m).foldl (linkPair c.streamId k) plugins)[i]? =
      if i < m then (plugins[i]?).map fun d => d.linkToSsrc c.upstreamSsrc c.streamId
      else plugins[i]?) ∧
    ((List.range m).foldl (linkPair c.streamId k) plugins)[k]? =
      some (((plugins.take m).filter fun o => o.streamId ≠ c.streamId).foldl
        (fun e o => e.linkToSsrc o.upstreamSsrc o.streamId) c) := by
  induction m with
  | zero => exact ⟨fun i _ => rfl, hk⟩
  | succ m ih =>
    obtain ⟨hothers, hnew⟩ := ih (Nat.le_of_succ_le hm)
    rw [List.range_succ, List.foldl_append, List.foldl_cons, List.foldl_nil]
    obtain ⟨hid, hup, -, -⟩ := foldl_linkToSsrc_fields
      ((plugins.take m).filter fun o => o.streamId ≠ c.streamId) c
    have hlast : plugins.take (m + 1) = plugins.take m ++ [plugins[m]] := by
      rw [List.take_append_getElem]
    have hnext : ∀ i, i ≠ m → (i < m + 1 ↔ i < m) := by
      omega
    rw [hlast, List.filter_append, List.foldl_append]
    generalize (List.range m).foldl (linkPair c.streamId k) plugins = loop at hothers hnew ⊢
    generalize ((plugins.take m).filter fun o => o.streamId ≠ c.streamId).foldl
      (fun e o => e.linkToSsrc o.upstreamSsrc o.streamId) c = new at hid hup hnew ⊢
    rw [linkPair, hnew]
    by_cases hmk : m = k
    · -- the place of the new participant itself
      obtain rfl := hmk
      have hself : plugins[m] = c := (List.getElem?_eq_some_iff.mp hk).2
      rw [hnew]
      dsimp only
      rw [if_pos hid, hself]
      refine ⟨?_, by simpa using hnew⟩
      intro i hi
      rw [hothers i hi]
      simp only [hnext i hi]
    · have hold : loop[m]? = some plugins[m] := by
        rw [hothers m hmk, if_neg (Nat.lt_irrefl m), List.getElem?_eq_getElem hm]
      have hne : plugins[m].streamId ≠ c.streamId := fun hid =>
        hmk (h.place_eq (List.getElem?_eq_getElem hm) hk hid)
      rw [hold]
      dsimp only
      rw [if_neg hne, hid, hup]
      refine ⟨?_, ?_⟩
      · intro i hi
        rw [List.getElem?_set_ne (Ne.symm hi)]
        by_cases him : i = m
        · obtain rfl := him
          have hlen : i < loop.length := (List.getElem?_eq_some_iff.mp hold).1
          rw [List.getElem?_set_self hlen, if_pos (Nat.lt_succ_self i),
            List.getElem?_eq_getElem hm, Option.map_some]
        · rw [List.getElem?_set_ne (Ne.symm him), hothers i hi]
          simp only [hnext i him]
      · have hlen : k < loop.length := (List.getElem?_eq_some_iff.mp hnew).1
        rw [List.getElem?_set_self (by rw [List.length_set]; exact hlen), List.filter_cons,
          if_pos (decide_eq_true hne), List.filter_nil, List.foldl_cons, List.foldl_nil]

/-- **What `LinkSsrcsToParticipants` does.** -/
theorem linkSsrcsToParticipants_eq {r : ClassRoom} (h : Distinct r.plugins)
    (hk : r.plugins[k]? = some c) :
    r.linkSsrcsToParticipants c.streamId =
      .ok { r with plugins := r.plugins.map (linked r.plugins c) } := by
  have hfind : (r.plugins.findIdx? fun c' => c'.streamId = c.streamId) = some k := by
    rw [List.findIdx?_eq_some_iff_getElem]
    obtain ⟨hlt, hget⟩ := List.getElem?_eq_some_iff.mp hk
    refine ⟨hlt, by simp [hget], ?_⟩
    intro j hj hid
    have hid : r.plugins[j].streamId = c.streamId := of_decide_eq_true hid
    exact Nat.ne_of_lt hj (h.place_eq (List.getElem?_eq_getElem (Nat.lt_trans hj hlt)) hk hid)
  obtain ⟨hothers, hnew⟩ := foldl_linkPair hk h r.plugins.length (Nat.le_refl _)
  rw [linkSsrcsToParticipants, hfind]
  have hlist : (List.range r.plugins.length).foldl (linkPair c.streamId k) r.plugins =
      r.plugins.map (linked r.plugins c) := by
    apply List.ext_getElem?
    intro i
    rw [List.getElem?_map]
    by_cases hik : i = k
    · rw [hik, hnew, hk, Option.map_some, linked, if_pos rfl, List.take_length]
    · rw [hothers i hik]
      rcases hi : r.plugins[i]? with - | d
      · split
        · rfl
        · rfl
      · rw [if_pos (List.getElem?_eq_some_iff.mp hi).1, Option.map_some, Option.map_some, linked,
          if_neg fun hid => hik (h.place_eq hi hk hid)]
  dsimp only
  rw [hlist]

end Link

/-- The transport of `c` is ready. -/
def madeReady (c d : ClassRoomPlugin) : ClassRoomPlugin :=
  if d.streamId = c.streamId then { d with transportReady := true } else d

/-- **What `updateState` does.** -/
theorem updateState_eq {r : ClassRoom} {c : ClassRoomPlugin} {i : Nat} (h : Distinct r.plugins)
    (hi : r.plugins[i]? = some c) :
    r.updateState i =
      .ok { r with plugins := r.plugins.map fun d => linked r.plugins c (madeReady c d) } := by
  have hmodify : r.plugins.modify i (fun c => { c with transportReady := true }) =
      r.plugins.map (madeReady c) := h.modify_eq hi _
  have hid : ∀ d, (madeReady c d).streamId = d.streamId := by
    intro d
    rw [madeReady]
    split
    · rfl
    · rfl
  have hdistinct : Distinct (r.plugins.map (madeReady c)) := h.map fun d _ => hid d
  have hplace : (r.plugins.map (madeReady c))[i]? = some { c with transportReady := true } := by
    rw [List.getElem?_map, hi, Option.map_some, madeReady, if_pos rfl]
  have hothers : (r.plugins.map (madeReady c)).filter (fun o => o.streamId ≠ c.streamId) =
      r.plugins.filter fun o => o.streamId ≠ c.streamId := by
    rw [List.filter_map]
    have hsame : ((fun o : ClassRoomPlugin => decide (o.streamId ≠ c.streamId)) ∘ madeReady c) =
        fun o => decide (o.streamId ≠ c.streamId) := by
      funext o
      show decide ((madeReady c o).streamId ≠ c.streamId) = _
      rw [hid]
    rw [hsame]
    conv_rhs => rw [← List.map_id (r.plugins.filter _)]
    apply List.map_congr_left
    intro o ho
    rw [madeReady, if_neg (of_decide_eq_true (List.mem_filter.mp ho).2)]
    rfl
  have hlink := linkSsrcsToParticipants_eq
    (r := { r with plugins := r.plugins.map (madeReady c) }) hdistinct hplace
  rw [updateState, hi]
  dsimp only
  rw [hmodify, hlink, List.map_map]
  have hlinked : linked (r.plugins.map (madeReady c)) { c with transportReady := true } =
      linked r.plugins c := by
    funext d
    rw [linked, linked, hothers]
  rw [hlinked]
  rfl

/-- The plugins after a packet was forwarded. -/
def forwarded (r : ClassRoom) (streamId : Int) (packet : RtpPacket) (c : ClassRoomPlugin) :
    ClassRoomPlugin :=
  (r.forwardTo streamId packet c).toOption.getD c

theorem forwarded_same (r : ClassRoom) (streamId : Int) (packet : RtpPacket)
    (c : ClassRoomPlugin) :
    c.SameSlots (r.forwarded streamId packet c) ∧
      (r.forwarded streamId packet c).active = c.active := by
  rw [forwarded, forwardTo]
  split
  · rcases hrelay : c.relayRtpPacket packet with e | c'
    · exact ⟨ClassRoomPlugin.SameSlots.refl c, rfl⟩
    · exact ClassRoomPlugin.relayRtpPacket_same hrelay
  · exact ⟨ClassRoomPlugin.SameSlots.refl c, rfl⟩

theorem incomingRtpPacket_cases {r r' : ClassRoom} {i : Nat} {packet : RtpPacket}
    (h : r.incomingRtpPacket i packet = .ok r') :
    r' = r ∨ ∃ streamId, r' = { r with plugins := r.plugins.map (r.forwarded streamId packet) } := by
  rw [incomingRtpPacket] at h
  split at h
  · exact .inl (Except.ok.inj h).symm
  · rename_i c _
    split at h
    · rw [muxRtpPacket] at h
      rcases hloop : r.plugins.mapM (r.forwardTo c.streamId packet) with e | plugins
      · rw [hloop] at h
        cases h
      · rw [hloop] at h
        refine .inr ⟨c.streamId, ?_⟩
        rw [← Except.ok.inj h, mapM_eq_map hloop]
        rfl
    · exact .inl (Except.ok.inj h).symm

/-! ### Slots refer to other participants -/

/-- Stream ids are fresh; a participant keeps the SSRC of its video once it has one, and no
other participant has it. -/
def Keeps (r : ClassRoom) : Event → Prop
  | .addParticipant streamId _ => ∀ c ∈ r.plugins, c.streamId ≠ streamId
  | .processOffer i upstreamSsrc _ => ∀ c ∈ r.plugins[i]?,
      (c.upstreamSsrc ≠ 0 → upstreamSsrc = c.upstreamSsrc) ∧
      (upstreamSsrc ≠ 0 → ∀ d ∈ r.plugins, d.streamId ≠ c.streamId → d.upstreamSsrc ≠ upstreamSsrc)
  | _ => True

instance decidableKeeps (r : ClassRoom) : ∀ event, Decidable (Keeps r event)
  | .addParticipant streamId _ => inferInstanceAs (Decidable (∀ c ∈ r.plugins, c.streamId ≠ streamId))
  | .processOffer i upstreamSsrc _ => inferInstanceAs (Decidable (∀ c ∈ r.plugins[i]?,
      (c.upstreamSsrc ≠ 0 → upstreamSsrc = c.upstreamSsrc) ∧
      (upstreamSsrc ≠ 0 → ∀ d ∈ r.plugins, d.streamId ≠ c.streamId →
        d.upstreamSsrc ≠ upstreamSsrc)))
  | .updateState _ => isTrue trivial
  | .setActive _ => isTrue trivial
  | .removeParticipant _ => isTrue trivial
  | .publishStreams _ => isTrue trivial
  | .incomingRtpPacket _ _ => isTrue trivial

/-- The slots of every participant refer to other participants, each to at most one slot, and
have their contexts. -/
structure Tidy (r : ClassRoom) : Prop where
  ids : Distinct r.plugins
  ssrcs : ∀ c ∈ r.plugins, ∀ d ∈ r.plugins, c.upstreamSsrc ≠ 0 →
    c.upstreamSsrc = d.upstreamSsrc → c.streamId = d.streamId
  seated : ∀ c ∈ r.plugins, c.Seated
  sources : ∀ c ∈ r.plugins, ∀ x ∈ occupants 0 c.extendedSsrcVec,
    ∃ d ∈ r.plugins, d.streamId ≠ c.streamId ∧ d.upstreamSsrc = x

section Tidy

variable {r r' : ClassRoom} {c d : ClassRoomPlugin} {i : Nat}

theorem Tidy.eq_of_id (h : Tidy r) (hc : c ∈ r.plugins) (hd : d ∈ r.plugins)
    (hid : c.streamId = d.streamId) : c = d :=
  List.inj_on_of_nodup_map h.ids hc hd hid

/-- A change that leaves the participants what they are, and brings in sources of others only. -/
theorem Tidy.map (h : Tidy r) {g : ClassRoomPlugin → ClassRoomPlugin}
    (hid : ∀ c ∈ r.plugins, (g c).streamId = c.streamId)
    (hup : ∀ c ∈ r.plugins, (g c).upstreamSsrc = c.upstreamSsrc)
    (hseated : ∀ c ∈ r.plugins, (g c).Seated)
    (hsources : ∀ c ∈ r.plugins, ∀ x ∈ occupants 0 (g c).extendedSsrcVec,
      x ∈ occupants 0 c.extendedSsrcVec ∨
        ∃ d ∈ r.plugins, d.streamId ≠ c.streamId ∧ d.upstreamSsrc = x) :
    Tidy { r with plugins := r.plugins.map g } := by
  refine ⟨?_, ?_, ?_, ?_⟩
  · exact h.ids.map hid
  · intro c' hc' d' hd' hne heq
    obtain ⟨c, hc, rfl⟩ := List.mem_map.mp hc'
    obtain ⟨d, hd, rfl⟩ := List.mem_map.mp hd'
    rw [hup c hc] at hne heq
    rw [hup d hd] at heq
    rw [hid c hc, hid d hd]
    exact h.ssrcs c hc d hd hne heq
  · intro c' hc'
    obtain ⟨c, hc, rfl⟩ := List.mem_map.mp hc'
    exact hseated c hc
  · intro c' hc' x hx
    obtain ⟨c, hc, rfl⟩ := List.mem_map.mp hc'
    have hother : ∃ d ∈ r.plugins, d.streamId ≠ c.streamId ∧ d.upstreamSsrc = x := by
      rcases hsources c hc x hx with hx | hother
      · exact h.sources c hc x hx
      · exact hother
    obtain ⟨d, hd, hne, hdx⟩ := hother
    refine ⟨g d, List.mem_map_of_mem hd, ?_, ?_⟩
    · rw [hid d hd, hid c hc]
      exact hne
    · rw [hup d hd]
      exact hdx

theorem Tidy.same (h : Tidy r) {g : ClassRoomPlugin → ClassRoomPlugin}
    (hg : ∀ c : ClassRoomPlugin, c.SameSlots (g c)) : Tidy { r with plugins := r.plugins.map g } := by
  apply h.map
  · exact fun d _ => (hg d).streamId
  · exact fun d _ => (hg d).upstreamSsrc
  · exact fun d hd => (hg d).seated (h.seated d hd)
  · intro d _ x hx
    rw [(hg d).extendedSsrcVec] at hx
    exact .inl hx

theorem plugins_addParticipant (r : ClassRoom) (streamId : Int) (role : PluginRole) :
    (r.addParticipant streamId role).plugins =
      r.plugins ++ [{ streamId := streamId, role := role }] := by
  rw [ClassRoom.addParticipant]
  split
  · rfl
  · rfl

theorem Tidy.addParticipant (h : Tidy r) {streamId : Int} (role : PluginRole)
    (hfresh : ∀ c ∈ r.plugins, c.streamId ≠ streamId) : Tidy (r.addParticipant streamId role) := by
  have hplugins := plugins_addParticipant r streamId role
  refine ⟨?_, ?_, ?_, ?_⟩
  · rw [hplugins, Distinct, List.map_append, List.nodup_append]
    refine ⟨h.ids, by simp, ?_⟩
    intro a ha b hb hab
    obtain ⟨c, hc, rfl⟩ := List.mem_map.mp ha
    rw [List.map_cons, List.map_nil, List.mem_singleton] at hb
    exact hfresh c hc (hab.trans hb)
  · intro c hc d hd hne heq
    rw [hplugins, List.mem_append, List.mem_singleton] at hc hd
    rcases hc with hc | rfl
    · rcases hd with hd | rfl
      · exact h.ssrcs c hc d hd hne heq
      · exact absurd heq hne
    · exact absurd rfl hne
  · intro c hc
    rw [hplugins, List.mem_append, List.mem_singleton] at hc
    rcases hc with hc | rfl
    · exact h.seated c hc
    · exact ClassRoomPlugin.seated_new streamId role
  · intro c hc x hx
    rw [hplugins, List.mem_append, List.mem_singleton] at hc
    rcases hc with hc | rfl
    · obtain ⟨d, hd, hdx⟩ := h.sources c hc x hx
      exact ⟨d, hplugins ▸ List.mem_append_left _ hd, hdx⟩
    · cases hx

/-- The plugin that an offer changes. -/
def offered (c : ClassRoomPlugin) (upstreamSsrc : UInt32) (extended : List UInt32)
    (d : ClassRoomPlugin) : ClassRoomPlugin :=
  if d.streamId = c.streamId then
    { d with upstreamSsrc := upstreamSsrc }.setExtendedVideoSsrcs extended
  else d

theorem processOffer_eq (h : Distinct r.plugins) (hi : r.plugins[i]? = some c)
    (upstreamSsrc : UInt32) (extended : List UInt32) :
    r.processOffer i upstreamSsrc extended =
      { r with plugins := r.plugins.map (offered c upstreamSsrc extended) } := by
  rw [processOffer, h.modify_eq hi]
  rfl

theorem processOffer_of_none (hi : r.plugins[i]? = none) {upstreamSsrc : UInt32}
    {extended : List UInt32} : r.processOffer i upstreamSsrc extended = r := by
  rw [processOffer, List.modify_eq_self (List.getElem?_eq_none_iff.mp hi)]

theorem offered_fields (c : ClassRoomPlugin) (upstreamSsrc : UInt32) (extended : List UInt32)
    (d : ClassRoomPlugin) :
    (offered c upstreamSsrc extended d).streamId = d.streamId ∧
      (offered c upstreamSsrc extended d).active = d.active ∧
      (offered c upstreamSsrc extended d).transportReady = d.transportReady ∧
      occupants 0 (offered c upstreamSsrc extended d).extendedSsrcVec =
        occupants 0 d.extendedSsrcVec ∧
      (d.Seated → (offered c upstreamSsrc extended d).Seated) := by
  rw [offered]
  split
  · refine ⟨rfl, rfl, rfl, ClassRoomPlugin.occupants_setExtendedVideoSsrcs _ _, ?_⟩
    intro hd
    have hkept : { d with upstreamSsrc := upstreamSsrc }.Seated := ⟨hd.once, hd.context⟩
    exact hkept.setExtendedVideoSsrcs extended
  · exact ⟨rfl, rfl, rfl, rfl, id⟩

/-- A participant with an SSRC keeps it. -/
theorem upstreamSsrc_offered {upstreamSsrc : UInt32} (h : Tidy r) (hc : c ∈ r.plugins)
    (hkeeps : c.upstreamSsrc ≠ 0 → upstreamSsrc = c.upstreamSsrc) (hd : d ∈ r.plugins)
    (hne : d.upstreamSsrc ≠ 0) (extended : List UInt32) :
    (offered c upstreamSsrc extended d).upstreamSsrc = d.upstreamSsrc := by
  rw [offered]
  split
  · rename_i hid
    obtain rfl := h.eq_of_id hd hc hid
    exact hkeeps hne
  · rfl

theorem Tidy.processOffer (h : Tidy r) {upstreamSsrc : UInt32} (extended : List UInt32)
    (hc : r.plugins[i]? = some c) (hkeeps : c.upstreamSsrc ≠ 0 → upstreamSsrc = c.upstreamSsrc)
    (hother : upstreamSsrc ≠ 0 → ∀ d ∈ r.plugins, d.streamId ≠ c.streamId →
      d.upstreamSsrc ≠ upstreamSsrc) :
    Tidy (r.processOffer i upstreamSsrc extended) := by
  have hmem : c ∈ r.plugins := List.mem_of_getElem? hc
  rw [processOffer_eq h.ids hc]
  refine ⟨?_, ?_, ?_, ?_⟩
  · exact h.ids.map fun d _ => (offered_fields c upstreamSsrc extended d).1
  · intro a' ha' b' hb' hne heq
    obtain ⟨a, ha, rfl⟩ := List.mem_map.mp ha'
    obtain ⟨b, hb, rfl⟩ := List.mem_map.mp hb'
    obtain ⟨haid, -⟩ := offered_fields c upstreamSsrc extended a
    obtain ⟨hbid, -⟩ := offered_fields c upstreamSsrc extended b
    rw [haid, hbid]
    by_cases hac : a.streamId = c.streamId
    · by_cases hbc : b.streamId = c.streamId
      · rw [hac, hbc]
      · rw [offered, if_pos hac] at hne heq
        rw [offered, if_neg hbc] at heq
        exact absurd heq.symm (hother hne b hb hbc)
    · rw [offered, if_neg hac] at hne heq
      by_cases hbc : b.streamId = c.streamId
      · rw [offered, if_pos hbc] at heq
        have hup : a.upstreamSsrc = upstreamSsrc := heq
        exact absurd hup (hother (hup ▸ hne) a ha hac)
      · rw [offered, if_neg hbc] at heq
        exact h.ssrcs a ha b hb hne heq
  · intro a' ha'
    obtain ⟨a, ha, rfl⟩ := List.mem_map.mp ha'
    obtain ⟨-, -, -, -, hseated⟩ := offered_fields c upstreamSsrc extended a
    exact hseated (h.seated a ha)
  · intro a' ha' x hx
    obtain ⟨a, ha, rfl⟩ := List.mem_map.mp ha'
    obtain ⟨haid, -, -, haslots, -⟩ := offered_fields c upstreamSsrc extended a
    rw [haslots] at hx
    obtain ⟨b, hb, hne, rfl⟩ := h.sources a ha x hx
    obtain ⟨hbid, -⟩ := offered_fields c upstreamSsrc extended b
    refine ⟨_, List.mem_map_of_mem hb, ?_, ?_⟩
    · rw [haid, hbid]
      exact hne
    · exact upstreamSsrc_offered h hmem hkeeps hb (mem_occupants.mp hx).1 extended

/-- The participant that becomes active. -/
def activated (c d : ClassRoomPlugin) : ClassRoomPlugin :=
  if d.streamId = c.streamId then if d.transportReady then { d with active := true } else d else d

theorem setActive_eq (h : Distinct r.plugins) (hi : r.plugins[i]? = some c) :
    r.setActive i = { r with plugins := r.plugins.map (activated c) } := by
  rw [setActive, h.modify_eq hi]
  rfl

theorem setActive_of_none (hi : r.plugins[i]? = none) : r.setActive i = r := by
  rw [setActive, List.modify_eq_self (List.getElem?_eq_none_iff.mp hi)]

theorem activated_same (c d : ClassRoomPlugin) :
    d.SameSlots (activated c d) ∧
      ((activated c d).active = true → d.active = true ∨ d.transportReady = true) := by
  rw [activated]
  split
  · split
    · rename_i hready
      exact ⟨⟨rfl, rfl, rfl, rfl, fun hd => ⟨hd.once, hd.context⟩⟩, fun _ => .inr hready⟩
    · exact ⟨ClassRoomPlugin.SameSlots.refl d, .inl⟩
  · exact ⟨ClassRoomPlugin.SameSlots.refl d, .inl⟩

theorem Tidy.setActive (h : Tidy r) (i : Nat) : Tidy (r.setActive i) := by
  rcases hi : r.plugins[i]? with - | c
  · rw [setActive_of_none hi]
    exact h
  · rw [setActive_eq h.ids hi]
    exact h.same fun d => (activated_same c d).1

/-- A participant stays what it is when it is linked, and gets sources of others only. -/
theorem foldl_linkToSsrc_cases (others : List ClassRoomPlugin) {d : ClassRoomPlugin}
    (hd : d.Seated) :
    (others.foldl (fun e o => e.linkToSsrc o.upstreamSsrc o.streamId) d).Seated ∧
      ∀ x ∈ occupants 0 (others.foldl
          (fun e o => e.linkToSsrc o.upstreamSsrc o.streamId) d).extendedSsrcVec,
        x ∈ occupants 0 d.extendedSsrcVec ∨ ∃ o ∈ others, o.upstreamSsrc = x := by
  induction others generalizing d with
  | nil => exact ⟨hd, fun x hx => .inl hx⟩
  | cons o others ih =>
    obtain ⟨hseated, hsources⟩ := ih (hd.linkToSsrc o.upstreamSsrc o.streamId)
    refine ⟨hseated, ?_⟩
    intro x hx
    rcases hsources x hx with hx | ⟨o', ho', hx⟩
    · rcases ClassRoomPlugin.mem_occupants_linkToSsrc hx with hx | hx
      · exact .inl hx
      · exact .inr ⟨o, List.mem_cons_self, hx.symm⟩
    · exact .inr ⟨o', List.mem_cons_of_mem _ ho', hx⟩

/-- Links and the ready state do not change who a participant is. -/
theorem linked_fields (plugins : List ClassRoomPlugin) (c d : ClassRoomPlugin) :
    (linked plugins c (madeReady c d)).streamId = d.streamId ∧
      (linked plugins c (madeReady c d)).upstreamSsrc = d.upstreamSsrc ∧
      (linked plugins c (madeReady c d)).active = d.active ∧
      ((linked plugins c (madeReady c d)).transportReady = true ↔
        d.streamId = c.streamId ∨ d.transportReady = true) := by
  by_cases hid : d.streamId = c.streamId
  · obtain ⟨h₁, h₂, h₃, h₄⟩ := foldl_linkToSsrc_fields
      (plugins.filter fun o => o.streamId ≠ c.streamId) { d with transportReady := true }
    rw [madeReady, if_pos hid, linked, if_pos hid]
    exact ⟨h₁, h₂, h₃, iff_of_true h₄ (.inl hid)⟩
  · obtain ⟨h₁, h₂, h₃, h₄⟩ := d.linkToSsrc_fields c.upstreamSsrc c.streamId
    rw [madeReady, if_neg hid, linked, if_neg hid]
    exact ⟨h₁, h₂, h₃, by simp [h₄, hid]⟩

theorem Tidy.linked (h : Tidy r) (hc : c ∈ r.plugins) :
    Tidy { r with plugins := r.plugins.map fun d => linked r.plugins c (madeReady c d) } := by
  apply h.map
  · exact fun d _ => (linked_fields r.plugins c d).1
  · exact fun d _ => (linked_fields r.plugins c d).2.1
  · intro d hd
    by_cases hid : d.streamId = c.streamId
    · rw [madeReady, if_pos hid, ClassRoom.linked, if_pos hid]
      have hready : { d with transportReady := true }.Seated :=
        ⟨(h.seated d hd).once, (h.seated d hd).context⟩
      exact (foldl_linkToSsrc_cases _ hready).1
    · rw [madeReady, if_neg hid, ClassRoom.linked, if_neg hid]
      exact (h.seated d hd).linkToSsrc _ _
  · intro d hd x hx
    by_cases hid : d.streamId = c.streamId
    · rw [madeReady, if_pos hid, ClassRoom.linked, if_pos hid] at hx
      have hready : { d with transportReady := true }.Seated :=
        ⟨(h.seated d hd).once, (h.seated d hd).context⟩
      rcases (foldl_linkToSsrc_cases _ hready).2 x hx with hx | ⟨o, ho, hx⟩
      · exact .inl hx
      · obtain ⟨ho, hne⟩ := List.mem_filter.mp ho
        exact .inr ⟨o, ho, hid ▸ of_decide_eq_true hne, hx⟩
    · rw [madeReady, if_neg hid, ClassRoom.linked, if_neg hid] at hx
      rcases ClassRoomPlugin.mem_occupants_linkToSsrc hx with hx | hx
      · exact .inl hx
      · exact .inr ⟨c, hc, Ne.symm hid, hx.symm⟩

/-- Who leaves is unlinked by all others. -/
theorem removeParticipant_eq (h : Distinct r.plugins) (hi : r.plugins[i]? = some c) :
    (r.removeParticipant i).plugins =
      (r.plugins.filter fun d => d.streamId ≠ c.streamId).map fun d =>
        d.unlinkToSsrc c.upstreamSsrc := by
  rw [removeParticipant, hi]
  dsimp only
  rw [h.eraseIdx_eq hi]

theorem mem_removeParticipant (h : Distinct r.plugins) (hi : r.plugins[i]? = some c)
    (hd : d ∈ (r.removeParticipant i).plugins) :
    ∃ e ∈ r.plugins, e.streamId ≠ c.streamId ∧ d = e.unlinkToSsrc c.upstreamSsrc := by
  rw [removeParticipant_eq h hi] at hd
  obtain ⟨e, he, rfl⟩ := List.mem_map.mp hd
  obtain ⟨he, hne⟩ := List.mem_filter.mp he
  exact ⟨e, he, of_decide_eq_true hne, rfl⟩

theorem Tidy.removeParticipant (h : Tidy r) (i : Nat) : Tidy (r.removeParticipant i) := by
  rcases hi : r.plugins[i]? with - | c
  · rw [ClassRoom.removeParticipant, hi]
    exact h
  · have hc : c ∈ r.plugins := List.mem_of_getElem? hi
    have hplugins := removeParticipant_eq h.ids hi
    have hmem : ∀ e ∈ (r.removeParticipant i).plugins, ∃ d ∈ r.plugins,
        d.streamId ≠ c.streamId ∧ e = d.unlinkToSsrc c.upstreamSsrc := fun e he =>
      mem_removeParticipant h.ids hi he
    refine ⟨?_, ?_, ?_, ?_⟩
    · have hleft : Distinct (r.plugins.filter fun d => d.streamId ≠ c.streamId) :=
        (List.filter_sublist.map ClassRoomPlugin.streamId).nodup h.ids
      rw [hplugins]
      exact hleft.map fun d _ => rfl
    · intro a' ha' b' hb' hne heq
      obtain ⟨a, ha, -, rfl⟩ := hmem a' ha'
      obtain ⟨b, hb, -, rfl⟩ := hmem b' hb'
      exact h.ssrcs a ha b hb hne heq
    · intro a' ha'
      obtain ⟨a, ha, -, rfl⟩ := hmem a' ha'
      exact (h.seated a ha).unlinkToSsrc _
    · intro a' ha' x hx
      obtain ⟨a, ha, -, rfl⟩ := hmem a' ha'
      have hx : x ∈ occupants 0 (release 0 c.upstreamSsrc a.extendedSsrcVec) := hx
      rw [occupants_release, List.mem_filter, decide_eq_true_eq] at hx
      obtain ⟨b, hb, hba, rfl⟩ := h.sources a ha x hx.1
      -- the source is still there, because it is not the one that left
      have hbc : b.streamId ≠ c.streamId := by
        intro hid
        rw [h.eq_of_id hb hc hid] at hx
        exact hx.2 rfl
      refine ⟨b.unlinkToSsrc c.upstreamSsrc, ?_, hba, rfl⟩
      rw [hplugins]
      exact List.mem_map_of_mem (List.mem_filter.mpr ⟨hb, decide_eq_true hbc⟩)

theorem Tidy.step (h : Tidy r) {event : Event} (hkeeps : Keeps r event) :
    Outcome Tidy (fun _ => True) (r.step event) := by
  cases event with
  | addParticipant streamId role => exact h.addParticipant role hkeeps
  | processOffer i upstreamSsrc extended =>
    rcases hi : r.plugins[i]? with - | c
    · show Tidy (r.processOffer i upstreamSsrc extended)
      rw [processOffer_of_none hi]
      exact h
    · obtain ⟨hsame, hother⟩ := hkeeps c hi
      exact h.processOffer extended hi hsame hother
  | updateState i =>
    show Outcome Tidy _ (r.updateState i)
    rcases hi : r.plugins[i]? with - | c
    · rw [ClassRoom.updateState, hi]
      exact h
    · rw [updateState_eq h.ids hi]
      exact h.linked (List.mem_of_getElem? hi)
  | setActive i => exact h.setActive i
  | removeParticipant i => exact h.removeParticipant i
  | publishStreams streamIds => exact ⟨h.ids, h.ssrcs, h.seated, h.sources⟩
  | incomingRtpPacket i packet =>
    show Outcome Tidy _ (r.incomingRtpPacket i packet)
    rcases hok : r.incomingRtpPacket i packet with e | r'
    · trivial
    · rcases incomingRtpPacket_cases hok with rfl | ⟨streamId, rfl⟩
      · exact h
      · exact h.same fun d => (forwarded_same r streamId packet d).1

theorem tidy_new : Tidy {} :=
  ⟨List.nodup_nil, by simp, by simp, by simp⟩

theorem tidy_of_run {events : List Event} (hkeeps : AllSteps ClassRoom.step Keeps {} events)
    (hrun : events.foldlM ClassRoom.step {} = .ok r) : Tidy r := by
  have hout := hkeeps.outcome (P := Tidy) (E := fun _ => True)
    (fun r event hr hevent => hr.step hevent) tidy_new
  rw [hrun] at hout
  exact hout

end Tidy

/-- **The slots of a class room.**  In every run in which stream ids are fresh, and every
participant keeps an SSRC that no other has: each source has at most one slot of each plugin,
every occupied slot has a context and refers to another participant in the room, and when a
participant is removed, no slot of a remaining plugin refers to its SSRC. -/
theorem slots_of_run (events : List Event) (r : ClassRoom)
    (hkeeps : AllSteps step Keeps {} events) (hrun : events.foldlM step {} = .ok r) :
    (∀ c ∈ r.plugins,
      (∀ x, x ≠ 0 → c.extendedSsrcVec.countP (fun s => s.2 = x) ≤ 1) ∧
      (∀ s ∈ c.extendedSsrcVec, s.2 ≠ 0 → c.videoSwitchContexts[s.1]? ≠ none) ∧
      ∀ s ∈ c.extendedSsrcVec, s.2 ≠ 0 →
        ∃ d ∈ r.plugins, d.streamId ≠ c.streamId ∧ d.upstreamSsrc = s.2) ∧
    ∀ i c, r.plugins[i]? = some c → c.upstreamSsrc ≠ 0 →
      ∀ d ∈ (r.removeParticipant i).plugins, ∀ s ∈ d.extendedSsrcVec,
        s.2 ≠ c.upstreamSsrc := by
  have h := tidy_of_run hkeeps hrun
  refine ⟨?_, ?_⟩
  · intro c hc
    refine ⟨?_, (h.seated c hc).context, ?_⟩
    · exact fun x hx => countP_le_one (h.seated c hc).once hx
    · exact fun s hs hne => h.sources c hc s.2 (mem_occupants.mpr ⟨hne, s, hs, rfl⟩)
  · intro i c hi hne d hd s hs
    obtain ⟨e, -, -, rfl⟩ := mem_removeParticipant h.ids hi hd
    rcases mem_release hs with hfree | ⟨-, hother⟩
    · rw [hfree]
      exact Ne.symm hne
    · exact hother

/-- Participants that join one after the other, each with five slots. -/
def lesson (n : Nat) : List Event :=
  (List.range n).flatMap fun i : Nat =>
    [.addParticipant (i : Int) .teacher,
      .processOffer i (UInt32.ofNat (100 + i)) [11, 12, 13, 14, 15], .updateState i, .setActive i]

/-- Two participants, of whom the second is ready twice. -/
theorem slots_of_run_pair :
    ∃ r, (lesson 2 ++ [Event.updateState 1]).foldlM step {} = .ok r ∧
      ∀ c ∈ r.plugins, ∀ x, x ≠ 0 → c.extendedSsrcVec.countP (fun s => s.2 = x) ≤ 1 := by
  refine ⟨_, rfl, fun c hc => ?_⟩
  exact ((slots_of_run (lesson 2 ++ [Event.updateState 1]) _ (by decide) rfl).1 c hc).1

/-! ### Every packet finds its slot -/

/-- In addition: new slots have an SSRC, and an offer to a participant that is ready does not
change its SSRC; when a participant becomes ready, it has slots for all other participants with
video, and every other ready participant has a slot for it; and a video packet carries the SSRC
of its sender. -/
def Fits (r : ClassRoom) (event : Event) : Prop :=
  Keeps r event ∧
    match event with
    | .processOffer i upstreamSsrc extended => 0 ∉ extended ∧
        ∀ c ∈ r.plugins[i]?, c.transportReady = true → upstreamSsrc = c.upstreamSsrc
    | .updateState i => ∀ c ∈ r.plugins[i]?,
        (r.plugins.filter fun d => d.streamId ≠ c.streamId ∧ d.upstreamSsrc ≠ 0).length ≤
          c.extendedSsrcVec.length ∧
        (c.upstreamSsrc ≠ 0 → ∀ d ∈ r.plugins, d.streamId ≠ c.streamId →
          d.transportReady = true →
            seat? 0 d.extendedSsrcVec ≠ none ∨
              c.upstreamSsrc ∈ occupants 0 d.extendedSsrcVec)
    | .incomingRtpPacket i packet => ∀ c ∈ r.plugins[i]?, c.active = true →
        c.upstreamSsrc ≠ 0 ∧ RtpHeader.getSSRC packet.data = c.upstreamSsrc
    | _ => True

instance decidableFits (r : ClassRoom) : ∀ event, Decidable (Fits r event)
  | .addParticipant streamId role =>
      inferInstanceAs (Decidable (Keeps r (.addParticipant streamId role) ∧ True))
  | .processOffer i upstreamSsrc extended =>
      inferInstanceAs (Decidable (Keeps r (.processOffer i upstreamSsrc extended) ∧
        0 ∉ extended ∧
        ∀ c ∈ r.plugins[i]?, c.transportReady = true → upstreamSsrc = c.upstreamSsrc))
  | .updateState i =>
      inferInstanceAs (Decidable (Keeps r (.updateState i) ∧ ∀ c ∈ r.plugins[i]?,
        (r.plugins.filter fun d => d.streamId ≠ c.streamId ∧ d.upstreamSsrc ≠ 0).length ≤
          c.extendedSsrcVec.length ∧
        (c.upstreamSsrc ≠ 0 → ∀ d ∈ r.plugins, d.streamId ≠ c.streamId →
          d.transportReady = true →
            seat? 0 d.extendedSsrcVec ≠ none ∨
              c.upstreamSsrc ∈ occupants 0 d.extendedSsrcVec)))
  | .setActive i => inferInstanceAs (Decidable (Keeps r (.setActive i) ∧ True))
  | .removeParticipant i => inferInstanceAs (Decidable (Keeps r (.removeParticipant i) ∧ True))
  | .publishStreams ids => inferInstanceAs (Decidable (Keeps r (.publishStreams ids) ∧ True))
  | .incomingRtpPacket i packet =>
      inferInstanceAs (Decidable (Keeps r (.incomingRtpPacket i packet) ∧
        ∀ c ∈ r.plugins[i]?, c.active = true →
          c.upstreamSsrc ≠ 0 ∧ RtpHeader.getSSRC packet.data = c.upstreamSsrc))

/-- Any two participants that are ready are linked with each other. -/
structure Linked (r : ClassRoom) : Prop where
  tidy : Tidy r
  keys : ∀ c ∈ r.plugins, ∀ s ∈ c.extendedSsrcVec, s.1 ≠ 0
  pairs : ∀ c ∈ r.plugins, ∀ d ∈ r.plugins, c.streamId ≠ d.streamId → c.transportReady = true →
    d.transportReady = true → d.upstreamSsrc ≠ 0 →
      d.upstreamSsrc ∈ occupants 0 c.extendedSsrcVec
  ready : ∀ c ∈ r.plugins, c.active = true → c.transportReady = true

section Linked

variable {r r' : ClassRoom} {c d : ClassRoomPlugin} {i : Nat}

theorem Linked.same (h : Linked r) {g : ClassRoomPlugin → ClassRoomPlugin}
    (hg : ∀ c : ClassRoomPlugin, c.SameSlots (g c))
    (hactive : ∀ c ∈ r.plugins, (g c).active = true → c.transportReady = true) :
    Linked { r with plugins := r.plugins.map g } := by
  refine ⟨h.tidy.same hg, ?_, ?_, ?_⟩
  · intro c' hc'
    obtain ⟨c, hc, rfl⟩ := List.mem_map.mp hc'
    rw [(hg c).extendedSsrcVec]
    exact h.keys c hc
  · intro c' hc' d' hd' hne hcr hdr hup
    obtain ⟨c, hc, rfl⟩ := List.mem_map.mp hc'
    obtain ⟨d, hd, rfl⟩ := List.mem_map.mp hd'
    rw [(hg c).streamId, (hg d).streamId] at hne
    rw [(hg c).transportReady] at hcr
    rw [(hg d).transportReady] at hdr
    rw [(hg d).upstreamSsrc] at hup ⊢
    rw [(hg c).extendedSsrcVec]
    exact h.pairs c hc d hd hne hcr hdr hup
  · intro c' hc' hact
    obtain ⟨c, hc, rfl⟩ := List.mem_map.mp hc'
    rw [(hg c).transportReady]
    exact hactive c hc hact

theorem Linked.addParticipant (h : Linked r) {streamId : Int} (role : PluginRole)
    (hfresh : ∀ c ∈ r.plugins, c.streamId ≠ streamId) :
    Linked (r.addParticipant streamId role) := by
  have hmem : ∀ c ∈ (r.addParticipant streamId role).plugins,
      c ∈ r.plugins ∨ c = { streamId := streamId, role := role } := by
    intro c hc
    rw [plugins_addParticipant, List.mem_append, List.mem_singleton] at hc
    exact hc
  refine ⟨h.tidy.addParticipant role hfresh, ?_, ?_, ?_⟩
  · intro c hc
    rcases hmem c hc with hc | rfl
    · exact h.keys c hc
    · simp
  · intro c hc d hd hne hcr hdr hup
    rcases hmem c hc with hc | rfl
    · rcases hmem d hd with hd | rfl
      · exact h.pairs c hc d hd hne hcr hdr hup
      · cases hdr
    · cases hcr
  · intro c hc hact
    rcases hmem c hc with hc | rfl
    · exact h.ready c hc hact
    · cases hact

theorem Linked.processOffer (h : Linked r) {upstreamSsrc : UInt32} {extended : List UInt32}
    (hc : r.plugins[i]? = some c) (htidy : Tidy (r.processOffer i upstreamSsrc extended))
    (hextended : 0 ∉ extended)
    (hready : c.transportReady = true → upstreamSsrc = c.upstreamSsrc) :
    Linked (r.processOffer i upstreamSsrc extended) := by
  have hmem : c ∈ r.plugins := List.mem_of_getElem? hc
  rw [processOffer_eq h.tidy.ids hc] at htidy ⊢
  refine ⟨htidy, ?_, ?_, ?_⟩
  · intro a' ha' s hs
    obtain ⟨a, ha, rfl⟩ := List.mem_map.mp ha'
    rw [offered] at hs
    split at hs
    · rcases List.mem_append.mp hs with hs | hs
      · exact h.keys a ha s hs
      · obtain ⟨ssrc, hssrc, rfl⟩ := List.mem_map.mp hs
        rintro rfl
        exact hextended hssrc
    · exact h.keys a ha s hs
  · intro a' ha' b' hb' hne har hbr hup
    obtain ⟨a, ha, rfl⟩ := List.mem_map.mp ha'
    obtain ⟨b, hb, rfl⟩ := List.mem_map.mp hb'
    obtain ⟨haid, -, haready, haslots, -⟩ := offered_fields c upstreamSsrc extended a
    obtain ⟨hbid, -, hbready, -, -⟩ := offered_fields c upstreamSsrc extended b
    rw [haid, hbid] at hne
    rw [haready] at har
    rw [hbready] at hbr
    -- a participant that is ready keeps its SSRC
    have hsame : (offered c upstreamSsrc extended b).upstreamSsrc = b.upstreamSsrc := by
      rw [offered]
      split
      · rename_i hid
        obtain rfl := h.tidy.eq_of_id hb hmem hid
        exact hready hbr
      · rfl
    rw [hsame] at hup ⊢
    rw [haslots]
    exact h.pairs a ha b hb hne har hbr hup
  · intro a' ha' hact
    obtain ⟨a, ha, rfl⟩ := List.mem_map.mp ha'
    obtain ⟨-, haactive, haready, -, -⟩ := offered_fields c upstreamSsrc extended a
    rw [haactive] at hact
    rw [haready]
    exact h.ready a ha hact

theorem Linked.removeParticipant (h : Linked r) (i : Nat) : Linked (r.removeParticipant i) := by
  rcases hi : r.plugins[i]? with - | c
  · rw [ClassRoom.removeParticipant, hi]
    exact h
  · have hc : c ∈ r.plugins := List.mem_of_getElem? hi
    have hmem : ∀ e ∈ (r.removeParticipant i).plugins, ∃ d ∈ r.plugins,
        d.streamId ≠ c.streamId ∧ e = d.unlinkToSsrc c.upstreamSsrc := fun e he =>
      mem_removeParticipant h.tidy.ids hi he
    refine ⟨h.tidy.removeParticipant i, ?_, ?_, ?_⟩
    · intro a' ha' s hs
      obtain ⟨a, ha, -, rfl⟩ := hmem a' ha'
      have hkey : s.1 ∈ (release 0 c.upstreamSsrc a.extendedSsrcVec).map Prod.fst :=
        List.mem_map_of_mem hs
      rw [map_fst_release] at hkey
      obtain ⟨t, ht, hts⟩ := List.mem_map.mp hkey
      rw [← hts]
      exact h.keys a ha t ht
    · intro a' ha' b' hb' hne har hbr hup
      obtain ⟨a, ha, -, rfl⟩ := hmem a' ha'
      obtain ⟨b, hb, hbc, rfl⟩ := hmem b' hb'
      show b.upstreamSsrc ∈ occupants 0 (release 0 c.upstreamSsrc a.extendedSsrcVec)
      rw [occupants_release, List.mem_filter, decide_eq_true_eq]
      exact ⟨h.pairs a ha b hb hne har hbr hup, fun heq => hbc (h.tidy.ssrcs b hb c hc hup heq)⟩
    · intro a' ha' hact
      obtain ⟨a, ha, -, rfl⟩ := hmem a' ha'
      exact h.ready a ha hact

theorem Linked.setActive (h : Linked r) (i : Nat) : Linked (r.setActive i) := by
  rcases hi : r.plugins[i]? with - | c
  · rw [setActive_of_none hi]
    exact h
  · rw [setActive_eq h.tidy.ids hi]
    apply h.same fun d => (activated_same c d).1
    intro d hd hact
    rcases (activated_same c d).2 hact with hact | hready
    · exact h.ready d hd hact
    · exact hready

/-- The slots of a participant that is linked to others. -/
theorem extendedSsrcVec_foldl_linkToSsrc (others : List ClassRoomPlugin) (d : ClassRoomPlugin) :
    (others.foldl (fun e o => e.linkToSsrc o.upstreamSsrc o.streamId) d).extendedSsrcVec =
      (others.map ClassRoomPlugin.upstreamSsrc).foldl (fun l x => assign 0 x l)
        d.extendedSsrcVec := by
  induction others generalizing d with
  | nil => rfl
  | cons o others ih =>
    rw [List.foldl_cons, ih, List.map_cons, List.foldl_cons,
      ClassRoomPlugin.extendedSsrcVec_linkToSsrc]

theorem map_fst_linked (plugins : List ClassRoomPlugin) (c d : ClassRoomPlugin) :
    (linked plugins c (madeReady c d)).extendedSsrcVec.map Prod.fst =
      d.extendedSsrcVec.map Prod.fst := by
  have hfold : ∀ (others : List ClassRoomPlugin) (e : ClassRoomPlugin),
      (others.foldl (fun e o => e.linkToSsrc o.upstreamSsrc o.streamId) e).extendedSsrcVec.map
        Prod.fst = e.extendedSsrcVec.map Prod.fst := by
    intro others
    induction others with
    | nil => exact fun e => rfl
    | cons o others ih =>
      intro e
      rw [List.foldl_cons, ih, ClassRoomPlugin.map_fst_linkToSsrc]
  by_cases hid : d.streamId = c.streamId
  · rw [madeReady, if_pos hid, linked, if_pos hid, hfold]
  · rw [madeReady, if_neg hid, linked, if_neg hid, ClassRoomPlugin.map_fst_linkToSsrc]

/-- A participant with enough slots gets a slot for every other one with video. -/
theorem Tidy.mem_new_slots (h : Tidy r) (hc : c ∈ r.plugins)
    (hfits : (r.plugins.filter fun d => d.streamId ≠ c.streamId ∧ d.upstreamSsrc ≠ 0).length ≤
      c.extendedSsrcVec.length)
    (hd : d ∈ r.plugins) (hne : d.streamId ≠ c.streamId) (hup : d.upstreamSsrc ≠ 0) :
    d.upstreamSsrc ∈
      occupants 0 (ClassRoom.linked r.plugins c (madeReady c c)).extendedSsrcVec := by
  have hset : ∀ e ∈ r.plugins, e.streamId ≠ c.streamId → e.upstreamSsrc ≠ 0 →
      e.upstreamSsrc ∈ (r.plugins.filter fun d => d.streamId ≠ c.streamId ∧ d.upstreamSsrc ≠ 0).map
        ClassRoomPlugin.upstreamSsrc := by
    intro e he hid hne
    exact List.mem_map_of_mem (List.mem_filter.mpr ⟨he, decide_eq_true ⟨hid, hne⟩⟩)
  have hsub : occupants 0 c.extendedSsrcVec ⊆
      (r.plugins.filter fun d => d.streamId ≠ c.streamId ∧ d.upstreamSsrc ≠ 0).map
        ClassRoomPlugin.upstreamSsrc := by
    intro x hx
    obtain ⟨e, he, hid, rfl⟩ := h.sources c hc x hx
    exact hset e he hid (mem_occupants.mp hx).1
  rw [madeReady, if_pos rfl, ClassRoom.linked, if_pos rfl, extendedSsrcVec_foldl_linkToSsrc]
  refine (foldl_assign (h.seated c hc).once hsub (by rw [List.length_map]; exact hfits) ?_).1 _ ?_ hup
  · intro x hx hne
    obtain ⟨e, he, rfl⟩ := List.mem_map.mp hx
    obtain ⟨he, hid⟩ := List.mem_filter.mp he
    exact hset e he (of_decide_eq_true hid) hne
  · exact List.mem_map_of_mem (List.mem_filter.mpr ⟨hd, decide_eq_true hne⟩)

theorem Linked.linked (h : Linked r) (hc : c ∈ r.plugins)
    (hfits : (r.plugins.filter fun d => d.streamId ≠ c.streamId ∧ d.upstreamSsrc ≠ 0).length ≤
      c.extendedSsrcVec.length)
    (hroom : c.upstreamSsrc ≠ 0 → ∀ d ∈ r.plugins, d.streamId ≠ c.streamId →
      d.transportReady = true →
        seat? 0 d.extendedSsrcVec ≠ none ∨ c.upstreamSsrc ∈ occupants 0 d.extendedSsrcVec) :
    Linked { r with plugins := r.plugins.map fun d => linked r.plugins c (madeReady c d) } := by
  refine ⟨h.tidy.linked hc, ?_, ?_, ?_⟩
  · intro a' ha' s hs
    obtain ⟨a, ha, rfl⟩ := List.mem_map.mp ha'
    have hkey : s.1 ∈ (ClassRoom.linked r.plugins c (madeReady c a)).extendedSsrcVec.map Prod.fst :=
      List.mem_map_of_mem hs
    rw [map_fst_linked] at hkey
    obtain ⟨t, ht, hts⟩ := List.mem_map.mp hkey
    rw [← hts]
    exact h.keys a ha t ht
  · intro a' ha' b' hb' hne har hbr hup
    obtain ⟨a, ha, rfl⟩ := List.mem_map.mp ha'
    obtain ⟨b, hb, rfl⟩ := List.mem_map.mp hb'
    obtain ⟨haid, -, -, haready⟩ := linked_fields r.plugins c a
    obtain ⟨hbid, hbup, -, hbready⟩ := linked_fields r.plugins c b
    rw [haid, hbid] at hne
    rw [haready] at har
    rw [hbready] at hbr
    rw [hbup] at hup ⊢
    by_cases hac : a.streamId = c.streamId
    · -- the participant that became ready
      obtain rfl := h.tidy.eq_of_id ha hc hac
      exact h.tidy.mem_new_slots hc hfits hb (Ne.symm hne) hup
    · rw [madeReady, if_neg hac, ClassRoom.linked, if_neg hac,
        ClassRoomPlugin.extendedSsrcVec_linkToSsrc]
      by_cases hbc : b.streamId = c.streamId
      · -- it is linked by the others
        obtain rfl := h.tidy.eq_of_id hb hc hbc
        have hfree := hroom hup a ha hac (har.resolve_left hac)
        exact (mem_occupants_assign hup).mpr (.inr ⟨rfl, exists_seat_of_room hfree⟩)
      · have hold := h.pairs a ha b hb hne (har.resolve_left hac) (hbr.resolve_left hbc) hup
        by_cases hcup : c.upstreamSsrc = 0
        · rw [hcup, assign_free]
          exact hold
        · refine (mem_occupants_assign hcup).mpr (.inl ⟨hold, ?_⟩)
          exact fun heq => hbc (h.tidy.ssrcs b hb c hc hup heq)
  · intro a' ha' hact
    obtain ⟨a, ha, rfl⟩ := List.mem_map.mp ha'
    obtain ⟨-, -, haactive, haready⟩ := linked_fields r.plugins c a
    rw [haactive] at hact
    exact haready.mpr (.inr (h.ready a ha hact))

/-- A packet of a participant that is ready finds its slot and its context. -/
theorem Linked.finds_slot (h : Linked r) (hc : c ∈ r.plugins) (hd : d ∈ r.plugins)
    (hne : d.streamId ≠ c.streamId) (hcact : c.active = true) (hdact : d.active = true)
    (hup : c.upstreamSsrc ≠ 0) :
    ∃ downstream, seat? c.upstreamSsrc d.extendedSsrcVec = some downstream ∧
      d.videoSwitchContexts[downstream]? ≠ none ∧ downstream ≠ 0 := by
  have hslot := h.pairs d hd c hc hne (h.ready d hd hdact) (h.ready c hc hcact) hup
  obtain ⟨k, hk⟩ := seat?_of_mem_occupants hslot
  have hmem := mem_of_seat? hk
  exact ⟨k, hk, (h.tidy.seated d hd).context _ hmem hup, h.keys d hd _ hmem⟩

theorem Linked.forwardTo (h : Linked r) (hc : c ∈ r.plugins) (hcact : c.active = true)
    (hup : c.upstreamSsrc ≠ 0) {packet : RtpPacket}
    (hssrc : RtpHeader.getSSRC packet.data = c.upstreamSsrc) (hd : d ∈ r.plugins) :
    ∃ d', r.forwardTo c.streamId packet d = .ok d' := by
  rw [ClassRoom.forwardTo]
  by_cases hforward : r.shouldForward c.streamId d = true
  · rw [if_pos hforward, ClassRoomPlugin.relayRtpPacket]
    by_cases hdact : d.active = true
    · have hne : d.streamId ≠ c.streamId := by
        intro hid
        rw [shouldForward, if_pos hid] at hforward
        cases hforward
      obtain ⟨k, hk, hcontext, hk0⟩ := h.finds_slot hc hd hne hcact hdact hup
      obtain ⟨context, hcontext⟩ := Option.ne_none_iff_exists'.mp hcontext
      rw [← hssrc] at hk
      rw [if_pos hdact, ClassRoomPlugin.rewriteRtpHeader_eq hk hcontext hk0]
      exact ⟨_, rfl⟩
    · rw [if_neg hdact]
      exact ⟨_, rfl⟩
  · rw [if_neg hforward]
    exact ⟨d, rfl⟩

theorem Linked.incomingRtpPacket (h : Linked r) {packet : RtpPacket}
    (hfits : ∀ c ∈ r.plugins[i]?, c.active = true →
      c.upstreamSsrc ≠ 0 ∧ RtpHeader.getSSRC packet.data = c.upstreamSsrc) :
    ∃ r', r.incomingRtpPacket i packet = .ok r' ∧ Linked r' := by
  have hok : ∃ r', r.incomingRtpPacket i packet = .ok r' := by
    rw [ClassRoom.incomingRtpPacket]
    rcases hi : r.plugins[i]? with - | c
    · exact ⟨r, rfl⟩
    · dsimp only
      by_cases hact : c.active = true
      · obtain ⟨hup, hssrc⟩ := hfits c hi hact
        obtain ⟨plugins, hloop⟩ := exists_mapM_ok fun d hd =>
          h.forwardTo (List.mem_of_getElem? hi) hact hup hssrc hd
        rw [if_pos hact, muxRtpPacket, hloop]
        exact ⟨_, rfl⟩
      · rw [if_neg hact]
        exact ⟨r, rfl⟩
  obtain ⟨r', hok⟩ := hok
  refine ⟨r', hok, ?_⟩
  rcases incomingRtpPacket_cases hok with rfl | ⟨streamId, rfl⟩
  · exact h
  · apply h.same fun d => (forwarded_same r streamId packet d).1
    intro d hd hact
    rw [(forwarded_same r streamId packet d).2] at hact
    exact h.ready d hd hact

theorem Linked.step (h : Linked r) {event : Event} (hfits : Fits r event) :
    Outcome Linked (fun _ => False) (r.step event) := by
  obtain ⟨hkeeps, hfits⟩ := hfits
  cases event with
  | addParticipant streamId role => exact h.addParticipant role hkeeps
  | processOffer i upstreamSsrc extended =>
    obtain ⟨hextended, hready⟩ := hfits
    rcases hi : r.plugins[i]? with - | c
    · show Linked (r.processOffer i upstreamSsrc extended)
      rw [processOffer_of_none hi]
      exact h
    · obtain ⟨hsame, hother⟩ := hkeeps c hi
      exact h.processOffer hi (h.tidy.processOffer extended hi hsame hother) hextended (hready c hi)
  | updateState i =>
    show Outcome Linked _ (r.updateState i)
    rcases hi : r.plugins[i]? with - | c
    · rw [ClassRoom.updateState, hi]
      exact h
    · obtain ⟨hslots, hroom⟩ := hfits c hi
      rw [updateState_eq h.tidy.ids hi]
      exact h.linked (List.mem_of_getElem? hi) hslots hroom
  | setActive i => exact h.setActive i
  | removeParticipant i => exact h.removeParticipant i
  | publishStreams streamIds =>
    exact ⟨⟨h.tidy.ids, h.tidy.ssrcs, h.tidy.seated, h.tidy.sources⟩, h.keys, h.pairs, h.ready⟩
  | incomingRtpPacket i packet =>
    obtain ⟨r', hok, hr'⟩ := h.incomingRtpPacket hfits
    show Outcome Linked _ (r.incomingRtpPacket i packet)
    rw [hok]
    exact hr'

theorem linked_new : Linked {} := ⟨tidy_new, by simp, by simp, by simp⟩

end Linked

/-- **Forwarding finds a slot.**  In every run whose events meet the condition no assertion
fails; and in every state that is reached, a video packet of an active participant finds a
slot with its SSRC, a context and a downstream SSRC at every active participant that it is
forwarded to. -/
theorem forwarding_finds_slot (events : List Event) (hfits : AllSteps step Fits {} events) :
    ∃ r, events.foldlM step {} = .ok r ∧
      ∀ c ∈ r.plugins, c.active = true → c.upstreamSsrc ≠ 0 →
        ∀ d ∈ r.plugins, r.shouldForward c.streamId d = true → d.active = true →
          ∃ downstream, seat? c.upstreamSsrc d.extendedSsrcVec = some downstream ∧
            d.videoSwitchContexts[downstream]? ≠ none ∧ downstream ≠ 0 := by
  have hout := hfits.outcome (P := Linked) (E := fun _ => False)
    (fun r event hr hevent => hr.step hevent) linked_new
  obtain ⟨r, hrun, hr⟩ := hout.ok
  refine ⟨r, hrun, ?_⟩
  intro c hc hcact hup d hd hforward hdact
  have hne : d.streamId ≠ c.streamId := by
    intro hid
    rw [shouldForward, if_pos hid] at hforward
    cases hforward
  exact hr.finds_slot hc hd hne hcact hdact hup

/-- Three participants and a packet of the last one. -/
theorem forwarding_finds_slot_three :
    ∃ r, (lesson 3 ++ [Event.incomingRtpPacket 2 (ClassRoomPlugin.packet 102 7 900)]).foldlM step {} =
      .ok r := by
  obtain ⟨r, hrun, -⟩ := forwarding_finds_slot
    (lesson 3 ++ [Event.incomingRtpPacket 2 (ClassRoomPlugin.packet 102 7 900)]) (by decide)
  exact ⟨r, hrun⟩

/-- Seven participants whose transports are ready: the first one has no slot for the last one,
and the packet of the last one fails the assertion. -/
theorem seventh_participant_unlinked :
    fault? ((lesson 7).foldlM step {}) = none ∧
      fault? ((lesson 7 ++ [Event.incomingRtpPacket 6 (ClassRoomPlugin.packet 106 7 900)]).foldlM
        step {}) = some .notLinked := by
  refine ⟨?_, ?_⟩
  · decide +kernel
  · decide +kernel

end ClassRoom

end Orbit
