/-
OrbitStream/ForwardOldViewers.lean

The viewers of the old forwarding element and the sources they are switched to.

A context is looked at through its route: its source, its next source and
whether it is changing.  An iteration of the forwarding loop can only complete
routes (`selectiveVideoForward_passed`), a change of the publisher can only aim
them at the publisher (`switchPublisher_context`); with that, `Viewers` is an
invariant of every run.

`UnlinkVideoStream` redirects the viewers whose source goes away, but a viewer
that is only about to be switched to the stream keeps its target: the loop that
looks for references compares `stream_id` and not `new_stream_id`.
`unlink_leaves_a_target` is the smallest such run; `run_targets_linked` says
that this is the only way a target can dangle.
-/
import OrbitStream.Lib.Run
import OrbitStream.ForwardOld

namespace Orbit

open Lib

namespace VideoForwardElement

variable {e e' : VideoForwardElement}

/-! ### Routes -/

/-- Every context's source, next source and changing flag satisfy `P`. -/
def Routes (P : Id → Id → Bool → Prop) (e : VideoForwardElement) : Prop :=
  ∀ (id : Id) (sc : VideoSwitchContext), e.videoSwitchContexts[id]? = some (some sc) →
    P sc.streamId sc.newStreamId sc.changing

/-- No context is a null pointer. -/
def NoNull (e : VideoForwardElement) : Prop :=
  ∀ id : Id, e.videoSwitchContexts[id]? ≠ some none

theorem insert_context (e : VideoForwardElement) (s t : Id) (c : Option VideoSwitchContext) :
    (e.videoSwitchContexts.insert s c)[t]? =
      if s = t then some c else e.videoSwitchContexts[t]? := by
  rw [Std.TreeMap.getElem?_insert]
  rcases eq_or_ne s t with h | h <;> simp [h]

theorem mem_setVideoQueue {s : Id} (hs : s ∈ e.videoQueues) (b : VideoAwareFrameBuffer)
    (t : Id) : t ∈ (e.setVideoQueue s b).videoQueues ↔ t ∈ e.videoQueues := by
  show t ∈ e.videoQueues.insert s b ↔ _
  rw [Std.TreeMap.mem_insert, Std.compare_eq_iff_eq]
  refine ⟨?_, Or.inr⟩
  rintro (rfl | ht)
  · exact hs
  · exact ht

theorem mem_setContext {s : Id} (hs : s ∈ e.videoSwitchContexts) (sc : VideoSwitchContext)
    (t : Id) : t ∈ (e.setContext s sc).videoSwitchContexts ↔ t ∈ e.videoSwitchContexts := by
  show t ∈ e.videoSwitchContexts.insert s _ ↔ _
  rw [Std.TreeMap.mem_insert, Std.compare_eq_iff_eq]
  refine ⟨?_, Or.inr⟩
  rintro (rfl | ht)
  · exact hs
  · exact ht

theorem NoNull.setContext (h : NoNull e) (s : Id) (sc : VideoSwitchContext) :
    NoNull (e.setContext s sc) := by
  intro t
  show (e.videoSwitchContexts.insert s (some sc))[t]? ≠ some none
  rw [insert_context]
  split
  · exact fun hc => nomatch hc
  · exact h t

theorem Routes.setContext {P : Id → Id → Bool → Prop} (h : Routes P e) {s : Id}
    {sc : VideoSwitchContext} (hsc : P sc.streamId sc.newStreamId sc.changing) :
    Routes P (e.setContext s sc) := by
  intro t sc' ht
  change (e.videoSwitchContexts.insert s (some sc))[t]? = some (some sc') at ht
  rw [insert_context] at ht
  split at ht
  · cases ht
    exact hsc
  · exact h t sc' ht

theorem getVideoQueue_mem {s : Id} {b : VideoAwareFrameBuffer}
    (h : e.getVideoQueue s = some b) : s ∈ e.videoQueues := by
  rw [getVideoQueue] at h
  split at h
  · cases h
  · exact (Std.TreeMap.getElem?_eq_some_iff.mp h).1

/-! ### What a step of the loop leaves alone -/

/-- `e'` has the streams of `e` and no new null pointer, and what holds of the
routes of `e` and of completed routes holds of the routes of `e'`. -/
structure Passed (e e' : VideoForwardElement) : Prop where
  queue_mem : ∀ id, id ∈ e'.videoQueues ↔ id ∈ e.videoQueues
  context_mem : ∀ id, id ∈ e'.videoSwitchContexts ↔ id ∈ e.videoSwitchContexts
  noNull : NoNull e → NoNull e'
  routes : ∀ {P : Id → Id → Bool → Prop}, (∀ s n, P s n true → P n (-1) false) →
    Routes P e → Routes P e'

/-- The viewers and the changing flag are as they were. -/
structure SameViewers (e e' : VideoForwardElement) : Prop where
  current : e'.currentViewer = e.currentViewer
  new : e'.newViewer = e.newViewer
  changing : e'.changing = e.changing

theorem Passed.refl (e : VideoForwardElement) : Passed e e :=
  ⟨fun _ => Iff.rfl, fun _ => Iff.rfl, fun h => h, fun _ h => h⟩

theorem Passed.trans {e₁ e₂ : VideoForwardElement} (h₁ : Passed e e₁) (h₂ : Passed e₁ e₂) :
    Passed e e₂ where
  queue_mem := fun id => (h₂.queue_mem id).trans (h₁.queue_mem id)
  context_mem := fun id => (h₂.context_mem id).trans (h₁.context_mem id)
  noNull := fun h => h₂.noNull (h₁.noNull h)
  routes := fun hP h => h₂.routes hP (h₁.routes hP h)

theorem SameViewers.refl (e : VideoForwardElement) : SameViewers e e := ⟨rfl, rfl, rfl⟩

theorem SameViewers.trans {e₁ e₂ : VideoForwardElement} (h₁ : SameViewers e e₁)
    (h₂ : SameViewers e₁ e₂) : SameViewers e e₂ :=
  ⟨h₂.current.trans h₁.current, h₂.new.trans h₁.new, h₂.changing.trans h₁.changing⟩

theorem passed_setVideoQueue {s : Id} (hs : s ∈ e.videoQueues) (b : VideoAwareFrameBuffer) :
    Passed e (e.setVideoQueue s b) :=
  ⟨mem_setVideoQueue hs b, fun _ => Iff.rfl, fun h => h, fun _ h => h⟩

/-- Completing a route. -/
theorem passed_complete {s : Id} {sc : VideoSwitchContext} (sc' : VideoSwitchContext)
    (hs : e.videoSwitchContexts[s]? = some (some sc)) (hc : sc.changing = true)
    (hstream : sc'.streamId = sc.newStreamId) (hnew : sc'.newStreamId = -1)
    (hdone : sc'.changing = false) : Passed e (e.setContext s sc') where
  queue_mem := fun _ => Iff.rfl
  context_mem := mem_setContext (Std.TreeMap.getElem?_eq_some_iff.mp hs).1 sc'
  noNull := fun h => h.setContext s sc'
  routes := by
    intro P hP h
    apply h.setContext
    rw [hstream, hnew, hdone]
    apply hP sc.streamId
    have hr := h s sc hs
    rw [hc] at hr
    exact hr

/-- Changing a context without its route. -/
theorem passed_update {s : Id} {sc : VideoSwitchContext} (sc' : VideoSwitchContext)
    (hs : e.videoSwitchContexts[s]? = some (some sc)) (hstream : sc'.streamId = sc.streamId)
    (hnew : sc'.newStreamId = sc.newStreamId) (hc : sc'.changing = sc.changing) :
    Passed e (e.setContext s sc') where
  queue_mem := fun _ => Iff.rfl
  context_mem := mem_setContext (Std.TreeMap.getElem?_eq_some_iff.mp hs).1 sc'
  noNull := fun h => h.setContext s sc'
  routes := by
    intro P _ h
    apply h.setContext
    rw [hstream, hnew, hc]
    exact h s sc hs

/-! ### The forwarding loop -/

theorem completeChange_passed {id : Id} {sc : VideoSwitchContext} {b : VideoAwareFrameBuffer}
    (p : DataPacket) (hsc : e.videoSwitchContexts[id]? = some (some sc))
    (hc : sc.changing = true) (hb : sc.newStreamId ∈ e.videoQueues) :
    Passed e (e.completeChange id sc b p) ∧ SameViewers e (e.completeChange id sc b p) := by
  have h₁ := passed_setVideoQueue hb (b.setBufferType .playBuffer)
  have h₂ := h₁.trans (passed_complete (e := e.setVideoQueue sc.newStreamId _)
    { sc.rebase (RtpHeader.getSeqNumber p.data) (RtpHeader.getTimestamp p.data) with
      changing := false, streamId := sc.newStreamId, newStreamId := -1 } hsc hc rfl rfl rfl)
  rw [completeChange]
  simp only
  split
  · split
    · rename_i b' hb'
      refine ⟨h₂.trans (passed_setVideoQueue (getVideoQueue_mem hb') _), rfl, rfl, rfl⟩
    · exact ⟨h₂, rfl, rfl, rfl⟩
  · exact ⟨h₂, rfl, rfl, rfl⟩

theorem keyFrameArrived_mem {parse : Depacketizer} {sc : VideoSwitchContext}
    {b : VideoAwareFrameBuffer} {p : DataPacket}
    (h : e.keyFrameArrived parse sc = some (b, p)) : sc.newStreamId ∈ e.videoQueues := by
  unfold keyFrameArrived at h
  rcases hb : e.getVideoQueue sc.newStreamId with - | b'
  · rw [hb] at h
    cases h
  · exact getVideoQueue_mem hb

/-- The only error of an iteration in a state without null pointers and with
set targets. -/
def BaseTsAssertion (asserts : Bool) (f : Fault) : Prop :=
  asserts = true ∧ ∃ id, f = .baseTsUnset id

/-- The changing viewers have a target. -/
def TargetSet : Id → Id → Bool → Prop := fun _ n c => c = true → n ≠ -1

theorem targetSet_complete (s n : Id) (_ : TargetSet s n true) : TargetSet n (-1) false :=
  fun hc => nomatch hc

theorem changeOne_passed (asserts : Bool) (parse : Depacketizer) (hnull : NoNull e)
    (hset : Routes TargetSet e) (done : Bool) (id : Id) :
    Outcome (fun acc => Passed e acc.1 ∧ SameViewers e acc.1) (BaseTsAssertion asserts)
      (changeOne asserts parse (e, done) id) := by
  rw [changeOne]
  simp only
  rcases hsc : e.videoSwitchContexts[id]? with - | c
  · exact ⟨Passed.refl e, SameViewers.refl e⟩
  · rcases c with - | sc
    · exact absurd hsc (hnull id)
    · simp only
      split
      · rename_i hc
        have hn : sc.newStreamId ≠ -1 := hset id sc hsc hc
        rw [if_neg fun h => hn h.2]
        rcases hk : e.keyFrameArrived parse sc with - | ⟨b, p⟩
        · exact ⟨Passed.refl e, SameViewers.refl e⟩
        · exact completeChange_passed p hsc hc (keyFrameArrived_mem hk)
      · exact ⟨Passed.refl e, SameViewers.refl e⟩

/-- What the end of the changing phase does to the viewers. -/
structure Finished (e e' : VideoForwardElement) : Prop where
  changing : e'.changing = false
  current : e'.currentViewer = if e.newViewer ≠ -1 then e.newViewer else e.currentViewer
  new : e'.newViewer = -1

theorem finishChange_finished (e : VideoForwardElement) :
    Passed e (e.finishChange true) ∧ Finished e (e.finishChange true) := by
  rw [finishChange]
  rw [if_pos rfl]
  simp only
  split
  · rename_i hn
    refine ⟨⟨fun _ => Iff.rfl, fun _ => Iff.rfl, fun h => h, fun _ h => h⟩, rfl, ?_, rfl⟩
    show e.newViewer = _
    rw [if_pos hn]
  · rename_i hn
    refine ⟨⟨fun _ => Iff.rfl, fun _ => Iff.rfl, fun h => h, fun _ h => h⟩, rfl, ?_, ?_⟩
    · show e.currentViewer = _
      rw [if_neg hn]
    · exact not_not.mp hn

theorem changingPhase_passed (asserts : Bool) (parse : Depacketizer) (hnull : NoNull e)
    (hset : Routes TargetSet e) (ids : List Id) :
    Outcome (fun e' => Passed e e' ∧ (SameViewers e e' ∨ Finished e e'))
      (BaseTsAssertion asserts) (e.changingPhase asserts parse ids) := by
  rw [changingPhase]
  split
  · have hloop : Outcome (fun acc => Passed e acc.1 ∧ SameViewers e acc.1)
        (BaseTsAssertion asserts) (ids.foldlM (changeOne asserts parse) (e, true)) := by
      apply Outcome.foldlM _ ⟨Passed.refl e, SameViewers.refl e⟩
      rintro ⟨e₁, done⟩ ⟨hp, hv⟩ id -
      apply (changeOne_passed asserts parse (hp.noNull hnull)
        (hp.routes targetSet_complete hset) done id).imp
      intro acc h
      exact ⟨hp.trans h.1, hv.trans h.2⟩
    apply hloop.bind
    rintro ⟨e₁, done⟩ ⟨hp, hv⟩
    show Passed e (e₁.finishChange done) ∧ _
    -- the phase ends when no viewer is left to change
    cases done with
    | false => exact ⟨hp, Or.inl hv⟩
    | true =>
        obtain ⟨hp', hf⟩ := finishChange_finished e₁
        refine ⟨hp.trans hp', Or.inr ⟨hf.changing, ?_, hf.new⟩⟩
        rw [hf.current, hv.new, hv.current]
  · exact ⟨Passed.refl e, Or.inl (SameViewers.refl e)⟩

theorem popFromBuffer_passed (e : VideoForwardElement) (id : Id) :
    Passed e (e.popFromBuffer id).2 ∧ SameViewers e (e.popFromBuffer id).2 ∧
      (e.popFromBuffer id).2.videoSwitchContexts = e.videoSwitchContexts := by
  rw [popFromBuffer]
  rcases hb : e.getVideoQueue id with - | b
  · exact ⟨Passed.refl e, SameViewers.refl e, rfl⟩
  · simp only
    split
    · split
      · exact ⟨Passed.refl e, SameViewers.refl e, rfl⟩
      · exact ⟨passed_setVideoQueue (getVideoQueue_mem hb) _, ⟨rfl, rfl, rfl⟩, rfl⟩
    · exact ⟨Passed.refl e, SameViewers.refl e, rfl⟩

theorem takePacket_passed (packets : Std.TreeMap Id (Option DataPacket)) (i : Nat) (id : Id) :
    Passed e (Forwarding.takePacket ⟨e, packets, i⟩ id).2 ∧
      SameViewers e (Forwarding.takePacket ⟨e, packets, i⟩ id).2 ∧
      (Forwarding.takePacket ⟨e, packets, i⟩ id).2.videoSwitchContexts =
        e.videoSwitchContexts := by
  rw [Forwarding.takePacket]
  simp only
  split
  · exact ⟨Passed.refl e, SameViewers.refl e, rfl⟩
  · exact popFromBuffer_passed e id

theorem forwardOne_passed (asserts : Bool) (hnull : NoNull e)
    (packets : Std.TreeMap Id (Option DataPacket)) (i : Nat) (id : Id) :
    Outcome (fun acc => Passed e acc.element ∧ SameViewers e acc.element)
      (BaseTsAssertion asserts) (forwardOne asserts ⟨e, packets, i⟩ id) := by
  rw [forwardOne]
  simp only
  rcases hsc : e.videoSwitchContexts[id]? with - | c
  · exact ⟨Passed.refl e, SameViewers.refl e⟩
  · rcases c with - | sc
    · exact absurd hsc (hnull id)
    · simp only
      split
      · exact ⟨Passed.refl e, SameViewers.refl e⟩
      · obtain ⟨hp, hv, hctx⟩ := takePacket_passed (e := e) packets i sc.streamId
        rcases hpk : (Forwarding.takePacket ⟨e, packets, i⟩ sc.streamId).1 with - | p
        · exact ⟨hp, hv⟩
        · simp only
          split
          · -- the assertion on `base_ts`
            rename_i ha
            exact ⟨ha.1, id, rfl⟩
          · rw [← hctx] at hsc
            refine ⟨?_, hv.current, hv.new, hv.changing⟩
            have hu := hp.trans (passed_update (sc.advance
              (RtpHeader.getSeqNumber p.data) (RtpHeader.getTimestamp p.data)) hsc
              (by simp [VideoSwitchContext.advance]) (by simp [VideoSwitchContext.advance])
              (by simp [VideoSwitchContext.advance]))
            exact ⟨hu.queue_mem, hu.context_mem, hu.noNull, hu.routes⟩

theorem sendFirs_passed (ids : List Id) (e : VideoForwardElement) :
    Passed e (ids.foldl sendFirPacket e) ∧ SameViewers e (ids.foldl sendFirPacket e) := by
  induction ids generalizing e with
  | nil => exact ⟨Passed.refl e, SameViewers.refl e⟩
  | cons id ids ih =>
      obtain ⟨hp, hv⟩ := ih (e.sendFirPacket id)
      have hp₁ : Passed e (e.sendFirPacket id) :=
        ⟨fun _ => Iff.rfl, fun _ => Iff.rfl, fun h => h, fun _ h => h⟩
      have hv₁ : SameViewers e (e.sendFirPacket id) := ⟨rfl, rfl, rfl⟩
      exact ⟨hp₁.trans hp, hv₁.trans hv⟩

/-- Everything an iteration of the forwarding loop can do to the routes and the
viewers. -/
theorem selectiveVideoForward_passed (asserts : Bool) (parse : Depacketizer) (hnull : NoNull e)
    (hset : Routes TargetSet e) :
    Outcome (fun e' => Passed e e' ∧ (SameViewers e e' ∨ Finished e e'))
      (BaseTsAssertion asserts) (e.selectiveVideoForward asserts parse) := by
  rw [selectiveVideoForward]
  split
  · exact ⟨Passed.refl e, Or.inl (SameViewers.refl e)⟩
  · obtain ⟨hp₀, hv₀⟩ := sendFirs_passed e.requestKeyFrameStreamIds e
    have hp : Passed e e.sendRequests :=
      ⟨hp₀.queue_mem, hp₀.context_mem, hp₀.noNull, hp₀.routes⟩
    have hv : SameViewers e e.sendRequests := ⟨hv₀.current, hv₀.new, hv₀.changing⟩
    apply (changingPhase_passed asserts parse (hp.noNull hnull)
      (hp.routes targetSet_complete hset) _).bind
    rintro e₁ ⟨hp₁, hv₁⟩
    have hloop : Outcome (fun acc : Forwarding => Passed e₁ acc.element ∧
        SameViewers e₁ acc.element) (BaseTsAssertion asserts)
        (e.sendRequests.videoSwitchContexts.keys.foldlM (forwardOne asserts)
          { element := e₁, playPackets := ∅, i := 0 }) := by
      apply Outcome.foldlM _ ⟨Passed.refl e₁, SameViewers.refl e₁⟩
      rintro ⟨e₂, packets, i⟩ ⟨hp₂, hv₂⟩ id -
      apply (forwardOne_passed asserts (hp₂.noNull (hp₁.noNull (hp.noNull hnull)))
        packets i id).imp
      intro acc h
      exact ⟨hp₂.trans h.1, hv₂.trans h.2⟩
    apply hloop.bind
    rintro acc ⟨hp₂, hv₂⟩
    refine ⟨(hp.trans hp₁).trans hp₂, ?_⟩
    rcases hv₁ with hv₁ | hf
    · exact Or.inl ((hv.trans hv₁).trans hv₂)
    · refine Or.inr ⟨hv₂.changing.trans hf.changing, ?_, hv₂.new.trans hf.new⟩
      rw [hv₂.current, hf.current, hv.new, hv.current]

/-! ### The publisher changes -/

/-- `SwitchPublisher` has something to do. -/
def Fires (e : VideoForwardElement) (p : Id) : Prop := p ≠ e.currentViewer ∧ p ≠ e.newViewer

instance (e : VideoForwardElement) (p : Id) : Decidable (Fires e p) :=
  inferInstanceAs (Decidable (_ ∧ _))

theorem switchPublisher_idle {p : Id} (h : ¬ Fires e p) : e.switchPublisher p = e := by
  rw [switchPublisher]
  exact if_neg h

theorem storeNewViewer_keeps (e : VideoForwardElement) (p : Id) :
    (∀ id, id ∈ (e.storeNewViewer p).videoQueues ↔ id ∈ e.videoQueues) ∧
      (e.storeNewViewer p).videoSwitchContexts = e.videoSwitchContexts ∧
      SameViewers e (e.storeNewViewer p) := by
  rw [storeNewViewer]
  split
  · rename_i b hb
    split
    · exact ⟨mem_setVideoQueue (getVideoQueue_mem hb) _, rfl, rfl, rfl, rfl⟩
    · exact ⟨fun _ => Iff.rfl, rfl, SameViewers.refl e⟩
    · exact ⟨fun _ => Iff.rfl, rfl, SameViewers.refl e⟩
  · exact ⟨fun _ => Iff.rfl, rfl, SameViewers.refl e⟩

theorem switchPublisher_mem (e : VideoForwardElement) (p id : Id) :
    id ∈ (e.switchPublisher p).videoQueues ↔ id ∈ e.videoQueues := by
  rw [switchPublisher]
  split
  · exact (storeNewViewer_keeps _ p).1 id
  · exact Iff.rfl

/-- The viewers other than the publisher are aimed at it, unless it already is
their source. -/
theorem switchPublisher_context {p : Id} (h : Fires e p) (id : Id) :
    (e.switchPublisher p).videoSwitchContexts[id]? =
      if id = p then e.videoSwitchContexts[id]?
      else e.videoSwitchContexts[id]?.map (changeContext p) := by
  rw [switchPublisher]
  rw [Fires] at h
  rw [if_pos h]
  simp only [(storeNewViewer_keeps _ p).2.1]
  show (e.videoSwitchContexts.map _)[id]? = _
  rw [Std.TreeMap.getElem?_map]
  split
  · simp
  · rfl

theorem switchPublisher_viewers {p : Id} (h : Fires e p) :
    (e.switchPublisher p).currentViewer = e.currentViewer ∧
      (e.switchPublisher p).newViewer = p ∧ (e.switchPublisher p).changing = true := by
  have hv := (storeNewViewer_keeps ({ e with newViewer := p }.requestKeyFrame p) p).2.2
  rw [switchPublisher]
  rw [Fires] at h
  rw [if_pos h]
  exact ⟨hv.current, hv.new, rfl⟩

/-! ### The invariant -/

/-- What holds of the streams and their contexts, also inside an operation. -/
structure Contexts (e : VideoForwardElement) : Prop where
  context_mem : ∀ id, id ∈ e.videoSwitchContexts ↔ id ∈ e.videoQueues
  noNull : NoNull e
  queue_id : (-1 : Id) ∉ e.videoQueues
  new_mem : e.newViewer = -1 ∨ e.newViewer ∈ e.videoQueues
  new_changing : e.newViewer ≠ -1 → e.changing = true
  target_set : Routes TargetSet e

/-- What holds between two steps: there is a current viewer iff there are
streams, and it is one of them. -/
structure Viewers (e : VideoForwardElement) : Prop extends Contexts e where
  current_mem : (e.currentViewer = -1 ∧ ∀ id, id ∉ e.videoQueues) ∨
    e.currentViewer ∈ e.videoQueues

/-- A source and a next source that are linked, if there are any. -/
def Aimed (e : VideoForwardElement) : Id → Id → Bool → Prop := fun s n _ =>
  (s = -1 ∨ s ∈ e.videoQueues) ∧ (n = -1 ∨ n ∈ e.videoQueues)

/-- No context has a dangling source or next source. -/
def Targets (e : VideoForwardElement) : Prop := Routes (Aimed e) e

theorem viewers_init : Viewers init where
  context_mem := by simp [init]
  noNull := by
    intro id
    simp [init]
  queue_id := by simp [init]
  new_mem := Or.inl rfl
  new_changing := fun h => absurd rfl h
  target_set := by
    intro id sc h
    simp [init] at h
  current_mem := Or.inl ⟨rfl, by simp [init]⟩

theorem targets_init : Targets init := by
  intro id sc h
  simp [init] at h

theorem Routes.congr {P Q : Id → Id → Bool → Prop} (h : Routes P e)
    (hPQ : ∀ s n c, P s n c → Q s n c) : Routes Q e :=
  fun id sc hsc => hPQ _ _ _ (h id sc hsc)

theorem aimed_congr (hq : ∀ id, id ∈ e'.videoQueues ↔ id ∈ e.videoQueues) (s n : Id) (c : Bool)
    (h : Aimed e s n c) : Aimed e' s n c := by
  obtain ⟨hs, hn⟩ := h
  exact ⟨hs.imp_right (hq s).mpr, hn.imp_right (hq n).mpr⟩

/-- A step of the loop. -/
theorem Viewers.passed (h : Viewers e) (hp : Passed e e')
    (hv : SameViewers e e' ∨ Finished e e') : Viewers e' := by
  have hctx : ∀ id, id ∈ e'.videoSwitchContexts ↔ id ∈ e'.videoQueues := by
    intro id
    rw [hp.context_mem, hp.queue_mem]
    exact h.context_mem id
  have hid : (-1 : Id) ∉ e'.videoQueues := fun hc => h.queue_id ((hp.queue_mem _).mp hc)
  have hset : Routes TargetSet e' := hp.routes targetSet_complete h.target_set
  rcases hv with hv | hf
  · refine ⟨⟨hctx, hp.noNull h.noNull, hid, ?_, ?_, hset⟩, ?_⟩
    · rw [hv.new, hp.queue_mem]
      exact h.new_mem
    · rw [hv.new, hv.changing]
      exact h.new_changing
    · rw [hv.current, hp.queue_mem]
      simp only [hp.queue_mem]
      exact h.current_mem
  · refine ⟨⟨hctx, hp.noNull h.noNull, hid, Or.inl hf.new, fun hc => absurd hf.new hc, hset⟩, ?_⟩
    rw [hf.current, hp.queue_mem]
    simp only [hp.queue_mem]
    split
    · rename_i hn
      exact Or.inr (h.new_mem.resolve_left hn)
    · exact h.current_mem

theorem Targets.passed (h : Targets e) (hp : Passed e e') : Targets e' := by
  have hr : Routes (Aimed e) e' := by
    apply hp.routes _ h
    intro s n hr
    exact ⟨hr.2, Or.inl rfl⟩
  exact hr.congr (aimed_congr hp.queue_mem)

/-! ### Link -/

theorem indexContext_mem {id : Id} (h : id ∈ e.videoSwitchContexts) :
    ∃ c, e.videoSwitchContexts[id]? = some c ∧ e.indexContext id = (e, c) := by
  obtain ⟨c, hc⟩ := Option.isSome_iff_exists.mp (Std.TreeMap.mem_iff_isSome_getElem?.mp h)
  refine ⟨c, hc, ?_⟩
  rw [indexContext, hc]

/-- `operator[]` finds the current viewer, so nothing is inserted. -/
theorem takeNewStream_cases (stream : Id) (h : e.currentViewer ∈ e.videoSwitchContexts) :
    e.takeNewStream stream = e ∨
    ∃ sc, e.videoSwitchContexts[e.currentViewer]? = some (some sc) ∧
      e.takeNewStream stream = (e.setContext e.currentViewer
        { sc with newStreamId := stream, changing := true }).requestKeyFrame stream := by
  obtain ⟨c, hc, hi⟩ := indexContext_mem h
  rw [takeNewStream]
  rw [hi]
  rcases c with - | sc
  · exact Or.inl rfl
  · simp only
    split
    · exact Or.inr ⟨sc, hc, rfl⟩
    · exact Or.inl rfl

theorem Contexts.takeNewStream (h : Contexts e) {stream : Id} (hs : stream ≠ -1)
    (hcur : e.currentViewer ∈ e.videoQueues) :
    Contexts (e.takeNewStream stream) ∧
      (e.takeNewStream stream).currentViewer = e.currentViewer ∧
      (e.takeNewStream stream).videoQueues = e.videoQueues := by
  rcases takeNewStream_cases stream ((h.context_mem _).mpr hcur) with
    he | ⟨sc, hsc, he⟩
  · rw [he]
    exact ⟨h, rfl, rfl⟩
  · rw [he]
    refine ⟨⟨?_, ?_, h.queue_id, h.new_mem, h.new_changing, ?_⟩, rfl, rfl⟩
    · intro id
      exact (mem_setContext ((h.context_mem _).mpr hcur) _ id).trans (h.context_mem id)
    · exact h.noNull.setContext _ _
    · exact Routes.setContext (e := e) h.target_set fun _ => hs

theorem Targets.takeNewStream (h : Targets e) {stream : Id} (hs : stream ∈ e.videoQueues)
    (hcur : e.currentViewer ∈ e.videoSwitchContexts) : Targets (e.takeNewStream stream) := by
  rcases takeNewStream_cases stream hcur with he | ⟨sc, hsc, he⟩
  · rw [he]
    exact h
  · rw [he]
    exact Routes.setContext (e := e) h (s := e.currentViewer)
      ⟨(h _ sc hsc).1, Or.inr hs⟩

/-- The current viewer once a stream is being linked. -/
def linkedViewer (e : VideoForwardElement) (stream : Id) : Id :=
  if e.currentViewer = -1 then stream else e.currentViewer

/-- The element with a buffer and a context for a new stream. -/
def linking (e : VideoForwardElement) (stream : Id) : VideoForwardElement :=
  { e with
    currentViewer := e.linkedViewer stream
    changing := true
    videoQueues := e.videoQueues.insert stream
      { bufferType := if e.activeBuffers < 2 then .playBuffer else .normalBuffer }
    videoSwitchContexts := e.videoSwitchContexts.insert stream
      (some { streamId := -1, newStreamId := e.linkedViewer stream, changing := true }) }

theorem linkVideoStream_new {stream : Id} (hs : stream ∉ e.videoQueues) :
    e.linkVideoStream stream = ((e.linking stream).takeNewStream stream).requestKeyFrame
      ((e.linking stream).takeNewStream stream).currentViewer := by
  have hc : e.videoQueues.contains stream = false := by
    rw [← Bool.not_eq_true, ← Std.TreeMap.mem_iff_contains]
    exact hs
  unfold linkVideoStream linking linkedViewer
  rcases Decidable.em (e.currentViewer = -1) with h | h
  · simp [h, hc, setVideoQueue, setContext]
  · simp [h, hc, setVideoQueue, setContext]

theorem linkVideoStream_again (h : Viewers e) {stream : Id} (hs : stream ∈ e.videoQueues) :
    e.linkVideoStream stream = e := by
  have hc : e.videoQueues.contains stream = true := Std.TreeMap.mem_iff_contains.mp hs
  have hcur : e.currentViewer ≠ -1 := by
    intro hn
    rcases h.current_mem with ⟨-, hnone⟩ | hmem
    · exact hnone stream hs
    · rw [hn] at hmem
      exact h.queue_id hmem
  rw [linkVideoStream]
  simp [hcur, hc]

theorem mem_linking {stream id : Id} :
    id ∈ (e.linking stream).videoQueues ↔ id = stream ∨ id ∈ e.videoQueues := by
  show id ∈ e.videoQueues.insert stream _ ↔ _
  rw [Std.TreeMap.mem_insert, Std.compare_eq_iff_eq, eq_comm]

theorem linkedViewer_mem (h : Viewers e) (stream : Id) :
    e.linkedViewer stream ∈ (e.linking stream).videoQueues := by
  rw [mem_linking, linkedViewer]
  split
  · exact Or.inl rfl
  · rename_i hn
    exact Or.inr (h.current_mem.resolve_left fun hc => hn hc.1)

theorem linking_contexts (h : Viewers e) {stream : Id} (hs : stream ≠ -1) :
    Contexts (e.linking stream) := by
  have hid : (-1 : Id) ∉ (e.linking stream).videoQueues := by
    rw [mem_linking]
    rintro (hc | hc)
    · exact hs hc.symm
    · exact h.queue_id hc
  refine ⟨?_, ?_, hid, ?_, fun _ => rfl, ?_⟩
  · intro id
    rw [mem_linking, ← h.context_mem]
    show id ∈ e.videoSwitchContexts.insert stream _ ↔ _
    rw [Std.TreeMap.mem_insert, Std.compare_eq_iff_eq, eq_comm]
  · exact h.noNull.setContext stream _
  · exact h.new_mem.imp_right fun hn => mem_linking.mpr (Or.inr hn)
  · apply Routes.setContext (e := e) h.target_set
    intro _ hc
    have hmem := linkedViewer_mem h stream
    change e.linkedViewer stream = -1 at hc
    rw [hc] at hmem
    exact hid hmem

theorem Viewers.linkVideoStream (h : Viewers e) {stream : Id} (hs : stream ≠ -1) :
    Viewers (e.linkVideoStream stream) := by
  rcases Decidable.em (stream ∈ e.videoQueues) with hq | hq
  · rw [linkVideoStream_again h hq]
    exact h
  · have hmem := linkedViewer_mem h stream
    obtain ⟨hc, hcur, hqs⟩ := (linking_contexts h hs).takeNewStream hs hmem
    rw [linkVideoStream_new hq]
    refine ⟨⟨hc.context_mem, hc.noNull, hc.queue_id, hc.new_mem, hc.new_changing,
      hc.target_set⟩, Or.inr ?_⟩
    show ((e.linking stream).takeNewStream stream).currentViewer ∈
      ((e.linking stream).takeNewStream stream).videoQueues
    rw [hcur, hqs]
    exact hmem

theorem Targets.linkVideoStream (ht : Targets e) (h : Viewers e) {stream : Id}
    (hs : stream ≠ -1) : Targets (e.linkVideoStream stream) := by
  rcases Decidable.em (stream ∈ e.videoQueues) with hq | hq
  · rw [linkVideoStream_again h hq]
    exact ht
  · have hmem := linkedViewer_mem h stream
    have hlink : Targets (e.linking stream) := by
      have hold : Routes (Aimed (e.linking stream)) e := by
        refine Routes.congr ht ?_
        rintro s n c ⟨hs', hn'⟩
        exact ⟨hs'.imp_right fun hm => mem_linking.mpr (Or.inr hm),
          hn'.imp_right fun hm => mem_linking.mpr (Or.inr hm)⟩
      exact hold.setContext (s := stream) ⟨Or.inl rfl, Or.inr hmem⟩
    rw [linkVideoStream_new hq]
    exact hlink.takeNewStream (mem_linking.mpr (Or.inl rfl))
      (((linking_contexts h hs).context_mem _).mpr hmem)

/-! ### Change of the publisher -/

/-- `SwitchPublisher` to a linked stream. -/
theorem Contexts.switchPublisher (h : Contexts e) {p : Id} (hp : p ∈ e.videoQueues) :
    Contexts (e.switchPublisher p) := by
  have hne : p ≠ -1 := fun hc => h.queue_id (hc ▸ hp)
  rcases Decidable.em (Fires e p) with hf | hf
  · obtain ⟨-, hnew, hch⟩ := switchPublisher_viewers hf
    refine ⟨?_, ?_, ?_, Or.inr ?_, fun _ => hch, ?_⟩
    · intro id
      rw [switchPublisher_mem, ← h.context_mem, Std.TreeMap.mem_iff_isSome_getElem?,
        Std.TreeMap.mem_iff_isSome_getElem?, switchPublisher_context hf]
      split <;> simp
    · intro id
      rw [switchPublisher_context hf]
      split
      · exact h.noNull id
      · intro hc
        obtain ⟨c, hc, hnone⟩ := Option.map_eq_some_iff.mp hc
        rcases c with - | sc
        · exact h.noNull id hc
        · cases hnone
    · rw [switchPublisher_mem]
      exact h.queue_id
    · rw [hnew, switchPublisher_mem]
      exact hp
    · -- a viewer that is redirected gets a target
      intro id sc hsc
      rw [switchPublisher_context hf] at hsc
      split at hsc
      · exact h.target_set id sc hsc
      · obtain ⟨c, hc, hmap⟩ := Option.map_eq_some_iff.mp hsc
        obtain ⟨sc₀, rfl, hsc₀⟩ := Option.map_eq_some_iff.mp hmap
        rw [← hsc₀]
        split
        · exact fun _ => hne
        · exact h.target_set id sc₀ hc
  · rw [switchPublisher_idle hf]
    exact h

theorem switchPublisher_current (e : VideoForwardElement) (p : Id) :
    (e.switchPublisher p).currentViewer = e.currentViewer := by
  rcases Decidable.em (Fires e p) with hf | hf
  · exact (switchPublisher_viewers hf).1
  · rw [switchPublisher_idle hf]

theorem Viewers.changeToSpeaker (h : Viewers e) (stream : Id) (now then' : Int) :
    Viewers (e.changeToSpeaker stream now then') := by
  rw [VideoForwardElement.changeToSpeaker]
  split
  · exact h
  · split
    · split
      · rename_i hq
        have hs := Std.TreeMap.mem_iff_contains.mpr hq
        have hc : Contexts { e with lastSwitchTime := then' } :=
          ⟨h.context_mem, h.noNull, h.queue_id, h.new_mem, h.new_changing, h.target_set⟩
        refine ⟨hc.switchPublisher hs, ?_⟩
        rw [switchPublisher_current]
        simp only [switchPublisher_mem]
        exact h.current_mem
      · exact h
    · exact h

/-- The publisher is linked, so nothing is aimed at a stream that is not. -/
theorem Targets.switchPublisher (h : Targets e) {p : Id} (hp : p ∈ e.videoQueues) :
    Targets (e.switchPublisher p) := by
  rcases Decidable.em (Fires e p) with hf | hf
  · intro id sc hsc
    apply aimed_congr (switchPublisher_mem e p)
    rw [switchPublisher_context hf] at hsc
    split at hsc
    · exact h id sc hsc
    · obtain ⟨c, hc, hmap⟩ := Option.map_eq_some_iff.mp hsc
      obtain ⟨sc₀, rfl, rfl⟩ := Option.map_eq_some_iff.mp hmap
      split
      · exact ⟨(h id sc₀ hc).1, Or.inr hp⟩
      · exact h id sc₀ hc
  · rw [switchPublisher_idle hf]
    exact h

theorem Targets.changeToSpeaker (h : Targets e) (stream : Id) (now then' : Int) :
    Targets (e.changeToSpeaker stream now then') := by
  rw [VideoForwardElement.changeToSpeaker]
  split
  · exact h
  · split
    · split
      · rename_i hq
        exact Targets.switchPublisher (e := { e with lastSwitchTime := then' }) h
          (Std.TreeMap.mem_iff_contains.mpr hq)
      · exact h
    · exact h

/-! ### Unlink -/

theorem mem_eraseStream {stream id : Id} :
    id ∈ (e.eraseStream stream).videoQueues ↔ id ≠ stream ∧ id ∈ e.videoQueues := by
  have h : id ∈ e.videoQueues.erase stream ↔ id ≠ stream ∧ id ∈ e.videoQueues := by
    rw [Std.TreeMap.mem_erase, ne_eq, Std.compare_eq_iff_eq, eq_comm]
  rw [eraseStream]
  simp only
  split
  · exact h
  · exact h

theorem eraseStream_context (e : VideoForwardElement) (stream id : Id) :
    (e.eraseStream stream).videoSwitchContexts[id]? =
      if id = stream then none else e.videoSwitchContexts[id]? := by
  have h : (e.videoSwitchContexts.erase stream)[id]? =
      if id = stream then none else e.videoSwitchContexts[id]? := by
    rw [Std.TreeMap.getElem?_erase]
    rcases eq_or_ne id stream with h | h
    · simp [h]
    · simp [h, h.symm]
  rw [eraseStream]
  simp only
  split
  · exact h
  · exact h

theorem eraseStream_viewers (h : Contexts e) (stream : Id) :
    (e.eraseStream stream).currentViewer = e.currentViewer ∧
    ((e.eraseStream stream).newViewer = -1 ∨
      ((e.eraseStream stream).newViewer = e.newViewer ∧ e.newViewer ≠ stream ∧
        (e.eraseStream stream).changing = e.changing)) := by
  rw [eraseStream]
  simp only
  split
  · exact ⟨rfl, Or.inl rfl⟩
  · rename_i hn
    refine ⟨rfl, ?_⟩
    rcases eq_or_ne e.newViewer (-1) with h1 | h1
    · exact Or.inl h1
    · exact Or.inr ⟨rfl, fun hs => hn ⟨h.new_changing h1, hs⟩, rfl⟩

theorem Contexts.eraseStream (h : Contexts e) (stream : Id) : Contexts (e.eraseStream stream) := by
  obtain ⟨-, hnew⟩ := eraseStream_viewers h stream
  refine ⟨?_, ?_, ?_, ?_, ?_, ?_⟩
  · intro id
    rw [mem_eraseStream, ← h.context_mem, Std.TreeMap.mem_iff_isSome_getElem?,
      Std.TreeMap.mem_iff_isSome_getElem?, eraseStream_context]
    split
    · rename_i hid
      simp [hid]
    · rename_i hid
      simp [hid]
  · intro id
    rw [eraseStream_context]
    split
    · exact fun hc => nomatch hc
    · exact h.noNull id
  · rw [mem_eraseStream]
    exact fun hc => h.queue_id hc.2
  · rcases hnew with hnew | ⟨hnew, hs, -⟩
    · exact Or.inl hnew
    · rw [hnew, mem_eraseStream]
      exact h.new_mem.imp_right fun hm => ⟨hs, hm⟩
  · intro hn
    rcases hnew with hnew | ⟨hnew, -, hch⟩
    · exact absurd hnew hn
    · rw [hnew] at hn
      rw [hch]
      exact h.new_changing hn
  · intro id sc hsc
    rw [eraseStream_context] at hsc
    split at hsc
    · cases hsc
    · exact h.target_set id sc hsc

theorem firstStreamId_mem (h : e.videoQueues.size ≠ 0) : e.firstStreamId ∈ e.videoQueues := by
  rw [firstStreamId]
  rcases hk : e.videoQueues.keys with - | ⟨id, ids⟩
  · have hl := Std.TreeMap.length_keys (t := e.videoQueues)
    rw [hk] at hl
    exact absurd hl.symm h
  · show id ∈ e.videoQueues
    rw [← Std.TreeMap.mem_keys, hk]
    exact List.mem_cons_self

/-- One stream is left. -/
theorem showAlone_spec (h : Contexts e) {first : Id} (hf : first ∈ e.videoQueues) :
    ∃ e', e.showAlone first = .ok e' ∧ Viewers e' ∧
      (∀ id, id ∈ e'.videoQueues ↔ id ∈ e.videoQueues) ∧
      ∀ sc, e'.videoSwitchContexts[first]? = some (some sc) → Aimed e' sc.streamId
        sc.newStreamId sc.changing := by
  have hne : first ≠ -1 := fun hc => h.queue_id (hc ▸ hf)
  have hsw := h.switchPublisher hf
  obtain ⟨c, hc⟩ := Option.isSome_iff_exists.mp
    (Std.TreeMap.mem_iff_isSome_getElem?.mp ((h.context_mem first).mpr hf))
  rcases c with - | sc
  · exact absurd hc (h.noNull first)
  · rw [showAlone]
    rw [hc]
    have hmem : first ∈ (e.switchPublisher first).videoQueues :=
      (switchPublisher_mem e first first).mpr hf
    -- only the context of the remaining stream is written
    refine ⟨_, rfl, ⟨⟨?_, ?_, hsw.queue_id, Or.inr hmem, fun _ => rfl, ?_⟩, Or.inr hmem⟩,
      switchPublisher_mem e first, ?_⟩
    · intro id
      exact (mem_setContext (e := e.switchPublisher first)
        ((hsw.context_mem first).mpr hmem) _ id).trans (hsw.context_mem id)
    · exact hsw.noNull.setContext first _
    · exact Routes.setContext (e := e.switchPublisher first) hsw.target_set fun _ => hne
    · intro sc' hsc'
      change ((e.switchPublisher first).videoSwitchContexts.insert first _)[first]? = _ at hsc'
      rw [insert_context, if_pos rfl] at hsc'
      cases hsc'
      exact ⟨Or.inr hmem, Or.inr hmem⟩

/-- A context after the loop of `UnlinkVideoStream` has seen it. -/
def repaired (stream first : Id) (sc : VideoSwitchContext) : VideoSwitchContext :=
  if sc.streamId = stream then
    { sc with streamId := -1, newStreamId := first, changing := true }
  else sc

theorem repairContext_ok {stream id : Id} (first : Id) {sc : VideoSwitchContext}
    (hsc : e.videoSwitchContexts[id]? = some (some sc)) :
    ∃ e', repairContext stream first e id = .ok e' ∧ SameViewers e e' ∧
      e'.videoQueues = e.videoQueues ∧
      ∀ t : Id, e'.videoSwitchContexts[t]? =
        if t = id then some (some (repaired stream first sc)) else e.videoSwitchContexts[t]? := by
  rw [repairContext]
  rw [hsc]
  simp only
  split
  · rename_i hs
    refine ⟨_, rfl, ⟨rfl, rfl, rfl⟩, rfl, ?_⟩
    intro t
    show (e.videoSwitchContexts.insert id _)[t]? = _
    rw [insert_context, repaired, if_pos hs]
    rcases eq_or_ne t id with ht | ht
    · rw [if_pos ht, if_pos ht.symm]
    · rw [if_neg ht, if_neg ht.symm]
  · rename_i hs
    refine ⟨_, rfl, SameViewers.refl e, rfl, ?_⟩
    intro t
    rw [repaired, if_neg hs]
    split
    · rename_i ht
      rw [ht, hsc]
    · rfl

/-- The loop repairs every context whose source goes away, and no other. -/
theorem repairLoop_ok (stream first : Id) (hnull : NoNull e) :
    ∃ e', e.videoSwitchContexts.keys.foldlM (repairContext stream first) e = .ok e' ∧
      SameViewers e e' ∧ e'.videoQueues = e.videoQueues ∧
      ∀ t : Id, e'.videoSwitchContexts[t]? =
        e.videoSwitchContexts[t]?.map (Option.map (repaired stream first)) := by
  -- the contexts still to be visited are as they were, the others are repaired
  have hrule := foldlM_rule (f := repairContext stream first)
    (P := fun l e' => l.Nodup ∧ (∀ id ∈ l, id ∈ e.videoSwitchContexts) ∧ SameViewers e e' ∧
      e'.videoQueues = e.videoQueues ∧ ∀ t : Id, e'.videoSwitchContexts[t]? =
        if t ∈ l ∨ t ∉ e.videoSwitchContexts then e.videoSwitchContexts[t]?
        else e.videoSwitchContexts[t]?.map (Option.map (repaired stream first))) ?_
    e.videoSwitchContexts.keys e
    ⟨Std.TreeMap.nodup_keys, fun id hid => Std.TreeMap.mem_keys.mp hid, SameViewers.refl e, rfl,
      ?_⟩
  · obtain ⟨e', he', -, -, hv, hq, hctx⟩ := hrule
    refine ⟨e', he', hv, hq, ?_⟩
    intro t
    rw [hctx]
    split
    · rename_i ht
      have hnone := Std.TreeMap.getElem?_eq_none (ht.resolve_left List.not_mem_nil)
      rw [hnone]
      rfl
    · rfl
  · rintro id l e₁ ⟨hnd, hl, hv, hq, hctx⟩
    obtain ⟨hid, hnd⟩ := List.nodup_cons.mp hnd
    have hmem := hl id List.mem_cons_self
    obtain ⟨c, hc⟩ := Option.isSome_iff_exists.mp (Std.TreeMap.mem_iff_isSome_getElem?.mp hmem)
    rcases c with - | sc
    · exact absurd hc (hnull id)
    · have hc₁ : e₁.videoSwitchContexts[id]? = some (some sc) := by
        rw [hctx, if_pos (Or.inl List.mem_cons_self)]
        exact hc
      obtain ⟨e₂, he₂, hv₂, hq₂, hctx₂⟩ := repairContext_ok first hc₁
      refine ⟨e₂, he₂, hnd, fun t ht => hl t (List.mem_cons_of_mem _ ht), hv.trans hv₂,
        hq₂.trans hq, ?_⟩
      intro t
      rw [hctx₂, hctx]
      rcases eq_or_ne t id with rfl | ht
      · rw [if_pos rfl, if_neg (by rintro (h | h); exacts [hid h, h hmem]), hc]
        rfl
      · rw [if_neg ht]
        simp [ht]
  · intro t
    split
    · rfl
    · rename_i ht
      rw [not_or, not_not, Std.TreeMap.mem_keys] at ht
      exact absurd ht.2 ht.1

/-- A context of the element after one of two or more remaining streams was
chosen as the publisher and the loop ran. -/
def retargeted (e : VideoForwardElement) (stream first id : Id) (sc : VideoSwitchContext) :
    VideoSwitchContext :=
  repaired stream first
    (if Fires e first ∧ id ≠ first ∧ sc.streamId ≠ first then
      { sc with changing := true, newStreamId := first } else sc)

theorem map_switchPublisher (e : VideoForwardElement) (stream first id : Id) :
    (e.switchPublisher first).videoSwitchContexts[id]?.map (Option.map (repaired stream first)) =
      e.videoSwitchContexts[id]?.map (Option.map (retargeted e stream first id)) := by
  rcases Decidable.em (Fires e first) with hf | hf
  · rw [switchPublisher_context hf]
    split
    · rename_i hid
      rcases e.videoSwitchContexts[id]? with - | - | sc
      · rfl
      · rfl
      · simp [retargeted, hid]
    · rename_i hid
      rcases e.videoSwitchContexts[id]? with - | - | sc
      · rfl
      · rfl
      · simp [retargeted, changeContext, hid, hf]
  · rw [switchPublisher_idle hf]
    rcases e.videoSwitchContexts[id]? with - | - | sc
    · rfl
    · rfl
    · simp [retargeted, hf]

/-- What `UnlinkVideoStream` does, from a state that satisfies the invariant. -/
inductive Unlinked (e : VideoForwardElement) (stream : Id) (e' : VideoForwardElement) : Prop
  | none (hsize : (e.eraseStream stream).videoQueues.size = 0)
      (he : e' = { e.eraseStream stream with currentViewer := -1 })
  | alone (hsize : (e.eraseStream stream).videoQueues.size = 1)
      (he : (e.eraseStream stream).showAlone (e.eraseStream stream).firstStreamId = .ok e')
  | many (hsize : 1 < (e.eraseStream stream).videoQueues.size)
      (hq : ∀ id, id ∈ e'.videoQueues ↔ id ∈ (e.eraseStream stream).videoQueues)
      (hcur : e'.currentViewer = (e.eraseStream stream).firstStreamId)
      (hnew : e'.newViewer = ((e.eraseStream stream).switchPublisher
        (e.eraseStream stream).firstStreamId).newViewer)
      (hch : e'.changing = true)
      (hctx : ∀ id : Id, e'.videoSwitchContexts[id]? =
        (e.eraseStream stream).videoSwitchContexts[id]?.map (Option.map
          (retargeted (e.eraseStream stream) stream (e.eraseStream stream).firstStreamId id)))

theorem unlinkVideoStream_unlinked (h : Contexts e) (stream : Id) :
    ∃ e', e.unlinkVideoStream stream = .ok e' ∧ Unlinked e stream e' := by
  have h₀ := h.eraseStream stream
  rw [unlinkVideoStream]
  simp only
  split
  · rename_i hsize
    exact ⟨_, rfl, .none hsize rfl⟩
  · rename_i hpos
    have hf := firstStreamId_mem hpos
    have hne : (e.eraseStream stream).firstStreamId ≠ -1 := fun hc => h₀.queue_id (hc ▸ hf)
    rw [if_pos hne]
    split
    · rename_i hsize
      obtain ⟨e', he', -⟩ := showAlone_spec h₀ hf
      exact ⟨e', he', .alone hsize he'⟩
    · rename_i hsize
      have hsw := h₀.switchPublisher hf
      obtain ⟨e', he', hv, hq, hctx⟩ := repairLoop_ok stream (e.eraseStream stream).firstStreamId
        (e := { (e.eraseStream stream).switchPublisher (e.eraseStream stream).firstStreamId with
          currentViewer := (e.eraseStream stream).firstStreamId, changing := true }) hsw.noNull
      refine ⟨e', he', .many (by omega) ?_ hv.current hv.new hv.changing ?_⟩
      · intro id
        rw [hq]
        exact switchPublisher_mem _ _ id
      · intro id
        rw [hctx]
        exact map_switchPublisher _ _ _ id

/-- The contexts that `UnlinkVideoStream` aims at the first stream. -/
def Redirected (e : VideoForwardElement) (stream first id : Id) (sc : VideoSwitchContext) : Prop :=
  sc.streamId = stream ∨ (Fires e first ∧ id ≠ first ∧ sc.streamId ≠ first)

instance (e : VideoForwardElement) (stream first id : Id) (sc : VideoSwitchContext) :
    Decidable (Redirected e stream first id sc) := inferInstanceAs (Decidable (_ ∨ _))

theorem retargeted_route (e : VideoForwardElement) (stream first id : Id)
    (sc : VideoSwitchContext) :
    (retargeted e stream first id sc).streamId = (if sc.streamId = stream then -1 else sc.streamId) ∧
    (retargeted e stream first id sc).newStreamId =
      (if Redirected e stream first id sc then first else sc.newStreamId) ∧
    (retargeted e stream first id sc).changing =
      (if Redirected e stream first id sc then true else sc.changing) := by
  rw [retargeted]
  rcases Decidable.em (Fires e first ∧ id ≠ first ∧ sc.streamId ≠ first) with hf | hf
  · have hr : Redirected e stream first id sc := Or.inr hf
    rw [if_pos hf, if_pos hr, if_pos hr, repaired]
    simp only
    split
    · exact ⟨rfl, rfl, rfl⟩
    · exact ⟨rfl, rfl, rfl⟩
  · have hr : Redirected e stream first id sc ↔ sc.streamId = stream :=
      ⟨fun h => h.resolve_right hf, Or.inl⟩
    simp only [if_neg hf, repaired, hr]
    split
    · exact ⟨rfl, rfl, rfl⟩
    · exact ⟨rfl, rfl, rfl⟩

theorem retargeted_targetSet {stream first id : Id} (hf : first ≠ -1) {sc : VideoSwitchContext}
    (h : TargetSet sc.streamId sc.newStreamId sc.changing) :
    TargetSet (retargeted e stream first id sc).streamId
      (retargeted e stream first id sc).newStreamId
      (retargeted e stream first id sc).changing := by
  obtain ⟨-, hn, hc⟩ := retargeted_route e stream first id sc
  rw [hn, hc]
  split
  · exact fun _ => hf
  · exact h

theorem Viewers.unlinked (h : Viewers e) {stream : Id} (hu : Unlinked e stream e') :
    Viewers e' := by
  have h₀ := h.toContexts.eraseStream stream
  cases hu with
  | none hsize he =>
      have hempty : ∀ id, id ∉ (e.eraseStream stream).videoQueues := by
        rw [← Std.TreeMap.isEmpty_iff_forall_not_mem, Std.TreeMap.isEmpty_eq_size_eq_zero]
        simpa using hsize
      subst he
      exact ⟨⟨h₀.context_mem, h₀.noNull, h₀.queue_id, h₀.new_mem, h₀.new_changing,
        h₀.target_set⟩, Or.inl ⟨rfl, hempty⟩⟩
  | alone hsize he =>
      obtain ⟨e₁, he₁, hv, -⟩ := showAlone_spec h₀ (firstStreamId_mem (by omega))
      rw [he] at he₁
      exact Except.ok.inj he₁ ▸ hv
  | many hsize hq hcur hnew hch hctx =>
      have hf := firstStreamId_mem (e := e.eraseStream stream) (by omega)
      have hne : (e.eraseStream stream).firstStreamId ≠ -1 := fun hc => h₀.queue_id (hc ▸ hf)
      have hsw := h₀.switchPublisher hf
      refine ⟨⟨?_, ?_, ?_, ?_, fun _ => hch, ?_⟩, Or.inr ?_⟩
      · intro id
        rw [hq, ← h₀.context_mem, Std.TreeMap.mem_iff_isSome_getElem?,
          Std.TreeMap.mem_iff_isSome_getElem?, hctx]
        simp
      · intro id hc
        rw [hctx] at hc
        obtain ⟨c, hc, hnone⟩ := Option.map_eq_some_iff.mp hc
        rcases c with - | sc
        · exact h₀.noNull id hc
        · cases hnone
      · rw [hq]
        exact h₀.queue_id
      · rw [hnew, hq]
        have hm := hsw.new_mem
        rw [switchPublisher_mem] at hm
        exact hm
      · intro id sc hsc
        rw [hctx] at hsc
        obtain ⟨c, hc, hmap⟩ := Option.map_eq_some_iff.mp hsc
        obtain ⟨sc₀, rfl, rfl⟩ := Option.map_eq_some_iff.mp hmap
        exact retargeted_targetSet hne (h₀.target_set id sc₀ hc)
      · rw [hcur, hq]
        exact hf

/-! ### Runs -/

/-- A step keeps the bookkeeping; the only way it stops is the assertion on the
base timestamp. -/
theorem step_viewers (asserts : Bool) (parse : Depacketizer) (h : Viewers e) (op : Op)
    (hop : op ≠ .linkVideoStream (-1)) :
    Outcome Viewers (BaseTsAssertion asserts) (e.step asserts parse op) := by
  cases op with
  | linkVideoStream s => exact h.linkVideoStream fun hs => hop (by rw [hs])
  | unlinkVideoStream s =>
      obtain ⟨e', he', hu⟩ := unlinkVideoStream_unlinked h.toContexts s
      show Outcome _ _ (e.unlinkVideoStream s)
      rw [he']
      exact h.unlinked hu
  | changeToSpeaker s now then' => exact h.changeToSpeaker s now then'
  | onIncomingPacket s p =>
      show Viewers (e.onIncomingPacket parse s p)
      rw [onIncomingPacket]
      split
      · exact h
      · rename_i b hb
        exact h.passed (passed_setVideoQueue (Std.TreeMap.getElem?_eq_some_iff.mp hb).1 _)
          (Or.inl ⟨rfl, rfl, rfl⟩)
  | requestSpeakerKeyFrame =>
      exact ⟨⟨h.context_mem, h.noNull, h.queue_id, h.new_mem, h.new_changing, h.target_set⟩,
        h.current_mem⟩
  | selectiveVideoForward =>
      apply (selectiveVideoForward_passed asserts parse h.noNull h.target_set).imp
      rintro e' ⟨hp, hv⟩
      exact h.passed hp hv

theorem run_viewers (asserts : Bool) (parse : Depacketizer) (ops : List Op)
    (hops : ∀ op ∈ ops, op ≠ .linkVideoStream (-1)) :
    Outcome Viewers (BaseTsAssertion asserts) (run asserts parse ops) :=
  Outcome.foldlM (fun _ h op hop => step_viewers asserts parse h op (hops op hop)) viewers_init

/-- The bookkeeping of the viewers. -/
structure Bookkeeping (e : VideoForwardElement) : Prop where
  current_none : e.currentViewer = -1 ↔ ∀ id, id ∉ e.videoQueues
  current_linked : e.currentViewer ≠ -1 → e.currentViewer ∈ e.videoQueues
  new_linked : e.newViewer = -1 ∨ e.newViewer ∈ e.videoQueues
  changing_target : ∀ (id : Id) (sc : VideoSwitchContext),
    e.videoSwitchContexts[id]? = some (some sc) → sc.changing = true → sc.newStreamId ≠ -1
  no_null : ∀ id : Id, e.videoSwitchContexts[id]? ≠ some none

theorem Viewers.bookkeeping (h : Viewers e) : Bookkeeping e where
  current_none := by
    constructor
    · intro hc id hid
      rcases h.current_mem with ⟨-, hnone⟩ | hmem
      · exact hnone id hid
      · rw [hc] at hmem
        exact h.queue_id hmem
    · intro hnone
      rcases h.current_mem with ⟨hc, -⟩ | hmem
      · exact hc
      · exact absurd hmem (hnone _)
  current_linked := fun hc => h.current_mem.resolve_left fun hn => hc hn.1
  new_linked := h.new_mem
  changing_target := h.target_set
  no_null := h.noNull

/-- The stream id an operation is called with. -/
def Op.streamId : Op → Option Id
  | .linkVideoStream s | .unlinkVideoStream s => some s
  | .changeToSpeaker s _ _ | .onIncomingPacket s _ => some s
  | .requestSpeakerKeyFrame | .selectiveVideoForward => none

/-- **Viewer bookkeeping.**  Over every run with stream ids other than -1 the
current and the new viewer are linked streams, a viewer that is changing has a
target and no context is null; the run never stops at a null pointer or at the
assertion of the changing phase. -/
theorem run_bookkeeping (asserts : Bool) (parse : Depacketizer) (ops : List Op)
    (hids : ∀ op ∈ ops, op.streamId ≠ some (-1)) :
    match run asserts parse ops with
    | .ok e => Bookkeeping e
    | .error f => asserts = true ∧ ∃ id, f = .baseTsUnset id := by
  have h := run_viewers asserts parse ops fun op hop hc => hids op hop (by rw [hc]; rfl)
  rcases hr : run asserts parse ops with f | e
  · rw [hr] at h
    exact h
  · rw [hr] at h
    exact Viewers.bookkeeping h

/-- A conference of three in which the speaker changes and the first one
leaves. -/
def speakerRun : List Op :=
  [.linkVideoStream 1, .linkVideoStream 2, .linkVideoStream 3,
    .onIncomingPacket 1 (vp8Packet 100 true), .selectiveVideoForward,
    .changeToSpeaker 2 10000 10000, .unlinkVideoStream 1, .selectiveVideoForward]

theorem run_bookkeeping_speaker :
    ((run true vp8 speakerRun).toOption.map fun e => e.currentViewer) = some 2 ∧
      match run true vp8 speakerRun with
      | .ok e => Bookkeeping e
      | .error f => true = true ∧ ∃ id, f = .baseTsUnset id :=
  ⟨by decide +kernel, run_bookkeeping true vp8 speakerRun (by decide)⟩

/-! ### Dangling targets -/

/-- The least linked stream other than the one that leaves. -/
def leastOther (e : VideoForwardElement) (stream : Id) : Id :=
  (e.videoQueues.erase stream).keys.head?.getD (-1)

/-- Every viewer that is about to be switched to the stream is redirected when
it leaves: at most one stream remains, or the viewer's source leaves as well, or
the least remaining stream becomes the publisher and is neither the viewer nor
its source. -/
def Redirects (e : VideoForwardElement) (stream : Id) : Prop :=
  stream = -1 ∨ (e.videoQueues.erase stream).size ≤ 1 ∨
    ∀ c ∈ e.videoSwitchContexts.toList, c.1 ≠ stream → ∀ sc ∈ c.2, sc.newStreamId = stream →
      Redirected e stream (e.leastOther stream) c.1 sc

instance (e : VideoForwardElement) (stream : Id) : Decidable (Redirects e stream) :=
  inferInstanceAs (Decidable (_ ∨ _ ∨ _))

theorem eraseStream_queues (e : VideoForwardElement) (stream : Id) :
    (e.eraseStream stream).videoQueues = e.videoQueues.erase stream := by
  rw [eraseStream]
  simp only
  split
  · rfl
  · rfl

theorem eraseStream_first (e : VideoForwardElement) (stream : Id) :
    (e.eraseStream stream).firstStreamId = e.leastOther stream := by
  rw [firstStreamId, eraseStream_queues]
  rfl

/-- Calling off the switch to the stream does not matter for the others. -/
theorem eraseStream_fires {stream p : Id} (hp : p ≠ -1) (hs : p ≠ stream) :
    Fires (e.eraseStream stream) p ↔ Fires e p := by
  unfold Fires eraseStream
  simp only
  split
  · rename_i hn
    simp [hp, hn.2, hs]
  · rfl

theorem eraseStream_redirected {stream first id : Id} {sc : VideoSwitchContext}
    (hp : first ≠ -1) (hs : first ≠ stream) :
    Redirected (e.eraseStream stream) stream first id sc ↔ Redirected e stream first id sc := by
  unfold Redirected
  rw [eraseStream_fires hp hs]

theorem eq_firstStreamId (h : e.videoQueues.size = 1) {id : Id} (hid : id ∈ e.videoQueues) :
    id = e.firstStreamId := by
  have hl := Std.TreeMap.length_keys (t := e.videoQueues)
  rw [h] at hl
  obtain ⟨a, ha⟩ := List.length_eq_one_iff.mp hl
  rw [← Std.TreeMap.mem_keys, ha, List.mem_singleton] at hid
  rw [firstStreamId, ha, hid]
  rfl

/-- The last stream leaves, and there is no viewer any more. -/
theorem targets_none (h : Viewers e) {stream : Id}
    (hsize : (e.eraseStream stream).videoQueues.size = 0) :
    Targets { e.eraseStream stream with currentViewer := -1 } := by
  intro id sc hsc
  have hid : id ∈ (e.eraseStream stream).videoQueues :=
    ((h.toContexts.eraseStream stream).context_mem id).mp
      (Std.TreeMap.getElem?_eq_some_iff.mp hsc).1
  have hempty : (e.eraseStream stream).videoQueues.isEmpty = true := by
    rw [Std.TreeMap.isEmpty_eq_size_eq_zero]
    simpa using hsize
  exact absurd hid (Std.TreeMap.isEmpty_iff_forall_not_mem.mp hempty id)

/-- The one stream that remains is shown to itself. -/
theorem targets_alone (h : Viewers e) {stream : Id}
    (hsize : (e.eraseStream stream).videoQueues.size = 1)
    (he : (e.eraseStream stream).showAlone (e.eraseStream stream).firstStreamId = .ok e') :
    Targets e' := by
  intro id sc hsc
  obtain ⟨e₁, he₁, hv, hq, hroute⟩ :=
    showAlone_spec (h.toContexts.eraseStream stream) (firstStreamId_mem (by omega))
  rw [he] at he₁
  obtain rfl := Except.ok.inj he₁
  have hid : id ∈ (e.eraseStream stream).videoQueues :=
    (hq id).mp ((hv.context_mem id).mp (Std.TreeMap.getElem?_eq_some_iff.mp hsc).1)
  obtain rfl := eq_firstStreamId hsize hid
  exact hroute sc hsc

theorem leastOther_spec (h : Viewers e) {stream : Id}
    (hsize : 0 < (e.eraseStream stream).videoQueues.size) :
    e.leastOther stream ∈ (e.eraseStream stream).videoQueues ∧ e.leastOther stream ≠ -1 ∧
      e.leastOther stream ≠ stream := by
  have hf := firstStreamId_mem (e := e.eraseStream stream) (by omega)
  rw [eraseStream_first] at hf
  refine ⟨hf, ?_, (mem_eraseStream.mp hf).1⟩
  intro hc
  exact (h.toContexts.eraseStream stream).queue_id (hc ▸ hf)

section

variable {stream : Id} (h : Viewers e) (hsize : 1 < (e.eraseStream stream).videoQueues.size)
  (hq : ∀ id, id ∈ e'.videoQueues ↔ id ∈ (e.eraseStream stream).videoQueues)
  (hctx : ∀ id : Id, e'.videoSwitchContexts[id]? =
    (e.eraseStream stream).videoSwitchContexts[id]?.map (Option.map
      (retargeted (e.eraseStream stream) stream (e.leastOther stream) id)))

include h hsize hq hctx

/-- A viewer that is not redirected is still aimed at the stream that left. -/
theorem redirects_of_targets (ht' : Targets e') : Redirects e stream := by
  obtain ⟨-, hne, hns⟩ := leastOther_spec h (Nat.lt_of_succ_lt hsize)
  have hgone : stream ∉ e'.videoQueues := by
    rw [hq, mem_eraseStream]
    exact fun hc => hc.1 rfl
  rcases eq_or_ne stream (-1) with hs | hs
  · exact Or.inl hs
  · refine Or.inr (Or.inr ?_)
    rintro ⟨id, c⟩ hc hid sc hsc hn
    obtain rfl := Option.mem_def.mp hsc
    rw [Std.TreeMap.mem_toList_iff_getElem?_eq_some] at hc
    by_contra hr
    rw [← eraseStream_redirected hne hns] at hr
    have hc' := hctx id
    rw [eraseStream_context, if_neg hid, hc] at hc'
    have hroute := (ht' id _ hc').2
    rw [(retargeted_route _ _ _ _ _).2.1, if_neg hr, hn] at hroute
    rcases hroute with hroute | hroute
    · exact hs hroute
    · exact hgone hroute

theorem targets_of_redirects (ht : Targets e) (hred : Redirects e stream) : Targets e' := by
  obtain ⟨hf, hne, hns⟩ := leastOther_spec h (Nat.lt_of_succ_lt hsize)
  intro id sc' hsc'
  rw [hctx] at hsc'
  obtain ⟨c, hc, hmap⟩ := Option.map_eq_some_iff.mp hsc'
  obtain ⟨sc, rfl, rfl⟩ := Option.map_eq_some_iff.mp hmap
  rw [eraseStream_context] at hc
  split at hc
  · cases hc
  · rename_i hid
    obtain ⟨hs, hn, -⟩ := retargeted_route (e.eraseStream stream) stream
      (e.leastOther stream) id sc
    obtain ⟨hold, holdn⟩ := ht id sc hc
    refine ⟨?_, ?_⟩
    · rw [hs]
      split
      · exact Or.inl rfl
      · rename_i hst
        apply hold.imp_right
        intro hm
        rw [hq, mem_eraseStream]
        exact ⟨hst, hm⟩
    · rw [hn]
      split
      · rw [hq]
        exact Or.inr hf
      · rename_i hr
        rw [eraseStream_redirected hne hns] at hr
        rcases holdn with hm | hm
        · exact Or.inl hm
        · -- the target is another stream, or the one that leaves
          rcases eq_or_ne sc.newStreamId stream with hst | hst
          · rw [hst]
            rcases hred with hred | hred | hred
            · exact Or.inl hred
            · rw [eraseStream_queues] at hsize
              omega
            · exact absurd (hred (id, some sc)
                (Std.TreeMap.mem_toList_iff_getElem?_eq_some.mpr hc) hid sc rfl hst) hr
          · right
            rw [hq, mem_eraseStream]
            exact ⟨hst, hm⟩

end

/-- A stream leaves: no target dangles afterwards iff everybody who was about to
be switched to it is redirected. -/
theorem unlinked_targets (h : Viewers e) (ht : Targets e) {stream : Id}
    (hu : Unlinked e stream e') : Targets e' ↔ Redirects e stream := by
  cases hu with
  | none hsize he =>
      subst he
      refine ⟨fun _ => Or.inr (Or.inl ?_), fun _ => targets_none h hsize⟩
      rw [eraseStream_queues] at hsize
      omega
  | alone hsize he =>
      refine ⟨fun _ => Or.inr (Or.inl ?_), fun _ => targets_alone h hsize he⟩
      rw [eraseStream_queues] at hsize
      omega
  | many hsize hq hcur hnew hch hctx =>
      rw [eraseStream_first] at hctx
      exact ⟨redirects_of_targets h hsize hq hctx, targets_of_redirects h hsize hq hctx ht⟩

/-- The condition on a step under which no target dangles after it. -/
def Aims (e : VideoForwardElement) : Op → Prop
  | .linkVideoStream s => s ≠ -1
  | .unlinkVideoStream s => Redirects e s
  | _ => True

instance (e : VideoForwardElement) : ∀ op, Decidable (Aims e op)
  | .linkVideoStream s => inferInstanceAs (Decidable (s ≠ -1))
  | .unlinkVideoStream s => inferInstanceAs (Decidable (Redirects e s))
  | .changeToSpeaker _ _ _ => isTrue trivial
  | .onIncomingPacket _ _ => isTrue trivial
  | .requestSpeakerKeyFrame => isTrue trivial
  | .selectiveVideoForward => isTrue trivial

theorem step_targets (asserts : Bool) (parse : Depacketizer) (h : Viewers e) (ht : Targets e)
    (op : Op) (hop : Aims e op) :
    Outcome (fun e' => Viewers e' ∧ Targets e') (BaseTsAssertion asserts)
      (e.step asserts parse op) := by
  have hv := step_viewers asserts parse h op (by rintro rfl; exact hop rfl)
  cases op with
  | linkVideoStream s => exact ⟨hv, ht.linkVideoStream h hop⟩
  | unlinkVideoStream s =>
      obtain ⟨e', he', hu⟩ := unlinkVideoStream_unlinked h.toContexts s
      show Outcome _ _ (e.unlinkVideoStream s)
      rw [he']
      exact ⟨h.unlinked hu, (unlinked_targets h ht hu).mpr hop⟩
  | changeToSpeaker s now then' => exact ⟨hv, ht.changeToSpeaker s now then'⟩
  | onIncomingPacket s p =>
      refine ⟨hv, ?_⟩
      show Targets (e.onIncomingPacket parse s p)
      rw [onIncomingPacket]
      split
      · exact ht
      · rename_i b hb
        exact ht.passed (passed_setVideoQueue (Std.TreeMap.getElem?_eq_some_iff.mp hb).1 _)
  | requestSpeakerKeyFrame => exact ⟨hv, ht⟩
  | selectiveVideoForward =>
      apply (selectiveVideoForward_passed asserts parse h.noNull h.target_set).imp
      rintro e' ⟨hp, hsame⟩
      exact ⟨h.passed hp hsame, ht.passed hp⟩

/-- **No dangling switch target.**  In every state reached by a run whose steps
meet the condition, the source and the next source of every context are linked
streams, if they are set. -/
theorem run_targets_linked (asserts : Bool) (parse : Depacketizer) (ops : List Op)
    (hops : AllSteps (step asserts parse) Aims init ops) (pre post : List Op)
    (hpre : ops = pre ++ post) (e : VideoForwardElement) (he : run asserts parse pre = .ok e)
    (id : Id) (sc : VideoSwitchContext) (hsc : e.videoSwitchContexts[id]? = some (some sc)) :
    (sc.streamId = -1 ∨ sc.streamId ∈ e.videoQueues) ∧
      (sc.newStreamId = -1 ∨ sc.newStreamId ∈ e.videoQueues) := by
  subst hpre
  have hrun := hops.left.outcome (P := fun e => Viewers e ∧ Targets e)
    (E := BaseTsAssertion asserts)
    (fun e op h hop => step_targets asserts parse h.1 h.2 op hop) ⟨viewers_init, targets_init⟩
  change Outcome _ _ (run asserts parse pre) at hrun
  rw [he] at hrun
  exact hrun.2 id sc hsc

/-- The run of three: viewer 2 looks at 2 when 1 leaves. -/
theorem run_targets_linked_speaker :
    AllSteps (step true vp8) Aims init speakerRun ∧
      ∃ e, run true vp8 speakerRun = .ok e ∧
        ∃ sc, e.videoSwitchContexts[(3 : Id)]? = some (some sc) ∧
          (sc.streamId = -1 ∨ sc.streamId ∈ e.videoQueues) ∧
          (sc.newStreamId = -1 ∨ sc.newStreamId ∈ e.videoQueues) := by
  have hops : AllSteps (step true vp8) Aims init speakerRun := by decide +kernel
  refine ⟨hops, ?_⟩
  have hctx : ((run true vp8 speakerRun).toOption.bind
      fun e => e.videoSwitchContexts[(3 : Id)]?.join).isSome = true := by decide +kernel
  rcases he : run true vp8 speakerRun with f | e
  · rw [he] at hctx
    cases hctx
  · rw [he] at hctx
    obtain ⟨sc, hsc⟩ := Option.isSome_iff_exists.mp hctx
    have hsc' : e.videoSwitchContexts[(3 : Id)]? = some (some sc) := Option.join_eq_some_iff.mp hsc
    exact ⟨e, rfl, sc, hsc', run_targets_linked true vp8 speakerRun hops speakerRun [] (by simp) e he
      3 sc hsc'⟩

/-- Three participants, the third one is asked for and leaves before its key
frame. -/
def leavingRun : List Op :=
  [.linkVideoStream 1, .linkVideoStream 2, .linkVideoStream 3, .changeToSpeaker 3 10000 10000,
    .unlinkVideoStream 3]

/-- The other two wait for a stream that is gone. -/
theorem unlink_leaves_a_target :
    ∃ e, run true vp8 leavingRun = .ok e ∧
      ∃ sc, e.videoSwitchContexts[(1 : Id)]? = some (some sc) ∧
        ¬ (sc.newStreamId = -1 ∨ sc.newStreamId ∈ e.videoQueues) := by
  have hctx : ((run true vp8 leavingRun).toOption.map fun e =>
      (e.videoSwitchContexts[(1 : Id)]?.map fun c => c.map fun sc => sc.newStreamId,
        e.videoQueues.contains 3)) = some (some (some 3), false) := by decide +kernel
  rcases he : run true vp8 leavingRun with f | e
  · rw [he] at hctx
    cases hctx
  · rw [he] at hctx
    obtain ⟨hc, hq⟩ := Prod.mk.inj (Option.some.inj hctx)
    obtain ⟨c, hc, hmap⟩ := Option.map_eq_some_iff.mp hc
    obtain ⟨sc, rfl, hn⟩ := Option.map_eq_some_iff.mp hmap
    refine ⟨e, rfl, sc, hc, ?_⟩
    rw [hn]
    rintro (h | h)
    · exact absurd h (by decide)
    · rw [Std.TreeMap.mem_iff_contains, hq] at h
      cases h

end VideoForwardElement

end Orbit
