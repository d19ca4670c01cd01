/-
OrbitStream/ForwardNewAgree.lean

The queues of the new forwarding element agree with its viewing graph, and the
listeners never touch a null pointer.

The flags of a queue are driven only by the events of the change detectors.
`notify s` is what one event does to the queue of `s`; folding it over the
events of a detector turns flags that describe the old graph into flags that
describe the new one (`detect_enabled`, `detect_hasLooker`).  The invariant
`Agree` is what every operation starts from and restores.

A source change is reported from inside `SetPrepared`, which only a queue that
is enabled and starts with a key frame calls; that is why the listener finds a
packet (`listen_switches`).
-/
import OrbitStream.Lib.Run
import OrbitStream.ForwardNew
import OrbitStream.VideoMapGraph

namespace Orbit

open Lib

/-! ### What the detectors report -/

namespace VideoMap

theorem mem_detect_enabled {old now : VideoMap} {s : Id} :
    Event.enabled s ∈ detect old now ↔ s ∈ now.allNode ∧ 0 < now.getLookerCount s ∧
      (s ∉ old.allNode ∨ old.getLookerCount s = 0) := by
  simp [detect, enabledDetect, disabledDetect, hasLookerDetect, noLookerDetect, contains]

theorem mem_detect_disabled {old now : VideoMap} {s : Id} :
    Event.disabled s ∈ detect old now ↔ s ∈ old.allNode ∧ old.getLookerCount s ≠ 0 ∧
      (s ∉ now.allNode ∨ now.getLookerCount s = 0) := by
  simp [detect, enabledDetect, disabledDetect, hasLookerDetect, noLookerDetect, contains]

theorem mem_detect_hasLooker {old now : VideoMap} {s : Id} :
    Event.hasLooker s ∈ detect old now ↔ s ∈ now.allNode ∧ now.hasCurLooker s = true ∧
      (s ∉ old.allNode ∨ old.hasCurLooker s = false) := by
  simp [detect, enabledDetect, disabledDetect, hasLookerDetect, noLookerDetect, contains]

theorem mem_detect_noLooker {old now : VideoMap} {s : Id} :
    Event.noLooker s ∈ detect old now ↔ s ∈ old.allNode ∧ old.hasCurLooker s = true ∧
      s ∈ now.allNode ∧ now.hasCurLooker s = false := by
  simp [detect, enabledDetect, disabledDetect, hasLookerDetect, noLookerDetect, contains]

theorem detect_srcChanged {old now : VideoMap} {v s : Id} :
    Event.srcChanged v s ∉ detect old now := by
  simp [detect, enabledDetect, disabledDetect, hasLookerDetect, noLookerDetect]

/-- The stream an event is about, for the events that touch its queue. -/
def Event.queueId : Event → Option Id
  | .enabled s | .disabled s | .hasLooker s | .noLooker s => some s
  | .prepare _ | .srcChanged _ _ => none

/-- An event that is not a source change. -/
def Event.Plain : Event → Prop
  | .srcChanged _ _ => False
  | _ => True

theorem detect_plain {old now : VideoMap} : ∀ ev ∈ detect old now, ev.Plain := by
  intro ev hev
  cases ev with
  | srcChanged v s => exact absurd hev detect_srcChanged
  | _ => trivial

theorem detect_queueId {old now : VideoMap} {ev : Event} {s : Id} (hev : ev ∈ detect old now)
    (hs : ev.queueId = some s) : s ∈ old.allNode ∨ s ∈ now.allNode := by
  cases ev with
  | prepare _ => cases hs
  | srcChanged _ _ => cases hs
  | enabled _ =>
      obtain rfl := Option.some.inj hs
      exact Or.inr (mem_detect_enabled.mp hev).1
  | disabled _ =>
      obtain rfl := Option.some.inj hs
      exact Or.inl (mem_detect_disabled.mp hev).1
  | hasLooker _ =>
      obtain rfl := Option.some.inj hs
      exact Or.inr (mem_detect_hasLooker.mp hev).1
  | noLooker _ =>
      obtain rfl := Option.some.inj hs
      exact Or.inl (mem_detect_noLooker.mp hev).1

theorem mem_switching {vm : VideoMap} {s v : Id} {ns : List Id} :
    v ∈ vm.switching s ns ↔ v ∈ ns ∧ vm.expectedSrc v = some s ∧ vm.src v ≠ some s := by
  rw [switching, List.mem_filter, decide_eq_true_eq]

theorem switching_nodup (vm : VideoMap) (s : Id) :
    (vm.switching s vm.allNode.toList).Nodup :=
  (treeSet_toList_nodup vm.allNode).filter _

/-- The calls of an operation other than `SetPrepared`: some prepare requests,
then the edges. -/
def Reports (vm : VideoMap) (r : VideoMap × List Event) : Prop :=
  ∃ evs, r.2 = evs ++ detect vm r.1 ∧ ∀ ev ∈ evs, ∃ x, ev = Event.prepare x

theorem add_reports {vm : VideoMap} {id : Id} (hid : id ∉ vm.allNode) :
    Reports vm (vm.add id) := by
  rw [add]
  rw [if_neg (by simpa [contains] using hid)]
  simp only
  split
  · exact ⟨[_], rfl, by simp⟩
  · split
    · exact ⟨[_, _], rfl, by simp⟩
    · exact ⟨[_], rfl, by simp⟩

theorem remove_reports {vm : VideoMap} {id : Id} (hid : id ∈ vm.allNode) :
    Reports vm (vm.remove id) := by
  rw [remove]
  rw [if_pos (contains_iff.mpr hid)]
  by_cases hlast : (vm.allNode.erase id).isEmpty = true
  · simp only [hlast, if_true]
    exact ⟨[], rfl, by simp⟩
  · simp only [hlast, if_false, Bool.false_eq_true]
    refine ⟨_, rfl, ?_⟩
    split
    · simp [removeMaster]
    · simp [removeOther]

theorem setMaster_reports {vm : VideoMap} {id : Id} (hid : id ∈ vm.allNode)
    (hne : id ≠ vm.master) : Reports vm (vm.setMaster id) := by
  rw [setMaster]
  rw [if_pos (contains_iff.mpr hid), if_neg hne]
  refine ⟨_, rfl, ?_⟩
  split <;> simp

end VideoMap

/-! ### What an event does to a queue -/

namespace VideoFrameQueue

open VideoMap

/-- The effect of one event on the queue of `s`. -/
def notify (s : Id) (q : VideoFrameQueue) : Event → VideoFrameQueue
  | .enabled id => if id = s then q.enable else q
  | .disabled id => if id = s then q.disable else q
  | .hasLooker id => if id = s then q.setHasLooker true else q
  | .noLooker id => if id = s then q.setHasLooker false else q
  | .prepare _ | .srcChanged _ _ => q

theorem notify_id (s : Id) (q : VideoFrameQueue) (ev : Event) : (q.notify s ev).id = q.id := by
  cases ev <;> simp only [notify] <;> first | rfl | split <;> first | rfl | skip
  rw [disable]
  split <;> rfl

theorem notify_enabled (s : Id) (q : VideoFrameQueue) (ev : Event) :
    (q.notify s ev).enabled =
      if ev = .enabled s then true else if ev = .disabled s then false else q.enabled := by
  cases ev with
  | enabled id => by_cases h : id = s <;> simp [notify, h, enable]
  | disabled id =>
      by_cases h : id = s
      · by_cases hq : q.enabled = true <;> simp [notify, h, disable, hq]
      · simp [notify, h]
  | hasLooker id => by_cases h : id = s <;> simp [notify, h, setHasLooker]
  | noLooker id => by_cases h : id = s <;> simp [notify, h, setHasLooker]
  | prepare id => simp [notify]
  | srcChanged v id => simp [notify]

theorem notify_hasLooker (s : Id) (q : VideoFrameQueue) (ev : Event) :
    (q.notify s ev).hasLooker =
      if ev = .hasLooker s then true else if ev = .noLooker s then false else q.hasLooker := by
  cases ev with
  | enabled id => by_cases h : id = s <;> simp [notify, h, enable]
  | disabled id =>
      by_cases h : id = s
      · by_cases hq : q.enabled = true <;> simp [notify, h, disable, hq]
      · simp [notify, h]
  | hasLooker id => by_cases h : id = s <;> simp [notify, h, setHasLooker]
  | noLooker id => by_cases h : id = s <;> simp [notify, h, setHasLooker]
  | prepare id => simp [notify]
  | srcChanged v id => simp [notify]

/-- Only a disabling event touches the packets. -/
theorem notify_frames (s : Id) (q : VideoFrameQueue) (ev : Event) :
    (q.notify s ev).frames = q.frames ∨
      (ev = .disabled s ∧ (q.notify s ev).frames = ∅) := by
  cases ev with
  | disabled id =>
      by_cases h : id = s
      · by_cases hq : q.enabled = true
        · right; simp [notify, h, disable, hq]
        · left; simp [notify, h, disable, hq]
      · left; simp [notify, h]
  | enabled id => left; by_cases h : id = s <;> simp [notify, h, enable]
  | hasLooker id => left; by_cases h : id = s <;> simp [notify, h, setHasLooker]
  | noLooker id => left; by_cases h : id = s <;> simp [notify, h, setHasLooker]
  | prepare id => left; rfl
  | srcChanged v id => left; rfl

theorem foldl_notify_id (s : Id) (evs : List Event) (q : VideoFrameQueue) :
    (evs.foldl (notify s) q).id = q.id := by
  induction evs generalizing q with
  | nil => rfl
  | cons ev evs ih => rw [List.foldl_cons, ih, notify_id]

theorem foldl_notify_frames (s : Id) (evs : List Event) (q : VideoFrameQueue) :
    (evs.foldl (notify s) q).frames = q.frames ∨
      (Event.disabled s ∈ evs ∧ (evs.foldl (notify s) q).frames = ∅) := by
  induction evs generalizing q with
  | nil => exact Or.inl rfl
  | cons ev evs ih =>
      rw [List.foldl_cons]
      rcases ih (q.notify s ev) with h | ⟨hm, h⟩
      · rcases notify_frames s q ev with h' | ⟨rfl, h'⟩
        · exact Or.inl (h.trans h')
        · exact Or.inr ⟨List.mem_cons_self, h.trans h'⟩
      · exact Or.inr ⟨List.mem_cons_of_mem _ hm, h⟩

theorem drives_enabled (s : Id) :
    Drives (notify s) enabled (Event.enabled s) (Event.disabled s) :=
  fun q ev => notify_enabled s q ev

theorem drives_hasLooker (s : Id) :
    Drives (notify s) hasLooker (Event.hasLooker s) (Event.noLooker s) :=
  fun q ev => notify_hasLooker s q ev

theorem foldl_notify_prepare (s : Id) {evs : List Event}
    (h : ∀ ev ∈ evs, ∃ x, ev = Event.prepare x) (q : VideoFrameQueue) :
    evs.foldl (notify s) q = q := by
  induction evs generalizing q with
  | nil => rfl
  | cons ev evs ih =>
      obtain ⟨x, rfl⟩ := h ev List.mem_cons_self
      exact ih (fun ev' h' => h ev' (List.mem_cons_of_mem _ h')) q

/-- The queue of `s` has the flags the graph prescribes; the queue of a stream
that is not in the graph has none. -/
structure FlagsOf (vm : VideoMap) (s : Id) (q : VideoFrameQueue) : Prop where
  enabled : q.enabled = true ↔ s ∈ vm.allNode ∧ 0 < vm.getLookerCount s
  hasLooker : q.hasLooker = true ↔ s ∈ vm.allNode ∧ vm.hasCurLooker s = true

/-- The events of a change detector carry the flags over. -/
theorem detect_flags {old now : VideoMap} {s : Id} (hs : s ∈ now.allNode)
    {q : VideoFrameQueue} (h : FlagsOf old s q) :
    FlagsOf now s ((detect old now).foldl (notify s) q) := by
  constructor
  · refine (drives_enabled s).foldl_follows ?_ ?_ h.enabled
    · rw [mem_detect_enabled]
      simp only [Nat.pos_iff_ne_zero]
      tauto
    · rw [mem_detect_disabled]
      simp only [Nat.pos_iff_ne_zero]
      tauto
  · refine (drives_hasLooker s).foldl_follows ?_ ?_ h.hasLooker
    · rw [mem_detect_hasLooker, ← Bool.not_eq_true]
      tauto
    · rw [mem_detect_noLooker, ← Bool.not_eq_true]
      tauto

end VideoFrameQueue

/-! ### Running the listeners -/

namespace VideoForwardElementNew

open VideoMap VideoFrameQueue

/-- `e'` is `e` after plain events: the queues were notified, FIRs were sent. -/
structure Notified (e : VideoForwardElementNew) (evs : List Event)
    (e' : VideoForwardElementNew) : Prop where
  mapper : e'.videoMapper = e.videoMapper
  contexts : e'.videoSwitchContexts = e.videoSwitchContexts
  queue : ∀ s, e'.queueMap[s]? = e.queueMap[s]?.map fun q => evs.foldl (notify s) q
  log : ∃ l, e'.log = e.log ++ l ∧ ∀ o ∈ l, ∃ s n, o = Out.fir s n

theorem withQueue_notified {e : VideoForwardElementNew} {s : Id} (hs : s ∈ e.queueMap)
    {f : VideoFrameQueue → VideoFrameQueue} {ev : Event}
    (hf : ∀ q : VideoFrameQueue, q.notify s ev = f q)
    (hne : ∀ (t : Id) (q : VideoFrameQueue), t ≠ s → q.notify t ev = q) :
    ∃ e', e.withQueue s f = .ok e' ∧ Notified e [ev] e' := by
  rcases hq : e.queueMap[s]? with - | q
  · rw [Std.TreeMap.mem_iff_isSome_getElem?, hq] at hs
    cases hs
  · refine ⟨{ e with queueMap := e.queueMap.insert s (f q) }, by rw [withQueue, hq], rfl, rfl,
      ?_, [], by simp, by simp⟩
    intro t
    show (e.queueMap.insert s (f q))[t]? = _
    rw [Std.TreeMap.getElem?_insert]
    by_cases ht : s = t
    · subst ht
      simp [hq, hf]
    · have ht' : t ≠ s := fun h => ht h.symm
      have hkeep : (fun q => [ev].foldl (notify t) q) = fun q => q :=
        funext fun q' => hne t q' ht'
      rw [hkeep]
      simp [ht]

theorem listen_notified {e : VideoForwardElementNew} {ev : Event} (hp : ev.Plain)
    (hq : ∀ s, ev.queueId = some s → s ∈ e.queueMap) :
    ∃ e', e.listen ev = .ok e' ∧ Notified e [ev] e' := by
  cases ev with
  | srcChanged v s => exact absurd hp id
  | prepare id =>
      refine ⟨e.sendFir id, rfl, rfl, rfl, ?_, [_], rfl, ?_⟩
      · intro s
        show e.queueMap[s]? = _
        rcases e.queueMap[s]? with - | q <;> rfl
      · intro o ho
        exact ⟨_, _, List.mem_singleton.mp ho⟩
  | enabled id =>
      exact withQueue_notified (hq id rfl) (by simp [notify])
        fun t q ht => by simp [notify, ht.symm]
  | disabled id =>
      exact withQueue_notified (hq id rfl) (by simp [notify])
        fun t q ht => by simp [notify, ht.symm]
  | hasLooker id =>
      exact withQueue_notified (hq id rfl) (by simp [notify])
        fun t q ht => by simp [notify, ht.symm]
  | noLooker id =>
      exact withQueue_notified (hq id rfl) (by simp [notify])
        fun t q ht => by simp [notify, ht.symm]

theorem Notified.mem_queueMap {e e' : VideoForwardElementNew} {evs : List Event}
    (h : Notified e evs e') (s : Id) : s ∈ e'.queueMap ↔ s ∈ e.queueMap := by
  rw [Std.TreeMap.mem_iff_isSome_getElem?, Std.TreeMap.mem_iff_isSome_getElem?, h.queue]
  simp

theorem Notified.trans {e e₁ e₂ : VideoForwardElementNew} {evs₁ evs₂ : List Event}
    (h₁ : Notified e evs₁ e₁) (h₂ : Notified e₁ evs₂ e₂) :
    Notified e (evs₁ ++ evs₂) e₂ := by
  refine ⟨h₂.mapper.trans h₁.mapper, h₂.contexts.trans h₁.contexts, ?_, ?_⟩
  · intro s
    rw [h₂.queue, h₁.queue, Option.map_map]
    congr 1
    funext q
    show _ = (evs₁ ++ evs₂).foldl (notify s) q
    rw [List.foldl_append]
    rfl
  · obtain ⟨l₁, hl₁, ho₁⟩ := h₁.log
    obtain ⟨l₂, hl₂, ho₂⟩ := h₂.log
    refine ⟨l₁ ++ l₂, by rw [hl₂, hl₁, List.append_assoc], ?_⟩
    intro o ho
    rcases List.mem_append.mp ho with h | h
    · exact ho₁ o h
    · exact ho₂ o h

theorem Notified.refl (e : VideoForwardElementNew) : Notified e [] e :=
  ⟨rfl, rfl, fun s => by simp, [], by simp, by simp⟩

/-- Plain events about streams that have a queue are all handled. -/
theorem listen_plain {e : VideoForwardElementNew} (evs : List Event)
    (hp : ∀ ev ∈ evs, ev.Plain)
    (hq : ∀ ev ∈ evs, ∀ s, ev.queueId = some s → s ∈ e.queueMap) :
    ∃ e', evs.foldlM listen e = .ok e' ∧ Notified e evs e' := by
  induction evs generalizing e with
  | nil => exact ⟨e, rfl, Notified.refl e⟩
  | cons ev evs ih =>
      obtain ⟨e₁, he₁, hn₁⟩ := listen_notified (hp ev List.mem_cons_self)
        (hq ev List.mem_cons_self)
      obtain ⟨e₂, he₂, hn₂⟩ := ih (e := e₁) (fun ev' h => hp ev' (List.mem_cons_of_mem _ h))
        fun ev' h s hs => (hn₁.mem_queueMap s).mpr (hq ev' (List.mem_cons_of_mem _ h) s hs)
      refine ⟨e₂, ?_, hn₁.trans hn₂⟩
      rw [List.foldlM_cons, he₁]
      exact he₂

/-- `e'` is `e` after the viewers `vs` switched to the packet `f` on top of the queue
`q` of `s`. -/
structure Rebased (e : VideoForwardElementNew) (s : Id) (q : VideoFrameQueue) (f : VideoFrame)
    (vs : List Id) (e' : VideoForwardElementNew) : Prop where
  mapper : e'.videoMapper = e.videoMapper
  queueMap : e'.queueMap = e.queueMap
  contexts : ∀ n, e'.videoSwitchContexts[n]? =
    if n ∈ vs then e.videoSwitchContexts[n]?.map (·.rebase f.seq f.ts)
    else e.videoSwitchContexts[n]?
  log : e'.log = e.log ++ vs.map fun v => Out.srcChanged v s q f

theorem onSrcChanged_rebased {e : VideoForwardElementNew} {v s : Id} {q : VideoFrameQueue}
    {f : VideoFrame} (hq : e.queueMap[s]? = some q) (hf : q.topPacket = some f)
    (hv : v ∈ e.videoSwitchContexts) :
    ∃ e', e.onSrcChanged v s = .ok e' ∧ Rebased e s q f [v] e' := by
  rcases hsc : e.videoSwitchContexts[v]? with - | sc
  · rw [Std.TreeMap.mem_iff_isSome_getElem?, hsc] at hv
    cases hv
  · refine ⟨{ e with videoSwitchContexts :=
      e.videoSwitchContexts.insert v (sc.rebase f.seq f.ts) }.emit (.srcChanged v s q f),
      by simp only [onSrcChanged, hq, hf, hsc], rfl, rfl, ?_, rfl⟩
    intro n
    show (e.videoSwitchContexts.insert v (sc.rebase f.seq f.ts))[n]? = _
    rw [Std.TreeMap.getElem?_insert]
    by_cases hn : n = v
    · simp [hn, hsc]
    · have hn' : ¬ v = n := fun h => hn h.symm
      simp [hn, hn']

/-- The source change of every viewer in a list of distinct viewers is handled. -/
theorem listen_switches {e : VideoForwardElementNew} {s : Id} {q : VideoFrameQueue}
    {f : VideoFrame} (hq : e.queueMap[s]? = some q) (hf : q.topPacket = some f)
    {vs : List Id} (hnd : vs.Nodup) (hvs : ∀ v ∈ vs, v ∈ e.videoSwitchContexts) :
    ∃ e', (vs.map (Event.srcChanged · s)).foldlM listen e = .ok e' ∧ Rebased e s q f vs e' := by
  induction vs generalizing e with
  | nil => exact ⟨e, rfl, rfl, rfl, fun n => by simp, by simp⟩
  | cons v vs ih =>
      obtain ⟨hv, hnd⟩ := List.nodup_cons.mp hnd
      obtain ⟨e₁, he₁, h₁⟩ := onSrcChanged_rebased hq hf (hvs v List.mem_cons_self)
      -- the contexts of the other viewers are still there
      obtain ⟨e₂, he₂, h₂⟩ := ih (e := e₁) (h₁.queueMap ▸ hq) hnd (by
        intro w hw
        rw [Std.TreeMap.mem_iff_isSome_getElem?, h₁.contexts,
          if_neg (by rw [List.mem_singleton]; rintro rfl; exact hv hw),
          ← Std.TreeMap.mem_iff_isSome_getElem?]
        exact hvs w (List.mem_cons_of_mem _ hw))
      refine ⟨e₂, ?_, h₂.mapper.trans h₁.mapper, h₂.queueMap.trans h₁.queueMap, ?_, ?_⟩
      · rw [List.map_cons, List.foldlM_cons]
        show (e.onSrcChanged v s >>= _) = _
        rw [he₁]
        exact he₂
      · intro n
        rw [h₂.contexts, h₁.contexts]
        by_cases hn : n = v
        · subst hn
          simp [hv]
        · simp [hn]
      · rw [h₂.log, h₁.log]
        simp

/-! ### The invariant -/

/-- What holds between two operations: the queues, the contexts and the graph
are about the same streams, the flags of the queues describe the graph, and
every source change so far was served from an enabled queue with a key frame on
top. -/
structure Agree (e : VideoForwardElementNew) : Prop where
  graph : Graph e.videoMapper
  queue_mem : ∀ s, s ∈ e.queueMap ↔ s ∈ e.videoMapper.allNode
  context_mem : ∀ s, s ∈ e.videoSwitchContexts ↔ s ∈ e.videoMapper.allNode
  queue_id : ∀ {s : Id} {q : VideoFrameQueue}, e.queueMap[s]? = some q → q.id = s
  flags : ∀ {s : Id} {q : VideoFrameQueue}, e.queueMap[s]? = some q → FlagsOf e.videoMapper s q
  safe : ∀ {v s q f}, Out.srcChanged v s q f ∈ e.log →
    q.id = s ∧ q.enabled = true ∧ q.topPacket = some f ∧ f.isKeyframe = true

theorem agree_init : Agree init where
  graph := graph_init
  queue_mem := by simp [init, VideoMap.init]
  context_mem := by simp [init, VideoMap.init]
  queue_id := by intro s q h; simp [init] at h
  flags := by intro s q h; simp [init] at h
  safe := by intro v s q f h; simp [init] at h

theorem Agree.mem_of_queue {e : VideoForwardElementNew} (h : Agree e) {s : Id}
    {q : VideoFrameQueue} (hq : e.queueMap[s]? = some q) : s ∈ e.videoMapper.allNode :=
  (h.queue_mem s).mp (Std.TreeMap.getElem?_eq_some_iff.mp hq).1

/-- Running the calls of an operation: every queue of the new graph gets the
flags of the new graph. -/
theorem listen_reports {e : VideoForwardElementNew} {vm : VideoMap}
    {r : VideoMap × List Event} (hr : Reports vm r)
    (hmem : ∀ s, s ∈ vm.allNode ∨ s ∈ r.1.allNode → s ∈ e.queueMap)
    (hid : ∀ {s : Id} {q : VideoFrameQueue}, e.queueMap[s]? = some q → q.id = s)
    (hflags : ∀ {s : Id} {q : VideoFrameQueue}, e.queueMap[s]? = some q → FlagsOf vm s q) :
    ∃ e', r.2.foldlM listen e = .ok e' ∧ Notified e r.2 e' ∧
      (∀ {s : Id} {q : VideoFrameQueue}, e'.queueMap[s]? = some q → q.id = s) ∧
      ∀ {s : Id} {q : VideoFrameQueue}, s ∈ r.1.allNode → e'.queueMap[s]? = some q →
        FlagsOf r.1 s q := by
  obtain ⟨evs, hevs, hprep⟩ := hr
  -- requests to prepare touch no queue, and the others are about nodes of the two graphs
  obtain ⟨e', he', hn⟩ := listen_plain (e := e) r.2
    (by
      intro ev hev
      rw [hevs] at hev
      rcases List.mem_append.mp hev with h | h
      · obtain ⟨x, rfl⟩ := hprep ev h
        trivial
      · exact detect_plain ev h)
    (by
      intro ev hev s hs
      rw [hevs] at hev
      rcases List.mem_append.mp hev with h | h
      · obtain ⟨x, rfl⟩ := hprep ev h
        cases hs
      · exact hmem s (detect_queueId h hs))
  refine ⟨e', he', hn, ?_, ?_⟩
  · intro s q hq
    rw [hn.queue] at hq
    obtain ⟨q₀, hq₀, rfl⟩ := Option.map_eq_some_iff.mp hq
    rw [foldl_notify_id]
    exact hid hq₀
  · intro s q hs hq
    rw [hn.queue] at hq
    obtain ⟨q₀, hq₀, rfl⟩ := Option.map_eq_some_iff.mp hq
    rw [hevs, List.foldl_append, foldl_notify_prepare s hprep]
    exact detect_flags hs (hflags hq₀)

theorem Notified.safe {e e' : VideoForwardElementNew} {evs : List Event}
    (h : Notified e evs e') {v s : Id} {q : VideoFrameQueue} {f : VideoFrame}
    (hm : Out.srcChanged v s q f ∈ e'.log) : Out.srcChanged v s q f ∈ e.log := by
  obtain ⟨l, hl, hfir⟩ := h.log
  rw [hl] at hm
  rcases List.mem_append.mp hm with h | h
  · exact h
  · obtain ⟨_, _, h⟩ := hfir _ h
    cases h

/-- What has to be shown of an operation whose calls have all returned. -/
theorem Notified.agree {e e' : VideoForwardElementNew} {evs : List Event} {vm : VideoMap}
    (hn : Notified e evs e') (hmap : e.videoMapper = vm) (hg : Graph vm)
    (hqueue : ∀ s, s ∈ e.queueMap ↔ s ∈ vm.allNode)
    (hcontext : ∀ s, s ∈ e.videoSwitchContexts ↔ s ∈ vm.allNode)
    (hid : ∀ {s : Id} {q : VideoFrameQueue}, e'.queueMap[s]? = some q → q.id = s)
    (hflags : ∀ {s : Id} {q : VideoFrameQueue}, s ∈ vm.allNode → e'.queueMap[s]? = some q →
      FlagsOf vm s q)
    (hsafe : ∀ {v s q f}, Out.srcChanged v s q f ∈ e.log →
      q.id = s ∧ q.enabled = true ∧ q.topPacket = some f ∧ f.isKeyframe = true) : Agree e' := by
  have hmap' : e'.videoMapper = vm := hn.mapper.trans hmap
  refine ⟨hmap' ▸ hg, ?_, ?_, hid, ?_, fun hm => hsafe (hn.safe hm)⟩
  · intro s
    rw [hn.mem_queueMap, hmap']
    exact hqueue s
  · intro s
    rw [hn.contexts, hmap']
    exact hcontext s
  · intro s q hq
    rw [hmap']
    apply hflags _ hq
    apply (hqueue s).mp
    exact (hn.mem_queueMap s).mp (Std.TreeMap.getElem?_eq_some_iff.mp hq).1

/-! ### Link, unlink, change of speaker -/

/-- The element with a new queue and context for `s`, before the listeners run. -/
def linking (e : VideoForwardElementNew) (s : Id) : VideoForwardElementNew :=
  { e.emit (.linked s) with
    queueMap := e.queueMap.insert s { id := s }
    videoSwitchContexts := e.videoSwitchContexts.insert s {}
    videoMapper := (e.videoMapper.add s).1 }

theorem linking_queue (e : VideoForwardElementNew) (s t : Id) :
    (e.linking s).queueMap[t]? = if s = t then some { id := s } else e.queueMap[t]? := by
  show (e.queueMap.insert s { id := s })[t]? = _
  rw [Std.TreeMap.getElem?_insert]
  by_cases ht : s = t <;> simp [ht]

theorem linkVideoStream_present {e : VideoForwardElementNew} (h : Agree e) {s : Id}
    (hs : s ∈ e.videoMapper.allNode) : e.linkVideoStream s = .ok e := by
  have hc : e.contains s = true := Std.TreeMap.mem_iff_contains.mp ((h.queue_mem s).mpr hs)
  rw [linkVideoStream, if_pos hc]

theorem linkVideoStream_new {e : VideoForwardElementNew} (h : Agree e) {s : Id}
    (hs : s ∉ e.videoMapper.allNode) :
    ∃ e', e.linkVideoStream s = .ok e' ∧ Agree e' ∧
      Notified (e.linking s) (e.videoMapper.add s).2 e' := by
  have hc : ¬ e.contains s = true := fun hc =>
    hs ((h.queue_mem s).mp (Std.TreeMap.mem_iff_contains.mpr hc))
  have hadd := add_added h.graph hs
  have hnow : ∀ t, t ∈ (e.videoMapper.add s).1.allNode ↔ t = s ∨ t ∈ e.videoMapper.allNode := by
    intro t
    rw [hadd.allNode, mem_insert_allNode]
  have hq : ∀ t, t ∈ (e.linking s).queueMap ↔ t = s ∨ t ∈ e.videoMapper.allNode := by
    intro t
    rw [← h.queue_mem t]
    show t ∈ e.queueMap.insert s _ ↔ _
    rw [Std.TreeMap.mem_insert, Std.compare_eq_iff_eq, eq_comm]
  obtain ⟨e', he', hn, hid, hfl⟩ := listen_reports (e := e.linking s) (add_reports hs)
    (by
      intro t ht
      rw [hq]
      rw [hnow] at ht
      exact ht.elim Or.inr fun h => h)
    (by
      intro t q hq'
      rw [linking_queue] at hq'
      split at hq'
      · rename_i heq
        obtain rfl := Option.some.inj hq'
        exact heq
      · exact h.queue_id hq')
    (by
      -- the new queue has no flag, and the old graph does not know its stream
      intro t q hq'
      rw [linking_queue] at hq'
      split at hq'
      · rename_i heq
        obtain rfl := Option.some.inj hq'
        rw [← heq]
        exact ⟨by simp [hs], by simp [hs]⟩
      · exact h.flags hq')
  refine ⟨e', ?_, ?_, hn⟩
  · rw [linkVideoStream, if_neg hc]
    exact he'
  · apply hn.agree rfl (added_graph h.graph hs hadd) _ _ hid hfl
    · intro v t q f hm
      have hm' : Out.srcChanged v t q f ∈ e.log ++ [Out.linked s] := hm
      rcases List.mem_append.mp hm' with hm' | hm'
      · exact h.safe hm'
      · cases List.mem_singleton.mp hm'
    · intro t
      rw [hq]
      exact (hnow t).symm
    · intro t
      show t ∈ e.videoSwitchContexts.insert s _ ↔ _
      rw [Std.TreeMap.mem_insert, Std.compare_eq_iff_eq, h.context_mem, eq_comm]
      exact (hnow t).symm

/-- The element without the queue and the context of `s`. -/
def erased (e : VideoForwardElementNew) (s : Id) : VideoForwardElementNew :=
  { e with
    queueMap := e.queueMap.erase s
    videoSwitchContexts := e.videoSwitchContexts.erase s }

theorem erased_queue (e : VideoForwardElementNew) (s t : Id) :
    (e.erased s).queueMap[t]? = if s = t then none else e.queueMap[t]? := by
  show (e.queueMap.erase s)[t]? = _
  rw [Std.TreeMap.getElem?_erase]
  by_cases ht : s = t <;> simp [ht]

theorem erased_context (e : VideoForwardElementNew) (s t : Id) :
    (e.erased s).videoSwitchContexts[t]? =
      if s = t then none else e.videoSwitchContexts[t]? := by
  show (e.videoSwitchContexts.erase s)[t]? = _
  rw [Std.TreeMap.getElem?_erase]
  by_cases ht : s = t <;> simp [ht]

/-- Unlinking a stream that is not linked changes nothing. -/
theorem unlinkVideoStream_absent {e : VideoForwardElementNew} (h : Agree e) {s : Id}
    (hs : s ∉ e.videoMapper.allNode) :
    e.unlinkVideoStream s = .ok (e.erased s) ∧ Agree (e.erased s) := by
  have hq : ∀ t, s = t → e.queueMap[t]? = none := by
    rintro t rfl
    rcases hq : e.queueMap[s]? with - | q
    · rfl
    · exact absurd (h.mem_of_queue hq) hs
  refine ⟨?_, h.graph, ?_, ?_, ?_, ?_, h.safe⟩
  · rw [unlinkVideoStream]
    rw [remove_absent hs]
    rfl
  · intro t
    show t ∈ e.queueMap.erase s ↔ _
    rw [Std.TreeMap.mem_erase, ne_eq, Std.compare_eq_iff_eq, h.queue_mem]
    refine ⟨fun h => h.2, fun h => ⟨?_, h⟩⟩
    rintro rfl
    exact hs h
  · intro t
    show t ∈ e.videoSwitchContexts.erase s ↔ _
    rw [Std.TreeMap.mem_erase, ne_eq, Std.compare_eq_iff_eq, h.context_mem]
    refine ⟨fun h => h.2, fun h => ⟨?_, h⟩⟩
    rintro rfl
    exact hs h
  · intro t q hq'
    rw [erased_queue] at hq'
    split at hq'
    · cases hq'
    · exact h.queue_id hq'
  · intro t q hq'
    rw [erased_queue] at hq'
    split at hq'
    · cases hq'
    · exact h.flags hq'

theorem unlinkVideoStream_present {e : VideoForwardElementNew} (h : Agree e) {s : Id}
    (hs : s ∈ e.videoMapper.allNode) :
    ∃ e', e.unlinkVideoStream s = .ok (e'.erased s) ∧ Agree (e'.erased s) ∧
      Notified { e with videoMapper := (e.videoMapper.remove s).1 }
        (e.videoMapper.remove s).2 e' := by
  have hrem := remove_removed h.graph hs
  have hnow : ∀ t, t ∈ (e.videoMapper.remove s).1.allNode ↔
      t ≠ s ∧ t ∈ e.videoMapper.allNode := by
    intro t
    rw [hrem.allNode, mem_erase_allNode]
  obtain ⟨e', he', hn, hid, hfl⟩ := listen_reports
    (e := { e with videoMapper := (e.videoMapper.remove s).1 }) (remove_reports hs)
    (by
      intro t ht
      rw [hnow] at ht
      exact (h.queue_mem t).mpr (ht.elim (fun h => h) fun h => h.2))
    h.queue_id h.flags
  refine ⟨e', ?_, ?_, hn⟩
  · -- the calls come first, then the entries are erased
    unfold unlinkVideoStream callMapper
    rw [he']
    rfl
  · refine ⟨?_, ?_, ?_, ?_, ?_, fun hm => h.safe (hn.safe hm)⟩
    · show Graph e'.videoMapper
      exact hn.mapper ▸ removed_graph h.graph hs hrem
    · intro t
      show t ∈ e'.queueMap.erase s ↔ t ∈ e'.videoMapper.allNode
      rw [Std.TreeMap.mem_erase, ne_eq, Std.compare_eq_iff_eq, hn.mem_queueMap, hn.mapper,
        hnow, eq_comm, h.queue_mem]
    · intro t
      show t ∈ e'.videoSwitchContexts.erase s ↔ t ∈ e'.videoMapper.allNode
      rw [Std.TreeMap.mem_erase, ne_eq, Std.compare_eq_iff_eq, hn.contexts, hn.mapper,
        hnow, eq_comm, h.context_mem]
    · intro t q hq'
      rw [erased_queue] at hq'
      split at hq'
      · cases hq'
      · exact hid hq'
    · intro t q hq'
      rw [erased_queue] at hq'
      split at hq'
      · cases hq'
      · rename_i hne
        show FlagsOf e'.videoMapper t q
        rw [hn.mapper]
        have ht : t ∈ e.queueMap :=
          (hn.mem_queueMap t).mp (Std.TreeMap.getElem?_eq_some_iff.mp hq').1
        exact hfl ((hnow t).mpr ⟨fun h => hne h.symm, (h.queue_mem t).mp ht⟩) hq'

theorem changeToSpeaker_ignored {e : VideoForwardElementNew} {s : Id}
    (hs : s ∉ e.videoMapper.allNode ∨ s = e.videoMapper.master) :
    e.changeToSpeaker s = .ok e := by
  rw [changeToSpeaker, setMaster_ignored hs]
  rfl

theorem changeToSpeaker_master {e : VideoForwardElementNew} (h : Agree e) {s : Id}
    (hs : s ∈ e.videoMapper.allNode) (hne : s ≠ e.videoMapper.master) :
    ∃ e', e.changeToSpeaker s = .ok e' ∧ Agree e' ∧
      Notified { e with videoMapper := (e.videoMapper.setMaster s).1 }
        (e.videoMapper.setMaster s).2 e' := by
  have hmas := setMaster_mastered h.graph hs hne
  obtain ⟨e', he', hn, hid, hfl⟩ := listen_reports
    (e := { e with videoMapper := (e.videoMapper.setMaster s).1 }) (setMaster_reports hs hne)
    (by
      intro t ht
      rw [hmas.allNode] at ht
      exact (h.queue_mem t).mpr (ht.elim (fun h => h) fun h => h))
    h.queue_id h.flags
  refine ⟨e', he', ?_, hn⟩
  apply hn.agree rfl (mastered_graph h.graph hs hne hmas) _ _ hid hfl h.safe
  · intro t
    rw [hmas.allNode]
    exact h.queue_mem t
  · intro t
    rw [hmas.allNode]
    exact h.context_mem t

/-! ### Pushing and popping -/

/-- Everything `putQueue` can do: store the queue, and when it announced itself
switch the viewers that wait for it to its top packet. -/
inductive Put (e : VideoForwardElementNew) (s : Id) (r : VideoFrameQueue × Bool)
    (e' : VideoForwardElementNew) : Prop
  | quiet (hr : r.2 = false) (he : e' = { e with queueMap := e.queueMap.insert s r.1 })
  | announced (f : VideoFrame) (e₁ : VideoForwardElementNew) (hr : r.2 = true)
      (hf : r.1.topPacket = some f) (hk : f.isKeyframe = true)
      (hreb : Rebased { e with
          queueMap := e.queueMap.insert s r.1
          videoMapper := (e.videoMapper.setPrepared s).1 } s r.1 f
        (e.videoMapper.switching s e.videoMapper.allNode.toList) e₁)
      (hn : Notified e₁ (detect e.videoMapper (e.videoMapper.setPrepared s).1) e')

theorem insert_queue (e : VideoForwardElementNew) (s t : Id) (q : VideoFrameQueue) :
    (e.queueMap.insert s q)[t]? = if s = t then some q else e.queueMap[t]? := by
  rw [Std.TreeMap.getElem?_insert]
  by_cases ht : s = t <;> simp [ht]

/-- Storing a queue with the same flags keeps the invariant. -/
theorem Agree.store {e : VideoForwardElementNew} (h : Agree e) {s : Id}
    {q q' : VideoFrameQueue} (hq : e.queueMap[s]? = some q) (hsame : SameFlags q q') :
    Agree { e with queueMap := e.queueMap.insert s q' } := by
  refine ⟨h.graph, ?_, h.context_mem, ?_, ?_, h.safe⟩
  · intro t
    show t ∈ e.queueMap.insert s q' ↔ _
    rw [Std.TreeMap.mem_insert, Std.compare_eq_iff_eq, h.queue_mem]
    refine ⟨?_, Or.inr⟩
    rintro (rfl | ht)
    · exact h.mem_of_queue hq
    · exact ht
  · intro t q₁ hq₁
    rw [insert_queue] at hq₁
    split at hq₁
    · rename_i hst
      obtain rfl := Option.some.inj hq₁
      rw [hsame.id, ← hst]
      exact h.queue_id hq
    · exact h.queue_id hq₁
  · intro t q₁ hq₁
    rw [insert_queue] at hq₁
    split at hq₁
    · rename_i hst
      obtain rfl := Option.some.inj hq₁
      have hf := h.flags hq
      rw [← hst]
      exact ⟨by rw [hsame.enabled]; exact hf.enabled, by rw [hsame.hasLooker]; exact hf.hasLooker⟩
    · exact h.flags hq₁

/-- The listener of a prepared queue. -/
theorem setPrepared_ok {e : VideoForwardElementNew} (h : Agree e) {s : Id}
    {q : VideoFrameQueue} {f : VideoFrame} (hq : e.queueMap[s]? = some q)
    (hf : q.topPacket = some f) (hen : q.enabled = true) (hk : f.isKeyframe = true) :
    ∃ e₁ e', e.callMapper (e.videoMapper.setPrepared s) = .ok e' ∧ Agree e' ∧
      Rebased { e with videoMapper := (e.videoMapper.setPrepared s).1 } s q f
        (e.videoMapper.switching s e.videoMapper.allNode.toList) e₁ ∧
      Notified e₁ (detect e.videoMapper (e.videoMapper.setPrepared s).1) e' := by
  have hs : s ∈ e.videoMapper.allNode := h.mem_of_queue hq
  obtain ⟨hsw, hev⟩ := setPrepared_spec h.graph hs
  -- first the source changes, then the calls that the new graph asks for
  obtain ⟨e₁, he₁, h₁⟩ := listen_switches
    (e := { e with videoMapper := (e.videoMapper.setPrepared s).1 }) hq hf
    (switching_nodup e.videoMapper s)
    (by
      intro v hv
      rw [mem_switching, Std.TreeSet.mem_toList] at hv
      exact (h.context_mem v).mpr hv.1)
  obtain ⟨e', he', hn, hid, hfl⟩ := listen_reports (e := e₁)
    (r := ((e.videoMapper.setPrepared s).1, detect e.videoMapper (e.videoMapper.setPrepared s).1))
    ⟨[], rfl, by simp⟩
    (by
      intro t ht
      rw [hsw.allNode] at ht
      rw [h₁.queueMap]
      exact (h.queue_mem t).mpr (ht.elim (fun h => h) fun h => h))
    (fun hq' => h.queue_id (h₁.queueMap ▸ hq')) (fun hq' => h.flags (h₁.queueMap ▸ hq'))
  refine ⟨e₁, e', ?_, ?_, h₁, hn⟩
  · rw [callMapper, hev, List.foldlM_append]
    rw [he₁]
    exact he'
  · apply hn.agree h₁.mapper (switched_graph h.graph hs hsw) _ _ hid hfl
    · -- a new entry of the log is about the queue that announced itself
      intro v t q' f' hm
      rw [h₁.log] at hm
      rcases List.mem_append.mp hm with hm | hm
      · exact h.safe hm
      · obtain ⟨w, -, hw⟩ := List.mem_map.mp hm
        cases hw
        exact ⟨h.queue_id hq, hen, hf, hk⟩
    · intro t
      rw [h₁.queueMap, hsw.allNode]
      exact h.queue_mem t
    · intro t
      rw [hsw.allNode, ← h.context_mem, Std.TreeMap.mem_iff_isSome_getElem?,
        Std.TreeMap.mem_iff_isSome_getElem?, h₁.contexts]
      split <;> simp

theorem putQueue_ok {e : VideoForwardElementNew} (h : Agree e) {s : Id}
    {q : VideoFrameQueue} {r : VideoFrameQueue × Bool} (hq : e.queueMap[s]? = some q)
    (hsame : SameFlags q r.1) (hann : Announces r) :
    ∃ e', e.putQueue s r = .ok e' ∧ Agree e' ∧ Put e s r e' := by
  have hst := h.store hq hsame
  rw [putQueue]
  by_cases hr : r.2 = true
  · obtain ⟨hen, f, hf, hk⟩ := hann hr
    have hid : r.1.id = s := hsame.id.trans (h.queue_id hq)
    have hput : (e.queueMap.insert s r.1)[s]? = some r.1 := by
      rw [insert_queue, if_pos rfl]
    obtain ⟨e₁, e', he', ha, hreb, hn⟩ := setPrepared_ok hst hput hf hen hk
    refine ⟨e', ?_, ha, .announced f e₁ hr hf hk hreb hn⟩
    simp only [hr, if_true, hid]
    exact he'
  · rw [Bool.not_eq_true] at hr
    refine ⟨_, ?_, hst, .quiet hr rfl⟩
    simp [hr]

/-- A packet for a linked stream. -/
theorem onIncomingPacket_ok (parse : Depacketizer) {e : VideoForwardElementNew} (h : Agree e)
    {s : Id} {q : VideoFrameQueue} (hq : e.queueMap[s]? = some q) (p : DataPacket) :
    ∃ e', e.onIncomingPacket parse s p = .ok e' ∧ Agree e' ∧ Put e s (q.pushPacket parse p) e' := by
  rw [onIncomingPacket]
  rw [hq]
  refine putQueue_ok h hq ?_ ?_
  · rw [pushPacket]
    split
    · exact ⟨rfl, rfl, rfl⟩
    · exact pushFrame_sameFlags _ _
  · rw [pushPacket]
    split
    · intro hc
      cases hc
    · exact pushFrame_announces _ _

theorem popOne_ok {e : VideoForwardElementNew} (h : Agree e) {s : Id} {q : VideoFrameQueue}
    (hq : e.queueMap[s]? = some q) :
    ∃ e', e.popOne s = .ok e' ∧ Agree e' ∧ Put e s q.popPacket.2 e' := by
  rw [popOne]
  rw [hq]
  exact putQueue_ok h hq q.popPacket_sameFlags q.popPacket_announces

/-! ### A forwarding pass -/

/-- What one turn of the first loop can do: nothing, when the viewer has no source or
its source nothing to show; else hand out the packet on top of the source's queue. -/
inductive Forwarded (e : VideoForwardElementNew) (v : Id) (e' : VideoForwardElementNew) : Prop
  | idle (he : e' = e)
      (hidle : ∀ s q, e.videoMapper.src v = some s → s ≠ NOID → e.queueMap[s]? = some q →
        q.topPacket = none)
  | sent (s : Id) (q : VideoFrameQueue) (f : VideoFrame) (sc : VideoSwitchContext)
      (live : List Out) (hs : e.videoMapper.src v = some s) (hne : s ≠ NOID)
      (hq : e.queueMap[s]? = some q) (hf : q.topPacket = some f)
      (hsc : e.videoSwitchContexts[v]? = some sc)
      (hlive : ∀ o ∈ live, ∃ p, o = Out.relayLive p)
      (he : e' = { e with
        videoSwitchContexts := e.videoSwitchContexts.insert v (sc.advance f.seq f.ts)
        log := e.log ++ (Out.relay v f
          ((sc.advance f.seq f.ts).output f.data f.len f.marker) :: live) })

theorem getSrc_eq {vm : VideoMap} {v s : Id} (hv : v ∈ vm.allNode) (hs : vm.src v = some s) :
    vm.getSrc v = s := by
  rw [getSrc, if_pos (contains_iff.mpr hv), hs]

theorem getSrc_cases {vm : VideoMap} {v : Id} (hv : v ∈ vm.allNode) (hne : vm.getSrc v ≠ NOID) :
    vm.src v = some (vm.getSrc v) := by
  rw [getSrc, if_pos (contains_iff.mpr hv)] at hne ⊢
  rcases hs : vm.src v with - | s
  · rw [hs] at hne
    exact absurd rfl hne
  · rfl

/-- The queue of a viewer's source and the viewer's context are there. -/
theorem forwardOne_ok {e : VideoForwardElementNew} (h : Agree e) {v : Id}
    (hv : v ∈ e.videoMapper.allNode) (first : Bool) :
    ∃ e' first', forwardOne (e, first) v = .ok (e', first') ∧ Forwarded e v e' := by
  rw [forwardOne]
  -- no source, an empty queue, or a packet; the first one goes to the live stream too
  by_cases hno : e.videoMapper.getSrc v = NOID
  · refine ⟨e, first, by simp [hno], .idle rfl ?_⟩
    intro s q hs hne _
    exact absurd ((getSrc_eq hv hs).symm.trans hno) hne
  · have hs := getSrc_cases hv hno
    have hsm := (h.queue_mem _).mpr (h.graph.cur_live hs).2
    obtain ⟨q, hq⟩ := Option.isSome_iff_exists.mp (Std.TreeMap.mem_iff_isSome_getElem?.mp hsm)
    obtain ⟨sc, hsc⟩ := Option.isSome_iff_exists.mp
      (Std.TreeMap.mem_iff_isSome_getElem?.mp ((h.context_mem v).mpr hv))
    rcases hf : q.topPacket with - | f
    · refine ⟨e, first, by simp [hno, hq, hf], .idle rfl ?_⟩
      intro s q' hs' _ hq'
      obtain rfl := (getSrc_eq hv hs').symm
      rw [hq] at hq'
      obtain rfl := Option.some.inj hq'
      exact hf
    · cases first with
      | true =>
          refine ⟨_, false, by simp only [hno, hq, hf, hsc, if_false, if_true]; rfl,
            .sent _ q f sc [.relayLive ((sc.advance f.seq f.ts).output f.data f.len f.marker)]
              hs hno hq hf hsc ?_ ?_⟩
          · exact fun o ho => ⟨_, List.mem_singleton.mp ho⟩
          · simp [emit]
      | false =>
          refine ⟨_, false, by simp only [hno, hq, hf, hsc, if_false]; rfl,
            .sent _ q f sc [] hs hno hq hf hsc ?_ ?_⟩
          · exact fun o ho => absurd ho List.not_mem_nil
          · simp [emit]

theorem Forwarded.mapper {e e' : VideoForwardElementNew} {v : Id} (h : Forwarded e v e') :
    e'.videoMapper = e.videoMapper := by
  cases h with
  | idle he => rw [he]
  | sent s q f sc live hs hne hq hf hsc hlive he => rw [he]

theorem Forwarded.queueMap {e e' : VideoForwardElementNew} {v : Id} (h : Forwarded e v e') :
    e'.queueMap = e.queueMap := by
  cases h with
  | idle he => rw [he]
  | sent s q f sc live hs hne hq hf hsc hlive he => rw [he]

theorem Forwarded.agree {e e' : VideoForwardElementNew} {v : Id} (h : Forwarded e v e')
    (ha : Agree e) : Agree e' := by
  cases h with
  | idle he => exact he ▸ ha
  | sent s q f sc live hs hne hq hf hsc hlive he =>
      subst he
      refine ⟨ha.graph, ha.queue_mem, ?_, ha.queue_id, ha.flags, ?_⟩
      · intro t
        show t ∈ e.videoSwitchContexts.insert v _ ↔ _
        rw [Std.TreeMap.mem_insert, Std.compare_eq_iff_eq, ha.context_mem]
        refine ⟨?_, Or.inr⟩
        rintro (rfl | ht)
        · exact (ha.graph.cur_live hs).1
        · exact ht
      · intro w t q' f' hm
        rcases List.mem_append.mp hm with hm | hm
        · exact ha.safe hm
        · rcases List.mem_cons.mp hm with hm | hm
          · cases hm
          · obtain ⟨p, hp⟩ := hlive _ hm
            cases hp

/-- The first loop of a pass, with an invariant of the caller. -/
theorem forwardLoop_ok {P : List Id → VideoForwardElementNew → Prop}
    (hP : ∀ v l e e', Agree e → v ∈ e.videoMapper.allNode → Forwarded e v e' →
      P (v :: l) e → P l e')
    (l : List Id) (first : Bool) {e : VideoForwardElementNew} (h : Agree e)
    (hl : ∀ v ∈ l, v ∈ e.videoMapper.allNode) (he : P l e) :
    ∃ e' first', l.foldlM forwardOne (e, first) = .ok (e', first') ∧ Agree e' ∧ P [] e' := by
  have hrule := foldlM_rule (f := forwardOne)
    (P := fun l acc => Agree acc.1 ∧ (∀ v ∈ l, v ∈ acc.1.videoMapper.allNode) ∧ P l acc.1) ?_
    l (e, first) ⟨h, hl, he⟩
  · obtain ⟨acc, hacc, ha, -, hp⟩ := hrule
    exact ⟨acc.1, acc.2, hacc, ha, hp⟩
  · rintro v l ⟨e, first⟩ ⟨h, hl, he⟩
    obtain ⟨e', first', he', hf⟩ := forwardOne_ok h (hl v List.mem_cons_self) first
    refine ⟨(e', first'), he', hf.agree h, ?_, hP v l e e' h (hl v List.mem_cons_self) hf he⟩
    intro w hw
    show w ∈ e'.videoMapper.allNode
    rw [hf.mapper]
    exact hl w (List.mem_cons_of_mem _ hw)

theorem Put.mem_queueMap {e e' : VideoForwardElementNew} {s : Id} {r : VideoFrameQueue × Bool}
    (h : Put e s r e') (hs : s ∈ e.queueMap) (t : Id) : t ∈ e'.queueMap ↔ t ∈ e.queueMap := by
  have hins : t ∈ e.queueMap.insert s r.1 ↔ t ∈ e.queueMap := by
    rw [Std.TreeMap.mem_insert, Std.compare_eq_iff_eq]
    refine ⟨?_, Or.inr⟩
    rintro (rfl | ht)
    · exact hs
    · exact ht
  cases h with
  | quiet hr he => rw [he]; exact hins
  | announced f e₁ hr hf hk hreb hn =>
      rw [hn.mem_queueMap, hreb.queueMap]
      exact hins

/-- The second loop of a pass, with an invariant of the caller. -/
theorem popLoop_ok {P : List Id → VideoForwardElementNew → Prop}
    (hP : ∀ s l e q e', Agree e → e.queueMap[s]? = some q → Put e s q.popPacket.2 e' →
      P (s :: l) e → P l e')
    (l : List Id) {e : VideoForwardElementNew} (h : Agree e)
    (hl : ∀ s ∈ l, s ∈ e.queueMap) (he : P l e) :
    ∃ e', l.foldlM popOne e = .ok e' ∧ Agree e' ∧ P [] e' := by
  have hrule := foldlM_rule (f := popOne)
    (P := fun l e => Agree e ∧ (∀ s ∈ l, s ∈ e.queueMap) ∧ P l e) ?_ l e ⟨h, hl, he⟩
  · obtain ⟨e', he', ha, -, hp⟩ := hrule
    exact ⟨e', he', ha, hp⟩
  · rintro s l e ⟨h, hl, he⟩
    have hs := hl s List.mem_cons_self
    obtain ⟨q, hq⟩ := Option.isSome_iff_exists.mp (Std.TreeMap.mem_iff_isSome_getElem?.mp hs)
    obtain ⟨e', he', ha, hput⟩ := popOne_ok h hq
    refine ⟨e', he', ha, ?_, hP s l e q e' h hq hput he⟩
    intro t ht
    exact (hput.mem_queueMap hs t).mpr (hl t (List.mem_cons_of_mem _ ht))

/-- A whole pass, with invariants of the caller for its two loops. -/
theorem forwardData_ok {P Q : List Id → VideoForwardElementNew → Prop}
    (hP : ∀ v l e e', Agree e → v ∈ e.videoMapper.allNode → Forwarded e v e' →
      P (v :: l) e → P l e')
    (hQ : ∀ s l e q e', Agree e → e.queueMap[s]? = some q → Put e s q.popPacket.2 e' →
      Q (s :: l) e → Q l e')
    (hPQ : ∀ e, Agree e → P [] e → Q e.queueMap.keys e)
    {e : VideoForwardElementNew} (h : Agree e) (he : P e.videoMapper.getAllId e) :
    ∃ e', e.forwardData = .ok e' ∧ Agree e' ∧ Q [] e' := by
  obtain ⟨e₁, first, he₁, ha₁, hp₁⟩ := forwardLoop_ok hP e.videoMapper.getAllId true h
    (fun v hv => Std.TreeSet.mem_toList.mp hv) he
  obtain ⟨e₂, he₂, ha₂, hq₂⟩ := popLoop_ok hQ e₁.queueMap.keys ha₁
    (fun s hs => Std.TreeMap.mem_keys.mp hs) (hPQ e₁ ha₁ hp₁)
  refine ⟨e₂, ?_, ha₂, hq₂⟩
  rw [forwardData]
  rw [he₁]
  exact he₂

/-! ### Runs -/

theorem requestSpeakerKeyFrame_agree {e : VideoForwardElementNew} (h : Agree e) :
    Agree e.requestSpeakerKeyFrame := by
  rw [requestSpeakerKeyFrame]
  split
  · refine ⟨h.graph, h.queue_mem, h.context_mem, h.queue_id, h.flags, ?_⟩
    intro v s q f hm
    rcases List.mem_append.mp hm with hm | hm
    · exact h.safe hm
    · cases List.mem_singleton.mp hm
  · exact h

/-- Every operation succeeds and restores the invariant. -/
theorem step_agree (parse : Depacketizer) {e : VideoForwardElementNew} (h : Agree e) (op : Op) :
    ∃ e', e.step parse op = .ok e' ∧ Agree e' := by
  cases op with
  | linkVideoStream s =>
      by_cases hs : s ∈ e.videoMapper.allNode
      · exact ⟨e, linkVideoStream_present h hs, h⟩
      · obtain ⟨e', he', ha, -⟩ := linkVideoStream_new h hs
        exact ⟨e', he', ha⟩
  | unlinkVideoStream s =>
      by_cases hs : s ∈ e.videoMapper.allNode
      · obtain ⟨e', he', ha, -⟩ := unlinkVideoStream_present h hs
        exact ⟨_, he', ha⟩
      · exact ⟨_, unlinkVideoStream_absent h hs⟩
  | changeToSpeaker s =>
      by_cases hs : s ∈ e.videoMapper.allNode ∧ s ≠ e.videoMapper.master
      · obtain ⟨e', he', ha, -⟩ := changeToSpeaker_master h hs.1 hs.2
        exact ⟨e', he', ha⟩
      · refine ⟨e, changeToSpeaker_ignored ?_, h⟩
        tauto
  | onIncomingPacket s p =>
      rcases hq : e.queueMap[s]? with - | q
      · exact ⟨e, by simp only [step, onIncomingPacket, hq], h⟩
      · obtain ⟨e', he', ha, -⟩ := onIncomingPacket_ok parse h hq p
        exact ⟨e', he', ha⟩
  | requestSpeakerKeyFrame => exact ⟨_, rfl, requestSpeakerKeyFrame_agree h⟩
  | forwardData =>
      obtain ⟨e', he', ha, -⟩ := forwardData_ok (P := fun _ _ => True) (Q := fun _ _ => True)
        (fun _ _ _ _ _ _ _ _ => trivial) (fun _ _ _ _ _ _ _ _ _ => trivial)
        (fun _ _ _ => trivial) h trivial
      exact ⟨e', he', ha⟩

theorem run_agree (parse : Depacketizer) (ops : List Op) :
    ∃ e, run parse ops = .ok e ∧ Agree e :=
  foldlM_ok (fun _ h op _ => step_agree parse h op) agree_init

/-- **Queues and graph agree.**  Every run of the element goes through, and
after it the queues, the contexts and the graph have the same streams, a queue
is enabled iff its stream has a current or expected looker, and it knows about a
looker iff there is a current one. -/
theorem run_queues_follow_graph (parse : Depacketizer) (ops : List Op) :
    ∃ e, run parse ops = .ok e ∧
      (∀ s, s ∈ e.queueMap ↔ s ∈ e.videoMapper.allNode) ∧
      (∀ s, s ∈ e.videoSwitchContexts ↔ s ∈ e.videoMapper.allNode) ∧
      (∀ s q, e.queueMap[s]? = some q →
        (q.enabled = true ↔
          (∃ n, n ∈ e.videoMapper.lookers s) ∨ ∃ n, n ∈ e.videoMapper.expectedLookers s) ∧
        (q.hasLooker = true ↔ ∃ n, n ∈ e.videoMapper.lookers s)) := by
  obtain ⟨e, he, h⟩ := run_agree parse ops
  refine ⟨e, he, h.queue_mem, h.context_mem, ?_⟩
  intro s q hq
  have hs : s ∈ e.videoMapper.allNode :=
    (h.queue_mem s).mp (Std.TreeMap.getElem?_eq_some_iff.mp hq).1
  constructor
  · rw [(h.flags hq).enabled, getLookerCount, Nat.add_pos_iff_pos_or_pos, Finset.card_pos,
      Finset.card_pos]
    exact ⟨fun h => h.2, fun h => ⟨hs, h⟩⟩
  · rw [(h.flags hq).hasLooker, hasCurLooker, decide_eq_true_eq, Finset.card_pos]
    exact ⟨fun h => h.2, fun h => ⟨hs, h⟩⟩

/-- **Switch safety.**  No run dereferences a null pointer, in a listener or in
a forwarding pass, and every source change was served from an enabled queue of
the new source with a key frame packet on top. -/
theorem run_switches_safely (parse : Depacketizer) (ops : List Op) :
    ∃ e, run parse ops = .ok e ∧
      ∀ v s q f, Out.srcChanged v s q f ∈ e.log →
        q.id = s ∧ q.enabled = true ∧ q.topPacket = some f ∧ f.isKeyframe = true := by
  obtain ⟨e, he, h⟩ := run_agree parse ops
  exact ⟨e, he, fun v s q f hm => h.safe hm⟩

end VideoForwardElementNew

end Orbit
