/-
OrbitStream/StreamServiceLifecycle.lean

The life of a session: active, closed with one recycle thread at work, destroyed.

`Stage` says what the state, the pipeline, the threads and the number of deletes of
a session can be together; every critical section moves a session from stage to
stage (`Moved`).  `Lifecycle` adds that the table and the heap agree, and is an
invariant of every run in which

* the watchdog does not come to an entry of its list after the pipeline of that
  session has been deleted, and
* no request waits so long that its session is deleted under it.

The first can happen because `CloseInvalidStream` uses the pipeline without looking
at the state of the session, as all requests do: the list is collected before the
mutex of any session is taken (`watchdog_uses_a_null_pipeline`).
-/
import OrbitStream.StreamService

namespace Orbit

open Lib

namespace SessionData

variable {o o' : SessionData}

/-! ### Stages -/

/-- The stages of a session. -/
inductive Stage (o : SessionData) : Prop
  | active (state : o.state = .active) (pipeline : o.pipeline = .live)
      (recyclers : o.recyclers = []) (deletes : o.deletes = 0) (freed : o.freed = false)
  /-- the recycle thread has not deleted the pipeline yet -/
  | closing (phase : RecyclePhase) (early : phase ≠ .clearing) (state : o.state = .closed)
      (pipeline : o.pipeline = .live) (recyclers : o.recyclers = [phase])
      (deletes : o.deletes = 0) (freed : o.freed = false)
  | clearing (state : o.state = .closed) (pipeline : o.pipeline = .deleted)
      (recyclers : o.recyclers = [.clearing]) (deletes : o.deletes = 1) (freed : o.freed = false)
  | destroyed (state : o.state = .destroyed) (pipeline : o.pipeline = .null)
      (recyclers : o.recyclers = []) (deletes : o.deletes = 1)

/-- A critical section on a session. -/
structure Moved (o o' : SessionData) : Prop where
  stage : Stage o'
  sessionId : o'.sessionId = o.sessionId
  freed : o'.freed = o.freed

theorem isActive_iff : o.isActive = true ↔ o.state = .active := by
  rw [isActive, decide_eq_true_eq]

theorem Stage.of_active (h : Stage o) (ha : o.isActive = true) :
    o.pipeline = .live ∧ o.recyclers = [] ∧ o.deletes = 0 ∧ o.freed = false := by
  rw [isActive_iff] at ha
  cases h with
  | active _ hp hr hd hf => exact ⟨hp, hr, hd, hf⟩
  | closing _ _ hs => exact absurd (ha.symm.trans hs) (by decide)
  | clearing hs => exact absurd (ha.symm.trans hs) (by decide)
  | destroyed hs => exact absurd (ha.symm.trans hs) (by decide)

/-- The session is active, or its recycle thread has not come to `Destroy`. -/
def beforeDestroy (o : SessionData) : Bool :=
  o.isActive || o.recyclers.any fun p => p ≠ .clearing

theorem Stage.of_beforeDestroy (h : Stage o) (hb : o.beforeDestroy = true) :
    o.pipeline = .live := by
  cases h with
  | active _ hp => exact hp
  | closing _ _ _ hp => exact hp
  | clearing hs _ hr => simp [beforeDestroy, isActive, hs, hr] at hb
  | destroyed hs _ hr => simp [beforeDestroy, isActive, hs, hr] at hb

/-! ### Critical sections on one session -/

theorem closeAll_live (hp : o.pipeline = .live) : o.closeAll = .ok () := by
  simp [closeAll, hp, MediaPipeline.call]

theorem deletePipeline_live (hp : o.pipeline = .live) :
    o.deletePipeline = .ok { o with pipeline := .deleted, deletes := o.deletes + 1 } := by
  simp [deletePipeline, hp, MediaPipeline.call, bind, Except.bind, pure, Except.pure]

theorem destroy_live (hp : o.pipeline = .live) (now : Int) :
    o.destroy now = .ok { o with
      pipeline := .null, destroyTime := now, state := .destroyed, deletes := o.deletes + 1 } := by
  rw [destroy, deletePipeline_live hp]
  rfl

theorem Stage.closeSession (h : Stage o) (ha : o.isActive = true) (now : Int) :
    o.close.closeAll = .ok () ∧ ∃ o', o.close.destroy now = .ok o' ∧ Moved o o' := by
  obtain ⟨hp, hr, hd, -⟩ := h.of_active ha
  refine ⟨closeAll_live hp, _, destroy_live (o := o.close) hp now, ?_, rfl, rfl⟩
  refine .destroyed rfl rfl hr ?_
  show o.deletes + 1 = 1
  rw [hd]

/-- The watchdog on a session that is not past `CloseAll`: the registry may not
know the session, else the session moves on. -/
theorem Stage.watchDog (h : Stage o) (hb : o.beforeDestroy = true) (info : Option Bool) :
    o.closeInvalidStream = .ok () ∧
      Outcome (Moved o) (fun e => ∃ id, e = .nullSessionInfo id) (o.checkAndRecycleSession info) := by
  have hp := h.of_beforeDestroy hb
  refine ⟨by rw [closeInvalidStream, hp]; rfl, ?_⟩
  match info with
  | none => exact ⟨_, rfl⟩
  | some true => exact ⟨h, rfl, rfl⟩
  | some false =>
      show Moved o (if o.isActive then _ else o)
      split
      · rename_i ha
        obtain ⟨-, hr, hd, hf⟩ := h.of_active ha
        refine ⟨.closing .closing (by decide) rfl hp ?_ hd hf, rfl, rfl⟩
        show o.recyclers ++ [.closing] = [.closing]
        rw [hr]
        rfl
      · exact ⟨h, rfl, rfl⟩

/-- A recycle thread works on a session that is closed and not freed. -/
theorem Stage.recycler (h : Stage o) {i : Nat} (hi : o.recyclers[i]? ≠ none) :
    i = 0 ∧ o.freed = false := by
  have hlen : i < o.recyclers.length := by
    by_contra hlt
    exact hi (List.getElem?_eq_none (Nat.le_of_not_lt hlt))
  cases h with
  | active _ _ hr | destroyed _ _ hr =>
      rw [hr] at hlen
      exact absurd hlen (Nat.not_lt_zero i)
  | closing p _ _ _ hr _ hf | clearing _ _ hr _ hf =>
      rw [hr] at hlen
      exact ⟨Nat.lt_one_iff.mp hlen, hf⟩

/-! The three steps of a recycle thread. -/

theorem recycle_closing (hr : o.recyclers = [.closing]) (hp : o.pipeline = .live) (now : Int) :
    o.recycle 0 now = .ok { o with recyclers := [.deleting] } := by
  simp [SessionData.recycle, hr, closeAll_live hp, bind, Except.bind, pure, Except.pure]

theorem recycle_deleting (hr : o.recyclers = [.deleting]) (hp : o.pipeline = .live) (now : Int) :
    o.recycle 0 now = .ok { o with
      pipeline := .deleted, deletes := o.deletes + 1, recyclers := [.clearing] } := by
  simp [SessionData.recycle, hr, deletePipeline_live hp, bind, Except.bind, pure, Except.pure]

theorem recycle_clearing (hr : o.recyclers = [.clearing]) (now : Int) :
    o.recycle 0 now = .ok { o with
      pipeline := .null, destroyTime := now, state := .destroyed, recyclers := [] } := by
  simp [SessionData.recycle, hr, clear]

theorem Stage.recycle (h : Stage o) {i : Nat} (hi : o.recyclers[i]? ≠ none) (now : Int) :
    ∃ o', o.recycle i now = .ok o' ∧ Moved o o' := by
  obtain ⟨rfl, hf⟩ := h.recycler hi
  cases h with
  | active _ _ hr | destroyed _ _ hr =>
      rw [hr] at hi
      exact absurd rfl hi
  | closing p he hs hp hr hd =>
      cases p with
      | closing =>
          refine ⟨_, recycle_closing hr hp now, ?_, rfl, rfl⟩
          exact .closing .deleting (by decide) hs hp rfl hd hf
      | deleting =>
          refine ⟨_, recycle_deleting hr hp now, ?_, rfl, rfl⟩
          refine .clearing hs rfl rfl ?_ hf
          show o.deletes + 1 = 1
          rw [hd]
      | clearing => exact absurd rfl he
  | clearing hs hp hr hd =>
      exact ⟨_, recycle_clearing hr now, .destroyed rfl rfl rfl hd, rfl, rfl⟩

end SessionData

namespace OrbitStreamService

open SessionData

variable {s s' : OrbitStreamService} {a : Nat} {o o' : SessionData}

/-! ### The table and the heap -/

/-- Every session is at a stage of its life; the table lists exactly the sessions
that are not deleted; a waiting request holds the address of a session of its
id. -/
structure Lifecycle (s : OrbitStreamService) : Prop where
  stage : ∀ (a : Nat) (o : SessionData), s.objects[a]? = some o → Stage o
  listed : ∀ (a : Nat) (o : SessionData), s.objects[a]? = some o → o.freed = false →
    s.sessionData[o.sessionId]? = some a
  entry : ∀ (id : Int) (a : Nat), s.sessionData[id]? = some a →
    ∃ o, s.objects[a]? = some o ∧ o.sessionId = id ∧ o.freed = false
  call : ∀ c ∈ s.calls, ∀ a : Nat, c.session = some a →
    ∃ o, s.objects[a]? = some o ∧ o.sessionId = c.sessionId

theorem lifecycle_init : Lifecycle {} where
  stage := fun a o h => absurd h (by simp)
  listed := fun a o h => absurd h (by simp)
  entry := fun id a h => absurd h (by simp)
  call := fun c h => absurd h (by simp)

/-- What is not the heap, the table or the waiting requests does not matter. -/
theorem Lifecycle.congr (h : Lifecycle s) (ho : s'.objects = s.objects)
    (ht : s'.sessionData = s.sessionData) (hc : ∀ c ∈ s'.calls, c ∈ s.calls) : Lifecycle s' where
  stage := by rw [ho]; exact h.stage
  listed := by rw [ho, ht]; exact h.listed
  entry := by rw [ho, ht]; exact h.entry
  call := by rw [ho]; exact fun c hm => h.call c (hc c hm)

theorem Lifecycle.reply (h : Lifecycle s) (r : Reply) : Lifecycle (s.reply r) :=
  h.congr rfl rfl fun _ hc => hc

theorem session_eq (ho : s.objects[a]? = some o) (hf : o.freed = false) : s.session a = .ok o := by
  simp [session, ho, hf]

theorem setSession_object (ho : s.objects[a]? = some o) (b : Nat) :
    (s.setSession a o').objects[b]? = if a = b then some o' else s.objects[b]? := by
  show (s.objects.set a o')[b]? = _
  rw [List.getElem?_set]
  split
  · rename_i hab
    rw [if_pos (List.getElem?_eq_some_iff.mp ho).1]
  · rfl

/-- A critical section on one session. -/
theorem Lifecycle.setSession (h : Lifecycle s) (ho : s.objects[a]? = some o) (hm : Moved o o') :
    Lifecycle (s.setSession a o') where
  stage := by
    intro b p hb
    rw [setSession_object ho] at hb
    split at hb
    · obtain rfl := Option.some.inj hb
      exact hm.stage
    · exact h.stage b p hb
  listed := by
    intro b p hb hf
    show s.sessionData[p.sessionId]? = some b
    rw [setSession_object ho] at hb
    split at hb
    · rename_i hab
      obtain rfl := Option.some.inj hb
      rw [hm.sessionId, ← hab]
      exact h.listed a o ho (hm.freed.symm.trans hf)
    · exact h.listed b p hb hf
  entry := by
    intro id b hb
    obtain ⟨p, hp, hid, hf⟩ := h.entry id b hb
    rw [setSession_object ho]
    split
    · rename_i hab
      obtain rfl : o = p := by
        rw [hab, hp] at ho
        exact (Option.some.inj ho).symm
      exact ⟨o', rfl, hm.sessionId.trans hid, hm.freed.trans hf⟩
    · exact ⟨p, hp, hid, hf⟩
  call := by
    intro c hc b hb
    obtain ⟨p, hp, hid⟩ := h.call c hc b hb
    rw [setSession_object ho]
    split
    · rename_i hab
      obtain rfl : o = p := by
        rw [hab, hp] at ho
        exact (Option.some.inj ho).symm
      exact ⟨o', rfl, hm.sessionId.trans hid⟩
    · exact ⟨p, hp, hid⟩

/-- The second lookup of a request finds the session it holds. -/
theorem Lifecycle.getPipeline (h : Lifecycle s) (ho : s.objects[a]? = some o)
    (hf : o.freed = false) : s.getPipeline o.sessionId = o.pipeline := by
  have hget : s.getSessionData o.sessionId = some a := h.listed a o ho hf
  simp [OrbitStreamService.getPipeline, hget, ho]

/-! ### Requests -/

section Serve

variable (h : Lifecycle s) (ho : s.objects[a]? = some o)

include h ho

theorem Lifecycle.closeSession (now : Int) :
    ∃ s', s.closeSession a o now = .ok s' ∧ Lifecycle s' := by
  rw [OrbitStreamService.closeSession]
  split
  · rename_i ha
    obtain ⟨hclose, o', ho', hm⟩ := (h.stage a o ho).closeSession ha now
    rw [hclose, ho']
    exact ⟨_, rfl, (h.setSession ho hm).reply _⟩
  · exact ⟨_, rfl, h.reply _⟩

theorem Lifecycle.closeStream : ∃ s', s.closeStream o = .ok s' ∧ Lifecycle s' := by
  rw [OrbitStreamService.closeStream]
  split
  · rename_i ha
    rw [((h.stage a o ho).of_active ha.1).1]
    exact ⟨_, rfl, h.reply _⟩
  · exact ⟨_, rfl, h.reply _⟩

variable (hf : o.freed = false)

include hf

/-- What is done with the pipeline is done with a live one. -/
theorem Lifecycle.withPipeline (missing : String)
    {f : MediaPipeline → Except ServiceFault OrbitStreamService}
    (hlive : ∃ s', f .live = .ok s' ∧ Lifecycle s') :
    ∃ s', s.withPipeline o o.sessionId missing f = .ok s' ∧ Lifecycle s' := by
  rw [OrbitStreamService.withPipeline, h.getPipeline ho hf]
  split
  · rename_i ha
    rw [((h.stage a o ho).of_active ha).1, if_neg (by decide)]
    exact hlive
  · exact ⟨_, rfl, h.reply _⟩

theorem Lifecycle.createStream (stream now : Int) :
    ∃ s', s.createStream o o.sessionId stream now = .ok s' ∧ Lifecycle s' := by
  apply h.withPipeline ho hf
  have htime : Lifecycle (s.updateStreamTime ⟨o.sessionId, stream⟩ now) :=
    h.congr rfl rfl fun _ hc => hc
  exact ⟨_, rfl, htime.reply _⟩

theorem Lifecycle.sendSessionMessage (message : SendMessage) :
    ∃ s', s.sendSessionMessage o o.sessionId message = .ok s' ∧ Lifecycle s' := by
  apply h.withPipeline ho hf
  cases message with
  | _ => exact ⟨_, rfl, h.reply _⟩

theorem Lifecycle.recvSessionMessage (message : RecvMessage) :
    ∃ s', s.recvSessionMessage o o.sessionId message = .ok s' ∧ Lifecycle s' := by
  apply h.withPipeline ho hf
  cases message with
  | iceCandidate => exact ⟨_, rfl, h.reply _⟩
  | connectStatus liveStreams =>
      have hloop : (liveStreams.forM fun _ => MediaPipeline.live.call o.sessionId) = .ok () := by
        induction liveStreams with
        | nil => rfl
        | cons x l ih => exact ih
      show ∃ s', ((liveStreams.forM fun _ => MediaPipeline.live.call o.sessionId) >>= _) = _ ∧ _
      rw [hloop]
      exact ⟨_, rfl, h.reply _⟩
  | unknown => exact ⟨_, rfl, h.reply _⟩

end Serve

/-- A request whose session is still there goes through. -/
theorem Lifecycle.serve (h : Lifecycle s) {c : Call}
    (hc : ∀ a, c.session = some a → ∃ o, s.objects[a]? = some o ∧ o.sessionId = c.sessionId ∧
      o.freed = false) : ∃ s', s.serve c = .ok s' ∧ Lifecycle s' := by
  rcases hs : c.session with - | a
  · rw [OrbitStreamService.serve, hs]
    exact ⟨_, rfl, h.reply _⟩
  · obtain ⟨o, ho, hid, hf⟩ := hc a hs
    rw [OrbitStreamService.serve, hs, ← hid]
    show ∃ s', (s.session a >>= _) = _ ∧ _
    rw [session_eq ho hf]
    rcases hr : c.request with now | ⟨stream, now⟩ | stream | m | m
    · exact h.closeSession ho now
    · exact h.createStream ho hf stream now
    · exact h.closeStream ho
    · exact h.sendSessionMessage ho hf m
    · exact h.recvSessionMessage ho hf m

theorem Lifecycle.createSession (h : Lifecycle s) (session : Int) (implemented : Bool) :
    Lifecycle (s.createSession session implemented) := by
  rw [OrbitStreamService.createSession]
  split
  · rename_i hnew
    have hnew : s.sessionData[session]? = none := hnew.1
    refine ⟨?_, ?_, ?_, ?_⟩
    · intro b p hp
      rcases getElem?_concat.mp hp with hp | ⟨-, rfl⟩
      · exact h.stage b p hp
      · exact .active rfl rfl rfl rfl rfl
    · intro b p hp hf
      show (s.sessionData.insert session s.objects.length)[p.sessionId]? = some b
      rw [Std.TreeMap.getElem?_insert]
      rcases getElem?_concat.mp hp with hp | ⟨rfl, rfl⟩
      · -- the id was free, so the other entries are not touched
        have hlist := h.listed b p hp hf
        have hne : session ≠ p.sessionId := by
          rintro rfl
          rw [hnew] at hlist
          cases hlist
        rw [if_neg (by simpa using hne)]
        exact hlist
      · simp
    · intro id b hb
      change (s.sessionData.insert session s.objects.length)[id]? = some b at hb
      rw [Std.TreeMap.getElem?_insert] at hb
      split at hb
      · rename_i hid
        obtain rfl := Option.some.inj hb
        exact ⟨⟨session, .live, .active, 0, [], 0, false⟩, by simp, by simpa using hid, rfl⟩
      · obtain ⟨p, hp, hid, hf⟩ := h.entry id b hb
        exact ⟨p, getElem?_concat.mpr (.inl hp), hid, hf⟩
    · intro c hc b hb
      obtain ⟨p, hp, hid⟩ := h.call c hc b hb
      exact ⟨p, getElem?_concat.mpr (.inl hp), hid⟩
  · exact h

theorem Lifecycle.arrive (h : Lifecycle s) (session : Int) (request : Request) :
    Lifecycle { s with calls := s.calls ++ [⟨session, request, s.getSessionData session⟩] } where
  stage := h.stage
  listed := h.listed
  entry := h.entry
  call := by
    intro c hc b hb
    rcases List.mem_append.mp hc with hc | hc
    · exact h.call c hc b hb
    · obtain rfl := List.mem_singleton.mp hc
      obtain ⟨p, hp, hid, -⟩ := h.entry session b hb
      exact ⟨p, hp, hid⟩

/-! ### The watchdog -/

/-- The session of an entry of the watchdog's list, if it is in the table. -/
def sessionOf (s : OrbitStreamService) (key : StreamKey) : Option SessionData :=
  (s.getSessionData key.sessionId).bind fun a => s.objects[a]?

/-- A fault that is not about a pipeline or a session. -/
def InfoFault (e : ServiceFault) : Prop := ∃ id, e = .nullSessionInfo id

theorem Lifecycle.watchDogEntry (h : Lifecycle s) (key : StreamKey) (info : Option Bool)
    (hb : ∀ o, s.sessionOf key = some o → o.beforeDestroy = true) :
    Outcome Lifecycle InfoFault (s.watchDogEntry key info) := by
  rw [OrbitStreamService.watchDogEntry]
  rcases hget : s.getSessionData key.sessionId with - | a
  · exact h
  · obtain ⟨o, ho, hid, hf⟩ := h.entry key.sessionId a hget
    have hkey : s.sessionOf key = some o := by
      rw [sessionOf, hget]
      exact ho
    obtain ⟨hclose, hcheck⟩ := (h.stage a o ho).watchDog (hb o hkey) info
    show Outcome _ _ (s.session a >>= _)
    rw [session_eq ho hf]
    show Outcome _ _ (o.closeInvalidStream >>= _)
    rw [hclose]
    apply hcheck.bind
    intro o' hm
    exact h.setSession ho hm

theorem deleteSession_object (s : OrbitStreamService) (p : Int × Nat) (b : Nat) :
    (s.deleteSession p).objects[b]? = (s.objects[b]?).map fun o =>
      if p.2 = b then { o with freed := true } else o := by
  show (s.objects.modify p.2 fun o => { o with freed := true })[b]? = _
  rw [List.getElem?_modify]
  split <;> simp_all

/-- A destroyed session of the table is deleted. -/
theorem Lifecycle.deleteSession (h : Lifecycle s) {p : Int × Nat}
    (hp : s.sessionData[p.1]? = some p.2) (ho : s.objects[p.2]? = some o)
    (hd : o.state = .destroyed) : Lifecycle (s.deleteSession p) where
  stage := by
    intro b q hb
    rw [deleteSession_object] at hb
    obtain ⟨q', hq', rfl⟩ := Option.map_eq_some_iff.mp hb
    split
    · rename_i hpb
      obtain rfl : o = q' := by
        rw [hpb, hq'] at ho
        exact (Option.some.inj ho).symm
      -- only a destroyed session is deleted
      cases h.stage b o hq' with
      | active hs | closing _ _ hs | clearing hs => exact absurd (hd.symm.trans hs) (by decide)
      | destroyed hs hpl hr hdel => exact .destroyed hs hpl hr hdel
    · exact h.stage b q' hq'
  listed := by
    intro b q hb hf
    show (s.sessionData.erase p.1)[q.sessionId]? = some b
    rw [deleteSession_object] at hb
    obtain ⟨q', hq', rfl⟩ := Option.map_eq_some_iff.mp hb
    split at hf
    · cases hf
    · rename_i hpb
      rw [if_neg hpb]
      have hlist := h.listed b q' hq' hf
      have hne : p.1 ≠ q'.sessionId := by
        rintro heq
        rw [← heq, hp] at hlist
        exact hpb (Option.some.inj hlist)
      rw [Std.TreeMap.getElem?_erase, if_neg (by simpa using hne)]
      exact hlist
  entry := by
    intro id b hb
    change (s.sessionData.erase p.1)[id]? = some b at hb
    rw [Std.TreeMap.getElem?_erase] at hb
    split at hb
    · cases hb
    · rename_i hid
      obtain ⟨q, hq, hqid, hf⟩ := h.entry id b hb
      refine ⟨q, ?_, hqid, hf⟩
      rw [deleteSession_object, hq, Option.map_some, if_neg]
      -- an object is in the table under one id only
      rintro rfl
      obtain ⟨q', hq', hqid', -⟩ := h.entry p.1 p.2 hp
      rw [hq] at hq'
      obtain rfl := Option.some.inj hq'
      exact hid (by rw [← hqid', ← hqid, Std.compare_self])
  call := by
    intro c hc b hb
    obtain ⟨q, hq, hqid⟩ := h.call c hc b hb
    rw [deleteSession_object, hq]
    refine ⟨_, rfl, ?_⟩
    split
    · exact hqid
    · exact hqid

/-- Deleting one session leaves the other entries of the table as they are. -/
theorem Lifecycle.deleteSession_entry (h : Lifecycle s) {p q : Int × Nat}
    (hp : s.sessionData[p.1]? = some p.2) (hq : s.sessionData[q.1]? = some q.2) (hne : p.1 ≠ q.1) :
    (s.deleteSession p).sessionData[q.1]? = some q.2 ∧
      (s.deleteSession p).objects[q.2]? = s.objects[q.2]? := by
  refine ⟨?_, ?_⟩
  · show (s.sessionData.erase p.1)[q.1]? = some q.2
    rw [Std.TreeMap.getElem?_erase, if_neg (by simpa using hne)]
    exact hq
  · obtain ⟨o, ho, hid, -⟩ := h.entry p.1 p.2 hp
    obtain ⟨o', ho', hid', -⟩ := h.entry q.1 q.2 hq
    rw [deleteSession_object, ho', Option.map_some, if_neg]
    intro heq
    rw [← heq, ho] at ho'
    obtain rfl := Option.some.inj ho'
    exact hne (hid.symm.trans hid')

/-- The loop over `should_remove`. -/
theorem Lifecycle.foldl_deleteSession {l : List (Int × Nat)}
    (hl : l.Pairwise fun p q => p.1 ≠ q.1) (h : Lifecycle s)
    (hd : ∀ p ∈ l, s.sessionData[p.1]? = some p.2 ∧
      ∃ o, s.objects[p.2]? = some o ∧ o.state = .destroyed) :
    Lifecycle (l.foldl OrbitStreamService.deleteSession s) := by
  induction l generalizing s with
  | nil => exact h
  | cons p l ih =>
      obtain ⟨hne, hl⟩ := List.pairwise_cons.mp hl
      obtain ⟨hp, o, ho, hs⟩ := hd p List.mem_cons_self
      apply ih hl (h.deleteSession hp ho hs)
      intro q hq
      obtain ⟨hget, hdes⟩ := hd q (List.mem_cons_of_mem _ hq)
      obtain ⟨hget', hobj⟩ := h.deleteSession_entry hp hget (hne q hq)
      rw [hobj]
      exact ⟨hget', hdes⟩

theorem Lifecycle.watchDogSweep (h : Lifecycle s) (now : Int) : Lifecycle (s.watchDogSweep now) := by
  apply h.foldl_deleteSession
  · apply List.Pairwise.filter
    apply s.sessionData.distinct_keys_toList.imp
    intro p q hpq heq
    exact hpq (by rw [heq, Std.compare_self])
  · intro p hp
    obtain ⟨hp, hrec⟩ := List.mem_filter.mp hp
    refine ⟨Std.TreeMap.mem_toList_iff_getElem?_eq_some.mp hp, ?_⟩
    rcases ho : s.objects[p.2]? with - | o
    · rw [ho] at hrec
      cases hrec
    · rw [ho, Option.any_some, canRecycle, decide_eq_true_eq] at hrec
      exact ⟨o, rfl, hrec.1⟩

/-! ### Every run -/

/-- The condition on a step: the session of the watchdog's next entry has left
the table or is not past its `CloseAll`, and the session of the request that is
served has not been deleted. -/
def Timely (s : OrbitStreamService) : Op → Bool
  | .watchDogEntry _ =>
      match s.watchDog with
      | .pass (key :: _) => (s.sessionOf key).all SessionData.beforeDestroy
      | _ => true
  | .serve i =>
      (s.calls[i]?.bind Call.session).all fun a => s.objects[a]?.all fun o => !o.freed
  | _ => true

theorem Lifecycle.serveCall {leaveTime : Int} (h : Lifecycle s) (i : Nat)
    (hop : s.Timely (.serve i) = true) : Outcome Lifecycle InfoFault (step leaveTime s (.serve i)) := by
  rw [step]
  rcases hc : s.calls[i]? with - | c
  · exact h
  · have h' : Lifecycle { s with calls := s.calls.eraseIdx i } :=
      h.congr rfl rfl fun c hc => List.mem_of_mem_eraseIdx hc
    -- the data that was looked up has not been deleted
    have hthere : ∀ a, c.session = some a →
        ∃ o, s.objects[a]? = some o ∧ o.sessionId = c.sessionId ∧ o.freed = false := by
      intro a ha
      obtain ⟨o, ho, hid⟩ := h.call c (List.mem_of_getElem? hc) a ha
      refine ⟨o, ho, hid, ?_⟩
      simpa [Timely, hc, ha, ho] using hop
    obtain ⟨s', hs', hl⟩ := h'.serve hthere
    show Outcome _ _ (OrbitStreamService.serve _ c)
    rw [hs']
    exact hl

theorem Lifecycle.recycleStep {leaveTime : Int} (h : Lifecycle s) (a i : Nat) (now : Int) :
    Outcome Lifecycle InfoFault (step leaveTime s (.recycle a i now)) := by
  rw [step]
  rcases ho : s.objects[a]? with - | o
  · exact h
  · show Outcome _ _ (if _ then _ else _)
    split
    · exact h
    · rename_i hi
      -- a session with a recycle thread is still in memory
      obtain ⟨-, hf⟩ := (h.stage a o ho).recycler hi
      obtain ⟨o', ho', hm⟩ := (h.stage a o ho).recycle hi now
      show Outcome _ _ (s.session a >>= _)
      rw [session_eq ho hf]
      show Outcome _ _ (o.recycle i now >>= _)
      rw [ho']
      exact h.setSession ho hm

theorem step_lifecycle (leaveTime : Int) (h : Lifecycle s) (op : Op) (hop : s.Timely op = true) :
    Outcome Lifecycle InfoFault (step leaveTime s op) := by
  cases op with
  | createSession session implemented => exact h.createSession session implemented
  | arrive session request => exact h.arrive session request
  | serve i => exact h.serveCall i hop
  | incomingPacket key now => exact h.congr rfl rfl fun _ hc => hc
  | destroyStream key => exact h.congr rfl rfl fun _ hc => hc
  | traverse now =>
      rw [step]
      split
      · exact h.congr rfl rfl fun _ hc => hc
      · exact h
  | watchDogEntry info =>
      rw [step]
      split
      · rename_i key rest hw
        have h' : Lifecycle { s with watchDog := .pass rest } := h.congr rfl rfl fun _ hc => hc
        apply h'.watchDogEntry key info
        intro o ho
        rw [Timely, hw] at hop
        change s.sessionOf key = some o at ho
        simpa [ho] using hop
      · exact h
  | watchDogSweep now =>
      rw [step]
      split
      · have h' : Lifecycle { s with watchDog := .asleep } := h.congr rfl rfl fun _ hc => hc
        exact h'.watchDogSweep now
      · exact h
  | recycle a i now => exact h.recycleStep a i now

/-! ### The recycle thread ends -/

theorem step_recycle (leaveTime now : Int) (ho : s.objects[a]? = some o) (hf : o.freed = false)
    {p : RecyclePhase} (hr : o.recyclers = [p]) (ho' : o.recycle 0 now = .ok o') :
    step leaveTime s (.recycle a 0 now) = .ok (s.setSession a o') := by
  have hi : o.recyclers[0]? ≠ none := by
    rw [hr]
    exact Option.some_ne_none p
  rw [step]
  simp only [ho, if_neg hi, session_eq ho hf]
  show (o.recycle 0 now >>= _) = _
  rw [ho']
  rfl

/-- The session at `a` is destroyed after some steps of its recycle thread. -/
def Recycled (leaveTime now : Int) (a : Nat) (s : OrbitStreamService) : Prop :=
  ∃ n s' o', (List.replicate n (Op.recycle a 0 now)).foldlM (step leaveTime) s = .ok s' ∧
    s'.objects[a]? = some o' ∧ o'.state = .destroyed ∧ o'.deletes = 1

theorem Recycled.step {leaveTime now : Int}
    (hstep : step leaveTime s (.recycle a 0 now) = .ok s') (h : Recycled leaveTime now a s') :
    Recycled leaveTime now a s := by
  obtain ⟨n, t, o, hrun, ho⟩ := h
  refine ⟨n + 1, t, o, ?_, ho⟩
  rw [List.replicate_succ, List.foldlM_cons, hstep]
  exact hrun

/-- From each of its phases the thread comes to the next. -/
theorem Stage.recycled (h : Stage o) (hs : o.state = .closed) (ho : s.objects[a]? = some o)
    (leaveTime now : Int) : Recycled leaveTime now a s := by
  have hset : ∀ {t : OrbitStreamService} {x y : SessionData}, t.objects[a]? = some x →
      (t.setSession a y).objects[a]? = some y := by
    intro t x y hx
    rw [setSession_object hx, if_pos rfl]
  have hclearing : ∀ {t : OrbitStreamService} {x : SessionData}, t.objects[a]? = some x →
      x.freed = false → x.recyclers = [.clearing] → x.deletes = 1 → Recycled leaveTime now a t := by
    intro t x hx hf hr hd
    apply Recycled.step (step_recycle leaveTime now hx hf hr (recycle_clearing hr now))
    exact ⟨0, _, _, rfl, hset hx, rfl, hd⟩
  have hdeleting : ∀ {t : OrbitStreamService} {x : SessionData}, t.objects[a]? = some x →
      x.freed = false → x.recyclers = [.deleting] → x.pipeline = .live → x.deletes = 0 →
      Recycled leaveTime now a t := by
    intro t x hx hf hr hp hd
    apply Recycled.step (step_recycle leaveTime now hx hf hr (recycle_deleting hr hp now))
    exact hclearing (hset hx) hf rfl (by rw [hd])
  -- the phases that are left to the thread
  cases h with
  | active hs' | destroyed hs' => exact absurd (hs.symm.trans hs') (by decide)
  | closing p he _ hp hr hd hf =>
      cases p with
      | closing =>
          apply Recycled.step (step_recycle leaveTime now ho hf hr (recycle_closing hr hp now))
          exact hdeleting (hset ho) hf rfl hp hd
      | deleting => exact hdeleting ho hf hr hp hd
      | clearing => exact absurd rfl he
  | clearing _ _ hr hd hf => exact hclearing ho hf hr hd

/-- What the stage of a session says about its pipeline. -/
theorem Stage.deletes (h : Stage o) : o.deletes ≤ 1 ∧
    (o.state = .active → o.pipeline = .live ∧ o.deletes = 0) ∧
    (o.state = .destroyed ∨ o.freed = true → o.deletes = 1) := by
  cases h with
  | active hs hp _ hd hf => simp [hs, hp, hd, hf]
  | closing _ _ hs _ _ hd hf => simp [hs, hd, hf]
  | clearing hs _ _ hd hf => simp [hs, hd]
  | destroyed hs _ _ hd => simp [hs, hd]

/-- **Session lifecycle.**  In a run whose steps meet the condition, no step
uses a null or deleted pipeline or a deleted session (the only fault left is a
session the registry has forgotten), and in every state reached the pipeline of
a session is live while the session is active, has been deleted exactly once
when the session is destroyed or gone, and when the session is closed its
recycle thread comes to delete it, exactly once. -/
theorem run_lifecycle (leaveTime : Int) (ops : List Op)
    (hops : AllSteps (step leaveTime) (fun s op => s.Timely op = true) {} ops)
    (pre post : List Op) (hpre : ops = pre ++ post) :
    (∀ e, run leaveTime pre = .error e → ∃ id, e = .nullSessionInfo id) ∧
    ∀ s, run leaveTime pre = .ok s → ∀ (a : Nat) (o : SessionData), s.objects[a]? = some o →
      o.deletes ≤ 1 ∧
      (o.state = .active → o.pipeline = .live ∧ o.deletes = 0) ∧
      (o.state = .destroyed ∨ o.freed = true → o.deletes = 1) ∧
      (o.state = .closed → ∀ now, ∃ n s' o',
        (List.replicate n (Op.recycle a 0 now)).foldlM (step leaveTime) s = .ok s' ∧
          s'.objects[a]? = some o' ∧ o'.state = .destroyed ∧ o'.deletes = 1) := by
  subst hpre
  have hrun : Outcome Lifecycle InfoFault (run leaveTime pre) :=
    hops.left.outcome (fun s op h hop => step_lifecycle leaveTime h op hop) lifecycle_init
  refine ⟨?_, ?_⟩
  · intro e he
    rw [he] at hrun
    exact hrun
  · intro s hs a o ho
    rw [hs] at hrun
    have hstage := hrun.stage a o ho
    obtain ⟨hle, hact, hdes⟩ := Stage.deletes hstage
    exact ⟨hle, hact, hdes, fun hclosed now => Stage.recycled hstage hclosed ho leaveTime now⟩

/-- A stream falls silent, the watchdog closes it and recycles the session, and
deletes the session in a later pass. -/
def silentRun : List Op :=
  [.createSession 1 true, .arrive 1 (.createStream 5 1000), .serve 0, .traverse 700000,
    .watchDogEntry (some false), .watchDogSweep 700001, .recycle 0 0 700002, .recycle 0 0 700003,
    .destroyStream ⟨1, 5⟩, .recycle 0 0 700004, .traverse 800000, .watchDogSweep 800000]

theorem run_lifecycle_silent :
    AllSteps (step 600000) (fun s op => s.Timely op = true) {} silentRun ∧
      (run 600000 silentRun).toOption.map (fun s => s.objects) =
        some [⟨1, .null, .destroyed, 700004, [], 1, true⟩] ∧
      ∀ s, run 600000 silentRun = .ok s → ∀ (a : Nat) (o : SessionData), s.objects[a]? = some o →
        (o.state = .destroyed ∨ o.freed = true → o.deletes = 1) := by
  have hops : AllSteps (step 600000) (fun s op => s.Timely op = true) {} silentRun := by
    decide +kernel
  refine ⟨hops, by decide +kernel, ?_⟩
  intro s hs a o ho
  exact ((run_lifecycle 600000 silentRun hops silentRun [] (by simp)).2 s hs a o ho).2.2.1

/-- A session is closed by its client between the two halves of a pass of the
watchdog, which then calls the pipeline through a null pointer. -/
theorem watchdog_uses_a_null_pipeline :
    run 600000 [.createSession 1 true, .arrive 1 (.createStream 5 1000), .serve 0,
      .traverse 700000, .arrive 1 (.closeSession 700001), .serve 0,
      .watchDogEntry (some false)] = .error (.nullPipeline 1) := by
  apply eq_error_of_fault?
  decide +kernel

end OrbitStreamService

end Orbit
