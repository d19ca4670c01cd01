/-
OrbitStream/ForwardNewContinuity.lean

What a viewer of the new forwarding element is handed, across source changes.

A switch fixes the viewer's rewrite offset from the packet on top of the new
source's queue.  The queue is ordered by the numeric value of the sequence
numbers and keeps taking packets, so a packet that is older than the one a
viewer stands at is inserted in front of it and goes out next: it is not the key
frame the viewer switched at, and its output number lies behind the numbers
already used (`forwardData_reuses_a_number`).

As long as no packet is stored behind what a current looker has seen, no queue
holds numbers half of the circle apart, and a viewer's numbers stay within half
of the circle of what it got before its latest switch, the output is continuous
(`run_continuous`).  The invariant has four parts: the history of a viewer is
smooth (`Smooth`), its context describes the number it was handed last
(`Numbered`), the content of a queue is ordered (`Ordered`), and the queue of a
viewer's source holds only what comes after (`Ready`).
-/
import OrbitStream.Lib.Serial
import OrbitStream.ForwardNewAgree

namespace Orbit

open Lib

/-! ### The history of a viewer -/

/-- What happened to a viewer since it was linked. -/
inductive Item
  /-- its source changed, with this packet on top of the new source's queue -/
  | switch (frame : VideoFrame)
  /-- it was handed this packet under this output number -/
  | sent (frame : VideoFrame) (seqNumber : UInt16)
  deriving DecidableEq, Repr

/-- The packet an item is about. -/
def Item.frame : Item → VideoFrame
  | .switch f => f
  | .sent f _ => f

/-- One entry of the log, as the viewer `v` sees it.  Histories have the newest
item first. -/
def record (v : Id) (h : List Item) : Out → List Item
  | .linked w => if w = v then [] else h
  | .srcChanged w _ _ f => if w = v then .switch f :: h else h
  | .relay w f p => if w = v then .sent f p.seqNumber :: h else h
  | .fir _ _ | .relayLive _ => h

/-- The history of a viewer since it was linked last. -/
def history (v : Id) (log : List Out) : List Item := log.foldl (record v) []

/-- The output numbers of a history. -/
def outs : List Item → List UInt16
  | [] => []
  | .switch _ :: h => outs h
  | .sent _ n :: h => n :: outs h

/-- The packet handed out first after a switch is the one switched at, and
everything handed out after a switch has a serially greater number than
everything handed out before it. -/
structure Continuous (h : List Item) : Prop where
  first : ∀ post g n f pre, h = post ++ .sent g n :: .switch f :: pre → g = f
  newer : ∀ post f pre, h = post ++ .switch f :: pre →
    ∀ n ∈ outs post, ∀ m ∈ outs pre, Newer n m

/-- How far the numbering moves when `f` is handed out next. -/
def leap (f : VideoFrame) : List Item → Nat
  | [] => 0
  | .switch g :: _ => ahead f.seq g.seq + 1
  | .sent g _ :: _ => ahead f.seq g.seq

/-- How far the numbering of a viewer has moved since it was linked. -/
def travel : List Item → Nat
  | [] => 0
  | .switch _ :: h => travel h
  | .sent f _ :: h => travel h + leap f h

/-- The output numbers from before the latest switch. -/
def earlier : List Item → List UInt16
  | [] => []
  | .switch _ :: h => outs h
  | .sent _ _ :: h => earlier h

/-- After `f` the numbering is still within half of the circle of everything
handed out before the latest switch. -/
def Room (h : List Item) (f : VideoFrame) : Prop :=
  earlier h = [] ∨ travel h + leap f h ≤ 2 ^ 15

instance (h : List Item) (f : VideoFrame) : Decidable (Room h f) :=
  inferInstanceAs (Decidable (_ ∨ _))

theorem history_append (v : Id) (log l : List Out) :
    history v (log ++ l) = l.foldl (record v) (history v log) := by
  rw [history, List.foldl_append]
  rfl

theorem foldl_record_switches (v s : Id) (q : VideoFrameQueue) (f : VideoFrame)
    {vs : List Id} (hnd : vs.Nodup) (h : List Item) :
    (vs.map fun w => Out.srcChanged w s q f).foldl (record v) h =
      if v ∈ vs then .switch f :: h else h := by
  induction vs generalizing h with
  | nil => rfl
  | cons w vs ih =>
      obtain ⟨hw, hnd⟩ := List.nodup_cons.mp hnd
      rw [List.map_cons, List.foldl_cons, ih hnd]
      by_cases hv : w = v
      · subst hv
        simp [record, hw]
      · have hv' : v ≠ w := fun e => hv e.symm
        simp [record, hv, hv']

theorem foldl_record_other (v : Id) {l : List Out}
    (hl : ∀ o ∈ l, (∃ s n, o = Out.fir s n) ∨ ∃ p, o = Out.relayLive p) (h : List Item) :
    l.foldl (record v) h = h := by
  induction l generalizing h with
  | nil => rfl
  | cons o l ih =>
      rw [List.foldl_cons, ih fun o' ho' => hl o' (List.mem_cons_of_mem _ ho')]
      rcases hl o List.mem_cons_self with ⟨s, n, rfl⟩ | ⟨p, rfl⟩ <;> rfl

theorem outs_append (h h' : List Item) : outs (h ++ h') = outs h ++ outs h' := by
  induction h with
  | nil => rfl
  | cons i h ih =>
      cases i with
      | switch f => exact ih
      | sent f n => exact congrArg (n :: ·) ih

theorem outs_subset_earlier (post : List Item) (f : VideoFrame) {pre : List Item} {m : UInt16}
    (hm : m ∈ outs pre) : m ∈ earlier (post ++ .switch f :: pre) := by
  induction post with
  | nil => exact hm
  | cons i post ih =>
      cases i with
      | switch g =>
          show m ∈ outs (post ++ .switch f :: pre)
          rw [outs_append]
          exact List.mem_append_right _ hm
      | sent g n => exact ih

/-! ### Smooth histories -/

/-- `f` may be handed out next: it is the packet switched at, or newer than the
one handed out last, and the numbering stays within half of the circle of what
was handed out before the latest switch. -/
structure Next (h : List Item) (f : VideoFrame) : Prop where
  switch : ∀ g h', h = .switch g :: h' → f = g
  sent : ∀ g n h', h = .sent g n :: h' → Newer f.seq g.seq
  ne_nil : h ≠ []
  room : Room h f

/-- The histories in which every packet was handed out in its turn and under
the number that the distance travelled gives. -/
inductive Smooth : List Item → Prop
  | nil : Smooth []
  | switch {h : List Item} (f : VideoFrame) : Smooth h → Smooth (.switch f :: h)
  | sent {h : List Item} {f : VideoFrame} : Smooth h → Next h f →
      Smooth (.sent f (UInt16.ofNat (travel h + leap f h)) :: h)

theorem Next.leap_pos {h : List Item} {f : VideoFrame} (hf : Next h f) : 0 < leap f h := by
  rcases h with - | ⟨i, h'⟩
  · exact absurd rfl hf.ne_nil
  · cases i with
    | switch g => exact Nat.succ_pos _
    | sent g n => exact (hf.sent g n h' rfl).1

/-- Every number of a smooth history is a count of the distance so far. -/
theorem Smooth.outs_count {h : List Item} (hs : Smooth h) {m : UInt16} (hm : m ∈ outs h) :
    ∃ t, m = UInt16.ofNat t ∧ 0 < t ∧ t ≤ travel h := by
  induction hs with
  | nil => cases hm
  | switch f _ ih => exact ih hm
  | @sent h f _ hf ih =>
      have hpos := hf.leap_pos
      rcases List.mem_cons.mp hm with rfl | hm
      · exact ⟨travel h + leap f h, rfl, Nat.lt_of_lt_of_le hpos (Nat.le_add_left _ _),
          Nat.le_refl _⟩
      · obtain ⟨t, ht, h0, hle⟩ := ih hm
        exact ⟨t, ht, h0, Nat.le_trans hle (Nat.le_add_right _ _)⟩

theorem Smooth.first {h : List Item} (hs : Smooth h) (post : List Item) (g : VideoFrame)
    (n : UInt16) (f : VideoFrame) (pre : List Item)
    (he : h = post ++ .sent g n :: .switch f :: pre) : g = f := by
  induction hs generalizing post with
  | nil => cases post <;> cases he
  | switch f' _ ih =>
      cases post with
      | nil => cases he
      | cons i post => exact ih post (List.cons.inj he).2
  | sent _ hf ih =>
      cases post with
      | nil =>
          cases he
          exact hf.switch f pre rfl
      | cons i post => exact ih post (List.cons.inj he).2

theorem Smooth.newer {h : List Item} (hs : Smooth h) (post : List Item) (f : VideoFrame)
    (pre : List Item) (he : h = post ++ .switch f :: pre) :
    ∀ n ∈ outs post, ∀ m ∈ outs pre, Newer n m := by
  induction hs generalizing post with
  | nil => cases post <;> cases he
  | switch f' _ ih =>
      cases post with
      | nil =>
          intro n hn
          cases hn
      | cons i post =>
          obtain ⟨rfl, hrest⟩ := List.cons.inj he
          exact ih post hrest
  | @sent h g hs hf ih =>
      cases post with
      | nil => cases he
      | cons i post =>
          obtain ⟨rfl, hrest⟩ := List.cons.inj he
          change h = post ++ .switch f :: pre at hrest
          intro n hn m hm
          rcases List.mem_cons.mp hn with rfl | hn
          · -- the new number against one from before some earlier switch
            have hpos := hf.leap_pos
            obtain ⟨t, rfl, h0, hle⟩ := hs.outs_count (m := m) (by
              rw [hrest, outs_append]
              exact List.mem_append_right _ hm)
            have hroom : travel h + leap g h ≤ 2 ^ 15 := by
              rcases hf.room with hempty | hroom
              · have hm' := outs_subset_earlier post f hm
                rw [← hrest, hempty] at hm'
                cases hm'
              · exact hroom
            apply newer_ofNat <;> omega
          · exact ih post hrest n hn m hm

theorem Smooth.continuous {h : List Item} (hs : Smooth h) : Continuous h :=
  ⟨hs.first, hs.newer⟩

/-- The context of a viewer describes what it was handed last. -/
structure Numbered (sc : VideoSwitchContext) (h : List Item) : Prop where
  seq_eq : sc.seq = UInt16.ofNat (travel h)
  after_switch : ∀ f h', h = .switch f :: h' → sc.baseSeq = f.seq ∧ sc.lastSeq = sc.seq + 1
  after_sent : ∀ f n h', h = .sent f n :: h' → sc.seq = f.seq - sc.baseSeq + sc.lastSeq

theorem numbered_nil {sc : VideoSwitchContext} (hsc : sc.seq = 0) : Numbered sc [] where
  seq_eq := hsc
  after_switch := by
    intro f h' he
    cases he
  after_sent := by
    intro f n h' he
    cases he

theorem Numbered.rebase {sc : VideoSwitchContext} {h : List Item} (hn : Numbered sc h)
    (f : VideoFrame) : Numbered (sc.rebase f.seq f.ts) (.switch f :: h) := by
  refine ⟨?_, ?_, ?_⟩
  · rw [VideoSwitchContext.rebase_seq]
    exact hn.seq_eq
  · intro g h' he
    cases he
    simp
  · intro g n h' he
    cases he

/-- The number of the next packet. -/
theorem Numbered.advance_seq {sc : VideoSwitchContext} {h : List Item} (hn : Numbered sc h)
    {f : VideoFrame} (hf : Next h f) :
    (sc.advance f.seq f.ts).seq = UInt16.ofNat (travel h + leap f h) := by
  rw [VideoSwitchContext.advance_seq, UInt16.ofNat_add, ← hn.seq_eq]
  rcases h with - | ⟨i, h'⟩
  · exact absurd rfl hf.ne_nil
  · cases i with
    | switch g =>
        -- the first packet of a source: its number is the last one plus one
        obtain rfl := hf.switch g h' rfl
        obtain ⟨hb, hl⟩ := hn.after_switch f h' rfl
        simp [hb, hl, leap]
    | sent g n => exact follow (hn.after_sent g n h' rfl)

theorem Numbered.advance {sc : VideoSwitchContext} {h : List Item} (hn : Numbered sc h)
    {f : VideoFrame} (hf : Next h f) :
    Numbered (sc.advance f.seq f.ts) (.sent f (sc.advance f.seq f.ts).seq :: h) := by
  refine ⟨hn.advance_seq hf, ?_, ?_⟩
  · intro g h' he
    cases he
  · intro g n h' he
    cases he
    simp

theorem Smooth.advance {sc : VideoSwitchContext} {h : List Item} (hs : Smooth h)
    (hn : Numbered sc h) {f : VideoFrame} (hf : Next h f) :
    Smooth (.sent f (sc.advance f.seq f.ts).seq :: h) := by
  rw [hn.advance_seq hf]
  exact hs.sent hf

/-! ### The content of a queue -/

/-- The content of a queue. -/
abbrev Frames := Std.TreeMap UInt16 VideoFrame

/-- Packets are stored under their numbers, and no two numbers are half of the
circle apart. -/
structure Ordered (frames : Frames) : Prop where
  keyed : ∀ {k : UInt16} {f : VideoFrame}, frames[k]? = some f → f.seq = k
  near : ∀ {k k' : UInt16}, k ∈ frames → k' ∈ frames → k.toNat - k'.toNat < 2 ^ 15

theorem Ordered.keyed_frames {frames : Frames} (ho : Ordered frames) : Keyed frames :=
  fun _ _ h => ho.keyed h

/-- The packet with the least number. -/
structure IsFirst (frames : Frames) (f : VideoFrame) : Prop where
  stored : frames[f.seq]? = some f
  least : ∀ k ∈ frames, f.seq.toNat ≤ k.toNat

theorem IsFirst.mem {frames : Frames} {f : VideoFrame} (h : IsFirst frames f) :
    f.seq ∈ frames := (Std.TreeMap.getElem?_eq_some_iff.mp h.stored).1

theorem isFirst_iff {q : VideoFrameQueue} (ho : Ordered q.frames) {f : VideoFrame} :
    q.first = some f ↔ IsFirst q.frames f := by
  rw [VideoFrameQueue.first]
  constructor
  · intro h
    rcases hk : q.frames.keys.head? with - | k
    · rw [hk] at h
      cases h
    · rw [hk] at h
      have hmin := head_keys_eq_some.mp hk
      have hseq := ho.keyed h
      rw [← hseq] at h hmin
      exact ⟨h, hmin.2⟩
  · intro h
    have hk : q.frames.keys.head? = some f.seq := head_keys_eq_some.mpr ⟨h.mem, h.least⟩
    rw [hk]
    exact h.stored

theorem isFirst_unique {frames : Frames} {f g : VideoFrame} (hf : IsFirst frames f)
    (hg : IsFirst frames g) : f = g := by
  have h₁ := hf.least g.seq hg.mem
  have h₂ := hg.least f.seq hf.mem
  have hs : f.seq = g.seq := UInt16.toNat_inj.mp (Nat.le_antisymm h₁ h₂)
  have hfs := hf.stored
  rw [hs, hg.stored] at hfs
  exact (Option.some.inj hfs).symm

theorem IsFirst.newer {frames : Frames} {f : VideoFrame} (h : IsFirst frames f)
    (ho : Ordered frames) {k : UInt16} (hk : k ∈ frames) (hne : k ≠ f.seq) :
    Newer k f.seq := by
  apply newer_of_lt
  · apply Nat.lt_of_le_of_ne (h.least k hk)
    intro he
    exact hne (UInt16.toNat_inj.mp he.symm)
  · exact ho.near hk h.mem

theorem ordered_empty : Ordered ∅ where
  keyed := keyed_empty _ _
  near := by
    intro k k' h
    simp at h

theorem mem_insert_frames {frames : Frames} {f : VideoFrame} {k : UInt16} :
    k ∈ frames.insert f.seq f ↔ k = f.seq ∨ k ∈ frames := by
  rw [Std.TreeMap.mem_insert, Std.compare_eq_iff_eq, eq_comm]

theorem Ordered.insert {frames : Frames} (ho : Ordered frames) {f : VideoFrame}
    (hnear : ∀ k ∈ frames, f.seq.toNat - k.toNat < 2 ^ 15 ∧ k.toNat - f.seq.toNat < 2 ^ 15) :
    Ordered (frames.insert f.seq f) where
  keyed := ho.keyed_frames.insert f _ _
  near := by
    intro k k' hk hk'
    rw [mem_insert_frames] at hk hk'
    rcases hk with rfl | hk <;> rcases hk' with rfl | hk'
    · omega
    · exact (hnear k' hk').1
    · exact (hnear k hk).2
    · exact ho.near hk hk'

theorem Ordered.erase {frames : Frames} (ho : Ordered frames) (k : UInt16) :
    Ordered (frames.erase k) where
  keyed := ho.keyed_frames.erase k _ _
  near := by
    intro k₁ k₂ h₁ h₂
    exact ho.near (Std.TreeMap.mem_of_mem_erase h₁) (Std.TreeMap.mem_of_mem_erase h₂)

/-- A newer packet does not become the first one. -/
theorem IsFirst.insert {frames : Frames} {f g : VideoFrame} (h : IsFirst frames f)
    (hnear : f.seq.toNat - g.seq.toNat < 2 ^ 15) (hnew : Newer g.seq f.seq) :
    IsFirst (frames.insert g.seq g) f := by
  have hlt := lt_of_newer hnew hnear
  have hne : g.seq ≠ f.seq := by
    intro he
    rw [he] at hlt
    exact Nat.lt_irrefl _ hlt
  refine ⟨?_, ?_⟩
  · rw [Std.TreeMap.getElem?_insert, if_neg]
    · exact h.stored
    · rw [Std.compare_eq_iff_eq]
      exact hne
  · intro k hk
    rcases mem_insert_frames.mp hk with rfl | hk
    · exact Nat.le_of_lt hlt
    · exact h.least k hk

/-! ### What a queue holds for its viewers -/

/-- The queue of a viewer's source holds only what may be handed to it. -/
structure Ready (h : List Item) (frames : Frames) : Prop where
  switch : ∀ f h', h = .switch f :: h' → IsFirst frames f
  sent : ∀ f n h', h = .sent f n :: h' → ∀ k ∈ frames, Newer k f.seq
  ne_nil : h ≠ []

/-- The viewer was handed the first packet of the queue, which is not popped
yet. -/
def Served (h : List Item) (frames : Frames) : Prop :=
  ∃ f n h', h = .sent f n :: h' ∧ ∀ k ∈ frames, frames.keys.head? ≠ some k → Newer k f.seq

theorem ready_switch {frames : Frames} {f : VideoFrame} (hf : IsFirst frames f)
    (h : List Item) : Ready (.switch f :: h) frames where
  switch := by
    intro g h' he
    cases he
    exact hf
  sent := by
    intro g n h' he
    cases he
  ne_nil := by simp

theorem Ready.next {h : List Item} {frames : Frames} (hr : Ready h frames) {f : VideoFrame}
    (hf : IsFirst frames f) (hroom : Room h f) : Next h f where
  switch := fun g h' he => isFirst_unique hf (hr.switch g h' he)
  sent := fun g n h' he => hr.sent g n h' he f.seq hf.mem
  ne_nil := hr.ne_nil
  room := hroom

theorem served_sent {frames : Frames} (ho : Ordered frames) {f : VideoFrame}
    (hf : IsFirst frames f) (n : UInt16) (h : List Item) : Served (.sent f n :: h) frames := by
  refine ⟨f, n, h, rfl, ?_⟩
  intro k hk hmin
  apply hf.newer ho hk
  rintro rfl
  exact hmin (head_keys_eq_some.mpr ⟨hk, hf.least⟩)

/-- A viewer whose source has nothing to show is served. -/
theorem Ready.served {h : List Item} {frames : Frames} (hr : Ready h frames)
    (hempty : ∀ k, k ∉ frames) : Served h frames := by
  rcases h with - | ⟨i, h'⟩
  · exact absurd rfl hr.ne_nil
  · cases i with
    | switch f => exact absurd (hr.switch f h' rfl).mem (hempty _)
    | sent f n => exact ⟨f, n, h', rfl, fun k hk => absurd hk (hempty k)⟩

/-- Popping makes the queue ready for the viewers it served. -/
theorem Served.pop {h : List Item} {frames : Frames} (hs : Served h frames) {k : UInt16}
    (hk : frames.keys.head? = some k) : Ready h (frames.erase k) := by
  obtain ⟨f, n, h', rfl, hnew⟩ := hs
  refine ⟨?_, ?_, by simp⟩
  · intro g h'' he
    cases he
  · intro g m h'' he k' hk'
    cases he
    rw [Std.TreeMap.mem_erase, ne_eq, Std.compare_eq_iff_eq] at hk'
    apply hnew k' hk'.2
    rw [hk]
    intro he
    exact hk'.1 (Option.some.inj he)

theorem Served.ready {h : List Item} {frames : Frames} (hs : Served h frames)
    (hempty : ∀ k, k ∉ frames) : Ready h frames := by
  obtain ⟨f, n, h', rfl, -⟩ := hs
  refine ⟨?_, ?_, by simp⟩
  · intro g h'' he
    cases he
  · intro g m h'' _ k hk
    exact absurd hk (hempty k)

/-- The packet a viewer stands at. -/
def mark (h : List Item) : Option VideoFrame := h.head?.map Item.frame

theorem Ready.insert {h : List Item} {frames : Frames} (hr : Ready h frames) {f : VideoFrame}
    (hnear : ∀ k ∈ frames, k.toNat - f.seq.toNat < 2 ^ 15)
    (hnew : ∀ m, mark h = some m → Newer f.seq m.seq) :
    Ready h (frames.insert f.seq f) where
  switch := by
    rintro g h' rfl
    have hg := hr.switch g h' rfl
    exact hg.insert (hnear g.seq hg.mem) (hnew g rfl)
  sent := by
    rintro g n h' rfl k hk
    rcases mem_insert_frames.mp hk with rfl | hk
    · exact hnew g rfl
    · exact hr.sent g n h' rfl k hk
  ne_nil := hr.ne_nil

namespace VideoForwardElementNew

open VideoMap VideoFrameQueue

/-! ### The invariant -/

/-- The invariant of the element.  `R` is what the queue of a viewer's source
holds for it: `Ready` between two operations, `Ready` or `Served` inside a pass. -/
structure Steady (R : Id → Id → List Item → Frames → Prop) (e : VideoForwardElementNew) :
    Prop where
  ordered : ∀ {s : Id} {q : VideoFrameQueue}, e.queueMap[s]? = some q → Ordered q.frames
  smooth : ∀ v, Smooth (history v e.log)
  numbered : ∀ {v : Id} {sc : VideoSwitchContext}, e.videoSwitchContexts[v]? = some sc →
    Numbered sc (history v e.log)
  status : ∀ {v s : Id} {q : VideoFrameQueue}, e.videoMapper.src v = some s → s ≠ NOID →
    e.queueMap[s]? = some q → R v s (history v e.log) q.frames

variable {R : Id → Id → List Item → Frames → Prop} {e e' : VideoForwardElementNew}

theorem Notified.history {evs : List Event} (hn : Notified e evs e') (v : Id) :
    history v e'.log = history v e.log := by
  obtain ⟨l, hl, hfir⟩ := hn.log
  rw [hl, history_append]
  exact foldl_record_other v (fun o ho => Or.inl (hfir o ho)) _

/-- A queue with a looker keeps its packets when the listeners run. -/
theorem Notified.frames {vm : VideoMap} {r : VideoMap × List Event} (hn : Notified e r.2 e')
    (hr : Reports vm r) {s : Id} {q' : VideoFrameQueue} (hq' : e'.queueMap[s]? = some q') :
    ∃ q, e.queueMap[s]? = some q ∧ (q'.frames = q.frames ∨
      (q'.frames = ∅ ∧ (s ∈ r.1.allNode → r.1.getLookerCount s = 0))) := by
  rw [hn.queue] at hq'
  obtain ⟨q, hq, rfl⟩ := Option.map_eq_some_iff.mp hq'
  refine ⟨q, hq, ?_⟩
  rcases foldl_notify_frames s r.2 q with h | ⟨hd, h⟩
  · exact Or.inl h
  · refine Or.inr ⟨h, ?_⟩
    intro hs
    obtain ⟨evs, hevs, hprep⟩ := hr
    rw [hevs] at hd
    rcases List.mem_append.mp hd with hd | hd
    · obtain ⟨x, hx⟩ := hprep _ hd
      cases hx
    · exact (mem_detect_disabled.mp hd).2.2.resolve_left fun hc => hc hs

theorem lookerCount_pos {vm : VideoMap} (hg : Graph vm) {v s : Id} (hs : vm.src v = some s) :
    vm.getLookerCount s ≠ 0 := by
  have hm : v ∈ vm.lookers s := (hg.cur_ok.mem_back).mpr hs
  have hpos : 0 < (vm.lookers s).card := Finset.card_pos.mpr ⟨v, hm⟩
  rw [getLookerCount]
  omega

/-- The listeners of an operation that is not a source change keep the
invariant. -/
theorem Steady.notified {vm : VideoMap} {r : VideoMap × List Event} (h : Steady R e)
    (hmap : e.videoMapper = r.1) (hg : Graph r.1) (hn : Notified e r.2 e')
    (hr : Reports vm r) : Steady R e' where
  ordered := by
    intro s q' hq'
    obtain ⟨q, hq, hf | ⟨hf, -⟩⟩ := hn.frames hr hq'
    · rw [hf]
      exact h.ordered hq
    · rw [hf]
      exact ordered_empty
  smooth := by
    intro v
    rw [hn.history]
    exact h.smooth v
  numbered := by
    intro v sc hsc
    rw [hn.history]
    exact h.numbered (hn.contexts ▸ hsc)
  status := by
    intro v s q' hs hne hq'
    rw [hn.mapper] at hs
    obtain ⟨q, hq, hf | ⟨-, hzero⟩⟩ := hn.frames hr hq'
    · rw [hf, hn.history]
      exact h.status hs hne hq
    · -- the stream is looked at, so it was not disabled
      rw [hmap] at hs
      exact absurd (hzero (hg.cur_live hs).2) (lookerCount_pos hg hs)

/-- The invariant between two operations. -/
abbrev Settled : VideoForwardElementNew → Prop := Steady fun _ _ => Ready

theorem settled_init : Settled init where
  ordered := by
    intro s q hq
    simp [init] at hq
  smooth := fun _ => Smooth.nil
  numbered := by
    intro v sc hsc
    simp [init] at hsc
  status := by
    intro v s q hs
    simp [init, VideoMap.init, VideoMap.src, Links.empty] at hs

/-! ### Link, unlink, change of speaker -/

theorem history_linking (e : VideoForwardElementNew) (s v : Id) :
    history v (e.linking s).log = if s = v then [] else history v e.log := by
  show history v (e.log ++ [Out.linked s]) = _
  rw [history_append]
  rfl

theorem linking_context (e : VideoForwardElementNew) (s v : Id) :
    (e.linking s).videoSwitchContexts[v]? =
      if s = v then some {} else e.videoSwitchContexts[v]? := by
  show (e.videoSwitchContexts.insert s {})[v]? = _
  rw [Std.TreeMap.getElem?_insert]
  by_cases hv : s = v <;> simp [hv]

/-- A new viewer starts with an empty history, a new queue is empty. -/
theorem Settled.linking (h : Settled e) (ha : Agree e) {s : Id}
    (hs : s ∉ e.videoMapper.allNode) : Settled (e.linking s) where
  ordered := by
    intro t q hq
    rw [linking_queue] at hq
    split at hq
    · obtain rfl := Option.some.inj hq
      exact ordered_empty
    · exact h.ordered hq
  smooth := by
    intro v
    rw [history_linking]
    split
    · exact Smooth.nil
    · exact h.smooth v
  numbered := by
    intro v sc hsc
    rw [linking_context] at hsc
    rw [history_linking]
    split at hsc
    · rename_i hv
      obtain rfl := Option.some.inj hsc
      rw [if_pos hv]
      exact numbered_nil rfl
    · rename_i hv
      rw [if_neg hv]
      exact h.numbered hsc
  status := by
    intro v t q ht hne hq
    have hadd := add_added ha.graph hs
    change (e.videoMapper.add s).1.src v = some t at ht
    rw [hadd.src] at ht
    -- nobody looks at the new stream, and it looks at nobody
    obtain ⟨hv, ht'⟩ := ha.graph.cur_live ht
    have hsv : s ≠ v := fun he => hs (he ▸ hv)
    have hst : s ≠ t := fun he => hs (he ▸ ht')
    rw [history_linking, if_neg hsv]
    rw [linking_queue, if_neg hst] at hq
    exact h.status ht hne hq

/-- Taking a viewer's source away keeps the invariant. -/
theorem Steady.mapper (h : Steady R e) {vm : VideoMap}
    (hsrc : ∀ {v s}, vm.src v = some s → e.videoMapper.src v = some s) :
    Steady R { e with videoMapper := vm } where
  ordered := h.ordered
  smooth := h.smooth
  numbered := h.numbered
  status := fun hs hne hq => h.status (hsrc hs) hne hq

theorem Steady.erased (h : Steady R e) (s : Id) : Steady R (e.erased s) where
  ordered := by
    intro t q hq
    rw [erased_queue] at hq
    split at hq
    · cases hq
    · exact h.ordered hq
  smooth := h.smooth
  numbered := by
    intro v sc hsc
    rw [erased_context] at hsc
    split at hsc
    · cases hsc
    · exact h.numbered hsc
  status := by
    intro v t q ht hne hq
    rw [erased_queue] at hq
    split at hq
    · cases hq
    · exact h.status ht hne hq

theorem Settled.linkVideoStream (h : Settled e) (ha : Agree e) (s : Id) :
    ∃ e', e.linkVideoStream s = .ok e' ∧ Agree e' ∧ Settled e' := by
  rcases Decidable.em (s ∈ e.videoMapper.allNode) with hs | hs
  · exact ⟨e, linkVideoStream_present ha hs, ha, h⟩
  · obtain ⟨e', he', ha', hn⟩ := linkVideoStream_new ha hs
    refine ⟨e', he', ha', ?_⟩
    apply (h.linking ha hs).notified rfl _ hn (add_reports hs)
    exact added_graph ha.graph hs (add_added ha.graph hs)

theorem Settled.unlinkVideoStream (h : Settled e) (ha : Agree e) (s : Id) :
    ∃ e', e.unlinkVideoStream s = .ok e' ∧ Agree e' ∧ Settled e' := by
  rcases Decidable.em (s ∈ e.videoMapper.allNode) with hs | hs
  · obtain ⟨e', he', ha', hn⟩ := unlinkVideoStream_present ha hs
    have hrem := remove_removed ha.graph hs
    refine ⟨e'.erased s, he', ha', ?_⟩
    apply Steady.erased
    have hm : Settled { e with videoMapper := (e.videoMapper.remove s).1 } := by
      apply h.mapper
      intro v t ht
      rw [hrem.src] at ht
      split at ht
      · cases ht
      · exact ht
    exact hm.notified rfl (removed_graph ha.graph hs hrem) hn (remove_reports hs)
  · obtain ⟨he', ha'⟩ := unlinkVideoStream_absent ha hs
    exact ⟨e.erased s, he', ha', h.erased s⟩

theorem Settled.changeToSpeaker (h : Settled e) (ha : Agree e) (s : Id) :
    ∃ e', e.changeToSpeaker s = .ok e' ∧ Agree e' ∧ Settled e' := by
  rcases Decidable.em (s ∈ e.videoMapper.allNode ∧ s ≠ e.videoMapper.master) with hs | hs
  · obtain ⟨e', he', ha', hn⟩ := changeToSpeaker_master ha hs.1 hs.2
    have hmas := setMaster_mastered ha.graph hs.1 hs.2
    refine ⟨e', he', ha', ?_⟩
    have hm : Settled { e with videoMapper := (e.videoMapper.setMaster s).1 } := by
      apply h.mapper
      intro v t ht
      rw [VideoMap.src, hmas.cur] at ht
      exact ht
    exact hm.notified rfl (mastered_graph ha.graph hs.1 hs.2 hmas) hn
      (setMaster_reports hs.1 hs.2)
  · refine ⟨e, changeToSpeaker_ignored ?_, ha, h⟩
    tauto

theorem Settled.requestSpeakerKeyFrame (h : Settled e) : Settled e.requestSpeakerKeyFrame := by
  rw [VideoForwardElementNew.requestSpeakerKeyFrame]
  split
  · have hh : ∀ v, history v (e.sendFir e.videoMapper.getMaster).log = history v e.log := by
      intro v
      show history v (e.log ++ [_]) = _
      rw [history_append]
      rfl
    refine ⟨h.ordered, ?_, ?_, ?_⟩
    · intro v
      rw [hh]
      exact h.smooth v
    · intro v sc hsc
      rw [hh]
      exact h.numbered hsc
    · intro v s q hs hne hq
      rw [hh]
      exact h.status hs hne hq
  · exact h

/-! ### Pushing and popping -/

/-- A queue is stored: `R₀` described the queues before and `R` describes them after. -/
theorem Steady.store {R₀ : Id → Id → List Item → Frames → Prop} (h : Steady R₀ e)
    {s : Id} {q q' : VideoFrameQueue} (hq : e.queueMap[s]? = some q) (hord : Ordered q'.frames)
    (hother : ∀ {v t : Id} {h : List Item} {frames : Frames}, t ≠ s → R₀ v t h frames →
      R v t h frames)
    (hsame : ∀ {v : Id} {h : List Item}, e.videoMapper.src v = some s →
      h = history v e.log → R₀ v s h q.frames → R v s h q'.frames) :
    Steady R { e with queueMap := e.queueMap.insert s q' } where
  ordered := by
    intro t p hp
    rw [insert_queue] at hp
    split at hp
    · obtain rfl := Option.some.inj hp
      exact hord
    · exact h.ordered hp
  smooth := h.smooth
  numbered := h.numbered
  status := by
    intro v t p ht hne hp
    rw [insert_queue] at hp
    split at hp
    · rename_i hst
      subst hst
      obtain rfl := Option.some.inj hp
      exact hsame ht rfl (h.status ht hne hq)
    · rename_i hst
      exact hother (fun he => hst he.symm) (h.status ht hne hp)

theorem Rebased.history {s : Id} {q : VideoFrameQueue} {f : VideoFrame} {vs : List Id}
    (hreb : Rebased e s q f vs e') (hnd : vs.Nodup) (v : Id) :
    history v e'.log = if v ∈ vs then .switch f :: history v e.log else history v e.log := by
  rw [hreb.log, history_append]
  exact foldl_record_switches v s q f hnd _

/-- A viewer that does not switch to a stream was looking there already, or keeps its
source. -/
theorem src_of_not_switching (hg : Graph e.videoMapper) {s v t : Id}
    (hs : s ∈ e.videoMapper.allNode)
    (hv : v ∉ e.videoMapper.switching s e.videoMapper.allNode.toList)
    (ht : (e.videoMapper.setPrepared s).1.src v = some t) : e.videoMapper.src v = some t := by
  obtain ⟨hsw, -⟩ := setPrepared_spec hg hs
  rw [hsw.src] at ht
  split at ht
  · rename_i hw
    by_contra hc
    apply hv
    rw [mem_switching]
    refine ⟨hw.1, hw.2, ?_⟩
    rw [ht]
    exact hc
  · exact ht

/-- The viewers that waited for a stream switch to the packet on top of its queue. -/
theorem Steady.rebased (h : Steady R e) (hg : Graph e.videoMapper) {s : Id}
    {q : VideoFrameQueue} {f : VideoFrame} (hs : s ∈ e.videoMapper.allNode)
    (hq : e.queueMap[s]? = some q)
    (hreb : Rebased { e with videoMapper := (e.videoMapper.setPrepared s).1 } s q f
      (e.videoMapper.switching s e.videoMapper.allNode.toList) e')
    (hnew : ∀ {v : Id} {h : List Item}, R v s (.switch f :: h) q.frames) : Steady R e' := by
  have hhist := hreb.history (switching_nodup e.videoMapper s)
  refine ⟨?_, ?_, ?_, ?_⟩
  · intro t p hp
    rw [hreb.queueMap] at hp
    exact h.ordered hp
  · intro v
    rw [hhist]
    split
    · exact (h.smooth v).switch f
    · exact h.smooth v
  · intro v sc hsc
    rw [hreb.contexts] at hsc
    rw [hhist]
    split at hsc
    · rename_i hv
      rw [if_pos hv]
      obtain ⟨sc₀, hsc₀, rfl⟩ := Option.map_eq_some_iff.mp hsc
      exact (h.numbered hsc₀).rebase f
    · rename_i hv
      rw [if_neg hv]
      exact h.numbered hsc
  · intro v t p ht hne hp
    rw [hreb.queueMap] at hp
    rw [hreb.mapper] at ht
    rw [hhist]
    rcases Decidable.em (v ∈ e.videoMapper.switching s e.videoMapper.allNode.toList) with hv | hv
    · -- the viewer switches: its history ends with the packet on top
      obtain ⟨hsw, -⟩ := setPrepared_spec hg hs
      have hmem := mem_switching.mp hv
      change (e.videoMapper.setPrepared s).1.src v = some t at ht
      rw [hsw.src, if_pos ⟨hmem.1, hmem.2.1⟩] at ht
      obtain rfl := Option.some.inj ht
      obtain rfl := Option.some.inj (hq.symm.trans hp)
      rw [if_pos hv]
      exact hnew
    · -- the viewer was already looking at the stream, or looks elsewhere
      rw [if_neg hv]
      exact h.status (src_of_not_switching hg hs hv ht) hne hp

/-- A queue was stored and perhaps announced: `r` holds the packets of `s` now. -/
theorem Steady.put {R₀ : Id → Id → List Item → Frames → Prop} (h : Steady R₀ e) (ha : Agree e)
    {s : Id} {q : VideoFrameQueue} {r : VideoFrameQueue × Bool}
    (hq : e.queueMap[s]? = some q) (hput : Put e s r e') (hord : Ordered r.1.frames)
    (hother : ∀ {v t : Id} {h : List Item} {frames : Frames}, t ≠ s → R₀ v t h frames →
      R v t h frames)
    (hsame : ∀ {v : Id} {h : List Item}, e.videoMapper.src v = some s →
      h = history v e.log → R₀ v s h q.frames → R v s h r.1.frames)
    (hnew : ∀ {v : Id} {h : List Item} {f : VideoFrame}, IsFirst r.1.frames f →
      R v s (.switch f :: h) r.1.frames) : Steady R e' := by
  have hst : Steady R { e with queueMap := e.queueMap.insert s r.1 } :=
    h.store hq hord hother hsame
  cases hput with
  | quiet hr he => exact he ▸ hst
  | announced f e₁ hr hf hk hreb hn =>
      have hs : s ∈ e.videoMapper.allNode := ha.mem_of_queue hq
      obtain ⟨hsw, -⟩ := setPrepared_spec ha.graph hs
      have hfirst : IsFirst r.1.frames f := by
        apply (isFirst_iff hord).mp
        rw [topPacket] at hf
        split at hf
        · exact hf
        · cases hf
      have hstored : (e.queueMap.insert s r.1)[s]? = some r.1 := by
        rw [insert_queue, if_pos rfl]
      have hreb' : Steady R e₁ := hst.rebased ha.graph hs hstored hreb (hnew hfirst)
      have hg : Graph (e.videoMapper.setPrepared s).1 := switched_graph ha.graph hs hsw
      exact hreb'.notified (r := ((e.videoMapper.setPrepared s).1,
        detect e.videoMapper (e.videoMapper.setPrepared s).1)) hreb.mapper hg hn ⟨[], rfl, by simp⟩

/-- The packet `f`, when the queue `q` of `s` puts it beside those it holds, is
not half of the circle away from them, and it is newer than the packet every
current looker of `s` stands at. -/
def InOrder (e : VideoForwardElementNew) (s : Id) (q : VideoFrameQueue) (f : VideoFrame) : Prop :=
  ((q.hasLooker = true ∨ (f.isKeyframe = false ∧ q.firstIsKeyFrame = true)) →
    ∀ k ∈ q.frames.keys, f.seq.toNat - k.toNat < 2 ^ 15 ∧ k.toNat - f.seq.toNat < 2 ^ 15) ∧
  ∀ v ∈ e.videoMapper.getAllId, e.videoMapper.src v = some s →
    ∀ m ∈ mark (history v e.log), Newer f.seq m.seq

instance (e : VideoForwardElementNew) (s : Id) (q : VideoFrameQueue) (f : VideoFrame) :
    Decidable (InOrder e s q f) :=
  -- over the keys that are there, not over all 16 bit numbers
  have : Decidable (∀ k ∈ q.frames.keys,
      f.seq.toNat - k.toNat < 2 ^ 15 ∧ k.toNat - f.seq.toNat < 2 ^ 15) := List.decidableBAll _ _
  inferInstanceAs (Decidable (_ ∧ _))

/-- The condition on an operation under which the output stays continuous, on
the state before it: a packet that will be stored is in order, and a viewer that
will be handed a packet has room for it. -/
def Orderly (parse : Depacketizer) (e : VideoForwardElementNew) : Op → Prop
  | .onIncomingPacket s p => ∀ q ∈ e.queueMap[s]?, q.enabled = true → p.length ≠ 0 →
      (VideoFrame.ofPacket parse p.data p.length).seq ∉ q.frames →
        InOrder e s q (VideoFrame.ofPacket parse p.data p.length)
  | .forwardData => ∀ v ∈ e.videoMapper.getAllId, ∀ s ∈ e.videoMapper.src v, s ≠ NOID →
      ∀ q ∈ e.queueMap[s]?, ∀ f ∈ q.topPacket, Room (history v e.log) f
  | _ => True

instance (parse : Depacketizer) (e : VideoForwardElementNew) :
    ∀ op, Decidable (Orderly parse e op)
  | .onIncomingPacket s p => inferInstanceAs (Decidable (∀ q ∈ e.queueMap[s]?,
      q.enabled = true → p.length ≠ 0 →
        (VideoFrame.ofPacket parse p.data p.length).seq ∉ q.frames →
          InOrder e s q (VideoFrame.ofPacket parse p.data p.length)))
  | .forwardData => inferInstanceAs (Decidable (∀ v ∈ e.videoMapper.getAllId,
      ∀ s ∈ e.videoMapper.src v, s ≠ NOID → ∀ q ∈ e.queueMap[s]?, ∀ f ∈ q.topPacket,
        Room (history v e.log) f))
  | .linkVideoStream _ => isTrue trivial
  | .unlinkVideoStream _ => isTrue trivial
  | .changeToSpeaker _ => isTrue trivial
  | .requestSpeakerKeyFrame => isTrue trivial

theorem no_looker (ha : Agree e) {s : Id} {q : VideoFrameQueue} (hq : e.queueMap[s]? = some q)
    (hl : q.hasLooker = false) (v : Id) : e.videoMapper.src v ≠ some s := by
  intro hs
  have hm : v ∈ e.videoMapper.lookers s := (ha.graph.cur_ok.mem_back).mpr hs
  have hpos : 0 < (e.videoMapper.lookers s).card := Finset.card_pos.mpr ⟨v, hm⟩
  have hon : q.hasLooker = true := by
    apply (ha.flags hq).hasLooker.mpr
    exact ⟨(ha.graph.cur_live hs).2, decide_eq_true hpos⟩
  rw [hl] at hon
  cases hon

/-- A push of a packet in order. -/
theorem Settled.pushFrame (h : Settled e) (ha : Agree e) {s : Id} {q : VideoFrameQueue}
    (hq : e.queueMap[s]? = some q) {f : VideoFrame}
    (hord : q.enabled = true → f.seq ∉ q.frames → InOrder e s q f)
    (hput : Put e s (q.pushFrame f) e') : Settled e' := by
  have ho := h.ordered hq
  rcases q.pushFrame_cases f with hr | ⟨hen, hn, hl, hr⟩ | ⟨hen, hn, hl, hk, hr⟩ |
    ⟨hen, hn, hl, hk, hfk, hr⟩
  · -- not stored
    rw [hr] at hput
    exact h.put ha hq hput ho (fun _ hr => hr) (fun _ _ hr => hr) fun hf => ready_switch hf _
  · -- stored beside the others, in front of nobody
    obtain ⟨hnear, hnewer⟩ := hord hen hn
    have hnear := fun k hk => hnear (Or.inl hl) k (Std.TreeMap.mem_keys.mpr hk)
    rw [hr] at hput
    apply h.put ha hq hput (ho.insert hnear) (fun _ hr => hr) _ fun hf => ready_switch hf _
    intro v hist hs he hready
    apply hready.insert fun k hk => (hnear k hk).2
    intro m hm
    rw [he] at hm
    exact hnewer v (Std.TreeSet.mem_toList.mpr (ha.graph.cur_live hs).1) hs m hm
  · -- stored alone: there is no looker
    rw [hr] at hput
    apply h.put ha hq hput _ (fun _ hr => hr) _ fun hf => ready_switch hf _
    · apply ordered_empty.insert
      intro k hk
      simp at hk
    · intro v hist hs
      exact absurd hs (no_looker ha hq hl v)
  · -- stored beside the others, without a looker
    have hnear := fun k hk' => (hord hen hn).1 (Or.inr ⟨hk, hfk⟩) k (Std.TreeMap.mem_keys.mpr hk')
    rw [hr] at hput
    apply h.put ha hq hput (ho.insert hnear) (fun _ hr => hr) _ fun hf => ready_switch hf _
    intro v hist hs
    exact absurd hs (no_looker ha hq hl v)

theorem Settled.onIncomingPacket (parse : Depacketizer) (h : Settled e) (ha : Agree e) (s : Id)
    (p : DataPacket) (hord : Orderly parse e (.onIncomingPacket s p)) :
    ∃ e', e.onIncomingPacket parse s p = .ok e' ∧ Agree e' ∧ Settled e' := by
  rcases hq : e.queueMap[s]? with - | q
  · exact ⟨e, by rw [VideoForwardElementNew.onIncomingPacket, hq], ha, h⟩
  · obtain ⟨e', he', ha', hput⟩ := onIncomingPacket_ok parse ha hq p
    refine ⟨e', he', ha', ?_⟩
    rw [pushPacket] at hput
    split at hput
    · exact h.put ha hq hput (h.ordered hq) (fun _ hr => hr) (fun _ _ hr => hr)
        fun hf => ready_switch hf _
    · rename_i hlen
      exact h.pushFrame ha hq (fun hen hn => hord q hq hen hlen hn) hput

/-! ### A forwarding pass -/

/-- Inside the first loop: the viewers still to be visited are ready, the others
are served. -/
def Visiting (l : List Id) : Id → Id → List Item → Frames → Prop :=
  fun v _ h frames => if v ∈ l then Ready h frames else Served h frames

/-- Inside the second loop: the viewers of the queues still to be popped are
served, the others are ready. -/
def Popping (l : List Id) : Id → Id → List Item → Frames → Prop :=
  fun _ s h frames => if s ∈ l then Served h frames else Ready h frames

theorem topPacket_eq_first (ha : Agree e) {v s : Id} {q : VideoFrameQueue}
    (hs : e.videoMapper.src v = some s) (hq : e.queueMap[s]? = some q) :
    q.topPacket = q.first := by
  have hen : q.enabled = true := by
    apply (ha.flags hq).enabled.mpr
    exact ⟨(ha.graph.cur_live hs).2, Nat.pos_of_ne_zero (lookerCount_pos ha.graph hs)⟩
  rw [topPacket, if_pos hen]

theorem first_none {q : VideoFrameQueue} (hf : q.first = none) (k : UInt16) : k ∉ q.frames := by
  intro hk
  unfold first at hf
  rcases hmin : q.frames.keys.head? with - | m
  · exact head_keys_eq_none.mp hmin k hk
  · rw [hmin] at hf
    have hm := (head_keys_eq_some.mp hmin).1
    change q.frames[m]? = none at hf
    rw [Std.TreeMap.mem_iff_isSome_getElem?, hf] at hm
    cases hm

/-- A viewer whose source has nothing to show is passed over. -/
theorem Steady.idle {v : Id} {l : List Id} (hv : v ∉ l) (h : Steady (Visiting (v :: l)) e)
    (ha : Agree e)
    (hidle : ∀ s q, e.videoMapper.src v = some s → s ≠ NOID → e.queueMap[s]? = some q →
      q.topPacket = none) : Steady (Visiting l) e where
  ordered := h.ordered
  smooth := h.smooth
  numbered := h.numbered
  status := by
    intro w s q hs hne hq
    have hst := h.status hs hne hq
    unfold Visiting at hst ⊢
    rcases eq_or_ne w v with rfl | hw
    · -- the queue is empty
      rw [if_pos List.mem_cons_self] at hst
      rw [if_neg hv]
      apply hst.served
      apply first_none
      rw [← topPacket_eq_first ha hs hq]
      exact hidle s q hs hne hq
    · simpa [hw] using hst

/-- The log after a packet was handed to a viewer. -/
theorem history_relay (w v : Id) (log : List Out) {f : VideoFrame} {p : MediaOutputPacket}
    {live : List Out}
    (hlive : ∀ o ∈ live, ∃ p, o = Out.relayLive p) :
    history w (log ++ (Out.relay v f p :: live)) =
      if v = w then .sent f p.seqNumber :: history w log else history w log := by
  rw [history_append, List.foldl_cons, foldl_record_other w fun o ho => Or.inr (hlive o ho)]
  rfl

/-- One turn of the first loop. -/
theorem Steady.forwarded {v : Id} {l : List Id} (hnd : (v :: l).Nodup)
    (h : Steady (Visiting (v :: l)) e) (ha : Agree e)
    (hroom : ∀ s q f, e.videoMapper.src v = some s → s ≠ NOID → e.queueMap[s]? = some q →
      q.topPacket = some f → Room (history v e.log) f)
    (hf : Forwarded e v e') : Steady (Visiting l) e' := by
  have hv : v ∉ l := (List.nodup_cons.mp hnd).1
  cases hf with
  | idle he hidle =>
      subst he
      exact h.idle hv ha hidle
  | sent s q f sc live hs hne hq hf hsc hlive he =>
      subst he
      have hfirst : IsFirst q.frames f := by
        apply (isFirst_iff (h.ordered hq)).mp
        rw [← topPacket_eq_first ha hs hq]
        exact hf
      have hready : Ready (history v e.log) q.frames := by
        have hst := h.status hs hne hq
        rw [Visiting, if_pos List.mem_cons_self] at hst
        exact hst
      -- the packet on top is what the history asks for next
      have hnext := hready.next hfirst (hroom s q f hs hne hq hf)
      refine ⟨h.ordered, ?_, ?_, ?_⟩
      · intro w
        rw [history_relay w v e.log hlive]
        split
        · rename_i hw
          subst hw
          exact (h.smooth v).advance (h.numbered hsc) hnext
        · exact h.smooth w
      · intro w sc' hsc'
        change (e.videoSwitchContexts.insert v (sc.advance f.seq f.ts))[w]? = some sc' at hsc'
        rw [Std.TreeMap.getElem?_insert] at hsc'
        rw [history_relay w v e.log hlive]
        split at hsc'
        · rename_i hw
          have hw := Std.compare_eq_iff_eq.mp hw
          subst hw
          obtain rfl := Option.some.inj hsc'
          rw [if_pos rfl]
          exact (h.numbered hsc).advance hnext
        · rename_i hw
          rw [if_neg fun he => hw (Std.compare_eq_iff_eq.mpr he)]
          exact h.numbered hsc'
      · intro w t q' ht hne' hq'
        change e.videoMapper.src w = some t at ht
        change e.queueMap[t]? = some q' at hq'
        rw [history_relay w v e.log hlive]
        rw [Visiting]
        rcases eq_or_ne v w with rfl | hw
        · rw [if_pos rfl, if_neg hv]
          rw [hs] at ht
          obtain rfl := Option.some.inj ht
          rw [hq] at hq'
          obtain rfl := Option.some.inj hq'
          exact served_sent (h.ordered hq) hfirst _ _
        · have hst := h.status ht hne' hq'
          rw [if_neg hw]
          unfold Visiting at hst
          simpa [hw.symm] using hst

/-- One turn of the second loop. -/
theorem Steady.popped {s : Id} {l : List Id} (hnd : (s :: l).Nodup)
    (h : Steady (Popping (s :: l)) e) (ha : Agree e) {q : VideoFrameQueue}
    (hq : e.queueMap[s]? = some q) (hput : Put e s q.popPacket.2 e') :
    Steady (Popping l) e' := by
  have hs : s ∉ l := (List.nodup_cons.mp hnd).1
  have hother : ∀ {v t : Id} {h : List Item} {frames : Frames}, t ≠ s →
      Popping (s :: l) v t h frames → Popping l v t h frames := by
    intro v t h frames ht hp
    unfold Popping at hp ⊢
    simpa [ht] using hp
  have hnew : ∀ {v : Id} {h : List Item} {f : VideoFrame} {frames : Frames},
      IsFirst frames f → Popping l v s (.switch f :: h) frames := by
    intro v h f frames hf
    rw [Popping, if_neg hs]
    exact ready_switch hf h
  have hserved : ∀ {v : Id} {h : List Item} {frames : Frames},
      Popping (s :: l) v s h frames → Served h frames := by
    intro v h frames hp
    rw [Popping, if_pos List.mem_cons_self] at hp
    exact hp
  rcases q.popPacket_cases with hr | ⟨hen, k, hk, hr⟩
  · -- nothing was popped: the queue of a source is enabled, so it is empty
    have hr₂ : q.popPacket.2 = (q, false) := by rw [hr]
    rw [hr₂] at hput
    apply h.put ha hq hput (h.ordered hq) hother _ hnew
    intro v hist hsv _ hp
    rw [Popping, if_neg hs]
    apply (hserved hp).ready
    apply first_none
    rw [← topPacket_eq_first ha hsv hq, topPacket]
    split
    · rename_i hen
      rw [popPacket, if_neg fun hc => hc hen] at hr
      rcases hmin : q.frames.keys.head? with - | k
      · rw [first, hmin]
      · rw [hmin] at hr
        have hk := (head_keys_eq_some.mp hmin).1
        rw [Std.TreeMap.mem_iff_isSome_getElem?, (Prod.mk.inj hr).1] at hk
        cases hk
    · rfl
  · have hr₂ : q.popPacket.2.1.frames = q.frames.erase k := by rw [hr]; rfl
    apply h.put ha hq hput _ hother _ hnew
    · rw [hr₂]
      exact (h.ordered hq).erase k
    · intro v hist _ _ hp
      rw [Popping, if_neg hs, hr₂]
      exact (hserved hp).pop hk

/-- The invariant depends on what holds of the queues of the viewers' sources
only. -/
theorem Steady.imp {R₀ : Id → Id → List Item → Frames → Prop} (h : Steady R₀ e)
    (hR : ∀ {v s : Id} {q : VideoFrameQueue} {h : List Item}, e.videoMapper.src v = some s →
      e.queueMap[s]? = some q → R₀ v s h q.frames → R v s h q.frames) : Steady R e where
  ordered := h.ordered
  smooth := h.smooth
  numbered := h.numbered
  status := fun hs hne hq => hR hs hq (h.status hs hne hq)

theorem Forwarded.history_other {v w : Id} (hf : Forwarded e v e') (hw : v ≠ w) :
    history w e'.log = history w e.log := by
  cases hf with
  | idle he => rw [he]
  | sent s q f sc live hs hne hq hf hsc hlive he =>
      rw [he]
      show history w (e.log ++ _) = _
      rw [history_append, List.foldl_cons, foldl_record_other w fun o ho => Or.inr (hlive o ho),
        record, if_neg hw]

/-- A pass in which every viewer has room for the packet it is handed. -/
theorem Settled.forwardData (parse : Depacketizer) (h : Settled e) (ha : Agree e)
    (hord : Orderly parse e .forwardData) :
    ∃ e', e.forwardData = .ok e' ∧ Agree e' ∧ Settled e' := by
  obtain ⟨e', he', ha', -, h'⟩ := forwardData_ok
    (P := fun l e => l.Nodup ∧ Steady (Visiting l) e ∧ ∀ v ∈ l, ∀ s q f,
      e.videoMapper.src v = some s → s ≠ NOID → e.queueMap[s]? = some q →
        q.topPacket = some f → Room (history v e.log) f)
    (Q := fun l e => l.Nodup ∧ Steady (Popping l) e)
    (by
      rintro v l e e' ha - hf ⟨hnd, h, hroom⟩
      refine ⟨(List.nodup_cons.mp hnd).2,
        h.forwarded hnd ha (hroom v List.mem_cons_self) hf, ?_⟩
      intro w hw s q f hs hne hq hfr
      have hvw : v ≠ w := by
        rintro rfl
        exact (List.nodup_cons.mp hnd).1 hw
      rw [hf.history_other hvw]
      rw [hf.mapper] at hs
      rw [hf.queueMap] at hq
      exact hroom w (List.mem_cons_of_mem _ hw) s q f hs hne hq hfr)
    (by
      rintro s l e q e' ha hq hput ⟨hnd, h⟩
      exact ⟨(List.nodup_cons.mp hnd).2, h.popped hnd ha hq hput⟩)
    (by
      -- everybody was visited: all queues are to be popped
      rintro e ha ⟨-, h, -⟩
      refine ⟨Std.TreeMap.nodup_keys, h.imp ?_⟩
      intro v s q hist _ hq hst
      rw [Popping, if_pos (Std.TreeMap.mem_keys.mpr (Std.TreeMap.getElem?_eq_some_iff.mp hq).1)]
      rw [Visiting, if_neg List.not_mem_nil] at hst
      exact hst)
    ha
    (by
      refine ⟨treeSet_toList_nodup _, h.imp ?_,
        fun v hv s q f hs hne hq hf => hord v hv s hs hne q hq f hf⟩
      intro v s q hist hs _ hst
      have hv : v ∈ e.videoMapper.getAllId :=
        Std.TreeSet.mem_toList.mpr (ha.graph.cur_live hs).1
      rw [Visiting, if_pos hv]
      exact hst)
  refine ⟨e', he', ha', h'.imp ?_⟩
  intro v s q hist _ _ hst
  rw [Popping, if_neg List.not_mem_nil] at hst
  exact hst

/-! ### Runs -/

theorem step_settled (parse : Depacketizer) (h : Settled e) (ha : Agree e) (op : Op)
    (hord : Orderly parse e op) :
    Outcome (fun e' => Agree e' ∧ Settled e') (fun _ => False) (e.step parse op) := by
  have hstep : ∃ e', e.step parse op = .ok e' ∧ Agree e' ∧ Settled e' := by
    cases op with
    | linkVideoStream s => exact h.linkVideoStream ha s
    | unlinkVideoStream s => exact h.unlinkVideoStream ha s
    | changeToSpeaker s => exact h.changeToSpeaker ha s
    | onIncomingPacket s p => exact h.onIncomingPacket parse ha s p hord
    | requestSpeakerKeyFrame =>
        exact ⟨_, rfl, requestSpeakerKeyFrame_agree ha, h.requestSpeakerKeyFrame⟩
    | forwardData => exact h.forwardData parse ha hord
  obtain ⟨e', he', h'⟩ := hstep
  rw [he']
  exact h'

/-- **Output continuity.**  In every state reached by a run whose operations
meet the condition, the first packet handed to a viewer after a switch is the
packet switched at, and every number handed out after a switch is serially
greater than those handed out before it. -/
theorem run_continuous (parse : Depacketizer) (ops : List Op)
    (hord : AllSteps (step parse) (Orderly parse) init ops) (pre post : List Op)
    (hpre : ops = pre ++ post) :
    ∃ e, run parse pre = .ok e ∧ ∀ v, Continuous (history v e.log) := by
  subst hpre
  have hrun := hord.left.outcome (P := fun e => Agree e ∧ Settled e) (E := fun _ => False)
    (fun e op h hop => step_settled parse h.2 h.1 op hop) ⟨agree_init, settled_init⟩
  obtain ⟨e, he, -, h⟩ := hrun.ok
  exact ⟨e, he, fun v => (h.smooth v).continuous⟩

/-- Two participants; the second one's packets arrive in order. -/
def promptRun : List Op :=
  [.linkVideoStream 1, .onIncomingPacket 1 (vp8Packet 100 true), .forwardData,
    .linkVideoStream 2, .onIncomingPacket 2 (vp8Packet 10 true),
    .onIncomingPacket 2 (vp8Packet 11 false), .forwardData, .forwardData]

theorem run_continuous_prompt :
    AllSteps (step vp8) (Orderly vp8) init promptRun ∧
      ∃ e, run vp8 promptRun = .ok e ∧ ∀ v, Continuous (history v e.log) :=
  ⟨by decide +kernel, run_continuous vp8 promptRun (by decide +kernel) promptRun [] rfl⟩

/-- The same, but the packet before the second one's key frame arrives late. -/
def lateRun : List Op :=
  [.linkVideoStream 1, .onIncomingPacket 1 (vp8Packet 100 true), .forwardData,
    .linkVideoStream 2, .onIncomingPacket 2 (vp8Packet 10 true),
    .onIncomingPacket 2 (vp8Packet 9 false), .forwardData]

/-- The late packet goes out first, under the number the packet before the
switch had. -/
theorem forwardData_reuses_a_number :
    ∃ e, run vp8 lateRun = .ok e ∧ ¬ Continuous (history 1 e.log) := by
  obtain ⟨e, he, -⟩ := run_agree vp8 lateRun
  have hlog : (run vp8 lateRun).toOption.map (fun e => history 1 e.log) =
      some [.sent (VideoFrame.ofPacket vp8 (vp8Packet 9 false).data 23) 1,
        .switch (VideoFrame.ofPacket vp8 (vp8Packet 10 true).data 23),
        .sent (VideoFrame.ofPacket vp8 (vp8Packet 100 true).data 23) 1,
        .switch (VideoFrame.ofPacket vp8 (vp8Packet 100 true).data 23)] := by
    decide +kernel
  rw [he] at hlog
  have hlog := Option.some.inj hlog
  refine ⟨e, he, ?_⟩
  intro hc
  have hnew := hc.newer [_] _ [_, _] hlog 1 (by decide) 1 (by decide)
  exact absurd hnew (by decide)

end VideoForwardElementNew

end Orbit
