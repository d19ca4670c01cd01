/-
OrbitStream/VideoMapGraph.lean

The invariant of the viewing graph, kept by every operation.

`Graph vm` says that both link tables are consistent, that both ends of every
link are in the map, that the master is in the map unless the map is empty, and
that what a node is heading for (`target`: its expected source, else its source)
is what the policy of the map prescribes (`Fit`): everybody heads for the
master, and the master for somebody else if there is somebody else.

Each operation has one lemma that computes the two forward tables after it; the
invariant and the `Prepare` law are derived from these.
-/
import OrbitStream.Lib.Sets
import OrbitStream.VideoMap

namespace Orbit

open Lib

namespace VideoMap

/-- What a node is heading for. -/
def target (vm : VideoMap) (n : Id) : Option Id := (vm.expectedSrc n).or (vm.src n)

/-- `m` is what the policy of the map shows to `n` in the long run. -/
structure Fit (vm : VideoMap) (n m : Id) : Prop where
  mem : m ∈ vm.allNode
  other : n ≠ vm.master → m = vm.master
  alone : n = vm.master → m = vm.master → ∀ k ∈ vm.allNode, k = vm.master

/-- The invariant of the viewing graph. -/
structure Graph (vm : VideoMap) : Prop where
  cur_ok : vm.cur.Consistent
  exp_ok : vm.exp.Consistent
  cur_live : ∀ {n m}, vm.src n = some m → n ∈ vm.allNode ∧ m ∈ vm.allNode
  exp_live : ∀ {n m}, vm.expectedSrc n = some m → n ∈ vm.allNode ∧ m ∈ vm.allNode
  master_mem : ∀ {n}, n ∈ vm.allNode → vm.master ∈ vm.allNode
  master_none : (∀ n, n ∉ vm.allNode) → vm.master = NOID
  target_fit : ∀ {n}, n ∈ vm.allNode → ∃ m, vm.target n = some m ∧ vm.Fit n m

/-- An operation that gives a node which stays a new expected source has asked
that source to prepare. -/
def Prepares (old : VideoMap) (r : VideoMap × List Event) : Prop :=
  ∀ n ∈ r.1.allNode, ∀ x, r.1.expectedSrc n = some x → old.expectedSrc n ≠ some x →
    Event.prepare x ∈ r.2

theorem contains_iff {vm : VideoMap} {id : Id} : vm.contains id = true ↔ id ∈ vm.allNode := by
  simp [contains]

theorem graph_init : Graph init where
  cur_ok := Links.consistent_empty
  exp_ok := Links.consistent_empty
  cur_live := by intro n m h; simp [src, init, Links.empty] at h
  exp_live := by intro n m h; simp [expectedSrc, init, Links.empty] at h
  master_mem := by intro n h; simp [init] at h
  master_none := fun _ => rfl
  target_fit := by intro n h; simp [init] at h

/-! ### Choosing sources and masters -/

/-- The source `SelectNewSrc` picks fits, in every map that has its master. -/
theorem selectNewSrc_fit {vm : VideoMap} (hm : vm.master ∈ vm.allNode) (n : Id) :
    vm.Fit n (vm.selectNewSrc n) := by
  have h0 : vm.allNode.size ≠ 0 := fun h => treeSet_size_eq_zero.mp h _ hm
  rw [selectNewSrc]
  rw [if_neg h0]
  by_cases hn : n ≠ vm.master
  · rw [if_pos hn]
    exact ⟨hm, fun _ => rfl, fun h => absurd h hn⟩
  · rw [if_neg hn]
    rw [not_not] at hn
    by_cases h1 : vm.allNode.size = 1
    · rw [if_pos h1, hn]
      exact ⟨hm, fun h => absurd rfl h,
        fun _ _ k hk => treeSet_eq_of_size_one h1 hk hm⟩
    · rw [if_neg h1]
      rcases hf : vm.allNode.toList.find? (· ≠ n) with - | k
      · -- the loop finds somebody else, since the map has two nodes
        exfalso
        have hall : ∀ k ∈ vm.allNode, k = vm.master := by
          intro k hk
          have hk' := List.find?_eq_none.mp hf k (Std.TreeSet.mem_toList.mpr hk)
          rw [← hn]
          simpa using hk'
        exact h1 (treeSet_size_one_of_forall hm hall)
      · have hmem := List.mem_of_find?_eq_some hf
        have hne : k ≠ n := by simpa using List.find?_some hf
        exact ⟨Std.TreeSet.mem_toList.mp hmem, fun h => absurd hn h,
          fun _ h => absurd (h.trans hn.symm) hne⟩

theorem selectNewMaster_mem {vm : VideoMap} {n : Id} (h : n ∈ vm.allNode) :
    vm.selectNewMaster ∈ vm.allNode := by
  rw [selectNewMaster]
  rcases hl : vm.allNode.toList with - | ⟨a, l⟩
  · rw [← Std.TreeSet.mem_toList, hl] at h
    cases h
  · rw [← Std.TreeSet.mem_toList, hl]
    exact List.mem_cons_self

theorem mem_getAllCurrentLooker {vm : VideoMap} (h : Graph vm) {n m : Id} :
    n ∈ vm.getAllCurrentLooker m ↔ vm.src n = some m := by
  simp only [getAllCurrentLooker, List.mem_filter, Std.TreeSet.mem_toList,
    decide_eq_true_eq, lookers, h.cur_ok.mem_back]
  exact ⟨fun hc => hc.2, fun hs => ⟨(h.cur_live hs).1, hs⟩⟩

theorem mem_getAllExpectedLooker {vm : VideoMap} (h : Graph vm) {n m : Id} :
    n ∈ vm.getAllExpectedLooker m ↔ vm.expectedSrc n = some m := by
  simp only [getAllExpectedLooker, List.mem_filter, Std.TreeSet.mem_toList,
    decide_eq_true_eq, expectedLookers, h.exp_ok.mem_back]
  exact ⟨fun hc => hc.2, fun hs => ⟨(h.exp_live hs).1, hs⟩⟩

/-! ### Absent nodes are blank -/

theorem Graph.src_absent {vm : VideoMap} (h : Graph vm) {n : Id} (hn : n ∉ vm.allNode) :
    vm.src n = none := by
  rcases e : vm.src n with - | m
  · rfl
  · exact absurd (h.cur_live e).1 hn

theorem Graph.expectedSrc_absent {vm : VideoMap} (h : Graph vm) {n : Id}
    (hn : n ∉ vm.allNode) : vm.expectedSrc n = none := by
  rcases e : vm.expectedSrc n with - | m
  · rfl
  · exact absurd (h.exp_live e).1 hn

/-! ### Add -/

theorem newNode_cur_ok {vm : VideoMap} (h : Graph vm) {id : Id} (hid : id ∉ vm.allNode) :
    (vm.newNode id).cur.Consistent := by
  refine h.cur_ok.blank ?_ ?_
  · intro a ha
    exact absurd (h.cur_live ha).2 hid
  · intro b hb
    exact absurd (h.cur_live hb).1 hid

theorem newNode_exp_ok {vm : VideoMap} (h : Graph vm) {id : Id} (hid : id ∉ vm.allNode) :
    (vm.newNode id).exp.Consistent := by
  refine h.exp_ok.blank ?_ ?_
  · intro a ha
    exact absurd (h.exp_live ha).2 hid
  · intro b hb
    exact absurd (h.exp_live hb).1 hid

theorem newNode_src {vm : VideoMap} (h : Graph vm) {id : Id} (hid : id ∉ vm.allNode)
    (n : Id) : (vm.newNode id).cur.fwd n = vm.src n := by
  rw [newNode, Links.fwd_blank]
  by_cases hn : n = id
  · rw [if_pos hn, hn, h.src_absent hid]
  · rw [if_neg hn]; rfl

theorem newNode_expectedSrc {vm : VideoMap} (h : Graph vm) {id : Id}
    (hid : id ∉ vm.allNode) (n : Id) : (vm.newNode id).exp.fwd n = vm.expectedSrc n := by
  rw [newNode, Links.fwd_blank]
  by_cases hn : n = id
  · rw [if_pos hn, hn, h.expectedSrc_absent hid]
  · rw [if_neg hn]; rfl

/-- What `Add` of a new id does: the node joins without a source, and gets an
expected source; with two nodes the master gets one too. -/
structure Added (vm : VideoMap) (id : Id) (r : VideoMap × List Event) : Prop where
  cur_ok : r.1.cur.Consistent
  exp_ok : r.1.exp.Consistent
  allNode : r.1.allNode = vm.allNode.insert id
  src : ∀ n, r.1.src n = vm.src n
  cases :
    ((∀ n, n ∉ vm.allNode) ∧ r.1.master = id ∧ Event.prepare id ∈ r.2 ∧
      ∀ n, r.1.expectedSrc n = if n = id then some id else vm.expectedSrc n) ∨
    (vm.allNode.size = 1 ∧ r.1.master = vm.master ∧
      Event.prepare id ∈ r.2 ∧ Event.prepare vm.master ∈ r.2 ∧
      ∀ n, r.1.expectedSrc n = if n = id then some vm.master
        else if n = vm.master then some id else vm.expectedSrc n) ∨
    (1 < vm.allNode.size ∧ r.1.master = vm.master ∧ Event.prepare vm.master ∈ r.2 ∧
      ∀ n, r.1.expectedSrc n = if n = id then some vm.master else vm.expectedSrc n)

theorem add_added {vm : VideoMap} (h : Graph vm) {id : Id} (hid : id ∉ vm.allNode) :
    Added vm id (vm.add id) := by
  have hc : vm.contains id = false := by
    rw [← Bool.not_eq_true, contains_iff]
    exact hid
  have hsize : (vm.allNode.insert id).size = vm.allNode.size + 1 := by
    rw [Std.TreeSet.size_insert]
    simp [hid]
  have hcur := newNode_cur_ok h hid
  have hexp := newNode_exp_ok h hid
  rw [add]
  simp only [hc, Bool.false_eq_true, if_false, hsize]
  -- the first node, the second, or a later one
  by_cases h1 : vm.allNode.size = 0
  · simp only [h1, Nat.zero_add, if_true]
    refine ⟨hcur, hexp.bind _ _, rfl, newNode_src h hid, Or.inl ?_⟩
    refine ⟨treeSet_size_eq_zero.mp h1, rfl, List.mem_cons_self, ?_⟩
    intro n
    show (Links.bind _ _ _).fwd n = _
    rw [Links.fwd_bind, newNode_expectedSrc h hid]
  · rw [if_neg (by omega)]
    by_cases h2 : vm.allNode.size = 1
    · rw [if_pos (by omega)]
      refine ⟨hcur, (hexp.bind _ _).bind _ _, rfl, newNode_src h hid, Or.inr (Or.inl ?_)⟩
      refine ⟨h2, rfl, List.mem_cons_self, List.mem_cons_of_mem _ List.mem_cons_self, ?_⟩
      intro n
      show (Links.bind _ _ _).fwd n = _
      rw [Links.fwd_bind]
      show (if _ then _ else (Links.bind _ _ _).fwd n) = _
      rw [Links.fwd_bind, newNode_expectedSrc h hid]
      rfl
    · rw [if_neg (by omega)]
      refine ⟨hcur, hexp.bind _ _, rfl, newNode_src h hid, Or.inr (Or.inr ?_)⟩
      refine ⟨by omega, rfl, List.mem_cons_self, ?_⟩
      intro n
      show (Links.bind _ _ _).fwd n = _
      rw [Links.fwd_bind, newNode_expectedSrc h hid]
      rfl

theorem mem_insert_allNode {vm : VideoMap} {id n : Id} :
    n ∈ vm.allNode.insert id ↔ n = id ∨ n ∈ vm.allNode := by
  rw [Std.TreeSet.mem_insert, Std.compare_eq_iff_eq, eq_comm]

section

variable {vm : VideoMap} {id : Id} {r : VideoMap × List Event}

theorem Added.mem_allNode (ha : Added vm id r) {n : Id} :
    n ∈ r.1.allNode ↔ n = id ∨ n ∈ vm.allNode := by
  rw [ha.allNode, mem_insert_allNode]

/-- What has to be shown of the expected sources when a node has joined. -/
theorem Added.graph (h : Graph vm) (ha : Added vm id r)
    (hlive : ∀ {n m}, r.1.expectedSrc n = some m → n ∈ r.1.allNode ∧ m ∈ r.1.allNode)
    (hmaster : r.1.master ∈ r.1.allNode)
    (hfit : ∀ {n}, n ∈ r.1.allNode → ∃ m, r.1.target n = some m ∧ r.1.Fit n m) : Graph r.1 := by
  refine ⟨ha.cur_ok, ha.exp_ok, ?_, hlive, fun _ => hmaster, ?_, hfit⟩
  · intro n m hs
    rw [ha.src] at hs
    obtain ⟨hn, hm⟩ := h.cur_live hs
    exact ⟨ha.mem_allNode.mpr (Or.inr hn), ha.mem_allNode.mpr (Or.inr hm)⟩
  · intro hn
    exact absurd (ha.mem_allNode.mpr (Or.inl rfl)) (hn id)

/-- A node that joins others is to see the master. -/
theorem Added.newcomer_fit (hid : id ∉ vm.allNode) (ha : Added vm id r)
    (hmm : vm.master ∈ vm.allNode) (hma : r.1.master = vm.master)
    (hex : r.1.expectedSrc id = some vm.master) :
    ∃ m, r.1.target id = some m ∧ r.1.Fit id m := by
  refine ⟨vm.master, ?_, ha.mem_allNode.mpr (Or.inr hmm), fun _ => hma.symm, ?_⟩
  · rw [target, hex]
    rfl
  · intro hnm
    rw [hma] at hnm
    exact absurd (hnm ▸ hmm) hid

/-- The first node is the master and sees itself. -/
theorem Added.first_graph (h : Graph vm) (ha : Added vm id r) (hempty : ∀ n, n ∉ vm.allNode)
    (hma : r.1.master = id)
    (hex : ∀ n, r.1.expectedSrc n = if n = id then some id else vm.expectedSrc n) :
    Graph r.1 := by
  have hone : ∀ {n}, n ∈ r.1.allNode → n = id :=
    fun hn => (ha.mem_allNode.mp hn).resolve_right (hempty _)
  have hid : id ∈ r.1.allNode := ha.mem_allNode.mpr (Or.inl rfl)
  apply ha.graph h
  · intro n m he
    rw [hex] at he
    split at he
    · next hn =>
        obtain rfl := Option.some.inj he
        rw [hn]
        exact ⟨hid, hid⟩
    · exact absurd (h.exp_live he).1 (hempty n)
  · rw [hma]
    exact hid
  · intro n hn
    refine ⟨id, ?_, hid, fun _ => hma.symm, fun _ _ k hk => ?_⟩
    · rw [target, hex, if_pos (hone hn)]
      rfl
    · rw [hma]
      exact hone hk

/-- The second node and the master see each other. -/
theorem Added.second_graph (h : Graph vm) (hid : id ∉ vm.allNode) (ha : Added vm id r)
    (hsz : vm.allNode.size = 1) (hmm : vm.master ∈ vm.allNode) (hma : r.1.master = vm.master)
    (hex : ∀ n, r.1.expectedSrc n = if n = id then some vm.master
      else if n = vm.master then some id else vm.expectedSrc n) : Graph r.1 := by
  have hnew : id ∈ r.1.allNode := ha.mem_allNode.mpr (Or.inl rfl)
  have hold : ∀ {n}, n ∈ vm.allNode → n ∈ r.1.allNode :=
    fun hn => ha.mem_allNode.mpr (Or.inr hn)
  have hne : vm.master ≠ id := fun e => hid (e ▸ hmm)
  apply ha.graph h
  · intro n m he
    rw [hex] at he
    split at he
    · next hn =>
        obtain rfl := Option.some.inj he
        rw [hn]
        exact ⟨hnew, hold hmm⟩
    · split at he
      · next hn =>
          obtain rfl := Option.some.inj he
          rw [hn]
          exact ⟨hold hmm, hnew⟩
      · exact ⟨hold (h.exp_live he).1, hold (h.exp_live he).2⟩
  · rw [hma]
    exact hold hmm
  · intro n hn
    rcases ha.mem_allNode.mp hn with rfl | hn'
    · exact ha.newcomer_fit hid hmm hma (by rw [hex, if_pos rfl])
    · -- the only other node is the master
      obtain rfl := treeSet_eq_of_size_one hsz hn' hmm
      refine ⟨id, ?_, hnew, fun hc => absurd hma.symm hc, ?_⟩
      · rw [target, hex, if_neg hne, if_pos rfl]
        rfl
      · intro _ hc
        exact absurd (hma.symm.trans hc.symm) hne

/-- Everybody else sees the master, and what the others see stays as it was. -/
theorem Added.later_graph (h : Graph vm) (hid : id ∉ vm.allNode) (ha : Added vm id r)
    (hsz : 1 < vm.allNode.size) (hmm : vm.master ∈ vm.allNode) (hma : r.1.master = vm.master)
    (hex : ∀ n, r.1.expectedSrc n = if n = id then some vm.master else vm.expectedSrc n) :
    Graph r.1 := by
  have hold : ∀ {n}, n ∈ vm.allNode → n ∈ r.1.allNode :=
    fun hn => ha.mem_allNode.mpr (Or.inr hn)
  apply ha.graph h
  · intro n m he
    rw [hex] at he
    split at he
    · next hn =>
        obtain rfl := Option.some.inj he
        rw [hn]
        exact ⟨ha.mem_allNode.mpr (Or.inl rfl), hold hmm⟩
    · exact ⟨hold (h.exp_live he).1, hold (h.exp_live he).2⟩
  · rw [hma]
    exact hold hmm
  · intro n hn
    rcases ha.mem_allNode.mp hn with rfl | hn'
    · exact ha.newcomer_fit hid hmm hma (by rw [hex, if_pos rfl])
    · have hne : n ≠ id := fun e => hid (e ▸ hn')
      obtain ⟨m, ht, hfit⟩ := h.target_fit hn'
      refine ⟨m, ?_, hold hfit.mem, ?_, ?_⟩
      · rw [target, hex, if_neg hne, ha.src]
        exact ht
      · rw [hma]
        exact hfit.other
      · -- the master cannot be alone: there were two nodes before
        intro hc hm
        rw [hma] at hc hm
        have := treeSet_size_one_of_forall hmm (hfit.alone hc hm)
        omega

theorem added_graph (h : Graph vm) (hid : id ∉ vm.allNode) (ha : Added vm id r) : Graph r.1 := by
  have hmm : 0 < vm.allNode.size → vm.master ∈ vm.allNode := by
    intro hsz
    by_contra hno
    have hsz' := treeSet_size_eq_zero.mpr fun a ha => hno (h.master_mem ha)
    omega
  rcases ha.cases with ⟨hempty, hma, -, hex⟩ | ⟨hsz, hma, -, -, hex⟩ | ⟨hsz, hma, -, hex⟩
  · exact ha.first_graph h hempty hma hex
  · exact ha.second_graph h hid hsz (hmm (by omega)) hma hex
  · exact ha.later_graph h hid hsz (hmm (by omega)) hma hex

end

theorem added_prepares {vm : VideoMap} {id : Id} {r : VideoMap × List Event}
    (ha : Added vm id r) : Prepares vm r := by
  intro n _ x hx hold
  rcases ha.cases with ⟨-, -, hp, hex⟩ | ⟨-, -, hp, hp', hex⟩ | ⟨-, -, hp, hex⟩
  · rw [hex] at hx
    split at hx
    · obtain rfl := Option.some.inj hx
      exact hp
    · exact absurd hx hold
  · rw [hex] at hx
    split at hx
    · obtain rfl := Option.some.inj hx
      exact hp'
    · split at hx
      · obtain rfl := Option.some.inj hx
        exact hp
      · exact absurd hx hold
  · rw [hex] at hx
    split at hx
    · obtain rfl := Option.some.inj hx
      exact hp
    · exact absurd hx hold

/-! ### Remove -/

/-- What `Remove` of a present id does: no link of the node is left, and every
node that was shown the removed one, or was to be shown it, has a new expected
source that fits the smaller map.  When the master leaves, everybody gets a new
expected source. -/
structure Removed (vm : VideoMap) (id : Id) (r : VideoMap × List Event) : Prop where
  cur_ok : r.1.cur.Consistent
  exp_ok : r.1.exp.Consistent
  allNode : r.1.allNode = vm.allNode.erase id
  src : ∀ n, r.1.src n = if n = id ∨ vm.src n = some id then none else vm.src n
  exp_out : ∀ n, n ∉ r.1.allNode → r.1.expectedSrc n = none
  exp_in : ∀ n, n ∈ r.1.allNode →
    (∃ m, r.1.expectedSrc n = some m ∧ r.1.Fit n m ∧ Event.prepare m ∈ r.2) ∨
    (r.1.expectedSrc n = vm.expectedSrc n ∧ vm.expectedSrc n ≠ some id ∧
      vm.src n ≠ some id ∧ r.1.master = vm.master)
  master_mem : ∀ {n}, n ∈ r.1.allNode → r.1.master ∈ r.1.allNode
  master_none : (∀ n, n ∉ r.1.allNode) → r.1.master = NOID

theorem mem_erase_allNode {vm : VideoMap} {id n : Id} :
    n ∈ vm.allNode.erase id ↔ n ≠ id ∧ n ∈ vm.allNode := by
  rw [Std.TreeSet.mem_erase, ne_eq, Std.compare_eq_iff_eq, eq_comm]

/-- The last node leaves. -/
theorem remove_last {vm : VideoMap} (h : Graph vm) {id : Id}
    (hlast : ∀ n, n ∉ vm.allNode.erase id) (evs : List Event) :
    Removed vm id ({ vm with allNode := vm.allNode.erase id, master := NOID }.deleteNode id,
      evs) := by
  have hone : ∀ {n}, n ∈ vm.allNode → n = id := by
    intro n hn
    by_contra hne
    exact hlast n (mem_erase_allNode.mpr ⟨hne, hn⟩)
  -- all links are of the node itself
  refine ⟨?_, ?_, rfl, ?_, ?_, ?_, ?_, fun _ => rfl⟩
  · exact h.cur_ok.blank (fun a ha => hone (h.cur_live ha).1) fun b hb => hone (h.cur_live hb).2
  · exact h.exp_ok.blank (fun a ha => hone (h.exp_live ha).1) fun b hb => hone (h.exp_live hb).2
  · intro n
    show (vm.cur.blank id).fwd n = _
    rw [Links.fwd_blank]
    by_cases hn : n = id
    · simp [hn]
    · have habs : vm.src n = none := h.src_absent fun hm => hn (hone hm)
      have habs' : vm.cur.fwd n = none := habs
      simp [hn, habs, habs']
  · intro n _
    show (vm.exp.blank id).fwd n = _
    rw [Links.fwd_blank]
    by_cases hn : n = id
    · simp [hn]
    · have habs : vm.exp.fwd n = none := h.expectedSrc_absent fun hm => hn (hone hm)
      simp [hn, habs]
  · intro n hn
    exact absurd hn (hlast n)
  · intro n hn
    exact absurd hn (hlast n)

/-- The map that the master has left: its links are gone, and there is a new master. -/
def orphaned (vm : VideoMap) (id : Id) : VideoMap :=
  { { vm with allNode := vm.allNode.erase id }.unbind id with
    master := ({ vm with allNode := vm.allNode.erase id }.unbind id).selectNewMaster }

section

variable {vm : VideoMap} {id x : Id}

theorem orphaned_master_mem (hx : x ∈ vm.allNode.erase id) :
    (vm.orphaned id).master ∈ (vm.orphaned id).allNode := by
  have hx' : x ∈ ({ vm with allNode := vm.allNode.erase id }.unbind id).allNode := hx
  exact selectNewMaster_mem hx'

theorem orphaned_expectedSrc_none (h : Graph vm) {n : Id}
    (hn : n ∉ (vm.orphaned id).allNode) : (vm.orphaned id).expectedSrc n = none := by
  show ((vm.exp.unbind id).release id).fwd n = none
  rw [(h.exp_ok.unbind id).fwd_release, Links.fwd_unbind]
  by_cases hid : n = id
  · simp [hid]
  · have hout : n ∉ vm.allNode := fun hc => hn (mem_erase_allNode.mpr ⟨hid, hc⟩)
    have habs : vm.exp.fwd n = none := h.expectedSrc_absent hout
    simp [habs]

/-- The new master gets the source that was selected for it, the others get the new
master. -/
theorem removeMaster_expectedSrc (h : Graph vm) (hx : x ∈ vm.allNode.erase id) (n : Id) :
    (removeMaster { vm with allNode := vm.allNode.erase id } id).1.expectedSrc n =
      if n ∈ (vm.orphaned id).allNode then
        some (if n = (vm.orphaned id).master then
          (vm.orphaned id).selectNewSrc (vm.orphaned id).master else (vm.orphaned id).master)
      else none := by
  have hothers : n ∈ (vm.orphaned id).allNode.toList.filter (· ≠ (vm.orphaned id).master) ↔
      n ∈ (vm.orphaned id).allNode ∧ n ≠ (vm.orphaned id).master := by
    simp
  show (((vm.orphaned id).exp.bind (vm.orphaned id).master
    ((vm.orphaned id).selectNewSrc (vm.orphaned id).master)).bindEach
      ((vm.orphaned id).allNode.toList.filter (· ≠ (vm.orphaned id).master))
      fun _ => (vm.orphaned id).master).fwd n = _
  rw [Links.fwd_bindEach, Links.fwd_bind]
  by_cases hn : n ∈ (vm.orphaned id).allNode
  · by_cases hm : n = (vm.orphaned id).master
    · rw [if_neg fun hc => (hothers.mp hc).2 hm, if_pos hm, if_pos hn, if_pos hm]
    · rw [if_pos (hothers.mpr ⟨hn, hm⟩), if_pos hn, if_neg hm]
  · have hm : n ≠ (vm.orphaned id).master := fun e => hn (e ▸ orphaned_master_mem hx)
    rw [if_neg fun hc => hn (hothers.mp hc).1, if_neg hm, if_neg hn]
    exact orphaned_expectedSrc_none h hn

/-- The master leaves and others stay. -/
theorem removeMaster_removed (h : Graph vm) (hx : x ∈ vm.allNode.erase id) (evs : List Event) :
    Removed vm id ((removeMaster { vm with allNode := vm.allNode.erase id } id).1.deleteNode id,
      (removeMaster { vm with allNode := vm.allNode.erase id } id).2 ++ evs) := by
  have hexp := removeMaster_expectedSrc h hx
  have hmaster := orphaned_master_mem hx
  have hfit := selectNewSrc_fit hmaster (vm.orphaned id).master
  have hgone : id ∉ (vm.orphaned id).allNode := fun hc => (mem_erase_allNode.mp hc).1 rfl
  have hid : (removeMaster { vm with allNode := vm.allNode.erase id } id).1.exp.fwd id = none := by
    exact (hexp id).trans (if_neg hgone)
  have hkept : ∀ n, ((removeMaster { vm with allNode := vm.allNode.erase id } id).1.deleteNode
      id).expectedSrc n = _ := fun n => (Links.fwd_blank_of_none hid n).trans (hexp n)
  refine ⟨h.cur_ok.isolate id, ?_, rfl, h.cur_ok.fwd_isolate id, ?_, ?_, fun _ => hmaster,
    fun hn => absurd hmaster (hn _)⟩
  · have hok := ((((h.exp_ok.unbind id).release id).bind (vm.orphaned id).master
      ((vm.orphaned id).selectNewSrc (vm.orphaned id).master)).bindEach
        ((vm.orphaned id).allNode.toList.filter (· ≠ (vm.orphaned id).master))
        fun _ => (vm.orphaned id).master)
    refine hok.blank ?_ ?_
    · -- nobody expects the node that left
      intro n hn
      have hn' := (hexp n).symm.trans hn
      split at hn'
      · split at hn'
        · have hmem := hfit.mem
          rw [Option.some.inj hn'] at hmem
          exact absurd hmem hgone
        · have hmem := hmaster
          rw [Option.some.inj hn'] at hmem
          exact absurd hmem hgone
      · cases hn'
    · intro m hm
      cases hid.symm.trans hm
  · intro n hn
    exact (hkept n).trans (if_neg hn)
  · intro n hn
    left
    have hn' := (hkept n).trans (if_pos hn)
    by_cases hm : n = (vm.orphaned id).master
    · rw [if_pos hm] at hn'
      refine ⟨_, hn', ?_, List.mem_append_left _ List.mem_cons_self⟩
      rw [hm]
      exact ⟨hfit.mem, hfit.other, hfit.alone⟩
    · rw [if_neg hm] at hn'
      exact ⟨_, hn', ⟨hmaster, fun _ => rfl, fun hc => absurd hc hm⟩,
        List.mem_append_left _ (List.mem_cons_of_mem _ List.mem_cons_self)⟩

end

theorem mem_prepIds (vm : VideoMap) (ns : List Id) (s : Std.TreeSet Id) (x : Id) :
    x ∈ ns.foldl (fun (s : Std.TreeSet Id) n => s.insert (vm.selectNewSrc n)) s ↔
      x ∈ s ∨ ∃ n ∈ ns, vm.selectNewSrc n = x := by
  induction ns generalizing s with
  | nil => simp
  | cons a ns ih =>
      rw [List.foldl_cons, ih, Std.TreeSet.mem_insert, Std.compare_eq_iff_eq]
      simp only [List.mem_cons, exists_eq_or_imp]
      tauto

section

variable {vm : VideoMap} {id : Id}

/-- The links to expected sources after `removeOther` has given the lookers of the node
that leaves new ones. -/
def rebound (vm : VideoMap) (id : Id) : Links Id Id :=
  (vm.exp.bindEach (vm.getAllCurrentLooker id)
    { vm with allNode := vm.allNode.erase id }.selectNewSrc).bindEach
      (vm.getAllExpectedLooker id) { vm with allNode := vm.allNode.erase id }.selectNewSrc

theorem fwd_rebound (h : Graph vm) (n : Id) :
    (vm.rebound id).fwd n = if vm.expectedSrc n = some id ∨ vm.src n = some id then
      some ({ vm with allNode := vm.allNode.erase id }.selectNewSrc n) else vm.expectedSrc n := by
  rw [rebound, Links.fwd_bindEach, Links.fwd_bindEach]
  simp only [mem_getAllExpectedLooker h, mem_getAllCurrentLooker h]
  by_cases he : vm.expectedSrc n = some id
  · simp [he]
  · by_cases hs : vm.src n = some id
    · simp [he, hs]
    · simp only [he, hs, if_false, or_self]
      rfl

theorem removeOther_expectedSrc (h : Graph vm)
    (hm : vm.master ∈ vm.allNode.erase id) (n : Id) :
    ((removeOther { vm with allNode := vm.allNode.erase id } id (vm.getAllCurrentLooker id)
      (vm.getAllExpectedLooker id)).1.deleteNode id).expectedSrc n =
      if n = id then none else (vm.rebound id).fwd n := by
  have hok : (vm.rebound id).Consistent := (h.exp_ok.bindEach _ _).bindEach _ _
  have hne : (vm.rebound id).fwd n ≠ some id := by
    intro hc
    rw [fwd_rebound h] at hc
    split at hc
    · have hfit : Fit { vm with allNode := vm.allNode.erase id } n _ := selectNewSrc_fit hm n
      have hmem := hfit.mem
      rw [Option.some.inj hc] at hmem
      exact (mem_erase_allNode.mp hmem).1 rfl
    · next hno => exact hno (Or.inl hc)
  show ((((vm.rebound id).unbind id).release id).blank id).fwd n = _
  rw [hok.fwd_isolate]
  simp [hne]

/-- The new expected sources are asked to prepare. -/
theorem removeOther_prepare (h : Graph vm) {n : Id}
    (hn : vm.expectedSrc n = some id ∨ vm.src n = some id) :
    Event.prepare ({ vm with allNode := vm.allNode.erase id }.selectNewSrc n) ∈
      (removeOther { vm with allNode := vm.allNode.erase id } id (vm.getAllCurrentLooker id)
        (vm.getAllExpectedLooker id)).2 := by
  apply List.mem_map_of_mem
  apply Std.TreeSet.mem_toList.mpr
  apply (mem_prepIds _ _ _ _).mpr
  refine Or.inr ⟨n, ?_, rfl⟩
  rw [List.mem_append, mem_getAllCurrentLooker h, mem_getAllExpectedLooker h]
  exact hn.symm

/-- Somebody other than the master leaves. -/
theorem removeOther_removed (h : Graph vm) (hid : id ∈ vm.allNode) (hne : id ≠ vm.master)
    (evs : List Event) :
    let r := removeOther { vm with allNode := vm.allNode.erase id } id
      (vm.getAllCurrentLooker id) (vm.getAllExpectedLooker id)
    Removed vm id (r.1.deleteNode id, r.2 ++ evs) := by
  intro r
  have hm : vm.master ∈ vm.allNode.erase id :=
    mem_erase_allNode.mpr ⟨fun e => hne e.symm, h.master_mem hid⟩
  have hok : (vm.rebound id).Consistent := (h.exp_ok.bindEach _ _).bindEach _ _
  have hexp := removeOther_expectedSrc h hm
  refine ⟨h.cur_ok.isolate id, hok.isolate id, rfl, h.cur_ok.fwd_isolate id, ?_, ?_,
    fun _ => hm, fun hn => absurd hm (hn _)⟩
  · intro n hn
    refine (hexp n).trans ?_
    split
    · rfl
    · next hnid =>
        have hout : n ∉ vm.allNode := fun hc => hn (mem_erase_allNode.mpr ⟨hnid, hc⟩)
        rw [fwd_rebound h]
        simp [h.expectedSrc_absent hout, h.src_absent hout]
  · intro n hn
    have hval := (hexp n).trans (if_neg (mem_erase_allNode.mp hn).1)
    rw [fwd_rebound h] at hval
    -- lookers of the node get a new source, the others keep theirs
    by_cases hc : vm.expectedSrc n = some id ∨ vm.src n = some id
    · rw [if_pos hc] at hval
      have hfit : Fit { vm with allNode := vm.allNode.erase id } n _ := selectNewSrc_fit hm n
      exact Or.inl ⟨_, hval, ⟨hfit.mem, hfit.other, hfit.alone⟩,
        List.mem_append_left _ (removeOther_prepare h hc)⟩
    · rw [if_neg hc] at hval
      rw [not_or] at hc
      exact Or.inr ⟨hval, hc.1, hc.2, rfl⟩

end

theorem remove_removed {vm : VideoMap} (h : Graph vm) {id : Id} (hid : id ∈ vm.allNode) :
    Removed vm id (vm.remove id) := by
  rw [remove]
  rw [if_pos (contains_iff.mpr hid)]
  by_cases hlast : (vm.allNode.erase id).isEmpty = true
  · simp only [hlast, if_true]
    exact remove_last h (Std.TreeSet.isEmpty_iff_forall_not_mem.mp hlast) _
  · simp only [hlast, Bool.false_eq_true, if_false]
    obtain ⟨x, hx⟩ := Std.TreeSet.isEmpty_eq_false_iff_exists_mem.mp (Bool.not_eq_true _ ▸ hlast)
    by_cases hm : id = vm.master
    · simp only [hm, if_true]
      rw [← hm]
      exact removeMaster_removed h hx _
    · simp only [hm, if_false]
      exact removeOther_removed h hid hm _

theorem removed_graph {vm : VideoMap} (h : Graph vm) {id : Id}
    {r : VideoMap × List Event} (hid : id ∈ vm.allNode) (hr : Removed vm id r) :
    Graph r.1 := by
  have hmem : ∀ {n}, n ∈ r.1.allNode ↔ n ≠ id ∧ n ∈ vm.allNode := by
    intro n
    rw [hr.allNode, mem_erase_allNode]
  refine ⟨hr.cur_ok, hr.exp_ok, ?_, ?_, hr.master_mem, hr.master_none, ?_⟩
  · intro n m hs
    rw [hr.src] at hs
    split at hs
    · cases hs
    · next hno =>
        rw [not_or] at hno
        obtain ⟨hn, hm⟩ := h.cur_live hs
        exact ⟨hmem.mpr ⟨hno.1, hn⟩, hmem.mpr ⟨fun e => hno.2 (e ▸ hs), hm⟩⟩
  · intro n m he
    by_cases hn : n ∈ r.1.allNode
    · refine ⟨hn, ?_⟩
      rcases hr.exp_in n hn with ⟨m', he', hfit, -⟩ | ⟨he', hne, -, -⟩
      · rw [he'] at he
        exact Option.some.inj he ▸ hfit.mem
      · rw [he'] at he
        exact hmem.mpr ⟨fun e => hne (e ▸ he), (h.exp_live he).2⟩
    · rw [hr.exp_out n hn] at he
      cases he
  · intro n hn
    obtain ⟨hnid, hnv⟩ := hmem.mp hn
    rcases hr.exp_in n hn with ⟨m, he, hfit, -⟩ | ⟨he, hne, hns, hma⟩
    · exact ⟨m, by rw [target, he]; rfl, hfit⟩
    · -- the node never looked at the removed one: its target is untouched
      obtain ⟨m, ht, hfit⟩ := h.target_fit hnv
      have hsrc : r.1.src n = vm.src n := by
        rw [hr.src, if_neg]
        rintro (hc | hc)
        · exact hnid hc
        · exact hns hc
      have hmid : m ≠ id := by
        rintro rfl
        rw [target] at ht
        rcases e : vm.expectedSrc n with - | y
        · rw [e] at ht
          exact hns ht
        · rw [e] at ht
          exact hne (e.trans ht)
      refine ⟨m, ?_, hmem.mpr ⟨hmid, hfit.mem⟩, ?_, ?_⟩
      · rw [target, he, hsrc]
        exact ht
      · rw [hma]
        exact hfit.other
      · intro hc hm
        rw [hma] at hc hm
        have hidm := hfit.alone hc hm id hid
        exact absurd (hc.trans hidm.symm) hnid

theorem removed_prepares {vm : VideoMap} {id : Id} {r : VideoMap × List Event}
    (hr : Removed vm id r) : Prepares vm r := by
  intro n hn x hx hold
  rcases hr.exp_in n hn with ⟨m, he, -, hp⟩ | ⟨he, -, -, -⟩
  · rw [he] at hx
    exact Option.some.inj hx ▸ hp
  · exact absurd (he ▸ hx) hold

/-! ### SetMaster -/

/-- `SetMaster` retargets everybody but the new master, whose own target is the
old master. -/
structure Mastered (vm : VideoMap) (id : Id) (r : VideoMap × List Event) : Prop where
  cur : r.1.cur = vm.cur
  exp_ok : r.1.exp.Consistent
  allNode : r.1.allNode = vm.allNode
  master : r.1.master = id
  exp : ∀ n, r.1.expectedSrc n = if n ∈ vm.allNode ∧ n ≠ id then some id else vm.expectedSrc n
  prepare : Event.prepare id ∈ r.2

theorem setMaster_mastered {vm : VideoMap} (h : Graph vm) {id : Id} (hid : id ∈ vm.allNode)
    (hne : id ≠ vm.master) : Mastered vm id (vm.setMaster id) := by
  have hothers : ∀ n, n ∈ vm.allNode.toList.filter (· ≠ id) ↔ n ∈ vm.allNode ∧ n ≠ id := by
    intro n
    simp
  have hmas : vm.master ∈ vm.allNode.toList.filter (· ≠ id) :=
    (hothers _).mpr ⟨h.master_mem hid, fun e => hne e.symm⟩
  have hnil : (vm.allNode.toList.filter (· ≠ id)).isEmpty = false := by
    rw [List.isEmpty_eq_false_iff]
    exact List.ne_nil_of_mem hmas
  rw [setMaster]
  rw [if_pos (contains_iff.mpr hid), if_neg hne]
  refine ⟨rfl, h.exp_ok.bindEach _ _, rfl, rfl, ?_, ?_⟩
  · intro n
    show (Links.bindEach _ _ _).fwd n = _
    rw [Links.fwd_bindEach]
    simp only [hothers]
    rfl
  · simp only [hnil, Bool.false_eq_true, if_false]
    exact List.mem_append_left _ (List.mem_singleton.mpr rfl)

theorem mastered_graph {vm : VideoMap} (h : Graph vm) {id : Id} (hid : id ∈ vm.allNode)
    (hne : id ≠ vm.master) {r : VideoMap × List Event} (hr : Mastered vm id r) :
    Graph r.1 := by
  have hsrc : ∀ n, r.1.src n = vm.src n := by
    intro n
    rw [src, hr.cur]
    rfl
  refine ⟨hr.cur ▸ h.cur_ok, hr.exp_ok, ?_, ?_, ?_, ?_, ?_⟩
  · intro n m hs
    rw [hr.allNode]
    exact h.cur_live (hsrc n ▸ hs)
  · intro n m he
    rw [hr.exp] at he
    rw [hr.allNode]
    split at he
    · next hn => exact ⟨hn.1, Option.some.inj he ▸ hid⟩
    · exact h.exp_live he
  · intro n _
    rw [hr.master, hr.allNode]
    exact hid
  · intro hn
    rw [hr.allNode] at hn
    exact absurd hid (hn id)
  · intro n hn
    rw [hr.allNode] at hn
    by_cases hni : n = id
    · -- the new master keeps heading for the old one
      obtain ⟨m, ht, hfit⟩ := h.target_fit hn
      have hm : m = vm.master := hfit.other (hni ▸ hne)
      refine ⟨m, ?_, hr.allNode ▸ hfit.mem, ?_, ?_⟩
      · rw [target, hr.exp, if_neg (fun hc => hc.2 hni), hsrc]
        exact ht
      · intro hc
        exact absurd (hni.trans hr.master.symm) hc
      · intro _ hc
        rw [hr.master, hm] at hc
        exact absurd hc.symm hne
    · refine ⟨id, ?_, hr.allNode ▸ hid, fun _ => hr.master.symm, ?_⟩
      · rw [target, hr.exp, if_pos ⟨hn, hni⟩]
        rfl
      · intro hc
        exact absurd (hc.trans hr.master) hni

theorem mastered_prepares {vm : VideoMap} {id : Id} {r : VideoMap × List Event}
    (hr : Mastered vm id r) : Prepares vm r := by
  intro n _ x hx hold
  rw [hr.exp] at hx
  split at hx
  · exact Option.some.inj hx ▸ hr.prepare
  · exact absurd hx hold

/-! ### SetPrepared -/

/-- `SetPrepared` turns the expected source `id` into the current source of
every node that waits for it, and reports those whose source changed. -/
structure Switched (vm : VideoMap) (id : Id) (ns : List Id) (r : VideoMap × List Event) :
    Prop where
  cur_ok : r.1.cur.Consistent
  exp_ok : r.1.exp.Consistent
  allNode : r.1.allNode = vm.allNode
  master : r.1.master = vm.master
  src : ∀ n, r.1.src n =
    if n ∈ ns ∧ vm.expectedSrc n = some id then some id else vm.src n
  exp : ∀ n, r.1.expectedSrc n =
    if n ∈ ns ∧ vm.expectedSrc n = some id then none else vm.expectedSrc n

/-- The nodes `SetPrepared` reports. -/
def switching (vm : VideoMap) (id : Id) (ns : List Id) : List Id :=
  ns.filter fun n => vm.expectedSrc n = some id ∧ vm.src n ≠ some id

theorem setPreparedNode_spec (vm : VideoMap) (id a : Id) (evs : List Event)
    (hc : vm.cur.Consistent) (he : vm.exp.Consistent) (ha : a ∈ vm.allNode) :
    Switched vm id [a] (setPreparedNode id (vm, evs) a) ∧
      (setPreparedNode id (vm, evs) a).2
        = evs ++ (vm.switching id [a]).map (Event.srcChanged · id) := by
  rw [setPreparedNode]
  by_cases hw : vm.expectedSrc a = some id
  · simp only [hw, if_true]
    have hgs : ((vm.unbindExpectedSrc a).setSrc a id).getSrc a = id := by
      have hin : ((vm.unbindExpectedSrc a).setSrc a id).contains a = true :=
        contains_iff.mpr ha
      have hs : ((vm.unbindExpectedSrc a).setSrc a id).src a = some id := by
        show (vm.cur.bind a id).fwd a = some id
        rw [Links.fwd_bind, if_pos rfl]
      rw [getSrc, if_pos hin, hs]
    have hsw : Switched vm id [a] ((vm.unbindExpectedSrc a).setSrc a id, ([] : List Event)) := by
      refine ⟨hc.bind _ _, he.unbind _, rfl, rfl, ?_, ?_⟩
      · intro n
        show (vm.cur.bind a id).fwd n = _
        rw [Links.fwd_bind]
        by_cases hn : n = a
        · subst hn; simp [hw]
        · simp [hn, src]
      · intro n
        show (vm.exp.unbind a).fwd n = _
        rw [Links.fwd_unbind]
        by_cases hn : n = a
        · subst hn; simp [hw]
        · simp [hn, expectedSrc]
    by_cases hs : vm.src a = some id
    · simp only [hs, ne_eq, not_true_eq_false, if_false]
      refine ⟨⟨hsw.cur_ok, hsw.exp_ok, rfl, rfl, hsw.src, hsw.exp⟩, ?_⟩
      simp [switching, hs]
    · simp only [ne_eq, hs, not_false_eq_true, if_true]
      refine ⟨⟨hsw.cur_ok, hsw.exp_ok, rfl, rfl, hsw.src, hsw.exp⟩, ?_⟩
      simp [switching, hs, hw, hgs]
  · simp only [hw, if_false]
    refine ⟨⟨hc, he, rfl, rfl, ?_, ?_⟩, ?_⟩
    · intro n
      by_cases hn : n = a
      · subst hn; simp [hw]
      · simp [hn]
    · intro n
      by_cases hn : n = a
      · subst hn; simp [hw]
      · simp [hn]
    · simp [switching, hw]

/-- The whole loop of `SetPrepared`, over the nodes still to be visited. -/
theorem setPreparedLoop_spec (id : Id) (ns : List Id) (hnd : ns.Nodup) (vm : VideoMap)
    (evs : List Event) (hc : vm.cur.Consistent) (he : vm.exp.Consistent)
    (hns : ∀ n ∈ ns, n ∈ vm.allNode) :
    Switched vm id ns (ns.foldl (setPreparedNode id) (vm, evs)) ∧
      (ns.foldl (setPreparedNode id) (vm, evs)).2
        = evs ++ (vm.switching id ns).map (Event.srcChanged · id) := by
  induction ns generalizing vm evs with
  | nil => exact ⟨⟨hc, he, rfl, rfl, by simp, by simp⟩, by simp [switching]⟩
  | cons a ns ih =>
      obtain ⟨hsw, hev⟩ := setPreparedNode_spec vm id a evs hc he (hns a List.mem_cons_self)
      obtain ⟨hana, hnd'⟩ := List.nodup_cons.mp hnd
      rw [List.foldl_cons]
      generalize hg : setPreparedNode id (vm, evs) a = acc at hsw hev
      obtain ⟨g, evs'⟩ := acc
      obtain ⟨hsw', hev'⟩ := ih hnd' g evs' hsw.cur_ok hsw.exp_ok fun n hn =>
        hsw.allNode ▸ hns n (List.mem_cons_of_mem _ hn)
      -- a node after `a` is untouched by the turn for `a`
      have hsame : ∀ n ∈ ns, g.expectedSrc n = vm.expectedSrc n ∧ g.src n = vm.src n := by
        intro n hn
        have hna : n ≠ a := fun e => hana (e ▸ hn)
        have h1 := hsw.exp n
        have h2 := hsw.src n
        simp only [List.mem_singleton, hna, false_and, if_false] at h1 h2
        exact ⟨h1, h2⟩
      refine ⟨⟨hsw'.cur_ok, hsw'.exp_ok, hsw'.allNode.trans hsw.allNode,
        hsw'.master.trans hsw.master, ?_, ?_⟩, ?_⟩
      · intro n
        rw [hsw'.src]
        by_cases hn : n ∈ ns
        · simp [hn, hsame n hn]
        · have h2 := hsw.src n
          simp only [List.mem_singleton] at h2
          simp [hn, h2]
      · intro n
        rw [hsw'.exp]
        by_cases hn : n ∈ ns
        · simp [hn, hsame n hn]
        · have h2 := hsw.exp n
          simp only [List.mem_singleton] at h2
          simp [hn, h2]
      · have htail : g.switching id ns = vm.switching id ns := by
          refine List.filter_congr fun n hn => ?_
          rw [(hsame n hn).1, (hsame n hn).2]
        have hhead : vm.switching id (a :: ns) = vm.switching id [a] ++ vm.switching id ns := by
          rw [switching, switching, switching, ← List.filter_append]
          rfl
        simp only at hev
        rw [hev', hev, htail, hhead, List.map_append, List.append_assoc]

theorem setPrepared_eq {vm : VideoMap} {id : Id} (hid : id ∈ vm.allNode) :
    vm.setPrepared id =
      ((vm.allNode.toList.foldl (setPreparedNode id) (vm, [])).1,
        (vm.allNode.toList.foldl (setPreparedNode id) (vm, [])).2 ++
          detect vm (vm.allNode.toList.foldl (setPreparedNode id) (vm, [])).1) := by
  rw [setPrepared]
  rw [if_pos (contains_iff.mpr hid)]

/-- `SetPrepared` as a whole: the reports of changed sources, then the detector. -/
theorem setPrepared_spec {vm : VideoMap} (h : Graph vm) {id : Id} (hid : id ∈ vm.allNode) :
    Switched vm id vm.allNode.toList (vm.setPrepared id) ∧
      (vm.setPrepared id).2 = (vm.switching id vm.allNode.toList).map (Event.srcChanged · id)
        ++ detect vm (vm.setPrepared id).1 := by
  obtain ⟨hsw, hev⟩ := setPreparedLoop_spec id vm.allNode.toList
    (treeSet_toList_nodup vm.allNode) vm [] h.cur_ok h.exp_ok
    fun n hn => Std.TreeSet.mem_toList.mp hn
  rw [setPrepared_eq hid]
  refine ⟨⟨hsw.cur_ok, hsw.exp_ok, hsw.allNode, hsw.master, hsw.src, hsw.exp⟩, ?_⟩
  rw [hev, List.nil_append]

theorem Switched.target {vm : VideoMap} {id : Id} {ns : List Id}
    {r : VideoMap × List Event} (hr : Switched vm id ns r) (n : Id) :
    r.1.target n = vm.target n := by
  rw [VideoMap.target, VideoMap.target, hr.exp, hr.src]
  by_cases hw : n ∈ ns ∧ vm.expectedSrc n = some id
  · simp [hw]
  · simp [hw]

theorem switched_graph {vm : VideoMap} (h : Graph vm) {id : Id} (hid : id ∈ vm.allNode)
    {ns : List Id} {r : VideoMap × List Event} (hr : Switched vm id ns r) : Graph r.1 := by
  refine ⟨hr.cur_ok, hr.exp_ok, ?_, ?_, ?_, ?_, ?_⟩
  · intro n m hs
    rw [hr.src] at hs
    rw [hr.allNode]
    split at hs
    · next hw => exact ⟨(h.exp_live hw.2).1, Option.some.inj hs ▸ hid⟩
    · exact h.cur_live hs
  · intro n m he
    rw [hr.exp] at he
    rw [hr.allNode]
    split at he
    · cases he
    · exact h.exp_live he
  · intro n hn
    rw [hr.allNode] at hn ⊢
    rw [hr.master]
    exact h.master_mem hn
  · intro hn
    rw [hr.allNode] at hn
    rw [hr.master]
    exact h.master_none hn
  · intro n hn
    rw [hr.allNode] at hn
    obtain ⟨m, ht, hfit⟩ := h.target_fit hn
    refine ⟨m, (hr.target n).trans ht, hr.allNode ▸ hfit.mem, ?_, ?_⟩
    · rw [hr.master]
      exact hfit.other
    · rw [hr.master, hr.allNode]
      exact hfit.alone

theorem switched_prepares {vm : VideoMap} {id : Id} {ns : List Id}
    {r : VideoMap × List Event} (hr : Switched vm id ns r) : Prepares vm r := by
  intro n _ x hx hold
  rw [hr.exp] at hx
  split at hx
  · cases hx
  · exact absurd hx hold

/-! ### Every call, every run -/

/-- The calls that return at once. -/
theorem add_present {vm : VideoMap} {id : Id} (hid : id ∈ vm.allNode) :
    vm.add id = (vm, []) := by
  rw [add, if_pos (contains_iff.mpr hid)]

theorem remove_absent {vm : VideoMap} {id : Id} (hid : id ∉ vm.allNode) :
    vm.remove id = (vm, []) := by
  rw [remove, if_neg fun hc => hid (contains_iff.mp hc)]

theorem setMaster_ignored {vm : VideoMap} {id : Id} (hid : id ∉ vm.allNode ∨ id = vm.master) :
    vm.setMaster id = (vm, []) := by
  by_cases hc : vm.contains id = true
  · rw [setMaster, if_pos hc, if_pos (hid.resolve_left fun h => h (contains_iff.mp hc))]
  · rw [setMaster, if_neg hc]

theorem setPrepared_absent {vm : VideoMap} {id : Id} (hid : id ∉ vm.allNode) :
    vm.setPrepared id = (vm, []) := by
  rw [setPrepared, if_neg fun hc => hid (contains_iff.mp hc)]

/-- Everything one call can do. -/
theorem step_cases {vm : VideoMap} (h : Graph vm) (op : Op) :
    vm.step op = (vm, []) ∨
    (op.id ∉ vm.allNode ∧ Added vm op.id (vm.step op)) ∨
    (op.id ∈ vm.allNode ∧ Removed vm op.id (vm.step op)) ∨
    (op.id ∈ vm.allNode ∧ op.id ≠ vm.master ∧ Mastered vm op.id (vm.step op)) ∨
    (op.id ∈ vm.allNode ∧ Switched vm op.id vm.allNode.toList (vm.step op)) := by
  cases op with
  | add id =>
      by_cases hid : id ∈ vm.allNode
      · exact Or.inl (add_present hid)
      · exact Or.inr (Or.inl ⟨hid, add_added h hid⟩)
  | remove id =>
      by_cases hid : id ∈ vm.allNode
      · exact Or.inr (Or.inr (Or.inl ⟨hid, remove_removed h hid⟩))
      · exact Or.inl (remove_absent hid)
  | setMaster id =>
      by_cases hid : id ∉ vm.allNode ∨ id = vm.master
      · exact Or.inl (setMaster_ignored hid)
      · rw [not_or, not_not] at hid
        exact Or.inr (Or.inr (Or.inr (Or.inl
          ⟨hid.1, hid.2, setMaster_mastered h hid.1 hid.2⟩)))
  | setPrepared id =>
      by_cases hid : id ∈ vm.allNode
      · exact Or.inr (Or.inr (Or.inr (Or.inr ⟨hid, (setPrepared_spec h hid).1⟩)))
      · exact Or.inl (setPrepared_absent hid)

/-- One call keeps the invariant and the `Prepare` law. -/
theorem step_graph {vm : VideoMap} (h : Graph vm) (op : Op) :
    Graph (vm.step op).1 ∧ Prepares vm (vm.step op) := by
  rcases step_cases h op with hr | ⟨hid, hr⟩ | ⟨hid, hr⟩ | ⟨hid, hm, hr⟩ | ⟨hid, hr⟩
  · rw [hr]
    exact ⟨h, fun _ _ _ hx hold => absurd hx hold⟩
  · exact ⟨added_graph h hid hr, added_prepares hr⟩
  · exact ⟨removed_graph h hid hr, removed_prepares hr⟩
  · exact ⟨mastered_graph h hid hm hr, mastered_prepares hr⟩
  · exact ⟨switched_graph h hid hr, switched_prepares hr⟩

/-- The invariant holds after every run. -/
theorem run_graph (ops : List Op) : Graph (run ops) :=
  List.foldlRecOn ops _ graph_init fun _ h op _ => (step_graph h op).1

/-- A call brings at most its own id into the map. -/
theorem step_allNode {vm : VideoMap} (h : Graph vm) (op : Op) {n : Id}
    (hn : n ∈ (vm.step op).1.allNode) : n ∈ vm.allNode ∨ n = op.id := by
  rcases step_cases h op with hr | ⟨-, hr⟩ | ⟨-, hr⟩ | ⟨-, -, hr⟩ | ⟨-, hr⟩
  · rw [hr] at hn
    exact Or.inl hn
  · rw [hr.allNode, mem_insert_allNode] at hn
    exact hn.symm
  · rw [hr.allNode, mem_erase_allNode] at hn
    exact Or.inl hn.2
  · rw [hr.allNode] at hn
    exact Or.inl hn
  · rw [hr.allNode] at hn
    exact Or.inl hn

/-- Every id in the map was passed to some call. -/
theorem run_allNode (ops : List Op) {n : Id} (hn : n ∈ (run ops).allNode) :
    ∃ op ∈ ops, op.id = n := by
  induction ops using List.reverseRecOn with
  | nil => simp [run, init] at hn
  | append_singleton ops op ih =>
      have hrun : run (ops ++ [op]) = ((run ops).step op).1 := by
        simp [run, List.foldl_append]
      rw [hrun] at hn
      rcases step_allNode (run_graph ops) op hn with hn' | rfl
      · obtain ⟨o, ho, hoid⟩ := ih hn'
        exact ⟨o, List.mem_append_left _ ho, hoid⟩
      · exact ⟨op, by simp, rfl⟩

/-! ### The graph as a caller sees it -/

/-- The doubly linked graph is in order and the master is well defined. -/
structure GraphConsistent (vm : VideoMap) : Prop where
  master_noid : vm.master = NOID ↔ ∀ n, n ∉ vm.allNode
  master_present : (∃ n, n ∈ vm.allNode) → vm.master ∈ vm.allNode
  src_iff_looker : ∀ n m, vm.src n = some m ↔ n ∈ vm.lookers m
  expected_iff_looker : ∀ n m, vm.expectedSrc n = some m ↔ n ∈ vm.expectedLookers m
  src_present : ∀ n ∈ vm.allNode, ∀ m, vm.src n = some m → m ∈ vm.allNode
  expected_present : ∀ n ∈ vm.allNode, ∀ m, vm.expectedSrc n = some m → m ∈ vm.allNode
  has_source : ∀ n ∈ vm.allNode, vm.src n ≠ none ∨ vm.expectedSrc n ≠ none

/-- **Graph consistency.**  Whatever calls are made, with ids other than `NOID`,
the graph is consistent and nothing in it dangles. -/
theorem run_graphConsistent (ops : List Op) (hids : ∀ op ∈ ops, op.id ≠ NOID) :
    GraphConsistent (run ops) := by
  have h := run_graph ops
  have hnoid : ∀ n ∈ (run ops).allNode, n ≠ NOID := by
    intro n hn
    obtain ⟨op, hop, rfl⟩ := run_allNode ops hn
    exact hids op hop
  refine ⟨⟨?_, h.master_none⟩, ?_, h.cur_ok, h.exp_ok, ?_, ?_, ?_⟩
  · intro hm n hn
    exact hnoid _ (h.master_mem hn) hm
  · rintro ⟨n, hn⟩
    exact h.master_mem hn
  · intro n _ m hs
    exact (h.cur_live hs).2
  · intro n _ m he
    exact (h.exp_live he).2
  · intro n hn
    obtain ⟨m, ht, -⟩ := h.target_fit hn
    by_contra hc
    rw [not_or, not_not, not_not] at hc
    rw [target, hc.1, hc.2] at ht
    cases ht

/-- A conference of three in which the master leaves while a switch is pending. -/
theorem run_graphConsistent_master_leaves :
    GraphConsistent (run [.add 1, .setPrepared 1, .add 2, .add 3, .setPrepared 2, .remove 1]) ∧
      (run [.add 1, .setPrepared 1, .add 2, .add 3, .setPrepared 2, .remove 1]).master = 2 :=
  ⟨run_graphConsistent _ (by decide), by decide⟩

/-- **Convergence target.**  After every run everybody heads for the master, the
master for somebody else unless it is alone, and a further call that gives a
remaining node a new expected source asks that source to prepare. -/
theorem run_converges (ops : List Op) (op : Op) :
    (∀ n ∈ (run ops).allNode, n ≠ (run ops).master →
      (run ops).target n = some (run ops).master) ∧
    (2 ≤ (run ops).allNode.size → ∃ m ∈ (run ops).allNode,
      m ≠ (run ops).master ∧ (run ops).target (run ops).master = some m) ∧
    ((run ops).allNode.size = 1 → ∀ n ∈ (run ops).allNode, (run ops).target n = some n) ∧
    Prepares (run ops) ((run ops).step op) := by
  have h := run_graph ops
  refine ⟨?_, ?_, ?_, (step_graph h op).2⟩
  · intro n hn hne
    obtain ⟨m, ht, hfit⟩ := h.target_fit hn
    rw [ht, hfit.other hne]
  · intro hsz
    have hmm : (run ops).master ∈ (run ops).allNode := by
      by_contra hno
      have hz := treeSet_size_eq_zero.mpr fun a ha => hno (h.master_mem ha)
      omega
    obtain ⟨m, ht, hfit⟩ := h.target_fit hmm
    refine ⟨m, hfit.mem, ?_, ht⟩
    intro hm
    have h1 := treeSet_size_one_of_forall hmm (hfit.alone rfl hm)
    omega
  · intro hsz n hn
    obtain ⟨m, ht, hfit⟩ := h.target_fit hn
    rw [ht, treeSet_eq_of_size_one hsz hfit.mem hn]

end VideoMap

end Orbit
