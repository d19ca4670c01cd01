/-
OrbitStream/MasterAllocation.lean

How the master server allocates a backend (`RegistryServiceImpl::Register` and
`GetLiveServers`, `OrbitMasterServerManager::RoundRobin`).

A backend registers again and again, which is its heartbeat, and is live for ten seconds
after that.  `RoundRobin` hands out the live backends one after the other: it keeps the
index of the next one, which it compares with the number of live backends of the call it
was made by, and uses with those of the next call.

The index is the number of backends handed out in the current round, so it is out of range
if and only if so many backends were lost in between that those left are no more than that
(`round_robin`).  While the backends stay the same each of them is handed out exactly once
in a round, from wherever the round starts.
-/
import OrbitStream.Lib.Round
import OrbitStream.Lib.Run
import OrbitStream.Master

namespace Orbit

open Lib

/-- The name under which a backend is registered. -/
def ServerInfo.qname (info : ServerInfo) : String :=
  info.host ++ ":" ++ toString info.port ++ "/" ++ info.name

/-- `ServerStat`. -/
structure ServerStat where
  info : ServerInfo
  lastTs : Int
  deriving DecidableEq, Repr

/-- The order in which the table of backends is gone through after a new one is put into it:
that of an `unordered_map`, so any order. -/
structure Rehash where
  order : List (String × ServerStat) → List (String × ServerStat)
  perm : ∀ l, (order l).Perm l

/-- The order of the table as it is. -/
def Rehash.keep : Rehash := ⟨id, List.Perm.refl⟩

/-- `RegisterResponse`. -/
structure RegisterResponse where
  id : Int32
  message : String
  deriving DecidableEq, Repr

/-- `RegistryServiceImpl`: the table of backends, in the order in which it is gone through. -/
structure RegistryServiceImpl where
  id : Int32 := 0
  stats : List (String × ServerStat) := []
  deriving DecidableEq, Repr

namespace RegistryServiceImpl

/-- `Register`. -/
def register (reg : RegistryServiceImpl) (server : ServerInfo) (now : Int) (rehash : Rehash) :
    RegistryServiceImpl × RegisterResponse :=
  let stat : ServerStat := ⟨server, now⟩
  let stats :=
    -- a heartbeat: the entry stays where it is
    if server.qname ∈ reg.stats.map Prod.fst then
      reg.stats.map fun e => if e.1 = server.qname then (e.1, stat) else e
    else rehash.order (reg.stats ++ [(server.qname, stat)])
  (⟨reg.id + 1, stats⟩, ⟨reg.id + 1, "ok"⟩)

/-- `GetLiveServers`; the clock is read once for every backend of the table. -/
def getLiveServers (reg : RegistryServiceImpl) (clock : Nat → Int) : List ServerStat :=
  (reg.stats.zipIdx.filter fun e => clock e.2 - e.1.2.lastTs < 10000).map fun e => e.1.2

end RegistryServiceImpl

/-- `OrbitMasterServerManager`, with the flag for the round robin strategy. -/
structure OrbitMasterServerManager where
  registry : RegistryServiceImpl := {}
  serverId : Nat := 0
  deriving DecidableEq, Repr

/-- An access to the vector of live backends out of its range. -/
structure IndexFault where
  index : Nat
  size : Nat
  deriving DecidableEq, Repr

namespace OrbitMasterServerManager

/-- `RoundRobin`. -/
def roundRobin (m : OrbitMasterServerManager) (clock : Nat → Int) :
    Except IndexFault (OrbitMasterServerManager × ServerInfo) :=
  let liveServers := m.registry.getLiveServers clock
  if liveServers.length > 0 then
    match liveServers[m.serverId]? with
    -- `live_servers[server_id_]` behind the end of the vector
    | none => .error ⟨m.serverId, liveServers.length⟩
    | some stat =>
        let serverId := m.serverId + 1
        .ok ({ m with serverId := if serverId ≥ liveServers.length then 0 else serverId },
          stat.info)
  else .ok (m, {})

end OrbitMasterServerManager

/-- A run of the master: the manager, and the backends handed out. -/
structure Allocations where
  manager : OrbitMasterServerManager := {}
  allocated : List ServerInfo := []

/-- What happens to the master: a backend registers, or one is allocated. -/
inductive AllocationOp
  | register (server : ServerInfo) (now : Int) (rehash : Rehash)
  | allocate (clock : Nat → Int)

namespace Allocations

/-- The backends that are live. -/
def live (s : Allocations) (clock : Nat → Int) : List ServerStat :=
  s.manager.registry.getLiveServers clock

/-- One operation. -/
def step (s : Allocations) : AllocationOp → Except IndexFault Allocations
  | .register server now rehash =>
      .ok { s with manager :=
        { s.manager with registry := (s.manager.registry.register server now rehash).1 } }
  | .allocate clock => do
      let (manager, info) ← s.manager.roundRobin clock
      return {
        manager := manager
        allocated := if (s.live clock).length > 0 then s.allocated ++ [info] else s.allocated }

/-- The numbers of backends that are live at the allocations of a run.  They depend on the
registrations and the clock only. -/
def liveCounts (reg : RegistryServiceImpl) : List AllocationOp → List Nat
  | [] => []
  | .register server now rehash :: ops => liveCounts (reg.register server now rehash).1 ops
  | .allocate clock :: ops => (reg.getLiveServers clock).length :: liveCounts reg ops

/-- How many backends have been handed out in the current round, by allocations at which so many
were live: a round is over with the allocation that brings them to the number that is live. -/
def handedOut (counts : List Nat) : Nat :=
  counts.foldl (fun handed n => if n = 0 then handed else if n ≤ handed + 1 then 0
    else handed + 1) 0

/-- The number of backends that were live when one was last handed out. -/
def lastLive (counts : List Nat) : Nat :=
  counts.foldl (fun last n => if n = 0 then last else n) 0

/-- If fewer backends are live than when one was last handed out, there are none, or more of
them than have been handed out in the current round. -/
def RoundGoesOn (counts : List Nat) (n : Nat) : Prop :=
  n < lastLive counts → n = 0 ∨ handedOut counts < n

variable {s s' : Allocations} {clock : Nat → Int}

/-! ### The index -/

theorem handedOut_concat (counts : List Nat) (n : Nat) :
    handedOut (counts ++ [n]) = if n = 0 then handedOut counts
      else if n ≤ handedOut counts + 1 then 0 else handedOut counts + 1 := by
  rw [handedOut, List.foldl_append]
  rfl

theorem lastLive_concat (counts : List Nat) (n : Nat) :
    lastLive (counts ++ [n]) = if n = 0 then lastLive counts else n := by
  rw [lastLive, List.foldl_append]
  rfl

/-- A round is not over while fewer are handed out than were live. -/
theorem handedOut_lt (counts : List Nat) :
    handedOut counts = 0 ∨ handedOut counts < lastLive counts := by
  induction counts using List.reverseRecOn with
  | nil => exact .inl rfl
  | append_singleton counts n ih =>
    rw [handedOut_concat, lastLive_concat]
    by_cases hzero : n = 0
    · rw [if_pos hzero, if_pos hzero]
      exact ih
    · rw [if_neg hzero, if_neg hzero]
      split
      · exact .inl rfl
      · omega

/-- The round goes on exactly if nobody is live, or more than are handed out. -/
theorem roundGoesOn_iff (counts : List Nat) (n : Nat) :
    RoundGoesOn counts n ↔ n = 0 ∨ handedOut counts < n := by
  have hlt := handedOut_lt counts
  rw [RoundGoesOn]
  omega

/-- What always holds: the backends are registered under their names, each once. -/
structure Inv (s : Allocations) : Prop where
  name : ∀ e ∈ s.manager.registry.stats, e.1 = e.2.info.qname
  nodup : (s.manager.registry.stats.map Prod.fst).Nodup

theorem inv_init : Inv {} := ⟨by simp, by simp⟩

/-- An allocation finds nothing, hands out the backend of the index, or is out of range. -/
theorem step_allocate (s : Allocations) (clock : Nat → Int) :
    ((s.live clock).length = 0 ∧ s.step (.allocate clock) = .ok s) ∨
    (∃ stat, (s.live clock)[s.manager.serverId]? = some stat ∧ s.step (.allocate clock) = .ok {
      manager := { s.manager with serverId :=
        if s.manager.serverId + 1 ≥ (s.live clock).length then 0 else s.manager.serverId + 1 }
      allocated := s.allocated ++ [stat.info] }) ∨
    (0 < (s.live clock).length ∧ (s.live clock).length ≤ s.manager.serverId ∧
      s.step (.allocate clock) = .error ⟨s.manager.serverId, (s.live clock).length⟩) := by
  rw [step, OrbitMasterServerManager.roundRobin]
  by_cases hlive : (s.live clock).length > 0
  · right
    simp only [if_pos hlive]
    rw [if_pos (show (s.manager.registry.getLiveServers clock).length > 0 from hlive)]
    rcases hget : (s.live clock)[s.manager.serverId]? with - | stat
    · right
      refine ⟨hlive, List.getElem?_eq_none_iff.mp hget, ?_⟩
      rw [show (s.manager.registry.getLiveServers clock)[s.manager.serverId]? = none from hget]
      rfl
    · left
      refine ⟨stat, rfl, ?_⟩
      rw [show (s.manager.registry.getLiveServers clock)[s.manager.serverId]? = some stat from hget]
      rfl
  · left
    simp only [if_neg hlive]
    rw [if_neg (show ¬ (s.manager.registry.getLiveServers clock).length > 0 from hlive)]
    exact ⟨by omega, rfl⟩

theorem mem_of_perm_register {reg : RegistryServiceImpl} {server : ServerInfo} {now : Int}
    {rehash : Rehash} {e : String × ServerStat} (he : e ∈ (reg.register server now rehash).1.stats) :
    e ∈ reg.stats ∨ e = (server.qname, ⟨server, now⟩) := by
  rw [RegistryServiceImpl.register] at he
  dsimp only at he
  split at he
  · obtain ⟨x, hx, rfl⟩ := List.mem_map.mp he
    split
    · rename_i heq
      rw [heq]
      exact .inr rfl
    · exact .inl hx
  · rw [(rehash.perm _).mem_iff, List.mem_append, List.mem_singleton] at he
    exact he

/-- A heartbeat keeps the names and their order. -/
theorem names_of_heartbeat {reg : RegistryServiceImpl} {server : ServerInfo} (now : Int)
    (rehash : Rehash) (h : server.qname ∈ reg.stats.map Prod.fst) :
    (reg.register server now rehash).1.stats.map Prod.fst = reg.stats.map Prod.fst := by
  rw [RegistryServiceImpl.register, if_pos h, List.map_map]
  apply List.map_congr_left
  intro e _
  show (if e.1 = server.qname then (e.1, ⟨server, now⟩) else e).1 = e.1
  split
  · rfl
  · rfl

theorem Inv.register (h : s.Inv) (server : ServerInfo) (now : Int) (rehash : Rehash) :
    Inv { s with manager :=
      { s.manager with registry := (s.manager.registry.register server now rehash).1 } } := by
  refine ⟨?_, ?_⟩
  · intro e he
    rcases mem_of_perm_register he with he | rfl
    · exact h.name e he
    · rfl
  · show ((s.manager.registry.register server now rehash).1.stats.map Prod.fst).Nodup
    by_cases hknown : server.qname ∈ s.manager.registry.stats.map Prod.fst
    · rw [names_of_heartbeat now rehash hknown]
      exact h.nodup
    · rw [RegistryServiceImpl.register, if_neg hknown]
      rw [((rehash.perm _).map Prod.fst).nodup_iff, List.map_append]
      exact h.nodup.append (List.nodup_singleton _) (by simpa using hknown)

/-- An allocation is out of range if and only if so many backends are handed out as are live;
otherwise it keeps the invariant, and the index goes round. -/
theorem allocate_checked (h : s.Inv) (clock : Nat → Int) :
    Checked (s.step (.allocate clock))
      ((s.live clock).length = 0 ∨ s.manager.serverId < (s.live clock).length)
      fun s' => s'.Inv ∧ s'.manager.registry = s.manager.registry ∧
        s'.manager.serverId = if (s.live clock).length = 0 then s.manager.serverId
          else if (s.live clock).length ≤ s.manager.serverId + 1 then 0
          else s.manager.serverId + 1 := by
  rcases step_allocate s clock with ⟨hzero, hstep⟩ | ⟨stat, hget, hstep⟩ | ⟨hpos, hle, hstep⟩
  · rw [hstep, if_pos hzero]
    exact (Checked.of_ok ⟨h, rfl, rfl⟩).congr ⟨fun _ => .inl hzero, fun _ => trivial⟩
  · obtain ⟨hlt, -⟩ := List.getElem?_eq_some_iff.mp hget
    have hpos : (s.live clock).length ≠ 0 := Nat.ne_of_gt (Nat.zero_lt_of_lt hlt)
    rw [hstep, if_neg hpos]
    exact (Checked.of_ok ⟨⟨h.name, h.nodup⟩, rfl, rfl⟩).congr
      ⟨fun _ => .inr hlt, fun _ => trivial⟩
  · rw [hstep]
    refine ⟨fun hok => ?_, fun _ => ⟨_, rfl⟩⟩
    omega

/-- A run from any state of a run: it fails if and only if a round does not go on, and the index
is what is handed out. -/
theorem run_checked (ops : List AllocationOp) (counts : List Nat) (h : s.Inv)
    (hindex : s.manager.serverId = handedOut counts) :
    Checked (ops.foldlM step s)
      (Throughout (fun counts n => counts ++ [n]) RoundGoesOn counts
        (liveCounts s.manager.registry ops))
      fun s' => s'.Inv ∧
        s'.manager.serverId = handedOut (counts ++ liveCounts s.manager.registry ops) := by
  induction ops generalizing s counts with
  | nil =>
    rw [liveCounts, List.append_nil]
    exact Checked.of_ok ⟨h, hindex⟩
  | cons op ops ih =>
    rw [List.foldlM_cons]
    rcases op with ⟨server, now, rehash⟩ | clock
    · exact ih counts (h.register server now rehash) hindex
    · apply ((allocate_checked h clock).congr (L := RoundGoesOn counts _) ?_).bind
      · rintro s' ⟨hinv, hreg, hserver⟩
        rw [liveCounts, List.append_cons, ← hreg]
        apply ih _ hinv
        rw [hserver, handedOut_concat, hindex, hreg]
        rfl
      · rw [roundGoesOn_iff, hindex]
        rfl

/-! ### A round -/

/-- The names of the backends of the table, in its order. -/
def names (s : Allocations) : List String := s.manager.registry.stats.map Prod.fst

/-- The names of the backends that are live. -/
def liveNames (s : Allocations) (clock : Nat → Int) : List String :=
  (s.live clock).map fun stat => stat.info.qname

/-- The backends that are live at an allocation are these, and only these register. -/
def Steady (servers : List String) (s : Allocations) : AllocationOp → Prop
  | .register server _ _ => server.qname ∈ servers
  | .allocate clock => ∀ name, name ∈ s.liveNames clock ↔ name ∈ servers

/-- Whether an operation is an allocation. -/
def isAllocate : AllocationOp → Bool
  | .register _ _ _ => false
  | .allocate _ => true

theorem liveNames_sublist (h : s.Inv) (clock : Nat → Int) :
    (s.liveNames clock).Sublist s.names := by
  have hlive : s.liveNames clock =
      ((s.manager.registry.stats.zipIdx.filter fun e => clock e.2 - e.1.2.lastTs < 10000).map
        Prod.fst).map Prod.fst := by
    rw [liveNames, live, RegistryServiceImpl.getLiveServers, List.map_map, List.map_map]
    apply List.map_congr_left
    intro e he
    have hmem : e.1 ∈ s.manager.registry.stats :=
      List.fst_mem_of_mem_zipIdx (List.mem_filter.mp he).1
    exact (h.name e.1 hmem).symm
  have hzip : s.manager.registry.stats.zipIdx.map Prod.fst = s.manager.registry.stats :=
    List.zipIdx_map_fst 0 _
  have hsub : ((s.manager.registry.stats.zipIdx.filter fun e =>
      clock e.2 - e.1.2.lastTs < 10000).map Prod.fst).Sublist
      (s.manager.registry.stats.zipIdx.map Prod.fst) := List.filter_sublist.map Prod.fst
  rw [hzip] at hsub
  rw [hlive, names]
  exact hsub.map Prod.fst

/-- The live backends come in the order of the table. -/
theorem liveNames_eq (h : s.Inv) {servers : List String}
    (hlive : ∀ name, name ∈ s.liveNames clock ↔ name ∈ servers) :
    s.liveNames clock = s.names.filter (· ∈ servers) := by
  -- in the order of the table only one list has these names
  rw [sublist_eq_filter (liveNames_sublist h clock) h.nodup]
  apply List.filter_congr
  intro name _
  rw [decide_eq_decide]
  exact hlive name

/-- One allocation among the same backends hands out the next one. -/
theorem allocate_steady (h : s.Inv) {servers : List String}
    (hlive : ∀ name, name ∈ s.liveNames clock ↔ name ∈ servers)
    (hindex : s.manager.serverId < (s.names.filter (· ∈ servers)).length) :
    ∃ s' info, s.step (.allocate clock) = .ok s' ∧ s'.Inv ∧ s'.names = s.names ∧
      s'.manager.serverId = turn (s.names.filter (· ∈ servers)).length s.manager.serverId ∧
      s'.allocated = s.allocated ++ [info] ∧
      (s.names.filter (· ∈ servers))[s.manager.serverId]? = some info.qname := by
  have hnames := liveNames_eq h hlive
  have hlength : (s.live clock).length = (s.names.filter (· ∈ servers)).length := by
    rw [← hnames, liveNames, List.length_map]
  obtain ⟨s', hs', hinv, -⟩ := (allocate_checked h clock).ok (.inr (hlength ▸ hindex))
  rcases step_allocate s clock with ⟨hzero, -⟩ | ⟨stat, hget, hstep⟩ | ⟨-, hle, -⟩
  · omega
  · rw [hs'] at hstep
    obtain rfl := Except.ok.inj hstep
    refine ⟨_, stat.info, hs', hinv, rfl, ?_, rfl, ?_⟩
    · rw [← hlength]
      rfl
    · rw [← hnames, liveNames, List.getElem?_map, hget]
      rfl
  · omega

/-- The backends handed out in a part of a run that only knows these backends. -/
theorem steady_run {servers : List String} {ops : List AllocationOp} (h : s.Inv)
    (hservers : ∀ name ∈ servers, name ∈ s.names)
    (hindex : s.manager.serverId < (s.names.filter (· ∈ servers)).length)
    (hops : AllSteps step (Steady servers) s ops) :
    ∃ s' new, ops.foldlM step s = .ok s' ∧ s'.allocated = s.allocated ++ new ∧
      new.map ServerInfo.qname =
        walk (s.names.filter (· ∈ servers)) (ops.countP isAllocate) s.manager.serverId := by
  induction ops generalizing s with
  | nil => exact ⟨s, [], rfl, (List.append_nil _).symm, rfl⟩
  | cons op ops ih =>
    obtain ⟨hop, hrest⟩ := hops
    rcases op with ⟨server, now, rehash⟩ | clock
    · have hknown : server.qname ∈ s.names := hservers _ hop
      -- a heartbeat of one of them leaves the order alone
      have hnames := names_of_heartbeat now rehash hknown
      have hstep : s.step (.register server now rehash) = .ok { s with manager :=
        { s.manager with registry := (s.manager.registry.register server now rehash).1 } } := rfl
      have hsame : ({ s with manager := { s.manager with
          registry := (s.manager.registry.register server now rehash).1 } } : Allocations).names =
          s.names := hnames
      rw [hstep] at hrest
      obtain ⟨s', new, hrun, halloc, hnew⟩ := ih (h.register server now rehash)
        (by rw [hsame]; exact hservers) (by rw [hsame]; exact hindex) hrest
      rw [hsame] at hnew
      exact ⟨s', new, hrun, halloc, hnew⟩
    · obtain ⟨s₁, info, hstep, hinv, hnames, hturn, halloc₁, hget⟩ := allocate_steady h hop hindex
      rw [hstep] at hrest
      obtain ⟨s', new, hrun, halloc, hnew⟩ := ih hinv (by rw [hnames]; exact hservers)
        (by rw [hnames, hturn]; exact turn_lt hindex) hrest
      refine ⟨s', info :: new, ?_, ?_, ?_⟩
      · rw [List.foldlM_cons, hstep]
        exact hrun
      · rw [halloc, halloc₁, List.append_assoc]
        rfl
      · rw [List.countP_cons_of_pos rfl, walk, hget, List.map_cons, hnew, hnames, hturn]
        rfl

theorem foldl_concat_eq (counts : List Nat) :
    counts.foldl (fun counts n => counts ++ [n]) [] = counts := by
  induction counts using List.reverseRecOn with
  | nil => rfl
  | append_singleton counts n ih =>
    rw [List.foldl_append, ih]
    rfl

/-- **Round robin.**  In every run no allocation is out of range if and only if every round goes
on: whenever fewer backends are live than at the previous allocation, there are none or more than
have been handed out in the round.  The index is the number of those handed out.  And from any
state of such a run, as many allocations as there are backends hand out each of them exactly once,
while the live backends stay the same. -/
theorem round_robin (ops : List AllocationOp) :
    ((∃ s, ops.foldlM step {} = .ok s) ↔
      ∀ pre n post, liveCounts {} ops = pre ++ n :: post → RoundGoesOn pre n) ∧
    ∀ s, ops.foldlM step {} = .ok s →
      s.manager.serverId = handedOut (liveCounts {} ops) ∧
      ∀ (servers : List String) (clock : Nat → Int) (rest : List AllocationOp), servers.Nodup →
      AllSteps step (Steady servers) s (.allocate clock :: rest) →
      RoundGoesOn (liveCounts {} ops) (s.live clock).length →
      (AllocationOp.allocate clock :: rest).countP isAllocate = servers.length →
      ∃ s' new, (AllocationOp.allocate clock :: rest).foldlM step s = .ok s' ∧
        s'.allocated = s.allocated ++ new ∧ (new.map ServerInfo.qname).Perm servers := by
  have hrun := run_checked ops [] inv_init rfl
  refine ⟨?_, ?_⟩
  · rw [hrun.exists_ok_iff, throughout_iff]
    simp only [foldl_concat_eq]
  intro s hs
  obtain ⟨hinv, hindex⟩ := hrun.of_eq_ok hs
  rw [List.nil_append] at hindex
  refine ⟨hindex, ?_⟩
  intro servers clock rest hnodup hsteady hgoes hcount
  have hlive := hsteady.1
  have hnames := liveNames_eq hinv hlive
  have hservers : ∀ name ∈ servers, name ∈ s.names :=
    fun name hname => (liveNames_sublist hinv clock).subset ((hlive name).mpr hname)
  have hperm : (s.names.filter (· ∈ servers)).Perm servers := by
    have hfilter : (s.names.filter (· ∈ servers)).Nodup := hinv.nodup.filter _
    rw [List.perm_ext_iff_of_nodup hfilter hnodup]
    intro name
    rw [List.mem_filter, decide_eq_true_iff]
    exact ⟨fun hmem => hmem.2, fun hmem => ⟨hservers name hmem, hmem⟩⟩
  have hlength : (s.live clock).length = (s.names.filter (· ∈ servers)).length := by
    rw [← hnames, liveNames, List.length_map]
  -- the first allocation goes on, so the walk starts inside of the list
  have hstart : s.manager.serverId < (s.names.filter (· ∈ servers)).length := by
    rw [roundGoesOn_iff, ← hindex, hlength] at hgoes
    rcases hgoes with hzero | hlt
    · rw [hperm.length_eq, ← hcount, List.countP_cons_of_pos rfl] at hzero
      cases hzero
    · exact hlt
  obtain ⟨s', new, hrun', halloc, hnew⟩ := steady_run hinv hservers hstart hsteady
  refine ⟨s', new, hrun', halloc, ?_⟩
  rw [hnew, hcount, ← hperm.length_eq]
  exact (walk_perm _ hstart).trans hperm

/-- Two backends on different hosts. -/
def serverA : ServerInfo := ⟨"orbit", "10.0.0.1", 10001, 10002⟩

def serverB : ServerInfo := ⟨"orbit", "10.0.0.2", 10001, 10002⟩

/-- Two backends; one of them is handed out, the other one is lost, and the next allocation
reads behind the end of the vector. -/
theorem round_robin_out_of_range :
    [AllocationOp.register serverA 0 .keep, .register serverB 0 .keep, .allocate fun _ => 1,
      .register serverA 9000 .keep, .allocate fun _ => 10001].foldlM step {} =
      .error ⟨1, 1⟩ := by
  rfl

end Allocations

end Orbit
