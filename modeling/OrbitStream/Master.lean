/-
OrbitStream/Master.lean

The master server (`master_server/forward_stream_service_impl.cc` and
`orbit_master_server_manager.h`): it creates sessions on one of its backend servers
and remembers which server a session is on.

`CreateSession` tries a few times.  The status of an attempt is kept in a variable
that hides the one the function returns, so that a request all of whose attempts
fail is answered with the default status, which is OK (`createSession_masked`);
`createSession_correct` says exactly when the answer can be trusted.

The backends draw their session ids on their own, the master knows a session by
its id alone: a second session of the same id takes over the route of the first
(`create_moves_a_session`).  `run_affinity` is the routing law for runs without such
a collision.
-/
import Mathlib.Data.Finset.Card
import Mathlib.Data.Nat.Find
import OrbitStream.Lib.Run

namespace Orbit

open Lib

/-- The status codes of gRPC. -/
inductive StatusCode
  | ok | cancelled | unknown | invalidArgument | deadlineExceeded | notFound | alreadyExists
  | permissionDenied | unauthenticated | resourceExhausted | failedPrecondition | aborted
  | outOfRange | unimplemented | internal | unavailable | dataLoss
  deriving DecidableEq, Repr

/-- `registry::ServerInfo`. -/
structure ServerInfo where
  name : String := ""
  host : String := ""
  port : Int := 0
  httpPort : Int := 0
  deriving DecidableEq, Repr

/-- The address of a server, under which its stub is kept. -/
def ServerInfo.address (info : ServerInfo) : String := info.host ++ ":" ++ toString info.port

/-- What one attempt of `CreateSession` meets: the server allocated for it, with
an empty host if there is none, the status of the call, and the session id in the
response. -/
structure Attempt where
  server : ServerInfo
  status : StatusCode
  sessionId : Int
  deriving DecidableEq, Repr

/-- The attempt ends the loop. -/
def Attempt.Final (a : Attempt) : Prop := a.server.host = "" ∨ a.status = .ok

instance (a : Attempt) : Decidable a.Final := inferInstanceAs (Decidable (_ ∨ _))

/-- The attempt reaches a server, which creates the session. -/
def Attempt.Succeeds (a : Attempt) : Prop := a.server.host ≠ "" ∧ a.status = .ok

/-- `ForwardStreamServiceImpl` with its `OrbitMasterServerManager`.  In the cache
of stubs a destroyed stub is kept as a null pointer. -/
structure Master where
  sessionToServer : Std.TreeMap Int ServerInfo := ∅
  stubsMap : Std.TreeMap String Bool := ∅

namespace Master

/-- `SetSessionServer`. -/
def setSessionServer (m : Master) (session : Int) (info : ServerInfo) : Master :=
  { m with sessionToServer := m.sessionToServer.insert session info }

/-- `GetServer`; `live` are the servers whose heartbeat is recent. -/
def getServer (m : Master) (session : Int) (live : List ServerInfo) : Master × ServerInfo :=
  match m.sessionToServer[session]? with
  | none => (m, {})
  | some info =>
      if live.any fun server =>
          server.name = info.name ∧ server.host = info.host ∧ server.port = info.port then
        (m, info)
      else ({ m with sessionToServer := m.sessionToServer.erase session }, {})

/-- `ReclaimServer`. -/
def reclaimServer (m : Master) (session : Int) : Master :=
  { m with sessionToServer := m.sessionToServer.erase session }

/-- `InitStub`. -/
def initStub (m : Master) (server : String) : Master :=
  { m with stubsMap := m.stubsMap.insert server true }

/-- `DestroyStub`. -/
def destroyStub (m : Master) (server : String) : Master :=
  { m with stubsMap := m.stubsMap.insert server false }

/-- The loop of `CreateSession`, with the number of retries left. -/
def createLoop (attempt : Nat → Attempt) : Nat → Nat → Master → Master × StatusCode
  -- the status declared before the loop, which nothing has written to
  | 0, _, m => (m, .ok)
  | left + 1, retries, m =>
      let a := attempt retries
      if a.server.host = "" then (m, .cancelled)
      else
        let m := m.initStub a.server.address
        if a.status = .ok then (m.setSessionServer a.sessionId a.server, .ok)
        else
          let m :=
            if retries + 1 ≥ 3 ∧ a.status = .deadlineExceeded then
              m.destroyStub a.server.address
            else m
          createLoop attempt left (retries + 1) m

/-- `CreateSession`; `attempt` is what its attempts meet one after the other. -/
def createSession (rpcRetries : Int) (attempt : Nat → Attempt) (m : Master) :
    Master × StatusCode :=
  createLoop attempt rpcRetries.toNat 0 m

/-! ### The status of CreateSession -/

variable {attempt : Nat → Attempt} {m : Master}

/-- An attempt that fails leaves the map alone. -/
theorem createLoop_failed (m : Master) (left : Nat) {retries : Nat} (h : ¬ (attempt retries).Final) :
    ∃ m' : Master, m'.sessionToServer = m.sessionToServer ∧
      createLoop attempt (left + 1) retries m = createLoop attempt left (retries + 1) m' := by
  rw [Attempt.Final, not_or] at h
  rw [createLoop, if_neg h.1, if_neg h.2]
  split
  · exact ⟨(m.initStub _).destroyStub (attempt retries).server.address, rfl, rfl⟩
  · exact ⟨m.initStub (attempt retries).server.address, rfl, rfl⟩

/-- Attempts that all fail are answered with OK. -/
theorem createLoop_all_failed {left : Nat} : ∀ {retries : Nat} {m : Master},
    (∀ k, k < left → ¬ (attempt (retries + k)).Final) →
    (createLoop attempt left retries m).2 = .ok ∧
      (createLoop attempt left retries m).1.sessionToServer = m.sessionToServer := by
  induction left with
  | zero => exact fun _ => ⟨rfl, rfl⟩
  | succ left ih =>
      intro retries m h
      have h0 : ¬ (attempt retries).Final := h 0 (Nat.succ_pos left)
      obtain ⟨m', hm', hloop⟩ := createLoop_failed m left h0
      rw [hloop, ← hm']
      apply ih
      intro k hk
      have hk' := h (k + 1) (Nat.succ_lt_succ hk)
      rwa [Nat.add_comm k 1, ← Nat.add_assoc] at hk'

/-- The first attempt that ends the loop decides. -/
theorem createLoop_final {n : Nat} : ∀ {left retries : Nat} {m : Master}, n < left →
    (∀ k, k < n → ¬ (attempt (retries + k)).Final) → (attempt (retries + n)).Final →
    (if (attempt (retries + n)).server.host = "" then
        (createLoop attempt left retries m).2 = .cancelled ∧
          (createLoop attempt left retries m).1.sessionToServer = m.sessionToServer
      else (createLoop attempt left retries m).2 = .ok ∧
          (createLoop attempt left retries m).1.sessionToServer =
            m.sessionToServer.insert (attempt (retries + n)).sessionId
              (attempt (retries + n)).server) := by
  induction n with
  | zero =>
      rintro (- | left) retries m hlt - hfin
      · exact absurd hlt (Nat.lt_irrefl 0)
      · rw [Nat.add_zero] at hfin ⊢
        split
        · rename_i hhost
          rw [createLoop, if_pos hhost]
          exact ⟨rfl, rfl⟩
        · rename_i hhost
          rw [createLoop, if_neg hhost, if_pos (hfin.resolve_left hhost)]
          exact ⟨rfl, rfl⟩
  | succ n ih =>
      rintro (- | left) retries m hlt hbefore hfin
      · exact absurd hlt (Nat.not_lt_zero _)
      · -- the first attempt fails and changes at most the stubs
        have h0 : ¬ (attempt retries).Final := hbefore 0 (Nat.succ_pos n)
        obtain ⟨m', hm', hloop⟩ := createLoop_failed m left h0
        rw [hloop, ← hm']
        have hshift : ∀ k, retries + (k + 1) = retries + 1 + k := by omega
        rw [hshift] at hfin ⊢
        apply ih (Nat.lt_of_succ_lt_succ hlt) ?_ hfin
        intro k hk
        have hk' := hbefore (k + 1) (Nat.succ_lt_succ hk)
        rwa [hshift] at hk'

/-- The attempt that is made and succeeds, if there is one: those before it fail. -/
def Serves (rpcRetries : Int) (attempt : Nat → Attempt) (k : Nat) : Prop :=
  k < rpcRetries.toNat ∧ (∀ j, j < k → ¬ (attempt j).Final) ∧ (attempt k).Succeeds

/-- What `CreateSession` should do: answer OK exactly if an attempt succeeds, and
then record the session of that attempt, and nothing else. -/
def Correct (rpcRetries : Int) (attempt : Nat → Attempt) (m : Master) : Prop :=
  ((createSession rpcRetries attempt m).2 = .ok ↔ ∃ k, Serves rpcRetries attempt k) ∧
  (∀ k, Serves rpcRetries attempt k → (createSession rpcRetries attempt m).1.sessionToServer =
    m.sessionToServer.insert (attempt k).sessionId (attempt k).server) ∧
  ((¬ ∃ k, Serves rpcRetries attempt k) →
    (createSession rpcRetries attempt m).2 ≠ .ok ∧
      (createSession rpcRetries attempt m).1.sessionToServer = m.sessionToServer)

/-- **The status of CreateSession.**  It is right if and only if one of the
attempts that may be made is given no server, or succeeds. -/
theorem createSession_correct (rpcRetries : Int) (attempt : Nat → Attempt) (m : Master) :
    Correct rpcRetries attempt m ↔ ∃ k, k < rpcRetries.toNat ∧ (attempt k).Final := by
  refine ⟨?_, ?_⟩
  · intro h
    by_contra hnone
    have hall : ∀ k, k < rpcRetries.toNat → ¬ (attempt (0 + k)).Final := by
      intro k hk hfin
      rw [Nat.zero_add] at hfin
      exact hnone ⟨k, hk, hfin⟩
    -- the masked failure: OK, although nobody serves the session
    obtain ⟨k, hk, -, hs⟩ := h.1.mp (createLoop_all_failed hall).1
    exact hnone ⟨k, hk, .inr hs.2⟩
  · intro hex
    let n := Nat.find hex
    obtain ⟨hn, hfin⟩ : n < rpcRetries.toNat ∧ (attempt n).Final := Nat.find_spec hex
    have hbefore : ∀ k, k < n → ¬ (attempt k).Final := by
      intro k hk hfin'
      exact Nat.find_min hex hk ⟨Nat.lt_trans hk hn, hfin'⟩
    have hloop := createLoop_final (m := m) hn (show ∀ k, k < n → ¬ (attempt (0 + k)).Final by
      simpa only [Nat.zero_add] using hbefore) (by rwa [Nat.zero_add])
    rw [Nat.zero_add] at hloop
    change if _ then (createSession rpcRetries attempt m).2 = _ ∧ _ else
      (createSession rpcRetries attempt m).2 = _ ∧ _ at hloop
    have huniq : ∀ k, Serves rpcRetries attempt k → k = n := by
      rintro k ⟨-, hk, hs⟩
      rcases Nat.lt_trichotomy k n with hlt | heq | hgt
      · exact absurd (.inr hs.2) (hbefore k hlt)
      · exact heq
      · exact absurd hfin (hk n hgt)
    split at hloop
    · rename_i hhost
      have hno : ¬ ∃ k, Serves rpcRetries attempt k := by
        rintro ⟨k, hk⟩
        obtain rfl := huniq k hk
        exact hk.2.2.1 hhost
      have hst : (createSession rpcRetries attempt m).2 ≠ .ok := by
        rw [hloop.1]
        decide
      exact ⟨⟨fun h => absurd h hst, fun h => absurd h hno⟩, fun k hk => absurd ⟨k, hk⟩ hno,
        fun _ => ⟨hst, hloop.2⟩⟩
    · rename_i hhost
      have hs : Serves rpcRetries attempt n := ⟨hn, hbefore, hhost, hfin.resolve_left hhost⟩
      refine ⟨⟨fun _ => ⟨n, hs⟩, fun _ => hloop.1⟩, ?_, fun h => absurd ⟨n, hs⟩ h⟩
      intro k hk
      rw [huniq k hk]
      exact hloop.2

/-- Three backends that are unavailable: the client is told that its session
exists. -/
theorem createSession_masked :
    ¬ Correct 3 (fun _ => ⟨⟨"orbit", "10.0.0.1", 10001, 10002⟩, .unavailable, 0⟩) {} ∧
      (createSession 3 (fun _ => ⟨⟨"orbit", "10.0.0.1", 10001, 10002⟩, .unavailable, 0⟩) {}).2 =
        .ok := by
  refine ⟨?_, by decide +kernel⟩
  intro h
  obtain ⟨k, -, -, -, hs⟩ := h.1.mp (by decide +kernel)
  cases hs

/-! ### The route of a session -/

/-- The attempt whose session the loop records. -/
def servedLoop (attempt : Nat → Attempt) : Nat → Nat → Option Attempt
  | 0, _ => none
  | left + 1, retries =>
      let a := attempt retries
      if a.server.host = "" then none
      else if a.status = .ok then some a
      else servedLoop attempt left (retries + 1)

theorem createLoop_sessions (attempt : Nat → Attempt) (left : Nat) :
    ∀ (retries : Nat) (m : Master),
    (createLoop attempt left retries m).1.sessionToServer =
      match servedLoop attempt left retries with
      | none => m.sessionToServer
      | some a => m.sessionToServer.insert a.sessionId a.server := by
  induction left with
  | zero => exact fun _ _ => rfl
  | succ left ih =>
      intro retries m
      rw [createLoop, servedLoop]
      split
      · rfl
      · split
        · rfl
        · dsimp only
          rw [ih]
          split
          · split <;> rfl
          · split <;> rfl

/-- The loop of `CloseSession`: its last status, and whether a backend has
confirmed. -/
def closeLoop (status : Nat → StatusCode) : Nat → Nat → StatusCode → StatusCode × Bool
  | 0, _, last => (last, false)
  | left + 1, retries, _ =>
      if status retries = .ok then (.ok, true)
      else closeLoop status left (retries + 1) (status retries)

/-- What became of a session, as far as the master has been told. -/
inductive Fate
  | serving
  | closed
  | serverDead
  deriving DecidableEq, Repr

/-- A session that was created through the master. -/
structure Record where
  sessionId : Int
  server : ServerInfo
  fate : Fate := .serving
  deriving DecidableEq, Repr

/-- A `CloseSession` that waits for its backend, with the record of the session
whose route it took. -/
structure CloseCall where
  sessionId : Int
  server : ServerInfo
  record : Option Nat
  deriving DecidableEq, Repr

/-- The master with the calls in flight, and the history of its sessions:
`owners` tells which session wrote an entry of the map. -/
structure History where
  master : Master := {}
  closes : List CloseCall := []
  records : List Record := []
  owners : Std.TreeMap Int Nat := ∅

namespace History

/-- The route of a session is erased; a session ends by it. -/
def unroute (s : History) (session : Int) (record : Option Nat) (fate : Fate) : History :=
  { s with
    master := s.master.reclaimServer session
    records := match record with
      | none => s.records
      | some n => s.records.modify n fun r => { r with fate := fate } }

/-- A request asks for the server of a session; it may find it dead. -/
def look (s : History) (session : Int) (live : List ServerInfo) : History × ServerInfo :=
  let found := s.master.getServer session live
  if session ∈ s.master.sessionToServer ∧ session ∉ found.1.sessionToServer then
    (s.unroute session s.owners[session]? .serverDead, found.2)
  else (s, found.2)

/-- The critical sections of the requests. -/
inductive Op
  | createSession (attempt : Nat → Attempt)
  /-- `CloseSession` up to its loop -/
  | closeSession (session : Int) (live : List ServerInfo)
  /-- the loop of the `i`-th `CloseSession` -/
  | closeReply (i : Nat) (status : Nat → StatusCode)
  /-- any other request of a session -/
  | forward (session : Int) (live : List ServerInfo)

/-- One step; `rpcRetries` is `FLAGS_rpc_retries`. -/
def step (rpcRetries : Int) (s : History) : Op → History
  | .createSession attempt =>
      let m := (Master.createSession rpcRetries attempt s.master).1
      match servedLoop attempt rpcRetries.toNat 0 with
      | none => { s with master := m }
      | some a =>
          { s with
            master := m
            records := s.records ++ [{ sessionId := a.sessionId, server := a.server }]
            owners := s.owners.insert a.sessionId s.records.length }
  | .closeSession session live =>
      let found := s.look session live
      if found.2.host = "" then found.1
      else { found.1 with closes := found.1.closes ++ [⟨session, found.2, s.owners[session]?⟩] }
  | .closeReply i status =>
      match s.closes[i]? with
      | none => s
      | some c =>
          let reply := closeLoop status rpcRetries.toNat 0 .ok
          let s := { s with
            closes := s.closes.eraseIdx i
            master := if 0 < rpcRetries then s.master.initStub c.server.address else s.master }
          if reply.2 then s.unroute c.sessionId c.record .closed
          else if reply.1 = .deadlineExceeded then
            { s with master := s.master.destroyStub c.server.address }
          else s
  | .forward session live => (s.look session live).1

/-- A run of the master from its start. -/
def run (rpcRetries : Int) (ops : List Op) : History := ops.foldl (step rpcRetries) {}

/-- The condition on a step: no session is created with an id that has a route,
and no `CloseSession` is confirmed after its session has been replaced. -/
def noClash (rpcRetries : Int) (s : History) : Op → Bool
  | .createSession attempt =>
      (servedLoop attempt rpcRetries.toNat 0).all fun a =>
        !s.master.sessionToServer.contains a.sessionId
  | .closeReply i status =>
      s.closes[i]?.all fun c =>
        !(closeLoop status rpcRetries.toNat 0 .ok).2 || s.owners[c.sessionId]? = c.record
  | _ => true

/-! ### Sessions keep their routes -/

variable {s : History}

/-- Every session that is served has its route. -/
def Routed (s : History) : Prop :=
  ∀ (n : Nat) (r : Record), s.records[n]? = some r → r.fate = .serving →
    s.master.sessionToServer[r.sessionId]? = some r.server ∧ s.owners[r.sessionId]? = some n

theorem Routed.congr {s' : History} (h : Routed s)
    (hm : s'.master.sessionToServer = s.master.sessionToServer) (hr : s'.records = s.records)
    (ho : s'.owners = s.owners) : Routed s' := by
  intro n r
  rw [hm, hr, ho]
  exact h n r

/-- The end of the session that owns a route. -/
theorem Routed.unroute (h : Routed s) (session : Int) {fate : Fate} (hfate : fate ≠ .serving) :
    Routed (s.unroute session s.owners[session]? fate) := by
  intro n r hr hserving
  -- the record was there before, and is not the owner of the route
  have hold : s.records[n]? = some r ∧ s.owners[session]? ≠ some n := by
    rcases ho : s.owners[session]? with - | k
    · rw [ho] at hr
      exact ⟨hr, fun hn => by cases hn⟩
    · rw [ho] at hr
      change (s.records.modify k _)[n]? = some r at hr
      rw [List.getElem?_modify] at hr
      obtain ⟨r', hr', hmod⟩ := Option.map_eq_some_iff.mp hr
      split at hmod
      · subst hmod
        exact absurd hserving hfate
      · rename_i hkn
        subst hmod
        exact ⟨hr', fun heq => hkn (Option.some.inj heq)⟩
  obtain ⟨hroute, hown⟩ := h n r hold.1 hserving
  refine ⟨?_, hown⟩
  show (s.master.sessionToServer.erase session)[r.sessionId]? = some r.server
  have hne : session ≠ r.sessionId := by
    rintro rfl
    exact hold.2 hown
  rw [Std.TreeMap.getElem?_erase, if_neg (by simpa using hne)]
  exact hroute

theorem Routed.look (h : Routed s) (session : Int) (live : List ServerInfo) :
    Routed (s.look session live).1 := by
  rw [History.look]
  split
  · exact h.unroute session (by decide)
  · exact h

theorem Routed.createSession {rpcRetries : Int} (h : Routed s) (attempt : Nat → Attempt)
    (hop : noClash rpcRetries s (.createSession attempt) = true) :
    Routed (step rpcRetries s (.createSession attempt)) := by
  have hmap := createLoop_sessions attempt rpcRetries.toNat 0 s.master
  rw [step]
  rcases ha : servedLoop attempt rpcRetries.toNat 0 with - | a
  · rw [ha] at hmap
    intro n r hr hserving
    show (createLoop attempt rpcRetries.toNat 0 s.master).1.sessionToServer[r.sessionId]? = _ ∧ _
    rw [hmap]
    exact h n r hr hserving
  · rw [ha] at hmap
    intro n r hr hserving
    show (createLoop attempt rpcRetries.toNat 0 s.master).1.sessionToServer[r.sessionId]? = _ ∧
      (s.owners.insert a.sessionId s.records.length)[r.sessionId]? = _
    rw [hmap]
    dsimp only
    rw [Std.TreeMap.getElem?_insert, Std.TreeMap.getElem?_insert]
    rcases getElem?_concat.mp hr with hr | ⟨rfl, rfl⟩
    · obtain ⟨hroute, hown⟩ := h n r hr hserving
      -- the new session does not take the id of a routed one
      have hne : a.sessionId ≠ r.sessionId := by
        intro heq
        have hmem : a.sessionId ∈ s.master.sessionToServer := by
          rw [heq]
          exact (Std.TreeMap.getElem?_eq_some_iff.mp hroute).1
        rw [noClash, ha, Option.all_some, Std.TreeMap.mem_iff_contains.mp hmem] at hop
        cases hop
      rw [if_neg (by simpa using hne), if_neg (by simpa using hne)]
      exact ⟨hroute, hown⟩
    · simp

theorem step_routed (rpcRetries : Int) (h : Routed s) (op : Op)
    (hop : noClash rpcRetries s op = true) :
    Routed (step rpcRetries s op) := by
  cases op with
  | createSession attempt => exact h.createSession attempt hop
  | closeSession session live =>
      rw [step]
      dsimp only
      split
      · exact h.look session live
      · exact h.look session live
  | closeReply i status =>
      rw [step]
      rcases hc : s.closes[i]? with - | c
      · exact h
      · have hm : (if 0 < rpcRetries then s.master.initStub c.server.address
            else s.master).sessionToServer = s.master.sessionToServer := by
          split <;> rfl
        dsimp only
        split
        · rename_i hok
          -- the route that is reclaimed is the one the call took
          rw [noClash, hc, Option.all_some, hok, Bool.not_true, Bool.false_or,
            decide_eq_true_eq] at hop
          rw [← hop]
          exact Routed.unroute (s := { s with closes := s.closes.eraseIdx i, master := _ })
            (h.congr hm rfl rfl) c.sessionId (by decide)
        · split
          · exact h.congr hm rfl rfl
          · exact h.congr hm rfl rfl
  | forward session live => exact h.look session live

/-- **Session affinity.**  In a run without clashes of ids, a session that was
created on a server, and has neither been closed nor been asked for while that
server was dead, is routed to that server as long as the server is alive. -/
theorem run_affinity (rpcRetries : Int) (ops : List Op)
    (hops : Throughout (step rpcRetries) (fun s op => noClash rpcRetries s op = true) {} ops)
    (pre post : List Op) (hpre : ops = pre ++ post) (n : Nat) (r : Record)
    (hr : (run rpcRetries pre).records[n]? = some r) (hserving : r.fate = .serving)
    (live : List ServerInfo) (hlive : r.server ∈ live) :
    ((run rpcRetries pre).master.getServer r.sessionId live).2 = r.server := by
  subst hpre
  have hrouted : Routed (run rpcRetries pre) := by
    apply hops.left.foldl (fun s op h hop => step_routed rpcRetries h op hop)
    intro n r hr
    cases hr
  have hroute := (hrouted n r hr hserving).1
  have hany : (live.any fun server => decide (server.name = r.server.name ∧
      server.host = r.server.host ∧ server.port = r.server.port)) = true :=
    List.any_eq_true.mpr ⟨r.server, hlive, by simp⟩
  rw [Master.getServer, hroute]
  dsimp only
  rw [if_pos hany]

/-- Two backends. -/
def backendX : ServerInfo := ⟨"orbit", "10.0.0.1", 10001, 10002⟩

def backendY : ServerInfo := ⟨"orbit", "10.0.0.2", 10001, 10002⟩

/-- Session 8 on Y comes and goes while session 7 is on X. -/
def quietRun : List Op :=
  [.createSession fun _ => ⟨backendX, .ok, 7⟩, .createSession fun _ => ⟨backendY, .ok, 8⟩,
    .closeSession 8 [backendX, backendY], .forward 7 [backendX], .closeReply 0 fun _ => .ok]

theorem run_affinity_quiet :
    Throughout (step 3) (fun s op => noClash 3 s op = true) {} quietRun ∧
      (run 3 quietRun).records = [⟨7, backendX, .serving⟩, ⟨8, backendY, .closed⟩] ∧
      ((run 3 quietRun).master.getServer 7 [backendY, backendX]).2 = backendX := by
  have hops : Throughout (step 3) (fun s op => noClash 3 s op = true) {} quietRun := by
    decide +kernel
  have hrec : (run 3 quietRun).records = [⟨7, backendX, .serving⟩, ⟨8, backendY, .closed⟩] := by
    decide +kernel
  refine ⟨hops, hrec, ?_⟩
  exact run_affinity 3 quietRun hops quietRun [] (by simp) 0 ⟨7, backendX, .serving⟩
    (by rw [hrec]; rfl) rfl [backendY, backendX] (by simp)

/-- Both backends draw 7: the session on X is served by X, and routed to Y. -/
theorem create_moves_a_session :
    (run 3 [.createSession fun _ => ⟨backendX, .ok, 7⟩,
      .createSession fun _ => ⟨backendY, .ok, 7⟩]).records[0]? = some ⟨7, backendX, .serving⟩ ∧
    ((run 3 [.createSession fun _ => ⟨backendX, .ok, 7⟩,
      .createSession fun _ => ⟨backendY, .ok, 7⟩]).master.getServer 7 [backendX, backendY]).2 =
        backendY ∧ backendY ≠ backendX := by
  decide +kernel

end History

end Master

end Orbit
