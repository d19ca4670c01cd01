/-
OrbitStream/SessionInfo.lean

The registry of sessions of the status page (`base/session_info.cc`), and `CreateSession`
of the stream server, which adds to it.

The registry keeps the last fifty sessions in a vector, the live ones before the destroyed
ones.  `AddSession` puts a new session in front and drops from the end; `RemoveSession`
marks a session and sorts the vector.  The order is right after every call, so a live
session is only dropped when there is no destroyed one (`retention_order`).

The number of live sessions is counted up and down by what is found in the vector, so it is
right in a run if and only if every call finds what it should: a session that was removed
is not added while it is still kept, and a live one is not named after it was dropped
(`session_count_iff`).

`CreateSession` adds its session to the registry before it looks at the type of the
request, and leaves it there when the type is none that it knows (`failed_create_iff`).
-/
import Mathlib.Data.Finset.Card
import Mathlib.Data.List.Nodup
import Mathlib.Data.List.Sort
import OrbitStream.Lib.Run
import OrbitStream.StreamService
import OrbitStream.Master

namespace Orbit

open Lib

/-- `SESSION_STATUS_LIVE` and `SESSION_STATUS_DESTORYED`. -/
inductive SessionStatus
  | live
  | destoryed
  deriving DecidableEq, Repr

/-- `SessionInfo`. -/
structure SessionInfo where
  sessionId : Int
  createTime : Int
  status : SessionStatus := .live
  destroyedTime : Int := 0
  deriving DecidableEq, Repr

/-- `_ChangeStateToDestoryed`. -/
def SessionInfo.changeStateToDestoryed (x : SessionInfo) (now : Int) : SessionInfo :=
  if x.status = .destoryed then x
  else { x with status := .destoryed, destroyedTime := now }

/-- `comparator`. -/
def comparator (info₁ info₂ : SessionInfo) : Bool :=
  if info₁.status = .destoryed ∧ info₂.status = .live then false
  else if info₁.status = .live ∧ info₂.status = .destoryed then true
  else if info₁.status = .destoryed ∧ info₂.status = .destoryed then
    info₁.destroyedTime > info₂.destroyedTime
  else info₁.createTime > info₂.createTime

/-- `std::sort` with the comparator: some order in which no element comes before one that
should precede it. -/
structure SessionSort where
  sort : List SessionInfo → List SessionInfo
  perm : ∀ l, (sort l).Perm l
  sorted : ∀ l, (sort l).Pairwise fun a b => comparator b a = false

theorem comparator_eq_false {a b : SessionInfo} :
    comparator b a = false ↔
      match a.status, b.status with
      | .live, .live => b.createTime ≤ a.createTime
      | .live, .destoryed => True
      | .destoryed, .live => False
      | .destoryed, .destoryed => b.destroyedTime ≤ a.destroyedTime := by
  rw [comparator]
  rcases a.status with - | -
  · rcases b.status with - | -
    · simp
    · simp
  · rcases b.status with - | -
    · simp
    · simp

theorem comparator_total (a b : SessionInfo) : comparator b a = false ∨ comparator a b = false := by
  rw [comparator_eq_false, comparator_eq_false]
  rcases a.status with - | -
  · rcases b.status with - | -
    · exact Int.le_total b.createTime a.createTime
    · exact .inl trivial
  · rcases b.status with - | -
    · exact .inr trivial
    · exact Int.le_total b.destroyedTime a.destroyedTime

theorem comparator_trans {a b c : SessionInfo} (hab : comparator b a = false)
    (hbc : comparator c b = false) : comparator c a = false := by
  revert hab hbc
  rw [comparator_eq_false, comparator_eq_false, comparator_eq_false]
  rcases a.status with - | -
  · rcases c.status with - | -
    · rcases b.status with - | -
      · exact fun hab hbc => Int.le_trans hbc hab
      · exact fun _ hbc => hbc.elim
    · exact fun _ _ => trivial
  · rcases b.status with - | -
    · exact fun hab _ => hab.elim
    · rcases c.status with - | -
      · exact fun _ hbc => hbc
      · exact fun hab hbc => Int.le_trans hbc hab

instance : Std.Total fun a b : SessionInfo => comparator b a = false := ⟨comparator_total⟩

instance : IsTrans SessionInfo fun a b => comparator b a = false :=
  ⟨fun _ _ _ => comparator_trans⟩

/-- The order that keeps equals as they are. -/
def SessionSort.stable : SessionSort where
  sort := List.insertionSort fun a b => comparator b a = false
  perm := List.perm_insertionSort _
  sorted := List.pairwise_insertionSort _

/-- `MAX_SAVE_SESSION_COUNT`. -/
def maxSaveSessionCount : Nat := 50

/-- `SessionInfoManager`. -/
structure SessionInfoManager where
  sessionVector : List SessionInfo := []
  currentSessionCount : Int := 0
  totalSessionCount : Int := 0
  deriving DecidableEq, Repr

namespace SessionInfoManager

/-- `_GetSessionInfoById`. -/
def getSessionInfoById (m : SessionInfoManager) (session : Int) : Option SessionInfo :=
  m.sessionVector.find? fun x => x.sessionId = session

/-- `while (session_vector_.size() >= MAX_SAVE_SESSION_COUNT) session_vector_.pop_back();`,
with the turns it may take. -/
def popBack : Nat → List SessionInfo → List SessionInfo
  | 0, l => l
  | turns + 1, l => if l.length ≥ maxSaveSessionCount then popBack turns l.dropLast else l

/-- `AddSession`. -/
def addSession (m : SessionInfoManager) (session now : Int) : SessionInfoManager :=
  if m.getSessionInfoById session ≠ none then m
  else
    { currentSessionCount := m.currentSessionCount + 1
      totalSessionCount := m.totalSessionCount + 1
      sessionVector := { sessionId := session, createTime := now } ::
        popBack m.sessionVector.length m.sessionVector }

/-- The first session with this id is destroyed. -/
def destroySession (session now : Int) : List SessionInfo → List SessionInfo
  | [] => []
  | x :: l => if x.sessionId = session then x.changeStateToDestoryed now :: l
      else x :: destroySession session now l

/-- `RemoveSession`. -/
def removeSession (std : SessionSort) (m : SessionInfoManager) (session now : Int) :
    SessionInfoManager × Bool :=
  match m.getSessionInfoById session with
  | none => (m, false)
  | some deleteSession =>
      ({ m with
        -- a session that is destroyed already is not counted down again
        currentSessionCount := if deleteSession.status = .live then m.currentSessionCount - 1
          else m.currentSessionCount
        sessionVector := std.sort (destroySession session now m.sessionVector) }, true)

/-- `SessionCountNow`. -/
def sessionCountNow (m : SessionInfoManager) : Int := m.currentSessionCount

/-- `SessionCountTotal`. -/
def sessionCountTotal (m : SessionInfoManager) : Int := m.totalSessionCount

end SessionInfoManager

/-- A call to the registry. -/
inductive SessionOp
  | addSession (session now : Int)
  | removeSession (session now : Int)
  deriving DecidableEq, Repr

/-- The session that a call names. -/
def SessionOp.session : SessionOp → Int
  | .addSession session _ => session
  | .removeSession session _ => session

namespace SessionInfoManager

/-- One call. -/
def step (std : SessionSort) (m : SessionInfoManager) : SessionOp → SessionInfoManager
  | .addSession session now => m.addSession session now
  | .removeSession session now => (m.removeSession std session now).1

variable {m : SessionInfoManager} {std : SessionSort} {session now : Int}

/-! ### The vector -/

/-- The vector is not too long, its ids are distinct, and live sessions precede destroyed ones. -/
structure Ordered (m : SessionInfoManager) : Prop where
  length : m.sessionVector.length ≤ maxSaveSessionCount
  distinct : (m.sessionVector.map SessionInfo.sessionId).Nodup
  livesFirst : m.sessionVector.Pairwise fun a b => a.status = .destoryed → b.status = .destoryed

theorem popBack_eq_take (turns : Nat) (l : List SessionInfo) (h : l.length ≤ turns + 49) :
    popBack turns l = l.take 49 := by
  induction turns generalizing l with
  | zero => rw [popBack, List.take_of_length_le (by omega)]
  | succ turns ih =>
    rw [popBack]
    split
    · rename_i hlong
      have hlong : 50 ≤ l.length := hlong
      rw [ih _ (by rw [List.length_dropLast]; omega), List.dropLast_eq_take, List.take_take]
      congr 1
      omega
    · rename_i hshort
      have hshort : ¬ 50 ≤ l.length := hshort
      rw [List.take_of_length_le (by omega)]

theorem getSessionInfoById_eq_none :
    m.getSessionInfoById session = none ↔ ∀ x ∈ m.sessionVector, x.sessionId ≠ session := by
  rw [getSessionInfoById, List.find?_eq_none]
  simp only [decide_eq_true_eq, ne_eq]

/-- A session that is not known goes in front; the last one goes if the vector is full. -/
theorem addSession_of_none (h : m.getSessionInfoById session = none) (now : Int) :
    m.addSession session now =
      { currentSessionCount := m.currentSessionCount + 1
        totalSessionCount := m.totalSessionCount + 1
        sessionVector := { sessionId := session, createTime := now } ::
          m.sessionVector.take 49 } := by
  rw [addSession, if_neg (not_not_intro h), popBack_eq_take _ _ (by omega)]

theorem addSession_of_some {x : SessionInfo} (h : m.getSessionInfoById session = some x)
    (now : Int) : m.addSession session now = m := by
  rw [addSession, if_pos (by rw [h]; exact Option.some_ne_none x)]

theorem map_sessionId_destroySession (session now : Int) (l : List SessionInfo) :
    (destroySession session now l).map SessionInfo.sessionId = l.map SessionInfo.sessionId := by
  induction l with
  | nil => rfl
  | cons x l ih =>
    rw [destroySession]
    split
    · rw [List.map_cons, List.map_cons, SessionInfo.changeStateToDestoryed]
      split
      · rfl
      · rfl
    · rw [List.map_cons, List.map_cons, ih]

theorem Ordered.addSession (h : m.Ordered) (session now : Int) :
    (m.addSession session now).Ordered := by
  rcases hfind : m.getSessionInfoById session with - | x
  · rw [addSession_of_none hfind]
    have hsub : (m.sessionVector.take 49).Sublist m.sessionVector := List.take_sublist _ _
    refine ⟨?_, ?_, ?_⟩
    · show (m.sessionVector.take 49).length + 1 ≤ 50
      rw [List.length_take]
      omega
    · show (session :: (m.sessionVector.take 49).map SessionInfo.sessionId).Nodup
      rw [List.nodup_cons]
      refine ⟨?_, h.distinct.sublist (hsub.map _)⟩
      intro hmem
      obtain ⟨x, hx, heq⟩ := List.mem_map.mp hmem
      exact getSessionInfoById_eq_none.mp hfind x (hsub.subset hx) heq
    · show (({ sessionId := session, createTime := now } : SessionInfo) ::
        m.sessionVector.take 49).Pairwise _
      rw [List.pairwise_cons]
      refine ⟨?_, h.livesFirst.sublist hsub⟩
      intro x _ hnew
      cases hnew
  · rw [addSession_of_some hfind]
    exact h

theorem Ordered.removeSession (h : m.Ordered) (std : SessionSort) (session now : Int) :
    (m.removeSession std session now).1.Ordered := by
  rw [SessionInfoManager.removeSession]
  rcases m.getSessionInfoById session with - | x
  · exact h
  · have hids := map_sessionId_destroySession session now m.sessionVector
    have hperm := std.perm (destroySession session now m.sessionVector)
    refine ⟨?_, ?_, ?_⟩
    · show (std.sort (destroySession session now m.sessionVector)).length ≤ maxSaveSessionCount
      have hlength := congrArg List.length hids
      rw [List.length_map, List.length_map] at hlength
      rw [hperm.length_eq, hlength]
      exact h.length
    · show ((std.sort (destroySession session now m.sessionVector)).map SessionInfo.sessionId).Nodup
      rw [(hperm.map SessionInfo.sessionId).nodup_iff, hids]
      exact h.distinct
    · -- the order that `std::sort` makes is the one of the status
      refine (std.sorted _).imp ?_
      intro a b hab ha
      by_contra hb
      have hb : b.status = .live := by
        rcases hs : b.status with - | -
        · rfl
        · exact absurd hs hb
      rw [comparator, ha, hb] at hab
      cases hab

theorem Ordered.step (h : m.Ordered) (std : SessionSort) (op : SessionOp) :
    (m.step std op).Ordered := by
  rcases op with ⟨session, now⟩ | ⟨session, now⟩
  · exact h.addSession session now
  · exact h.removeSession std session now

theorem run_ordered (std : SessionSort) (ops : List SessionOp) :
    (ops.foldl (step std) {}).Ordered := by
  apply List.foldlRecOn (motive := Ordered) ops
  · exact ⟨Nat.zero_le _, List.nodup_nil, List.Pairwise.nil⟩
  · exact fun m h op _ => h.step std op

/-- After every run of calls, whatever order `std::sort` leaves among equals: the vector has at
most fifty sessions with distinct ids, the live ones precede the destroyed ones, and a call to
`AddSession` drops a live session only if it keeps no destroyed one. -/
theorem retention_order (std : SessionSort) (ops : List SessionOp) :
    (ops.foldl (step std) {}).Ordered ∧
      ∀ session now, ∀ x ∈ (ops.foldl (step std) {}).sessionVector,
        x ∉ ((ops.foldl (step std) {}).addSession session now).sessionVector →
        x.status = .live →
        ∀ y ∈ ((ops.foldl (step std) {}).addSession session now).sessionVector,
          y.status = .live := by
  have h := run_ordered std ops
  refine ⟨h, ?_⟩
  generalize ops.foldl (step std) {} = m at h
  intro session now x hx hgone hlive y hy
  rcases hfind : m.getSessionInfoById session with - | z
  · rw [addSession_of_none hfind] at hgone hy
    rcases List.mem_cons.mp hy with rfl | hy
    · rfl
    · -- what is dropped stands behind what is kept
      have hdrop : x ∈ m.sessionVector.drop 49 := by
        rw [← List.take_append_drop 49 m.sessionVector] at hx
        rcases List.mem_append.mp hx with hx | hx
        · exact absurd (List.mem_cons_of_mem _ hx) hgone
        · exact hx
      have hpair := h.livesFirst
      rw [← List.take_append_drop 49 m.sessionVector] at hpair
      have hbefore := (List.pairwise_append.mp hpair).2.2 y hy x hdrop
      rcases hs : y.status with - | -
      · rfl
      · rw [hbefore hs] at hlive
        cases hlive
  · rw [addSession_of_some hfind] at hgone
    exact absurd hx hgone

end SessionInfoManager

/-! ### The number of live sessions -/

/-- A run of the registry: the manager, and the sessions that have been added and not since
removed. -/
structure SessionRun where
  manager : SessionInfoManager := {}
  live : Finset Int := ∅

namespace SessionRun

/-- One call. -/
def step (std : SessionSort) (s : SessionRun) (op : SessionOp) : SessionRun :=
  { manager := s.manager.step std op
    live := match op with
      | .addSession session _ => insert session s.live
      | .removeSession session _ => s.live.erase session }

/-- The count after a call is the number of live sessions. -/
def CountRight (std : SessionSort) (s : SessionRun) (op : SessionOp) : Prop :=
  (s.step std op).manager.sessionCountNow = (s.step std op).live.card

/-- A live session that is named is still kept; and no session is added that was removed and is
kept. -/
def FindsWhatItShould (s : SessionRun) : SessionOp → Prop
  | .addSession session _ =>
      session ∈ s.live ↔ s.manager.getSessionInfoById session ≠ none
  | .removeSession session _ =>
      session ∈ s.live → s.manager.getSessionInfoById session ≠ none

/-- What is kept as live is live, what is kept as destroyed is not, and the count is right. -/
structure Counted (s : SessionRun) : Prop where
  ordered : s.manager.Ordered
  kept : ∀ x ∈ s.manager.sessionVector, x.status = .live ↔ x.sessionId ∈ s.live
  count : s.manager.currentSessionCount = s.live.card

variable {s : SessionRun} {std : SessionSort} {session now : Int}

open SessionInfoManager

theorem mem_of_find {m : SessionInfoManager} {x : SessionInfo}
    (h : m.getSessionInfoById session = some x) :
    x ∈ m.sessionVector ∧ x.sessionId = session := by
  rw [getSessionInfoById] at h
  have hid := List.find?_some h
  rw [decide_eq_true_iff] at hid
  exact ⟨List.mem_of_find?_eq_some h, hid⟩

/-- The sessions that stay as they are, and the one that is destroyed. -/
theorem mem_destroySession {l : List SessionInfo} {x y : SessionInfo}
    (hdistinct : (l.map SessionInfo.sessionId).Nodup)
    (hfind : l.find? (fun x => x.sessionId = session) = some y)
    (hx : x ∈ destroySession session now l) :
    x ∈ l ∧ x.sessionId ≠ session ∨ x = y.changeStateToDestoryed now := by
  induction l with
  | nil => cases hx
  | cons z l ih =>
    rw [List.map_cons, List.nodup_cons] at hdistinct
    rw [destroySession] at hx
    by_cases hz : z.sessionId = session
    · rw [if_pos hz] at hx
      rw [List.find?_cons, decide_eq_true hz] at hfind
      obtain rfl := Option.some.inj hfind
      rcases List.mem_cons.mp hx with rfl | hx
      · exact .inr rfl
      · refine .inl ⟨List.mem_cons_of_mem _ hx, ?_⟩
        intro heq
        exact hdistinct.1 (List.mem_map.mpr ⟨x, hx, heq.trans hz.symm⟩)
    · rw [if_neg hz] at hx
      rw [List.find?_cons, decide_eq_false hz] at hfind
      rcases List.mem_cons.mp hx with rfl | hx
      · exact .inl ⟨List.mem_cons_self, hz⟩
      · rcases ih hdistinct.2 hfind hx with ⟨hmem, hne⟩ | heq
        · exact .inl ⟨List.mem_cons_of_mem _ hmem, hne⟩
        · exact .inr heq

theorem destroyed_status (x : SessionInfo) (now : Int) :
    (x.changeStateToDestoryed now).status = .destoryed ∧
      (x.changeStateToDestoryed now).sessionId = x.sessionId := by
  rw [SessionInfo.changeStateToDestoryed]
  split
  · exact ⟨by assumption, rfl⟩
  · exact ⟨rfl, rfl⟩

theorem Counted.add (h : s.Counted) (hf : s.FindsWhatItShould (.addSession session now)) :
    (s.step std (.addSession session now)).Counted := by
  refine ⟨h.ordered.step std (.addSession session now), ?_, ?_⟩
  · intro x hx
    show x.status = .live ↔ x.sessionId ∈ insert session s.live
    have hx : x ∈ (s.manager.addSession session now).sessionVector := hx
    rcases hfind : s.manager.getSessionInfoById session with - | y
    · rw [addSession_of_none hfind] at hx
      rcases List.mem_cons.mp hx with rfl | hx
      · exact ⟨fun _ => Finset.mem_insert_self _ _, fun _ => rfl⟩
      · have hmem := List.mem_of_mem_take hx
        have hne := getSessionInfoById_eq_none.mp hfind x hmem
        rw [Finset.mem_insert, h.kept x hmem]
        exact ⟨.inr, fun hor => hor.resolve_left hne⟩
    · have hlive : session ∈ s.live := hf.mpr (by rw [hfind]; exact Option.some_ne_none y)
      rw [addSession_of_some hfind] at hx
      rw [Finset.insert_eq_of_mem hlive]
      exact h.kept x hx
  · show (s.manager.addSession session now).currentSessionCount = (insert session s.live).card
    rcases hfind : s.manager.getSessionInfoById session with - | y
    · have hnew : session ∉ s.live := fun hlive => hf.mp hlive hfind
      have hcount := h.count
      rw [addSession_of_none hfind, Finset.card_insert_of_notMem hnew]
      show s.manager.currentSessionCount + 1 = ((s.live.card + 1 : Nat) : Int)
      omega
    · have hlive : session ∈ s.live := hf.mpr (by rw [hfind]; exact Option.some_ne_none y)
      rw [addSession_of_some hfind, Finset.insert_eq_of_mem hlive]
      exact h.count

theorem Counted.remove (h : s.Counted) (hf : s.FindsWhatItShould (.removeSession session now)) :
    (s.step std (.removeSession session now)).Counted := by
  have hordered := h.ordered.step std (.removeSession session now)
  rcases hfind : s.manager.getSessionInfoById session with - | y
  · have hgone : session ∉ s.live := fun hlive => hf hlive hfind
    have hsame : s.step std (.removeSession session now) = s := by
      rw [step, SessionInfoManager.step, removeSession, hfind]
      dsimp only
      rw [Finset.erase_eq_of_notMem hgone]
    rw [hsame]
    exact h
  · obtain ⟨hy, hid⟩ := mem_of_find hfind
    have hkept := h.kept y hy
    rw [hid] at hkept
    refine ⟨hordered, ?_, ?_⟩
    · intro x hx
      show x.status = .live ↔ x.sessionId ∈ s.live.erase session
      have hx : x ∈ (s.manager.removeSession std session now).1.sessionVector := hx
      rw [removeSession, hfind] at hx
      -- sorting keeps the sessions: all are as before, but for the one that is destroyed
      have hx := (std.perm _).mem_iff.mp hx
      rcases mem_destroySession h.ordered.distinct hfind hx with ⟨hmem, hne⟩ | rfl
      · rw [Finset.mem_erase, h.kept x hmem]
        exact ⟨fun hlive => ⟨hne, hlive⟩, fun hlive => hlive.2⟩
      · obtain ⟨hstatus, hsame⟩ := destroyed_status y now
        rw [hstatus, hsame, hid]
        constructor
        · intro hlive
          cases hlive
        · intro hmem
          exact absurd rfl (Finset.mem_erase.mp hmem).1
    · show (s.manager.removeSession std session now).1.currentSessionCount =
        (s.live.erase session).card
      rw [removeSession, hfind]
      dsimp only
      by_cases hlive : y.status = .live
      · have hmem := hkept.mp hlive
        have hpos := Finset.card_pos.mpr ⟨session, hmem⟩
        rw [if_pos hlive, Finset.card_erase_of_mem hmem, h.count]
        omega
      · rw [if_neg hlive, Finset.erase_eq_of_notMem fun hmem => hlive (hkept.mpr hmem)]
        exact h.count

/-- One call: the count stays right if and only if the call finds what it should, and then the
vector still tells which sessions are live. -/
theorem Counted.countRight_iff (std : SessionSort) (h : s.Counted) (op : SessionOp) :
    (s.CountRight std op ↔ s.FindsWhatItShould op) ∧
      (s.FindsWhatItShould op → (s.step std op).Counted) := by
  have hstep : s.FindsWhatItShould op → (s.step std op).Counted := by
    rcases op with ⟨session, now⟩ | ⟨session, now⟩
    · exact h.add
    · exact h.remove
  refine ⟨⟨?_, fun hf => (hstep hf).count⟩, hstep⟩
  intro hright
  by_contra hf
  have hcount := h.count
  rcases op with ⟨session, now⟩ | ⟨session, now⟩
  · have hright : (s.manager.addSession session now).currentSessionCount =
        ((insert session s.live).card : Int) := hright
    rcases hfind : s.manager.getSessionInfoById session with - | y
    · -- a live session that was dropped is counted again
      have hlive : session ∈ s.live := by
        by_contra hnot
        exact hf ⟨fun hlive => absurd hlive hnot, fun hfound => absurd hfind hfound⟩
      rw [addSession_of_none hfind, Finset.insert_eq_of_mem hlive] at hright
      have hright : s.manager.currentSessionCount + 1 = (s.live.card : Int) := hright
      omega
    · -- a session that is kept as destroyed is not counted
      have hnot : session ∉ s.live := by
        intro hlive
        exact hf ⟨fun _ => by rw [hfind]; exact Option.some_ne_none y, fun _ => hlive⟩
      rw [addSession_of_some hfind, Finset.card_insert_of_notMem hnot] at hright
      omega
  · have hright : (s.manager.removeSession std session now).1.currentSessionCount =
        ((s.live.erase session).card : Int) := hright
    have hlive : session ∈ s.live := by
      by_contra hnot
      exact hf fun hlive => absurd hlive hnot
    have hfind : s.manager.getSessionInfoById session = none := by
      by_contra hfound
      exact hf fun _ => hfound
    have hpos := Finset.card_pos.mpr ⟨session, hlive⟩
    rw [removeSession, hfind, Finset.card_erase_of_mem hlive] at hright
    have hright : s.manager.currentSessionCount = ((s.live.card - 1 : Nat) : Int) := hright
    omega

/-- In every run the count is the number of live sessions after every call if and only if every
call finds what it should. -/
theorem session_count_iff (std : SessionSort) (ops : List SessionOp) :
    Throughout (step std) (CountRight std) {} ops ↔
      Throughout (step std) FindsWhatItShould {} ops := by
  have hempty : ({} : SessionRun).Counted := by
    refine ⟨⟨Nat.zero_le _, List.nodup_nil, List.Pairwise.nil⟩, ?_, rfl⟩
    intro x hx
    cases hx
  exact throughout_congr (fun s op h => (Counted.countRight_iff std h op).1)
    (fun s op h => (Counted.countRight_iff std h op).2) ops hempty

/-- A session is added, removed and added again. -/
def readded : SessionRun :=
  [SessionOp.addSession 1 10, .removeSession 1 20, .addSession 1 30].foldl
    (step SessionSort.stable) {}

/-- The session is live, and not counted. -/
theorem readded_session_not_counted :
    readded.live = {1} ∧ readded.manager.sessionCountNow = 0 ∧
      readded.manager.sessionCountTotal = 1 ∧
      readded.manager.sessionCountNow ≠ readded.live.card := by
  have hlive : readded.live = {1} := by decide
  refine ⟨hlive, by decide, by decide, ?_⟩
  rw [hlive]
  decide

end SessionRun

/-! ### Creating a session -/

/-- `SessionCreationType`; a value that the server does not know arrives as it is. -/
inductive SessionCreationType
  | videoBridge
  | videoMixerBridge
  | audioMixerBridge
  | videoLiveBridge
  | videoDispatcher
  | orbitClassroom
  | unrecognized (value : Int32)
  deriving DecidableEq, Repr

/-- `CreateSessionRequest`. -/
structure CreateSessionRequest where
  type : SessionCreationType
  rtmpLocation : String := ""
  captureData : Bool := false
  deriving DecidableEq, Repr

/-- How a pipeline is set up: its plugin, if it is given one, the RTMP location it is told, and
whether it captures the data. -/
structure PipelineSetup where
  plugin : Option String := none
  rtmpLocation : Option String := none
  captureData : Bool := false
  deriving DecidableEq, Repr

/-- The `switch` over the type of the request. -/
def CreateSessionRequest.setup (request : CreateSessionRequest) : Option PipelineSetup :=
  match request.type with
  | .videoBridge => some ⟨none, none, request.captureData⟩
  | .audioMixerBridge => some ⟨some "audio_mixer", none, request.captureData⟩
  | .videoMixerBridge => some ⟨some "video_mixer", some request.rtmpLocation, request.captureData⟩
  | .videoLiveBridge =>
      some ⟨some "audio_conference", some request.rtmpLocation, request.captureData⟩
  | .videoDispatcher =>
      some ⟨some "video_dispatcher", some request.rtmpLocation, request.captureData⟩
  | .orbitClassroom => some ⟨some "classroom", none, request.captureData⟩
  | .unrecognized _ => none

/-- `CreateSessionResponse` of a session that was created, and how its pipeline was set up. -/
structure CreatedSession where
  sessionId : Int
  setup : Option PipelineSetup
  deriving DecidableEq, Repr

/-- The stream server with the registry of sessions. -/
structure StreamServer where
  info : SessionInfoManager := {}
  service : OrbitStreamService := {}

/-- `InsertSessionData`. -/
def OrbitStreamService.insertSessionData (s : OrbitStreamService) (session : Int)
    (pipeline : MediaPipeline) : OrbitStreamService :=
  { s with
    objects := s.objects ++ [{ sessionId := session, pipeline := pipeline }]
    sessionData := if s.getSessionData session = none then
      s.sessionData.insert session s.objects.length else s.sessionData }

/-- The loop that draws a session id: the first one drawn that is not in the table. -/
def OrbitStreamService.drawSession (s : OrbitStreamService) (draws : List Int) : Option Int :=
  draws.find? fun session => s.getSessionData session = none

namespace StreamServer

/-- `CreateSession`, once one of the ids drawn is free. -/
def createSession (s : StreamServer) (request : CreateSessionRequest) (draws : List Int)
    (now : Int) : Option (StreamServer × StatusCode × Option CreatedSession) :=
  (s.service.drawSession draws).map fun session =>
    if s.service.getPipeline session = .null then
      let s := { s with info := s.info.addSession session now }
      match request.setup with
      | none => (s, .cancelled, none)
      | some setup =>
          ({ s with service := s.service.insertSessionData session .live }, .ok,
            some ⟨session, some setup⟩)
    else
      ({ s with service := s.service.insertSessionData session (s.service.getPipeline session) },
        .ok, some ⟨session, none⟩)

variable {s : StreamServer} {request : CreateSessionRequest} {draws : List Int} {session : Int}

theorem drawSession_free {s : OrbitStreamService} (h : s.drawSession draws = some session) :
    s.getSessionData session = none ∧ s.getPipeline session = .null := by
  have hfree := List.find?_some h
  rw [decide_eq_true_iff] at hfree
  refine ⟨hfree, ?_⟩
  rw [OrbitStreamService.getPipeline, hfree]
  rfl

/-- A free id was drawn: the session goes into the registry, and into the table if the type of
the request is known. -/
theorem createSession_of_drawn (h : s.service.drawSession draws = some session)
    (request : CreateSessionRequest) (now : Int) :
    s.createSession request draws now = some
      (match request.setup with
      | none => ({ s with info := s.info.addSession session now }, .cancelled, none)
      | some setup =>
          ({ info := s.info.addSession session now
             service := s.service.createSession session true }, .ok,
            some ⟨session, some setup⟩)) := by
  obtain ⟨hfree, hnull⟩ := drawSession_free h
  rw [createSession, h, Option.map_some, if_pos hnull]
  rcases request.setup with - | setup
  · rfl
  · dsimp only
    rw [OrbitStreamService.insertSessionData, OrbitStreamService.createSession, if_pos hfree,
      if_pos ⟨hfree, rfl⟩]

/-- A request that fails leaves the registry and the table of sessions as they were. -/
def FailsWithoutTrace (s : StreamServer) (request : CreateSessionRequest) (draws : List Int)
    (now : Int) : Prop :=
  ∀ s' status created, s.createSession request draws now = some (s', status, created) →
    status ≠ .ok → s'.info = s.info ∧ s'.service.sessionData = s.service.sessionData

theorem setup_eq_none :
    request.setup = none ↔ ∃ value, request.type = .unrecognized value := by
  rw [CreateSessionRequest.setup]
  rcases htype : request.type with - | - | - | - | - | - | value
  all_goals simp

/-- For every state of the server and every request: a request that fails leaves no trace if and
only if its type is one that the server knows, so that it does not fail, or the id that is drawn
for it is one that the registry still has. -/
theorem failed_create_iff (s : StreamServer) (request : CreateSessionRequest) (draws : List Int)
    (now : Int) :
    s.FailsWithoutTrace request draws now ↔
      ∀ session, s.service.drawSession draws = some session →
        (∀ value, request.type ≠ .unrecognized value) ∨
          s.info.getSessionInfoById session ≠ none := by
  constructor
  · intro h session hdraw
    refine Classical.or_iff_not_imp_left.mpr ?_
    intro htype hunknown
    have hsetup : request.setup = none := by
      push Not at htype
      exact setup_eq_none.mpr htype
    have hcreate := createSession_of_drawn hdraw request now
    rw [hsetup] at hcreate
    obtain ⟨hinfo, -⟩ := h _ _ _ hcreate (by decide)
    have hcount := congrArg SessionInfoManager.currentSessionCount hinfo
    rw [SessionInfoManager.addSession_of_none hunknown] at hcount
    have hcount : s.info.currentSessionCount + 1 = s.info.currentSessionCount := hcount
    omega
  · intro h s' status created hcreate hfailed
    rcases hdraw : s.service.drawSession draws with - | session
    · rw [createSession, hdraw] at hcreate
      cases hcreate
    · rw [createSession_of_drawn hdraw] at hcreate
      rcases hsetup : request.setup with - | setup
      · obtain ⟨value, htype⟩ := setup_eq_none.mp hsetup
        rw [hsetup] at hcreate
        obtain rfl := (Prod.mk.inj (Option.some.inj hcreate)).1
        refine ⟨?_, rfl⟩
        rcases h session hdraw with hknown | hknown
        · exact absurd htype (hknown value)
        · obtain ⟨x, hx⟩ := Option.ne_none_iff_exists'.mp hknown
          exact SessionInfoManager.addSession_of_some hx now
      · rw [hsetup] at hcreate
        obtain ⟨-, hstatus⟩ := Prod.mk.inj (Option.some.inj hcreate)
        exact absurd (Prod.mk.inj hstatus).1.symm hfailed

/-- A request with type 6 on a fresh server is cancelled, and leaves a live session behind. -/
theorem cancelled_create_is_counted :
    ∃ s', createSession {} ⟨.unrecognized 6, "", false⟩ [5] 100 = some (s', .cancelled, none) ∧
      s'.info = ⟨[⟨5, 100, .live, 0⟩], 1, 1⟩ ∧
      ¬ FailsWithoutTrace {} ⟨.unrecognized 6, "", false⟩ [5] 100 := by
  refine ⟨_, rfl, rfl, ?_⟩
  intro h
  have hinfo := (h _ _ _ rfl (by decide)).1
  cases hinfo

end StreamServer

end Orbit
