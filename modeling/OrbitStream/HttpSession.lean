/-
OrbitStream/HttpSession.lean

The sessions of the status web server (`http_server/http_common.h`, `HttpRequestHandler` in
`http_server/http_server.cc`).

A session is a table of values that is kept under the cookie of its client.  A request
copies the session, lets its handler set values on the copy, and stores the copy; each of
these takes the mutex for itself, and every connection has its own thread.  A step of the
model is one critical section, or the run of the handler, of one request; an interleaving
is the order in which the requests take their steps.

What a request sets is kept if and only if the copy that it read still agrees with what is
stored when it is written back, on the keys that others have set, and every key that it
sets is new to the copy (`session_updates_iff`): a copy made too early takes the values of
others away, and `SetValue` inserts, which does nothing for a key that is there.
-/
import OrbitStream.Lib.Run

namespace Orbit

open Lib

/-- A key as `strcasecmp` sees it. -/
def foldKey (key : String) : List Char := (key.toList.takeWhile (· ≠ '\x00')).map Char.toLower

/-- `iless`. -/
def iless : String → String → Ordering := compareOn foldKey

instance : Std.TransCmp iless := inferInstanceAs (Std.TransCmp (compareOn foldKey))

/-- `HttpSession`. -/
structure HttpSession where
  sid : List Char := []
  sessionData : Std.TreeMap String String iless := ∅

namespace HttpSession

/-- `kSessionSize`. -/
def sessionSize : Nat := 33

/-- `SetSessionId`. -/
def setSessionId (session : HttpSession) (sid : String) : HttpSession :=
  { session with sid := sid.toList.take sessionSize }

/-- `GetValue`. -/
def getValue (session : HttpSession) (key : String) : Option String := session.sessionData[key]?

/-- `SetValue`. -/
def setValue (session : HttpSession) (key value : String) : HttpSession :=
  { session with sessionData := session.sessionData.insertIfNew key value }

/-- The values that a handler sets, one after the other. -/
def setValues (session : HttpSession) (sets : List (String × String)) : HttpSession :=
  sets.foldl (fun session p => session.setValue p.1 p.2) session

end HttpSession

/-- A request: its cookie, if it has one, the id that a new session draws, and the handler of
its URL, if there is one, by the values it sets on the session it is given. -/
structure HttpRequest where
  cookie : Option String
  sid : String
  handler : Option (HttpSession → List (String × String))

/-- Where a request is in `HttpRequestHandler`. -/
inductive RequestPhase
  | start
  /-- there is no session for the cookie, and a new one is to be stored -/
  | missing (cookie : String) (session : HttpSession)
  /-- the session has been copied -/
  | read (cookie : String) (session : HttpSession)
  /-- the handler has set these values on the copy -/
  | handled (cookie : String) (session : HttpSession) (sets : List (String × String))
  | done

/-- `HttpSessionManager` with the requests that work on it: the sessions, the phases of the
requests, and the requests that have been written back, with what they have set. -/
structure HttpSessionManager where
  varMap : Std.TreeMap String HttpSession := ∅
  phase : Nat → RequestPhase := fun _ => .start
  completed : List (Nat × List (String × String)) := []

namespace HttpSessionManager

/-- `CreateSession`. -/
def createSession (s : HttpSessionManager) (session : HttpSession) (sid : String) :
    HttpSessionManager :=
  { s with varMap := s.varMap.insertIfNew sid session }

/-- `FindSessionByCookie`. -/
def findSessionByCookie (s : HttpSessionManager) (cookie : String) : Option HttpSession :=
  s.varMap[cookie]?

/-- `UpdateSession`. -/
def updateSession (s : HttpSessionManager) (cookie : String) (session : HttpSession) :
    HttpSessionManager :=
  { s with varMap := s.varMap.insert cookie session }

/-- A request goes on to another phase. -/
def move (s : HttpSessionManager) (r : Nat) (phase : RequestPhase) : HttpSessionManager :=
  { s with phase := fun r' => if r' = r then phase else s.phase r' }

/-- The next step of a request. -/
def advance (requests : Nat → HttpRequest) (s : HttpSessionManager) (r : Nat) :
    HttpSessionManager :=
  match s.phase r with
  | .start =>
      match (requests r).cookie with
      -- no cookie: the id of the new session is the cookie from now on
      | none =>
          let session := ({} : HttpSession).setSessionId (requests r).sid
          (s.createSession session (requests r).sid).move r (.read (requests r).sid session)
      | some cookie =>
          match s.findSessionByCookie cookie with
          | some session => s.move r (.read cookie session)
          -- the mutex is released before the new session is stored
          | none => s.move r (.missing cookie (({} : HttpSession).setSessionId cookie))
  | .missing cookie session => (s.updateSession cookie session).move r (.read cookie session)
  | .read cookie session =>
      match (requests r).handler with
      -- without a handler the session is not written back
      | none => s.move r .done
      | some handler => s.move r (.handled cookie session (handler session))
  | .handled cookie session sets =>
      let s := { s with completed := s.completed ++ [(r, sets)] }
      (s.updateSession cookie (session.setValues sets)).move r .done
  | .done => s

/-- All that the requests written back have set, in the order in which they were. -/
def written (s : HttpSessionManager) : List (String × String) := s.completed.flatMap Prod.snd

end HttpSessionManager

/-- The value that a key is given first. -/
def firstSet (sets : List (String × String)) (key : String) : Option String :=
  (sets.find? fun p => iless p.1 key = .eq).map Prod.snd

/-- The value that a key is given last. -/
def lastSet (sets : List (String × String)) (key : String) : Option String :=
  firstSet sets.reverse key

namespace HttpSessionManager

/-- The value of a key in the session of a cookie. -/
def stored (s : HttpSessionManager) (cookie key : String) : Option String :=
  (s.findSessionByCookie cookie).bind fun session => session.getValue key

/-- Every key that was set by a request written back has the value that was set by the last of
them that set it. -/
def Kept (cookie : String) (s : HttpSessionManager) : Prop :=
  ∀ key value, lastSet s.written key = some value → s.stored cookie key = some value

/-- A session is written back as if the request had been alone: the copy has the value that is
stored for every key that others have set and the request does not, and a key that the request
sets is new to the copy and given one value, or has the value already.  A new session is stored
before anything has been set. -/
def Undisturbed (s : HttpSessionManager) (r : Nat) : Prop :=
  match s.phase r with
  | .missing _ _ => ∀ key, lastSet s.written key = none
  | .handled cookie session sets =>
      (∀ key, lastSet sets key = none → lastSet s.written key ≠ none →
        session.getValue key = s.stored cookie key) ∧
      ∀ key value, lastSet sets key = some value → session.getValue key = some value ∨
        session.getValue key = none ∧ firstSet sets key = some value
  | _ => True

end HttpSessionManager

/-! ### What is set -/

theorem firstSet_cons (p : String × String) (sets : List (String × String)) (key : String) :
    firstSet (p :: sets) key = if iless p.1 key = .eq then some p.2 else firstSet sets key := by
  rw [firstSet, List.find?_cons]
  by_cases h : iless p.1 key = .eq
  · rw [if_pos h, decide_eq_true h]
    rfl
  · rw [if_neg h, decide_eq_false h]
    rfl

theorem firstSet_append (a b : List (String × String)) (key : String) :
    firstSet (a ++ b) key = (firstSet a key).or (firstSet b key) := by
  induction a with
  | nil => rfl
  | cons p a ih =>
    rw [List.cons_append, firstSet_cons, firstSet_cons, ih]
    split
    · rfl
    · rfl

theorem lastSet_append (a b : List (String × String)) (key : String) :
    lastSet (a ++ b) key = (lastSet b key).or (lastSet a key) := by
  rw [lastSet, List.reverse_append, firstSet_append]
  rfl

theorem firstSet_eq_none {sets : List (String × String)} {key : String} :
    firstSet sets key = none ↔ ∀ p ∈ sets, iless p.1 key ≠ .eq := by
  rw [firstSet, Option.map_eq_none_iff, List.find?_eq_none]
  simp only [decide_eq_true_eq, ne_eq]

theorem lastSet_eq_none {sets : List (String × String)} {key : String} :
    lastSet sets key = none ↔ firstSet sets key = none := by
  rw [lastSet, firstSet_eq_none, firstSet_eq_none]
  simp only [List.mem_reverse]

/-- `SetValue` keeps the value that is there. -/
theorem HttpSession.getValue_setValue (session : HttpSession) (key value key' : String) :
    (session.setValue key value).getValue key' =
      (session.getValue key').or (if iless key key' = .eq then some value else none) := by
  show (session.sessionData.insertIfNew key value)[key']? = _
  rw [Std.TreeMap.getElem?_insertIfNew]
  by_cases hkey : iless key key' = .eq
  · -- keys are the same up to case
    have hmem : key ∈ session.sessionData ↔ key' ∈ session.sessionData :=
      Std.TreeMap.mem_congr hkey
    rcases hget : session.getValue key' with - | old
    · have hnot : key' ∉ session.sessionData := by
        rw [Std.TreeMap.mem_iff_isSome_getElem?]
        rw [getValue] at hget
        rw [hget]
        exact Bool.false_ne_true
      rw [if_pos ⟨hkey, fun h => hnot (hmem.mp h)⟩, if_pos hkey]
      rfl
    · have hthere : key' ∈ session.sessionData := by
        rw [Std.TreeMap.mem_iff_isSome_getElem?]
        rw [getValue] at hget
        rw [hget]
        rfl
      rw [if_neg fun h => h.2 (hmem.mpr hthere)]
      exact hget
  · rw [if_neg fun h => hkey h.1, if_neg hkey, Option.or_none]
    rfl

/-- Of all the values that a handler sets, a key that is new gets the first one. -/
theorem HttpSession.getValue_setValues (session : HttpSession) (sets : List (String × String))
    (key : String) :
    (session.setValues sets).getValue key = (session.getValue key).or (firstSet sets key) := by
  induction sets generalizing session with
  | nil => exact (Option.or_none).symm
  | cons p sets ih =>
    show ((session.setValue p.1 p.2).setValues sets).getValue key = _
    -- what the first call leaves is there for all others, so only the first value counts
    rw [ih, getValue_setValue, firstSet_cons, Option.or_assoc]
    split
    · rfl
    · rfl

namespace HttpSessionManager

variable {requests : Nat → HttpRequest} {s : HttpSessionManager} {cookie : String} {r : Nat}

/-! ### One step -/

/-- A request with this cookie works on the session of this cookie; a new session is empty. -/
def OnCookie (cookie : String) : RequestPhase → Prop
  | .missing c session => c = cookie ∧ ∀ key, session.getValue key = none
  | .read c _ => c = cookie
  | .handled c _ _ => c = cookie
  | _ => True

theorem getValue_new (sid key : String) :
    (({} : HttpSession).setSessionId sid).getValue key = none :=
  Std.TreeMap.getElem?_emptyc

theorem move_onCookie {phase : RequestPhase} (h : ∀ r, OnCookie cookie (s.phase r))
    (hphase : OnCookie cookie phase) : ∀ r', OnCookie cookie ((s.move r phase).phase r') := by
  intro r'
  show OnCookie cookie (if r' = r then phase else s.phase r')
  split
  · exact hphase
  · exact h r'

theorem advance_onCookie (hrequest : (requests r).cookie = some cookie)
    (h : ∀ r, OnCookie cookie (s.phase r)) :
    ∀ r', OnCookie cookie ((s.advance requests r).phase r') := by
  have hr := h r
  rw [advance]
  rcases hphase : s.phase r with - | ⟨c, session⟩ | ⟨c, session⟩ | ⟨c, session, sets⟩ | -
  · rw [hrequest]
    dsimp only
    rcases s.findSessionByCookie cookie with - | session
    · exact move_onCookie h ⟨rfl, getValue_new cookie⟩
    · exact move_onCookie h rfl
  · rw [hphase] at hr
    exact move_onCookie (s := s.updateSession c session) h hr.1
  · rw [hphase] at hr
    dsimp only
    rcases (requests r).handler with - | handler
    · exact move_onCookie h trivial
    · exact move_onCookie h hr
  · exact move_onCookie h trivial
  · exact h

/-- What a step does to what is stored and to what has been set: nothing, a new session, or
the copy with the values of the handler. -/
theorem advance_cases (hrequest : (requests r).cookie = some cookie)
    (h : ∀ r, OnCookie cookie (s.phase r)) :
    ((s.advance requests r).written = s.written ∧
      (∀ key, (s.advance requests r).stored cookie key = s.stored cookie key) ∧
      (s.Undisturbed r ↔ True)) ∨
    ((s.advance requests r).written = s.written ∧
      (∀ key, (s.advance requests r).stored cookie key = none) ∧
      (s.Undisturbed r ↔ ∀ key, lastSet s.written key = none)) ∨
    ∃ session sets, s.phase r = .handled cookie session sets ∧
      (s.advance requests r).written = s.written ++ sets ∧
      ∀ key, (s.advance requests r).stored cookie key =
        (session.getValue key).or (firstSet sets key) := by
  have hr := h r
  rw [advance, Undisturbed]
  rcases hphase : s.phase r with - | ⟨c, session⟩ | ⟨c, session⟩ | ⟨c, session, sets⟩ | -
  · left
    rw [hrequest]
    dsimp only
    rcases s.findSessionByCookie cookie with - | session
    · exact ⟨rfl, fun key => rfl, Iff.rfl⟩
    · exact ⟨rfl, fun key => rfl, Iff.rfl⟩
  · right
    left
    rw [hphase] at hr
    obtain ⟨rfl, hempty⟩ := hr
    refine ⟨rfl, ?_, Iff.rfl⟩
    intro key
    show ((s.varMap.insert c session)[c]?).bind (fun session => session.getValue key) = none
    rw [Std.TreeMap.getElem?_insert_self, Option.bind_some, hempty]
  · left
    dsimp only
    rcases (requests r).handler with - | handler
    · exact ⟨rfl, fun key => rfl, Iff.rfl⟩
    · exact ⟨rfl, fun key => rfl, Iff.rfl⟩
  · right
    right
    rw [hphase] at hr
    obtain rfl : c = cookie := hr
    refine ⟨session, sets, rfl, ?_, ?_⟩
    · show (s.completed ++ [(r, sets)]).flatMap Prod.snd = s.written ++ sets
      rw [List.flatMap_append, List.flatMap_singleton]
      rfl
    · intro key
      show ((s.varMap.insert c (session.setValues sets))[c]?).bind
        (fun session => session.getValue key) = _
      rw [Std.TreeMap.getElem?_insert_self, Option.bind_some, HttpSession.getValue_setValues]
  · exact .inl ⟨rfl, fun key => rfl, Iff.rfl⟩

/-- One step keeps what has been set if and only if it is undisturbed. -/
theorem kept_advance_iff (hrequest : (requests r).cookie = some cookie)
    (h : ∀ r, OnCookie cookie (s.phase r)) (hkept : s.Kept cookie) :
    (s.advance requests r).Kept cookie ↔ s.Undisturbed r := by
  rcases advance_cases hrequest h with ⟨hwritten, hstored, hcond⟩ | ⟨hwritten, hstored, hcond⟩ |
    ⟨session, sets, hphase, hwritten, hstored⟩
  · rw [hcond, Kept, hwritten]
    refine ⟨fun _ => trivial, fun _ key value hset => ?_⟩
    rw [hstored]
    exact hkept key value hset
  · -- a new session has no values: nothing may have been set before
    rw [hcond, Kept, hwritten]
    constructor
    · intro hkept' key
      rcases hset : lastSet s.written key with - | value
      · rfl
      · have hvalue := hkept' key value hset
        rw [hstored] at hvalue
        cases hvalue
    · intro hnone key value hset
      rw [hnone key] at hset
      cases hset
  · rw [Undisturbed, hphase, Kept, hwritten]
    simp only [hstored, lastSet_append]
    constructor
    · -- the values of others come from the copy, the own ones from it or from the handler
      intro hkept'
      refine ⟨?_, ?_⟩
      · intro key hnone hset
        obtain ⟨value, hvalue⟩ := Option.ne_none_iff_exists'.mp hset
        have hafter := hkept' key value (by rw [hnone, Option.none_or, hvalue])
        rw [lastSet_eq_none.mp hnone, Option.or_none] at hafter
        rw [hafter, hkept key value hvalue]
      · intro key value hset
        have hafter := hkept' key value (by rw [hset, Option.some_or])
        rcases hget : session.getValue key with - | old
        · rw [hget, Option.none_or] at hafter
          exact .inr ⟨rfl, hafter⟩
        · rw [hget, Option.some_or] at hafter
          exact .inl hafter
    · rintro ⟨hothers, hown⟩ key value hset
      rcases hlast : lastSet sets key with - | last
      · rw [hlast, Option.none_or] at hset
        have hagree := hothers key hlast (by rw [hset]; exact Option.some_ne_none value)
        rw [hagree, hkept key value hset, Option.some_or]
      · rw [hlast, Option.some_or] at hset
        rcases hown key last hlast with hthere | ⟨hnew, hfirst⟩
        · rw [hthere, Option.some_or, hset]
        · rw [hnew, hfirst, Option.none_or, hset]

/-! ### Interleavings -/

/-- The sessions of a server before the requests. -/
def before (varMap : Std.TreeMap String HttpSession) : HttpSessionManager := { varMap := varMap }

/-- In every interleaving of requests that carry the same cookie, on any sessions: after every
step each key has the value that was set by the last request written back that set it, if and
only if every session is written back undisturbed.  So it has at the end. -/
theorem session_updates_iff (requests : Nat → HttpRequest) (cookie : String)
    (hrequests : ∀ r, (requests r).cookie = some cookie)
    (varMap : Std.TreeMap String HttpSession) (schedule : List Nat) :
    (Throughout (advance requests) (fun s r => (s.advance requests r).Kept cookie)
        (before varMap) schedule ↔
      Throughout (advance requests) Undisturbed (before varMap) schedule) ∧
    (Throughout (advance requests) Undisturbed (before varMap) schedule →
      (schedule.foldl (advance requests) (before varMap)).Kept cookie) := by
  have hbefore : (∀ r, OnCookie cookie ((before varMap).phase r)) ∧ (before varMap).Kept cookie := by
    refine ⟨fun _ => trivial, ?_⟩
    intro key value hset
    cases hset
  have hiff : ∀ (s : HttpSessionManager) (r : Nat),
      (∀ r, OnCookie cookie (s.phase r)) ∧ s.Kept cookie →
      ((s.advance requests r).Kept cookie ↔ s.Undisturbed r) := by
    rintro s r ⟨hphase, hkept⟩
    exact kept_advance_iff (hrequests r) hphase hkept
  have hkeep : ∀ (s : HttpSessionManager) (r : Nat),
      (∀ r, OnCookie cookie (s.phase r)) ∧ s.Kept cookie → s.Undisturbed r →
      (∀ q, OnCookie cookie ((s.advance requests r).phase q)) ∧
        (s.advance requests r).Kept cookie := by
    intro s r h hcond
    exact ⟨advance_onCookie (hrequests r) h.1, (hiff s r h).mpr hcond⟩
  exact ⟨throughout_congr hiff hkeep schedule hbefore,
    fun hcond => (hcond.foldl hkeep hbefore).2⟩

/-- A request that sets one value. -/
def setting (cookie key value : String) : HttpRequest :=
  ⟨some cookie, "", some fun _ => [(key, value)]⟩

/-- A request on its own: what it sets is there when it is done. -/
theorem session_updates_iff_alone :
    ([0, 0, 0, 0].foldl (advance fun _ => setting "c" "user" "x") (before ∅)).Kept "c" := by
  refine (session_updates_iff (fun _ => setting "c" "user" "x") "c" (fun _ => rfl) ∅
    [0, 0, 0, 0]).2 ⟨trivial, fun key => rfl, trivial, ⟨?_, ?_⟩, trivial⟩
  · intro key _ hset
    exact absurd rfl hset
  · intro key value hset
    exact .inr ⟨rfl, hset⟩

/-- Two requests that read the session before either writes it back. -/
def overlapping : HttpSessionManager :=
  [0, 1, 0, 1, 0, 1].foldl
    (advance fun r => if r = 0 then setting "c" "a" "1" else setting "c" "b" "2")
    (before ((∅ : Std.TreeMap String HttpSession).insert "c" {}))

/-- Two requests, one after the other, that set the same key. -/
def repeated : HttpSessionManager :=
  [0, 0, 0, 1, 1, 1].foldl
    (advance fun r => if r = 0 then setting "c" "a" "1" else setting "c" "a" "2")
    (before ((∅ : Std.TreeMap String HttpSession).insert "c" {}))

/-- When requests overlap, what the first one sets is lost; when a key is set again, it keeps
its value. -/
theorem session_updates_lost :
    overlapping.completed = [(0, [("a", "1")]), (1, [("b", "2")])] ∧
      overlapping.stored "c" "a" = none ∧ ¬ overlapping.Kept "c" ∧
    repeated.completed = [(0, [("a", "1")]), (1, [("a", "2")])] ∧
      repeated.stored "c" "a" = some "1" ∧ ¬ repeated.Kept "c" := by
  have hgone : overlapping.stored "c" "a" = none := by decide
  have hold : repeated.stored "c" "a" = some "1" := by decide
  refine ⟨by decide, hgone, ?_, by decide, hold, ?_⟩
  · intro hkept
    have hvalue := hkept "a" "1" (by decide)
    rw [hgone] at hvalue
    cases hvalue
  · intro hkept
    have hvalue := hkept "a" "2" (by decide)
    rw [hold] at hvalue
    exact absurd hvalue (by decide)

end HttpSessionManager

end Orbit
