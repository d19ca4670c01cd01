/-
OrbitStream/Retransmit.lean

The cache for retransmissions of `NackProcessor` (`rtp/nack_processor.cc`): `PushPacket`
stores a packet that was sent, and `ProcessRtcpNackPackets` relays the packets that an
incoming NACK asks for.

`retransmit_list_` is kept here from its back to its front, the newest packet first:
this is the order in which it is searched.  The clock is a sequence of readings of
`getTimeMS`, of which a state has taken `tick`.

A run is logged: the packets in the order in which they were pushed, and the relays with
the number of the packet relayed.  `retransmit_cases` says all that one requested number
can do, `Counted` ties the counters of the cache to the log, and `run_retransmit` reads
the bounds off it.
-/
import Mathlib.Data.List.Chain
import OrbitStream.RtcpNacks

namespace Orbit.Retransmit

open Lib Janus

/-! ### The cache -/

/-- `RtpRetransmitPacket`; `buf_size` is the length of `buf`. -/
structure RtpRetransmitPacket where
  seqn : Nat
  buf : List UInt8
  ts : Int
  retries : Nat
  deriving DecidableEq, Repr

/-- `MAX_RETRANSMIT_QUEUE_SIZE` -/
def maxRetransmitQueueSize : Nat := 300

/-- The cache, and how often the clock was read. -/
structure Cache where
  retransmitList : List RtpRetransmitPacket := []
  tick : Nat := 0

section

variable (clock : Nat → Int)

/-- `PushPacket`, of the `len` bytes at the start of `m`. -/
def pushPacket (s : Cache) (m : Mem) (len : Nat) : Cache where
  retransmitList := (⟨m.getBe 2 2, (List.range len).map m, clock s.tick, 0⟩ ::
    s.retransmitList).take maxRetransmitQueueSize
  tick := s.tick + 1

/-- A call of `RelayPacket`: for which number, at which place of the list the packet was
found, when, and whether it was the first time. -/
structure Relay where
  seqn : Nat
  depth : Nat
  time : Int
  first : Bool
  packet : DataPacket
  deriving DecidableEq, Repr

def Relay.deeper (r : Relay) : Relay := { r with depth := r.depth + 1 }

/-- The search for one requested number: the list, and the relay if there is one.  `now`
was read at the start of the call, `time` is what the clock shows next. -/
def retransmit (now time : Int) (seqn : Nat) :
    List RtpRetransmitPacket → List RtpRetransmitPacket × Option Relay
  | [] => ([], none)
  | rp :: rest =>
    -- the first packet with the number ends the search, relayed or not
    if seqn = rp.seqn then
      if rp.retries < 5 then
        if rp.retries = 0 ∨ now - rp.ts > 30 then
          ({ rp with ts := time, retries := rp.retries + 1 } :: rest,
            some ⟨seqn, 0, time, decide (rp.retries = 0), ⟨0, rp.buf.length, .retransmit, rp.buf⟩⟩)
        else (rp :: rest, none)
      else (rp :: rest, none)
    else
      let r := retransmit now time seqn rest
      (rp :: r.1, r.2.map Relay.deeper)

/-- What a call of `ProcessRtcpNackPackets` has done so far. -/
structure Progress where
  cache : Cache
  lostNotRetrans : Nat := 0
  relays : List Relay := []

/-- A round of the loop over the requested numbers. -/
def requested (now : Int) (p : Progress) (seqn : Nat) : Progress :=
  let r := retransmit now (clock p.cache.tick) seqn p.cache.retransmitList
  match r.2 with
  | none => { p with cache := { p.cache with retransmitList := r.1 } }
  | some relay =>
    { cache := ⟨r.1, p.cache.tick + 1⟩
      lostNotRetrans := if relay.first then p.lostNotRetrans + 1 else p.lostNotRetrans
      relays := p.relays ++ [relay] }

/-- `ProcessRtcpNackPackets` for the numbers of a NACK; the return value is
`lostNotRetrans`. -/
def processNacks (s : Cache) (nacks : List Nat) : Progress :=
  if nacks.length = 0 then { cache := s }
  else nacks.foldl (requested clock (clock s.tick)) { cache := { s with tick := s.tick + 1 } }

/-- `ProcessRtcpNackPackets`, on a memory that answers everywhere. -/
def processRtcpNackPackets (s : Cache) (m : Mem) (len : Nat) : Progress :=
  match getNacks everywhere m len with
  | .ok nacks => processNacks clock s nacks
  | .error _ => { cache := s }

end

/-! ### Runs -/

/-- A packet that was pushed. -/
structure Pushed where
  seqn : Nat
  buf : List UInt8
  deriving DecidableEq, Repr

/-- A relay of the packet that was pushed as number `index`. -/
structure Logged where
  index : Nat
  seqn : Nat
  time : Int
  data : List UInt8
  deriving DecidableEq, Repr

/-- The cache, the packets pushed, the newest first, and the relays in their order. -/
structure Log where
  cache : Cache := {}
  pushes : List Pushed := []
  relays : List Logged := []

inductive Event
  | push (m : Mem) (len : Nat)
  | nacks (m : Mem) (len : Nat)

def Relay.log (pushed : Nat) (r : Relay) : Logged :=
  ⟨pushed - 1 - r.depth, r.seqn, r.time, r.packet.data⟩

def step (clock : Nat → Int) (s : Log) : Event → Log
  | .push m len =>
    { s with
      cache := pushPacket clock s.cache m len
      pushes := ⟨m.getBe 2 2, (List.range len).map m⟩ :: s.pushes }
  | .nacks m len =>
    let p := processRtcpNackPackets clock s.cache m len
    { s with
      cache := p.cache
      relays := s.relays ++ p.relays.map (Relay.log s.pushes.length) }

def run (clock : Nat → Int) (events : List Event) : Log := events.foldl (step clock) {}

/-! ### One requested number -/

/-- The packet is the first with the number: the one that was pushed last. -/
structure Newest (list : List RtpRetransmitPacket) (seqn depth : Nat) (rp : RtpRetransmitPacket) :
    Prop where
  at_depth : list[depth]? = some rp
  seqn_eq : rp.seqn = seqn
  before : ∀ d < depth, ∀ rp', list[d]? = some rp' → rp'.seqn ≠ seqn

/-- All that a requested number does: nothing, or a relay of the newest packet with this
number. -/
theorem retransmit_cases (now time : Int) (seqn : Nat) (list : List RtpRetransmitPacket) :
    retransmit now time seqn list = (list, none) ∨
      ∃ depth rp, Newest list seqn depth rp ∧ rp.retries < 5 ∧
        (rp.retries = 0 ∨ now - rp.ts > 30) ∧
        retransmit now time seqn list =
          (list.set depth { rp with ts := time, retries := rp.retries + 1 },
            some ⟨seqn, depth, time, decide (rp.retries = 0),
              ⟨0, rp.buf.length, .retransmit, rp.buf⟩⟩) := by
  induction list with
  | nil => exact Or.inl rfl
  | cons rp rest ih =>
    rw [retransmit]
    by_cases hseqn : seqn = rp.seqn
    · rw [if_pos hseqn]
      by_cases hretries : rp.retries < 5
      · rw [if_pos hretries]
        by_cases hwait : rp.retries = 0 ∨ now - rp.ts > 30
        · right
          refine ⟨0, rp, ⟨rfl, hseqn.symm, ?_⟩, hretries, hwait, by rw [if_pos hwait]; rfl⟩
          exact fun d hd => absurd hd (Nat.not_lt_zero d)
        · exact Or.inl (by rw [if_neg hwait])
      · exact Or.inl (by rw [if_neg hretries])
    · -- the search goes on: what is found lies one place deeper
      rw [if_neg hseqn]
      rcases ih with hnone | ⟨depth, rp', hnew, hretries, hwait, heq⟩
      · exact Or.inl (by rw [hnone]; rfl)
      · right
        refine ⟨depth + 1, rp', ⟨hnew.at_depth, hnew.seqn_eq, ?_⟩, hretries, hwait, by rw [heq]; rfl⟩
        intro d hd rp'' hrp''
        rcases d with - | d
        · rw [← Option.some.inj hrp'']
          exact fun h => hseqn h.symm
        · exact hnew.before d (by omega) rp'' hrp''

/-! ### The counters and the log -/

/-- The times at which packet `k` was relayed. -/
def timesOf (k : Nat) (relays : List Logged) : List Int :=
  (relays.filter fun r => decide (r.index = k)).map Logged.time

theorem timesOf_concat (k : Nat) (relays : List Logged) (r : Logged) :
    timesOf k (relays ++ [r]) = timesOf k relays ++ if r.index = k then [r.time] else [] := by
  rw [timesOf, List.filter_append, List.map_append]
  by_cases hk : r.index = k
  · simp [timesOf, hk]
  · simp [timesOf, hk]

theorem timesOf_eq_nil {k : Nat} {relays : List Logged} :
    timesOf k relays = [] ↔ ∀ r ∈ relays, r.index ≠ k := by
  simp [timesOf]

theorem length_timesOf (k : Nat) (relays : List Logged) :
    (timesOf k relays).length = relays.countP fun r => decide (r.index = k) := by
  rw [timesOf, List.length_map, List.countP_eq_length_filter]

/-- The cache against the packets pushed and the relays made. -/
structure Counted (list : List RtpRetransmitPacket) (pushes : List Pushed) (relays : List Logged) :
    Prop where
  cached : list.map (fun rp => (⟨rp.seqn, rp.buf⟩ : Pushed)) = pushes.take maxRetransmitQueueSize
  counts : ∀ depth rp, list[depth]? = some rp →
    rp.retries = (timesOf (pushes.length - 1 - depth) relays).length ∧
      ∀ t ∈ (timesOf (pushes.length - 1 - depth) relays).getLast?, rp.ts = t
  bounded : ∀ k, (timesOf k relays).length ≤ 5 ∧
    (timesOf k relays).IsChain fun t t' => 30 < t' - t
  known : ∀ r ∈ relays, r.index < pushes.length

namespace Counted

variable {list : List RtpRetransmitPacket} {pushes : List Pushed} {relays : List Logged}

theorem length_list (h : Counted list pushes relays) :
    list.length = min maxRetransmitQueueSize pushes.length := by
  have hlen := congrArg List.length h.cached
  rwa [List.length_map, List.length_take] at hlen

/-- A packet of the cache is the one pushed at its place. -/
theorem pushed (h : Counted list pushes relays) {depth : Nat} {rp : RtpRetransmitPacket}
    (hrp : list[depth]? = some rp) :
    depth < maxRetransmitQueueSize ∧ pushes[depth]? = some ⟨rp.seqn, rp.buf⟩ := by
  have hlt := (List.getElem?_eq_some_iff.mp hrp).1
  have hlen := h.length_list
  have hdepth : depth < maxRetransmitQueueSize := by omega
  refine ⟨hdepth, ?_⟩
  have hget := congrArg (fun l => l[depth]?) h.cached
  simp only [List.getElem?_map, hrp, Option.map_some] at hget
  rw [List.getElem?_take_of_lt hdepth] at hget
  exact hget.symm

theorem init : Counted [] [] [] where
  cached := rfl
  counts depth rp h := by simp at h
  bounded k := ⟨Nat.zero_le 5, List.IsChain.nil⟩
  known r hr := by simp at hr

theorem push (h : Counted list pushes relays) (seqn : Nat) (buf : List UInt8) (now : Int) :
    Counted ((⟨seqn, buf, now, 0⟩ :: list).take maxRetransmitQueueSize) (⟨seqn, buf⟩ :: pushes)
      relays where
  cached := by
    -- 300 of the last 300 and one more are the last 300
    rw [List.map_take, List.map_cons, h.cached]
    show (_ :: pushes.take 300).take 300 = _
    rw [List.take_succ_cons, List.take_take]
    rfl
  counts depth rp hrp := by
    have hlt : depth < maxRetransmitQueueSize :=
      Nat.lt_of_lt_of_le (List.getElem?_eq_some_iff.mp hrp).1 (List.length_take_le _ _)
    rw [List.getElem?_take_of_lt hlt] at hrp
    rw [List.length_cons]
    rcases depth with - | depth
    · -- the new packet was not relayed yet
      have hnone : timesOf (pushes.length + 1 - 1 - 0) relays = [] := by
        rw [timesOf_eq_nil]
        intro r hr
        have hknown := h.known r hr
        omega
      rw [hnone, ← Option.some.inj hrp]
      exact ⟨rfl, fun t ht => by simp at ht⟩
    · -- the others are one place deeper, and keep their index
      have hindex : pushes.length + 1 - 1 - (depth + 1) = pushes.length - 1 - depth := by omega
      rw [hindex]
      exact h.counts depth rp hrp
  bounded := h.bounded
  known r hr := Nat.lt_succ_of_lt (h.known r hr)

/-- The times of a packet after a relay of the one at `depth`. -/
theorem timesOf_relay (k seqn : Nat) (time : Int) (data : List UInt8) (index : Nat) :
    timesOf k (relays ++ [⟨index, seqn, time, data⟩]) =
      if index = k then timesOf k relays ++ [time] else timesOf k relays := by
  rw [timesOf_concat]
  split
  · rfl
  · exact List.append_nil _

/-- The counters after a relay of the packet at `depth`. -/
theorem relay_counts (h : Counted list pushes relays) {depth : Nat} {rp : RtpRetransmitPacket}
    (hrp : list[depth]? = some rp) (time : Int) (seqn d : Nat) {rp' : RtpRetransmitPacket}
    (hd : (list.set depth { rp with ts := time, retries := rp.retries + 1 })[d]? = some rp') :
    rp'.retries = (timesOf (pushes.length - 1 - d)
        (relays ++ [⟨pushes.length - 1 - depth, seqn, time, rp.buf⟩])).length ∧
      ∀ t ∈ (timesOf (pushes.length - 1 - d)
        (relays ++ [⟨pushes.length - 1 - depth, seqn, time, rp.buf⟩])).getLast?, rp'.ts = t := by
  have hlt := (List.getElem?_eq_some_iff.mp hrp).1
  have hlen := h.length_list
  rw [timesOf_relay]
  by_cases hdd : depth = d
  · subst hdd
    rw [List.getElem?_set_self hlt] at hd
    rw [← Option.some.inj hd, if_pos rfl]
    refine ⟨?_, ?_⟩
    · rw [List.length_append, ← (h.counts depth rp hrp).1]
      rfl
    · intro t ht
      rw [List.getLast?_concat] at ht
      exact Option.some.inj ht
  · -- two places of the cache are two packets
    rw [List.getElem?_set_ne hdd] at hd
    have hdlt := (List.getElem?_eq_some_iff.mp hd).1
    have hother : ¬ pushes.length - 1 - depth = pushes.length - 1 - d := by omega
    rw [if_neg hother]
    exact h.counts d rp' hd

/-- The bounds after a relay of the packet at `depth`. -/
theorem relay_bounded (h : Counted list pushes relays) {depth : Nat} {rp : RtpRetransmitPacket}
    (hrp : list[depth]? = some rp) (hretries : rp.retries < 5) {now time : Int}
    (hwait : rp.retries = 0 ∨ now - rp.ts > 30) (htime : now ≤ time) (seqn k : Nat) :
    (timesOf k (relays ++ [⟨pushes.length - 1 - depth, seqn, time, rp.buf⟩])).length ≤ 5 ∧
      (timesOf k (relays ++ [⟨pushes.length - 1 - depth, seqn, time, rp.buf⟩])).IsChain
        fun t t' => 30 < t' - t := by
  obtain ⟨hcount, hlast⟩ := h.counts depth rp hrp
  obtain ⟨hle, hchain⟩ := h.bounded k
  rw [timesOf_relay]
  by_cases hk : pushes.length - 1 - depth = k
  · subst hk
    rw [if_pos rfl]
    refine ⟨by rw [List.length_append, ← hcount]; exact hretries, ?_⟩
    rw [List.isChain_append]
    refine ⟨hchain, List.IsChain.singleton time, ?_⟩
    intro t ht t' ht'
    rw [← Option.some.inj ht', ← hlast t ht]
    rcases hwait with hzero | hwait
    · -- nothing was relayed before, so there is no time to compare with
      rw [hcount, List.length_eq_zero_iff] at hzero
      rw [hzero] at ht
      cases ht
    · show 30 < time - rp.ts
      omega
  · rw [if_neg hk]
    exact ⟨hle, hchain⟩

/-- A relay of the newest packet with a number is counted. -/
theorem relay (h : Counted list pushes relays) {depth : Nat} {rp : RtpRetransmitPacket}
    (hrp : list[depth]? = some rp) (hretries : rp.retries < 5) {now time : Int}
    (hwait : rp.retries = 0 ∨ now - rp.ts > 30) (htime : now ≤ time) (seqn : Nat) :
    Counted (list.set depth { rp with ts := time, retries := rp.retries + 1 }) pushes
      (relays ++ [⟨pushes.length - 1 - depth, seqn, time, rp.buf⟩]) where
  cached := by
    have hlt := (List.getElem?_eq_some_iff.mp hrp).1
    rw [List.map_set, ← h.cached]
    apply List.ext_getElem?
    intro d
    by_cases hd : depth = d
    · subst hd
      rw [List.getElem?_set_self (by rwa [List.length_map]), List.getElem?_map, hrp]
      rfl
    · rw [List.getElem?_set_ne hd]
  counts d rp' hd := h.relay_counts hrp time seqn d hd
  bounded k := h.relay_bounded hrp hretries hwait htime seqn k
  known r hr := by
    have hlt := (List.getElem?_eq_some_iff.mp hrp).1
    have hlen := h.length_list
    rcases List.mem_append.mp hr with hr | hr
    · exact h.known r hr
    · rw [List.mem_singleton.mp hr]
      show pushes.length - 1 - depth < pushes.length
      omega

end Counted

/-! ### A call -/

/-- How many of the relays are of a packet that was not relayed before. -/
def firstTimes (before : List Logged) : List Logged → Nat
  | [] => 0
  | r :: rs => (if ∃ b ∈ before, b.index = r.index then 0 else 1) + firstTimes (before ++ [r]) rs

theorem firstTimes_concat (before relays : List Logged) (r : Logged) :
    firstTimes before (relays ++ [r]) =
      firstTimes before relays + if ∃ b ∈ before ++ relays, b.index = r.index then 0 else 1 := by
  induction relays generalizing before with
  | nil => simp [firstTimes]
  | cons x relays ih =>
    rw [List.cons_append, firstTimes, firstTimes, ih, List.append_assoc, List.singleton_append,
      Nat.add_assoc]

/-- The relay sends the bytes of the packet pushed last among those in the cache with the
requested number. -/
structure MostRecent (pushes : List Pushed) (r : Relay) : Prop where
  cached : r.depth < maxRetransmitQueueSize
  bytes : pushes[r.depth]? = some ⟨r.seqn, r.packet.data⟩
  newest : ∀ d < r.depth, ∀ p, pushes[d]? = some p → p.seqn ≠ r.seqn

/-- What a call for the numbers `asked` has done, from the log before it. -/
structure Called (s : Log) (asked : List Nat) (p : Progress) : Prop where
  counted : Counted p.cache.retransmitList s.pushes
    (s.relays ++ p.relays.map (Relay.log s.pushes.length))
  tick : s.cache.tick ≤ p.cache.tick
  recent : ∀ r ∈ p.relays, r.seqn ∈ asked ∧ MostRecent s.pushes r
  first : p.lostNotRetrans = firstTimes s.relays (p.relays.map (Relay.log s.pushes.length))

theorem Called.requested {clock : Nat → Int} (hclock : ∀ i j, i ≤ j → clock i ≤ clock j) {s : Log}
    {asked : List Nat} {p : Progress} (h : Called s asked p) {seqn : Nat} (hseqn : seqn ∈ asked) :
    Called s asked (requested clock (clock s.cache.tick) p seqn) := by
  rcases retransmit_cases (clock s.cache.tick) (clock p.cache.tick) seqn p.cache.retransmitList with
    hnone | ⟨depth, rp, hnew, hretries, hwait, heq⟩
  · rw [Retransmit.requested, hnone]
    exact h
  · rw [Retransmit.requested, heq]
    have hcount := h.counted.counts depth rp hnew.at_depth
    obtain ⟨hdepth, hpushed⟩ := h.counted.pushed hnew.at_depth
    have hcounted := h.counted.relay hnew.at_depth hretries hwait (hclock _ _ h.tick) seqn
    refine ⟨?_, Nat.le_succ_of_le h.tick, ?_, ?_⟩
    · rw [List.map_append, ← List.append_assoc]
      exact hcounted
    · intro r hr
      rcases List.mem_append.mp hr with hr | hr
      · exact h.recent r hr
      · rw [List.mem_singleton.mp hr]
        refine ⟨hseqn, hdepth, by rw [hpushed, hnew.seqn_eq], ?_⟩
        intro d hd pk hpk heqn
        -- a newer packet is in the cache as well, and would have been found first
        have hlt := (List.getElem?_eq_some_iff.mp hnew.at_depth).1
        obtain ⟨rp', hrp'⟩ : ∃ rp', p.cache.retransmitList[d]? = some rp' :=
          ⟨_, List.getElem?_eq_getElem (Nat.lt_trans hd hlt)⟩
        rw [(h.counted.pushed hrp').2] at hpk
        rw [← Option.some.inj hpk] at heqn
        exact hnew.before d hd rp' hrp' heqn
    · -- no retries are no relays in the log
      have hfirst : (∃ b ∈ s.relays ++ p.relays.map (Relay.log s.pushes.length),
          b.index = s.pushes.length - 1 - depth) ↔ ¬ rp.retries = 0 := by
        rw [hcount.1, List.length_eq_zero_iff, timesOf_eq_nil]
        simp
      rw [List.map_append, List.map_singleton, firstTimes_concat, ← h.first]
      change (if decide (rp.retries = 0) = true then _ else _) =
        _ + ite (∃ b ∈ s.relays ++ p.relays.map (Relay.log s.pushes.length),
          b.index = s.pushes.length - 1 - depth) 0 1
      by_cases hzero : rp.retries = 0
      · rw [if_pos (decide_eq_true hzero), if_neg fun hex => hfirst.mp hex hzero]
      · rw [if_neg (by simpa using hzero), if_pos (hfirst.mpr hzero)]
        rfl

/-- The loop over the requested numbers. -/
theorem Called.foldl {clock : Nat → Int} (hclock : ∀ i j, i ≤ j → clock i ≤ clock j) {s : Log}
    {asked nacks : List Nat} (hnacks : ∀ seqn ∈ nacks, seqn ∈ asked) {p : Progress}
    (h : Called s asked p) :
    Called s asked (nacks.foldl (Retransmit.requested clock (clock s.cache.tick)) p) := by
  induction nacks generalizing p with
  | nil => exact h
  | cons seqn nacks ih =>
    apply ih
    · exact fun n hn => hnacks n (List.mem_cons_of_mem seqn hn)
    · exact h.requested hclock (hnacks seqn List.mem_cons_self)

theorem called_processNacks {clock : Nat → Int} (hclock : ∀ i j, i ≤ j → clock i ≤ clock j) {s : Log}
    (h : Counted s.cache.retransmitList s.pushes s.relays) (nacks : List Nat) :
    Called s nacks (processNacks clock s.cache nacks) := by
  have hinit : ∀ tick, s.cache.tick ≤ tick →
      Called s nacks { cache := ⟨s.cache.retransmitList, tick⟩ } := by
    intro tick htick
    refine ⟨?_, htick, fun r hr => absurd hr List.not_mem_nil, rfl⟩
    rw [List.map_nil, List.append_nil]
    exact h
  rw [processNacks]
  split
  · exact hinit s.cache.tick (Nat.le_refl _)
  · exact Called.foldl hclock (fun _ hseqn => hseqn) (hinit (s.cache.tick + 1) (Nat.le_succ _))

theorem getNacks_everywhere (m : Mem) (len : Nat) :
    ∃ nacks, getNacks everywhere m len = .ok nacks := by
  have hfirst : load everywhere m 0 1 = .ok (m.getBe 0 1) := if_pos (mapped_everywhere _ _)
  rw [getNacks, ifVersion, hfirst, loop_everywhere (getNacksBody_touches everywhere)]
  simp only [bind, Except.bind]
  split
  · exact ⟨_, rfl⟩
  · split
    · exact ⟨_, rfl⟩
    · exact ⟨_, rfl⟩

theorem called_processRtcpNackPackets {clock : Nat → Int} (hclock : ∀ i j, i ≤ j → clock i ≤ clock j) {s : Log}
    (h : Counted s.cache.retransmitList s.pushes s.relays) (m : Mem) (len : Nat) :
    ∃ nacks, getNacks everywhere m len = .ok nacks ∧
      Called s nacks (processRtcpNackPackets clock s.cache m len) := by
  obtain ⟨nacks, hnacks⟩ := getNacks_everywhere m len
  refine ⟨nacks, hnacks, ?_⟩
  rw [processRtcpNackPackets, hnacks]
  exact called_processNacks hclock h nacks

/-- What a call relays are packets that were pushed, under their index. -/
theorem Called.exists_pushed {s : Log} {asked : List Nat} {p : Progress} (h : Called s asked p)
    {l : Logged} (hl : l ∈ p.relays.map (Relay.log s.pushes.length)) :
    ∃ pk, s.pushes.reverse[l.index]? = some pk ∧ l.data = pk.buf := by
  obtain ⟨r, hr, rfl⟩ := List.mem_map.mp hl
  obtain ⟨-, hrecent⟩ := h.recent r hr
  have hlt := (List.getElem?_eq_some_iff.mp hrecent.bytes).1
  refine ⟨⟨r.seqn, r.packet.data⟩, ?_, rfl⟩
  show s.pushes.reverse[s.pushes.length - 1 - r.depth]? = _
  rw [List.getElem?_reverse (by omega), ← hrecent.bytes]
  congr 1
  omega

/-! ### Runs keep the counters -/

theorem Counted.step {clock : Nat → Int} (hclock : ∀ i j, i ≤ j → clock i ≤ clock j) {s : Log} (e : Event)
    (h : Counted s.cache.retransmitList s.pushes s.relays) :
    Counted (step clock s e).cache.retransmitList (step clock s e).pushes
      (step clock s e).relays := by
  cases e with
  | push m len => exact h.push (m.getBe 2 2) ((List.range len).map m) (clock s.cache.tick)
  | nacks m len =>
    obtain ⟨nacks, -, hcalled⟩ := called_processRtcpNackPackets hclock h m len
    exact hcalled.counted

theorem counted_run {clock : Nat → Int} (hclock : ∀ i j, i ≤ j → clock i ≤ clock j) (events : List Event) :
    Counted (run clock events).cache.retransmitList (run clock events).pushes
      (run clock events).relays := by
  induction events using List.reverseRecOn with
  | nil => exact Counted.init
  | append_singleton events e ih =>
    rw [run, List.foldl_append]
    exact ih.step hclock e

/-- What a run of the cache keeps: it holds the last 300 packets pushed, or all of them;
every packet pushed is relayed at most five times, more than 30 ms apart; and a further call
relays the packet pushed last among those in the cache with the number, and returns how many
of its relays were the first of their packet. -/
theorem run_retransmit (clock : Nat → Int) (hclock : ∀ i j, i ≤ j → clock i ≤ clock j) (events : List Event) :
    ((run clock events).cache.retransmitList.map fun rp => (⟨rp.seqn, rp.buf⟩ : Pushed)) =
        (run clock events).pushes.take maxRetransmitQueueSize ∧
      (run clock events).cache.retransmitList.length =
        min maxRetransmitQueueSize (run clock events).pushes.length ∧
      (∀ k, (timesOf k (run clock events).relays).length ≤ 5 ∧
        (timesOf k (run clock events).relays).IsChain fun t t' => 30 < t' - t) ∧
      ∀ m len, ∃ nacks, getNacks everywhere m len = .ok nacks ∧
        (∀ r ∈ (processRtcpNackPackets clock (run clock events).cache m len).relays,
          r.seqn ∈ nacks ∧ MostRecent (run clock events).pushes r) ∧
        (processRtcpNackPackets clock (run clock events).cache m len).lostNotRetrans =
          firstTimes (run clock events).relays
            ((processRtcpNackPackets clock (run clock events).cache m len).relays.map
              (Relay.log (run clock events).pushes.length)) := by
  have hcounted := counted_run hclock events
  refine ⟨hcounted.cached, hcounted.length_list, hcounted.bounded, ?_⟩
  intro m len
  obtain ⟨nacks, hnacks, hcalled⟩ := called_processRtcpNackPackets hclock hcounted m len
  exact ⟨nacks, hnacks, hcalled.recent, hcalled.first⟩

/-- A packet with number 7. -/
def packetSeven : Mem := Mem.lay [0x80, 100, 0, 7] fun _ => 0

/-- A NACK for 7 and 8. -/
def nackSeven : Mem := Mem.lay [0x81, 205, 0, 3, 0, 0, 0, 0, 0, 0, 0, 0, 0, 7, 0, 1] fun _ => 0

theorem run_retransmit_seven :
    timesOf 0 (run (fun n => 20 * n) [.push packetSeven 4, .nacks nackSeven 16,
        .nacks nackSeven 16, .nacks nackSeven 16]).relays = [40, 100] ∧
      (timesOf 0 (run (fun n => 20 * n) [.push packetSeven 4, .nacks nackSeven 16,
        .nacks nackSeven 16, .nacks nackSeven 16]).relays).IsChain fun t t' => 30 < t' - t := by
  have hclock : ∀ i j : Nat, i ≤ j → (20 * i : Int) ≤ 20 * j := by
    intro i j hij
    omega
  refine ⟨by decide +kernel, ?_⟩
  exact ((run_retransmit _ hclock _).2.2.1 0).2

end Orbit.Retransmit
