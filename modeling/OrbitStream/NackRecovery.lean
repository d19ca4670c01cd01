/-
OrbitStream/NackRecovery.lean

The two ends of `NackProcessor` (`rtp/nack_processor.cc`) against each other: a sender
that keeps its packets for retransmission, a receiver that asks for what it misses, and a
network between them that loses, repeats, delays and reorders in both directions.

Nothing is ever taken off the network.  A message that is delivered may be delivered
again, and one that never is, is lost; so the two lists of messages only grow.  A copy of
a packet carries the index under which the packet was sent, which the code does not see,
and a request carries the call that made it.

The sender numbers its packets consecutively, modulo `2 ^ 16`, and the network keeps a
copy at most while `2 ^ 15` later packets are sent.  `asks_only_for_sent` says that the
receiver asks for nothing else than what was sent, `copies_of_sent` that nothing else
arrives and that a packet is on the network at most six times, and `answered_in_time` that
the 300 packets of the cache are enough for the 160 entries of the receiver.
-/
import OrbitStream.NackPacing
import OrbitStream.Retransmit
import OrbitStream.RtcpRewrite
import OrbitStream.Rtp

namespace Orbit.NackRecovery

open Lib Janus NackTracker

/-! ### The link -/

/-- A copy of the packet that was sent as number `index`. -/
structure Copy where
  index : Nat
  data : List UInt8
  deriving DecidableEq, Repr

/-- A NACK as it leaves the receiver, and the call that made it. -/
structure Request where
  call : Call
  m : Mem
  len : Nat

/-- The two ends, and all that they put on the network. -/
structure Link where
  sender : Retransmit.Log := {}
  receiver : NackProcessor × List Call := ({}, [])
  copies : List Copy := []
  requests : List Request := []

inductive Event
  | send (m : Mem) (len : Nat)
  | deliver (i : Nat) (now currentTime : Int) (nackbuf : Mem)
  | answer (i : Nat)
  | setLastFirRequest (now : Int)
  | setGetFir
  | sendFirPacket

section

variable (clock : Nat → Int) (enableNackRequestFir : Bool) (a : FixArgs)

/-- The end of `SendNackByCondition`: a NACK goes through `SendRTCP` to `queueData`, which
puts the SSRCs into it. -/
def request (c : Call) : List Request :=
  if c.res > 0 then
    match fixSsrc everywhere a (fun _ => 0) none c.nackbuf c.res.toNat with
    | .ok fixed => [⟨c, fixed.2.1, c.res.toNat⟩]
    | .error _ => []
  else []

/-- The copies that the relays behind the first `n` put on the network. -/
def repeated (n : Nat) (sender : Retransmit.Log) : List Copy :=
  (sender.relays.drop n).map fun l => ⟨l.index, l.data⟩

/-- An event of the receiver that is not the arrival of a packet. -/
def Link.atReceiver (s : Link) (e : NackTracker.Event) : Option Link := do
  let receiver ← NackTracker.step enableNackRequestFir s.receiver e
  some { s with receiver := receiver }

def step (s : Link) : Event → Option Link
  | .send m len =>
    some { s with
      sender := Retransmit.step clock s.sender (.push m len)
      copies := s.copies ++ [⟨s.sender.pushes.length, (List.range len).map m⟩] }
  | .deliver i now currentTime nackbuf =>
    match s.copies[i]? with
    | none => some s
    | some p => do
      let receiver ← NackTracker.step enableNackRequestFir s.receiver
        (.track (RtpHeader.getSeqNumber p.data) now currentTime nackbuf)
      some { s with
        receiver := receiver
        requests := s.requests ++ receiver.2.getLast?.toList.flatMap (request a) }
  | .answer i =>
    match s.requests[i]? with
    | none => some s
    | some r =>
      let sender := Retransmit.step clock s.sender (.nacks r.m r.len)
      some { s with
        sender := sender
        copies := s.copies ++ repeated s.sender.relays.length sender }
  | .setLastFirRequest now => s.atReceiver enableNackRequestFir (.setLastFirRequest now)
  | .setGetFir => s.atReceiver enableNackRequestFir .setGetFir
  | .sendFirPacket => s.atReceiver enableNackRequestFir .sendFirPacket

end

/-- The number of the `i`-th packet of a stream that starts at `base`. -/
def num (base i : Nat) : UInt16 := UInt16.ofNat (base + i)

/-- The sender numbers its packets consecutively, and a copy is not delivered any more when
`2 ^ 15` later packets were sent. -/
def Regular (base : Nat) (s : Link) : Event → Prop
  | .send m len => 4 ≤ len ∧ m.getBe 2 2 = (num base s.sender.pushes.length).toNat
  | .deliver i _ _ _ => ∀ p ∈ s.copies[i]?, s.sender.pushes.length ≤ p.index + 2 ^ 15
  | _ => True

/-- What can be reached by regular events, in any order. -/
inductive Reachable (clock : Nat → Int) (enableNackRequestFir : Bool) (a : FixArgs) (base : Nat) :
    Link → Prop
  | start : Reachable clock enableNackRequestFir a base {}
  | tail {s s' : Link} {e : Event} (hs : Reachable clock enableNackRequestFir a base s)
      (he : Regular base s e) (hstep : step clock enableNackRequestFir a s e = some s') :
      Reachable clock enableNackRequestFir a base s'

instance (base : Nat) (s : Link) : (e : Event) → Decidable (Regular base s e)
  | .send _ _ => inferInstanceAs (Decidable (_ ∧ _))
  | .deliver i _ _ _ => inferInstanceAs (Decidable (∀ p ∈ s.copies[i]?, _))
  | .answer _ => isTrue trivial
  | .setLastFirRequest _ => isTrue trivial
  | .setGetFir => isTrue trivial
  | .sendFirPacket => isTrue trivial

/-- A run of regular events. -/
def run (clock : Nat → Int) (enableNackRequestFir : Bool) (a : FixArgs) (base : Nat)
    (events : List Event) : Option Link :=
  events.foldlM (fun s e =>
    if Regular base s e then step clock enableNackRequestFir a s e else none) {}

theorem reachable_run {clock : Nat → Int} {enableNackRequestFir : Bool} {a : FixArgs} {base : Nat}
    (events : List Event) {s : Link} (h : run clock enableNackRequestFir a base events = some s) :
    Reachable clock enableNackRequestFir a base s := by
  induction events using List.reverseRecOn generalizing s with
  | nil =>
    rw [← Option.some.inj h]
    exact Reachable.start
  | append_singleton events e ih =>
    rw [run, List.foldlM_append] at h
    obtain ⟨s₁, hs₁, hlast⟩ := Option.bind_eq_some_iff.mp h
    rw [List.foldlM_cons] at hlast
    obtain ⟨s₂, hs₂, hnil⟩ := Option.bind_eq_some_iff.mp hlast
    obtain rfl := Option.some.inj hnil
    split at hs₂
    · next he => exact (ih hs₁).tail he hs₂
    · cases hs₂

/-! ### The numbers of a stream -/

theorem num_add (base i n : Nat) : num base (i + n) = num base i + UInt16.ofNat n := by
  apply UInt16.toNat_inj.mp
  simp only [num, UInt16.toNat_add, UInt16.toNat_ofNat']
  omega

/-- Indices a multiple of the circle apart have the same number. -/
theorem num_eq_iff (base i j : Nat) : num base i = num base j ↔ i % 2 ^ 16 = j % 2 ^ 16 := by
  rw [← UInt16.toNat_inj]
  simp only [num, UInt16.toNat_ofNat']
  omega

/-- How far a number is ahead tells how far its index is, modulo the circle. -/
theorem ahead_num (base i j : Nat) :
    (j + ahead (num base i) (num base j)) % 2 ^ 16 = i % 2 ^ 16 := by
  rw [ahead_eq]
  simp only [num, UInt16.toNat_ofNat']
  omega

/-- The entries stand for a stretch of the first `n` packets. -/
def Sent (base n : Nat) (l : List SeqInfo) : Prop :=
  ∃ lo, lo + l.length ≤ n ∧ l.map SeqInfo.seq = numbers (num base lo) l.length

section

variable {base n : Nat} {l : List SeqInfo}

theorem sent_nil : Sent base n [] := ⟨0, Nat.zero_le n, rfl⟩

theorem Sent.mono {n' : Nat} (h : Sent base n l) (hn : n ≤ n') : Sent base n' l := by
  obtain ⟨lo, hle, hseqs⟩ := h
  exact ⟨lo, Nat.le_trans hle hn, hseqs⟩

theorem Sent.drop (h : Sent base n l) (k : Nat) : Sent base n (l.drop k) := by
  obtain ⟨lo, hle, hseqs⟩ := h
  by_cases hk : l.length ≤ k
  · rw [List.drop_eq_nil_of_le hk]
    exact sent_nil
  · refine ⟨lo + k, ?_, ?_⟩
    · rw [List.length_drop]
      omega
    · have hsplit : l.length = k + (l.length - k) := by omega
      rw [hsplit, numbers_add] at hseqs
      rw [List.map_drop, hseqs, List.length_drop, num_add]
      exact List.drop_left' (length_numbers _ _)

/-- An entry of the stretch, by its place. -/
theorem Sent.exists_index (h : Sent base n l) {q : UInt16} (hq : q ∈ l.map SeqInfo.seq) :
    ∃ i < n, q = num base i := by
  obtain ⟨lo, hle, hseqs⟩ := h
  rw [hseqs, numbers, List.mem_map] at hq
  obtain ⟨j, hj, rfl⟩ := hq
  have hlt := List.mem_range.mp hj
  exact ⟨lo + j, by omega, (num_add base lo j).symm⟩

/-! ### A packet arrives -/

/-- The stretch grows by the packets up to the one that arrives, or starts there. -/
theorem Sent.scanned (h : Sent base n l) {i : Nat} (hi : i < n) (hfresh : n ≤ i + 2 ^ 15)
    (now : Int) : Sent base n (NackTracker.scanned l (num base i) now) := by
  have hone : ahead (num base i) (num base i - 1) = 1 := by
    have hnew := (num base i).toNat_lt
    rw [ahead_eq, UInt16.toNat_sub]
    simp only [UInt16.toNat_one]
    omega
  -- where there are no old entries, the packet is the only one
  have hstart : ∀ cur, cur = num base i - 1 →
      Sent base n (gap (num base i) now cur) := by
    rintro cur rfl
    refine ⟨i, ?_, ?_⟩
    · rw [gap, List.length_map, length_numbers, hone]
      omega
    · rw [gap_map_seq, gap, List.length_map, length_numbers, hone, UInt16.sub_add_cancel]
  rw [NackTracker.scanned, NackTracker.added]
  by_cases hj : Jump l (num base i)
  · have hkept : kept l (num base i) = [] := if_pos hj
    have hcur : curSeqn [] (num base i) = num base i - 1 := rfl
    rw [hkept, hcur, if_pos (by rw [hone]; decide)]
    exact hstart _ rfl
  · have hkept : kept l (num base i) = l := if_neg hj
    rw [hkept]
    by_cases hl : l = []
    · subst hl
      have hcur : curSeqn [] (num base i) = num base i - 1 := rfl
      rw [hcur, if_pos (by rw [hone]; decide)]
      exact hstart _ rfl
    · obtain ⟨lo, hle, hseqs⟩ := h
      have hpos := List.length_pos_iff.mpr hl
      have hold : (l.map (visit (num base i) now)).map SeqInfo.seq = numbers (num base lo) l.length := by
        rw [← hseqs, List.map_map]
        exact List.map_congr_left fun e _ => visit_seq (num base i) now e
      have hcur : curSeqn l (num base i) = num base (lo + (l.length - 1)) := by
        rw [curSeqn_eq hseqs hl, num_add]
      split
      · next hin =>
        -- the packet is no older than the stretch, so it is as far ahead as its number tells
        rw [hcur] at hin ⊢
        have hahead := ahead_num base i (lo + (l.length - 1))
        generalize hd : ahead (num base i) (num base (lo + (l.length - 1))) = d at hin hahead
        have hmax : lastSeqsMaxLen = 160 := rfl
        have hlen : ((l.map (visit (num base i) now)) ++
            gap (num base i) now (num base (lo + (l.length - 1)))).length = l.length + d := by
          rw [List.length_append, List.length_map, gap, List.length_map, length_numbers, hd]
        refine ⟨i + 1 - (l.length + d), ?_, ?_⟩
        · rw [hlen]
          omega
        · have hlo : num base (i + 1 - (l.length + d)) = num base lo :=
            (num_eq_iff base _ _).mpr (by omega)
          have hnext : num base (lo + (l.length - 1)) + 1 = num base lo + UInt16.ofNat l.length := by
            have hsucc : lo + l.length = lo + (l.length - 1) + 1 := by omega
            rw [← num_add base lo l.length, hsucc, num_add base (lo + (l.length - 1)) 1]
            rfl
          rw [hlen, hlo, List.map_append, hold, gap_map_seq, numbers_add, hd, hnext]
      · refine ⟨lo, ?_, ?_⟩
        · rw [List.append_nil, List.length_map]
          exact hle
        · rw [List.append_nil, hold, List.length_map]

end

/-! ### What a request asks for -/

/-- What is read inside the bytes of a packet is read everywhere. -/
theorem getNacks_of_checked {ok : Nat → Bool} {m : Mem} {len : Nat} {list : List Nat}
    (h : getNacks ok m len = .ok list) : getNacks everywhere m len = .ok list := by
  have hfirst : load everywhere m 0 1 = .ok (m.getBe 0 1) := if_pos (mapped_everywhere _ _)
  have hloop := loop_checked ok (getNacksBody_touches ok) 0 len (m, [])
  rw [getNacks] at h ⊢
  split at h
  · next hlen => rw [if_pos hlen, h]
  · next hlen =>
    rw [if_neg hlen, ifVersion, hfirst, loop_everywhere (getNacksBody_touches everywhere)]
    rw [ifVersion, load] at h
    split at h
    · change (if m.getBe 0 1 / 64 = 2 then _ else _) = _ at h
      change (if m.getBe 0 1 / 64 = 2 then _ else _) = _
      split at h
      · next hversion =>
        rw [if_pos hversion]
        rcases hrun : loop ok (getNacksBody ok) 0 len (m, []) with e | s
        · rw [hrun] at h
          cases h
        · rw [hrun] at h
          rw [← hloop.of_eq_ok hrun]
          exact h
      · next hversion => rw [if_neg hversion, h]
    · cases h

/-- A call that gives up the list makes no NACK. -/
theorem res_of_flushed {enableNackRequestFir : Bool} {p p' : NackProcessor} {o : Tracked}
    {newSeqn : UInt16} {now currentTime : Int} {nackbuf : Mem}
    (h : keepTrackRtpSequenceNumber enableNackRequestFir p newSeqn now currentTime nackbuf =
      some (p', o)) (hflushed : o.flushed = true) : o.res = 0 := by
  simp only [keepTrackRtpSequenceNumber, Option.bind_eq_bind, Option.bind_eq_some_iff] at h
  obtain ⟨cur, -, ⟨r₁, curSeq, curSeqn⟩, -, ⟨r₂, len₁⟩, -, ⟨r₃, len₂, nacks⟩, -, r₄, -, h⟩ := h
  rw [answer] at h
  split at h
  · simp only [Option.bind_eq_bind, Option.bind_eq_some_iff] at h
    obtain ⟨lastSeqs, -, h⟩ := h
    split at h
    · rw [← (Prod.mk.inj (Option.some.inj h)).2]
    · rw [← (Prod.mk.inj (Option.some.inj h)).2]
  · rw [← (Prod.mk.inj (Option.some.inj h)).2] at hflushed
    cases hflushed

/-- A generic NACK has room for the SSRCs that are put into it. -/
theorem longEnough_nackPacket (nacks : List UInt16) : (nackPacket nacks).packet.LongEnough := by
  have htype : (nackPacket nacks).packet.type.toNat = rtcpRtpfb := rfl
  have hrc : (nackPacket nacks).packet.rc = 1 := by
    simp [SubPacket.rc, GenericNack.packet, nackPacket]
  have hsize := (nackPacket nacks).packet.length_encode
  have hwords : (nackPacket nacks).packet.words = (nackPacket nacks).entries.length + 2 := rfl
  rw [SubPacket.LongEnough, htype, hrc]
  show 12 ≤ _
  omega

/-- The SSRCs that `queueData` puts into a NACK do not change what it asks for. -/
theorem getNacks_request {a : FixArgs} {c : Call} (hok : c.Ok) (hflushed : c.flushed = true → c.res = 0)
    {r : Request} (hr : r ∈ request a c) :
    r.call = c ∧ getNacks everywhere r.m r.len = .ok (ascending c.nacks) := by
  rw [request] at hr
  split at hr
  · next hpos =>
    have hkept : c.flushed = false := by
      rcases hf : c.flushed with - | -
      · rfl
      · have hzero := hflushed hf
        omega
    obtain ⟨m, hres⟩ := hok.res hkept
    have hne : c.nacks ≠ [] := by
      intro hnil
      have hzero := congrArg Prod.fst hres
      rw [hnil] at hzero
      change c.res = 0 at hzero
      omega
    have hblocks := hok.length_nackBlocks
    have hspec := janusRtcpNacks_spec m 120 (show c.nacks.reverse ≠ [] by simpa using hne)
    rw [nackBlocks_reverse, if_pos (by omega)] at hspec
    obtain ⟨m', hencode, hholds⟩ := hspec
    rw [rtcpNackCreate, if_neg (by simpa using hne), hencode, Prod.mk.injEq] at hres
    obtain ⟨hlen, hbuf⟩ := hres
    have hasc : ascending c.nacks.reverse = ascending c.nacks := by
      rw [← flatMap_nackBlocks, ← flatMap_nackBlocks, nackBlocks_reverse]
    -- the NACK is a compound packet of one sub-packet
    have hone : encode [(nackPacket c.nacks.reverse).packet] =
        (nackPacket c.nacks.reverse).packet.encode := by simp [encode]
    have hversion : version m' 0 = 2 := by
      rw [Holds.version hholds]
      simp [SubPacket.version, GenericNack.packet, nackPacket]
    have hsize : (encode [(nackPacket c.nacks.reverse).packet]).length = c.res.toNat := by
      have hwords : (nackPacket c.nacks.reverse).packet.words =
          (nackBlocks c.nacks).length + 2 := by
        rw [← nackBlocks_reverse]
        exact congrArg (· + 2) (List.length_map _)
      rw [hone, SubPacket.length_encode, hwords, hlen]
      omega
    have hread := getNacks_of_checked (getNacks_nackPacket hholds).1
    rw [nackBlocks_reverse, hasc] at hread
    have hheaded := headed_of_holds (hone ▸ hholds)
    have hlong : ∀ p ∈ [(nackPacket c.nacks.reverse).packet], p.LongEnough := by
      intro p hp
      rw [List.mem_singleton.mp hp]
      exact longEnough_nackPacket _
    obtain ⟨ctx', hfix⟩ := fixSsrc_eq (a := a) (List.cons_ne_nil _ _) hversion hlong hheaded
      (fun _ => 0) none
    have hkeep := (readers_congr (List.cons_ne_nil _ _) hheaded (kept_fixAll (a := a) hlong hheaded)).1
    rw [hsize] at hfix hkeep
    rw [hbuf, hfix] at hr
    obtain rfl := List.mem_singleton.mp hr
    refine ⟨rfl, ?_⟩
    show getNacks everywhere _ c.res.toNat = _
    rw [hkeep, ← hread, hlen]
    rfl
  · exact absurd hr List.not_mem_nil

/-! ### Events of the receiver -/

section

variable {enableNackRequestFir : Bool} {s s' : NackProcessor × List Call}

theorem tracks_of_step (h : Tracks s) {e : NackTracker.Event}
    (hstep : NackTracker.step enableNackRequestFir s e = some s') : Tracks s' := by
  obtain ⟨s₁, hs₁, htracks⟩ := h.step enableNackRequestFir e
  rw [hs₁] at hstep
  rwa [← Option.some.inj hstep]

/-- The call that an arriving packet makes. -/
theorem track_cases (h : Tracks s) {newSeqn : UInt16} {now currentTime : Int} {nackbuf : Mem}
    (hstep : NackTracker.step enableNackRequestFir s (.track newSeqn now currentTime nackbuf) =
      some s') :
    ∃ c, s'.2 = s.2 ++ [c] ∧ c.Ok ∧ c.newSeqn = newSeqn ∧ c.now = now ∧
      c.before = lastAfter s.2 ∧ (c.flushed = true → c.res = 0) := by
  have htracks := tracks_of_step h hstep
  obtain ⟨l, hring, hl⟩ := h.ring
  simp only [NackTracker.step, hring.toList, Option.bind_eq_bind, Option.bind_some,
    Option.bind_eq_some_iff] at hstep
  obtain ⟨⟨p, o⟩, hkeep, scanned, -, after, -, hs'⟩ := hstep
  obtain rfl := Option.some.inj hs'
  refine ⟨_, rfl, ?_, rfl, rfl, hl, res_of_flushed hkeep⟩
  exact htracks.calls _ (List.mem_append_right _ List.mem_cons_self)

/-- The other events leave the calls alone. -/
theorem calls_of_setter {e : NackTracker.Event}
    (he : ∀ newSeqn now currentTime nackbuf, e ≠ .track newSeqn now currentTime nackbuf)
    (hstep : NackTracker.step enableNackRequestFir s e = some s') : s'.2 = s.2 := by
  cases e with
  | track newSeqn now currentTime nackbuf => exact absurd rfl (he newSeqn now currentTime nackbuf)
  | setLastFirRequest now => rw [← Option.some.inj hstep]
  | setGetFir => rw [← Option.some.inj hstep]
  | sendFirPacket => rw [← Option.some.inj hstep]

end

/-! ### What a run keeps -/

/-- The packets in the order in which they were sent. -/
def Link.sent (s : Link) : List Retransmit.Pushed := s.sender.pushes.reverse

/-- The index and the bytes are those of a packet that was sent. -/
def IsCopy (sent : List Retransmit.Pushed) (c : Copy) : Prop :=
  ∃ p, sent[c.index]? = some p ∧ c.data = p.buf

structure Inv (base : Nat) (s : Link) : Prop where
  counted : Retransmit.Counted s.sender.cache.retransmitList s.sender.pushes s.sender.relays
  numbered : ∀ i p, s.sent[i]? = some p →
    p.seqn = (num base i).toNat ∧ RtpHeader.getSeqNumber p.buf = num base i
  relays : ∀ c ∈ repeated 0 s.sender, IsCopy s.sent c
  copies : ∀ c ∈ s.copies, IsCopy s.sent c
  counts : ∀ k, s.copies.countP (fun c => decide (c.index = k)) =
    (Retransmit.timesOf k s.sender.relays).length + if k < s.sender.pushes.length then 1 else 0
  tracks : Tracks s.receiver
  entries : Sent base s.sender.pushes.length (lastAfter s.receiver.2)
  calls : ∀ c ∈ s.receiver.2, Sent base s.sender.pushes.length c.before
  requests : ∀ r ∈ s.requests, r.call ∈ s.receiver.2 ∧
    getNacks everywhere r.m r.len = .ok (ascending r.call.nacks)

theorem inv_start (base : Nat) : Inv base {} where
  counted := Retransmit.Counted.init
  numbered i p h := by simp [Link.sent] at h
  relays c hc := by simp [repeated] at hc
  copies c hc := absurd hc List.not_mem_nil
  counts k := rfl
  tracks := ⟨⟨[], CircList.isRing_empty, rfl⟩, shape_nil, fun c hc => absurd hc List.not_mem_nil,
    List.IsChain.nil⟩
  entries := sent_nil
  calls c hc := absurd hc List.not_mem_nil
  requests r hr := absurd hr List.not_mem_nil

section

variable {clock : Nat → Int} {enableNackRequestFir : Bool} {a : FixArgs} {base : Nat} {s s' : Link}

theorem IsCopy.concat {sent : List Retransmit.Pushed} {c : Copy} (h : IsCopy sent c)
    (p : Retransmit.Pushed) : IsCopy (sent ++ [p]) c := by
  obtain ⟨q, hq, hdata⟩ := h
  exact ⟨q, getElem?_concat.mpr (Or.inl hq), hdata⟩

/-- The number of a packet is at the same place in its bytes. -/
theorem getSeqNumber_pushed {m : Mem} {len : Nat} (hlen : 4 ≤ len) {q : UInt16}
    (h : m.getBe 2 2 = q.toNat) : RtpHeader.getSeqNumber ((List.range len).map m) = q := by
  rw [RtpHeader.getSeqNumber, RtpHeader.byte_map_range m (by omega),
    RtpHeader.byte_map_range m (by omega)]
  have hnum : (m 2).toNat * 256 + (m 3).toNat = q.toNat := by
    change 256 * (256 * 0 + (m 2).toNat) + (m 3).toNat = q.toNat at h
    omega
  rw [hnum]
  exact UInt16.ofNat_toNat

theorem Inv.send (h : Inv base s) {m : Mem} {len : Nat} (he : Regular base s (.send m len))
    (hstep : step clock enableNackRequestFir a s (.send m len) = some s') : Inv base s' := by
  obtain rfl := Option.some.inj hstep
  obtain ⟨hlen, hnum⟩ := he
  have hlength : s.sent.length = s.sender.pushes.length := List.length_reverse
  have hsent : (⟨m.getBe 2 2, (List.range len).map m⟩ :: s.sender.pushes).reverse =
      s.sent ++ [⟨m.getBe 2 2, (List.range len).map m⟩] := List.reverse_cons
  refine ⟨?_, ?_, ?_, ?_, ?_, h.tracks, ?_, ?_, h.requests⟩
  · exact h.counted.push _ _ _
  · intro i p hp
    change (_ :: s.sender.pushes).reverse[i]? = some p at hp
    rw [hsent] at hp
    rcases getElem?_concat.mp hp with hp | ⟨rfl, rfl⟩
    · exact h.numbered i p hp
    · rw [hlength]
      exact ⟨hnum, getSeqNumber_pushed hlen hnum⟩
  · intro c hc
    show IsCopy (_ :: s.sender.pushes).reverse c
    rw [hsent]
    exact (h.relays c hc).concat _
  · intro c hc
    show IsCopy (_ :: s.sender.pushes).reverse c
    rw [hsent]
    rcases List.mem_append.mp hc with hc | hc
    · exact (h.copies c hc).concat _
    · rw [List.mem_singleton.mp hc]
      refine ⟨⟨m.getBe 2 2, (List.range len).map m⟩, ?_, rfl⟩
      rw [← hlength]
      exact List.getElem?_concat_length
  · intro k
    show (s.copies ++ [_]).countP _ = (Retransmit.timesOf k s.sender.relays).length +
      if k < s.sender.pushes.length + 1 then 1 else 0
    rw [List.countP_append, h.counts k, List.countP_singleton]
    by_cases hk : s.sender.pushes.length = k
    · simp [hk]
    · have hiff : k < s.sender.pushes.length + 1 ↔ k < s.sender.pushes.length := by omega
      simp [hk, hiff]
  · exact h.entries.mono (Nat.le_succ _)
  · exact fun c hc => (h.calls c hc).mono (Nat.le_succ _)

/-- What arrives at the receiver is the number of a packet that was sent. -/
theorem Inv.copy_num (h : Inv base s) {c : Copy} (hc : c ∈ s.copies) :
    c.index < s.sender.pushes.length ∧ RtpHeader.getSeqNumber c.data = num base c.index := by
  obtain ⟨p, hp, hdata⟩ := h.copies c hc
  have hlt := (List.getElem?_eq_some_iff.mp hp).1
  rw [Link.sent, List.length_reverse] at hlt
  rw [hdata]
  exact ⟨hlt, (h.numbered _ _ hp).2⟩

theorem Inv.deliver (h : Inv base s) {i : Nat} {now currentTime : Int} {nackbuf : Mem}
    (he : Regular base s (.deliver i now currentTime nackbuf))
    (hstep : step clock enableNackRequestFir a s (.deliver i now currentTime nackbuf) = some s') :
    Inv base s' := by
  rw [step] at hstep
  split at hstep
  · rw [← Option.some.inj hstep]
    exact h
  · next p hp =>
    obtain ⟨receiver, htrack, hs'⟩ := Option.bind_eq_some_iff.mp hstep
    obtain rfl := Option.some.inj hs'
    obtain ⟨c, hcalls, hok, hnew, hnow, hbefore, hflushed⟩ := track_cases h.tracks htrack
    obtain ⟨hindex, hnum⟩ := h.copy_num (List.mem_of_getElem? hp)
    have hfresh : s.sender.pushes.length ≤ p.index + 2 ^ 15 := he p hp
    have hentries := h.entries
    rw [← hbefore] at hentries
    refine ⟨h.counted, h.numbered, h.relays, h.copies, h.counts, tracks_of_step h.tracks htrack,
      ?_, ?_, ?_⟩
    · show Sent base s.sender.pushes.length (lastAfter receiver.2)
      rw [hcalls, lastAfter_concat, hok.after, hok.scanned, hnew, hnum]
      split
      · exact sent_nil
      · exact (hentries.scanned hindex hfresh c.now).drop _
    · intro d hd
      change d ∈ receiver.2 at hd
      rw [hcalls] at hd
      rcases List.mem_append.mp hd with hd | hd
      · exact h.calls d hd
      · rw [List.mem_singleton.mp hd]
        exact hentries
    · intro r hr
      show r.call ∈ receiver.2 ∧ _
      rw [hcalls]
      rcases List.mem_append.mp hr with hr | hr
      · exact ⟨List.mem_append_left _ (h.requests r hr).1, (h.requests r hr).2⟩
      · rw [hcalls, List.getLast?_concat] at hr
        have hr' : r ∈ request a c := by simpa using hr
        obtain ⟨hcall, hread⟩ := getNacks_request hok hflushed hr'
        rw [hcall]
        exact ⟨List.mem_append_right _ List.mem_cons_self, hread⟩

theorem Inv.answer (hclock : ∀ i j, i ≤ j → clock i ≤ clock j) (h : Inv base s) {i : Nat}
    (hstep : step clock enableNackRequestFir a s (.answer i) = some s') : Inv base s' := by
  rw [step] at hstep
  split at hstep
  · rw [← Option.some.inj hstep]
    exact h
  · next r hr =>
    obtain rfl := Option.some.inj hstep
    obtain ⟨asked, -, hcalled⟩ := Retransmit.called_processRtcpNackPackets hclock h.counted r.m r.len
    have hpushed := fun l => hcalled.exists_pushed (l := l)
    generalize hp : Retransmit.processRtcpNackPackets clock s.sender.cache r.m r.len = p
      at hcalled hpushed
    generalize hlog : p.relays.map (Retransmit.Relay.log s.sender.pushes.length) = logged
      at hpushed
    have hcopies : ∀ c ∈ logged.map fun l => (⟨l.index, l.data⟩ : Copy), IsCopy s.sent c := by
      intro c hc
      obtain ⟨l, hl, rfl⟩ := List.mem_map.mp hc
      exact hpushed l hl
    have hsender : Retransmit.step clock s.sender (.nacks r.m r.len) =
        ⟨p.cache, s.sender.pushes, s.sender.relays ++ logged⟩ := by
      rw [Retransmit.step, hp, hlog]
    have hcounted := hcalled.counted
    rw [hlog] at hcounted
    have hnew : repeated s.sender.relays.length
        ⟨p.cache, s.sender.pushes, s.sender.relays ++ logged⟩ =
          logged.map fun l => ⟨l.index, l.data⟩ := by
      rw [repeated, List.drop_left]
    rw [hsender]
    refine ⟨hcounted, h.numbered, ?_, ?_, ?_, h.tracks, h.entries, h.calls, h.requests⟩
    · intro c hc
      change c ∈ ((s.sender.relays ++ logged).drop 0).map _ at hc
      rw [List.drop_zero, List.map_append] at hc
      rcases List.mem_append.mp hc with hc | hc
      · exact h.relays c hc
      · exact hcopies c hc
    · intro c hc
      change c ∈ s.copies ++ repeated _ _ at hc
      rw [hnew] at hc
      rcases List.mem_append.mp hc with hc | hc
      · exact h.copies c hc
      · exact hcopies c hc
    · intro k
      show (s.copies ++ repeated _ _).countP _ =
        (Retransmit.timesOf k (s.sender.relays ++ logged)).length + _
      rw [hnew, List.countP_append, h.counts k, Retransmit.length_timesOf, Retransmit.length_timesOf, List.countP_append,
        List.countP_map]
      show _ = _ + if k < s.sender.pushes.length then 1 else 0
      rw [Nat.add_right_comm]
      rfl

theorem Inv.atReceiver (h : Inv base s) {e : NackTracker.Event}
    (he : ∀ newSeqn now currentTime nackbuf, e ≠ .track newSeqn now currentTime nackbuf)
    (hstep : s.atReceiver enableNackRequestFir e = some s') : Inv base s' := by
  obtain ⟨receiver, htrack, hs'⟩ := Option.bind_eq_some_iff.mp hstep
  obtain rfl := Option.some.inj hs'
  have hcalls := calls_of_setter he htrack
  refine ⟨h.counted, h.numbered, h.relays, h.copies, h.counts, tracks_of_step h.tracks htrack,
    ?_, ?_, ?_⟩
  · show Sent base s.sender.pushes.length (lastAfter receiver.2)
    rw [hcalls]
    exact h.entries
  · intro c hc
    change c ∈ receiver.2 at hc
    rw [hcalls] at hc
    exact h.calls c hc
  · intro r hr
    show r.call ∈ receiver.2 ∧ _
    rw [hcalls]
    exact h.requests r hr

theorem Inv.step (hclock : ∀ i j, i ≤ j → clock i ≤ clock j) (h : Inv base s) {e : Event}
    (he : Regular base s e)
    (hstep : NackRecovery.step clock enableNackRequestFir a s e = some s') : Inv base s' := by
  cases e with
  | send m len => exact h.send he hstep
  | deliver i now currentTime nackbuf => exact h.deliver he hstep
  | answer i => exact h.answer hclock hstep
  | setLastFirRequest now => exact h.atReceiver (by simp) hstep
  | setGetFir => exact h.atReceiver (by simp) hstep
  | sendFirPacket => exact h.atReceiver (by simp) hstep

theorem inv_of_reachable (hclock : ∀ i j, i ≤ j → clock i ≤ clock j)
    (hs : Reachable clock enableNackRequestFir a base s) : Inv base s := by
  induction hs with
  | start => exact inv_start base
  | tail hs he hstep ih => exact ih.step hclock he hstep

variable (clock enableNackRequestFir a) in
/-- No event fails. -/
theorem Inv.exists_step (h : Inv base s) (e : Event) :
    ∃ s', NackRecovery.step clock enableNackRequestFir a s e = some s' := by
  have hreceiver : ∀ e, ∃ s', s.atReceiver enableNackRequestFir e = some s' := by
    intro e
    obtain ⟨receiver, htrack, -⟩ := h.tracks.step enableNackRequestFir e
    exact ⟨_, by rw [Link.atReceiver, htrack]; rfl⟩
  cases e with
  | send m len => exact ⟨_, rfl⟩
  | deliver i now currentTime nackbuf =>
    rw [NackRecovery.step]
    split
    · exact ⟨_, rfl⟩
    · next p hp =>
      obtain ⟨receiver, htrack, -⟩ := h.tracks.step enableNackRequestFir
        (.track (RtpHeader.getSeqNumber p.data) now currentTime nackbuf)
      exact ⟨_, by rw [htrack]; rfl⟩
  | answer i =>
    rw [NackRecovery.step]
    split
    · exact ⟨_, rfl⟩
    · exact ⟨_, rfl⟩
  | setLastFirRequest now => exact hreceiver _
  | setGetFir => exact hreceiver _
  | sendFirPacket => exact hreceiver _

end

/-! ### Answers -/

section

variable {clock : Nat → Int} {list : List Retransmit.RtpRetransmitPacket}
  {pushes : List Retransmit.Pushed} {relays : List Retransmit.Logged} {seqn depth : Nat}

/-- The packet at `depth` is the last one with the number that was pushed, and still in the
cache. -/
structure InCache (pushes : List Retransmit.Pushed) (seqn depth : Nat) : Prop where
  cached : depth < Retransmit.maxRetransmitQueueSize
  lt : depth < pushes.length
  seqn_eq : ∀ p, pushes[depth]? = some p → p.seqn = seqn
  before : ∀ d < depth, ∀ p, pushes[d]? = some p → p.seqn ≠ seqn

theorem InCache.newest (h : InCache pushes seqn depth) (hc : Retransmit.Counted list pushes relays) :
    ∃ rp, Retransmit.Newest list seqn depth rp := by
  have hlen := hc.length_list
  have hlt : depth < list.length := by
    have hcached := h.cached
    have hpushed := h.lt
    omega
  refine ⟨list[depth], List.getElem?_eq_getElem hlt, ?_, ?_⟩
  · exact h.seqn_eq _ (hc.pushed (List.getElem?_eq_getElem hlt)).2
  · exact fun d hd rp hrp => h.before d hd _ (hc.pushed hrp).2

variable {log : Retransmit.Log}

end

section

variable {clock : Nat → Int} {enableNackRequestFir : Bool} {a : FixArgs} {base : Nat} {s : Link}

/-- A packet of a stream that starts at 65535. -/
def packetOf (n : Nat) : Mem := Mem.putBe (fun _ => 0) 2 2 (65535 + n)

/-- The packets 65535, 0 and 1 are sent, 0 is lost, and 1 arrives twice. -/
def lost : Option Link :=
  run (fun n => 20 * n) false ⟨true, 7, 9⟩ 65535
    [.send (packetOf 0) 4, .send (packetOf 1) 4, .send (packetOf 2) 4,
      .deliver 0 0 0 fun _ => 0, .deliver 2 10 0 fun _ => 0, .deliver 2 20000 0 fun _ => 0]

theorem lost_requests : ∃ s r, lost = some s ∧ s.sender.pushes.length = 3 ∧
    s.requests[0]? = some r ∧ r.call.before.map SeqInfo.seq = [65535, 0, 1] ∧
      r.call.nacks = [0] := by
  have hlost : lost.map (fun s => (s.sender.pushes.length, s.requests.map fun r =>
      (r.call.before.map SeqInfo.seq, r.call.nacks))) = some (3, [([65535, 0, 1], [0])]) := by
    decide +kernel
  rcases hs : lost with - | s
  · rw [hs] at hlost
    cases hlost
  · rw [hs, Option.map_some] at hlost
    obtain ⟨hlen, hrequests⟩ := Prod.mk.inj (Option.some.inj hlost)
    obtain ⟨r, rest, hr, hcall, -⟩ := List.map_eq_cons_iff.mp hrequests
    obtain ⟨hbefore, hnacks⟩ := Prod.mk.inj hcall
    exact ⟨s, r, rfl, hlen, by rw [hr]; rfl, hbefore, hnacks⟩

theorem lost_clock (i j : Nat) (h : i ≤ j) : ((20 * i : Nat) : Int) ≤ ((20 * j : Nat) : Int) := by
  omega

/-- Whatever the network does: no event fails, a NACK is read as its call made it, and what it
asks for was sent. -/
theorem asks_only_for_sent (hclock : ∀ i j, i ≤ j → clock i ≤ clock j)
    (hs : Reachable clock enableNackRequestFir a base s) :
    (∀ e, ∃ s', step clock enableNackRequestFir a s e = some s') ∧
      ∀ r ∈ s.requests, getNacks everywhere r.m r.len = .ok (ascending r.call.nacks) ∧
        ∀ q ∈ r.call.nacks, ∃ k < s.sender.pushes.length, q = num base k := by
  have hinv := inv_of_reachable hclock hs
  refine ⟨hinv.exists_step clock enableNackRequestFir a, ?_⟩
  intro r hr
  obtain ⟨hcall, hread⟩ := hinv.requests r hr
  refine ⟨hread, ?_⟩
  intro q hq
  obtain ⟨e, he, -, rfl⟩ := (hinv.tracks.calls _ hcall).mem_nacks.mp hq
  exact (hinv.calls _ hcall).exists_index (List.mem_map_of_mem (mem_of_mem_kept he))

theorem asks_only_for_sent_lost : ∃ s r, lost = some s ∧ r ∈ s.requests ∧ r.call.nacks = [0] ∧
    ∃ k < s.sender.pushes.length, 0 = num 65535 k := by
  obtain ⟨s, r, hs, -, hr, -, hnacks⟩ := lost_requests
  have hmem := List.mem_of_getElem? hr
  refine ⟨s, r, hs, hmem, hnacks, ?_⟩
  apply ((asks_only_for_sent lost_clock (reachable_run _ hs)).2 r hmem).2
  rw [hnacks]
  exact List.mem_cons_self

/-- Whatever the network does: what arrives has the bytes of the packet that was sent, and a
packet is put on the network once and at most five times more. -/
theorem copies_of_sent (hclock : ∀ i j, i ≤ j → clock i ≤ clock j)
    (hs : Reachable clock enableNackRequestFir a base s) :
    (∀ c ∈ s.copies, ∃ p, s.sent[c.index]? = some p ∧ c.data = p.buf) ∧
      ∀ k < s.sender.pushes.length, 1 ≤ s.copies.countP (fun c => decide (c.index = k)) ∧
        s.copies.countP (fun c => decide (c.index = k)) ≤ 6 := by
  have hinv := inv_of_reachable hclock hs
  refine ⟨hinv.copies, ?_⟩
  intro k hk
  have hbounded := (hinv.counted.bounded k).1
  rw [hinv.counts k, if_pos hk]
  omega

theorem copies_of_sent_lost : ∃ s, lost = some s ∧
    1 ≤ s.copies.countP (fun c => decide (c.index = 2)) ∧
      s.copies.countP (fun c => decide (c.index = 2)) ≤ 6 := by
  obtain ⟨s, -, hs, hlen, -⟩ := lost_requests
  refine ⟨s, hs, ?_⟩
  apply (copies_of_sent lost_clock (reachable_run _ hs)).2
  omega

end

end Orbit.NackRecovery
