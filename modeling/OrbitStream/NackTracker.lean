/-
OrbitStream/NackTracker.lean

`NackProcessor::KeepTrackRtpSequenceNumber` (`rtp/nack_processor.cc`) and the functions on
`seq_info_t` lists that it calls (`rtp/janus_rtcp_processor.cc`): the sequence numbers that
arrive are kept in a circular list, with an entry for every number that is missing, and the
missing ones are put on a NACK.

The model works on the list in the heap (`Lib.CircList`), and is `none` when a pointer that
does not point to a node is followed.  `keepTrack_spec` says what a call does in terms of
the entries from the head to the tail: they are kept or given up after a jump (`kept`), those
kept are visited (`visit`), the gap up to the new number is added (`added`), and the oldest
ones are dropped.  The list is a stretch of consecutive numbers after every run
(`run_shape`).
-/
import Mathlib.Data.List.Chain
import OrbitStream.Lib.CircList
import OrbitStream.Lib.Serial
import OrbitStream.RtcpNacks

namespace Orbit.NackTracker

open Lib Janus

/-! ### The list -/

inductive SeqState
  | missing
  | nacked
  | giveup
  | recved
  deriving DecidableEq, Repr

/-- `seq_info_t` without its links. -/
structure SeqInfo where
  ts : Int
  seq : UInt16
  state : SeqState
  times : Nat
  deriving DecidableEq, Repr

/-- `LAST_SEQS_MAX_LEN` -/
abbrev lastSeqsMaxLen : Nat := 160

/-- `MAX_TIMES_OF_RESEND` -/
abbrev maxTimesOfResend : Nat := 10

/-- `SEQ_MISSING_WAIT`, in microseconds. -/
abbrev seqMissingWait : Int := 12000

/-- `SEQ_NACKED_WAIT`, in microseconds. -/
abbrev seqNackedWait : Int := 155000

/-- `KEY_FRAME_INTERVAL`, in milliseconds. -/
abbrev keyFrameInterval : Int := 3000

/-- `RETRANSMIT_PACKETS_LIMIT` -/
abbrev retransmitPacketsLimit : Nat := 100

/-- `janus_seq_append`. -/
def janusSeqAppend (head : CircList SeqInfo) (newSeq : Nat) : Option (CircList SeqInfo) :=
  head.append newSeq

/-- `janus_seq_pop_head`. -/
def janusSeqPopHead (head : CircList SeqInfo) : Option (CircList SeqInfo × Nat) := head.popHead

/-- `janus_seq_list_free`. -/
def janusSeqListFree (head : CircList SeqInfo) : Option (CircList SeqInfo) := head.clear

/-- `janus_seq_in_range`. -/
def janusSeqInRange (seqn start : UInt16) (len : Nat) : Bool :=
  let n := seqn.toNat
  let nh := 2 ^ 16 + n
  let s := start.toNat
  let e := s + len
  decide ((s ≤ n ∧ n < e) ∨ (s ≤ nh ∧ nh < e))

/-! ### `KeepTrackRtpSequenceNumber` -/

/-- The last entry and its number; for an empty list the number before the new one. -/
def curSeqOf (lastSeqs : CircList SeqInfo) (newSeqn : UInt16) : Option (Nat × UInt16) :=
  if lastSeqs.head = 0 then some (0, newSeqn - 1)
  else do
    let head ← lastSeqs.heap lastSeqs.head
    let cur ← lastSeqs.heap head.prev
    some (head.prev, cur.val.seq)

/-- After a jump that is too big the list starts fresh. -/
def startFresh (lastSeqs : CircList SeqInfo) (newSeqn : UInt16) (cur : Nat × UInt16) :
    Option (CircList SeqInfo × Nat × UInt16) :=
  if janusSeqInRange newSeqn cur.2 lastSeqsMaxLen = false ∧
      janusSeqInRange cur.2 newSeqn 1000 = false then do
    let lastSeqs ← janusSeqListFree lastSeqs
    some (lastSeqs, 0, newSeqn - 1)
  else some (lastSeqs, cur)

/-- A step from a number to the one after it, on the way to `new`. -/
theorem ahead_succ {new cur : UInt16} (h : cur ≠ new) : ahead new cur = ahead new (cur + 1) + 1 := by
  have hne : cur.toNat ≠ new.toNat := fun heq => h (UInt16.toNat_inj.mp heq)
  have hnew := new.toNat_lt
  have hcur := cur.toNat_lt
  rw [ahead_eq, ahead_eq, UInt16.toNat_add]
  simp only [UInt16.toNat_one]
  omega

/-- The loop that adds entries up to the new number; `lastSeqsLen` counts them. -/
def addForward (newSeqn : UInt16) (now : Int) (curSeqn : UInt16) (lastSeqs : CircList SeqInfo)
    (lastSeqsLen : Nat) : Option (CircList SeqInfo × Nat) :=
  if curSeqn = newSeqn then some (lastSeqs, lastSeqsLen)
  else do
    let state := if curSeqn + 1 = newSeqn then SeqState.recved else SeqState.missing
    let (lastSeqs, seqObj) := lastSeqs.alloc ⟨now, curSeqn + 1, state, 0⟩
    let lastSeqs ← janusSeqAppend lastSeqs seqObj
    addForward newSeqn now (curSeqn + 1) lastSeqs (lastSeqsLen + 1)
termination_by ahead newSeqn curSeqn
decreasing_by
  have hstep := ahead_succ ‹¬ curSeqn = newSeqn›
  omega

/-- New entries are added when the new number is not an old one. -/
def addNew (newSeqn : UInt16) (now : Int) (curSeqn : UInt16) (lastSeqs : CircList SeqInfo) :
    Option (CircList SeqInfo × Nat) :=
  if janusSeqInRange newSeqn curSeqn lastSeqsMaxLen then addForward newSeqn now curSeqn lastSeqs 0
  else some (lastSeqs, 0)

/-- The body of the loop over the old entries: `last_seqs_len` and `nacks`, and the entry. -/
def scanSeq (newSeqn : UInt16) (now : Int) (cur : SeqInfo) (s : Nat × List UInt16) :
    (Nat × List UInt16) × SeqInfo :=
  if cur.seq = newSeqn then ((s.1 + 1, s.2), { cur with state := .recved })
  else if cur.state = .missing ∧ now - cur.ts > seqMissingWait then
    ((s.1 + 1, s.2 ++ [cur.seq]), { cur with state := .nacked, ts := now, times := cur.times + 1 })
  else if cur.state = .nacked ∧ now - cur.ts > seqNackedWait ∧ cur.times ≤ maxTimesOfResend then
    ((s.1 + 1, s.2 ++ [cur.seq]),
      { cur with
        ts := now
        times := cur.times + 1
        state := if cur.times + 1 > maxTimesOfResend then .giveup else cur.state })
  else ((s.1 + 1, s.2), cur)

/-- The loop over the old entries, backwards from `curSeq`. -/
def scanBack (newSeqn : UInt16) (now : Int) (curSeq : Nat) (lastSeqs : CircList SeqInfo)
    (lastSeqsLen : Nat) : Option (CircList SeqInfo × Nat × List UInt16) :=
  if curSeq ≠ 0 then
    CircList.walkBack (scanSeq newSeqn now) lastSeqs.fresh lastSeqs curSeq (lastSeqsLen, [])
  else some (lastSeqs, lastSeqsLen, [])

/-- Entries are deleted from the head while there are too many. -/
def trim : Nat → CircList SeqInfo → Option (CircList SeqInfo)
  | 0, lastSeqs => some lastSeqs
  | lastSeqsLen + 1, lastSeqs =>
    if lastSeqsLen + 1 > lastSeqsMaxLen then do
      let (lastSeqs, node) ← janusSeqPopHead lastSeqs
      let lastSeqs ← lastSeqs.free node
      trim lastSeqsLen lastSeqs
    else some lastSeqs

/-- The fields of `NackProcessor` for the packets that arrive. -/
structure NackProcessor where
  lastSeqsVideo : CircList SeqInfo := {}
  firSeq : Int := 0
  getFir : Bool := true
  lastFirRequest : Int := 0

/-- `SendFirPacket`, with the packets it relays. -/
def NackProcessor.sendFirPacket (p : NackProcessor) : NackProcessor × List DataPacket :=
  -- the buffer is shared: the first 12 bytes are cleared again for the PLI
  let fir := janusRtcpFir (fun _ => 0) 20 p.firSeq
  let pli := janusRtcpPli (fun a => if a < 12 then 0 else fir.2.1 a) 12
  ({ p with firSeq := fir.2.2 },
    [⟨0, fir.1, .video, (List.range fir.1.toNat).map fir.2.1⟩,
      ⟨0, pli.1, .video, (List.range pli.1.toNat).map pli.2⟩])

/-- What a call computes beside the new fields: its result and `nackbuf`, the numbers in
`nacks`, the list as the scan leaves it, whether the list was given up for a key frame, and
the packets relayed. -/
structure Tracked where
  res : Int
  nackbuf : Mem
  nacks : List UInt16
  scanned : CircList SeqInfo
  flushed : Bool
  sent : List DataPacket

/-- The end of the call: a NACK, or a request for a key frame. -/
def answer (enableNackRequestFir : Bool) (p : NackProcessor) (currentTime : Int) (nackbuf : Mem)
    (nacks : List UInt16) (scanned : CircList SeqInfo) : Option (NackProcessor × Tracked) :=
  if nacks.length > retransmitPacketsLimit ∧ currentTime - p.lastFirRequest ≥ keyFrameInterval then do
    let lastSeqs ← janusSeqListFree p.lastSeqsVideo
    let p := { p with lastSeqsVideo := lastSeqs }
    if enableNackRequestFir then
      let (p, sent) := p.sendFirPacket
      some ({ p with lastFirRequest := currentTime, getFir := false },
        ⟨0, nackbuf, nacks, scanned, true, sent⟩)
    else some (p, ⟨0, nackbuf, nacks, scanned, true, []⟩)
  else
    let (nackbufSize, nackbuf) := rtcpNackCreate nackbuf nacks
    some (p, ⟨nackbufSize, nackbuf, nacks, scanned, false, []⟩)

/-- `KeepTrackRtpSequenceNumber`; `now` is the monotonic time, `currentTime` is
`getTimeMS`. -/
def keepTrackRtpSequenceNumber (enableNackRequestFir : Bool) (p : NackProcessor)
    (newSeqn : UInt16) (now currentTime : Int) (nackbuf : Mem) :
    Option (NackProcessor × Tracked) := do
  let cur ← curSeqOf p.lastSeqsVideo newSeqn
  let (lastSeqs, curSeq, curSeqn) ← startFresh p.lastSeqsVideo newSeqn cur
  let (lastSeqs, lastSeqsLen) ← addNew newSeqn now curSeqn lastSeqs
  let (scanned, lastSeqsLen, nacks) ← scanBack newSeqn now curSeq lastSeqs lastSeqsLen
  -- the length counts the entries that were added and those that were visited
  let lastSeqs ← trim lastSeqsLen scanned
  answer enableNackRequestFir { p with lastSeqsVideo := lastSeqs } currentTime nackbuf nacks scanned

/-! ### Runs -/

/-- A call: the entries from the head to the tail before it, as the scan leaves them and
after it, and what the call computes. -/
structure Call where
  before : List SeqInfo
  newSeqn : UInt16
  now : Int
  nacks : List UInt16
  scanned : List SeqInfo
  after : List SeqInfo
  flushed : Bool
  res : Int
  nackbuf : Mem

inductive Event
  | track (newSeqn : UInt16) (now currentTime : Int) (nackbuf : Mem)
  | setLastFirRequest (now : Int)
  | setGetFir
  | sendFirPacket

def step (enableNackRequestFir : Bool) (s : NackProcessor × List Call) :
    Event → Option (NackProcessor × List Call)
  | .track newSeqn now currentTime nackbuf => do
    let before ← s.1.lastSeqsVideo.toList
    let (p, o) ← keepTrackRtpSequenceNumber enableNackRequestFir s.1 newSeqn now currentTime nackbuf
    let scanned ← o.scanned.toList
    let after ← p.lastSeqsVideo.toList
    some (p, s.2 ++ [⟨before, newSeqn, now, o.nacks, scanned, after, o.flushed, o.res, o.nackbuf⟩])
  | .setLastFirRequest now => some ({ s.1 with lastFirRequest := now }, s.2)
  | .setGetFir => some ({ s.1 with getFir := true }, s.2)
  | .sendFirPacket => some (s.1.sendFirPacket.1, s.2)

/-- A run from the start, with the calls in their order. -/
def run (enableNackRequestFir : Bool) (events : List Event) : Option (NackProcessor × List Call) :=
  events.foldlM (step enableNackRequestFir) ({}, [])

/-! ### The entries -/

/-- `n` consecutive numbers from `base` on. -/
def numbers (base : UInt16) (n : Nat) : List UInt16 :=
  (List.range n).map fun i => base + UInt16.ofNat i

theorem length_numbers (base : UInt16) (n : Nat) : (numbers base n).length = n := by
  simp [numbers]

theorem numbers_succ (base : UInt16) (n : Nat) :
    numbers base (n + 1) = base :: numbers (base + 1) n := by
  rw [numbers, numbers, List.range_succ_eq_map, List.map_cons, List.map_map]
  congr 1
  · simp
  · apply List.map_congr_left
    intro i _
    apply UInt16.toNat_inj.mp
    simp only [Function.comp, UInt16.toNat_add, UInt16.toNat_ofNat', UInt16.toNat_one]
    omega

theorem numbers_add (base : UInt16) (m n : Nat) :
    numbers base (m + n) = numbers base m ++ numbers (base + UInt16.ofNat m) n := by
  induction m generalizing base with
  | zero => simp [numbers]
  | succ m ih =>
    rw [Nat.succ_add, numbers_succ, numbers_succ, ih, List.cons_append]
    congr 3
    apply UInt16.toNat_inj.mp
    simp only [UInt16.toNat_add, UInt16.toNat_ofNat', UInt16.toNat_one]
    omega

theorem mem_numbers {base q : UInt16} {n : Nat} (hn : n ≤ 2 ^ 16) :
    q ∈ numbers base n ↔ ahead q base < n := by
  have hq := q.toNat_lt
  have hb := base.toNat_lt
  rw [numbers, List.mem_map, ahead_eq]
  constructor
  · rintro ⟨i, hi, rfl⟩
    have hlt := List.mem_range.mp hi
    rw [UInt16.toNat_add, UInt16.toNat_ofNat']
    omega
  · intro hlt
    refine ⟨_, List.mem_range.mpr hlt, ?_⟩
    apply UInt16.toNat_inj.mp
    rw [UInt16.toNat_add, UInt16.toNat_ofNat']
    omega

theorem nodup_numbers (base : UInt16) {n : Nat} (hn : n ≤ 2 ^ 16) : (numbers base n).Nodup := by
  apply List.Nodup.map_on ?_ List.nodup_range
  intro i hi j hj heq
  have hlti := List.mem_range.mp hi
  have hltj := List.mem_range.mp hj
  have hnat := congrArg UInt16.toNat heq
  simp only [UInt16.toNat_add, UInt16.toNat_ofNat'] at hnat
  have hb := base.toNat_lt
  omega

theorem isChain_numbers (base : UInt16) (n : Nat) :
    (numbers base n).IsChain fun a b => b = a + 1 := by
  induction n generalizing base with
  | zero => exact List.IsChain.nil
  | succ n ih =>
    rw [numbers_succ]
    rcases n with - | n
    · exact List.IsChain.singleton base
    · have hrest := ih (base + 1)
      rw [numbers_succ] at hrest ⊢
      exact List.IsChain.cons_cons rfl hrest

theorem inRange_iff {seqn start : UInt16} {len : Nat} (hlen : len ≤ 2 ^ 16) :
    janusSeqInRange seqn start len = true ↔ ahead seqn start < len := by
  have hseqn := seqn.toNat_lt
  have hstart := start.toNat_lt
  rw [janusSeqInRange, decide_eq_true_iff, ahead_eq]
  omega

/-- The number the new one is compared with. -/
def curSeqn (l : List SeqInfo) (newSeqn : UInt16) : UInt16 :=
  (l.getLast?.map SeqInfo.seq).getD (newSeqn - 1)

/-- The new number is far from the last one, on both sides. -/
def Jump (l : List SeqInfo) (newSeqn : UInt16) : Prop :=
  lastSeqsMaxLen ≤ ahead newSeqn (curSeqn l newSeqn) ∧ 1000 ≤ ahead (curSeqn l newSeqn) newSeqn

instance (l : List SeqInfo) (newSeqn : UInt16) : Decidable (Jump l newSeqn) :=
  inferInstanceAs (Decidable (_ ∧ _))

/-- The old entries. -/
def kept (l : List SeqInfo) (newSeqn : UInt16) : List SeqInfo :=
  if Jump l newSeqn then [] else l

/-- The entries behind `cur`, up to the new number. -/
def gap (newSeqn : UInt16) (now : Int) (cur : UInt16) : List SeqInfo :=
  (numbers (cur + 1) (ahead newSeqn cur)).map fun q =>
    ⟨now, q, if q = newSeqn then .recved else .missing, 0⟩

/-- The new entries. -/
def added (l : List SeqInfo) (newSeqn : UInt16) (now : Int) : List SeqInfo :=
  if ahead newSeqn (curSeqn (kept l newSeqn) newSeqn) < lastSeqsMaxLen then
    gap newSeqn now (curSeqn (kept l newSeqn) newSeqn)
  else []

/-- An old entry after the scan. -/
def visit (newSeqn : UInt16) (now : Int) (e : SeqInfo) : SeqInfo :=
  (scanSeq newSeqn now e (0, [])).2

/-- The scan puts the entry on the NACK. -/
def due (newSeqn : UInt16) (now : Int) (e : SeqInfo) : Bool :=
  decide ((scanSeq newSeqn now e (0, [])).1.2 ≠ [])

/-- The numbers for the NACK, from the tail to the head. -/
def nackList (l : List SeqInfo) (newSeqn : UInt16) (now : Int) : List UInt16 :=
  ((kept l newSeqn).reverse.filter (due newSeqn now)).map SeqInfo.seq

/-- The entries as the scan leaves them. -/
def scanned (l : List SeqInfo) (newSeqn : UInt16) (now : Int) : List SeqInfo :=
  (kept l newSeqn).map (visit newSeqn now) ++ added l newSeqn now

/-- At most 160 entries stay, the newest ones. -/
def trimmed (l : List SeqInfo) : List SeqInfo := l.drop (l.length - lastSeqsMaxLen)

/-! ### The list in the heap follows the entries -/

section

variable {r : CircList SeqInfo} {l : List (Nat × SeqInfo)} {newSeqn : UInt16} {now : Int}

theorem scanSeq_eq (newSeqn : UInt16) (now : Int) (e : SeqInfo) (s : Nat × List UInt16) :
    scanSeq newSeqn now e s =
      ((s.1 + 1, s.2 ++ if due newSeqn now e then [e.seq] else []), visit newSeqn now e) := by
  rw [due, visit]
  unfold scanSeq
  split
  · simp
  · split
    · simp
    · split
      · simp
      · simp

theorem mapAccumr_scanSeq (l : List (Nat × SeqInfo)) (s : Nat × List UInt16) :
    l.mapAccumr (CircList.onVal (scanSeq newSeqn now)) s =
      ((s.1 + l.length,
          s.2 ++ ((l.map Prod.snd).reverse.filter (due newSeqn now)).map SeqInfo.seq),
        l.map fun x => (x.1, visit newSeqn now x.2)) := by
  induction l with
  | nil =>
    show (s, []) = _
    simp
  | cons x l ih =>
    rw [CircList.mapAccumr_cons, ih, CircList.onVal, scanSeq_eq, List.map_cons, List.reverse_cons,
      List.filter_append, List.map_append, List.append_assoc, List.length_cons, List.map_cons]
    congr 2
    by_cases hdue : due newSeqn now x.2 = true
    · simp [hdue, Nat.add_assoc]
    · simp [hdue, Nat.add_assoc]

theorem curSeqOf_eq (h : r.IsRing l) (newSeqn : UInt16) :
    curSeqOf r newSeqn = some (CircList.last 0 l, curSeqn (l.map Prod.snd) newSeqn) := by
  rcases List.eq_nil_or_concat l with rfl | ⟨t, y, rfl⟩
  · have hhead : r.head = 0 := h.head
    rw [curSeqOf, if_pos hhead]
    rfl
  · rw [List.concat_eq_append] at h ⊢
    have hne : t ++ [y] ≠ [] := by simp
    have hpos := (h.bound _ (CircList.first_mem 0 hne)).1
    -- the head's previous entry is the last one
    obtain ⟨n, hn, hprev⟩ := h.links.at_first 0 hne
    rw [← h.head] at hn hpos
    rw [CircList.last_append] at hprev
    rw [curSeqOf, if_neg (by omega), hn, Option.bind_eq_bind, Option.bind_some, hprev]
    show r.heap y.1 >>= _ = _
    rw [h.links.heap_eq, CircList.last_append, curSeqn, List.map_append, List.map_singleton,
      List.getLast?_concat]
    rfl

theorem startFresh_spec (h : r.IsRing l) (newSeqn : UInt16) :
    ∃ r' l', startFresh r newSeqn (CircList.last 0 l, curSeqn (l.map Prod.snd) newSeqn) =
        some (r', CircList.last 0 l', curSeqn (l'.map Prod.snd) newSeqn) ∧
      r'.IsRing l' ∧ l'.map Prod.snd = kept (l.map Prod.snd) newSeqn := by
  have hjump : (janusSeqInRange newSeqn (curSeqn (l.map Prod.snd) newSeqn) lastSeqsMaxLen = false ∧
      janusSeqInRange (curSeqn (l.map Prod.snd) newSeqn) newSeqn 1000 = false) ↔
      Jump (l.map Prod.snd) newSeqn := by
    rw [Jump, ← Bool.not_eq_true, ← Bool.not_eq_true, inRange_iff (by decide),
      inRange_iff (by decide), Nat.not_lt, Nat.not_lt]
  rw [startFresh, kept]
  by_cases hj : Jump (l.map Prod.snd) newSeqn
  · rw [if_pos (hjump.mpr hj), if_pos hj]
    obtain ⟨r', hclear, hring⟩ := h.clear
    refine ⟨r', [], ?_, hring, rfl⟩
    rw [janusSeqListFree, hclear]
    rfl
  · rw [if_neg fun hin => hj (hjump.mp hin), if_neg hj]
    exact ⟨r, l, rfl, h, rfl⟩

theorem addForward_spec (h : r.IsRing l) (newSeqn : UInt16) (now : Int) (cur : UInt16) (len : Nat) :
    ∃ r' l', addForward newSeqn now cur r len = some (r', len + ahead newSeqn cur) ∧
      r'.IsRing (l ++ l') ∧ l'.map Prod.snd = gap newSeqn now cur := by
  -- the loop runs as long as the number is behind the new one
  induction hn : ahead newSeqn cur generalizing cur r l len with
  | zero =>
    have hcur : cur = newSeqn := by
      by_contra hne
      have hstep := ahead_succ hne
      omega
    refine ⟨r, [], ?_, by rwa [List.append_nil], by rw [gap, hn]; rfl⟩
    rw [addForward, if_pos hcur, Nat.add_zero]
  | succ n ih =>
    have hcur : cur ≠ newSeqn := by
      rintro rfl
      rw [ahead_self] at hn
      omega
    have hstep := ahead_succ hcur
    obtain ⟨e, he⟩ : ∃ e : SeqInfo, e =
        ⟨now, cur + 1, if cur + 1 = newSeqn then SeqState.recved else SeqState.missing, 0⟩ :=
      ⟨_, rfl⟩
    obtain ⟨r₁, happend, hring₁⟩ := h.append e
    obtain ⟨r', l', hrun, hring', hl'⟩ := ih hring₁ (cur + 1) (len + 1) (by omega)
    refine ⟨r', _ :: l', ?_, by rw [List.append_assoc] at hring'; exact hring', ?_⟩
    · rw [addForward, if_neg hcur]
      simp only [← he, janusSeqAppend, happend, Option.bind_eq_bind, Option.bind_some, hrun]
      congr 2
      omega
    · rw [List.map_cons, hl', gap, gap, hstep, numbers_succ, List.map_cons, he]

theorem trim_spec (h : r.IsRing l) :
    ∃ r', trim l.length r = some r' ∧ r'.IsRing (l.drop (l.length - lastSeqsMaxLen)) := by
  induction l generalizing r with
  | nil => exact ⟨r, rfl, h⟩
  | cons x l ih =>
    rw [List.length_cons, trim]
    split
    · next hgt =>
      obtain ⟨r₁, r₂, hpop, hfree, hring⟩ := h.popHead
      obtain ⟨r', htrim, hring'⟩ := ih hring
      refine ⟨r', ?_, ?_⟩
      · rw [janusSeqPopHead, hpop]
        show r₁.free x.1 >>= _ = _
        rw [hfree]
        exact htrim
      · rw [Nat.succ_sub (by omega), List.drop_succ_cons]
        exact hring'
    · next hle =>
      refine ⟨r, rfl, ?_⟩
      rw [Nat.sub_eq_zero_of_le (by omega), List.drop_zero]
      exact h

theorem addNew_spec (h : r.IsRing l) (newSeqn : UInt16) (now : Int) (cur : UInt16) :
    ∃ r' l', addNew newSeqn now cur r = some (r', l'.length) ∧ r'.IsRing (l ++ l') ∧
      l'.map Prod.snd = if ahead newSeqn cur < lastSeqsMaxLen then gap newSeqn now cur else [] := by
  rw [addNew]
  by_cases hin : ahead newSeqn cur < lastSeqsMaxLen
  · rw [if_pos ((inRange_iff (by decide)).mpr hin), if_pos hin]
    obtain ⟨r', l', hrun, hring, hgap⟩ := addForward_spec h newSeqn now cur 0
    have hlen : l'.length = ahead newSeqn cur := by
      have hmap := congrArg List.length hgap
      rwa [List.length_map, gap, List.length_map, length_numbers] at hmap
    rw [Nat.zero_add, ← hlen] at hrun
    exact ⟨r', l', hrun, hring, hgap⟩
  · rw [if_neg fun h => hin ((inRange_iff (by decide)).mp h), if_neg hin]
    exact ⟨r, [], rfl, by rwa [List.append_nil], rfl⟩

theorem scanBack_spec {l' : List (Nat × SeqInfo)} (h : r.IsRing (l ++ l')) (newSeqn : UInt16)
    (now : Int) :
    ∃ r', scanBack newSeqn now (CircList.last 0 l) r l'.length =
        some (r', l'.length + l.length,
          ((l.map Prod.snd).reverse.filter (due newSeqn now)).map SeqInfo.seq) ∧
      r'.IsRing ((l.map fun x => (x.1, visit newSeqn now x.2)) ++ l') := by
  rw [scanBack]
  by_cases hl : l = []
  · subst hl
    exact ⟨r, rfl, h⟩
  · -- the scan starts at the old last entry, before those that were added
    have hmem : CircList.last 0 l ∈ (l ++ l').map Prod.fst := by
      rw [List.map_append]
      exact List.mem_append_left _ (CircList.last_mem 0 hl)
    have hpos := (h.bound (CircList.last 0 l) hmem).1
    have hlen := h.length_le
    rw [List.length_append] at hlen
    have hfuel : l.length ≤ r.fresh := by omega
    obtain ⟨r', hwalk, hring⟩ := CircList.IsRing.walkBack (scanSeq newSeqn now) hl h hfuel
      (l'.length, [])
    rw [mapAccumr_scanSeq] at hwalk hring
    rw [if_pos (by omega), hwalk]
    exact ⟨r', rfl, hring⟩

end

/-- What the end of a call does. -/
theorem answer_spec (enableNackRequestFir : Bool) {p : NackProcessor} {l : List (Nat × SeqInfo)}
    (h : p.lastSeqsVideo.IsRing l) (currentTime : Int) (nackbuf : Mem) (nacks : List UInt16)
    (scanned : CircList SeqInfo) :
    ∃ p' o, answer enableNackRequestFir p currentTime nackbuf nacks scanned = some (p', o) ∧
      o.nacks = nacks ∧ o.scanned = scanned ∧
      p'.lastSeqsVideo.IsRing (if o.flushed then [] else l) ∧
      (o.flushed = false → (o.res, o.nackbuf) = rtcpNackCreate nackbuf nacks) := by
  rw [answer]
  split
  · -- the list is given up with or without the request for a key frame
    obtain ⟨r', hclear, hring⟩ := h.clear
    rw [janusSeqListFree, hclear]
    cases enableNackRequestFir with
    | false => exact ⟨_, _, rfl, rfl, rfl, hring, fun hno => absurd hno Bool.noConfusion⟩
    | true => exact ⟨_, _, rfl, rfl, rfl, hring, fun hno => absurd hno Bool.noConfusion⟩
  · exact ⟨_, _, rfl, rfl, rfl, h, fun _ => rfl⟩

/-- What a call does to the entries. -/
theorem keepTrack_spec (enableNackRequestFir : Bool) {p : NackProcessor}
    {l : List (Nat × SeqInfo)} (h : p.lastSeqsVideo.IsRing l) (newSeqn : UInt16)
    (now currentTime : Int) (nackbuf : Mem) :
    ∃ p' o ls l', keepTrackRtpSequenceNumber enableNackRequestFir p newSeqn now currentTime nackbuf =
        some (p', o) ∧
      o.nacks = nackList (l.map Prod.snd) newSeqn now ∧
      o.scanned.IsRing ls ∧ ls.map Prod.snd = scanned (l.map Prod.snd) newSeqn now ∧
      p'.lastSeqsVideo.IsRing l' ∧
      l'.map Prod.snd = (if o.flushed then [] else trimmed (scanned (l.map Prod.snd) newSeqn now)) ∧
      (o.flushed = false → (o.res, o.nackbuf) = rtcpNackCreate nackbuf o.nacks) := by
  -- one rule for each part of the call, in the order of the source
  obtain ⟨r₁, l₁, hfresh, hring₁, hkept⟩ := startFresh_spec h newSeqn
  obtain ⟨r₂, l₂, hadd, hring₂, hadded⟩ := addNew_spec hring₁ newSeqn now
    (curSeqn (l₁.map Prod.snd) newSeqn)
  obtain ⟨r₃, hscan, hring₃⟩ := scanBack_spec hring₂ newSeqn now
  obtain ⟨r₄, htrim, hring₄⟩ := trim_spec hring₃
  obtain ⟨p', o, hanswer, hnacks, hscanned, hring', hres⟩ := answer_spec enableNackRequestFir
    (p := { p with lastSeqsVideo := r₄ }) hring₄ currentTime nackbuf
    (nackList (l.map Prod.snd) newSeqn now) r₃
  have hentries : ((l₁.map fun x => (x.1, visit newSeqn now x.2)) ++ l₂).map Prod.snd =
      scanned (l.map Prod.snd) newSeqn now := by
    rw [List.map_append, hadded, List.map_map, scanned, added, ← hkept, List.map_map]
    rfl
  have hlen : l₂.length + l₁.length =
      ((l₁.map fun x => (x.1, visit newSeqn now x.2)) ++ l₂).length := by
    rw [List.length_append, List.length_map, Nat.add_comm]
  refine ⟨p', o, _, _, ?_, hnacks, hscanned ▸ hring₃, hentries, hring', ?_, ?_⟩
  · rw [hlen, hkept] at hscan
    rw [keepTrackRtpSequenceNumber, curSeqOf_eq h]
    simp only [Option.bind_eq_bind, Option.bind_some, hfresh, hadd, hscan, htrim]
    exact hanswer
  · rw [trimmed, ← hentries, ← List.map_drop, List.length_map]
    split
    · rfl
    · rfl
  · rw [hnacks]
    exact hres

/-! ### The shape of the list -/

/-- A stretch of at most 160 consecutive numbers. -/
structure Shape (l : List SeqInfo) : Prop where
  consecutive : ∃ base, l.map SeqInfo.seq = numbers base l.length
  length_le : l.length ≤ lastSeqsMaxLen

/-- All that the scan does to an entry: the packet has arrived, the entry is put on a NACK
for the first time or once more, or nothing. -/
theorem visit_cases (newSeqn : UInt16) (now : Int) (e : SeqInfo) :
    (e.seq = newSeqn ∧ due newSeqn now e = false ∧
        visit newSeqn now e = { e with state := .recved }) ∨
      (e.seq ≠ newSeqn ∧ e.state = .missing ∧ now - e.ts > seqMissingWait ∧
        due newSeqn now e = true ∧
        visit newSeqn now e = { e with state := .nacked, ts := now, times := e.times + 1 }) ∨
      (e.seq ≠ newSeqn ∧ e.state = .nacked ∧ now - e.ts > seqNackedWait ∧
        e.times ≤ maxTimesOfResend ∧ due newSeqn now e = true ∧
        visit newSeqn now e = ⟨now, e.seq,
          if e.times + 1 > maxTimesOfResend then .giveup else e.state, e.times + 1⟩) ∨
      (e.seq ≠ newSeqn ∧ due newSeqn now e = false ∧ visit newSeqn now e = e) := by
  unfold visit due scanSeq
  by_cases hseq : e.seq = newSeqn
  · simp [hseq]
  · rw [if_neg hseq]
    by_cases hmissing : e.state = .missing ∧ now - e.ts > seqMissingWait
    · rw [if_pos hmissing]
      exact Or.inr (Or.inl ⟨hseq, hmissing.1, hmissing.2, by simp, rfl⟩)
    · rw [if_neg hmissing]
      by_cases hnacked : e.state = .nacked ∧ now - e.ts > seqNackedWait ∧ e.times ≤ maxTimesOfResend
      · rw [if_pos hnacked]
        exact Or.inr (Or.inr (Or.inl
          ⟨hseq, hnacked.1, hnacked.2.1, hnacked.2.2, by simp, rfl⟩))
      · rw [if_neg hnacked]
        exact Or.inr (Or.inr (Or.inr ⟨hseq, by simp, rfl⟩))

theorem visit_seq (newSeqn : UInt16) (now : Int) (e : SeqInfo) :
    (visit newSeqn now e).seq = e.seq := by
  rcases visit_cases newSeqn now e with ⟨-, -, h⟩ | ⟨-, -, -, -, h⟩ | ⟨-, -, -, -, -, h⟩ | ⟨-, -, h⟩
  · rw [h]
  · rw [h]
  · rw [h]
  · rw [h]

theorem shape_nil : Shape [] := ⟨⟨0, rfl⟩, Nat.zero_le _⟩

theorem Shape.kept {l : List SeqInfo} (h : Shape l) (newSeqn : UInt16) : Shape (kept l newSeqn) := by
  rw [NackTracker.kept]
  split
  · exact shape_nil
  · exact h

/-- The last entry is the last of the numbers. -/
theorem curSeqn_eq {l : List SeqInfo} {base : UInt16} (h : l.map SeqInfo.seq = numbers base l.length)
    (hl : l ≠ []) (newSeqn : UInt16) :
    curSeqn l newSeqn = base + UInt16.ofNat (l.length - 1) := by
  rcases List.eq_nil_or_concat l with rfl | ⟨t, y, rfl⟩
  · exact absurd rfl hl
  · rw [List.concat_eq_append, List.length_append, List.length_singleton, List.map_append,
      numbers_add] at h
    have hy := (List.append_inj h (by rw [List.length_map, length_numbers])).2
    rw [numbers_succ] at hy
    rw [List.concat_eq_append, curSeqn, List.getLast?_concat, List.length_append,
      List.length_singleton, Nat.add_sub_cancel]
    exact (List.cons.inj hy).1

theorem gap_map_seq (newSeqn : UInt16) (now : Int) (cur : UInt16) :
    (gap newSeqn now cur).map SeqInfo.seq = numbers (cur + 1) (ahead newSeqn cur) := by
  rw [gap, List.map_map]
  exact List.map_id _

/-- The new number follows on the entries, or is one of them. -/
theorem gap_seqs {l : List SeqInfo} (h : Shape l) (newSeqn : UInt16) (now : Int) :
    ∃ base, l.map SeqInfo.seq ++ (gap newSeqn now (curSeqn l newSeqn)).map SeqInfo.seq =
      numbers base (l.length + ahead newSeqn (curSeqn l newSeqn)) := by
  rw [gap_map_seq]
  obtain ⟨base, hbase⟩ := h.consecutive
  by_cases hl : l = []
  · subst hl
    exact ⟨_, by rw [List.map_nil, List.nil_append, List.length_nil, Nat.zero_add]⟩
  · refine ⟨base, ?_⟩
    -- the gap starts behind the last entry
    have hpos := List.length_pos_iff.mpr hl
    rw [hbase, numbers_add, curSeqn_eq hbase hl]
    congr 2
    apply UInt16.toNat_inj.mp
    simp only [UInt16.toNat_add, UInt16.toNat_ofNat', UInt16.toNat_one]
    omega

/-- All entries as the scan leaves them are consecutive, and there are less than 320. -/
theorem scanned_seqs {l : List SeqInfo} (h : Shape l) (newSeqn : UInt16) (now : Int) :
    ∃ base, (scanned l newSeqn now).map SeqInfo.seq = numbers base (scanned l newSeqn now).length ∧
      (scanned l newSeqn now).length < 2 * lastSeqsMaxLen := by
  have hkept := h.kept newSeqn
  have hold : ((kept l newSeqn).map (visit newSeqn now)).map SeqInfo.seq =
      (kept l newSeqn).map SeqInfo.seq := by
    rw [List.map_map]
    exact List.map_congr_left fun e _ => visit_seq newSeqn now e
  rw [scanned, List.map_append, hold, List.length_append, List.length_map, added]
  have hle := hkept.length_le
  split
  · next hin =>
    obtain ⟨base, hseqs⟩ := gap_seqs hkept newSeqn now
    have hlen : (gap newSeqn now (curSeqn (kept l newSeqn) newSeqn)).length =
        ahead newSeqn (curSeqn (kept l newSeqn) newSeqn) := by
      rw [gap, List.length_map, length_numbers]
    exact ⟨base, by rw [hseqs, hlen], by omega⟩
  · obtain ⟨base, hseqs⟩ := hkept.consecutive
    refine ⟨base, ?_, ?_⟩
    · rw [List.map_nil, List.append_nil, List.length_nil, Nat.add_zero, hseqs]
    · have hpos : 0 < lastSeqsMaxLen := by decide
      rw [List.length_nil]
      omega

theorem Shape.trimmed {l : List SeqInfo} (h : ∃ base, l.map SeqInfo.seq = numbers base l.length) :
    Shape (trimmed l) := by
  obtain ⟨base, hseqs⟩ := h
  rw [NackTracker.trimmed]
  refine ⟨⟨base + UInt16.ofNat (l.length - lastSeqsMaxLen), ?_⟩, ?_⟩
  · have hsplit : l.length = (l.length - lastSeqsMaxLen) + (l.length - (l.length - lastSeqsMaxLen)) := by
      omega
    rw [hsplit, numbers_add] at hseqs
    rw [List.map_drop, hseqs, List.length_drop]
    exact List.drop_left' (length_numbers _ _)
  · rw [List.length_drop]
    omega

/-! ### Runs keep the shape -/

/-- A call did what `keepTrack_spec` says. -/
structure Call.Ok (c : Call) : Prop where
  shape : Shape c.before
  nacks : c.nacks = nackList c.before c.newSeqn c.now
  scanned : c.scanned = NackTracker.scanned c.before c.newSeqn c.now
  after : c.after = if c.flushed then [] else trimmed c.scanned
  res : c.flushed = false → ∃ m, (c.res, c.nackbuf) = rtcpNackCreate m c.nacks

/-- The entries after the last call. -/
def lastAfter (calls : List Call) : List SeqInfo := (calls.getLast?.map Call.after).getD []

/-- What a run keeps: the list in the heap is what the last call left, and every call starts
from what the one before it left. -/
structure Tracks (s : NackProcessor × List Call) : Prop where
  ring : ∃ l, s.1.lastSeqsVideo.IsRing l ∧ l.map Prod.snd = lastAfter s.2
  shape : Shape (lastAfter s.2)
  calls : ∀ c ∈ s.2, c.Ok
  chain : s.2.IsChain fun c d => d.before = c.after

theorem Call.Ok.shape_after {c : Call} (h : c.Ok) : Shape c.after := by
  rw [h.after, h.scanned]
  split
  · exact shape_nil
  · obtain ⟨base, hseqs, -⟩ := scanned_seqs h.shape c.newSeqn c.now
    exact Shape.trimmed ⟨base, hseqs⟩

theorem lastAfter_concat (calls : List Call) (c : Call) : lastAfter (calls ++ [c]) = c.after := by
  rw [lastAfter, List.getLast?_concat]
  rfl

theorem Tracks.step (enableNackRequestFir : Bool) {s : NackProcessor × List Call} (h : Tracks s)
    (e : Event) : ∃ s', step enableNackRequestFir s e = some s' ∧ Tracks s' := by
  obtain ⟨l, hring, hl⟩ := h.ring
  cases e with
  | track newSeqn now currentTime nackbuf =>
    obtain ⟨p', o, ls, l', hrun, hnacks, hring₁, hls, hring', hl', hres⟩ :=
      keepTrack_spec enableNackRequestFir hring newSeqn now currentTime nackbuf
    refine ⟨(p', s.2 ++ [⟨l.map Prod.snd, newSeqn, now, o.nacks, ls.map Prod.snd,
      l'.map Prod.snd, o.flushed, o.res, o.nackbuf⟩]), ?_, ?_⟩
    · simp only [NackTracker.step, hring.toList, hrun, hring₁.toList, hring'.toList,
        Option.bind_eq_bind, Option.bind_some]
    · have hok : (⟨l.map Prod.snd, newSeqn, now, o.nacks, ls.map Prod.snd,
          l'.map Prod.snd, o.flushed, o.res, o.nackbuf⟩ : Call).Ok :=
        ⟨hl ▸ h.shape, hnacks, hls, by rw [hl', hls], fun hno => ⟨nackbuf, hres hno⟩⟩
      refine ⟨⟨l', hring', ?_⟩, ?_, ?_, ?_⟩
      · rw [lastAfter_concat]
      · rw [lastAfter_concat]
        exact hok.shape_after
      · intro c hc
        rcases List.mem_append.mp hc with hc | hc
        · exact h.calls c hc
        · rw [List.mem_singleton.mp hc]
          exact hok
      · -- nothing but a call changes the list, so it is what the last call left
        rw [List.isChain_append]
        refine ⟨h.chain, List.IsChain.singleton _, ?_⟩
        intro c hc d hd
        rw [← Option.some.inj hd]
        show l.map Prod.snd = c.after
        rw [hl, lastAfter, Option.mem_def.mp hc]
        rfl
  | setLastFirRequest now => exact ⟨_, rfl, ⟨l, hring, hl⟩, h.shape, h.calls, h.chain⟩
  | setGetFir => exact ⟨_, rfl, ⟨l, hring, hl⟩, h.shape, h.calls, h.chain⟩
  | sendFirPacket => exact ⟨_, rfl, ⟨l, hring, hl⟩, h.shape, h.calls, h.chain⟩

/-- No call fails. -/
theorem tracks_run (enableNackRequestFir : Bool) (events : List Event) :
    ∃ s, run enableNackRequestFir events = some s ∧ Tracks s := by
  induction events using List.reverseRecOn with
  | nil =>
    refine ⟨_, rfl, ⟨[], CircList.isRing_empty, rfl⟩, shape_nil, ?_, List.IsChain.nil⟩
    exact fun c hc => absurd hc List.not_mem_nil
  | append_singleton events e ih =>
    obtain ⟨s, hrun, htracks⟩ := ih
    obtain ⟨s', hstep, htracks'⟩ := htracks.step enableNackRequestFir e
    refine ⟨s', ?_, htracks'⟩
    rw [run] at hrun
    rw [run, List.foldlM_append, hrun]
    show (step enableNackRequestFir s e >>= _) = _
    rw [hstep]
    rfl

/-- After every run the list can be read from its head to its tail, its links agree, its
numbers are consecutive modulo `2 ^ 16`, and it is not longer than 160. -/
theorem run_shape (enableNackRequestFir : Bool) (events : List Event) :
    ∃ p calls l, run enableNackRequestFir events = some (p, calls) ∧
      p.lastSeqsVideo.toList = some l ∧ p.lastSeqsVideo.Linked ∧
      (l.map SeqInfo.seq).IsChain (fun a b => b = a + 1) ∧ l.length ≤ lastSeqsMaxLen := by
  obtain ⟨⟨p, calls⟩, hrun, htracks⟩ := tracks_run enableNackRequestFir events
  obtain ⟨l, hring, hl⟩ := htracks.ring
  obtain ⟨⟨base, hseqs⟩, hle⟩ := htracks.shape
  refine ⟨p, calls, lastAfter calls, hrun, hl ▸ hring.toList, hring.linked, ?_, hle⟩
  rw [hseqs]
  exact isChain_numbers base _

end Orbit.NackTracker
