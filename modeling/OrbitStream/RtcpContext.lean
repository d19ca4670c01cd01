/-
OrbitStream/RtcpContext.lean

The receiver statistics behind RTCP receiver reports (`rtp/janus_rtcp_processor.cc`).

A context counts the packets of one stream: how many were received, how many were
expected from the sequence numbers seen, and how many of them are lost.  A report
block carries the loss of the last interval (8 bits) and in total (24 bits) in one
word, and the extended highest sequence number.

Machine integers are integers with the reductions `u16`, `u32` and `i32` where the
code truncates.  A packet of a stream is given by its extended sequence number, of
which the code sees the lower 16 bits; the log of a run keeps the extended numbers,
to compare the counters with.

Duplicates and late packets make `received` exceed `expected`, and the negative
number of lost packets spills into the fraction (`duplicate_spoils_the_fraction`);
`run_loss_fields` says that nothing else does.
-/
import Mathlib.Algebra.Group.Nat.Defs
import Mathlib.Data.Nat.Bitwise
import OrbitStream.Lib.Run

namespace Orbit

open Lib

/-- Truncation to `uint16_t`. -/
def u16 (x : Int) : Int := x % 65536

/-- Truncation to `uint32_t`. -/
def u32 (x : Int) : Int := x % 4294967296

/-- Truncation to `int32_t`. -/
def i32 (x : Int) : Int := (x + 2147483648) % 4294967296 - 2147483648

/-- `rtcp_context`, without the jitter, which is computed in floating point. -/
structure RtcpContext where
  enabled : Bool := false
  lastSeqNr : Int := 0
  seqCycle : Int := 0
  baseSeq : Int := 0
  lsr : Int := 0
  lsrTs : Int := 0
  lastSent : Int := 0
  received : Int := 0
  receivedPrior : Int := 0
  expected : Int := 0
  expectedPrior : Int := 0
  lost : Int := 0
  deriving DecidableEq, Repr

/-- `report_block`, in host byte order. -/
structure ReportBlock where
  flcnpl : Nat
  ehsnr : Int
  lsr : Int
  delay : Int
  deriving DecidableEq, Repr

/-- The byte of the fraction. -/
def ReportBlock.fraction (rb : ReportBlock) : Nat := rb.flcnpl / 2 ^ 24

/-- The 24 bits of the cumulative loss. -/
def ReportBlock.cumulativeLost (rb : ReportBlock) : Nat := rb.flcnpl % 2 ^ 24

namespace RtcpContext

/-- `janus_rtcp_process_incoming_rtp`. -/
def processIncomingRtp (maxNackQueue : Int) (ctx : RtcpContext) (seq : Int) : RtcpContext :=
  let baseSeq := if ctx.baseSeq = 0 ∧ ctx.seqCycle = 0 then seq else ctx.baseSeq
  let seqCycle :=
    if maxNackQueue + seq < ctx.lastSeqNr then u16 (ctx.seqCycle + 1) else ctx.seqCycle
  let received := u32 (ctx.received + 1)
  let cycles := if seqCycle > 0 then u32 (seqCycle * 65536) else 0
  let rtpExpected := u32 (cycles + 1 + seq - baseSeq)
  { ctx with
    enabled := true
    baseSeq := baseSeq
    seqCycle := seqCycle
    lastSeqNr := seq
    received := received
    -- the difference is unsigned: it is positive unless it is 0
    lost := if u32 (rtpExpected - received) > 0 then i32 (u32 (rtpExpected - received)) else 0
    expected := rtpExpected }

/-- `janus_rtcp_context_get_lost`. -/
def getLost (ctx : RtcpContext) : Int :=
  if ctx.lost > 0x7FFFFF then 0x7FFFFF else u32 ctx.lost

/-- `janus_rtcp_context_get_lost_fraction`, before it is shifted to its byte. -/
def lostFraction (ctx : RtcpContext) : Int :=
  let expectedInterval := u32 (ctx.expected - ctx.expectedPrior)
  let receivedInterval := u32 (ctx.received - ctx.receivedPrior)
  let lostInterval := i32 (expectedInterval - receivedInterval)
  if expectedInterval = 0 ∨ lostInterval ≤ 0 then 0
  else u32 (lostInterval * 256) / expectedInterval

/-- `janus_rtcp_context_get_lost_fraction`. -/
def getLostFraction (ctx : RtcpContext) : Int := u32 (ctx.lostFraction * 16777216)

/-- `janus_rtcp_report_block`; `now` is the monotonic time. -/
def reportBlock (ctx : RtcpContext) (now : Int) : RtcpContext × ReportBlock :=
  ({ ctx with
      expectedPrior := ctx.expected
      receivedPrior := ctx.received
      lastSent := now },
    { flcnpl := ctx.getLost.toNat ||| ctx.getLostFraction.toNat
      ehsnr := u32 (u32 (ctx.seqCycle * 65536) + ctx.lastSeqNr)
      lsr := ctx.lsr
      delay := u32 (((now - ctx.lsrTs) * 65536).tdiv 1000000) })

end RtcpContext

/-! ### Runs -/

/-- A packet, by its extended sequence number, or a report. -/
inductive RtcpEvent
  | packet (ext : Int)
  | report (now : Int)
  deriving DecidableEq, Repr

/-- A context with the extended numbers it has been given, and those it had been
given at the last report. -/
structure RtcpLog where
  ctx : RtcpContext := {}
  exts : List Int := []
  prior : List Int := []
  deriving DecidableEq, Repr

namespace RtcpLog

/-- One event. -/
def step (maxNackQueue : Int) (s : RtcpLog) : RtcpEvent → RtcpLog
  | .packet ext =>
      { s with
        ctx := s.ctx.processIncomingRtp maxNackQueue (u16 ext)
        exts := s.exts ++ [ext] }
  | .report now => { s with ctx := (s.ctx.reportBlock now).1, prior := s.exts }

/-- The events of a stream, on a fresh context. -/
def run (maxNackQueue : Int) (events : List RtcpEvent) : RtcpLog :=
  events.foldl (step maxNackQueue) {}

variable {s : RtcpLog} {maxNackQueue : Int}

/-! ### The word of the losses -/

/-- A number below 2^24 and a byte above it do not touch. -/
theorem lossWord {a f : Nat} (ha : a < 2 ^ 24) :
    (a ||| f * 2 ^ 24) / 2 ^ 24 = f ∧ (a ||| f * 2 ^ 24) % 2 ^ 24 = a := by
  have hor : a ||| f * 2 ^ 24 = f * 2 ^ 24 + a := by
    rw [Nat.lor_comm, ← Nat.shiftLeft_eq]
    exact (Nat.shiftLeft_add_eq_or_of_lt ha f).symm
  rw [hor]
  omega

/-- The fraction is a byte, shifted. -/
theorem getLostFraction_eq (ctx : RtcpContext) :
    ∃ f : Nat, f < 256 ∧ ctx.getLostFraction.toNat = f * 2 ^ 24 := by
  refine ⟨(ctx.lostFraction % 256).toNat, ?_, ?_⟩
  · omega
  · rw [RtcpContext.getLostFraction, u32]
    omega

/-- The number of lost packets that the context keeps is the signed difference of
its counters. -/
def LostKept (s : RtcpLog) : Prop := s.ctx.lost = i32 (s.ctx.expected - s.ctx.received)

theorem lostKept_packet (maxNackQueue : Int) (s : RtcpLog) (ext : Int) :
    LostKept (s.step maxNackQueue (.packet ext)) := by
  simp only [LostKept, step, RtcpContext.processIncomingRtp]
  split
  · simp only [i32, u32]
    omega
  · rename_i h
    simp only [i32, u32] at h ⊢
    omega

theorem run_lostKept (maxNackQueue : Int) (events : List RtcpEvent) :
    LostKept (run maxNackQueue events) := by
  apply List.foldlRecOn (motive := LostKept)
  · rfl
  · intro s h e _
    cases e with
    | packet ext => exact lostKept_packet maxNackQueue s ext
    | report now => exact h

/-- A number of lost packets that is not negative leaves the fraction alone. -/
theorem reportBlock_fields (ctx : RtcpContext) (now : Int) (h : 0 ≤ ctx.lost)
    (h' : ctx.lost < 2147483648) :
    (((ctx.reportBlock now).2.cumulativeLost : Int) = min 0x7FFFFF ctx.lost) ∧
      ((ctx.reportBlock now).2.fraction : Int) = ctx.getLostFraction / 16777216 := by
  obtain ⟨f, hf, hfrac⟩ := getLostFraction_eq ctx
  have hlost : ctx.getLost = min 0x7FFFFF ctx.lost := by
    rw [RtcpContext.getLost, u32]
    split
    · omega
    · omega
  have hlt : ctx.getLost.toNat < 2 ^ 24 := by omega
  obtain ⟨hhigh, hlow⟩ := lossWord (f := f) hlt
  have hword : (ctx.reportBlock now).2.flcnpl = ctx.getLost.toNat ||| f * 2 ^ 24 := by
    rw [← hfrac]
    rfl
  have hnonneg : 0 ≤ ctx.getLostFraction := by
    rw [RtcpContext.getLostFraction, u32]
    omega
  refine ⟨?_, ?_⟩
  · rw [ReportBlock.cumulativeLost, hword, hlow, ← hlost]
    omega
  · rw [ReportBlock.fraction, hword, hhigh]
    omega

/-! ### What the packets tell -/

/-- The sequence number the count starts from: the first one that is not 0. -/
def start : List Int → Int
  | [] => 0
  | x :: l => if u16 x = 0 then start l else u16 x

/-- How often the number of a packet is more than `maxNackQueue` below that of the packet
before it. -/
def drops (maxNackQueue : Nat) : List Int → Nat
  | x :: y :: l =>
      (if maxNackQueue + u16 y < u16 x then 1 else 0) + drops maxNackQueue (y :: l)
  | _ => 0

/-- The length of the stream by the numbers of its packets: from the first one to the last,
and 65536 for each drop. -/
def span (maxNackQueue : Nat) (l : List Int) : Int :=
  if l = [] then 0 else 65536 * drops maxNackQueue l + u16 (l.getLastD 0) - start l + 1

/-- The condition on the packets that came before a report: they are no more than the length of
the stream, which fits its 32 bits, and not 2^31 fewer. -/
def Plausible (maxNackQueue : Nat) (s : RtcpLog) : RtcpEvent → Prop
  | .packet _ => True
  | .report _ => s.exts.length ≤ span maxNackQueue s.exts ∧ span maxNackQueue s.exts < 4294967296 ∧
      span maxNackQueue s.exts - s.exts.length < 2147483648

instance (maxNackQueue : Nat) (s : RtcpLog) :
    (e : RtcpEvent) → Decidable (s.Plausible maxNackQueue e)
  | .packet _ => isTrue trivial
  | .report _ => inferInstanceAs (Decidable (_ ∧ _ ∧ _))

section

variable (maxNackQueue : Nat)

theorem start_append (l : List Int) (x : Int) :
    start (l ++ [x]) = if start l = 0 then u16 x else start l := by
  induction l with
  | nil =>
    show (if u16 x = 0 then 0 else u16 x) = u16 x
    split
    · rename_i h
      exact h.symm
    · rfl
  | cons y l ih =>
    show (if u16 y = 0 then start (l ++ [x]) else u16 y) =
      if (if u16 y = 0 then start l else u16 y) = 0 then u16 x
      else if u16 y = 0 then start l else u16 y
    rcases eq_or_ne (u16 y) 0 with hy | hy
    · rw [if_pos hy, if_pos hy]
      exact ih
    · rw [if_neg hy, if_neg hy, if_neg hy]

theorem start_range (l : List Int) : 0 ≤ start l ∧ start l < 65536 := by
  induction l with
  | nil => decide
  | cons y l ih =>
    show 0 ≤ (if u16 y = 0 then start l else u16 y) ∧ (if u16 y = 0 then start l else u16 y) < 65536
    split
    · exact ih
    · rw [u16]
      omega

theorem drops_append (l : List Int) (x : Int) :
    drops maxNackQueue (l ++ [x]) =
      drops maxNackQueue l + if maxNackQueue + u16 x < u16 (l.getLastD 0) then 1 else 0 := by
  have hx : 0 ≤ u16 x := Int.emod_nonneg _ (by decide)
  induction l with
  | nil =>
    have hnone : ¬ (maxNackQueue : Int) + u16 x < u16 0 := by
      rw [show u16 0 = 0 from rfl]
      omega
    show 0 = 0 + if (maxNackQueue : Int) + u16 x < u16 0 then 1 else 0
    rw [if_neg hnone]
  | cons y l ih =>
    cases l with
    | nil =>
      show (if maxNackQueue + u16 x < u16 y then 1 else 0) + 0 =
        0 + if maxNackQueue + u16 x < u16 y then 1 else 0
      exact Nat.add_comm _ _
    | cons z l =>
      show (if maxNackQueue + u16 z < u16 y then 1 else 0) + drops maxNackQueue ((z :: l) ++ [x]) =
        (if maxNackQueue + u16 z < u16 y then 1 else 0) + drops maxNackQueue (z :: l) + _
      rw [ih, Nat.add_assoc]
      rfl

/-- Numbers that are all 0 do not drop. -/
theorem drops_of_start {l : List Int} (h : start l = 0) : drops maxNackQueue l = 0 := by
  induction l with
  | nil => rfl
  | cons x l ih =>
    have hx : u16 x = 0 := by
      by_contra hne
      rw [start, if_neg hne] at h
      exact hne h
    rw [start, if_pos hx] at h
    cases l with
    | nil => rfl
    | cons y l =>
      have hy : 0 ≤ u16 y := Int.emod_nonneg _ (by decide)
      rw [drops, hx, if_neg (by omega), ih h]

/-- The expected count from the cycles, which are cut to 16 bits. -/
theorem expected_drops (n : Nat) (seq base : Int) :
    u32 ((if u16 n > 0 then u32 (u16 n * 65536) else 0) + 1 + seq - base) =
      u32 (65536 * n + seq - base + 1) := by
  rw [u32, u32, u32, u16]
  split
  · omega
  · omega

/-- The counters are the numbers of the packets, in the width of their types. -/
structure Counted (s : RtcpLog) : Prop where
  base : s.ctx.baseSeq = start s.exts
  cycle : s.ctx.seqCycle = u16 (drops maxNackQueue s.exts)
  last : s.ctx.lastSeqNr = u16 (s.exts.getLastD 0)
  received : s.ctx.received = u32 s.exts.length
  expected : s.ctx.expected = u32 (span maxNackQueue s.exts)

variable {maxNackQueue}

theorem counted_init : Counted maxNackQueue {} := ⟨rfl, rfl, rfl, rfl, rfl⟩

theorem Counted.packet (h : Counted maxNackQueue s) (ext : Int) :
    Counted maxNackQueue (s.step maxNackQueue (.packet ext)) := by
  have hbase : (if s.ctx.baseSeq = 0 ∧ s.ctx.seqCycle = 0 then u16 ext else s.ctx.baseSeq) =
      start (s.exts ++ [ext]) := by
    rw [start_append, h.base, h.cycle]
    rcases eq_or_ne (start s.exts) 0 with hstart | hstart
    · rw [drops_of_start maxNackQueue hstart, if_pos ⟨hstart, rfl⟩, if_pos hstart]
    · rw [if_neg fun hc => hstart hc.1, if_neg hstart]
  have hcycle : (if maxNackQueue + u16 ext < s.ctx.lastSeqNr then u16 (s.ctx.seqCycle + 1)
      else s.ctx.seqCycle) = u16 (drops maxNackQueue (s.exts ++ [ext])) := by
    rw [drops_append, h.last, h.cycle]
    split
    · simp only [u16]
      omega
    · rfl
  have hlast : (s.exts ++ [ext]).getLastD 0 = ext := by simp
  refine ⟨hbase, hcycle, ?_, ?_, ?_⟩
  · show u16 ext = u16 ((s.exts ++ [ext]).getLastD 0)
    rw [hlast]
  · show u32 (s.ctx.received + 1) = u32 ((s.exts ++ [ext]).length)
    rw [h.received, List.length_append, List.length_singleton]
    simp only [u32]
    omega
  · simp only [step, RtcpContext.processIncomingRtp, hbase, hcycle, expected_drops]
    rw [span, if_neg (List.append_ne_nil_of_right_ne_nil _ (List.cons_ne_nil _ _)), hlast]

variable (maxNackQueue) in
theorem run_counted (events : List RtcpEvent) : Counted maxNackQueue (run maxNackQueue events) := by
  apply List.foldlRecOn (motive := Counted maxNackQueue)
  · exact counted_init
  · intro s h e _
    cases e with
    | packet ext => exact h.packet ext
    | report now => exact ⟨h.base, h.cycle, h.last, h.received, h.expected⟩

variable (maxNackQueue) in
/-- The number of lost packets that the context keeps. -/
theorem lost_eq (events : List RtcpEvent) :
    (run maxNackQueue events).ctx.lost = i32 (span maxNackQueue (run maxNackQueue events).exts -
      (run maxNackQueue events).exts.length) := by
  have hkept : (run maxNackQueue events).ctx.lost = _ := run_lostKept maxNackQueue events
  have hcounted := run_counted maxNackQueue events
  rw [hkept, hcounted.expected, hcounted.received]
  simp only [i32, u32]
  omega

end

/-- Both loss fields of a report are right. -/
def LossFields (ctx : RtcpContext) (now : Int) : Prop :=
  ((ctx.reportBlock now).2.cumulativeLost : Int) =
      min 0x7FFFFF (max 0 (ctx.expected - ctx.received)) ∧
    ((ctx.reportBlock now).2.fraction : Int) = ctx.getLostFraction / 16777216

theorem lossFields_right {maxNackQueue : Nat} (events : List RtcpEvent) (now : Int)
    (h : Plausible maxNackQueue (run maxNackQueue events) (.report now)) :
    LossFields (run maxNackQueue events).ctx now := by
  obtain ⟨hle, h32, hlt⟩ := h
  have hlost := lost_eq maxNackQueue events
  have hcounted := run_counted maxNackQueue events
  have hexpected := hcounted.expected
  have hreceived := hcounted.received
  rw [u32] at hexpected hreceived
  rw [i32] at hlost
  obtain ⟨hfield, hfrac⟩ :=
    reportBlock_fields (run maxNackQueue events).ctx now (by omega) (by omega)
  refine ⟨?_, hfrac⟩
  rw [hfield]
  omega

/-- A negative number of lost packets reaches into the 24 bits. -/
theorem not_lossFields {ctx : RtcpContext} (now : Int) (h : ctx.lost < 0)
    (h' : -8388608 < ctx.lost) : ¬ LossFields ctx now := by
  rintro ⟨hfield, -⟩
  obtain ⟨f, hf, hfrac⟩ := getLostFraction_eq ctx
  have hlost : ctx.getLost = ctx.lost + 4294967296 := by
    rw [RtcpContext.getLost, if_neg (by omega), u32]
    omega
  have hlow : (ctx.reportBlock now).2.cumulativeLost = ctx.getLost.toNat % 2 ^ 24 := by
    show (ctx.getLost.toNat ||| ctx.getLostFraction.toNat) % 2 ^ 24 = _
    rw [hfrac, Nat.or_mod_two_pow, Nat.mul_mod_left, Nat.or_zero]
  rw [hlow, hlost] at hfield
  omega

/-- **The loss fields of a report.**  In a run in which no more packets come before a report than
the numbers of the first and the last one and the drops between leave room for, every report
block carries the clamped number of lost packets in its 24 bits, and the fraction computed for
the interval in its byte.  Up to eight million packets that is the only case in which it does. -/
theorem run_loss_fields (maxNackQueue : Nat) (events : List RtcpEvent) :
    (Throughout (step maxNackQueue) (Plausible maxNackQueue) {} events →
      ∀ pre now post, events = pre ++ .report now :: post →
        LossFields (run maxNackQueue pre).ctx now) ∧
    ∀ pre now post, events = pre ++ .report now :: post →
      (run maxNackQueue pre).exts.length < 8323072 →
      drops maxNackQueue (run maxNackQueue pre).exts < 32767 →
      (LossFields (run maxNackQueue pre).ctx now ↔
        Plausible maxNackQueue (run maxNackQueue pre) (.report now)) := by
  refine ⟨?_, ?_⟩
  · rintro hev pre now post rfl
    exact lossFields_right pre now hev.at
  · intro pre now post _ hfew hdrops
    refine ⟨?_, lossFields_right pre now⟩
    intro hfields
    have hlost := lost_eq maxNackQueue pre
    have hlow : -65536 < span maxNackQueue (run maxNackQueue pre).exts ∧
        span maxNackQueue (run maxNackQueue pre).exts < 2147483648 := by
      obtain ⟨h0, h16⟩ := start_range (run maxNackQueue pre).exts
      rw [span, u16]
      split
      · omega
      · omega
    rw [i32] at hlost
    by_contra hnot
    apply not_lossFields now ?_ ?_ hfields
    · by_contra hneg
      exact hnot ⟨by omega, by omega, by omega⟩
    · omega

theorem run_loss_fields_gap :
    Throughout (step 300) (Plausible 300) {} [.packet 12, .packet 20, .packet 14, .report 0] ∧
      LossFields (run 300 [.packet 12, .packet 20, .packet 14]).ctx 0 := by
  have hev : Throughout (step (300 : Nat)) (Plausible 300) {}
      [.packet 12, .packet 20, .packet 14, .report 0] := by decide
  exact ⟨hev, (run_loss_fields 300 _).1 hev [.packet 12, .packet 20, .packet 14] 0 [] rfl⟩

/-- A packet that arrives twice: one packet is expected, two are received, and the
report says that everything is lost. -/
theorem duplicate_spoils_the_fraction :
    (run 300 [.packet 12, .packet 12]).ctx.expected -
        (run 300 [.packet 12, .packet 12]).ctx.received = -1 ∧
      (run 300 [.packet 12, .packet 12]).ctx.getLostFraction = 0 ∧
      ((run 300 [.packet 12, .packet 12]).ctx.reportBlock 0).2.flcnpl = 0xFFFFFFFF ∧
      ((run 300 [.packet 12, .packet 12]).ctx.reportBlock 0).2.cumulativeLost ≠ 0 ∧
      ((run 300 [.packet 12, .packet 12]).ctx.reportBlock 0).2.fraction ≠ 0 := by
  decide

end RtcpLog

end Orbit
