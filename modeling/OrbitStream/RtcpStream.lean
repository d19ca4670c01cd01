/-
OrbitStream/RtcpStream.lean

The receiver statistics of a stream, against the extended sequence numbers of its
packets.

On a stream in order the counters are right through any number of wraps
(`run_accounting`), unless the stream starts at sequence number 0: the first
packet's number is remembered in `base_seq`, where 0 stands for "none yet", so that
the second packet takes its place (`start_at_zero_loses_a_packet`).

The highest number is simply that of the last packet: a late packet lowers it
(`late_packet_lowers_the_maximum`), and a late packet from before a wrap makes the
next one look like a second wrap.  `run_highest` is the law for the streams in which
neither happens.
-/
import OrbitStream.RtcpContext

namespace Orbit

open Lib

namespace RtcpLog

variable {s : RtcpLog}

/-! ### Streams in order -/

/-- The first number of a log. -/
def first (l : List Int) : Int := l.headD 0

/-- The last number of a log. -/
def last (l : List Int) : Int := l.getLastD 0

/-- How many packets are expected after a log. -/
def expectedCount (l : List Int) : Int := if l = [] then 0 else last l - first l + 1

/-- How many of them are missing. -/
def lostCount (l : List Int) : Int := expectedCount l - l.length

theorem first_append {l : List Int} (h : l ≠ []) (x : Int) : first (l ++ [x]) = first l := by
  cases l with
  | nil => exact absurd rfl h
  | cons y l => rfl

@[simp] theorem last_append (l : List Int) (x : Int) : last (l ++ [x]) = x := by
  simp [last]

/-- The numbers grow, by less than a cycle; the first is in its first cycle, and
the whole stream is shorter than 2^32. -/
def InOrder (s : RtcpLog) : RtcpEvent → Prop
  | .packet ext =>
      if s.exts = [] then 0 ≤ ext ∧ ext < 65536
      else last s.exts < ext ∧ ext < last s.exts + (65536 - 300) ∧ ext - first s.exts < 4294967296
  | .report _ => True

/-- The condition on a stream in order: it does not start at 0 and go on, its
counts fit their types, and less than 2^24 packets are lost between two reports. -/
def Countable (s : RtcpLog) : RtcpEvent → Prop
  | .packet ext =>
      (s.exts ≠ [] → first s.exts ≠ 0) ∧ expectedCount (s.exts ++ [ext]) < 4294967296 ∧
        lostCount (s.exts ++ [ext]) < 2147483648
  | .report _ => lostCount s.exts - lostCount s.prior < 16777216

instance (s : RtcpLog) : (e : RtcpEvent) → Decidable (s.InOrder e)
  | .packet _ => inferInstanceAs (Decidable (if s.exts = [] then _ else _))
  | .report _ => isTrue trivial

instance (s : RtcpLog) : (e : RtcpEvent) → Decidable (s.Countable e)
  | .packet _ => inferInstanceAs (Decidable (_ ∧ _ ∧ _))
  | .report _ => inferInstanceAs (Decidable (_ < _))

/-- The context counts the log. -/
structure Accounted (s : RtcpLog) : Prop where
  fresh : s.exts = [] → s.ctx.baseSeq = 0 ∧ s.ctx.seqCycle = 0 ∧ s.ctx.lastSeqNr = 0
  going : s.exts ≠ [] → s.ctx.baseSeq = first s.exts ∧ first s.exts ≤ last s.exts ∧
    0 ≤ first s.exts ∧ first s.exts < 65536 ∧ s.ctx.lastSeqNr = last s.exts % 65536 ∧
    s.ctx.seqCycle = last s.exts / 65536 % 65536
  expected : s.ctx.expected = expectedCount s.exts
  received : s.ctx.received = s.exts.length
  lost : s.ctx.lost = lostCount s.exts
  expectedPrior : s.ctx.expectedPrior = expectedCount s.prior
  receivedPrior : s.ctx.receivedPrior = s.prior.length
  bounds : 0 ≤ lostCount s.prior ∧ lostCount s.prior ≤ lostCount s.exts ∧
    lostCount s.exts < 2147483648 ∧ expectedCount s.exts < 4294967296 ∧
    0 ≤ expectedCount s.prior ∧ expectedCount s.prior ≤ expectedCount s.exts
  interval : s.prior.length < s.exts.length ∨
    s.prior.length = s.exts.length ∧ expectedCount s.prior = expectedCount s.exts

theorem accounted_init : Accounted {} where
  fresh := fun _ => ⟨rfl, rfl, rfl⟩
  going := fun h => absurd rfl h
  expected := rfl
  received := rfl
  lost := rfl
  expectedPrior := rfl
  receivedPrior := rfl
  bounds := by decide
  interval := .inr ⟨rfl, rfl⟩

/-- The wrap is seen: the numbers of two packets in order tell the cycle of the
second. -/
theorem cycle_in_order {l e c : Int} (hc : c = l / 65536 % 65536) (hlt : l < e)
    (hgap : e < l + (65536 - 300)) :
    (if 300 + u16 e < l % 65536 then u16 (c + 1) else c) = e / 65536 % 65536 := by
  subst hc
  rw [u16, u16]
  rcases Int.lt_or_le (300 + e % 65536) (l % 65536) with hw | hw
  · rw [if_pos hw]
    omega
  · rw [if_neg (Int.not_lt.mpr hw)]
    omega

/-- The expected count from a cycle and a number. -/
theorem expected_in_order {e f : Int} (h : 0 ≤ e - f + 1) (h' : e - f + 1 < 4294967296) :
    u32 ((if e / 65536 % 65536 > 0 then u32 (e / 65536 % 65536 * 65536) else 0) + 1 + u16 e - f) =
      e - f + 1 := by
  rw [u32, u32, u16]
  split
  · omega
  · omega

/-- What a packet in order does to the base, the cycle and the expected count. -/
structure Grown (s : RtcpLog) (ext f : Int) : Prop where
  first : first (s.exts ++ [ext]) = f
  base : (if s.ctx.baseSeq = 0 ∧ s.ctx.seqCycle = 0 then u16 ext else s.ctx.baseSeq) = f
  cycle : (if 300 + u16 ext < s.ctx.lastSeqNr then u16 (s.ctx.seqCycle + 1)
    else s.ctx.seqCycle) = ext / 65536 % 65536
  range : 0 ≤ f ∧ f < 65536 ∧ f ≤ ext
  grows : expectedCount s.exts + 1 ≤ ext - f + 1

theorem Accounted.grown (h : Accounted s) {ext : Int} (hin : s.InOrder (.packet ext))
    (hc : s.Countable (.packet ext)) : ∃ f, Grown s ext f := by
  rw [InOrder] at hin
  split at hin
  · rename_i hnil
    obtain ⟨hbase, hcycle, hlast⟩ := h.fresh hnil
    have hseq : u16 ext = ext := by
      rw [u16]
      omega
    refine ⟨ext, ?_, ?_, ?_, ⟨hin.1, hin.2, Int.le_refl _⟩, ?_⟩
    · rw [hnil]
      rfl
    · rw [hbase, hcycle, if_pos ⟨rfl, rfl⟩, hseq]
    · rw [hcycle, hlast, hseq, if_neg (by omega)]
      omega
    · rw [hnil, expectedCount, if_pos rfl]
      omega
  · rename_i hne
    obtain ⟨hbase, hle, h0, h16, hlast, hcycle⟩ := h.going hne
    refine ⟨first s.exts, first_append hne ext, ?_, ?_, ⟨h0, h16, by omega⟩, ?_⟩
    · -- the base has been set: it is not 0
      rw [hbase, if_neg]
      exact fun h => hc.1 hne h.1
    · rw [hlast]
      exact cycle_in_order hcycle hin.1 hin.2.1
    · rw [expectedCount, if_neg hne]
      omega

theorem Accounted.packet (h : Accounted s) {ext : Int} (hin : s.InOrder (.packet ext))
    (hc : s.Countable (.packet ext)) : Accounted (s.step 300 (.packet ext)) := by
  obtain ⟨f, hg⟩ := h.grown hin hc
  obtain ⟨hexp, hlost⟩ := hc.2
  obtain ⟨h0, h16, hle⟩ := hg.range
  have hcount : expectedCount (s.exts ++ [ext]) = ext - f + 1 := by
    rw [expectedCount, if_neg (by simp), last_append, hg.first]
  have hlen : ((s.exts ++ [ext]).length : Int) = s.exts.length + 1 := by simp
  have hgrows := hg.grows
  have hlostOld : lostCount s.exts = expectedCount s.exts - s.exts.length := rfl
  rw [lostCount, hcount, hlen] at hlost
  rw [hcount] at hexp
  obtain ⟨hb₁, hb₂, hb₃, hb₄, hb₅, hb₆⟩ := h.bounds
  have hrec : u32 (s.ctx.received + 1) = s.exts.length + 1 := by
    rw [h.received, u32]
    omega
  have hnew : u32 ((if ext / 65536 % 65536 > 0 then u32 (ext / 65536 % 65536 * 65536) else 0) + 1 +
      u16 ext - f) = ext - f + 1 := expected_in_order (by omega) hexp
  -- what the packet leaves in the context
  have hctx : (s.step 300 (.packet ext)).ctx = { s.ctx with
      enabled := true, baseSeq := f, seqCycle := ext / 65536 % 65536, lastSeqNr := u16 ext,
      received := s.exts.length + 1, expected := ext - f + 1
      lost := ext - f + 1 - (s.exts.length + 1) } := by
    simp only [step, RtcpContext.processIncomingRtp, hg.base, hg.cycle, hrec, hnew]
    congr 1
    rw [i32, u32]
    split
    · omega
    · omega
  refine ⟨?_, ?_, ?_, ?_, ?_, ?_, ?_, ?_, ?_⟩
  · exact fun hnil => absurd hnil (by simp [step])
  · intro _
    have hexts : (s.step 300 (.packet ext)).exts = s.exts ++ [ext] := rfl
    rw [hctx, hexts, last_append, hg.first]
    exact ⟨rfl, hle, h0, h16, rfl, rfl⟩
  · rw [hctx]
    exact hcount.symm
  · rw [hctx]
    exact hlen.symm
  · rw [hctx]
    show _ = lostCount (s.exts ++ [ext])
    rw [lostCount, hcount, hlen]
  · rw [hctx]
    exact h.expectedPrior
  · rw [hctx]
    exact h.receivedPrior
  · show 0 ≤ lostCount s.prior ∧ lostCount s.prior ≤ lostCount (s.exts ++ [ext]) ∧
      lostCount (s.exts ++ [ext]) < 2147483648 ∧ expectedCount (s.exts ++ [ext]) < 4294967296 ∧
      0 ≤ expectedCount s.prior ∧ expectedCount s.prior ≤ expectedCount (s.exts ++ [ext])
    have hlostNew : lostCount (s.exts ++ [ext]) = ext - f + 1 - (s.exts.length + 1) := by
      rw [lostCount, hcount, hlen]
    rw [hlostNew, hcount]
    omega
  · left
    show s.prior.length < (s.exts ++ [ext]).length
    rcases h.interval with hint | ⟨hint, -⟩
    · rw [List.length_append]
      omega
    · rw [List.length_append, hint]
      exact Nat.lt_succ_self _

theorem Accounted.report (h : Accounted s) (now : Int) : Accounted (s.step 300 (.report now)) where
  fresh := h.fresh
  going := h.going
  expected := h.expected
  received := h.received
  lost := h.lost
  expectedPrior := h.expected
  receivedPrior := h.received
  bounds := by
    obtain ⟨hb₁, hb₂, hb₃, hb₄, hb₅, hb₆⟩ := h.bounds
    exact ⟨Int.le_trans hb₁ hb₂, Int.le_refl _, hb₃, hb₄, Int.le_trans hb₅ hb₆, Int.le_refl _⟩
  interval := .inr ⟨rfl, rfl⟩

/-- The fraction of the packets lost since the last report. -/
theorem Accounted.fraction (h : Accounted s)
    (hc : lostCount s.exts - lostCount s.prior < 16777216) :
    s.ctx.lostFraction = 256 * (lostCount s.exts - lostCount s.prior) /
        (expectedCount s.exts - expectedCount s.prior) ∧
      0 ≤ s.ctx.lostFraction ∧ s.ctx.lostFraction ≤ 255 := by
  obtain ⟨hb₁, hb₂, hb₃, hb₄, hb₅, hb₆⟩ := h.bounds
  have hl : lostCount s.exts = expectedCount s.exts - s.exts.length := rfl
  have hlp : lostCount s.prior = expectedCount s.prior - s.prior.length := rfl
  have hrec : (s.prior.length : Int) ≤ s.exts.length ∧
      (expectedCount s.exts ≠ expectedCount s.prior → (s.prior.length : Int) < s.exts.length) := by
    rcases h.interval with hint | ⟨hint, heq⟩
    · omega
    · exact ⟨by omega, fun hne => absurd heq.symm hne⟩
  -- none of the 32 bit differences wraps
  have hexp : u32 (expectedCount s.exts - expectedCount s.prior) =
      expectedCount s.exts - expectedCount s.prior := by
    rw [u32]
    omega
  have hint : u32 ((s.exts.length : Int) - s.prior.length) =
      (s.exts.length : Int) - s.prior.length := by
    rw [u32]
    omega
  have hlost : i32 (expectedCount s.exts - expectedCount s.prior -
      ((s.exts.length : Int) - s.prior.length)) = lostCount s.exts - lostCount s.prior := by
    rw [i32]
    omega
  have hval : s.ctx.lostFraction = 256 * (lostCount s.exts - lostCount s.prior) /
      (expectedCount s.exts - expectedCount s.prior) := by
    rw [RtcpContext.lostFraction, h.expected, h.expectedPrior, h.received, h.receivedPrior, hexp,
      hint, hlost]
    split
    · rename_i hz
      rcases hz with hz | hz
      · rw [hz, Int.ediv_zero]
      · have hz' : lostCount s.exts - lostCount s.prior = 0 := by omega
        rw [hz', Int.mul_zero, Int.zero_ediv]
    · rw [u32, Int.mul_comm, Int.emod_eq_of_lt (by omega) (by omega)]
  refine ⟨hval, ?_, ?_⟩
  · rw [hval]
    exact Int.ediv_nonneg (by omega) (by omega)
  · -- a packet was received in the interval, so not all of it is lost
    rw [hval]
    rcases eq_or_ne (expectedCount s.exts) (expectedCount s.prior) with heq | hne
    · rw [heq, Int.sub_self, Int.ediv_zero]
      decide
    · have hlt := hrec.2 hne
      apply Int.le_of_lt_add_one
      apply Int.ediv_lt_of_lt_mul (by omega)
      omega

theorem step_accounted (h : Accounted s) {e : RtcpEvent} (hin : s.InOrder e)
    (hc : s.Countable e) : Accounted (s.step 300 e) := by
  cases e with
  | packet ext => exact h.packet hin hc
  | report now => exact h.report now

/-- **Loss accounting across wraps.**  On a stream in order that meets the
condition, after each packet the expected and the lost count are those of the
stream, and the fraction byte of every report is the fraction lost since the report
before it, rounded down. -/
theorem run_accounting (events : List RtcpEvent)
    (hin : Throughout (step 300) InOrder {} events)
    (hcond : Throughout (step 300) Countable {} events) (pre post : List RtcpEvent)
    (hpre : events = pre ++ post) :
    ((run 300 pre).ctx.expected = expectedCount (run 300 pre).exts ∧
      (run 300 pre).ctx.lost = lostCount (run 300 pre).exts) ∧
    ∀ now rest, post = .report now :: rest →
      (((run 300 pre).ctx.reportBlock now).2.fraction : Int) =
        256 * (lostCount (run 300 pre).exts - lostCount (run 300 pre).prior) /
          (expectedCount (run 300 pre).exts - expectedCount (run 300 pre).prior) ∧
      ((run 300 pre).ctx.reportBlock now).2.fraction ≤ 255 := by
  subst hpre
  have hacc : Accounted (run 300 pre) := by
    apply (hin.left.and hcond.left).foldl (P := Accounted) ?_ accounted_init
    intro s e h hse
    exact step_accounted h hse.1 hse.2
  refine ⟨⟨hacc.expected, hacc.lost⟩, ?_⟩
  rintro now rest rfl
  have hc : Countable (run 300 pre) (.report now) := hcond.at
  obtain ⟨hval, h0, h255⟩ := hacc.fraction hc
  obtain ⟨hb₁, hb₂, hb₃, -⟩ := hacc.bounds
  have hfields := (reportBlock_fields (run 300 pre).ctx now (by rw [hacc.lost]; omega)
    (by rw [hacc.lost]; exact hb₃)).2
  have hbyte : (run 300 pre).ctx.getLostFraction / 16777216 = (run 300 pre).ctx.lostFraction := by
    rw [RtcpContext.getLostFraction, u32]
    omega
  rw [hbyte] at hfields
  refine ⟨hfields.trans hval, ?_⟩
  omega

/-- Through a wrap, with two packets lost. -/
def wrapRun : List RtcpEvent :=
  [.packet 65533, .packet 65535, .report 0, .packet 65536, .packet 65538, .report 1]

theorem run_accounting_wrap :
    Throughout (step 300) InOrder {} wrapRun ∧ Throughout (step 300) Countable {} wrapRun ∧
      (run 300 wrapRun).ctx.expected = expectedCount (run 300 wrapRun).exts ∧
      expectedCount (run 300 wrapRun).exts = 6 := by
  have hin : Throughout (step 300) InOrder {} wrapRun := by decide
  have hcond : Throughout (step 300) Countable {} wrapRun := by decide
  exact ⟨hin, hcond, (run_accounting wrapRun hin hcond wrapRun [] (by simp)).1.1, by decide⟩

/-- The packets 0 and 1, in order: one of the two is expected, and minus one is
lost. -/
theorem start_at_zero_loses_a_packet :
    Throughout (step 300) InOrder {} [.packet 0, .packet 1] ∧
      expectedCount (run 300 [.packet 0, .packet 1]).exts = 2 ∧
      (run 300 [.packet 0, .packet 1]).ctx.expected = 1 ∧
      lostCount (run 300 [.packet 0, .packet 1]).exts = 0 ∧
      (run 300 [.packet 0, .packet 1]).ctx.lost = -1 := by
  decide

/-! ### The highest number -/

/-- The highest number of a log. -/
def highest (l : List Int) : Int := l.foldl max (first l)

theorem highest_append {l : List Int} (h : l ≠ []) (x : Int) :
    highest (l ++ [x]) = max (highest l) x := by
  rw [highest, first_append h, List.foldl_append]
  rfl

/-- The first packet is in its first cycle, the others are less than 300 behind the
highest one. -/
def InWindow (s : RtcpLog) : RtcpEvent → Prop
  | .packet ext =>
      if s.exts = [] then 0 ≤ ext ∧ ext < 65536 else highest s.exts - 300 < ext
  | .report _ => True

/-- The condition for the highest number: the packet is taken for the first of a
new cycle exactly if it is; the numbers stay below 2^32; and a report is made only
when the last packet is the highest one. -/
def Climbs (s : RtcpLog) : RtcpEvent → Prop
  | .packet ext =>
      ext < 4294967296 ∧ (s.exts ≠ [] →
        (300 + ext % 65536 < last s.exts % 65536 ↔ highest s.exts / 65536 < ext / 65536) ∧
          ext / 65536 ≤ highest s.exts / 65536 + 1)
  | .report _ => s.exts ≠ [] → last s.exts = highest s.exts

instance (s : RtcpLog) : (e : RtcpEvent) → Decidable (s.InWindow e)
  | .packet _ => inferInstanceAs (Decidable (if s.exts = [] then _ else _))
  | .report _ => isTrue trivial

instance (s : RtcpLog) : (e : RtcpEvent) → Decidable (s.Climbs e)
  | .packet _ => inferInstanceAs (Decidable (_ ∧ (_ → _ ∧ _)))
  | .report _ => inferInstanceAs (Decidable (_ → _))

/-- The context has the cycle of the highest packet and the number of the last. -/
structure Climbed (s : RtcpLog) : Prop where
  fresh : s.exts = [] → s.ctx.seqCycle = 0 ∧ s.ctx.lastSeqNr = 0
  going : s.exts ≠ [] → 0 ≤ highest s.exts ∧ highest s.exts < 4294967296 ∧
    s.ctx.seqCycle = highest s.exts / 65536 ∧ s.ctx.lastSeqNr = last s.exts % 65536

theorem climbed_init : Climbed {} := ⟨fun _ => ⟨rfl, rfl⟩, fun h => absurd rfl h⟩

theorem Climbed.packet (h : Climbed s) {ext : Int} (hin : s.InWindow (.packet ext))
    (hc : s.Climbs (.packet ext)) : Climbed (s.step 300 (.packet ext)) := by
  obtain ⟨hlt, hc⟩ := hc
  refine ⟨fun hnil => absurd hnil (by simp [step]), ?_⟩
  intro _
  show 0 ≤ highest (s.exts ++ [ext]) ∧ highest (s.exts ++ [ext]) < 4294967296 ∧
    (if 300 + u16 ext < s.ctx.lastSeqNr then u16 (s.ctx.seqCycle + 1) else s.ctx.seqCycle) =
      highest (s.exts ++ [ext]) / 65536 ∧ u16 ext = last (s.exts ++ [ext]) % 65536
  rw [InWindow] at hin
  rw [last_append, u16, u16]
  split at hin
  · rename_i hnil
    obtain ⟨hcycle, hlast⟩ := h.fresh hnil
    have hhigh : highest (s.exts ++ [ext]) = ext := by
      rw [hnil]
      exact Int.max_self ext
    rw [hhigh, hcycle, hlast, if_neg (by omega)]
    omega
  · rename_i hne
    obtain ⟨h0, h32, hcycle, hlast⟩ := h.going hne
    obtain ⟨hfires, hnext⟩ := hc hne
    rw [highest_append hne, hcycle, hlast]
    -- the wrap test fires exactly when the packet enters the next cycle
    rcases Int.lt_or_le (300 + ext % 65536) (last s.exts % 65536) with hw | hw
    · have hnew := hfires.mp hw
      rw [if_pos hw]
      omega
    · have hold : ¬ highest s.exts / 65536 < ext / 65536 :=
        fun hgt => Int.not_lt.mpr hw (hfires.mpr hgt)
      rw [if_neg (Int.not_lt.mpr hw)]
      omega

theorem step_climbed (h : Climbed s) {e : RtcpEvent} (hin : s.InWindow e) (hc : s.Climbs e) :
    Climbed (s.step 300 e) := by
  cases e with
  | packet ext => exact h.packet hin hc
  | report now => exact ⟨h.fresh, h.going⟩

theorem run_climbed {events : List RtcpEvent} (hin : Throughout (step 300) InWindow {} events)
    (hcond : Throughout (step 300) Climbs {} events) : Climbed (run 300 events) := by
  apply (hin.and hcond).foldl (P := Climbed) ?_ climbed_init
  intro s e h hse
  exact step_climbed h hse.1 hse.2

/-- The extended number of a report, when the last packet is the highest. -/
theorem Climbed.ehsnr (h : Climbed s) (hne : s.exts ≠ []) (hc : last s.exts = highest s.exts)
    (now : Int) : (s.ctx.reportBlock now).2.ehsnr = highest s.exts := by
  obtain ⟨h0, h32, hcycle, hlast⟩ := h.going hne
  show u32 (u32 (s.ctx.seqCycle * 65536) + s.ctx.lastSeqNr) = highest s.exts
  rw [hcycle, hlast, hc, u32, u32]
  omega

/-- The highest number of a log only grows. -/
theorem highest_mono (maxNackQueue : Int) (events : List RtcpEvent) (hne : s.exts ≠ []) :
    highest s.exts ≤ highest (events.foldl (step maxNackQueue) s).exts ∧
      (events.foldl (step maxNackQueue) s).exts ≠ [] := by
  induction events generalizing s with
  | nil => exact ⟨Int.le_refl _, hne⟩
  | cons e events ih =>
      cases e with
      | packet ext =>
          have hne' : (s.step maxNackQueue (.packet ext)).exts ≠ [] := by simp [step]
          obtain ⟨hle, hrest⟩ := ih hne'
          refine ⟨Int.le_trans ?_ hle, hrest⟩
          show highest s.exts ≤ highest (s.exts ++ [ext])
          rw [highest_append hne]
          exact Int.le_max_left _ _
      | report now => exact ih (s := s.step maxNackQueue (.report now)) hne

/-- **The extended highest sequence number.**  On a stream that meets the
condition, every report after the first packet carries the highest number received
so far, and so the numbers of successive reports do not decrease. -/
theorem run_highest (events : List RtcpEvent) (hin : Throughout (step 300) InWindow {} events)
    (hcond : Throughout (step 300) Climbs {} events) :
    (∀ pre post now, events = pre ++ .report now :: post → (run 300 pre).exts ≠ [] →
      ((run 300 pre).ctx.reportBlock now).2.ehsnr = highest (run 300 pre).exts) ∧
    ∀ pre mid post now now', events = pre ++ .report now :: (mid ++ .report now' :: post) →
      (run 300 pre).exts ≠ [] →
      ((run 300 pre).ctx.reportBlock now).2.ehsnr ≤
        ((run 300 (pre ++ .report now :: mid)).ctx.reportBlock now').2.ehsnr := by
  have hfield : ∀ pre post now, events = pre ++ .report now :: post → (run 300 pre).exts ≠ [] →
      ((run 300 pre).ctx.reportBlock now).2.ehsnr = highest (run 300 pre).exts := by
    rintro pre post now rfl hne
    have hclimbs := hcond.at
    exact (run_climbed hin.left hcond.left).ehsnr hne (hclimbs hne) now
  refine ⟨hfield, ?_⟩
  rintro pre mid post now now' hev hne
  have hmono := highest_mono 300 (.report now :: mid) hne
  have hrun : (RtcpEvent.report now :: mid).foldl (step 300) (run 300 pre) =
      run 300 (pre ++ .report now :: mid) := by
    rw [run, run, List.foldl_append]
  rw [hrun] at hmono
  rw [hfield pre _ now hev hne,
    hfield (pre ++ .report now :: mid) post now' (by rw [hev]; simp) hmono.2]
  exact hmono.1

/-- A late packet before a wrap, and reports when it has been overtaken. -/
def lateRun : List RtcpEvent :=
  [.packet 65530, .packet 65533, .packet 65531, .packet 65535, .report 0, .packet 65537, .report 1]

theorem run_highest_late :
    Throughout (step 300) InWindow {} lateRun ∧ Throughout (step 300) Climbs {} lateRun ∧
      ((run 300 [.packet 65530, .packet 65533, .packet 65531, .packet 65535]).ctx.reportBlock
        0).2.ehsnr =
          highest (run 300 [.packet 65530, .packet 65533, .packet 65531, .packet 65535]).exts := by
  have hin : Throughout (step 300) InWindow {} lateRun := by decide
  have hcond : Throughout (step 300) Climbs {} lateRun := by decide
  exact ⟨hin, hcond, (run_highest lateRun hin hcond).1
    [.packet 65530, .packet 65533, .packet 65531, .packet 65535] [.packet 65537, .report 1] 0 rfl
    (by decide)⟩

/-- A report right after a late packet names the late packet. -/
theorem late_packet_lowers_the_maximum :
    Throughout (step 300) InWindow {} [.packet 10, .packet 12, .packet 11, .report 0] ∧
      highest (run 300 [.packet 10, .packet 12, .packet 11]).exts = 12 ∧
      ((run 300 [.packet 10, .packet 12, .packet 11]).ctx.reportBlock 0).2.ehsnr = 11 := by
  decide

end RtcpLog

end Orbit
