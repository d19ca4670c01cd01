/-
OrbitStream/SpeakerEstimator.lean

The estimate of who speaks (`modules/speaker_estimator.{h,cc}`).

A frame is won by the loudest stream, if it is loud enough; a window of frames counts
for each stream how many it won and the energy it won them with.  The speaker is the
stream with the most wins of the last window, and among these the one with the
greatest energy.

The windows of a history are a small machine of their own (`Windows`), and the
estimator follows it (`run_follows`).  `CurrentSpeaker` keeps the greatest energy in
an `int` while the energies are of type `long`, so it finds a best stream if and only
if no stream behind the best ones exceeds what 32 bits keep of their energy
(`current_speaker_iff`).
-/
import Mathlib.Algebra.Order.BigOperators.Group.List
import Mathlib.Algebra.Order.Group.Int
import Mathlib.Algebra.Ring.Int.Defs
import Mathlib.Data.List.Induction
import Mathlib.Data.Prod.Lex
import OrbitStream.Lib.Scan

namespace Orbit

open Lib

/-- `EnergyHolder`, without the field nobody reads. -/
structure EnergyHolder where
  maxTimes : Nat := 0
  totalEnergy : Int := 0
  deriving DecidableEq, Repr

/-- `SpeakerEstimator`; `changed` are the calls of `OnSpeakerChanged` so far. -/
structure SpeakerEstimator where
  hasListener : Bool := false
  speakerCounterMap : Std.TreeMap Int EnergyHolder := ∅
  intraFrameCount : List (Int × Int) := []
  lastSpeakerInfo : List (Int × EnergyHolder) := []
  frameCount : Nat := 0
  definedFrameSize : Int := 50
  changed : List Int := []

namespace SpeakerEstimator

/-- What an `int` keeps of a `long`. -/
def narrow (x : Int) : Int := (Int32.ofInt x).toInt

/-- One turn of the loop of `CurrentSpeaker`, on `max_times_stream_id`, `max_times` and
`max_total_energy`. -/
def compareSpeaker (b : Int × Nat × Int) (it : Int × EnergyHolder) : Int × Nat × Int :=
  let maxTimesStreamId := if b.1 = -1 then it.1 else b.1
  if it.2.maxTimes > b.2.1 ∨ (it.2.maxTimes = b.2.1 ∧ it.2.totalEnergy > b.2.2) then
    (it.1, it.2.maxTimes, narrow it.2.totalEnergy)
  else (maxTimesStreamId, b.2.1, b.2.2)

/-- `SpeakerEstimator::CurrentSpeaker`. -/
def currentSpeaker (e : SpeakerEstimator) : Int :=
  (e.lastSpeakerInfo.foldl compareSpeaker (-1, 0, 0)).1

/-- `SpeakerEstimator::UpdateAudioEnergy`. -/
def updateAudioEnergy (e : SpeakerEstimator) (streamId audioEnergy : Int) : SpeakerEstimator :=
  { e with intraFrameCount := e.intraFrameCount ++ [(streamId, audioEnergy)] }

/-- One turn of the first loop of `NextFrame`, on `max_stream_id` and `max_audio_energy`. -/
def louder (b counter : Int × Int) : Int × Int := if counter.2 > b.2 then counter else b

/-- The first loop of `NextFrame`. -/
def loudest (updates : List (Int × Int)) : Int × Int := updates.foldl louder (-1, 0)

/-- The frame is counted for the stream that won it. -/
def countWin (counter : Std.TreeMap Int EnergyHolder) (win : Int × Int) :
    Std.TreeMap Int EnergyHolder :=
  let holder := counter[win.1]?.getD {}
  counter.insert win.1 ⟨holder.maxTimes + 1, holder.totalEnergy + win.2⟩

/-- `SpeakerEstimator::NextFrame`. -/
def nextFrame (e : SpeakerEstimator) : SpeakerEstimator :=
  if e.intraFrameCount.length = 0 then e
  else
    let max := loudest e.intraFrameCount
    let counter :=
      if max.2 > 10000000 then countWin e.speakerCounterMap max else e.speakerCounterMap
    let e := { e with
      intraFrameCount := [], speakerCounterMap := counter, frameCount := e.frameCount + 1 }
    if (e.frameCount : Int) ≥ e.definedFrameSize then
      let e := { e with
        frameCount := 0, lastSpeakerInfo := counter.toList, speakerCounterMap := ∅ }
      if e.hasListener ∧ e.currentSpeaker ≠ -1 then
        { e with changed := e.changed ++ [e.currentSpeaker] }
      else e
    else e

/-- The calls of the mixer. -/
inductive Call
  | updateAudioEnergy (streamId audioEnergy : Int)
  | nextFrame
  deriving DecidableEq, Repr

/-- One call. -/
def call (e : SpeakerEstimator) : Call → SpeakerEstimator
  | .updateAudioEnergy streamId audioEnergy => e.updateAudioEnergy streamId audioEnergy
  | .nextFrame => e.nextFrame

/-! ### Windows of frames -/

/-- The updates of a frame, in order. -/
abbrev Frame := List (Int × Int)

/-- The history of the calls: the updates of the open frame, the frames of the open window,
and the last window that was completed. -/
structure Windows where
  pending : Frame := []
  frames : List Frame := []
  completed : Option (List Frame) := none
  deriving DecidableEq, Repr

/-- A frame with updates ends, and with it the window if it has its size. -/
def Windows.call (size : Int) (w : Windows) : Call → Windows
  | .updateAudioEnergy streamId audioEnergy =>
      { w with pending := w.pending ++ [(streamId, audioEnergy)] }
  | .nextFrame =>
      if w.pending = [] then w
      else if ((w.frames.length + 1 : Nat) : Int) ≥ size then
        ⟨[], [], some (w.frames ++ [w.pending])⟩
      else ⟨[], w.frames ++ [w.pending], w.completed⟩

/-- The first update that no other exceeds, if it is above the silence. -/
def winner (frame : Frame) : Option (Int × Int) :=
  frame.find? fun x => x.2 > 10000000 ∧ ∀ y ∈ frame, y.2 ≤ x.2

/-- How many frames a stream won. -/
def wins (frames : List Frame) (stream : Int) : Nat :=
  (frames.filterMap winner).countP fun w => w.1 = stream

/-- The energy a stream won frames with. -/
def total (frames : List Frame) (stream : Int) : Int :=
  (((frames.filterMap winner).filter fun w => w.1 = stream).map Prod.snd).sum

/-- Wins first, then energy. -/
def score (frames : List Frame) (stream : Int) : Nat ×ₗ Int :=
  toLex (wins frames stream, total frames stream)

/-- A stream that won frames and has the greatest score. -/
def Best (frames : List Frame) (stream : Int) : Prop :=
  0 < wins frames stream ∧ ∀ other, score frames other ≤ score frames stream

/-! ### The winner of a frame -/

/-- The scan of a frame keeps what it started with, or ends at the first of the loudest. -/
theorem foldl_louder (b : Int × Int) (l : List (Int × Int)) :
    let r := l.foldl louder b
    (r = b ∧ ∀ x ∈ l, x.2 ≤ b.2) ∨
      (b.2 < r.2 ∧ ∃ pre post, l = pre ++ r :: post ∧ (∀ x ∈ pre, x.2 < r.2) ∧
        ∀ x ∈ post, x.2 ≤ r.2) := by
  induction l generalizing b with
  | nil => exact .inl ⟨rfl, by simp⟩
  | cons x l ih =>
    intro r
    by_cases hx : x.2 > b.2
    · have hr : r = l.foldl louder x := congrArg (List.foldl louder · l) (if_pos hx)
      rcases ih x with ⟨heq, hall⟩ | ⟨hlt, pre, post, hsplit, hpre, hpost⟩
      · rw [← hr] at heq
        rw [heq]
        exact .inr ⟨hx, [], l, rfl, by simp, hall⟩
      · rw [← hr] at hlt hsplit hpre hpost
        refine .inr ⟨Int.lt_trans hx hlt, x :: pre, post, by rw [hsplit, List.cons_append], ?_, hpost⟩
        rw [List.forall_mem_cons]
        exact ⟨hlt, hpre⟩
    · have hr : r = l.foldl louder b := congrArg (List.foldl louder · l) (if_neg hx)
      have hle : x.2 ≤ b.2 := Int.not_lt.mp hx
      rcases ih b with ⟨heq, hall⟩ | ⟨hlt, pre, post, hsplit, hpre, hpost⟩
      · rw [← hr] at heq
        refine .inl ⟨heq, ?_⟩
        rw [List.forall_mem_cons]
        exact ⟨hle, hall⟩
      · rw [← hr] at hlt hsplit hpre hpost
        refine .inr ⟨hlt, x :: pre, post, by rw [hsplit, List.cons_append], ?_, hpost⟩
        rw [List.forall_mem_cons]
        exact ⟨Int.lt_of_le_of_lt hle hlt, hpre⟩

theorem winner_eq_none {frame : Frame} (h : ∀ x ∈ frame, x.2 ≤ 10000000) : winner frame = none := by
  rw [winner, List.find?_eq_none]
  intro x hx hwon
  have hloud := (of_decide_eq_true hwon).1
  exact absurd (h x hx) (Int.not_le.mpr hloud)

/-- What `NextFrame` counts is the winner of the frame. -/
theorem winner_eq (frame : Frame) :
    winner frame = if (loudest frame).2 > 10000000 then some (loudest frame) else none := by
  rcases foldl_louder (-1, 0) frame with ⟨heq, hall⟩ | ⟨-, pre, post, hsplit, hpre, hpost⟩
  · have hzero : loudest frame = (-1, 0) := heq
    rw [hzero, if_neg (by decide)]
    exact winner_eq_none fun x hx => Int.le_trans (hall x hx) (by decide)
  · change frame = pre ++ loudest frame :: post at hsplit
    change ∀ x ∈ pre, x.2 < (loudest frame).2 at hpre
    change ∀ x ∈ post, x.2 ≤ (loudest frame).2 at hpost
    have hall : ∀ x ∈ frame, x.2 ≤ (loudest frame).2 := by
      intro x hx
      rw [hsplit, List.mem_append, List.mem_cons] at hx
      rcases hx with hx | rfl | hx
      · exact Int.le_of_lt (hpre x hx)
      · exact Int.le_refl _
      · exact hpost x hx
    by_cases hloud : (loudest frame).2 > 10000000
    · rw [if_pos hloud, winner, List.find?_eq_some_iff_append]
      refine ⟨decide_eq_true ⟨hloud, hall⟩, pre, post, hsplit, ?_⟩
      intro x hx
      have hmem : loudest frame ∈ pre ++ loudest frame :: post :=
        List.mem_append_right pre List.mem_cons_self
      rw [← hsplit] at hmem
      rw [Bool.not_eq_true', decide_eq_false_iff_not]
      rintro ⟨-, hmax⟩
      exact absurd (hpre x hx) (Int.not_lt.mpr (hmax _ hmem))
    · rw [if_neg hloud]
      exact winner_eq_none fun x hx => Int.le_trans (hall x hx) (Int.not_lt.mp hloud)

theorem winner_loud {frame : Frame} {w : Int × Int} (h : winner frame = some w) :
    w ∈ frame ∧ 10000000 < w.2 := by
  refine ⟨List.mem_of_find?_eq_some h, ?_⟩
  have hwon := List.find?_some h
  exact (of_decide_eq_true hwon).1

/-! ### What is counted -/

/-- The map that frames leave, from their winners. -/
def tally (ws : List (Int × Int)) : Std.TreeMap Int EnergyHolder := ws.foldl countWin ∅

theorem tally_getElem? (ws : List (Int × Int)) (stream : Int) :
    (tally ws)[stream]? = if ws.countP (fun w => w.1 = stream) = 0 then none
      else some ⟨ws.countP fun w => w.1 = stream,
        ((ws.filter fun w => w.1 = stream).map Prod.snd).sum⟩ := by
  induction ws using List.reverseRecOn with
  | nil => rfl
  | append_singleton ws w ih =>
    have htally : tally (ws ++ [w]) = countWin (tally ws) w := by
      rw [tally, List.foldl_append]
      rfl
    rw [htally, countWin, Std.TreeMap.getElem?_insert, List.countP_append, List.filter_append,
      List.map_append, List.sum_append]
    by_cases hw : w.1 = stream
    · subst hw
      rw [if_pos (Std.compare_eq_iff_eq.mpr rfl), ih]
      by_cases hzero : ws.countP (fun v => v.1 = w.1) = 0
      · have hnil : ws.filter (fun v => v.1 = w.1) = [] := by
          rw [List.countP_eq_length_filter] at hzero
          exact List.eq_nil_of_length_eq_zero hzero
        simp [hzero, hnil]
      · simp [hzero]
    · have hcount : [w].countP (fun v => v.1 = stream) = 0 := by simp [hw]
      have hfilter : [w].filter (fun v => v.1 = stream) = [] := by simp [hw]
      rw [if_neg (fun h => hw (Std.compare_eq_iff_eq.mp h)), ih, hcount, hfilter]
      simp

/-- What `last_speaker_info` is after a window with these frames. -/
def info (frames : List Frame) : List (Int × EnergyHolder) :=
  (tally (frames.filterMap winner)).toList

section

variable {frames : List Frame} {stream : Int}

/-- The streams that won frames, with what they won. -/
theorem mem_info {holder : EnergyHolder} : (stream, holder) ∈ info frames ↔
    0 < wins frames stream ∧ holder = ⟨wins frames stream, total frames stream⟩ := by
  rw [info, Std.TreeMap.mem_toList_iff_getElem?_eq_some, tally_getElem?]
  show (if wins frames stream = 0 then none
    else some ⟨wins frames stream, total frames stream⟩) = some holder ↔ _
  rcases Nat.eq_zero_or_pos (wins frames stream) with hzero | hpos
  · simp [hzero]
  · rw [if_neg (Nat.ne_of_gt hpos), Option.some.injEq, eq_comm]
    exact (and_iff_right hpos).symm

/-- They stand in the order of their ids. -/
theorem info_ordered (frames : List Frame) : (info frames).Pairwise fun a b => a.1 < b.1 := by
  refine Std.TreeMap.ordered_keys_toList.imp ?_
  intro a b h
  exact Std.compare_eq_lt.mp h

theorem total_nonneg (frames : List Frame) (stream : Int) : 0 ≤ total frames stream := by
  apply List.sum_nonneg
  intro e he
  obtain ⟨w, hw, rfl⟩ := List.mem_map.mp he
  obtain ⟨f, -, hf⟩ := List.mem_filterMap.mp (List.mem_filter.mp hw).1
  exact Int.le_of_lt (Int.lt_trans (by decide) (winner_loud hf).2)

end

/-! ### The estimator follows the windows -/

/-- The estimator holds what the windows of its history say. -/
structure Follows (size : Int) (w : Windows) (e : SpeakerEstimator) : Prop where
  size_eq : e.definedFrameSize = size
  pending : e.intraFrameCount = w.pending
  frameCount : e.frameCount = w.frames.length
  counter : e.speakerCounterMap = tally (w.frames.filterMap winner)
  last : ∀ frames, w.completed = some frames → e.lastSpeakerInfo = info frames

/-- The frame that ends is counted as its winner. -/
theorem counter_nextFrame (frames : List Frame) (frame : Frame) :
    (if (loudest frame).2 > 10000000 then
        countWin (tally (frames.filterMap winner)) (loudest frame)
      else tally (frames.filterMap winner)) = tally ((frames ++ [frame]).filterMap winner) := by
  rw [List.filterMap_append, tally, tally, List.foldl_append, List.filterMap_cons, winner_eq]
  split
  · rfl
  · rfl

theorem Follows.call {size : Int} {w : Windows} {e : SpeakerEstimator} (h : Follows size w e)
    (c : Call) : Follows size (w.call size c) (e.call c) := by
  cases c with
  | updateAudioEnergy streamId audioEnergy =>
    refine ⟨h.size_eq, ?_, h.frameCount, h.counter, h.last⟩
    show e.intraFrameCount ++ [_] = w.pending ++ [_]
    rw [h.pending]
  | nextFrame =>
    show Follows size (if w.pending = [] then w else _) e.nextFrame
    rw [nextFrame, h.pending]
    by_cases hnil : w.pending = []
    · rw [if_pos hnil, if_pos (List.length_eq_zero_iff.mpr hnil)]
      exact h
    · rw [if_neg hnil, if_neg (fun h0 => hnil (List.length_eq_zero_iff.mp h0))]
      dsimp only
      rw [h.counter, counter_nextFrame, h.frameCount, h.size_eq]
      by_cases hfull : ((w.frames.length + 1 : Nat) : Int) ≥ size
      · rw [if_pos hfull, if_pos hfull]
        have hlast : ∀ frames, some (w.frames ++ [w.pending]) = some frames →
            (tally ((w.frames ++ [w.pending]).filterMap winner)).toList = info frames := by
          intro frames heq
          rw [← Option.some.inj heq]
          rfl
        -- the listener is told, or not: the counters are the same
        split
        · exact ⟨rfl, rfl, rfl, rfl, hlast⟩
        · exact ⟨rfl, rfl, rfl, rfl, hlast⟩
      · rw [if_neg hfull, if_neg hfull]
        refine ⟨rfl, rfl, ?_, rfl, h.last⟩
        rw [List.length_append]
        rfl

theorem run_follows (size : Int) (listener : Bool) (calls : List Call) :
    Follows size (calls.foldl (Windows.call size) {})
      (calls.foldl call { hasListener := listener, definedFrameSize := size }) := by
  induction calls using List.reverseRecOn with
  | nil => exact ⟨rfl, rfl, rfl, rfl, fun frames h => by cases h⟩
  | append_singleton calls c ih =>
    rw [List.foldl_append, List.foldl_append]
    exact ih.call c

/-! ### The current speaker -/

/-- The value of an entry. -/
def value (x : Int × EnergyHolder) : Nat ×ₗ Int := toLex (x.2.maxTimes, x.2.totalEnergy)

/-- What is remembered of a value. -/
def remembered (p : Nat ×ₗ Int) : Nat ×ₗ Int := toLex ((ofLex p).1, narrow (ofLex p).2)

/-- The variables of `CurrentSpeaker` when an entry is the greatest so far. -/
def candidate (x : Int × EnergyHolder) : Int × Nat × Int :=
  (x.1, x.2.maxTimes, narrow x.2.totalEnergy)

theorem compareSpeaker_candidate {c : Int × EnergyHolder} (hc : c.1 ≠ -1)
    (x : Int × EnergyHolder) :
    compareSpeaker (candidate c) x = candidate (pick value remembered c x) := by
  have hlt : (x.2.maxTimes > c.2.maxTimes ∨ (x.2.maxTimes = c.2.maxTimes ∧
      x.2.totalEnergy > narrow c.2.totalEnergy)) ↔ remembered (value c) < value x := by
    rw [remembered, value, value, Prod.Lex.toLex_lt_toLex]
    show _ ↔ c.2.maxTimes < x.2.maxTimes ∨ c.2.maxTimes = x.2.maxTimes ∧ _
    rw [eq_comm (a := x.2.maxTimes)]
    rfl
  by_cases h : remembered (value c) < value x
  · rw [pick, if_pos h]
    exact if_pos (hlt.mpr h)
  · rw [pick, if_neg h]
    refine (if_neg fun h' => h (hlt.mp h')).trans ?_
    show (if c.1 = -1 then _ else c.1, _, _) = _
    rw [if_neg hc]
    rfl

theorem foldl_compareSpeaker {c : Int × EnergyHolder} {l : List (Int × EnergyHolder)}
    (h : ∀ x ∈ c :: l, x.1 ≠ -1) :
    l.foldl compareSpeaker (candidate c) = candidate (l.foldl (pick value remembered) c) := by
  induction l generalizing c with
  | nil => rfl
  | cons x l ih =>
    rw [List.foldl_cons, compareSpeaker_candidate (h c List.mem_cons_self)]
    apply ih
    intro y hy
    rcases List.mem_cons.mp hy with rfl | hy
    · rw [pick]
      split
      · exact h x (List.mem_cons_of_mem c List.mem_cons_self)
      · exact h c List.mem_cons_self
    · exact h y (List.mem_cons_of_mem c (List.mem_cons_of_mem x hy))

/-- The first entry has a win, so it is the first candidate. -/
theorem foldl_compareSpeaker_cons {c : Int × EnergyHolder} {l : List (Int × EnergyHolder)}
    (hpos : 0 < c.2.maxTimes) (h : ∀ x ∈ c :: l, x.1 ≠ -1) :
    ((c :: l).foldl compareSpeaker (-1, 0, 0)).1 = (l.foldl (pick value remembered) c).1 := by
  have hfirst : compareSpeaker (-1, 0, 0) c = candidate c := if_pos (.inl hpos)
  rw [List.foldl_cons, hfirst, foldl_compareSpeaker h]
  rfl

theorem narrow_le {x : Int} (h : 0 ≤ x) : narrow x ≤ x := by
  rw [narrow, Int32.toInt_ofInt]
  have hlt := Int.bmod_lt (x := x) (m := Int32.size) (by decide)
  have hmod := Int.bmod_def x Int32.size
  rw [Int32.size] at hmod ⊢
  omega

/-- No stream that has the wins of the best ones, and stands behind them, exceeds what 32 bits
keep of their energy. -/
def Kept (frames : List Frame) : Prop :=
  ∀ best other, Best frames best → wins frames other = wins frames best →
    (∀ b, Best frames b → b < other) → total frames other ≤ narrow (total frames best)

section

variable {frames : List Frame} {x m : Int × EnergyHolder}

theorem wins_pos_of_mem (h : x ∈ info frames) : 0 < wins frames x.1 := (mem_info.mp h).1

theorem value_of_mem (h : x ∈ info frames) : value x = score frames x.1 := by
  rw [value, (mem_info.mp h).2]
  rfl

theorem remembered_le (h : x ∈ info frames) : remembered (value x) ≤ value x := by
  rw [value_of_mem h, remembered, score, Prod.Lex.toLex_le_toLex]
  exact .inr ⟨rfl, narrow_le (total_nonneg frames x.1)⟩

/-- A stream without wins is below every entry. -/
theorem best_of_greatest (hm : m ∈ info frames) (hmax : ∀ x ∈ info frames, value x ≤ value m) :
    Best frames m.1 := by
  refine ⟨wins_pos_of_mem hm, ?_⟩
  intro other
  rcases Nat.eq_zero_or_pos (wins frames other) with hzero | hpos
  · rw [score, score, Prod.Lex.toLex_le_toLex]
    exact .inl (Nat.lt_of_le_of_lt (Nat.le_of_eq hzero) (wins_pos_of_mem hm))
  · have hmem := mem_info.mpr ⟨hpos, rfl⟩
    have hle := hmax _ hmem
    rw [value_of_mem hmem, value_of_mem hm] at hle
    exact hle

theorem best_iff_greatest (hm : m ∈ info frames) (hmax : ∀ x ∈ info frames, value x ≤ value m)
    (hx : x ∈ info frames) : Best frames x.1 ↔ value x = value m := by
  constructor
  · intro hbest
    have hle := hbest.2 m.1
    rw [← value_of_mem hm, ← value_of_mem hx] at hle
    exact le_antisymm (hmax x hx) hle
  · intro heq
    apply best_of_greatest hx
    intro y hy
    rw [heq]
    exact hmax y hy

/-- The condition, for the entries behind the last greatest one. -/
theorem kept_iff {pre post : List (Int × EnergyHolder)} (hsplit : info frames = pre ++ m :: post)
    (hmax : ∀ x ∈ info frames, value x ≤ value m) (hpost : ∀ x ∈ post, value x < value m) :
    Kept frames ↔ ∀ x ∈ post, value x ≤ remembered (value m) := by
  have hm : m ∈ info frames := by
    rw [hsplit]
    exact List.mem_append_right pre List.mem_cons_self
  have hbest : Best frames m.1 := best_of_greatest hm hmax
  have hord := info_ordered frames
  rw [hsplit, List.pairwise_append] at hord
  obtain ⟨-, hback, hfront⟩ := hord
  -- the best streams are the last greatest entry, and some in front of it
  have hbehind : ∀ x ∈ post, ∀ b, Best frames b → b < x.1 := by
    intro x hx b hb
    have hmem := mem_info.mpr ⟨hb.1, rfl⟩
    have hval := (best_iff_greatest hm hmax hmem).mp hb
    have hmx : m.1 < x.1 := (List.pairwise_cons.mp hback).1 x hx
    rw [hsplit, List.mem_append, List.mem_cons] at hmem
    rcases hmem with hmem | rfl | hmem
    · exact hfront _ hmem x (List.mem_cons_of_mem m hx)
    · exact hmx
    · exact absurd hval (ne_of_lt (hpost _ hmem))
  constructor
  · intro hkept x hx
    have hmem : x ∈ info frames := by
      rw [hsplit]
      exact List.mem_append_right pre (List.mem_cons_of_mem m hx)
    rw [value_of_mem hmem, value_of_mem hm, remembered, score, score, Prod.Lex.toLex_le_toLex]
    have hle := hbest.2 x.1
    rw [score, score, Prod.Lex.toLex_le_toLex] at hle
    rcases hle with hlt | ⟨heq, -⟩
    · exact .inl hlt
    · exact .inr ⟨heq, hkept m.1 x.1 hbest heq (hbehind x hx)⟩
  · intro hall best other hb hwins hlt
    have hbval := (best_iff_greatest hm hmax (mem_info.mpr ⟨hb.1, rfl⟩)).mp hb
    rw [value_of_mem (mem_info.mpr ⟨hb.1, rfl⟩)] at hbval
    have hmem := mem_info.mpr ⟨hwins ▸ hb.1, rfl⟩
    have hin : (other, (⟨wins frames other, total frames other⟩ : EnergyHolder)) ∈ post := by
      rw [hsplit, List.mem_append, List.mem_cons] at hmem
      rcases hmem with hmem | hmem | hmem
      · exact absurd (hfront _ hmem m List.mem_cons_self) (Int.not_lt.mpr
          (Int.le_of_lt (hlt m.1 hbest)))
      · exact absurd (hlt m.1 hbest) (by rw [← hmem]; exact Int.lt_irrefl other)
      · exact hmem
    have hle := hall _ hin
    rw [← hbval, remembered, value, score, Prod.Lex.toLex_le_toLex] at hle
    rcases hle with hle | hle
    · exact absurd hle (Nat.not_lt.mpr (Nat.le_of_eq hwins.symm))
    · exact hle.2

end

/-- Nothing is lost while the energies that frames were won with fit into 31 bits together. -/
theorem kept_of_sum_lt {frames : List Frame}
    (h : ((frames.filterMap winner).map Prod.snd).sum < 2147483648) : Kept frames := by
  have hnonneg : ∀ e ∈ (frames.filterMap winner).map Prod.snd, 0 ≤ e := by
    intro e he
    obtain ⟨w, hw, rfl⟩ := List.mem_map.mp he
    obtain ⟨f, -, hf⟩ := List.mem_filterMap.mp hw
    exact Int.le_of_lt (Int.lt_trans (by decide) (winner_loud hf).2)
  intro best other hb hwins _
  have hle : total frames best ≤ ((frames.filterMap winner).map Prod.snd).sum :=
    (List.filter_sublist.map Prod.snd).sum_le_sum hnonneg
  have hkeep : narrow (total frames best) = total frames best := by
    have h0 := total_nonneg frames best
    rw [narrow, Int32.toInt_ofInt, Int32.size, Int.bmod_def]
    omega
  rw [hkeep]
  have hscore := hb.2 other
  rw [score, score, Prod.Lex.toLex_le_toLex] at hscore
  rcases hscore with hlt | hle
  · exact absurd hlt (Nat.not_lt.mpr (Nat.le_of_eq hwins.symm))
  · exact hle.2

/-- No frame was won if and only if nothing is counted. -/
theorem info_eq_nil_iff {frames : List Frame} :
    info frames = [] ↔ ∀ f ∈ frames, winner f = none := by
  constructor
  · intro hnil f hf
    rcases hw : winner f with - | w
    · rfl
    · have hpos : 0 < wins frames w.1 := by
        rw [wins, List.countP_pos_iff]
        exact ⟨w, List.mem_filterMap.mpr ⟨f, hf, hw⟩, decide_eq_true rfl⟩
      have hmem := mem_info.mpr ⟨hpos, rfl⟩
      rw [hnil] at hmem
      cases hmem
  · intro hnone
    have hws : frames.filterMap winner = [] := List.filterMap_eq_nil_iff.mpr hnone
    rw [info, hws]
    rfl

theorem id_of_mem_info {frames : List Frame} (hids : ∀ f ∈ frames, ∀ u ∈ f, u.1 ≠ -1)
    {x : Int × EnergyHolder} (hx : x ∈ info frames) : x.1 ≠ -1 := by
  obtain ⟨w, hw, heq⟩ := List.countP_pos_iff.mp (wins_pos_of_mem hx)
  obtain ⟨f, hf, hwin⟩ := List.mem_filterMap.mp hw
  rw [← of_decide_eq_true heq]
  exact hids f hf w (winner_loud hwin).1

/-- **The current speaker.**  After any calls that completed a window, whose streams all have
another id than the one that stands for nobody, `CurrentSpeaker` gives that id exactly if no
frame of the window was won, and else a best stream, if and only if no stream behind the best
ones exceeds what 32 bits keep of their energy. -/
theorem current_speaker_iff (size : Int) (listener : Bool) (calls : List Call)
    (frames : List Frame)
    (hwindow : (calls.foldl (Windows.call size) {}).completed = some frames)
    (hids : ∀ f ∈ frames, ∀ u ∈ f, u.1 ≠ -1) :
    let speaker := (calls.foldl call
      { hasListener := listener, definedFrameSize := size }).currentSpeaker
    ((speaker = -1 ↔ ∀ f ∈ frames, winner f = none) ∧
      ((∃ f ∈ frames, winner f ≠ none) → Best frames speaker)) ↔ Kept frames := by
  intro speaker
  have hspeaker : speaker = ((info frames).foldl compareSpeaker (-1, 0, 0)).1 :=
    congrArg (fun l => (List.foldl compareSpeaker (-1, 0, 0) l).1)
      ((run_follows size listener calls).last frames hwindow)
  have hwon : (∃ f ∈ frames, winner f ≠ none) ↔ info frames ≠ [] := by
    rw [ne_eq, info_eq_nil_iff]
    push Not
    rfl
  rw [← info_eq_nil_iff, hwon]
  rcases hinfo : info frames with - | ⟨c, l⟩
  · -- nobody won: the loop does not run, and there is no best stream
    rw [hinfo] at hspeaker
    refine iff_of_true ⟨iff_of_true hspeaker rfl, fun hne => absurd rfl hne⟩ ?_
    intro best other hb
    have hmem := mem_info.mpr ⟨hb.1, rfl⟩
    rw [hinfo] at hmem
    cases hmem
  · have hid : ∀ x ∈ c :: l, x.1 ≠ -1 := by
      rw [← hinfo]
      exact fun x hx => id_of_mem_info hids hx
    have hc : c ∈ info frames := by
      rw [hinfo]
      exact List.mem_cons_self
    have hpos : 0 < c.2.maxTimes := by
      rw [(mem_info.mp hc).2]
      exact wins_pos_of_mem hc
    rw [hinfo, foldl_compareSpeaker_cons hpos hid] at hspeaker
    have hmem : l.foldl (pick value remembered) c ∈ c :: l := foldl_pick_mem
    obtain ⟨pre, m, post, hsplit, hmax, hpost⟩ := exists_last_greatest value c l
    have hr : ∀ x ∈ c :: l, remembered (value x) ≤ value x := by
      rw [← hinfo]
      exact fun x hx => remembered_le hx
    have hm : m ∈ c :: l := by
      rw [hsplit]
      exact List.mem_append_right pre List.mem_cons_self
    have hscan := foldl_pick_iff hsplit hr hmax hpost
    rw [← hinfo] at hsplit hmax hm hmem
    rw [kept_iff hsplit hmax hpost, ← hscan, ← best_iff_greatest hm hmax hmem, hspeaker]
    constructor
    · exact fun h => h.2 (List.cons_ne_nil c l)
    · intro hbest
      refine ⟨iff_of_false ?_ (List.cons_ne_nil c l), fun _ => hbest⟩
      rw [hinfo] at hmem
      exact hid _ hmem

/-- Two frames, each won by one of two streams. -/
def turns (first second : Int) : List Call :=
  [.updateAudioEnergy 1 first, .updateAudioEnergy 2 0, .nextFrame,
    .updateAudioEnergy 1 0, .updateAudioEnergy 2 second, .nextFrame]

/-- The frames of `turns`. -/
def turnFrames (first second : Int) : List Frame := [[(1, first), (2, 0)], [(1, 0), (2, second)]]

/-- With one win each, the louder stream is the speaker. -/
theorem current_speaker_louder :
    ((turns 20000000 30000000).foldl (Windows.call 2) {}).completed =
        some (turnFrames 20000000 30000000) ∧
      (∀ f ∈ turnFrames 20000000 30000000, ∀ u ∈ f, u.1 ≠ -1) ∧
      Best (turnFrames 20000000 30000000)
        ((turns 20000000 30000000).foldl call { definedFrameSize := 2 }).currentSpeaker := by
  have hwindow : ((turns 20000000 30000000).foldl (Windows.call 2) {}).completed =
      some (turnFrames 20000000 30000000) := by decide
  have hids : ∀ f ∈ turnFrames 20000000 30000000, ∀ u ∈ f, u.1 ≠ -1 := by decide
  refine ⟨hwindow, hids, ?_⟩
  have hiff := current_speaker_iff 2 false (turns 20000000 30000000) _ hwindow hids
  exact (hiff.mpr (kept_of_sum_lt (by decide))).2 (by decide)

/-- Two streams win two frames each; of the energy of the first, 32 bits keep -2. -/
def loudTurns : List Call := turns 2147483647 20000000 ++ turns 2147483647 20000000

/-- The stream of the smaller energy is the speaker. -/
theorem loud_stream_passed_over :
    (loudTurns.foldl (Windows.call 4) {}).completed =
        some (turnFrames 2147483647 20000000 ++ turnFrames 2147483647 20000000) ∧
      (loudTurns.foldl call { definedFrameSize := 4 }).currentSpeaker = 2 ∧
      ¬ Best (turnFrames 2147483647 20000000 ++ turnFrames 2147483647 20000000) 2 := by
  refine ⟨by decide, by decide +kernel, ?_⟩
  rintro ⟨-, hmax⟩
  have hle := hmax 1
  rw [score, score, Prod.Lex.toLex_le_toLex] at hle
  revert hle
  decide

end SpeakerEstimator

end Orbit
