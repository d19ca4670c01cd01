/-
OrbitStream/NackPacing.lean

What `KeepTrackRtpSequenceNumber` asks for, and how often.

A number is followed from the call that adds it to the list.  `Call.Ok.fresh` says what a
call does to a number that is not in the list, `Call.Ok.old` what it does to one that is: the
numbers of the list and of the gap behind it are distinct, so that the entry of a number is
the one it had before, visited by the scan.  `Spaced` and `Paced` tie the times at which the
number was put on a NACK to the entry, and `Follows.pace` carries them along a run.

The numbers on a NACK lie in a window of 160, which may wrap.  The encoder sorts them as
plain integers and so splits the window in two, but there are never more than 11 blocks
(`length_nackBlocks_window`), and all of them fit the buffer.
-/
import OrbitStream.NackTracker

namespace Orbit.NackTracker

open Lib Janus

/-! ### The numbers of a call are distinct -/

section

variable {l : List SeqInfo} {newSeqn q : UInt16} {now : Int} {e e' : SeqInfo}

theorem nodup_scanned (h : Shape l) (newSeqn : UInt16) (now : Int) :
    ((scanned l newSeqn now).map SeqInfo.seq).Nodup := by
  obtain ⟨base, hseqs, hlt⟩ := scanned_seqs h newSeqn now
  rw [hseqs]
  have hle : 2 * lastSeqsMaxLen ≤ 2 ^ 16 := by decide
  exact nodup_numbers base (by omega)

theorem Shape.nodup (h : Shape l) : (l.map SeqInfo.seq).Nodup := by
  obtain ⟨base, hseqs⟩ := h.consecutive
  have hle := h.length_le
  have hmax : lastSeqsMaxLen ≤ 2 ^ 16 := by decide
  rw [hseqs]
  exact nodup_numbers base (by omega)

theorem eq_of_seq_eq (h : (l.map SeqInfo.seq).Nodup) (he : e ∈ l) (he' : e' ∈ l)
    (hseq : e.seq = e'.seq) : e = e' :=
  List.inj_on_of_nodup_map h he he' hseq

theorem mem_of_mem_kept (h : e ∈ kept l newSeqn) : e ∈ l := by
  rw [kept] at h
  split at h
  · exact absurd h List.not_mem_nil
  · exact h

/-- A number that is far from the list is not in it. -/
theorem Jump.not_mem (hj : Jump l newSeqn) (h : Shape l) : newSeqn ∉ l.map SeqInfo.seq := by
  obtain ⟨base, hseqs⟩ := h.consecutive
  have hle := h.length_le
  have hmax : lastSeqsMaxLen ≤ 1000 := by decide
  intro hmem
  have hl : l ≠ [] := by
    rintro rfl
    exact absurd hmem List.not_mem_nil
  have hpos := List.length_pos_iff.mpr hl
  -- a number of the list is less than 160 before the last one
  obtain ⟨-, hfar⟩ := hj
  rw [hseqs, mem_numbers (by omega), ahead_eq] at hmem
  rw [curSeqn_eq hseqs hl, ahead_eq, UInt16.toNat_add, UInt16.toNat_ofNat'] at hfar
  have hnew := newSeqn.toNat_lt
  have hbase := base.toNat_lt
  omega

/-- The entries that are added were not in the list. -/
theorem seq_not_mem_of_added (h : Shape l) (he : e ∈ added l newSeqn now) :
    e.seq ∉ l.map SeqInfo.seq := by
  by_cases hj : Jump l newSeqn
  · -- after a jump the new number is the only entry
    have hseq : e.seq = newSeqn := by
      rw [added, kept, if_pos hj] at he
      have hone : ahead newSeqn (curSeqn [] newSeqn) = 1 := by
        have hnew := newSeqn.toNat_lt
        show ahead newSeqn (newSeqn - 1) = 1
        rw [ahead_eq, UInt16.toNat_sub]
        simp only [UInt16.toNat_one]
        omega
      have hmem : e.seq ∈ (gap newSeqn now (newSeqn - 1)).map SeqInfo.seq := by
        rw [if_pos (by rw [hone]; decide)] at he
        exact List.mem_map_of_mem he
      rw [gap_map_seq, show ahead newSeqn (newSeqn - 1) = 1 from hone, numbers_succ] at hmem
      rw [List.mem_singleton.mp hmem]
      exact UInt16.sub_add_cancel newSeqn 1
    rw [hseq]
    exact hj.not_mem h
  · -- otherwise the old entries are still there, and all numbers are distinct
    intro hmem
    obtain ⟨e₀, he₀, hseq⟩ := List.mem_map.mp hmem
    have hnodup := nodup_scanned h newSeqn now
    rw [scanned, kept, if_neg hj, List.map_append, List.nodup_append] at hnodup
    refine hnodup.2.2 e.seq ?_ e.seq (List.mem_map_of_mem he) rfl
    rw [List.map_map, ← hseq]
    exact List.mem_map.mpr ⟨e₀, he₀, visit_seq newSeqn now e₀⟩

end

/-! ### What a call does to a number -/

namespace Call.Ok

variable {c : Call} {q : UInt16} {e e' : SeqInfo}

theorem mem_scanned_of_mem_after (h : c.Ok) (he : e ∈ c.after) : e ∈ c.scanned := by
  rw [h.after] at he
  split at he
  · exact absurd he List.not_mem_nil
  · exact List.mem_of_mem_drop he

theorem mem_nacks (h : c.Ok) : q ∈ c.nacks ↔
    ∃ e ∈ kept c.before c.newSeqn, due c.newSeqn c.now e = true ∧ e.seq = q := by
  rw [h.nacks, nackList, List.mem_map]
  constructor
  · rintro ⟨e, he, hseq⟩
    obtain ⟨hmem, hdue⟩ := List.mem_filter.mp he
    exact ⟨e, List.mem_reverse.mp hmem, hdue, hseq⟩
  · rintro ⟨e, he, hdue, hseq⟩
    exact ⟨e, List.mem_filter.mpr ⟨List.mem_reverse.mpr he, hdue⟩, hseq⟩

theorem nodup_nacks (h : c.Ok) : c.nacks.Nodup := by
  rw [h.nacks, nackList]
  have hsub : (((kept c.before c.newSeqn).reverse.filter (due c.newSeqn c.now)).map
      SeqInfo.seq).Sublist ((kept c.before c.newSeqn).reverse.map SeqInfo.seq) :=
    List.filter_sublist.map SeqInfo.seq
  apply hsub.nodup
  rw [List.map_reverse, List.nodup_reverse]
  exact (h.shape.kept c.newSeqn).nodup

/-- A number that is not in the list is not asked for; its entry is new. -/
theorem fresh (h : c.Ok) (hq : ∀ e ∈ c.before, e.seq ≠ q) :
    q ∉ c.nacks ∧ ∀ e ∈ c.after, e.seq = q →
      e = ⟨c.now, q, if q = c.newSeqn then .recved else .missing, 0⟩ := by
  refine ⟨?_, ?_⟩
  · intro hmem
    obtain ⟨e, he, -, hseq⟩ := h.mem_nacks.mp hmem
    exact hq e (mem_of_mem_kept he) hseq
  · intro e he hseq
    have hmem := h.mem_scanned_of_mem_after he
    rw [h.scanned, NackTracker.scanned] at hmem
    rcases List.mem_append.mp hmem with hold | hnew
    · -- an old entry would have been in the list
      obtain ⟨e₀, he₀, rfl⟩ := List.mem_map.mp hold
      rw [visit_seq] at hseq
      exact absurd hseq (hq e₀ (mem_of_mem_kept he₀))
    · rw [added] at hnew
      split at hnew
      · obtain ⟨q', -, rfl⟩ := List.mem_map.mp hnew
        obtain rfl : q' = q := hseq
        rfl
      · exact absurd hnew List.not_mem_nil

/-- The entry of a number that is in the list is visited, unless the list is given up. -/
theorem old (h : c.Ok) (he : e ∈ c.before) :
    (e.seq ∈ c.nacks ↔ ¬ Jump c.before c.newSeqn ∧ due c.newSeqn c.now e = true) ∧
      ∀ e' ∈ c.scanned, e'.seq = e.seq →
        ¬ Jump c.before c.newSeqn ∧ e' = visit c.newSeqn c.now e := by
  have hkept : ¬ Jump c.before c.newSeqn → kept c.before c.newSeqn = c.before :=
    fun hj => if_neg hj
  refine ⟨?_, ?_⟩
  · rw [h.mem_nacks]
    constructor
    · rintro ⟨e₁, he₁, hdue, hseq⟩
      obtain rfl := eq_of_seq_eq h.shape.nodup (mem_of_mem_kept he₁) he hseq
      refine ⟨?_, hdue⟩
      intro hj
      rw [kept, if_pos hj] at he₁
      exact absurd he₁ List.not_mem_nil
    · rintro ⟨hj, hdue⟩
      exact ⟨e, by rwa [hkept hj], hdue, rfl⟩
  · intro e' he' hseq
    have hnodup := nodup_scanned h.shape c.newSeqn c.now
    rw [← h.scanned] at hnodup
    have hmem := he'
    rw [h.scanned, NackTracker.scanned] at hmem
    rcases List.mem_append.mp hmem with hold | hnew
    · have hj : ¬ Jump c.before c.newSeqn := by
        intro hj
        rw [kept, if_pos hj] at hold
        exact absurd hold List.not_mem_nil
      refine ⟨hj, eq_of_seq_eq hnodup he' ?_ ?_⟩
      · rw [h.scanned, NackTracker.scanned, hkept hj]
        exact List.mem_append_left _ (List.mem_map_of_mem he)
      · rw [hseq, visit_seq]
    · -- the new entries have other numbers
      have hnot := seq_not_mem_of_added h.shape hnew
      rw [hseq] at hnot
      exact absurd (List.mem_map_of_mem he) hnot

end Call.Ok

/-! ### The times at which a number is asked for -/

/-- The times of the calls that put `q` on a NACK. -/
def timesOf (q : UInt16) (calls : List Call) : List Int :=
  calls.flatMap fun c => List.replicate (c.nacks.count q) c.now

theorem timesOf_concat (q : UInt16) (calls : List Call) (c : Call) :
    timesOf q (calls ++ [c]) = timesOf q calls ++ List.replicate (c.nacks.count q) c.now := by
  rw [timesOf, List.flatMap_append, List.flatMap_singleton, timesOf]

/-- The pace of the NACKs for a number whose gap was found at `start`. -/
structure Spaced (start : Int) (times : List Int) : Prop where
  length_le : times.length ≤ maxTimesOfResend + 1
  chain : times.IsChain fun t t' => seqNackedWait < t' - t
  first : ∀ t ∈ times.head?, seqMissingWait < t - start

/-- The entry against the times of its NACKs. -/
structure Paced (start : Int) (times : List Int) (e : SeqInfo) : Prop where
  missing : e.state = .missing → times = [] ∧ e.times = 0 ∧ e.ts = start
  nacked : e.state = .nacked →
    times.length = e.times ∧ e.times ≤ maxTimesOfResend ∧ times.getLast? = some e.ts

/-- The first NACK for a number. -/
theorem spaced_singleton {start t : Int} (h : seqMissingWait < t - start) : Spaced start [t] where
  length_le := by
    show 1 ≤ maxTimesOfResend + 1
    decide
  chain := List.IsChain.singleton t
  first t' ht' := by rwa [← Option.some.inj ht']

/-- One more NACK for a number. -/
theorem Spaced.concat {start t ts : Int} {times : List Int} (h : Spaced start times)
    (hlen : times.length ≤ maxTimesOfResend) (hlast : times.getLast? = some ts)
    (hwait : seqNackedWait < t - ts) : Spaced start (times ++ [t]) where
  length_le := by
    rw [List.length_append, List.length_singleton]
    omega
  chain := by
    rw [List.isChain_append]
    refine ⟨h.chain, List.IsChain.singleton t, ?_⟩
    intro t₁ ht₁ t₂ ht₂
    rw [hlast] at ht₁
    rwa [← Option.some.inj ht₁, ← Option.some.inj ht₂]
  first t' ht' := by
    rcases times with - | ⟨t₁, times⟩
    · cases hlast
    · exact h.first t' ht'

/-- The scan keeps the pace. -/
theorem Paced.visit {start : Int} {times : List Int} {e : SeqInfo} (hp : Paced start times e)
    (hs : Spaced start times) (newSeqn : UInt16) (now : Int) :
    Spaced start (times ++ if due newSeqn now e = true then [now] else []) ∧
      Paced start (times ++ if due newSeqn now e = true then [now] else [])
        (visit newSeqn now e) := by
  rcases visit_cases newSeqn now e with ⟨-, hdue, hvisit⟩ | ⟨-, hstate, hwait, hdue, hvisit⟩ |
    ⟨-, hstate, hwait, hle, hdue, hvisit⟩ | ⟨-, hdue, hvisit⟩
  · rw [hdue, hvisit, if_neg Bool.noConfusion, List.append_nil]
    exact ⟨hs, ⟨fun hno => absurd hno (by simp), fun hno => absurd hno (by simp)⟩⟩
  · -- the first NACK: nothing was sent before
    obtain ⟨htimes, hzero, hts⟩ := hp.missing hstate
    rw [hdue, hvisit, if_pos rfl, htimes, List.nil_append]
    refine ⟨spaced_singleton (by rw [← hts]; exact hwait), ?_, ?_⟩
    · exact fun hno => absurd hno (by simp)
    · intro _
      rw [hzero]
      refine ⟨rfl, ?_, rfl⟩
      show 1 ≤ maxTimesOfResend
      decide
  · -- one more NACK: the time of the last one is in the entry
    obtain ⟨hlen, -, hlast⟩ := hp.nacked hstate
    rw [hdue, hvisit, if_pos rfl]
    refine ⟨hs.concat (by omega) hlast hwait, ?_, ?_⟩
    · intro hno
      simp only [hstate] at hno
      split at hno
      · cases hno
      · cases hno
    · intro hnacked
      simp only at hnacked
      split at hnacked
      · cases hnacked
      · next hgt =>
        refine ⟨?_, Nat.le_of_not_lt hgt, List.getLast?_concat⟩
        rw [List.length_append, List.length_singleton, hlen]
  · rw [hdue, hvisit, if_neg Bool.noConfusion, List.append_nil]
    exact ⟨hs, hp⟩

/-- An entry whose packet has arrived is not asked for. -/
theorem visit_recved {newSeqn : UInt16} {now : Int} {e : SeqInfo}
    (h : e.state = .recved ∨ e.seq = newSeqn) :
    due newSeqn now e = false ∧ (visit newSeqn now e).state = .recved := by
  rcases visit_cases newSeqn now e with ⟨-, hdue, hvisit⟩ | ⟨hne, hstate, -⟩ | ⟨hne, hstate, -⟩ |
    ⟨hne, hdue, hvisit⟩
  · exact ⟨hdue, by rw [hvisit]⟩
  · rw [hstate] at h
    exact absurd (h.resolve_left SeqState.noConfusion) hne
  · rw [hstate] at h
    exact absurd (h.resolve_left SeqState.noConfusion) hne
  · exact ⟨hdue, by rw [hvisit]; exact h.resolve_right hne⟩

/-! ### Runs keep the pace -/

/-- The calls that follow a number: `c` adds it, and it is in the list when each of `post`
begins. -/
structure Follows (q : UInt16) (c : Call) (post : List Call) : Prop where
  calls : ∀ d ∈ c :: post, d.Ok
  chain : (c :: post).IsChain fun d d' => d'.before = d.after
  absent : ∀ e ∈ c.before, e.seq ≠ q
  stays : ∀ d ∈ post, ∃ e ∈ d.before, e.seq = q

namespace Follows

variable {q : UInt16} {c d : Call} {post rest : List Call}

theorem left (h : Follows q c (post ++ rest)) : Follows q c post where
  calls d hd := h.calls d (by
    rw [← List.cons_append]
    exact List.mem_append_left rest hd)
  chain := by
    have hchain := h.chain
    rw [← List.cons_append, List.isChain_append] at hchain
    exact hchain.1
  absent := h.absent
  stays d hd := h.stays d (List.mem_append_left rest hd)

/-- A call starts from what the one before it left. -/
theorem before_eq (h : Follows q c (post ++ [d])) : d.before = lastAfter (c :: post) := by
  have hchain := h.chain
  rw [← List.cons_append, List.isChain_append] at hchain
  obtain ⟨b, hb⟩ : ∃ b, (c :: post).getLast? = some b :=
    ⟨_, List.getLast?_eq_some_getLast (List.cons_ne_nil c post)⟩
  rw [lastAfter, hb]
  exact hchain.2.2 b hb d rfl

/-- The number is asked for at its pace, and its entry shows when it was last asked for, or
that its packet has arrived. -/
structure Pace (q : UInt16) (c : Call) (post : List Call) : Prop where
  spaced : Spaced c.now (timesOf q (c :: post))
  entry : ∀ e ∈ lastAfter (c :: post), e.seq = q → Paced c.now (timesOf q (c :: post)) e
  recved : ∀ e ∈ lastAfter (c :: post), e.seq = q → (∃ d ∈ c :: post, d.newSeqn = q) →
    e.state = .recved

theorem pace_nil (h : Follows q c []) : Pace q c [] := by
  obtain ⟨hsilent, hnew⟩ := (h.calls c List.mem_cons_self).fresh h.absent
  have htimes : timesOf q [c] = [] := by
    rw [timesOf, List.flatMap_singleton, List.count_eq_zero_of_not_mem hsilent]
    rfl
  refine ⟨?_, ?_, ?_⟩
  · rw [htimes]
    exact ⟨Nat.zero_le _, List.IsChain.nil, fun t ht => by cases ht⟩
  · intro e he hseq
    rw [htimes, hnew e he hseq]
    refine ⟨fun _ => ⟨rfl, rfl, rfl⟩, ?_⟩
    intro hnacked
    simp only at hnacked
    split at hnacked
    · cases hnacked
    · cases hnacked
  · rintro e he hseq ⟨d, hd, hrecved⟩
    rw [List.mem_singleton.mp hd] at hrecved
    rw [hnew e he hseq]
    exact if_pos hrecved.symm

/-- A further call keeps the pace. -/
theorem pace_concat (h : Follows q c (post ++ [d])) (hpace : Pace q c post) :
    Pace q c (post ++ [d]) := by
  obtain ⟨e, he, hseq⟩ := h.stays d (List.mem_append_right post List.mem_cons_self)
  have hok := h.calls d (List.mem_cons_of_mem c (List.mem_append_right post List.mem_cons_self))
  obtain ⟨hnacks, hvisited⟩ := hok.old he
  rw [hseq] at hnacks hvisited
  rw [h.before_eq] at he
  obtain ⟨hspaced, hpaced⟩ := (hpace.entry e he hseq).visit hpace.spaced d.newSeqn d.now
  have hrecved := hpace.recved e he hseq
  by_cases hj : Jump d.before d.newSeqn
  · -- the list is given up, and the number with it
    have hgone : ∀ e' ∈ d.after, e'.seq ≠ q := fun e' he' hseq' =>
      absurd hj (hvisited e' (hok.mem_scanned_of_mem_after he') hseq').1
    have hcount : d.nacks.count q = 0 :=
      List.count_eq_zero_of_not_mem fun hmem => (hnacks.mp hmem).1 hj
    refine ⟨?_, ?_, ?_⟩
    · rw [← List.cons_append, timesOf_concat, hcount, List.replicate_zero, List.append_nil]
      exact hpace.spaced
    · rw [← List.cons_append, lastAfter_concat]
      exact fun e' he' hseq' => absurd hseq' (hgone e' he')
    · rw [← List.cons_append, lastAfter_concat]
      exact fun e' he' hseq' => absurd hseq' (hgone e' he')
  · have htimes : timesOf q (c :: post ++ [d]) =
        timesOf q (c :: post) ++ if due d.newSeqn d.now e = true then [d.now] else [] := by
      rw [timesOf_concat, hok.nodup_nacks.count]
      by_cases hdue : due d.newSeqn d.now e = true
      · rw [if_pos hdue, if_pos (hnacks.mpr ⟨hj, hdue⟩)]
        rfl
      · rw [if_neg hdue, if_neg fun hmem => hdue (hnacks.mp hmem).2]
        rfl
    have hsame : ∀ e' ∈ d.after, e'.seq = q → e' = visit d.newSeqn d.now e := fun e' he' hseq' =>
      (hvisited e' (hok.mem_scanned_of_mem_after he') hseq').2
    refine ⟨?_, ?_, ?_⟩
    · rw [← List.cons_append, htimes]
      exact hspaced
    · rw [← List.cons_append, htimes, lastAfter_concat]
      intro e' he' hseq'
      rw [hsame e' he' hseq']
      exact hpaced
    · rw [← List.cons_append, lastAfter_concat]
      rintro e' he' hseq' ⟨d', hd', hnew⟩
      rw [hsame e' he' hseq']
      refine (visit_recved ?_).2
      rcases List.mem_append.mp hd' with hd' | hd'
      · exact Or.inl (hrecved ⟨d', hd', hnew⟩)
      · rw [List.mem_singleton.mp hd'] at hnew
        exact Or.inr (hseq.trans hnew.symm)

theorem pace (h : Follows q c post) : Pace q c post := by
  induction post using List.reverseRecOn with
  | nil => exact h.pace_nil
  | append_singleton post d ih => exact h.pace_concat (ih h.left)

/-- The number is not asked for once its packet has arrived. -/
theorem silent (h : Follows q c (post ++ [d]))
    (hrec : ∃ d' ∈ c :: (post ++ [d]), d'.newSeqn = q) : q ∉ d.nacks := by
  obtain ⟨e, he, hseq⟩ := h.stays d (List.mem_append_right post List.mem_cons_self)
  have hok := h.calls d (List.mem_cons_of_mem c (List.mem_append_right post List.mem_cons_self))
  intro hmem
  rw [← hseq] at hmem
  have hdue := ((hok.old he).1.mp hmem).2
  have hstate : e.state = .recved ∨ e.seq = d.newSeqn := by
    obtain ⟨d', hd', hnew⟩ := hrec
    rw [← List.cons_append] at hd'
    rcases List.mem_append.mp hd' with hd' | hd'
    · rw [h.before_eq] at he
      exact Or.inl (h.left.pace.recved e he hseq ⟨d', hd', hnew⟩)
    · rw [List.mem_singleton.mp hd'] at hnew
      exact Or.inr (hseq.trans hnew.symm)
  rw [(visit_recved hstate).1] at hdue
  cases hdue

end Follows

theorem follows_of_run {enableNackRequestFir : Bool} {events : List Event} {p : NackProcessor}
    {pre post : List Call} {c : Call} {q : UInt16}
    (hrun : run enableNackRequestFir events = some (p, pre ++ c :: post))
    (hnew : ∀ e ∈ c.before, e.seq ≠ q) (hstay : ∀ d ∈ post, ∃ e ∈ d.before, e.seq = q) :
    Follows q c post := by
  obtain ⟨s, hrun', htracks⟩ := tracks_run enableNackRequestFir events
  obtain rfl := Option.some.inj (hrun'.symm.trans hrun)
  refine ⟨fun d hd => htracks.calls d (List.mem_append_right pre hd), ?_, hnew, hstay⟩
  exact (List.isChain_append.mp htracks.chain).2.1

/-- From the call that adds a number to the list, and as long as the number is in the list
when a call begins: it is put on a NACK at most 11 times, not from the arrival of its packet
on, the first time more than 12 ms after the gap was found, and then more than 155 ms
apart. -/
theorem nack_pacing (enableNackRequestFir : Bool) (events : List Event) (p : NackProcessor)
    (pre : List Call) (c : Call) (post : List Call) (q : UInt16)
    (hrun : run enableNackRequestFir events = some (p, pre ++ c :: post))
    (hnew : ∀ e ∈ c.before, e.seq ≠ q) (hstay : ∀ d ∈ post, ∃ e ∈ d.before, e.seq = q) :
    (timesOf q (c :: post)).length ≤ maxTimesOfResend + 1 ∧
      (∀ calls d calls', c :: post = calls ++ d :: calls' → d.newSeqn = q →
        ∀ d' ∈ d :: calls', q ∉ d'.nacks) ∧
      (∀ t ∈ (timesOf q (c :: post)).head?, seqMissingWait < t - c.now) ∧
      (timesOf q (c :: post)).IsChain fun t t' => seqNackedWait < t' - t := by
  have hfollows := follows_of_run hrun hnew hstay
  obtain ⟨hlen, hchain, hfirst⟩ := hfollows.pace.spaced
  refine ⟨hlen, ?_, hfirst, hchain⟩
  intro calls d calls' heq hd d' hd'
  obtain ⟨mid, rest, hmid⟩ := List.append_of_mem hd'
  -- the calls up to `d'`, with the arrival among them
  have hsplit : c :: post = (calls ++ mid) ++ d' :: rest := by rw [heq, hmid, List.append_assoc]
  have hmem : d ∈ (calls ++ mid) ++ [d'] := by
    rcases mid with - | ⟨d₀, mid⟩
    · rw [(List.cons.inj hmid).1]
      exact List.mem_append_right _ List.mem_cons_self
    · rw [(List.cons.inj hmid).1]
      exact List.mem_append_left _ (List.mem_append_right _ List.mem_cons_self)
  generalize calls ++ mid = before at hsplit hmem
  rcases before with - | ⟨c₀, before⟩
  · rw [← (List.cons.inj hsplit).1]
    exact ((hfollows.calls c List.mem_cons_self).fresh hnew).1
  · rw [List.cons_append] at hsplit
    obtain ⟨rfl, rfl⟩ := List.cons.inj hsplit
    rw [← List.singleton_append, ← List.append_assoc] at hfollows
    exact hfollows.left.silent ⟨d, hmem, hd⟩

/-- The packets 1, 3 and 4, and 4 once more. -/
def gapEvents : List Event :=
  [.track 1 0 0 fun _ => 0, .track 3 10 0 fun _ => 0, .track 4 20000 0 fun _ => 0,
    .track 4 175001 0 fun _ => 0]

theorem gapEvents_calls :
    ∃ p c₁ c₂ c₃ c₄, run false gapEvents = some (p, [c₁] ++ c₂ :: [c₃, c₄]) ∧
      (∀ e ∈ c₂.before, e.seq ≠ 2) ∧ (∀ d ∈ [c₃, c₄], ∃ e ∈ d.before, e.seq = 2) ∧
      timesOf 2 (c₂ :: [c₃, c₄]) = [20000, 175001] ∧ c₃.flushed = false := by
  obtain ⟨⟨p, calls⟩, hrun, -⟩ := tracks_run false gapEvents
  have hcalls : (run false gapEvents).map (fun s => s.2.map fun c =>
      (c.before.map SeqInfo.seq, c.now, c.nacks, c.flushed)) =
      some [([], 0, [], false), ([1], 10, [], false), ([1, 2, 3], 20000, [2], false),
        ([1, 2, 3, 4], 175001, [2], false)] := by
    decide +kernel
  rw [hrun, Option.map_some] at hcalls
  -- the run has four calls
  obtain ⟨c₁, l₁, rfl, -, hcalls⟩ := List.map_eq_cons_iff.mp (Option.some.inj hcalls)
  obtain ⟨c₂, l₂, rfl, hc₂, hcalls⟩ := List.map_eq_cons_iff.mp hcalls
  obtain ⟨c₃, l₃, rfl, hc₃, hcalls⟩ := List.map_eq_cons_iff.mp hcalls
  obtain ⟨c₄, l₄, rfl, hc₄, hcalls⟩ := List.map_eq_cons_iff.mp hcalls
  obtain rfl := List.map_eq_nil_iff.mp hcalls
  simp only [Prod.mk.injEq] at hc₂ hc₃ hc₄
  refine ⟨p, c₁, c₂, c₃, c₄, hrun, ?_, ?_, ?_, hc₃.2.2.2⟩
  · intro e he hseq
    have hmem : (2 : UInt16) ∈ c₂.before.map SeqInfo.seq := hseq ▸ List.mem_map_of_mem he
    rw [hc₂.1] at hmem
    exact absurd hmem (by decide)
  · have hthree : (2 : UInt16) ∈ c₃.before.map SeqInfo.seq := by
      rw [hc₃.1]
      decide
    have hfour : (2 : UInt16) ∈ c₄.before.map SeqInfo.seq := by
      rw [hc₄.1]
      decide
    simpa using And.intro (List.mem_map.mp hthree) (List.mem_map.mp hfour)
  · simp only [timesOf, List.flatMap_cons, List.flatMap_nil, hc₂.2.1, hc₂.2.2.1, hc₃.2.1,
      hc₃.2.2.1, hc₄.2.1, hc₄.2.2.1]
    decide

theorem nack_pacing_gap :
    ∃ p c₁ c₂ c₃ c₄, run false gapEvents = some (p, [c₁] ++ c₂ :: [c₃, c₄]) ∧
      timesOf 2 [c₂, c₃, c₄] = [20000, 175001] ∧
      (timesOf 2 [c₂, c₃, c₄]).IsChain fun t t' => seqNackedWait < t' - t := by
  obtain ⟨p, c₁, c₂, c₃, c₄, hrun, hnew, hstay, htimes, -⟩ := gapEvents_calls
  exact ⟨p, c₁, c₂, c₃, c₄, hrun, htimes,
    (nack_pacing false gapEvents p [c₁] c₂ [c₃, c₄] 2 hrun hnew hstay).2.2.2⟩

/-! ### The NACK fits its buffer -/

/-- Numbers in two intervals, the first of them in the lower one. -/
theorem length_blocks_split {pid mid lo hi : Nat} (blp : Nat) {ns : List Nat} (hpid : pid ≤ mid)
    (hmid : mid ≤ hi) (hlo : lo ≤ hi) (hns : ∀ n ∈ ns, n ≤ mid ∨ lo ≤ n ∧ n ≤ hi) :
    pid + 17 * (blocks pid blp ns).length + lo ≤ mid + hi + 34 := by
  induction ns generalizing pid blp with
  | nil =>
    simp only [blocks, List.length_singleton]
    omega
  | cons n ns ih =>
    rw [List.forall_mem_cons] at hns
    rw [blocks]
    split
    · exact ih blp hpid hns.2
    · split
      · rw [List.length_cons]
        rcases hns.1 with hlow | hhigh
        · have hrest := ih 0 hlow hns.2
          omega
        · -- from here on all new blocks are in the upper interval
          have hle : ∀ n' ∈ ns, n' ≤ hi := by
            intro n' hn'
            rcases hns.2 n' hn' with h | h
            · omega
            · exact h.2
          have hrest := length_blocks_le 0 hi hhigh.2 hle
          omega
      · exact ih _ hpid hns.2

/-- Numbers in a window of 160 need at most 11 blocks, also when it wraps. -/
theorem length_nackBlocks_window {nacks : List UInt16} (base : UInt16) {n : Nat}
    (hn : n ≤ lastSeqsMaxLen) (h : ∀ q ∈ nacks, ahead q base < n) :
    (nackBlocks nacks).length ≤ 11 := by
  have hmax : lastSeqsMaxLen = 160 := rfl
  have hbase := base.toNat_lt
  have hmem : ∀ v ∈ (sorted nacks).map UInt16.toNat,
      (2 ^ 16 - base.toNat + v) % 2 ^ 16 < n ∧ v < 2 ^ 16 := by
    intro v hv
    obtain ⟨q, hq, rfl⟩ := List.mem_map.mp hv
    rw [← ahead_eq]
    exact ⟨h q ((List.perm_insertionSort sortAsc nacks).mem_iff.mp hq), q.toNat_lt⟩
  rw [nackBlocks]
  generalize (sorted nacks).map UInt16.toNat = values at hmem ⊢
  rcases values with - | ⟨pid, ns⟩
  · exact Nat.zero_le _
  · rw [List.forall_mem_cons] at hmem
    obtain ⟨⟨hpid, hpid'⟩, hns⟩ := hmem
    show (blocks pid 0 ns).length ≤ 11
    by_cases hwrap : base.toNat + n ≤ 2 ^ 16
    · -- one interval
      have hle : ∀ v ∈ ns, v ≤ base.toNat + n - 1 := by
        intro v hv
        have hv' := hns v hv
        omega
      have hcount := length_blocks_le 0 (base.toNat + n - 1) (show pid ≤ _ by omega) hle
      omega
    · by_cases hlow : pid < base.toNat
      · -- the window wraps, and the smallest number is behind the wrap
        have hsplit : ∀ v ∈ ns, v ≤ base.toNat + n - 1 - 2 ^ 16 ∨
            base.toNat ≤ v ∧ v ≤ 2 ^ 16 - 1 := by
          intro v hv
          have hv' := hns v hv
          omega
        have hcount := length_blocks_split 0 (show pid ≤ _ by omega) (by omega) (by omega) hsplit
        omega
      · -- all numbers are before the wrap
        have hle : ∀ v ∈ ns, v ≤ 2 ^ 16 - 1 := by
          intro v hv
          have hv' := hns v hv
          omega
        have hcount := length_blocks_le 0 (2 ^ 16 - 1) (show pid ≤ _ by omega) hle
        omega

/-- The numbers on a NACK are those whose entry was counted up. -/
theorem Call.Ok.mem_nacks_iff_times {c : Call} (h : c.Ok) (q : UInt16) :
    q ∈ c.nacks ↔
      ∃ e ∈ c.before, ∃ e' ∈ c.scanned, e.seq = q ∧ e'.seq = q ∧ e'.times = e.times + 1 := by
  constructor
  · intro hmem
    obtain ⟨e, he, hdue, rfl⟩ := h.mem_nacks.mp hmem
    refine ⟨e, mem_of_mem_kept he, visit c.newSeqn c.now e, ?_, rfl, visit_seq _ _ e, ?_⟩
    · rw [h.scanned, NackTracker.scanned]
      exact List.mem_append_left _ (List.mem_map_of_mem he)
    · rcases visit_cases c.newSeqn c.now e with ⟨-, hno, -⟩ | ⟨-, -, -, -, hvisit⟩ |
        ⟨-, -, -, -, -, hvisit⟩ | ⟨-, hno, -⟩
      · rw [hno] at hdue
        cases hdue
      · rw [hvisit]
      · rw [hvisit]
      · rw [hno] at hdue
        cases hdue
  · rintro ⟨e, he, e', he', rfl, hseq, htimes⟩
    obtain ⟨hnacks, hvisited⟩ := h.old he
    obtain ⟨hj, rfl⟩ := hvisited e' he' hseq
    refine hnacks.mpr ⟨hj, ?_⟩
    -- where the entry is not due its counter stays
    rcases visit_cases c.newSeqn c.now e with ⟨-, -, hvisit⟩ | ⟨-, -, -, hdue, -⟩ |
      ⟨-, -, -, -, hdue, -⟩ | ⟨-, -, hvisit⟩
    · rw [hvisit] at htimes
      exact absurd htimes (Nat.ne_of_lt (Nat.lt_succ_self _))
    · exact hdue
    · exact hdue
    · rw [hvisit] at htimes
      exact absurd htimes (Nat.ne_of_lt (Nat.lt_succ_self _))

theorem Call.Ok.length_nackBlocks {c : Call} (h : c.Ok) : (nackBlocks c.nacks).length ≤ 11 := by
  obtain ⟨base, hseqs⟩ := h.shape.consecutive
  have hle := h.shape.length_le
  have hmax : lastSeqsMaxLen ≤ 2 ^ 16 := by decide
  refine length_nackBlocks_window base hle ?_
  intro q hq
  obtain ⟨e, he, -, rfl⟩ := h.mem_nacks.mp hq
  have hmem : e.seq ∈ c.before.map SeqInfo.seq := List.mem_map_of_mem (mem_of_mem_kept he)
  rwa [hseqs, mem_numbers (by omega)] at hmem

/-- The NACK of a call that does not give up the list fits the buffer of 120 bytes, and
decoding it yields the numbers of the entries that the call counted up. -/
theorem nack_emission (enableNackRequestFir : Bool) (events : List Event) (p : NackProcessor)
    (calls : List Call) (hrun : run enableNackRequestFir events = some (p, calls)) (c : Call)
    (hc : c ∈ calls) (hkept : c.flushed = false) :
    ∃ n : Nat, c.res = (n : Int) ∧ n ≤ 120 ∧
      ∃ list, getNacks (below n) c.nackbuf n = .ok list ∧
        ∀ v, v ∈ list ↔ ∃ e ∈ c.before, ∃ e' ∈ c.scanned,
          e.seq.toNat = v ∧ e'.seq.toNat = v ∧ e'.times = e.times + 1 := by
  obtain ⟨s, hrun', htracks⟩ := tracks_run enableNackRequestFir events
  obtain rfl := Option.some.inj (hrun'.symm.trans hrun)
  have hok := htracks.calls c hc
  have hmarked : ∀ v, v ∈ ascending c.nacks ↔ ∃ e ∈ c.before, ∃ e' ∈ c.scanned,
      e.seq.toNat = v ∧ e'.seq.toNat = v ∧ e'.times = e.times + 1 := by
    intro v
    rw [mem_ascending, List.mem_map]
    constructor
    · rintro ⟨q, hq, rfl⟩
      obtain ⟨e, he, e', he', rfl, hseq, htimes⟩ := (hok.mem_nacks_iff_times q).mp hq
      exact ⟨e, he, e', he', rfl, by rw [hseq], htimes⟩
    · rintro ⟨e, he, e', he', rfl, hseq, htimes⟩
      refine ⟨e.seq, (hok.mem_nacks_iff_times e.seq).mpr ?_, rfl⟩
      exact ⟨e, he, e', he', rfl, UInt16.toNat_inj.mp hseq, htimes⟩
  obtain ⟨m, hres⟩ := hok.res hkept
  have hblocks := hok.length_nackBlocks
  by_cases hnacks : c.nacks = []
  · -- nothing is lost, and no NACK is made
    rw [hnacks] at hres hmarked
    refine ⟨0, congrArg Prod.fst hres, Nat.zero_le 120, ascending [], ?_, hmarked⟩
    rw [getNacks, if_pos rfl]
    rfl
  · have hspec := rtcpNackCreate_spec m hnacks
    rw [if_pos (by omega)] at hspec
    obtain ⟨m', hcreate, hread⟩ := hspec
    rw [hcreate, Prod.mk.injEq] at hres
    refine ⟨12 + 4 * (nackBlocks c.nacks).length, hres.1, by omega, ascending c.nacks, ?_, hmarked⟩
    rw [hres.2]
    exact hread

theorem nack_emission_gap :
    ∃ p c₁ c₂ c₃ c₄, run false gapEvents = some (p, [c₁, c₂, c₃, c₄]) ∧ c₃.flushed = false ∧
      ∃ n : Nat, c₃.res = (n : Int) ∧ n ≤ 120 := by
  obtain ⟨p, c₁, c₂, c₃, c₄, hrun, -, -, -, hkept⟩ := gapEvents_calls
  obtain ⟨n, hres, hle, -⟩ := nack_emission false gapEvents p _ hrun c₃ (by simp) hkept
  exact ⟨p, c₁, c₂, c₃, c₄, hrun, hkept, n, hres, hle⟩

end Orbit.NackTracker
