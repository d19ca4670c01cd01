/-
OrbitStream/RtpSender.lean

The queue of outgoing packets (`rtp_sender.h`, `rtp_sender.cc`).

`WriteAndSend` puts packets into a priority queue, and the sender thread takes the
top of the queue and writes it to its transport.  Packets of a smaller priority
number go first, and among these the one with the earliest sequence number.

`RtpSendPacketComparator` falls back to the sequence numbers also when the first
packet has the smaller priority number, so of two packets each may come before the
other; and it compares sequence numbers that wrap as integers.  `send_order` says on
which packets this does not matter.
-/
import OrbitStream.Rtp
import OrbitStream.Lib.Heap
import OrbitStream.Lib.Run
import OrbitStream.Lib.Serial

namespace Orbit

open Lib

/-- `RtpSendPacket`; the sequence number is the one of the buffer. -/
structure RtpSendPacket where
  priority : Int
  seqn : UInt16
  queueTs : Int
  transport : Nat
  buf : List UInt8
  deriving DecidableEq, Repr

namespace RtpSender

/-- `RtpSendPacketComparator`: is `a` behind `b` in the queue? -/
def comparator (a b : RtpSendPacket) : Bool :=
  if a.priority > b.priority then true
  else if a.seqn > b.seqn then true
  else false

/-- `RtpSender`: the queue, and the packets that were written to their transports. -/
structure State where
  sendPq : List RtpSendPacket := []
  written : List RtpSendPacket := []
  deriving DecidableEq, Repr

/-- `WriteAndSend`. -/
def writeAndSend (s : State) (transport : Nat) (priority : Int) (data : List UInt8) (now : Int) :
    State :=
  let packet : RtpSendPacket :=
    { priority := priority
      seqn := RtpHeader.getSeqNumber data
      queueTs := now
      transport := transport
      buf := data }
  { s with sendPq := Heap.push comparator s.sendPq packet }

/-- One round of `SendThreadLoop`. -/
def sendThreadLoop (s : State) (transportReady : Bool) : State :=
  match transportReady, Heap.top s.sendPq with
  | true, some p => { sendPq := Heap.pop comparator s.sendPq, written := s.written ++ [p] }
  | _, _ => s

/-! ### The intended order -/

/-- `p` is to be sent next: no packet that waits has a smaller priority number, and none
of the same priority has an earlier sequence number. -/
def Next (p : RtpSendPacket) (waiting : List RtpSendPacket) : Prop :=
  p ∈ waiting ∧ ∀ q ∈ waiting, p.priority ≤ q.priority ∧
    (q.priority = p.priority → ahead q.seqn p.seqn < 2 ^ 15)

/-- Packets that are to be sent first do not have greater sequence numbers. -/
def Consistent (waiting : List RtpSendPacket) : Prop :=
  ∀ a ∈ waiting, ∀ b ∈ waiting, a.priority < b.priority → a.seqn ≤ b.seqn

/-- The sequence numbers of the packets to be sent first do not wrap. -/
def Unwrapped (waiting : List RtpSendPacket) : Prop :=
  ∀ a ∈ waiting, ∀ b ∈ waiting, (∀ q ∈ waiting, a.priority ≤ q.priority) →
    b.priority = a.priority → b.seqn.toNat < a.seqn.toNat + 2 ^ 15

instance (waiting : List RtpSendPacket) : Decidable (Consistent waiting) :=
  inferInstanceAs (Decidable (∀ a ∈ waiting, ∀ b ∈ waiting, _ → _))

instance (waiting : List RtpSendPacket) : Decidable (Unwrapped waiting) :=
  inferInstanceAs (Decidable (∀ a ∈ waiting, ∀ b ∈ waiting, _ → _ → _))

theorem comparator_eq_false {a b : RtpSendPacket} :
    comparator a b = false ↔ a.priority ≤ b.priority ∧ a.seqn ≤ b.seqn := by
  simp [comparator]

theorem comparator_eq_true {a b : RtpSendPacket} :
    comparator a b = true ↔ b.priority < a.priority ∨ b.seqn < a.seqn := by
  simp only [comparator]
  split
  · simp [*]
  · simp [*]

/-- The comparator is a strict weak order if and only if no two packets each come before
the other. -/
theorem comparator_weakOn_iff {waiting : List RtpSendPacket} :
    Heap.WeakOn comparator (· ∈ waiting) ↔ Consistent waiting := by
  constructor
  · intro h a ha b hb hab
    have hba : comparator b a = true := comparator_eq_true.mpr (Or.inl hab)
    exact (comparator_eq_false.mp (h.asymm hb ha hba)).2
  · intro h
    refine ⟨?_, ?_⟩
    · intro a b ha hb hab
      apply comparator_eq_false.mpr
      rcases comparator_eq_true.mp hab with hprio | hseq
      · exact ⟨Int.le_of_lt hprio, h b hb a ha hprio⟩
      · refine ⟨?_, UInt16.le_of_lt hseq⟩
        apply Int.not_lt.mp
        intro hlt
        exact UInt16.not_le.mpr hseq (h a ha b hb hlt)
    · intro a b c ha hb hc hab hbc
      rw [comparator_eq_false] at hab hbc ⊢
      exact ⟨Int.le_trans hab.1 hbc.1, UInt16.le_trans hab.2 hbc.2⟩

/-- A packet that is behind no other is to be sent next, if the numbers do not wrap. -/
theorem next_iff {p : RtpSendPacket} {waiting : List RtpSendPacket} (hp : p ∈ waiting)
    (hall : ∀ q ∈ waiting, comparator p q = false) : Next p waiting ↔ Unwrapped waiting := by
  have hprio : ∀ q ∈ waiting, p.priority ≤ q.priority :=
    fun q hq => (comparator_eq_false.mp (hall q hq)).1
  have hseq : ∀ q ∈ waiting, p.seqn.toNat ≤ q.seqn.toNat :=
    fun q hq => UInt16.le_iff_toNat_le.mp (comparator_eq_false.mp (hall q hq)).2
  have hahead : ∀ q ∈ waiting, ahead q.seqn p.seqn = q.seqn.toNat - p.seqn.toNat := by
    intro q hq
    have hle := hseq q hq
    have hlt := q.seqn.toNat_lt
    rw [ahead_eq]
    omega
  constructor
  · rintro ⟨-, hnext⟩ a ha b hb hmin hab
    -- both are of the smallest priority number, so `b` is not far ahead of `p`
    have hpa : a.priority = p.priority := Int.le_antisymm (hmin p hp) (hprio a ha)
    have hdist := (hnext b hb).2 (hab.trans hpa)
    rw [hahead b hb] at hdist
    have hle := hseq a ha
    omega
  · intro hun
    refine ⟨hp, ?_⟩
    intro q hq
    refine ⟨hprio q hq, ?_⟩
    intro hqp
    have hlt := hun p hp q hq hprio hqp
    rw [hahead q hq]
    omega

/-! ### The order in which packets are sent -/

/-- A packet is written to the queue, or the thread makes a round. -/
inductive Event
  | write (transport : Nat) (priority : Int) (data : List UInt8) (now : Int)
  | round (transportReady : Bool)
  deriving DecidableEq, Repr

def step (s : State) : Event → State
  | .write transport priority data now => writeAndSend s transport priority data now
  | .round transportReady => sendThreadLoop s transportReady

/-- The packet that a round would take from the queue after packets were pushed. -/
def dequeued (order : List RtpSendPacket) : Option RtpSendPacket :=
  Heap.top (order.foldl (Heap.push comparator) [])

/-- The condition on a run: a packet that is written is consistent with those that
wait, and the numbers do not wrap when a packet is taken. -/
def Orderly (s : State) : Event → Prop
  | .write transport priority data now =>
      Consistent (⟨priority, RtpHeader.getSeqNumber data, now, transport, data⟩ :: s.sendPq)
  | .round _ => Unwrapped s.sendPq

instance (s : State) : (e : Event) → Decidable (Orderly s e)
  | .write .. => inferInstanceAs (Decidable (Consistent _))
  | .round _ => inferInstanceAs (Decidable (Unwrapped _))

theorem Consistent.of_subset {l l' : List RtpSendPacket} (h : Consistent l)
    (hs : ∀ p ∈ l', p ∈ l) : Consistent l' :=
  fun a ha b hb => h a (hs a ha) b (hs b hb)

/-- The queue of a run: a heap of packets that are consistent. -/
structure Queued (s : State) : Prop where
  isHeap : Heap.IsHeap comparator s.sendPq
  consistent : Consistent s.sendPq

theorem Queued.weakOn {s : State} (h : Queued s) : Heap.WeakOn comparator (· ∈ s.sendPq) :=
  comparator_weakOn_iff.mpr h.consistent

/-- The packet on top of a heap is behind no other. -/
theorem Queued.top {s : State} (h : Queued s) {p : RtpSendPacket}
    (hp : Heap.top s.sendPq = some p) :
    p ∈ s.sendPq ∧ ∀ q ∈ s.sendPq, comparator p q = false := by
  refine ⟨List.mem_of_head? hp, ?_⟩
  intro q hq
  exact h.isHeap.not_lt_top (fun _ ha => ha) h.weakOn hp hq

theorem step_queued {s : State} {e : Event} (h : Queued s) (he : Orderly s e) :
    Queued (step s e) := by
  cases e with
  | write transport priority data now =>
    have ho := comparator_weakOn_iff.mpr he
    have hperm : (Heap.push comparator s.sendPq
        ⟨priority, RtpHeader.getSeqNumber data, now, transport, data⟩).Perm _ :=
      Heap.push_perm s.sendPq _
    refine ⟨?_, ?_⟩
    · exact Heap.push_isHeap ho (fun a ha => List.mem_cons_of_mem _ ha) List.mem_cons_self
        h.isHeap
    · exact he.of_subset fun p hp => hperm.mem_iff.mp hp
  | round ready =>
    have hpop := Heap.pop_spec h.weakOn (fun _ ha => ha) h.isHeap
    simp only [step, sendThreadLoop]
    split
    · refine ⟨hpop.1, ?_⟩
      exact h.consistent.of_subset fun p hp => List.mem_of_mem_tail (hpop.2.mem_iff.mp hp)
    · exact h

theorem run_queued {events : List Event} (h : Throughout step Orderly {} events) :
    Queued (events.foldl step {}) := by
  apply h.foldl (P := Queued)
  · intro s e hs he
    exact step_queued hs he
  · refine ⟨Heap.isHeap_nil, ?_⟩
    intro a ha
    cases ha

/-- A round takes the packet to be sent next from the queue. -/
theorem round_sends_next {s : State} (h : Queued s) (hun : Unwrapped s.sendPq)
    (hne : s.sendPq ≠ []) :
    ∃ p, Next p s.sendPq ∧ (sendThreadLoop s true).written = s.written ++ [p] ∧
      (sendThreadLoop s true).sendPq.Perm (s.sendPq.erase p) := by
  obtain ⟨p, rest, hcons⟩ := List.exists_cons_of_ne_nil hne
  have htop : Heap.top s.sendPq = some p := by rw [hcons]; rfl
  obtain ⟨hp, hall⟩ := h.top htop
  have hpop := (Heap.pop_spec h.weakOn (fun _ ha => ha) h.isHeap).2
  have herase : s.sendPq.erase p = s.sendPq.tail := by rw [hcons]; simp
  refine ⟨p, (next_iff hp hall).mpr hun, ?_, ?_⟩
  · simp [sendThreadLoop, htop]
  · rw [herase]
    simpa [sendThreadLoop, htop] using hpop

/-- Pushed in any order, consistent packets leave one on top that is behind no other. -/
theorem dequeued_spec {waiting order : List RtpSendPacket} (h : Consistent waiting)
    (hperm : order.Perm waiting) (hne : waiting ≠ []) :
    ∃ p, dequeued order = some p ∧ p ∈ waiting ∧ ∀ q ∈ waiting, comparator p q = false := by
  have hmem : ∀ a ∈ order, a ∈ waiting := fun a ha => hperm.mem_iff.mp ha
  obtain ⟨hheap, hpq⟩ := Heap.foldl_push (comparator_weakOn_iff.mpr h) order (l := [])
    (by simp) hmem Heap.isHeap_nil
  rw [List.append_nil] at hpq
  have hall := hpq.trans hperm
  rcases hq : order.foldl (Heap.push comparator) [] with - | ⟨p, rest⟩
  · rw [hq] at hall
    exact absurd hall.nil_eq.symm hne
  · have hqueued : Queued { sendPq := p :: rest } := by
      rw [hq] at hheap hall
      exact ⟨hheap, h.of_subset fun a ha => hall.mem_iff.mp ha⟩
    obtain ⟨hp, hbehind⟩ := hqueued.top (p := p) rfl
    rw [hq] at hall
    refine ⟨p, ?_, hall.mem_iff.mp hp, ?_⟩
    · rw [dequeued, hq]
      rfl
    · intro q hq'
      exact hbehind q (hall.mem_iff.mpr hq')

/-- **The order of sending.**  For the packets that wait, the comparator is a strict weak
order and the packet to be sent next is dequeued, however the packets were pushed, if
and only if the packets are consistent and their numbers do not wrap.  In a run that
meets the condition, every round writes the packet to be sent next. -/
theorem send_order (waiting : List RtpSendPacket) (events : List Event) :
    ((IsStrictWeakOrder {p // p ∈ waiting} (fun a b => comparator a b = true) ∧
        ∀ order, order.Perm waiting → waiting ≠ [] →
          ∃ p, dequeued order = some p ∧ Next p waiting) ↔
      Consistent waiting ∧ Unwrapped waiting) ∧
    (Throughout step Orderly {} events →
      ∀ pre post, events = pre ++ .round true :: post → (pre.foldl step {}).sendPq ≠ [] →
        ∃ p, Next p (pre.foldl step {}).sendPq ∧
          (step (pre.foldl step {}) (.round true)).written =
            (pre.foldl step {}).written ++ [p] ∧
          (step (pre.foldl step {}) (.round true)).sendPq.Perm
            ((pre.foldl step {}).sendPq.erase p)) := by
  refine ⟨?_, ?_⟩
  · rw [← Heap.weakOn_iff, comparator_weakOn_iff]
    refine and_congr_right fun hcons => ?_
    constructor
    · -- the order `waiting` itself is one in which the packets can be pushed
      intro h a ha
      have hne : waiting ≠ [] := List.ne_nil_of_mem ha
      obtain ⟨p, hdeq, hp, hall⟩ := dequeued_spec hcons (List.Perm.refl _) hne
      obtain ⟨p', hdeq', hnext⟩ := h waiting (List.Perm.refl _) hne
      rw [hdeq] at hdeq'
      cases hdeq'
      exact (next_iff hp hall).mp hnext a ha
    · intro hun order hperm hne
      obtain ⟨p, hdeq, hp, hall⟩ := dequeued_spec hcons hperm hne
      exact ⟨p, hdeq, (next_iff hp hall).mpr hun⟩
  · rintro hev pre post rfl hne
    exact round_sends_next (run_queued hev.left) hev.at hne

/-- An audio packet is written behind a retransmitted one of a smaller number. -/
def inTurn : List Event :=
  [.write 0 5 [128, 0, 0, 10] 0, .write 0 6 [128, 0, 0, 11] 0, .round true]

theorem send_order_in_turn :
    Throughout step Orderly {} inTurn ∧
      ∃ p, Next p (inTurn.dropLast.foldl step {}).sendPq ∧
        (inTurn.foldl step {}).written = [p] := by
  have hev : Throughout step Orderly {} inTurn := by decide +kernel
  obtain ⟨p, hnext, hwritten, -⟩ :=
    (send_order [] inTurn).2 hev inTurn.dropLast [] rfl (by decide +kernel)
  exact ⟨hev, p, hnext, hwritten⟩

/-- A retransmitted packet, and an audio packet with a smaller sequence number. -/
def retransmitAndAudio : List RtpSendPacket := [⟨5, 10, 0, 0, []⟩, ⟨6, 5, 0, 0, []⟩]

/-- The two packets are each behind the other, and pushed in this order the one of the
greater priority number is dequeued. -/
theorem audio_overtakes_retransmit :
    comparator ⟨5, 10, 0, 0, []⟩ ⟨6, 5, 0, 0, []⟩ = true ∧
      comparator ⟨6, 5, 0, 0, []⟩ ⟨5, 10, 0, 0, []⟩ = true ∧
      dequeued retransmitAndAudio = some ⟨6, 5, 0, 0, []⟩ ∧
      ¬ Next ⟨6, 5, 0, 0, []⟩ retransmitAndAudio := by
  refine ⟨by decide, by decide, ?_, ?_⟩
  · simp [dequeued, retransmitAndAudio, Heap.push, Heap.siftUp, Heap.parent, Heap.top, comparator]
  · intro h
    have hle := (h.2 ⟨5, 10, 0, 0, []⟩ (by simp [retransmitAndAudio])).1
    revert hle
    decide

end RtpSender

end Orbit
