/-
OrbitStream/RtcpWalk.lean

The functions that walk over the sub-packets of a compound RTCP packet
(`rtp/janus_rtcp_processor.cc`), on the bytes of the buffer.

All of them run the same loop: a round looks at the sub-packet at `off`, and the loop
goes on behind it unless its length field is zero or the sub-packets so far make up
`len` bytes.  The rounds trust the header: nothing compares the fields they access
with the bytes that are left.  So each function comes with what its rounds access and
what they yield (`Touches`), and `loop_checked` lifts this to the loop.

This module has the functions that read.  `get_nacks_modular_iff` says when the
sequence numbers of a generic NACK come out right, `key_frame_request_iff` when a
request for a key frame is noticed.
-/
import OrbitStream.Lib.Memory

namespace Orbit.Janus

open Lib

/-! ### The header of a sub-packet -/

/-- `version` of the `rtcp_header` at `off`. -/
def version (m : Mem) (off : Nat) : Nat := m.getBe off 1 / 64

/-- `rc`, the count of a report and the format of a feedback message. -/
def rc (m : Mem) (off : Nat) : Nat := m.getBe off 1 % 32

def type (m : Mem) (off : Nat) : Nat := m.getBe (off + 1) 1

/-- `length`, in words without the header. -/
def length (m : Mem) (off : Nat) : Nat := m.getBe (off + 2) 2

/-- The bytes of the sub-packet, by its header. -/
def size (m : Mem) (off : Nat) : Nat := length m off * 4 + 4

/-! ### The loop -/

/-- How a round ends: with the tests behind it, or by a `break` or `return`. -/
inductive Step (σ : Type)
  | next (s : σ)
  | stop (s : σ)

variable {σ : Type}

/-- The loop over the sub-packets. -/
def loop (ok : Nat → Bool) (body : Nat → Mem × σ → Except Nat (Step (Mem × σ))) (off total : Nat)
    (s : Mem × σ) : Except Nat (Mem × σ) := do
  match ← body off s with
  | .stop s => .ok s
  | .next s =>
    -- the length is read after the round, which may have written to the sub-packet
    let length ← load ok s.1 (off + 2) 2
    if h : length = 0 ∨ total ≤ length * 4 + 4 then .ok s
    else loop ok body (off + (length * 4 + 4)) (total - (length * 4 + 4)) s
termination_by total
decreasing_by omega

/-- What the loop yields if no access fails. -/
def walked (round : Nat → Mem × σ → Step (Mem × σ)) (off total : Nat) (s : Mem × σ) : Mem × σ :=
  match round off s with
  | .stop s => s
  | .next s =>
    if _h : length s.1 off = 0 ∨ total ≤ size s.1 off then s
    else walked round (off + size s.1 off) (total - size s.1 off) s
termination_by total
decreasing_by
  simp only [size] at _h ⊢
  omega

/-- Every round that the loop gets to meets `D`, and its length field is mapped. -/
def Inside (ok : Nat → Bool) (D : Nat → Mem × σ → Prop) (round : Nat → Mem × σ → Step (Mem × σ))
    (off total : Nat) (s : Mem × σ) : Prop :=
  D off s ∧ match round off s with
    | .stop _ => True
    | .next s => Mapped ok (off + 2) 2 ∧
        ∀ _h : ¬ (length s.1 off = 0 ∨ total ≤ size s.1 off),
          Inside ok D round (off + size s.1 off) (total - size s.1 off) s
termination_by total
decreasing_by
  simp only [size] at _h ⊢
  omega

section

variable {round : Nat → Mem × σ → Step (Mem × σ)} {off total : Nat} {s s' : Mem × σ}

theorem walked_stop (h : round off s = .stop s') : walked round off total s = s' := by
  rw [walked, h]

theorem walked_next (h : round off s = .next s') :
    walked round off total s =
      if length s'.1 off = 0 ∨ total ≤ size s'.1 off then s'
      else walked round (off + size s'.1 off) (total - size s'.1 off) s' := by
  rw [walked, h]
  rfl

end

/-- The loop fails exactly if one of its rounds does. -/
theorem loop_checked (ok : Nat → Bool) {body : Nat → Mem × σ → Except Nat (Step (Mem × σ))}
    {D : Nat → Mem × σ → Prop} {round : Nat → Mem × σ → Step (Mem × σ)}
    (hbody : ∀ off s, Checked (body off s) (D off s) (· = round off s)) (off total : Nat)
    (s : Mem × σ) :
    Checked (loop ok body off total s) (Inside ok D round off total s)
      (· = walked round off total s) := by
  -- the recursion is on the bytes that are left
  induction total using Nat.strongRecOn generalizing off s with
  | _ total ih =>
    rw [loop, Inside]
    apply (hbody off s).bind
    rintro - rfl
    rcases hround : round off s with s' | s'
    · have hload : Checked (load ok s'.1 (off + 2) 2) (Mapped ok (off + 2) 2)
          (· = length s'.1 off) :=
        ⟨fun h => ⟨_, if_pos h, rfl⟩, fun h => ⟨_, if_neg h⟩⟩
      apply hload.bind
      rintro - rfl
      rw [walked_next hround]
      by_cases hend : length s'.1 off = 0 ∨ total ≤ size s'.1 off
      · -- the last sub-packet, or one with a length of zero
        rw [if_pos hend, dif_pos (by exact hend)]
        exact ⟨fun _ => ⟨s', rfl, rfl⟩, fun h => absurd (fun hno => absurd hend hno) h⟩
      · rw [if_neg hend, dif_neg (by exact hend)]
        have hlt : total - size s'.1 off < total := by
          simp only [size] at hend ⊢
          omega
        exact (ih _ hlt _ s').congr ⟨fun h _ => h, fun h => h hend⟩
    · rw [walked_stop hround]
      exact Checked.of_ok rfl

/-- Where everything is mapped, no round fails. -/
theorem loop_everywhere {body : Nat → Mem × σ → Except Nat (Step (Mem × σ))}
    {fields : Nat → Mem × σ → List (Nat × Nat)} {round : Nat → Mem × σ → Step (Mem × σ)}
    (hbody : ∀ off s, Touches everywhere off (fields off s) (body off s) (round off s))
    (off total : Nat) (s : Mem × σ) :
    loop everywhere body off total s = .ok (walked round off total s) := by
  have hinside : Inside everywhere (fun off s => ∀ f ∈ fields off s,
      Mapped everywhere (off + f.1) f.2) round off total s := by
    induction total using Nat.strongRecOn generalizing off s with
    | _ total ih =>
      rw [Inside]
      refine ⟨fun f _ => mapped_everywhere _ _, ?_⟩
      rcases round off s with s' | s'
      · refine ⟨mapped_everywhere _ _, ?_⟩
        intro hgo
        exact ih _ (by simp only [size] at hgo ⊢; omega) _ s'
      · trivial
  obtain ⟨r, hr, rfl⟩ := (loop_checked everywhere hbody off total s).ok hinside
  exact hr

/-! ### The functions that read -/

-- `rtcp_type`, with `RTCP_BYE` and `RTCP_APP`
abbrev rtcpFir : Nat := 192
abbrev rtcpSr : Nat := 200
abbrev rtcpRr : Nat := 201
abbrev rtcpSdes : Nat := 202
abbrev rtcpBye : Nat := 203
abbrev rtcpApp : Nat := 204
abbrev rtcpRtpfb : Nat := 205
abbrev rtcpPsfb : Nat := 206

/-- The numbers that an entry of a generic NACK adds to the list; `pid + j + 1` is an
`int`. -/
def entrySeqs (pid blp : Nat) : List Nat :=
  pid :: ((List.range 16).filter blp.testBit).map (pid + · + 1)

/-- `brMantissa << brExp`.  The operand has 32 bits; a count of 32 and more is
undefined, and taken modulo 32 by the processor. -/
def shl32 (x n : Nat) : Nat := x * 2 ^ (n % 32) % 2 ^ 32

section

variable (ok : Nat → Bool)

/-- The test of `version` that all the functions start with. -/
def ifVersion {α : Type} (m : Mem) (other : α) (run : Except Nat α) : Except Nat α := do
  let first ← load ok m 0 1
  if first / 64 = 2 then run else .ok other

def nackEntry (m : Mem) (off : Nat) (list : List Nat) (i : Nat) : Except Nat (List Nat) := do
  let pid ← load ok m (off + (12 + 4 * i)) 2
  let blp ← load ok m (off + (14 + 4 * i)) 2
  .ok (list ++ entrySeqs pid blp)

def getNacksBody (off : Nat) (s : Mem × List Nat) : Except Nat (Step (Mem × List Nat)) := do
  let type ← load ok s.1 (off + 1) 1
  if type = rtcpRtpfb then
    let fmt ← load ok s.1 off 1
    if fmt % 32 = 1 then
      let length ← load ok s.1 (off + 2) 2
      let list ← (List.range (length - 2)).foldlM (nackEntry ok s.1 off) s.2
      .ok (.next (s.1, list))
    else .ok (.next s)
  else .ok (.next s)

/-- `janus_rtcp_get_nacks`. -/
def getNacks (m : Mem) (len : Nat) : Except Nat (List Nat) :=
  if len = 0 then .ok []
  else ifVersion ok m [] do
    let s ← loop ok (getNacksBody ok) 0 len (m, [])
    .ok s.2

def hasFirBody (off : Nat) (s : Mem × Bool) : Except Nat (Step (Mem × Bool)) := do
  let type ← load ok s.1 (off + 1) 1
  if type = rtcpFir then .ok (.next (s.1, true)) else .ok (.next s)

/-- `janus_rtcp_has_fir`. -/
def hasFir (m : Mem) (len : Nat) : Except Nat Bool :=
  ifVersion ok m false do
    let s ← loop ok (hasFirBody ok) 0 len (m, false)
    .ok s.2

def hasPliBody (off : Nat) (s : Mem × Bool) : Except Nat (Step (Mem × Bool)) := do
  let type ← load ok s.1 (off + 1) 1
  if type = rtcpPsfb then
    let fmt ← load ok s.1 off 1
    if fmt % 32 = 1 then .ok (.next (s.1, true)) else .ok (.next s)
  else .ok (.next s)

/-- `janus_rtcp_has_pli`. -/
def hasPli (m : Mem) (len : Nat) : Except Nat Bool :=
  ifVersion ok m false do
    let s ← loop ok (hasPliBody ok) 0 len (m, false)
    .ok s.2

/-- The comparison of `remb->id` with `REMB`; the letters behind the first wrong one are
not read. -/
def isRemb (m : Mem) (off : Nat) : Except Nat Bool := do
  let id0 ← load ok m (off + 12) 1
  if id0 = 82 then
    let id1 ← load ok m (off + 13) 1
    if id1 = 69 then
      let id2 ← load ok m (off + 14) 1
      if id2 = 77 then
        let id3 ← load ok m (off + 15) 1
        .ok (decide (id3 = 66))
      else .ok false
    else .ok false
  else .ok false

/-- `brMantissa << brExp` of the bytes behind the number of SSRCs. -/
def rembBitrate (b1 b2 b3 : Nat) : Nat := shl32 (b1 % 4 * 65536 + b2 * 256 + b3) (b1 / 4)

def getRembBody (off : Nat) (s : Mem × Nat) : Except Nat (Step (Mem × Nat)) := do
  let type ← load ok s.1 (off + 1) 1
  if type = rtcpPsfb then
    let fmt ← load ok s.1 off 1
    if fmt % 32 = 15 then
      let remb ← isRemb ok s.1 off
      if remb = true then
        let b1 ← load ok s.1 (off + 17) 1
        let b2 ← load ok s.1 (off + 18) 1
        let b3 ← load ok s.1 (off + 19) 1
        .ok (.stop (s.1, rembBitrate b1 b2 b3))
      else .ok (.next s)
    else .ok (.next s)
  else .ok (.next s)

/-- `janus_rtcp_get_remb`. -/
def getRemb (m : Mem) (len : Nat) : Except Nat Nat :=
  if len = 0 then .ok 0
  else ifVersion ok m 0 do
    let s ← loop ok (getRembBody ok) 0 len (m, 0)
    .ok s.2

end

theorem ifVersion_eq {ok : Nat → Bool} {α : Type} {m : Mem} {other : α} {run : Except Nat α}
    (hmap : Mapped ok 0 1) (hversion : version m 0 = 2) : ifVersion ok m other run = run := by
  have hfirst : load ok m 0 1 = .ok (m.getBe 0 1) := if_pos hmap
  rw [ifVersion, hfirst]
  exact if_pos hversion

/-! ### What the rounds access and yield -/

def entryAt (m : Mem) (off i : Nat) : List Nat :=
  entrySeqs (m.getBe (off + (12 + 4 * i)) 2) (m.getBe (off + (14 + 4 * i)) 2)

def getNacksRound (off : Nat) (s : Mem × List Nat) : Step (Mem × List Nat) :=
  if type s.1 off = rtcpRtpfb then
    if rc s.1 off = 1 then
      .next (s.1, (List.range (length s.1 off - 2)).foldl
        (fun list i => list ++ entryAt s.1 off i) s.2)
    else .next s
  else .next s

def getNacksFields (off : Nat) (s : Mem × List Nat) : List (Nat × Nat) :=
  [(1, 1)] ++ if type s.1 off = rtcpRtpfb then
    [(0, 1)] ++ if rc s.1 off = 1 then
      [(2, 2)] ++ (List.range (length s.1 off - 2)).flatMap
        fun i => [(12 + 4 * i, 2), (14 + 4 * i, 2)]
    else []
  else []

theorem getNacksBody_touches (ok : Nat → Bool) (off : Nat) (s : Mem × List Nat) :
    Touches ok off (getNacksFields off s) (getNacksBody ok off s) (getNacksRound off s) := by
  have hentry : ∀ list i, Touches ok off [(12 + 4 * i, 2), (14 + 4 * i, 2)]
      (nackEntry ok s.1 off list i) (list ++ entryAt s.1 off i) :=
    fun list i => (Touches.load s.1 _ 2).bind (Touches.load s.1 _ 2).map
  apply (Touches.load s.1 1 1).bind
  apply Touches.ite ?_ (Touches.pure _)
  apply (Touches.load s.1 0 1).bind
  apply Touches.ite ?_ (Touches.pure _)
  exact (Touches.load s.1 2 2).bind (Touches.foldlM hentry _ s.2).map

def hasFirRound (off : Nat) (s : Mem × Bool) : Step (Mem × Bool) :=
  if type s.1 off = rtcpFir then .next (s.1, true) else .next s

theorem hasFirBody_touches (ok : Nat → Bool) (off : Nat) (s : Mem × Bool) :
    Touches ok off [(1, 1)] (hasFirBody ok off s) (hasFirRound off s) := by
  have hbranch : Touches ok off [] (if type s.1 off = rtcpFir then .ok (.next (s.1, true))
      else .ok (.next s)) (hasFirRound off s) := by
    rw [hasFirRound, ← apply_ite Except.ok]
    exact Touches.pure _
  exact (Touches.load s.1 1 1).bind hbranch

theorem hasFirRound_eq (m : Mem) (off : Nat) (got : Bool) :
    hasFirRound off (m, got) = .next (m, got || decide (type m off = rtcpFir)) := by
  rw [hasFirRound]
  by_cases htype : type m off = rtcpFir
  · simp [htype]
  · simp [htype]

def hasPliRound (off : Nat) (s : Mem × Bool) : Step (Mem × Bool) :=
  if type s.1 off = rtcpPsfb then
    if rc s.1 off = 1 then .next (s.1, true) else .next s
  else .next s

def hasPliFields (off : Nat) (s : Mem × Bool) : List (Nat × Nat) :=
  [(1, 1)] ++ if type s.1 off = rtcpPsfb then
    [(0, 1)] ++ if rc s.1 off = 1 then [] else []
  else []

theorem hasPliRound_eq (m : Mem) (off : Nat) (got : Bool) :
    hasPliRound off (m, got) =
      .next (m, got || decide (type m off = rtcpPsfb ∧ rc m off = 1)) := by
  rw [hasPliRound]
  by_cases htype : type m off = rtcpPsfb
  · by_cases hrc : rc m off = 1
    · simp [htype, hrc]
    · simp [htype, hrc]
  · simp [htype]

/-- Only the header is read. -/
theorem hasPliFields_header {off : Nat} {s : Mem × Bool} {c : Nat × Nat}
    (hc : c ∈ hasPliFields off s) : c.2 ≠ 0 ∧ c.1 + c.2 ≤ 4 := by
  simp only [hasPliFields, ite_self, List.append_nil] at hc
  split at hc
  · rcases List.mem_append.mp hc with hc | hc
    · rw [List.mem_singleton.mp hc]
      decide
    · rw [List.mem_singleton.mp hc]
      decide
  · rw [List.mem_singleton.mp hc]
    decide

theorem hasPliBody_touches (ok : Nat → Bool) (off : Nat) (s : Mem × Bool) :
    Touches ok off (hasPliFields off s) (hasPliBody ok off s) (hasPliRound off s) := by
  apply (Touches.load s.1 1 1).bind
  apply Touches.ite ?_ (Touches.pure _)
  exact (Touches.load s.1 0 1).bind (Touches.ite (Touches.pure _) (Touches.pure _))

def rembAt (m : Mem) (off : Nat) : Bool :=
  if m.getBe (off + 12) 1 = 82 then
    if m.getBe (off + 13) 1 = 69 then
      if m.getBe (off + 14) 1 = 77 then decide (m.getBe (off + 15) 1 = 66) else false
    else false
  else false

def rembFields (m : Mem) (off : Nat) : List (Nat × Nat) :=
  [(12, 1)] ++ if m.getBe (off + 12) 1 = 82 then
    [(13, 1)] ++ if m.getBe (off + 13) 1 = 69 then
      [(14, 1)] ++ if m.getBe (off + 14) 1 = 77 then [(15, 1)] else []
    else []
  else []

theorem isRemb_touches (ok : Nat → Bool) (m : Mem) (off : Nat) :
    Touches ok off (rembFields m off) (isRemb ok m off) (rembAt m off) := by
  apply (Touches.load m 12 1).bind
  apply Touches.ite ?_ (Touches.pure _)
  apply (Touches.load m 13 1).bind
  apply Touches.ite ?_ (Touches.pure _)
  apply (Touches.load m 14 1).bind
  exact Touches.ite (Touches.load m 15 1).map (Touches.pure _)

/-- The bitrate of the REMB at `off`. -/
def bitrateAt (m : Mem) (off : Nat) : Nat :=
  rembBitrate (m.getBe (off + 17) 1) (m.getBe (off + 18) 1) (m.getBe (off + 19) 1)

def getRembRound (off : Nat) (s : Mem × Nat) : Step (Mem × Nat) :=
  if type s.1 off = rtcpPsfb then
    if rc s.1 off = 15 then
      if rembAt s.1 off = true then .stop (s.1, bitrateAt s.1 off) else .next s
    else .next s
  else .next s

def getRembFields (off : Nat) (s : Mem × Nat) : List (Nat × Nat) :=
  [(1, 1)] ++ if type s.1 off = rtcpPsfb then
    [(0, 1)] ++ if rc s.1 off = 15 then
      rembFields s.1 off ++ if rembAt s.1 off = true then [(17, 1), (18, 1), (19, 1)] else []
    else []
  else []

theorem getRembBody_touches (ok : Nat → Bool) (off : Nat) (s : Mem × Nat) :
    Touches ok off (getRembFields off s) (getRembBody ok off s) (getRembRound off s) := by
  apply (Touches.load s.1 1 1).bind
  apply Touches.ite ?_ (Touches.pure _)
  apply (Touches.load s.1 0 1).bind
  apply Touches.ite ?_ (Touches.pure _)
  apply (isRemb_touches ok s.1 off).bind
  apply Touches.ite ?_ (Touches.pure _)
  exact (Touches.load s.1 17 1).bind
    ((Touches.load s.1 18 1).bind (Touches.load s.1 19 1).map)

/-! ### Compound packets -/

/-- A sub-packet with a length field that is right and not zero: the byte of version,
padding and count, the type, and the rest. -/
structure SubPacket where
  first : UInt8
  type : UInt8
  words : Nat
  body : List UInt8
  body_length : body.length = 4 * words
  words_pos : 0 < words
  words_lt : words < 65536
  deriving DecidableEq, Repr

namespace SubPacket

def version (p : SubPacket) : Nat := p.first.toNat / 64

def rc (p : SubPacket) : Nat := p.first.toNat % 32

def encode (p : SubPacket) : List UInt8 := p.first :: p.type :: (Mem.toBe 2 p.words ++ p.body)

theorem length_encode (p : SubPacket) : p.encode.length = p.words * 4 + 4 := by
  simp only [encode, List.length_cons, List.length_append, Mem.length_toBe, p.body_length]
  omega

end SubPacket

/-- The bytes of a compound packet. -/
def encode (ps : List SubPacket) : List UInt8 := ps.flatMap SubPacket.encode

@[simp] theorem encode_nil : encode [] = [] := rfl

theorem encode_cons (p : SubPacket) (ps : List SubPacket) :
    encode (p :: ps) = p.encode ++ encode ps := List.flatMap_cons

theorem length_encode_cons (p : SubPacket) (ps : List SubPacket) :
    (encode (p :: ps)).length = p.encode.length + (encode ps).length := by
  rw [encode_cons, List.length_append]

theorem holds_encode_cons {m : Mem} {off : Nat} {p : SubPacket} {ps : List SubPacket} :
    m.Holds off (encode (p :: ps)) ↔
      m.Holds off p.encode ∧ m.Holds (off + p.encode.length) (encode ps) := by
  rw [encode_cons, Mem.holds_append]

section

variable {m : Mem} {off : Nat} {p : SubPacket}

theorem Holds.version (h : m.Holds off p.encode) : version m off = p.version := by
  have hbyte : m off = p.first := h.1
  simp [Janus.version, SubPacket.version, Mem.getBe, hbyte]

theorem Holds.rc (h : m.Holds off p.encode) : rc m off = p.rc := by
  have hbyte : m off = p.first := h.1
  simp [Janus.rc, SubPacket.rc, Mem.getBe, hbyte]

theorem Holds.type (h : m.Holds off p.encode) : type m off = p.type.toNat := by
  have hbyte : m (off + 1) = p.type := h.2.1
  simp [Janus.type, Mem.getBe, hbyte]

theorem Holds.length (h : m.Holds off p.encode) : length m off = p.words := by
  have hfield : m.Holds (off + 2) (Mem.toBe 2 p.words) := (Mem.holds_append.mp h.2.2).1
  rw [Janus.length, hfield.getBe]
  exact Nat.mod_eq_of_lt p.words_lt

theorem Holds.body (h : m.Holds off p.encode) : m.Holds (off + 4) p.body := by
  have hrest := (Mem.holds_append.mp h.2.2).2
  rwa [Mem.length_toBe] at hrest

end

/-- The sub-packets one after the other, with their offsets, until one stops the loop. -/
def scan (f : Nat → σ → SubPacket → Step σ) : Nat → List SubPacket → σ → σ
  | _, [], a => a
  | off, p :: ps, a =>
    match f off a p with
    | .stop a => a
    | .next a => scan f (off + p.encode.length) ps a

/-- A round that leaves the memory as it is. -/
def Step.on (m : Mem) : Step σ → Step (Mem × σ)
  | .next a => .next (m, a)
  | .stop a => .stop (m, a)

/-- The loop over a compound packet, for a function that only reads. -/
theorem loop_scan {body : Nat → Mem × σ → Except Nat (Step (Mem × σ))}
    {D : Nat → Mem × σ → Prop} {round : Nat → Mem × σ → Step (Mem × σ)}
    {f : Nat → σ → SubPacket → Step σ} {m : Mem} {len : Nat}
    (hbody : ∀ off s, Checked (body off s) (D off s) (· = round off s))
    {ps : List SubPacket} (hround : ∀ p ∈ ps, ∀ off a, m.Holds off p.encode →
      off + p.encode.length ≤ len → D off (m, a) ∧ round off (m, a) = (f off a p).on m)
    (hne : ps ≠ []) {off : Nat} (a : σ) (hm : m.Holds off (encode ps))
    (hlen : off + (encode ps).length ≤ len) :
    loop (below len) body off (encode ps).length (m, a) = .ok (m, scan f off ps a) := by
  induction ps generalizing off a with
  | nil => exact absurd rfl hne
  | cons p ps ih =>
    rw [holds_encode_cons] at hm
    rw [length_encode_cons] at hlen ⊢
    obtain ⟨hD, hstep⟩ := hround p List.mem_cons_self off a hm.1 (by omega)
    obtain ⟨r, hr, rfl⟩ := (hbody off (m, a)).ok hD
    have hsize := p.length_encode
    have hload : load (below len) m (off + 2) 2 = .ok p.words := by
      rw [load, if_pos (mapped_below.mpr (Or.inr (by omega)))]
      exact congrArg Except.ok (Holds.length hm.1)
    rw [loop, hr, hstep, scan]
    rcases f off a p with a' | a'
    · show (load (below len) m (off + 2) 2 >>= fun length => _) = _
      rw [hload]
      rcases ps with - | ⟨q, ps⟩
      · -- the last sub-packet: nothing is left of the total
        have hend : p.encode.length + (encode []).length ≤ p.words * 4 + 4 := Nat.le_of_eq hsize
        show dite _ _ _ = _
        rw [dif_pos (Or.inr hend)]
        rfl
      · -- the length field leads to the next sub-packet
        have hpos := p.words_pos
        have hq := q.length_encode
        have hgo : ¬ (p.words = 0 ∨
            p.encode.length + (encode (q :: ps)).length ≤ p.words * 4 + 4) := by
          rw [length_encode_cons]
          omega
        show dite _ _ _ = _
        rw [dif_neg hgo, ← hsize, Nat.add_sub_cancel_left]
        exact ih (fun r hr => hround r (List.mem_cons_of_mem p hr)) (List.cons_ne_nil q ps)
          a' hm.2 (by omega)
    · rfl

/-- The loop over a compound packet of which each round only adds to the result. -/
theorem loop_packets {body : Nat → Mem × σ → Except Nat (Step (Mem × σ))}
    {D : Nat → Mem × σ → Prop} {round : Nat → Mem × σ → Step (Mem × σ)} {g : σ → SubPacket → σ}
    {m : Mem} {len : Nat} (hbody : ∀ off s, Checked (body off s) (D off s) (· = round off s))
    {ps : List SubPacket} (hround : ∀ p ∈ ps, ∀ off a, m.Holds off p.encode →
      off + p.encode.length ≤ len → D off (m, a) ∧ round off (m, a) = .next (m, g a p))
    (hne : ps ≠ []) {off : Nat} (a : σ) (hm : m.Holds off (encode ps))
    (hlen : off + (encode ps).length ≤ len) :
    loop (below len) body off (encode ps).length (m, a) = .ok (m, ps.foldl g a) := by
  have hfold : ∀ (ps : List SubPacket) (off : Nat) (a : σ),
      scan (fun _ a p => .next (g a p)) off ps a = ps.foldl g a := by
    intro ps
    induction ps with
    | nil => exact fun _ _ => rfl
    | cons p ps ih => exact fun _ _ => ih _ _
  rw [← hfold ps off a]
  exact loop_scan hbody hround hne a hm hlen

/-- The loop over a compound packet of which each round replaces its sub-packet. -/
theorem walked_map {round : Nat → Mem × σ → Step (Mem × σ)} {g : SubPacket → SubPacket}
    {ps : List SubPacket} (hwords : ∀ p, (g p).words = p.words)
    (hround : ∀ p qs off m a, p :: qs <:+ ps → m.Holds off (encode (p :: qs)) →
      ∃ m' a', round off (m, a) = .next (m', a') ∧ m'.Holds off (encode (g p :: qs)) ∧
        ∀ b < off, m' b = m b)
    (hne : ps ≠ []) {off : Nat} {m : Mem} (a : σ) (hm : m.Holds off (encode ps)) :
    (walked round off (encode ps).length (m, a)).1.Holds off (encode (ps.map g)) ∧
      ∀ b < off, (walked round off (encode ps).length (m, a)).1 b = m b := by
  induction ps generalizing off m a with
  | nil => exact absurd rfl hne
  | cons p ps ih =>
    obtain ⟨m', a', hnext, hm', hbefore⟩ := hround p ps off m a (List.suffix_refl _) hm
    have hlength : (g p).encode.length = p.encode.length := by
      rw [SubPacket.length_encode, hwords, p.length_encode]
    rw [holds_encode_cons, hlength] at hm'
    have hwords' : length m' off = p.words := by rw [Holds.length hm'.1, hwords]
    have hsize : size m' off = p.encode.length := by rw [size, hwords', p.length_encode]
    have hpos := p.words_pos
    rw [walked_next hnext, hsize, length_encode_cons]
    rcases ps with - | ⟨q, ps⟩
    · -- the last sub-packet: nothing is left of the total
      have hend : p.encode.length + (encode []).length ≤ p.encode.length := Nat.le_refl _
      rw [if_pos (Or.inr hend), List.map_cons, holds_encode_cons, hlength]
      exact ⟨hm', hbefore⟩
    · have hq := q.length_encode
      have hgo : ¬ (length m' off = 0 ∨
          p.encode.length + (encode (q :: ps)).length ≤ p.encode.length) := by
        rw [hwords', length_encode_cons]
        omega
      rw [if_neg hgo, Nat.add_sub_cancel_left]
      obtain ⟨hrest, hkept⟩ := ih (fun p qs off m a hsuf => hround p qs off m a
        (hsuf.trans (List.suffix_cons _ _))) (List.cons_ne_nil q ps) a' hm'.2
      refine ⟨?_, fun b hb => (hkept b (by omega)).trans (hbefore b hb)⟩
      rw [List.map_cons, holds_encode_cons, hlength]
      -- the later rounds leave what is before them
      exact ⟨hm'.1.congr fun k hk => hkept _ (by omega), hrest⟩

/-- What follows a sub-packet does not matter for where it ends. -/
theorem SubPacket.encode_append_inj {p q : SubPacket} {bs cs : List UInt8}
    (h : p.encode ++ bs = q.encode ++ cs) : p = q ∧ bs = cs := by
  obtain ⟨first, type, words, body, hbody, hpos, hlt⟩ := p
  obtain ⟨first', type', words', body', hbody', hpos', hlt'⟩ := q
  simp only [encode, List.cons_append, List.append_assoc, List.cons.injEq] at h
  obtain ⟨rfl, rfl, h⟩ := h
  have hfield := List.append_inj h (by simp)
  have hwords : words = words' := by
    have hread := congrArg (fun bs => Mem.getBe (Mem.lay bs fun _ => 0) 0 2) hfield.1
    simp only [(Mem.holds_lay (Mem.toBe 2 _) _).getBe] at hread
    omega
  subst hwords
  obtain ⟨rfl, rfl⟩ := List.append_inj hfield.2 (by rw [hbody, hbody'])
  exact ⟨rfl, rfl⟩

/-- The bytes of a compound packet determine its sub-packets. -/
theorem encode_injective {ps qs : List SubPacket} (h : encode ps = encode qs) : ps = qs := by
  induction ps generalizing qs with
  | nil =>
    rcases qs with - | ⟨q, qs⟩
    · rfl
    · cases h
  | cons p ps ih =>
    rcases qs with - | ⟨q, qs⟩
    · cases h
    · rw [encode_cons, encode_cons] at h
      obtain ⟨rfl, hrest⟩ := SubPacket.encode_append_inj h
      rw [ih hrest]

/-! ### Generic NACKs -/

/-- A generic NACK: the entries are the words behind the two SSRCs. -/
structure GenericNack where
  padding : Bool
  ssrc : UInt32
  media : UInt32
  entries : List (UInt16 × UInt16)
  length_lt : entries.length + 2 < 65536

namespace GenericNack

def entryBytes (e : UInt16 × UInt16) : List UInt8 := Mem.toBe 2 e.1.toNat ++ Mem.toBe 2 e.2.toNat

theorem length_flatMap_entryBytes (es : List (UInt16 × UInt16)) :
    (es.flatMap entryBytes).length = 4 * es.length := by
  induction es with
  | nil => rfl
  | cons e es ih =>
    rw [List.flatMap_cons, List.length_append, ih, List.length_cons]
    simp only [entryBytes, List.length_append, Mem.length_toBe]
    omega

def packet (n : GenericNack) : SubPacket where
  first := if n.padding then 0xA1 else 0x81
  type := 205
  words := n.entries.length + 2
  body := Mem.toBe 4 n.ssrc.toNat ++ (Mem.toBe 4 n.media.toNat ++ n.entries.flatMap entryBytes)
  body_length := by
    simp only [List.length_append, Mem.length_toBe, length_flatMap_entryBytes]
    omega
  words_pos := by omega
  words_lt := n.length_lt

def bytes (n : GenericNack) : List UInt8 := n.packet.encode

end GenericNack

/-- The entries of a generic NACK that lies in the memory. -/
theorem entryAt_of_holds {m : Mem} {off : Nat} {es : List (UInt16 × UInt16)}
    (h : m.Holds (off + 12) (es.flatMap GenericNack.entryBytes)) :
    (List.range es.length).flatMap (entryAt m off) =
      es.flatMap fun e => entrySeqs e.1.toNat e.2.toNat := by
  induction es generalizing off with
  | nil => rfl
  | cons e es ih =>
    rw [List.flatMap_cons, Mem.holds_append, GenericNack.entryBytes, Mem.holds_append] at h
    obtain ⟨⟨hpid, hblp⟩, hrest⟩ := h
    rw [Mem.length_toBe] at hblp
    rw [List.length_append, Mem.length_toBe, Mem.length_toBe] at hrest
    -- the entries behind the first, counted from four bytes further on
    have hshift : ∀ i, entryAt m off (i + 1) = entryAt m (off + 4) i := by
      intro i
      have h12 : off + (12 + 4 * (i + 1)) = off + 4 + (12 + 4 * i) := by omega
      have h14 : off + (14 + 4 * (i + 1)) = off + 4 + (14 + 4 * i) := by omega
      rw [entryAt, entryAt, h12, h14]
    have hword : ∀ x : UInt16, x.toNat % 256 ^ 2 = x.toNat := fun x => Nat.mod_eq_of_lt x.toNat_lt
    have hhead : entryAt m off 0 = entrySeqs e.1.toNat e.2.toNat := by
      rw [entryAt, hpid.getBe, hblp.getBe, hword, hword]
    rw [List.length_cons, List.range_succ_eq_map, List.flatMap_cons, List.flatMap_cons, hhead,
      List.flatMap_map]
    simp only [Nat.succ_eq_add_one, hshift]
    rw [ih (by rw [show off + 4 + 12 = off + 12 + (2 + 2) by omega]; exact hrest)]

namespace GenericNack

variable (n : GenericNack) {m : Mem} {off : Nat}

theorem nackRound (h : m.Holds off n.packet.encode) (list : List Nat) :
    getNacksRound off (m, list) =
      .next (m, list ++ n.entries.flatMap fun e => entrySeqs e.1.toNat e.2.toNat) := by
  have htype : Janus.type m off = rtcpRtpfb := Holds.type h
  have hrc : Janus.rc m off = 1 := by
    rw [Holds.rc h]
    simp only [SubPacket.rc, packet]
    rcases n.padding with - | -
    · rfl
    · rfl
  have hlength : Janus.length m off - 2 = n.entries.length := by
    rw [Holds.length h]
    simp [packet]
  have hentries : m.Holds (off + 12) (n.entries.flatMap entryBytes) := by
    -- behind the header and the two SSRCs
    have hbody := Holds.body h
    simp only [packet, Mem.holds_append, Mem.length_toBe] at hbody
    exact hbody.2.2
  rw [getNacksRound, if_pos htype, if_pos hrc, hlength, List.foldl_append_eq_append,
    ← List.flatMap_def, entryAt_of_holds hentries]

/-- A generic NACK is read inside its bytes. -/
theorem mapped {len : Nat} (h : m.Holds off n.packet.encode)
    (hlen : off + n.packet.encode.length ≤ len) (list : List Nat) :
    ∀ f ∈ getNacksFields off (m, list), Mapped (below len) (off + f.1) f.2 := by
  have hlength : Janus.length m off = n.entries.length + 2 := Holds.length h
  have hsize := n.packet.length_encode
  have hwords : n.packet.words = n.entries.length + 2 := rfl
  intro f hf
  have hend : f.1 + f.2 ≤ n.packet.encode.length := by
    -- the last entry ends where the packet ends
    simp only [getNacksFields, hlength] at hf
    split at hf
    · split at hf
      · simp only [List.cons_append, List.nil_append, List.mem_cons, List.mem_flatMap,
          List.mem_range, List.not_mem_nil, or_false] at hf
        rcases hf with rfl | rfl | rfl | ⟨i, hi, rfl | rfl⟩ <;> simp only <;> omega
      · simp only [List.cons_append, List.nil_append, List.mem_cons, List.not_mem_nil,
          or_false] at hf
        rcases hf with rfl | rfl <;> simp only <;> omega
    · simp only [List.cons_append, List.nil_append, List.mem_cons, List.not_mem_nil,
        or_false] at hf
      subst hf
      simp only
      omega
  exact mapped_below.mpr (Or.inr (by omega))

/-- The numbers that `janus_rtcp_get_nacks` finds in a generic NACK. -/
theorem getNacks_eq (h : m.Holds 0 n.packet.encode) :
    getNacks (below n.packet.encode.length) m n.packet.encode.length =
      .ok (n.entries.flatMap fun e => entrySeqs e.1.toNat e.2.toNat) := by
  have hsize := n.packet.length_encode
  have hone : encode [n.packet] = n.packet.encode := by simp [encode]
  have hversion : version m 0 = 2 := by
    rw [Holds.version h]
    simp only [SubPacket.version, packet]
    rcases n.padding with - | -
    · rfl
    · rfl
  -- the NACK is a compound packet of one sub-packet
  have hloop := loop_packets (g := fun list _ => list ++
      n.entries.flatMap fun e => entrySeqs e.1.toNat e.2.toNat)
    (fun off s => getNacksBody_touches (below n.packet.encode.length) off s)
    (fun p (hp : p ∈ [n.packet]) off list hm hlen => by
      obtain rfl := List.mem_singleton.mp hp
      exact ⟨n.mapped hm hlen list, n.nackRound hm list⟩)
    (List.cons_ne_nil _ _) [] (hone ▸ h) (by rw [hone]; omega)
  rw [hone] at hloop
  rw [getNacks, if_neg (by omega),
    ifVersion_eq (mapped_below.mpr (Or.inr (by omega))) hversion, hloop]
  rfl

/-- What an entry asks for, as sequence numbers. -/
def modularSeqs (e : UInt16 × UInt16) : List Nat :=
  e.1.toNat :: ((List.range 16).filter e.2.toNat.testBit).map fun j => (e.1.toNat + j + 1) % 65536

theorem entrySeqs_eq_iff (e : UInt16 × UInt16) :
    entrySeqs e.1.toNat e.2.toNat = modularSeqs e ↔
      ∀ j < 16, e.2.toNat.testBit j = true → e.1.toNat + j + 1 < 65536 := by
  rw [entrySeqs, modularSeqs, List.cons_inj_right, List.map_inj_left]
  constructor
  · intro h j hj hbit
    have heq := h j (List.mem_filter.mpr ⟨List.mem_range.mpr hj, hbit⟩)
    omega
  · intro h j hj
    obtain ⟨hrange, hbit⟩ := List.mem_filter.mp hj
    have hlt := h j (List.mem_range.mp hrange) hbit
    omega

theorem modularSeqs_lt {e : UInt16 × UInt16} {v : Nat} (h : v ∈ modularSeqs e) : v < 65536 := by
  rcases List.mem_cons.mp h with rfl | h
  · exact e.1.toNat_lt
  · obtain ⟨j, -, rfl⟩ := List.mem_map.mp h
    exact Nat.mod_lt _ (by omega)

/-- Lists that are put together from pieces of the same lengths. -/
theorem flatMap_eq_flatMap_iff {α β : Type} {f g : α → List β}
    (hlen : ∀ a, (f a).length = (g a).length) (l : List α) :
    l.flatMap f = l.flatMap g ↔ ∀ a ∈ l, f a = g a := by
  induction l with
  | nil => simp
  | cons a l ih =>
    rw [List.flatMap_cons, List.flatMap_cons, List.forall_mem_cons, ← ih]
    constructor
    · exact fun h => List.append_inj h (hlen a)
    · rintro ⟨ha, hl⟩
      rw [ha, hl]

/-- `janus_rtcp_get_nacks` yields the sequence numbers that the entries ask for if and
only if no bit stands for a number behind 65535. -/
theorem get_nacks_modular_iff (n : GenericNack) (stale : Mem) :
    (∃ list, getNacks (below n.bytes.length) (Mem.lay n.bytes stale) n.bytes.length = .ok list ∧
        list = n.entries.flatMap modularSeqs ∧ ∀ v ∈ list, ∃ seqn : UInt16, seqn.toNat = v) ↔
      ∀ e ∈ n.entries, ∀ j < 16, e.2.toNat.testBit j = true → e.1.toNat + j + 1 < 65536 := by
  have hread := n.getNacks_eq (Mem.holds_lay n.bytes stale)
  have hiff : (n.entries.flatMap fun e => entrySeqs e.1.toNat e.2.toNat) =
      n.entries.flatMap modularSeqs ↔
        ∀ e ∈ n.entries, ∀ j < 16, e.2.toNat.testBit j = true → e.1.toNat + j + 1 < 65536 := by
    -- an entry stands for as many numbers with the wrap as without
    rw [flatMap_eq_flatMap_iff fun e => by simp [entrySeqs, modularSeqs]]
    exact forall₂_congr fun e _ => entrySeqs_eq_iff e
  rw [← hiff]
  constructor
  · rintro ⟨list, hlist, rfl, -⟩
    exact Except.ok.inj (hread.symm.trans hlist)
  · intro heq
    refine ⟨_, hread, heq, ?_⟩
    intro v hv
    rw [heq] at hv
    obtain ⟨e, -, hve⟩ := List.mem_flatMap.mp hv
    exact ⟨UInt16.ofNat v, UInt16.toNat_ofNat_of_lt' (modularSeqs_lt hve)⟩

/-- An entry for the packets 65535 and 0. -/
def wrapped : GenericNack where
  padding := false
  ssrc := 0
  media := 0
  entries := [(65535, 1)]
  length_lt := by decide

theorem wrapped_nack_yields_65536 :
    getNacks (below wrapped.bytes.length) (Mem.lay wrapped.bytes fun _ => 0) wrapped.bytes.length =
        .ok [65535, 65536] ∧
      wrapped.entries.flatMap modularSeqs = [65535, 0] ∧
      ¬ ∃ seqn : UInt16, seqn.toNat = 65536 := by
  refine ⟨?_, by decide, ?_⟩
  · exact wrapped.getNacks_eq (Mem.holds_lay wrapped.bytes _)
  · rintro ⟨seqn, h⟩
    have hlt := seqn.toNat_lt
    omega

end GenericNack

/-! ### Requests for a key frame -/

/-- The header fields that the encoders set; the padding bit stays. -/
def setHeader (m : Mem) (rc type length : Nat) : Mem :=
  ((m.putBe 0 1 (128 + m.getBe 0 1 / 32 % 2 * 32 + rc)).putBe 1 1 type).putBe 2 2 length

/-- The common body of `janus_rtcp_fir` and `janus_rtcp_fir_legacy`: the return value,
the buffer and the next `seqnr`. -/
def firMessage (type : Nat) (m : Mem) (len : Nat) (seqnr : Int) : Int × Mem × Int :=
  if len ≠ 20 then (-1, m, seqnr)
  else
    let seqnr := if seqnr + 1 < 0 ∨ seqnr + 1 ≥ 256 then 0 else seqnr + 1
    (20, (setHeader m 4 type (len / 4 - 1)).putBe 16 4 (seqnr.toNat * 2 ^ 24), seqnr)

/-- `janus_rtcp_fir`. -/
def janusRtcpFir : Mem → Nat → Int → Int × Mem × Int := firMessage rtcpPsfb

/-- `janus_rtcp_pli`. -/
def janusRtcpPli (m : Mem) (len : Nat) : Int × Mem :=
  if len ≠ 12 then (-1, m) else (12, setHeader m 1 rtcpPsfb (len / 4 - 1))

section

variable (m : Mem) {fmt t l : Nat}

theorem version_setHeader (hfmt : fmt < 32) : version (setHeader m fmt t l) 0 = 2 := by
  rw [version, setHeader, Mem.getBe_putBe_of_disjoint (Or.inl (by decide)),
    Mem.getBe_putBe_of_disjoint (Or.inl (by decide)), Mem.getBe_putBe]
  omega

theorem rc_setHeader (hfmt : fmt < 32) : rc (setHeader m fmt t l) 0 = fmt := by
  rw [rc, setHeader, Mem.getBe_putBe_of_disjoint (Or.inl (by decide)),
    Mem.getBe_putBe_of_disjoint (Or.inl (by decide)), Mem.getBe_putBe]
  omega

theorem type_setHeader (ht : t < 256) : type (setHeader m fmt t l) 0 = t := by
  rw [type, setHeader, Mem.getBe_putBe_of_disjoint (Or.inl (by decide))]
  exact Mem.getBe_putBe_of_lt ht

end

/-- A sub-packet of version 2. -/
structure WellFormed extends SubPacket where
  version_eq : toSubPacket.version = 2

namespace SubPacket

/-- A FIR of RFC 2032. -/
def isFirLegacy (p : SubPacket) : Bool := decide (p.type.toNat = rtcpFir)

def isPli (p : SubPacket) : Bool := decide (p.type.toNat = rtcpPsfb ∧ p.rc = 1)

/-- A FIR of RFC 5104. -/
def isFir (p : SubPacket) : Bool := decide (p.type.toNat = rtcpPsfb ∧ p.rc = 4)

end SubPacket

section

variable {ps : List WellFormed} {m : Mem}

/-- The bytes of a compound packet of well-formed sub-packets. -/
def compound (ps : List WellFormed) : List UInt8 := encode (ps.map WellFormed.toSubPacket)

theorem version_compound (hne : ps ≠ []) (hm : m.Holds 0 (compound ps)) : version m 0 = 2 := by
  rcases ps with - | ⟨p, ps⟩
  · exact absurd rfl hne
  · rw [compound, List.map_cons, holds_encode_cons] at hm
    rw [Holds.version hm.1]
    exact p.version_eq

theorem length_compound_pos (hne : ps ≠ []) : 0 < (compound ps).length := by
  rcases ps with - | ⟨p, ps⟩
  · exact absurd rfl hne
  · have hsize := p.length_encode
    rw [compound, List.map_cons, length_encode_cons]
    omega

theorem foldl_or {α : Type} (f : α → Bool) (l : List α) (b : Bool) :
    l.foldl (fun got p => got || f p) b = (b || l.any f) := by
  induction l generalizing b with
  | nil => simp
  | cons p l ih => rw [List.foldl_cons, ih, List.any_cons, Bool.or_assoc]

/-- A function that looks for the sub-packets with `f`, and reads only their headers. -/
theorem detect_compound {body : Nat → Mem × Bool → Except Nat (Step (Mem × Bool))}
    {fields : Nat → Mem × Bool → List (Nat × Nat)} {round : Nat → Mem × Bool → Step (Mem × Bool)}
    {f : SubPacket → Bool}
    (hbody : ∀ off s, Touches (below (compound ps).length) off (fields off s) (body off s)
      (round off s))
    (hfields : ∀ off s, ∀ c ∈ fields off s, c.2 ≠ 0 ∧ c.1 + c.2 ≤ 4)
    (hround : ∀ p off got, m.Holds off p.encode → round off (m, got) = .next (m, got || f p))
    (hne : ps ≠ []) (hm : m.Holds 0 (compound ps)) :
    ifVersion (below (compound ps).length) m false (do
      let s ← loop (below (compound ps).length) body 0 (compound ps).length (m, false)
      .ok s.2) = .ok (ps.any fun p => f p.toSubPacket) := by
  have hpos := length_compound_pos hne
  have hloop : loop (below (compound ps).length) body 0 (compound ps).length (m, false) =
      .ok (m, (ps.map WellFormed.toSubPacket).foldl (fun got p => got || f p) false) := by
    apply loop_packets hbody ?_ (by simpa using hne) false hm (Nat.le_of_eq (Nat.zero_add _))
    intro p _ off got hp hlen
    change off + p.encode.length ≤ (compound ps).length at hlen
    refine ⟨?_, hround p off got hp⟩
    intro c hc
    -- the header of a sub-packet is inside the compound packet
    have hsize := p.length_encode
    have hend := hfields off (m, got) c hc
    exact mapped_below.mpr (Or.inr (by omega))
  rw [ifVersion_eq (mapped_below.mpr (Or.inr (by omega))) (version_compound hne hm), hloop]
  show Except.ok _ = _
  rw [foldl_or, List.any_map]
  rfl

theorem hasFir_compound (hne : ps ≠ []) (hm : m.Holds 0 (compound ps)) :
    hasFir (below (compound ps).length) m (compound ps).length =
      .ok (ps.any fun p => p.isFirLegacy) := by
  apply detect_compound (hasFirBody_touches _) ?_ ?_ hne hm
  · intro off s c hc
    rw [List.mem_singleton.mp hc]
    decide
  · intro p off got hp
    rw [hasFirRound_eq, Holds.type hp, SubPacket.isFirLegacy]

theorem hasPli_compound (hne : ps ≠ []) (hm : m.Holds 0 (compound ps)) :
    hasPli (below (compound ps).length) m (compound ps).length =
      .ok (ps.any fun p => p.isPli) := by
  apply detect_compound (hasPliBody_touches _) (fun off s c => hasPliFields_header) ?_ hne hm
  intro p off got hp
  rw [hasPliRound_eq, Holds.type hp, Holds.rc hp, SubPacket.isPli]

end

/-- The functions of the audio conference plugin notice a request for a key frame in a
compound packet if and only if a FIR of RFC 5104 does not come without another request. -/
theorem key_frame_request_iff (ps : List WellFormed) (stale : Mem) :
    (∃ fir pli,
        hasFir (below (compound ps).length) (Mem.lay (compound ps) stale) (compound ps).length =
          .ok fir ∧
        hasPli (below (compound ps).length) (Mem.lay (compound ps) stale) (compound ps).length =
          .ok pli ∧
        ((fir || pli) = true ↔
          ∃ p ∈ ps, p.isFirLegacy = true ∨ p.isPli = true ∨ p.isFir = true)) ↔
      ps ≠ [] ∧ ((∃ p ∈ ps, p.isFir = true) →
        ∃ p ∈ ps, p.isFirLegacy = true ∨ p.isPli = true) := by
  by_cases hne : ps = []
  · -- nothing stops the functions from reading the header of an empty packet
    subst hne
    refine ⟨?_, fun h => absurd rfl h.1⟩
    rintro ⟨fir, pli, hfir, -⟩
    have hfault : hasFir (below 0) (Mem.lay [] stale) 0 = .error 0 := rfl
    cases hfault.symm.trans hfir
  have hm := Mem.holds_lay (compound ps) stale
  have hor : (ps.any (fun p => p.isFirLegacy) || ps.any fun p => p.isPli) = true ↔
      ∃ p ∈ ps, p.isFirLegacy = true ∨ p.isPli = true := by
    rw [Bool.or_eq_true, List.any_eq_true, List.any_eq_true]
    constructor
    · rintro (⟨p, hp, h⟩ | ⟨p, hp, h⟩)
      · exact ⟨p, hp, Or.inl h⟩
      · exact ⟨p, hp, Or.inr h⟩
    · rintro ⟨p, hp, h | h⟩
      · exact Or.inl ⟨p, hp, h⟩
      · exact Or.inr ⟨p, hp, h⟩
  constructor
  · rintro ⟨fir, pli, hfir, hpli, hiff⟩
    refine ⟨hne, ?_⟩
    rintro ⟨p, hp, hpf⟩
    rw [← hor, ← Except.ok.inj ((hasFir_compound hne hm).symm.trans hfir).symm,
      ← Except.ok.inj ((hasPli_compound hne hm).symm.trans hpli).symm]
    exact hiff.mpr ⟨p, hp, Or.inr (Or.inr hpf)⟩
  · -- a FIR of RFC 5104 is noticed through the request that comes with it
    rintro ⟨-, hcond⟩
    refine ⟨_, _, hasFir_compound hne hm, hasPli_compound hne hm, ?_⟩
    rw [hor]
    constructor
    · rintro ⟨p, hp, h | h⟩
      · exact ⟨p, hp, Or.inl h⟩
      · exact ⟨p, hp, Or.inr (Or.inl h)⟩
    · rintro ⟨p, hp, h | h | h⟩
      · exact ⟨p, hp, Or.inl h⟩
      · exact ⟨p, hp, Or.inr h⟩
      · exact hcond ⟨p, hp, h⟩

/-- What `janus_rtcp_fir` writes to an empty buffer. -/
def firPacket : WellFormed where
  first := 0x84
  type := 206
  words := 4
  body := [0, 0, 0, 0, 0, 0, 0, 0, 0, 0, 0, 0, 1, 0, 0, 0]
  body_length := rfl
  words_pos := by decide
  words_lt := by decide
  version_eq := by decide

theorem fir_is_not_noticed :
    (janusRtcpFir (fun _ => 0) 20 0).1 = 20 ∧
      (List.range 20).map (janusRtcpFir (fun _ => 0) 20 0).2.1 = compound [firPacket] ∧
      firPacket.isFir = true ∧
      hasFir (below 20) (Mem.lay (compound [firPacket]) fun _ => 0) 20 = .ok false ∧
      hasPli (below 20) (Mem.lay (compound [firPacket]) fun _ => 0) 20 = .ok false := by
  decide +kernel

end Orbit.Janus
