/-
OrbitStream/RtcpRewrite.lean

The functions of `rtp/janus_rtcp_processor.cc` that change a compound RTCP packet in
place: `janus_rtcp_fix_ssrc`, `janus_rtcp_cap_remb` and `janus_rtcp_remove_nacks`.

The rewriting of SSRCs is a table of words for each kind of sub-packet (`fixWords`).
The words all lie behind the header, and beside the fields that the other functions
decode; so when each sub-packet is long enough for its words, the compound packet means
the same before and after (`fix_ssrc_preserves`).  When a sub-packet is too short, its
words land in the next sub-packet or behind the buffer.
-/
import OrbitStream.RtcpContext
import OrbitStream.RtcpWalk

namespace Orbit.Janus

open Lib

/-! ### `janus_rtcp_fix_ssrc` -/

/-- The arguments `fixssrc`, `newssrcl` and `newssrcr`. -/
structure FixArgs where
  fixssrc : Bool
  newssrcl : UInt32
  newssrcr : UInt32
  deriving DecidableEq, Repr

namespace FixArgs

/-- `fixssrc && newssrcl` -/
def setsL (a : FixArgs) : Prop := a.fixssrc = true ∧ a.newssrcl ≠ 0

/-- `fixssrc && newssrcr` -/
def setsR (a : FixArgs) : Prop := a.fixssrc = true ∧ a.newssrcr ≠ 0

instance (a : FixArgs) : Decidable a.setsL := inferInstanceAs (Decidable (_ ∧ _))

instance (a : FixArgs) : Decidable a.setsR := inferInstanceAs (Decidable (_ ∧ _))

end FixArgs

section

variable (ok : Nat → Bool) (a : FixArgs)

/-- `if(fixssrc && newssrcl)` a field becomes `htonl(newssrcl)`. -/
def fixL (m : Mem) (i : Nat) : Except Nat Mem :=
  if a.setsL then store ok m i 4 a.newssrcl.toNat else .ok m

/-- `if(fixssrc && newssrcr)` a field becomes `htonl(newssrcr)`. -/
def fixR (m : Mem) (i : Nat) : Except Nat Mem :=
  if a.setsR then store ok m i 4 a.newssrcr.toNat else .ok m

/-- `janus_rtcp_incoming_sr`; `now off` is the clock when the report at `off` is read. -/
def incomingSr (now : Nat → Int) (m : Mem) (off : Nat) :
    Option RtcpContext → Except Nat (Option RtcpContext)
  | none => .ok none
  | some ctx => do
    let msw ← load ok m (off + 8) 4
    let lsw ← load ok m (off + 12) 4
    let ntp := msw * 2 ^ 32 + lsw
    .ok (some { ctx with lsrTs := now off, lsr := (ntp / 2 ^ 16 % 2 ^ 32 : Nat) })

/-- The SSRCs of a report with its first block at `rb`. -/
def fixReport (m : Mem) (off rb : Nat) : Except Nat Mem := do
  let m ← fixL ok a m (off + 4)
  if a.setsR then
    let first ← load ok m off 1
    if 0 < first % 32 then store ok m (off + rb) 4 a.newssrcr.toNat else .ok m
  else .ok m

/-- `media` of a FIR is changed only in a message of 84 bytes and more. -/
def fixFirMedia (m : Mem) (off : Nat) : Except Nat Mem :=
  if a.setsR then do
    let length ← load ok m (off + 2) 2
    if 20 ≤ length then store ok m (off + 8) 4 a.newssrcr.toNat else .ok m
  else .ok m

def fixFir (m : Mem) (off : Nat) : Except Nat Mem := do
  let m ← fixFirMedia ok a m off
  fixR ok a m (off + 12)

/-- An entry of a NACK is read for the log. -/
def logEntry (m : Mem) (off : Nat) (_ : Unit) (i : Nat) : Except Nat Unit := do
  let _pid ← load ok m (off + (12 + 4 * i)) 2
  let _blp ← load ok m (off + (14 + 4 * i)) 2
  .ok ()

def fixRtpfbFmt (fmt : Nat) (m : Mem) (off : Nat) : Except Nat Mem :=
  if fmt = 1 then do
    let m ← fixR ok a m (off + 8)
    let length ← load ok m (off + 2) 2
    let _ ← (List.range (length - 2)).foldlM (logEntry ok m off) ()
    .ok m
  else if fmt = 3 then fixR ok a m (off + 12)
  else .ok m

def fixRtpfb (m : Mem) (off : Nat) : Except Nat Mem := do
  let first ← load ok m off 1
  let m ← fixRtpfbFmt ok a (first % 32) m off
  fixL ok a m (off + 4)

/-- The fields of a REMB are read for the log. -/
def logRemb (m : Mem) (off : Nat) : Except Nat Unit := do
  let _numssrc ← load ok m (off + 16) 1
  let _b1 ← load ok m (off + 17) 1
  let _b2 ← load ok m (off + 18) 1
  let _b3 ← load ok m (off + 19) 1
  let _ssrc ← load ok m (off + 20) 4
  .ok ()

def fixPsfbFmt (fmt : Nat) (m : Mem) (off : Nat) : Except Nat Mem :=
  if fmt = 1 then fixR ok a m (off + 8)
  else if fmt = 4 then do
    let m ← fixR ok a m (off + 8)
    fixR ok a m (off + 12)
  else if fmt = 5 then fixR ok a m (off + 12)
  else if fmt = 15 then do
    let remb ← isRemb ok m off
    if remb = true then
      let m ← fixR ok a m (off + 20)
      let _ ← logRemb ok m off
      .ok m
    else .ok m
  else .ok m

def fixPsfb (m : Mem) (off : Nat) : Except Nat Mem := do
  let first ← load ok m off 1
  let m ← fixPsfbFmt ok a (first % 32) m off
  fixL ok a m (off + 4)

/-- The `switch` over the types but for the sender report. -/
def fixOther (type : Nat) (m : Mem) (off : Nat) : Except Nat Mem :=
  if type = rtcpRr then fixReport ok a m off 8
  else if type = rtcpSdes then fixL ok a m (off + 8)
  else if type = rtcpBye then fixL ok a m (off + 4)
  else if type = rtcpApp then fixL ok a m (off + 4)
  else if type = rtcpFir then fixFir ok a m off
  else if type = rtcpRtpfb then fixRtpfb ok a m off
  else if type = rtcpPsfb then fixPsfb ok a m off
  else .ok m

def fixSsrcBody (now : Nat → Int) (off : Nat) (s : Mem × Option RtcpContext) :
    Except Nat (Step (Mem × Option RtcpContext)) := do
  let type ← load ok s.1 (off + 1) 1
  if type = rtcpSr then
    let ctx ← incomingSr ok now s.1 off s.2
    let m ← fixReport ok a s.1 off 28
    .ok (.next (m, ctx))
  else
    let m ← fixOther ok a type s.1 off
    .ok (.next (m, s.2))

/-- `janus_rtcp_fix_ssrc`: the return value, the buffer and the context. -/
def fixSsrc (now : Nat → Int) (ctx : Option RtcpContext) (m : Mem) (len : Nat) :
    Except Nat (Int × Mem × Option RtcpContext) :=
  if len = 0 then .ok (-1, m, ctx)
  else ifVersion ok m (-2, m, ctx) do
    let s ← loop ok (fixSsrcBody ok a now) 0 len (m, ctx)
    .ok (0, s.1, s.2)

end

/-! ### `janus_rtcp_cap_remb` and `janus_rtcp_remove_nacks` -/

/-- `newbrexp` and `newbrmantissa`.  The search ends long before 64, since only a bitrate
below that of a REMB is encoded. -/
def encodeBitrate (bitrate : UInt64) : Nat × Nat :=
  match (List.range 64).find? fun b => decide (bitrate.toNat ≤ 0x3FFFF * 2 ^ b % 2 ^ 64) with
  | some b => (b, bitrate.toNat / 2 ^ b % 2 ^ 32)
  | none => (0, bitrate.toNat % 2 ^ 32)

section

variable (ok : Nat → Bool)

def capRembBody (bitrate : UInt64) (off : Nat) (s : Mem × Unit) :
    Except Nat (Step (Mem × Unit)) := do
  let type ← load ok s.1 (off + 1) 1
  if type = rtcpPsfb then
    let fmt ← load ok s.1 off 1
    if fmt % 32 = 15 then
      let remb ← isRemb ok s.1 off
      if remb = true then
        let b1 ← load ok s.1 (off + 17) 1
        let b2 ← load ok s.1 (off + 18) 1
        let b3 ← load ok s.1 (off + 19) 1
        -- only a bitrate that is greater is replaced
        if bitrate.toNat < rembBitrate b1 b2 b3 then
          let (exp, mantissa) := encodeBitrate bitrate
          let m ← store ok s.1 (off + 17) 1 (exp * 4 + mantissa / 65536 % 4)
          let m ← store ok m (off + 18) 1 (mantissa / 256)
          let m ← store ok m (off + 19) 1 mantissa
          .ok (.next (m, ()))
        else .ok (.next s)
      else .ok (.next s)
    else .ok (.next s)
  else .ok (.next s)

/-- `janus_rtcp_cap_remb`: the return value and the buffer. -/
def capRemb (bitrate : UInt64) (m : Mem) (len : Nat) : Except Nat (Int × Mem) :=
  if len = 0 then .ok (-1, m)
  else ifVersion ok m (-2, m) do
    if bitrate = 0 then .ok (0, m)
    else
      let s ← loop ok (capRembBody ok bitrate) 0 len (m, ())
      .ok (0, s.1)

/-- The search of `janus_rtcp_remove_nacks`: `nacks` and `nacks_len`.  The first NACK ends
the loop, and a length of zero is left as it is. -/
def findNacksBody (off : Nat) (s : Mem × Option (Nat × Nat)) :
    Except Nat (Step (Mem × Option (Nat × Nat))) := do
  let type ← load ok s.1 (off + 1) 1
  if type = rtcpRtpfb then
    let fmt ← load ok s.1 off 1
    if fmt % 32 = 1 then
      let length ← load ok s.1 (off + 2) 2
      .ok (.stop (s.1, some (off, if length = 0 then 0 else length * 4 + 4)))
    else .ok (.next s)
  else .ok (.next s)

def moveByte (nacks nacksLen : Nat) (m : Mem) (i : Nat) : Except Nat Mem := do
  let b ← load ok m (nacks + (nacksLen + i)) 1
  store ok m (nacks + i) 1 b

/-- `janus_rtcp_remove_nacks`: the new length and the buffer. -/
def removeNacks (m : Mem) (len : Nat) : Except Nat (Nat × Mem) :=
  if len = 0 then .ok (len, m)
  else ifVersion ok m (len, m) do
    let s ← loop ok (findNacksBody ok) 0 len (m, none)
    match s.2 with
    | none => .ok (len, s.1)
    | some (nacks, nacksLen) =>
      -- a NACK that claims more bytes than there are stays
      if len < nacks + nacksLen then .ok (len, s.1)
      else if len = nacks + nacksLen then .ok (len - nacksLen, s.1)
      else
        let m ← (List.range (len - (nacks + nacksLen))).foldlM (moveByte ok nacks nacksLen) s.1
        .ok (len - nacksLen, m)

end

/-! ### What a round of `janus_rtcp_fix_ssrc` writes -/

section

variable (a : FixArgs) (m : Mem) (off : Nat)

def wordL (i : Nat) : List (Nat × Nat) := if a.setsL then [(i, a.newssrcl.toNat)] else []

def wordR (i : Nat) : List (Nat × Nat) := if a.setsR then [(i, a.newssrcr.toNat)] else []

def reportWords (rb : Nat) : List (Nat × Nat) :=
  wordL a 4 ++ if a.setsR then if 0 < rc m off then [(rb, a.newssrcr.toNat)] else [] else []

def firWords : List (Nat × Nat) :=
  (if a.setsR then if 20 ≤ length m off then [(8, a.newssrcr.toNat)] else [] else []) ++
    wordR a 12

def rtpfbWords : List (Nat × Nat) :=
  (if rc m off = 1 then wordR a 8 else if rc m off = 3 then wordR a 12 else []) ++ wordL a 4

def psfbWords : List (Nat × Nat) :=
  (if rc m off = 1 then wordR a 8
    else if rc m off = 4 then wordR a 8 ++ wordR a 12
    else if rc m off = 5 then wordR a 12
    else if rc m off = 15 then if rembAt m off = true then wordR a 20 else []
    else []) ++ wordL a 4

/-- The words for the types but for the sender report. -/
def otherWords : List (Nat × Nat) :=
  if type m off = rtcpRr then reportWords a m off 8
  else if type m off = rtcpSdes then wordL a 8
  else if type m off = rtcpBye then wordL a 4
  else if type m off = rtcpApp then wordL a 4
  else if type m off = rtcpFir then firWords a m off
  else if type m off = rtcpRtpfb then rtpfbWords a m off
  else if type m off = rtcpPsfb then psfbWords a m off
  else []

/-- The words that a round writes: offset from the sub-packet, and SSRC. -/
def fixWords : List (Nat × Nat) :=
  if type m off = rtcpSr then reportWords a m off 28 else otherWords a m off

/-- The fields that a list of words fills. -/
def filled (ws : List (Nat × Nat)) : List (Nat × Nat) := ws.map fun w => (w.1, 4)

end

section

variable {ok : Nat → Bool} {a : FixArgs} {off : Nat}

/-- Words behind the header leave the header alone. -/
theorem getBe_putWords {m : Mem} {ws : List (Nat × Nat)} (h : ∀ w ∈ ws, 4 ≤ w.1) {i w : Nat}
    (hi : i + w ≤ 4) : (m.putWords off ws).getBe (off + i) w = m.getBe (off + i) w := by
  apply Mem.getBe_congr
  intro b hb hlt
  apply Mem.putWords_of_outside
  intro c hc
  have hle := h c hc
  omega

theorem rc_putWords {m : Mem} {ws : List (Nat × Nat)} (h : ∀ w ∈ ws, 4 ≤ w.1) :
    rc (m.putWords off ws) off = rc m off :=
  congrArg (· % 32) (getBe_putWords h (i := 0) (by omega))

theorem length_putWords {m : Mem} {ws : List (Nat × Nat)} (h : ∀ w ∈ ws, 4 ≤ w.1) :
    length (m.putWords off ws) off = length m off :=
  getBe_putWords h (by omega)

theorem wordL_offset {i : Nat} {w : Nat × Nat} (h : w ∈ wordL a i) : w.1 = i := by
  rw [wordL] at h
  split at h
  · rw [List.mem_singleton.mp h]
  · cases h

theorem wordR_offset {i : Nat} {w : Nat × Nat} (h : w ∈ wordR a i) : w.1 = i := by
  rw [wordR] at h
  split at h
  · rw [List.mem_singleton.mp h]
  · cases h

theorem fixL_touches (m : Mem) (i : Nat) :
    Touches ok off (filled (wordL a i)) (fixL ok a m (off + i)) (m.putWords off (wordL a i)) := by
  rw [fixL, wordL, filled, apply_ite (List.map _), apply_ite (m.putWords off)]
  exact Touches.ite (Touches.store m i 4 _) (Touches.pure m)

theorem fixR_touches (m : Mem) (i : Nat) :
    Touches ok off (filled (wordR a i)) (fixR ok a m (off + i)) (m.putWords off (wordR a i)) := by
  rw [fixR, wordR, filled, apply_ite (List.map _), apply_ite (m.putWords off)]
  exact Touches.ite (Touches.store m i 4 _) (Touches.pure m)

def reportFields (a : FixArgs) (m : Mem) (off rb : Nat) : List (Nat × Nat) :=
  filled (wordL a 4) ++ if a.setsR then
    [(0, 1)] ++ if 0 < rc m off then [(rb, 4)] else []
  else []

theorem fixReport_touches (m : Mem) (rb : Nat) :
    Touches ok off (reportFields a m off rb) (fixReport ok a m off rb)
      (m.putWords off (reportWords a m off rb)) := by
  rw [reportWords, Mem.putWords_append]
  apply (fixL_touches m 4).bind
  rw [apply_ite (Mem.putWords _ off), apply_ite (Mem.putWords _ off)]
  apply Touches.ite ?_ (Touches.pure _)
  -- the count is read after the SSRC was written
  have hback : ∀ w ∈ wordL a 4, 4 ≤ w.1 := fun w hw => Nat.le_of_eq (wordL_offset hw).symm
  rw [← rc_putWords hback]
  apply (Touches.load _ 0 1).bind
  exact Touches.ite (Touches.store _ rb 4 _) (Touches.pure _)

def firFields (a : FixArgs) (m : Mem) (off : Nat) : List (Nat × Nat) :=
  (if a.setsR then [(2, 2)] ++ if 20 ≤ length m off then [(8, 4)] else [] else []) ++
    filled (wordR a 12)

theorem fixFir_touches (m : Mem) :
    Touches ok off (firFields a m off) (fixFir ok a m off) (m.putWords off (firWords a m off)) := by
  rw [firWords, Mem.putWords_append]
  refine Touches.bind ?_ (fixR_touches _ 12)
  rw [apply_ite (Mem.putWords _ off), apply_ite (Mem.putWords _ off)]
  apply Touches.ite ?_ (Touches.pure _)
  apply (Touches.load m 2 2).bind
  exact Touches.ite (Touches.store _ 8 4 _) (Touches.pure _)

def nackFields (m : Mem) (off : Nat) : List (Nat × Nat) :=
  (List.range (length m off - 2)).flatMap fun i => [(12 + 4 * i, 2), (14 + 4 * i, 2)]

def rtpfbFields (a : FixArgs) (m : Mem) (off : Nat) : List (Nat × Nat) :=
  [(0, 1)] ++ ((if rc m off = 1 then filled (wordR a 8) ++ ([(2, 2)] ++ nackFields m off)
    else if rc m off = 3 then filled (wordR a 12) else []) ++ filled (wordL a 4))

theorem fixRtpfb_touches (m : Mem) :
    Touches ok off (rtpfbFields a m off) (fixRtpfb ok a m off)
      (m.putWords off (rtpfbWords a m off)) := by
  have hentry : ∀ m u i, Touches ok off [(12 + 4 * i, 2), (14 + 4 * i, 2)]
      (logEntry ok m off u i) () :=
    fun m _ i => (Touches.load m _ 2).bind (Touches.load m _ 2).map
  rw [rtpfbWords, Mem.putWords_append]
  apply (Touches.load m 0 1).bind
  refine Touches.bind ?_ (fixL_touches _ 4)
  rw [apply_ite (Mem.putWords _ off), apply_ite (Mem.putWords _ off)]
  apply Touches.ite ?_ (Touches.ite (fixR_touches m 12) (Touches.pure m))
  apply (fixR_touches m 8).bind
  have hback : ∀ w ∈ wordR a 8, 4 ≤ w.1 := by
    intro w hw
    rw [wordR_offset hw]
    omega
  rw [nackFields, ← length_putWords hback]
  exact (Touches.load _ 2 2).bind (Touches.foldlM (hentry _) _ ()).map

def psfbFields (a : FixArgs) (m : Mem) (off : Nat) : List (Nat × Nat) :=
  [(0, 1)] ++ ((if rc m off = 1 then filled (wordR a 8)
    else if rc m off = 4 then filled (wordR a 8) ++ filled (wordR a 12)
    else if rc m off = 5 then filled (wordR a 12)
    else if rc m off = 15 then rembFields m off ++
      if rembAt m off = true then
        filled (wordR a 20) ++ [(16, 1), (17, 1), (18, 1), (19, 1), (20, 4)]
      else []
    else []) ++ filled (wordL a 4))

theorem fixPsfb_touches (m : Mem) :
    Touches ok off (psfbFields a m off) (fixPsfb ok a m off)
      (m.putWords off (psfbWords a m off)) := by
  have hlog : ∀ m, Touches ok off [(16, 1), (17, 1), (18, 1), (19, 1), (20, 4)]
      (logRemb ok m off) () := by
    intro m
    apply (Touches.load m 16 1).bind
    apply (Touches.load m 17 1).bind
    apply (Touches.load m 18 1).bind
    apply (Touches.load m 19 1).bind
    exact (Touches.load m 20 4).map
  rw [psfbWords, Mem.putWords_append]
  apply (Touches.load m 0 1).bind
  refine Touches.bind ?_ (fixL_touches _ 4)
  simp only [apply_ite (Mem.putWords _ off)]
  apply Touches.ite (fixR_touches m 8)
  apply Touches.ite
  · rw [Mem.putWords_append]
    exact (fixR_touches m 8).bind (fixR_touches _ 12)
  apply Touches.ite (fixR_touches m 12)
  apply Touches.ite ?_ (Touches.pure m)
  apply (isRemb_touches ok m off).bind
  exact Touches.ite ((fixR_touches m 20).bind (hlog _).map) (Touches.pure m)

def otherFields (a : FixArgs) (m : Mem) (off : Nat) : List (Nat × Nat) :=
  if type m off = rtcpRr then reportFields a m off 8
  else if type m off = rtcpSdes then filled (wordL a 8)
  else if type m off = rtcpBye then filled (wordL a 4)
  else if type m off = rtcpApp then filled (wordL a 4)
  else if type m off = rtcpFir then firFields a m off
  else if type m off = rtcpRtpfb then rtpfbFields a m off
  else if type m off = rtcpPsfb then psfbFields a m off
  else []

theorem fixOther_touches (m : Mem) :
    Touches ok off (otherFields a m off) (fixOther ok a (type m off) m off)
      (m.putWords off (otherWords a m off)) := by
  simp only [otherWords, apply_ite (Mem.putWords _ off)]
  apply Touches.ite (fixReport_touches m 8)
  apply Touches.ite (fixL_touches m 8)
  apply Touches.ite (fixL_touches m 4)
  apply Touches.ite (fixL_touches m 4)
  apply Touches.ite (fixFir_touches m)
  apply Touches.ite (fixRtpfb_touches m)
  exact Touches.ite (fixPsfb_touches m) (Touches.pure m)

/-- The context after a sender report. -/
def afterSr (now : Nat → Int) (m : Mem) (off : Nat) (ctx : Option RtcpContext) :
    Option RtcpContext :=
  ctx.map fun c =>
    { c with
      lsrTs := now off
      lsr := ((m.getBe (off + 8) 4 * 2 ^ 32 + m.getBe (off + 12) 4) / 2 ^ 16 % 2 ^ 32 : Nat) }

def ctxFields (ctx : Option RtcpContext) : List (Nat × Nat) :=
  if ctx.isSome = true then [(8, 4), (12, 4)] else []

theorem incomingSr_touches (now : Nat → Int) (m : Mem) (ctx : Option RtcpContext) :
    Touches ok off (ctxFields ctx) (incomingSr ok now m off ctx) (afterSr now m off ctx) := by
  rcases ctx with - | ctx
  · exact Touches.pure none
  · exact (Touches.load m 8 4).bind (Touches.load m 12 4).map

/-- What a round of `janus_rtcp_fix_ssrc` makes of the buffer and the context. -/
def fixRound (a : FixArgs) (now : Nat → Int) (off : Nat) (s : Mem × Option RtcpContext) :
    Step (Mem × Option RtcpContext) :=
  .next (s.1.putWords off (fixWords a s.1 off),
    if type s.1 off = rtcpSr then afterSr now s.1 off s.2 else s.2)

def fixFields (a : FixArgs) (off : Nat) (s : Mem × Option RtcpContext) : List (Nat × Nat) :=
  [(1, 1)] ++ if type s.1 off = rtcpSr then ctxFields s.2 ++ reportFields a s.1 off 28
    else otherFields a s.1 off

end

theorem fixSsrcBody_touches (ok : Nat → Bool) (a : FixArgs) (now : Nat → Int) (off : Nat)
    (s : Mem × Option RtcpContext) :
    Touches ok off (fixFields a off s) (fixSsrcBody ok a now off s) (fixRound a now off s) := by
  have hround : fixRound a now off s =
      if type s.1 off = rtcpSr then
        .next (s.1.putWords off (reportWords a s.1 off 28), afterSr now s.1 off s.2)
      else .next (s.1.putWords off (otherWords a s.1 off), s.2) := by
    rw [fixRound, fixWords]
    split <;> rfl
  rw [hround]
  apply (Touches.load s.1 1 1).bind
  apply Touches.ite
  · exact (incomingSr_touches now s.1 s.2).bind (fixReport_touches s.1 28).map
  · exact (fixOther_touches s.1).map

/-! ### What the rounds of the other functions access -/

/-- The REMB at `off` with another bitrate. -/
def capAt (bitrate : UInt64) (m : Mem) (off : Nat) : Mem :=
  ((m.putBe (off + 17) 1
      ((encodeBitrate bitrate).1 * 4 + (encodeBitrate bitrate).2 / 65536 % 4)).putBe
    (off + 18) 1 ((encodeBitrate bitrate).2 / 256)).putBe (off + 19) 1 (encodeBitrate bitrate).2

def capRembRound (bitrate : UInt64) (off : Nat) (s : Mem × Unit) : Step (Mem × Unit) :=
  if type s.1 off = rtcpPsfb then
    if rc s.1 off = 15 then
      if rembAt s.1 off = true then
        if bitrate.toNat < bitrateAt s.1 off then .next (capAt bitrate s.1 off, ()) else .next s
      else .next s
    else .next s
  else .next s

def capRembFields (bitrate : UInt64) (off : Nat) (s : Mem × Unit) : List (Nat × Nat) :=
  [(1, 1)] ++ if type s.1 off = rtcpPsfb then
    [(0, 1)] ++ if rc s.1 off = 15 then
      rembFields s.1 off ++ if rembAt s.1 off = true then
        [(17, 1), (18, 1), (19, 1)] ++
          if bitrate.toNat < bitrateAt s.1 off then [(17, 1), (18, 1), (19, 1)] else []
      else []
    else []
  else []

def findNacksRound (off : Nat) (s : Mem × Option (Nat × Nat)) :
    Step (Mem × Option (Nat × Nat)) :=
  if type s.1 off = rtcpRtpfb then
    if rc s.1 off = 1 then
      .stop (s.1, some (off, if length s.1 off = 0 then 0 else size s.1 off))
    else .next s
  else .next s

def findNacksFields (off : Nat) (s : Mem × Option (Nat × Nat)) : List (Nat × Nat) :=
  [(1, 1)] ++ if type s.1 off = rtcpRtpfb then
    [(0, 1)] ++ if rc s.1 off = 1 then [(2, 2)] else []
  else []

section

variable (ok : Nat → Bool)

theorem capRembBody_touches (bitrate : UInt64) (off : Nat) (s : Mem × Unit) :
    Touches ok off (capRembFields bitrate off s) (capRembBody ok bitrate off s)
      (capRembRound bitrate off s) := by
  have hfields : ([(17, 1), (18, 1), (19, 1)] : List (Nat × Nat)) =
      [(17, 1)] ++ ([(18, 1)] ++ [(19, 1)]) := rfl
  apply (Touches.load s.1 1 1).bind
  apply Touches.ite ?_ (Touches.pure _)
  apply (Touches.load s.1 0 1).bind
  apply Touches.ite ?_ (Touches.pure _)
  apply (isRemb_touches ok s.1 off).bind
  apply Touches.ite ?_ (Touches.pure _)
  rw [hfields, List.append_assoc, List.append_assoc]
  apply (Touches.load s.1 17 1).bind
  apply (Touches.load s.1 18 1).bind
  apply (Touches.load s.1 19 1).bind
  apply Touches.ite ?_ (Touches.pure _)
  apply (Touches.store s.1 17 1 _).bind
  apply (Touches.store _ 18 1 _).bind
  exact (Touches.store _ 19 1 _).map

theorem findNacksBody_touches (off : Nat) (s : Mem × Option (Nat × Nat)) :
    Touches ok off (findNacksFields off s) (findNacksBody ok off s) (findNacksRound off s) := by
  apply (Touches.load s.1 1 1).bind
  apply Touches.ite ?_ (Touches.pure _)
  apply (Touches.load s.1 0 1).bind
  exact Touches.ite (Touches.load s.1 2 2).map (Touches.pure _)

end

/-! ### What the rewriting of SSRCs keeps -/

/-- The bytes of a sub-packet up to the last field that `janus_rtcp_fix_ssrc` may write. -/
def needed (type rc : Nat) : Nat :=
  if type = rtcpSr then if 0 < rc then 32 else 8
  else if type = rtcpRr then if 0 < rc then 12 else 8
  else if type = rtcpSdes then 12
  else if type = rtcpBye then 8
  else if type = rtcpApp then 8
  else if type = rtcpFir then 16
  else if type = rtcpRtpfb then if rc = 1 then 12 else if rc = 3 then 16 else 8
  else if type = rtcpPsfb then
    if rc = 1 then 12 else if rc = 4 then 16 else if rc = 5 then 16 else if rc = 15 then 24 else 8
  else 4

def SubPacket.LongEnough (p : SubPacket) : Prop := needed p.type.toNat p.rc ≤ p.encode.length

instance (p : SubPacket) : Decidable p.LongEnough := inferInstanceAs (Decidable (_ ≤ _))

/-- `P` holds of every sub-packet and the offset where it starts. -/
def AtEach (P : Nat → SubPacket → Prop) : Nat → List SubPacket → Prop
  | _, [] => True
  | off, p :: ps => P off p ∧ AtEach P (off + p.encode.length) ps

/-- The memory has the header of the sub-packet at `off`. -/
structure Headed (m : Mem) (off : Nat) (p : SubPacket) : Prop where
  type : type m off = p.type.toNat
  rc : rc m off = p.rc
  length : length m off = p.words

section

variable {P Q : Nat → SubPacket → Prop} {off : Nat} {ps : List SubPacket} {m : Mem}

theorem AtEach.imp (h : AtEach P off ps) (hPQ : ∀ o p, off ≤ o → P o p → Q o p) :
    AtEach Q off ps := by
  induction ps generalizing off with
  | nil => trivial
  | cons p ps ih =>
    exact ⟨hPQ off p (Nat.le_refl off) h.1, ih h.2 fun o q ho => hPQ o q (by omega)⟩

theorem AtEach.and (h : AtEach P off ps) (h' : AtEach Q off ps) :
    AtEach (fun o p => P o p ∧ Q o p) off ps := by
  induction ps generalizing off with
  | nil => trivial
  | cons p ps ih => exact ⟨⟨h.1, h'.1⟩, ih h.2 h'.2⟩

theorem atEach_of_forall (h : ∀ o, ∀ p ∈ ps, P o p) : AtEach P off ps := by
  induction ps generalizing off with
  | nil => trivial
  | cons p ps ih =>
    rw [AtEach]
    exact ⟨h off p List.mem_cons_self, ih fun o q hq => h o q (List.mem_cons_of_mem p hq)⟩

/-- A property of all bytes of the sub-packets is one of all bytes of the packet. -/
theorem atEach_byte {B : Nat → Prop} (h : AtEach (fun o p => ∀ k < p.encode.length, B (o + k)) off ps)
    {b : Nat} (hlo : off ≤ b) (hhi : b < off + (encode ps).length) : B b := by
  induction ps generalizing off with
  | nil =>
    rw [encode_nil, List.length_nil] at hhi
    omega
  | cons p ps ih =>
    rw [length_encode_cons] at hhi
    by_cases hb : b < off + p.encode.length
    · obtain ⟨k, rfl⟩ := Nat.exists_eq_add_of_le hlo
      exact h.1 k (by omega)
    · exact ih h.2 (by omega) (by omega)

theorem headed_of_holds (h : m.Holds off (encode ps)) : AtEach (Headed m) off ps := by
  induction ps generalizing off with
  | nil => trivial
  | cons p ps ih =>
    rw [holds_encode_cons] at h
    exact ⟨⟨Holds.type h.1, Holds.rc h.1, Holds.length h.1⟩, ih h.2⟩

end

section

variable {a : FixArgs} {m : Mem} {off : Nat} {w : Nat × Nat}

theorem reportWords_offset {rb : Nat} (h : w ∈ reportWords a m off rb) :
    w.1 = 4 ∨ (w.1 = rb ∧ 0 < rc m off) := by
  rcases List.mem_append.mp h with h | h
  · exact Or.inl (wordL_offset h)
  · split at h
    · split at h
      · next hrc => exact Or.inr ⟨by rw [List.mem_singleton.mp h], hrc⟩
      · cases h
    · cases h

theorem firWords_offset (h : w ∈ firWords a m off) : w.1 = 8 ∨ w.1 = 12 := by
  rcases List.mem_append.mp h with h | h
  · split at h
    · split at h
      · exact Or.inl (by rw [List.mem_singleton.mp h])
      · cases h
    · cases h
  · exact Or.inr (wordR_offset h)

theorem rtpfbWords_offset (h : w ∈ rtpfbWords a m off) :
    w.1 = 4 ∨ (w.1 = 8 ∧ rc m off = 1) ∨ (w.1 = 12 ∧ rc m off = 3) := by
  rcases List.mem_append.mp h with h | h
  · split at h
    · next hrc => exact Or.inr (Or.inl ⟨wordR_offset h, hrc⟩)
    · split at h
      · next hrc => exact Or.inr (Or.inr ⟨wordR_offset h, hrc⟩)
      · cases h
  · exact Or.inl (wordL_offset h)

theorem psfbWords_offset (h : w ∈ psfbWords a m off) :
    w.1 = 4 ∨ (w.1 = 8 ∧ (rc m off = 1 ∨ rc m off = 4)) ∨
      (w.1 = 12 ∧ (rc m off = 4 ∨ rc m off = 5)) ∨ (w.1 = 20 ∧ rc m off = 15) := by
  rcases List.mem_append.mp h with h | h
  · split at h
    · have hoffset := wordR_offset h
      omega
    split at h
    · rcases List.mem_append.mp h with h | h
      · have hoffset := wordR_offset h
        omega
      · have hoffset := wordR_offset h
        omega
    split at h
    · have hoffset := wordR_offset h
      omega
    split at h
    · split at h
      · have hoffset := wordR_offset h
        omega
      · cases h
    · cases h
  · exact Or.inl (wordL_offset h)

/-- The word lies behind the header and ends before byte `n`. -/
def Between (w : Nat × Nat) (n : Nat) : Prop := 4 ≤ w.1 ∧ w.1 + 4 ≤ n

/-- Words and bound that depend on the same condition. -/
theorem between_ite {c : Prop} [Decidable c] {ws ws' : List (Nat × Nat)} {n n' : Nat}
    (h : w ∈ ws → Between w n) (h' : w ∈ ws' → Between w n') :
    w ∈ (if c then ws else ws') → Between w (if c then n else n') := by
  by_cases hc : c
  · rw [if_pos hc, if_pos hc]
    exact h
  · rw [if_neg hc, if_neg hc]
    exact h'

theorem reportWords_between {rb : Nat} (hrb : 4 ≤ rb) (h : w ∈ reportWords a m off rb) :
    Between w (if 0 < rc m off then rb + 4 else 8) := by
  have hoffset := reportWords_offset h
  rw [Between]
  split <;> omega

theorem wordL_between {i n : Nat} (hi : 4 ≤ i) (hn : i + 4 ≤ n) (h : w ∈ wordL a i) :
    Between w n := by
  have hoffset := wordL_offset h
  rw [Between]
  omega

theorem firWords_between (h : w ∈ firWords a m off) : Between w 16 := by
  have hoffset := firWords_offset h
  rw [Between]
  omega

theorem rtpfbWords_between (h : w ∈ rtpfbWords a m off) :
    Between w (if rc m off = 1 then 12 else if rc m off = 3 then 16 else 8) := by
  have hoffset := rtpfbWords_offset h
  rw [Between]
  split
  · omega
  · split <;> omega

theorem psfbWords_between (h : w ∈ psfbWords a m off) :
    Between w (if rc m off = 1 then 12 else if rc m off = 4 then 16 else if rc m off = 5 then 16
      else if rc m off = 15 then 24 else 8) := by
  have hoffset := psfbWords_offset h
  rw [Between]
  repeat' split
  all_goals omega

/-- The words of a round lie behind the header and inside a sub-packet that is long
enough. -/
theorem fixWords_range (h : w ∈ fixWords a m off) :
    4 ≤ w.1 ∧ w.1 + 4 ≤ needed (type m off) (rc m off) := by
  revert h
  rw [fixWords, otherWords, needed]
  -- the writes and the bytes needed branch on the type alike
  apply between_ite (reportWords_between (by omega))
  apply between_ite (reportWords_between (by omega))
  apply between_ite (wordL_between (by omega) (by omega))
  apply between_ite (wordL_between (by omega) (by omega))
  apply between_ite (wordL_between (by omega) (by omega))
  apply between_ite firWords_between
  apply between_ite rtpfbWords_between
  apply between_ite psfbWords_between
  exact fun hno => absurd hno List.not_mem_nil

end

section

variable {m m' : Mem} {o off : Nat} {p : SubPacket} {a : FixArgs}

theorem version_congr (h : ∀ k < 4, m' (o + k) = m (o + k)) : version m' o = version m o := by
  refine congrArg (· / 64) (Mem.getBe_congr ?_)
  intro b hb hlt
  obtain ⟨k, rfl⟩ := Nat.exists_eq_add_of_le hb
  exact h k (by omega)

theorem type_congr (h : ∀ k < 4, m' (o + k) = m (o + k)) : type m' o = type m o := by
  apply Mem.getBe_congr
  intro b hb hlt
  obtain ⟨k, rfl⟩ := Nat.exists_eq_add_of_le (show o ≤ b by omega)
  exact h k (by omega)

theorem rc_congr (h : ∀ k < 4, m' (o + k) = m (o + k)) : rc m' o = rc m o := by
  refine congrArg (· % 32) (Mem.getBe_congr ?_)
  intro b hb hlt
  obtain ⟨k, rfl⟩ := Nat.exists_eq_add_of_le hb
  exact h k (by omega)

theorem length_congr (h : ∀ k < 4, m' (o + k) = m (o + k)) : length m' o = length m o := by
  apply Mem.getBe_congr
  intro b hb hlt
  obtain ⟨k, rfl⟩ := Nat.exists_eq_add_of_le (show o ≤ b by omega)
  exact h k (by omega)

theorem Headed.congr (h : Headed m o p) (hm : ∀ k < 4, m' (o + k) = m (o + k)) :
    Headed m' o p where
  type := (type_congr hm).trans h.type
  rc := (rc_congr hm).trans h.rc
  length := (length_congr hm).trans h.length

theorem rembAt_congr (h : ∀ k, 12 ≤ k → k < 20 → m' (o + k) = m (o + k)) :
    rembAt m' o = rembAt m o := by
  have hbyte : ∀ k, 12 ≤ k → k < 20 → m'.getBe (o + k) 1 = m.getBe (o + k) 1 := by
    intro k hk hlt
    apply Mem.getBe_congr
    intro b hb hblt
    obtain rfl : b = o + k := by omega
    exact h k hk hlt
  rw [rembAt, rembAt, hbyte 12 (by omega) (by omega), hbyte 13 (by omega) (by omega),
    hbyte 14 (by omega) (by omega), hbyte 15 (by omega) (by omega)]

/-- What the words of a round depend on. -/
theorem fixWords_congr (h : ∀ k < 4, m' (o + k) = m (o + k))
    (hremb : type m o = rtcpPsfb → rc m o = 15 → rembAt m' o = rembAt m o) :
    fixWords a m' o = fixWords a m o := by
  have hpsfb : type m o = rtcpPsfb → psfbWords a m' o = psfbWords a m o := by
    intro htype
    rw [psfbWords, psfbWords, rc_congr h]
    by_cases hrc : rc m o = 15
    · rw [hremb htype hrc]
    · rw [if_neg hrc, if_neg hrc]
  by_cases htype : type m o = rtcpPsfb
  · simp only [fixWords, otherWords, reportWords, firWords, rtpfbWords, type_congr h, rc_congr h,
      length_congr h, hpsfb htype]
  · simp only [fixWords, otherWords, reportWords, firWords, rtpfbWords, type_congr h, rc_congr h,
      length_congr h, if_neg htype]

/-- The buffer after the round for the sub-packet at `off`. -/
def fixAt (a : FixArgs) (m : Mem) (off : Nat) : Mem := m.putWords off (fixWords a m off)

/-- The buffer after all rounds. -/
def fixAll (a : FixArgs) : Nat → List SubPacket → Mem → Mem
  | _, [], m => m
  | off, p :: ps, m => fixAll a (off + p.encode.length) ps (fixAt a m off)

/-- A round changes nothing but the sub-packet behind its header. -/
theorem fixAt_outside (hp : Headed m off p) (hlong : p.LongEnough) {b : Nat}
    (hb : b < off + 4 ∨ off + p.encode.length ≤ b) : fixAt a m off b = m b := by
  apply Mem.putWords_of_outside
  intro w hw
  have hrange := fixWords_range hw
  rw [hp.type, hp.rc] at hrange
  have hle : needed p.type.toNat p.rc ≤ p.encode.length := hlong
  omega

/-- A round sees only what is behind its offset. -/
theorem fixAt_congr (h : ∀ b, o ≤ b → m' b = m b) {b : Nat} (hb : o ≤ b) :
    fixAt a m' o b = fixAt a m o b := by
  have hwords : fixWords a m' o = fixWords a m o :=
    fixWords_congr (fun k _ => h _ (by omega)) fun _ _ => rembAt_congr fun k _ _ => h _ (by omega)
  rw [fixAt, fixAt, Mem.putWords_apply, Mem.putWords_apply, hwords, h b hb]

end

section

variable {a : FixArgs} {ps : List SubPacket}

theorem AtEach.headed_fixAt {m : Mem} {off : Nat} {p : SubPacket} (hp : Headed m off p)
    (hlong : p.LongEnough) (h : AtEach (Headed m) (off + p.encode.length) ps) :
    AtEach (Headed (fixAt a m off)) (off + p.encode.length) ps := by
  apply h.imp
  intro o q ho hq
  exact hq.congr fun k _ => fixAt_outside hp hlong (Or.inr (by omega))

theorem fixAll_outside (hlong : ∀ p ∈ ps, p.LongEnough) {m : Mem} {off : Nat}
    (h : AtEach (Headed m) off ps) {b : Nat} (hb : b < off ∨ off + (encode ps).length ≤ b) :
    fixAll a off ps m b = m b := by
  induction ps generalizing off m with
  | nil => rfl
  | cons p ps ih =>
    rw [List.forall_mem_cons] at hlong
    rw [length_encode_cons] at hb
    rw [fixAll, ih hlong.2 (AtEach.headed_fixAt h.1 hlong.1 h.2) (by omega)]
    exact fixAt_outside h.1 hlong.1 (by omega)

/-- In each sub-packet the buffer is what its own round made of it. -/
theorem fixAll_at (hlong : ∀ p ∈ ps, p.LongEnough) {m : Mem} {off : Nat}
    (h : AtEach (Headed m) off ps) :
    AtEach (fun o p => ∀ k < p.encode.length, fixAll a off ps m (o + k) = fixAt a m o (o + k))
      off ps := by
  induction ps generalizing off m with
  | nil => trivial
  | cons p ps ih =>
    rw [List.forall_mem_cons] at hlong
    have hrest := AtEach.headed_fixAt (a := a) h.1 hlong.1 h.2
    refine ⟨?_, ?_⟩
    · -- the later rounds write behind this sub-packet
      intro k hk
      exact fixAll_outside hlong.2 hrest (Or.inl (by omega))
    · apply (ih hlong.2 hrest).imp
      intro o q ho hq k hk
      -- the first round has written before the others
      rw [fixAll, hq k hk]
      apply fixAt_congr ?_ (Nat.le_add_right o k)
      intro b hb
      exact fixAt_outside h.1 hlong.1 (Or.inr (by omega))

/-- The loop is the sequence of all rounds. -/
theorem walked_fix (now : Nat → Int) (hne : ps ≠ []) (hlong : ∀ p ∈ ps, p.LongEnough) {m : Mem}
    {off : Nat} (h : AtEach (Headed m) off ps) (ctx : Option RtcpContext) :
    (walked (fixRound a now) off (encode ps).length (m, ctx)).1 = fixAll a off ps m := by
  induction ps generalizing off m ctx with
  | nil => exact absurd rfl hne
  | cons p ps ih =>
    rw [List.forall_mem_cons] at hlong
    have hsize := p.length_encode
    have hlength : length (fixAt a m off) off = p.words := by
      rw [length_congr fun k hk => fixAt_outside h.1 hlong.1 (Or.inl (by omega))]
      exact h.1.length
    have hrest := AtEach.headed_fixAt (a := a) h.1 hlong.1 h.2
    -- the round leaves the length field, so the loop goes on at the next sub-packet
    have hround : fixRound a now off (m, ctx) =
        .next (fixAt a m off, if type m off = rtcpSr then afterSr now m off ctx else ctx) := rfl
    rw [walked_next hround, length_encode_cons, size, hlength, ← hsize]
    rcases ps with - | ⟨q, ps⟩
    · rw [if_pos (Or.inr (by simp))]
      rfl
    · have hwords := p.words_pos
      have hq := q.length_encode
      rw [if_neg (by rw [length_encode_cons]; omega), Nat.add_sub_cancel_left]
      exact ih (List.cons_ne_nil q ps) hlong.2 hrest _

end

/-- What `janus_rtcp_fix_ssrc` keeps of a sub-packet: the header, the entries of a NACK,
and the identifier and the bitrate of a REMB. -/
structure Kept (m m' : Mem) (o : Nat) (p : SubPacket) : Prop where
  header : ∀ k < 4, m' (o + k) = m (o + k)
  entries : type m o = rtcpRtpfb → rc m o = 1 →
    ∀ k, 12 ≤ k → k < p.encode.length → m' (o + k) = m (o + k)
  remb : type m o = rtcpPsfb → rc m o = 15 → ∀ k, 12 ≤ k → k < 20 → m' (o + k) = m (o + k)

theorem kept_fixAll {a : FixArgs} {ps : List SubPacket} (hlong : ∀ p ∈ ps, p.LongEnough) {m : Mem}
    {off : Nat} (h : AtEach (Headed m) off ps) :
    AtEach (Kept m (fixAll a off ps m)) off ps := by
  have hboth := ((fixAll_at (a := a) hlong h).and h).and (atEach_of_forall fun _ => hlong)
  apply hboth.imp
  rintro o p - ⟨⟨hat, hp⟩, hlong⟩
  have hsize := p.length_encode
  have hwords := p.words_pos
  refine ⟨?_, ?_, ?_⟩
  · intro k hk
    rw [hat k (by omega)]
    exact fixAt_outside hp hlong (Or.inl (by omega))
  · -- in a NACK only the two SSRCs are written
    intro htype hrc k hk hlt
    rw [hat k hlt]
    apply Mem.putWords_of_outside
    intro w hw
    rw [fixWords, otherWords, htype] at hw
    have hoffset := rtpfbWords_offset (show w ∈ rtpfbWords a m o from hw)
    omega
  · -- in a REMB the SSRCs before the identifier and behind the bitrate are written
    intro htype hrc k hk hlt
    have hneed : 24 ≤ p.encode.length := by
      have hle : needed p.type.toNat p.rc ≤ p.encode.length := hlong
      rw [← hp.type, ← hp.rc, htype, hrc] at hle
      exact hle
    rw [hat k (by omega)]
    apply Mem.putWords_of_outside
    intro w hw
    rw [fixWords, otherWords, htype] at hw
    have hoffset := psfbWords_offset (show w ∈ psfbWords a m o from hw)
    omega

/-- A round does the same on two memories. -/
def Alike {σ : Type} (round : Nat → Mem × σ → Step (Mem × σ)) (m m' : Mem) (o : Nat) : Prop :=
  ∀ x, (∃ y, round o (m, x) = .next (m, y) ∧ round o (m', x) = .next (m', y)) ∨
    ∃ y, round o (m, x) = .stop (m, y) ∧ round o (m', x) = .stop (m', y)

/-- A function that reads yields the same on two memories on which its rounds do. -/
theorem walked_congr {σ : Type} {round : Nat → Mem × σ → Step (Mem × σ)} {m m' : Mem}
    {ps : List SubPacket} (hne : ps ≠ []) {off : Nat}
    (h : AtEach (fun o p => (Headed m o p ∧ Headed m' o p) ∧ Alike round m m' o) off ps) (x : σ) :
    (walked round off (encode ps).length (m, x)).2 =
      (walked round off (encode ps).length (m', x)).2 := by
  induction ps generalizing off x with
  | nil => exact absurd rfl hne
  | cons p ps ih =>
    obtain ⟨⟨⟨hp, hp'⟩, hround⟩, hrest⟩ := h
    have hsize := p.length_encode
    -- both loops stop here, or both go on with the same result so far
    rcases hround x with ⟨y, hy, hy'⟩ | ⟨y, hy, hy'⟩
    · rw [walked_next hy, walked_next hy', size, size, hp.length, hp'.length, ← hsize,
        length_encode_cons]
      rcases ps with - | ⟨q, ps⟩
      · rw [if_pos (Or.inr (by simp)), if_pos (Or.inr (by simp))]
      · have hgo : ¬ (p.words = 0 ∨
            p.encode.length + (encode (q :: ps)).length ≤ p.encode.length) := by
          have hwords := p.words_pos
          have hq := q.length_encode
          rw [length_encode_cons]
          omega
        rw [if_neg hgo, if_neg hgo, Nat.add_sub_cancel_left]
        exact ih (List.cons_ne_nil q ps) hrest y
    · rw [walked_stop hy, walked_stop hy']

section

variable {m m' : Mem} {o : Nat} {p : SubPacket}

theorem getNacksRound_alike (hp : Headed m o p) (hk : Kept m m' o p) :
    Alike getNacksRound m m' o := by
  intro x
  left
  simp only [getNacksRound, type_congr hk.header, rc_congr hk.header, length_congr hk.header]
  by_cases htype : type m o = rtcpRtpfb
  · by_cases hrc : rc m o = 1
    · -- the entries lie in the part of the NACK that is kept
      have hentry : ∀ i ∈ List.range (length m o - 2), entryAt m' o i = entryAt m o i := by
        intro i hi
        have hlt := List.mem_range.mp hi
        have hsize := p.length_encode
        rw [hp.length] at hlt
        have hfield : ∀ j, 12 ≤ j → j + 2 ≤ p.encode.length →
            m'.getBe (o + j) 2 = m.getBe (o + j) 2 := by
          intro j hj hend
          apply Mem.getBe_congr
          intro b hb hblt
          obtain ⟨k, rfl⟩ := Nat.exists_eq_add_of_le (show o ≤ b by omega)
          exact hk.entries htype hrc k (by omega) (by omega)
        rw [entryAt, entryAt, hfield _ (by omega) (by omega), hfield _ (by omega) (by omega)]
      have hfold := List.foldl_ext (fun list i => list ++ entryAt m' o i)
        (fun list i => list ++ entryAt m o i) x fun list i hi => by rw [hentry i hi]
      simp only [htype, hrc, if_true]
      exact ⟨_, rfl, by rw [hfold]⟩
    · simp only [htype, hrc, if_true, if_false]
      exact ⟨x, rfl, rfl⟩
  · simp only [htype, if_false]
    exact ⟨x, rfl, rfl⟩

theorem hasFirRound_alike (hk : Kept m m' o p) : Alike hasFirRound m m' o := by
  intro got
  left
  rw [hasFirRound_eq, hasFirRound_eq, type_congr hk.header]
  exact ⟨_, rfl, rfl⟩

theorem hasPliRound_alike (hk : Kept m m' o p) : Alike hasPliRound m m' o := by
  intro got
  left
  rw [hasPliRound_eq, hasPliRound_eq, type_congr hk.header, rc_congr hk.header]
  exact ⟨_, rfl, rfl⟩

theorem getRembRound_alike (hk : Kept m m' o p) : Alike getRembRound m m' o := by
  intro x
  simp only [getRembRound, type_congr hk.header, rc_congr hk.header]
  by_cases htype : type m o = rtcpPsfb
  · by_cases hrc : rc m o = 15
    · -- the identifier and the bitrate are kept
      have hbyte : ∀ k, 12 ≤ k → k < 20 → m'.getBe (o + k) 1 = m.getBe (o + k) 1 := by
        intro k hk' hlt
        apply Mem.getBe_congr
        intro b hb hblt
        obtain rfl : b = o + k := by omega
        exact hk.remb htype hrc k hk' hlt
      have hbitrate : bitrateAt m' o = bitrateAt m o := by
        rw [bitrateAt, bitrateAt, hbyte 17 (by omega) (by omega), hbyte 18 (by omega) (by omega),
          hbyte 19 (by omega) (by omega)]
      simp only [htype, hrc, if_true, rembAt_congr (hk.remb htype hrc), hbitrate]
      by_cases hremb : rembAt m o = true
      · right
        simp only [hremb, if_true]
        exact ⟨_, rfl, rfl⟩
      · left
        simp only [hremb]
        exact ⟨x, rfl, rfl⟩
    · left
      simp only [htype, hrc, if_true, if_false]
      exact ⟨x, rfl, rfl⟩
  · left
    simp only [htype, if_false]
    exact ⟨x, rfl, rfl⟩

end

section

variable {m m' : Mem} {ps : List SubPacket}

theorem first_kept (hne : ps ≠ []) (hk : AtEach (Kept m m') 0 ps) :
    m'.getBe 0 1 = m.getBe 0 1 := by
  rcases ps with - | ⟨p, ps⟩
  · exact absurd rfl hne
  · apply Mem.getBe_congr
    intro b _ hb
    have hbyte := hk.1.header b (by omega)
    rwa [Nat.zero_add] at hbyte

/-- A function that reads yields the same on two memories with the same headers. -/
theorem reader_congr {σ : Type} {body : Nat → Mem × σ → Except Nat (Step (Mem × σ))}
    {fields : Nat → Mem × σ → List (Nat × Nat)} {round : Nat → Mem × σ → Step (Mem × σ)}
    (hbody : ∀ off s, Touches everywhere off (fields off s) (body off s) (round off s))
    (hne : ps ≠ []) (hp : AtEach (Headed m) 0 ps) (hk : AtEach (Kept m m') 0 ps)
    (halike : ∀ o p, Headed m o p → Kept m m' o p → Alike round m m' o) (other x : σ) :
    ifVersion everywhere m' other (do
      let s ← loop everywhere body 0 (encode ps).length (m', x)
      .ok s.2) =
    ifVersion everywhere m other (do
      let s ← loop everywhere body 0 (encode ps).length (m, x)
      .ok s.2) := by
  have hfirst : load everywhere m' 0 1 = load everywhere m 0 1 := by
    rw [load, load, first_kept hne hk]
  have heq := walked_congr hne ((hp.and hk).imp fun o p _ h =>
    ⟨⟨h.1, h.1.congr h.2.header⟩, halike o p h.1 h.2⟩) x
  rw [ifVersion, ifVersion, hfirst, loop_everywhere hbody, loop_everywhere hbody]
  simp only [bind, Except.bind, heq]

theorem readers_congr (hne : ps ≠ []) (hp : AtEach (Headed m) 0 ps)
    (hk : AtEach (Kept m m') 0 ps) :
    getNacks everywhere m' (encode ps).length = getNacks everywhere m (encode ps).length ∧
      hasFir everywhere m' (encode ps).length = hasFir everywhere m (encode ps).length ∧
      hasPli everywhere m' (encode ps).length = hasPli everywhere m (encode ps).length ∧
      getRemb everywhere m' (encode ps).length = getRemb everywhere m (encode ps).length := by
  refine ⟨?_, ?_, ?_, ?_⟩
  · rw [getNacks, getNacks, reader_congr (getNacksBody_touches everywhere) hne hp hk
      fun _ _ => getNacksRound_alike]
  · exact reader_congr (hasFirBody_touches everywhere) hne hp hk
      (fun _ _ _ => hasFirRound_alike) false false
  · exact reader_congr (hasPliBody_touches everywhere) hne hp hk
      (fun _ _ _ => hasPliRound_alike) false false
  · rw [getRemb, getRemb, reader_congr (getRembBody_touches everywhere) hne hp hk
      fun _ _ _ => getRembRound_alike]

end

section

variable {a : FixArgs} {ps : List SubPacket} {m : Mem}

/-- A second time changes nothing. -/
theorem fixAll_idem (hlong : ∀ p ∈ ps, p.LongEnough) (h : AtEach (Headed m) 0 ps) :
    fixAll a 0 ps (fixAll a 0 ps m) = fixAll a 0 ps m := by
  have hkept := kept_fixAll (a := a) hlong h
  have hheaded : AtEach (Headed (fixAll a 0 ps m)) 0 ps :=
    (h.and hkept).imp fun o p _ hp => hp.1.congr hp.2.header
  have hsecond := ((fixAll_at (a := a) hlong h).and hkept).and
    (fixAll_at (a := a) hlong hheaded)
  -- inside a sub-packet both rounds write the same words
  have hinside : AtEach (fun o p => ∀ k < p.encode.length,
      fixAll a 0 ps (fixAll a 0 ps m) (o + k) = fixAll a 0 ps m (o + k)) 0 ps := by
    apply hsecond.imp
    rintro o p - ⟨⟨hat, hk⟩, hat'⟩ k hlt
    have hwords : fixWords a (fixAll a 0 ps m) o = fixWords a m o :=
      fixWords_congr hk.header fun htype hrc => rembAt_congr (hk.remb htype hrc)
    rw [hat' k hlt, fixAt, Mem.putWords_apply, hwords, hat k hlt, fixAt, Mem.putWords_apply]
    cases Mem.patch o (fixWords a m o) (o + k) with
    | none => rfl
    | some byte => rfl
  funext b
  by_cases hb : b < (encode ps).length
  · exact atEach_byte (B := fun b => fixAll a 0 ps (fixAll a 0 ps m) b = fixAll a 0 ps m b) hinside
      (Nat.zero_le b) (by omega)
  · exact fixAll_outside hlong hheaded (Or.inr (by omega))

theorem fixAt_of_not_fixssrc (h : a.fixssrc = false) (m : Mem) (off : Nat) :
    fixAt a m off = m := by
  have hL : ¬ a.setsL := fun hset => Bool.false_ne_true (h.symm.trans hset.1)
  have hR : ¬ a.setsR := fun hset => Bool.false_ne_true (h.symm.trans hset.1)
  have hwords : fixWords a m off = [] := by
    simp [fixWords, otherWords, reportWords, firWords, rtpfbWords, psfbWords, wordL, wordR, hL, hR]
  rw [fixAt, hwords]
  rfl

theorem fixAll_of_not_fixssrc (h : a.fixssrc = false) (off : Nat) : fixAll a off ps m = m := by
  induction ps generalizing off with
  | nil => rfl
  | cons p ps ih => rw [fixAll, fixAt_of_not_fixssrc h, ih]

/-- `janus_rtcp_fix_ssrc` on a compound packet of version 2. -/
theorem fixSsrc_eq (hne : ps ≠ []) (hversion : version m 0 = 2) (hlong : ∀ p ∈ ps, p.LongEnough)
    (h : AtEach (Headed m) 0 ps) (now : Nat → Int) (ctx : Option RtcpContext) :
    ∃ ctx', fixSsrc everywhere a now ctx m (encode ps).length = .ok (0, fixAll a 0 ps m, ctx') := by
  have hlen : (encode ps).length ≠ 0 := by
    rcases ps with - | ⟨p, ps⟩
    · exact absurd rfl hne
    · have hsize := p.length_encode
      rw [length_encode_cons]
      omega
  refine ⟨(walked (fixRound a now) 0 (encode ps).length (m, ctx)).2, ?_⟩
  rw [fixSsrc, if_neg hlen, ifVersion_eq (mapped_everywhere _ _) hversion,
    loop_everywhere (fixSsrcBody_touches everywhere a now), ← walked_fix now hne hlong h ctx]
  rfl

/-- Of a packet with another version nothing is changed. -/
theorem fixSsrc_other_version (hlen : (encode ps).length ≠ 0) (hversion : version m 0 ≠ 2)
    (now : Nat → Int) (ctx : Option RtcpContext) :
    fixSsrc everywhere a now ctx m (encode ps).length = .ok (-2, m, ctx) := by
  have hfirst : load everywhere m 0 1 = .ok (m.getBe 0 1) := if_pos (mapped_everywhere _ _)
  rw [fixSsrc, if_neg hlen, ifVersion, hfirst]
  exact if_neg hversion

theorem headers_atEach {m' : Mem} {off : Nat} (h : m.Holds off (encode ps))
    (hk : AtEach (Kept m m') off ps) : AtEach (fun o p => m'.Holds o (p.encode.take 4)) off ps := by
  induction ps generalizing off with
  | nil => trivial
  | cons p ps ih =>
    rw [holds_encode_cons] at h
    refine ⟨?_, ih h.2 hk.2⟩
    have hall : m.Holds off (p.encode.take 4 ++ p.encode.drop 4) := by
      rw [List.take_append_drop]
      exact h.1
    apply (Mem.holds_append.mp hall).1.congr
    intro k hlt
    exact hk.1.header k (Nat.lt_of_lt_of_le hlt (List.length_take_le 4 _))

end

/-- Rewriting the SSRCs of a compound packet whose sub-packets are long enough keeps the
headers and what the other functions find, can be repeated, and changes nothing when
`fixssrc` is zero. -/
theorem fix_ssrc_preserves (ps : List SubPacket) (hlong : ∀ p ∈ ps, p.LongEnough) (stale : Mem)
    (a : FixArgs) (now : Nat → Int) (ctx : Option RtcpContext) :
    ∃ ret m' ctx',
      fixSsrc everywhere a now ctx (Mem.lay (encode ps) stale) (encode ps).length =
        .ok (ret, m', ctx') ∧
      AtEach (fun o p => m'.Holds o (p.encode.take 4)) 0 ps ∧
      (getNacks everywhere m' (encode ps).length =
          getNacks everywhere (Mem.lay (encode ps) stale) (encode ps).length ∧
        hasFir everywhere m' (encode ps).length =
          hasFir everywhere (Mem.lay (encode ps) stale) (encode ps).length ∧
        hasPli everywhere m' (encode ps).length =
          hasPli everywhere (Mem.lay (encode ps) stale) (encode ps).length ∧
        getRemb everywhere m' (encode ps).length =
          getRemb everywhere (Mem.lay (encode ps) stale) (encode ps).length) ∧
      (∀ now' ctx', ∃ ctx'',
        fixSsrc everywhere a now' ctx' m' (encode ps).length = .ok (ret, m', ctx'')) ∧
      (a.fixssrc = false → m' = Mem.lay (encode ps) stale) := by
  have hm := Mem.holds_lay (encode ps) stale
  generalize Mem.lay (encode ps) stale = m at hm ⊢
  have hheaded := headed_of_holds hm
  have hself : AtEach (Kept m m) 0 ps :=
    hheaded.imp fun o p _ _ => ⟨fun _ _ => rfl, fun _ _ _ _ _ => rfl, fun _ _ _ _ _ => rfl⟩
  by_cases hlen : (encode ps).length = 0
  · -- nothing is done to an empty packet
    have hempty : ∀ now ctx, fixSsrc everywhere a now ctx m (encode ps).length = .ok (-1, m, ctx) :=
      fun _ _ => if_pos hlen
    exact ⟨-1, m, ctx, hempty now ctx, headers_atEach hm hself, ⟨rfl, rfl, rfl, rfl⟩,
      fun now' ctx' => ⟨ctx', hempty now' ctx'⟩, fun _ => rfl⟩
  by_cases hversion : version m 0 = 2
  · have hne : ps ≠ [] := by
      rintro rfl
      exact hlen rfl
    have hkept := kept_fixAll (a := a) hlong hheaded
    obtain ⟨ctx', hrun⟩ := fixSsrc_eq (a := a) hne hversion hlong hheaded now ctx
    refine ⟨0, _, ctx', hrun, headers_atEach hm hkept, readers_congr hne hheaded hkept, ?_, ?_⟩
    · intro now' ctx'
      have hheaded' : AtEach (Headed (fixAll a 0 ps m)) 0 ps :=
        (hheaded.and hkept).imp fun o p _ hp => hp.1.congr hp.2.header
      have hversion' : version (fixAll a 0 ps m) 0 = 2 := by
        rw [version, first_kept hne hkept]
        exact hversion
      obtain ⟨ctx'', hagain⟩ := fixSsrc_eq (a := a) hne hversion' hlong hheaded' now' ctx'
      rw [fixAll_idem hlong hheaded] at hagain
      exact ⟨ctx'', hagain⟩
    · exact fun hfix => fixAll_of_not_fixssrc hfix 0
  · have hother := fixSsrc_other_version (a := a) hlen hversion
    exact ⟨-2, m, ctx, hother now ctx, headers_atEach hm hself, ⟨rfl, rfl, rfl, rfl⟩,
      fun now' ctx' => ⟨ctx', hother now' ctx'⟩, fun _ => rfl⟩

/-- A sender report with a report block, and a NACK. -/
def reportAndNack : List SubPacket :=
  [{ first := 0x81
     type := 200
     words := 12
     body := List.replicate 48 7
     body_length := by decide
     words_pos := by decide
     words_lt := by decide },
   { first := 0x81
     type := 205
     words := 3
     body := [0, 0, 0, 1, 0, 0, 0, 2, 0, 100, 0, 3]
     body_length := by decide
     words_pos := by decide
     words_lt := by decide }]

theorem fix_ssrc_preserves_report_and_nack :
    (∀ p ∈ reportAndNack, p.LongEnough) ∧
      ∃ ret m' ctx',
        fixSsrc everywhere ⟨true, 5, 6⟩ (fun _ => 0) none (Mem.lay (encode reportAndNack) fun _ => 0)
          (encode reportAndNack).length = .ok (ret, m', ctx') ∧
        getNacks everywhere m' (encode reportAndNack).length = .ok [100, 101, 102] := by
  have hlong : ∀ p ∈ reportAndNack, p.LongEnough := by decide
  obtain ⟨ret, m', ctx', hrun, -, ⟨hnacks, -⟩, -⟩ :=
    fix_ssrc_preserves reportAndNack hlong (fun _ => 0) ⟨true, 5, 6⟩ (fun _ => 0) none
  refine ⟨hlong, ret, m', ctx', hrun, hnacks.trans ?_⟩
  decide +kernel

end Orbit.Janus
