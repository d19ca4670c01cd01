/-
OrbitStream/SdpPayload.lean

Payload types in session descriptions (`sdp_info.{h,cc}`).

The parser finds the codec of an `a=rtpmap` line in its own table, and the entry it
negotiates gets the payload type of the table; two maps keep which number was offered for
it.  Two lines for one codec, or for two codecs with one number in the table, share an
entry of one of the maps (`invertible_iff`).

The lines `a=fmtp` and `a=rtcp-fb` name the number that was offered, but they are compared
with the number of the table.  They reach the right entries if and only if no entry but
those offered under that number has it in the table, and these have it
(`attached_iff`).

`offers` reads the numbers off the lines, without the parser; `Follows` says what the
parser has made of them.
-/
import Mathlib.Data.List.Nodup
import OrbitStream.Lib.Run
import OrbitStream.SdpInfoSafety

namespace Orbit.Sdp

open Lib

/-! ### The table of the codecs -/

/-- `olive::VideoEncoding`. -/
inductive VideoEncoding
  | vp8
  | h264
  | vp9
  deriving DecidableEq, Repr

/-- An entry of the table. -/
def internalEntry (payloadType : Nat) (encodingName : String) (clockRate channels : Nat)
    (mediaType : MediaType) : RtpMap :=
  { payloadType := payloadType, encodingName := encodingName.toList, clockRate := clockRate,
    mediaType := mediaType, channels := channels }

/-- `InitializeRtpMap`: what it puts into `internalPayloadVector_`. -/
def initializeRtpMap (videoEncoding : VideoEncoding) (isRedFecEnabled : Bool) : List RtpMap :=
  (match videoEncoding with
    | .h264 => [internalEntry 107 "H264" 90000 1 .video]
    | .vp9 => [internalEntry 101 "VP9" 90000 1 .video]
    | .vp8 => [internalEntry 100 "VP8" 90000 1 .video]) ++
  (if isRedFecEnabled then
    [internalEntry 116 "red" 90000 1 .video, internalEntry 117 "ulpfec" 90000 1 .video]
  else []) ++
  [{ internalEntry 111 "opus" 48000 2 .audio with
      formatParameters := (∅ : Std.TreeMap Str Str).insert "useinbandfec".toList "1".toList },
    internalEntry 103 "ISAC" 16000 1 .audio,
    internalEntry 104 "ISAC" 32000 1 .audio,
    internalEntry 0 "PCMU" 8000 1 .audio,
    internalEntry 13 "CN" 8000 1 .audio,
    internalEntry 105 "CN" 16000 1 .audio,
    internalEntry 106 "CN" 32000 1 .audio,
    internalEntry 107 "CN" 48000 1 .audio,
    internalEntry 126 "telephone-event" 8000 1 .audio]

/-- The constructor, and `set_video_encoding`. -/
def SdpInfo.new (videoEncoding : VideoEncoding) (isRedFecEnabled : Bool) : SdpInfo :=
  { internalPayloadVector := initializeRtpMap videoEncoding isRedFecEnabled }

namespace SdpInfo

/-- `getAudioInternalPT`. -/
def getAudioInternalPT (info : SdpInfo) (externalPT : Nat) : Nat :=
  match info.outInPTMap[externalPT]? with
  | some found => found
  | none => externalPT

/-- `getVideoInternalPT`. -/
def getVideoInternalPT (info : SdpInfo) (externalPT : Nat) : Nat :=
  info.getAudioInternalPT externalPT

/-- `getAudioExternalPT`. -/
def getAudioExternalPT (info : SdpInfo) (internalPT : Nat) : Nat :=
  match info.inOutPTMap[internalPT]? with
  | some found => found
  | none => internalPT

/-- `getVideoExternalPT`. -/
def getVideoExternalPT (info : SdpInfo) (internalPT : Nat) : Nat :=
  info.getAudioExternalPT internalPT

end SdpInfo

/-! ### What the lines offer -/

/-- The payload type, the name and the clock of an `a=rtpmap` line. -/
def rtpmapOf (line : Str) : Option (Nat × Str × Nat) :=
  if contains line "a=rtpmap:" then
    match splitOneOf line [' ', ':', '/', '\n'] 4 with
    | _ :: pt :: name :: clock :: _ => some (strtoui pt, name, strtoui clock)
    | _ => none
  else none

/-- The payload type, the option and the value of an `a=fmtp` line. -/
def fmtpOf (line : Str) : Option (Nat × Str × Str) :=
  if contains line "a=fmtp:" then
    match splitOneOf line [' ', ':', '='] 4 with
    | [_, _, pt, value] => some (strtoui pt, "none".toList, value)
    | _ :: _ :: pt :: option :: value :: _ => some (strtoui pt, option, value)
    | _ => none
  else none

/-- The payload type and the text of an `a=rtcp-fb` line. -/
def feedbackOf (line : Str) : Option (Nat × Str) :=
  if contains line "a=rtcp-fb:" then
    match splitOneOf line [' ', ':'] 2 with
    | _ :: pt :: feedback :: _ => some (strtoui pt, feedback)
    | _ => none
  else none

/-- The codec is that of the entry. -/
def Matches (name : Str) (clock : Nat) (rtp : RtpMap) : Prop :=
  rtp.encodingName = name ∧ rtp.clockRate = clock

instance (name : Str) (clock : Nat) : DecidablePred (Matches name clock) :=
  fun _ => inferInstanceAs (Decidable (_ ∧ _))

/-- The payload types with an `a=rtpmap` line. -/
def mapped (lines : List Str) : List Nat := (lines.filterMap rtpmapOf).map Prod.fst

/-- The payload type of an accepted `a=rtpmap` line, and the one of its codec in the
table. -/
def offerOf (table : List RtpMap) (line : Str) : Option (Nat × Nat) :=
  (rtpmapOf line).bind fun r =>
    (table.find? (Matches r.2.1 r.2.2)).map fun rtp => (r.1, rtp.payloadType)

/-- The accepted offers of a description. -/
def offers (table : List RtpMap) (lines : List Str) : List (Nat × Nat) :=
  lines.filterMap (offerOf table)

/-- The feedback lines of a description. -/
def feedbackLines (lines : List Str) : List Str := lines.filter (contains · "a=rtcp-fb:")

/-- No two entries of the table are for one codec. -/
def UniqueCodecs (table : List RtpMap) : Prop :=
  table.Pairwise fun a b => ¬ (a.encodingName = b.encodingName ∧ a.clockRate = b.clockRate)

theorem uniqueCodecs_initializeRtpMap (videoEncoding : VideoEncoding) (isRedFecEnabled : Bool) :
    UniqueCodecs (initializeRtpMap videoEncoding isRedFecEnabled) := by
  unfold UniqueCodecs
  cases videoEncoding <;> cases isRedFecEnabled <;> decide

/-! ### The blocks that leave the codecs alone -/

/-- The codecs of the parser: the table, what was negotiated, the two maps, and the feedback
lines that were kept. -/
def Parser.codecs (s : Parser) :
    List RtpMap × List RtpMap × Std.TreeMap Nat Nat × Std.TreeMap Nat Nat × List Str :=
  (s.info.internalPayloadVector, s.info.payloadVector, s.info.outInPTMap, s.info.inOutPTMap,
    s.tmpFeedbackVector)

/-- A block that leaves the codecs alone, if it does not fail. -/
abbrev Leaves (s : Parser) (x : Except Fault Parser) : Prop :=
  Outcome (fun s' => s'.codecs = s.codecs) (fun _ => True) x

section Blocks

variable (s : Parser) (line : Str)

theorem outcome_piece (pieces : List Str) (i : Nat) :
    Outcome (fun _ => True) (fun _ => True) (piece pieces i) := by
  unfold piece
  split <;> trivial

/-- A block that reads a piece first. -/
theorem Leaves.piece {s : Parser} {pieces : List Str} {i : Nat} {g : Str → Except Fault Parser}
    (h : ∀ value, Leaves s (g value)) : Leaves s (Sdp.piece pieces i >>= g) :=
  (outcome_piece pieces i).bind fun value _ => h value

theorem codecs_lineFlags : (lineFlags s line).codecs = s.codecs := by
  simp only [lineFlags, setDirection]
  split_ifs <;> rfl

theorem codecs_lineMedia : (lineMedia s line).codecs = s.codecs := by
  simp only [lineMedia]
  split_ifs <;> rfl

theorem leaves_lineFingerprint : Leaves s (lineFingerprint s line) := by
  unfold lineFingerprint
  split
  · exact Leaves.piece fun _ => Leaves.piece fun _ => rfl
  · rfl

theorem leaves_lineGroup : Leaves s (lineGroup s line) := by
  unfold lineGroup
  split
  · exact Leaves.piece fun _ => rfl
  · rfl

theorem leaves_lineCandidate : Leaves s (lineCandidate s line) := by
  unfold lineCandidate
  split
  · have hcand := processCandidate_checked s.info (splitOneOf line [' ', ':'] 0) s.mtype
    rcases hr : processCandidate s.info (splitOneOf line [' ', ':'] 0) s.mtype with e | r
    · trivial
    · obtain ⟨candidates, hinfo⟩ := hcand.of_eq_ok hr
      show Parser.codecs { s with info := r.1 } = s.codecs
      rw [hinfo]
      rfl
  · rfl

theorem leaves_lineCrypto : Leaves s (lineCrypto s line) := by
  unfold lineCrypto
  split
  · exact Leaves.piece fun _ => Leaves.piece fun _ => rfl
  · rfl

/-- A credential is stored beside the codecs. -/
theorem leaves_lineCredential {tag : String} {set : Parser → Str → SdpInfo}
    (hset : ∀ value, Parser.codecs { s with info := set s value } = s.codecs) :
    Leaves s (lineCredential tag set s line) := by
  unfold lineCredential
  split
  · apply Leaves.piece
    intro value
    split
    · rfl
    · exact hset _
  · rfl

theorem leaves_lineUser : Leaves s (lineUser s line) := by
  apply leaves_lineCredential
  intro value
  dsimp only
  split <;> rfl

theorem leaves_linePass : Leaves s (linePass s line) := by
  apply leaves_lineCredential
  intro value
  dsimp only
  split <;> rfl

theorem leaves_lineMid : Leaves s (lineMid s line) := by
  unfold lineMid
  split
  · split
    · split
      · rfl
      · trivial
    · rfl
  · rfl

theorem leaves_lineSsrc : Leaves s (lineSsrc s line) := by
  unfold lineSsrc
  split
  · dsimp only
    split
    · exact Leaves.piece fun _ => rfl
    · split
      · exact Leaves.piece fun _ => rfl
      · rfl
  · rfl

theorem codecs_lineSsrcGroup : (lineSsrcGroup s line).codecs = s.codecs := by
  unfold lineSsrcGroup
  split
  · split <;> rfl
  · rfl

theorem codecs_lineBandwidth : (lineBandwidth s line).codecs = s.codecs := by
  unfold lineBandwidth
  split
  · split <;> rfl
  · rfl

/-- The blocks in front of that of `a=rtpmap`. -/
def beforeRtpmap : Except Fault Parser := do
  let s ← lineFingerprint (lineFlags s line) line
  let s ← lineGroup s line
  let s ← lineCandidate (lineMedia s line) line
  let s ← lineCrypto s line
  let s ← lineUser s line
  let s ← linePass s line
  let s ← lineMid s line
  let s ← lineSsrc s line
  return lineSsrcGroup s line

theorem leaves_beforeRtpmap : Leaves s (beforeRtpmap s line) := by
  have hflags := codecs_lineFlags s line
  apply Outcome.bind (leaves_lineFingerprint (lineFlags s line) line)
  intro s₁ h₁
  apply Outcome.bind (leaves_lineGroup s₁ line)
  intro s₂ h₂
  have hmedia := codecs_lineMedia s₂ line
  apply Outcome.bind (leaves_lineCandidate (lineMedia s₂ line) line)
  intro s₃ h₃
  apply Outcome.bind (leaves_lineCrypto s₃ line)
  intro s₄ h₄
  apply Outcome.bind (leaves_lineUser s₄ line)
  intro s₅ h₅
  apply Outcome.bind (leaves_linePass s₅ line)
  intro s₆ h₆
  apply Outcome.bind (leaves_lineMid s₆ line)
  intro s₇ h₇
  apply Outcome.bind (leaves_lineSsrc s₇ line)
  intro s₈ h₈
  show (lineSsrcGroup s₈ line).codecs = s.codecs
  rw [codecs_lineSsrcGroup, h₈, h₇, h₆, h₅, h₄, h₃, hmedia, h₂, h₁, hflags]

/-- The blocks of a line: those in front of `a=rtpmap`, and the others. -/
theorem processLine_eq : processLine s line = beforeRtpmap s line >>= fun s =>
    lineRtpmap s line >>= fun s =>
      pure (lineBandwidth (lineFmtp (lineFeedback s line) line) line) := by
  simp only [processLine, beforeRtpmap, bind_assoc, pure_bind]

end Blocks

/-! ### The blocks that do not -/

/-- The loop over a table with one entry for each codec. -/
theorem foldl_matchCodec_unique (pt : Nat) (name : Str) (clock : Nat) {table : List RtpMap}
    (hu : UniqueCodecs table) (acc : SdpInfo × RtpMap × Bool) :
    table.foldl (matchCodec pt name clock) acc =
      match table.find? (Matches name clock) with
      | none => acc
      | some rtp => matchCodec pt name clock acc rtp := by
  have hskip : ∀ (l : List RtpMap) (acc : SdpInfo × RtpMap × Bool),
      (∀ rtp ∈ l, ¬ Matches name clock rtp) → l.foldl (matchCodec pt name clock) acc = acc := by
    intro l
    induction l with
    | nil => exact fun _ _ => rfl
    | cons rtp l ih =>
        intro acc hno
        have hrtp : matchCodec pt name clock acc rtp = acc := if_neg (hno rtp List.mem_cons_self)
        rw [List.foldl_cons, hrtp]
        exact ih acc fun r hr => hno r (List.mem_cons_of_mem _ hr)
  induction table with
  | nil => rfl
  | cons rtp table ih =>
      obtain ⟨hfirst, hrest⟩ := List.pairwise_cons.mp hu
      rw [List.foldl_cons]
      by_cases hm : Matches name clock rtp
      · have hfound : (rtp :: table).find? (Matches name clock) = some rtp := by
          simp [hm]
        rw [hfound]
        apply hskip
        rintro r hr ⟨hname, hclock⟩
        exact hfirst r hr ⟨hm.1.trans hname.symm, hm.2.trans hclock.symm⟩
      · have hrtp : matchCodec pt name clock acc rtp = acc := if_neg hm
        have hnext : (rtp :: table).find? (Matches name clock)
            = table.find? (Matches name clock) := by
          simp [hm]
        rw [hnext, hrtp]
        exact ih hrest

/-- `s'` has the codecs of `s`, and those of an accepted offer if there is one. -/
def Extends (s s' : Parser) : Option (Nat × Nat) → Prop
  | none => s'.codecs = s.codecs
  | some offer =>
      ∃ entry : RtpMap, entry.payloadType = offer.2 ∧ entry.formatParameters = ∅ ∧
        s'.codecs = (s.info.internalPayloadVector, s.info.payloadVector ++ [entry],
          s.info.outInPTMap.insert offer.1 offer.2, s.info.inOutPTMap.insert offer.2 offer.1,
          s.tmpFeedbackVector)

section

variable {s s' : Parser} {line : Str}

theorem extends_addRtpMap (hu : UniqueCodecs s.info.internalPayloadVector) (pt : Nat)
    (name : Str) (clock : Nat) :
    Extends s (addRtpMap s pt name clock)
      ((s.info.internalPayloadVector.find? (Matches name clock)).map fun rtp =>
        (pt, rtp.payloadType)) := by
  have hfold := foldl_matchCodec_unique pt name clock hu
    (s.info, ⟨pt, name, clock, s.mtype, 0, [], ∅⟩, false)
  rcases hfind : s.info.internalPayloadVector.find? (Matches name clock) with - | rtp
  · rw [hfind] at hfold ⊢
    simp only [addRtpMap, hfold, Bool.false_eq_true, if_false]
    rfl
  · have hm : Matches name clock rtp := by simpa using List.find?_some hfind
    have hmatch : matchCodec pt name clock (s.info, ⟨pt, name, clock, s.mtype, 0, [], ∅⟩, false) rtp
        = _ := if_pos hm
    rw [hfind] at hfold ⊢
    simp only [hmatch] at hfold
    simp only [addRtpMap, hfold, if_true]
    refine ⟨⟨rtp.payloadType, name, clock, s.mtype, rtp.channels, [], ∅⟩, rfl, rfl, ?_⟩
    split <;> rfl

/-- What the block of `a=rtpmap` adds. -/
theorem extends_lineRtpmap (hu : UniqueCodecs s.info.internalPayloadVector)
    (h : lineRtpmap s line = .ok s') :
    Extends s s' (offerOf s.info.internalPayloadVector line) := by
  unfold lineRtpmap at h
  unfold offerOf rtpmapOf
  by_cases htag : contains line "a=rtpmap:" = true
  · rw [if_pos htag] at h ⊢
    rcases hparts : splitOneOf line [' ', ':', '/', '\n'] 4 with
      - | ⟨head, - | ⟨pt, - | ⟨name, - | ⟨clock, rest⟩⟩⟩⟩
    · rw [hparts] at h
      cases h
    · rw [hparts] at h
      cases h
    · rw [hparts] at h
      cases h
    · rw [hparts] at h
      cases h
    · rw [hparts] at h
      obtain rfl : addRtpMap s (strtoui pt) name (strtoui clock) = s' := Except.ok.inj h
      exact extends_addRtpMap hu (strtoui pt) name (strtoui clock)
  · rw [if_neg htag] at h ⊢
    obtain rfl : s = s' := Except.ok.inj h
    rfl

/-- An `a=fmtp` line at an entry. -/
def setParameter : Option (Nat × Str × Str) → RtpMap → RtpMap
  | none, rtp => rtp
  | some f, rtp =>
      if rtp.payloadType = f.1 then
        { rtp with formatParameters := rtp.formatParameters.insert f.2.1 f.2.2 }
      else rtp

@[simp] theorem setParameter_payloadType (f : Option (Nat × Str × Str)) (rtp : RtpMap) :
    (setParameter f rtp).payloadType = rtp.payloadType := by
  unfold setParameter
  split
  · rfl
  · split <;> rfl

theorem codecs_lineFmtp : (lineFmtp s line).codecs = (s.info.internalPayloadVector,
    s.info.payloadVector.map (setParameter (fmtpOf line)), s.info.outInPTMap, s.info.inOutPTMap,
    s.tmpFeedbackVector) := by
  have hid : s.info.payloadVector.map (setParameter none) = s.info.payloadVector := List.map_id _
  unfold lineFmtp fmtpOf
  dsimp only
  split
  · rcases splitOneOf line [' ', ':', '='] 4 with
      - | ⟨_, - | ⟨_, - | ⟨pt, - | ⟨option, - | ⟨value, rest⟩⟩⟩⟩⟩
    · rw [hid]
      rfl
    · rw [hid]
      rfl
    · rw [hid]
      rfl
    · rw [hid]
      rfl
    · rfl
    · rfl
  · rw [hid]
    rfl

/-- What a line adds to the codecs: its offer, its parameter at every entry with its number,
and itself if it is for feedback. -/
theorem codecs_processLine (hu : UniqueCodecs s.info.internalPayloadVector)
    (h : processLine s line = .ok s') :
    ∃ s₁, Extends s s₁ (offerOf s.info.internalPayloadVector line) ∧
      s'.codecs = (s₁.info.internalPayloadVector,
        s₁.info.payloadVector.map (setParameter (fmtpOf line)), s₁.info.outInPTMap,
        s₁.info.inOutPTMap, s₁.tmpFeedbackVector ++ feedbackLines [line]) := by
  rw [processLine_eq] at h
  have hbefore := leaves_beforeRtpmap s line
  rcases h₀ : beforeRtpmap s line with e | s₀
  · rw [h₀] at h
    cases h
  · rw [h₀] at h hbefore
    have hcodecs : s₀.codecs = s.codecs := hbefore
    simp only [Parser.codecs, Prod.mk.injEq] at hcodecs
    obtain ⟨htable, hvector, hout, hin, htmp⟩ := hcodecs
    rcases h₁ : lineRtpmap s₀ line with e | s₁
    · have hfail : (lineRtpmap s₀ line >>= fun s =>
          pure (lineBandwidth (lineFmtp (lineFeedback s line) line) line)) = .ok s' := h
      rw [h₁] at hfail
      cases hfail
    · have hok : (lineRtpmap s₀ line >>= fun s =>
          pure (lineBandwidth (lineFmtp (lineFeedback s line) line) line)) = .ok s' := h
      rw [h₁] at hok
      obtain rfl : lineBandwidth (lineFmtp (lineFeedback s₁ line) line) line = s' :=
        Except.ok.inj hok
      have hext := extends_lineRtpmap (s := s₀) (by rw [htable]; exact hu) h₁
      rw [htable] at hext
      refine ⟨s₁, ?_, ?_⟩
      · rcases hoffer : offerOf s.info.internalPayloadVector line with - | offer
        · rw [hoffer] at hext
          show s₁.codecs = s.codecs
          rw [← hbefore]
          exact hext
        · rw [hoffer] at hext
          obtain ⟨entry, hpt, hparams, hs₁⟩ := hext
          refine ⟨entry, hpt, hparams, ?_⟩
          rw [hs₁, htable, hvector, hout, hin, htmp]
      · rw [codecs_lineBandwidth, codecs_lineFmtp]
        unfold lineFeedback feedbackLines
        rw [List.filter_singleton]
        split
        · rename_i htag
          simp [htag]
        · rename_i htag
          simp [htag]

end

/-! ### What the parser has made of the lines -/

/-- The codecs of the parser behind some lines. -/
structure Follows (table : List RtpMap) (lines : List Str) (s : Parser) : Prop where
  internal : s.info.internalPayloadVector = table
  entries : s.info.payloadVector.map RtpMap.payloadType = (offers table lines).map Prod.snd
  outIn : s.info.outInPTMap =
    (offers table lines).foldl (fun m offer => m.insert offer.1 offer.2) ∅
  inOut : s.info.inOutPTMap =
    (offers table lines).foldl (fun m offer => m.insert offer.2 offer.1) ∅
  feedback : s.tmpFeedbackVector = feedbackLines lines

theorem Follows.line {table : List RtpMap} {lines : List Str} {line : Str} {s s' : Parser}
    (hu : UniqueCodecs table) (hs : Follows table lines s) (h : processLine s line = .ok s') :
    Follows table (lines ++ [line]) s' := by
  obtain ⟨s₁, hext, hs'⟩ := codecs_processLine (by rw [hs.internal]; exact hu) h
  rw [hs.internal] at hext
  simp only [Parser.codecs, Prod.mk.injEq] at hs'
  obtain ⟨htable, hvector, hout, hin, htmp⟩ := hs'
  have hentries : s'.info.payloadVector.map RtpMap.payloadType
      = s₁.info.payloadVector.map RtpMap.payloadType := by
    rw [hvector, List.map_map]
    congr 1
    funext rtp
    exact setParameter_payloadType _ rtp
  have hfeedback : feedbackLines (lines ++ [line]) = feedbackLines lines ++ feedbackLines [line] :=
    List.filter_append lines [line]
  have hoffers : offers table (lines ++ [line]) = offers table lines ++ (offerOf table line).toList
      := by
    unfold offers
    rw [List.filterMap_append]
    cases hoffer : offerOf table line <;> simp [hoffer]
  rcases hoffer : offerOf table line with - | offer
  · rw [hoffer] at hext hoffers
    have hsame : s₁.codecs = s.codecs := hext
    simp only [Parser.codecs, Prod.mk.injEq] at hsame
    obtain ⟨htable₁, hvector₁, hout₁, hin₁, htmp₁⟩ := hsame
    have hlines : offers table (lines ++ [line]) = offers table lines := by
      rw [hoffers]
      exact List.append_nil _
    refine ⟨?_, ?_, ?_, ?_, ?_⟩
    · rw [htable, htable₁, hs.internal]
    · rw [hentries, hvector₁, hlines, hs.entries]
    · rw [hout, hout₁, hlines, hs.outIn]
    · rw [hin, hin₁, hlines, hs.inOut]
    · rw [htmp, htmp₁, hfeedback, hs.feedback]
  · rw [hoffer] at hext hoffers
    obtain ⟨entry, hpt, -, hs₁⟩ := hext
    simp only [Parser.codecs, Prod.mk.injEq] at hs₁
    obtain ⟨htable₁, hvector₁, hout₁, hin₁, htmp₁⟩ := hs₁
    have hlines : offers table (lines ++ [line]) = offers table lines ++ [offer] := hoffers
    refine ⟨?_, ?_, ?_, ?_, ?_⟩
    · rw [htable, htable₁, hs.internal]
    · rw [hentries, hvector₁, hlines, List.map_append, List.map_append, hs.entries]
      show _ ++ [entry.payloadType] = _ ++ [offer.2]
      rw [hpt]
    · rw [hout, hout₁, hlines, List.foldl_append, hs.outIn]
      rfl
    · rw [hin, hin₁, hlines, List.foldl_append, hs.inOut]
      rfl
    · rw [htmp, htmp₁, hfeedback, hs.feedback]

/-- The parser of a new description. -/
def Parser.new (videoEncoding : VideoEncoding) (isRedFecEnabled : Bool) (media : Str) : Parser :=
  { info := .new videoEncoding isRedFecEnabled, mtype := initialMedia media }

theorem follows_lines (videoEncoding : VideoEncoding) (isRedFecEnabled : Bool) (media : Str)
    {lines : List Str} {s : Parser}
    (h : lines.foldlM processLine (Parser.new videoEncoding isRedFecEnabled media) = .ok s) :
    Follows (initializeRtpMap videoEncoding isRedFecEnabled) lines s := by
  induction lines using List.reverseRecOn generalizing s with
  | nil =>
      obtain rfl : Parser.new videoEncoding isRedFecEnabled media = s := Except.ok.inj h
      exact ⟨rfl, rfl, rfl, rfl, rfl⟩
  | append_singleton lines line ih =>
      rw [List.foldlM_append] at h
      rcases hlines : lines.foldlM processLine (Parser.new videoEncoding isRedFecEnabled media)
        with e | s₀
      · rw [hlines] at h
        cases h
      · rw [hlines] at h
        have hline : processLine s₀ line = .ok s := by
          rw [← h]
          exact (bind_pure _).symm
        exact (ih hlines).line (uniqueCodecs_initializeRtpMap videoEncoding isRedFecEnabled) hline

/-! ### The two maps -/

/-- What a map holds that was filled by a loop: the last value of a key. -/
theorem getElem?_foldl_insert {α : Type*} (key value : α → Nat) (l : List α) (k : Nat) :
    (l.foldl (fun m a => m.insert (key a) (value a)) (∅ : Std.TreeMap Nat Nat))[k]?
      = ((l.filter fun a => key a = k).getLast?).map value := by
  induction l using List.reverseRecOn with
  | nil => simp
  | append_singleton l a ih =>
      rw [List.foldl_append, List.filter_append]
      show (Std.TreeMap.insert _ (key a) (value a))[k]? = _
      rw [Std.TreeMap.getElem?_insert]
      by_cases hk : key a = k
      · have hkeep : [a].filter (fun a => key a = k) = [a] := by simp [hk]
        rw [if_pos (by simpa using hk), hkeep, List.getLast?_concat]
        rfl
      · have hdrop : [a].filter (fun a => key a = k) = [] := by simp [hk]
        rw [if_neg (by simpa using hk), hdrop, List.append_nil]
        exact ih

/-- The numbers of a list of offers are mapped there and back if and only if no two have the
same number in the table, when all were offered under different ones. -/
theorem mapped_back_iff {l : List (Nat × Nat)} (hdistinct : (l.map Prod.fst).Nodup) :
    (∀ offer ∈ l, ∃ last, (l.filter fun a => a.2 = offer.2).getLast? = some last ∧
      last.1 = offer.1) ↔ (l.map Prod.snd).Nodup := by
  have hinj : ∀ a ∈ l, ∀ b ∈ l, a.1 = b.1 → a = b := fun a ha b hb h =>
    List.inj_on_of_nodup_map hdistinct ha hb h
  constructor
  · intro hback
    apply List.Nodup.map_on _ (List.Nodup.of_map _ hdistinct)
    intro a ha b hb h
    obtain ⟨last, hlast, hfst⟩ := hback a ha
    obtain ⟨last', hlast', hfst'⟩ := hback b hb
    rw [h, hlast'] at hlast
    obtain rfl := Option.some.inj hlast
    exact hinj a ha b hb (hfst.symm.trans hfst')
  · intro hnodup offer hoffer
    have hmem : offer ∈ l.filter fun a => a.2 = offer.2 := by simpa using hoffer
    have hne := List.ne_nil_of_mem hmem
    refine ⟨_, List.getLast?_eq_some_getLast hne, ?_⟩
    have hlast := List.getLast_mem hne
    rw [List.mem_filter, decide_eq_true_iff] at hlast
    rw [List.inj_on_of_nodup_map hnodup hlast.1 hoffer hlast.2]

/-- The accepted payload types are among those with a line. -/
theorem offers_sublist (table : List RtpMap) (lines : List Str) :
    ((offers table lines).map Prod.fst).Sublist (mapped lines) := by
  unfold offers mapped
  induction lines with
  | nil => exact List.Sublist.refl _
  | cons line lines ih =>
      rcases hmap : rtpmapOf line with - | r
      · have hno : offerOf table line = none := by rw [offerOf, hmap]; rfl
        rw [List.filterMap_cons_none hno, List.filterMap_cons_none hmap]
        exact ih
      · rw [List.filterMap_cons_some hmap]
        rcases hfind : table.find? (Matches r.2.1 r.2.2) with - | rtp
        · have hno : offerOf table line = none := by
            rw [offerOf, hmap, Option.bind_some, hfind]
            rfl
          rw [List.filterMap_cons_none hno]
          exact ih.cons _
        · have hsome : offerOf table line = some (r.1, rtp.payloadType) := by
            rw [offerOf, hmap, Option.bind_some, hfind]
            rfl
          rw [List.filterMap_cons_some hsome]
          exact ih.cons_cons _

/-- The feedback lines as `finish` attaches them: not at all without credentials. -/
def attachAll (s : Parser) (lines : List Str) : Except Fault SdpInfo :=
  if s.info.iceVideoUsername = [] ∧ s.info.iceAudioUsername = [] then .ok s.info
  else lines.foldlM attachFeedback (completeCandidates (shareCredentials s.info))

theorem attachAll_of_finish {s : Parser} {info : SdpInfo} {ok : Bool}
    (h : finish s = .ok (info, ok)) : attachAll s s.tmpFeedbackVector = .ok info := by
  unfold finish at h
  unfold attachAll
  split at h
  · rename_i hnone
    rw [if_pos hnone]
    obtain ⟨rfl, -⟩ := Prod.mk.inj (Except.ok.inj h)
    rfl
  · rename_i hsome
    rw [if_neg hsome]
    rcases hr : s.tmpFeedbackVector.foldlM attachFeedback
        (completeCandidates (shareCredentials s.info)) with e | i
    · rw [hr] at h
      cases h
    · rw [hr] at h
      obtain ⟨rfl, -⟩ := Prod.mk.inj (Except.ok.inj h)
      rfl

/-- The numbers of the entries and the maps of two descriptions are the same. -/
def SameNumbers (info info' : SdpInfo) : Prop :=
  info'.payloadVector.map RtpMap.payloadType = info.payloadVector.map RtpMap.payloadType ∧
    info'.outInPTMap = info.outInPTMap ∧ info'.inOutPTMap = info.inOutPTMap

theorem SameNumbers.trans {a b c : SdpInfo} (h : SameNumbers a b) (h' : SameNumbers b c) :
    SameNumbers a c :=
  ⟨h'.1.trans h.1, h'.2.1.trans h.2.1, h'.2.2.trans h.2.2⟩

theorem sameNumbers_attachFeedback (info : SdpInfo) (line : Str) :
    Outcome (SameNumbers info) (fun _ => True) (attachFeedback info line) := by
  apply (outcome_piece _ 1).bind
  intro pt _
  apply (outcome_piece _ 2).bind
  intro feedback _
  refine ⟨?_, rfl, rfl⟩
  show List.map _ (List.map _ _) = _
  rw [List.map_map]
  congr 1
  funext rtp
  show RtpMap.payloadType (if _ then _ else _) = _
  split <;> rfl

/-- What follows the loop over the lines leaves the numbers alone. -/
theorem sameNumbers_attachAll (s : Parser) (lines : List Str) :
    Outcome (SameNumbers s.info) (fun _ => True) (attachAll s lines) := by
  have hloop : ∀ (l : List Str) (info : SdpInfo),
      Outcome (SameNumbers info) (fun _ => True) (l.foldlM attachFeedback info) := by
    intro l
    induction l with
    | nil => exact fun info => ⟨rfl, rfl, rfl⟩
    | cons line l ih =>
        intro info
        rw [List.foldlM_cons]
        apply (sameNumbers_attachFeedback info line).bind
        intro info₁ h₁
        exact (ih info₁).imp fun info₂ h₂ => h₁.trans h₂
  have hshare : SameNumbers s.info (completeCandidates (shareCredentials s.info)) := by
    unfold completeCandidates shareCredentials
    split
    · exact ⟨rfl, rfl, rfl⟩
    · split <;> exact ⟨rfl, rfl, rfl⟩
  unfold attachAll
  split
  · exact ⟨rfl, rfl, rfl⟩
  · exact (hloop lines _).imp fun info h => hshare.trans h

/-- The lines of a description that was processed have been read. -/
theorem follows_processSdp {videoEncoding : VideoEncoding} {isRedFecEnabled : Bool}
    {sdp media : Str} {info : SdpInfo} {ok : Bool}
    (h : processSdp (.new videoEncoding isRedFecEnabled) sdp media = .ok (info, ok)) :
    ∃ s, (getlines sdp).foldlM processLine (Parser.new videoEncoding isRedFecEnabled media)
        = .ok s ∧
      Follows (initializeRtpMap videoEncoding isRedFecEnabled) (getlines sdp) s ∧
      finish s = .ok (info, ok) := by
  have hrun : ((getlines sdp).foldlM processLine
      (Parser.new videoEncoding isRedFecEnabled media) >>= finish) = .ok (info, ok) := h
  rcases hlines : (getlines sdp).foldlM processLine
      (Parser.new videoEncoding isRedFecEnabled media) with e | s
  · rw [hlines] at hrun
    cases hrun
  · rw [hlines] at hrun
    exact ⟨s, rfl, follows_lines videoEncoding isRedFecEnabled media hlines, hrun⟩

/-- The payload types of a description, whose `a=rtpmap` lines have different ones, are
mapped to the table and back if and only if no two accepted lines have a codec with the same
number there. -/
theorem invertible_iff (videoEncoding : VideoEncoding) (isRedFecEnabled : Bool)
    (sdp media : Str) {info : SdpInfo} {ok : Bool}
    (h : processSdp (.new videoEncoding isRedFecEnabled) sdp media = .ok (info, ok))
    (hdistinct : (mapped (getlines sdp)).Nodup) :
    (∀ offer ∈ offers (initializeRtpMap videoEncoding isRedFecEnabled) (getlines sdp),
      info.getVideoExternalPT (info.getVideoInternalPT offer.1) = offer.1 ∧
      info.getAudioExternalPT (info.getAudioInternalPT offer.1) = offer.1) ↔
    ((offers (initializeRtpMap videoEncoding isRedFecEnabled) (getlines sdp)).map
      Prod.snd).Nodup := by
  obtain ⟨s, -, hfollows, hfinish⟩ := follows_processSdp h
  have hnumbers := sameNumbers_attachAll s s.tmpFeedbackVector
  rw [attachAll_of_finish hfinish] at hnumbers
  obtain ⟨-, hout, hin⟩ := hnumbers
  rw [hfollows.outIn] at hout
  rw [hfollows.inOut] at hin
  set l := offers (initializeRtpMap videoEncoding isRedFecEnabled) (getlines sdp) with hl
  have hkeys : (l.map Prod.fst).Nodup := (offers_sublist _ _).nodup hdistinct
  rw [← mapped_back_iff hkeys]
  apply forall₂_congr
  intro offer hoffer
  -- the first map has one entry for the offer, as no other has its payload type
  have hinternal : info.getAudioInternalPT offer.1 = offer.2 := by
    have hmem : offer ∈ l.filter fun a => a.1 = offer.1 := by simpa using hoffer
    have hne := List.ne_nil_of_mem hmem
    have hlast := List.getLast_mem hne
    rw [List.mem_filter, decide_eq_true_iff] at hlast
    have heq := List.inj_on_of_nodup_map hkeys hlast.1 hoffer hlast.2
    unfold SdpInfo.getAudioInternalPT
    rw [hout, getElem?_foldl_insert, List.getLast?_eq_some_getLast hne, heq]
    rfl
  have hexternal : info.getAudioExternalPT offer.2 = offer.1 ↔
      ∃ last, (l.filter fun a => a.2 = offer.2).getLast? = some last ∧ last.1 = offer.1 := by
    have hmem : offer ∈ l.filter fun a => a.2 = offer.2 := by simpa using hoffer
    have hsome := List.getLast?_eq_some_getLast (List.ne_nil_of_mem hmem)
    unfold SdpInfo.getAudioExternalPT
    rw [hin, getElem?_foldl_insert, hsome]
    constructor
    · exact fun heq => ⟨_, rfl, heq⟩
    · rintro ⟨last, hlast, heq⟩
      obtain rfl := Option.some.inj hlast
      exact heq
  show info.getAudioExternalPT (info.getAudioInternalPT offer.1) = offer.1 ∧
    info.getAudioExternalPT (info.getAudioInternalPT offer.1) = offer.1 ↔ _
  rw [and_self, hinternal, hexternal]

/-- Two codecs that were offered as 96 and 97. -/
theorem invertible_iff_two : ∃ info ok,
    processSdp (.new .vp8 false) "a=rtpmap:96 VP8/90000\na=rtpmap:97 opus/48000".toList
      "video".toList = .ok (info, ok) ∧
    info.getVideoExternalPT (info.getVideoInternalPT 96) = 96 := by
  have hread : fault? (processSdp (.new .vp8 false)
      "a=rtpmap:96 VP8/90000\na=rtpmap:97 opus/48000".toList "video".toList) = none := by
    decide +kernel
  obtain ⟨⟨info, ok⟩, hr⟩ := exists_ok_of_fault? hread
  have hback := (invertible_iff .vp8 false _ _ hr (by decide +kernel)).mpr (by decide +kernel)
  exact ⟨info, ok, hr, (hback (96, 100) (by decide +kernel)).1⟩

/-- `H264` and `CN` at 48 kHz have one number in the table: an offer of 107 and 109 comes
back as 109 twice. -/
theorem not_invertible : ¬ ∀ (videoEncoding : VideoEncoding) (isRedFecEnabled : Bool)
    (sdp media : Str) (info : SdpInfo) (ok : Bool),
    processSdp (.new videoEncoding isRedFecEnabled) sdp media = .ok (info, ok) →
    (mapped (getlines sdp)).Nodup →
    ∀ offer ∈ offers (initializeRtpMap videoEncoding isRedFecEnabled) (getlines sdp),
      info.getVideoExternalPT (info.getVideoInternalPT offer.1) = offer.1 ∧
      info.getAudioExternalPT (info.getAudioInternalPT offer.1) = offer.1 := by
  intro h
  have hback : ((processSdp (.new .h264 false)
      "a=rtpmap:107 H264/90000\na=rtpmap:109 CN/48000".toList "video".toList).toOption.map
        fun r => r.1.getVideoExternalPT (r.1.getVideoInternalPT 107)) = some 109 := by
    decide +kernel
  rcases hr : processSdp (.new .h264 false)
      "a=rtpmap:107 H264/90000\na=rtpmap:109 CN/48000".toList "video".toList with e | ⟨info, ok⟩
  · rw [hr] at hback
    cases hback
  · rw [hr] at hback
    have hsame := (h .h264 false _ _ info ok hr (by decide +kernel) (107, 107)
      (by decide +kernel)).1
    exact absurd (hsame.symm.trans (Option.some.inj hback)) (by decide)

/-! ### The attributes of an entry -/

/-- The parameters of an entry, and those of one to come. -/
def Parser.parameters (s : Parser) (i : Nat) : Std.TreeMap Str Str :=
  match s.info.payloadVector[i]? with
  | some rtp => rtp.formatParameters
  | none => ∅

/-- The feedback types of an entry. -/
def SdpInfo.feedbackTypes (info : SdpInfo) (i : Nat) : List Str :=
  match info.payloadVector[i]? with
  | some rtp => rtp.feedbackTypes
  | none => []

/-- One of the lines is read: the lines in front of it, and the parser before and after. -/
structure Reading (start : Parser) (lines before : List Str) (line : Str) (s s' : Parser) :
    Prop where
  within : ∃ behind, lines = before ++ line :: behind
  before_line : before.foldlM processLine start = .ok s
  after_line : processLine s line = .ok s'

/-- The feedback of one of the lines is attached: the lines in front of it, the parser behind
all lines, and the description before and after. -/
structure Attaching (start : Parser) (lines before : List Str) (line : Str) (s : Parser)
    (info info' : SdpInfo) : Prop where
  within : ∃ behind, lines = before ++ line :: behind
  after_lines : lines.foldlM processLine start = .ok s
  before_line : attachAll s (feedbackLines before) = .ok info
  after_line : attachAll s (feedbackLines before ++ [line]) = .ok info'

section

variable (start : Parser) (lines : List Str)

/-- An `a=fmtp` line behind the `a=rtpmap` line of its payload type sets its parameter at the
entries that were offered under it, and at no other. -/
def ParametersAttached : Prop :=
  ∀ before line s s' p option value, Reading start lines before line s s' →
    fmtpOf line = some (p, option, value) → p ∈ mapped before →
    ∀ i offer, (offers start.info.internalPayloadVector (before ++ [line]))[i]? = some offer →
      ∀ k : Str, (s'.parameters i)[k]? =
        (if offer.1 = p then (s.parameters i).insert option value else s.parameters i)[k]?

/-- An `a=rtcp-fb` line behind the `a=rtpmap` line of its payload type adds its feedback to
the entries that were offered under it, and to no other. -/
def FeedbackAttached : Prop :=
  ∀ before line s info info' p text, Attaching start lines before line s info info' →
    feedbackOf line = some (p, text) → p ∈ mapped before →
    ∀ i offer, (offers start.info.internalPayloadVector lines)[i]? = some offer →
      info'.feedbackTypes i =
        if offer.1 = p then info.feedbackTypes i ++ [text] else info.feedbackTypes i

/-- The payload type of an `a=fmtp` line has the same number in the table, or the entry has
the parameter. -/
def ParametersApart : Prop :=
  ∀ before line s s' p option value, Reading start lines before line s s' →
    fmtpOf line = some (p, option, value) → p ∈ mapped before →
    ∀ i offer, (offers start.info.internalPayloadVector (before ++ [line]))[i]? = some offer →
      (offer.1 = p ↔ offer.2 = p) ∨ (s.parameters i)[option]? = some value

/-- The payload type of an `a=rtcp-fb` line has the same number in the table, and there are
credentials if it was accepted. -/
def FeedbackApart : Prop :=
  ∀ before line s info info' p text, Attaching start lines before line s info info' →
    feedbackOf line = some (p, text) → p ∈ mapped before →
    ∀ offer ∈ offers start.info.internalPayloadVector lines,
      offer.1 = p ↔
        offer.2 = p ∧ ¬ (s.info.iceVideoUsername = [] ∧ s.info.iceAudioUsername = [])

end

/-- A value that is set is seen if and only if it was not there. -/
theorem getElem?_insert_congr (m : Std.TreeMap Str Str) (key value : Str) :
    (∀ k : Str, (m.insert key value)[k]? = m[k]?) ↔ m[key]? = some value := by
  constructor
  · intro h
    rw [← h key]
    exact Std.TreeMap.getElem?_insert_self
  · intro h k
    rw [Std.TreeMap.getElem?_insert]
    split
    · rename_i hk
      obtain rfl : key = k := Std.LawfulEqCmp.eq_of_compare hk
      exact h.symm
    · rfl

section

variable {start : Parser} {lines before : List Str} {line : Str}

/-- An entry takes the parameter of a line for its number in the table. -/
theorem parameters_processLine {table : List RtpMap} {s s' : Parser} {p : Nat}
    {option value : Str} (hu : UniqueCodecs table) (hs : Follows table before s)
    (h : processLine s line = .ok s') (hline : fmtpOf line = some (p, option, value)) {i : Nat}
    {offer : Nat × Nat} (hoffer : (offers table (before ++ [line]))[i]? = some offer) :
    s'.parameters i =
      if offer.2 = p then (s.parameters i).insert option value else s.parameters i := by
  obtain ⟨s₁, hext, hs'⟩ := codecs_processLine (by rw [hs.internal]; exact hu) h
  have hentries := (hs.line hu h).entries
  simp only [Parser.codecs, Prod.mk.injEq] at hs'
  have hvector := hs'.2.1
  have hsame : s₁.parameters i = s.parameters i := by
    unfold Parser.parameters
    rcases hnew : offerOf s.info.internalPayloadVector line with - | new
    · rw [hnew] at hext
      have hcodecs : s₁.codecs = s.codecs := hext
      simp only [Parser.codecs, Prod.mk.injEq] at hcodecs
      rw [hcodecs.2.1]
    · rw [hnew] at hext
      obtain ⟨entry, -, hparams, hcodecs⟩ := hext
      simp only [Parser.codecs, Prod.mk.injEq] at hcodecs
      rw [hcodecs.2.1]
      rcases Nat.lt_trichotomy i s.info.payloadVector.length with hi | rfl | hi
      · rw [List.getElem?_append_left hi]
      · rw [List.getElem?_concat_length, List.getElem?_eq_none (Nat.le_refl _)]
        exact hparams
      · have hbeyond : (s.info.payloadVector ++ [entry]).length ≤ i := by
          rw [List.length_append]
          exact hi
        rw [List.getElem?_eq_none hbeyond, List.getElem?_eq_none (Nat.le_of_lt hi)]
  -- the entry at `i` has the number of its codec in the table
  have hat : (s'.info.payloadVector.map RtpMap.payloadType)[i]? = some offer.2 := by
    rw [hentries, List.getElem?_map, hoffer]
    rfl
  rw [← hsame]
  unfold Parser.parameters
  rw [hvector, List.map_map, List.getElem?_map] at hat
  rw [hvector, List.getElem?_map, hline]
  rcases hrtp : s₁.info.payloadVector[i]? with - | rtp
  · rw [hrtp] at hat
    cases hat
  · rw [hrtp] at hat
    have hpt : rtp.payloadType = offer.2 := by
      rw [← setParameter_payloadType (fmtpOf line) rtp]
      exact Option.some.inj hat
    show (if rtp.payloadType = p then
      { rtp with formatParameters := rtp.formatParameters.insert option value }
      else rtp).formatParameters = _
    rw [hpt]
    split <;> rfl

/-- A feedback line that is attached to the entries with its number. -/
theorem payloadVector_attachFeedback {info info' : SdpInfo} {p : Nat} {text : Str}
    (hline : feedbackOf line = some (p, text)) (h : attachFeedback info line = .ok info') :
    info'.payloadVector = info.payloadVector.map fun rtp =>
      if rtp.payloadType = p then { rtp with feedbackTypes := rtp.feedbackTypes ++ [text] }
      else rtp := by
  unfold feedbackOf at hline
  unfold attachFeedback at h
  split at hline
  · rcases hparts : splitOneOf line [' ', ':'] 2 with - | ⟨_, - | ⟨pt, - | ⟨feedback, rest⟩⟩⟩
    · rw [hparts] at hline
      cases hline
    · rw [hparts] at hline
      cases hline
    · rw [hparts] at hline
      cases hline
    · rw [hparts] at hline h
      obtain ⟨rfl, rfl⟩ := Prod.mk.inj (Option.some.inj hline)
      obtain rfl := Except.ok.inj h
      rfl
  · cases hline

/-- An entry takes the feedback of a line for its number in the table. -/
theorem feedbackTypes_attachAll {table : List RtpMap} {s : Parser} {info info' : SdpInfo}
    {p : Nat} {text : Str} {kept : List Str} (hs : Follows table lines s)
    (h : attachAll s kept = .ok info) (h' : attachAll s (kept ++ [line]) = .ok info')
    (hline : feedbackOf line = some (p, text)) {i : Nat} {offer : Nat × Nat}
    (hoffer : (offers table lines)[i]? = some offer) :
    info'.feedbackTypes i =
      if offer.2 = p ∧ ¬ (s.info.iceVideoUsername = [] ∧ s.info.iceAudioUsername = []) then
        info.feedbackTypes i ++ [text]
      else info.feedbackTypes i := by
  have hnumbers := sameNumbers_attachAll s kept
  rw [h] at hnumbers
  unfold attachAll at h h'
  split at h
  · rename_i hnone
    rw [if_pos hnone] at h'
    obtain rfl := Except.ok.inj h
    obtain rfl := Except.ok.inj h'
    rw [if_neg fun hcond => hcond.2 hnone]
  · rename_i hsome
    rw [if_neg hsome, List.foldlM_append, h] at h'
    have hattach : attachFeedback info line = .ok info' := by
      rw [← h']
      exact (bind_pure _).symm
    have hat : (info.payloadVector.map RtpMap.payloadType)[i]? = some offer.2 := by
      rw [hnumbers.1, hs.entries, List.getElem?_map, hoffer]
      rfl
    rw [List.getElem?_map] at hat
    unfold SdpInfo.feedbackTypes
    rw [payloadVector_attachFeedback hline hattach, List.getElem?_map]
    rcases hrtp : info.payloadVector[i]? with - | rtp
    · rw [hrtp] at hat
      cases hat
    · rw [hrtp] at hat
      have hpt : rtp.payloadType = offer.2 := Option.some.inj hat
      show (if rtp.payloadType = p then
        { rtp with feedbackTypes := rtp.feedbackTypes ++ [text] } else rtp).feedbackTypes = _
      rw [hpt]
      by_cases hp : offer.2 = p
      · rw [if_pos hp, if_pos ⟨hp, hsome⟩]
      · rw [if_neg hp, if_neg fun hcond => hp hcond.1]

end

section

variable (videoEncoding : VideoEncoding) (isRedFecEnabled : Bool) (media : Str)
  (lines : List Str)

theorem parametersAttached_iff :
    ParametersAttached (Parser.new videoEncoding isRedFecEnabled media) lines ↔
      ParametersApart (Parser.new videoEncoding isRedFecEnabled media) lines := by
  unfold ParametersAttached ParametersApart
  apply forall₅_congr
  intro before line s s' p
  apply forall₅_congr
  intro option value hreading hline hmapped
  apply forall₃_congr
  intro i offer hoffer
  have hset := parameters_processLine (uniqueCodecs_initializeRtpMap videoEncoding isRedFecEnabled)
    (follows_lines videoEncoding isRedFecEnabled media hreading.before_line)
    hreading.after_line hline hoffer
  rw [hset]
  by_cases h₁ : offer.1 = p
  · by_cases h₂ : offer.2 = p
    · simp [h₁, h₂]
    · rw [if_pos h₁, if_neg h₂]
      have hadd := getElem?_insert_congr (s.parameters i) option value
      constructor
      · intro h
        exact Or.inr (hadd.mp fun k => (h k).symm)
      · rintro (h | h)
        · exact absurd (h.mp h₁) h₂
        · exact fun k => (hadd.mpr h k).symm
  · by_cases h₂ : offer.2 = p
    · rw [if_neg h₁, if_pos h₂]
      have hadd := getElem?_insert_congr (s.parameters i) option value
      constructor
      · intro h
        exact Or.inr (hadd.mp h)
      · rintro (h | h)
        · exact absurd (h.mpr h₂) h₁
        · exact hadd.mpr h
    · simp [h₁, h₂]

theorem feedbackAttached_iff :
    FeedbackAttached (Parser.new videoEncoding isRedFecEnabled media) lines ↔
      FeedbackApart (Parser.new videoEncoding isRedFecEnabled media) lines := by
  unfold FeedbackAttached FeedbackApart
  apply forall₅_congr
  intro before line s info info'
  apply forall₅_congr
  intro p text hattaching hline hmapped
  have hset : ∀ {i : Nat} {offer : Nat × Nat},
      (offers (initializeRtpMap videoEncoding isRedFecEnabled) lines)[i]? = some offer → _ :=
    fun hoffer => feedbackTypes_attachAll
      (follows_lines videoEncoding isRedFecEnabled media hattaching.after_lines)
      hattaching.before_line hattaching.after_line hline hoffer
  have hadd : ∀ l : List Str, l ++ [text] ≠ l := fun l h => by simp at h
  constructor
  · intro h offer hoffer
    obtain ⟨i, hi⟩ := List.mem_iff_getElem?.mp hoffer
    have hi' := h i offer hi
    rw [hset hi] at hi'
    split at hi'
    · rename_i h₂
      split at hi'
      · rename_i h₁
        exact iff_of_true h₁ h₂
      · exact absurd hi' (hadd _)
    · rename_i h₂
      split at hi'
      · exact absurd hi'.symm (hadd _)
      · rename_i h₁
        exact iff_of_false h₁ h₂
  · intro h i offer hi
    rw [hset hi]
    have hiff := h offer (List.mem_of_getElem? hi)
    by_cases h₁ : offer.1 = p
    · rw [if_pos (hiff.mp h₁), if_pos h₁]
    · rw [if_neg (fun h₂ => h₁ (hiff.mpr h₂)), if_neg h₁]

/-- The attributes of a description go to the entries that were offered under their payload
types if and only if these are the entries with that number in the table. -/
theorem attached_iff (sdp : Str) :
    ParametersAttached (Parser.new videoEncoding isRedFecEnabled media) (getlines sdp) ∧
        FeedbackAttached (Parser.new videoEncoding isRedFecEnabled media) (getlines sdp) ↔
      ParametersApart (Parser.new videoEncoding isRedFecEnabled media) (getlines sdp) ∧
        FeedbackApart (Parser.new videoEncoding isRedFecEnabled media) (getlines sdp) :=
  and_congr (parametersAttached_iff videoEncoding isRedFecEnabled media (getlines sdp))
    (feedbackAttached_iff videoEncoding isRedFecEnabled media (getlines sdp))

end

/-- The parameter of a video codec that was offered as 96 gets lost: 100 in the table is
another number. -/
theorem not_attached : ¬ ∀ (videoEncoding : VideoEncoding) (isRedFecEnabled : Bool)
    (media sdp : Str),
    ParametersAttached (Parser.new videoEncoding isRedFecEnabled media) (getlines sdp) ∧
      FeedbackAttached (Parser.new videoEncoding isRedFecEnabled media) (getlines sdp) := by
  intro h
  have hattached := (parametersAttached_iff .vp8 false _ _).mp
    (h .vp8 false "video".toList "a=rtpmap:96 VP8/90000\na=fmtp:96 x=1".toList).1
  have hlost : (([("a=rtpmap:96 VP8/90000").toList].foldlM processLine
      (Parser.new .vp8 false "video".toList)).toOption.bind
        fun s => (s.parameters 0)["x".toList]?) = none := by decide +kernel
  have hread : fault? ([("a=rtpmap:96 VP8/90000").toList].foldlM processLine
      (Parser.new .vp8 false "video".toList) >>=
        fun s => processLine s "a=fmtp:96 x=1".toList) = none := by decide +kernel
  obtain ⟨s', hs'⟩ := exists_ok_of_fault? hread
  rcases hbefore : [("a=rtpmap:96 VP8/90000").toList].foldlM processLine
      (Parser.new .vp8 false "video".toList) with e | s
  · rw [hbefore] at hs'
    cases hs'
  · rw [hbefore] at hs' hlost
    have hset := hattached [("a=rtpmap:96 VP8/90000").toList] "a=fmtp:96 x=1".toList s s' 96
      "x".toList "1".toList ⟨⟨[], by decide +kernel⟩, hbefore, hs'⟩ (by decide +kernel)
      (by decide +kernel) 0 (96, 100) (by decide +kernel)
    rcases hset with hiff | hthere
    · exact absurd (hiff.mp rfl) (by decide)
    · exact Option.some_ne_none _ (hthere.symm.trans hlost)

end Orbit.Sdp
