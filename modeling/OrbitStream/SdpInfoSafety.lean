/-
OrbitStream/SdpInfoSafety.lean

When does the parser of session descriptions stay inside of its vectors?

Each block of `processSdp` fails exactly if its line has fewer pieces than it indexes.
For most blocks this is a property of the line.  The block of `a=ssrc` indexes its
pieces only for the first SSRC of a media, the loop of `a=mid` depends on how many
bundle tags there are, and the feedback lines are only split if a user name was given.
So the condition on a line is one on the lines before it too; what it needs of them is
collected by a scan that indexes nothing (`Facts`).  `processSdp_safe_iff` puts the
conditions together.
-/
import OrbitStream.SdpInfo
import OrbitStream.Lib.Run

namespace Orbit.Sdp

open Lib

/-! ### What is known from the lines before -/

/-- What decides about the accesses of the lines to come: the current media, the SSRCs
and user names that are known, the number of bundle tags, and the feedback lines. -/
structure Facts where
  mtype : MediaType
  videoSsrc : Nat
  audioSsrc : Nat
  tags : Nat
  videoUser : Str
  audioUser : Str
  feedback : List Str

namespace Facts

/-- The facts before the first line. -/
def start (info : SdpInfo) (media : Str) : Facts :=
  { mtype := initialMedia media
    videoSsrc := info.videoSsrc
    audioSsrc := info.audioSsrc
    tags := info.bundleTags.length
    videoUser := info.iceVideoUsername
    audioUser := info.iceAudioUsername
    feedback := [] }

/-- The bundle tags of a line are added. -/
def group (f : Facts) (line : Str) : Facts :=
  if contains line "a=group:" then { f with tags := f.tags + ((groupParts line).length - 2) } else f

/-- The media type of a line is set. -/
def media (f : Facts) (line : Str) : Facts :=
  if contains line "m=audio" then { f with mtype := .audio }
  else if contains line "m=video" then { f with mtype := .video }
  else f

/-- What a line gives as a user name or a password. -/
def credential (line : Str) : Option Str :=
  (splitOneOf ((splitOneOf line [':'] 1).getD 1 []) ['\r'] 1).head?

/-- The user name of a line is set. -/
def user (f : Facts) (line : Str) : Facts :=
  match contains line "a=ice-ufrag", credential line with
  | true, some name =>
      if f.mtype = .audio then { f with audioUser := name } else { f with videoUser := name }
  | _, _ => f

/-- The SSRC of the current media is not known yet. -/
def WantsSsrc (f : Facts) : Prop :=
  f.mtype = .video ∧ f.videoSsrc = 0 ∨ f.mtype = .audio ∧ f.audioSsrc = 0

/-- The SSRC of a line is set. -/
def ssrc (f : Facts) (line : Str) : Facts :=
  let n := strtoui ((splitOneOf line [' ', ':'] 2).getD 1 [])
  if contains line "a=ssrc" then
    if f.mtype = .video ∧ f.videoSsrc = 0 then { f with videoSsrc := n }
    else if f.mtype = .audio ∧ f.audioSsrc = 0 then { f with audioSsrc := n }
    else f
  else f

/-- A feedback line is kept. -/
def feed (f : Facts) (line : Str) : Facts :=
  if contains line "a=rtcp-fb:" then { f with feedback := f.feedback ++ [line] } else f

/-- The facts behind a line. -/
def next (f : Facts) (line : Str) : Facts :=
  ((((f.group line).media line).user line).ssrc line).feed line

theorem media_tags (f : Facts) (line : Str) : (f.media line).tags = f.tags := by
  simp only [media]
  split_ifs <;> rfl

theorem user_tags (f : Facts) (line : Str) : (f.user line).tags = f.tags := by
  rw [user]
  split
  · split <;> rfl
  · rfl

theorem user_wantsSsrc (f : Facts) (line : Str) : (f.user line).WantsSsrc ↔ f.WantsSsrc := by
  rw [user]
  split
  · split <;> rfl
  · rfl

end Facts

/-- The facts that the parser knows. -/
def Parser.facts (s : Parser) : Facts :=
  { mtype := s.mtype
    videoSsrc := s.info.videoSsrc
    audioSsrc := s.info.audioSsrc
    tags := s.info.bundleTags.length
    videoUser := s.info.iceVideoUsername
    audioUser := s.info.iceAudioUsername
    feedback := s.tmpFeedbackVector }

/-! ### Candidates -/

/-- A candidate has the pieces that `processCandidate` indexes. -/
def CandidateOk (pieces : List Str) : Prop :=
  4 ≤ pieces.length ∧
    (pieces.getD 3 [] = "UDP".toList ∨ pieces.getD 3 [] = "udp".toList →
      8 ≤ pieces.length ∧
        (pieces.getD 7 [] = "typ".toList →
          9 ≤ pieces.length ∧
            (pieces.getD 8 [] = "srflx".toList ∨ pieces.getD 8 [] = "relay".toList →
              13 ≤ pieces.length)))

theorem piece_checked (pieces : List Str) (i : Nat) :
    Checked (piece pieces i) (i < pieces.length) fun s => pieces.getD i [] = s := by
  refine ⟨?_, ?_⟩
  · intro hi
    refine ⟨pieces[i], ?_, ?_⟩
    · simp [piece, List.getElem?_eq_getElem hi]
    · simp [List.getElem?_eq_getElem hi]
  · intro hi
    refine ⟨.outOfRange i pieces.length, ?_⟩
    simp [piece, List.getElem?_eq_none (Nat.le_of_not_lt hi)]

theorem hostType_reflexive (s : Str) :
    (hostType s = .srflx ∨ hostType s = .relay) ↔ s = "srflx".toList ∨ s = "relay".toList := by
  simp only [hostType]
  split_ifs <;> simp_all

/-- A candidate is parsed without a fault exactly if it has the pieces. -/
theorem processCandidate_checked (info : SdpInfo) (pieces : List Str) (mediaType : MediaType) :
    Checked (processCandidate info pieces mediaType) (CandidateOk pieces) fun r =>
      ∃ cs, r.1 = { info with candidateVector := cs } := by
  -- the checks in the order of the code
  apply Checked.congr (K := 1 < pieces.length ∧ 2 < pieces.length ∧ 3 < pieces.length ∧
    ((pieces.getD 3 [] ≠ "UDP".toList ∧ pieces.getD 3 [] ≠ "udp".toList → True) ∧
      (¬ (pieces.getD 3 [] ≠ "UDP".toList ∧ pieces.getD 3 [] ≠ "udp".toList) →
        4 < pieces.length ∧ 5 < pieces.length ∧ 6 < pieces.length ∧ 7 < pieces.length ∧
          ((pieces.getD 7 [] ≠ "typ".toList → True) ∧
            (¬ pieces.getD 7 [] ≠ "typ".toList → 8 < pieces.length ∧
              ((hostType (pieces.getD 8 []) = .srflx ∨ hostType (pieces.getD 8 []) = .relay →
                10 < pieces.length ∧ 12 < pieces.length) ∧
              (¬ (hostType (pieces.getD 8 []) = .srflx ∨ hostType (pieces.getD 8 []) = .relay) →
                True)))))))
  · apply (piece_checked pieces 1).bind
    intro foundation _
    apply (piece_checked pieces 2).bind
    intro componentId _
    apply (piece_checked pieces 3).bind
    rintro netProtocol rfl
    apply Checked.ite
    · intro _
      exact Checked.of_ok ⟨info.candidateVector, rfl⟩
    intro _
    apply (piece_checked pieces 4).bind
    intro priority _
    apply (piece_checked pieces 5).bind
    intro hostAddress _
    apply (piece_checked pieces 6).bind
    intro hostPort _
    apply (piece_checked pieces 7).bind
    rintro typ rfl
    apply Checked.ite
    · intro _
      exact Checked.of_ok ⟨info.candidateVector, rfl⟩
    intro _
    apply (piece_checked pieces 8).bind
    rintro type rfl
    apply Checked.ite
    · intro _
      apply (piece_checked pieces 10).bind
      intro rAddress _
      apply (piece_checked pieces 12).map
      intro rPort _
      exact ⟨_, rfl⟩
    · intro _
      exact Checked.of_ok ⟨_, rfl⟩
  · rw [hostType_reflexive, CandidateOk]
    constructor
    · rintro ⟨-, -, h3, -, hudp⟩
      refine ⟨h3, ?_⟩
      intro hnet
      obtain ⟨-, -, -, h7, -, htyp⟩ := hudp (by tauto)
      refine ⟨h7, ?_⟩
      intro ht
      obtain ⟨h8, hrefl, -⟩ := htyp (by tauto)
      exact ⟨h8, fun hr => (hrefl hr).2⟩
    · rintro ⟨h3, hudp⟩
      refine ⟨by omega, by omega, h3, fun _ => trivial, ?_⟩
      intro hnet
      obtain ⟨h7, htyp⟩ := hudp (by tauto)
      refine ⟨by omega, by omega, by omega, h7, fun _ => trivial, ?_⟩
      intro ht
      obtain ⟨h8, hrefl⟩ := htyp (by tauto)
      exact ⟨h8, fun hr => ⟨by have := hrefl hr; omega, hrefl hr⟩, fun _ => trivial⟩

/-! ### The blocks of a line -/

/-- A line has the pieces that its blocks index.  The blocks of `a=mid` and `a=ssrc` come
behind those of `a=group:` and of the media. -/
structure LineOk (f : Facts) (line : Str) : Prop where
  fingerprint : contains line "a=fingerprint" →
    2 ≤ (splitOneOf line [':'] 1).length ∧
      2 ≤ (splitOneOf ((splitOneOf line [':'] 1).getD 1 []) [' '] 0).length
  group : contains line "a=group:" → 2 ≤ (groupParts line).length
  candidate : contains line "a=candidate:" → CandidateOk (splitOneOf line [' ', ':'] 0)
  crypto : contains line "a=crypto:" → 5 ≤ (splitOneOf line [' ', ':'] 0).length
  user : contains line "a=ice-ufrag" → 2 ≤ (splitOneOf line [':'] 1).length
  pass : contains line "a=ice-pwd" → 2 ≤ (splitOneOf line [':'] 1).length
  mid : contains line "a=mid" → 2 ≤ (splitOneOf line [':', ' ', '\r', '\n'] 4).length →
    (f.group line).tags ≤ 255
  ssrc : contains line "a=ssrc" → ((f.group line).media line).WantsSsrc →
    2 ≤ (splitOneOf line [' ', ':'] 2).length
  rtpmap : contains line "a=rtpmap:" → 4 ≤ (splitOneOf line [' ', ':', '/', '\n'] 4).length

section

variable (s : Parser) (line : Str)

theorem facts_lineFlags : (lineFlags s line).facts = s.facts := by
  simp only [lineFlags]
  split_ifs <;> simp [Parser.facts, setDirection] <;> split_ifs <;> simp

theorem facts_lineMedia : (lineMedia s line).facts = s.facts.media line := by
  simp only [lineMedia, Facts.media]
  split_ifs <;> rfl

theorem lineFingerprint_checked :
    Checked (lineFingerprint s line)
      (contains line "a=fingerprint" → 1 < (splitOneOf line [':'] 1).length ∧
        1 < (splitOneOf ((splitOneOf line [':'] 1).getD 1 []) [' '] 0).length)
      fun s' => s'.facts = s.facts := by
  apply Checked.guard
  · intro _
    apply (piece_checked _ 1).bind
    rintro part rfl
    apply (piece_checked _ 1).map
    intro fingerprint _
    rfl
  · intro _
    rfl

theorem lineGroup_checked :
    Checked (lineGroup s line) (contains line "a=group:" → 1 < (groupParts line).length)
      fun s' => s'.facts = s.facts.group line := by
  apply Checked.guard
  · intro htag
    apply (piece_checked _ 1).map
    intro kind _
    simp [Parser.facts, Facts.group, htag]
  · intro htag
    rw [Facts.group, if_neg htag]

theorem lineCandidate_checked :
    Checked (lineCandidate s line)
      (contains line "a=candidate:" → CandidateOk (splitOneOf line [' ', ':'] 0))
      fun s' => s'.facts = s.facts := by
  apply Checked.guard
  · intro _
    apply (processCandidate_checked s.info _ s.mtype).map
    rintro r ⟨cs, hr⟩
    rw [hr]
    rfl
  · intro _
    rfl

theorem lineCrypto_checked :
    Checked (lineCrypto s line)
      (contains line "a=crypto:" → 2 < (splitOneOf line [' ', ':'] 0).length ∧
        4 < (splitOneOf line [' ', ':'] 0).length)
      fun s' => s'.facts = s.facts := by
  apply Checked.guard
  · intro _
    apply (piece_checked _ 2).bind
    intro cipherSuite _
    apply (piece_checked _ 4).map
    intro keyParams _
    rfl
  · intro _
    rfl

/-- A line of a credential sets it, or leaves the parser as it was. -/
theorem lineCredential_checked {tag : String} {set : Parser → Str → SdpInfo}
    {P : Parser → Prop}
    (hset : ∀ name, contains line tag = true → Facts.credential line = some name →
      P { s with info := set s name })
    (hkept : contains line tag = false ∨ Facts.credential line = none → P s) :
    Checked (lineCredential tag set s line)
      (contains line tag → 1 < (splitOneOf line [':'] 1).length) P := by
  apply Checked.guard
  · intro htag
    apply Checked.congr (K := 1 < (splitOneOf line [':'] 1).length ∧ True)
    · apply (piece_checked _ 1).bind
      rintro value hvalue
      have hcred : Facts.credential line = (splitOneOf value ['\r'] 1).head? := by
        rw [Facts.credential, hvalue]
      rcases hparts : splitOneOf value ['\r'] 1 with - | ⟨part, parts⟩
      · rw [hparts] at hcred
        exact Checked.of_ok (hkept (Or.inr hcred))
      · rw [hparts] at hcred
        exact Checked.of_ok (hset part htag hcred)
    · simp
  · intro htag
    apply hkept
    exact Or.inl (by simpa using htag)

theorem lineUser_checked :
    Checked (lineUser s line) (contains line "a=ice-ufrag" → 1 < (splitOneOf line [':'] 1).length)
      fun s' => s'.facts = s.facts.user line := by
  apply lineCredential_checked
  · intro name htag hname
    rw [Facts.user, htag, hname]
    show _ = if s.mtype = .audio then _ else _
    split
    · rfl
    · rfl
  · intro hno
    rw [Facts.user]
    rcases hno with hno | hno
    · rw [hno]
    · rw [hno]
      split
      · rename_i heq
        cases heq
      · rfl

theorem linePass_checked :
    Checked (linePass s line) (contains line "a=ice-pwd" → 1 < (splitOneOf line [':'] 1).length)
      fun s' => s'.facts = s.facts := by
  apply lineCredential_checked
  · intro value _ _
    dsimp only
    split
    · rfl
    · rfl
  · intro _
    rfl

theorem lineMid_checked :
    Checked (lineMid s line)
      (contains line "a=mid" → 2 ≤ (splitOneOf line [':', ' ', '\r', '\n'] 4).length →
        s.facts.tags ≤ 255)
      fun s' => s'.facts = s.facts := by
  have hkept : Checked (.ok s : Except Fault Parser) True fun s' => s'.facts = s.facts :=
    Checked.of_ok rfl
  apply Checked.guard
  · intro _
    rcases splitOneOf line [':', ' ', '\r', '\n'] 4 with - | ⟨head, - | ⟨thisId, rest⟩⟩
    · exact hkept.congr (by simp)
    · exact hkept.congr (by simp)
    · refine ⟨?_, ?_⟩
      · intro htags
        refine ⟨_, if_pos (htags (by simp)), ?_⟩
        simp [Parser.facts]
      · intro hno
        refine ⟨.endless, if_neg ?_⟩
        intro htags
        exact hno fun _ => htags
  · intro _
    rfl

theorem lineSsrc_checked :
    Checked (lineSsrc s line)
      (contains line "a=ssrc" → s.facts.WantsSsrc → 1 < (splitOneOf line [' ', ':'] 2).length)
      fun s' => s'.facts = s.facts.ssrc line := by
  apply Checked.guard
  · intro htag
    have hssrc : s.facts.ssrc line = if s.mtype = .video ∧ s.info.videoSsrc = 0 then _
        else if s.mtype = .audio ∧ s.info.audioSsrc = 0 then _ else _ := if_pos htag
    rw [hssrc]
    apply Checked.congr (K :=
      (s.mtype = .video ∧ s.info.videoSsrc = 0 → 1 < (splitOneOf line [' ', ':'] 2).length) ∧
        (¬ (s.mtype = .video ∧ s.info.videoSsrc = 0) → s.mtype = .audio ∧ s.info.audioSsrc = 0 →
          1 < (splitOneOf line [' ', ':'] 2).length))
    · apply Checked.ite
      · intro hvideo
        apply (piece_checked _ 1).map
        rintro ssrc rfl
        rw [if_pos hvideo]
        rfl
      · intro hvideo
        rw [if_neg hvideo]
        apply Checked.guard
        · intro haudio
          apply (piece_checked _ 1).map
          rintro ssrc rfl
          rw [if_pos haudio]
          rfl
        · intro haudio
          rw [if_neg haudio]
    · show _ ↔ (s.mtype = .video ∧ s.info.videoSsrc = 0 ∨ s.mtype = .audio ∧ s.info.audioSsrc = 0 →
        _)
      tauto
  · intro htag
    rw [Facts.ssrc, if_neg htag]

theorem facts_lineSsrcGroup : (lineSsrcGroup s line).facts = s.facts := by
  rw [lineSsrcGroup]
  split
  · split
    · rfl
    · rfl
  · rfl

/-- The loop over the internal payload types changes only the maps between them. -/
theorem foldl_matchCodec (pt : Nat) (codecname : Str) (clock : Nat) (l : List RtpMap)
    (acc : SdpInfo × RtpMap × Bool) :
    ∃ out inn, (l.foldl (matchCodec pt codecname clock) acc).1 =
      { acc.1 with outInPTMap := out, inOutPTMap := inn } := by
  induction l generalizing acc with
  | nil => exact ⟨acc.1.outInPTMap, acc.1.inOutPTMap, rfl⟩
  | cons rtp l ih =>
    obtain ⟨out, inn, hrest⟩ := ih (matchCodec pt codecname clock acc rtp)
    rw [List.foldl_cons, hrest, matchCodec]
    split
    · exact ⟨out, inn, rfl⟩
    · exact ⟨out, inn, rfl⟩

theorem facts_addRtpMap (pt : Nat) (codecname : Str) (clock : Nat) :
    (addRtpMap s pt codecname clock).facts = s.facts := by
  obtain ⟨out, inn, hinfo⟩ := foldl_matchCodec pt codecname clock s.info.internalPayloadVector
    (s.info, ⟨pt, codecname, clock, s.mtype, 0, [], ∅⟩, false)
  rw [addRtpMap]
  dsimp only
  rw [hinfo]
  split
  · split
    · rfl
    · rfl
  · rfl

theorem lineRtpmap_checked :
    Checked (lineRtpmap s line)
      (contains line "a=rtpmap:" → 1 < (splitOneOf line [' ', ':', '/', '\n'] 4).length ∧
        2 < (splitOneOf line [' ', ':', '/', '\n'] 4).length ∧
        3 < (splitOneOf line [' ', ':', '/', '\n'] 4).length)
      fun s' => s'.facts = s.facts := by
  apply Checked.guard
  · intro _
    apply (piece_checked _ 1).bind
    intro ptStr _
    apply (piece_checked _ 2).bind
    intro codecname _
    apply (piece_checked _ 3).map
    intro clockStr _
    exact facts_addRtpMap s _ _ _
  · intro _
    rfl

theorem facts_lineFeedback : (lineFeedback s line).facts = s.facts.feed line := by
  rw [lineFeedback, Facts.feed]
  split
  · rfl
  · rfl

theorem facts_lineFmtp : (lineFmtp s line).facts = s.facts := by
  rw [lineFmtp]
  split
  · split
    · rfl
    · rfl
    · rfl
  · rfl

theorem facts_lineBandwidth : (lineBandwidth s line).facts = s.facts := by
  rw [lineBandwidth]
  split
  · split
    · rfl
    · rfl
  · rfl

/-- A line is parsed without a fault exactly if it has the pieces that its blocks
index. -/
theorem processLine_checked :
    Checked (processLine s line) (LineOk s.facts line) fun s' => s'.facts = s.facts.next line := by
  have hflags := facts_lineFlags s line
  apply Checked.congr
  · apply (lineFingerprint_checked (lineFlags s line) line).bind
    intro s₁ h₁
    apply (lineGroup_checked s₁ line).bind
    intro s₂ h₂
    have hmedia := facts_lineMedia s₂ line
    apply (lineCandidate_checked (lineMedia s₂ line) line).bind
    intro s₃ h₃
    apply (lineCrypto_checked s₃ line).bind
    intro s₄ h₄
    apply (lineUser_checked s₄ line).bind
    intro s₅ h₅
    apply (linePass_checked s₅ line).bind
    intro s₆ h₆
    -- what `a=mid` and `a=ssrc` find
    have hfacts : s₆.facts = ((s.facts.group line).media line).user line := by
      rw [h₆, h₅, h₄, h₃, hmedia, h₂, h₁, hflags]
    have hmid := lineMid_checked s₆ line
    rw [hfacts] at hmid
    apply hmid.bind
    intro s₇ h₇
    have hssrc := lineSsrc_checked s₇ line
    rw [h₇] at hssrc
    apply hssrc.bind
    intro s₈ h₈
    apply (lineRtpmap_checked (lineSsrcGroup s₈ line) line).map
    intro s₉ h₉
    rw [facts_lineBandwidth, facts_lineFmtp, facts_lineFeedback, h₉, facts_lineSsrcGroup, h₈]
    rfl
  · rw [Facts.user_tags, Facts.media_tags, Facts.user_wantsSsrc]
    constructor
    · rintro ⟨hfp, hgroup, hcand, hcrypto, huser, hpass, hmid, hssrc, hrtpmap⟩
      exact ⟨hfp, hgroup, hcand, fun h => (hcrypto h).2, huser, hpass, hmid, hssrc,
        fun h => (hrtpmap h).2.2⟩
    · rintro ⟨hfp, hgroup, hcand, hcrypto, huser, hpass, hmid, hssrc, hrtpmap⟩
      refine ⟨hfp, hgroup, hcand, ?_, huser, hpass, hmid, hssrc, ?_⟩
      · intro h
        have hsize := hcrypto h
        omega
      · intro h
        have hsize := hrtpmap h
        omega

end

/-! ### Descriptions -/

/-- If there is a user name, each feedback line has the pieces that are indexed in it. -/
def FeedbackOk (f : Facts) : Prop :=
  f.videoUser ≠ [] ∨ f.audioUser ≠ [] →
    ∀ line ∈ f.feedback, 3 ≤ (splitOneOf line [' ', ':'] 2).length

/-- The condition on the lines of a description, with the facts before the first. -/
def LinesOk (f : Facts) (lines : List Str) : Prop :=
  Throughout Facts.next LineOk f lines ∧ FeedbackOk (lines.foldl Facts.next f)

theorem attachFeedback_checked (info : SdpInfo) (line : Str) :
    Checked (attachFeedback info line) (3 ≤ (splitOneOf line [' ', ':'] 2).length)
      fun _ => True := by
  apply Checked.congr (K := 1 < (splitOneOf line [' ', ':'] 2).length ∧
    2 < (splitOneOf line [' ', ':'] 2).length)
  · apply (piece_checked _ 1).bind
    intro ptStr _
    exact (piece_checked _ 2).map fun _ _ => trivial
  · omega

theorem foldlM_attachFeedback (lines : List Str) (info : SdpInfo) :
    Checked (lines.foldlM attachFeedback info)
      (∀ line ∈ lines, 3 ≤ (splitOneOf line [' ', ':'] 2).length) fun _ => True := by
  induction lines generalizing info with
  | nil => exact (Checked.of_ok trivial).congr (by simp)
  | cons line lines ih =>
    rw [List.foldlM_cons]
    apply ((attachFeedback_checked info line).bind fun info' _ => ih info').congr
    simp

theorem finish_checked (s : Parser) : Checked (finish s) (FeedbackOk s.facts) fun _ => True := by
  rw [finish]
  by_cases h : s.info.iceVideoUsername = [] ∧ s.info.iceAudioUsername = []
  · rw [if_pos h]
    apply (Checked.of_ok trivial).congr
    simp [FeedbackOk, Parser.facts, h]
  · rw [if_neg h]
    apply ((foldlM_attachFeedback s.tmpFeedbackVector _).map fun _ _ => trivial).congr
    have huser : s.info.iceVideoUsername ≠ [] ∨ s.info.iceAudioUsername ≠ [] := by tauto
    exact ⟨fun hall _ => hall, fun hall => hall huser⟩

theorem processSdp_checked (info : SdpInfo) (sdp media : Str) :
    Checked (processSdp info sdp media) (LinesOk (Facts.start info media) (getlines sdp))
      fun _ => True := by
  apply (Checked.foldlM processLine_checked (getlines sdp)
    { info := info, mtype := initialMedia media }).bind
  intro s hs
  have hfinish := finish_checked s
  rw [hs] at hfinish
  exact hfinish

/-- **Robustness of the parser.**  A candidate, or a description, is parsed without an
access out of range and without an endless loop if and only if every line has the
pieces that its blocks index, and if there is a user name in the end, so has every
feedback line. -/
theorem processSdp_safe_iff (info : SdpInfo) (pieces : List Str) (mediaType : MediaType)
    (sdp media : Str) :
    (fault? (processCandidate info pieces mediaType) = none ↔ CandidateOk pieces) ∧
      (fault? (processSdp info sdp media) = none ↔
        LinesOk (Facts.start info media) (getlines sdp)) := by
  refine ⟨?_, ?_⟩
  · exact (processCandidate_checked info pieces mediaType).fault?
  · exact (processSdp_checked info sdp media).fault?

/-- A user name that is empty: the code that looks for this case comes too late. -/
theorem empty_ufrag_out_of_range :
    fault? (processSdp {} "a=ice-ufrag:".toList "video".toList) = some (.outOfRange 1 1) := by
  decide +kernel

end Orbit.Sdp
