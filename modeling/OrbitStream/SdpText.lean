/-
OrbitStream/SdpText.lean

The text of a session description (`getSdp` and `createOfferSdp` of `sdp_info.{h,cc}`).

The `m=` line of a section and its `a=rtpmap` lines come from two loops over the payload
types.  The loop of the audio line puts a space in front of each number but the first one;
that of the video line puts one behind each, as long as it has counted less than the parser
has counted video codecs.  So the line lists what the section maps if and only if the
parser's count is that of the payload types, these are different, and as an `int` they are
not negative (`payload_lines_iff`); an offer made by `createOfferSdp`, for which nothing was
parsed, runs its numbers together.

The text is modelled line by line; the strings of a description hold no line breaks.
-/
import OrbitStream.SdpCandidate
import OrbitStream.SdpPayload

namespace Orbit.Sdp

open Lib

/-- `FLAGS_set_min_bitrate` and `FLAGS_audio_nack`. -/
structure SdpFlags where
  setMinBitrate : Bool := true
  audioNack : Bool := true

/-- `SdpInfo` with the members that only `getSdp` reads. -/
structure LocalSdp extends SdpInfo where
  isExtMapEnabled : Bool := false
  extendedVideoSsrc : List Nat := []
  setup : Str := []
  targetBandwidth : Nat := 250
  minBitrate : Nat := 120

namespace LocalSdp

/-- `createOfferSdp`. -/
def createOfferSdp (info : LocalSdp) : LocalSdp :=
  { info with
    payloadVector := info.internalPayloadVector
    isBundle := true
    profile := .savpf
    isRtcpMux := true
    videoSdpMLine := 0
    audioSdpMLine := 1
    hasVideo := true
    hasAudio := true
    videoDirection := .sendRecv
    audioDirection := .sendRecv
    videoSsrc := 55543
    videoRtxSsrc := 55555 }

/-! ### Lines -/

/-- `sdp << n` for an `unsigned int`. -/
abbrev printed (n : Nat) : Str := Nat.toDigits 10 n

/-- `int payloadType = rtp.payloadType`, printed. -/
def printedPT (rtp : RtpMap) : Str := intDigits (toInt rtp.payloadType)

/-- `"m=" << media << ...` up to the first payload type. -/
def mTitle (media : Str) (profile : Profile) : Str :=
  "m=".toList ++ media ++ " 1 UDP/TLS/RTP/".toList ++
    (if profile = .savpf then "SAVPF ".toList else "AVPF ".toList)

/-- The loop of the `m=audio` line. -/
def audioPayloadTypes : Bool → List RtpMap → Str
  | _, [] => []
  | first, rtp :: rest =>
    if rtp.mediaType = .audio then
      (if first then [] else " ".toList) ++ printed rtp.payloadType ++
        audioPayloadTypes false rest
    else audioPayloadTypes first rest

/-- The loop of the `m=video` line. -/
def videoPayloadTypes (videoCodecs : Int) : Int → List RtpMap → Str
  | _, [] => []
  | codecCounter, rtp :: rest =>
    if rtp.mediaType = .video then
      printed rtp.payloadType ++ (if codecCounter + 1 < videoCodecs then " ".toList else []) ++
        videoPayloadTypes videoCodecs (codecCounter + 1) rest
    else videoPayloadTypes videoCodecs codecCounter rest

/-- The `a=rtpmap` line of an audio codec. -/
def audioRtpmap (rtp : RtpMap) : Str :=
  if 1 < rtp.channels then
    "a=rtpmap:".toList ++ printedPT rtp ++ " ".toList ++ rtp.encodingName ++ "/".toList ++
      printed rtp.clockRate ++ "/".toList ++ printed rtp.channels
  else
    "a=rtpmap:".toList ++ printedPT rtp ++ " ".toList ++ rtp.encodingName ++ "/".toList ++
      printed rtp.clockRate

/-- The `a=rtpmap` line of a video codec. -/
def videoRtpmap (rtp : RtpMap) : Str :=
  "a=rtpmap:".toList ++ printedPT rtp ++ " ".toList ++ rtp.encodingName ++ "/".toList ++
    printed rtp.clockRate

/-- The loop over the format parameters of a codec. -/
def fmtpLines (rtp : RtpMap) : List Str :=
  rtp.formatParameters.toList.map fun parameter =>
    if parameter.1 ≠ "none".toList then
      "a=fmtp:".toList ++ printedPT rtp ++ " ".toList ++ parameter.1 ++ "=".toList ++ parameter.2
    else "a=fmtp:".toList ++ printedPT rtp ++ " ".toList ++ parameter.2

def feedbackTypeLines (rtp : RtpMap) : List Str :=
  rtp.feedbackTypes.map fun feedback =>
    "a=rtcp-fb:".toList ++ printedPT rtp ++ " ".toList ++ feedback

def directionLine : StreamDirection → Str
  | .sendOnly => "a=sendonly".toList
  | .sendRecv => "a=sendrecv".toList
  | .recvOnly => "a=recvonly".toList

/-- The four lines of an SSRC. -/
def ssrcLines (ssrc : Nat) (cname msidtemp label : Str) : List Str :=
  ["a=ssrc:".toList ++ printed ssrc ++ " cname:".toList ++ cname,
    "a=ssrc:".toList ++ printed ssrc ++ " msid:".toList ++ msidtemp ++ " ".toList ++ label,
    "a=ssrc:".toList ++ printed ssrc ++ " mslabel:".toList ++ msidtemp,
    "a=ssrc:".toList ++ printed ssrc ++ " label:".toList ++ msidtemp ++ label]

def connectionLines (info : LocalSdp) : List Str :=
  "c=IN IP4 0.0.0.0".toList ::
    (if info.isRtcpMux then ["a=rtcp:1 IN IP4 0.0.0.0".toList] else [])

/-- The fingerprint and the setup. -/
def setupLines (info : LocalSdp) : List Str :=
  (if info.isFingerprint then ["a=fingerprint:sha-256 ".toList ++ info.fingerprint] else []) ++
    (if info.setup ≠ [] then ["a=setup:".toList ++ info.setup] else [])

/-- The bundle tags of a medium. -/
def midLines (info : LocalSdp) (mediaType : MediaType) : List Str :=
  (info.bundleTags.filter fun tag => tag.mediaType = mediaType).map fun tag =>
    "a=mid:".toList ++ tag.id

/-- The multiplexing, and the keys of a medium. -/
def cryptoLines (info : LocalSdp) (mediaType : MediaType) : List Str :=
  (if info.isRtcpMux then ["a=rtcp-mux".toList] else []) ++
    (info.cryptoVector.filter fun crypto => crypto.mediaType = mediaType).map fun crypto =>
      "a=crypto:".toList ++ intDigits crypto.tag ++ " ".toList ++ crypto.cipherSuite ++
        " inline:".toList ++ crypto.keyParams

/-! ### `getSdp` -/

/-- What stands in front of the media. -/
def sessionLines (info : LocalSdp) (msidtemp : Str) : List Str :=
  ["v=0".toList, "o=- 0 0 IN IP4 127.0.0.1".toList, "s=Orbit".toList, "t=0 0".toList] ++
    (if info.isBundle then
      ["a=group:BUNDLE".toList ++ info.bundleTags.flatMap fun tag => " ".toList ++ tag.id,
        "a=msid-semantic: WMS ".toList ++ msidtemp]
    else [])

/-- What the loop over the payload types prints of an audio codec. -/
def audioCodecLines (rtp : RtpMap) : List Str := audioRtpmap rtp :: fmtpLines rtp

/-- What the loop over the payload types prints of a video codec. -/
def videoCodecLines (info : LocalSdp) (flags : SdpFlags) (rtp : RtpMap) : List Str :=
  videoRtpmap rtp :: (feedbackTypeLines rtp ++ fmtpLines rtp ++
    (if flags.setMinBitrate then
      ["a=fmtp:".toList ++ printedPT rtp ++ " x-google-min-bitrate=".toList ++
        printed info.minBitrate]
    else []))

/-- The codecs of a medium. -/
def codecs (info : LocalSdp) (mediaType : MediaType) : List RtpMap :=
  info.payloadVector.filter fun rtp => rtp.mediaType = mediaType

/-- The SSRC of the audio section. -/
def printedAudioSsrc (info : LocalSdp) : Nat :=
  if info.audioSsrc = 0 then 44444 else info.audioSsrc

/-- The lines of the audio section in front of the codecs, but for the first one. -/
def audioHead (info : LocalSdp) : List Str :=
  info.connectionLines ++
    (info.candidateVector.filter fun c => c.mediaType = .audio ∨ info.isBundle).map
      CandidateInfo.toString ++
    (if info.iceAudioUsername ≠ [] then
      ["a=ice-ufrag:".toList ++ info.iceAudioUsername, "a=ice-pwd:".toList ++ info.iceAudioPassword]
    else
      ["a=ice-ufrag:".toList ++ info.iceVideoUsername,
        "a=ice-pwd:".toList ++ info.iceVideoPassword]) ++
    info.setupLines ++ [directionLine info.audioDirection] ++ info.midLines .audio ++
    (if info.isExtMapEnabled then
      ["a=extmap:1 urn:ietf:params:rtp-hdrext:ssrc-audio-level".toList]
    else []) ++
    info.cryptoLines .audio

/-- The lines of the audio section behind the codecs. -/
def audioTail (info : LocalSdp) (flags : SdpFlags) (msidtemp : Str) : List Str :=
  ["a=ptime:50".toList, "a=maxptime:60".toList] ++
    ssrcLines info.printedAudioSsrc "o/i14u9pJrxRKAsu".toList msidtemp "a0".toList ++
    (if flags.audioNack then ["a=rtcp-fb:111 nack".toList] else [])

def audioSection (info : LocalSdp) (flags : SdpFlags) (msidtemp : Str) : List Str :=
  (mTitle "audio".toList info.profile ++ audioPayloadTypes true info.payloadVector) ::
    (info.audioHead ++ (info.codecs .audio).flatMap audioCodecLines ++
      info.audioTail flags msidtemp)

/-- The lines of the video section in front of the codecs, but for the first one. -/
def videoHead (info : LocalSdp) : List Str :=
  ["b=AS:".toList ++ printed info.targetBandwidth] ++ info.connectionLines ++
    (info.candidateVector.filter fun c => c.mediaType = .video).map CandidateInfo.toString ++
    ["a=ice-ufrag:".toList ++ info.iceVideoUsername,
      "a=ice-pwd:".toList ++ info.iceVideoPassword] ++
    (if info.isExtMapEnabled then
      ["a=extmap:2 urn:ietf:params:rtp-hdrext:toffset".toList,
        "a=extmap:3 http://www.webrtc.org/experiments/rtp-hdrext/abs-send-time".toList]
    else []) ++
    info.setupLines ++ [directionLine info.videoDirection] ++ info.midLines .video ++
    info.cryptoLines .video

/-- The lines of the video section behind the codecs. -/
def videoTail (info : LocalSdp) (msidtemp : Str) : List Str :=
  (if info.videoSsrc ≠ 0 then
    ssrcLines info.videoSsrc "o/orbit".toList msidtemp "v0".toList
  else []) ++
  (info.extendedVideoSsrc.zipIdx 1).flatMap (fun ssrc =>
    ssrcLines ssrc.1 "o/orbit".toList msidtemp ("v".toList ++ printed ssrc.2)) ++
  (if info.videoRtxSsrc ≠ 0 then
    ssrcLines info.videoRtxSsrc "o/orbit".toList msidtemp "v0".toList
  else [])

def videoSection (info : LocalSdp) (flags : SdpFlags) (msidtemp : Str) : List Str :=
  (mTitle "video".toList info.profile ++
      videoPayloadTypes info.videoCodecs 0 info.payloadVector) ::
    (info.videoHead ++ (info.codecs .video).flatMap (info.videoCodecLines flags) ++
      info.videoTail msidtemp)

/-- The lines of the text. -/
def printedLines (info : LocalSdp) (flags : SdpFlags) (msidtemp : Str) : List Str :=
  info.sessionLines msidtemp ++ (if info.hasAudio then info.audioSection flags msidtemp else []) ++
    (if info.hasVideo then info.videoSection flags msidtemp else [])

/-- `getSdp`, with the result of `gen_random`: the lines of the text, each of which ends with
a line break.  The loops over the bundle tags count with a `uint8_t`, and do not end if
there are more than 255. -/
def getSdp (info : LocalSdp) (flags : SdpFlags) (msidtemp : Str) :
    Except Fault (LocalSdp × List Str) :=
  if 255 < info.bundleTags.length ∧ (info.isBundle ∨ info.hasAudio ∨ info.hasVideo) then
    .error .endless
  else
    .ok (if info.hasAudio then { info with audioSsrc := info.printedAudioSsrc } else info,
      info.printedLines flags msidtemp)

/-! ### Sections -/

/-- The section of a medium: from its `m=` line to the next one. -/
def sectionOf (media : Str) (lines : List Str) : List Str :=
  match lines.dropWhile fun line => !("m=".toList ++ media).isPrefixOf line with
  | [] => []
  | mline :: rest => mline :: rest.takeWhile fun line => !"m=".toList.isPrefixOf line

/-- The start of the `a=rtpmap` line of a payload type. -/
def rtpmapTag (pt : Int) : Str := "a=rtpmap:".toList ++ intDigits pt ++ [' ']

/-- The `m=` line of a section lists the payload types with an `a=rtpmap` line in the
section, each once and with single spaces between them. -/
def Lists (media : Str) (profile : Profile) (lines : List Str) : Prop :=
  ∀ mline ∈ (sectionOf media lines).head?, ∃ pts : List Int,
    mline = mTitle media profile ++ [' '].intercalate (pts.map intDigits) ∧ pts.Nodup ∧
    ∀ pt, pt ∈ pts ↔ ∃ line ∈ sectionOf media lines, rtpmapTag pt <+: line

/-- Lines that are neither an `m=` line nor an `a=rtpmap` line. -/
def Silent (lines : List Str) : Prop :=
  ∀ line ∈ lines, "m=".toList.isPrefixOf line = false ∧
    "a=rtpmap:".toList.isPrefixOf line = false

section

variable {lines lines' : List Str} {line : Str}

theorem silent_nil : Silent [] := fun _ h => absurd h List.not_mem_nil

theorem Silent.cons (hm : "m=".toList.isPrefixOf line = false)
    (hrtpmap : "a=rtpmap:".toList.isPrefixOf line = false) (h : Silent lines) :
    Silent (line :: lines) := by
  intro l hl
  rcases List.mem_cons.mp hl with rfl | hl
  · exact ⟨hm, hrtpmap⟩
  · exact h l hl

theorem Silent.append (h : Silent lines) (h' : Silent lines') : Silent (lines ++ lines') := by
  intro l hl
  exact (List.mem_append.mp hl).elim (h l) (h' l)

theorem Silent.ite {p : Prop} [Decidable p] (h : Silent lines) (h' : Silent lines') :
    Silent (if p then lines else lines') := by
  split
  · exact h
  · exact h'

theorem silent_map {α : Type*} {f : α → Str} (l : List α)
    (h : ∀ a, "m=".toList.isPrefixOf (f a) = false ∧ "a=rtpmap:".toList.isPrefixOf (f a) = false) :
    Silent (l.map f) := by
  intro line hline
  obtain ⟨a, -, rfl⟩ := List.mem_map.mp hline
  exact h a

theorem silent_flatMap {α : Type*} {f : α → List Str} (l : List α) (h : ∀ a, Silent (f a)) :
    Silent (l.flatMap f) := by
  intro line hline
  obtain ⟨a, -, ha⟩ := List.mem_flatMap.mp hline
  exact h a line ha

end

section

variable (info : LocalSdp) (flags : SdpFlags) (msidtemp : Str)

theorem silent_ssrcLines (ssrc : Nat) (cname label : Str) :
    Silent (ssrcLines ssrc cname msidtemp label) :=
  .cons rfl rfl (.cons rfl rfl (.cons rfl rfl (.cons rfl rfl silent_nil)))

theorem silent_connectionLines : Silent info.connectionLines :=
  .cons rfl rfl (.ite (.cons rfl rfl silent_nil) silent_nil)

theorem silent_setupLines : Silent info.setupLines :=
  .append (.ite (.cons rfl rfl silent_nil) silent_nil) (.ite (.cons rfl rfl silent_nil) silent_nil)

theorem silent_midLines (mediaType : MediaType) : Silent (info.midLines mediaType) :=
  silent_map _ fun _ => ⟨rfl, rfl⟩

theorem silent_cryptoLines (mediaType : MediaType) : Silent (info.cryptoLines mediaType) :=
  .append (.ite (.cons rfl rfl silent_nil) silent_nil) (silent_map _ fun _ => ⟨rfl, rfl⟩)

theorem silent_directionLine (direction : StreamDirection) : Silent [directionLine direction] := by
  cases direction <;> exact .cons rfl rfl silent_nil

theorem silent_candidates (l : List CandidateInfo) : Silent (l.map CandidateInfo.toString) :=
  silent_map l fun _ => ⟨rfl, rfl⟩

theorem silent_sessionLines : Silent (info.sessionLines msidtemp) :=
  .append (.cons rfl rfl (.cons rfl rfl (.cons rfl rfl (.cons rfl rfl silent_nil))))
    (.ite (.cons rfl rfl (.cons rfl rfl silent_nil)) silent_nil)

theorem silent_audioHead : Silent info.audioHead := by
  have hcandidates := silent_candidates
    (info.candidateVector.filter fun c => c.mediaType = .audio ∨ info.isBundle)
  have hcredentials : Silent (if info.iceAudioUsername ≠ [] then
      ["a=ice-ufrag:".toList ++ info.iceAudioUsername, "a=ice-pwd:".toList ++ info.iceAudioPassword]
      else ["a=ice-ufrag:".toList ++ info.iceVideoUsername,
        "a=ice-pwd:".toList ++ info.iceVideoPassword]) :=
    .ite (.cons rfl rfl (.cons rfl rfl silent_nil)) (.cons rfl rfl (.cons rfl rfl silent_nil))
  have hextmap : Silent (if info.isExtMapEnabled then
      ["a=extmap:1 urn:ietf:params:rtp-hdrext:ssrc-audio-level".toList] else []) :=
    .ite (.cons rfl rfl silent_nil) silent_nil
  exact ((((((info.silent_connectionLines.append hcandidates).append hcredentials).append
    info.silent_setupLines).append (silent_directionLine _)).append
    (info.silent_midLines .audio)).append hextmap).append (info.silent_cryptoLines .audio)

theorem silent_audioTail : Silent (info.audioTail flags msidtemp) := by
  have htimes : Silent ["a=ptime:50".toList, "a=maxptime:60".toList] :=
    .cons rfl rfl (.cons rfl rfl silent_nil)
  exact (htimes.append (silent_ssrcLines msidtemp _ _ _)).append
    (.ite (.cons rfl rfl silent_nil) silent_nil)

theorem silent_videoHead : Silent info.videoHead := by
  have hbandwidth : Silent ["b=AS:".toList ++ printed info.targetBandwidth] :=
    .cons rfl rfl silent_nil
  have hcandidates := silent_candidates
    (info.candidateVector.filter fun c => c.mediaType = .video)
  have hcredentials : Silent ["a=ice-ufrag:".toList ++ info.iceVideoUsername,
      "a=ice-pwd:".toList ++ info.iceVideoPassword] :=
    .cons rfl rfl (.cons rfl rfl silent_nil)
  have hextmap : Silent (if info.isExtMapEnabled then
      ["a=extmap:2 urn:ietf:params:rtp-hdrext:toffset".toList,
        "a=extmap:3 http://www.webrtc.org/experiments/rtp-hdrext/abs-send-time".toList]
      else []) :=
    .ite (.cons rfl rfl (.cons rfl rfl silent_nil)) silent_nil
  exact (((((((hbandwidth.append info.silent_connectionLines).append hcandidates).append
    hcredentials).append hextmap).append info.silent_setupLines).append
    (silent_directionLine _)).append (info.silent_midLines .video)).append
    (info.silent_cryptoLines .video)

theorem silent_videoTail : Silent (info.videoTail msidtemp) := by
  have hextended := silent_flatMap (info.extendedVideoSsrc.zipIdx 1) fun ssrc =>
    silent_ssrcLines msidtemp ssrc.1 "o/orbit".toList ("v".toList ++ printed ssrc.2)
  exact ((Silent.ite (silent_ssrcLines msidtemp _ _ _) silent_nil).append hextended).append
    (.ite (silent_ssrcLines msidtemp _ _ _) silent_nil)

theorem silent_fmtpLines (rtp : RtpMap) : Silent (fmtpLines rtp) := by
  apply silent_map
  intro parameter
  split
  · exact ⟨rfl, rfl⟩
  · exact ⟨rfl, rfl⟩

end

/-! ### The payload types that are mapped -/

/-- The lines of a codec: its `a=rtpmap` line, and others. -/
structure CodecLines (f : RtpMap → List Str) : Prop where
  mapped : ∀ rtp, ∃ first rest, f rtp = first :: rest ∧
    rtpmapTag (toInt rtp.payloadType) <+: first ∧ Silent rest ∧
    "m=".toList.isPrefixOf first = false

theorem rtpmapTag_videoRtpmap (rtp : RtpMap) :
    rtpmapTag (toInt rtp.payloadType) <+: videoRtpmap rtp := by
  have heq : videoRtpmap rtp = rtpmapTag (toInt rtp.payloadType) ++
      (rtp.encodingName ++ ("/".toList ++ printed rtp.clockRate)) := by
    have hspace : " ".toList = [' '] := rfl
    unfold videoRtpmap printedPT rtpmapTag
    rw [hspace]
    simp only [List.append_assoc]
  rw [heq]
  exact List.prefix_append _ _

theorem rtpmapTag_audioRtpmap (rtp : RtpMap) :
    rtpmapTag (toInt rtp.payloadType) <+: audioRtpmap rtp := by
  have hshort := rtpmapTag_videoRtpmap rtp
  unfold audioRtpmap
  split
  · have heq : ∀ a b c : Str, a ++ b ++ c = a ++ (b ++ c) := List.append_assoc
    rw [heq _ "/".toList (printed rtp.channels)]
    exact hshort.trans (List.prefix_append _ _)
  · exact hshort

theorem codecLines_audio : CodecLines audioCodecLines := by
  refine ⟨fun rtp => ⟨audioRtpmap rtp, fmtpLines rtp, rfl, rtpmapTag_audioRtpmap rtp,
    silent_fmtpLines rtp, ?_⟩⟩
  unfold audioRtpmap
  split
  · rfl
  · rfl

theorem codecLines_video (info : LocalSdp) (flags : SdpFlags) :
    CodecLines (info.videoCodecLines flags) := by
  refine ⟨fun rtp => ⟨videoRtpmap rtp, _, rfl, rtpmapTag_videoRtpmap rtp, ?_, rfl⟩⟩
  have hfeedback : Silent (feedbackTypeLines rtp) := silent_map _ fun _ => ⟨rfl, rfl⟩
  exact (hfeedback.append (silent_fmtpLines rtp)).append
    (.ite (.cons rfl rfl silent_nil) silent_nil)

/-- The start of an `a=rtpmap` line determines the payload type. -/
theorem rtpmapTag_inj {pt pt' : Int} {line : Str} (h : rtpmapTag pt <+: line)
    (h' : rtpmapTag pt' <+: line) : pt = pt' := by
  have hin : ∀ pt : Int, ∀ ch ∈ intDigits pt, (!isSpace ch) = true := by
    intro pt ch hch
    rw [(token_intDigits pt).no_space ch hch]
    rfl
  obtain ⟨rest, rfl⟩ := h
  obtain ⟨rest', h'⟩ := h'
  have hdigits : intDigits pt' ++ ' ' :: rest' = intDigits pt ++ ' ' :: rest := by
    unfold rtpmapTag at h'
    rw [List.append_assoc, List.append_assoc, List.append_assoc, List.append_assoc] at h'
    exact List.append_cancel_left h'
  apply intDigits_injective
  have hstop : ∀ rest : Str, Stops (fun ch => !isSpace ch) (' ' :: rest) :=
    fun rest => stops_cons rest rfl
  rw [← takeWhile_word (hin pt) (hstop rest), ← hdigits,
    takeWhile_word (hin pt') (hstop rest')]

/-- The payload types with an `a=rtpmap` line among the lines of a section. -/
theorem mapped_iff {f : RtpMap → List Str} (hf : CodecLines f) {mline : Str}
    {head tail : List Str} (hmline : "a=rtpmap:".toList.isPrefixOf mline = false)
    (hhead : Silent head) (htail : Silent tail) (codecs : List RtpMap) (pt : Int) :
    (∃ line ∈ mline :: (head ++ codecs.flatMap f ++ tail), rtpmapTag pt <+: line) ↔
      pt ∈ (codecs.map RtpMap.payloadType).map toInt := by
  have htag : ∀ {line : Str}, rtpmapTag pt <+: line →
      "a=rtpmap:".toList.isPrefixOf line = true := by
    intro line h
    rw [List.isPrefixOf_iff_prefix]
    have hstart : "a=rtpmap:".toList <+: rtpmapTag pt := by
      unfold rtpmapTag
      rw [List.append_assoc]
      exact List.prefix_append _ _
    exact hstart.trans h
  have hsilent : ∀ {lines : List Str}, Silent lines → ∀ line ∈ lines, ¬ rtpmapTag pt <+: line := by
    intro lines hlines line hline h
    exact absurd ((hlines line hline).2.symm.trans (htag h)) (by decide)
  rw [List.map_map]
  constructor
  · rintro ⟨line, hline, h⟩
    rcases List.mem_cons.mp hline with rfl | hline
    · exact absurd (hmline.symm.trans (htag h)) (by decide)
    · rcases List.mem_append.mp hline with hline | hline
      · rcases List.mem_append.mp hline with hline | hline
        · exact absurd h (hsilent hhead line hline)
        · obtain ⟨rtp, hrtp, hline⟩ := List.mem_flatMap.mp hline
          obtain ⟨first, rest, heq, hfirst, hrest, -⟩ := hf.mapped rtp
          rw [heq] at hline
          rcases List.mem_cons.mp hline with rfl | hline
          · exact List.mem_map.mpr ⟨rtp, hrtp, (rtpmapTag_inj h hfirst).symm⟩
          · exact absurd h (hsilent hrest line hline)
      · exact absurd h (hsilent htail line hline)
  · intro h
    obtain ⟨rtp, hrtp, rfl⟩ := List.mem_map.mp h
    obtain ⟨first, rest, heq, hfirst, -, -⟩ := hf.mapped rtp
    refine ⟨first, List.mem_cons_of_mem _ (List.mem_append_left _ (List.mem_append_right _
      (List.mem_flatMap.mpr ⟨rtp, hrtp, ?_⟩))), hfirst⟩
    rw [heq]
    exact List.mem_cons_self

/-! ### The list of the `m=` line -/

section Listed

variable {types : List Nat} {k : Nat}

theorem isDigit_of_mem_printed {text : Str} (h : text ∈ types.map printed) :
    ∀ ch ∈ text, ch.isDigit = true := by
  intro ch hch
  obtain ⟨pt, -, rfl⟩ := List.mem_map.mp h
  exact isDigit_toDigits hch

/-- Texts that are run together have digits only. -/
theorem isDigit_of_mem_flatten {ch : Char} (h : ch ∈ ((types.map printed).drop k).flatten) :
    ch.isDigit = true := by
  obtain ⟨text, htext, hch⟩ := List.mem_flatten.mp h
  exact isDigit_of_mem_printed (List.mem_of_mem_drop htext) ch hch

theorem no_space_of_isDigit {text : Str} (h : ∀ ch ∈ text, ch.isDigit = true) : ' ' ∉ text :=
  fun hmem => absurd (h ' ' hmem) (by decide)

theorem no_space_intDigits (pt : Int) : ' ' ∉ intDigits pt :=
  fun hmem => absurd ((token_intDigits pt).no_space ' ' hmem) (by decide)

theorem map_intDigits_ofNat (types : List Nat) :
    (types.map Int.ofNat).map intDigits = types.map printed := by
  rw [List.map_map]
  rfl

/-- A number that is printed without a sign is not negative as an `int`. -/
theorem lt_of_isDigit_toInt {p : Nat} (hp32 : p < 2 ^ 32)
    (h : ∀ ch ∈ intDigits (toInt p), ch.isDigit = true) : p < 2 ^ 31 := by
  by_contra hlarge
  have hneg : toInt p = Int.negSucc (2 ^ 32 - p - 1) := by
    unfold toInt
    rw [if_neg hlarge]
    omega
  rw [hneg] at h
  exact absurd (h '-' List.mem_cons_self) (by decide)

/-- The words of a list are those that stand in it. -/
theorem words_of_listed {pts : List Int} (hpts : pts ≠ [])
    (htext : [' '].intercalate ((types.map printed).take k ++
      [((types.map printed).drop k).flatten]) = [' '].intercalate (pts.map intDigits)) :
    (types.map printed).take k ++ [((types.map printed).drop k).flatten] =
      pts.map intDigits := by
  refine intercalate_inj ?_ ?_ (by simp) (by simpa using hpts) htext
  · intro word hword
    rcases List.mem_append.mp hword with hword | hword
    · exact no_space_of_isDigit (isDigit_of_mem_printed (List.mem_of_mem_take hword))
    · rw [List.mem_singleton.mp hword]
      exact no_space_of_isDigit fun ch => isDigit_of_mem_flatten
  · intro word hword
    obtain ⟨pt, -, rfl⟩ := List.mem_map.mp hword
    exact no_space_intDigits pt

/-- If the words of a list are the numbers of different payload types, the last of them is
one number. -/
theorem drop_of_words {pts : List Int} (h32 : ∀ pt ∈ types, pt < 2 ^ 32) (hnodup : pts.Nodup)
    (hpts : ∀ pt ∈ pts, pt ∈ types.map toInt)
    (hwords : (types.map printed).take k ++ [((types.map printed).drop k).flatten] =
      pts.map intDigits) :
    ∃ text, (types.map printed).drop k = [text] := by
  have hdistinct : ((types.map printed).take k ++
      [((types.map printed).drop k).flatten]).Nodup := by
    rw [hwords]
    exact hnodup.map intDigits_injective
  have hmem : ((types.map printed).drop k).flatten ∈ pts.map intDigits := by
    rw [← hwords]
    exact List.mem_append_right _ List.mem_cons_self
  obtain ⟨pt, hpt, heq⟩ := List.mem_map.mp hmem
  obtain ⟨p, hp, rfl⟩ := List.mem_map.mp (hpts pt hpt)
  -- the last word is the number of some payload type, so nothing is run together in it
  have hsmall : p < 2 ^ 31 := by
    refine lt_of_isDigit_toInt (h32 p hp) fun ch hch => ?_
    rw [heq] at hch
    exact isDigit_of_mem_flatten hch
  have hflat : ((types.map printed).drop k).flatten = printed p := by
    rw [← heq, toInt, if_pos hsmall]
    rfl
  refine ⟨printed p, eq_singleton_of_flatten ?_ ?_ hflat⟩
  · intro word hword
    obtain ⟨pt, -, rfl⟩ := List.mem_map.mp (List.mem_of_mem_drop hword)
    exact Nat.toDigits_ne_nil
  · have hprinted : printed p ∈ types.map printed := List.mem_map_of_mem hp
    rw [← List.take_append_drop k (types.map printed)] at hprinted
    rcases List.mem_append.mp hprinted with hfront | hback
    · rw [hflat] at hdistinct
      exact absurd hfront (List.disjoint_singleton.mp (List.disjoint_of_nodup_append hdistinct))
    · exact hback

/-- A text of payload types, of which the first `k` have a space behind them, lists their
values as an `int` if and only if they are different, not negative as such, and all but the
last one have the space. -/
theorem listed_iff (types : List Nat) (k : Nat) (h32 : ∀ pt ∈ types, pt < 2 ^ 32) :
    (∃ pts : List Int, joined ' ' ((types.map printed).take k) ((types.map printed).drop k).flatten
        = [' '].intercalate (pts.map intDigits) ∧ pts.Nodup ∧
      ∀ pt, pt ∈ pts ↔ pt ∈ types.map toInt) ↔
    types.Nodup ∧ (∀ pt ∈ types, pt < 2 ^ 31) ∧ (types = [] ∨ types.length = k + 1) := by
  by_cases hnil : types = []
  · subst hnil
    exact iff_of_true ⟨[], by simp, List.nodup_nil, fun _ => Iff.rfl⟩
      ⟨List.nodup_nil, fun _ h => absurd h List.not_mem_nil, .inl rfl⟩
  · rw [joined_eq_intercalate]
    constructor
    · rintro ⟨pts, htext, hnodup, hpts⟩
      have hpts_ne : pts ≠ [] := by
        obtain ⟨pt, hpt⟩ := List.exists_mem_of_ne_nil types hnil
        exact List.ne_nil_of_mem ((hpts _).mpr (List.mem_map_of_mem hpt))
      have hwords := words_of_listed hpts_ne htext
      obtain ⟨text, hdrop⟩ := drop_of_words h32 hnodup (fun pt => (hpts pt).mp) hwords
      have hflat : [((types.map printed).drop k).flatten] = (types.map printed).drop k := by
        rw [hdrop]
        simp
      rw [hflat, List.take_append_drop, ← map_intDigits_ofNat] at hwords
      have hptseq : types.map Int.ofNat = pts :=
        List.map_injective_iff.mpr intDigits_injective hwords
      refine ⟨?_, ?_, .inr ?_⟩
      · rw [← hptseq] at hnodup
        exact hnodup.of_map _
      · intro p hp
        have hmem := (hpts (Int.ofNat p)).mp (by rw [← hptseq]; exact List.mem_map_of_mem hp)
        obtain ⟨q, hq, heq⟩ := List.mem_map.mp hmem
        have hq32 := h32 q hq
        unfold toInt at heq
        split at heq
        · have hpq : (q : Int) = p := heq
          omega
        · have hpq : (q : Int) - 2 ^ 32 = p := heq
          omega
      · have hlen := congrArg List.length hdrop
        rw [List.length_drop, List.length_map, List.length_singleton] at hlen
        omega
    · rintro ⟨hnodup, h31, hlen⟩
      have hlen := hlen.resolve_left hnil
      have hint : types.map toInt = types.map Int.ofNat :=
        List.map_congr_left fun pt hpt => if_pos (h31 pt hpt)
      refine ⟨types.map Int.ofNat, ?_, hnodup.map fun _ _ h => Int.ofNat.inj h, ?_⟩
      · have hdrop : ((types.map printed).drop k).length = 1 := by
          rw [List.length_drop, List.length_map]
          omega
        obtain ⟨last, hlast⟩ := List.length_eq_one_iff.mp hdrop
        have hflat : [((types.map printed).drop k).flatten] = (types.map printed).drop k := by
          rw [hlast]
          simp
        rw [hflat, List.take_append_drop, map_intDigits_ofNat]
      · intro pt
        rw [hint]

end Listed

/-- The payload types of a medium. -/
def payloadTypes (info : LocalSdp) (mediaType : MediaType) : List Nat :=
  (info.codecs mediaType).map RtpMap.payloadType

/-- The loop of the `m=audio` line puts a space behind every payload type but the last
one. -/
theorem audioPayloadTypes_eq (l : List RtpMap) :
    audioPayloadTypes true l =
      (let texts := ((l.filter fun rtp => rtp.mediaType = .audio).map RtpMap.payloadType).map
        printed
      joined ' ' (texts.take (texts.length - 1)) (texts.drop (texts.length - 1)).flatten) := by
  have hrest : ∀ l : List RtpMap, audioPayloadTypes false l =
      ((((l.filter fun rtp => rtp.mediaType = .audio).map RtpMap.payloadType).map printed).map
        fun text => ' ' :: text).flatten := by
    intro l
    induction l with
    | nil => rfl
    | cons rtp l ih =>
        by_cases haudio : rtp.mediaType = .audio
        · rw [audioPayloadTypes, if_pos haudio, List.filter_cons_of_pos (by simpa using haudio), ih]
          rfl
        · rw [audioPayloadTypes, if_neg haudio, List.filter_cons_of_neg (by simpa using haudio), ih]
  have hjoined : ∀ (texts : List Str) (text : Str),
      joined ' ' ((text :: texts).take texts.length) ((text :: texts).drop texts.length).flatten
        = text ++ (texts.map fun text => ' ' :: text).flatten := by
    intro texts
    induction texts with
    | nil => exact fun text => by simp
    | cons next texts ih =>
        intro text
        rw [List.length_cons, List.take_succ_cons, List.drop_succ_cons, joined_cons, ih next]
        rfl
  induction l with
  | nil => rfl
  | cons rtp l ih =>
      by_cases haudio : rtp.mediaType = .audio
      · rw [audioPayloadTypes, if_pos haudio, List.filter_cons_of_pos (by simpa using haudio),
          hrest l, List.map_cons, List.map_cons]
        dsimp only
        rw [List.length_cons, Nat.add_sub_cancel, hjoined]
        rfl
      · rw [audioPayloadTypes, if_neg haudio, List.filter_cons_of_neg (by simpa using haudio), ih]

/-- The loop of the `m=video` line puts a space behind as many payload types as the parser
has counted video codecs, but for one. -/
theorem videoPayloadTypes_eq (videoCodecs : Int) (l : List RtpMap) (codecCounter : Int) :
    videoPayloadTypes videoCodecs codecCounter l =
      (let texts := ((l.filter fun rtp => rtp.mediaType = .video).map RtpMap.payloadType).map
        printed
      let k := (videoCodecs - 1 - codecCounter).toNat
      joined ' ' (texts.take k) (texts.drop k).flatten) := by
  induction l generalizing codecCounter with
  | nil => simp [videoPayloadTypes]
  | cons rtp l ih =>
      by_cases hvideo : rtp.mediaType = .video
      · rw [videoPayloadTypes, if_pos hvideo, List.filter_cons_of_pos (by simpa using hvideo),
          ih (codecCounter + 1)]
        by_cases hcount : codecCounter + 1 < videoCodecs
        · have hk : (videoCodecs - 1 - codecCounter).toNat
              = (videoCodecs - 1 - (codecCounter + 1)).toNat + 1 := by omega
          rw [if_pos hcount, hk]
          simp
        · have hk : (videoCodecs - 1 - codecCounter).toNat = 0 := by omega
          have hk' : (videoCodecs - 1 - (codecCounter + 1)).toNat = 0 := by omega
          rw [if_neg hcount, hk, hk']
          simp
      · rw [videoPayloadTypes, if_neg hvideo, List.filter_cons_of_neg (by simpa using hvideo),
          ih codecCounter]

/-- The section of a medium among other lines. -/
theorem sectionOf_append {media mline : Str} {before rest after : List Str}
    (hbefore : ∀ line ∈ before, ("m=".toList ++ media).isPrefixOf line = false)
    (hmline : ("m=".toList ++ media).isPrefixOf mline = true)
    (hrest : ∀ line ∈ rest, "m=".toList.isPrefixOf line = false)
    (hafter : ∀ line ∈ after.head?, "m=".toList.isPrefixOf line = true) :
    sectionOf media (before ++ (mline :: rest ++ after)) = mline :: rest := by
  have hdrop : (before ++ (mline :: rest ++ after)).dropWhile
      (fun line => !("m=".toList ++ media).isPrefixOf line) = mline :: (rest ++ after) := by
    apply dropWhile_word
    · intro line hline
      rw [hbefore line hline]
      rfl
    · exact stops_cons _ (by rw [hmline]; rfl)
  have htake : (rest ++ after).takeWhile (fun line => !"m=".toList.isPrefixOf line) = rest := by
    apply takeWhile_word
    · intro line hline
      rw [hrest line hline]
      rfl
    · intro line hline
      show (!"m=".toList.isPrefixOf line) = false
      rw [hafter line hline]
      rfl
  unfold sectionOf
  rw [hdrop]
  exact congrArg _ htake

/-- No section. -/
theorem sectionOf_nil {media : Str} {lines : List Str}
    (h : ∀ line ∈ lines, ("m=".toList ++ media).isPrefixOf line = false) :
    sectionOf media lines = [] := by
  have hdrop : lines.dropWhile (fun line => !("m=".toList ++ media).isPrefixOf line) = [] := by
    rw [← List.append_nil lines]
    apply dropWhile_word
    · intro line hline
      rw [h line hline]
      rfl
    · exact stops_nil
  unfold sectionOf
  rw [hdrop]

/-- The first line of a section lists what its codecs map. -/
theorem lists_iff {media : Str} {profile : Profile} {lines head tail : List Str} {text : Str}
    {f : RtpMap → List Str} {codecs : List RtpMap} (hf : CodecLines f)
    (hmline : "a=rtpmap:".toList.isPrefixOf (mTitle media profile ++ text) = false)
    (hhead : Silent head) (htail : Silent tail) (hsection : sectionOf media lines =
      (mTitle media profile ++ text) :: (head ++ codecs.flatMap f ++ tail)) :
    Lists media profile lines ↔ ∃ pts : List Int, text = [' '].intercalate (pts.map intDigits) ∧
      pts.Nodup ∧ ∀ pt, pt ∈ pts ↔ pt ∈ (codecs.map RtpMap.payloadType).map toInt := by
  have hmapped := mapped_iff hf hmline hhead htail codecs
  unfold Lists
  rw [hsection]
  constructor
  · intro h
    obtain ⟨pts, htext, hnodup, hpts⟩ := h _ rfl
    refine ⟨pts, List.append_cancel_left htext, hnodup, ?_⟩
    intro pt
    rw [hpts, hmapped]
  · rintro ⟨pts, htext, hnodup, hpts⟩ mline hhd
    obtain rfl := Option.some.inj hhd
    refine ⟨pts, by rw [htext], hnodup, ?_⟩
    intro pt
    rw [hpts, hmapped]

/-- No line of a section but the first one is an `m=` line. -/
theorem no_mline {f : RtpMap → List Str} {head tail : List Str} (hf : CodecLines f)
    (hhead : Silent head) (htail : Silent tail) (codecs : List RtpMap) :
    ∀ line ∈ head ++ codecs.flatMap f ++ tail, "m=".toList.isPrefixOf line = false := by
  intro line hline
  rcases List.mem_append.mp hline with hline | hline
  · rcases List.mem_append.mp hline with hline | hline
    · exact (hhead line hline).1
    · obtain ⟨rtp, -, hline⟩ := List.mem_flatMap.mp hline
      obtain ⟨first, rest, heq, -, hrest, hfirst⟩ := hf.mapped rtp
      rw [heq] at hline
      rcases List.mem_cons.mp hline with rfl | hline
      · exact hfirst
      · exact (hrest line hline).1
  · exact (htail line hline).1

/-- The line is not that of any medium. -/
theorem no_media_of_no_mline {line : Str} (media : Str)
    (h : "m=".toList.isPrefixOf line = false) :
    ("m=".toList ++ media).isPrefixOf line = false := by
  by_contra hmedia
  have hpre : "m=".toList ++ media <+: line :=
    List.isPrefixOf_iff_prefix.mp (Bool.eq_true_of_not_eq_false hmedia)
  have hm : "m=".toList.isPrefixOf line = true :=
    List.isPrefixOf_iff_prefix.mpr ((List.prefix_append _ _).trans hpre)
  exact absurd (h.symm.trans hm) (by decide)

/-- The payload types are different, and as an `int` they are not negative. -/
def Listable (types : List Nat) : Prop := types.Nodup ∧ ∀ pt ∈ types, pt < 2 ^ 31

section

variable (info : LocalSdp) (flags : SdpFlags) (msidtemp : Str)

theorem no_media_sessionLines (media : Str) :
    ∀ line ∈ info.sessionLines msidtemp, ("m=".toList ++ media).isPrefixOf line = false :=
  fun line hline => no_media_of_no_mline media (info.silent_sessionLines msidtemp line hline).1

theorem payloadType_lt (h32 : ∀ rtp ∈ info.payloadVector, rtp.payloadType < 2 ^ 32)
    (mediaType : MediaType) : ∀ pt ∈ info.payloadTypes mediaType, pt < 2 ^ 32 := by
  intro pt hpt
  obtain ⟨rtp, hrtp, rfl⟩ := List.mem_map.mp hpt
  exact h32 rtp (List.mem_filter.mp hrtp).1

theorem lists_audio_iff (h32 : ∀ rtp ∈ info.payloadVector, rtp.payloadType < 2 ^ 32) :
    Lists "audio".toList info.profile (info.printedLines flags msidtemp) ↔
      (info.hasAudio = true → Listable (info.payloadTypes .audio)) := by
  have hsession := info.no_media_sessionLines msidtemp "audio".toList
  have hrest := no_mline codecLines_audio info.silent_audioHead
    (info.silent_audioTail flags msidtemp) (info.codecs .audio)
  have hrest' := no_mline (codecLines_video info flags) info.silent_videoHead
    (info.silent_videoTail msidtemp) (info.codecs .video)
  unfold printedLines
  by_cases haudio : info.hasAudio = true
  · rw [if_pos haudio, List.append_assoc]
    have hsection : sectionOf "audio".toList (info.sessionLines msidtemp ++
        (info.audioSection flags msidtemp ++
          if info.hasVideo then info.videoSection flags msidtemp else []))
        = info.audioSection flags msidtemp := by
      refine sectionOf_append hsession rfl hrest ?_
      split
      · intro line hline
        obtain rfl := Option.some.inj hline
        rfl
      · exact fun _ hline => absurd hline (Option.not_mem_none _)
    refine (lists_iff codecLines_audio rfl info.silent_audioHead
      (info.silent_audioTail flags msidtemp) hsection).trans ?_
    rw [audioPayloadTypes_eq]
    have hlisted := listed_iff (info.payloadTypes .audio)
      (((info.payloadTypes .audio).map printed).length - 1) (info.payloadType_lt h32 .audio)
    refine hlisted.trans ?_
    constructor
    · exact fun h _ => ⟨h.1, h.2.1⟩
    · intro h
      refine ⟨(h haudio).1, (h haudio).2, ?_⟩
      rw [List.length_map]
      rcases info.payloadTypes .audio with - | ⟨pt, pts⟩
      · exact .inl rfl
      · exact .inr rfl
  · rw [if_neg haudio, List.append_nil]
    have hnone : sectionOf "audio".toList (info.sessionLines msidtemp ++
        if info.hasVideo then info.videoSection flags msidtemp else []) = [] := by
      apply sectionOf_nil
      intro line hline
      rcases List.mem_append.mp hline with hline | hline
      · exact hsession line hline
      · split at hline
        · rcases List.mem_cons.mp hline with rfl | hline
          · rfl
          · exact no_media_of_no_mline _ (hrest' line hline)
        · exact absurd hline List.not_mem_nil
    unfold Lists
    rw [hnone]
    exact iff_of_true (fun _ h => absurd h (Option.not_mem_none _)) fun h => absurd h haudio

theorem lists_video_iff (h32 : ∀ rtp ∈ info.payloadVector, rtp.payloadType < 2 ^ 32) :
    Lists "video".toList info.profile (info.printedLines flags msidtemp) ↔
      (info.hasVideo = true → Listable (info.payloadTypes .video) ∧
        (info.payloadTypes .video = [] ∨
          ((info.payloadTypes .video).length : Int) = max info.videoCodecs 1)) := by
  have hrest := no_mline codecLines_audio info.silent_audioHead
    (info.silent_audioTail flags msidtemp) (info.codecs .audio)
  have hrest' := no_mline (codecLines_video info flags) info.silent_videoHead
    (info.silent_videoTail msidtemp) (info.codecs .video)
  have hbefore : ∀ line ∈ info.sessionLines msidtemp ++
      (if info.hasAudio then info.audioSection flags msidtemp else []),
      ("m=".toList ++ "video".toList).isPrefixOf line = false := by
    intro line hline
    rcases List.mem_append.mp hline with hline | hline
    · exact info.no_media_sessionLines msidtemp _ line hline
    · split at hline
      · rcases List.mem_cons.mp hline with rfl | hline
        · rfl
        · exact no_media_of_no_mline _ (hrest line hline)
      · exact absurd hline List.not_mem_nil
  unfold printedLines
  by_cases hvideo : info.hasVideo = true
  · rw [if_pos hvideo]
    have hsection : sectionOf "video".toList (info.sessionLines msidtemp ++
        (if info.hasAudio then info.audioSection flags msidtemp else []) ++
          (info.videoSection flags msidtemp ++ [])) = info.videoSection flags msidtemp :=
      sectionOf_append hbefore rfl hrest' fun _ hline => absurd hline (Option.not_mem_none _)
    rw [List.append_nil] at hsection
    refine (lists_iff (codecLines_video info flags) rfl info.silent_videoHead
      (info.silent_videoTail msidtemp) hsection).trans ?_
    rw [videoPayloadTypes_eq]
    have hlisted := listed_iff (info.payloadTypes .video) (info.videoCodecs - 1 - 0).toNat
      (info.payloadType_lt h32 .video)
    refine hlisted.trans ?_
    have hcount : (info.payloadTypes .video).length = (info.videoCodecs - 1 - 0).toNat + 1 ↔
        ((info.payloadTypes .video).length : Int) = max info.videoCodecs 1 := by
      omega
    rw [hcount]
    constructor
    · exact fun h _ => ⟨⟨h.1, h.2.1⟩, h.2.2⟩
    · exact fun h => ⟨(h hvideo).1.1, (h hvideo).1.2, (h hvideo).2⟩
  · rw [if_neg hvideo, List.append_nil]
    unfold Lists
    rw [sectionOf_nil hbefore]
    exact iff_of_true (fun _ h => absurd h (Option.not_mem_none _)) fun h => absurd h hvideo

/-- The `m=` lines of the text list what their sections map if and only if the payload types
of each section are different and fit an `int`, and the parser has counted those of the
video section. -/
theorem payload_lines_iff (h32 : ∀ rtp ∈ info.payloadVector, rtp.payloadType < 2 ^ 32)
    {info' : LocalSdp} {lines : List Str} (h : info.getSdp flags msidtemp = .ok (info', lines)) :
    Lists "audio".toList info.profile lines ∧ Lists "video".toList info.profile lines ↔
      (info.hasAudio = true → Listable (info.payloadTypes .audio)) ∧
      (info.hasVideo = true → Listable (info.payloadTypes .video) ∧
        (info.payloadTypes .video = [] ∨
          ((info.payloadTypes .video).length : Int) = max info.videoCodecs 1)) := by
  unfold getSdp at h
  split at h
  · cases h
  · obtain ⟨-, rfl⟩ := Prod.mk.inj (Except.ok.inj h)
    exact and_congr (info.lists_audio_iff flags msidtemp h32)
      (info.lists_video_iff flags msidtemp h32)

end

/-- A new description, turned into an offer. -/
def offerOfNew (isRedFecEnabled : Bool) : LocalSdp :=
  createOfferSdp { SdpInfo.new .vp8 isRedFecEnabled with }

theorem payload_lines_without_fec :
    Lists "video".toList .savpf ((offerOfNew false).printedLines {} "0123456789".toList) :=
  ((payload_lines_iff (offerOfNew false) {} "0123456789".toList (by decide) rfl).mpr
    (by unfold Listable; decide)).2

/-- The offer of a client with RED and FEC: its `m=video` line ends with `100116117`. -/
theorem not_payload_lines : ¬ ∀ (info : LocalSdp) (flags : SdpFlags) (msidtemp : Str)
    (info' : LocalSdp) (lines : List Str), (∀ rtp ∈ info.payloadVector, rtp.payloadType < 2 ^ 32) →
    info.getSdp flags msidtemp = .ok (info', lines) →
    Lists "audio".toList info.profile lines ∧ Lists "video".toList info.profile lines := by
  intro h
  have hvideo := (h (offerOfNew true) {} "0123456789".toList _ _ (by decide) rfl).2
  have hcount := ((lists_video_iff (offerOfNew true) {} "0123456789".toList (by decide)).mp hvideo
    rfl).2
  exact absurd hcount (by decide)

end LocalSdp

end Orbit.Sdp
