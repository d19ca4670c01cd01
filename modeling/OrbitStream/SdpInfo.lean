/-
OrbitStream/SdpInfo.lean

The parser of session descriptions (`sdp_info.h`, `sdp_info.cc`).

`processSdp` goes through the lines of a description.  Every line is searched for the
tags of all attributes, and each tag that occurs anywhere in the line runs its own
block: most blocks split the line at separators and index the pieces.  Feedback lines
are kept, and attached to the payload types when all lines were read.

A string is a list of characters.  An access to a vector of pieces that is out of its
range is a fault of the parser, and so is a loop that does not end.
-/
import Mathlib.Algebra.Group.Int.Defs
import Mathlib.Algebra.Group.Nat.Defs
import Mathlib.Data.Finset.Card

namespace Orbit.Sdp

/-- `std::string`. -/
abbrev Str := List Char

/-! ### Strings -/

/-- The loop of `splitOneOf`: `cur` is what was read since the last separator, and
`splits` the number of separators used so far. -/
def splitLoop (delims : Str) (maxSplits : Nat) : Nat → Str → Str → List Str
  | _, cur, [] => if cur = [] then [] else [cur]
  | splits, cur, ch :: rest =>
    if (maxSplits = 0 ∨ splits < maxSplits) ∧ ch ∈ delims then
      cur :: splitLoop delims maxSplits (splits + 1) [] rest
    else splitLoop delims maxSplits splits (cur ++ [ch]) rest

/-- `stringutil::splitOneOf`: an empty last piece is left out. -/
def splitOneOf (str delims : Str) (maxSplits : Nat) : List Str :=
  splitLoop delims maxSplits 0 [] str

/-- `std::getline` to the end of the input: a last line that is empty is not read. -/
def getlines (str : Str) : List Str := splitOneOf str ['\n'] 0

/-- `line.find(tag) != std::string::npos`. -/
def contains (line : Str) (tag : String) : Bool := line.tails.any tag.toList.isPrefixOf

/-- The digits at the start of a string. -/
def digits : Str → Nat → Nat
  | [], n => n
  | ch :: rest, n => if ch.isDigit then digits rest (10 * n + (ch.toNat - 48)) else n

def isSpace (ch : Char) : Bool := ch ∈ [' ', '\t', '\n', '\r', Char.ofNat 11, Char.ofNat 12]

/-- `strtoul` of base 10: numbers out of range give `ULONG_MAX`, and a minus sign
negates the result. -/
def strtoul (str : Str) : Nat :=
  match str.dropWhile isSpace with
  | '-' :: rest =>
    let n := digits rest 0
    if n < 2 ^ 64 then (2 ^ 64 - n) % 2 ^ 64 else 2 ^ 64 - 1
  | '+' :: rest => min (digits rest 0) (2 ^ 64 - 1)
  | rest => min (digits rest 0) (2 ^ 64 - 1)

/-- `strtoul`, assigned to an `unsigned int`. -/
def strtoui (str : Str) : Nat := strtoul str % 2 ^ 32

/-- An `unsigned int`, assigned to an `int`. -/
def toInt (n : Nat) : Int := if n < 2 ^ 31 then (n : Int) else (n : Int) - 2 ^ 32

/-! ### The data of a description -/

inductive HostType
  | host
  | srflx
  | prflx
  | relay
  deriving DecidableEq, Repr

inductive MediaType
  | video
  | audio
  | other
  deriving DecidableEq, Repr

inductive StreamDirection
  | sendRecv
  | sendOnly
  | recvOnly
  deriving DecidableEq, Repr

inductive Profile
  | avpf
  | savpf
  deriving DecidableEq, Repr

structure CryptoInfo where
  tag : Int := 0
  cipherSuite : Str
  keyParams : Str
  mediaType : MediaType
  deriving DecidableEq, Repr

structure CandidateInfo where
  isBundle : Bool := false
  tag : Int := 0
  priority : Nat
  componentId : Nat
  foundation : Str
  hostAddress : Str
  rAddress : Str := []
  hostPort : Int
  rPort : Int := 0
  netProtocol : Str
  hostType : HostType
  transProtocol : Str := []
  username : Str := []
  password : Str := []
  mediaType : MediaType
  deriving DecidableEq, Repr

structure BundleTag where
  id : Str
  mediaType : MediaType
  deriving DecidableEq, Repr

structure RtpMap where
  payloadType : Nat
  encodingName : Str
  clockRate : Nat
  mediaType : MediaType
  channels : Nat := 0
  feedbackTypes : List Str := []
  formatParameters : Std.TreeMap Str Str := ∅

/-- `SdpInfo`: the members that the parser reads or writes.  `internalPayloadVector` is
what `InitializeRtpMap` filled in. -/
structure SdpInfo where
  candidateVector : List CandidateInfo := []
  cryptoVector : List CryptoInfo := []
  internalPayloadVector : List RtpMap := []
  iceVideoUsername : Str := []
  iceAudioUsername : Str := []
  iceVideoPassword : Str := []
  iceAudioPassword : Str := []
  audioSsrc : Nat := 0
  videoSsrc : Nat := 0
  videoRtxSsrc : Nat := 0
  isBundle : Bool := false
  hasAudio : Bool := false
  hasVideo : Bool := false
  isRtcpMux : Bool := false
  videoDirection : StreamDirection := .sendRecv
  audioDirection : StreamDirection := .sendRecv
  profile : Profile := .savpf
  isFingerprint : Bool := false
  fingerprint : Str := []
  inOutPTMap : Std.TreeMap Nat Nat := ∅
  outInPTMap : Std.TreeMap Nat Nat := ∅
  payloadVector : List RtpMap := []
  bundleTags : List BundleTag := []
  videoSdpMLine : Int := -1
  audioSdpMLine : Int := -1
  videoCodecs : Int := 0
  audioCodecs : Int := 0
  videoBandwidth : Nat := 0

/-- What can go wrong: an access at `index` of a vector of `size` pieces, or a loop that
does not end. -/
inductive Fault
  | outOfRange (index size : Nat)
  | endless
  deriving DecidableEq, Repr

/-- `pieces[i]`. -/
def piece (pieces : List Str) (i : Nat) : Except Fault Str :=
  match pieces[i]? with
  | some s => .ok s
  | none => .error (.outOfRange i pieces.length)

/-! ### Candidates -/

/-- The host type that `types_str` gives for a piece; `HOST` if there is none. -/
def hostType (s : Str) : HostType :=
  if s = "relay".toList then .relay
  else if s = "prflx".toList then .prflx
  else if s = "srflx".toList then .srflx
  else .host

/-- `processCandidate`. -/
def processCandidate (info : SdpInfo) (pieces : List Str) (mediaType : MediaType) :
    Except Fault (SdpInfo × Bool) := do
  let foundation ← piece pieces 1
  let componentId ← piece pieces 2
  let netProtocol ← piece pieces 3
  if netProtocol ≠ "UDP".toList ∧ netProtocol ≠ "udp".toList then return (info, false)
  else
    let priority ← piece pieces 4
    let hostAddress ← piece pieces 5
    let hostPort ← piece pieces 6
    let typ ← piece pieces 7
    if typ ≠ "typ".toList then return (info, false)
    else
      let type ← piece pieces 8
      let cand : CandidateInfo :=
        { mediaType := mediaType
          foundation := foundation
          componentId := strtoui componentId
          netProtocol := netProtocol
          priority := strtoui priority
          hostAddress := hostAddress
          hostPort := toInt (strtoui hostPort)
          hostType := hostType type }
      if cand.hostType = .srflx ∨ cand.hostType = .relay then
        let rAddress ← piece pieces 10
        let rPort ← piece pieces 12
        let cand := { cand with rAddress := rAddress, rPort := toInt (strtoui rPort) }
        return ({ info with candidateVector := info.candidateVector ++ [cand] }, true)
      else return ({ info with candidateVector := info.candidateVector ++ [cand] }, true)

/-! ### Lines -/

/-- The state of `processSdp` between two lines: the description, and its local
variables. -/
structure Parser where
  info : SdpInfo
  mlineNum : Int := -1
  mtype : MediaType
  tmpFeedbackVector : List Str := []

/-- A member of the description that exists for each direction of the current media. -/
def setDirection (s : Parser) (d : StreamDirection) : Parser :=
  if s.mtype = .audio then { s with info := { s.info with audioDirection := d } }
  else { s with info := { s.info with videoDirection := d } }

/-- The blocks that only look for a tag: `a=rtcp-mux`, the directions and `SAVPF`. -/
def lineFlags (s : Parser) (line : Str) : Parser :=
  let s :=
    if contains line "a=rtcp-mux" then { s with info := { s.info with isRtcpMux := true } } else s
  let s :=
    if contains line "a=recvonly" then setDirection s .recvOnly
    else if contains line "a=sendonly" then setDirection s .sendOnly
    else if contains line "a=sendrecv" then setDirection s .sendRecv
    else s
  if contains line "SAVPF" then { s with info := { s.info with profile := .savpf } } else s

/-- `a=fingerprint`. -/
def lineFingerprint (s : Parser) (line : Str) : Except Fault Parser :=
  if contains line "a=fingerprint" then do
    let part ← piece (splitOneOf line [':'] 1) 1
    let fingerprint ← piece (splitOneOf part [' '] 0) 1
    return { s with info := { s.info with fingerprint := fingerprint, isFingerprint := true } }
  else return s

/-- The pieces of a line with the tag `a=group:`. -/
def groupParts (line : Str) : List Str := splitOneOf line [':', ' ', ' ', '\r', '\n'] 10

/-- `a=group:`. -/
def lineGroup (s : Parser) (line : Str) : Except Fault Parser :=
  if contains line "a=group:" then do
    let parts := groupParts line
    let kind ← piece parts 1
    let tags := (parts.drop 2).map fun id => ({ id := id, mediaType := .other } : BundleTag)
    return { s with
      info := { s.info with
        isBundle := if kind = "BUNDLE".toList then true else s.info.isBundle
        bundleTags := s.info.bundleTags ++ tags } }
  else return s

/-- `m=video` and `m=audio`. -/
def lineMedia (s : Parser) (line : Str) : Parser :=
  let s :=
    if contains line "m=video" then
      { s with
        mlineNum := s.mlineNum + 1
        mtype := .video
        info := { s.info with videoSdpMLine := s.mlineNum + 1, hasVideo := true } }
    else s
  if contains line "m=audio" then
    { s with
      mlineNum := s.mlineNum + 1
      mtype := .audio
      info := { s.info with audioSdpMLine := s.mlineNum + 1, hasAudio := true } }
  else s

/-- `a=candidate:`. -/
def lineCandidate (s : Parser) (line : Str) : Except Fault Parser :=
  if contains line "a=candidate:" then do
    let r ← processCandidate s.info (splitOneOf line [' ', ':'] 0) s.mtype
    return { s with info := r.1 }
  else return s

/-- `a=crypto:`. -/
def lineCrypto (s : Parser) (line : Str) : Except Fault Parser :=
  if contains line "a=crypto:" then do
    let cryptopiece := splitOneOf line [' ', ':'] 0
    let cipherSuite ← piece cryptopiece 2
    let keyParams ← piece cryptopiece 4
    let crypinfo : CryptoInfo :=
      { cipherSuite := cipherSuite, keyParams := keyParams, mediaType := s.mtype }
    return { s with info := { s.info with cryptoVector := s.info.cryptoVector ++ [crypinfo] } }
  else return s

/-- `a=ice-ufrag` and `a=ice-pwd`: what follows the first colon is stored by `set`. -/
def lineCredential (tag : String) (set : Parser → Str → SdpInfo) (s : Parser) (line : Str) :
    Except Fault Parser :=
  if contains line tag then do
    let value ← piece (splitOneOf line [':'] 1) 1
    match splitOneOf value ['\r'] 1 with
    | [] => return s
    | part :: _ => return { s with info := set s part }
  else return s

/-- `a=ice-ufrag`. -/
def lineUser : Parser → Str → Except Fault Parser :=
  lineCredential "a=ice-ufrag" fun s value =>
    if s.mtype = .audio then { s.info with iceAudioUsername := value }
    else { s.info with iceVideoUsername := value }

/-- `a=ice-pwd`. -/
def linePass : Parser → Str → Except Fault Parser :=
  lineCredential "a=ice-pwd" fun s value =>
    if s.mtype = .audio then { s.info with iceAudioPassword := value }
    else { s.info with iceVideoPassword := value }

/-- `a=mid`.  The tags are counted by a `uint8_t`, so the loop over them does not end
if there are more than 255. -/
def lineMid (s : Parser) (line : Str) : Except Fault Parser :=
  if contains line "a=mid" then
    match splitOneOf line [':', ' ', '\r', '\n'] 4 with
    | _ :: thisId :: _ =>
      if s.info.bundleTags.length ≤ 255 then
        .ok { s with
          info := { s.info with
            bundleTags := s.info.bundleTags.map fun tag =>
              if tag.id = thisId then { tag with mediaType := s.mtype } else tag } }
      else .error .endless
    | _ => .ok s
  else .ok s

/-- `a=ssrc`: the first one of each media is stored. -/
def lineSsrc (s : Parser) (line : Str) : Except Fault Parser :=
  if contains line "a=ssrc" then
    let parts := splitOneOf line [' ', ':'] 2
    if s.mtype = .video ∧ s.info.videoSsrc = 0 then do
      let ssrc ← piece parts 1
      return { s with info := { s.info with videoSsrc := strtoui ssrc } }
    else if s.mtype = .audio ∧ s.info.audioSsrc = 0 then do
      let ssrc ← piece parts 1
      return { s with info := { s.info with audioSsrc := strtoui ssrc } }
    else .ok s
  else .ok s

/-- `a=ssrc-group`. -/
def lineSsrcGroup (s : Parser) (line : Str) : Parser :=
  if contains line "a=ssrc-group" ∧ s.mtype = .video then
    match splitOneOf line [' ', ':'] 10 with
    | _ :: _ :: _ :: ssrc :: _ => { s with info := { s.info with videoRtxSsrc := strtoui ssrc } }
    | _ => s
  else s

/-- The body of the loop over `internalPayloadVector_`, with what is known of the new
entry: is it found, and under which payload type and with how many channels? -/
def matchCodec (pt : Nat) (codecname : Str) (clock : Nat) (acc : SdpInfo × RtpMap × Bool)
    (rtp : RtpMap) : SdpInfo × RtpMap × Bool :=
  if rtp.encodingName = codecname ∧ rtp.clockRate = clock then
    ({ acc.1 with
        outInPTMap := acc.1.outInPTMap.insert pt rtp.payloadType
        inOutPTMap := acc.1.inOutPTMap.insert rtp.payloadType pt },
      { acc.2.1 with channels := rtp.channels, payloadType := rtp.payloadType }, true)
  else acc

/-- The mapping of a payload type is looked up in the internal list, and added to the
negotiated one if it is there. -/
def addRtpMap (s : Parser) (pt : Nat) (codecname : Str) (clock : Nat) : Parser :=
  let theMap : RtpMap :=
    { payloadType := pt, encodingName := codecname, clockRate := clock, mediaType := s.mtype }
  let (info, theMap, found) := s.info.internalPayloadVector.foldl
    (matchCodec pt codecname clock) (s.info, theMap, false)
  if found then
    let info :=
      if theMap.mediaType = .video then { info with videoCodecs := info.videoCodecs + 1 }
      else { info with audioCodecs := info.audioCodecs + 1 }
    { s with info := { info with payloadVector := info.payloadVector ++ [theMap] } }
  else { s with info := info }

/-- `a=rtpmap:`. -/
def lineRtpmap (s : Parser) (line : Str) : Except Fault Parser :=
  if contains line "a=rtpmap:" then do
    let parts := splitOneOf line [' ', ':', '/', '\n'] 4
    let ptStr ← piece parts 1
    let codecname ← piece parts 2
    let clockStr ← piece parts 3
    return addRtpMap s (strtoui ptStr) codecname (strtoui clockStr)
  else return s

/-- `a=rtcp-fb:`: the line is kept. -/
def lineFeedback (s : Parser) (line : Str) : Parser :=
  if contains line "a=rtcp-fb:" then
    { s with tmpFeedbackVector := s.tmpFeedbackVector ++ [line] }
  else s

/-- `a=fmtp:`. -/
def lineFmtp (s : Parser) (line : Str) : Parser :=
  let save (pt : Nat) (option value : Str) : Parser :=
    { s with
      info := { s.info with
        payloadVector := s.info.payloadVector.map fun rtp =>
          if rtp.payloadType = pt then
            { rtp with formatParameters := rtp.formatParameters.insert option value }
          else rtp } }
  if contains line "a=fmtp:" then
    match splitOneOf line [' ', ':', '='] 4 with
    | [_, _, ptStr, value] => save (strtoui ptStr) "none".toList value
    | _ :: _ :: ptStr :: option :: value :: _ => save (strtoui ptStr) option value
    | _ => s
  else s

/-- `b=AS:`. -/
def lineBandwidth (s : Parser) (line : Str) : Parser :=
  if contains line "b=AS:" ∧ s.mtype = .video then
    match splitOneOf line [':'] 2 with
    | _ :: bandwidth :: _ => { s with info := { s.info with videoBandwidth := strtoui bandwidth } }
    | _ => s
  else s

/-- The body of the loop over the lines. -/
def processLine (s : Parser) (line : Str) : Except Fault Parser := do
  let s ← lineFingerprint (lineFlags s line) line
  let s ← lineGroup s line
  let s ← lineCandidate (lineMedia s line) line
  let s ← lineCrypto s line
  let s ← lineUser s line
  let s ← linePass s line
  let s ← lineMid s line
  let s ← lineSsrc s line
  let s ← lineRtpmap (lineSsrcGroup s line) line
  return lineBandwidth (lineFmtp (lineFeedback s line) line) line

/-! ### Descriptions -/

/-- Missing credentials are taken from the other media. -/
def shareCredentials (info : SdpInfo) : SdpInfo :=
  if info.iceVideoUsername = [] then
    { info with
      iceVideoUsername := info.iceAudioUsername
      iceVideoPassword := info.iceAudioPassword }
  else if info.iceAudioUsername = [] then
    { info with
      iceAudioUsername := info.iceVideoUsername
      iceAudioPassword := info.iceVideoPassword }
  else info

/-- The candidates get the credentials of their media. -/
def completeCandidates (info : SdpInfo) : SdpInfo :=
  { info with
    candidateVector := info.candidateVector.map fun c =>
      if c.mediaType = .video then
        { c with
          isBundle := info.isBundle
          username := info.iceVideoUsername
          password := info.iceVideoPassword }
      else
        { c with
          isBundle := info.isBundle
          username := info.iceAudioUsername
          password := info.iceAudioPassword } }

/-- A feedback line is attached to the entries of its payload type. -/
def attachFeedback (info : SdpInfo) (line : Str) : Except Fault SdpInfo := do
  let parts := splitOneOf line [' ', ':'] 2
  let ptStr ← piece parts 1
  let feedback ← piece parts 2
  return { info with
    payloadVector := info.payloadVector.map fun rtp =>
      if rtp.payloadType = strtoui ptStr then
        { rtp with feedbackTypes := rtp.feedbackTypes ++ [feedback] }
      else rtp }

/-- The media type that `processSdp` starts with. -/
def initialMedia (media : Str) : MediaType :=
  if media = "audio".toList then .audio
  else if media = "video".toList then .video
  else .other

/-- What follows the loop over the lines. -/
def finish (s : Parser) : Except Fault (SdpInfo × Bool) :=
  if s.info.iceVideoUsername = [] ∧ s.info.iceAudioUsername = [] then .ok (s.info, false)
  else do
    let info ←
      s.tmpFeedbackVector.foldlM attachFeedback (completeCandidates (shareCredentials s.info))
    return (info, true)

/-- `processSdp`. -/
def processSdp (info : SdpInfo) (sdp media : Str) : Except Fault (SdpInfo × Bool) := do
  let s ← (getlines sdp).foldlM processLine { info := info, mtype := initialMedia media }
  finish s

end Orbit.Sdp
