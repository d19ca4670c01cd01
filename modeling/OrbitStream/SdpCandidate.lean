/-
OrbitStream/SdpCandidate.lean

The text of an ICE candidate (`CandidateInfo` of `sdp_info.h`): `ToString`, `FromString`,
which reads it with a stream, and the block of `processSdp` for the line, which splits it at
spaces and colons.

`FromString` reads every candidate back whose fields are tokens.  `processSdp` does so if
and only if there is no colon in the fields, and the protocol is `UDP` or `udp`
(`recovers_iff`): it loses every candidate with an IPv6 address.
-/
import Mathlib.Data.List.TakeWhile
import OrbitStream.Lib.Text
import OrbitStream.SdpInfo

namespace Orbit.Sdp

open Lib

/-! ### `std::istringstream` -/

/-- A stream in front of `rest`, with `eofbit` and `failbit`. -/
structure IStringStream where
  rest : Str
  eof : Bool := false
  fail : Bool := false

namespace IStringStream

/-- The sentry of an extraction: a stream that is not good fails, and so does one that only
has whitespace left. -/
def sentry (ss : IStringStream) : IStringStream :=
  if ss.eof ∨ ss.fail then { ss with fail := true }
  else
    match ss.rest.dropWhile isSpace with
    | [] => { rest := [], eof := true, fail := true }
    | ch :: rest => { ss with rest := ch :: rest }

/-- `ss >> s` for a string whose value is `old`. -/
def getString (ss : IStringStream) (old : Str) : Str × IStringStream :=
  let ss := ss.sentry
  if ss.fail then (old, ss)
  else
    let rest := ss.rest.dropWhile fun ch => !isSpace ch
    (ss.rest.takeWhile fun ch => !isSpace ch, { rest := rest, eof := rest.isEmpty })

/-- The sign and the digits at the start of a number, and what follows. -/
def scanNumber (str : Str) : Bool × Str × Str :=
  let (negative, digits) :=
    match str with
    | '-' :: digits => (true, digits)
    | '+' :: digits => (false, digits)
    | digits => (false, digits)
  (negative, digits.takeWhile Char.isDigit, digits.dropWhile Char.isDigit)

/-- `ss >> n` for an `unsigned int` whose value is `old`. -/
def getUnsigned (ss : IStringStream) (old : Nat) : Nat × IStringStream :=
  let ss := ss.sentry
  if ss.fail then (old, ss)
  else
    let (negative, digits, rest) := scanNumber ss.rest
    let value := Nat.ofDigitChars 10 digits 0
    if digits = [] then (0, { rest := rest, eof := rest.isEmpty, fail := true })
    else if 2 ^ 32 ≤ value then (2 ^ 32 - 1, { rest := rest, eof := rest.isEmpty, fail := true })
    else
      (if negative then (2 ^ 32 - value) % 2 ^ 32 else value,
        { rest := rest, eof := rest.isEmpty })

/-- `ss >> n` for an `int` whose value is `old`. -/
def getInt (ss : IStringStream) (old : Int) : Int × IStringStream :=
  let ss := ss.sentry
  if ss.fail then (old, ss)
  else
    let (negative, digits, rest) := scanNumber ss.rest
    let value : Int := Nat.ofDigitChars 10 digits 0
    let value := if negative then -value else value
    if digits = [] then (0, { rest := rest, eof := rest.isEmpty, fail := true })
    else if value < -2 ^ 31 then
      (-2 ^ 31, { rest := rest, eof := rest.isEmpty, fail := true })
    else if 2 ^ 31 ≤ value then
      (2 ^ 31 - 1, { rest := rest, eof := rest.isEmpty, fail := true })
    else (value, { rest := rest, eof := rest.isEmpty })

end IStringStream

/-! ### The two functions of `CandidateInfo` -/

/-- `hostType_str` in `ToString`. -/
def hostTypeStr : HostType → Str
  | .host => "host".toList
  | .srflx => "srflx".toList
  | .prflx => "prflx".toList
  | .relay => "relay".toList

namespace CandidateInfo

/-- `ToString`. -/
def toString (cand : CandidateInfo) : Str :=
  "a=candidate:".toList ++
  (cand.foundation ++ " ".toList ++ Nat.toDigits 10 cand.componentId ++ " ".toList ++
    cand.netProtocol ++ " ".toList ++ Nat.toDigits 10 cand.priority ++ " ".toList ++
    cand.hostAddress ++ " ".toList ++ intDigits cand.hostPort ++ " typ ".toList ++
    hostTypeStr cand.hostType) ++
  (if cand.hostType = .srflx ∨ cand.hostType = .relay then
    " raddr ".toList ++ cand.rAddress ++ " rport ".toList ++ intDigits cand.rPort
  else []) ++
  " generation 0".toList

/-- `FromString`, into a candidate `cand`; `none` if `substr` throws. -/
def fromString (cand : CandidateInfo) (s : Str) : Option CandidateInfo :=
  let sdpHeadLen := 12
  if s.length < sdpHeadLen then none
  else
    let ss : IStringStream := { rest := s.drop sdpHeadLen }
    let (foundation, ss) := ss.getString cand.foundation
    let (componentId, ss) := ss.getUnsigned cand.componentId
    let (netProtocol, ss) := ss.getString cand.netProtocol
    let (priority, ss) := ss.getUnsigned cand.priority
    let (hostAddress, ss) := ss.getString cand.hostAddress
    let (hostPort, ss) := ss.getInt cand.hostPort
    let (placeholder, ss) := ss.getString []
    let (hostType_str, ss) := ss.getString []
    let hostType : HostType :=
      if hostType_str = "host".toList then .host
      else if hostType_str = "srflx".toList then .srflx
      else if hostType_str = "prflx".toList then .prflx
      else if hostType_str = "relay".toList then .relay
      else .host
    let cand := { cand with
      foundation := foundation
      componentId := componentId
      netProtocol := netProtocol
      priority := priority
      hostAddress := hostAddress
      hostPort := hostPort
      hostType := hostType }
    if hostType = .srflx ∨ hostType = .relay then
      let (placeholder, ss) := ss.getString placeholder
      let (rAddress, ss) := ss.getString cand.rAddress
      let (_, ss) := ss.getString placeholder
      let (rPort, _) := ss.getInt cand.rPort
      some { cand with rAddress := rAddress, rPort := rPort }
    else some cand

end CandidateInfo

/-! ### What is recovered -/

/-- A word of a text: not empty, without whitespace. -/
structure Token (s : Str) : Prop where
  ne_nil : s ≠ []
  no_space : ∀ ch ∈ s, isSpace ch = false

instance : DecidablePred Token := fun s =>
  decidable_of_iff (s ≠ [] ∧ (s.all fun ch => !isSpace ch) = true) (by
    rw [List.all_eq_true]
    constructor
    · rintro ⟨hne, hall⟩
      exact ⟨hne, fun ch hch => by simpa using hall ch hch⟩
    · rintro ⟨hne, hall⟩
      exact ⟨hne, fun ch hch => by simpa using hall ch hch⟩)

/-- A related address is printed. -/
def CandidateInfo.Related (cand : CandidateInfo) : Prop :=
  cand.hostType = .srflx ∨ cand.hostType = .relay

instance : DecidablePred CandidateInfo.Related := fun _ => inferInstanceAs (Decidable (_ ∨ _))

/-- The strings that are printed are tokens, and the numbers have their types. -/
structure CandidateInfo.Printable (cand : CandidateInfo) : Prop where
  foundation : Token cand.foundation
  netProtocol : Token cand.netProtocol
  hostAddress : Token cand.hostAddress
  rAddress : cand.Related → Token cand.rAddress
  componentId : cand.componentId < 2 ^ 32
  priority : cand.priority < 2 ^ 32
  hostPort : -2 ^ 31 ≤ cand.hostPort ∧ cand.hostPort < 2 ^ 31
  rPort : -2 ^ 31 ≤ cand.rPort ∧ cand.rPort < 2 ^ 31

/-- The fields that `ToString` prints are those of the other candidate. -/
structure CandidateInfo.SamePrinted (cand other : CandidateInfo) : Prop where
  foundation : other.foundation = cand.foundation
  componentId : other.componentId = cand.componentId
  netProtocol : other.netProtocol = cand.netProtocol
  priority : other.priority = cand.priority
  hostAddress : other.hostAddress = cand.hostAddress
  hostPort : other.hostPort = cand.hostPort
  hostType : other.hostType = cand.hostType
  related : cand.Related → other.rAddress = cand.rAddress ∧ other.rPort = cand.rPort

/-- The block for the line adds a candidate with the printed fields. -/
def LineRecovers (s : Parser) (cand : CandidateInfo) : Prop :=
  ∃ other, cand.SamePrinted other ∧ lineCandidate s cand.toString = .ok { s with
    info := { s.info with candidateVector := s.info.candidateVector ++ [other] } }

/-- The block for the line takes the protocol, and no field has a separator in it. -/
structure CandidateInfo.Plain (cand : CandidateInfo) : Prop where
  udp : cand.netProtocol = "UDP".toList ∨ cand.netProtocol = "udp".toList
  foundation : ':' ∉ cand.foundation
  hostAddress : ':' ∉ cand.hostAddress
  rAddress : cand.Related → ':' ∉ cand.rAddress

/-! ### The words of the text -/

/-- What is printed of the related address. -/
def CandidateInfo.relatedWords (cand : CandidateInfo) : List Str :=
  if cand.Related then
    ["raddr".toList, cand.rAddress, "rport".toList, intDigits cand.rPort]
  else []

/-- The words of the text but for the last one. -/
def CandidateInfo.words (cand : CandidateInfo) : List Str :=
  cand.foundation :: Nat.toDigits 10 cand.componentId :: cand.netProtocol ::
    Nat.toDigits 10 cand.priority :: cand.hostAddress :: intDigits cand.hostPort ::
    "typ".toList :: hostTypeStr cand.hostType :: (cand.relatedWords ++ ["generation".toList])

theorem toString_eq (cand : CandidateInfo) :
    cand.toString = "a=candidate:".toList ++ joined ' ' cand.words ['0'] := by
  unfold CandidateInfo.toString CandidateInfo.words CandidateInfo.relatedWords
  by_cases hrel : cand.hostType = .srflx ∨ cand.hostType = .relay
  · have hrelated : cand.Related := hrel
    rw [if_pos hrel, if_pos hrelated]
    simp
  · have hrelated : ¬ cand.Related := hrel
    rw [if_neg hrel, if_neg hrelated]
    simp

theorem isSpace_of_isDigit {ch : Char} (h : ch.isDigit = true) : isSpace ch = false := by
  by_contra hspace
  have hmem : ch ∈ [' ', '\t', '\n', '\r', Char.ofNat 11, Char.ofNat 12] :=
    of_decide_eq_true (Bool.eq_true_of_not_eq_false hspace)
  simp only [List.mem_cons, List.not_mem_nil, or_false] at hmem
  rcases hmem with rfl | rfl | rfl | rfl | rfl | rfl <;> exact absurd h (by decide)

theorem token_toDigits (n : Nat) : Token (Nat.toDigits 10 n) :=
  ⟨Nat.toDigits_ne_nil, fun _ hch => isSpace_of_isDigit (isDigit_toDigits hch)⟩

theorem token_intDigits (i : Int) : Token (intDigits i) := by
  refine ⟨intDigits_ne_nil i, ?_⟩
  intro ch hch
  rcases mem_intDigits hch with rfl | hdigit
  · decide
  · exact isSpace_of_isDigit hdigit

theorem token_hostTypeStr (type : HostType) : Token (hostTypeStr type) := by
  cases type <;> decide

/-! ### The stream -/

section Stream

variable {lead word rest last : Str} {words : List Str}

/-- The sentry skips the space in front of a word. -/
theorem sentry_word (hlead : ∀ ch ∈ lead, isSpace ch = true) (hword : Token word) :
    ({ rest := lead ++ word ++ rest } : IStringStream).sentry = { rest := word ++ rest } := by
  rcases hw : word with - | ⟨ch, tail⟩
  · exact absurd hw hword.ne_nil
  · have hch : isSpace ch = false := hword.no_space ch (by rw [hw]; exact List.mem_cons_self)
    have hskip : (lead ++ (ch :: tail ++ rest)).dropWhile isSpace = ch :: tail ++ rest :=
      dropWhile_word hlead (stops_cons _ hch)
    unfold IStringStream.sentry
    rw [if_neg (by simp), List.append_assoc, hskip]
    rfl

theorem getString_word (hlead : ∀ ch ∈ lead, isSpace ch = true) (hword : Token word)
    (old : Str) :
    ({ rest := lead ++ joined ' ' (word :: words) last } : IStringStream).getString old
      = (word, { rest := [' '] ++ joined ' ' words last }) := by
  have hin : ∀ ch ∈ word, (!isSpace ch) = true := fun ch hch => by
    rw [hword.no_space ch hch]
    rfl
  have hstop : Stops (fun ch => !isSpace ch) (' ' :: joined ' ' words last) :=
    stops_cons _ rfl
  unfold IStringStream.getString
  rw [joined_cons, ← List.append_assoc, sentry_word hlead hword]
  dsimp only
  rw [if_neg (by decide), takeWhile_word hin hstop, dropWhile_word hin hstop]
  rfl

/-- The digits of a number that is printed. -/
theorem scanNumber_toDigits (n : Nat) :
    IStringStream.scanNumber (Nat.toDigits 10 n ++ ' ' :: rest)
      = (false, Nat.toDigits 10 n, ' ' :: rest) := by
  have hstop : Stops Char.isDigit (' ' :: rest) := stops_cons rest (by decide)
  obtain ⟨ch, tail, hdigits, hch⟩ := toDigits_eq_cons n
  have hsign : ch ≠ '-' ∧ ch ≠ '+' := by
    constructor
    · rintro rfl
      exact absurd hch (by decide)
    · rintro rfl
      exact absurd hch (by decide)
  have hplain : IStringStream.scanNumber (Nat.toDigits 10 n ++ ' ' :: rest) = (false,
      (Nat.toDigits 10 n ++ ' ' :: rest).takeWhile Char.isDigit,
      (Nat.toDigits 10 n ++ ' ' :: rest).dropWhile Char.isDigit) := by
    rw [hdigits]
    unfold IStringStream.scanNumber
    split
    rename_i hmatch
    split at hmatch
    · rename_i heq
      exact absurd (List.cons.inj heq).1 hsign.1
    · rename_i heq
      exact absurd (List.cons.inj heq).1 hsign.2
    · obtain ⟨rfl, rfl⟩ := Prod.mk.inj hmatch
      rfl
  rw [hplain, takeWhile_word (fun _ => isDigit_toDigits) hstop,
    dropWhile_word (fun _ => isDigit_toDigits) hstop]

theorem getUnsigned_word {n : Nat} (hlead : ∀ ch ∈ lead, isSpace ch = true)
    (hn : n < 2 ^ 32) (old : Nat) :
    ({ rest := lead ++ joined ' ' (Nat.toDigits 10 n :: words) last } :
        IStringStream).getUnsigned old = (n, { rest := [' '] ++ joined ' ' words last }) := by
  unfold IStringStream.getUnsigned
  rw [joined_cons, ← List.append_assoc, sentry_word hlead (token_toDigits n)]
  dsimp only
  rw [if_neg (by decide), scanNumber_toDigits]
  dsimp only
  rw [if_neg Nat.toDigits_ne_nil, Nat.ofDigitChars_ten_toDigits, if_neg (Nat.not_le.mpr hn)]
  rfl

theorem getInt_word {i : Int} (hlead : ∀ ch ∈ lead, isSpace ch = true)
    (hi : -2 ^ 31 ≤ i ∧ i < 2 ^ 31) (old : Int) :
    ({ rest := lead ++ joined ' ' (intDigits i :: words) last } : IStringStream).getInt old
      = (i, { rest := [' '] ++ joined ' ' words last }) := by
  unfold IStringStream.getInt
  rw [joined_cons, ← List.append_assoc, sentry_word hlead (token_intDigits i)]
  dsimp only
  rw [if_neg (by decide)]
  generalize joined ' ' words last = rest
  cases i with
  | ofNat n =>
      have hscan : IStringStream.scanNumber (intDigits (.ofNat n) ++ ' ' :: rest)
          = (false, Nat.toDigits 10 n, ' ' :: rest) := scanNumber_toDigits n
      rw [hscan]
      dsimp only
      rw [if_neg Nat.toDigits_ne_nil, Nat.ofDigitChars_ten_toDigits]
      have hvalue : (if false = true then -(n : Int) else n) = Int.ofNat n := rfl
      rw [hvalue, if_neg (not_lt.mpr hi.1), if_neg (not_le.mpr hi.2)]
      rfl
  | negSucc n =>
      have hstop : Stops Char.isDigit (' ' :: rest) := stops_cons rest (by decide)
      have hscan : IStringStream.scanNumber (intDigits (.negSucc n) ++ ' ' :: rest)
          = (true, Nat.toDigits 10 (n + 1), ' ' :: rest) := by
        show (true, (Nat.toDigits 10 (n + 1) ++ ' ' :: rest).takeWhile Char.isDigit,
          (Nat.toDigits 10 (n + 1) ++ ' ' :: rest).dropWhile Char.isDigit) = _
        rw [takeWhile_word (fun _ => isDigit_toDigits) hstop,
          dropWhile_word (fun _ => isDigit_toDigits) hstop]
      rw [hscan]
      dsimp only
      rw [if_neg Nat.toDigits_ne_nil, Nat.ofDigitChars_ten_toDigits]
      have hvalue : (if true = true then -((n + 1 : Nat) : Int) else (n + 1 : Nat))
          = Int.negSucc n := rfl
      rw [hvalue, if_neg (not_lt.mpr hi.1), if_neg (not_le.mpr hi.2)]
      rfl

end Stream

/-- The chain of comparisons in `FromString`. -/
theorem hostType_of_str (type : HostType) : (if hostTypeStr type = "host".toList then .host
    else if hostTypeStr type = "srflx".toList then .srflx
    else if hostTypeStr type = "prflx".toList then .prflx
    else if hostTypeStr type = "relay".toList then .relay
    else .host) = type := by
  cases type <;> decide

/-- `FromString` reads the text of `ToString` back. -/
theorem fromString_toString (cand : CandidateInfo) (h : cand.Printable) (old : CandidateInfo) :
    ∃ other, old.fromString cand.toString = some other ∧ cand.SamePrinted other := by
  have hnil : ∀ ch ∈ ([] : Str), isSpace ch = true := fun _ hch => absurd hch List.not_mem_nil
  have hspace : ∀ ch ∈ [' '], isSpace ch = true := by
    intro ch hch
    rw [List.mem_singleton.mp hch]
    rfl
  have hlen : ¬ cand.toString.length < 12 := by
    rw [toString_eq, List.length_append]
    exact Nat.not_lt.mpr (Nat.le_add_right 12 _)
  have hdrop : cand.toString.drop 12 = [] ++ joined ' ' cand.words ['0'] := by
    rw [toString_eq]
    exact List.drop_left' rfl
  unfold CandidateInfo.fromString
  dsimp only
  rw [if_neg hlen, hdrop, CandidateInfo.words, getString_word hnil h.foundation]
  dsimp only
  rw [getUnsigned_word hspace h.componentId]
  dsimp only
  rw [getString_word hspace h.netProtocol]
  dsimp only
  rw [getUnsigned_word hspace h.priority]
  dsimp only
  rw [getString_word hspace h.hostAddress]
  dsimp only
  rw [getInt_word hspace h.hostPort]
  dsimp only
  rw [getString_word hspace (by decide)]
  dsimp only
  rw [getString_word hspace (token_hostTypeStr _)]
  dsimp only
  rw [hostType_of_str]
  by_cases hrel : cand.hostType = .srflx ∨ cand.hostType = .relay
  · have hwords : cand.relatedWords
        = ["raddr".toList, cand.rAddress, "rport".toList, intDigits cand.rPort] := if_pos hrel
    have htext : cand.relatedWords ++ ["generation".toList] = ["raddr".toList, cand.rAddress,
        "rport".toList, intDigits cand.rPort, "generation".toList] := by
      rw [hwords]
      rfl
    rw [if_pos hrel, htext, getString_word hspace (by decide)]
    dsimp only
    rw [getString_word hspace (h.rAddress hrel)]
    dsimp only
    rw [getString_word hspace (by decide)]
    dsimp only
    rw [getInt_word hspace h.rPort]
    exact ⟨_, rfl, rfl, rfl, rfl, rfl, rfl, rfl, rfl, fun _ => ⟨rfl, rfl⟩⟩
  · rw [if_neg hrel]
    exact ⟨_, rfl, rfl, rfl, rfl, rfl, rfl, rfl, rfl, fun h => absurd h hrel⟩

/-! ### The pieces -/

section Pieces

variable {word rest last : Str} {words : List Str}

/-- The separators of the line. -/
abbrev colonOrSpace : Str := [' ', ':']

/-- Without a separator. -/
def Whole (word : Str) : Prop := ∀ ch ∈ word, ch ∉ colonOrSpace

instance : DecidablePred Whole := fun word => List.decidableBAll _ word

theorem Token.whole (h : Token word) (hcolon : ':' ∉ word) : Whole word := by
  intro ch hch hmem
  rcases List.mem_cons.mp hmem with rfl | hmem
  · exact absurd (h.no_space ' ' hch) (by decide)
  · obtain rfl := List.mem_singleton.mp hmem
    exact hcolon hch

/-- Without a limit the count of the separators does not matter. -/
theorem splitLoop_count (n m : Nat) (cur text : Str) :
    splitLoop colonOrSpace 0 n cur text = splitLoop colonOrSpace 0 m cur text := by
  induction text generalizing n m cur with
  | nil => rfl
  | cons ch text ih =>
      simp only [splitLoop, true_or, true_and]
      rw [ih (n + 1) (m + 1) [], ih n m (cur ++ [ch])]

/-- A word in front of a separator is a piece. -/
theorem splitOneOf_whole (hword : Whole word) {sep : Char} (hsep : sep ∈ colonOrSpace) :
    splitOneOf (word ++ sep :: rest) colonOrSpace 0
      = word :: splitOneOf rest colonOrSpace 0 := by
  have hloop : ∀ (word cur : Str), Whole word → splitLoop colonOrSpace 0 0 cur (word ++ sep :: rest)
      = (cur ++ word) :: splitLoop colonOrSpace 0 0 [] rest := by
    intro word
    induction word with
    | nil =>
        intro cur _
        rw [List.nil_append, List.append_nil, splitLoop, if_pos ⟨.inl rfl, hsep⟩,
          splitLoop_count (0 + 1) 0]
    | cons ch word ih =>
        intro cur hword
        have hch : ¬ ((0 = 0 ∨ 0 < 0) ∧ ch ∈ colonOrSpace) :=
          fun h => hword ch List.mem_cons_self h.2
        rw [List.cons_append, splitLoop, if_neg hch,
          ih (cur ++ [ch]) fun c hc => hword c (List.mem_cons_of_mem _ hc), List.append_assoc]
        rfl
  exact hloop word [] hword

/-- The part of a word in front of its first separator. -/
def headPiece (word : Str) : Str := word.takeWhile fun ch => decide (ch ∉ colonOrSpace)

theorem headPiece_eq_self : headPiece word = word ↔ Whole word := by
  unfold headPiece Whole
  rw [List.takeWhile_eq_self_iff]
  simp only [decide_eq_true_iff]

/-- The piece of a word with separators ends in front of the first one. -/
theorem splitOneOf_cut (word rest : Str) : ∃ pieces,
    splitOneOf (word ++ ' ' :: rest) colonOrSpace 0 = headPiece word :: pieces := by
  have hhead : Whole (headPiece word) := by
    intro ch hch
    have hin := List.mem_takeWhile_imp (p := fun ch => decide (ch ∉ colonOrSpace)) hch
    exact of_decide_eq_true hin
  have hword : headPiece word ++ word.dropWhile (fun ch => decide (ch ∉ colonOrSpace)) = word :=
    List.takeWhile_append_dropWhile
  rcases hdrop : word.dropWhile (fun ch => decide (ch ∉ colonOrSpace)) with - | ⟨sep, tail⟩
  · rw [hdrop, List.append_nil] at hword
    rw [hword]
    exact ⟨_, splitOneOf_whole (headPiece_eq_self.mp hword) (by decide)⟩
  · have hsep : sep ∈ colonOrSpace := by
      have hfirst := List.head?_dropWhile_not (fun ch => decide (ch ∉ colonOrSpace)) word
      rw [hdrop] at hfirst
      exact not_not.mp (of_decide_eq_false hfirst)
    refine ⟨splitOneOf (tail ++ ' ' :: rest) colonOrSpace 0, ?_⟩
    rw [← splitOneOf_whole hhead hsep]
    conv_lhs => rw [← hword, hdrop]
    rw [List.append_assoc]
    rfl

theorem splitOneOf_joined {front : List Str} (hfront : ∀ word ∈ front, Whole word) :
    splitOneOf (joined ' ' (front ++ words) last) colonOrSpace 0
      = front ++ splitOneOf (joined ' ' words last) colonOrSpace 0 := by
  induction front with
  | nil => rfl
  | cons word front ih =>
      rw [List.cons_append, joined_cons,
        splitOneOf_whole (hfront word List.mem_cons_self) (by decide),
        ih fun w hw => hfront w (List.mem_cons_of_mem _ hw)]
      rfl

end Pieces

section Line

variable {cand : CandidateInfo}

theorem whole_toDigits (n : Nat) : Whole (Nat.toDigits 10 n) := by
  apply (token_toDigits n).whole
  intro hcolon
  exact absurd (isDigit_toDigits hcolon) (by decide)

theorem whole_intDigits (i : Int) : Whole (intDigits i) := by
  apply (token_intDigits i).whole
  intro hcolon
  rcases mem_intDigits hcolon with heq | hdigit
  · exact absurd heq (by decide)
  · exact absurd hdigit (by decide)

theorem whole_hostTypeStr (type : HostType) : Whole (hostTypeStr type) := by
  cases type <;> decide

/-- The pieces of the line of a candidate. -/
def CandidateInfo.pieces (cand : CandidateInfo) : List Str :=
  splitOneOf cand.toString [' ', ':'] 0

theorem pieces_eq (cand : CandidateInfo) : cand.pieces = "a=candidate".toList ::
    splitOneOf (joined ' ' cand.words ['0']) colonOrSpace 0 := by
  have htag : Whole "a=candidate".toList := by decide
  unfold CandidateInfo.pieces
  rw [toString_eq]
  exact splitOneOf_whole htag (by decide)

/-- The piece of a word, if there are no separators in those before it. -/
theorem pieces_at {front back : List Str} {word : Str} (hwords : cand.words = front ++ word :: back)
    (hfront : ∀ word ∈ front, Whole word) :
    cand.pieces[front.length + 1]? = some (headPiece word) := by
  obtain ⟨pieces, hcut⟩ := splitOneOf_cut word (joined ' ' back ['0'])
  rw [pieces_eq, hwords, splitOneOf_joined hfront, joined_cons, hcut, List.getElem?_cons_succ,
    List.getElem?_append_right (Nat.le_refl _), Nat.sub_self]
  rfl

/-- A word that is read as it was printed has no separators, if those before it have none. -/
theorem whole_of_piece {front back : List Str} {word read : Str}
    (hwords : cand.words = front ++ word :: back) (hfront : ∀ word ∈ front, Whole word)
    (hread : cand.pieces[front.length + 1]? = some read) (hsame : read = word) : Whole word :=
  headPiece_eq_self.mp ((Option.some.inj ((pieces_at hwords hfront).symm.trans hread)).trans hsame)

/-- Without separators the pieces are the words. -/
theorem pieces_whole (h : ∀ word ∈ cand.words, Whole word) :
    cand.pieces = "a=candidate".toList :: (cand.words ++ ["0".toList]) := by
  have hlast : splitOneOf (joined ' ' (cand.words ++ []) ['0']) colonOrSpace 0
      = cand.words ++ splitOneOf (joined ' ' [] ['0']) colonOrSpace 0 := splitOneOf_joined h
  rw [List.append_nil] at hlast
  rw [pieces_eq, hlast]
  rfl

theorem contains_candidate (cand : CandidateInfo) :
    contains cand.toString "a=candidate:" = true := by
  unfold contains
  rw [List.any_eq_true]
  refine ⟨cand.toString, ?_, ?_⟩
  · rw [List.mem_tails]
  · rw [List.isPrefixOf_iff_prefix, toString_eq]
    exact List.prefix_append _ _

theorem of_piece_bind {pieces : List Str} {i : Nat} {α : Type} {f : Str → Except Fault α} {a : α}
    (h : (piece pieces i >>= f) = .ok a) : ∃ s, pieces[i]? = some s ∧ f s = .ok a := by
  unfold piece at h
  rcases hpiece : pieces[i]? with - | s
  · rw [hpiece] at h
    cases h
  · rw [hpiece] at h
    exact ⟨s, rfl, h⟩

/-- What `processCandidate` adds to the description, if anything: its strings are pieces. -/
theorem processCandidate_adds {info info' : SdpInfo} {pieces : List Str} {mediaType : MediaType}
    {ok : Bool} (h : processCandidate info pieces mediaType = .ok (info', ok)) :
    info' = info ∨ ∃ other, info'.candidateVector = info.candidateVector ++ [other] ∧
      pieces[1]? = some other.foundation ∧ pieces[3]? = some other.netProtocol ∧
      (other.netProtocol = "UDP".toList ∨ other.netProtocol = "udp".toList) ∧
      pieces[5]? = some other.hostAddress ∧
      (other.Related → pieces[10]? = some other.rAddress) := by
  unfold processCandidate at h
  obtain ⟨foundation, h₁, h⟩ := of_piece_bind h
  obtain ⟨componentId, -, h⟩ := of_piece_bind h
  obtain ⟨netProtocol, h₃, h⟩ := of_piece_bind h
  split at h
  · exact .inl (Prod.mk.inj (Except.ok.inj h)).1.symm
  · rename_i hudp
    have hudp : netProtocol = "UDP".toList ∨ netProtocol = "udp".toList := by
      by_contra hnot
      exact hudp (not_or.mp hnot)
    obtain ⟨priority, -, h⟩ := of_piece_bind h
    obtain ⟨hostAddress, h₅, h⟩ := of_piece_bind h
    obtain ⟨hostPort, -, h⟩ := of_piece_bind h
    obtain ⟨typ, -, h⟩ := of_piece_bind h
    split at h
    · exact .inl (Prod.mk.inj (Except.ok.inj h)).1.symm
    · obtain ⟨type, -, h⟩ := of_piece_bind h
      dsimp only at h
      split at h
      · obtain ⟨rAddress, h₁₀, h⟩ := of_piece_bind h
        obtain ⟨rPort, -, h⟩ := of_piece_bind h
        obtain ⟨rfl, -⟩ := Prod.mk.inj (Except.ok.inj h)
        exact .inr ⟨_, rfl, h₁, h₃, hudp, h₅, fun _ => h₁₀⟩
      · rename_i hrel
        obtain ⟨rfl, -⟩ := Prod.mk.inj (Except.ok.inj h)
        exact .inr ⟨_, rfl, h₁, h₃, hudp, h₅, fun h => absurd h hrel⟩

/-! ### The numbers of the line -/

theorem digits_eq {text : Str} (h : ∀ ch ∈ text, ch.isDigit = true) (n : Nat) :
    digits text n = Nat.ofDigitChars 10 text n := by
  induction text generalizing n with
  | nil => rfl
  | cons ch text ih =>
      rw [digits, if_pos (h ch List.mem_cons_self), Nat.ofDigitChars_cons]
      exact ih (fun c hc => h c (List.mem_cons_of_mem _ hc)) _

theorem digits_toDigits (n : Nat) : digits (Nat.toDigits 10 n) 0 = n := by
  rw [digits_eq (fun _ => isDigit_toDigits), Nat.ofDigitChars_ten_toDigits]

theorem strtoui_toDigits {n : Nat} (hn : n < 2 ^ 32) : strtoui (Nat.toDigits 10 n) = n := by
  have hdigits := digits_toDigits n
  obtain ⟨ch, tail, htext, hch⟩ := toDigits_eq_cons n
  have hplain : strtoul (Nat.toDigits 10 n) = min (digits (Nat.toDigits 10 n) 0) (2 ^ 64 - 1) := by
    rw [htext]
    unfold strtoul
    rw [List.dropWhile_cons_of_neg (by rw [isSpace_of_isDigit hch]; decide)]
    split
    · rename_i heq
      rw [(List.cons.inj heq).1] at hch
      exact absurd hch (by decide)
    · rename_i heq
      rw [(List.cons.inj heq).1] at hch
      exact absurd hch (by decide)
    · rfl
  unfold strtoui
  rw [hplain, hdigits]
  omega

theorem toInt_strtoui_intDigits {i : Int} (hi : -2 ^ 31 ≤ i ∧ i < 2 ^ 31) :
    toInt (strtoui (intDigits i)) = i := by
  cases i with
  | ofNat n =>
      have hn : n < 2 ^ 31 := Int.ofNat_lt.mp hi.2
      have hvalue : strtoui (intDigits (.ofNat n)) = n := strtoui_toDigits (by omega)
      rw [hvalue]
      exact if_pos hn
  | negSucc n =>
      have hvalue : strtoui (intDigits (.negSucc n)) = 2 ^ 32 - (n + 1) := by
        show (if digits (Nat.toDigits 10 (n + 1)) 0 < 2 ^ 64 then
          (2 ^ 64 - digits (Nat.toDigits 10 (n + 1)) 0) % 2 ^ 64 else 2 ^ 64 - 1) % 2 ^ 32 = _
        rw [digits_toDigits, if_pos (by omega)]
        omega
      rw [hvalue]
      unfold toInt
      rw [if_neg (by omega)]
      omega

/-- The loop over `types_str`. -/
theorem hostType_hostTypeStr (type : HostType) : hostType (hostTypeStr type) = type := by
  cases type <;> decide

/-! ### The two parsers -/

/-- The words of a plain candidate have no separators. -/
theorem whole_words (h : cand.Printable) (hp : cand.Plain) :
    ∀ word ∈ cand.words, Whole word := by
  have hnet : Whole cand.netProtocol := by
    rcases hp.udp with hudp | hudp
    · rw [hudp]
      decide
    · rw [hudp]
      decide
  have hrelated : ∀ word ∈ cand.relatedWords, Whole word := by
    unfold CandidateInfo.relatedWords
    split
    · rename_i hrel
      have hraddr := (h.rAddress hrel).whole (hp.rAddress hrel)
      simp only [List.mem_cons, List.not_mem_nil, or_false, forall_eq_or_imp, forall_eq]
      exact ⟨by decide, hraddr, by decide, whole_intDigits _⟩
    · exact fun _ hword => absurd hword List.not_mem_nil
  intro word hword
  unfold CandidateInfo.words at hword
  simp only [List.mem_cons, List.mem_append, List.not_mem_nil, or_false] at hword
  rcases hword with rfl | rfl | rfl | rfl | rfl | rfl | rfl | rfl | hword | rfl
  · exact h.foundation.whole hp.foundation
  · exact whole_toDigits _
  · exact hnet
  · exact whole_toDigits _
  · exact h.hostAddress.whole hp.hostAddress
  · exact whole_intDigits _
  · decide
  · exact whole_hostTypeStr _
  · exact hrelated word hword
  · decide

/-- The line of a plain candidate is read as it was printed. -/
theorem lineRecovers_of_plain (s : Parser) (h : cand.Printable) (hp : cand.Plain) :
    LineRecovers s cand := by
  have hpieces := pieces_whole (whole_words h hp)
  have hudp : ¬ (cand.netProtocol ≠ "UDP".toList ∧ cand.netProtocol ≠ "udp".toList) := by
    rintro ⟨hupper, hlower⟩
    exact hp.udp.elim hupper hlower
  have hread : ∃ other, cand.SamePrinted other ∧ processCandidate s.info cand.pieces s.mtype
      = .ok ({ s.info with candidateVector := s.info.candidateVector ++ [other] }, true) := by
    rw [hpieces]
    unfold CandidateInfo.words processCandidate
    by_cases hrel : cand.hostType = .srflx ∨ cand.hostType = .relay
    · have hrelated : cand.relatedWords
          = ["raddr".toList, cand.rAddress, "rport".toList, intDigits cand.rPort] := if_pos hrel
      rw [hrelated]
      simp only [piece, List.cons_append, List.nil_append, List.getElem?_cons_succ,
        List.getElem?_cons_zero, bind, Except.bind, if_neg hudp, ne_eq, not_true_eq_false,
        if_false, hostType_hostTypeStr, if_pos hrel]
      refine ⟨_, ?_, rfl⟩
      exact ⟨rfl, strtoui_toDigits h.componentId, rfl, strtoui_toDigits h.priority, rfl,
        toInt_strtoui_intDigits h.hostPort, rfl,
        fun _ => ⟨rfl, toInt_strtoui_intDigits h.rPort⟩⟩
    · simp only [piece, List.cons_append, List.getElem?_cons_succ, List.getElem?_cons_zero,
        bind, Except.bind, if_neg hudp, ne_eq, not_true_eq_false, if_false,
        hostType_hostTypeStr, if_neg hrel]
      refine ⟨_, ?_, rfl⟩
      exact ⟨rfl, strtoui_toDigits h.componentId, rfl, strtoui_toDigits h.priority, rfl,
        toInt_strtoui_intDigits h.hostPort, rfl, fun h => absurd h hrel⟩
  obtain ⟨other, hsame, hread⟩ := hread
  refine ⟨other, hsame, ?_⟩
  have hline : lineCandidate s cand.toString
      = (processCandidate s.info cand.pieces s.mtype >>= fun r => pure { s with info := r.1 }) :=
    if_pos (contains_candidate cand)
  rw [hline, hread]
  rfl

/-- The pieces of a line that is read as it was printed. -/
theorem pieces_of_lineRecovers (s : Parser) (hline : LineRecovers s cand) :
    ∃ other, cand.SamePrinted other ∧
      (splitOneOf cand.toString [' ', ':'] 0)[1]? = some other.foundation ∧
      (splitOneOf cand.toString [' ', ':'] 0)[3]? = some other.netProtocol ∧
      (other.netProtocol = "UDP".toList ∨ other.netProtocol = "udp".toList) ∧
      (splitOneOf cand.toString [' ', ':'] 0)[5]? = some other.hostAddress ∧
      (other.Related → (splitOneOf cand.toString [' ', ':'] 0)[10]? = some other.rAddress) := by
  obtain ⟨other, hsame, hline⟩ := hline
  unfold lineCandidate at hline
  rw [if_pos (contains_candidate cand)] at hline
  rcases hr : processCandidate s.info (splitOneOf cand.toString [' ', ':'] 0) s.mtype with e | r
  · rw [hr] at hline
    cases hline
  · rw [hr] at hline
    have hinfo : r.1 = { s.info with candidateVector := s.info.candidateVector ++ [other] } :=
      congrArg Parser.info (Except.ok.inj hline)
    rcases processCandidate_adds hr with hnothing | ⟨added, hadds, hread⟩
    · have hlen := congrArg (fun info : SdpInfo => info.candidateVector.length)
        (hnothing.symm.trans hinfo)
      simp at hlen
    · rw [hinfo] at hadds
      obtain rfl : other = added := List.singleton_inj.mp (List.append_cancel_left hadds)
      exact ⟨other, hsame, hread⟩

/-- A line that is read as it was printed is that of a plain candidate. -/
theorem plain_of_lineRecovers (s : Parser) (hline : LineRecovers s cand) : cand.Plain := by
  obtain ⟨other, hsame, h₁, h₃, hudp, h₅, h₁₀⟩ := pieces_of_lineRecovers s hline
  have hcolon : ∀ {word : Str}, Whole word → ':' ∉ word := fun hword hmem =>
    hword ':' hmem (by decide)
  have hfoundation : Whole cand.foundation := by
    have hwords : cand.words = [] ++ cand.words := rfl
    exact whole_of_piece hwords (fun _ hw => absurd hw List.not_mem_nil) h₁ hsame.foundation
  have hnet : Whole cand.netProtocol := by
    have hwords : cand.words = [cand.foundation, Nat.toDigits 10 cand.componentId] ++
        cand.netProtocol :: cand.words.drop 3 := rfl
    refine whole_of_piece hwords ?_ h₃ hsame.netProtocol
    simp only [List.mem_cons, List.not_mem_nil, or_false, forall_eq_or_imp, forall_eq]
    exact ⟨hfoundation, whole_toDigits _⟩
  have haddress : Whole cand.hostAddress := by
    have hwords : cand.words = [cand.foundation, Nat.toDigits 10 cand.componentId,
        cand.netProtocol, Nat.toDigits 10 cand.priority] ++
          cand.hostAddress :: cand.words.drop 5 := rfl
    refine whole_of_piece hwords ?_ h₅ hsame.hostAddress
    simp only [List.mem_cons, List.not_mem_nil, or_false, forall_eq_or_imp, forall_eq]
    exact ⟨hfoundation, whole_toDigits _, hnet, whole_toDigits _⟩
  refine ⟨hsame.netProtocol ▸ hudp, hcolon hfoundation, hcolon haddress, ?_⟩
  intro hrel
  have hrelother : other.Related := by
    unfold CandidateInfo.Related
    rw [hsame.hostType]
    exact hrel
  have hrelated : cand.relatedWords
      = ["raddr".toList, cand.rAddress, "rport".toList, intDigits cand.rPort] := if_pos hrel
  have hwords : cand.words = [cand.foundation, Nat.toDigits 10 cand.componentId,
      cand.netProtocol, Nat.toDigits 10 cand.priority, cand.hostAddress,
      intDigits cand.hostPort, "typ".toList, hostTypeStr cand.hostType, "raddr".toList] ++
        cand.rAddress :: ["rport".toList, intDigits cand.rPort, "generation".toList] := by
    unfold CandidateInfo.words
    rw [hrelated]
    rfl
  apply hcolon
  refine whole_of_piece hwords ?_ (h₁₀ hrelother) (hsame.related hrel).1
  simp only [List.mem_cons, List.not_mem_nil, or_false, forall_eq_or_imp, forall_eq]
  exact ⟨hfoundation, whole_toDigits _, hnet, whole_toDigits _, haddress,
    whole_intDigits _, by decide, whole_hostTypeStr _, by decide⟩

end Line

/-- Both parsers read the text of a candidate, whose strings are tokens, as it was printed if
and only if it is plain. -/
theorem recovers_iff (cand : CandidateInfo) (h : cand.Printable) (old : CandidateInfo)
    (s : Parser) :
    (∃ other, old.fromString cand.toString = some other ∧ cand.SamePrinted other) ∧
        LineRecovers s cand ↔ cand.Plain := by
  constructor
  · rintro ⟨-, hline⟩
    exact plain_of_lineRecovers s hline
  · intro hp
    exact ⟨fromString_toString cand h old, lineRecovers_of_plain s h hp⟩

/-- A candidate at `hostAddress`. -/
def candidateAt (hostAddress : String) : CandidateInfo :=
  { priority := 2130706431
    componentId := 1
    foundation := "1".toList
    hostAddress := hostAddress.toList
    hostPort := 49462
    netProtocol := "udp".toList
    hostType := .host
    mediaType := .audio }

theorem recovers_at_ipv4 :
    LineRecovers { info := {}, mtype := .audio } (candidateAt "192.168.0.12") := by
  have h : (candidateAt "192.168.0.12").Printable :=
    ⟨by decide, by decide, by decide,
      fun hrel => absurd hrel (by decide), by decide, by decide, by decide, by decide⟩
  exact ((recovers_iff _ h (candidateAt "0.0.0.0") _).mpr
    ⟨.inr rfl, by decide, by decide, fun hrel => absurd hrel (by decide)⟩).2

/-- A candidate with an IPv6 address is lost. -/
theorem not_recovers : ¬ ∀ (cand old : CandidateInfo) (s : Parser), cand.Printable →
    cand.netProtocol = "UDP".toList ∨ cand.netProtocol = "udp".toList →
    (∃ other, old.fromString cand.toString = some other ∧ cand.SamePrinted other) ∧
      LineRecovers s cand := by
  intro h
  have hprintable : (candidateAt "fe80::1").Printable :=
    ⟨by decide, by decide, by decide,
      fun hrel => absurd hrel (by decide), by decide, by decide, by decide, by decide⟩
  have hplain := plain_of_lineRecovers _
    (h (candidateAt "fe80::1") (candidateAt "") { info := {}, mtype := .audio } hprintable
      (.inr rfl)).2
  exact absurd hplain.hostAddress (by decide)

end Orbit.Sdp
