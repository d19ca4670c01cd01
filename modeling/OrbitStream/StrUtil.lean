/-
OrbitStream/StrUtil.lean

String utilities (`base/strutil.{h,cc}`).

`GetFilePath` splits a path at its slashes and, if there is more than one part, strips the
last part off its end.  A path in the root directory has one part only, so its directory is
lost: what is returned is the directory if and only if that is empty or has more in it than
slashes (`getFilePath_iff`).
-/
import OrbitStream.Lib.Markers

namespace Orbit.StrUtil

open Lib

abbrev Str := List Char

/-- `HasPrefixString`. -/
def hasPrefixString (str front : Str) : Bool := front.isPrefixOf str

/-- `HasSuffixString`. -/
def hasSuffixString (str back : Str) : Bool := back.isSuffixOf str

/-- `StripSuffixString`. -/
def stripSuffixString (str back : Str) : Str :=
  if hasSuffixString str back then str.take (str.length - back.length) else str

/-- `UpperString`. -/
def upperString (s : Str) : Str :=
  s.map fun ch => if 'a'.toNat ≤ ch.toNat ∧ ch.toNat ≤ 'z'.toNat then
    Char.ofNat (ch.toNat - 32) else ch

/-- `StringReplace`. -/
def stringReplace (s oldsub newsub : Str) (replaceAll : Bool) : Str :=
  if oldsub = [] then s else replaceFrom oldsub newsub replaceAll s.length s

/-- What `StringPrintf` puts in for `%s`: a C string ends at the first NUL. -/
def cStr (s : Str) : Str := s.takeWhile fun ch => decide (ch.toNat ≠ 0)

/-- `StringPrintf`, given the text that its format is filled in to: a text that takes more than
32 MiB with the NUL behind it is given up (`StringAppendVT`), and the result is empty. -/
def stringPrintf (text : Str) : Str := if text.length + 1 > 33554432 then [] else text

/-- `SplitStringToIteratorUsing` for a delimiter of one character. -/
def splitByChar (c : Char) : ℕ → Str → List Str
  | 0, _ => []
  | _ + 1, [] => []
  | fuel + 1, ch :: rest =>
      if ch = c then splitByChar c fuel rest
      else (ch :: rest.takeWhile (· ≠ c)) :: splitByChar c fuel (rest.dropWhile (· ≠ c))

/-- `SplitStringToIteratorUsing` for a delimiter of several characters: the string is split
at each of them. -/
def splitByChars (delim : Str) : ℕ → Str → List Str
  | 0, _ => []
  | fuel + 1, s =>
      match s.dropWhile (delim.contains ·) with
      | [] => []
      | ch :: rest =>
          (ch :: rest).takeWhile (!delim.contains ·) ::
            splitByChars delim fuel ((ch :: rest).dropWhile (!delim.contains ·))

/-- `SplitStringUsing`. -/
def splitStringUsing (full delim : Str) : List Str :=
  match delim with
  | [c] => splitByChar c full.length full
  | _ => splitByChars delim full.length full

/-- `GetFilePath`. -/
def getFilePath (file : Str) : Str :=
  let fileParts := splitStringUsing file ['/']
  if 1 < fileParts.length then
    let name := fileParts.getD (fileParts.length - 1) []
    stripSuffixString file name
  else []

/-! ### Splitting -/

section Split

variable {c : Char} {fuel : ℕ} {s d w rest : Str}

/-- A word in front of the end, or of a delimiter, is split off. -/
theorem splitByChar_word (hw : w ≠ []) (hcw : c ∉ w) (hrest : Stops (· ≠ c) rest) :
    splitByChar c (fuel + 1) (w ++ rest) = w :: splitByChar c fuel rest := by
  obtain ⟨ch, w, rfl⟩ := List.exists_cons_of_ne_nil hw
  have hword : ∀ a ∈ w, decide (a ≠ c) = true := by
    intro a ha
    exact decide_eq_true fun heq => hcw (heq ▸ List.mem_cons_of_mem _ ha)
  have hch : ch ≠ c := fun heq => hcw (heq ▸ List.mem_cons_self)
  rw [List.cons_append, splitByChar, if_neg hch, takeWhile_word hword hrest,
    dropWhile_word hword hrest]

/-- There is no part but the delimiters if and only if there is nothing else. -/
theorem splitByChar_eq_nil (hfuel : s.length ≤ fuel) :
    splitByChar c fuel s = [] ↔ ∀ ch ∈ s, ch = c := by
  induction s generalizing fuel with
  | nil => rcases fuel with - | fuel <;> simp [splitByChar]
  | cons ch s ih =>
      rcases fuel with - | fuel
      · exact absurd hfuel (Nat.not_succ_le_zero _)
      · rw [splitByChar]
        split
        · rename_i heq
          rw [ih (Nat.le_of_succ_le_succ hfuel)]
          simp [heq]
        · rename_i hne
          simp [hne]

/-- A directory in front of a name adds its parts in front of it. -/
theorem splitByChar_append {f : Str} (hd : d = [] ∨ d.getLast? = some c) (hf : f ≠ [])
    (hcf : c ∉ f) (hfuel : (d ++ f).length ≤ fuel) :
    splitByChar c fuel (d ++ f) = splitByChar c fuel d ++ [f] := by
  induction fuel generalizing d with
  | zero =>
      rw [Nat.le_zero, List.length_eq_zero_iff, List.append_eq_nil_iff] at hfuel
      exact absurd hfuel.2 hf
  | succ fuel ih =>
      rcases d with - | ⟨ch, d⟩
      · have hend : splitByChar c fuel [] = [] :=
          (splitByChar_eq_nil (Nat.zero_le _)).mpr fun _ h => absurd h List.not_mem_nil
        have hword : splitByChar c (fuel + 1) (f ++ []) = f :: splitByChar c fuel [] :=
          splitByChar_word hf hcf stops_nil
        rw [List.append_nil, hend] at hword
        exact hword
      · have hlast : (ch :: d).getLast? = some c := hd.resolve_left (List.cons_ne_nil _ _)
        rw [List.cons_append, List.length_cons] at hfuel
        by_cases hch : ch = c
        · have hd' : d = [] ∨ d.getLast? = some c := by
            rcases d with - | ⟨ch', d⟩
            · exact .inl rfl
            · exact .inr (List.getLast?_cons_cons.symm.trans hlast)
          rw [List.cons_append, splitByChar, if_pos hch, splitByChar, if_pos hch,
            ih hd' (Nat.le_of_succ_le_succ hfuel)]
        · -- the first part of the directory ends at a delimiter
          have hmem : c ∈ d := by
            rcases d with - | ⟨ch', d⟩
            · exact absurd (Option.some.inj hlast) hch
            · exact List.mem_of_getLast? (List.getLast?_cons_cons.symm.trans hlast)
          obtain ⟨w, d', rfl, hcw⟩ := List.eq_append_cons_of_mem hmem
          have hw : c ∉ ch :: w := by
            rw [List.mem_cons, not_or]
            exact ⟨fun heq => hch heq.symm, hcw⟩
          have hstops : ∀ more, Stops (· ≠ c) (c :: more) :=
            fun more => stops_cons more (by simp)
          have hlast' : (c :: d').getLast? = some c := by
            rw [← List.cons_append, List.getLast?_append_of_ne_nil _ (List.cons_ne_nil _ _)] at hlast
            exact hlast
          have hlen : (c :: d' ++ f).length ≤ fuel := by
            simp only [List.length_append, List.length_cons] at hfuel ⊢
            omega
          calc splitByChar c (fuel + 1) (ch :: (w ++ c :: d') ++ f)
              = splitByChar c (fuel + 1) (ch :: w ++ (c :: d' ++ f)) := by
                rw [← List.cons_append, List.append_assoc]
            _ = (ch :: w) :: splitByChar c fuel (c :: d' ++ f) :=
                splitByChar_word (List.cons_ne_nil _ _) hw (hstops (d' ++ f))
            _ = (ch :: w) :: (splitByChar c fuel (c :: d') ++ [f]) := by
                rw [ih (.inr hlast') hlen]
            _ = splitByChar c (fuel + 1) (ch :: w ++ c :: d') ++ [f] := by
                rw [splitByChar_word (List.cons_ne_nil _ _) hw (hstops d'), List.cons_append]

end Split

/-! ### The directory of a path -/

/-- The directory of a path is found if and only if it is empty or not in the root
directory. -/
theorem getFilePath_iff {d f : Str} (hd : d = [] ∨ d.getLast? = some '/') (hf : f ≠ [])
    (hslash : '/' ∉ f) : getFilePath (d ++ f) = d ↔ d = [] ∨ ∃ ch ∈ d, ch ≠ '/' := by
  have hparts : splitStringUsing (d ++ f) ['/'] =
      splitByChar '/' (d ++ f).length d ++ [f] := splitByChar_append hd hf hslash le_rfl
  have hnone : splitByChar '/' (d ++ f).length d = [] ↔ ∀ ch ∈ d, ch = '/' :=
    splitByChar_eq_nil (by rw [List.length_append]; exact Nat.le_add_right _ _)
  have hstrip : stripSuffixString (d ++ f) f = d := by
    rw [stripSuffixString, hasSuffixString, if_pos (List.isSuffixOf_iff_suffix.mpr
      (List.suffix_append d f)), List.length_append, Nat.add_sub_cancel, List.take_left]
  rw [getFilePath, hparts]
  rcases hdir : splitByChar '/' (d ++ f).length d with - | ⟨part, parts⟩
  · -- there is no other part, and the directory is taken to be empty
    have hall := hnone.mp hdir
    show [] = d ↔ _
    constructor
    · exact fun h => .inl h.symm
    · rintro (h | ⟨ch, hch, hne⟩)
      · exact h.symm
      · exact absurd (hall ch hch) hne
  · have hsome : ∃ ch ∈ d, ch ≠ '/' := by
      by_contra hall
      have hall : ∀ ch ∈ d, ch = '/' := by simpa using hall
      exact absurd (hnone.mpr hall) (by rw [hdir]; exact List.cons_ne_nil _ _)
    have hlast : (part :: parts ++ [f]).getD ((part :: parts ++ [f]).length - 1) [] = f := by
      simp
    have hlen : 1 < (part :: parts ++ [f]).length := by simp
    show (if 1 < (part :: parts ++ [f]).length then
      stripSuffixString (d ++ f) ((part :: parts ++ [f]).getD _ []) else []) = d ↔ _
    rw [if_pos hlen, hlast, hstrip]
    exact ⟨fun _ => .inr hsome, fun _ => rfl⟩

theorem getFilePath_iff_two :
    getFilePath "./orbit/ss.tpl".toList = "./orbit/".toList ↔
      "./orbit/".toList = [] ∨ ∃ ch ∈ "./orbit/".toList, ch ≠ '/' :=
  getFilePath_iff (d := "./orbit/".toList) (f := "ss.tpl".toList) (by decide) (by decide)
    (by decide)

theorem not_getFilePath : getFilePath ("/".toList ++ "ss.tpl".toList) ≠ "/".toList := by decide

end Orbit.StrUtil
