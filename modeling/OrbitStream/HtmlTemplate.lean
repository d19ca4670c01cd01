/-
OrbitStream/HtmlTemplate.lean

Templates, and what a client asks a writer for.

A template is made of texts, tags and sections; `Sheet` is what has been asked for by calls,
and `expected` what the template should become then.  What a writer holds of a template is
the text of some `pieces`, before `Finalize` and while it goes from section to section:
`locate` says how the turn of a section changes them.  `Readable` is the condition that the
writer finds the marks in its text where they are, and nowhere else.
-/
import Mathlib.Data.List.Nodup
import Mathlib.Data.List.TakeWhile
import OrbitStream.HtmlWriter
import OrbitStream.Lib.Run

namespace Orbit.Html

open Lib StrUtil

/-! ### Templates -/

/-- A template: texts, tags and sections. -/
inductive Template
  | done
  | text (s : Str) (rest : Template)
  | tag (name : Str) (rest : Template)
  | sec (name : Str) (body rest : Template)

namespace Template

/-- The template as it is written. -/
def print : Template → Str
  | done => []
  | text s rest => s ++ rest.print
  | tag name rest => braced name ++ rest.print
  | sec name body rest => braced ('#' :: name) ++ body.print ++ braced ('/' :: name) ++ rest.print

/-- The sections, nested ones too, with what they contain. -/
def secs : Template → List (Str × Template)
  | done => []
  | text _ rest => rest.secs
  | tag _ rest => rest.secs
  | sec name body rest => (name, body) :: (body.secs ++ rest.secs)

/-- The names of the sections. -/
def names (T : Template) : List Str := T.secs.map Prod.fst

end Template

/-- Characters that mean something in a regular expression. -/
def metachars : Str := ['{', '}'] ++ ".[]()\\*+?|^$".toList

/-- A name in upper case that a regular expression takes for itself. -/
def isName (name : Str) : Bool :=
  !name.isEmpty && upperString name == name &&
    name.all fun ch => !metachars.contains ch && decide (ch.toNat ≠ 0)

/-- The name of a tag: it is not taken for the mark of a section or of an included file. -/
def isTag (name : Str) : Bool :=
  isName name && !hasPrefixString name ['#'] && !hasPrefixString name ['/'] &&
    !hasPrefixString name includeTag

/-- A text without double braces. -/
def free (s : Str) : Bool := (splitFirst ['{', '{'] s).isNone

/-- Texts are free of double braces and names are names. -/
def Template.wellFormed : Template → Bool
  | .done => true
  | .text s rest => free s && rest.wellFormed
  | .tag name rest => isTag name && rest.wellFormed
  | .sec name body rest => isName name && body.wellFormed && rest.wellFormed

/-! ### What is asked for -/

/-- The values of tags, in the order in which they were set. -/
abbrev Env := List (Str × Str)

/-- What a client has asked a writer for. -/
structure Sheet where
  /-- The values that were set on the writer this one is an instance of, before it was made. -/
  given : Env
  /-- The values that were set. -/
  values : Env
  /-- The instances of each section. -/
  added : Str → List Sheet

namespace Sheet

/-- The sheet of a new writer. -/
def blank (given : Env) : Sheet := ⟨given, [], fun _ => []⟩

def env (s : Sheet) : Env := s.given ++ s.values

/-- A call on the writer itself or on one of its instances. -/
def step (s : Sheet) : Handle → Call → Sheet
  | [], .setValue tag value => { s with values := s.values ++ [(tag, value)] }
  | [], .addSection name =>
      { s with
        added := fun m => if m = name then s.added m ++ [blank s.env] else s.added m }
  | (name, k) :: handle, call =>
      { s with
        added := fun m =>
          if m = name then (s.added m).modify k fun child => child.step handle call
          else s.added m }

/-- What is asked for by some calls. -/
def ofCalls (calls : List (Handle × Call)) : Sheet :=
  calls.foldl (fun s call => s.step call.1 call.2) (blank [])

end Sheet

/-- The value that a tag was set to first. -/
def valueOf (env : Env) (name : Str) : Str := (env.lookup name).getD []

/-- What a template should become: texts as they are, for each section its instances in the
order in which they were added, for each tag the value that was set first. -/
def Template.expected : Template → Sheet → Str
  | .done, _ => []
  | .text t rest, s => t ++ rest.expected s
  | .tag name rest, s => valueOf s.env name ++ rest.expected s
  | .sec name body rest, s =>
      ((s.added name).flatMap fun child => body.expected child) ++ rest.expected s

/-! ### Calls -/

/-- What is set is not taken for the mark of a section, and brings no double braces. -/
def Call.proper : Call → Bool
  | .setValue tag value =>
      tag.all (fun ch => decide (ch ≠ '{') && decide (ch ≠ '}') && decide (ch.toNat ≠ 0)) &&
        !hasPrefixString tag ['#'] && !hasPrefixString tag ['/'] && free value
  | .addSection _ => true

/-- A later instance has been given all that an earlier one has. -/
inductive Sheet.Grown : Sheet → Prop
  | mk {s : Sheet} (given : ∀ n, ∀ env ∈ (s.added n).map Sheet.given, env <+: s.env)
      (later : ∀ n, ((s.added n).map Sheet.given).Pairwise fun env env' => env <+: env')
      (added : ∀ n, ∀ child ∈ s.added n, child.Grown) : Sheet.Grown s

/-! ### What a writer holds -/

/-- `StringPrintf` writes the mark. -/
def short (m : Str) : Bool := decide ((braced m).length < 33554432)

/-- A tag, filled in if it is set. -/
def tagPiece (env : Env) (name : Str) : Piece Char :=
  match env.lookup name with
  | some value => if short name then .text value else .mark name
  | none => .mark name

/-- What is left when the tags are cleared. -/
def kept : Piece Char → Bool
  | .text _ => true
  | .mark m => hasPrefixString m ['#'] || !short m

/-- What is left at the turn of a section, or when the tags are cleared. -/
def keptAt (turn : Option Str) (p : Piece Char) : Bool := turn.isSome || kept p

/-- A text without NUL. -/
def noNul (s : Str) : Bool := s.all fun ch => decide (ch.toNat ≠ 0)

/-- How long a text is, and whether it is without NUL. -/
structure Extent where
  length : Nat
  clean : Bool
  deriving DecidableEq

namespace Extent

/-- The extent of a text. -/
def of (t : Str) : Extent := ⟨t.length, noNul t⟩

instance : Zero Extent := ⟨⟨0, true⟩⟩

instance : Add Extent := ⟨fun a b => ⟨a.length + b.length, a.clean && b.clean⟩⟩

/-- The text of a section of this name is found and written: it is not empty, `c_str` does not
cut it, and it fits into what `StringPrintf` writes, between its marks. -/
def found (name : Str) (e : Extent) : Bool :=
  decide (0 < e.length) && e.clean && decide (e.length + 2 * name.length + 10 < 33554432)

end Extent

/-- The extent of a piece, if it is left. -/
def extentOf (turn : Option Str) (p : Piece Char) : Extent :=
  if keptAt turn p then .of (p.print '{' '}') else 0

/-- The sections that come before `turn`; in the end, all. -/
def passedAt (turn : Option Str) (m : Str) : Bool := turn.all fun n => strLess m n

namespace Template

/-- The extent of the text of a writer at the turn of a section, the sections before it
replaced, or in the end, with all sections replaced and the tags cleared.

A section stays where its text is not found at its turn. -/
def extentAt (turn : Option Str) : Template → Sheet → Extent
  | done, _ => 0
  | text t rest, s => .of t + rest.extentAt turn s
  | tag name rest, s => extentOf turn (tagPiece s.env name) + rest.extentAt turn s
  | sec name body rest, s =>
      (if passedAt turn name && (body.extentAt (some name) s).found name then
        ((s.added name).map fun child => body.extentAt none child).sum
      else extentOf turn (.mark ('#' :: name)) +
        (body.extentAt turn s + extentOf turn (.mark ('/' :: name)))) + rest.extentAt turn s

/-- A section has a text at its turn that is found. -/
def hasText (name : Str) (body : Template) (s : Sheet) : Bool :=
  (body.extentAt (some name) s).found name

/-- All sections of the writers whose text is made use of have a text at their turns, and the
marks of the tags are not too long. -/
def filled : Template → Sheet → Bool
  | done, _ => true
  | text _ rest, s => rest.filled s
  | tag name rest, s => short name && rest.filled s
  | sec name body rest, s =>
      hasText name body s && ((s.added name).all fun child => body.filled child) && rest.filled s

/-- What the text of a writer is made of when `Finalize` has come past the sections in
`passed` and replaced those that `goes` says; where one is replaced, the tags of its
instances have been cleared. -/
def pieces (goes : Str → Template → Sheet → Bool) (passed : Str → Bool) :
    Template → Sheet → List (Piece Char)
  | done, _ => []
  | text t rest, s => .text t :: rest.pieces goes passed s
  | tag name rest, s => tagPiece s.env name :: rest.pieces goes passed s
  | sec name body rest, s =>
      (if passed name && goes name body s then
        (s.added name).flatMap fun child => (body.pieces goes (fun _ => true) child).filter kept
      else .mark ('#' :: name) :: (body.pieces goes passed s ++ [.mark ('/' :: name)])) ++
        rest.pieces goes passed s

/-- The pieces before `Finalize`. -/
def source (T : Template) (s : Sheet) : List (Piece Char) :=
  T.pieces hasText (fun _ => false) s

/-- The names of the sections, in order. -/
def sortedNames (T : Template) : List Str := T.names.foldl (fun keys name => setInsert name keys) []

/-- The tags that a writer knows when it has loaded a text with some marks. -/
def tagsOf (marks : List Str) : List Str :=
  (marks.filter fun m => !hasPrefixString m ['#']).foldl (fun keys m => setInsert m keys) []

/-- `AddSection` makes no instance of a section that is empty. -/
def made (body : Template) (child : Sheet) : Bool :=
  decide (Lib.print '{' '}' (body.source (.blank child.given)) ≠ [])

/-- The instances that a writer holds of a section. -/
def children : Template → Sheet → Str → List TemplateHTMLWriter
  | done, _, _ => []
  | text _ rest, s, n => rest.children s n
  | tag _ rest, s, n => rest.children s n
  | sec name body rest, s, n =>
      (if n = name then
        ((s.added n).filter body.made).map fun child =>
          { htmlTemplate := Lib.print '{' '}' (body.source child)
            tagsSet := tagsOf (marks (body.source (.blank child.given)))
            sectionsReplace := body.sortedNames.map fun m => (m, body.children child m) }
      else []) ++ body.children s n ++ rest.children s n

/-- The writer of which a sheet was asked for. -/
def writer (T : Template) (s : Sheet) : TemplateHTMLWriter :=
  { htmlTemplate := Lib.print '{' '}' (T.source s)
    tagsSet := tagsOf (marks (T.source (.blank s.given)))
    sectionsReplace := T.sortedNames.map fun m => (m, T.children s m) }

/-- The tags that a writer knows. -/
def tags (T : Template) (s : Sheet) : List Str := tagsOf (marks (T.source (.blank s.given)))

/-! #### What can be read -/

/-- A writer that loads the template reads its marks as they are. -/
def loads (T : Template) (env : Env) : Bool := decide (Spaced '{' (T.source (.blank env)))

/-- What a call searches the text of its writer for is not spelled by texts, and a section that
it adds can be loaded. -/
def reads : Template → Sheet → Handle → Call → Bool
  | T, s, [], .setValue name _ => decide (Apart '{' '}' name (T.source s))
  | T, s, [], .addSection n =>
      T.secs.all fun e => decide (e.1 ≠ n) ||
        (decide (Apart '{' '}' ('#' :: n) (T.source s)) &&
          decide (Apart '{' '}' ('/' :: n) (T.source s)) && e.2.loads s.env)
  | T, s, (n, k) :: handle, call =>
      T.secs.all fun e => decide (e.1 ≠ n) ||
        ((s.added n)[k]?.all fun child => e.2.reads child handle call)

/-- What is left before a tag is cleared, those before it being cleared. -/
def keptBefore (t : Str) : Piece Char → Bool
  | .text _ => true
  | .mark m => kept (.mark m) || !strLess m t

/-- What `Finalize` searches the text of a writer for is not spelled by texts: the marks of a
section at its turn, and a tag when it is cleared. -/
def searched (T : Template) (s : Sheet) : Bool :=
  (T.names.all fun n =>
    decide (Apart '{' '}' ('#' :: n) (T.pieces hasText (passedAt (some n)) s)) &&
      decide (Apart '{' '}' ('/' :: n) (T.pieces hasText (passedAt (some n)) s))) &&
  (T.tags s).all fun t =>
    decide (Apart '{' '}' t ((T.pieces hasText (fun _ => true) s).filter (keptBefore t)))

/-- So it is in the instances whose text is made use of. -/
def searchedBelow : Template → Sheet → Bool
  | done, _ => true
  | text _ rest, s => rest.searchedBelow s
  | tag _ rest, s => rest.searchedBelow s
  | sec name body rest, s =>
      body.searchedBelow s &&
        (!hasText name body s ||
          (s.added name).all fun child => body.searched child && body.searchedBelow child) &&
        rest.searchedBelow s

/-- The marks of a template are found where they are and nowhere else: when it is loaded, by the
calls, and by `Finalize`. -/
structure Readable (T : Template) (calls : List (Handle × Call)) : Prop where
  loaded : T.loads [] = true
  called : Throughout (fun s call => s.step call.1 call.2)
    (fun s call => T.reads s call.1 call.2 = true) (.blank []) calls
  searched : T.searched (.ofCalls calls) = true
  below : T.searchedBelow (.ofCalls calls) = true

instance (T : Template) (calls : List (Handle × Call)) : Decidable (T.Readable calls) :=
  decidable_of_iff
    (T.loads [] = true ∧
      Throughout (fun s call => s.step call.1 call.2)
        (fun s call => T.reads s call.1 call.2 = true) (.blank []) calls ∧
      T.searched (.ofCalls calls) = true ∧ T.searchedBelow (.ofCalls calls) = true)
    ⟨fun ⟨hl, hc, hs, hb⟩ => ⟨hl, hc, hs, hb⟩, fun ⟨hl, hc, hs, hb⟩ => ⟨hl, hc, hs, hb⟩⟩

end Template

theorem Sheet.Grown.child {s c : Sheet} {n : Str} (h : s.Grown) (hc : c ∈ s.added n) :
    c.Grown := by
  cases h with
  | mk _ _ added => exact added n c hc

/-! ### Names -/

theorem cStr_of_noNul {s : Str} (h : noNul s = true) : cStr s = s :=
  List.takeWhile_eq_self_iff.mpr (List.all_eq_true.mp h)

section Names

variable {name : Str}

theorem noNul_of_isName (h : isName name = true) : noNul name = true := by
  simp only [isName, Bool.and_eq_true, List.all_eq_true] at h
  exact List.all_eq_true.mpr fun ch hch => (h.2 ch hch).2

theorem upper_of_isName (h : isName name = true) : upperString name = name := by
  simp only [isName, Bool.and_eq_true, beq_iff_eq] at h
  exact h.1.2

theorem plain_of_isName (h : isName name = true) : Plain '{' '}' name := by
  simp only [isName, Bool.and_eq_true, Bool.not_eq_true', List.isEmpty_eq_false_iff,
    List.all_eq_true] at h
  refine ⟨h.1.1, fun hmem => ?_, fun hmem => ?_⟩
  · exact absurd (h.2 _ hmem).1 (by decide)
  · exact absurd (h.2 _ hmem).1 (by decide)

/-- The names of the marks of a section. -/
theorem plain_marks (h : isName name = true) :
    Plain '{' '}' ('#' :: name) ∧ Plain '{' '}' ('/' :: name) :=
  ⟨(plain_of_isName h).cons (by decide) (by decide),
    (plain_of_isName h).cons (by decide) (by decide)⟩

theorem isName_of_isTag (h : isTag name = true) : isName name = true := by
  simp only [isTag, Bool.and_eq_true] at h
  exact h.1.1.1

theorem hasPrefixString_iff {str front : Str} :
    hasPrefixString str front = true ↔ front <+: str := List.isPrefixOf_iff_prefix

/-- A tag is neither the mark of a section nor that of an included file. -/
theorem not_prefix_of_isTag (h : isTag name = true) :
    ¬ ['#'] <+: name ∧ ¬ ['/'] <+: name ∧ ¬ includeTag <+: name := by
  simp only [isTag, Bool.and_eq_true, Bool.not_eq_true', ← Bool.not_eq_true,
    hasPrefixString_iff] at h
  exact ⟨h.1.1.2, h.1.2, h.2⟩

theorem ne_cons_of_isTag {m : Str} (h : isTag name = true) :
    name ≠ '#' :: m ∧ name ≠ '/' :: m := by
  obtain ⟨hsec, hclose, -⟩ := not_prefix_of_isTag h
  refine ⟨?_, ?_⟩
  · rintro rfl
    exact hsec (List.prefix_append ['#'] m)
  · rintro rfl
    exact hclose (List.prefix_append ['/'] m)

end Names

/-! ### The pieces of a template -/

section Pieces

variable {T : Template} {s s' : Sheet} {passed passed' : Str → Bool}
variable {goes : Str → Template → Sheet → Bool}

namespace Template

@[simp] theorem names_done : Template.names done = [] := rfl

@[simp] theorem names_text (t : Str) (rest : Template) : (text t rest).names = rest.names := rfl

@[simp] theorem names_tag (n : Str) (rest : Template) : (tag n rest).names = rest.names := rfl

@[simp] theorem names_sec (n : Str) (body rest : Template) :
    (sec n body rest).names = n :: (body.names ++ rest.names) := by
  simp [names, secs]

theorem isName_of_mem {n : Str} (hT : T.wellFormed = true) (hn : n ∈ T.names) :
    isName n = true := by
  induction T with
  | done => exact absurd hn List.not_mem_nil
  | text t rest ih =>
      rw [wellFormed, Bool.and_eq_true] at hT
      exact ih hT.2 hn
  | tag name rest ih =>
      rw [wellFormed, Bool.and_eq_true] at hT
      exact ih hT.2 hn
  | sec name body rest ihbody ihrest =>
      rw [wellFormed, Bool.and_eq_true, Bool.and_eq_true] at hT
      rw [names_sec, List.mem_cons, List.mem_append] at hn
      rcases hn with rfl | hn | hn
      · exact hT.1.1
      · exact ihbody hT.1.2 hn
      · exact ihrest hT.2 hn

omit T s s' passed passed' goes in
theorem mem_marks_tagPiece {env : Env} {name m : Str} {ps : List (Piece Char)}
    (h : m ∈ marks (tagPiece env name :: ps)) : m = name ∨ m ∈ marks ps := by
  rw [tagPiece] at h
  split at h
  · split at h
    · exact .inr h
    · exact List.mem_cons.mp h
  · exact List.mem_cons.mp h

/-- A mark of the text is a tag or belongs to a section. -/
theorem mem_marks_pieces {m : Str} (hT : T.wellFormed = true)
    (h : m ∈ marks (T.pieces goes passed s)) :
    isTag m = true ∨ ∃ n ∈ T.names, m = '#' :: n ∨ m = '/' :: n := by
  induction T generalizing passed s with
  | done => exact absurd h List.not_mem_nil
  | text t rest ih =>
      rw [wellFormed, Bool.and_eq_true] at hT
      exact ih hT.2 h
  | tag name rest ih =>
      rw [wellFormed, Bool.and_eq_true] at hT
      rw [pieces] at h
      rcases mem_marks_tagPiece h with rfl | h
      · exact .inl hT.1
      · exact ih hT.2 h
  | sec name body rest ihbody ihrest =>
      rw [wellFormed, Bool.and_eq_true, Bool.and_eq_true] at hT
      have hself : m = '#' :: name ∨ m = '/' :: name → ∃ n ∈ (sec name body rest).names,
          m = '#' :: n ∨ m = '/' :: n := fun h => ⟨name, by simp, h⟩
      have hbody : ∀ {passed s}, m ∈ marks (body.pieces goes passed s) → isTag m = true ∨
          ∃ n ∈ (sec name body rest).names, m = '#' :: n ∨ m = '/' :: n := by
        intro passed s h
        refine (ihbody hT.1.2 h).imp id ?_
        rintro ⟨n, hn, hm⟩
        exact ⟨n, by simp [hn], hm⟩
      rw [pieces, marks_append, List.mem_append] at h
      rcases h with h | h
      · split at h
        · obtain ⟨child, -, hm⟩ := List.mem_flatMap.mp (mem_marks.mp h)
          exact hbody (mem_marks.mpr (List.mem_filter.mp hm).1)
        · rw [marks_mark, marks_append, List.mem_cons, List.mem_append] at h
          rcases h with h | h | h
          · exact .inr (hself (.inl h))
          · exact hbody h
          · exact .inr (hself (.inr (by simpa using h)))
      · refine (ihrest hT.2 h).imp id ?_
        rintro ⟨n, hn, hm⟩
        exact ⟨n, by simp [hn], hm⟩

/-- The marks of a text can be told from the brackets around them. -/
theorem plain_pieces (hT : T.wellFormed = true) (passed : Str → Bool) (s : Sheet) :
    ∀ m ∈ marks (T.pieces goes passed s), Plain '{' '}' m := by
  intro m hm
  rcases mem_marks_pieces hT hm with htag | ⟨n, hn, rfl | rfl⟩
  · exact plain_of_isName (isName_of_isTag htag)
  · exact (plain_marks (isName_of_mem hT hn)).1
  · exact (plain_marks (isName_of_mem hT hn)).2

/-- The marks of a section that a template does not have are not in its text. -/
theorem not_mem_marks_pieces {n : Str} (passed : Str → Bool) (s : Sheet)
    (hT : T.wellFormed = true) (hn : n ∉ T.names) :
    '#' :: n ∉ marks (T.pieces goes passed s) ∧ '/' :: n ∉ marks (T.pieces goes passed s) := by
  refine ⟨fun h => ?_, fun h => ?_⟩
  · rcases mem_marks_pieces hT h with htag | ⟨n', hn', heq⟩
    · exact (ne_cons_of_isTag htag).1 rfl
    · obtain rfl : n = n' := by simpa using heq
      exact hn hn'
  · rcases mem_marks_pieces hT h with htag | ⟨n', hn', heq⟩
    · exact (ne_cons_of_isTag htag).2 rfl
    · obtain rfl : n = n' := by simpa using heq
      exact hn hn'

/-- What the text is made of depends on the template's own sections only. -/
theorem pieces_congr (h : ∀ n ∈ T.names, passed n = passed' n) :
    T.pieces goes passed s = T.pieces goes passed' s := by
  induction T with
  | done => rfl
  | text t rest ih => rw [pieces, pieces, ih h]
  | tag name rest ih => rw [pieces, pieces, ih h]
  | sec name body rest ihbody ihrest =>
      have hbody := ihbody fun n hn => h n (by simp [hn])
      have hrest := ihrest fun n hn => h n (by simp [hn])
      rw [pieces, pieces, h name (by simp), hbody, hrest]

/-! #### The text before `Finalize` -/

@[simp] theorem source_done (s : Sheet) : source done s = [] := rfl

@[simp] theorem source_text (t : Str) (rest : Template) (s : Sheet) :
    (text t rest).source s = .text t :: rest.source s := rfl

@[simp] theorem source_tag (n : Str) (rest : Template) (s : Sheet) :
    (tag n rest).source s = tagPiece s.env n :: rest.source s := rfl

@[simp] theorem source_sec (n : Str) (body rest : Template) (s : Sheet) :
    (sec n body rest).source s =
      .mark ('#' :: n) :: (body.source s ++ [.mark ('/' :: n)]) ++ rest.source s := rfl

/-- The text before `Finalize` depends on the values only. -/
theorem source_congr (h : s.env = s'.env) : T.source s = T.source s' := by
  induction T with
  | done => rfl
  | text t rest ih => rw [source_text, source_text, ih]
  | tag name rest ih => rw [source_tag, source_tag, ih, h]
  | sec name body rest ihbody ihrest => rw [source_sec, source_sec, ihbody, ihrest]

theorem env_blank (env : Env) : (Sheet.blank env).env = env := List.append_nil env

theorem print_source (T : Template) : Lib.print '{' '}' (T.source (.blank [])) = T.print := by
  induction T with
  | done => rfl
  | text t rest ih => rw [source_text, print_cons, ih]; rfl
  | tag name rest ih => rw [source_tag, print_cons, ih]; rfl
  | sec name body rest ihbody ihrest =>
      rw [source_sec, print_append, print_cons, print_append, ihbody, ihrest, Template.print,
        Piece.print, print_cons, Piece.print, print_nil, List.append_nil, List.append_assoc,
        List.append_assoc, List.append_assoc, List.append_assoc]

omit T s s' passed passed' goes in
/-- A tag is filled by the first value. -/
theorem fillMark_tagPiece (env : Env) {name : Str} (n value : Str) (hshort : short name = true) :
    fillMark name value (tagPiece env n) = tagPiece (env ++ [(name, value)]) n := by
  have hmark : n ≠ name → fillMark name value (.mark n) = .mark n := fun hn => if_neg hn
  rw [tagPiece, tagPiece, List.lookup_append]
  rcases env.lookup n with - | v
  · by_cases hn : n = name
    · obtain rfl := hn
      simp [fillMark, hshort]
    · rw [hmark hn]
      simp [hn]
  · rw [Option.some_or]
    dsimp only
    split
    · rfl
    · rename_i hlong
      exact hmark fun hn => hlong (hn ▸ hshort)

omit T s s' passed passed' goes in
/-- A tag that is too long stays. -/
theorem tagPiece_long (env : Env) {name : Str} (n value : Str) (hlong : short name = false) :
    tagPiece (env ++ [(name, value)]) n = tagPiece env n := by
  rw [tagPiece, tagPiece, List.lookup_append]
  rcases env.lookup n with - | v
  · by_cases hn : n = name
    · obtain rfl := hn
      simp [hlong]
    · simp [hn]
  · rfl

omit s s' passed passed' goes in
theorem env_setValue (s : Sheet) (name value : Str) :
    (s.step [] (.setValue name value)).env = s.env ++ [(name, value)] :=
  (List.append_assoc _ _ _).symm

/-- Filling a tag is setting its value. -/
theorem map_source {name value : Str} (hsec : ¬ ['#'] <+: name) (hclose : ¬ ['/'] <+: name)
    (hshort : short name = true) :
    (T.source s).map (fillMark name value) =
      T.source (s.step [] (.setValue name value)) := by
  have hmark : ∀ {m}, name ≠ m → fillMark name value (.mark m) = .mark m :=
    fun hne => if_neg (fun heq => hne heq.symm)
  have hne : ∀ {m}, name ≠ '#' :: m ∧ name ≠ '/' :: m := by
    intro m
    refine ⟨?_, ?_⟩
    · rintro rfl
      exact hsec (List.prefix_append ['#'] m)
    · rintro rfl
      exact hclose (List.prefix_append ['/'] m)
  induction T with
  | done => rfl
  | text t rest ih =>
      rw [source_text, source_text, List.map_cons, ih]
      rfl
  | tag n rest ih =>
      rw [source_tag, source_tag, List.map_cons, ih, env_setValue, fillMark_tagPiece _ _ _ hshort]
  | sec n body rest ihbody ihrest =>
      rw [source_sec, source_sec, ← ihbody, ← ihrest]
      simp [hmark hne.1, hmark hne.2]

theorem source_long {name : Str} (value : Str) (hlong : short name = false) :
    T.source (s.step [] (.setValue name value)) = T.source s := by
  induction T with
  | done => rfl
  | text t rest ih => rw [source_text, source_text, ih]
  | tag n rest ih => rw [source_tag, source_tag, ih, env_setValue, tagPiece_long _ _ _ hlong]
  | sec n body rest ihbody ihrest => rw [source_sec, source_sec, ihbody, ihrest]

/-! #### Finding a section -/

omit T s s' passed passed' goes in
theorem extentOf_section (turn : Option Str) (n : Str) :
    extentOf turn (.mark ('#' :: n)) = .of (braced ('#' :: n)) := by
  rw [extentOf, if_pos]
  · rfl
  · rw [keptAt, kept]
    simp [hasPrefixString]

/-- A template in which a section has too long a name is too long. -/
theorem length_of_long {n : Str} (hn : n ∈ T.names) (hlong : short ('/' :: n) = false)
    (turn : Option Str) : 33554432 ≤ (T.extentAt turn s).length := by
  have hadd : ∀ a b : Extent, (a + b).length = a.length + b.length := fun _ _ => rfl
  have hname : 33554432 ≤ n.length + 5 := by
    have hlength := of_decide_eq_false hlong
    simp only [bracket, List.length_cons, List.length_append, List.length_nil] at hlength
    omega
  induction T generalizing turn with
  | done => exact absurd hn List.not_mem_nil
  | text t rest ih =>
      rw [extentAt, hadd]
      exact Nat.le_add_left_of_le (ih hn turn)
  | tag name rest ih =>
      rw [extentAt, hadd]
      exact Nat.le_add_left_of_le (ih hn turn)
  | sec name body rest ihbody ihrest =>
      rw [names_sec, List.mem_cons, List.mem_append] at hn
      rw [extentAt, hadd]
      rcases hn with rfl | hn | hn
      · have hlost : (body.extentAt (some n) s).found n = false := by
          rw [Extent.found]
          simp only [Bool.and_eq_false_iff, decide_eq_false_iff_not]
          exact .inr (by omega)
        rw [if_neg (by rw [hlost, Bool.and_false]; exact Bool.false_ne_true), hadd,
          extentOf_section]
        have hmark : (Extent.of (braced ('#' :: n))).length = n.length + 5 := by
          simp [Extent.of, bracket]
        omega
      · have hlost : (body.extentAt (some name) s).found name = false := by
          have hlength := ihbody hn (some name)
          rw [Extent.found]
          simp only [Bool.and_eq_false_iff, decide_eq_false_iff_not]
          exact .inr (by omega)
        rw [if_neg (by rw [hlost, Bool.and_false]; exact Bool.false_ne_true), hadd, hadd]
        have hlength := ihbody hn turn
        omega
      · exact Nat.le_add_left_of_le (ihrest hn turn)

/-- So the marks in a section that is found are not too long. -/
theorem short_of_hasText {name n : Str} {body : Template} (h : hasText name body s = true)
    (hn : n ∈ body.names) : short ('/' :: n) = true := by
  by_contra hlong
  have hlength := length_of_long (s := s) hn (eq_false_of_ne_true hlong) (some name)
  rw [hasText, Extent.found] at h
  simp only [Bool.and_eq_true, decide_eq_true_eq] at h
  omega

/-- What becomes of a section when its turn comes. -/
def turned (goes : Str → Template → Sheet → Bool) (passed : Str → Bool) (name : Str)
    (body : Template) (s : Sheet) : List (Piece Char) :=
  if goes name body s then
    (s.added name).flatMap fun child => (body.pieces goes (fun _ => true) child).filter kept
  else .mark ('#' :: name) :: (body.pieces goes passed s ++ [.mark ('/' :: name)])

theorem pieces_sec_of_passed {name : Str} (body rest : Template) (h : passed name = true) :
    (sec name body rest).pieces goes passed s =
      turned goes passed name body s ++ rest.pieces goes passed s := by
  rw [pieces, h, turned, Bool.true_and]

/-- A section that is still there. -/
theorem pieces_sec_of_there {name : Str} (body rest : Template)
    (h : (passed name && goes name body s) = false) :
    (sec name body rest).pieces goes passed s =
      .mark ('#' :: name) ::
        (body.pieces goes passed s ++ .mark ('/' :: name) :: rest.pieces goes passed s) := by
  rw [pieces, if_neg (by rw [h]; decide)]
  simp

/-- A section that has been replaced. -/
theorem pieces_sec_of_gone {name : Str} (body rest : Template)
    (h : (passed name && goes name body s) = true) :
    (sec name body rest).pieces goes passed s =
      ((s.added name).flatMap fun child =>
        (body.pieces goes (fun _ => true) child).filter kept) ++ rest.pieces goes passed s := by
  rw [pieces, if_pos h]

/-- The instances of a section have no marks that are not of a section in it, and no closing
mark that is not too long. -/
theorem not_mem_marks_instances {n : Str} {body : Template} (children : List Sheet)
    (hbody : body.wellFormed = true) :
    (n ∈ body.names → short ('/' :: n) = true) →
      '/' :: n ∉ marks (children.flatMap fun child =>
        (body.pieces goes (fun _ => true) child).filter kept) ∧
    (n ∉ body.names →
      '#' :: n ∉ marks (children.flatMap fun child =>
        (body.pieces goes (fun _ => true) child).filter kept)) := by
  intro hshort
  refine ⟨fun h => ?_, fun hn h => ?_⟩
  · obtain ⟨child, -, hm⟩ := List.mem_flatMap.mp (mem_marks.mp h)
    obtain ⟨hm, hkept⟩ := List.mem_filter.mp hm
    by_cases hn : n ∈ body.names
    · rw [kept, hshort hn] at hkept
      exact Bool.false_ne_true hkept
    · exact (not_mem_marks_pieces _ child hbody hn).2 (mem_marks.mpr hm)
  · obtain ⟨child, -, hm⟩ := List.mem_flatMap.mp (mem_marks.mp h)
    exact (not_mem_marks_pieces _ child hbody hn).1 (mem_marks.mpr (List.mem_filter.mp hm).1)

theorem mem_names_of_mem_secs {n : Str} {body : Template} (h : (n, body) ∈ T.secs) :
    n ∈ T.names := List.mem_map_of_mem (f := Prod.fst) h

/-- Where a section is in a text whose pieces are `ps`, and become `ps'` with its turn: it
stands there once, or its closing mark is gone. -/
inductive Located (goes : Str → Template → Sheet → Bool) (n : Str) (s : Sheet)
    (passed : Str → Bool) (secs : List (Str × Template)) :
    List (Piece Char) → List (Piece Char) → Prop
  | there (body : Template) (pre post : List (Piece Char)) (mem : (n, body) ∈ secs)
      (hpre : '#' :: n ∉ marks pre) (hpost : '#' :: n ∉ marks post) :
      Located goes n s passed secs
        (pre ++ .mark ('#' :: n) :: (body.pieces goes passed s ++ .mark ('/' :: n) :: post))
        (pre ++ (turned goes passed n body s ++ post))
  | gone {ps : List (Piece Char)} (closing : '/' :: n ∉ marks ps) :
      Located goes n s passed secs ps ps

namespace Located

variable {n : Str} {secs secs' : List (Str × Template)} {ps ps' : List (Piece Char)}

theorem append_left (front : List (Piece Char)) (h : Located goes n s passed secs ps ps')
    (hsecs : secs ⊆ secs')
    (hopen : '#' :: n ∉ marks front) (hclose : '/' :: n ∉ marks front) :
    Located goes n s passed secs' (front ++ ps) (front ++ ps') := by
  cases h with
  | there body pre post mem hpre hpost =>
      rw [← List.append_assoc, ← List.append_assoc]
      refine there body (front ++ pre) post (hsecs mem) ?_ hpost
      rw [marks_append, List.mem_append]
      exact not_or.mpr ⟨hopen, hpre⟩
  | gone closing =>
      refine gone ?_
      rw [marks_append, List.mem_append]
      exact not_or.mpr ⟨hclose, closing⟩

theorem append_right (back : List (Piece Char)) (h : Located goes n s passed secs ps ps')
    (hsecs : secs ⊆ secs')
    (hopen : '#' :: n ∉ marks back) (hclose : '/' :: n ∉ marks back) :
    Located goes n s passed secs' (ps ++ back) (ps' ++ back) := by
  cases h with
  | there body pre post mem hpre hpost =>
      have hback : '#' :: n ∉ marks (post ++ back) := by
        rw [marks_append, List.mem_append]
        exact not_or.mpr ⟨hpost, hopen⟩
      have hthere : Located goes n s passed secs' _ _ :=
        there body pre (post ++ back) (hsecs mem) hpre hback
      simpa only [List.append_assoc, List.cons_append] using hthere
  | gone closing =>
      refine gone ?_
      rw [marks_append, List.mem_append]
      exact not_or.mpr ⟨closing, hclose⟩

/-- A section stands behind another one. -/
theorem of_rest {name : Str} {body rest : Template} (hbody : body.wellFormed = true)
    (hname : n ≠ name) (hnot : n ∉ body.names) (hpassed : passed' name = passed name)
    (hsame : body.pieces goes passed' s = body.pieces goes passed s)
    (h : Located goes n s passed rest.secs (rest.pieces goes passed s)
      (rest.pieces goes passed' s)) :
    Located goes n s passed (sec name body rest).secs ((sec name body rest).pieces goes passed s)
      ((sec name body rest).pieces goes passed' s) := by
  have hsecs : rest.secs ⊆ (sec name body rest).secs := by simp [secs]
  have hfront : ∃ front, (sec name body rest).pieces goes passed s =
        front ++ rest.pieces goes passed s ∧
      (sec name body rest).pieces goes passed' s = front ++ rest.pieces goes passed' s ∧
      '#' :: n ∉ marks front ∧ '/' :: n ∉ marks front := by
    rcases hp : passed name && goes name body s with - | -
    · obtain ⟨hopen, hclose⟩ : '#' :: n ∉ marks (body.pieces goes passed s) ∧
          '/' :: n ∉ marks (body.pieces goes passed s) :=
        not_mem_marks_pieces passed s hbody hnot
      refine ⟨.mark ('#' :: name) :: (body.pieces goes passed s ++ [.mark ('/' :: name)]), ?_, ?_,
        by simp [hname, hopen], by simp [hname, hclose]⟩
      · rw [pieces_sec_of_there body rest hp]
        simp
      · rw [pieces_sec_of_there body rest (hpassed.symm ▸ hp), hsame]
        simp
    · obtain ⟨hclose, hopen⟩ := not_mem_marks_instances (s.added name) hbody
        fun hn => absurd hn hnot
      exact ⟨_, pieces_sec_of_gone body rest hp,
        pieces_sec_of_gone body rest (hpassed.symm ▸ hp), hopen hnot, hclose⟩
  obtain ⟨front, hpieces, hpieces', hopen, hclose⟩ := hfront
  rw [hpieces, hpieces']
  exact h.append_left front hsecs hopen hclose

/-- A section stands in another one, or went with it. -/
theorem of_body {name : Str} {body rest : Template} (hrest : rest.wellFormed = true)
    (hbody : body.wellFormed = true)
    (hshort : goes name body s = true → n ∈ body.names → short ('/' :: n) = true)
    (hname : n ≠ name) (hnot : n ∉ rest.names) (hpassed : passed' name = passed name)
    (hsame : rest.pieces goes passed' s = rest.pieces goes passed s)
    (h : Located goes n s passed body.secs (body.pieces goes passed s)
      (body.pieces goes passed' s)) :
    Located goes n s passed (sec name body rest).secs ((sec name body rest).pieces goes passed s)
      ((sec name body rest).pieces goes passed' s) := by
  have hsecs : body.secs ⊆ (sec name body rest).secs := by simp [secs]
  obtain ⟨hopen, hclose⟩ : '#' :: n ∉ marks (rest.pieces goes passed s) ∧
      '/' :: n ∉ marks (rest.pieces goes passed s) :=
    not_mem_marks_pieces passed s hrest hnot
  rcases hp : passed name && goes name body s with - | -
  · rw [pieces_sec_of_there body rest hp, pieces_sec_of_there body rest (hpassed.symm ▸ hp), hsame]
    have hinner := h.append_right (.mark ('/' :: name) :: rest.pieces goes passed s) hsecs
      (by simpa using hopen) (by simpa [hname] using hclose)
    exact hinner.append_left [.mark ('#' :: name)] (List.Subset.refl _) (by simpa using hname)
      (by simp)
  · rw [pieces_sec_of_gone body rest hp, pieces_sec_of_gone body rest (hpassed.symm ▸ hp), hsame]
    refine .gone ?_
    rw [marks_append, List.mem_append]
    have hgoes : goes name body s = true := (Bool.and_eq_true _ _ ▸ hp).2
    exact not_or.mpr ⟨(not_mem_marks_instances _ hbody (hshort hgoes)).1, hclose⟩

end Located

/-- The turn of a section changes what a text is made of there only. -/
theorem locate {n : Str} (hT : T.wellFormed = true) (hnodup : T.names.Nodup)
    (hshort : ∀ name body, goes name body s = true → ∀ m ∈ body.names, short ('/' :: m) = true)
    (hn : passed n = false) (hn' : passed' n = true)
    (hne : ∀ m, m ≠ n → passed' m = passed m) :
    Located goes n s passed T.secs (T.pieces goes passed s) (T.pieces goes passed' s) := by
  have hsame : ∀ {T' : Template}, n ∉ T'.names →
      T'.pieces goes passed' s = T'.pieces goes passed s :=
    fun hnot => pieces_congr fun m hm => hne m fun heq => hnot (heq ▸ hm)
  induction T with
  | done => exact .gone List.not_mem_nil
  | text t rest ih =>
      rw [wellFormed, Bool.and_eq_true] at hT
      exact (ih hT.2 hnodup).append_left [.text t] (List.Subset.refl _) List.not_mem_nil
        List.not_mem_nil
  | tag name rest ih =>
      rw [wellFormed, Bool.and_eq_true] at hT
      have htag : ∀ {m}, m ∈ marks [tagPiece s.env name] → m = name := fun hm =>
        (mem_marks_tagPiece hm).resolve_right List.not_mem_nil
      exact (ih hT.2 hnodup).append_left [tagPiece s.env name] (List.Subset.refl _)
        (fun hm => (ne_cons_of_isTag hT.1).1 (htag hm).symm)
        (fun hm => (ne_cons_of_isTag hT.1).2 (htag hm).symm)
  | sec name body rest ihbody ihrest =>
      rw [wellFormed, Bool.and_eq_true, Bool.and_eq_true] at hT
      rw [names_sec, List.nodup_cons, List.nodup_append, List.mem_append, not_or] at hnodup
      obtain ⟨⟨hbodyName, hrestName⟩, hbodyNodup, hrestNodup, hdisjoint⟩ := hnodup
      by_cases hname : n = name
      · obtain rfl := hname
        rw [pieces_sec_of_there body rest (by rw [hn, Bool.false_and]),
          pieces_sec_of_passed body rest hn', hsame hrestName, turned, hsame hbodyName]
        exact .there body [] _ (by simp [secs]) List.not_mem_nil
          (not_mem_marks_pieces _ s hT.2 hrestName).1
      · have hpassed := hne name fun heq => hname heq.symm
        by_cases hrest : n ∈ rest.names
        · have hbody : n ∉ body.names := fun h => hdisjoint n h n hrest rfl
          exact Located.of_rest hT.1.2 hname hbody hpassed (hsame hbody) (ihrest hT.2 hrestNodup)
        · exact Located.of_body hT.2 hT.1.2 (fun hgoes => hshort name body hgoes n) hname hrest
            hpassed (hsame hrest) (ihbody hT.1.2 hbodyNodup)

end Template

end Pieces

end Orbit.Html
