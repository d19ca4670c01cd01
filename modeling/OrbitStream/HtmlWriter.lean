/-
OrbitStream/HtmlWriter.lean

The template writer (`TemplateHTMLWriter` of `http_server/html_writer.{h,cc}`).

A writer keeps its template as one text.  Loading it reads all marks of the text, those of
nested sections too; `SetValue`, `AddSection` and `Finalize` search the text.  A client calls
a writer and the instances it has got from `AddSection` in any order.

The regular expressions are modelled for section names without metacharacters, for which
they search for the name itself.
-/
import OrbitStream.Lib.Markers
import OrbitStream.StrUtil

namespace Orbit.Html

open Lib StrUtil

/-! ### Strings -/

/-- A mark: a text in double braces. -/
abbrev braced (s : Str) : Str := bracket '{' '}' s

/-- What the mark of an included file begins with. -/
def includeTag : Str := ">INCLUDE_TEMPLATE<".toList

/-- `operator<` of `std::string`. -/
def strLess : Str → Str → Bool
  | _, [] => false
  | [], _ :: _ => true
  | a :: s, b :: t => decide (a.toNat < b.toNat) || (a == b && strLess s t)

/-- `std::set::insert`, for a set given by its elements in order. -/
def setInsert (key : Str) : List Str → List Str
  | [] => [key]
  | k :: keys =>
      if strLess key k then key :: k :: keys
      else if strLess k key then k :: setInsert key keys
      else k :: keys

/-- Assignment through `std::map::operator[]`, for a map given by its entries in order. -/
def mapAssign {β : Type} (key : Str) (value : β) : List (Str × β) → List (Str × β)
  | [] => [(key, value)]
  | (k, v) :: entries =>
      if strLess key k then (key, value) :: (k, v) :: entries
      else if strLess k key then (k, v) :: mapAssign key value entries
      else (key, value) :: entries

/-! ### The writer -/

/-- `TemplateHTMLWriter`. -/
structure TemplateHTMLWriter where
  htmlTemplate : Str := []
  tagsSet : List Str := []
  sectionsReplace : List (Str × List TemplateHTMLWriter) := []
  templateDir : Str := []

namespace TemplateHTMLWriter

/-- `GetSection`. -/
def getSection (w : TemplateHTMLWriter) (tag : Str) : Str :=
  between (braced ('#' :: tag)) (braced ('/' :: tag)) w.htmlTemplate

/-- The loop of `AddIncludeTemplates`: `htmlTpl` is what it still reads of the text it was
called with.  `readFile` is what `SimpleFileLineReader` reads from a file. -/
def addIncludes (readFile : Str → Option Str) (templateDir : Str) : ℕ → Str → Str → Str
  | 0, _, html => html
  | fuel + 1, htmlTpl, html =>
      match splitFirst ('{' :: '{' :: includeTag) htmlTpl with
      | none => html
      | some (_, rest) =>
          match splitFirst ['}', '}'] rest with
          | none => html
          | some (tag, rest) =>
              let html :=
                if tag = [] then html
                else match readFile (templateDir ++ tag) with
                  | some content =>
                      stringReplace html (stringPrintf (braced (includeTag ++ cStr tag))) content true
                  | none => stringReplace html [] [] true
              addIncludes readFile templateDir fuel rest html

/-- `AddIncludeTemplates`. -/
def addIncludeTemplates (readFile : Str → Option Str) (w : TemplateHTMLWriter) :
    TemplateHTMLWriter :=
  { w with
    htmlTemplate :=
      addIncludes readFile w.templateDir w.htmlTemplate.length w.htmlTemplate w.htmlTemplate }

/-- What the loop of `FindAllSections` does with a mark it finds. -/
def registerTag (w : TemplateHTMLWriter) (tag : Str) : TemplateHTMLWriter :=
  if tag = upperString tag then
    if hasPrefixString tag ['#'] then
      { w with sectionsReplace := mapAssign (tag.drop 1) [] w.sectionsReplace }
    else { w with tagsSet := setInsert tag w.tagsSet }
  else w

/-- `FindAllSections`. -/
def findAllSections (w : TemplateHTMLWriter) : TemplateHTMLWriter :=
  (findMarks '{' '}' w.htmlTemplate.length w.htmlTemplate).foldl registerTag w

/-- `LoadTemplate`. -/
def loadTemplate (readFile : Str → Option Str) (w : TemplateHTMLWriter) (htmlTemplate : Str) :
    TemplateHTMLWriter :=
  findAllSections (addIncludeTemplates readFile { w with htmlTemplate := htmlTemplate })

/-- `AddSection`, or `none` where it returns a null pointer. -/
def addSection (readFile : Str → Option Str) (w : TemplateHTMLWriter) (sectionName : Str) :
    Option TemplateHTMLWriter :=
  if sectionName ∉ w.sectionsReplace.map Prod.fst then none
  else
    let sectionHtml := w.getSection sectionName
    if sectionHtml = [] then none
    else
      some { w with
        sectionsReplace := w.sectionsReplace.map fun entry =>
          (entry.1, if entry.1 = sectionName then
            entry.2 ++ [loadTemplate readFile {} sectionHtml] else entry.2) }

/-- `SetValue`. -/
def setValue (w : TemplateHTMLWriter) (tag value : Str) : TemplateHTMLWriter :=
  let tagName := stringPrintf (braced (cStr tag))
  { w with htmlTemplate := stringReplace w.htmlTemplate tagName value true }

/-- What `Finalize` does with a section, given what its instances have become. -/
def replaceSection (w : TemplateHTMLWriter) (sectionName replaced : Str) : TemplateHTMLWriter :=
  let sectionHtml := w.getSection sectionName
  if sectionHtml = [] then w
  else
    let oldSection := stringPrintf (braced ('#' :: cStr sectionName) ++ cStr sectionHtml ++
      braced ('/' :: cStr sectionName))
    { w with htmlTemplate := stringReplace w.htmlTemplate oldSection replaced true }

mutual

/-- `Finalize`. -/
def finalize : TemplateHTMLWriter → Str
  | ⟨html, tags, sections, dir⟩ =>
      (tags.foldl (fun w tag => setValue w tag [])
        ((outputs sections).foldl (fun w entry => replaceSection w entry.1 entry.2)
          ⟨html, tags, sections, dir⟩)).htmlTemplate

/-- What the instances of each section become. -/
def outputs : List (Str × List TemplateHTMLWriter) → List (Str × Str)
  | [] => []
  | (name, newSections) :: sections => (name, finalizeAll newSections) :: outputs sections

def finalizeAll : List TemplateHTMLWriter → Str
  | [] => []
  | w :: newSections => w.finalize ++ finalizeAll newSections

end

end TemplateHTMLWriter

/-! ### Calls -/

/-- A writer is named by the calls of `AddSection` that lead to it: the section, and the
place of the instance among those of this section. -/
abbrev Handle := List (Str × ℕ)

inductive Call
  | setValue (tag value : Str)
  | addSection (sectionName : Str)

/-- A call on the writer itself or on one of its instances. -/
def TemplateHTMLWriter.step (readFile : Str → Option Str) (w : TemplateHTMLWriter) :
    Handle → Call → TemplateHTMLWriter
  | [], .setValue tag value => w.setValue tag value
  | [], .addSection name => (w.addSection readFile name).getD w
  | (name, k) :: handle, call =>
      { w with
        sectionsReplace := w.sectionsReplace.map fun entry =>
          (entry.1, if entry.1 = name then
            entry.2.modify k fun child => child.step readFile handle call else entry.2) }

/-- A new writer that loads a template, gets the calls and is finalized. -/
def render (readFile : Str → Option Str) (htmlTemplate : Str) (calls : List (Handle × Call)) :
    Str :=
  (calls.foldl (fun w call => w.step readFile call.1 call.2)
    (TemplateHTMLWriter.loadTemplate readFile {} htmlTemplate)).finalize

/-! ### The order of strings -/

theorem strLess_irrefl (s : Str) : strLess s s = false := by
  induction s with
  | nil => rfl
  | cons a s ih => simp [strLess, ih]

theorem strLess_trans {s t u : Str} (hst : strLess s t = true) (htu : strLess t u = true) :
    strLess s u = true := by
  induction s generalizing t u with
  | nil =>
      rcases u with - | ⟨c, u⟩
      · rcases t with - | ⟨b, t⟩ <;> exact absurd htu Bool.false_ne_true
      · rfl
  | cons a s ih =>
      rcases t with - | ⟨b, t⟩
      · exact absurd hst Bool.false_ne_true
      · rcases u with - | ⟨c, u⟩
        · exact absurd htu Bool.false_ne_true
        · simp only [strLess, Bool.or_eq_true, Bool.and_eq_true, decide_eq_true_eq,
            beq_iff_eq] at hst htu ⊢
          rcases hst with hst | ⟨rfl, hst⟩
          · rcases htu with htu | ⟨rfl, htu⟩
            · exact .inl (hst.trans htu)
            · exact .inl hst
          · exact htu.imp id (And.imp_right (ih hst))

theorem strLess_total {s t : Str} (hst : strLess s t = false) (hts : strLess t s = false) :
    s = t := by
  induction s generalizing t with
  | nil =>
      rcases t with - | ⟨b, t⟩
      · rfl
      · exact absurd hst.symm Bool.false_ne_true
  | cons a s ih =>
      rcases t with - | ⟨b, t⟩
      · exact absurd hts.symm Bool.false_ne_true
      · simp only [strLess, Bool.or_eq_false_iff, decide_eq_false_iff_not,
          Bool.and_eq_false_iff, beq_eq_false_iff_ne] at hst hts
        obtain rfl : a = b := Char.toNat_inj.mp (by omega)
        obtain rfl := ih (hst.2.resolve_left (fun h => h rfl)) (hts.2.resolve_left (fun h => h rfl))
        rfl

theorem mem_setInsert {k key : Str} {keys : List Str} :
    k ∈ setInsert key keys ↔ k = key ∨ k ∈ keys := by
  induction keys with
  | nil => simp [setInsert]
  | cons k' keys ih =>
      rw [setInsert]
      split
      · exact List.mem_cons
      · split
        · rw [List.mem_cons, ih, List.mem_cons]
          exact or_left_comm
        · obtain rfl : key = k' :=
            strLess_total (Bool.not_eq_true _ ▸ ‹_›) (Bool.not_eq_true _ ▸ ‹_›)
          simp

theorem pairwise_setInsert {key : Str} {keys : List Str}
    (h : keys.Pairwise fun k k' => strLess k k' = true) :
    (setInsert key keys).Pairwise fun k k' => strLess k k' = true := by
  induction keys with
  | nil => exact List.pairwise_singleton _ _
  | cons k keys ih =>
      obtain ⟨hk, hkeys⟩ := List.pairwise_cons.mp h
      rw [setInsert]
      split
      · rename_i hless
        refine List.pairwise_cons.mpr ⟨fun k' hk' => ?_, h⟩
        rcases List.mem_cons.mp hk' with rfl | hk'
        · exact hless
        · exact strLess_trans hless (hk k' hk')
      · split
        · rename_i hless
          refine List.pairwise_cons.mpr ⟨fun k' hk' => ?_, ih hkeys⟩
          rcases mem_setInsert.mp hk' with rfl | hk'
          · exact hless
          · exact hk k' hk'
        · exact h

theorem mem_foldl_setInsert {k : Str} {names keys : List Str} :
    k ∈ names.foldl (fun keys name => setInsert name keys) keys ↔ k ∈ names ∨ k ∈ keys := by
  induction names generalizing keys with
  | nil => simp
  | cons name names ih =>
      rw [List.foldl_cons, ih, mem_setInsert, List.mem_cons]
      exact or_assoc.symm.trans (or_congr or_comm Iff.rfl)

theorem pairwise_foldl_setInsert {names keys : List Str}
    (h : keys.Pairwise fun k k' => strLess k k' = true) :
    (names.foldl (fun keys name => setInsert name keys) keys).Pairwise
      fun k k' => strLess k k' = true := by
  induction names generalizing keys with
  | nil => exact h
  | cons name names ih => exact ih (pairwise_setInsert h)

/-- Assigning an empty entry adds its key. -/
theorem mapAssign_map {β : Type} (value : β) (key : Str) (keys : List Str) :
    mapAssign key value (keys.map fun k => (k, value)) =
      (setInsert key keys).map fun k => (k, value) := by
  induction keys with
  | nil => rfl
  | cons k keys ih =>
      rw [List.map_cons, mapAssign, setInsert]
      split
      · rfl
      · split
        · rw [ih, List.map_cons]
        · obtain rfl : key = k :=
            strLess_total (Bool.not_eq_true _ ▸ ‹_›) (Bool.not_eq_true _ ▸ ‹_›)
          rfl

end Orbit.Html
