/-
OrbitStream/HtmlRender.lean

What a template becomes (`TemplateHTMLWriter::Finalize`).

`Finalize` takes the sections in the order of their names, those of nested sections among
them, each replaced where it stands in the text that the ones before have left; in the end it
clears the tags.  A section whose text is empty by then is not found any more, one with a NUL
in it is cut by `c_str`, and one that is too long is not written by `StringPrintf`: its opening
mark stays in what is returned.  `render_eq`: where texts and values spell no marks, that
is all that can go wrong.
-/
import OrbitStream.HtmlCalls

namespace Orbit.Html

open Lib StrUtil

variable {T body : Template} {s : Sheet} {n : Str} {passed : Str → Bool}

/-! ### What a section is at its turn -/

theorem noNul_append (t u : Str) : noNul (t ++ u) = (noNul t && noNul u) := List.all_append

/-- No mark has a NUL. -/
theorem noNul_of_mem_marks {goes : Str → Template → Sheet → Bool} {m : Str}
    (hT : T.wellFormed = true) (h : m ∈ marks (T.pieces goes passed s)) : noNul m = true := by
  rcases Template.mem_marks_pieces hT h with htag | ⟨n, hn, rfl | rfl⟩
  · exact noNul_of_isName (isName_of_isTag htag)
  · exact (noNul_append ['#'] n).trans (noNul_of_isName (Template.isName_of_mem hT hn))
  · exact (noNul_append ['/'] n).trans (noNul_of_isName (Template.isName_of_mem hT hn))

theorem keptAt_of_kept {turn : Option Str} {p : Piece Char} (h : kept p = true) :
    keptAt turn p = true := by
  rw [keptAt, h, Bool.or_true]

theorem kept_of_isTag (h : isTag n = true) (hshort : short n = true) :
    kept (.mark n) = false := by
  have hsec : hasPrefixString n ['#'] = false := by
    rw [← Bool.not_eq_true]
    exact fun hkept => (not_prefix_of_isTag h).1 (hasPrefixString_iff.mp hkept)
  rw [kept, hsec, hshort]
  rfl

/-- Clearing the tags once more does nothing. -/
theorem filter_keptAt_kept (turn : Option Str) (ps : List (Piece Char)) :
    (ps.filter kept).filter (keptAt turn) = ps.filter kept :=
  List.filter_eq_self.mpr fun _ hp => keptAt_of_kept (List.mem_filter.mp hp).2

namespace Extent

theorem of_append (t u : Str) : of (t ++ u) = of t + of u := by
  show (⟨(t ++ u).length, noNul (t ++ u)⟩ : Extent) = ⟨t.length + u.length, noNul t && noNul u⟩
  rw [List.length_append, noNul_append]

theorem zero_add (e : Extent) : 0 + e = e := by
  show (⟨0 + e.length, true && e.clean⟩ : Extent) = e
  rw [Nat.zero_add, Bool.true_and]

/-- The extent of pieces that are left. -/
theorem of_filter_cons (turn : Option Str) (p : Piece Char) (ps : List (Piece Char)) :
    extentOf turn p + of (Lib.print '{' '}' (ps.filter (keptAt turn))) =
      of (Lib.print '{' '}' ((p :: ps).filter (keptAt turn))) := by
  rw [extentOf, List.filter_cons]
  split
  · rw [print_cons, of_append]
  · exact zero_add _

theorem of_filter_append (turn : Option Str) (ps qs : List (Piece Char)) :
    of (Lib.print '{' '}' (ps.filter (keptAt turn))) +
        of (Lib.print '{' '}' (qs.filter (keptAt turn))) =
      of (Lib.print '{' '}' ((ps ++ qs).filter (keptAt turn))) := by
  rw [List.filter_append, print_append, of_append]

theorem sum_map_of {β : Type} (f : β → Str) (l : List β) :
    (l.map fun x => of (f x)).sum = of (l.flatMap f) := by
  induction l with
  | nil => rfl
  | cons x l ih => rw [List.map_cons, List.sum_cons, ih, List.flatMap_cons, of_append]

end Extent

namespace Template

/-- `extentAt` speaks of the pieces of the text. -/
theorem extentAt_eq (turn : Option Str) (T : Template) (s : Sheet) :
    T.extentAt turn s = .of (Lib.print '{' '}'
      ((T.pieces hasText (passedAt turn) s).filter (keptAt turn))) := by
  induction T generalizing turn s with
  | done => rfl
  | text t rest ih =>
      rw [extentAt, pieces, ih, ← Extent.of_filter_cons, extentOf, if_pos (keptAt_of_kept rfl)]
      rfl
  | tag name rest ih => rw [extentAt, pieces, ih, Extent.of_filter_cons]
  | sec name body rest ihbody ihrest =>
      rw [extentAt, pieces, ihrest, ← Extent.of_filter_append]
      congr 1
      show (if passedAt turn name && hasText name body s then _ else _) = _
      split
      · simp only [ihbody none]
        rw [Extent.sum_map_of, List.filter_flatMap]
        simp only [filter_keptAt_kept]
        rw [Lib.print, List.flatMap_assoc]
        rfl
      · have hclosing : extentOf turn (.mark ('/' :: name)) =
            .of (Lib.print '{' '}' ([Piece.mark ('/' :: name)].filter (keptAt turn))) := by
          rw [extentOf, List.filter_cons]
          split
          · rw [print_cons, List.filter_nil, print_nil, List.append_nil]
          · rfl
        rw [ihbody, hclosing, Extent.of_filter_append, Extent.of_filter_cons]

/-- A section is found and written if it has a text. -/
theorem hasText_iff (hpassed : ∀ m ∈ body.names, passed m = strLess m n) :
    hasText n body s = true ↔
      Lib.print '{' '}' (body.pieces hasText passed s) ≠ [] ∧
        noNul (Lib.print '{' '}' (body.pieces hasText passed s)) = true ∧
        (Lib.print '{' '}' (body.pieces hasText passed s)).length + 2 * n.length + 10 <
          33554432 := by
  have hall : ∀ ps : List (Piece Char), ps.filter (keptAt (some n)) = ps :=
    fun ps => List.filter_eq_self.mpr fun _ _ => rfl
  have hturn : body.pieces hasText passed s = body.pieces hasText (passedAt (some n)) s :=
    pieces_congr hpassed
  rw [hturn, hasText, extentAt_eq, hall, Extent.found, Bool.and_eq_true, Bool.and_eq_true,
    decide_eq_true_iff, decide_eq_true_iff, and_assoc]
  exact and_congr_left' List.length_pos_iff

end Template

/-! ### The turn of a section -/

/-- A text that is cut at a NUL is not found. -/
theorem not_prefix_cStr {t u r : Str} (h : noNul t = false) :
    ¬ cStr t ++ '{' :: u <+: t ++ r := by
  induction t with
  | nil => exact absurd h.symm Bool.false_ne_true
  | cons ch t ih =>
      by_cases hch : ch.toNat = 0
      · rw [cStr, List.takeWhile_cons_of_neg (by simp [hch])]
        intro hpre
        rw [← (List.cons_prefix_cons.mp hpre).1] at hch
        exact absurd hch (by decide)
      · have ht : noNul t = false := by
          rw [show noNul (ch :: t) = (decide (ch.toNat ≠ 0) && noNul t) from rfl,
            decide_eq_true hch, Bool.true_and] at h
          exact h
        rw [cStr, List.takeWhile_cons_of_pos (by simpa using hch)]
        exact fun hpre => ih ht (List.cons_prefix_cons.mp hpre).2

theorem stringReplace_mark (m u v html : Str) :
    stringReplace html (braced m ++ u) v true =
      replaceFrom (braced m ++ u) v true html.length html :=
  if_neg (List.cons_ne_nil _ _)

section Turn

variable {w : TemplateHTMLWriter} {pre cs post : List (Piece Char)} {replaced : Str}

theorem length_section (t : Str) :
    (braced ('#' :: n) ++ t ++ braced ('/' :: n)).length = t.length + 2 * n.length + 10 := by
  simp only [bracket, List.length_append, List.length_cons, List.length_nil]
  omega

/-- A section that has a text is replaced. -/
theorem replaceSection_of_text (hn : isName n = true)
    (hw : w.htmlTemplate =
      Lib.print '{' '}' (pre ++ .mark ('#' :: n) :: (cs ++ .mark ('/' :: n) :: post)))
    (hplain : ∀ m ∈ marks (pre ++ .mark ('#' :: n) :: (cs ++ .mark ('/' :: n) :: post)),
      Plain '{' '}' m)
    (hopen : Apart '{' '}' ('#' :: n)
      (pre ++ .mark ('#' :: n) :: (cs ++ .mark ('/' :: n) :: post)))
    (hclose : Apart '{' '}' ('/' :: n)
      (pre ++ .mark ('#' :: n) :: (cs ++ .mark ('/' :: n) :: post)))
    (hpre : '#' :: n ∉ marks pre) (hpost : '#' :: n ∉ marks post) (hcs : '/' :: n ∉ marks cs)
    (hempty : Lib.print '{' '}' cs ≠ []) (hnoNul : noNul (Lib.print '{' '}' cs) = true)
    (hfits : (Lib.print '{' '}' cs).length + 2 * n.length + 10 < 33554432) :
    (w.replaceSection n replaced).htmlTemplate =
      Lib.print '{' '}' pre ++ (replaced ++ Lib.print '{' '}' post) := by
  have hcStr : cStr n = n := cStr_of_noNul (noNul_of_isName hn)
  have hlen : w.htmlTemplate.length ≠ 0 := by
    rw [hw]
    simp [Piece.print, bracket]
  obtain ⟨fuel, hfuel⟩ := Nat.exists_eq_succ_of_ne_zero hlen
  have hprint : Lib.print '{' '}' (pre ++ .mark ('#' :: n) :: (cs ++ .mark ('/' :: n) :: post)) =
      Lib.print '{' '}' pre ++ (braced ('#' :: n) ++
        (Lib.print '{' '}' cs ++ braced ('/' :: n)) ++ Lib.print '{' '}' post) := by
    simp only [print_append, print_cons, Piece.print, List.append_assoc]
  have hwritten : stringPrintf (braced ('#' :: n) ++ Lib.print '{' '}' cs ++ braced ('/' :: n)) =
      braced ('#' :: n) ++ Lib.print '{' '}' cs ++ braced ('/' :: n) := by
    rw [stringPrintf, if_neg]
    rw [length_section]
    omega
  rw [TemplateHTMLWriter.replaceSection, getSection_there hw hplain hopen hclose hpre hcs,
    if_neg hempty, hcStr, cStr_of_noNul hnoNul]
  dsimp only
  rw [hwritten, List.append_assoc, stringReplace_mark, hfuel, hw, hprint]
  exact replaceFrom_chunk (by decide) (fun m hm => hplain m (by simp at hm ⊢; tauto))
    (hopen.of_infix (List.prefix_append _ _).isInfix)
    (hopen.of_infix ⟨pre ++ .mark ('#' :: n) :: (cs ++ [.mark ('/' :: n)]), [], by simp⟩)
    (List.prefix_append _ _) (plain_marks hn).1.opening (plain_marks hn).1.closing hpre hpost

/-- A section that is empty, has a NUL or is too long stays. -/
theorem replaceSection_of_no_text (hn : isName n = true)
    (hw : w.htmlTemplate =
      Lib.print '{' '}' (pre ++ .mark ('#' :: n) :: (cs ++ .mark ('/' :: n) :: post)))
    (hplain : ∀ m ∈ marks (pre ++ .mark ('#' :: n) :: (cs ++ .mark ('/' :: n) :: post)),
      Plain '{' '}' m)
    (hopen : Apart '{' '}' ('#' :: n)
      (pre ++ .mark ('#' :: n) :: (cs ++ .mark ('/' :: n) :: post)))
    (hclose : Apart '{' '}' ('/' :: n)
      (pre ++ .mark ('#' :: n) :: (cs ++ .mark ('/' :: n) :: post)))
    (hpre : '#' :: n ∉ marks pre) (hpost : '#' :: n ∉ marks post) (hcs : '/' :: n ∉ marks cs)
    (hcsOpen : '#' :: n ∉ marks cs)
    (hno : ¬ (Lib.print '{' '}' cs ≠ [] ∧ noNul (Lib.print '{' '}' cs) = true ∧
      (Lib.print '{' '}' cs).length + 2 * n.length + 10 < 33554432)) :
    (w.replaceSection n replaced).htmlTemplate = w.htmlTemplate := by
  rw [TemplateHTMLWriter.replaceSection, getSection_there hw hplain hopen hclose hpre hcs,
    cStr_of_noNul (noNul_of_isName hn)]
  split
  · rfl
  · rename_i hempty
    dsimp only
    by_cases hlong : (braced ('#' :: n) ++ cStr (Lib.print '{' '}' cs) ++
        braced ('/' :: n)).length + 1 > 33554432
    · rw [stringPrintf, if_pos hlong]
      rfl
    -- what is written is cut at a NUL
    · have hNul : noNul (Lib.print '{' '}' cs) = false := by
        apply eq_false_of_ne_true
        intro hnoNul
        rw [cStr_of_noNul hnoNul, length_section] at hlong
        exact hno ⟨hempty, hnoNul, by omega⟩
      rw [stringPrintf, if_neg hlong, List.append_assoc, stringReplace_mark]
      apply replaceFrom_of_none
      rw [hw, print_append, print_cons]
      apply splitFirst_eq_none_of_mismatch (by decide) hplain hopen hpre
      · rw [marks_append, marks_mark, List.mem_append, List.mem_cons, not_or, not_or]
        exact ⟨hcsOpen, by simp, hpost⟩
      · rw [print_append]
        exact not_prefix_cStr hNul

/-- A section is replaced at its turn if it has a text. -/
theorem replaceSection_html {secs : List (Str × Template)} {ps ps' : List (Piece Char)}
    (h : Template.Located Template.hasText n s passed secs ps ps') (hn : isName n = true)
    (hw : w.htmlTemplate = Lib.print '{' '}' ps) (hplain : ∀ m ∈ marks ps, Plain '{' '}' m)
    (hopening : Apart '{' '}' ('#' :: n) ps) (hclosing : Apart '{' '}' ('/' :: n) ps)
    (hsecs : ∀ body, (n, body) ∈ secs → body.wellFormed = true ∧ n ∉ body.names ∧
      ∀ m ∈ body.names, passed m = strLess m n)
    (hreplaced : ∀ body, (n, body) ∈ secs → Template.hasText n body s = true →
      replaced = Lib.print '{' '}' ((s.added n).flatMap fun child =>
        (body.pieces Template.hasText (fun _ => true) child).filter kept)) :
    (w.replaceSection n replaced).htmlTemplate = Lib.print '{' '}' ps' := by
  cases h with
  | there body pre post mem hpre hpost =>
      obtain ⟨hbody, hnot, hpassed⟩ := hsecs body mem
      obtain ⟨hopen, hclose⟩ := Template.not_mem_marks_pieces passed s hbody hnot
      have htext := Template.hasText_iff (s := s) hpassed
      by_cases hhas : Template.hasText n body s = true
      · obtain ⟨hempty, hnoNul, hfits⟩ := htext.mp hhas
        rw [replaceSection_of_text hn hw hplain hopening hclosing hpre hpost hclose hempty hnoNul
          hfits, Template.turned, if_pos hhas, print_append, print_append, hreplaced body mem hhas]
      · rw [replaceSection_of_no_text hn hw hplain hopening hclosing hpre hpost hclose hopen
          (fun hyes => hhas (htext.mpr hyes)), hw, Template.turned, if_neg hhas]
        simp
  | gone closing =>
      have hget : w.getSection n = [] := by
        rw [TemplateHTMLWriter.getSection, hw]
        exact between_eq_nil (by decide) hplain hclosing (plain_marks hn).2.opening
          (plain_marks hn).2.closing closing
      rw [TemplateHTMLWriter.replaceSection, hget, if_pos rfl, hw]

end Turn

/-! ### All turns -/

namespace TemplateHTMLWriter

theorem outputs_eq (sections : List (Str × List TemplateHTMLWriter)) :
    outputs sections = sections.map fun entry => (entry.1, finalizeAll entry.2) := by
  induction sections with
  | nil => rw [outputs, List.map_nil]
  | cons entry sections ih => rw [outputs, List.map_cons, ih]

theorem finalizeAll_eq (ws : List TemplateHTMLWriter) :
    finalizeAll ws = ws.flatMap finalize := by
  induction ws with
  | nil => rw [finalizeAll, List.flatMap_nil]
  | cons w ws ih => rw [finalizeAll, List.flatMap_cons, ih]

end TemplateHTMLWriter

namespace Template

theorem names_subset_of_mem_secs (h : (n, body) ∈ T.secs) : body.names ⊆ T.names := by
  induction T with
  | done => exact absurd h List.not_mem_nil
  | text t rest ih => exact ih h
  | tag name rest ih => exact ih h
  | sec name body' rest ihbody ihrest =>
      rw [secs, List.mem_cons, List.mem_append] at h
      intro m hm
      rw [names_sec, List.mem_cons, List.mem_append]
      rcases h with h | h | h
      · obtain ⟨rfl, rfl⟩ := Prod.mk.inj h
        exact .inr (.inl hm)
      · exact .inr (.inl (ihbody h hm))
      · exact .inr (.inr (ihrest h hm))

end Template

/-- What stands before a string in a list in order is what is less. -/
theorem mem_front_iff {front todo : List Str} {m : Str}
    (hsorted : (front ++ n :: todo).Pairwise fun k k' => strLess k k' = true)
    (hm : m ∈ front ++ n :: todo) : decide (m ∈ front) = strLess m n := by
  obtain ⟨-, htodo, hfront⟩ := List.pairwise_append.mp hsorted
  by_cases hless : strLess m n = true
  · rw [hless]
    refine decide_eq_true ?_
    rcases List.mem_append.mp hm with hmem | hmem
    · exact hmem
    · -- it would not come before itself
      exfalso
      rcases List.mem_cons.mp hmem with rfl | hmem
      · rw [strLess_irrefl] at hless
        exact Bool.false_ne_true hless
      · have hself := strLess_trans hless ((List.pairwise_cons.mp htodo).1 m hmem)
        rw [strLess_irrefl] at hself
        exact Bool.false_ne_true hself
  · rw [eq_false_of_ne_true hless]
    exact decide_eq_false fun hmem => hless (hfront m hmem n List.mem_cons_self)

namespace Template

/-- When the turn of a section comes, those before it in the order of names are done. -/
theorem mem_front_of_names {front todo : List Str} (h : T.sortedNames = front ++ n :: todo)
    {m : Str} (hm : m ∈ T.names) : decide (m ∈ front) = strLess m n := by
  apply mem_front_iff
  · rw [← h]
    exact pairwise_foldl_setInsert List.Pairwise.nil
  · exact h ▸ mem_sortedNames.mpr hm

/-- The turns of all sections, one after the other. -/
theorem foldl_replaceSection {front todo : List Str} {w : TemplateHTMLWriter}
    {output : Str → Str} (hT : T.wellFormed = true) (hnodup : T.names.Nodup)
    (hsearched : ∀ n ∈ T.names,
      Apart '{' '}' ('#' :: n) (T.pieces hasText (passedAt (some n)) s) ∧
        Apart '{' '}' ('/' :: n) (T.pieces hasText (passedAt (some n)) s))
    (houtput : ∀ n body, (n, body) ∈ T.secs → hasText n body s = true →
      output n = Lib.print '{' '}' ((s.added n).flatMap fun child =>
        (body.pieces hasText (fun _ => true) child).filter kept))
    (hsorted : T.sortedNames = front ++ todo)
    (hw : w.htmlTemplate = Lib.print '{' '}' (T.pieces hasText (fun m => decide (m ∈ front)) s)) :
    (todo.foldl (fun w n => w.replaceSection n (output n)) w).htmlTemplate =
      Lib.print '{' '}' (T.pieces hasText (fun _ => true) s) := by
  induction todo generalizing front w with
  | nil =>
      have hall : T.pieces hasText (fun m => decide (m ∈ front)) s =
          T.pieces hasText (fun _ => true) s := by
        refine pieces_congr fun m hm => decide_eq_true ?_
        rw [List.append_nil] at hsorted
        exact hsorted ▸ mem_sortedNames.mpr hm
      rw [List.foldl_nil, hw, hall]
  | cons n todo ih =>
      have hmem : n ∈ T.names := mem_sortedNames.mp (by rw [hsorted]; simp)
      have hnot : n ∉ front := by
        have hself := mem_front_of_names hsorted hmem
        rw [strLess_irrefl] at hself
        exact of_decide_eq_false hself
      have hlocated : Located hasText n s (fun m => decide (m ∈ front)) T.secs
          (T.pieces hasText (fun m => decide (m ∈ front)) s)
          (T.pieces hasText (fun m => decide (m ∈ front ++ [n])) s) := by
        refine locate hT hnodup (fun _ _ htext _ => short_of_hasText htext)
          (decide_eq_false hnot) (by simp) fun m hm => ?_
        simp [hm]
      have hinside : ∀ body, (n, body) ∈ T.secs → body.wellFormed = true ∧ n ∉ body.names ∧
          ∀ m ∈ body.names, decide (m ∈ front) = strLess m n := by
        intro body hbody
        obtain ⟨hwf, -, hnotBody⟩ := of_mem_secs hT hnodup hbody
        exact ⟨hwf, hnotBody, fun m hm =>
          mem_front_of_names hsorted (names_subset_of_mem_secs hbody hm)⟩
      have hstage : T.pieces hasText (fun m => decide (m ∈ front)) s =
          T.pieces hasText (passedAt (some n)) s :=
        pieces_congr fun m hm => mem_front_of_names hsorted hm
      obtain ⟨hopen, hclose⟩ := hsearched n hmem
      rw [← hstage] at hopen hclose
      have hstep : (w.replaceSection n (output n)).htmlTemplate = _ :=
        replaceSection_html hlocated (isName_of_mem hT hmem) hw (plain_pieces hT _ s) hopen hclose
          hinside fun body hbody => houtput n body hbody
      rw [List.foldl_cons]
      exact ih (by rw [hsorted, List.append_assoc]; rfl) hstep

end Template

/-! ### Clearing the tags -/

/-- What is left when a tag is cleared. -/
def isNot (t : Str) : Piece Char → Bool
  | .text _ => true
  | .mark m => decide (m ≠ t) || !short t

theorem print_clear (t : Str) (ps : List (Piece Char)) :
    Lib.print '{' '}' (if short t then ps.map (fillMark t []) else ps) =
      Lib.print '{' '}' (ps.filter (isNot t)) := by
  split
  · rename_i hshort
    induction ps with
    | nil => rfl
    | cons p ps ih =>
        rcases p with u | m
        · rw [List.map_cons, List.filter_cons_of_pos rfl, print_cons, print_cons, ih]
          rfl
        · rw [List.map_cons, print_cons, ih, List.filter_cons, fillMark]
          by_cases hm : m = t
          · simp [hm, isNot, Piece.print, hshort]
          · simp [hm, isNot, Piece.print]
  · rename_i hlong
    rw [List.filter_eq_self.mpr]
    rintro (u | m) _
    · rfl
    · simp [isNot, hlong]

/-- Setting tags to nothing, one after the other. -/
theorem foldl_clear {tags : List Str} {ps : List (Piece Char)} {w : TemplateHTMLWriter}
    (htags : ∀ t ∈ tags, noNul t = true ∧ '{' ∉ t ∧ '}' ∉ t)
    (hplain : ∀ m ∈ marks ps, Plain '{' '}' m)
    (hsearched : ∀ front t back, tags = front ++ t :: back →
      Apart '{' '}' t (ps.filter fun p => front.all fun u => isNot u p))
    (hw : w.htmlTemplate = Lib.print '{' '}' ps) :
    (tags.foldl (fun w tag => w.setValue tag []) w).htmlTemplate =
      Lib.print '{' '}' (ps.filter fun p => tags.all fun t => isNot t p) := by
  induction tags generalizing w ps with
  | nil =>
      rw [List.foldl_nil, hw]
      simp
  | cons t tags ih =>
      obtain ⟨hNul, hopen, hclose⟩ := htags t List.mem_cons_self
      have hfirst : Apart '{' '}' t ps := by
        simpa using hsearched [] t tags rfl
      have hset : (w.setValue t []).htmlTemplate =
          Lib.print '{' '}' (ps.filter (isNot t)) := by
        rw [setValue_html hplain hfirst hNul hopen hclose hw, print_clear]
      have hboth : ∀ us : List Str, (ps.filter (isNot t)).filter
          (fun p => us.all fun u => isNot u p) =
            ps.filter fun p => (t :: us).all fun u => isNot u p := by
        intro us
        rw [List.filter_filter]
        simp only [List.all_cons, Bool.and_comm]
      rw [List.foldl_cons, ih (fun t' ht' => htags t' (List.mem_cons_of_mem _ ht')) ?_ ?_ hset,
        hboth]
      · intro m hm
        exact hplain m (mem_marks.mpr (List.mem_filter.mp (mem_marks.mp hm)).1)
      · rintro front t' back rfl
        rw [hboth]
        exact hsearched (t :: front) t' back rfl

namespace Template

/-- A mark that is cleared was there when the writer was made. -/
theorem mem_marks_source {goes : Str → Template → Sheet → Bool} {m : Str}
    (hm : m ∈ marks (T.pieces goes passed s)) (hkept : kept (.mark m) = false) :
    m ∈ marks (T.source (.blank s.given)) := by
  have hshort : short m = true := by
    rw [kept, Bool.or_eq_false_iff, Bool.not_eq_false'] at hkept
    exact hkept.2
  induction T with
  | done => exact absurd hm List.not_mem_nil
  | text t rest ih => exact ih hm
  | tag name rest ih =>
      rw [pieces] at hm
      rw [source_tag]
      by_cases hrest : m ∈ marks (rest.pieces goes passed s)
      · rcases tagPiece (Sheet.blank s.given).env name with u | m'
        · exact ih hrest
        · exact List.mem_cons_of_mem _ (ih hrest)
      · obtain rfl := (mem_marks_tagPiece hm).resolve_right hrest
        -- a tag that is still there was not set before either
        have hlook : s.env.lookup m = none := by
          rcases hlook : s.env.lookup m with - | value
          · rfl
          · rw [tagPiece, hlook] at hm
            dsimp only at hm
            rw [if_pos hshort] at hm
            exact absurd hm hrest
        have hgiven : s.given.lookup m = none :=
          (List.prefix_append s.given s.values).lookup_eq_none hlook
        rw [env_blank, tagPiece, hgiven]
        exact List.mem_cons_self
  | sec name body rest ihbody ihrest =>
      rw [pieces, marks_append, List.mem_append] at hm
      rw [source_sec, marks_append, List.mem_append]
      rcases hm with hm | hm
      · left
        split at hm
        · obtain ⟨child, -, hmem⟩ := List.mem_flatMap.mp (mem_marks.mp hm)
          rw [(List.mem_filter.mp hmem).2] at hkept
          exact absurd hkept.symm Bool.false_ne_true
        · rw [marks_mark, marks_append, List.mem_cons, List.mem_append] at hm ⊢
          exact hm.imp id (Or.imp ihbody id)
      · exact .inr (ihrest hm)

theorem mem_tagsOf {m : Str} {ms : List Str} :
    m ∈ tagsOf ms ↔ m ∈ ms ∧ hasPrefixString m ['#'] = false := by
  rw [tagsOf, mem_foldl_setInsert, List.mem_filter]
  simp

/-- A mark is cleared with the tags if it is not kept. -/
theorem mem_tags {goes : Str → Template → Sheet → Bool} {m : Str}
    (hm : m ∈ marks (T.pieces goes passed s)) (hkept : kept (.mark m) = false) :
    m ∈ T.tags s ∧ short m = true := by
  have hboth := Bool.or_eq_false_iff.mp hkept
  exact ⟨mem_tagsOf.mpr ⟨mem_marks_source hm hkept, hboth.1⟩, by simpa using hboth.2⟩

theorem isNot_of_kept {m t : Str} (ht : t ∈ T.tags s) (hkept : kept (.mark m) = true) :
    isNot t (.mark m) = true := by
  rw [isNot]
  by_cases hmt : m = t
  · obtain rfl := hmt
    rw [kept, (mem_tagsOf.mp ht).2, Bool.false_or] at hkept
    rw [hkept, Bool.or_true]
  · rw [decide_eq_true hmt, Bool.true_or]

/-- Clearing the tags that a writer knows leaves the opening marks of sections. -/
theorem filter_tags {goes : Str → Template → Sheet → Bool} :
    ((T.pieces goes passed s).filter fun p => (T.tags s).all fun t => isNot t p) =
      (T.pieces goes passed s).filter kept := by
  refine List.filter_congr fun p hp => ?_
  rcases p with t | m
  · exact List.all_eq_true.mpr fun _ _ => rfl
  · rcases hkept : kept (.mark m) with - | -
    · obtain ⟨hmem, hshort⟩ := mem_tags (mem_marks.mpr hp) hkept
      rw [List.all_eq_false]
      exact ⟨m, hmem, by simp [isNot, hshort]⟩
    · exact List.all_eq_true.mpr fun t ht => isNot_of_kept ht hkept

/-- What is left when some of the tags are cleared. -/
theorem filter_front {goes : Str → Template → Sheet → Bool} {front back : List Str} {t : Str}
    (h : T.tags s = front ++ t :: back) :
    ((T.pieces goes passed s).filter fun p => front.all fun u => isNot u p) =
      (T.pieces goes passed s).filter (keptBefore t) := by
  have hsorted : (front ++ t :: back).Pairwise fun k k' => strLess k k' = true := by
    rw [← h]
    exact pairwise_foldl_setInsert List.Pairwise.nil
  refine List.filter_congr fun p hp => ?_
  rcases p with u | m
  · exact List.all_eq_true.mpr fun _ _ => rfl
  · rw [keptBefore]
    rcases hkept : kept (.mark m) with - | -
    · obtain ⟨hmem, hshort⟩ := mem_tags (mem_marks.mpr hp) hkept
      rw [Bool.false_or, ← mem_front_iff hsorted (h ▸ hmem)]
      by_cases hfront : m ∈ front
      · rw [decide_eq_true hfront]
        exact List.all_eq_false.mpr ⟨m, hfront, by simp [isNot, hshort]⟩
      · rw [decide_eq_false hfront]
        refine List.all_eq_true.mpr fun u hu => ?_
        have hne : m ≠ u := fun heq => hfront (heq ▸ hu)
        rw [isNot, decide_eq_true hne, Bool.true_or]
    · rw [Bool.true_or]
      exact List.all_eq_true.mpr fun u hu => isNot_of_kept (h ▸ List.mem_append_left _ hu) hkept

/-- An empty template has no sections. -/
theorem pieces_of_print_eq_nil {goes : Str → Template → Sheet → Bool}
    (h : Lib.print '{' '}' (T.source s) = []) : T.pieces goes passed s = T.source s := by
  induction T with
  | done => rfl
  | text t rest ih =>
      rw [source_text, print_cons, List.append_eq_nil_iff] at h
      rw [pieces, ih h.2, source_text]
  | tag name rest ih =>
      rw [source_tag, print_cons, List.append_eq_nil_iff] at h
      rw [pieces, ih h.2, source_tag]
  | sec name body rest _ _ => exact absurd h (List.cons_ne_nil _ _)

/-- The instances of a section that has a text were all made. -/
theorem made_of_hasText {child : Sheet} (hgrown : s.Grown)
    (hhas : hasText n body s = true) (hchild : child ∈ s.added n) :
    body.made child = true := by
  obtain ⟨hgiven, -, -⟩ := hgrown
  have hfront : child.given <+: s.env :=
    hgiven n child.given (List.mem_map_of_mem hchild)
  refine decide_eq_true fun hempty => ?_
  have hsource : Lib.print '{' '}' (body.source s) = [] := by
    refine print_source_eq_nil ?_ hempty
    rw [env_blank]
    exact hfront
  have hturn := (hasText_iff fun m _ => (rfl : strLess m n = strLess m n)).mp hhas
  refine hturn.1 ?_
  rw [pieces_of_print_eq_nil hsource, hsource]

/-- The instances of a section that has a text are searched as well. -/
theorem searched_of_mem_secs {child : Sheet} (h : T.searchedBelow s = true)
    (hbody : (n, body) ∈ T.secs) (hhas : hasText n body s = true) (hchild : child ∈ s.added n) :
    body.searched child = true ∧ body.searchedBelow child = true := by
  induction T with
  | done => exact absurd hbody List.not_mem_nil
  | text t rest ih => exact ih h hbody
  | tag name rest ih => exact ih h hbody
  | sec name inner rest ihinner ihrest =>
      rw [searchedBelow, Bool.and_eq_true, Bool.and_eq_true] at h
      rw [secs, List.mem_cons, List.mem_append] at hbody
      rcases hbody with hbody | hbody | hbody
      · obtain ⟨rfl, rfl⟩ := Prod.mk.inj hbody
        have hall := h.1.2
        rw [hhas, Bool.not_true, Bool.false_or] at hall
        exact (Bool.and_eq_true _ _).mp (List.all_eq_true.mp hall child hchild)
      · exact ihinner h.1.1 hbody
      · exact ihrest h.2 hbody

/-- What a writer returns, if this is known of the writers of its sections. -/
theorem finalize_of_secs (hT : T.wellFormed = true) (hnodup : T.names.Nodup) (hgrown : s.Grown)
    (hsearched : T.searched s = true) (hbelow : T.searchedBelow s = true)
    (hsecs : ∀ n body, (n, body) ∈ T.secs → ∀ {s : Sheet}, body.wellFormed = true →
      body.names.Nodup → s.Grown → body.searched s = true → body.searchedBelow s = true →
      (body.writer s).finalize =
        Lib.print '{' '}' ((body.pieces hasText (fun _ => true) s).filter kept)) :
    (T.writer s).finalize =
      Lib.print '{' '}' ((T.pieces hasText (fun _ => true) s).filter kept) := by
  have houtput : ∀ n body, (n, body) ∈ T.secs → hasText n body s = true →
      TemplateHTMLWriter.finalizeAll (T.children s n) =
        Lib.print '{' '}' ((s.added n).flatMap fun child =>
          (body.pieces hasText (fun _ => true) child).filter kept) := by
    intro n body hbody hhas
    obtain ⟨hwf, hbodyNodup, -⟩ := of_mem_secs hT hnodup hbody
    have hmade : (s.added n).filter body.made = s.added n :=
      List.filter_eq_self.mpr fun child hchild => made_of_hasText hgrown hhas hchild
    rw [TemplateHTMLWriter.finalizeAll_eq, children_of_mem hnodup hbody, hmade, List.flatMap_map,
      Lib.print, List.flatMap_assoc]
    refine List.flatMap_congr fun child hchild => ?_
    obtain ⟨hown, hdeeper⟩ := searched_of_mem_secs hbelow hbody hhas hchild
    exact hsecs n body hbody hwf hbodyNodup (hgrown.child hchild) hown hdeeper
  have htags : ∀ t ∈ T.tags s, noNul t = true ∧ '{' ∉ t ∧ '}' ∉ t := by
    intro t ht
    have hmem := (mem_tagsOf.mp ht).1
    have hplain : Plain '{' '}' t := plain_pieces hT _ _ t hmem
    exact ⟨noNul_of_mem_marks hT hmem, hplain.opening, hplain.closing⟩
  have hsource : (T.writer s).htmlTemplate =
      Lib.print '{' '}' (T.pieces hasText (fun m => decide (m ∈ ([] : List Str))) s) := by
    have hnone : T.pieces hasText (fun m => decide (m ∈ ([] : List Str))) s = T.source s :=
      pieces_congr fun m _ => decide_eq_false List.not_mem_nil
    rw [hnone]
    rfl
  simp only [searched, Bool.and_eq_true, List.all_eq_true, decide_eq_true_eq] at hsearched
  have hturns := foldl_replaceSection hT hnodup hsearched.1 houtput (List.nil_append _) hsource
  have hclear := foldl_clear htags (plain_pieces hT _ s) ?_ hturns
  · rw [filter_tags] at hclear
    rw [← hclear, writer, TemplateHTMLWriter.finalize, TemplateHTMLWriter.outputs_eq,
      List.map_map, List.foldl_map]
    rfl
  · intro front t back heq
    rw [filter_front heq]
    exact hsearched.2 t (by rw [heq]; simp)

/-- What the writers of sections return, those in them first. -/
theorem finalize_of_mem_secs (h : (n, body) ∈ T.secs) (hwf : body.wellFormed = true)
    (hnodup : body.names.Nodup) (hgrown : s.Grown) (hsearched : body.searched s = true)
    (hbelow : body.searchedBelow s = true) :
    (body.writer s).finalize =
      Lib.print '{' '}' ((body.pieces hasText (fun _ => true) s).filter kept) := by
  induction T generalizing n body s with
  | done => exact absurd h List.not_mem_nil
  | text t rest ih => exact ih h hwf hnodup hgrown hsearched hbelow
  | tag name rest ih => exact ih h hwf hnodup hgrown hsearched hbelow
  | sec name inner rest ihinner ihrest =>
      rw [secs, List.mem_cons, List.mem_append] at h
      rcases h with h | h | h
      · obtain ⟨rfl, rfl⟩ := Prod.mk.inj h
        exact finalize_of_secs hwf hnodup hgrown hsearched hbelow fun _ _ hmem => ihinner hmem
      · exact ihinner h hwf hnodup hgrown hsearched hbelow
      · exact ihrest h hwf hnodup hgrown hsearched hbelow

/-- What a writer returns. -/
theorem finalize_writer (hT : T.wellFormed = true) (hnodup : T.names.Nodup) (hgrown : s.Grown)
    (hsearched : T.searched s = true) (hbelow : T.searchedBelow s = true) :
    (T.writer s).finalize =
      Lib.print '{' '}' ((T.pieces hasText (fun _ => true) s).filter kept) :=
  finalize_of_secs hT hnodup hgrown hsearched hbelow fun _ _ hmem => finalize_of_mem_secs hmem

/-! ### What was asked for -/

/-- If all sections that are made use of have a text, a template becomes what it should. -/
theorem print_expected (hT : T.wellFormed = true) (h : T.filled s = true) :
    Lib.print '{' '}' ((T.pieces hasText (fun _ => true) s).filter kept) = T.expected s := by
  induction T generalizing s with
  | done => rfl
  | text t rest ih =>
      rw [wellFormed, Bool.and_eq_true] at hT
      rw [pieces, List.filter_cons_of_pos rfl, print_cons, ih hT.2 h]
      rfl
  | tag name rest ih =>
      rw [wellFormed, Bool.and_eq_true] at hT
      rw [filled, Bool.and_eq_true] at h
      rw [pieces, expected, ← ih hT.2 h.2, valueOf, tagPiece]
      rcases s.env.lookup name with - | value
      · rw [List.filter_cons_of_neg (by rw [kept_of_isTag hT.1 h.1]; decide)]
        rfl
      · dsimp only
        rw [if_pos h.1, List.filter_cons_of_pos rfl]
        rfl
  | sec name body rest ihbody ihrest =>
      rw [wellFormed, Bool.and_eq_true, Bool.and_eq_true] at hT
      rw [filled, Bool.and_eq_true, Bool.and_eq_true, List.all_eq_true] at h
      rw [pieces_sec_of_gone body rest (by rw [h.1.1]; rfl), expected, ← ihrest hT.2 h.2,
        List.filter_append, print_append, List.filter_flatMap, Lib.print, List.flatMap_assoc]
      congr 1
      refine List.flatMap_congr fun child hchild => ?_
      rw [← ihbody hT.1.2 (h.1.2 child hchild), List.filter_filter]
      simp only [Bool.and_self]
      rfl

/-- A section without a text leaves its mark. -/
theorem filled_of_kept
    (h : ∀ m, .mark m ∈ T.pieces hasText (fun _ => true) s → kept (.mark m) = false) :
    T.filled s = true := by
  induction T generalizing s with
  | done => rfl
  | text t rest ih => exact ih fun m hm => h m (List.mem_cons_of_mem _ hm)
  | tag name rest ih =>
      rw [filled, Bool.and_eq_true]
      refine ⟨?_, ih fun m hm => h m (List.mem_cons_of_mem _ hm)⟩
      by_contra hlong
      have hpiece : tagPiece s.env name = .mark name := by
        rw [tagPiece]
        split
        · rw [if_neg hlong]
        · rfl
      have hleft := h name (by rw [pieces, hpiece]; exact List.mem_cons_self)
      rw [kept, eq_false_of_ne_true hlong, Bool.not_false, Bool.or_true] at hleft
      exact Bool.false_ne_true hleft.symm
  | sec name body rest ihbody ihrest =>
      rw [filled, Bool.and_eq_true, Bool.and_eq_true, List.all_eq_true]
      rcases hhas : hasText name body s with - | -
      · rw [pieces_sec_of_there body rest (by rw [hhas]; rfl)] at h
        exact absurd (h _ List.mem_cons_self).symm Bool.false_ne_true
      · rw [pieces_sec_of_gone body rest (by rw [hhas]; rfl)] at h
        refine ⟨⟨rfl, fun child hchild => ihbody fun m hm => ?_⟩,
          ihrest fun m hm => h m (List.mem_append_right _ hm)⟩
        rw [← Bool.not_eq_true]
        intro hkept
        have hleft := h m (List.mem_append_left _
          (List.mem_flatMap.mpr ⟨child, hchild, List.mem_filter.mpr ⟨hm, hkept⟩⟩))
        rw [hkept] at hleft
        exact Bool.false_ne_true hleft.symm

/-- A mark that is left shows in what is returned. -/
theorem filled_of_free
    (h : free (Lib.print '{' '}' ((T.pieces hasText (fun _ => true) s).filter kept)) = true) :
    T.filled s = true := by
  have hpair : ¬ ['{', '{'] <:+: Lib.print '{' '}'
      ((T.pieces hasText (fun _ => true) s).filter kept) :=
    splitFirst_eq_none.mp (Option.isNone_iff_eq_none.mp h)
  refine filled_of_kept fun m hm => ?_
  rw [← Bool.not_eq_true]
  intro hkept
  refine hpair (pair_infix_print fun hnone => ?_)
  have hmem := mem_marks.mpr (List.mem_filter.mpr ⟨hm, hkept⟩)
  rw [hnone] at hmem
  exact List.not_mem_nil hmem

/-- What is returned for a template after some calls. -/
theorem render_print (readFile : Str → Option Str) {calls : List (Handle × Call)}
    (hT : T.wellFormed = true) (hnodup : T.names.Nodup)
    (hcalls : ∀ call ∈ calls, call.2.proper = true) (hreadable : T.Readable calls) :
    render readFile T.print calls = Lib.print '{' '}'
      ((T.pieces hasText (fun _ => true) (Sheet.ofCalls calls)).filter kept) := by
  obtain ⟨hrun, hgrown⟩ :=
    run_writer readFile hT hnodup (Sheet.Grown.blank []) hcalls hreadable.called
  rw [render, ← print_source, loadTemplate_source hT hreadable.loaded, hrun]
  exact finalize_writer hT hnodup hgrown hreadable.searched hreadable.below

end Template

/-- **What `Finalize` returns.**  Where the marks of a template can be read, this is the template
filled in as was asked for, if each section of a writer that is made use of is found and written
at its turn, and the marks of the tags are; and only then, if there are no double braces in what
was asked for. -/
theorem render_eq (readFile : Str → Option Str) (T : Template)
    (calls : List (Handle × Call)) (hT : T.wellFormed = true) (hnodup : T.names.Nodup)
    (hcalls : ∀ call ∈ calls, call.2.proper = true) :
    (T.Readable calls ∧ T.filled (Sheet.ofCalls calls) = true →
      render readFile T.print calls = T.expected (Sheet.ofCalls calls)) ∧
    (T.Readable calls → free (T.expected (Sheet.ofCalls calls)) = true →
      render readFile T.print calls = T.expected (Sheet.ofCalls calls) →
      T.filled (Sheet.ofCalls calls) = true) := by
  refine ⟨?_, ?_⟩
  · rintro ⟨hreadable, hfilled⟩
    rw [Template.render_print readFile hT hnodup hcalls hreadable]
    exact Template.print_expected hT hfilled
  · intro hreadable hfree heq
    rw [← heq, Template.render_print readFile hT hnodup hcalls hreadable] at hfree
    exact Template.filled_of_free hfree

/-- A line of columns, with a text between. -/
theorem render_eq_line :
    let T := Template.sec "LINE".toList (.text "-".toList (.sec "COLUMN".toList
      (.tag "INFO".toList .done) .done)) .done
    let calls : List (Handle × Call) := [([], .addSection "LINE".toList),
      ([("LINE".toList, 0)], .addSection "COLUMN".toList),
      ([("LINE".toList, 0), ("COLUMN".toList, 0)], .setValue "INFO".toList "hello".toList)]
    render (fun _ => none) T.print calls = "-hello".toList :=
  (render_eq (fun _ => none) _ _ (by decide) (by decide) (by decide)).1
    ⟨⟨by decide, by decide, by decide, by decide⟩, by decide⟩

/-- Without that text the line is empty when its turn comes, after the column's. -/
theorem not_render_eq :
    let T := Template.sec "LINE".toList (.sec "COLUMN".toList
      (.tag "INFO".toList .done) .done) .done
    let calls : List (Handle × Call) := [([], .addSection "LINE".toList),
      ([("LINE".toList, 0)], .addSection "COLUMN".toList),
      ([("LINE".toList, 0), ("COLUMN".toList, 0)], .setValue "INFO".toList "hello".toList)]
    (T.wellFormed = true ∧ T.names.Nodup ∧ (∀ call ∈ calls, call.2.proper = true) ∧
      T.Readable calls) ∧
    T.expected (Sheet.ofCalls calls) = "hello".toList ∧
    render (fun _ => none) T.print calls = braced "#LINE".toList ∧
    render (fun _ => none) T.print calls ≠ T.expected (Sheet.ofCalls calls) := by
  decide

/-- A value may end with a brace in front of a tag. -/
example : (Template.tag "X".toList (.tag "Y".toList .done)).Readable
    [([], .setValue "X".toList ['{']), ([], .setValue "Y".toList "v".toList)] := by
  decide

/-- A text that ends with a brace is lost with the tag behind it. -/
example : render (fun _ => none) (Template.text ['{'] (.tag "X".toList .done)).print [] = [] := by
  decide

end Orbit.Html
