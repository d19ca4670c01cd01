/-
OrbitStream/HtmlCalls.lean

What a writer holds after some calls (`LoadTemplate`, `AddSection` and `SetValue`).

A call on a writer or on one of its instances changes what it holds as it changes the sheet
of what is asked for (`step_writer`), and so do any calls, one after the other
(`run_writer`).
-/
import OrbitStream.HtmlTemplate

namespace Orbit.Html

open Lib StrUtil

/-! ### Loading -/

section Load

variable {T : Template} {s : Sheet} {readFile : Str → Option Str}

theorem upper_of_mem_marks {m : Str} (hT : T.wellFormed = true) (hm : m ∈ marks (T.source s)) :
    upperString m = m := by
  rcases Template.mem_marks_pieces hT hm with htag | ⟨n, hn, hm⟩
  · exact upper_of_isName (isName_of_isTag htag)
  · have hupper := upper_of_isName (Template.isName_of_mem hT hn)
    rcases hm with rfl | rfl
    · exact congrArg (List.cons '#') hupper
    · exact congrArg (List.cons '/') hupper

/-- A well-formed template includes no file. -/
theorem splitFirst_include (hT : T.wellFormed = true) (hspaced : Spaced '{' (T.source s)) :
    splitFirst ('{' :: '{' :: includeTag) (Lib.print '{' '}' (T.source s)) = none := by
  have hmiss : ∀ m ∈ marks (T.source s), ∀ r, ¬ '{' :: '{' :: includeTag <+: braced m ++ r := by
    intro m hm r hpre
    have hpre : includeTag <+: m ++ ('}' :: '}' :: r) := by
      simpa [bracket] using hpre
    rcases Template.mem_marks_pieces hT hm with htag | ⟨n, -, rfl | rfl⟩
    · obtain ⟨-, -, hnot⟩ := not_prefix_of_isTag htag
      rcases List.prefix_or_prefix_of_prefix hpre (List.prefix_append m _) with hin | ⟨more, hmore⟩
      · exact hnot hin
      · rw [← hmore, List.prefix_append_right_inj] at hpre
        rcases more with - | ⟨ch, more⟩
        · rw [List.append_nil] at hmore
          exact hnot (hmore ▸ List.prefix_rfl)
        · have hmem : '}' ∈ includeTag := by
            rw [← hmore, (List.cons_prefix_cons.mp hpre).1]
            simp
          exact absurd hmem (by decide)
    · exact absurd (List.cons_prefix_cons.mp hpre).1 (by decide)
    · exact absurd (List.cons_prefix_cons.mp hpre).1 (by decide)
  exact splitFirst_print (by decide) (Template.plain_pieces hT _ s) hspaced hmiss

theorem foldl_registerTag {ms : List Str} (hms : ∀ m ∈ ms, upperString m = m)
    (w : TemplateHTMLWriter) :
    ms.foldl TemplateHTMLWriter.registerTag w =
      { w with
        tagsSet := (ms.filter fun m => !hasPrefixString m ['#']).foldl
          (fun keys m => setInsert m keys) w.tagsSet
        sectionsReplace := ((ms.filter fun m => hasPrefixString m ['#']).map (List.drop 1)).foldl
          (fun entries n => mapAssign n [] entries) w.sectionsReplace } := by
  induction ms generalizing w with
  | nil =>
      cases w
      rfl
  | cons m ms ih =>
      rw [List.foldl_cons, ih fun m' hm' => hms m' (List.mem_cons_of_mem _ hm'),
        TemplateHTMLWriter.registerTag, if_pos (hms m List.mem_cons_self).symm]
      rcases hsec : hasPrefixString m ['#'] with - | -
      · simp [hsec]
      · simp [hsec]

theorem foldl_mapAssign (names keys : List Str) :
    names.foldl (fun entries n => mapAssign n ([] : List TemplateHTMLWriter) entries)
        (keys.map fun k => (k, [])) =
      (names.foldl (fun keys n => setInsert n keys) keys).map fun k => (k, []) := by
  induction names generalizing keys with
  | nil => rfl
  | cons n names ih => rw [List.foldl_cons, mapAssign_map, ih, List.foldl_cons]

/-- The opening marks of a text are those of the sections. -/
theorem sections_marks (hT : T.wellFormed = true) :
    ((marks (T.source s)).filter fun m => hasPrefixString m ['#']).map (List.drop 1) =
      T.names := by
  induction T with
  | done => rfl
  | text t rest ih =>
      rw [Template.wellFormed, Bool.and_eq_true] at hT
      exact ih hT.2
  | tag n rest ih =>
      rw [Template.wellFormed, Bool.and_eq_true] at hT
      have hn : ¬ hasPrefixString n ['#'] = true :=
        fun h => (not_prefix_of_isTag hT.1).1 (hasPrefixString_iff.mp h)
      have htag : ∀ p, p = .mark n ∨ (∃ v, p = .text v) →
          ((marks (p :: rest.source s)).filter fun m => hasPrefixString m ['#']) =
            (marks (rest.source s)).filter fun m => hasPrefixString m ['#'] := by
        rintro p (rfl | ⟨v, rfl⟩)
        · rw [marks_mark, List.filter_cons, if_neg hn]
        · rfl
      have hpiece : tagPiece s.env n = .mark n ∨ ∃ v, tagPiece s.env n = .text v := by
        rw [tagPiece]
        split
        · split
          · exact .inr ⟨_, rfl⟩
          · exact .inl rfl
        · exact .inl rfl
      rw [Template.source_tag, htag _ hpiece]
      exact ih hT.2
  | sec n body rest ihbody ihrest =>
      rw [Template.wellFormed, Bool.and_eq_true, Bool.and_eq_true] at hT
      rw [Template.names_sec, ← ihbody hT.1.2, ← ihrest hT.2]
      simp [hasPrefixString]

theorem children_blank (env : Env) (n : Str) : T.children (.blank env) n = [] := by
  induction T with
  | done => rfl
  | text t rest ih => exact ih
  | tag name rest ih => exact ih
  | sec name body rest ihbody ihrest =>
      rw [Template.children, ihbody, ihrest]
      simp [Sheet.blank]

/-- Loading the text of a template. -/
theorem loadTemplate_source {env : Env} (hT : T.wellFormed = true) (hload : T.loads env = true) :
    TemplateHTMLWriter.loadTemplate readFile {} (Lib.print '{' '}' (T.source (.blank env))) =
      T.writer (.blank env) := by
  have hspaced : Spaced '{' (T.source (.blank env)) := of_decide_eq_true hload
  have hplain : ∀ m ∈ marks (T.source (.blank env)), Plain '{' '}' m :=
    Template.plain_pieces hT _ _
  have hinclude : TemplateHTMLWriter.addIncludeTemplates readFile
      { htmlTemplate := Lib.print '{' '}' (T.source (.blank env)) } =
        { htmlTemplate := Lib.print '{' '}' (T.source (.blank env)) } := by
    rw [TemplateHTMLWriter.addIncludeTemplates]
    rcases (Lib.print '{' '}' (T.source (.blank env))).length with - | fuel
    · rfl
    · rw [TemplateHTMLWriter.addIncludes, splitFirst_include hT hspaced]
  rw [TemplateHTMLWriter.loadTemplate, hinclude, TemplateHTMLWriter.findAllSections,
    findMarks_print hplain hspaced le_rfl, foldl_registerTag fun m hm => upper_of_mem_marks hT hm,
    sections_marks hT]
  rw [Template.writer, Template.tagsOf, Template.sortedNames]
  have hsections := foldl_mapAssign T.names []
  simp only [List.map_nil] at hsections
  rw [hsections]
  simp only [children_blank]
  rfl

end Load

/-! ### What calls do to a sheet -/

section Modify

variable {α β : Type} {k : ℕ} {f : α → α} {l : List α}

theorem mem_of_mem_modify {a : α} (h : a ∈ l.modify k f) : a ∈ l ∨ ∃ a' ∈ l, a = f a' := by
  obtain ⟨i, hi, rfl⟩ := List.getElem_of_mem h
  rw [List.length_modify] at hi
  rw [List.getElem_modify]
  split
  · exact .inr ⟨l[i], List.getElem_mem hi, rfl⟩
  · exact .inl (List.getElem_mem hi)

theorem map_modify {g : α → β} {f' : β → β} (h : ∀ a, l[k]? = some a → g (f a) = f' (g a)) :
    (l.modify k f).map g = (l.map g).modify k f' := by
  induction l generalizing k with
  | nil => rw [List.modify_nil, List.map_nil, List.modify_nil]
  | cons a l ih =>
      rcases k with - | k
      · rw [List.modify_zero_cons, List.map_cons, List.map_cons, List.modify_zero_cons, h a rfl]
      · rw [List.modify_succ_cons, List.map_cons, List.map_cons, List.modify_succ_cons,
          ih fun a' ha' => h a' ha']

/-- Where all that is kept stands in front, it has its place there. -/
theorem getElem?_of_filter {keep : α → Bool} {a : α}
    (hl : l.Pairwise fun a a' => keep a' = true → keep a = true)
    (h : (l.filter keep)[k]? = some a) : l[k]? = some a := by
  induction l generalizing k with
  | nil => exact h
  | cons a' l ih =>
      obtain ⟨ha', hl⟩ := List.pairwise_cons.mp hl
      rcases hkeep : keep a' with - | -
      · have hnil : l.filter keep = [] :=
          List.filter_eq_nil_iff.mpr fun a ha hk => absurd (ha' a ha hk) (by rw [hkeep]; decide)
        rw [List.filter_cons_of_neg (by rw [hkeep]; decide), hnil] at h
        cases h
      · rw [List.filter_cons_of_pos hkeep] at h
        rcases k with - | k
        · exact h
        · exact ih hl h

/-- Where all that is kept stands in front, it is modified at the same place. -/
theorem filter_modify {keep : α → Bool} (hf : ∀ a, keep (f a) = keep a)
    (hl : l.Pairwise fun a a' => keep a' = true → keep a = true) :
    (l.modify k f).filter keep = (l.filter keep).modify k f := by
  induction l generalizing k with
  | nil => rw [List.modify_nil, List.filter_nil, List.modify_nil]
  | cons a l ih =>
      obtain ⟨ha, hl⟩ := List.pairwise_cons.mp hl
      rcases hkeep : keep a with - | -
      · -- nothing behind it is kept either
        have hnil : l.filter keep = [] :=
          List.filter_eq_nil_iff.mpr fun a' ha' h => absurd (ha a' ha' h) (by rw [hkeep]; decide)
        rcases k with - | k
        · rw [List.modify_zero_cons, List.filter_cons_of_neg (by rw [hf, hkeep]; decide),
            List.filter_cons_of_neg (by rw [hkeep]; decide), hnil, List.modify_nil]
        · rw [List.modify_succ_cons, List.filter_cons_of_neg (by rw [hkeep]; decide), ih hl,
            List.filter_cons_of_neg (by rw [hkeep]; decide), hnil, List.modify_nil,
            List.modify_nil]
      · rcases k with - | k
        · rw [List.modify_zero_cons, List.filter_cons_of_pos (by rw [hf, hkeep]),
            List.filter_cons_of_pos hkeep, List.modify_zero_cons]
        · rw [List.modify_succ_cons, List.filter_cons_of_pos hkeep, ih hl,
            List.filter_cons_of_pos hkeep, List.modify_succ_cons]

end Modify

namespace Sheet

variable {s : Sheet} {env : Env} {handle : Handle} {call : Call}

theorem given_step (s : Sheet) (handle : Handle) (call : Call) :
    (s.step handle call).given = s.given := by
  rcases handle with - | ⟨⟨n, k⟩, handle⟩
  · cases call <;> rfl
  · rfl

theorem Grown.blank (env : Env) : (Sheet.blank env).Grown :=
  .mk (fun _ _ h => absurd h List.not_mem_nil) (fun _ => List.Pairwise.nil)
    fun _ _ h => absurd h List.not_mem_nil

/-- A new instance is given all that has been set. -/
theorem Grown.addSection (h : s.Grown) (n : Str) : (s.step [] (.addSection n)).Grown := by
  obtain ⟨hgiven, hlater, hadded⟩ := h
  refine .mk (fun m env henv => ?_) (fun m => ?_) fun m child hchild => ?_
  · simp only [Sheet.step] at henv
    split at henv
    · rw [List.map_append, List.mem_append] at henv
      rcases henv with henv | henv
      · exact hgiven m env henv
      · rw [List.mem_singleton.mp henv]
        exact List.prefix_rfl
    · exact hgiven m env henv
  · simp only [Sheet.step]
    split
    · rw [List.map_append, List.pairwise_append]
      refine ⟨hlater m, List.pairwise_singleton _ _, fun env henv env' henv' => ?_⟩
      rw [List.mem_singleton.mp henv']
      exact hgiven m env henv
    · exact hlater m
  · simp only [Sheet.step] at hchild
    split at hchild
    · rcases List.mem_append.mp hchild with hchild | hchild
      · exact hadded m child hchild
      · rw [List.mem_singleton.mp hchild]
        exact Grown.blank _
    · exact hadded m child hchild

/-- What instances were given stays with a call on one of them. -/
theorem map_given_step (s : Sheet) (at_ : Str × ℕ) (handle : Handle) (call : Call) (m : Str) :
    ((s.step (at_ :: handle) call).added m).map Sheet.given = (s.added m).map Sheet.given := by
  simp only [Sheet.step]
  split
  · have hid : ∀ child, (s.added m)[at_.2]? = some child →
        (child.step handle call).given = id child.given :=
      fun child _ => given_step child handle call
    rw [map_modify hid, List.modify_id]
  · rfl

theorem Grown.step (h : s.Grown) : (s.step handle call).Grown := by
  induction handle generalizing s with
  | nil =>
      rcases call with ⟨tag, value⟩ | n
      · obtain ⟨hgiven, hlater, hadded⟩ := h
        refine .mk (fun m env henv => (hgiven m env henv).trans ?_) hlater hadded
        show s.given ++ s.values <+: s.given ++ (s.values ++ [(tag, value)])
        rw [← List.append_assoc]
        exact List.prefix_append _ _
      · exact h.addSection n
  | cons at_ handle ih =>
      obtain ⟨hgiven, hlater, hadded⟩ := h
      refine .mk (fun m env henv => ?_) (fun m => ?_) fun m child hchild => ?_
      · rw [map_given_step] at henv
        exact hgiven m env henv
      · rw [map_given_step]
        exact hlater m
      · simp only [Sheet.step] at hchild
        split at hchild
        · rcases mem_of_mem_modify hchild with hchild | ⟨child', hchild', rfl⟩
          · exact hadded m child hchild
          · exact ih (hadded m child' hchild')
        · exact hadded m child hchild

end Sheet

/-! ### Calls and the writer they make -/

section Steps

variable {T : Template} {s s' : Sheet} {readFile : Str → Option Str}
variable {n : Str} {body : Template}

namespace Template

theorem mem_sortedNames : n ∈ T.sortedNames ↔ n ∈ T.names := by
  rw [sortedNames, mem_foldl_setInsert]
  simp

theorem children_of_not_mem (h : n ∉ T.names) : T.children s n = [] := by
  induction T with
  | done => rfl
  | text t rest ih => exact ih h
  | tag name rest ih => exact ih h
  | sec name body rest ihbody ihrest =>
      rw [names_sec, List.mem_cons, List.mem_append, not_or, not_or] at h
      rw [children, if_neg h.1, ihbody h.2.1, ihrest h.2.2]
      rfl

theorem children_of_mem (hnodup : T.names.Nodup) (h : (n, body) ∈ T.secs) :
    T.children s n = ((s.added n).filter body.made).map body.writer := by
  induction T with
  | done => exact absurd h List.not_mem_nil
  | text t rest ih => exact ih hnodup h
  | tag name rest ih => exact ih hnodup h
  | sec name body' rest ihbody ihrest =>
      rw [names_sec, List.nodup_cons, List.nodup_append, List.mem_append, not_or] at hnodup
      obtain ⟨⟨hbodyName, hrestName⟩, hbodyNodup, hrestNodup, hdisjoint⟩ := hnodup
      rw [secs, List.mem_cons, List.mem_append] at h
      rw [children]
      rcases h with h | h | h
      · obtain ⟨rfl, rfl⟩ := Prod.mk.inj h
        rw [if_pos rfl, children_of_not_mem hbodyName, children_of_not_mem hrestName,
          List.append_nil, List.append_nil]
        rfl
      · have hmem := mem_names_of_mem_secs h
        rw [if_neg (fun heq : n = name => hbodyName (heq ▸ hmem)), ihbody hbodyNodup h,
          children_of_not_mem fun hrest => hdisjoint n hmem n hrest rfl]
        simp
      · have hmem := mem_names_of_mem_secs h
        rw [if_neg (fun heq : n = name => hrestName (heq ▸ hmem)), ihrest hrestNodup h,
          children_of_not_mem fun hbody => hdisjoint n hbody n hmem rfl]
        simp

theorem children_congr (h : s.added n = s'.added n) : T.children s n = T.children s' n := by
  induction T with
  | done => rfl
  | text t rest ih => exact ih
  | tag name rest ih => exact ih
  | sec name body rest ihbody ihrest => rw [children, children, ihbody, ihrest, h]

/-- The section of a name. -/
theorem exists_mem_secs (h : n ∈ T.names) : ∃ body, (n, body) ∈ T.secs := by
  obtain ⟨⟨n', body⟩, hmem, rfl⟩ := List.mem_map.mp h
  exact ⟨body, hmem⟩

/-- What a section of a template inherits. -/
theorem of_mem_secs (hT : T.wellFormed = true) (hnodup : T.names.Nodup)
    (h : (n, body) ∈ T.secs) :
    body.wellFormed = true ∧ body.names.Nodup ∧ n ∉ body.names := by
  induction T with
  | done => exact absurd h List.not_mem_nil
  | text t rest ih =>
      rw [wellFormed, Bool.and_eq_true] at hT
      exact ih hT.2 hnodup h
  | tag name rest ih =>
      rw [wellFormed, Bool.and_eq_true] at hT
      exact ih hT.2 hnodup h
  | sec name body' rest ihbody ihrest =>
      rw [wellFormed, Bool.and_eq_true, Bool.and_eq_true] at hT
      rw [names_sec, List.nodup_cons, List.nodup_append, List.mem_append, not_or] at hnodup
      rw [secs, List.mem_cons, List.mem_append] at h
      rcases h with h | h | h
      · obtain ⟨rfl, rfl⟩ := Prod.mk.inj h
        exact ⟨hT.1.2, hnodup.2.1, hnodup.1.1⟩
      · exact ihbody hT.1.2 hnodup.2.1 h
      · exact ihrest hT.2 hnodup.2.2.1 h

theorem secs_inj {body' : Template} (hnodup : T.names.Nodup) (h : (n, body) ∈ T.secs)
    (h' : (n, body') ∈ T.secs) : body = body' :=
  congrArg Prod.snd (List.inj_on_of_nodup_map hnodup h h' rfl)

theorem closing_mem_marks_source (h : n ∈ T.names) : '/' :: n ∈ marks (T.source s) := by
  induction T with
  | done => exact absurd h List.not_mem_nil
  | text t rest ih => exact ih h
  | tag name rest ih =>
      rw [source_tag]
      rcases tagPiece s.env name with v | m
      · exact ih h
      · exact List.mem_cons_of_mem _ (ih h)
  | sec name body rest ihbody ihrest =>
      rw [names_sec, List.mem_cons, List.mem_append] at h
      simp only [source_sec, marks_append, marks_mark, List.mem_append, List.mem_cons]
      rcases h with rfl | h | h
      · simp
      · simp [ihbody h]
      · simp [ihrest h]

end Template

/-- Reading a section that stands in the text. -/
theorem getSection_there {w : TemplateHTMLWriter} {pre cs post : List (Piece Char)}
    (hw : w.htmlTemplate =
      Lib.print '{' '}' (pre ++ .mark ('#' :: n) :: (cs ++ .mark ('/' :: n) :: post)))
    (hplain : ∀ m ∈ marks (pre ++ .mark ('#' :: n) :: (cs ++ .mark ('/' :: n) :: post)),
      Plain '{' '}' m)
    (hopen : Apart '{' '}' ('#' :: n)
      (pre ++ .mark ('#' :: n) :: (cs ++ .mark ('/' :: n) :: post)))
    (hclose : Apart '{' '}' ('/' :: n)
      (pre ++ .mark ('#' :: n) :: (cs ++ .mark ('/' :: n) :: post)))
    (hpre : '#' :: n ∉ marks pre) (hcs : '/' :: n ∉ marks cs) :
    w.getSection n = Lib.print '{' '}' cs := by
  have hcsApart : Apart '{' '}' ('/' :: n) cs :=
    hclose.of_infix ⟨pre ++ [.mark ('#' :: n)], .mark ('/' :: n) :: post, by simp⟩
  rw [TemplateHTMLWriter.getSection, hw]
  exact between_print (by decide) hplain (hopen.of_infix (List.prefix_append _ _).isInfix) hcsApart
    hpre hcs

/-- The section that a writer reads. -/
theorem getSection_writer (hT : T.wellFormed = true) (hnodup : T.names.Nodup)
    (hopen : Apart '{' '}' ('#' :: n) (T.source s))
    (hclose : Apart '{' '}' ('/' :: n) (T.source s)) (h : (n, body) ∈ T.secs) :
    (T.writer s).getSection n = Lib.print '{' '}' (body.source s) := by
  have hmem := Template.mem_names_of_mem_secs h
  have hplain : ∀ m ∈ marks (T.source s), Plain '{' '}' m := Template.plain_pieces hT _ s
  have hclosing : '/' :: n ∈ marks (T.source s) := Template.closing_mem_marks_source hmem
  have hlocated : Template.Located Template.hasText n s (fun _ => false) T.secs (T.source s)
      (T.pieces Template.hasText (fun m => decide (m = n)) s) :=
    Template.locate hT hnodup (fun _ _ htext _ => Template.short_of_hasText htext) rfl
      (decide_eq_true rfl) fun m hm => decide_eq_false hm
  obtain ⟨hwf, -, hnot⟩ := Template.of_mem_secs hT hnodup h
  have hw : (T.writer s).htmlTemplate = Lib.print '{' '}' (T.source s) := rfl
  generalize T.source s = ps at hplain hopen hclose hclosing hlocated hw
  generalize T.pieces Template.hasText (fun m => decide (m = n)) s = ps' at hlocated
  cases hlocated with
  | there body' pre post hbody' hpre hpost =>
      obtain rfl := Template.secs_inj hnodup h hbody'
      exact getSection_there hw hplain hopen hclose hpre
        (Template.not_mem_marks_pieces _ s hwf hnot).2
  | gone closing => exact absurd hclosing closing

/-! #### One step -/

theorem stringPrintf_braced {m : Str} (h : short m = true) :
    stringPrintf (braced m) = braced m := by
  have hlength := of_decide_eq_true h
  exact if_neg (by omega)

theorem stringPrintf_long {m : Str} (h : short m = false) : stringPrintf (braced m) = [] := by
  have hlength := of_decide_eq_false h
  exact if_pos (by omega)

/-- `SetValue` fills every mark of a tag, if it is not too long. -/
theorem setValue_html {tag value : Str} {ps : List (Piece Char)} {w : TemplateHTMLWriter}
    (hplain : ∀ m ∈ marks ps, Plain '{' '}' m) (hps : Apart '{' '}' tag ps)
    (hNul : noNul tag = true) (hopen : '{' ∉ tag) (hclose : '}' ∉ tag)
    (hw : w.htmlTemplate = Lib.print '{' '}' ps) :
    (w.setValue tag value).htmlTemplate = Lib.print '{' '}'
      (if short tag then ps.map (fillMark tag value) else ps) := by
  show stringReplace w.htmlTemplate (stringPrintf (braced (cStr tag))) value true = _
  rw [cStr_of_noNul hNul, hw]
  rcases hshort : short tag with - | -
  · rw [stringPrintf_long hshort]
    rfl
  · rw [stringPrintf_braced hshort, stringReplace,
      if_neg (show ¬ braced tag = [] from List.cons_ne_nil _ _),
      replaceFrom_mark (by decide) hplain hps hopen hclose le_rfl]
    rfl

theorem setValue_writer {tag value : Str} (hT : T.wellFormed = true)
    (hreads : Apart '{' '}' tag (T.source s))
    (hcall : (Call.setValue tag value).proper = true) :
    (T.writer s).setValue tag value = T.writer (s.step [] (.setValue tag value)) := by
  simp only [Call.proper, Bool.and_eq_true, List.all_eq_true, decide_eq_true_eq,
    Bool.not_eq_true', ← Bool.not_eq_true, hasPrefixString_iff] at hcall
  obtain ⟨⟨⟨hchars, hsec⟩, hclose⟩, -⟩ := hcall
  have hNul : noNul tag = true :=
    List.all_eq_true.mpr fun ch hch => decide_eq_true (hchars ch hch).2
  have hhtml : ((T.writer s).setValue tag value).htmlTemplate =
      Lib.print '{' '}' (T.source (s.step [] (.setValue tag value))) := by
    rw [setValue_html (Template.plain_pieces hT _ s) hreads hNul
      (fun hmem => (hchars _ hmem).1.1 rfl) (fun hmem => (hchars _ hmem).1.2 rfl) rfl]
    rcases hshort : short tag with - | -
    · rw [Template.source_long value hshort]
      rfl
    · rw [← Template.map_source hsec hclose hshort]
      rfl
  have hchildren : ∀ m, T.children (s.step [] (.setValue tag value)) m = T.children s m :=
    fun m => Template.children_congr rfl
  show ({ T.writer s with
    htmlTemplate := ((T.writer s).setValue tag value).htmlTemplate } : TemplateHTMLWriter) = _
  simp only [Template.writer, hchildren] at hhtml ⊢
  rw [hhtml]
  rfl

/-- Instances may change, while the text stays. -/
theorem writer_of_children {f : Str → List TemplateHTMLWriter → List TemplateHTMLWriter}
    (hgiven : s'.given = s.given) (hvalues : s'.values = s.values)
    (h : ∀ m ∈ T.names, T.children s' m = f m (T.children s m)) :
    T.writer s' = { T.writer s with
      sectionsReplace :=
        (T.writer s).sectionsReplace.map fun entry => (entry.1, f entry.1 entry.2) } := by
  have hsource : T.source s' = T.source s := Template.source_congr (by
    rw [Sheet.env, Sheet.env, hgiven, hvalues])
  have hsections : (T.sortedNames.map fun m => (m, T.children s' m)) =
      (T.sortedNames.map fun m => (m, T.children s m)).map
        fun entry => (entry.1, f entry.1 entry.2) := by
    rw [List.map_map]
    refine List.map_congr_left fun m hm => ?_
    rw [h m (Template.mem_sortedNames.mp hm)]
    rfl
  simp only [Template.writer, hsource, hgiven, hsections]

theorem writer_congr (hgiven : s'.given = s.given) (hvalues : s'.values = s.values)
    (h : ∀ m ∈ T.names, T.children s' m = T.children s m) : T.writer s' = T.writer s := by
  rw [writer_of_children (f := fun _ news => news) hgiven hvalues h, List.map_id']
  rfl

/-- A section gets one more instance, if it is made. -/
theorem children_addSection (hnodup : T.names.Nodup) (h : (n, body) ∈ T.secs) :
    T.children (s.step [] (.addSection n)) n = T.children s n ++
      ([Sheet.blank s.env].filter body.made).map body.writer := by
  have hadded : (s.step [] (.addSection n)).added n = s.added n ++ [.blank s.env] := if_pos rfl
  rw [Template.children_of_mem hnodup h, Template.children_of_mem hnodup h, hadded,
    List.filter_append, List.map_append]

theorem addSection_writer (hT : T.wellFormed = true) (hnodup : T.names.Nodup) {name : Str}
    (hreads : T.reads s [] (.addSection name) = true) :
    ((T.writer s).addSection readFile name).getD (T.writer s) =
      T.writer (s.step [] (.addSection name)) := by
  have hkeys : (T.writer s).sectionsReplace.map Prod.fst = T.sortedNames := by
    rw [Template.writer, List.map_map]
    exact List.map_id _
  have hother : ∀ m, m ≠ name →
      T.children (s.step [] (.addSection name)) m = T.children s m :=
    fun m hm => Template.children_congr (if_neg hm)
  have hgiven : (s.step [] (.addSection name)).given = s.given := rfl
  have hvalues : (s.step [] (.addSection name)).values = s.values := rfl
  rw [TemplateHTMLWriter.addSection, hkeys]
  by_cases hname : name ∈ T.names
  · obtain ⟨body, hbody⟩ := Template.exists_mem_secs hname
    obtain ⟨hwf, -⟩ := Template.of_mem_secs hT hnodup hbody
    have hsource : body.source (.blank s.env) = body.source s :=
      Template.source_congr (Template.env_blank s.env)
    rw [if_neg (not_not.mpr (Template.mem_sortedNames.mpr hname))]
    show (if (T.writer s).getSection name = [] then none else _).getD (T.writer s) = _
    have hsearch := List.all_eq_true.mp hreads _ hbody
    simp only [ne_eq, not_true_eq_false, decide_false, Bool.false_or, Bool.and_eq_true,
      decide_eq_true_eq] at hsearch
    obtain ⟨⟨hopen, hclose⟩, hload⟩ := hsearch
    rw [getSection_writer hT hnodup hopen hclose hbody]
    by_cases hempty : Lib.print '{' '}' (body.source s) = []
    · have hmade : body.made (.blank s.env) = false :=
        decide_eq_false (not_not.mpr (hsource ▸ hempty))
      rw [if_pos hempty, Option.getD_none]
      symm
      apply writer_congr hgiven hvalues
      intro m _
      by_cases hm : m = name
      · rw [hm, children_addSection hnodup hbody,
          List.filter_cons_of_neg (by rw [hmade]; decide)]
        exact List.append_nil _
      · exact hother m hm
    · have hmade : body.made (.blank s.env) = true := decide_eq_true (hsource ▸ hempty)
      rw [if_neg hempty, ← hsource, loadTemplate_source hwf hload, Option.getD_some]
      symm
      apply writer_of_children (f := fun m news =>
        if m = name then news ++ [body.writer (.blank s.env)] else news) hgiven hvalues
      intro m _
      by_cases hm : m = name
      · rw [if_pos hm, hm, children_addSection hnodup hbody, List.filter_cons_of_pos hmade]
        rfl
      · rw [if_neg hm]
        exact hother m hm
  · rw [if_pos fun hmem => hname (Template.mem_sortedNames.mp hmem)]
    symm
    apply writer_congr hgiven hvalues
    intro m hm
    exact hother m fun heq => hname (heq ▸ hm)

/-! #### A step of an instance -/

/-- What is empty stays so when more is set. -/
theorem print_source_eq_nil (hfront : s.env <+: s'.env)
    (h : Lib.print '{' '}' (T.source s) = []) : Lib.print '{' '}' (T.source s') = [] := by
  induction T with
  | done => rfl
  | text t rest ih =>
      rw [Template.source_text, print_cons, List.append_eq_nil_iff] at h ⊢
      exact ⟨h.1, ih h.2⟩
  | tag name rest ih =>
      rw [Template.source_tag, print_cons, List.append_eq_nil_iff] at h ⊢
      refine ⟨?_, ih h.2⟩
      rcases hlook : s.env.lookup name with - | value
      · rw [tagPiece, hlook] at h
        exact absurd h.1 (List.cons_ne_nil _ _)
      · rw [tagPiece, hlook] at h
        rw [tagPiece, hfront.lookup_eq_some hlook]
        exact h.1
  | sec name body rest _ _ =>
      exact absurd h (List.cons_ne_nil _ _)

/-- Of the instances that were asked for, those that are made come first. -/
theorem made_mono {c d : Sheet} (hfront : c.given <+: d.given) (h : body.made d = true) :
    body.made c = true := by
  refine decide_eq_true fun hempty => of_decide_eq_true h ?_
  refine print_source_eq_nil ?_ hempty
  rw [Template.env_blank, Template.env_blank]
  exact hfront

/-- A call on an instance changes that instance. -/
theorem children_step {handle : Handle} {call : Call} {k : ℕ} (hnodup : T.names.Nodup)
    (hgrown : s.Grown) (h : (n, body) ∈ T.secs)
    (hchild : ∀ child, (s.added n)[k]? = some child →
      body.writer (child.step handle call) = (body.writer child).step readFile handle call) :
    T.children (s.step ((n, k) :: handle) call) n =
      (T.children s n).modify k fun w => w.step readFile handle call := by
  obtain ⟨-, hlater, -⟩ := hgrown
  have hadded : (s.step ((n, k) :: handle) call).added n =
      (s.added n).modify k fun child => child.step handle call := if_pos rfl
  have hkeep : ∀ child : Sheet, body.made (child.step handle call) = body.made child := by
    intro child
    rw [Template.made, Template.made, Sheet.given_step]
  have hmade : (s.added n).Pairwise fun c d => body.made d = true → body.made c = true :=
    (List.pairwise_map.mp (hlater n)).imp made_mono
  rw [Template.children_of_mem hnodup h, Template.children_of_mem hnodup h, hadded,
    filter_modify hkeep hmade]
  apply map_modify
  intro child hget
  exact hchild child (getElem?_of_filter hmade hget)

/-- A call on a writer or on one of its instances does what is asked for. -/
theorem step_writer {handle : Handle} {call : Call} (hT : T.wellFormed = true)
    (hnodup : T.names.Nodup) (hgrown : s.Grown) (hreads : T.reads s handle call = true)
    (hcall : call.proper = true) :
    (T.writer s).step readFile handle call = T.writer (s.step handle call) := by
  induction handle generalizing T s with
  | nil =>
      rcases call with ⟨tag, value⟩ | name
      · exact setValue_writer hT (of_decide_eq_true hreads) hcall
      · exact addSection_writer hT hnodup hreads
  | cons at_ handle ih =>
      obtain ⟨name, k⟩ := at_
      have hgiven : (s.step ((name, k) :: handle) call).given = s.given := rfl
      have hvalues : (s.step ((name, k) :: handle) call).values = s.values := rfl
      symm
      apply writer_of_children (f := fun m news => if m = name then
        news.modify k fun w => w.step readFile handle call else news) hgiven hvalues
      intro m hm
      by_cases hname : m = name
      · obtain rfl := hname
        obtain ⟨body, hbody⟩ := Template.exists_mem_secs hm
        obtain ⟨hwf, hbodyNodup, -⟩ := Template.of_mem_secs hT hnodup hbody
        have hchild := List.all_eq_true.mp hreads _ hbody
        simp only [ne_eq, not_true_eq_false, decide_false, Bool.false_or] at hchild
        rw [if_pos rfl]
        apply children_step hnodup hgrown hbody
        intro child hget
        rw [hget, Option.all_some] at hchild
        exact (ih hwf hbodyNodup (hgrown.child (List.mem_of_getElem? hget)) hchild).symm
      · rw [if_neg hname]
        exact Template.children_congr (if_neg hname)

/-- After any calls a writer holds what they asked for. -/
theorem run_writer (readFile : Str → Option Str) {calls : List (Handle × Call)}
    (hT : T.wellFormed = true) (hnodup : T.names.Nodup) (hgrown : s.Grown)
    (hcalls : ∀ call ∈ calls, call.2.proper = true)
    (hreads : Throughout (fun s call => s.step call.1 call.2)
      (fun s call => T.reads s call.1 call.2 = true) s calls) :
    calls.foldl (fun w call => w.step readFile call.1 call.2) (T.writer s) =
      T.writer (calls.foldl (fun s call => s.step call.1 call.2) s) ∧
    (calls.foldl (fun s call => s.step call.1 call.2) s).Grown := by
  induction calls generalizing s with
  | nil => exact ⟨rfl, hgrown⟩
  | cons call calls ih =>
      have hcall := hcalls call List.mem_cons_self
      rw [List.foldl_cons, List.foldl_cons, step_writer hT hnodup hgrown hreads.1 hcall]
      exact ih hgrown.step (fun call' hcall' => hcalls call' (List.mem_cons_of_mem _ hcall'))
        hreads.2

end Steps

end Orbit.Html
