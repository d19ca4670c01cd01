/-
OrbitStream/Lib/Markers.lean

Texts with marks in double brackets.  A list of pieces, plain texts and marks, is written
out as one text (`print`).  As long as plain texts that stand next to each other do not spell
the mark that is searched for (`Apart`), searching and replacing in the text do on the pieces
what is meant: `replaceFrom_mark`, `replaceFrom_chunk` and `between_print`.  Reading all marks
of a text asks for more: no plain text holds or completes an opening bracket (`Spaced`,
`findMarks_print`).
-/
import Mathlib.Data.List.Basic
import Mathlib.Data.List.Infix
import OrbitStream.Lib.Text

namespace Lib

/-! ### Searching for a part of a text -/

section Split

variable {α : Type*} [DecidableEq α] {pat s front rest : List α}

/-- What stands in front of the first `pat` of a text, and what stands behind it. -/
def splitFirst (pat : List α) : List α → Option (List α × List α)
  | [] => if pat.isPrefixOf [] then some ([], []) else none
  | a :: s =>
      if pat.isPrefixOf (a :: s) then some ([], (a :: s).drop pat.length)
      else (splitFirst pat s).map fun found => (a :: found.1, found.2)

theorem splitFirst_append (pat rest : List α) :
    splitFirst pat (pat ++ rest) = some ([], rest) := by
  rcases hpat : pat ++ rest with - | ⟨a, s⟩
  · obtain ⟨rfl, rfl⟩ := List.append_eq_nil_iff.mp hpat
    rfl
  · have hpre : pat.isPrefixOf (a :: s) = true :=
      List.isPrefixOf_iff_prefix.mpr (hpat ▸ List.prefix_append pat rest)
    rw [splitFirst, if_pos hpre, ← hpat, List.drop_left]

theorem splitFirst_cons {a : α} (h : ¬ pat <+: a :: s) :
    splitFirst pat (a :: s) = (splitFirst pat s).map fun found => (a :: found.1, found.2) := by
  rw [splitFirst, if_neg (fun hpre => h (List.isPrefixOf_iff_prefix.mp hpre))]

theorem splitFirst_eq_none : splitFirst pat s = none ↔ ¬ pat <:+: s := by
  induction s with
  | nil =>
      show (if pat.isPrefixOf [] then some ([], []) else none) = none ↔ _
      rw [List.infix_nil, ← List.prefix_nil, ← List.isPrefixOf_iff_prefix]
      split <;> simp [*]
  | cons a s ih =>
      rw [List.infix_cons_iff, not_or, ← ih]
      by_cases hpre : pat <+: a :: s
      · simp [splitFirst, List.isPrefixOf_iff_prefix.mpr hpre, hpre]
      · simp [splitFirst_cons hpre, hpre]

/-- What a search finds behind the first occurrence ends the text. -/
theorem suffix_of_splitFirst (h : splitFirst pat s = some (front, rest)) : rest <:+ s := by
  induction s generalizing front with
  | nil =>
      rw [splitFirst] at h
      split at h
      · obtain ⟨-, rfl⟩ := Prod.mk.inj (Option.some.inj h)
        exact List.suffix_rfl
      · exact absurd h (by simp)
  | cons a s ih =>
      rw [splitFirst] at h
      split at h
      · obtain ⟨-, rfl⟩ := Prod.mk.inj (Option.some.inj h)
        exact List.drop_suffix _ _
      · obtain ⟨⟨front', rest'⟩, hfound, heq⟩ := Option.map_eq_some_iff.mp h
        obtain ⟨-, rfl⟩ := Prod.mk.inj heq
        exact (ih hfound).trans (List.suffix_cons a s)

/-- Every `old` of a text, or the first one only, made a `new`. -/
def replaceFrom (old new : List α) (all : Bool) : ℕ → List α → List α
  | 0, s => s
  | fuel + 1, s =>
      match splitFirst old s with
      | none => s
      | some (front, rest) =>
          front ++ new ++ if all then replaceFrom old new all fuel rest else rest

/-- Where nothing is to be found, nothing changes. -/
theorem replaceFrom_of_none {old new : List α} {all : Bool} {fuel : ℕ}
    (h : splitFirst old s = none) : replaceFrom old new all fuel s = s := by
  rcases fuel with - | fuel
  · rfl
  · rw [replaceFrom, h]

/-- What a search passes over stays as it is. -/
theorem replaceFrom_skip {old new : List α} {all : Bool} {fuel : ℕ}
    (h : splitFirst old (front ++ s) =
      (splitFirst old s).map fun found => (front ++ found.1, found.2)) :
    replaceFrom old new all fuel (front ++ s) = front ++ replaceFrom old new all fuel s := by
  rcases fuel with - | fuel
  · rfl
  · rcases hs : splitFirst old s with - | ⟨front', rest⟩
    · rw [replaceFrom, h, replaceFrom, hs]
      rfl
    · rw [replaceFrom, h, replaceFrom, hs]
      simp

end Split

/-! ### Pieces -/

section Pieces

variable {α : Type*}

/-- A plain text, or the name of a mark. -/
inductive Piece (α : Type*)
  | text (s : List α)
  | mark (m : List α)

/-- A mark as it is written. -/
def bracket (o c : α) (m : List α) : List α := o :: o :: (m ++ [c, c])

def Piece.print (o c : α) : Piece α → List α
  | .text s => s
  | .mark m => bracket o c m

def print (o c : α) (ps : List (Piece α)) : List α := ps.flatMap (Piece.print o c)

@[simp] theorem print_nil (o c : α) : print o c [] = [] := rfl

@[simp] theorem print_cons (o c : α) (p : Piece α) (ps : List (Piece α)) :
    print o c (p :: ps) = p.print o c ++ print o c ps := List.flatMap_cons

@[simp] theorem print_append (o c : α) (ps qs : List (Piece α)) :
    print o c (ps ++ qs) = print o c ps ++ print o c qs := List.flatMap_append

/-- The names of the marks, in the order in which they stand. -/
def marks : List (Piece α) → List (List α)
  | [] => []
  | .text _ :: ps => marks ps
  | .mark m :: ps => m :: marks ps

@[simp] theorem marks_nil : marks ([] : List (Piece α)) = [] := rfl

@[simp] theorem marks_text (s : List α) (ps : List (Piece α)) :
    marks (.text s :: ps) = marks ps := rfl

@[simp] theorem marks_mark (m : List α) (ps : List (Piece α)) :
    marks (.mark m :: ps) = m :: marks ps := rfl

@[simp] theorem marks_append (ps qs : List (Piece α)) :
    marks (ps ++ qs) = marks ps ++ marks qs := by
  induction ps with
  | nil => rfl
  | cons p ps ih => cases p <;> simp [ih]

theorem mem_marks {m : List α} {ps : List (Piece α)} : m ∈ marks ps ↔ .mark m ∈ ps := by
  induction ps with
  | nil => simp
  | cons p ps ih => cases p <;> simp [ih]

/-- A name that can be told from the brackets around it. -/
structure Plain (o c : α) (m : List α) : Prop where
  ne_nil : m ≠ []
  opening : o ∉ m
  closing : c ∉ m

theorem Plain.cons {o c a : α} {m : List α} (h : Plain o c m) (ho : a ≠ o) (hc : a ≠ c) :
    Plain o c (a :: m) := by
  refine ⟨List.cons_ne_nil _ _, fun hmem => ?_, fun hmem => ?_⟩
  · exact (List.mem_cons.mp hmem).elim (fun heq => ho heq.symm) h.opening
  · exact (List.mem_cons.mp hmem).elim (fun heq => hc heq.symm) h.closing

variable [DecidableEq α]

/-- The pieces begin with an opening bracket. -/
def opens (o : α) : List (Piece α) → Bool
  | [] => false
  | .text [] :: ps => opens o ps
  | .text (a :: _) :: _ => a = o
  | .mark _ :: _ => true

/-- No plain text holds a double opening bracket, nor does it end with a single one where an
opening bracket stands behind it. -/
def Spaced (o : α) : List (Piece α) → Prop
  | [] => True
  | .text s :: ps => ¬ [o, o] <:+: s ∧ (s.getLast? = some o → opens o ps = false) ∧ Spaced o ps
  | .mark _ :: ps => Spaced o ps

instance decidableSpaced (o : α) : ∀ ps : List (Piece α), Decidable (Spaced o ps)
  | [] => isTrue trivial
  | .text _ :: ps =>
      have := decidableSpaced o ps
      inferInstanceAs (Decidable (_ ∧ _ ∧ _))
  | .mark _ :: ps => decidableSpaced o ps

/-- No plain texts that stand next to each other spell this mark. -/
def Apart (o c : α) (t : List α) (ps : List (Piece α)) : Prop :=
  ∀ us, us <:+: ps → marks us = [] → ¬ bracket o c t <:+: print o c us

instance (o c : α) (t : List α) (ps : List (Piece α)) : Decidable (Apart o c t ps) :=
  decidable_of_iff
    (∀ us ∈ ps.tails.flatMap List.inits, marks us = [] → ¬ bracket o c t <:+: print o c us) <| by
    simp only [List.mem_flatMap, List.mem_tails, List.mem_inits, Apart, List.infix_iff_prefix_suffix,
      and_comm]

variable {o c : α} {ps qs : List (Piece α)} {m t : List α}

omit [DecidableEq α] in
theorem Apart.of_infix (h : Apart o c t ps) (hqs : qs <:+: ps) : Apart o c t qs :=
  fun us hus => h us (hus.trans hqs)

/-- The text of pieces that do not begin with a bracket does not begin with one. -/
theorem opens_of_head (h : (print o c ps).head? = some o) : opens o ps = true := by
  induction ps with
  | nil => exact absurd h (by simp)
  | cons p ps ih =>
      rcases p with (- | ⟨a, s⟩) | m
      · exact ih h
      · exact decide_eq_true (Option.some.inj h)
      · rfl

end Pieces

/-! ### Searching and replacing in the text of pieces -/

section Search

variable {α : Type*} [DecidableEq α] {o c : α} {ps pre cs post : List (Piece α)}
variable {s r w m t old new : List α}

/-- A search for an opening bracket and more passes over a plain text. -/
theorem splitFirst_text (hpair : ¬ [o, o] <:+: s)
    (hlast : s.getLast? = some o → r.head? ≠ some o) :
    splitFirst (o :: o :: w) (s ++ r) =
      (splitFirst (o :: o :: w) r).map fun found => (s ++ found.1, found.2) := by
  induction s with
  | nil => exact Option.map_id'.symm
  | cons a s ih =>
      have hpair' : ¬ [o, o] <:+: s := fun h => hpair (List.infix_cons h)
      have hlast' : s.getLast? = some o → r.head? ≠ some o := by
        intro h
        refine hlast ?_
        rw [List.getLast?_cons, h]
        rfl
      have hmiss : ¬ o :: o :: w <+: a :: (s ++ r) := by
        intro hpre
        obtain ⟨rfl, hpre'⟩ := List.cons_prefix_cons.mp hpre
        rcases s with - | ⟨a', s⟩
        · rcases r with - | ⟨a', r⟩
          · exact absurd (List.prefix_nil.mp hpre') (List.cons_ne_nil _ _)
          · rw [← (List.cons_prefix_cons.mp hpre').1] at hlast
            exact hlast rfl rfl
        · rw [← (List.cons_prefix_cons.mp hpre').1] at hpair
          exact hpair (List.prefix_append [o, o] s).isInfix
      rw [List.cons_append, splitFirst_cons hmiss, ih hpair' hlast', Option.map_map]
      rfl

/-- What begins with an opening bracket is not found in a mark that it is not found at. -/
theorem splitFirst_mark (hco : c ≠ o) (hm : Plain o c m)
    (hmiss : ¬ o :: o :: w <+: bracket o c m ++ r) :
    splitFirst (o :: o :: w) (bracket o c m ++ r) =
      (splitFirst (o :: o :: w) r).map fun found => (bracket o c m ++ found.1, found.2) := by
  obtain ⟨a, m', rfl⟩ := List.exists_cons_of_ne_nil hm.ne_nil
  have hpair : ¬ [o, o] <:+: o :: (a :: m' ++ [c, c]) := by
    intro hinfix
    rcases List.infix_cons_iff.mp hinfix with hpre | hinfix
    · obtain ⟨-, hpre'⟩ := List.cons_prefix_cons.mp hpre
      exact hm.opening ((List.cons_prefix_cons.mp hpre').1 ▸ List.mem_cons_self)
    · have hmem : o ∈ a :: m' ++ [c, c] := hinfix.subset List.mem_cons_self
      rcases List.mem_append.mp hmem with hmem | hmem
      · exact hm.opening hmem
      · simp [hco.symm] at hmem
  have hlast : (o :: (a :: m' ++ [c, c])).getLast? = some o → r.head? ≠ some o := by
    intro h
    have hclose : (o :: (a :: m' ++ [c, c])).getLast? = some c := by
      rw [show o :: (a :: m' ++ [c, c]) = o :: a :: m' ++ [c] ++ [c] by simp]
      exact List.getLast?_concat
    exact absurd (Option.some.inj (hclose.symm.trans h)) hco
  have hmiss' : ¬ o :: o :: w <+: o :: (o :: (a :: m' ++ [c, c]) ++ r) := hmiss
  show splitFirst (o :: o :: w) (o :: (o :: (a :: m' ++ [c, c]) ++ r)) = _
  rw [splitFirst_cons hmiss', splitFirst_text hpair hlast, Option.map_map]
  rfl

/-- What a mark begins with is not found in pieces whose marks begin otherwise. -/
theorem splitFirst_print (hco : c ≠ o) (hplain : ∀ m ∈ marks ps, Plain o c m)
    (hps : Spaced o ps) (hmiss : ∀ m ∈ marks ps, ∀ r, ¬ o :: o :: w <+: bracket o c m ++ r) :
    splitFirst (o :: o :: w) (print o c ps) = none := by
  induction ps with
  | nil => rfl
  | cons p ps ih =>
      rcases p with s | m
      · have hhead : s.getLast? = some o → (print o c ps).head? ≠ some o := by
          intro hlast hhead
          exact absurd (opens_of_head hhead) (by rw [hps.2.1 hlast]; decide)
        rw [print_cons, Piece.print, splitFirst_text hps.1 hhead, ih hplain hps.2.2 hmiss]
        rfl
      · obtain ⟨hm, hplain⟩ := List.forall_mem_cons.mp hplain
        obtain ⟨hmiss₁, hmiss⟩ := List.forall_mem_cons.mp hmiss
        rw [print_cons, Piece.print, splitFirst_mark hco hm (hmiss₁ _), ih hplain hps hmiss]
        rfl

/-- A mark is found at a mark of its name only. -/
theorem not_bracket_starts (ht : c ∉ t) (hm : c ∉ m) (hne : t ≠ m) :
    ¬ bracket o c t ++ w <+: bracket o c m ++ r := by
  intro hpre
  have hpre : t ++ c :: (c :: w) <+: m ++ c :: (c :: r) := by
    simpa [bracket] using hpre
  obtain ⟨rest, heq⟩ := hpre
  have hword : ∀ {l : List α}, c ∉ l →
      ∀ rest, (l ++ c :: rest).takeWhile (fun a => decide (a ≠ c)) = l := by
    intro l hl rest
    exact takeWhile_word (fun a ha => decide_eq_true (fun hac : a = c => hl (hac ▸ ha)))
      (stops_cons rest (decide_eq_false (fun hcc => hcc rfl)))
  refine hne ?_
  rw [← hword ht (c :: w ++ rest), ← hword hm (c :: r), ← heq]
  simp only [List.append_assoc, List.cons_append]

omit [DecidableEq α] in
/-- What is not there at the front of a text is not there with an end or a mark behind it. -/
theorem not_bracket_starts_append (hco : c ≠ o) (ho : o ∉ t) (hne : s ≠ [])
    (hs : ¬ bracket o c t <+: s) (hr : r = [] ∨ [o, o] <+: r) :
    ¬ bracket o c t <+: s ++ r := by
  intro hpre
  rcases List.prefix_or_prefix_of_prefix hpre (List.prefix_append s r) with hin | ⟨x, hx⟩
  · exact hs hin
  · have hxr : x <+: r := by
      rw [← hx] at hpre
      exact (List.prefix_append_right_inj s).mp hpre
    have hxne : x ≠ [] := by
      rintro rfl
      rw [List.append_nil] at hx
      exact hs (hx ▸ List.prefix_rfl)
    obtain ⟨y, x', rfl⟩ := List.exists_cons_of_ne_nil hxne
    rcases hr with rfl | ⟨r', rfl⟩
    · exact absurd (List.prefix_nil.mp hxr) (List.cons_ne_nil _ _)
    -- what is missing of the mark would begin with two opening brackets
    obtain ⟨rfl, hxr⟩ := List.cons_prefix_cons.mp hxr
    obtain ⟨a, s, rfl⟩ := List.exists_cons_of_ne_nil hne
    obtain ⟨-, hx⟩ := List.cons.inj hx
    rcases s with - | ⟨a', s⟩
    · obtain ⟨-, rfl⟩ := List.cons.inj hx
      rcases t with - | ⟨d, t⟩
      · exact hco (List.cons_prefix_cons.mp hxr).1
      · exact ho ((List.cons_prefix_cons.mp hxr).1 ▸ List.mem_cons_self)
    · obtain ⟨-, hx⟩ := List.cons.inj hx
      have hmem : y ∈ t ++ [c, c] := by
        rw [← hx]
        exact List.mem_append_right s List.mem_cons_self
      rcases List.mem_append.mp hmem with hmem | hmem
      · exact ho hmem
      · simp [hco.symm] at hmem

/-- A search for a mark passes over a text that does not spell it. -/
theorem splitFirst_run (hco : c ≠ o) (ho : o ∉ t) (hold : bracket o c t <+: old)
    (hs : ¬ bracket o c t <:+: s) (hr : r = [] ∨ [o, o] <+: r) :
    splitFirst old (s ++ r) = (splitFirst old r).map fun found => (s ++ found.1, found.2) := by
  induction s with
  | nil => exact Option.map_id'.symm
  | cons a s ih =>
      have hmiss : ¬ old <+: a :: (s ++ r) := fun hpre =>
        not_bracket_starts_append hco ho (List.cons_ne_nil a s) (fun h => hs h.isInfix) hr
          (hold.trans hpre)
      rw [List.cons_append, splitFirst_cons hmiss, ih fun h => hs (List.infix_cons h),
        Option.map_map]
      rfl

/-- It passes over a mark of another name. -/
theorem splitFirst_other (hco : c ≠ o) (hm : Plain o c m) (hold : bracket o c t <+: old)
    (ht : c ∉ t) (hne : t ≠ m) :
    splitFirst old (bracket o c m ++ r) =
      (splitFirst old r).map fun found => (bracket o c m ++ found.1, found.2) := by
  obtain ⟨w, rfl⟩ := hold
  exact splitFirst_mark hco hm (not_bracket_starts ht hm.closing hne)

/-- A search for a mark that is not among those of the pieces passes over them. -/
theorem splitFirst_of_not_mem (hco : c ≠ o) (hplain : ∀ m ∈ marks ps, Plain o c m)
    (hps : Apart o c t ps) (ho : o ∉ t) (ht : c ∉ t) (hold : bracket o c t <+: old)
    (hnot : t ∉ marks ps) (hr : r = [] ∨ [o, o] <+: r) :
    splitFirst old (print o c ps ++ r) =
      (splitFirst old r).map fun found => (print o c ps ++ found.1, found.2) := by
  -- the texts in front of a mark are passed over together with it
  have hrun : ∀ us, marks us = [] → Apart o c t (us ++ ps) →
      splitFirst old (print o c us ++ (print o c ps ++ r)) =
        (splitFirst old r).map fun found =>
          (print o c us ++ (print o c ps ++ found.1), found.2) := by
    clear hps
    induction ps with
    | nil =>
        intro us hus hps
        rw [List.append_nil] at hps
        exact splitFirst_run hco ho hold (hps us List.infix_rfl hus) hr
    | cons p ps ih =>
        intro us hus hps
        rcases p with s | m
        · have hmore := ih hplain hnot (us ++ [.text s]) (by simp [hus]) (by simpa using hps)
          simpa [Piece.print] using hmore
        · obtain ⟨hm, hplain⟩ := List.forall_mem_cons.mp hplain
          obtain ⟨hne, hnot⟩ := not_or.mp (fun h => hnot (List.mem_cons.mpr h))
          have hfront : ¬ bracket o c t <:+: print o c us :=
            hps us (List.prefix_append us _).isInfix hus
          have hback : Apart o c t ([] ++ ps) := hps.of_infix
            ⟨us ++ [.mark m], [], by simp⟩
          have hmark : r = r → [o, o] <+: print o c (.mark m :: ps) ++ r :=
            fun _ => List.prefix_append [o, o] _
          rw [splitFirst_run hco ho hold hfront (.inr (hmark rfl)), print_cons, Piece.print,
            List.append_assoc, splitFirst_other hco hm hold ht hne]
          have hrest := ih hplain hnot [] rfl hback
          rw [print_nil, List.nil_append] at hrest
          rw [hrest, Option.map_map, Option.map_map]
          simp [Function.comp_def]
  have hall := hrun [] rfl hps
  simpa using hall

theorem splitFirst_eq_none_of_not_mem (hco : c ≠ o) (hplain : ∀ m ∈ marks ps, Plain o c m)
    (hps : Apart o c t ps) (ho : o ∉ t) (ht : c ∉ t) (hold : bracket o c t <+: old)
    (hnot : t ∉ marks ps) : splitFirst old (print o c ps) = none := by
  have hsearch := splitFirst_of_not_mem hco hplain hps ho ht hold hnot (.inl rfl)
  have hnil : splitFirst old [] = none := by
    refine splitFirst_eq_none.mpr (fun h => ?_)
    rw [List.infix_nil.mp h] at hold
    exact absurd (List.prefix_nil.mp hold) (List.cons_ne_nil _ _)
  rw [List.append_nil, hnil] at hsearch
  exact hsearch

/-- A mark is not found with what does not stand behind it. -/
theorem splitFirst_eq_none_of_mismatch (hco : c ≠ o)
    (hplain : ∀ m ∈ marks (pre ++ .mark t :: post), Plain o c m)
    (hps : Apart o c t (pre ++ .mark t :: post)) (hnpre : t ∉ marks pre)
    (hnpost : t ∉ marks post) (hmiss : ¬ w <+: print o c post) :
    splitFirst (bracket o c t ++ w) (print o c pre ++ (bracket o c t ++ print o c post)) =
      none := by
  have hold : bracket o c t <+: bracket o c t ++ w := List.prefix_append _ _
  have ht : Plain o c t := hplain t (by simp)
  have hhere : ¬ o :: o :: (t ++ [c, c] ++ w) <+: bracket o c t ++ print o c post := by
    intro hpre
    exact hmiss ((List.prefix_append_right_inj (bracket o c t)).mp hpre)
  have hpass := splitFirst_mark hco ht hhere
  rw [show o :: o :: (t ++ [c, c] ++ w) = bracket o c t ++ w from rfl] at hpass
  have hpair : [o, o] <+: bracket o c t ++ print o c post := List.prefix_append [o, o] _
  rw [splitFirst_of_not_mem hco (fun m hm => hplain m (by simp [hm]))
      (hps.of_infix (List.prefix_append _ _).isInfix) ht.opening ht.closing hold hnpre
      (.inr hpair), hpass,
    splitFirst_eq_none_of_not_mem hco (fun m hm => hplain m (by simp [hm]))
      (hps.of_infix ⟨pre ++ [.mark t], [], by simp⟩) ht.opening ht.closing hold hnpost]
  rfl

omit [DecidableEq α] in
/-- A mark shows in the text. -/
theorem pair_infix_print (hmarks : marks ps ≠ []) : [o, o] <:+: print o c ps := by
  induction ps with
  | nil => exact absurd rfl hmarks
  | cons p ps ih =>
      rcases p with s | m
      · exact (ih hmarks).trans (List.suffix_append _ _).isInfix
      · exact (List.prefix_append [o, o] _).isInfix

/-! #### Replacing -/

/-- A mark made a plain text. -/
def fillMark (t v : List α) : Piece α → Piece α
  | .text s => .text s
  | .mark m => if m = t then .text v else .mark m

/-- Replacing a written mark fills every mark of that name. -/
theorem replaceFrom_mark {v : List α} {fuel : ℕ} (hco : c ≠ o)
    (hplain : ∀ m ∈ marks ps, Plain o c m) (hps : Apart o c t ps) (ho : o ∉ t) (ht : c ∉ t)
    (hfuel : (print o c ps).length ≤ fuel) :
    replaceFrom (bracket o c t) v true fuel (print o c ps) =
      print o c (ps.map (fillMark t v)) := by
  have hrun : ∀ us, marks us = [] → Apart o c t (us ++ ps) →
      replaceFrom (bracket o c t) v true fuel (print o c us ++ print o c ps) =
        print o c us ++ print o c (ps.map (fillMark t v)) := by
    clear hps
    induction ps generalizing fuel with
    | nil =>
        intro us hus hps
        rw [List.append_nil] at hps
        have hnone : ¬ bracket o c t <:+: print o c us := hps us List.infix_rfl hus
        rw [print_nil, List.append_nil, replaceFrom_of_none (splitFirst_eq_none.mpr hnone)]
        simp
    | cons p ps ih =>
        intro us hus hps
        rw [print_cons, List.length_append] at hfuel
        rcases p with s | m
        · have hlen : (print o c ps).length ≤ fuel := by omega
          have hmore := ih hplain hlen (us ++ [.text s]) (by simp [hus]) (by simpa using hps)
          simpa [Piece.print, fillMark] using hmore
        · obtain ⟨hm, hplain⟩ := List.forall_mem_cons.mp hplain
          have hfront : ¬ bracket o c t <:+: print o c us :=
            hps us (List.prefix_append us _).isInfix hus
          have hback : Apart o c t ([] ++ ps) := hps.of_infix ⟨us ++ [.mark m], [], by simp⟩
          have hskip := splitFirst_run hco ho List.prefix_rfl hfront
            (.inr (List.prefix_append [o, o] (m ++ [c, c] ++ print o c ps)))
          rw [show [o, o] ++ (m ++ [c, c] ++ print o c ps) = bracket o c m ++ print o c ps from rfl]
            at hskip
          by_cases hmt : m = t
          · obtain rfl := hmt
            rcases fuel with - | fuel
            · exact absurd hfuel (by simp [Piece.print, bracket])
            · have hlen : (print o c ps).length ≤ fuel := by
                simp only [Piece.print, bracket, List.length_cons] at hfuel
                omega
              have hrest := ih hplain hlen [] rfl hback
              rw [print_nil, List.nil_append, List.nil_append] at hrest
              rw [splitFirst_append] at hskip
              rw [print_cons, Piece.print, replaceFrom, hskip]
              simp [hrest, fillMark, Piece.print]
          · have hother := splitFirst_other (r := print o c ps) hco hm
              (List.prefix_rfl (l := bracket o c t)) ht (fun heq => hmt heq.symm)
            have hlen : (print o c ps).length ≤ fuel := by omega
            have hrest := ih hplain hlen [] rfl hback
            rw [print_nil, List.nil_append, List.nil_append] at hrest
            rw [print_cons, Piece.print, replaceFrom_skip hskip, replaceFrom_skip hother, hrest]
            simp [fillMark, hmt, Piece.print]
  have hall := hrun [] rfl hps
  simpa using hall

/-- Replacing a written mark and what stands behind it, where there is one mark of that
name only. -/
theorem replaceFrom_chunk {fuel : ℕ} (hco : c ≠ o) (hplain : ∀ m ∈ marks (pre ++ post), Plain o c m)
    (hpre : Apart o c t pre) (hpost : Apart o c t post) (hold : bracket o c t <+: old)
    (ho : o ∉ t) (ht : c ∉ t) (hnpre : t ∉ marks pre) (hnpost : t ∉ marks post) :
    replaceFrom old new true (fuel + 1) (print o c pre ++ (old ++ print o c post)) =
      print o c pre ++ (new ++ print o c post) := by
  have hnone : replaceFrom old new true fuel (print o c post) = print o c post :=
    replaceFrom_of_none (splitFirst_eq_none_of_not_mem hco (fun m hm => hplain m (by simp [hm]))
      hpost ho ht hold hnpost)
  have hpair : [o, o] <+: old ++ print o c post := by
    obtain ⟨w, rfl⟩ := hold
    exact List.prefix_append [o, o] _
  have hskip := splitFirst_of_not_mem hco (fun m hm => hplain m (by simp [hm])) hpre ho ht hold
    hnpre (.inr hpair)
  rw [replaceFrom_skip hskip, replaceFrom, splitFirst_append]
  simp [hnone]

/-! #### Reading -/

/-- What stands between the first `opening` and the next `closing`. -/
def between (opening closing s : List α) : List α :=
  match splitFirst opening s with
  | none => []
  | some (_, rest) =>
      match splitFirst closing rest with
      | none => []
      | some (content, _) => content

/-- Between two marks stand the pieces between them. -/
theorem between_print (hco : c ≠ o)
    (hplain : ∀ m' ∈ marks (pre ++ .mark t :: (cs ++ .mark m :: post)), Plain o c m')
    (hpre : Apart o c t pre) (hcs : Apart o c m cs) (hnpre : t ∉ marks pre)
    (hncs : m ∉ marks cs) :
    between (bracket o c t) (bracket o c m)
        (print o c (pre ++ .mark t :: (cs ++ .mark m :: post))) = print o c cs := by
  have ht : Plain o c t := hplain t (by simp)
  have hm : Plain o c m := hplain m (by simp)
  have hopen := splitFirst_of_not_mem
    (r := bracket o c t ++ (print o c cs ++ (bracket o c m ++ print o c post))) hco
    (fun m hm => hplain m (by simp [hm])) hpre ht.opening ht.closing List.prefix_rfl hnpre
    (.inr (List.prefix_append [o, o] _))
  have hclose := splitFirst_of_not_mem (r := bracket o c m ++ print o c post) hco
    (fun m hm => hplain m (by simp [hm])) hcs hm.opening hm.closing List.prefix_rfl hncs
    (.inr (List.prefix_append [o, o] _))
  rw [splitFirst_append] at hopen hclose
  rw [print_append, print_cons, print_append, print_cons, Piece.print, Piece.print, between, hopen]
  show (match splitFirst (bracket o c m) (print o c cs ++ (bracket o c m ++ print o c post)) with
    | none => []
    | some (content, _) => content) = _
  rw [hclose]
  exact List.append_nil _

/-- Where the closing mark is missing there is nothing in between. -/
theorem between_eq_nil {opening : List α} (hco : c ≠ o) (hplain : ∀ m ∈ marks ps, Plain o c m)
    (hps : Apart o c m ps) (ho : o ∉ m) (hm : c ∉ m) (hnot : m ∉ marks ps) :
    between opening (bracket o c m) (print o c ps) = [] := by
  have hnone : ¬ bracket o c m <:+: print o c ps :=
    splitFirst_eq_none.mp (splitFirst_eq_none_of_not_mem hco hplain hps ho hm List.prefix_rfl hnot)
  rw [between]
  split
  · rfl
  · rename_i rest hopen
    have hrest : splitFirst (bracket o c m) rest = none :=
      splitFirst_eq_none.mpr (fun h => hnone (h.trans (suffix_of_splitFirst hopen).isInfix))
    rw [hrest]

/-- What stands in double brackets, read from the front. -/
def findMarks (o c : α) : ℕ → List α → List (List α)
  | 0, _ => []
  | fuel + 1, s =>
      match splitFirst [o, o] s with
      | none => []
      | some (_, rest) =>
          match splitFirst [c, c] rest with
          | none => []
          | some (m, rest) => m :: findMarks o c fuel rest

/-- Reading the text of pieces gives their marks. -/
theorem findMarks_print {fuel : ℕ} (hplain : ∀ m ∈ marks ps, Plain o c m) (hps : Spaced o ps)
    (hfuel : (print o c ps).length ≤ fuel) : findMarks o c fuel (print o c ps) = marks ps := by
  induction ps generalizing fuel with
  | nil => rcases fuel with - | fuel <;> rfl
  | cons p ps ih =>
      rw [print_cons, List.length_append] at hfuel
      rcases p with s | m
      · have hhead : s.getLast? = some o → (print o c ps).head? ≠ some o := by
          intro hlast hhead
          exact absurd (opens_of_head hhead) (by rw [hps.2.1 hlast]; decide)
        have hskip : findMarks o c fuel (s ++ print o c ps) =
            findMarks o c fuel (print o c ps) := by
          rcases fuel with - | fuel
          · rfl
          · rw [findMarks, findMarks, splitFirst_text hps.1 hhead]
            rcases splitFirst [o, o] (print o c ps) with - | found <;> rfl
        rw [print_cons, Piece.print, hskip]
        exact ih hplain hps.2.2 (by omega)
      · rcases fuel with - | fuel
        · exact absurd hfuel (by simp [Piece.print, bracket])
        · obtain ⟨hm, hplain⟩ := List.forall_mem_cons.mp hplain
          have hpair : ¬ [c, c] <:+: m := fun h => hm.closing (h.subset List.mem_cons_self)
          have hlast : m.getLast? = some c → ([c, c] ++ print o c ps).head? ≠ some c := by
            intro h
            exact absurd (List.mem_of_getLast? h) hm.closing
          have hclose := splitFirst_text (w := []) hpair hlast
          rw [splitFirst_append] at hclose
          have hopen : splitFirst [o, o] (bracket o c m ++ print o c ps) =
              some ([], m ++ ([c, c] ++ print o c ps)) := by
            rw [← List.append_assoc]
            exact splitFirst_append [o, o] _
          simp only [Piece.print, bracket, List.length_cons] at hfuel
          rw [print_cons, Piece.print, findMarks, hopen, marks_mark,
            ← ih hplain hps (show (print o c ps).length ≤ fuel by omega)]
          show (match splitFirst [c, c] (m ++ ([c, c] ++ print o c ps)) with
            | none => []
            | some (m, rest) => m :: findMarks o c fuel rest) = _
          rw [hclose, Option.map_some, List.append_nil]

end Search

end Lib
