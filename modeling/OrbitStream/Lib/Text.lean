/-
OrbitStream/Lib/Text.lean

Words and numbers in a text: what is read up to a character that does not belong to it is
what was written in front of that.
-/
import Mathlib.Data.List.Basic

namespace Lib

section Stop

variable {α : Type*} {p : α → Bool}

/-- A text that does not go on with an element of the word. -/
def Stops (p : α → Bool) (rest : List α) : Prop := ∀ a ∈ rest.head?, p a = false

theorem stops_nil : Stops p [] := fun _ h => absurd h (Option.not_mem_none _)

theorem stops_cons {a : α} (rest : List α) (h : p a = false) : Stops p (a :: rest) := by
  intro b hb
  obtain rfl := Option.some.inj hb
  exact h

theorem takeWhile_word {word rest : List α} (hword : ∀ a ∈ word, p a = true)
    (h : Stops p rest) : (word ++ rest).takeWhile p = word := by
  rw [List.takeWhile_append_of_pos hword]
  rcases rest with - | ⟨a, rest⟩
  · exact List.append_nil word
  · rw [List.takeWhile_cons_of_neg (by rw [h a rfl]; decide), List.append_nil]

theorem dropWhile_word {word rest : List α} (hword : ∀ a ∈ word, p a = true)
    (h : Stops p rest) : (word ++ rest).dropWhile p = rest := by
  rw [List.dropWhile_append_of_pos hword]
  rcases rest with - | ⟨a, rest⟩
  · rfl
  · exact List.dropWhile_cons_of_neg (by rw [h a rfl]; decide)

end Stop

/-! ### Words with separators -/

section Joined

variable {α : Type*}

/-- Words, each with the separator behind it, in front of a last one. -/
def joined (sep : α) (words : List (List α)) (last : List α) : List α :=
  words.foldr (fun word text => word ++ sep :: text) last

@[simp] theorem joined_nil (sep : α) (last : List α) : joined sep [] last = last := rfl

@[simp] theorem joined_cons (sep : α) (word : List α) (words : List (List α)) (last : List α) :
    joined sep (word :: words) last = word ++ sep :: joined sep words last := rfl

theorem joined_eq_intercalate (sep : α) (words : List (List α)) (last : List α) :
    joined sep words last = [sep].intercalate (words ++ [last]) := by
  induction words with
  | nil => simp
  | cons word words ih =>
      rw [joined_cons, ih, List.cons_append, List.intercalate_cons_of_ne_nil (by simp)]
      simp

/-- Words without separators can be told from their text. -/
theorem intercalate_inj [DecidableEq α] {sep : α} {words words' : List (List α)}
    (hwords : ∀ word ∈ words, sep ∉ word) (hwords' : ∀ word ∈ words', sep ∉ word)
    (hne : words ≠ []) (hne' : words' ≠ [])
    (h : [sep].intercalate words = [sep].intercalate words') : words = words' := by
  rw [← List.splitOn_intercalate sep hwords hne, h, List.splitOn_intercalate sep hwords' hne']

/-- Words that are not empty, run together, are longer than each of them if there are
more. -/
theorem eq_singleton_of_flatten {words : List (List α)} {word : List α}
    (hne : ∀ w ∈ words, w ≠ []) (hword : word ∈ words) (h : words.flatten = word) :
    words = [word] := by
  have hnil : ∀ {l : List (List α)}, (∀ w ∈ l, w ≠ []) → l.flatten = [] → l = [] := by
    intro l hl hflat
    rcases l with - | ⟨w, l⟩
    · rfl
    · exact absurd (List.append_eq_nil_iff.mp hflat).1 (hl w List.mem_cons_self)
  obtain ⟨front, back, rfl⟩ := List.append_of_mem hword
  have hlen := congrArg List.length h
  simp only [List.flatten_append, List.flatten_cons, List.length_append] at hlen
  have hfront : front.flatten = [] := List.eq_nil_of_length_eq_zero (by omega)
  have hback : back.flatten = [] := List.eq_nil_of_length_eq_zero (by omega)
  rw [hnil (fun w hw => hne w (List.mem_append_left _ hw)) hfront,
    hnil (fun w hw => hne w (List.mem_append_right _ (List.mem_cons_of_mem _ hw))) hback]
  rfl

end Joined

/-! ### Decimal numbers -/

/-- The decimal text of an integer. -/
def intDigits : Int → List Char
  | .ofNat n => Nat.toDigits 10 n
  | .negSucc n => '-' :: Nat.toDigits 10 (n + 1)

theorem isDigit_toDigits {n : Nat} {ch : Char} (h : ch ∈ Nat.toDigits 10 n) :
    ch.isDigit = true :=
  Nat.isDigit_of_mem_toDigits (by decide) (by decide) h

/-- The text of a number begins with a digit. -/
theorem toDigits_eq_cons (n : Nat) :
    ∃ ch rest, Nat.toDigits 10 n = ch :: rest ∧ ch.isDigit = true := by
  rcases hdigits : Nat.toDigits 10 n with - | ⟨ch, rest⟩
  · exact absurd hdigits Nat.toDigits_ne_nil
  · refine ⟨ch, rest, rfl, isDigit_toDigits (n := n) ?_⟩
    rw [hdigits]
    exact List.mem_cons_self

/-- The characters of an integer are digits, but for the sign in front. -/
theorem mem_intDigits {i : Int} {ch : Char} (h : ch ∈ intDigits i) :
    ch = '-' ∨ ch.isDigit = true := by
  cases i with
  | ofNat n => exact .inr (isDigit_toDigits h)
  | negSucc n => exact (List.mem_cons.mp h).imp id isDigit_toDigits

theorem intDigits_ne_nil (i : Int) : intDigits i ≠ [] := by
  cases i with
  | ofNat n => exact Nat.toDigits_ne_nil
  | negSucc n => exact List.cons_ne_nil _ _

theorem toDigits_injective : Function.Injective (Nat.toDigits 10) := by
  intro n m h
  rw [← Nat.ofDigitChars_ten_toDigits (n := n), h, Nat.ofDigitChars_ten_toDigits]

theorem intDigits_injective : Function.Injective intDigits := by
  have hsign : ∀ n m : Nat, Nat.toDigits 10 n ≠ '-' :: Nat.toDigits 10 (m + 1) := by
    intro n m h
    have hmem : '-' ∈ Nat.toDigits 10 n := by
      rw [h]
      exact List.mem_cons_self
    have hdigit := isDigit_toDigits hmem
    exact absurd hdigit (by decide)
  rintro (n | n) (m | m) h
  · exact congrArg Int.ofNat (toDigits_injective h)
  · exact absurd h (hsign n m)
  · exact absurd h.symm (hsign m n)
  · have hnm := toDigits_injective (List.cons.inj h).2
    rw [Nat.succ.inj hnm]

end Lib
