import Mathlib.Data.List.DropRight
import Mathlib.Tactic
import RoverPilot.Text.Blank

/-!
Blanks around words and between them.

* `Blanks`: a text of nothing but blanks;
* `trim_append_of_blanks`, `trim_eq_self`: blanks around a text do not count, and without them
  nothing is left out;
* `Trimmed`, `trimmed_iff`: what trimming leaves is the text without the blanks around it;
* `after?_eq_some_iff`: a text that begins with another one;
* `IsLines`, `isLines_iff`: the lines of a text are its parts between line ends;
* `Tokens`, `tokens_iff`: the words of a text are its parts between blanks.
-/

namespace RoverPilot.Text

/-- A text of nothing but blanks. -/
def Blanks (s : List Char) : Prop := ∀ c ∈ s, isBlank c = true

lemma blanks_nil : Blanks [] := by simp [Blanks]

variable {s t : List Char}

/-! ### Blanks around a text -/

lemma trimLeft_append_of_blanks (hs : Blanks s) (t : List Char) :
    trimLeft (s ++ t) = trimLeft t :=
  List.dropWhile_append_of_pos hs

lemma trimLeft_eq_self (h : ∀ c ∈ s.head?, isBlank c = false) : trimLeft s = s := by
  cases s with
  | nil => rfl
  | cons c s => simp [trimLeft, h c (by simp)]

lemma trimLeft_eq_nil (hs : Blanks s) : trimLeft s = [] := List.dropWhile_eq_nil_iff.mpr hs

lemma isBlank_of_mem_head?_trimLeft {c : Char} (h : c ∈ (trimLeft s).head?) :
    isBlank c = false := by
  have hhead := List.head?_dropWhile_not isBlank s
  rw [← trimLeft, Option.mem_def.mp h] at hhead
  exact hhead

/-- Every text is blanks, and what is left without them. -/
lemma exists_blanks_append (s : List Char) : ∃ before, Blanks before ∧ s = before ++ trimLeft s :=
  ⟨s.takeWhile isBlank, fun _ => List.mem_takeWhile_imp, List.takeWhile_append_dropWhile.symm⟩

lemma trimRight_append_of_blanks (s : List Char) (ht : Blanks t) :
    trimRight (s ++ t) = trimRight s := by
  have hreverse : ∀ c ∈ t.reverse, isBlank c = true := fun c hc => ht c (List.mem_reverse.mp hc)
  rw [trimRight, trimRight, List.reverse_append, List.dropWhile_append_of_pos hreverse]

/-- Blanks around a text do not count. -/
lemma trim_append_of_blanks {before after : List Char} (hbefore : Blanks before)
    (hafter : Blanks after) (t : List Char) : trim (before ++ (t ++ after)) = trim t := by
  rw [trim, trim, trimLeft_append_of_blanks hbefore]
  by_cases ht : trimLeft t = []
  · have hall : Blanks t := List.dropWhile_eq_nil_iff.mp ht
    rw [ht, trimLeft_append_of_blanks hall, trimLeft_eq_nil hafter]
  · have hleft : trimLeft (t ++ after) = trimLeft t ++ after := by
      rw [trimLeft] at ht
      rw [trimLeft, trimLeft, List.dropWhile_append, if_neg (by simpa using ht)]
    rw [hleft, trimRight_append_of_blanks _ hafter]

/-- A text without blanks at its ends. -/
lemma trim_eq_self (hfirst : ∀ c ∈ s.head?, isBlank c = false)
    (hlast : ∀ c ∈ s.getLast?, isBlank c = false) : trim s = s := by
  rw [trim, trimLeft_eq_self hfirst]
  refine List.rdropWhile_eq_self_iff.mpr fun hne => ?_
  simp [hlast _ (List.getLast?_eq_getLast_of_ne_nil hne)]

/-- A text is another one with blanks around it, and that one has none at its ends. -/
def Trimmed (s t : List Char) : Prop :=
  ∃ before after, s = before ++ (t ++ after) ∧ Blanks before ∧ Blanks after ∧
    (∀ c ∈ t.head?, isBlank c = false) ∧ ∀ c ∈ t.getLast?, isBlank c = false

lemma trimmed_trim (s : List Char) : Trimmed s (trim s) := by
  obtain ⟨before, hbefore, hs⟩ := exists_blanks_append s
  have hends : trim s ++ (trimLeft s).rtakeWhile isBlank = trimLeft s :=
    List.rdropWhile_append_rtakeWhile
  refine ⟨before, (trimLeft s).rtakeWhile isBlank, ?_, hbefore, ?_, ?_, ?_⟩
  · rw [hends]
    exact hs
  · exact fun c => List.mem_rtakeWhile_imp
  · intro c hc
    refine isBlank_of_mem_head?_trimLeft (s := s) ?_
    rw [← hends]
    exact List.mem_head?_append_of_mem_head? hc
  · intro c hc
    obtain ⟨hne, rfl⟩ := List.mem_getLast?_eq_getLast hc
    exact Bool.eq_false_iff.mpr (List.rdropWhile_last_not isBlank (trimLeft s) hne)

/-- What trimming leaves is the text without the blanks around it. -/
theorem trimmed_iff : Trimmed s t ↔ t = trim s := by
  constructor
  · rintro ⟨before, after, rfl, hbefore, hafter, hfirst, hlast⟩
    rw [trim_append_of_blanks hbefore hafter, trim_eq_self hfirst hlast]
  · rintro rfl
    exact trimmed_trim s

/-- A text with blanks in front is longer than without them. -/
lemma length_trimLeft_append_eq_iff (hs : Blanks s) (ht : ∀ c ∈ t.head?, isBlank c = false) :
    (trimLeft (s ++ t)).length = (s ++ t).length ↔ s = [] := by
  rw [trimLeft_append_of_blanks hs, trimLeft_eq_self ht]
  simp

/-! ### Beginnings -/

lemma after?_eq_some_iff {start rest : List Char} :
    after? start s = some rest ↔ s = start ++ rest := by
  rw [after?]
  split
  · rename_i h
    obtain ⟨rest', rfl⟩ := List.isPrefixOf_iff_prefix.mp h
    simp
  · rename_i h
    simp only [reduceCtorEq, false_iff]
    rintro rfl
    exact h (List.isPrefixOf_iff_prefix.mpr (List.prefix_append start rest))

/-! ### Pieces -/

/-- No piece between separators holds one. -/
lemma not_of_mem_splitOnP {separates : Char → Bool} {piece : List Char} {c : Char}
    (hpiece : piece ∈ s.splitOnP separates) (hc : c ∈ piece) : separates c = false := by
  induction s generalizing piece with
  | nil =>
      rw [List.splitOnP_nil, List.mem_singleton] at hpiece
      simp [hpiece] at hc
  | cons d s ih =>
      rw [List.splitOnP_cons_eq_if_modifyHead] at hpiece
      split at hpiece
      · rcases List.mem_cons.mp hpiece with rfl | hrest
        · cases hc
        · exact ih hrest hc
      · rename_i hd
        obtain ⟨first, rest, heq⟩ :=
          List.exists_cons_of_ne_nil (List.splitOnP_ne_nil separates s)
        rw [heq, List.modifyHead_cons] at hpiece
        rcases List.mem_cons.mp hpiece with rfl | hrest
        · rcases List.mem_cons.mp hc with rfl | hfirst
          · exact Bool.eq_false_of_not_eq_true hd
          · exact ih (heq ▸ List.mem_cons_self) hfirst
        · exact ih (heq ▸ List.mem_cons_of_mem _ hrest) hc

/-- A text that begins with a line. -/
lemma lines_append {line : List Char} (h : '\n' ∉ line) (s : List Char) :
    lines (line ++ '\n' :: s) = line :: lines s := by
  rw [lines, List.splitOn_append_cons_self_of_not_mem h, lines]

/-- The lines of a text: they hold no line end, and there is one between any two of them. -/
def IsLines (s : List Char) (ls : List (List Char)) : Prop :=
  ls ≠ [] ∧ (∀ line ∈ ls, '\n' ∉ line) ∧ ['\n'].intercalate ls = s

theorem isLines_iff {ls : List (List Char)} : IsLines s ls ↔ ls = lines s := by
  rw [lines]
  constructor
  · rintro ⟨hne, hends, rfl⟩
    exact (List.splitOn_intercalate '\n' hends hne).symm
  · rintro rfl
    refine ⟨List.splitOn_ne_nil _ s, fun line hline hend => ?_, List.intercalate_splitOn '\n'⟩
    rw [List.splitOn_eq_splitOnP] at hline
    exact absurd (not_of_mem_splitOnP hline hend) (by simp)

/-! ### Words -/

/-- The words of a text: they hold no blank, and blanks stand before, between and behind them. -/
inductive Tokens : List Char → List (List Char) → Prop
  | nil : Tokens [] []
  | blank {c : Char} {s : List Char} {ws : List (List Char)} (hc : isBlank c = true)
      (h : Tokens s ws) : Tokens (c :: s) ws
  | word {w s : List Char} {ws : List (List Char)} (hne : w ≠ [])
      (hw : ∀ c ∈ w, isBlank c = false) (hs : ∀ c ∈ s.head?, isBlank c = true)
      (h : Tokens s ws) : Tokens (w ++ s) (w :: ws)

lemma words_cons_of_blank {c : Char} (hc : isBlank c = true) (s : List Char) :
    words (c :: s) = words s := by
  simp [words, List.splitOnP_cons_eq_if_modifyHead, hc]

lemma words_append {w : List Char} (hne : w ≠ []) (hw : ∀ c ∈ w, isBlank c = false)
    (hs : ∀ c ∈ s.head?, isBlank c = true) : words (w ++ s) = w :: words s := by
  cases s with
  | nil => simp [words, List.splitOnP_eq_singleton hw, hne]
  | cons c s =>
      have hc : isBlank c = true := hs c (by simp)
      rw [words_cons_of_blank hc, words, List.splitOnP_append_cons_of_forall_mem hw c hc]
      simp [words, hne]

lemma tokens_words (s : List Char) : Tokens s (words s) := by
  induction hn : s.length using Nat.strong_induction_on generalizing s with
  | _ n ih =>
      cases s with
      | nil => exact .nil
      | cons c s =>
          subst hn
          cases hc : isBlank c with
          | true =>
              rw [words_cons_of_blank hc]
              exact .blank hc (ih _ (by simp) s rfl)
          | false =>
              -- the first word goes as far as there is no blank
              set w := (c :: s).takeWhile (!isBlank ·)
              set rest := (c :: s).dropWhile (!isBlank ·)
              have heq : w ++ rest = c :: s := List.takeWhile_append_dropWhile
              have hw : ∀ d ∈ w, isBlank d = false := fun d hd => by
                simpa using List.mem_takeWhile_imp hd
              have hne : w ≠ [] := by simp [w, hc]
              have hrest : ∀ d ∈ rest.head?, isBlank d = true := fun d hd => by
                have hhead := List.head?_dropWhile_not (!isBlank ·) (c :: s)
                rw [Option.mem_def.mp hd] at hhead
                simpa using hhead
              have hshort : rest.length < (c :: s).length := by
                rw [← heq, List.length_append]
                exact Nat.lt_add_of_pos_left (List.length_pos_iff.mpr hne)
              rw [← heq, words_append hne hw hrest]
              exact .word hne hw hrest (ih _ hshort rest rfl)

/-- The words of a text are its parts between blanks. -/
theorem tokens_iff {ws : List (List Char)} : Tokens s ws ↔ ws = words s := by
  constructor
  · intro h
    induction h with
    | nil => rfl
    | blank hc _ ih => rw [words_cons_of_blank hc, ih]
    | word hne hw hs _ ih => rw [words_append hne hw hs, ih]
  · rintro rfl
    exact tokens_words s

end RoverPilot.Text
