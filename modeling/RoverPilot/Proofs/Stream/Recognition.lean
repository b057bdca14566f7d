import Mathlib.Tactic
import RoverPilot.Proofs.Batch.Reading
import RoverPilot.Proofs.Stream.Grammar

/-!
Which lines are what.

* `Text.fold`, `Text.Alike`: texts in letters of either case;
* `Line.IsHeader`, `Line.headerId?_eq_some_iff`: the form of a header line, and what it has to say
  about its batch;
* `Line.command?_eq_some_iff`: a command line is a mark and at least one word;
* `Line.Kind`, `Line.classify_eq_iff`: how the kind of a line is found;
* `Line.classify_exact`: every line is of the kind whose form it has.
-/

namespace RoverPilot

/-! ### Letters of either case -/

namespace Text

/-- Simple case folding as far as it leads to ASCII letters: capital letters become small, and so
do the two characters outside ASCII that fold into it, the long s and the Kelvin sign.  What else
is folded stays outside ASCII, and makes no difference beside a word of ASCII letters. -/
def fold (c : Char) : Char :=
  if c = 'ſ' then 's' else if c = '\u212A' then 'k' else c.toLower

/-- Two texts with the same letters, of either case. -/
def Alike (s t : List Char) : Prop := s.map fold = t.map fold

/-- A blank is no letter. -/
lemma fold_of_isBlank {c : Char} (h : isBlank c = true) : fold c = c := by
  have hlong : c ≠ 'ſ' := by
    rintro rfl
    revert h
    decide
  have hkelvin : c ≠ '\u212A' := by
    rintro rfl
    revert h
    decide
  rw [fold, if_neg hlong, if_neg hkelvin]
  refine Char.toLower_eq_of_not_isUpper fun hupper => ?_
  have halpha : c.isAlpha = true := by rw [Char.isAlpha, hupper, Bool.true_or]
  have hletter : isBlank c = false := isBlank_of_isAlpha halpha
  exact absurd (h.symm.trans hletter) (by decide)

/-- A text that begins like a word does not begin with a blank if the word does not. -/
lemma Alike.not_isBlank {s word : List Char} {c : Char} (h : Alike s (c :: word))
    (hc : isBlank (fold c) = false) (t : List Char) :
    ∀ d ∈ (s ++ t).head?, isBlank d = false := by
  cases s with
  | nil => cases h
  | cons d s =>
      have hsame : fold d = fold c := (List.cons.inj h).1
      cases hd : isBlank d with
      | false => simpa using hd
      | true =>
          rw [← hsame, fold_of_isBlank hd, hd] at hc
          cases hc

end Text

open Text

namespace Line

/-- The letters of the words in a header are capital ASCII letters, and there is no K among
them. -/
def Plain (letter : Char) : Prop :=
  letter.toNat < 0x80 ∧ letter.isLower = false ∧ letter ≠ 'K'

variable {letter c : Char} {word s t u rest : List Char}

lemma toUpper_eq_iff (h : letter.isLower = false) :
    c.toUpper = letter ↔ c.toLower = letter.toLower := by
  have hletter : letter.toUpper = letter := Char.toUpper_eq_of_not_isLower (by simp [h])
  constructor
  · rintro rfl
    exact (Char.toLower_toUpper_eq_toLower c).symm
  · intro hlower
    rw [← hletter, ← Char.toUpper_toLower_eq_toUpper c, hlower, Char.toUpper_toLower_eq_toUpper]

/-- Beside a letter of a header word, comparison up to case is case folding. -/
lemma foldsTo_iff (h : Plain letter) : foldsTo letter c = true ↔ fold c = fold letter := by
  obtain ⟨hascii, hupper, hk⟩ := h
  have houtside {d : Char} (hd : 0x80 ≤ d.toNat) : d ≠ letter := by
    rintro rfl
    omega
  have hfold : fold letter = letter.toLower := by
    rw [fold, if_neg (houtside (by decide)).symm, if_neg (houtside (by decide)).symm]
  rw [hfold]
  by_cases hlong : c = 'ſ'
  · subst hlong
    have hs : letter = 'S' ↔ 's' = letter.toLower := by
      rw [eq_comm]
      exact toUpper_eq_iff (c := 's') hupper
    have hnot : 'ſ' ≠ letter := houtside (by decide)
    simpa [foldsTo, fold, hnot] using hs
  · by_cases hkelvin : c = '\u212A'
    · subst hkelvin
      have hnot : '\u212A' ≠ letter := houtside (by decide)
      have hnok : ¬ 'k' = letter.toLower := fun h =>
        hk ((toUpper_eq_iff (c := 'k') hupper).mpr h).symm
      simpa [foldsTo, fold, hnot] using hnok
    · simpa [foldsTo, fold, hlong, hkelvin] using toUpper_eq_iff hupper

/-- What follows a word of a header line is what is left when that word is taken off. -/
lemma afterFolded?_eq_some_iff (hword : ∀ letter ∈ word, Plain letter) :
    afterFolded? word s = some rest ↔ ∃ w, s = w ++ rest ∧ Alike w word := by
  induction word generalizing s with
  | nil => simp [afterFolded?, Alike]
  | cons letter word ih =>
      obtain ⟨hletter, hword⟩ := List.forall_mem_cons.mp hword
      cases s with
      | nil => simp [afterFolded?, Alike]
      | cons c s =>
          simp only [afterFolded?, foldsTo_iff hletter]
          split
          · rename_i hc
            rw [ih hword]
            constructor
            · rintro ⟨w, rfl, hw⟩
              exact ⟨c :: w, rfl, List.cons_eq_cons.mpr ⟨hc, hw⟩⟩
            · rintro ⟨_ | ⟨d, w⟩, heq, hw⟩
              · cases hw
              · obtain ⟨-, rfl⟩ := List.cons.inj heq
                exact ⟨w, rfl, (List.cons.inj hw).2⟩
          · rename_i hc
            simp only [reduceCtorEq, false_iff, not_exists, not_and]
            rintro (_ | ⟨d, w⟩) heq hw
            · cases hw
            · obtain ⟨rfl, -⟩ := List.cons.inj heq
              exact hc (List.cons.inj hw).1

lemma afterFolded?_append (hword : ∀ letter ∈ word, Plain letter) {w : List Char}
    (h : Alike w word) (rest : List Char) : afterFolded? word (w ++ rest) = some rest :=
  (afterFolded?_eq_some_iff hword).mpr ⟨w, rfl, h⟩

/-! ### Headers -/

/-- A header line: the word `[COMMANDS` and, after one or more blanks, `id`, with letters of either
case, then an equals sign with or without blanks before it, and a stretch up to the first closing
bracket.  Whatever follows the bracket does not count. -/
def IsHeader (t stretch : List Char) : Prop :=
  ∃ opening gap name gap' rest,
    t = opening ++ (gap ++ (name ++ (gap' ++ '=' :: (stretch ++ ']' :: rest)))) ∧
      Alike opening "[COMMANDS".toList ∧ gap ≠ [] ∧ Blanks gap ∧
        Alike name "id".toList ∧ Blanks gap' ∧ ']' ∉ stretch

/-- The text before the first occurrence of a character. -/
lemma takeWhile_bne_append {x : Char} (h : x ∉ s) (t : List Char) :
    (s ++ x :: t).takeWhile (· != x) = s := by
  rw [List.takeWhile_append_of_pos, List.takeWhile_cons_of_neg] <;> simp
  intro a ha heq
  exact h (heq ▸ ha)

lemma plain_opening : ∀ letter ∈ "[COMMANDS".toList, Plain letter := by simp [Plain]

lemma plain_name : ∀ letter ∈ "ID".toList, Plain letter := by simp [Plain]

lemma alike_name : Alike "ID".toList "id".toList := by
  rw [Alike]
  decide +kernel

/-- What is read of a line comes from a header line. -/
lemma exists_isHeader (h : headerId? t = some u) :
    ∃ stretch, IsHeader t stretch ∧ u = trim stretch := by
  rw [headerId?] at h
  simp only [Option.bind_eq_bind] at h
  obtain ⟨afterWord, hword, h⟩ := Option.bind_eq_some_iff.mp h
  obtain ⟨opening, ht, hopening⟩ := (afterFolded?_eq_some_iff plain_opening).mp hword
  obtain ⟨gap, hgap, hafter⟩ := exists_blanks_append afterWord
  split at h
  · cases h
  · rename_i hlonger
    obtain ⟨afterId, hid, h⟩ := Option.bind_eq_some_iff.mp h
    obtain ⟨name, hrest, hname⟩ := (afterFolded?_eq_some_iff plain_name).mp hid
    obtain ⟨gap', hgap', hafter'⟩ := exists_blanks_append afterId
    split at h
    · rename_i rest hsign
      split at h
      · rename_i hbracket
        obtain ⟨stretch, rest, rfl, hstretch⟩ :=
          List.eq_append_cons_of_mem (List.contains_iff_mem.mp hbracket)
        rw [takeWhile_bne_append hstretch, Option.some.injEq] at h
        refine ⟨stretch, ⟨opening, gap, name, gap', rest, ?_, hopening, ?_, hgap,
          hname.trans alike_name, hgap', hstretch⟩, h.symm⟩
        · rw [← hsign, ← hafter', ← hrest, ← hafter, ht]
        · rintro rfl
          rw [List.nil_append] at hafter
          exact hlonger (congrArg List.length hafter).symm
      · cases h
    · cases h

/-- Of a header line its stretch is read, without the blanks around it. -/
lemma IsHeader.headerId? {stretch : List Char} (h : IsHeader t stretch) :
    headerId? t = some (trim stretch) := by
  obtain ⟨opening, gap, name, gap', rest, rfl, hopening, hne, hgap, hname, hgap', hstretch⟩ := h
  have hid : Alike name "ID".toList := hname.trans alike_name.symm
  have hletter := Alike.not_isBlank (c := 'i') (by simpa using hname) (by decide)
    (gap' ++ '=' :: (stretch ++ ']' :: rest))
  have hlonger := (length_trimLeft_append_eq_iff hgap hletter).not.mpr hne
  have hsign : trimLeft (gap' ++ '=' :: (stretch ++ ']' :: rest)) =
      '=' :: (stretch ++ ']' :: rest) := by
    rw [trimLeft_append_of_blanks hgap', trimLeft_eq_self (by simp; decide)]
  rw [Line.headerId?]
  simp only [Option.bind_eq_bind]
  rw [afterFolded?_append plain_opening hopening, Option.bind_some, if_neg hlonger,
    trimLeft_append_of_blanks hgap, trimLeft_eq_self hletter, afterFolded?_append plain_name hid,
    Option.bind_some, hsign]
  simp [takeWhile_bne_append hstretch]

/-- What is read of a line is the stretch of a header, without the blanks around it. -/
theorem headerId?_eq_some_iff :
    headerId? t = some u ↔ ∃ stretch, IsHeader t stretch ∧ u = trim stretch := by
  constructor
  · exact exists_isHeader
  · rintro ⟨stretch, h, rfl⟩
    exact h.headerId?

lemma headerId?_eq_none_iff : headerId? t = none ↔ ∀ stretch, ¬ IsHeader t stretch := by
  rw [Option.eq_none_iff_forall_ne_some]
  constructor
  · exact fun h stretch hstretch => h _ hstretch.headerId?
  · intro h u hu
    obtain ⟨stretch, hstretch, -⟩ := exists_isHeader hu
    exact h stretch hstretch

end Line

/-! ### Commands -/

namespace Text

variable {s : List Char}

lemma Blanks.tokens (h : Blanks s) : Tokens s [] := by
  induction s with
  | nil => exact .nil
  | cons c s ih =>
      obtain ⟨hc, hs⟩ := List.forall_mem_cons.mp h
      exact .blank hc (ih hs)

lemma Tokens.blanks {ws : List (List Char)} (h : Tokens s ws) (hws : ws = []) : Blanks s := by
  induction h with
  | nil => exact blanks_nil
  | blank hc _ ih => exact List.forall_mem_cons.mpr ⟨hc, ih hws⟩
  | word => cases hws

/-- Exactly a text of nothing but blanks is one without words. -/
lemma words_eq_nil_iff : words s = [] ↔ Blanks s :=
  ⟨(tokens_words s).blanks, fun h => (tokens_iff.mp h.tokens).symm⟩

end Text

namespace Line

variable {t : List Char}

/-- A command line: a mark, and at least one word, of which the first one, in capital letters, is
the name and the others are the arguments. -/
def IsCommand (t : List Char) (c : Command) : Prop :=
  ∃ rest name args, t = '>' :: rest ∧ Tokens rest (name :: args) ∧
    c = { name := String.ofList (name.map Char.toUpper), args := args.map String.ofList }

theorem command?_eq_some_iff {c : Command} : command? t = some c ↔ IsCommand t c := by
  have hof (name : List Char) (args : List (List Char)) :
      Command.of (String.ofList name) (args.map String.ofList) =
        { name := String.ofList (name.map Char.toUpper), args := args.map String.ofList } := by
    simp [Command.of, upperString, upper]
  rw [command?.eq_def]
  constructor
  · intro h
    split at h
    · rename_i rest
      split at h
      · rename_i name args hwords
        rw [hof, Option.some.injEq] at h
        exact ⟨rest, name, args, rfl, tokens_iff.mpr hwords.symm, h.symm⟩
      · cases h
    · cases h
  · rintro ⟨rest, name, args, rfl, htokens, rfl⟩
    simp only [← tokens_iff.mp htokens, hof]

lemma command?_eq_none_iff : command? t = none ↔ ∀ rest, t = '>' :: rest → Blanks rest := by
  rw [command?.eq_def]
  split
  · rename_i rest
    simp only [List.cons.injEq, true_and, forall_eq', ← words_eq_nil_iff]
    split
    · rename_i hwords
      simp [hwords]
    · rename_i hwords
      simp [hwords]
  · rename_i hnot
    simpa using fun rest h => absurd h (hnot rest)

/-- A header line is no command line. -/
lemma IsCommand.headerId? {c : Command} (h : IsCommand t c) : headerId? t = none := by
  obtain ⟨rest, -, -, rfl, -, -⟩ := h
  rfl

/-! ### Kinds of lines -/

/-- How the kind of a line is found, once the blanks around it are gone. -/
inductive Kind (t : List Char) : Line → Prop
  | blank (h : t = []) : Kind t .blank
  | header {u : List Char} (h : headerId? t = some u) : Kind t (.header (BatchId.read u))
  | command {c : Command} (h : command? t = some c) : Kind t (.command c)
  | text (hne : t ≠ []) (hheader : headerId? t = none) (hcommand : command? t = none) :
      Kind t (.text t)

/-- The kind of a line is found so. -/
lemma classify_eq_iff {s : List Char} {l : Line} : classify s = l ↔ Kind (trim s) l := by
  rw [classify.eq_def]
  dsimp only
  constructor
  · rintro rfl
    split
    · rename_i hempty
      exact .blank (List.isEmpty_iff.mp hempty)
    · rename_i hempty
      split
      · exact .header ‹_›
      · split
        · exact .command ‹_›
        · exact .text (by simpa using hempty) ‹_› ‹_›
  · intro h
    generalize trim s = t at h
    cases h with
    | blank h => simp [h]
    | header h =>
        have hne : t ≠ [] := by
          rintro rfl
          cases h
        simp [hne, h]
    | command h =>
        have hnone := (command?_eq_some_iff.mp h).headerId?
        have hne : t ≠ [] := by
          rintro rfl
          cases h
        simp [hne, hnone, h]
    | text hne hheader hcommand => simp [hne, hheader, hcommand]

section

variable {s : List Char}

lemma classify_eq_blank_iff : classify s = .blank ↔ trim s = [] := by
  rw [classify_eq_iff]
  exact ⟨fun | .blank h => h, .blank⟩

lemma classify_eq_header_iff {id : Except FormatError BatchId} :
    classify s = .header id ↔ ∃ u, headerId? (trim s) = some u ∧ BatchId.read u = id := by
  rw [classify_eq_iff]
  exact ⟨fun | .header h => ⟨_, h, rfl⟩, fun ⟨_, h, hid⟩ => hid ▸ .header h⟩

lemma classify_eq_command_iff {c : Command} :
    classify s = .command c ↔ command? (trim s) = some c := by
  rw [classify_eq_iff]
  exact ⟨fun | .command h => h, .command⟩

lemma classify_eq_text_iff {u : List Char} :
    classify s = .text u ↔
      u = trim s ∧ trim s ≠ [] ∧ headerId? (trim s) = none ∧ command? (trim s) = none := by
  rw [classify_eq_iff]
  constructor
  · intro h
    cases h with
    | text hne hheader hcommand => exact ⟨rfl, hne, hheader, hcommand⟩
  · rintro ⟨rfl, hne, hheader, hcommand⟩
    exact .text hne hheader hcommand

end

/-- Every line is of the kind whose form it has without the blanks around it.  It is blank if
nothing is left; a header if it begins with the form of one, with the id that the stretch in it
denotes without the blanks around that; a command if there is a word behind the mark, with the words
behind it as name and arguments; and otherwise text. -/
theorem classify_exact (s : List Char) :
    Trimmed s (trim s) ∧
      (classify s = .blank ↔ trim s = []) ∧
      ((∃ id, classify s = .header id) ↔ ∃ stretch, IsHeader (trim s) stretch) ∧
      (∀ id, classify s = .header id ↔
        ∃ stretch u, IsHeader (trim s) stretch ∧ Trimmed stretch u ∧ BatchId.Denotes u id) ∧
      ((∃ c, classify s = .command c) ↔
        ∃ rest, trim s = '>' :: rest ∧ ∃ x ∈ rest, isBlank x = false) ∧
      (∀ c, classify s = .command c ↔ IsCommand (trim s) c) ∧
      ∀ u, classify s = .text u ↔
        u = trim s ∧ trim s ≠ [] ∧ (∀ stretch, ¬ IsHeader (trim s) stretch) ∧
          ∀ rest, trim s = '>' :: rest → ∀ x ∈ rest, isBlank x = true := by
  refine ⟨trimmed_trim s, classify_eq_blank_iff, ?_, fun id => ?_, ?_, fun c => ?_, fun u => ?_⟩
  · simp only [classify_eq_header_iff, headerId?_eq_some_iff]
    constructor
    · rintro ⟨-, -, ⟨stretch, h, -⟩, -⟩
      exact ⟨stretch, h⟩
    · rintro ⟨stretch, h⟩
      exact ⟨_, _, ⟨stretch, h, rfl⟩, rfl⟩
  · rw [classify_eq_header_iff]
    constructor
    · rintro ⟨u, hu, hid⟩
      obtain ⟨stretch, h, htrim⟩ := headerId?_eq_some_iff.mp hu
      exact ⟨stretch, u, h, trimmed_iff.mpr htrim, BatchId.read_eq_iff.mp hid⟩
    · rintro ⟨stretch, u, h, htrim, hid⟩
      exact ⟨u, headerId?_eq_some_iff.mpr ⟨stretch, h, trimmed_iff.mp htrim⟩,
        BatchId.read_eq_iff.mpr hid⟩
  · simp only [classify_eq_command_iff, ← Option.isSome_iff_exists]
    rw [← not_iff_not, Bool.not_eq_true, Option.isSome_eq_false_iff, Option.isNone_iff_eq_none,
      command?_eq_none_iff]
    simp [Blanks]
  · rw [classify_eq_command_iff, command?_eq_some_iff]
  · rw [classify_eq_text_iff, headerId?_eq_none_iff, command?_eq_none_iff]
    rfl

example : (classify "[commandſ id = +007 ] go".toList).id? = some 7 := by decide +kernel

end Line

end RoverPilot
