import Mathlib.Tactic
import RoverPilot.Text.Utf8

/-!
Broken text that arrives in pieces.

* `begin`, `feed`, `run`: what one byte and several bytes complete, and the character that is
  unfinished behind them;
* `decodeFrom_eq`, `run_append`: the text is what is completed, with a replacement for a character
  that stays unfinished, and what is completed does not depend on where bytes are cut;
* `take_of_tail?`, `take_of_fault`: without a fault an unfinished character is kept; with one
  nothing is;
* `heard`, `Torn`, `Intact`: the text taken out of several reads, a read that ends behind a fault
  within a character, and reads none of which does so;
* `heard_eq_iff`: exactly for intact reads the text is that of all their bytes.
-/

namespace RoverPilot.Text.Utf8

/-! ### Byte by byte -/

/-- What a byte completes that begins a character, and the character that it leaves unfinished. -/
def begin (b : UInt8) : List Char × Option Unfinished :=
  match lead b with
  | .char c => ([c], none)
  | .more u => ([], some u)
  | .wrong => ([replacement], none)

/-- What a byte completes after the first bytes of a character, if there are any. -/
def feed : Option Unfinished → UInt8 → List Char × Option Unfinished
  | none, b => begin b
  | some u, b =>
    match u.next b with
    | .char c => ([c], none)
    | .more u => ([], some u)
    | .wrong => (replacement :: (begin b).1, (begin b).2)

/-- What several bytes complete, and the character that they leave unfinished. -/
def run (before : Option Unfinished) : List UInt8 → List Char × Option Unfinished
  | [] => ([], before)
  | b :: s => ((feed before b).1 ++ (run (feed before b).2 s).1, (run (feed before b).2 s).2)

/-- What stands for a character that stays unfinished. -/
def unfinishedText (before : Option Unfinished) : List Char :=
  if before.isSome then [replacement] else []

variable (before : Option Unfinished) (s t : List UInt8)

lemma run_append :
    run before (s ++ t) =
      ((run before s).1 ++ (run (run before s).2 t).1, (run (run before s).2 t).2) := by
  induction s generalizing before with
  | nil => rfl
  | cons b s ih => simp [run, ih]

lemma decodeFrom_cons (b : UInt8) :
    decodeFrom before (b :: s) = (feed before b).1 ++ decodeFrom (feed before b).2 s := by
  cases before with
  | none => cases h : lead b <;> simp [decodeFrom, feed, begin, h]
  | some u =>
      cases hu : u.next b <;> cases h : lead b <;> simp [decodeFrom, feed, begin, hu, h]

/-- The text of bytes is what they complete, and what stands for the character behind that. -/
lemma decodeFrom_eq :
    decodeFrom before s = (run before s).1 ++ unfinishedText (run before s).2 := by
  induction s generalizing before with
  | nil => rfl
  | cons b s ih => rw [decodeFrom_cons, ih, run, List.append_assoc]

/-- The text of bytes that are cut: what the first ones complete, and the text of the others
behind the character that these leave unfinished. -/
lemma decodeFrom_append :
    decodeFrom before (s ++ t) = (run before s).1 ++ decodeFrom (run before s).2 t := by
  rw [decodeFrom_eq, decodeFrom_eq, run_append, List.append_assoc]

/-! ### Bytes that go on with a character -/

/-- The first bytes of a character ask for a byte that begins none. -/
def Unfinished.Expects (u : Unfinished) : Prop := 0x80 ≤ u.low.toNat ∧ u.high.toNat ≤ 0xBF

lemma lead_expects {b : UInt8} {u : Unfinished} (h : lead b = .more u) : u.Expects := by
  rw [lead] at h
  split_ifs at h <;> simp only [Step.more.injEq] at h <;> subst h <;>
    simp [Unfinished.Expects]

lemma Unfinished.next_expects {u v : Unfinished} {b : UInt8} (h : u.next b = .more v) :
    v.Expects := by
  simp only [next] at h
  split_ifs at h
  rw [← Step.more.inj h]
  simp [Expects]

/-- A byte that goes on with a character begins none. -/
lemma lead_of_next {u : Unfinished} {b : UInt8} (hu : u.Expects) (h : u.next b ≠ .wrong) :
    lead b = .wrong := by
  have hb : 0x80 ≤ b.toNat ∧ b.toNat ≤ 0xBF := by
    rw [Unfinished.next] at h
    split at h
    · rename_i hb
      simp only [UInt8.le_iff_toNat_le] at hb
      exact ⟨hu.1.trans hb.1, hb.2.trans hu.2⟩
    · exact absurd rfl h
  have hlow : ¬ b < 0x80 := by simpa [UInt8.lt_iff_toNat_lt] using hb.1
  have hhigh : b < 0xC2 := by simpa [UInt8.lt_iff_toNat_lt] using hb.2.trans_lt (by decide)
  rw [lead, if_neg hlow, if_pos hhigh]

/-- Whatever some bytes leave unfinished asks for such a byte. -/
def Open (before : Option Unfinished) : Prop := ∀ u, before = some u → u.Expects

lemma open_none : Open none := by simp [Open]

lemma open_begin (b : UInt8) : Open (begin b).2 := by
  intro u hu
  rw [begin] at hu
  split at hu
  · cases hu
  · rename_i v hv
    cases hu
    exact lead_expects hv
  · cases hu

lemma open_feed (b : UInt8) : Open (feed before b).2 := by
  cases before with
  | none => exact open_begin b
  | some u =>
      rw [feed]
      split
      · exact open_none
      · rename_i v hv
        intro w hw
        cases hw
        exact Unfinished.next_expects hv
      · exact open_begin b

variable {before} in
lemma Open.run (h : Open before) : Open (run before s).2 := by
  induction s generalizing before with
  | nil => exact h
  | cons b s ih => exact ih (open_feed before b)

/-! ### Texts behind an unfinished character -/

variable {u : Unfinished} {b : UInt8}

/-- A byte that goes on with a character completes it or leaves it unfinished. -/
lemma length_feed (h : u.next b ≠ .wrong) :
    (feed (some u) b).1.length + (unfinishedText (feed (some u) b).2).length = 1 := by
  rw [feed]
  split
  · rfl
  · rfl
  · exact absurd ‹_› h

/-- By itself it is a fault. -/
lemma decode_cons_of_next (hu : u.Expects) (h : u.next b ≠ .wrong) :
    decode (b :: s) = replacement :: decode s := by
  rw [decode, decodeFrom_cons, feed, begin, lead_of_next hu h]
  rfl

variable {before} in
/-- A character that is unfinished before some bytes makes the text longer by at most one
replacement. -/
lemma length_decodeFrom_le (h : Open before) :
    (decodeFrom before s).length ≤ (unfinishedText before).length + (decode s).length := by
  induction s generalizing before with
  | nil => cases before <;> simp [decode, decodeFrom, unfinishedText]
  | cons b s ih =>
      cases before with
      | none => simp [decode, unfinishedText]
      | some u =>
          have hrest := ih (open_feed (some u) b)
          by_cases hnext : u.next b = .wrong
          · simp [decode, decodeFrom_cons, feed, hnext, unfinishedText]
          · have hfeed := length_feed hnext
            rw [decodeFrom_cons, List.length_append, decode_cons_of_next s (h u rfl) hnext,
              List.length_cons]
            omega

/-- If the bytes go on with that character, the text does not become longer. -/
lemma length_decodeFrom_le_of_next (hu : u.Expects) (h : u.next b ≠ .wrong) :
    (decodeFrom (some u) (b :: s)).length ≤ (decode (b :: s)).length := by
  have hrest := length_decodeFrom_le s (open_feed (some u) b)
  have hfeed := length_feed h
  rw [decodeFrom_cons, List.length_append, decode_cons_of_next s hu h, List.length_cons]
  omega

/-- If they do not, it is that of what is unfinished and that of the bytes. -/
lemma decodeFrom_of_wrong (h : ∀ u b, before = some u → s.head? = some b → u.next b = .wrong) :
    decodeFrom before s = unfinishedText before ++ decode s := by
  cases before with
  | none => rfl
  | some u =>
      cases s with
      | nil => rfl
      | cons b s => simp [decode, decodeFrom_cons, feed, h u b rfl rfl, unfinishedText]

/-! ### The bytes to keep -/

variable {c : Char} {held tail : List UInt8}

/-- What a byte is behind the first bytes of a character, if there are any. -/
def next (before : Option Unfinished) (b : UInt8) : Step := before.elim (lead b) (·.next b)

lemma tailFrom?_cons :
    tailFrom? before held (b :: s) =
      match next before b with
      | .char _ => tailFrom? none [] s
      | .more u => tailFrom? (some u) (held ++ [b]) s
      | .wrong => none :=
  rfl

variable {before} in
lemma feed_of_char (h : next before b = .char c) : feed before b = ([c], none) := by
  cases before <;> simp_all [next, feed, begin]

variable {before} in
lemma feed_of_more (h : next before b = .more u) : feed before b = ([], some u) := by
  cases before <;> simp_all [next, feed, begin]

/-- Bytes are held that are right so far and leave a character unfinished: whatever follows them
is read behind that character. -/
def Holds (held : List UInt8) (before : Option Unfinished) : Prop :=
  run none held = ([], before) ∧ ∀ t, tail? (held ++ t) = tailFrom? before held t

lemma holds_nil : Holds [] none := ⟨rfl, fun _ => rfl⟩

variable {before} in
lemma Holds.concat (hheld : Holds held before) (h : next before b = .more u) :
    Holds (held ++ [b]) (some u) := by
  refine ⟨by simp [run_append, hheld.1, run, feed_of_more h], fun t => ?_⟩
  rw [List.append_assoc, hheld.2, List.singleton_append, tailFrom?_cons, h]

variable {before} in
/-- Without a fault bytes are whole characters and an unfinished one behind them. -/
lemma tailFrom?_eq_some (hheld : Holds held before) (h : tailFrom? before held s = some tail) :
    ∃ whole after, held ++ s = whole ++ tail ∧ (run none whole).2 = none ∧ Holds tail after ∧
      ∀ t, tailFrom? before held (s ++ t) = tailFrom? after tail t := by
  induction s generalizing before held with
  | nil =>
      cases h
      exact ⟨[], before, by simp, rfl, hheld, fun t => rfl⟩
  | cons b s ih =>
      rw [tailFrom?_cons] at h
      cases hnext : next before b with
      | char c =>
          rw [hnext] at h
          obtain ⟨whole, after, heq, hwhole, hafter, hrest⟩ := ih holds_nil h
          refine ⟨held ++ b :: whole, after, by simpa using heq, ?_, hafter, fun t => ?_⟩
          · rw [run_append, hheld.1, run, feed_of_char hnext]
            exact hwhole
          · rw [List.cons_append, tailFrom?_cons, hnext]
            exact hrest t
      | more u =>
          rw [hnext] at h
          obtain ⟨whole, after, heq, hwhole, hafter, hrest⟩ := ih (hheld.concat hnext) h
          refine ⟨whole, after, by simpa using heq, hwhole, hafter, fun t => ?_⟩
          rw [List.cons_append, tailFrom?_cons, hnext]
          exact hrest t
      | wrong =>
          rw [hnext] at h
          cases h

/-- A fault stays one, whatever follows. -/
lemma tailFrom?_append_eq_none (h : tailFrom? before held s = none) :
    tailFrom? before held (s ++ t) = none := by
  induction s generalizing before held with
  | nil => cases h
  | cons b s ih =>
      rw [List.cons_append, tailFrom?_cons]
      rw [tailFrom?_cons] at h
      cases hnext : next before b <;> rw [hnext] at h
      · exact ih _ h
      · exact ih _ h

/-- Without a fault the text of the whole characters is taken, and the unfinished one is kept. -/
lemma take_of_tail? (h : tail? s = some tail) :
    (take s).2 = tail ∧ decode (s ++ t) = (take s).1 ++ decode (tail ++ t) := by
  obtain ⟨whole, _, heq, hwhole, -, -⟩ := tailFrom?_eq_some s holds_nil h
  simp only [List.nil_append] at heq
  subst heq
  have htake : take (whole ++ tail) = (decode whole, tail) := by simp [take, h]
  have hdecode : decode whole = (run none whole).1 := by
    rw [decode, decodeFrom_eq, hwhole]
    exact List.append_nil _
  rw [htake, hdecode, decode, List.append_assoc, decodeFrom_append, hwhole]
  exact ⟨rfl, rfl⟩

/-- With a fault everything is taken, and what is unfinished counts as wrong. -/
lemma take_of_fault (h : tail? s = none) :
    take s = ((run none s).1 ++ unfinishedText (run none s).2, []) := by
  simp [take, h, decode, decodeFrom_eq]

/-- Further bytes are read behind those that are kept. -/
lemma tail?_append (h : tail? s = some tail) : tail? (s ++ t) = tail? (tail ++ t) := by
  obtain ⟨_, after, -, -, hafter, hrest⟩ := tailFrom?_eq_some s holds_nil h
  rw [hafter.2 t]
  exact hrest t

/-! ### Reads -/

/-- The text that is taken out of reads, bytes being held before them, and the bytes that are
held behind them. -/
def takes (held : List UInt8) : List (List UInt8) → List Char × List UInt8
  | [] => ([], held)
  | r :: rs =>
    let (text, held) := take (held ++ r)
    let (more, held) := takes held rs
    (text ++ more, held)

/-- All text of reads, that of bytes included which are held to the end. -/
def heard (held : List UInt8) (rs : List (List UInt8)) : List Char :=
  (takes held rs).1 ++ decode (takes held rs).2

@[simp] lemma heard_nil (held : List UInt8) : heard held [] = decode held := rfl

@[simp] lemma heard_cons (held r : List UInt8) (rs : List (List UInt8)) :
    heard held (r :: rs) = (take (held ++ r)).1 ++ heard (take (held ++ r)).2 rs := by
  simp [heard, takes]

lemma heard_append (held : List UInt8) (rs rs' : List (List UInt8)) :
    heard held (rs ++ rs') = (takes held rs).1 ++ heard (takes held rs).2 rs' := by
  induction rs generalizing held with
  | nil => rfl
  | cons r rs ih => simp [takes, ih]

/-- Bytes end behind a fault within a character that the bytes after them go on with. -/
def Torn (s rest : List UInt8) : Prop :=
  tail? s = none ∧ ∃ u b, (run none s).2 = some u ∧ rest.head? = some b ∧ u.next b ≠ .wrong

/-- No read, with the bytes held before it, is torn from those after it. -/
def Intact (held : List UInt8) : List (List UInt8) → Prop
  | [] => True
  | r :: rs => ¬ Torn (held ++ r) rs.flatten ∧ Intact (take (held ++ r)).2 rs

variable (r : List UInt8) (rs : List (List UInt8))

/-- The text of reads is at least as long as that of all their bytes. -/
lemma length_decode_le_heard (held : List UInt8) :
    (decode (held ++ rs.flatten)).length ≤ (heard held rs).length := by
  induction rs generalizing held with
  | nil => simp
  | cons r rs ih =>
      rw [List.flatten_cons, ← List.append_assoc, heard_cons]
      cases h : tail? (held ++ r) with
      | some tail =>
          obtain ⟨hkept, hdecode⟩ := take_of_tail? (held ++ r) rs.flatten h
          have hrest := ih tail
          rw [hkept, hdecode, List.length_append, List.length_append]
          omega
      | none =>
          have hrest := ih []
          have hbehind := length_decodeFrom_le rs.flatten (open_none.run (held ++ r))
          rw [take_of_fault _ h, decode, decodeFrom_append]
          simp only [List.length_append, List.nil_append] at hrest ⊢
          omega

/-- Exactly the text of intact reads is that of all their bytes. -/
theorem heard_eq_iff (held : List UInt8) :
    heard held rs = decode (held ++ rs.flatten) ↔ Intact held rs := by
  induction rs generalizing held with
  | nil => simp [Intact]
  | cons r rs ih =>
      rw [List.flatten_cons, ← List.append_assoc, heard_cons, Intact]
      cases h : tail? (held ++ r) with
      | some tail =>
          obtain ⟨hkept, hdecode⟩ := take_of_tail? (held ++ r) rs.flatten h
          have hwhole : ¬ Torn (held ++ r) rs.flatten :=
            fun htorn => absurd (h.symm.trans htorn.1) (by simp)
          rw [hkept, hdecode, List.append_cancel_left_eq, ih, and_iff_right hwhole]
      | none =>
          rw [take_of_fault _ h, decode, decodeFrom_append]
          by_cases htorn : Torn (held ++ r) rs.flatten
          · -- the replacement for what is unfinished is one character too many
            simp only [htorn, not_true_eq_false, false_and, iff_false]
            intro heq
            obtain ⟨-, u, b, hu, hhead, hnext⟩ := htorn
            obtain ⟨rest, hrest⟩ : ∃ rest, rs.flatten = b :: rest :=
              ⟨_, (List.eq_cons_of_mem_head? hhead)⟩
            have hshort := length_decodeFrom_le_of_next rest (open_none.run (held ++ r) u hu) hnext
            have hlong := length_decode_le_heard rs []
            have hlength := congrArg List.length heq
            rw [List.nil_append, hrest] at hlong
            simp only [hu, hrest, List.length_append, unfinishedText, Option.isSome_some, if_true,
              List.length_singleton] at hlength
            omega
          · have hwrong (u b) (hu : (run none (held ++ r)).2 = some u)
                (hhead : rs.flatten.head? = some b) : u.next b = .wrong := by
              by_contra hnext
              exact htorn ⟨h, u, b, hu, hhead, hnext⟩
            have hrest := ih []
            rw [List.nil_append] at hrest
            rw [decodeFrom_of_wrong _ _ hwrong, ← List.append_assoc, List.append_cancel_left_eq,
              and_iff_right htorn, hrest]

/-- Reads of bytes without a fault are intact, wherever they end. -/
lemma intact_of_tail? {held : List UInt8} (h : tail? (held ++ rs.flatten) ≠ none) :
    Intact held rs := by
  induction rs generalizing held with
  | nil => trivial
  | cons r rs ih =>
      rw [List.flatten_cons, ← List.append_assoc] at h
      cases htail : tail? (held ++ r) with
      | none => exact absurd (tailFrom?_append_eq_none _ _ _ htail) h
      | some tail =>
          obtain ⟨hkept, -⟩ := take_of_tail? (held ++ r) rs.flatten htail
          rw [tail?_append _ _ htail] at h
          exact ⟨fun htorn => absurd (htail.symm.trans htorn.1) (by simp), hkept ▸ ih h⟩

end RoverPilot.Text.Utf8
