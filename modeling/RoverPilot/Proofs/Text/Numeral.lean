import Mathlib.Tactic
import RoverPilot.Text.Numeral

/-!
Numbers and their digits.

* `natural?_render`: the digits of a number denote it;
* `Numeral`, `natural?_eq_some_iff`: one or more digits, and the number that they denote;
* `Unsigned`, `signedNatural?_eq_some_iff`, `Signed`, `integer?_eq_some_iff`: the same with a plus
  sign or with either sign.
-/

namespace RoverPilot.Text

variable {s : List Char} {n : Nat}

/-! ### Digits -/

lemma digit?_of_isDigit {c : Char} (h : c.isDigit = true) :
    digit? c = some (c.toNat - '0'.toNat) := by
  rw [Char.isDigit, Bool.and_eq_true, decide_eq_true_eq, decide_eq_true_eq] at h
  exact if_pos h

lemma digit?_of_not_isDigit {c : Char} (h : c.isDigit = false) : digit? c = none := by
  rw [Char.isDigit, Bool.and_eq_false_iff, decide_eq_false_iff_not, decide_eq_false_iff_not] at h
  exact if_neg fun hc => h.elim (absurd hc.1) (absurd hc.2)

lemma digitsFrom_of_isDigit (h : ∀ c ∈ s, c.isDigit = true) (value : Nat) :
    digitsFrom value s = some (Nat.ofDigitChars 10 s value) := by
  induction s generalizing value with
  | nil => rfl
  | cons c s ih =>
      rw [digitsFrom, digit?_of_isDigit (h c (by simp)), Option.bind_some,
        ih fun d hd => h d (by simp [hd])]
      rfl

lemma isDigit_of_digitsFrom {value : Nat} (h : digitsFrom value s = some n) :
    ∀ c ∈ s, c.isDigit = true := by
  induction s generalizing value with
  | nil => simp
  | cons c s ih =>
      cases hc : c.isDigit with
      | false =>
          rw [digitsFrom, digit?_of_not_isDigit hc] at h
          cases h
      | true =>
          rw [digitsFrom, digit?_of_isDigit hc, Option.bind_some] at h
          exact List.forall_mem_cons.mpr ⟨hc, ih h⟩

lemma isDigit_of_mem_render {c : Char} (h : c ∈ render n) : c.isDigit = true :=
  Nat.isDigit_of_mem_toDigits (by decide) (by decide) h

lemma render_ne_nil (n : Nat) : render n ≠ [] := Nat.toDigits_ne_nil

/-! ### Numbers -/

/-- One or more ASCII digits, and the number that they denote in base ten. -/
def Numeral (s : List Char) (n : Nat) : Prop :=
  s ≠ [] ∧ (∀ c ∈ s, c.isDigit = true) ∧ Nat.ofDigitChars 10 s 0 = n

/-- A numeral, or one behind a plus sign. -/
def Unsigned (s : List Char) (n : Nat) : Prop := Numeral s n ∨ ∃ t, s = '+' :: t ∧ Numeral t n

/-- A numeral with an optional sign. -/
def Signed (s : List Char) (z : Int) : Prop :=
  (∃ n : Nat, Unsigned s n ∧ z = n) ∨
    ∃ (t : List Char) (n : Nat), s = '-' :: t ∧ Numeral t n ∧ z = -n

theorem natural?_eq_some_iff : natural? s = some n ↔ Numeral s n := by
  rw [natural?]
  split
  · rename_i hempty
    simp [Numeral, List.isEmpty_iff.mp hempty]
  · rename_i hempty
    have hne : s ≠ [] := by simpa using hempty
    constructor
    · intro h
      have hdigits := isDigit_of_digitsFrom h
      rw [digitsFrom_of_isDigit hdigits] at h
      exact ⟨hne, hdigits, Option.some.inj h⟩
    · rintro ⟨-, hdigits, rfl⟩
      exact digitsFrom_of_isDigit hdigits 0

/-- A numeral does not begin with a sign. -/
lemma Numeral.ne_cons (h : Numeral s n) {c : Char} (hc : c.isDigit = false) (t : List Char) :
    s ≠ c :: t := by
  rintro rfl
  have hdigit := h.2.1 c (by simp)
  rw [hc] at hdigit
  cases hdigit

theorem signedNatural?_eq_some_iff : signedNatural? s = some n ↔ Unsigned s n := by
  rw [signedNatural?.eq_def]
  split
  · rename_i t
    rw [natural?_eq_some_iff]
    constructor
    · exact fun h => .inr ⟨t, rfl, h⟩
    · rintro (h | ⟨u, heq, h⟩)
      · exact absurd rfl (h.ne_cons (by decide) t)
      · obtain rfl := (List.cons.inj heq).2
        exact h
  · rename_i hplus
    rw [natural?_eq_some_iff]
    exact ⟨.inl, fun h => h.resolve_right fun ⟨t, heq, _⟩ => hplus t heq⟩

lemma integer?_cons_minus (t : List Char) :
    integer? ('-' :: t) = (natural? t).map fun n => -Int.ofNat n := by
  rw [integer?]
  cases natural? t <;> rfl

theorem integer?_eq_some_iff {z : Int} : integer? s = some z ↔ Signed s z := by
  rw [integer?.eq_def]
  split
  · rename_i t
    rw [← integer?, integer?_cons_minus, Option.map_eq_some_iff]
    constructor
    · rintro ⟨n, hn, rfl⟩
      exact .inr ⟨t, n, rfl, natural?_eq_some_iff.mp hn, rfl⟩
    · rintro (⟨n, h | ⟨u, heq, -⟩, -⟩ | ⟨u, n, heq, h, rfl⟩)
      · exact absurd rfl (h.ne_cons (by decide) t)
      · cases heq
      · obtain rfl := (List.cons.inj heq).2
        exact ⟨n, natural?_eq_some_iff.mpr h, rfl⟩
  · rename_i hminus
    rw [Option.map_eq_some_iff]
    constructor
    · rintro ⟨n, hn, rfl⟩
      exact .inl ⟨n, signedNatural?_eq_some_iff.mp hn, rfl⟩
    · rintro (⟨n, h, rfl⟩ | ⟨t, n, heq, -⟩)
      · exact ⟨n, signedNatural?_eq_some_iff.mpr h, rfl⟩
      · exact absurd heq (hminus t)

/-! ### Numbers that are written -/

lemma numeral_render (n : Nat) : Numeral (render n) n := by
  refine ⟨render_ne_nil n, fun _ => isDigit_of_mem_render, ?_⟩
  exact Nat.ofDigitChars_toDigits (by decide) (by decide)

/-- The digits of a number denote it. -/
theorem natural?_render (n : Nat) : natural? (render n) = some n :=
  natural?_eq_some_iff.mpr (numeral_render n)

lemma signedNatural?_render (n : Nat) : signedNatural? (render n) = some n :=
  signedNatural?_eq_some_iff.mpr (.inl (numeral_render n))

end RoverPilot.Text
