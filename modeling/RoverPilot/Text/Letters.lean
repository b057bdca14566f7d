/-!
Letters and the order of texts.

* `upper`, `upperString`: the ASCII letters made upper case;
* `sameLetters`: equality up to the case of ASCII letters;
* `notAfter`: the order of code points.
-/

namespace RoverPilot.Text

/-! ### Case -/

/-- The ASCII letters made upper case; every other character stays. -/
def upper (s : List Char) : List Char := s.map Char.toUpper

/-- The same for a string. -/
def upperString (s : String) : String := String.ofList (upper s.toList)

/-- Whether two strings are equal up to the case of ASCII letters. -/
def sameLetters (s t : String) : Bool := upper s.toList == upper t.toList

/-- A string has the same letters as itself. -/
theorem sameLetters_self (s : String) : sameLetters s s = true := by simp [sameLetters]

/-- It does not matter which of two strings comes first. -/
theorem sameLetters_comm (s t : String) : sameLetters s t = sameLetters t s :=
  Bool.beq_comm

/-- Two strings have the same letters exactly when they are equal in upper case. -/
theorem sameLetters_iff {s t : String} :
    sameLetters s t = true ↔ upperString s = upperString t := by
  rw [sameLetters, beq_iff_eq, upperString, upperString, String.ofList_inj]

/-! ### Order -/

/-- Whether a text comes before another one in the order of code points, or is the
same. -/
def notAfter : List Char → List Char → Bool
  | [], _ => true
  | _ :: _, [] => false
  | c :: s, d :: t => c.toNat < d.toNat || (c.toNat == d.toNat && notAfter s t)

/-- A text does not come after itself. -/
theorem notAfter_self (s : List Char) : notAfter s s = true := by
  induction s with
  | nil => rfl
  | cons c s ih => simp [notAfter, ih]

/-- Of two texts one does not come after the other. -/
theorem notAfter_total (s t : List Char) : notAfter s t = true ∨ notAfter t s = true := by
  induction s generalizing t with
  | nil => exact Or.inl rfl
  | cons c s ih =>
    cases t with
    | nil => exact Or.inr rfl
    | cons d t =>
      have h := ih t
      rcases Nat.lt_trichotomy c.toNat d.toNat with hcd | hcd | hcd
      · exact Or.inl (by simp [notAfter, hcd])
      · rcases h with h | h
        · exact Or.inl (by simp [notAfter, hcd, h])
        · exact Or.inr (by simp [notAfter, hcd, h])
      · exact Or.inr (by simp [notAfter, hcd])

end RoverPilot.Text
