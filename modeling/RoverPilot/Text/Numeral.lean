/-!
Whole numbers written with ASCII digits.

* `natural?`: one or more digits, of any length;
* `integer?`: a natural number with an optional sign;
* `render`: the digits of a natural number, without leading zeros.
-/

namespace RoverPilot.Text

/-- The value of an ASCII digit. -/
def digit? (c : Char) : Option Nat :=
  if '0' ≤ c ∧ c ≤ '9' then some (c.toNat - '0'.toNat) else none

/-- The number that the digits `s` continue, `value` being the number so far. -/
def digitsFrom (value : Nat) : List Char → Option Nat
  | [] => some value
  | c :: s => (digit? c).bind fun d => digitsFrom (10 * value + d) s

/-- Reads one or more ASCII digits; leading zeros are allowed. -/
def natural? (s : List Char) : Option Nat :=
  if s.isEmpty then none else digitsFrom 0 s

/-- Reads a natural number with an optional plus sign. -/
def signedNatural? : List Char → Option Nat
  | '+' :: s => natural? s
  | s => natural? s

/-- Reads an integer with an optional sign. -/
def integer? : List Char → Option Int
  | '-' :: s => (natural? s).map fun n => -(n : Int)
  | s => (signedNatural? s).map Int.ofNat

/-- The decimal digits of a number. -/
def render (n : Nat) : List Char := Nat.toDigits 10 n

end RoverPilot.Text
