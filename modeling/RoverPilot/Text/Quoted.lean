import RoverPilot.Text.Range

/-!
Quoted texts, as they stand in messages.

* `encodeChar`: one character between quotes;
* `encode`: a text between quotes.
-/

namespace RoverPilot.Text.Quoted

/-- The digits of a number in base sixteen, lower case and without leading zeros. -/
def hex (n : Nat) : List Char := Nat.toDigits 16 n

/-- How a character is written between quotes.  Quote and backslash follow a
backslash, four controls have a letter, a character without a mark of its own is
written by its number, and every other character stands for itself. -/
def encodeChar (c : Char) : List Char :=
  if c = '"' ∨ c = '\\' then ['\\', c]
  else if c = '\x00' then ['\\', '0']
  else if c = '\t' then ['\\', 't']
  else if c = '\r' then ['\\', 'r']
  else if c = '\n' then ['\\', 'n']
  else if isUnprintable c then ['\\', 'u', '\x7b'] ++ hex c.toNat ++ ['\x7d']
  else [c]

/-- The text between quotes. -/
def encode (s : List Char) : List Char := '"' :: (s.flatMap encodeChar ++ ['"'])

/-- The same for a string. -/
def encodeString (s : String) : String := String.ofList (encode s.toList)

end RoverPilot.Text.Quoted
