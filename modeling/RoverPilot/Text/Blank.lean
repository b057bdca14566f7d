/-!
Blank characters and the cuts they make in a text.  Texts are lists of
characters.

* `isBlank`: the characters that count as white space;
* `trim`: a text without the blanks around it;
* `words`: the maximal runs without a blank;
* `lines`: the pieces between line ends;
* `after?`: what follows a given beginning.
-/

namespace RoverPilot.Text

/-! ### The class -/

/-- Blanks are the characters with the property White_Space: the controls from
tab to carriage return, the space, the next-line control, and the space, line
and paragraph separators. -/
def isBlank (c : Char) : Bool :=
  let n := c.toNat
  (0x9 ≤ n && n ≤ 0xD) || n == 0x20 || n == 0x85 || n == 0xA0 || n == 0x1680 ||
    (0x2000 ≤ n && n ≤ 0x200A) || n == 0x2028 || n == 0x2029 || n == 0x202F ||
    n == 0x205F || n == 0x3000

/-! ### Trimming -/

/-- The text from its first character that is not blank. -/
def trimLeft (s : List Char) : List Char := s.dropWhile isBlank

/-- The text up to its last character that is not blank. -/
def trimRight (s : List Char) : List Char := (s.reverse.dropWhile isBlank).reverse

/-- The text without the blanks around it. -/
def trim (s : List Char) : List Char := trimRight (trimLeft s)

/-! ### Cutting -/

/-- The maximal runs of characters that are not blank, in order. -/
def words (s : List Char) : List (List Char) :=
  (s.splitOnP isBlank).filter (fun piece => !piece.isEmpty)

/-- The pieces between line ends; a text without a line end is one line. -/
def lines (s : List Char) : List (List Char) := s.splitOn '\n'

/-- What follows `start` in a text that starts with it. -/
def after? (start s : List Char) : Option (List Char) :=
  if start.isPrefixOf s then some (s.drop start.length) else none

end RoverPilot.Text
