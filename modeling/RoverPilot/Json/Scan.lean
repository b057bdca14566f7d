/-!
Reading JSON from left to right, with the first fault named.

* `Flaw`: what is wrong with a text;
* `Scan`: a reader that consumes characters from the front;
* `Scan.loop`: rounds of a reader, each of which consumes something;
* `literal`, `string`, `number`: the leaves of the grammar;
* `ignored`: a value of any depth, skipped.
-/

namespace RoverPilot.Json

/-! ### Readers -/

/-- What is wrong with a text: it breaks the grammar, it is well formed but not
what is wanted here, or it ends too early. -/
inductive Flaw where
  | grammar
  | content
  | ended
  deriving DecidableEq, Repr

/-- A reader consumes characters from the front of a text. -/
abbrev Scan := StateT (List Char) (Except Flaw)

namespace Scan

/-- The next character, which stays. -/
def peek : Scan (Option Char) := do return (← get).head?

/-- The next character goes. -/
def skip : Scan Unit := modify List.tail

/-- The next character goes, and there must be one. -/
def next : Scan Char := do
  match ← get with
  | [] => throw .ended
  | c :: s =>
    set s
    return c

/-- The longest run of characters that satisfy `p` goes. -/
def span (p : Char → Bool) : Scan (List Char) := do
  let s ← get
  set (s.dropWhile p)
  return s.takeWhile p

/-- Blanks go. -/
def blanks : Scan Unit := do
  let _ ← span fun c => c == ' ' || c == '\n' || c == '\t' || c == '\r'

/-- Blanks go, and the next character after them stays. -/
def peekPastBlanks : Scan (Option Char) := do
  blanks
  peek

/-- Rounds of `body`, at most as many as given, until one has a result. -/
def rounds {α β : Type} (body : α → Scan (α ⊕ β)) : Nat → α → Scan β
  | 0, _ => throw .ended
  | n + 1, a => do
    match ← body a with
    | .inl a => rounds body n a
    | .inr b => return b

/-- Rounds of `body` until one has a result.  Of any two rounds in a row one must
consume a character, so that the rounds suffice. -/
def loop {α β : Type} (body : α → Scan (α ⊕ β)) (a : α) : Scan β := do
  rounds body (2 * (← get).length + 2) a

end Scan

open Scan

/-! ### Literals -/

/-- The rest of a word. -/
def literal : List Char → Scan Unit
  | [] => return
  | c :: word => do
    if (← next) = c then literal word else throw .grammar

/-- What follows the first letter of a word that JSON knows. -/
def restOfWord? (c : Char) : Option (List Char) :=
  if c = 'n' then some "ull".toList
  else if c = 't' then some "rue".toList
  else if c = 'f' then some "alse".toList
  else none

/-! ### Strings -/

/-- The value of a digit in base sixteen. -/
def hexDigit? (c : Char) : Option Nat :=
  if '0' ≤ c ∧ c ≤ '9' then some (c.toNat - '0'.toNat)
  else if 'a' ≤ c ∧ c ≤ 'f' then some (c.toNat - 'a'.toNat + 10)
  else if 'A' ≤ c ∧ c ≤ 'F' then some (c.toNat - 'A'.toNat + 10)
  else none

/-- Four digits in base sixteen.  A text with fewer than four bytes left ends too
early. -/
def hexFour : Scan Nat := do
  let s ← get
  let four := s.take 4
  if (String.ofList four).utf8ByteSize < 4 then throw .ended
  match four.mapM hexDigit? with
  | some [a, b, c, d] =>
    set (s.drop 4)
    return 16 * (16 * (16 * a + b) + c) + d
  | _ => throw .grammar

/-- The character after a backslash and a letter, if there is one. -/
def shortEscape? (c : Char) : Option Char :=
  if c = '"' ∨ c = '\\' ∨ c = '/' then some c
  else if c = 'b' then some '\x08'
  else if c = 'f' then some '\x0c'
  else if c = 'n' then some '\n'
  else if c = 'r' then some '\r'
  else if c = 't' then some '\t'
  else none

/-- A character written by its number in one or two units of 16 bits; the second
unit of a pair must follow the first. -/
def escapedUnits : Scan Char := do
  let first ← hexFour
  if 0xDC00 ≤ first ∧ first ≤ 0xDFFF then throw .grammar
  if first < 0xD800 ∨ 0xDBFF < first then return Char.ofNat first
  for mark in ['\\', 'u'] do
    if (← next) ≠ mark then throw .grammar
  let second ← hexFour
  if second < 0xDC00 ∨ 0xDFFF < second then throw .grammar
  return Char.ofNat (0x10000 + 0x400 * (first - 0xD800) + (second - 0xDC00))

/-- One character of a string, or its end.  With `strict` the units of an escape
must form a character; without it only their form counts. -/
def stringChar (strict : Bool) (before : List Char) : Scan (List Char ⊕ List Char) := do
  let c ← next
  if c = '"' then return .inr before.reverse
  if c.toNat < 0x20 then throw .grammar
  if c ≠ '\\' then return .inl (c :: before)
  let e ← next
  if e = 'u' then
    if strict then return .inl ((← escapedUnits) :: before)
    let _ ← hexFour
    return .inl before
  match shortEscape? e with
  | some d => return .inl (d :: before)
  | none => throw .grammar

/-- A string after its opening quote. -/
def string (strict : Bool) : Scan (List Char) := loop (stringChar strict) []

/-! ### Numbers -/

/-- A number as it is written: a word without a sign, a negative word, or with a
point, an exponent or too many digits for a word. -/
inductive Number where
  | natural (n : Nat)
  | negative (n : Nat)
  | real (x : Float)

/-- Whether a character is a digit. -/
def isDigit (c : Char) : Bool := '0' ≤ c && c ≤ '9'

/-- Whether a character begins an exponent. -/
def isExponentMark (c : Option Char) : Bool := c == some 'e' || c == some 'E'

/-- Digits appended to a number while it stays below 2^64, and the digits left. -/
def grow (n : Nat) : List Char → Nat × List Char
  | [] => (n, [])
  | c :: digits =>
    let larger := 10 * n + (c.toNat - '0'.toNat)
    if larger < UInt64.size then grow larger digits else (n, c :: digits)

/-- The float that equals the power of ten, or is nearest to it. -/
def powerOfTen (n : Nat) : Float := Float.ofScientific 1 false n

/-- The largest power of ten below the range of floats. -/
def largestPower : Nat := 308

/-- A float divided by a power of ten, by the largest power at a time. -/
def divideByPower (x : Float) (n : Nat) : Float :=
  if n ≤ largestPower then x / powerOfTen n
  else if x == 0.0 then x
  else divideByPower (x / powerOfTen largestPower) (n - largestPower)
termination_by n
decreasing_by
  simp only [largestPower] at *
  omega

/-- The float for a number times a power of ten.  The number is rounded first,
and the product or quotient once more; what is too large is refused. -/
def scaled (n : Nat) (exponent : Int) : Except Flaw Float :=
  let x := Float.ofNat n
  if exponent < 0 then .ok (divideByPower x exponent.natAbs)
  else if largestPower < exponent.natAbs then if n = 0 then .ok x else .error .grammar
  else
    let y := x * powerOfTen exponent.natAbs
    if y.isInf then .error .grammar else .ok y

/-- A digit must come next. -/
def expectDigit : Scan Unit := do
  match ← peek with
  | none => throw .ended
  | some c => if isDigit c then return else throw .grammar

/-- The exponent of a number after its mark.  One that is no word of 31 bits makes
zero of every number that is not refused. -/
def exponentPart (n : Nat) (exponent : Int) : Scan Float := do
  let sign ← peek
  if sign = some '+' ∨ sign = some '-' then skip
  expectDigit
  let power := (← span isDigit).foldl (fun e c => 10 * e + (c.toNat - '0'.toNat)) 0
  let down := sign == some '-'
  if (power : Int) ≤ Int32.maxValue.toInt then
    scaled n (if down then exponent - power else exponent + power)
  else if n = 0 ∨ down then return 0.0
  else throw .grammar

/-- What follows the digits of a number that is a float. -/
def realPart (n : Nat) (exponent : Int) : Scan Float := do
  if isExponentMark (← peek) then
    skip
    exponentPart n exponent
  else scaled n exponent

/-- The digits after the point of a number.  Those that no longer fit into a word
do not count. -/
def fractionPart (n : Nat) (exponent : Int) : Scan Float := do
  expectDigit
  let digits ← span isDigit
  let (m, left) := grow n digits
  realPart m (exponent - (digits.length - left.length : Nat))

/-- A number without its sign. -/
def unsigned : Scan (Nat ⊕ Float) := do
  expectDigit
  let zero := (← peek) == some '0'
  let digits ← span isDigit
  if zero ∧ 1 < digits.length then throw .grammar
  let (n, left) := grow 0 digits
  let mark ← peek
  if mark = some '.' then
    skip
    return .inr (← fractionPart n left.length)
  else if isExponentMark mark ∨ ¬ left.isEmpty then return .inr (← realPart n left.length)
  else return .inl n

/-- A number.  The negative zero and what is below the words with a sign are
floats. -/
def number : Scan Number := do
  if (← peek) = some '-' then
    skip
    match ← unsigned with
    | .inl n =>
      return if 0 < n ∧ Int64.minValue.toInt ≤ -(n : Int) then .negative n
        else .real (-(Float.ofNat n))
    | .inr x => return .real (-x)
  else
    match ← unsigned with
    | .inl n => return .natural n
    | .inr x => return .real x

/-! ### Values that do not count -/

/-- An open bracket. -/
inductive Bracket where
  | list
  | table
  deriving DecidableEq, Repr

/-- Where a skipped text stands. -/
inductive Place where
  /-- A value must follow. -/
  | value
  /-- A bracket was opened. -/
  | opened
  /-- A value is complete. -/
  | complete

/-- The digits of a skipped number, of which there must be one; a text that ends
here breaks the grammar. -/
def ignoredDigits : Scan (List Char) := do
  let digits ← span isDigit
  if digits.isEmpty then throw .grammar
  return digits

/-- The exponent of a skipped number, if there is one. -/
def ignoredExponent : Scan Unit := do
  if isExponentMark (← peek) then
    skip
    let sign ← peek
    if sign = some '+' ∨ sign = some '-' then skip
    let _ ← ignoredDigits

/-- A skipped number without its sign. -/
def ignoredNumber : Scan Unit := do
  let zero := (← peek) == some '0'
  let digits ← ignoredDigits
  if zero ∧ 1 < digits.length then throw .grammar
  if (← peek) = some '.' then
    skip
    let _ ← ignoredDigits
  ignoredExponent

/-- The colon between a key and its value. -/
def colon : Scan Unit := do
  match ← peekPastBlanks with
  | some ':' => skip
  | some _ => throw .grammar
  | none => throw .ended

/-- What comes before the next value inside brackets: in a table, a key. -/
def ignoredKey : Bracket → Scan Unit
  | .list => return
  | .table => do
    match ← peekPastBlanks with
    | some '"' =>
      skip
      let _ ← string false
      colon
    | some _ => throw .grammar
    | none => throw .ended

/-- Whether a character closes a bracket. -/
def Bracket.closedBy : Bracket → Char → Bool
  | .list, c => c == ']'
  | .table, c => c == '\x7d'

/-- One part of a skipped value; the open brackets are on the stack, the
innermost first. -/
def ignoredPart (s : Place × List Bracket) : Scan ((Place × List Bracket) ⊕ Unit) := do
  let (place, stack) := s
  match place, stack with
  | .value, _ =>
    match ← peekPastBlanks with
    | none => throw .ended
    | some c =>
      match restOfWord? c with
      | some rest =>
        skip
        literal rest
        return .inl (.complete, stack)
      | none =>
        if c = '-' then
          skip
          ignoredNumber
          return .inl (.complete, stack)
        else if isDigit c then
          ignoredNumber
          return .inl (.complete, stack)
        else if c = '"' then
          skip
          let _ ← string false
          return .inl (.complete, stack)
        else if c = '[' then
          skip
          return .inl (.opened, .list :: stack)
        else if c = '\x7b' then
          skip
          return .inl (.opened, .table :: stack)
        else throw .grammar
  | _, [] => return .inr ()
  | .opened, bracket :: outer =>
    match ← peekPastBlanks with
    | none => throw .ended
    | some c =>
      if bracket.closedBy c then
        skip
        return .inl (.complete, outer)
      else
        ignoredKey bracket
        return .inl (.value, stack)
  | .complete, bracket :: outer =>
    match ← peekPastBlanks with
    | none => throw .ended
    | some c =>
      if c = ',' then
        skip
        ignoredKey bracket
        return .inl (.value, stack)
      else if bracket.closedBy c then
        skip
        return .inl (.complete, outer)
      else throw .grammar

/-- A value of any depth is skipped; only its form counts. -/
def ignored : Scan Unit := loop ignoredPart (.value, [])

end RoverPilot.Json
