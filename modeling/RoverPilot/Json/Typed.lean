import RoverPilot.Json.Scan

/-!
JSON values of a wanted type.

* `word64`, `word32`, `real`, `pair`: numbers and pairs of numbers;
* `record`: a record, as a table with keys or as a list in the order of the
  fields;
* `document`: a whole text.
-/

namespace RoverPilot.Json

open Scan

/-! ### Numbers -/

/-- A value that is not wanted here: it must be well formed as far as it tells its
kind, and then its content is wrong. -/
def unwanted {α : Type} : Scan α := do
  match ← peek with
  | none => throw .ended
  | some c =>
    match restOfWord? c with
    | some rest =>
      skip
      literal rest
      throw .content
    | none =>
      if c = '-' ∨ isDigit c then
        let _ ← number
        throw .content
      else if c = '"' then
        skip
        let _ ← string true
        throw .content
      else if c = '[' ∨ c = '\x7b' then throw .content
      else throw .grammar

/-- A number that `accept` accepts. -/
def numberThat {α : Type} (accept : Number → Option α) : Scan α := do
  match ← peekPastBlanks with
  | none => throw .ended
  | some c =>
    if c = '-' ∨ isDigit c then
      match accept (← number) with
      | some a => return a
      | none => throw .content
    else unwanted

/-- A word of 64 bits without a sign. -/
def word64 : Scan UInt64 := numberThat fun
  | .natural n => some (UInt64.ofNat n)
  | _ => none

/-- A word of 32 bits with a sign. -/
def word32 : Scan Int32 := numberThat fun
  | .natural n => if (n : Int) ≤ Int32.maxValue.toInt then some (Int32.ofNat n) else none
  | .negative n =>
    if Int32.minValue.toInt ≤ -(n : Int) then some (Int32.ofInt (-(n : Int))) else none
  | .real _ => none

/-- A float; whole numbers are rounded to the nearest one. -/
def real : Scan Float := numberThat fun
  | .natural n => some (Float.ofNat n)
  | .negative n => some (-(Float.ofNat n))
  | .real x => some x

/-! ### Lists -/

/-- Whether another item of a list follows; then its beginning comes next. -/
def moreItems (first : Bool) : Scan Bool := do
  match ← peekPastBlanks with
  | none => throw .ended
  | some ']' => return false
  | some ',' =>
    if first then return true
    skip
    match ← peekPastBlanks with
    | none => throw .ended
    | some ']' => throw .grammar
    | some _ => return true
  | some _ => if first then return true else throw .grammar

/-- The end of a list with all its items read. -/
def closeList : Scan Unit := do
  match ← peekPastBlanks with
  | none => throw .ended
  | some ']' => skip
  | some _ => throw .grammar

/-- Two numbers in a list. -/
def pair : Scan (Int32 × Int32) := do
  match ← peekPastBlanks with
  | some '[' =>
    skip
    if !(← moreItems true) then throw .content
    let a ← word32
    if !(← moreItems false) then throw .content
    let b ← word32
    closeList
    return (a, b)
  | _ => unwanted

/-! ### Records -/

/-- A member of a record: its key, and how its value changes the record. -/
structure Member (σ : Type) where
  key : String
  read : σ → Scan σ

/-- The fields of a record in a list, in order; those missing at the end keep
their value. -/
def listedFields {σ : Type} (first : Bool) (s : σ) : List (Member σ) → Scan σ
  | [] => return s
  | field :: fields => do
    if ← moreItems first then
      let s ← field.read s
      listedFields false s fields
    else return s

/-- Whether another key of a table follows; then it comes next, after its quote. -/
def moreKeys (first : Bool) : Scan Bool := do
  match ← peekPastBlanks with
  | none => throw .ended
  | some '\x7d' =>
    skip
    return false
  | some c =>
    if first then
      if c ≠ '"' then throw .grammar
    else
      if c ≠ ',' then throw .grammar
      skip
      match ← peekPastBlanks with
      | none => throw .ended
      | some c => if c ≠ '"' then throw .grammar
    skip
    return true

/-- One entry of a table.  A key that came before is refused before its colon; the
value of an unknown key is skipped. -/
def entry {σ : Type} (fields : List (Member σ)) (s : σ × List String) :
    Scan ((σ × List String) ⊕ σ) := do
  let (value, seen) := s
  if !(← moreKeys seen.isEmpty) then return .inr value
  let key := String.ofList (← string true)
  match fields.find? (fun f => f.key == key) with
  | none =>
    colon
    ignored
    return .inl (value, key :: seen)
  | some field =>
    if seen.contains key then throw .content
    colon
    let value ← field.read value
    return .inl (value, key :: seen)

/-- A record: a table with keys, or a list in the order of the fields.  What is
missing keeps its default. -/
def record {σ : Type} (fields : List (Member σ)) (default : σ) : Scan σ := do
  match ← peekPastBlanks with
  | some '[' =>
    skip
    let s ← listedFields true default fields
    closeList
    return s
  | some '\x7b' =>
    skip
    loop (entry fields) (default, [])
  | _ => unwanted

/-! ### Whole texts -/

/-- A value with nothing else but blanks after it. -/
def whole {α : Type} (value : Scan α) : Scan α := do
  let a ← value
  if (← peekPastBlanks).isSome then throw .grammar
  return a

/-- The value of a whole text. -/
def document {α : Type} (value : Scan α) (text : List Char) : Except Flaw α :=
  (StateT.run (whole value) text).map Prod.fst

end RoverPilot.Json
