/-!
Text from bytes that may be broken.

* `Unfinished`: the part of a character that has arrived;
* `decode`: the text of some bytes, with a replacement character for every
  maximal part of a character that goes wrong;
* `take`: the text that can be told already, and the bytes to keep.
-/

namespace RoverPilot.Text.Utf8

/-- The first bytes of a character: the number they spell, how many bytes are
missing, and the range of the next one. -/
structure Unfinished where
  value : Nat
  missing : Nat
  low : UInt8
  high : UInt8
  deriving DecidableEq, Repr

/-- What one more byte makes of the bytes before it. -/
inductive Step where
  /-- A character is complete. -/
  | char (c : Char)
  /-- More bytes must follow. -/
  | more (u : Unfinished)
  /-- No character has such a byte here. -/
  | wrong
  deriving DecidableEq, Repr

/-- What stands for bytes that are no character. -/
def replacement : Char := '\ufffd'

/-! ### Single bytes -/

/-- The first byte of a character.  The range of the second byte shuts out long
forms, surrogates and numbers above the last code point. -/
def lead (b : UInt8) : Step :=
  if b < 0x80 then .char (Char.ofNat b.toNat)
  else if b < 0xC2 then .wrong
  else if b < 0xE0 then .more ⟨b.toNat - 0xC0, 1, 0x80, 0xBF⟩
  else if b < 0xF0 then
    .more ⟨b.toNat - 0xE0, 2, if b = 0xE0 then 0xA0 else 0x80, if b = 0xED then 0x9F else 0xBF⟩
  else if b < 0xF5 then
    .more ⟨b.toNat - 0xF0, 3, if b = 0xF0 then 0x90 else 0x80, if b = 0xF4 then 0x8F else 0xBF⟩
  else .wrong

/-- A byte after the first bytes of a character. -/
def Unfinished.next (u : Unfinished) (b : UInt8) : Step :=
  if u.low ≤ b ∧ b ≤ u.high then
    let value := 64 * u.value + (b.toNat - 0x80)
    if u.missing ≤ 1 then .char (Char.ofNat value)
    else .more ⟨value, u.missing - 1, 0x80, 0xBF⟩
  else .wrong

/-! ### Whole texts -/

/-- The text of bytes that follow `before`, the first bytes of a character if
there are any.  A byte that goes wrong ends the character before it and begins
the next one. -/
def decodeFrom (before : Option Unfinished) : List UInt8 → List Char
  | [] => if before.isSome then [replacement] else []
  | b :: s =>
    let begins := match lead b with
      | .char c => c :: decodeFrom none s
      | .more u => decodeFrom (some u) s
      | .wrong => replacement :: decodeFrom none s
    match before with
    | none => begins
    | some u =>
      match u.next b with
      | .char c => c :: decodeFrom none s
      | .more u => decodeFrom (some u) s
      | .wrong => replacement :: begins

/-- The text of some bytes. -/
def decode (s : List UInt8) : List Char := decodeFrom none s

/-! ### Texts that arrive in pieces -/

/-- The bytes of the unfinished character at the end, `held` being those of the
one that `before` describes; nothing if some byte goes wrong before the end. -/
def tailFrom? (before : Option Unfinished) (held : List UInt8) : List UInt8 → Option (List UInt8)
  | [] => some held
  | b :: s =>
    match before.elim (lead b) (·.next b) with
    | .char _ => tailFrom? none [] s
    | .more u => tailFrom? (some u) (held ++ [b]) s
    | .wrong => none

/-- The bytes of the unfinished character at the end of some bytes that are right
so far. -/
def tail? (s : List UInt8) : Option (List UInt8) := tailFrom? none [] s

/-- The text that can be told from the bytes, and the bytes to keep.  Only bytes
without a fault are cut before an unfinished character. -/
def take (s : List UInt8) : List Char × List UInt8 :=
  match tail? s with
  | some tail => (decode (s.take (s.length - tail.length)), tail)
  | none => (decode s, [])

end RoverPilot.Text.Utf8
