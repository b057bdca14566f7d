/-!
Lines out of text that arrives in pieces.

* `Assembler`: the text whose line end has not arrived yet;
* `Assembler.push`, `Assembler.next?`, `Assembler.takeRest?`: a piece arrives, a
  complete line leaves, the unfinished line leaves;
* `Assembler.drain`: all complete lines leave.
-/

namespace RoverPilot

/-- The text that has arrived and not left. -/
structure Assembler where
  buffer : List Char := []
  deriving DecidableEq, Repr

namespace Assembler

/-- A piece of text arrives. -/
def push (a : Assembler) (piece : List Char) : Assembler := { buffer := a.buffer ++ piece }

/-! ### Cutting at line ends -/

/-- The first line and what follows its line end. -/
def cutLine : List Char → Option (List Char × List Char)
  | [] => none
  | c :: s =>
    if c = '\n' then some ([], s)
    else (cutLine s).map fun cut => (c :: cut.1, cut.2)

/-- The complete lines of a text and the unfinished one after them. -/
def cutLines : List Char → List (List Char) × List Char
  | [] => ([], [])
  | c :: s =>
    match cutLines s with
    | (lines, rest) =>
      if c = '\n' then ([] :: lines, rest)
      else match lines with
        | [] => ([], c :: rest)
        | line :: lines => ((c :: line) :: lines, rest)

/-! ### Taking lines out -/

/-- The first complete line, without its line end, and the assembler after it. -/
def next? (a : Assembler) : Option (List Char × Assembler) :=
  (cutLine a.buffer).map fun cut => (cut.1, { buffer := cut.2 })

/-- All complete lines, and the assembler after them. -/
def drain (a : Assembler) : List (List Char) × Assembler :=
  let cut := cutLines a.buffer
  (cut.1, { buffer := cut.2 })

/-- The unfinished line, if there is any text, and the assembler after it. -/
def takeRest? (a : Assembler) : Option (List Char × Assembler) :=
  if a.buffer.isEmpty then none else some (a.buffer, {})

/-- The length of the waiting text in bytes. -/
def byteSize (a : Assembler) : Nat := (String.ofList a.buffer).utf8ByteSize

/-! ### Taking one line is taking the first of all lines -/

/-- The complete lines are the first one and those of the text after it. -/
theorem cutLines_of_cutLine {s line rest : List Char} (h : cutLine s = some (line, rest)) :
    cutLines s = (line :: (cutLines rest).1, (cutLines rest).2) := by
  induction s generalizing line with
  | nil => simp [cutLine] at h
  | cons c s ih =>
    simp only [cutLine] at h
    split at h
    · rename_i hc
      simp only [Option.some.injEq, Prod.mk.injEq] at h
      obtain ⟨rfl, rfl⟩ := h
      simp [cutLines, hc]
    · rename_i hc
      obtain ⟨cut, hcut, heq⟩ := Option.map_eq_some_iff.1 h
      obtain ⟨first, after⟩ := cut
      simp only [Prod.mk.injEq] at heq
      obtain ⟨rfl, rfl⟩ := heq
      simp [cutLines, ih hcut, hc]

/-- A text without a complete line is an unfinished line. -/
theorem cutLines_of_cutLine_eq_none {s : List Char} (h : cutLine s = none) :
    cutLines s = ([], s) := by
  induction s with
  | nil => rfl
  | cons c s ih =>
    simp only [cutLine] at h
    split at h
    · simp at h
    · rename_i hc
      simp [cutLines, ih (by simpa using h), hc]

end Assembler

end RoverPilot
