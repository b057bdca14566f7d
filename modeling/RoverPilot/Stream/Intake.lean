import RoverPilot.Stream.Parser
import RoverPilot.Text.Utf8

/-!
The model's bytes as calls on the batches.

* `Intake`: a parser and the bytes of an unfinished character;
* `Intake.read`: some bytes arrive;
* `Intake.close`: the bytes end;
* `Intake.readAll`: reads from a source until it ends or fails.
-/

namespace RoverPilot

/-- A parser that is fed with bytes. -/
structure Intake where
  pending : List UInt8 := []
  parser : Parser := {}
  deriving DecidableEq, Repr

/-- Why the text of the model could not be read to its end. -/
inductive ReadError where
  | source (cause : String)
  deriving DecidableEq, Repr

/-- The words for a failed read. -/
def ReadError.message : ReadError → String
  | .source cause => "Failed to read model stream: " ++ cause

namespace Intake

/-! ### Bytes -/

/-- The parser is given some text, if there is any. -/
def give (s : Intake) (text : List Char) : Intake × List Call :=
  if text.isEmpty then (s, [])
  else
    let (parser, calls) := s.parser.add text
    ({ s with parser }, calls)

/-- Some bytes arrive. -/
def read (s : Intake) (bytes : List UInt8) : Intake × List Call :=
  let (text, pending) := Text.Utf8.take (s.pending ++ bytes)
  give { s with pending } text

/-- The bytes end; an unfinished character counts as a wrong one. -/
def close (s : Intake) : Intake × List Call :=
  give { s with pending := [] } (Text.Utf8.decode s.pending)

/-- Several reads and the calls they make, in order. -/
def reads (s : Intake) : List (List UInt8) → Intake × List Call
  | [] => (s, [])
  | bytes :: rest =>
    let (s, calls) := s.read bytes
    let (s, more) := reads s rest
    (s, calls ++ more)

/-! ### Sources -/

/-- The largest number of bytes that one read takes. -/
def readSize : Nat := 512

/-- Bytes in pieces of the largest size that one read takes. -/
def pieces : List UInt8 → List (List UInt8)
  | [] => []
  | b :: rest => (b :: rest).take readSize :: pieces ((b :: rest).drop readSize)
termination_by bytes => bytes.length
decreasing_by
  simp only [List.length_drop, List.length_cons, readSize]
  omega

/-- Reads from a source that gives the portions one after another.  An empty
portion ends the source; after the last portion it ends too, or fails for the
given cause, and then an unfinished character stays. -/
def readAll (s : Intake) (failure : Option String) :
    List (List UInt8) → Except ReadError Unit × Intake × List Call
  | [] =>
    match failure with
    | some cause => (.error (.source cause), s, [])
    | none => (.ok (), s.close)
  | portion :: rest =>
    if portion.isEmpty then (.ok (), s.close)
    else
      let (s, calls) := s.reads (pieces portion)
      let (outcome, s, more) := readAll s failure rest
      (outcome, s, calls ++ more)

end Intake

end RoverPilot
