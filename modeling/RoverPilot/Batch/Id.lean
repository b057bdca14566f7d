import RoverPilot.Text.Numeral
import RoverPilot.Text.Quoted

/-!
Batch ids and the faults of written batches and results.

* `BatchId`: the number that a batch header announces;
* `FormatError`, `FormatError.message`: why a written id, status, reason or
  result is refused, and the words for it;
* `BatchId.read`: the id that a text denotes.
-/

namespace RoverPilot

/-- The number that identifies a batch, a word of 32 bits. -/
abbrev BatchId := UInt32

/-! ### Faults -/

/-- What a result message lacks. -/
inductive Malformation where
  | empty
  | noHeader
  | noStatus
  | noReason
  deriving DecidableEq, Repr

/-- Why a written id, status, reason or result message is refused. -/
inductive FormatError where
  | invalidId (text : List Char)
  | unknownStatus (text : List Char)
  | unknownReason (text : List Char)
  | malformed (cause : Malformation)
  deriving DecidableEq, Repr

/-- The words for what a result message lacks. -/
def Malformation.message : Malformation → String
  | .empty => "empty message"
  | .noHeader => "missing EXEC_RESULT header"
  | .noStatus => "missing STATUS line"
  | .noReason => "expected REASON line"

/-- The words for a refused text. -/
def FormatError.message : FormatError → String
  | .invalidId s => "Invalid batch id: " ++ String.ofList (Text.Quoted.encode s)
  | .unknownStatus s => "Unknown status: " ++ String.ofList (Text.Quoted.encode s)
  | .unknownReason s => "Unknown reason: " ++ String.ofList (Text.Quoted.encode s)
  | .malformed cause => "Malformed result message: " ++ cause.message

/-! ### Reading an id -/

/-- The id that a text denotes: a positive number below 2^32 in ASCII digits,
with an optional plus sign. -/
def BatchId.read (s : List Char) : Except FormatError BatchId :=
  match Text.signedNatural? s with
  | some n =>
    if 0 < n ∧ n < UInt32.size then .ok (UInt32.ofNat n) else .error (.invalidId s)
  | none => .error (.invalidId s)

end RoverPilot
