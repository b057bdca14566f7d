import RoverPilot.Batch.Result
import RoverPilot.Text.Blank

/-!
Reports as messages to the model.

* `Result.encode`: a header line with the id, a line with the status and, unless
  there is none, a line with the reason;
* `Result.decode`: the report that a message holds.
-/

namespace RoverPilot

/-! ### Writing -/

/-- The message for a report. -/
def Result.encode (r : Result) : List Char :=
  "[EXEC_RESULT id=".toList ++ Text.render r.id.toNat ++ "]\nSTATUS: ".toList ++
    r.status.name.toList ++
    if r.reason = .none then [] else "\nREASON: ".toList ++ r.reason.name.toList

/-! ### Reading -/

/-- The digits of a header line: the opening word, blanks, `id=`, decimal digits
of any script, and the closing bracket at the end. -/
def Result.headerDigits? (s : List Char) : Option (List Char) := do
  let afterWord ← Text.after? "[EXEC_RESULT".toList s
  let afterBlanks := Text.trimLeft afterWord
  if afterBlanks.length = afterWord.length then none
  let digits ← Text.after? "id=".toList afterBlanks
  let body := digits.takeWhile Text.isDecimalDigit
  if body.isEmpty ∨ digits.dropWhile Text.isDecimalDigit ≠ [']'] then none
  return body

/-- The lines of a message that are not blank, without the blanks around them. -/
def Result.contentLines (message : List Char) : List (List Char) :=
  ((Text.lines message).map Text.trim).filter fun line => !line.isEmpty

/-- The status that a status line names. -/
def Result.readStatusLine (line : Option (List Char)) : Except FormatError Status :=
  match line.bind (Text.after? "STATUS:".toList) with
  | some name => Status.read (Text.trim name)
  | none => .error (.malformed .noStatus)

/-- The reason that a reason line names; a message without such a line has none. -/
def Result.readReasonLine : Option (List Char) → Except FormatError Reason
  | none => .ok .none
  | some line =>
    match Text.after? "REASON:".toList line with
    | some name => Reason.read (Text.trim name)
    | none => .error (.malformed .noReason)

/-- The report that a message holds.  Header, id, status and reason are looked at
in this order, and lines after the third are not looked at. -/
def Result.decode (message : List Char) : Except FormatError Result :=
  match Result.contentLines message with
  | [] => .error (.malformed .empty)
  | header :: rest =>
    match Result.headerDigits? header with
    | none => .error (.malformed .noHeader)
    | some digits => do
      let id ← BatchId.read digits
      let status ← Result.readStatusLine rest.head?
      let reason ← Result.readReasonLine rest.tail.head?
      return { id, status, reason }

end RoverPilot
