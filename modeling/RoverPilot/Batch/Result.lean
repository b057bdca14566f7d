import RoverPilot.Batch.Id

/-!
What becomes of a command and of a batch.

* `Outcome`: how one command ended;
* `Status`, `Reason`: what is said of a whole batch;
* `Outcome.verdict`: the status and the reason that an outcome stands for;
* `Result`, `Result.ofOutcome`: the report on one batch.
-/

namespace RoverPilot

/-! ### Commands -/

/-- How a command ended. -/
inductive Outcome where
  | ok
  | interrupted
  | failed
  | parseError
  | obstacle
  | userStop
  | safety
  deriving DecidableEq, Repr

/-- Every outcome. -/
def Outcome.all : List Outcome :=
  [.ok, .interrupted, .failed, .parseError, .obstacle, .userStop, .safety]

/-- The name of an outcome. -/
def Outcome.name : Outcome → String
  | .ok => "OK"
  | .interrupted => "INTERRUPTED"
  | .failed => "FAILED"
  | .parseError => "PARSE_ERROR"
  | .obstacle => "OBSTACLE"
  | .userStop => "USER_STOP"
  | .safety => "SAFETY"

/-- Whether the batch may go on after this outcome. -/
def Outcome.isOk (o : Outcome) : Bool := o == .ok

/-! ### Batches -/

/-- How a batch ended. -/
inductive Status where
  | ok
  | interrupted
  | failed
  | ignored
  deriving DecidableEq, Repr

/-- Every status. -/
def Status.all : List Status := [.ok, .interrupted, .failed, .ignored]

/-- The name of a status. -/
def Status.name : Status → String
  | .ok => "OK"
  | .interrupted => "INTERRUPTED"
  | .failed => "FAILED"
  | .ignored => "IGNORED"

/-- Why a batch did not end well. -/
inductive Reason where
  | none
  | obstacle
  | userStop
  | safety
  | parseError
  | internalError
  deriving DecidableEq, Repr

/-- Every reason. -/
def Reason.all : List Reason :=
  [.none, .obstacle, .userStop, .safety, .parseError, .internalError]

/-- The name of a reason. -/
def Reason.name : Reason → String
  | .none => "NONE"
  | .obstacle => "OBSTACLE"
  | .userStop => "USER_STOP"
  | .safety => "SAFETY"
  | .parseError => "PARSE_ERROR"
  | .internalError => "INTERNAL_ERROR"

/-- The status with the given name. -/
def Status.read (s : List Char) : Except FormatError Status :=
  match Status.all.find? (fun t => t.name.toList == s) with
  | some t => .ok t
  | none => .error (.unknownStatus s)

/-- The reason with the given name. -/
def Reason.read (s : List Char) : Except FormatError Reason :=
  match Reason.all.find? (fun r => r.name.toList == s) with
  | .some r => .ok r
  | .none => .error (.unknownReason s)

/-! ### Reports -/

/-- What the last outcome of a batch says about the batch. -/
def Outcome.verdict : Outcome → Status × Reason
  | .ok => (.ok, .none)
  | .obstacle => (.interrupted, .obstacle)
  | .userStop => (.interrupted, .userStop)
  | .interrupted => (.interrupted, .userStop)
  | .safety => (.failed, .safety)
  | .parseError => (.failed, .parseError)
  | .failed => (.failed, .internalError)

/-- The report on one batch. -/
structure Result where
  id : BatchId
  status : Status
  reason : Reason
  deriving DecidableEq, Repr

/-- The report on a batch that ended with the given outcome. -/
def Result.ofOutcome (id : BatchId) (o : Outcome) : Result :=
  { id, status := o.verdict.1, reason := o.verdict.2 }

/-- Whether a report says that all went well. -/
def Result.isOk (r : Result) : Bool := r.status == .ok

/-- An outcome lets the batch go on exactly when its verdict is good. -/
theorem Result.isOk_ofOutcome (id : BatchId) (o : Outcome) :
    (Result.ofOutcome id o).isOk = o.isOk := by
  cases o <;> rfl

end RoverPilot
