import RoverPilot.Batch.Result

/-!
How calls of handlers go and end.

* `Cause`, `Fault`: why a command cannot be carried out;
* `Fault.outcome`, `Fault.message`: what that means for the batch, and the words;
* `Ending`: how a call ended;
* `Progress`: a call that goes on or has ended.
-/

namespace RoverPilot

/-! ### Faults -/

/-- What failed in the body or in the voice of the robot. -/
inductive Cause where
  | motorFault (detail : String)
  | speakerOffline
  /-- A background task broke. -/
  | speechTask (task : Nat) (detail : String)
  /-- A scripted handler fails. -/
  | scripted
  deriving DecidableEq, Repr

/-- The words for what failed. -/
def Cause.message : Cause → String
  | .motorFault detail => "Motor fault: " ++ detail
  | .speakerOffline => "speaker offline"
  | .speechTask task detail =>
    "Speech task failed: task " ++ toString task ++ " panicked with message " ++
      Text.Quoted.encodeString detail
  | .scripted => "scripted failure"

/-- Why a command cannot be carried out. -/
inductive Fault where
  | unknownCommand (name : String)
  | argumentCount (command : String) (expected got : Nat)
  /-- Arguments are counted from one. -/
  | invalidArgument (command : String) (index : Nat) (value : String)
  | actuator (cause : Cause)
  deriving DecidableEq, Repr

/-- The words for a fault. -/
def Fault.message : Fault → String
  | .unknownCommand name => "Unknown command " ++ name
  | .argumentCount command expected got =>
    "Command " ++ command ++ " expects " ++ toString expected ++ " argument(s), got " ++
      toString got
  | .invalidArgument command index value =>
    "Command " ++ command ++ " argument " ++ toString index ++ " is invalid: " ++
      Text.Quoted.encodeString value
  | .actuator cause => "Actuator error: " ++ cause.message

/-- What a fault means for the batch: a command that cannot be understood is an
error of the model, and all else is a failure of the robot. -/
def Fault.outcome : Fault → Outcome
  | .unknownCommand _ => .parseError
  | .argumentCount _ _ _ => .parseError
  | .invalidArgument _ _ _ => .parseError
  | .actuator _ => .failed

/-! ### Calls -/

/-- How a call of a handler ended. -/
inductive Ending where
  | returned (o : Outcome)
  | raised (f : Fault)
  /-- The handler broke. -/
  | panicked
  deriving DecidableEq, Repr

/-- What an ending means for the batch. -/
def Ending.outcome : Ending → Outcome
  | .returned o => o
  | .raised f => f.outcome
  | .panicked => .failed

/-- A call that goes on as an activity, or has ended. -/
inductive Progress (α : Type) where
  | running (activity : α)
  | ended (e : Ending)

end RoverPilot
