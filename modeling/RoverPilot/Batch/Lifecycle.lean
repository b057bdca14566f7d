import RoverPilot.Batch.Id
import RoverPilot.Command

/-!
The life of batches: which batch executes, which one arrives behind it, and what
becomes of each command that arrives.

* `Lifecycle`: the batches that are open;
* `Lifecycle.start`, `Lifecycle.enqueue`, `Lifecycle.finish`,
  `Lifecycle.finalize`: a header arrives, a command arrives, the stream of the
  last header ends, the executing batch is over;
* `Decision`: what becomes of a command.
-/

namespace RoverPilot

/-! ### States -/

/-- The batches that are open. -/
inductive Lifecycle where
  /-- No batch is open. -/
  | idle
  /-- A batch executes and may receive commands. -/
  | executing (batch : BatchId)
  /-- A batch executes and its stream has ended. -/
  | finishCalled (batch : BatchId)
  /-- A batch executes, and another one behind it waits for its first command;
  the stream of the waiting one may have ended already. -/
  | collecting (batch incoming : BatchId) (closed : Bool)
  /-- A batch executes, and the commands of another one behind it are dropped. -/
  | ignoring (batch incoming : BatchId)
  deriving DecidableEq, Repr

/-- The shape of a lifecycle, without the batches. -/
inductive Stage where
  | idle
  | executing
  | finishCalled
  | collecting
  | ignoring
  deriving DecidableEq, Repr

/-- The name of a stage. -/
def Stage.name : Stage → String
  | .idle => "idle"
  | .executing => "executing"
  | .finishCalled => "finish-called"
  | .collecting => "collecting-incoming"
  | .ignoring => "incoming-ignoring"

namespace Lifecycle

/-- The stage of a lifecycle. -/
def stage : Lifecycle → Stage
  | idle => .idle
  | executing _ => .executing
  | finishCalled _ => .finishCalled
  | collecting _ _ _ => .collecting
  | ignoring _ _ => .ignoring

/-- The executing batch. -/
def executing? : Lifecycle → Option BatchId
  | idle => none
  | executing b => some b
  | finishCalled b => some b
  | collecting b _ _ => some b
  | ignoring b _ => some b

/-- The batch that arrived behind the executing one. -/
def incoming? : Lifecycle → Option BatchId
  | collecting _ i _ => some i
  | ignoring _ i => some i
  | _ => none

/-- Whether the executing batch may receive commands. -/
def isAccepting : Lifecycle → Bool
  | executing _ => true
  | _ => false

end Lifecycle

/-! ### What becomes of headers and commands -/

/-- What becomes of a batch whose header arrives. -/
inductive Admission where
  /-- It executes. -/
  | started (batch : BatchId)
  /-- It waits behind the executing batch. -/
  | waits (executing incoming : BatchId)
  deriving DecidableEq, Repr

/-- Why a command is dropped. -/
inductive Rejection where
  /-- No batch receives commands. -/
  | notAccepting (stage : Stage)
  /-- The waiting batch does not begin with the preempting command. -/
  | incomingNotStop (incoming : BatchId)
  /-- The batch behind the executing one was dropped before. -/
  | incomingIgnored (incoming : BatchId)
  deriving DecidableEq, Repr

/-- What becomes of a command. -/
inductive Decision where
  /-- It belongs to the executing batch. -/
  | accept (batch : BatchId)
  /-- The waiting batch takes the place of the executing one. -/
  | preempt (preempted promoted : BatchId)
  /-- It is dropped. -/
  | reject (cause : Rejection)
  deriving DecidableEq, Repr

/-- The command with which a waiting batch takes over. -/
def preemptingName : String := "STOP"

namespace Lifecycle

/-! ### Transitions -/

/-- A batch header arrives. -/
def start (l : Lifecycle) (batch : BatchId) : Admission × Lifecycle :=
  match l.executing? with
  | none => (.started batch, executing batch)
  | some b => (.waits b batch, collecting b batch false)

/-- A command arrives.  The first command of a waiting batch decides whether that
batch takes over or is dropped. -/
def enqueue (l : Lifecycle) (c : Command) : Decision × Lifecycle :=
  match l with
  | executing b => (.accept b, l)
  | collecting b i _ =>
    if c.hasName preemptingName then (.preempt b i, executing i)
    else (.reject (.incomingNotStop i), ignoring b i)
  | ignoring _ i => (.reject (.incomingIgnored i), l)
  | idle => (.reject (.notAccepting .idle), l)
  | finishCalled _ => (.reject (.notAccepting .finishCalled), l)

/-- The stream of the last header ends; tells whether that was the stream of the
executing batch, still open. -/
def finish : Lifecycle → Bool × Lifecycle
  | executing b => (true, finishCalled b)
  | collecting b i _ => (false, collecting b i true)
  | l => (false, l)

/-- The executing batch is over.  A batch that waits for its first command takes
its place, and its stream is as open as it was. -/
def finalize : Lifecycle → Option BatchId × Lifecycle
  | collecting _ i closed => (some i, if closed then finishCalled i else executing i)
  | _ => (none, idle)

/-! ### What the transitions do to the batches -/

/-- After a header a batch executes. -/
theorem executing?_start (l : Lifecycle) (batch : BatchId) :
    (l.start batch).2.executing? = some (l.executing?.getD batch) := by
  cases l <;> rfl

/-- The end of a stream leaves the executing batch as it is. -/
@[simp] theorem executing?_finish (l : Lifecycle) : l.finish.2.executing? = l.executing? := by
  cases l <;> rfl

/-- The end of a stream leaves the waiting batch as it is. -/
@[simp] theorem incoming?_finish (l : Lifecycle) : l.finish.2.incoming? = l.incoming? := by
  cases l <;> rfl

/-- After the end of a stream no batch receives commands. -/
@[simp] theorem isAccepting_finish (l : Lifecycle) : l.finish.2.isAccepting = false := by
  cases l <;> rfl

/-- The batch that takes the place of the one that is over executes. -/
theorem executing?_finalize (l : Lifecycle) : l.finalize.2.executing? = l.finalize.1 := by
  cases l with
  | collecting b i closed => cases closed <;> rfl
  | _ => rfl

/-- A command is accepted exactly while the executing batch receives commands, and
then nothing else changes. -/
theorem enqueue_eq_accept_iff {l : Lifecycle} {c : Command} {b : BatchId} :
    (l.enqueue c).1 = .accept b ↔ l = executing b := by
  cases l with
  | executing b' => simp [enqueue]
  | collecting b' i closed => simp only [enqueue]; split <;> simp
  | _ => simp [enqueue]

end Lifecycle

end RoverPilot
