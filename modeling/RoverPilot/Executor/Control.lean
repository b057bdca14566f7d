import RoverPilot.Executor.World
import RoverPilot.Stream.Parser

/-!
Control calls: what the parser and the operator ask of the executor.

* `ControlError`: why a call is refused;
* `World.call`: a header, a command or the end of a turn;
* `World.stopNow`: the operator stops the robot;
* `World.close`: the executor is shut down.

Each call changes the board and then wakes the worker; it never waits.
-/

namespace RoverPilot

/-- Why a control call is refused. -/
inductive ControlError where
  | shutDown
  deriving DecidableEq, Repr

/-- The words for a refused control call. -/
def ControlError.message : ControlError → String
  | .shutDown => "Executor is shut down"

namespace World

variable {M : Machinery}

/-! ### Batches -/

/-- A batch header arrives. -/
def start (w : World M) (batch : BatchId) : World M :=
  let (admission, lifecycle) := w.board.lifecycle.start batch
  let w := { w with board := { w.board with lifecycle } }.note (.announced batch)
  match admission with
  | .started batch => w.activate batch
  | .waits _ _ => w

/-- The waiting batch takes the place of the executing one, as its first command is
the preempting one.  The signal of the old batch is given, the motors stop, its
commands go, and the worker will see that what it remembers is out of date. -/
def preempt (w : World M) (c : Command) (promoted : BatchId) : World M :=
  let w := match w.board.token with
    | some old => (w.cancel old).note (.preempted old c)
    | none => w
  let w := w.halt.activate promoted
  { w with board := { w.board with queue := [], epoch := w.board.epoch + 1 } }

/-- A command arrives; tells whether the worker has to know of it. -/
def enqueue (w : World M) (c : Command) : World M × Bool :=
  let (decision, lifecycle) := w.board.lifecycle.enqueue c
  let w := { w with board := { w.board with lifecycle } }
  match decision with
  | .accept _ =>
    let w := match w.board.token with
      | some t => w.note (.accepted t c)
      | none => w
    ({ w with board := { w.board with queue := w.board.queue ++ [c] } }, true)
  | .preempt _ promoted => (w.preempt c promoted, true)
  | .reject cause => (w.note (.dropped c cause), false)

/-- The stream of the last header ends. -/
def finishStream (w : World M) : World M :=
  { w with board := { w.board with lifecycle := w.board.lifecycle.finish.2 } }

/-! ### Calls -/

/-- What a call changes before it wakes the worker, and whether it does so. -/
def update (w : World M) : Call → World M × Bool
  | .start batch => (w.start batch, true)
  | .enqueue c => w.enqueue c
  | .finish => (w.finishStream, true)

/-- A call of the parser, refused once the executor is shut down. -/
def call (w : World M) (c : Call) : Except ControlError Unit × World M :=
  if w.board.closing then (.error .shutDown, w)
  else
    let (w, wakes) := w.update c
    (.ok (), if wakes then w.rouse else w)

/-- What a stop by the operator changes before it wakes the worker. -/
def stopUpdate (w : World M) : World M :=
  let w := w.halt.note .stopped
  match w.board.token with
  | some t => w.cancel t
  | none => w

/-- The operator stops the robot: the motors stop, and the executing batch is
interrupted.  This works after the executor is shut down, too. -/
def stopNow (w : World M) : World M := w.stopUpdate.rouse

/-- What shutting down changes before it wakes the worker. -/
def closeUpdate (w : World M) : World M :=
  { w with board := { w.board with closing := true } }.finishStream.note .closed

/-- The executor is shut down: an open batch counts as finished, and the worker
ends once there is nothing left to do. -/
def close (w : World M) : World M := w.closeUpdate.rouse

end World

end RoverPilot
