import RoverPilot.Batch.Lifecycle
import RoverPilot.Clock
import RoverPilot.Executor.Channel
import RoverPilot.Handler.Machinery

/-!
The executor and what it acts on.

* `Board`: what control calls and the worker share;
* `Phase`, `Worker`: what the worker is at, and what it remembers of a batch;
* `Event`: what the journal of a run says;
* `World`: board, worker, signals, plant, channel and journal.

A batch is active under one signal, a number that no other activation has; the
journal names activations by their signals.
-/

namespace RoverPilot

/-! ### The board -/

/-- What control calls and the worker share. -/
structure Board where
  lifecycle : Lifecycle := .idle
  /-- The commands of the executing batch that wait, the first one first. -/
  queue : List Command := []
  /-- The signal of the executing batch. -/
  token : Option Token := none
  /-- The number of preemptions so far. -/
  epoch : Nat := 0
  /-- Whether the executor is shut down. -/
  closing : Bool := false
  deriving DecidableEq, Repr

/-! ### The worker -/

/-- What the worker is at. -/
inductive Phase (M : Machinery) where
  /-- It looks at the board next. -/
  | looking
  /-- It waits to be woken. -/
  | parked
  /-- It has taken a command and not begun it. -/
  | popped (batch : BatchId) (token : Token) (c : Command)
  /-- A command is at work. -/
  | running (batch : BatchId) (token : Token) (c : Command) (a : M.Activity)
  /-- The handlers in the list are to finish. -/
  | finishing (batch : BatchId) (token : Token) (rest : List M.Handler)
  /-- A handler is finishing, and those in the list come after it. -/
  | finishingCall (batch : BatchId) (token : Token) (a : M.Activity) (rest : List M.Handler)
  /-- A report is being delivered, up to a deadline. -/
  | reporting (token : Token) (r : Result) (deadline : Nat)
  /-- It has ended. -/
  | exited

/-- The worker and what it remembers of a batch. -/
structure Worker (M : Machinery) where
  phase : Phase M := .looking
  /-- The preemptions that the worker has seen. -/
  epoch : Nat := 0
  /-- The handlers begun for the batch, in order. -/
  started : List M.Handler := []
  /-- How the last command of the batch ended. -/
  outcome : Outcome := .ok

/-! ### The journal -/

/-- What happened in a run. -/
inductive Event (M : Machinery) where
  /-- A batch header arrived. -/
  | announced (batch : BatchId)
  /-- A batch became the executing one. -/
  | activated (token : Token) (batch : BatchId)
  /-- A command was accepted into the executing batch. -/
  | accepted (token : Token) (c : Command)
  /-- A command was dropped. -/
  | dropped (c : Command) (cause : Rejection)
  /-- The executing batch was preempted, by the first command of the waiting one. -/
  | preempted (token : Token) (c : Command)
  /-- The operator stopped the robot. -/
  | stopped
  /-- The executor was shut down. -/
  | closed
  /-- The executing batch was found interrupted between its commands. -/
  | interrupted (token : Token)
  /-- A command without a handler was taken. -/
  | unresolved (token : Token) (c : Command)
  /-- A command was taken and not begun, because the batch was interrupted. -/
  | skipped (token : Token) (c : Command)
  /-- A command begins. -/
  | began (token : Token) (c : Command) (h : M.Handler)
  /-- A command ended by itself. -/
  | ended (token : Token) (c : Command) (e : Ending)
  /-- A command was given up, because the signal was given. -/
  | givenUp (token : Token) (c : Command)
  /-- A handler begins to finish. -/
  | finishBegan (token : Token) (h : M.Handler)
  /-- A handler has finished, well or not. -/
  | finishEnded (token : Token) (e : Ending)
  /-- The result of a batch is dropped, because the batch was preempted. -/
  | discarded (token : Token)
  /-- A batch is reported. -/
  | reported (token : Token) (r : Result)
  /-- The channel has taken a report. -/
  | delivered (token : Token) (r : Result)
  /-- The channel has refused a report. -/
  | undelivered (token : Token) (r : Result) (e : DeliveryError)
  /-- The delivery of a report took too long. -/
  | timedOut (token : Token) (r : Result)

/-! ### The world -/

/-- The executor and what it acts on. -/
structure World (M : Machinery) where
  now : Nat := 0
  board : Board := {}
  worker : Worker M := {}
  /-- Whether a wake-up waits for the worker. -/
  wake : Bool := false
  /-- The number of signals handed out so far. -/
  tokens : Nat := 0
  /-- The signals that are given. -/
  cancelled : List Token := []
  plant : M.Plant
  channel : Channel
  /-- The time that the delivery of one report may take. -/
  reportTimeout : Nat
  /-- What happened so far. -/
  journal : Log (Event M) := []

namespace World

variable {M : Machinery}

/-! ### Signals -/

/-- Whether a signal is given. -/
def isCancelled (w : World M) (t : Token) : Bool := w.cancelled.contains t

/-- A signal is given. -/
def cancel (w : World M) (t : Token) : World M := { w with cancelled := t :: w.cancelled }

/-- The present moment for a batch with the given signal. -/
def moment (w : World M) (t : Token) : Moment :=
  { now := w.now, token := t, cancelled := w.isCancelled t }

/-! ### Small steps -/

/-- The journal grows. -/
def note (w : World M) (e : Event M) : World M := { w with journal := (w.now, e) :: w.journal }

/-- The motors stop. -/
def halt (w : World M) : World M := { w with plant := M.halt w.now w.plant }

/-- The worker is woken; one wake-up that waits is enough. -/
def rouse (w : World M) : World M := { w with wake := true }

/-- A batch becomes the executing one, under a new signal. -/
def activate (w : World M) (batch : BatchId) : World M :=
  { w with tokens := w.tokens + 1, board := { w.board with token := some w.tokens } }.note
    (.activated w.tokens batch)

/-- The worker goes on to a phase. -/
def enter (w : World M) (phase : Phase M) : World M :=
  { w with worker := { w.worker with phase } }

/-- The worker looks at the board again after the command that it was at ended
with an outcome. -/
def conclude (w : World M) (o : Outcome) : World M :=
  { w with worker := { w.worker with phase := .looking, outcome := o } }

end World

end RoverPilot
