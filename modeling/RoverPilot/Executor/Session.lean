import RoverPilot.Executor.Control
import RoverPilot.Executor.Worker

/-!
A parser, an executor and what they act on, in virtual time.

* `World.step`, `World.background`: the worker or the background goes on;
* `Control`: what the parser or the operator asks;
* `Interjection`: calls made just before a command begins;
* `Session`: parser and world, with an interjection;
* `Session.clockwork`: a session as time passes;
* `Session.add`, `Session.finish`, `Session.sleep`, `Session.shutDown`: text
  arrives, a turn ends, time passes, the executor is shut down.
-/

namespace RoverPilot

/-! ### Worlds -/

namespace World

variable {M : Machinery}

/-- One step of what goes on beside the worker. -/
def background (w : World M) : World M :=
  { w with plant := M.background w.now w.isCancelled w.plant }

/-- Whether such a step is possible. -/
def backgroundReady (w : World M) : Bool := M.backgroundReady w.now w.isCancelled w.plant

/-- What the background waits for. -/
def backgroundWait (w : World M) : Option Wait := M.backgroundWait w.plant

/-- The worker or else the background goes on; the background goes first where its
wait ends first. -/
def step (w : World M) : World M :=
  if w.workerReady ∧ ¬ endsBefore w.now w.backgroundWait w.workerWait then w.work
  else w.background

/-- The present time becomes a later one. -/
def passTo (w : World M) (t : Nat) : World M := { w with now := max t w.now }

/-- The next time at which something happens by itself. -/
def due (w : World M) : Option Nat := earlierEnd w.workerWait w.backgroundWait

/-- The handlers that are still to finish in a phase. -/
def unfinished : Phase M → Nat
  | .finishing _ _ rest => rest.length
  | .finishingCall _ _ _ rest => rest.length + 1
  | _ => 0

/-- The commands and handlers that the worker has still to do with. -/
def workload (w : World M) : Nat :=
  w.board.queue.length + w.worker.started.length + unfinished w.worker.phase

end World

/-! ### Control calls -/

/-- What the parser or the operator asks of the executor. -/
inductive Control where
  | call (c : Call)
  | stopNow
  deriving DecidableEq, Repr

namespace World

variable {M : Machinery}

/-- A control call. -/
def control (w : World M) : Control → Except ControlError Unit × World M
  | .call c => w.call c
  | .stopNow => (.ok (), w.stopNow)

/-- Control calls whose answers nobody looks at. -/
def controls (w : World M) (cs : List Control) : World M :=
  cs.foldl (fun w c => (w.control c).2) w

end World

/-! ### Sessions -/

/-- Calls made the first time that a command of the given name was taken and not
begun. -/
structure Interjection where
  name : String
  controls : List Control
  deriving DecidableEq, Repr

/-- A parser and an executor. -/
structure Session (M : Machinery) where
  world : World M
  parser : Parser := {}
  interjection : Option Interjection := none

namespace Session

variable {M : Machinery}

/-- The interjection that is due: the worker has taken a command of its name, which
has a handler. -/
def interjectionDue? (s : Session M) : Option Interjection :=
  match s.world.worker.phase with
  | .popped _ _ c => s.interjection.filter fun i => i.name == c.name && (M.resolve c.name).isSome
  | _ => none

/-- The interjection, the worker or else the background goes on. -/
def step (s : Session M) : Session M :=
  match s.interjectionDue? with
  | some i => { s with world := s.world.controls i.controls, interjection := none }
  | none => { s with world := s.world.step }

/-- The number of calls in the interjection. -/
def interjectionSize (s : Session M) : Nat :=
  match s.interjection with
  | some i => i.controls.length
  | none => 0

/-- A number of steps that suffices at the present time.  A command takes at most
eight: it is taken and begins, waits for an utterance, is heard, and its handler
finishes. -/
def backlog (s : Session M) : Nat :=
  40 + 8 * (s.world.workload + s.interjectionSize) + 4 * M.backgroundBacklog s.world.plant

/-- A session as time passes. -/
def clockwork (M : Machinery) : Clockwork (Session M) where
  now := fun s => s.world.now
  ready := fun s => s.world.workerReady || s.world.backgroundReady
  step := step
  due := fun s => s.world.due
  passTo := fun t s => { s with world := s.world.passTo t }
  backlog := backlog

/-! ### What happens in a session -/

/-- The calls of the parser reach the executor; the answers change nothing in the
parser. -/
def send (s : Session M) (calls : List Call) : Session M :=
  { s with world := s.world.controls (calls.map Control.call) }

/-- A piece of text arrives. -/
def add (s : Session M) (piece : List Char) : Session M :=
  let (parser, calls) := s.parser.add piece
  send { s with parser } calls

/-- The turn ends; tells whether another one was asked for. -/
def finish (s : Session M) : Bool × Session M :=
  let (continues, parser, calls) := s.parser.finish
  (continues, send { s with parser } calls)

/-- A control call from outside. -/
def ask (s : Session M) (c : Control) : Except ControlError Unit × Session M :=
  let (answer, world) := s.world.control c
  (answer, { s with world })

/-- Time passes. -/
def sleep (s : Session M) (ms : Nat) : Session M :=
  (clockwork M).advanceTo (s.world.now + ms) s

/-- A time before which the worker ends after a shutdown: for each command and
handler it waits a few times, and each wait is a word of 64 bits. -/
def horizon (s : Session M) : Nat :=
  s.world.now + 4 * UInt64.size * (s.world.workload + s.interjectionSize + 8)

/-- The executor is shut down, the worker ends, and everything settles. -/
def shutDown (s : Session M) : Session M :=
  let s := { s with world := s.world.close }
  let c := clockwork M
  c.settle (c.advanceUntil (fun s => s.world.hasExited) s.horizon s)

/-- A message leaves the channel. -/
def receive (s : Session M) : Option (List Char) × Session M :=
  let (message, channel) := s.world.channel.receive
  (message, { s with world := { s.world with channel } })

/-- All messages leave the channel. -/
def drain (s : Session M) : List (List Char) × Session M :=
  let (messages, channel) := s.world.channel.drain
  (messages, { s with world := { s.world with channel } })

/-- The receiving end of the channel goes. -/
def hangUp (s : Session M) : Session M :=
  { s with world := { s.world with channel := s.world.channel.close } }

end Session

end RoverPilot
