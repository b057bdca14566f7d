import RoverPilot.Executor.World
import RoverPilot.Batch.Message

/-!
The worker: it runs the commands of a batch one after another, lets their handlers
finish, and reports the batch.

* `World.look`, `World.attend`: the worker looks at the board and goes on with a batch;
* `World.vet`, `World.launch`, `World.begin`: a command is found fit to begin, and
  begins;
* `World.proceed`: a command goes on;
* `World.finishNext`, `World.finishOn`, `World.retire`: handlers finish, the batch
  is over;
* `World.deliver`: a report is delivered;
* `World.work`: the next thing that the worker does.
-/

namespace RoverPilot.World

variable {M : Machinery}

/-! ### Looking at the board -/

/-- What the worker remembers of a preempted batch goes. -/
def noticePreemption (w : World M) : World M :=
  if w.board.epoch = w.worker.epoch then w
  else
    { w with worker := { w.worker with epoch := w.board.epoch, started := [], outcome := .ok } }

/-- The signal of the executing batch, a new one if it has none. -/
def currentToken (w : World M) : Token × World M :=
  match w.board.token with
  | some t => (t, w)
  | none =>
    (w.tokens, { w with tokens := w.tokens + 1, board := { w.board with token := some w.tokens } })

/-- A batch that was interrupted between its commands counts as interrupted. -/
def noticeCancellation (w : World M) (t : Token) : World M :=
  if w.worker.outcome.isOk ∧ w.isCancelled t then
    { w with worker := { w.worker with outcome := .interrupted } }.note (.interrupted t)
  else w

/-- The handlers begun for the batch are to finish. -/
def beginFinishing (w : World M) (batch : BatchId) (t : Token) : World M :=
  { w with worker := { w.worker with phase := .finishing batch t w.worker.started, started := [] } }

/-- The worker goes on with the executing batch.  A batch that ended badly is over;
otherwise the next command is taken, and without one the batch is over unless more
commands may come. -/
def attend (w : World M) (batch : BatchId) (t : Token) : World M :=
  if w.worker.outcome.isOk then
    match w.board.queue with
    | c :: rest => { w with board := { w.board with queue := rest } }.enter (.popped batch t c)
    | [] => if w.board.lifecycle.isAccepting then w.enter .parked else w.beginFinishing batch t
  else w.beginFinishing batch t

/-- The worker looks at the board.  Without an executing batch it waits, or ends
after a shutdown. -/
def look (w : World M) : World M :=
  let w := w.noticePreemption
  match w.board.lifecycle.executing? with
  | none =>
    { w with board := { w.board with queue := [] } }.enter
      (if w.board.closing then .exited else .parked)
  | some batch =>
    let (t, w) := w.currentToken
    (w.noticeCancellation t).attend batch t

/-! ### Commands -/

/-- What a call of a handler has come to. -/
def afterCall (w : World M) (batch : BatchId) (t : Token) (c : Command)
    (r : M.Plant × Progress M.Activity) : World M :=
  let w := { w with plant := r.1 }
  match r.2 with
  | .ended e => (w.note (.ended t c e)).conclude e.outcome
  | .running a => w.enter (.running batch t c a)

/-- What a look at a command has come to.  If it has not ended by itself when the
signal is given, it is given up. -/
def afterLook (w : World M) (batch : BatchId) (t : Token) (c : Command)
    (r : M.Plant × Progress M.Activity) : World M :=
  match r.2 with
  | .ended _ => w.afterCall batch t c r
  | .running _ =>
    if w.isCancelled t then
      ({ w with plant := r.1 }.note (.givenUp t c)).conclude .interrupted
    else w.afterCall batch t c r

/-- The last look at the board before a command begins.  It is over without a
handler or if the batch was interrupted since it was taken; otherwise it is fit to
begin. -/
def vet (w : World M) (t : Token) (c : Command) : Option M.Handler × World M :=
  match M.resolve c.name with
  | none => (none, (w.note (.unresolved t c)).conclude .parseError)
  | some h =>
    if w.board.epoch ≠ w.worker.epoch ∨ w.isCancelled t then
      (none, (w.note (.skipped t c)).conclude .interrupted)
    else (some h, w)

/-- The worker remembers a handler whose command begins. -/
def remember (w : World M) (t : Token) (c : Command) (h : M.Handler) : World M :=
  { w with worker := { w.worker with started := w.worker.started ++ [h] } }.note (.began t c h)

/-- A command begins.  The board is not looked at any more. -/
def launch (w : World M) (batch : BatchId) (t : Token) (c : Command) (h : M.Handler) :
    World M :=
  let w := w.remember t c h
  w.afterLook batch t c (M.execute h c.args (w.moment t) w.plant)

/-- A command that was taken begins if it is fit to, with nothing in between;
`Closeup` lets others act between the two. -/
def begin (w : World M) (batch : BatchId) (t : Token) (c : Command) : World M :=
  match w.vet t c with
  | (some h, w) => w.launch batch t c h
  | (none, w) => w

/-- A command goes on. -/
def proceed (w : World M) (batch : BatchId) (t : Token) (c : Command) (a : M.Activity) :
    World M :=
  w.afterLook batch t c (M.resume a (w.moment t) w.plant)

/-! ### The end of a batch -/

/-- What finishing a handler has come to; how it ends does not matter. -/
def afterFinish (w : World M) (batch : BatchId) (t : Token) (rest : List M.Handler)
    (r : M.Plant × Progress M.Activity) : World M :=
  let w := { w with plant := r.1 }
  match r.2 with
  | .ended e => (w.note (.finishEnded t e)).enter (.finishing batch t rest)
  | .running a => w.enter (.finishingCall batch t a rest)

/-- The next handler begins to finish. -/
def finishNext (w : World M) (batch : BatchId) (t : Token) (h : M.Handler)
    (rest : List M.Handler) : World M :=
  let w := w.note (.finishBegan t h)
  w.afterFinish batch t rest (M.finish h (w.moment t) w.plant)

/-- A handler goes on finishing. -/
def finishOn (w : World M) (batch : BatchId) (t : Token) (a : M.Activity)
    (rest : List M.Handler) : World M :=
  w.afterFinish batch t rest (M.resume a (w.moment t) w.plant)

/-- The executing batch is over.  What is left of it goes, and a batch that waits
for its first command takes its place. -/
def clearBoard (w : World M) : World M :=
  let (promoted, lifecycle) := w.board.lifecycle.finalize
  let w := { w with board := { w.board with lifecycle, queue := [], token := none } }
  match promoted with
  | some batch => w.activate batch
  | none => w

/-- All handlers have finished.  A batch that was preempted meanwhile is not
reported; any other one is over and reported. -/
def retire (w : World M) (batch : BatchId) (t : Token) : World M :=
  let o := w.worker.outcome
  let w := { w with worker := { w.worker with outcome := .ok } }
  if w.board.epoch ≠ w.worker.epoch then (w.note (.discarded t)).enter .looking
  else
    let w := if o.isOk then w else w.cancel t
    let r := Result.ofOutcome batch o
    (w.clearBoard.note (.reported t r)).enter (.reporting t r (w.now + w.reportTimeout))

/-! ### Reports -/

/-- A report is offered to the channel.  Without room it waits up to its deadline. -/
def deliver (w : World M) (t : Token) (r : Result) (deadline : Nat) : World M :=
  match w.channel.offer r.encode with
  | .taken channel => ({ w with channel }.note (.delivered t r)).enter .looking
  | .refused => (w.note (.undelivered t r .clientClosed)).enter .looking
  | .full => if deadline ≤ w.now then (w.note (.timedOut t r)).enter .looking else w

/-! ### All of it -/

/-- The next thing that the worker does; a worker that can do nothing does
nothing. -/
def work (w : World M) : World M :=
  match w.worker.phase with
  | .looking => w.look
  | .parked => if w.wake then { w with wake := false }.enter .looking else w
  | .popped batch t c => w.begin batch t c
  | .running batch t c a => w.proceed batch t c a
  | .finishing batch t (h :: rest) => w.finishNext batch t h rest
  | .finishing batch t [] => w.retire batch t
  | .finishingCall batch t a rest => w.finishOn batch t a rest
  | .reporting t r deadline => w.deliver t r deadline
  | .exited => w

/-- Whether the worker can do something now. -/
def workerReady (w : World M) : Bool :=
  match w.worker.phase with
  | .looking => true
  | .parked => w.wake
  | .popped _ _ _ => true
  | .running _ t _ a => w.isCancelled t || M.ready a (w.moment t) w.plant
  | .finishing _ _ _ => true
  | .finishingCall _ t a _ => M.ready a (w.moment t) w.plant
  | .reporting _ _ deadline => w.channel.closed || w.channel.hasRoom || decide (deadline ≤ w.now)
  | .exited => false

/-- What the worker waits for until it can do something by itself. -/
def workerWait (w : World M) : Option Wait :=
  match w.worker.phase with
  | .running _ _ _ a => M.wait a w.plant
  | .finishingCall _ _ a _ => M.wait a w.plant
  | .reporting _ _ deadline => some { since := deadline - w.reportTimeout, till := deadline }
  | _ => none

/-- Whether the worker has ended. -/
def hasExited (w : World M) : Bool :=
  match w.worker.phase with
  | .exited => true
  | _ => false

end RoverPilot.World
