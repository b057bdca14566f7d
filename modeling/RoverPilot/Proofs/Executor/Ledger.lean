import Mathlib.Tactic
import RoverPilot.Proofs.Executor.History
import RoverPilot.Proofs.Executor.Run

/-!
What one step of the executor can do.

* `Ledger`, `World.ledger`: a world without clock, plant and channel, which is all that the
  laws of batches speak of;
* `Ledger.Step`: the steps of a ledger, one constructor for each thing that a control call or
  the worker may do;
* `World.look_cases`, `World.attend_cases`, `World.begin_cases`: what a look at the board comes
  to, also the one before a command begins;
* `World.steps_act`, `World.steps_run`: actions and runs are sequences of such steps;
* `Ledger.Reachable`, `World.reachable_run`: every run leads to a ledger that steps lead to.
-/

namespace RoverPilot

/-! ### Ledgers -/

/-- The batch of a lifecycle that executes under a signal. -/
def Board.active? (b : Board) : Option (Token × BatchId) :=
  match b.token, b.lifecycle.executing? with
  | some t, some batch => some (t, batch)
  | _, _ => none

/-- A signal is stored exactly while a batch executes. -/
def Board.Signalled (b : Board) : Prop := b.token.isSome = b.lifecycle.executing?.isSome

/-- A world without clock, plant and channel. -/
structure Ledger (M : Machinery) where
  board : Board
  worker : Worker M
  wake : Bool
  tokens : Nat
  cancelled : List Token
  /-- What happened so far, the oldest event first. -/
  history : List (Event M)

variable {M : Machinery}

/-- What happened in a world, the oldest event first. -/
def World.history (w : World M) : List (Event M) := w.journal.reverse.map Prod.snd

/-- What a world has of a ledger. -/
def World.ledger (w : World M) : Ledger M where
  board := w.board
  worker := w.worker
  wake := w.wake
  tokens := w.tokens
  cancelled := w.cancelled
  history := w.history

namespace Ledger

/-! ### Steps -/

/-- What a control call or the worker may do to a ledger. -/
inductive Step (l : Ledger M) : Ledger M → Prop where
  /-- A header arrives while no batch executes. -/
  | start (b : BatchId) (hopen : l.board.closing = false) (hl : l.board.lifecycle = .idle) :
      Step l { l with
        board := { l.board with lifecycle := .executing b, token := some l.tokens }
        tokens := l.tokens + 1
        history := l.history ++ [.announced b, .activated l.tokens b] }
  /-- A header arrives while a batch executes. -/
  | wait (b e : BatchId) (hopen : l.board.closing = false)
      (hl : l.board.lifecycle.executing? = some e) :
      Step l { l with
        board := { l.board with lifecycle := .collecting e b false }
        history := l.history ++ [.announced b] }
  /-- A command is accepted. -/
  | accept (b : BatchId) (t : Token) (c : Command) (hopen : l.board.closing = false)
      (hl : l.board.lifecycle = .executing b) (ht : l.board.token = some t) :
      Step l { l with
        board := { l.board with queue := l.board.queue ++ [c] }
        history := l.history ++ [.accepted t c] }
  /-- The waiting batch takes over. -/
  | preempt (b i : BatchId) (k : Bool) (t : Token) (c : Command)
      (hopen : l.board.closing = false) (hl : l.board.lifecycle = .collecting b i k)
      (hc : c.hasName preemptingName = true) (ht : l.board.token = some t) :
      Step l { l with
        board := { l.board with
          lifecycle := .executing i, queue := [], token := some l.tokens,
          epoch := l.board.epoch + 1 }
        tokens := l.tokens + 1
        cancelled := t :: l.cancelled
        history := l.history ++ [.preempted t c, .activated l.tokens i] }
  /-- The waiting batch does not begin with the preempting command. -/
  | ignore (b i : BatchId) (k : Bool) (c : Command) (hopen : l.board.closing = false)
      (hl : l.board.lifecycle = .collecting b i k) (hc : c.hasName preemptingName = false) :
      Step l { l with
        board := { l.board with lifecycle := .ignoring b i }
        history := l.history ++ [.dropped c (.incomingNotStop i)] }
  /-- A command is dropped, and no batch waits for its first command. -/
  | drop (c : Command) (cause : Rejection) (hopen : l.board.closing = false)
      (hl : l.board.lifecycle.enqueue c = (.reject cause, l.board.lifecycle)) :
      Step l { l with history := l.history ++ [.dropped c cause] }
  /-- The stream of the last header ends. -/
  | finish (hopen : l.board.closing = false) :
      Step l { l with board := { l.board with lifecycle := l.board.lifecycle.finish.2 } }
  /-- The operator stops the robot. -/
  | stop :
      Step l { l with
        cancelled := l.board.token.toList ++ l.cancelled
        history := l.history ++ [.stopped] }
  /-- The executor is shut down. -/
  | close :
      Step l { l with
        board := { l.board with closing := true, lifecycle := l.board.lifecycle.finish.2 }
        history := l.history ++ [.closed] }
  /-- A wake-up waits for the worker. -/
  | rouse : Step l { l with wake := true }
  /-- The worker finds that a batch was preempted. -/
  | notice (hp : l.worker.phase = .looking) (he : l.board.epoch ≠ l.worker.epoch) :
      Step l { l with
        worker := { l.worker with epoch := l.board.epoch, started := [], outcome := .ok } }
  /-- The worker finds the executing batch interrupted. -/
  | interrupt (b : BatchId) (t : Token) (hp : l.worker.phase = .looking)
      (he : l.board.epoch = l.worker.epoch) (ha : l.board.active? = some (t, b))
      (ho : l.worker.outcome = .ok) (hc : t ∈ l.cancelled) :
      Step l { l with
        worker := { l.worker with outcome := .interrupted }
        history := l.history ++ [.interrupted t] }
  /-- The worker finds no executing batch, and waits. -/
  | rest (hp : l.worker.phase = .looking) (he : l.board.epoch = l.worker.epoch)
      (hl : l.board.lifecycle = .idle) (hopen : l.board.closing = false) :
      Step l { l with
        board := { l.board with queue := [] }
        worker := { l.worker with phase := .parked } }
  /-- The worker finds no executing batch after a shutdown, and ends. -/
  | exit (hp : l.worker.phase = .looking) (he : l.board.epoch = l.worker.epoch)
      (hl : l.board.lifecycle = .idle) (hclosing : l.board.closing = true) :
      Step l { l with
        board := { l.board with queue := [] }
        worker := { l.worker with phase := .exited } }
  /-- The worker takes a command. -/
  | pop (b : BatchId) (t : Token) (c : Command) (q : List Command)
      (hp : l.worker.phase = .looking) (he : l.board.epoch = l.worker.epoch)
      (ha : l.board.active? = some (t, b)) (ho : l.worker.outcome = .ok)
      (hc : t ∉ l.cancelled) (hq : l.board.queue = c :: q) :
      Step l { l with
        board := { l.board with queue := q }
        worker := { l.worker with phase := .popped b t c } }
  /-- The worker waits for commands. -/
  | park (b : BatchId) (t : Token) (hp : l.worker.phase = .looking)
      (he : l.board.epoch = l.worker.epoch) (ha : l.board.active? = some (t, b))
      (ho : l.worker.outcome = .ok) (hc : t ∉ l.cancelled) (hq : l.board.queue = [])
      (hl : l.board.lifecycle.isAccepting = true) :
      Step l { l with worker := { l.worker with phase := .parked } }
  /-- The worker begins to finish a batch that ended badly. -/
  | fail (b : BatchId) (t : Token) (hp : l.worker.phase = .looking)
      (he : l.board.epoch = l.worker.epoch) (ha : l.board.active? = some (t, b))
      (ho : l.worker.outcome ≠ .ok) :
      Step l { l with
        worker := { l.worker with phase := .finishing b t l.worker.started, started := [] } }
  /-- The worker begins to finish a batch whose commands are all done. -/
  | complete (b : BatchId) (t : Token) (hp : l.worker.phase = .looking)
      (he : l.board.epoch = l.worker.epoch) (ha : l.board.active? = some (t, b))
      (ho : l.worker.outcome = .ok) (hc : t ∉ l.cancelled) (hq : l.board.queue = [])
      (hl : l.board.lifecycle.isAccepting = false) :
      Step l { l with
        worker := { l.worker with phase := .finishing b t l.worker.started, started := [] } }
  /-- The worker is woken. -/
  | unpark (hp : l.worker.phase = .parked) (hw : l.wake = true) :
      Step l { l with wake := false, worker := { l.worker with phase := .looking } }
  /-- A command that was taken has no handler. -/
  | unresolved (b : BatchId) (t : Token) (c : Command) (hp : l.worker.phase = .popped b t c)
      (hr : M.resolve c.name = none) :
      Step l { l with
        worker := { l.worker with phase := .looking, outcome := .parseError }
        history := l.history ++ [.unresolved t c] }
  /-- A command that was taken is not begun. -/
  | skip (b : BatchId) (t : Token) (c : Command) (k : M.Handler)
      (hp : l.worker.phase = .popped b t c) (hr : M.resolve c.name = some k)
      (hs : l.board.epoch ≠ l.worker.epoch ∨ t ∈ l.cancelled) :
      Step l { l with
        worker := { l.worker with phase := .looking, outcome := .interrupted }
        history := l.history ++ [.skipped t c] }
  /-- A command begins and goes on. -/
  | begin (b : BatchId) (t : Token) (c : Command) (k : M.Handler) (a : M.Activity)
      (hp : l.worker.phase = .popped b t c) (hr : M.resolve c.name = some k)
      (he : l.board.epoch = l.worker.epoch) (hc : t ∉ l.cancelled) :
      Step l { l with
        worker := { l.worker with phase := .running b t c a, started := l.worker.started ++ [k] }
        history := l.history ++ [.began t c k] }
  /-- A command begins and ends at once. -/
  | doAtOnce (b : BatchId) (t : Token) (c : Command) (k : M.Handler) (e : Ending)
      (hp : l.worker.phase = .popped b t c) (hr : M.resolve c.name = some k)
      (he : l.board.epoch = l.worker.epoch) (hc : t ∉ l.cancelled) :
      Step l { l with
        worker := { l.worker with
          phase := .looking, started := l.worker.started ++ [k], outcome := e.outcome }
        history := l.history ++ [.began t c k, .ended t c e] }
  /-- A command goes on. -/
  | goOn (b : BatchId) (t : Token) (c : Command) (a a' : M.Activity)
      (hp : l.worker.phase = .running b t c a) (hc : t ∉ l.cancelled) :
      Step l { l with worker := { l.worker with phase := .running b t c a' } }
  /-- A command ends by itself. -/
  | endCommand (b : BatchId) (t : Token) (c : Command) (a : M.Activity) (e : Ending)
      (hp : l.worker.phase = .running b t c a) :
      Step l { l with
        worker := { l.worker with phase := .looking, outcome := e.outcome }
        history := l.history ++ [.ended t c e] }
  /-- A command is given up. -/
  | giveUp (b : BatchId) (t : Token) (c : Command) (a : M.Activity)
      (hp : l.worker.phase = .running b t c a) (hc : t ∈ l.cancelled) :
      Step l { l with
        worker := { l.worker with phase := .looking, outcome := .interrupted }
        history := l.history ++ [.givenUp t c] }
  /-- A handler begins to finish and goes on. -/
  | beginFinish (b : BatchId) (t : Token) (k : M.Handler) (ks : List M.Handler) (a : M.Activity)
      (hp : l.worker.phase = .finishing b t (k :: ks)) :
      Step l { l with
        worker := { l.worker with phase := .finishingCall b t a ks }
        history := l.history ++ [.finishBegan t k] }
  /-- A handler finishes at once. -/
  | finishAtOnce (b : BatchId) (t : Token) (k : M.Handler) (ks : List M.Handler) (e : Ending)
      (hp : l.worker.phase = .finishing b t (k :: ks)) :
      Step l { l with
        worker := { l.worker with phase := .finishing b t ks }
        history := l.history ++ [.finishBegan t k, .finishEnded t e] }
  /-- A handler goes on finishing. -/
  | goOnFinishing (b : BatchId) (t : Token) (ks : List M.Handler) (a a' : M.Activity)
      (hp : l.worker.phase = .finishingCall b t a ks) :
      Step l { l with worker := { l.worker with phase := .finishingCall b t a' ks } }
  /-- A handler has finished. -/
  | endFinish (b : BatchId) (t : Token) (ks : List M.Handler) (a : M.Activity) (e : Ending)
      (hp : l.worker.phase = .finishingCall b t a ks) :
      Step l { l with
        worker := { l.worker with phase := .finishing b t ks }
        history := l.history ++ [.finishEnded t e] }
  /-- The result of a preempted batch is dropped. -/
  | discard (b : BatchId) (t : Token) (hp : l.worker.phase = .finishing b t [])
      (he : l.board.epoch ≠ l.worker.epoch) :
      Step l { l with
        worker := { l.worker with phase := .looking, outcome := .ok }
        history := l.history ++ [.discarded t] }
  /-- A batch is over and reported, and no batch waits for its first command. -/
  | retire (b : BatchId) (t : Token) (deadline : Nat) (hp : l.worker.phase = .finishing b t [])
      (he : l.board.epoch = l.worker.epoch) (hl : l.board.lifecycle.stage ≠ .collecting) :
      Step l { l with
        board := { l.board with lifecycle := .idle, queue := [], token := none }
        worker := { l.worker with
          phase := .reporting t (.ofOutcome b l.worker.outcome) deadline, outcome := .ok }
        cancelled := if l.worker.outcome.isOk then l.cancelled else t :: l.cancelled
        history := l.history ++ [.reported t (.ofOutcome b l.worker.outcome)] }
  /-- A batch is over and reported, and the waiting one takes its place. -/
  | promote (b : BatchId) (t : Token) (deadline : Nat) (e i : BatchId) (closed : Bool)
      (hp : l.worker.phase = .finishing b t []) (he : l.board.epoch = l.worker.epoch)
      (hl : l.board.lifecycle = .collecting e i closed) :
      Step l { l with
        board := { l.board with
          lifecycle := if closed then .finishCalled i else .executing i, queue := [],
          token := some l.tokens }
        worker := { l.worker with
          phase := .reporting t (.ofOutcome b l.worker.outcome) deadline, outcome := .ok }
        tokens := l.tokens + 1
        cancelled := if l.worker.outcome.isOk then l.cancelled else t :: l.cancelled
        history := l.history ++
          [.activated l.tokens i, .reported t (.ofOutcome b l.worker.outcome)] }
  /-- The channel takes a report. -/
  | deliver (t : Token) (r : Result) (deadline : Nat)
      (hp : l.worker.phase = .reporting t r deadline) :
      Step l { l with
        worker := { l.worker with phase := .looking }
        history := l.history ++ [.delivered t r] }
  /-- The channel refuses a report. -/
  | refuse (t : Token) (r : Result) (deadline : Nat) (x : DeliveryError)
      (hp : l.worker.phase = .reporting t r deadline) :
      Step l { l with
        worker := { l.worker with phase := .looking }
        history := l.history ++ [.undelivered t r x] }
  /-- The delivery of a report takes too long. -/
  | expire (t : Token) (r : Result) (deadline : Nat)
      (hp : l.worker.phase = .reporting t r deadline) :
      Step l { l with
        worker := { l.worker with phase := .looking }
        history := l.history ++ [.timedOut t r] }

/-- Any number of steps. -/
abbrev Steps : Ledger M → Ledger M → Prop := Relation.ReflTransGen Step

lemma Step.congr {l l' l'' : Ledger M} (h : Step l l') (e : l' = l'') : Step l l'' := e ▸ h

end Ledger

/-! ### Signals and the board -/

namespace Lifecycle

variable (b i : BatchId) (closed : Bool)

@[simp] lemma executing?_idle : idle.executing? = none := rfl

@[simp] lemma executing?_executing : (executing b).executing? = some b := rfl

@[simp] lemma executing?_finishCalled : (finishCalled b).executing? = some b := rfl

@[simp] lemma executing?_collecting : (collecting b i closed).executing? = some b := rfl

@[simp] lemma executing?_ignoring : (ignoring b i).executing? = some b := rfl

end Lifecycle

lemma Lifecycle.executing?_eq_none_iff {l : Lifecycle} : l.executing? = none ↔ l = .idle := by
  cases l <;> simp [executing?]

/-- Under a stored signal the executing batch is active. -/
lemma Board.Signalled.exists_active {b : Board} (hs : b.Signalled) {batch : BatchId}
    (hb : b.lifecycle.executing? = some batch) :
    ∃ t, b.token = some t ∧ b.active? = some (t, batch) := by
  have hsome : b.token.isSome := by rw [hs, hb]; rfl
  obtain ⟨t, ht⟩ := Option.isSome_iff_exists.mp hsome
  exact ⟨t, ht, by simp [active?, ht, hb]⟩

@[simp] lemma Board.active?_eq_some_iff {b : Board} {t : Token} {batch : BatchId} :
    b.active? = some (t, batch) ↔ b.token = some t ∧ b.lifecycle.executing? = some batch := by
  rw [active?]
  cases b.token <;> cases b.lifecycle.executing? <;> simp

lemma Outcome.isOk_iff {o : Outcome} : o.isOk = true ↔ o = .ok := by simp [isOk]

namespace World

section

variable (w : World M)

@[simp] lemma ledger_board : w.ledger.board = w.board := rfl

@[simp] lemma ledger_worker : w.ledger.worker = w.worker := rfl

@[simp] lemma ledger_cancelled : w.ledger.cancelled = w.cancelled := rfl

@[simp] lemma ledger_history : w.ledger.history = w.history := rfl

lemma isCancelled_iff (t : Token) : w.isCancelled t = true ↔ t ∈ w.cancelled := by
  simp [isCancelled]

/-! ### Control calls are steps -/

lemma step_start (b : BatchId) (hopen : w.board.closing = false) :
    Ledger.Step w.ledger (w.start b).ledger := by
  cases hl : w.board.lifecycle with
  | idle =>
      exact (Ledger.Step.start b hopen hl).congr (by
        simp [start, Lifecycle.start, hl, Lifecycle.executing?, ledger, history, note, activate])
  | executing e | finishCalled e | collecting e i k | ignoring e i =>
      exact (Ledger.Step.wait b e hopen (congrArg Lifecycle.executing? hl)).congr (by
        simp [start, Lifecycle.start, hl, Lifecycle.executing?, ledger, history, note])

lemma step_enqueue (c : Command) (hopen : w.board.closing = false) (hs : w.board.Signalled) :
    Ledger.Step w.ledger (w.enqueue c).1.ledger := by
  cases hl : w.board.lifecycle with
  | executing b =>
      obtain ⟨t, ht, -⟩ := hs.exists_active (congrArg Lifecycle.executing? hl)
      exact (Ledger.Step.accept b t c hopen hl ht).congr (by
        simp [enqueue, Lifecycle.enqueue, hl, ht, ledger, history, note])
  | collecting b i k =>
      obtain ⟨t, ht, -⟩ := hs.exists_active (congrArg Lifecycle.executing? hl)
      cases hc : c.hasName preemptingName with
      | true =>
          exact (Ledger.Step.preempt b i k t c hopen hl hc ht).congr (by
            simp [enqueue, Lifecycle.enqueue, hl, hc, ht, preempt, ledger, history, note, cancel,
              halt, activate])
      | false =>
          exact (Ledger.Step.ignore b i k c hopen hl hc).congr (by
            simp [enqueue, Lifecycle.enqueue, hl, hc, ledger, history, note])
  | idle | finishCalled b | ignoring b i =>
      obtain ⟨cause, hd⟩ : ∃ cause,
          w.board.lifecycle.enqueue c = (.reject cause, w.board.lifecycle) :=
        ⟨_, by rw [hl]; rfl⟩
      exact (Ledger.Step.drop c cause hopen hd).congr (by
        simp [enqueue, hd, ledger, history, note])

lemma step_update (c : Call) (hopen : w.board.closing = false) (hs : w.board.Signalled) :
    Ledger.Step w.ledger (w.update c).1.ledger := by
  cases c with
  | start b => exact w.step_start b hopen
  | enqueue c => exact w.step_enqueue c hopen hs
  | finish => exact .finish hopen

lemma ledger_stopUpdate :
    w.stopUpdate.ledger =
      { w.ledger with
        cancelled := w.board.token.toList ++ w.cancelled
        history := w.history ++ [.stopped] } := by
  cases ht : w.board.token <;> simp [stopUpdate, ht, ledger, history, note, halt, cancel]

lemma step_stopUpdate : Ledger.Step w.ledger w.stopUpdate.ledger :=
  Ledger.Step.stop.congr w.ledger_stopUpdate.symm

lemma step_closeUpdate : Ledger.Step w.ledger w.closeUpdate.ledger :=
  Ledger.Step.close.congr (by simp [closeUpdate, finishStream, ledger, history, note])

/-! ### A look at the board is a few steps -/

/-- After looking for preemptions the worker is up to date; the board and what the worker is
at stay as they are. -/
lemma noticePreemption_spec :
    w.noticePreemption.board = w.board ∧
      w.noticePreemption.worker.phase = w.worker.phase ∧
      w.noticePreemption.board.epoch = w.noticePreemption.worker.epoch := by
  rw [noticePreemption]
  split
  · exact ⟨rfl, rfl, ‹_›⟩
  · exact ⟨rfl, rfl, rfl⟩

lemma steps_noticePreemption (hp : w.worker.phase = .looking) :
    Ledger.Steps w.ledger w.noticePreemption.ledger := by
  rw [noticePreemption]
  split
  · exact .refl
  · rename_i he
    exact .single (Ledger.Step.notice hp he)

/-- After looking for the signal the outcome is good only if the signal is not given; the
board and what the worker is at stay as they are. -/
lemma noticeCancellation_spec (t : Token) :
    (w.noticeCancellation t).board = w.board ∧
      (w.noticeCancellation t).worker.phase = w.worker.phase ∧
      (w.noticeCancellation t).worker.epoch = w.worker.epoch ∧
      ((w.noticeCancellation t).worker.outcome = .ok → t ∉ (w.noticeCancellation t).cancelled) := by
  rw [noticeCancellation]
  split
  · exact ⟨rfl, rfl, rfl, fun h => by cases h⟩
  · rename_i hn
    rw [Outcome.isOk_iff, isCancelled_iff] at hn
    exact ⟨rfl, rfl, rfl, fun ho hc => hn ⟨ho, hc⟩⟩

lemma steps_noticeCancellation {b : BatchId} {t : Token} (hp : w.worker.phase = .looking)
    (he : w.board.epoch = w.worker.epoch) (ha : w.board.active? = some (t, b)) :
    Ledger.Steps w.ledger (w.noticeCancellation t).ledger := by
  rw [noticeCancellation]
  split
  · rename_i h
    rw [Outcome.isOk_iff, isCancelled_iff] at h
    exact .single ((Ledger.Step.interrupt b t hp he ha h.1 h.2).congr (by
      simp [ledger, history, note]))
  · exact .refl

/-- How the worker goes on with a batch: it takes the next command, waits for one, or lets the
handlers finish, which it does only after something went wrong or if no command may come. -/
lemma attend_cases (b : BatchId) (t : Token) :
    (∃ c q, w.worker.outcome = .ok ∧ w.board.queue = c :: q ∧
      w.attend b t = { w with board := { w.board with queue := q } }.enter (.popped b t c)) ∨
    (w.worker.outcome = .ok ∧ w.board.queue = [] ∧ w.board.lifecycle.isAccepting = true ∧
      w.attend b t = w.enter .parked) ∨
    (w.worker.outcome = .ok → w.board.queue = [] ∧ w.board.lifecycle.isAccepting = false) ∧
      w.attend b t = w.beginFinishing b t := by
  rw [attend]
  split
  · rename_i ho
    rw [Outcome.isOk_iff] at ho
    split
    · rename_i c q hq
      exact .inl ⟨c, q, ho, hq, rfl⟩
    · rename_i hq
      split
      · rename_i hl
        exact .inr (.inl ⟨ho, hq, hl, rfl⟩)
      · rename_i hl
        exact .inr (.inr ⟨fun _ => ⟨hq, Bool.eq_false_of_not_eq_true hl⟩, rfl⟩)
  · rename_i ho
    rw [Outcome.isOk_iff] at ho
    exact .inr (.inr ⟨fun hok => absurd hok ho, rfl⟩)

lemma step_attend {b : BatchId} {t : Token} (hp : w.worker.phase = .looking)
    (he : w.board.epoch = w.worker.epoch) (ha : w.board.active? = some (t, b))
    (hc : w.worker.outcome = .ok → t ∉ w.cancelled) :
    Ledger.Step w.ledger (w.attend b t).ledger := by
  rcases w.attend_cases b t with ⟨c, q, ho, hq, hattend⟩ | ⟨ho, hq, hl, hattend⟩ | ⟨hdone, hattend⟩
  · rw [hattend]
    exact .pop b t c q hp he ha ho (hc ho) hq
  · rw [hattend]
    exact .park b t hp he ha ho (hc ho) hq hl
  · rw [hattend]
    by_cases ho : w.worker.outcome = .ok
    · exact .complete b t hp he ha ho (hc ho) (hdone ho).1 (hdone ho).2
    · exact .fail b t hp he ha ho

/-- What a look at the board comes to: without an executing batch the worker rests or ends, and
otherwise it goes on with that batch. -/
lemma look_cases (hs : w.board.Signalled) :
    (w.board.lifecycle = .idle ∧
      w.look = { w.noticePreemption with board := { w.board with queue := [] } }.enter
        (if w.board.closing then .exited else .parked)) ∨
      ∃ b t, w.board.active? = some (t, b) ∧
        w.look = (w.noticePreemption.noticeCancellation t).attend b t := by
  have hboard := w.noticePreemption_spec.1
  cases hx : w.board.lifecycle.executing? with
  | none =>
      refine .inl ⟨Lifecycle.executing?_eq_none_iff.mp hx, ?_⟩
      simp only [look, hboard, hx]
  | some b =>
      -- the board has a signal for the executing batch, so none is made up
      obtain ⟨t, ht, ha⟩ := hs.exists_active hx
      refine .inr ⟨b, t, ha, ?_⟩
      simp only [look, currentToken, hboard, hx, ht]

lemma steps_look (hp : w.worker.phase = .looking) (hs : w.board.Signalled) :
    Ledger.Steps w.ledger w.look.ledger := by
  refine (w.steps_noticePreemption hp).trans ?_
  obtain ⟨hboard, hphase, he⟩ := w.noticePreemption_spec
  rw [← hphase] at hp
  rcases w.look_cases hs with ⟨hl, hlook⟩ | ⟨b, t, ha, hlook⟩
  · rw [hlook, ← hboard]
    rw [← hboard] at hl
    generalize w.noticePreemption = v at *
    cases hc : v.board.closing with
    | false => exact .single ((Ledger.Step.rest hp he hl hc).congr (by
        simp [ledger, history, enter]))
    | true => exact .single ((Ledger.Step.exit hp he hl hc).congr (by
        simp [ledger, history, enter]))
  · rw [hlook]
    rw [← hboard] at ha
    generalize w.noticePreemption = v at *
    obtain ⟨hb, hq, hw, hc⟩ := v.noticeCancellation_spec t
    refine (v.steps_noticeCancellation hp he ha).tail (step_attend _ (hq.trans hp) ?_ ?_ hc)
    · rw [hb, hw, he]
    · rw [hb, ha]

/-! ### What the worker does with a batch is a step -/

lemma ledger_afterCall_running (b : BatchId) (t : Token) (c : Command) (p : M.Plant)
    (a : M.Activity) :
    (w.afterCall b t c (p, .running a)).ledger =
      { w.ledger with worker := { w.worker with phase := .running b t c a } } := rfl

lemma ledger_afterCall_ended (b : BatchId) (t : Token) (c : Command) (p : M.Plant)
    (e : Ending) :
    (w.afterCall b t c (p, .ended e)).ledger =
      { w.ledger with
        worker := { w.worker with phase := .looking, outcome := e.outcome }
        history := w.history ++ [.ended t c e] } := by
  simp [afterCall, ledger, history, note, conclude]

lemma ledger_afterFinish_running (b : BatchId) (t : Token) (ks : List M.Handler) (p : M.Plant)
    (a : M.Activity) :
    (w.afterFinish b t ks (p, .running a)).ledger =
      { w.ledger with worker := { w.worker with phase := .finishingCall b t a ks } } := rfl

lemma ledger_afterFinish_ended (b : BatchId) (t : Token) (ks : List M.Handler) (p : M.Plant)
    (e : Ending) :
    (w.afterFinish b t ks (p, .ended e)).ledger =
      { w.ledger with
        worker := { w.worker with phase := .finishing b t ks }
        history := w.history ++ [.finishEnded t e] } := by
  simp [afterFinish, ledger, history, note, enter]

@[simp] lemma history_remember (t : Token) (c : Command) (k : M.Handler) :
    (w.remember t c k).history = w.history ++ [.began t c k] := by
  simp [remember, history, note]

/-- A look at a command whose signal is not given only tells whether it has ended. -/
lemma afterLook_of_notMem {t : Token} (ht : t ∉ w.cancelled) (b : BatchId) (c : Command)
    (r : M.Plant × Progress M.Activity) : w.afterLook b t c r = w.afterCall b t c r := by
  have hc : ¬ w.isCancelled t = true := fun h => ht ((w.isCancelled_iff t).mp h)
  rw [afterLook, if_neg hc]
  split <;> rfl

/-- What the last look at the board before a command comes to: it has no handler, it is skipped,
or it is fit to begin and the worker has changed nothing. -/
lemma vet_cases (t : Token) (c : Command) :
    (M.resolve c.name = none ∧
      w.vet t c = (none, (w.note (.unresolved t c)).conclude .parseError)) ∨
    ∃ k, M.resolve c.name = some k ∧
      ((w.board.epoch ≠ w.worker.epoch ∨ t ∈ w.cancelled) ∧
          w.vet t c = (none, (w.note (.skipped t c)).conclude .interrupted) ∨
        (w.board.epoch = w.worker.epoch ∧ t ∉ w.cancelled) ∧ w.vet t c = (some k, w)) := by
  rw [vet]
  cases hr : M.resolve c.name with
  | none => exact .inl ⟨rfl, rfl⟩
  | some k =>
      refine .inr ⟨k, rfl, ?_⟩
      simp only
      split
      · rename_i h
        rw [isCancelled_iff] at h
        exact .inl ⟨h, rfl⟩
      · rename_i h
        rw [isCancelled_iff, not_or, not_not] at h
        exact .inr ⟨h, rfl⟩

/-- What becomes of a command that was taken if nothing comes in between. -/
lemma begin_cases (b : BatchId) (t : Token) (c : Command) :
    (M.resolve c.name = none ∧
      w.begin b t c = (w.note (.unresolved t c)).conclude .parseError) ∨
    ∃ k, M.resolve c.name = some k ∧
      ((w.board.epoch ≠ w.worker.epoch ∨ t ∈ w.cancelled) ∧
          w.begin b t c = (w.note (.skipped t c)).conclude .interrupted ∨
        (w.board.epoch = w.worker.epoch ∧ t ∉ w.cancelled) ∧
          w.begin b t c = (w.remember t c k).afterCall b t c
            (M.execute k c.args (w.moment t) w.plant)) := by
  rcases w.vet_cases t c with ⟨hr, hvet⟩ | ⟨k, hr, ⟨hs, hvet⟩ | ⟨hgo, hvet⟩⟩
  · exact .inl ⟨hr, by rw [begin, hvet]⟩
  · exact .inr ⟨k, hr, .inl ⟨hs, by rw [begin, hvet]⟩⟩
  · refine .inr ⟨k, hr, .inr ⟨hgo, ?_⟩⟩
    rw [begin, hvet]
    exact (w.remember t c k).afterLook_of_notMem hgo.2 b c _

lemma step_begin {b : BatchId} {t : Token} {c : Command} (hp : w.worker.phase = .popped b t c) :
    Ledger.Step w.ledger (w.begin b t c).ledger := by
  rcases w.begin_cases b t c with ⟨hr, hbegin⟩ | ⟨k, hr, ⟨hs, hbegin⟩ | ⟨hgo, hbegin⟩⟩
  · rw [hbegin]
    exact (Ledger.Step.unresolved b t c hp hr).congr (by simp [ledger, history, note, conclude])
  · rw [hbegin]
    exact (Ledger.Step.skip b t c k hp hr hs).congr (by simp [ledger, history, note, conclude])
  · rw [hbegin]
    obtain ⟨p, r⟩ := M.execute k c.args _ _
    cases r with
    | running a =>
        rw [ledger_afterCall_running]
        exact (Ledger.Step.begin b t c k a hp hr hgo.1 hgo.2).congr (by
          simp [remember, ledger, history, note])
    | ended e =>
        rw [ledger_afterCall_ended]
        exact (Ledger.Step.doAtOnce b t c k e hp hr hgo.1 hgo.2).congr (by
          simp [remember, ledger, history, note])

lemma step_proceed {b : BatchId} {t : Token} {c : Command} {a : M.Activity}
    (hp : w.worker.phase = .running b t c a) :
    Ledger.Step w.ledger (w.proceed b t c a).ledger := by
  rw [proceed, afterLook]
  obtain ⟨p, r⟩ := M.resume a _ _
  cases r with
  | ended e =>
      rw [ledger_afterCall_ended]
      exact .endCommand b t c a e hp
  | running a' =>
      simp only
      split
      · rename_i hc
        rw [isCancelled_iff] at hc
        exact (Ledger.Step.giveUp b t c a hp hc).congr (by
          simp [ledger, history, note, conclude])
      · rename_i hc
        rw [isCancelled_iff] at hc
        rw [ledger_afterCall_running]
        exact .goOn b t c a a' hp hc

lemma step_finishNext {b : BatchId} {t : Token} {k : M.Handler} {ks : List M.Handler}
    (hp : w.worker.phase = .finishing b t (k :: ks)) :
    Ledger.Step w.ledger (w.finishNext b t k ks).ledger := by
  rw [finishNext]
  obtain ⟨p, r⟩ := M.finish k _ _
  cases r with
  | running a =>
      rw [ledger_afterFinish_running]
      exact (Ledger.Step.beginFinish b t k ks a hp).congr (by simp [ledger, history, note])
  | ended e =>
      rw [ledger_afterFinish_ended]
      exact (Ledger.Step.finishAtOnce b t k ks e hp).congr (by simp [ledger, history, note])

lemma step_finishOn {b : BatchId} {t : Token} {a : M.Activity} {ks : List M.Handler}
    (hp : w.worker.phase = .finishingCall b t a ks) :
    Ledger.Step w.ledger (w.finishOn b t a ks).ledger := by
  rw [finishOn]
  obtain ⟨p, r⟩ := M.resume a _ _
  cases r with
  | running a' =>
      rw [ledger_afterFinish_running]
      exact .goOnFinishing b t ks a a' hp
  | ended e =>
      rw [ledger_afterFinish_ended]
      exact .endFinish b t ks a e hp

lemma step_retire {b : BatchId} {t : Token} (hp : w.worker.phase = .finishing b t []) :
    Ledger.Step w.ledger (w.retire b t).ledger := by
  rw [retire]
  simp only
  split
  · rename_i he
    exact (Ledger.Step.discard b t hp he).congr (by simp [ledger, history, note, enter])
  · rename_i he
    rw [not_not] at he
    cases hl : w.board.lifecycle with
    | collecting e i closed =>
        refine (Ledger.Step.promote b t (w.now + w.reportTimeout) e i closed hp he hl).congr ?_
        cases ho : w.worker.outcome.isOk <;>
          simp [ho, hl, clearBoard, Lifecycle.finalize, activate, cancel, ledger, history, note,
            enter]
    | idle | executing e | finishCalled e | ignoring e i =>
        refine (Ledger.Step.retire b t (w.now + w.reportTimeout) hp he
          (by simp [hl, Lifecycle.stage])).congr ?_
        cases ho : w.worker.outcome.isOk <;>
          simp [ho, hl, clearBoard, Lifecycle.finalize, cancel, ledger, history, note, enter]

lemma steps_deliver {t : Token} {r : Result} {deadline : Nat}
    (hp : w.worker.phase = .reporting t r deadline) :
    Ledger.Steps w.ledger (w.deliver t r deadline).ledger := by
  rw [deliver]
  split
  · exact .single ((Ledger.Step.deliver t r deadline hp).congr (by
      simp [ledger, history, note, enter]))
  · exact .single ((Ledger.Step.refuse t r deadline .clientClosed hp).congr (by
      simp [ledger, history, note, enter]))
  · split
    · exact .single ((Ledger.Step.expire t r deadline hp).congr (by
        simp [ledger, history, note, enter]))
    · exact .refl

lemma steps_work (hs : w.board.Signalled) : Ledger.Steps w.ledger w.work.ledger := by
  rw [work]
  cases hp : w.worker.phase with
  | looking => exact w.steps_look hp hs
  | parked =>
      simp only
      split
      · rename_i hw
        exact .single (.unpark hp hw)
      · exact .refl
  | popped b t c => exact .single (w.step_begin hp)
  | running b t c a => exact .single (w.step_proceed hp)
  | finishing b t ks =>
      cases ks with
      | nil => exact .single (w.step_retire hp)
      | cons k ks => exact .single (w.step_finishNext hp)
  | finishingCall b t a ks => exact .single (w.step_finishOn hp)
  | reporting t r deadline => exact w.steps_deliver hp
  | exited => exact .refl

/-- Every action is a sequence of steps: none where only the clock, the plant or the channel
changes, one for a control call, a few for a look at the board. -/
theorem steps_act (a : Action M) (hs : w.board.Signalled) :
    Ledger.Steps w.ledger (w.act a).ledger := by
  cases a with
  | call c =>
      rw [act]
      split
      · exact .refl
      · rename_i hopen
        exact .single (w.step_update c (Bool.eq_false_of_not_eq_true hopen) hs)
  | stop => exact .single w.step_stopUpdate
  | close => exact .single w.step_closeUpdate
  | rouse => exact .single .rouse
  | work => exact w.steps_work hs
  | background | pass | disturb | receive | hangUp => exact .refl

end

end World

/-! ### Reachable ledgers -/

namespace Ledger

/-- The ledger before anything happens. -/
def initial : Ledger M :=
  { board := {}, worker := {}, wake := false, tokens := 0, cancelled := [], history := [] }

/-- The ledgers that steps lead to. -/
inductive Reachable : Ledger M → Prop where
  | initial : Reachable initial
  | step {l l' : Ledger M} : Reachable l → Step l l' → Reachable l'

lemma Reachable.steps {l l' : Ledger M} (h : Reachable l) (hs : Steps l l') : Reachable l' := by
  induction hs with
  | refl => exact h
  | tail _ hs ih => exact ih.step hs

/-- A signal is stored exactly while a batch executes. -/
lemma Reachable.signalled {l : Ledger M} (h : Reachable l) : l.board.Signalled := by
  induction h with
  | initial => rfl
  | step _ hs ih =>
      cases hs with
      | promote _ _ _ _ _ closed => cases closed <;> simp [Board.Signalled]
      | _ => simp_all [Board.Signalled]

end Ledger

/-- Every run is a sequence of steps. -/
theorem World.steps_run (w : World M) (h : w.ledger.Reachable) (as : List (Action M)) :
    Ledger.Steps w.ledger (w.run as).ledger := by
  induction as generalizing w with
  | nil => exact .refl
  | cons a as ih =>
      have hs := w.steps_act a h.signalled
      exact hs.trans (ih (w.act a) (h.steps hs))

/-- Every run from a fresh world leads to a reachable ledger. -/
theorem World.reachable_run (p : M.Plant) (ch : Channel) (d : Nat) (as : List (Action M)) :
    ((World.fresh p ch d).run as).ledger.Reachable :=
  Ledger.Reachable.initial.steps ((World.fresh p ch d).steps_run .initial as)

end RoverPilot
