import Mathlib.Tactic
import RoverPilot.Proofs.Executor.Activation
import RoverPilot.Proofs.Executor.Stop

/-!
No wake-up is lost.

* `Ledger.Quiet`, `World.parked_look`: there is nothing for the worker to do, and a look at the
  board shows it;
* `World.wakes`, `World.Answered`: the control calls that wake the worker, and that all of
  those in a list of actions have done so;
* `Ledger.Alert`, `World.alert_act`: a worker that waits has a wake-up waiting for it or nothing
  to do; only the change on the board that a waking call makes can break this;
* `World.run_parked`: so a worker that waits without a wake-up has nothing to do, unless a call
  has changed the board and not woken it yet.
-/

namespace RoverPilot

variable {M : Machinery}

namespace Ledger

/-! ### Nothing to do -/

/-- There is nothing for the worker to do. -/
inductive Quiet (l : Ledger M) : Prop where
  /-- No batch executes, and the executor is not shut down. -/
  | idle (hl : l.board.lifecycle = .idle) (hopen : l.board.closing = false)
  /-- The executing batch may receive more commands, none waits, nobody has stopped the batch,
  no preemption is unseen, and all went well so far. -/
  | receiving (b : BatchId) (t : Token) (hl : l.board.lifecycle = .executing b)
      (ht : l.board.token = some t) (hq : l.board.queue = []) (hc : t ∉ l.cancelled)
      (he : l.board.epoch = l.worker.epoch) (ho : l.worker.outcome = .ok)

/-- A worker that waits has a wake-up waiting for it, or nothing to do. -/
def Alert (l : Ledger M) : Prop := l.worker.phase = .parked → l.wake = true ∨ l.Quiet

variable {l l' : Ledger M}

lemma Alert.of_ne_parked (h : l.worker.phase ≠ .parked) : l.Alert := fun hp => absurd hp h

/-- Only a look at the board makes the worker wait. -/
lemma Step.ne_parked (hs : Step l l') (hlooking : l.worker.phase ≠ .looking)
    (hparked : l.worker.phase ≠ .parked) : l'.worker.phase ≠ .parked := by
  cases hs <;> simp_all

end Ledger

namespace World

variable (w : World M)

/-- A worker that goes on with a batch waits only if it lacks commands and more may come. -/
lemma attend_of_parked {b : BatchId} {t : Token}
    (hp : (w.attend b t).worker.phase = .parked) :
    w.attend b t = w.enter .parked ∧ w.worker.outcome = .ok ∧ w.board.queue = [] ∧
      w.board.lifecycle.isAccepting = true := by
  rcases w.attend_cases b t with ⟨c, q, -, -, hattend⟩ | ⟨ho, hq, hl, hattend⟩ | ⟨-, hattend⟩
  · rw [hattend] at hp
    cases hp
  · exact ⟨hattend, ho, hq, hl⟩
  · rw [hattend] at hp
    cases hp

/-- A worker that waits after a look at the board has nothing to do. -/
lemma quiet_of_look (hs : w.board.Signalled) (hp : w.look.worker.phase = .parked) :
    w.look.ledger.Quiet := by
  obtain ⟨hboard, -, hseen⟩ := w.noticePreemption_spec
  rcases w.look_cases hs with ⟨hl, hlook⟩ | ⟨b, t, ha, hlook⟩
  · cases hc : w.board.closing with
    | false => exact hlook ▸ .idle hl hc
    | true => simp [hlook, enter, hc] at hp
  · rw [hlook] at hp ⊢
    rw [← hboard] at ha
    generalize w.noticePreemption = v at *
    obtain ⟨ht, hx⟩ := Board.active?_eq_some_iff.mp ha
    obtain ⟨hb, -, hepoch, hcancelled⟩ := v.noticeCancellation_spec t
    obtain ⟨heq, ho, hq, haccepting⟩ := attend_of_parked _ hp
    rw [heq]
    have hl : v.board.lifecycle = .executing b := by
      rw [hb] at haccepting
      cases hlc : v.board.lifecycle <;> simp_all [Lifecycle.isAccepting]
    refine .receiving b t ?_ ?_ hq (hcancelled ho) ?_ ho
    · exact (congrArg Board.lifecycle hb).trans hl
    · exact (congrArg Board.token hb).trans ht
    · exact (congrArg Board.epoch hb).trans (hseen.trans hepoch.symm)

/-- A look at the board of a worker that has nothing to do makes it wait. -/
lemma parked_look (h : w.ledger.Quiet) : w.look.worker.phase = .parked := by
  cases h with
  | idle hl hopen =>
      obtain ⟨hboard, -, -⟩ := w.noticePreemption_spec
      rw [ledger_board, ← hboard] at hl hopen
      simp [look, hl, hopen, enter]
  | receiving b t hl ht hq hc he ho =>
      simp only [ledger_board, ledger_worker, ledger_cancelled] at *
      have hnotice : w.noticePreemption = w := by simp [noticePreemption, he]
      have hcancelled : w.isCancelled t = false := by
        rw [Bool.eq_false_iff, Ne, isCancelled_iff]
        exact hc
      simp [look, hnotice, hl, currentToken, ht, noticeCancellation, hcancelled, attend, ho, hq,
        Outcome.isOk, Lifecycle.isAccepting, enter]

/-! ### Calls that wake the worker -/

/-- Whether an action is a change on the board by a control call that wakes the worker after it.
A call that is refused does not, and neither does a command that is dropped. -/
def wakes : Action M → Bool
  | .call c => !w.board.closing && (w.update c).2
  | .stop => true
  | .close => true
  | _ => false

/-- No control call among some actions is half-way: after each change on the board that it wakes
the worker for, the worker was woken. -/
def Answered (w : World M) : List (Action M) → Prop
  | [] => True
  | a :: as => (w.wakes a = true → .rouse ∈ as) ∧ (w.act a).Answered as

variable {w}

/-- The worker waits only where a look at the board has made it wait. -/
lemma alert_work (hw : w.ledger.Reachable) (h : w.ledger.Alert) : w.work.ledger.Alert := by
  have hstep {v : World M} (hs : Ledger.Step w.ledger v.ledger)
      (hlooking : w.worker.phase ≠ .looking) (hparked : w.worker.phase ≠ .parked) :
      v.ledger.Alert :=
    .of_ne_parked (hs.ne_parked hlooking hparked)
  rw [work]
  cases hphase : w.worker.phase with
  | looking => exact fun hp => .inr (w.quiet_of_look hw.signalled hp)
  | parked =>
      simp only
      split
      · exact .of_ne_parked (by simp [ledger, enter])
      · exact h
  | popped b t c => exact hstep (w.step_begin hphase) (by simp [hphase]) (by simp [hphase])
  | running b t c a => exact hstep (w.step_proceed hphase) (by simp [hphase]) (by simp [hphase])
  | finishing b t ks =>
      cases ks with
      | nil => exact hstep (w.step_retire hphase) (by simp [hphase]) (by simp [hphase])
      | cons k ks => exact hstep (w.step_finishNext hphase) (by simp [hphase]) (by simp [hphase])
  | finishingCall b t a ks =>
      exact hstep (w.step_finishOn hphase) (by simp [hphase]) (by simp [hphase])
  | reporting t r deadline =>
      refine .of_ne_parked ?_
      simp only [deliver]
      split
      · simp [ledger, enter]
      · simp [ledger, enter]
      · split <;> simp [ledger, enter, note, hphase]
  | exited => exact .of_ne_parked (by simp [hphase])

/-- A command for which the worker is not woken is dropped, and gives it nothing to do. -/
lemma alert_enqueue (h : w.ledger.Alert) {c : Command} (hwakes : (w.enqueue c).2 = false) :
    (w.enqueue c).1.ledger.Alert := by
  intro hp
  cases hd : w.board.lifecycle.enqueue c with
  | mk decision lifecycle =>
      cases decision with
      | accept b => simp [enqueue, hd] at hwakes
      | preempt b i => simp [enqueue, hd] at hwakes
      | reject cause =>
          simp only [enqueue, hd] at hp ⊢
          refine (h hp).imp id fun hq => ?_
          cases hq with
          | idle hl hopen =>
              rw [ledger_board] at hl
              simp only [hl, Lifecycle.enqueue, Prod.mk.injEq] at hd
              exact .idle hd.2.symm hopen
          | receiving b t hl =>
              rw [ledger_board] at hl
              simp [hl, Lifecycle.enqueue] at hd

/-- Whatever happens, a worker that waits has a wake-up waiting for it or nothing to do, unless
a call changes the board for which it will wake the worker. -/
lemma alert_act (hw : w.ledger.Reachable) (h : w.ledger.Alert) {a : Action M}
    (ha : w.wakes a = false) : (w.act a).ledger.Alert := by
  cases a with
  | call c =>
      cases hopen : w.board.closing with
      | true => simpa [act, hopen] using h
      | false =>
          cases c with
          | start b => simp [wakes, hopen, update] at ha
          | finish => simp [wakes, hopen, update] at ha
          | enqueue c =>
              have hact : w.act (.call (.enqueue c)) = (w.enqueue c).1 := by
                simp [act, hopen, update]
              rw [hact]
              exact alert_enqueue h (by simpa [wakes, hopen, update] using ha)
  | stop | close => cases ha
  | rouse => exact fun _ => .inl rfl
  | work => exact alert_work hw h
  | background | pass | disturb | receive | hangUp => exact h

/-- After actions among which no call is half-way the worker is alert, if it was so before or
is woken on the way. -/
lemma alert_run (as : List (Action M)) (hw : w.ledger.Reachable) (has : w.Answered as)
    (h : w.ledger.Alert ∨ .rouse ∈ as) : (w.run as).ledger.Alert := by
  induction as generalizing w with
  | nil => simpa using h
  | cons a as ih =>
      have hact := hw.steps (w.steps_act a hw.signalled)
      refine ih hact has.2 ?_
      cases ha : w.wakes a with
      | true => exact .inr (has.1 ha)
      | false =>
          rcases h with h | h
          · exact .inl (alert_act hw h ha)
          · rcases List.mem_cons.mp h with rfl | h
            · exact .inl fun _ => .inl rfl
            · exact .inr h

end World

/-- No wake-up is lost, in whatever order control calls and the worker take their turns.  If no
control call is half-way, and the worker waits without a wake-up waiting for it, then there is
nothing for it to do: no batch executes and the executor is not shut down, or the executing
batch lacks commands and may receive more, and neither a stop nor a preemption is unseen.
Another look at the board would make it wait again. -/
theorem World.run_parked (p : M.Plant) (ch : Channel) (d : Nat) (as : List (Action M))
    (has : (fresh p ch d : World M).Answered as)
    (hp : ((fresh p ch d).run as).worker.phase = .parked)
    (hwake : ((fresh p ch d).run as).wake = false) :
    ((fresh p ch d).run as).ledger.Quiet ∧
      ((fresh p ch d).run as).look.worker.phase = .parked := by
  have halert : ((fresh p ch d : World M).run as).ledger.Alert :=
    alert_run as .initial has (.inl (.of_ne_parked (by simp [ledger, fresh])))
  have hquiet : ((fresh p ch d).run as).ledger.Quiet :=
    (halert hp).resolve_left fun h => Bool.false_ne_true (hwake.symm.trans h)
  exact ⟨hquiet, parked_look _ hquiet⟩

/-- The standard robot moves back, and the batch is preempted; the move ends, and the worker
looks at the board twice, as the wake-ups of three calls have become one. -/
def backPreempted : List (Action (Rig.machinery {})) :=
  [.call (.start 1), .rouse, .call (.enqueue ⟨"BACK", ["50"]⟩), .rouse, .work, .work,
    .call (.start 2), .rouse, .call (.enqueue ⟨"STOP", []⟩), .rouse, .work, .work, .work, .work]

/-- It waits without a wake-up then, and the batch that took over waits for commands. -/
theorem World.run_parked_preempted :
    let w := standardWorld.run backPreempted
    standardWorld.Answered backPreempted ∧ w.worker.phase = .parked ∧ w.wake = false ∧
      w.board.epoch = 1 ∧ w.ledger.Quiet ∧ w.look.worker.phase = .parked := by
  intro w
  have has : standardWorld.Answered backPreempted := by simp [Answered, backPreempted, wakes]
  have hp : w.worker.phase = .parked := rfl
  have hwake : w.wake = false := by decide +kernel
  exact ⟨has, hp, hwake, by decide +kernel, World.run_parked _ _ _ backPreempted has hp hwake⟩

end RoverPilot
