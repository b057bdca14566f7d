import Mathlib.Tactic
import RoverPilot.Proofs.Executor.Preemption

/-!
Handlers that finish for a preempted batch.

* `History.finishes`, `Phase.left`: the handlers that have begun to finish for an activation, and
  those that the worker has still to go through for it;
* `Ledger.Steps.finishes_of_preempted`: a preemption takes nothing away from the handlers that
  the worker is going through;
* `World.run_finishes`: so the handlers that begin to finish for a preempted batch are the first
  ones of those that were left when it was preempted.
-/

namespace RoverPilot

open History

variable {M : Machinery}

/-- The handler that begins to finish for an activation. -/
@[simp] def Event.finisher? (t : Token) : Event M → Option M.Handler
  | .finishBegan u k => if u = t then some k else none
  | _ => none

/-- The handlers that have begun to finish for an activation, in order. -/
abbrev History.finishes (t : Token) (h : List (Event M)) : List M.Handler :=
  view (Event.finisher? t) h

/-- The handlers that the worker has still to go through for an activation. -/
@[simp] def Phase.left (t : Token) : Phase M → List M.Handler
  | .finishing _ u ks => if u = t then ks else []
  | .finishingCall _ u _ ks => if u = t then ks else []
  | _ => []

namespace Ledger

variable {l l' : Ledger M} {t : Token}

/-- The worker takes the handlers of a preempted batch one after another from those that it is
going through, and gets no new ones. -/
lemma Step.finishes_of_preempted (hs : Step l l') (hr : Reachable l)
    (ht : t ∈ preempted l.history) :
    finishes t l'.history ++ l'.worker.phase.left t =
      finishes t l.history ++ l.worker.phase.left t := by
  have hne := hr.token_ne_of_preempted ht
  cases hs with
  | beginFinish b u k ks a hp | finishAtOnce b u k ks e hp =>
      by_cases hu : u = t <;> simp [hp, hu]
  -- the worker begins to go through the handlers of the executing batch only
  | fail b u hp he ha | complete b u hp he ha =>
      have hnot : u ≠ t := by
        rintro rfl
        exact hne (Board.active?_eq_some_iff.mp ha).1
      simp [hp, hnot]
  | _ => simp_all

lemma Steps.finishes_of_preempted (hs : Steps l l') (hr : Reachable l)
    (ht : t ∈ preempted l.history) :
    finishes t l'.history ++ l'.worker.phase.left t =
      finishes t l.history ++ l.worker.phase.left t := by
  induction hs with
  | refl => rfl
  | tail hss hs ih =>
      have hpre := Steps.preempted_of_preempted hss ht
      exact (hs.finishes_of_preempted (hr.steps hss) hpre).trans ih

end Ledger

/-- Once a batch is preempted, the handlers that begin to finish for it are the first ones of
those that the worker was still going through for it, in order: none if it was not going
through any, and all of them if it goes on to the end. -/
theorem World.run_finishes (p : M.Plant) (ch : Channel) (d : Nat) (as as' : List (Action M))
    (t : Token) (ht : t ∈ preempted ((fresh p ch d).run as).history) :
    let w := (fresh p ch d).run as
    let v := (fresh p ch d).run (as ++ as')
    ∃ new, finishes t v.history = finishes t w.history ++ new ∧
      new ++ v.worker.phase.left t = w.worker.phase.left t := by
  intro w v
  have hw : w.ledger.Reachable := reachable_run p ch d as
  have hv : v = w.run as' := run_append _ as as'
  have hsteps : Ledger.Steps w.ledger v.ledger := hv ▸ w.steps_run hw as'
  obtain ⟨new, hnew⟩ : finishes t w.history <+: finishes t v.history :=
    hsteps.history_isPrefix.filterMap _
  refine ⟨new, hnew.symm, ?_⟩
  have heq : finishes t v.history ++ v.worker.phase.left t =
      finishes t w.history ++ w.worker.phase.left t := hsteps.finishes_of_preempted hw ht
  rw [← hnew, List.append_assoc] at heq
  exact List.append_cancel_left heq

/-! ### A preemption while handlers finish -/

/-- A handler that takes its time to finish. -/
def slowScript : Script := { name := "SLOW", ending := .returned .ok, finishDelay := 500 }

/-- A handler that finishes at once. -/
def quickScript : Script := { name := "QUICK", ending := .returned .ok }

/-- A robot with these two handlers. -/
def scriptedRig : Rig := { registry := [.scripted slowScript, .scripted quickScript] }

/-- It is at rest, before anything happens. -/
def scriptedWorld : World scriptedRig.machinery :=
  let plant : Plant := { body := { distance := 100.0 }, voice := { msPerWord := 250 } }
  .fresh (M := scriptedRig.machinery) plant (.withCapacity 16) 5000

/-- Both handlers are done with their commands, the first one takes its time to finish, and
then the batch is preempted. -/
def slowFinishing : List (Action scriptedRig.machinery) :=
  [.call (.start 1), .call (.enqueue ⟨"SLOW", []⟩), .call (.enqueue ⟨"QUICK", []⟩),
    .call .finish, .work, .work, .work, .work, .work, .work,
    .call (.start 2), .call (.enqueue ⟨"STOP", []⟩)]

/-- Once the worker has left the batch, the handler that was left has begun to finish. -/
theorem World.run_finishes_left :
    let w := scriptedWorld.run slowFinishing
    let v := scriptedWorld.run (slowFinishing ++ [.pass 500, .work, .work, .work])
    0 ∈ preempted w.history ∧ v.worker.phase.left 0 = [] ∧
      finishes 0 v.history = finishes 0 w.history ++ [.scripted quickScript] := by
  intro w v
  have ht : 0 ∈ preempted w.history := by decide +kernel
  have hleft : v.worker.phase.left 0 = [] := rfl
  obtain ⟨new, hnew, heq⟩ := World.run_finishes _ _ _ slowFinishing
    [.pass 500, .work, .work, .work] 0 ht
  have hall : new ++ v.worker.phase.left 0 = [.scripted quickScript] := heq
  rw [hleft, List.append_nil] at hall
  exact ⟨ht, hleft, hall ▸ hnew⟩

/-- It does so after the preemption, though its batch is not reported any more. -/
theorem World.run_finishes_preempted :
    let w := scriptedWorld.run slowFinishing
    let v := scriptedWorld.run (slowFinishing ++ [.pass 500, .work, .work])
    0 ∈ preempted w.history ∧ finishes 0 w.history = [.scripted slowScript] ∧
      finishes 0 v.history = [.scripted slowScript, .scripted quickScript] := by
  refine ⟨by decide +kernel, ?_, ?_⟩ <;> rfl

end RoverPilot
