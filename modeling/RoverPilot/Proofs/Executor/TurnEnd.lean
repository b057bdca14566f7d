import Mathlib.Tactic
import RoverPilot.Proofs.Executor.Progress
import RoverPilot.Proofs.Executor.Stop
import RoverPilot.Proofs.Robot.Ending

/-!
A finished turn leaves no batch open.

* `Action.current_turnEnded`, `World.Heard.hasEnded`: after the end of a turn the calls are at no
  batch up to the next valid header, and then no more commands may come;
* `World.run_turnEnded`: so it is from the end of a turn up to the next valid header, and then
  every batch that executes can be reported without a control call.
-/

namespace RoverPilot

open History

variable {M : Machinery}

/-- If the calls so far are at no batch, no more commands may come. -/
lemma World.Heard.hasEnded {w : World M} {cs : List Call} (h : w.Heard cs)
    (hcs : Call.current none cs = none) : w.board.lifecycle.hasEnded = true := by
  cases hclosing : w.board.closing with
  | true => exact h.ended hclosing
  | false =>
      have hfollows := h.follows hclosing
      rw [hcs] at hfollows
      exact hfollows.hasEnded

namespace Lifecycle

variable {l : Lifecycle}

lemma stage_ne_executing (h : l.hasEnded = true) : l.stage ≠ .executing := by
  cases l <;> simp_all [stage, hasEnded]

end Lifecycle

/-- After the end of a turn and before the next valid header the calls are at no batch. -/
lemma Action.current_turnEnded {fs fs' : List Feed} {as as' : List (Action M)}
    (hcalls : calls as = (Parser.hearAll {} (fs ++ [.turnEnd])).2)
    (hcalls' : calls (as ++ as') <+: (Parser.hearAll {} (fs ++ .turnEnd :: fs')).2)
    (hheader : ∀ b, .call (.start b) ∉ as') :
    Call.Orderly none (calls (as ++ as')) ∧ Call.current none (calls (as ++ as')) = none := by
  obtain ⟨rest, hrest⟩ := hcalls'
  have horderly := Parser.orderly_hearAll (fs ++ .turnEnd :: fs')
  rw [← hrest, Call.orderly_append] at horderly
  have hend : Call.current none (calls as) = none := hcalls ▸ Parser.current_hearAll_turnEnd fs
  have hlater := horderly.1
  rw [calls_append, Call.orderly_append, hend] at hlater
  refine ⟨horderly.1, ?_⟩
  rw [calls_append, Call.current_append, hend]
  refine hlater.2.current_eq_none fun b hb => ?_
  obtain ⟨a, ha, hcall⟩ := List.mem_filterMap.mp hb
  obtain rfl : a = .call (.start b) := by cases a <;> simp_all [call?]
  exact hheader b ha

/-- From the end of a turn up to the next valid header no batch is open, whatever the turns are
and in whatever order their calls, a stop, a shutdown and the worker take their turns: no batch
that executes may receive commands, and the stream of a batch that waits for its first command
has ended.  A batch that executes can be reported without a control call then, if no control call
is half-way and calls of handlers come to an end. -/
theorem World.run_turnEnded (p : M.Plant) (ch : Channel) (d : Nat) (fs fs' : List Feed)
    (as as' : List (Action M))
    (hcalls : Action.calls as = (Parser.hearAll {} (fs ++ [.turnEnd])).2)
    (hcalls' : Action.calls (as ++ as') <+: (Parser.hearAll {} (fs ++ .turnEnd :: fs')).2)
    (hheader : ∀ b, .call (.start b) ∉ as') :
    let w := (fresh p ch d).run (as ++ as')
    w.board.lifecycle.stage ≠ .executing ∧
      (∀ b i closed, w.board.lifecycle = .collecting b i closed → closed = true) ∧
      (M.Terminates → (fresh p ch d).Answered (as ++ as') →
        ∀ t, w.board.token = some t → ∃ bs : List (Action M),
          (∀ b ∈ bs, b.unasked = true) ∧ ∃ r, (t, r) ∈ reports (w.run bs).history) := by
  intro w
  have hr : w.ledger.Reachable := reachable_run p ch d (as ++ as')
  obtain ⟨horderly, hnone⟩ := Action.current_turnEnded hcalls hcalls' hheader
  have hended : w.board.lifecycle.hasEnded = true :=
    (heard_run p ch d (as ++ as') horderly).hasEnded hnone
  refine ⟨Lifecycle.stage_ne_executing hended, fun b i closed hl => ?_, fun hM hanswered t ht => ?_⟩
  · rw [hl] at hended
    exact hended
  · have halert : w.ledger.Alert := alert_run (as ++ as') .initial hanswered
      (.inl (.of_ne_parked (by simp [ledger, fresh])))
    exact exists_report hM hr halert hended ht

/-- A turn with two headers, the second of which comes in two pieces and ends with the turn. -/
def turnOfTwo : List Feed :=
  [.piece "[COMMANDS id=1]\n> back 50\n[COMMANDS".toList, .piece " id=2]".toList]

/-- The calls for it; the second header arrives while the robot moves back. -/
def turnOfTwoHeard : List (Action (Rig.machinery {})) :=
  [.call (.start 1), .rouse, .call (.enqueue ⟨"BACK", ["50"]⟩), .rouse, .work, .work,
    .call (.start 2), .rouse, .call .finish, .rouse]

/-- The operator stops the move, and its batch is over. -/
def moveStopped : List (Action (Rig.machinery {})) := [.stop, .rouse, .work, .work, .work, .work]

/-- The batch of the second header executes then, may receive no command, and can be reported. -/
theorem World.run_turnEnded_promoted :
    let w := standardWorld.run (turnOfTwoHeard ++ moveStopped)
    Action.calls turnOfTwoHeard = (Parser.hearAll {} (turnOfTwo ++ [.turnEnd])).2 ∧
      (standardWorld.run turnOfTwoHeard).board.lifecycle = .collecting 1 2 true ∧
      w.board.lifecycle = .finishCalled 2 ∧ w.board.token = some 1 ∧
      ∃ bs : List (Action (Rig.machinery {})), (∀ b ∈ bs, b.unasked = true) ∧
        ∃ r, (1, r) ∈ reports (w.run bs).history := by
  intro w
  have hcalls : Action.calls turnOfTwoHeard = (Parser.hearAll {} (turnOfTwo ++ [.turnEnd])).2 := by
    decide +kernel
  have hcalls' : Action.calls (turnOfTwoHeard ++ moveStopped) <+:
      (Parser.hearAll {} (turnOfTwo ++ .turnEnd :: [.piece "> left 9\n".toList])).2 := by
    decide +kernel
  have hanswered : standardWorld.Answered (turnOfTwoHeard ++ moveStopped) := by
    simp [Answered, turnOfTwoHeard, moveStopped, wakes]
  have ht : w.board.token = some 1 := by decide +kernel
  refine ⟨hcalls, by decide +kernel, by decide +kernel, ht, ?_⟩
  exact (World.run_turnEnded _ _ _ turnOfTwo [.piece "> left 9\n".toList] turnOfTwoHeard moveStopped
    hcalls hcalls' (by simp [moveStopped])).2.2 (Rig.terminates {}) hanswered 1 ht

end RoverPilot
