import Mathlib.Tactic
import RoverPilot.Proofs.Executor.Activation

/-!
Signals that are given, and interruptions that are found.

* `Event.interruption?`, `History.interruptions`: the worker finds an activation interrupted;
* `History.StoppedUnder`: the operator stopped the robot while an activation executed;
* `Ledger.Reachable.stopped_of_cancelled`: the signal of the executing batch is given only by
  the operator;
* `Ledger.Reachable.stopped_of_interruption`: hence an activation that is not preempted is
  found interrupted only if the operator stopped the robot under it.
-/

namespace RoverPilot

open History

variable {M : Machinery}

/-- The activation that the worker finds interrupted. -/
@[simp] def Event.interruption? : Event M → Option Token
  | .interrupted t => some t
  | .skipped t _ => some t
  | .givenUp t _ => some t
  | _ => none

namespace History

/-- The activations that the worker finds interrupted, in order. -/
abbrev interruptions (h : List (Event M)) : List Token := view Event.interruption? h

/-- The operator stopped the robot while an activation executed. -/
def StoppedUnder (t : Token) (h : List (Event M)) : Prop :=
  ∃ pre, pre ++ [.stopped] <+: h ∧ Executing t pre

lemma StoppedUnder.append {t : Token} {h : List (Event M)} (hs : StoppedUnder t h)
    (k : List (Event M)) : StoppedUnder t (h ++ k) := by
  obtain ⟨pre, hpre, hexec⟩ := hs
  exact ⟨pre, hpre.trans (List.prefix_append _ _), hexec⟩

end History

namespace Ledger

variable {l l' : Ledger M} {t : Token}

/-- A signal that is given is that of an activation that is over, or the operator gave it. -/
lemma Reachable.stopped_of_cancelled (h : Reachable l) (ht : t ∈ l.cancelled) :
    t ∈ retired l.history ∨ StoppedUnder t l.history := by
  induction h with
  | initial => cases ht
  | step hr hs ih =>
      rename_i l l'
      obtain ⟨new, hnew, -⟩ := hs.concerns
      have hold (ht : t ∈ l.cancelled) :
          t ∈ retired l'.history ∨ StoppedUnder t l'.history := by
        rw [hnew]
        exact (ih ht).imp (fun hret => by simp [hret]) (·.append new)
      cases hs with
      | stop =>
          rw [List.mem_append, Option.mem_toList] at ht
          rcases ht with ht | ht
          · exact .inr ⟨l.history, List.prefix_refl _, hr.executing_iff.mpr ht⟩
          · exact hold ht
      | preempt b i k u c =>
          rcases List.mem_cons.mp ht with rfl | ht
          · exact .inl (by simp)
          · exact hold ht
      | retire | promote =>
          simp only at ht
          split at ht
          · exact hold ht
          · rcases List.mem_cons.mp ht with rfl | ht
            · exact .inl (by simp)
            · exact hold ht
      | _ => exact hold ht

/-- The signal of the executing batch is given only by the operator. -/
lemma Reachable.stopped_of_active (h : Reachable l) (ht : t ∈ l.cancelled)
    (htoken : l.board.token = some t) : StoppedUnder t l.history :=
  (h.stopped_of_cancelled ht).resolve_left (h.token_not_mem_retired htoken)

/-- An activation that is found interrupted was preempted, or the operator stopped the robot
under it. -/
lemma Reachable.stopped_of_interruption (h : Reachable l) (ht : t ∈ interruptions l.history) :
    t ∈ preempted l.history ∨ StoppedUnder t l.history := by
  induction h with
  | initial => cases ht
  | step hr hs ih =>
      rename_i l l'
      obtain ⟨new, hnew, -⟩ := hs.concerns
      have hold (ht : t ∈ preempted l.history ∨ StoppedUnder t l.history) :
          t ∈ preempted l'.history ∨ StoppedUnder t l'.history := by
        rw [hnew]
        exact ht.imp (fun hret => by simp [hret]) (·.append new)
      -- a worker that has seen every preemption finds the signal of the executing batch given,
      -- any other one is at a preempted batch
      have hat {u : Token} {b : BatchId} (hu : l.worker.phase.attached? = some (u, b))
          (hc : l.board.epoch = l.worker.epoch → u ∈ l.cancelled) :
          u ∈ preempted l.history ∨ StoppedUnder u l.history := by
        rcases hr.attached_cases hu with ⟨he, ha⟩ | ⟨-, hpre, -⟩
        · exact .inr (hr.stopped_of_active (hc he) (Board.active?_eq_some_iff.mp ha).1)
        · exact .inl hpre
      cases hs with
      | interrupt b u hp he ha ho hc =>
          obtain ht | rfl : t ∈ interruptions l.history ∨ t = u := by simpa using ht
          · exact hold (ih ht)
          · exact hold (.inr (hr.stopped_of_active hc (Board.active?_eq_some_iff.mp ha).1))
      | skip b u c k hp _ hc =>
          obtain ht | rfl : t ∈ interruptions l.history ∨ t = u := by simpa using ht
          · exact hold (ih ht)
          · exact hold (hat (b := b) (by rw [hp]; rfl) (fun he => hc.resolve_left (· he)))
      | giveUp b u c a hp hc =>
          obtain ht | rfl : t ∈ interruptions l.history ∨ t = u := by simpa using ht
          · exact hold (ih ht)
          · exact hold (hat (b := b) (by rw [hp]; rfl) (fun _ => hc))
      | _ => exact hold (ih (by simpa using ht))

end Ledger

end RoverPilot
