import Mathlib.Tactic
import RoverPilot.Proofs.Executor.Standing

/-!
Batches are kept apart.

* `Phase.call?`, `Ledger.Reachable.inProgress_eq`: the only call of a handler that may be in
  progress is the one that the worker is at;
* `Ledger.Reachable.begun_isPrefix`: the commands begun under an activation are the first ones
  that were accepted into it;
* `History.Clear`, `Ledger.Reachable.at_begin`: when a command begins, its activation executes,
  and all commands before it are done and went well;
* `World.run_separated`: so it is after every run.
-/

namespace RoverPilot

open History

variable {M : Machinery}

/-- The call of a handler that the worker is at, with its command if it carries one out. -/
@[simp] def Phase.call? : Phase M → Option (Token × Option Command)
  | .running _ t c _ => some (t, some c)
  | .finishingCall _ t _ _ => some (t, none)
  | _ => none

namespace History

/-- After these events the next command of an activation may begin. -/
structure Clear (t : Token) (pre : List (Event M)) : Prop where
  /-- The activation executes. -/
  executing : Executing t pre
  /-- No newer activation has begun. -/
  newest : ∀ p ∈ activations pre, p.1 ≤ t
  /-- All its commands that have begun are done and went well, and nothing else was found. -/
  done : trail t pre = (begun t pre).map fun c => (some c, .ok)

end History

namespace Ledger

variable {l l' : Ledger M} {t : Token} {b : BatchId} {c : Command}

/-! ### Calls in progress -/

/-- The only call in progress is the one that the worker is at. -/
lemma Reachable.inProgress_eq (h : Reachable l) :
    inProgress l.history = l.worker.phase.call?.toList := by
  induction h with
  | initial => rfl
  | step hr hs ih => cases hs <;> simp_all

lemma Reachable.length_inProgress_le (h : Reachable l) : (inProgress l.history).length ≤ 1 := by
  rw [h.inProgress_eq]
  exact Option.length_toList_le

/-- At no event a second call is in progress. -/
lemma Reachable.alone (h : Reachable l) :
    Always (fun pre e => (inProgress (pre ++ [e])).length ≤ 1) l.history := by
  induction h with
  | initial => exact always_nil
  | step hr hs ih =>
      have hcalls := hr.inProgress_eq
      have hle := hr.length_inProgress_le
      have hle' := (hr.step hs).length_inProgress_le
      cases hs with
      | finish | rouse | notice | rest | exit | pop | park | fail | complete | unpark | goOn
      | goOnFinishing => exact ih
      -- between the two events of a step there is no ledger, so the calls are counted here
      | start | preempt | promote =>
          exact always_append_pair.mpr ⟨ih, by simpa using hle, by simpa using hle'⟩
      | doAtOnce _ _ _ _ _ hp | finishAtOnce _ _ _ _ _ hp =>
          exact always_append_pair.mpr ⟨ih, by simp [hcalls, hp], by simpa using hle'⟩
      | _ => exact always_append_singleton.mpr ⟨ih, hle'⟩

/-! ### Begins of commands -/

/-- How it stands with the executing batch when its next command is in hand. -/
lemma Reachable.standing_of_popped (h : Reachable l) (hp : l.worker.phase = .popped b t c)
    (he : l.board.epoch = l.worker.epoch) :
    l.board.token = some t ∧ Standing l.worker.outcome (.taken c) l.board.queue
      l.board.lifecycle.isAccepting (trail t l.history) (begun t l.history)
      (accepted t l.history) := by
  have ha := h.attached_active he (t := t) (b := b) (by rw [hp]; rfl)
  have ht := (Board.active?_eq_some_iff.mp ha).1
  exact ⟨ht, by simpa [hp] using (stands_iff he).mp (h.stands ht)⟩

/-- The next command to begin is the next one that was accepted. -/
lemma Reachable.begun_concat_isPrefix (h : Reachable l) (hp : l.worker.phase = .popped b t c)
    (he : l.board.epoch = l.worker.epoch) : begun t l.history ++ [c] <+: accepted t l.history := by
  cases (h.standing_of_popped hp he).2 with
  | good done ho htrail hbegun haccepted => simp [hbegun, haccepted]
  | bad done c? ho htrail hbegun haccepted hcommand => cases hcommand

/-- The commands begun are the first ones of those accepted, at every event. -/
lemma Reachable.begun_isPrefix (h : Reachable l) :
    Always (fun pre e => ∀ t, begun t (pre ++ [e]) <+: accepted t (pre ++ [e])) l.history := by
  induction h with
  | initial => exact always_nil
  | step hr hs ih =>
      rename_i l l'
      have hall : ∀ t, begun t l.history <+: accepted t l.history :=
        ih.of_isPrefix (Q := fun pre => ∀ t, begun t pre <+: accepted t pre) (by simp)
          (List.prefix_refl _)
      have hnext {b : BatchId} {u : Token} {c : Command} (hp : l.worker.phase = .popped b u c)
          (he : l.board.epoch = l.worker.epoch) (t : Token) :
          begun t l.history ++ (if u = t then some c else none).toList <+:
            accepted t l.history := by
        by_cases hu : u = t
        · simpa [hu] using hr.begun_concat_isPrefix (hu ▸ hp) he
        · simpa [hu] using hall t
      cases hs with
      | accept =>
          refine always_append_singleton.mpr ⟨ih, fun t => ?_⟩
          simpa using (hall t).trans (List.prefix_append _ _)
      | begin _ _ _ _ _ hp _ he =>
          exact always_append_singleton.mpr ⟨ih, by simpa using hnext hp he⟩
      | doAtOnce _ _ _ _ _ hp _ he =>
          exact always_append_pair.mpr ⟨ih, by simpa using hnext hp he, by simpa using hnext hp he⟩
      | finish | rouse | notice | rest | exit | pop | park | fail | complete | unpark | goOn
      | goOnFinishing => exact ih
      | start | preempt | promote | finishAtOnce =>
          exact always_append_pair.mpr ⟨ih, by simpa using hall, by simpa using hall⟩
      | _ => exact always_append_singleton.mpr ⟨ih, by simpa using hall⟩

/-- When the next command of a batch may begin, all is clear. -/
lemma Reachable.clear_of_popped (h : Reachable l) (hp : l.worker.phase = .popped b t c)
    (he : l.board.epoch = l.worker.epoch) : Clear t l.history := by
  obtain ⟨ht, hstanding⟩ := h.standing_of_popped hp he
  refine ⟨h.executing_iff.mpr ht, fun p hp => ?_, ?_⟩
  · have hlt : p.1 ∈ List.range l.tokens := h.numbered ▸ List.mem_map_of_mem (f := Prod.fst) hp
    rw [← h.token_succ ht, List.mem_range] at hlt
    exact Nat.le_of_lt_succ hlt
  · cases hstanding with
    | good done ho htrail hbegun haccepted => simp [htrail, hbegun]
    | bad done c? ho htrail hbegun haccepted hcommand => cases hcommand

/-- When a command begins, all is clear. -/
lemma Reachable.at_begin (h : Reachable l) :
    Always (fun pre e => ∀ t c k, e = .began t c k → Clear t pre) l.history := by
  induction h with
  | initial => exact always_nil
  | step hr hs ih =>
      cases hs with
      | begin _ _ _ _ _ hp _ he => simpa [ih] using hr.clear_of_popped hp he
      | doAtOnce _ _ _ _ _ hp _ he => simpa [ih] using hr.clear_of_popped hp he
      | _ => simpa using ih

end Ledger

/-- Batches are kept apart, whatever the handlers do and in whatever order control calls and
the worker take their turns: at most one call of a handler is in progress; the commands begun
under an activation are the first ones that were accepted into it; and a command begins only
while its activation executes, no newer one has begun, and the commands before it went
well.  The activation that executes is the one on the board. -/
theorem World.run_separated (p : M.Plant) (ch : Channel) (d : Nat) (as : List (Action M)) :
    let h := ((fresh p ch d).run as).history
    (∀ pre, pre <+: h → (inProgress pre).length ≤ 1) ∧
      (∀ pre, pre <+: h → ∀ t, begun t pre <+: accepted t pre) ∧
      (∀ pre t c k, pre ++ [.began t c k] <+: h → Clear t pre) ∧
      ∀ t b, ((fresh p ch d).run as).board.active? = some (t, b) ↔
        Executing t h ∧ (t, b) ∈ activations h := by
  intro h
  have hr : (World.ledger _).Reachable := reachable_run p ch d as
  refine ⟨fun pre hpre => ?_, fun pre hpre => ?_, fun pre t c k hpre => ?_,
    fun t b => hr.active_iff⟩
  · exact hr.alone.of_isPrefix (Q := fun pre => (inProgress pre).length ≤ 1) (by simp) hpre
  · exact hr.begun_isPrefix.of_isPrefix (Q := fun pre => ∀ t, begun t pre <+: accepted t pre)
      (by simp) hpre
  · exact hr.at_begin pre (.began t c k) hpre t c k rfl

end RoverPilot
