import Mathlib.Tactic
import RoverPilot.Proofs.Executor.Drain
import RoverPilot.Proofs.Executor.Fate
import RoverPilot.Proofs.Executor.Separation
import RoverPilot.Proofs.Executor.TurnEnd

/-!
What a shutdown leaves.

* `Lifecycle.waiting?`, `Ledger.upcoming`: the batch that waits for its first command, and the
  activation that it will get;
* `Ledger.Kept`, `Ledger.Steps.kept`: after a shutdown no command is accepted, no batch is
  preempted, and no batch begins but the one that waits;
* `Ledger.Reachable.queue_isSuffix`: the commands that wait are the last ones accepted into the
  executing batch;
* `World.Drained`, `World.Stops`: what has come of everything when the worker has ended, and that a
  stop by the operator works;
* `World.run_closed`: after a shutdown the worker ends, with nothing lost, and all calls of the
  parser are refused.
-/

namespace RoverPilot

open History

variable {M : Machinery}

/-- The batch that waits for its first command. -/
def Lifecycle.waiting? : Lifecycle → Option BatchId
  | collecting _ i _ => some i
  | _ => none

@[simp] lemma Lifecycle.waiting?_finish (l : Lifecycle) : l.finish.2.waiting? = l.waiting? := by
  cases l <;> rfl

/-- The handlers that are listed to finish. -/
def Phase.listed : Phase M → List M.Handler
  | .finishing _ _ ks => ks
  | .finishingCall _ _ _ ks => ks
  | _ => []

/-- The number of the handlers begun for a batch that have not begun to finish. -/
def Worker.handlers (k : Worker M) : Nat := k.started.length + k.phase.listed.length

namespace Ledger

variable {l l' : Ledger M} {t : Token}

/-! ### What stays after a shutdown -/

/-- The activation that the batch which waits for its first command will get. -/
def upcoming (l : Ledger M) : List (Token × BatchId) :=
  (l.board.lifecycle.waiting?.map fun i => (l.tokens, i)).toList

/-- Nothing is accepted and nothing preempted, and no batch begins but the one that waits. -/
structure Kept (l l' : Ledger M) : Prop where
  accepted : ∀ t, accepted t l'.history = accepted t l.history
  preempted : preempted l'.history = preempted l.history
  activations : activations l'.history ++ l'.upcoming = activations l.history ++ l.upcoming

lemma Kept.trans {l'' : Ledger M} (h : Kept l l') (k : Kept l' l'') : Kept l l'' where
  accepted t := (k.accepted t).trans (h.accepted t)
  preempted := k.preempted.trans h.preempted
  activations := k.activations.trans h.activations

lemma Step.kept (hs : Step l l') (h : l.Closing) : Kept l l' := by
  have hclosing := h.closing
  cases hs with
  | start | wait | accept | preempt | ignore | drop | finish | rest => simp_all
  | promote b t d e i closed hp he hl =>
      refine ⟨by simp, by simp, ?_⟩
      cases closed <;> simp [upcoming, hl, Lifecycle.waiting?]
  | retire b t d hp he hl =>
      refine ⟨by simp, by simp, ?_⟩
      cases hlc : l.board.lifecycle <;>
        simp_all [upcoming, Lifecycle.waiting?, Lifecycle.stage]
  | _ => exact ⟨by simp, by simp, by simp_all [upcoming]⟩

lemma Steps.kept (hs : Steps l l') (h : l.Closing) : Kept l l' :=
  h.keep (fun _ _ hs h hkept => hkept.trans (hs.kept h)) hs ⟨fun _ => rfl, rfl, rfl⟩

/-! ### The commands that wait -/

/-- The commands that wait are the last ones accepted into the executing batch. -/
lemma Reachable.queue_isSuffix (h : Reachable l) (ht : l.board.token = some t) :
    l.board.queue <:+ accepted t l.history := by
  induction h with
  | initial => cases ht
  | step hr hs ih =>
      cases hs with
      | start b hopen hl =>
          -- no command waits while no batch executes
          rename_i l
          have hnone : l.board.token = none := by simpa [Board.Signalled, hl] using hr.signalled
          simp [(hr.idle hnone).2.2.1]
      | accept b u c hopen hl hu =>
          obtain rfl : u = t := Option.some.inj (hu.symm.trans ht)
          obtain ⟨done, hdone⟩ := ih ht
          exact ⟨done, by simp [← hdone]⟩
      | pop b u c q hp he ha ho hc hq =>
          have hold := ih ht
          rw [hq] at hold
          exact (List.suffix_cons c q).trans hold
      | _ => simp_all

end Ledger

namespace World

variable {w u : World M}

lemma closing_closeUpdate (h : w.ledger.Reachable) : w.closeUpdate.ledger.Closing :=
  ⟨h.step w.step_closeUpdate, rfl⟩

/-- A shutdown itself accepts, preempts and begins nothing. -/
lemma kept_closeUpdate (w : World M) : Ledger.Kept w.ledger w.closeUpdate.ledger := by
  have hhistory : w.closeUpdate.history = w.history ++ [.closed] := by
    simp [closeUpdate, finishStream, history, note]
  have hwaiting : w.closeUpdate.board.lifecycle.waiting? = w.board.lifecycle.waiting? :=
    w.board.lifecycle.waiting?_finish
  have hupcoming : w.closeUpdate.ledger.upcoming = w.ledger.upcoming :=
    congrArg (fun i? : Option BatchId => (i?.map fun i => (w.tokens, i)).toList) hwaiting
  exact ⟨fun t => by simp [hhistory], by simp [hhistory], by simp [hhistory, hupcoming]⟩

/-! ### The end -/

lemma hasExited_iff : w.hasExited = true ↔ w.worker.phase = .exited := by
  rw [hasExited]
  cases w.worker.phase <;> simp

/-- What has come of everything when the worker has ended after a shutdown. -/
structure Drained (w u : World M) : Prop where
  /-- No batch executes, and none waits. -/
  idle : u.board.lifecycle = .idle
  /-- No command waits, -/
  queue : u.board.queue = []
  /-- no signal is stored, -/
  token : u.board.token = none
  /-- and no call of a handler is in progress. -/
  calls : inProgress u.history = []
  /-- The only batch that begins after the shutdown is the one that waits for its first command. -/
  activations : activations u.history = activations w.history ++ w.ledger.upcoming
  /-- It is reported. -/
  promoted : ∀ t i, (t, i) ∈ w.ledger.upcoming → ∃ r, (t, r) ∈ reports u.history ∧ r.id = i
  /-- So is the batch that executes.  The commands that wait are the last ones accepted into it, and
  all that were accepted are carried out and go well, or it is not reported as good. -/
  reported : ∀ t b, w.board.active? = some (t, b) →
    w.board.queue <:+ accepted t w.history ∧ ∃ r, (t, r) ∈ reports u.history ∧ r.id = b ∧
      (r.status = .ok → begun t u.history = accepted t w.history ∧
        trail t u.history = (accepted t w.history).map fun c => (some c, .ok))
  /-- If no batch executes, no command waits. -/
  unqueued : w.board.active? = none → w.board.queue = []

/-- When all is over, an activation that was not preempted is reported. -/
lemma exists_reported (hu : u.ledger.Reachable) (ht : u.board.token = none) {t : Token}
    {b : BatchId} (hb : (t, b) ∈ activations u.history) (hp : t ∉ preempted u.history) :
    ∃ r, (t, r) ∈ reports u.history ∧ r.id = b := by
  have hrange : t ∈ List.range u.tokens := hu.numbered ▸ List.mem_map_of_mem (f := Prod.fst) hb
  have hretired : t ∈ retired u.history := by
    have heq := hu.retired_eq
    rw [ledger_board, ht, Option.toList_none, List.append_nil] at heq
    exact heq ▸ hrange
  obtain ⟨r, hr⟩ := (mem_retired_iff.mp hretired).resolve_left hp
  exact ⟨r, hr, hu.activation_unique (hu.mem_activations_of_report hr) hb⟩

/-- When the worker has ended after a shutdown, nothing is left and nothing is lost. -/
lemma drained_of_exited (hw : w.ledger.Reachable) (hu : u.ledger.Reachable)
    (hkept : Ledger.Kept w.ledger u.ledger) (hexited : u.worker.phase = .exited) : Drained w u := by
  have hidle : u.board.lifecycle = .idle := (hu.exited hexited).1
  have htoken : u.board.token = none := by
    simpa [Board.Signalled, hidle] using hu.signalled
  have hactivations : activations u.history = activations w.history ++ w.ledger.upcoming := by
    simpa [Ledger.upcoming, hidle, Lifecycle.waiting?] using hkept.activations
  have hpreempted : preempted u.history = preempted w.history := hkept.preempted
  have hnew {t : Token} (ht : t ∉ retired w.history) : t ∉ preempted u.history := by
    rw [hpreempted]
    exact fun hmem => ht (mem_retired_iff.mpr (.inl hmem))
  refine ⟨hidle, (hu.idle htoken).2.2.1, htoken, ?_, hactivations, fun t i hti => ?_,
    fun t b ha => ?_, fun ha => ?_⟩
  · exact hu.inProgress_eq.trans (by simp [hexited])
  · refine exists_reported hu htoken (by simp [hactivations, hti]) (hnew fun hmem => ?_)
    have hlt := hw.retired_lt hmem
    obtain ⟨j, -, hj⟩ := Option.map_eq_some_iff.mp (Option.mem_toList.mp hti)
    cases hj
    exact Nat.lt_irrefl _ hlt
  · have ht := (Board.active?_eq_some_iff.mp ha).1
    refine ⟨hw.queue_isSuffix ht, ?_⟩
    obtain ⟨r, hr, hid⟩ := exists_reported hu htoken (t := t) (b := b)
      (hactivations ▸ List.mem_append_left _ (hw.active_mem ha))
      (hnew (hw.token_not_mem_retired ht))
    refine ⟨r, hr, hid, fun hok => ?_⟩
    have hacc : accepted t u.history = accepted t w.history := hkept.accepted t
    obtain ⟨b', o, -, rfl, haccount⟩ := hu.account hr
    rw [← hacc]
    cases haccount with
    | well _ htrail hbegun => exact ⟨hbegun, htrail⟩
    | badly _ _ hne => exact absurd (Outcome.verdict_eq_ok_iff.mp hok) hne
  · have ht : w.board.token = none := by
      have hsig := hw.signalled
      rw [Board.Signalled, ledger_board] at hsig
      cases htoken : w.board.token with
      | none => rfl
      | some t =>
          rw [htoken] at hsig
          obtain ⟨b, hb⟩ := Option.isSome_iff_exists.mp hsig.symm
          simp [Board.active?, htoken, hb] at ha
    exact (hw.idle ht).2.2.1

/-! ### How much is left to do at a shutdown -/

/-- At a shutdown a look at the board is left for each command that waits, and at most three more:
two for batches, and the last one. -/
lemma rounds_closeUpdate_le (w : World M) :
    w.closeUpdate.ledger.rounds ≤ w.board.queue.length + 3 := by
  have hqueue : w.closeUpdate.ledger.board.queue = w.board.queue := rfl
  have hpending := w.closeUpdate.ledger.board.lifecycle.pending_le
  rw [Ledger.rounds, hqueue]
  split
  · split <;> omega
  · split <;> omega
  · omega
  · omega

lemma drain_closeUpdate_le (w : World M) :
    w.closeUpdate.ledger.drain ≤ 5 * w.board.queue.length + 2 * w.worker.handlers + 14 := by
  have hqueue : w.closeUpdate.ledger.board.queue = w.board.queue := rfl
  have hworker : w.closeUpdate.ledger.worker = w.worker := rfl
  have hpending := w.closeUpdate.ledger.board.lifecycle.pending_le
  rw [Ledger.drain, hqueue, hworker, Worker.handlers]
  have hstale := Bool.toNat_le (w.closeUpdate.ledger.board.epoch != w.worker.epoch)
  cases hp : w.worker.phase <;> simp only [Phase.rank, Phase.listed, List.length_nil] <;> omega

/-! ### A stop after the shutdown -/

/-- A stop by the operator works: the motors stop, the worker is woken, and the signal of the
executing batch is given, which is not reported as good then, unless its handlers are to finish
already. -/
structure Stops (u : World M) : Prop where
  halted : u.stopNow.plant = M.halt u.now u.plant
  woken : u.stopNow.wake = true
  cancelled : ∀ t, u.board.token = some t → t ∈ u.stopNow.cancelled
  reported : ∀ t, u.board.token = some t → u.worker.phase.finishing? ≠ some t →
    ∀ as r, (t, r) ∈ reports (u.stopNow.run as).history → r.status ≠ .ok

lemma ledger_stopNow (u : World M) :
    u.stopNow.ledger =
      { u.ledger with
        wake := true
        cancelled := u.board.token.toList ++ u.cancelled
        history := u.history ++ [.stopped] } := by
  have hrouse : u.stopNow.ledger = { u.stopUpdate.ledger with wake := true } := rfl
  rw [hrouse, ledger_stopUpdate]

/-- It does in every state. -/
lemma stops (hu : u.ledger.Reachable) : u.Stops := by
  have hledger := u.ledger_stopNow
  have hboard : u.stopNow.board = u.board := congrArg Ledger.board hledger
  have hworker : u.stopNow.worker = u.worker := congrArg Ledger.worker hledger
  have hcancelled (t : Token) (ht : u.board.token = some t) : t ∈ u.stopNow.cancelled := by
    have heq : u.stopNow.cancelled = _ := congrArg Ledger.cancelled hledger
    rw [heq, ht]
    exact List.mem_cons_self
  refine ⟨?_, rfl, hcancelled, fun t ht hf as r hr => ?_⟩
  · cases ht : u.board.token <;> simp [stopNow, stopUpdate, ht, cancel, rouse, halt, note]
  · have hreach : u.stopNow.ledger.Reachable := hu.steps (u.steps_run hu [.stop, .rouse])
    exact (u.stopNow.steps_run hreach as).status_ne_ok hreach
      ((congrArg Board.token hboard).trans ht) (hcancelled t ht)
      (by rw [ledger_worker, hworker]; exact hf) hr

end World

/-- After a shutdown in any state the worker comes to its end, whatever the handlers do and in
whatever order all that follows takes its turns, control calls included.  It looks at the board at
most three times more often than commands wait at the shutdown, and as long as it has not ended, the
works that nothing holds up are fewer than a bound in these and in the handlers begun.  Once it is
woken, as it is by the shutdown, only a call of a handler or a report on its way can hold it up; so
if calls of handlers come to an end, it can end without a control call.  When it has ended, nothing
is left: the batch that executed is reported, and as good only if all its commands, with those that
waited, were carried out and went well; the batch that waited for its first command has executed
and is reported.  All calls of the parser are refused and change nothing; a stop by the operator
works. -/
theorem World.run_closed (p : M.Plant) (ch : Channel) (d : Nat) (as as' : List (Action M)) :
    let w := (fresh p ch d).run as
    let u := (w.act .close).run as'
    (w.act .close).works Looks as' ≤ w.board.queue.length + 3 ∧
      (u.worker.phase ≠ .exited → (w.act .close).works Advances as' <
        5 * w.board.queue.length + 2 * w.worker.handlers + 14) ∧
      (.rouse ∈ as' → M.Terminates →
        (u.worker.phase = .exited ∨ u.InTime Advances) ∧
          ∃ bs : List (Action M), (∀ b ∈ bs, b.unasked = true) ∧
            (u.run bs).worker.phase = .exited) ∧
      (u.worker.phase = .exited → Drained w u) ∧
      (∀ c, u.call c = (.error .shutDown, u)) ∧ u.Stops := by
  intro w u
  have hw : w.ledger.Reachable := reachable_run p ch d as
  have hv : (w.act .close).ledger.Closing := closing_closeUpdate hw
  have hu : u.ledger.Closing := closing_run hv as'
  have hkept : Ledger.Kept w.ledger u.ledger :=
    w.kept_closeUpdate.trans (((w.act .close).steps_run hv.reachable as').kept hv)
  refine ⟨?_, fun hexited => ?_, fun hrouse hM => ?_, drained_of_exited hw hu.reachable hkept,
    fun c => ?_, stops hu.reachable⟩
  · calc (w.act .close).works Looks as'
      _ ≤ (w.act .close).ledger.rounds := (Nat.le_add_right _ _).trans (works_looks_le hv as')
      _ ≤ w.board.queue.length + 3 := w.rounds_closeUpdate_le
  · have hpos : 0 < u.ledger.drain := Ledger.drain_pos hexited
    calc (w.act .close).works Advances as'
      _ < (w.act .close).works Advances as' + u.ledger.drain := Nat.lt_add_of_pos_right hpos
      _ ≤ (w.act .close).ledger.drain := works_advances_le hv as'
      _ ≤ 5 * w.board.queue.length + 2 * w.worker.handlers + 14 := w.drain_closeUpdate_le
  · have hawake : u.ledger.Awake := awake_run hv as' (.inr hrouse)
    refine ⟨?_, exists_exited hM hu hawake⟩
    by_cases hexited : u.worker.phase = .exited
    · exact .inl hexited
    · exact .inr (inTime_advances hM hawake hexited)
  · have hclosing : u.board.closing = true := hu.closing
    simp [World.call, hclosing]

/-- The standard robot moves back; a text to speak waits behind the move, and another batch waits
for its first command. -/
def backWithTwoWaiting : List (Action (Rig.machinery {})) :=
  [.call (.start 1), .rouse, .call (.enqueue ⟨"BACK", ["50"]⟩), .rouse, .work, .work,
    .call (.enqueue ⟨"SAY", ["hello"]⟩), .rouse, .call (.start 2), .rouse]

/-- After a shutdown the move ends, the text is spoken, and both batches are reported. -/
def drainedWithTwo : List (Action (Rig.machinery {})) :=
  [.rouse, .pass 100000, .work, .work, .work, .work, .work, .work, .background, .pass 200000,
    .background, .work, .work, .work, .work, .work, .work, .work]

/-- The worker ends with its fourth look at the board then, and can end as soon as it is woken. -/
theorem World.run_closed_waiting :
    let w := standardWorld.run backWithTwoWaiting
    let u := (w.act .close).run drainedWithTwo
    w.board.queue = [⟨"SAY", ["hello"]⟩] ∧ w.board.lifecycle = .collecting 1 2 false ∧
      (w.act .close).works Looks drainedWithTwo = 4 ∧ u.worker.phase = .exited ∧ Drained w u ∧
      reports u.history = [(0, ⟨1, .ok, .none⟩), (1, ⟨2, .ok, .none⟩)] ∧
      ∃ bs : List (Action (Rig.machinery {})), (∀ b ∈ bs, b.unasked = true) ∧
        (((w.act .close).run [.rouse]).run bs).worker.phase = .exited := by
  have hfresh : fresh standardWorld.plant standardWorld.channel 5000 = standardWorld := rfl
  have hclosed := World.run_closed standardWorld.plant standardWorld.channel 5000 backWithTwoWaiting
  rw [hfresh] at hclosed
  have hexited : (((standardWorld.run backWithTwoWaiting).act .close).run
      drainedWithTwo).worker.phase = .exited := hasExited_iff.mp (by decide +kernel)
  have hdrained := (hclosed drainedWithTwo).2.2.2.1 hexited
  have hends := (hclosed [.rouse]).2.2.1 (by simp) (Rig.terminates {})
  exact ⟨by decide +kernel, by decide +kernel, by decide +kernel, hexited, hdrained,
    by decide +kernel, hends.2⟩

end RoverPilot
