import Mathlib.Tactic
import RoverPilot.Proofs.Executor.Coherence
import RoverPilot.Proofs.Executor.Provenance

/-!
Handlers that finish for a reported batch.

* `Ledger.Concluded`, `Ledger.Reachable.concluded`: once a handler has begun to finish for a batch,
  no command of it begins any more, and nothing more is found of it;
* `Ledger.Completed`, `Ledger.Reachable.completed`: when a batch is reported, all handlers that
  began for it have finished, and none begins or finishes for it later;
* `Ledger.Reachable.passed`: a command without a handler, or skipped, stands right behind those
  that began;
* `History.Complete`, `World.run_completed`: so the handlers that finish for a reported batch are
  those that began for it, one for each command, in order, and how they finish does not matter.
-/

namespace RoverPilot

open History

variable {M : Machinery}

/-! ### Events and their places -/

namespace History

variable {e : Event M} {pre h : List (Event M)}

/-- An event of a history stands somewhere in it. -/
lemma exists_isPrefix_of_mem (he : e ∈ h) : ∃ pre, pre ++ [e] <+: h := by
  obtain ⟨pre, post, rfl⟩ := List.append_of_mem he
  exact ⟨pre, post, by simp⟩

lemma mem_of_isPrefix (hpre : pre ++ [e] <+: h) : e ∈ h := hpre.subset (by simp)

lemma mem_reports_iff {t : Token} {r : Result} : (t, r) ∈ reports h ↔ .reported t r ∈ h := by
  rw [mem_view]
  constructor
  · rintro ⟨e, he, her⟩
    cases e <;> simp_all
  · exact fun he => ⟨_, he, rfl⟩

/-- If each handler that began is the one of its command, those that began are the ones of the
commands begun. -/
lemma map_resolve_begun {t : Token}
    (hall : ∀ c k, .began t c k ∈ h → M.resolve c.name = some k) :
    (begun t h).map (fun c => M.resolve c.name) = (starters t h).map some := by
  induction h with
  | nil => rfl
  | cons e h ih =>
      have ih := ih fun c k he => hall c k (List.mem_cons_of_mem e he)
      cases e with
      | began u c k =>
          by_cases hu : u = t
          · subst hu
            simpa [hall c k List.mem_cons_self] using ih
          · simpa [hu] using ih
      | _ => simpa using ih

end History

namespace Ledger

variable {l l' : Ledger M} {t : Token} {pre : List (Event M)}

/-! ### Once handlers finish -/

/-- No command of an activation begins once nothing more will be found of it. -/
lemma Step.starters_of_found (hs : Step l l') (hf : Found t l) :
    starters t l'.history = starters t l.history := by
  rcases hf with hf | ⟨hlt, htoken, hphase⟩
  · cases hs <;> simp_all
  · exact hs.view_of_foreign (about_starter? t) hlt htoken hphase

/-- A handler begins to finish for an activation after these events: no call is in progress, no
command of the activation has begun since, and nothing more was or will be found of it. -/
structure Concluded (t : Token) (pre : List (Event M)) (l : Ledger M) : Prop where
  quiet : inProgress pre = []
  starters : starters t l.history = starters t pre
  trail : trail t l.history = trail t pre
  found : Found t l

lemma Concluded.step (h : Concluded t pre l) (hr : Reachable l) (hs : Step l l') :
    Concluded t pre l' := by
  obtain ⟨htrail, hfound⟩ := hs.found hr h.found
  exact ⟨h.quiet, (hs.starters_of_found h.found).trans h.starters, htrail.trans h.trail, hfound⟩

/-- Whenever a handler begins to finish, it is so. -/
lemma Reachable.concluded (h : Reachable l) :
    Always (fun pre e => ∀ t k, e = .finishBegan t k → Concluded t pre l) l.history := by
  induction h with
  | initial => exact always_nil
  | step hr hs ih =>
      rename_i l l'
      have hold : Always (fun pre e => ∀ t k, e = .finishBegan t k → Concluded t pre l')
          l.history := fun pre e hpre t k he => (ih pre e hpre t k he).step hr hs
      have hcalls := hr.inProgress_eq
      cases hs with
      | finish | rouse | notice | rest | exit | pop | park | fail | complete | unpark | goOn
      | goOnFinishing => exact hold
      | beginFinish b u k ks a hp =>
          refine always_append_singleton.mpr ⟨hold, fun t k' he => ?_⟩
          cases he
          exact ⟨by simp [hcalls, hp], by simp, by simp, .inl rfl⟩
      | finishAtOnce b u k ks e hp =>
          refine always_append_pair.mpr ⟨hold, fun t k' he => ?_, by simp⟩
          cases he
          exact ⟨by simp [hcalls, hp], by simp, by simp, .inl rfl⟩
      | start | preempt | promote | doAtOnce =>
          exact always_append_pair.mpr ⟨hold, by simp, by simp⟩
      | _ => exact always_append_singleton.mpr ⟨hold, by simp⟩

/-! ### When a batch is reported -/

/-- An activation is reported after these events: no call is in progress, each handler that began
for it has finished, and since then none has begun or finished for it. -/
structure Completed (t : Token) (pre : List (Event M)) (l : Ledger M) : Prop where
  quiet : inProgress pre = []
  each : finishes t pre = starters t pre
  starters : starters t l.history = starters t pre
  finishes : finishes t l.history = finishes t pre

lemma Completed.step (h : Completed t pre l) (hr : Reachable l) (hs : Step l l') {r : Result}
    (hreport : (t, r) ∈ reports l.history) : Completed t pre l' where
  quiet := h.quiet
  each := h.each
  starters := (hs.view_of_reported hr (about_starter? t) hreport).trans h.starters
  finishes := (hs.view_of_reported hr (about_finisher? t) hreport).trans h.finishes

/-- When the worker has gone through all handlers of the executing batch, each that began for it
has finished. -/
lemma Reachable.finishes_of_finishing (h : Reachable l) {b : BatchId}
    (hp : l.worker.phase = .finishing b t []) (he : l.board.epoch = l.worker.epoch) :
    inProgress l.history = [] ∧ finishes t l.history = starters t l.history := by
  have ha := h.attached_active he (t := t) (b := b) (by rw [hp]; rfl)
  have hmustered := (mustered_iff he).mp (h.mustered (Board.active?_eq_some_iff.mp ha).1)
  have hnone : l.worker.started = [] := h.started_eq_nil (.inl (by simp [hp]))
  exact ⟨by simp [h.inProgress_eq, hp], by simpa [hp, hnone] using hmustered⟩

/-- Whenever a batch is reported, it is so. -/
lemma Reachable.completed (h : Reachable l) :
    Always (fun pre e => ∀ t r, e = .reported t r → Completed t pre l) l.history := by
  induction h with
  | initial => exact always_nil
  | step hr hs ih =>
      rename_i l l'
      have hold : Always (fun pre e => ∀ t r, e = .reported t r → Completed t pre l')
          l.history := by
        intro pre e hpre t r he
        have hreport : (t, r) ∈ reports l.history :=
          mem_reports_iff.mpr (he ▸ mem_of_isPrefix hpre)
        exact (ih pre e hpre t r he).step hr hs hreport
      cases hs with
      | finish | rouse | notice | rest | exit | pop | park | fail | complete | unpark | goOn
      | goOnFinishing => exact hold
      | retire b u d hp he =>
          refine always_append_singleton.mpr ⟨hold, fun t r heq => ?_⟩
          cases heq
          obtain ⟨hquiet, heach⟩ := hr.finishes_of_finishing hp he
          exact ⟨hquiet, heach, by simp, by simp⟩
      | promote b u d e i closed hp he =>
          refine always_append_pair.mpr ⟨hold, by simp, fun t r heq => ?_⟩
          cases heq
          obtain ⟨hquiet, heach⟩ := hr.finishes_of_finishing hp he
          exact ⟨by simpa using hquiet, by simpa using heach, by simp, by simp⟩
      | start | preempt | doAtOnce | finishAtOnce =>
          exact always_append_pair.mpr ⟨hold, by simp, by simp⟩
      | _ => exact always_append_singleton.mpr ⟨hold, by simp⟩

/-! ### Commands that do not begin -/

/-- A command stands right behind those of its activation that began, unless the activation was
preempted. -/
def Passed (t : Token) (c : Command) (h : List (Event M)) : Prop :=
  t ∈ preempted h ∨ begun t h ++ [c] <+: accepted t h

lemma Step.passed (hs : Step l l') {c : Command} (h : Passed t c l.history)
    (hbegun : begun t l'.history = begun t l.history) : Passed t c l'.history := by
  have hpre : l.history <+: l'.history := Steps.history_isPrefix (.single hs)
  rcases h with h | h
  · exact .inl ((hpre.sublist.filterMap _).subset h)
  · exact .inr (hbegun ▸ h.trans (hpre.filterMap _))

/-- The command in hand does. -/
lemma Reachable.passed_of_popped (h : Reachable l) {b : BatchId} {c : Command}
    (hp : l.worker.phase = .popped b t c) : Passed t c l.history := by
  by_cases he : l.board.epoch = l.worker.epoch
  · exact .inr (h.begun_concat_isPrefix hp he)
  · exact .inl (h.attached_stale he (b := b) (by rw [hp]; rfl))

/-- After a command without a handler, or a skipped one, no other command of its activation is
about to begin. -/
lemma Reachable.not_popped (h : Reachable l) {c d : Command} {b : BatchId}
    (hc : .unresolved t c ∈ l.history ∨ .skipped t c ∈ l.history)
    (he : l.board.epoch = l.worker.epoch) : l.worker.phase ≠ .popped b t d := by
  intro hp
  have hdone := (h.clear_of_popped hp he).done
  have hbad {o : Outcome} (ho : (some c, o) ∈ trail t l.history) : o = .ok := by
    rw [hdone] at ho
    obtain ⟨_, -, heq⟩ := List.mem_map.mp ho
    exact (congrArg Prod.snd heq).symm
  rcases hc with hc | hc
  · cases hbad (mem_view.mpr ⟨_, hc, if_pos rfl⟩)
  · cases hbad (mem_view.mpr ⟨_, hc, if_pos rfl⟩)

/-- A command without a handler, or a skipped one, stands right behind those that began. -/
lemma Reachable.passed (h : Reachable l) {c : Command}
    (hc : .unresolved t c ∈ l.history ∨ .skipped t c ∈ l.history) : Passed t c l.history := by
  induction h with
  | initial => simp [Ledger.initial] at hc
  | step hr hs ih =>
      rename_i l l'
      have hs' := hs
      cases hs with
      | unresolved b u d hp | skip b u d k hp =>
          suffices hold : Passed t c l.history from hs'.passed hold (by simp)
          have hmine := hr.passed_of_popped hp
          grind
      | begin b u d k a hp _ he | doAtOnce b u d k e hp _ he =>
          have hold : .unresolved t c ∈ l.history ∨ .skipped t c ∈ l.history := by simpa using hc
          have hu : u ≠ t := by
            rintro rfl
            exact hr.not_popped hold he hp
          exact hs'.passed (ih hold) (by simp [hu])
      | _ => exact hs'.passed (ih (by simpa using hc)) (by simp)

end Ledger

/-! ### Reported batches -/

/-- The handlers of a reported batch have finished. -/
structure History.Complete (t : Token) (r : Result) (h : List (Event M)) : Prop where
  /-- Those that finish are those that began, once for each command that began, in order, however
  the commands ended and the handlers finish. -/
  each : finishes t h = starters t h
  /-- Each is the one of its command. -/
  resolved : (begun t h).map (fun c => M.resolve c.name) = (starters t h).map some
  /-- The commands that began are the first ones accepted. -/
  first : begun t h <+: accepted t h
  /-- A command without a handler, or one that was skipped, comes behind them. -/
  passed : ∀ c, .unresolved t c ∈ h ∨ .skipped t c ∈ h → begun t h ++ [c] <+: accepted t h
  /-- When one of them begins to finish, no call is in progress, all commands of the batch that
  ever begin have begun, and all that is ever found of the batch was found. -/
  begins : ∀ pre k, pre ++ [.finishBegan t k] <+: h →
    inProgress pre = [] ∧ starters t pre = starters t h ∧ trail t pre = trail t h
  /-- When the batch is reported, no call is in progress and all of them have finished. -/
  ends : ∀ pre, pre ++ [.reported t r] <+: h →
    inProgress pre = [] ∧ finishes t pre = starters t h
  /-- What is reported is the verdict of what was found. -/
  verdict : ∃ b, (t, b) ∈ activations h ∧ r = .ofOutcome b (firstBad (trail t h))

/-- Whatever handlers do and in whatever order control calls and the worker take their turns, the
handlers of a reported batch have finished: for each command of it that began its handler, in order,
one after another, after the last command and before the report.  How they finish changes neither
which ones do nor the report, which is settled before the first of them begins to. -/
theorem World.run_completed (p : M.Plant) (ch : Channel) (d : Nat) (as : List (Action M))
    (t : Token) (r : Result) (hr : (t, r) ∈ reports ((fresh p ch d).run as).history) :
    Complete t r ((fresh p ch d).run as).history := by
  have hw : ((fresh p ch d).run as).ledger.Reachable := reachable_run p ch d as
  obtain ⟨pre, hpre⟩ := exists_isPrefix_of_mem (mem_reports_iff.mp hr)
  have hdone := hw.completed pre _ hpre t r rfl
  have hleft : t ∉ preempted ((fresh p ch d).run as).history := hw.not_preempted_of_reported hr
  refine ⟨?_, map_resolve_begun fun c k => hw.resolve_of_began, ?_, fun c hc => ?_,
    fun pre k hpre => ?_, fun pre hpre => ?_, ?_⟩
  · exact hdone.finishes.trans (hdone.each.trans hdone.starters.symm)
  · exact hw.begun_isPrefix.of_isPrefix (Q := fun pre => ∀ t, begun t pre <+: accepted t pre)
      (by simp) (List.prefix_refl _) t
  · exact (hw.passed hc).resolve_left hleft
  · have hsettled := hw.concluded pre _ hpre t k rfl
    exact ⟨hsettled.quiet, hsettled.starters.symm, hsettled.trail.symm⟩
  · have hdone := hw.completed pre _ hpre t r rfl
    exact ⟨hdone.quiet, hdone.each.trans hdone.starters.symm⟩
  · obtain ⟨b, o, hb, rfl, hacc⟩ := hw.account hr
    have ho : firstBad (trail t ((fresh p ch d).run as).history) = o := hacc.firstBad_eq
    exact ⟨b, hb, by rw [ho]⟩

/-! ### Handlers that break while they finish -/

/-- A handler that does its command well and breaks when it finishes. -/
def frailScript : Script := { name := "FRAIL", ending := .returned .ok, finishEnding := .panicked }

/-- A handler that breaks at its command. -/
def brokenScript : Script := { name := "BROKEN", ending := .panicked }

/-- A robot with these two handlers. -/
def frailRig : Rig := { registry := [.scripted frailScript, .scripted brokenScript] }

/-- It is at rest, before anything happens. -/
def frailWorld : World frailRig.machinery :=
  let plant : Plant := { body := { distance := 100.0 }, voice := { msPerWord := 250 } }
  .fresh (M := frailRig.machinery) plant (.withCapacity 16) 5000

/-- A batch of three commands: the second one breaks, and the third one is never taken. -/
def frailBatch : List (Action frailRig.machinery) :=
  [.call (.start 1), .call (.enqueue ⟨"FRAIL", []⟩), .call (.enqueue ⟨"BROKEN", []⟩),
    .call (.enqueue ⟨"FRAIL", []⟩), .call .finish, .work, .work, .work, .work, .work, .work, .work,
    .work]

/-- The first handler breaks while it finishes; the second one finishes after it, and the report is
the verdict of the command that broke. -/
theorem World.run_completed_frail :
    let h := (frailWorld.run frailBatch).history
    (0, ⟨1, .failed, .internalError⟩) ∈ reports h ∧ Complete 0 ⟨1, .failed, .internalError⟩ h ∧
      finishes 0 h = [.scripted frailScript, .scripted brokenScript] ∧
      (accepted 0 h).length = 3 ∧ .finishEnded 0 .panicked ∈ h := by
  intro h
  have hr : (0, ⟨1, .failed, .internalError⟩) ∈ reports h := by decide +kernel
  refine ⟨hr, World.run_completed _ _ _ frailBatch 0 _ hr, rfl, rfl, ?_⟩
  exact List.mem_of_getElem? (i := 10) rfl

end RoverPilot
