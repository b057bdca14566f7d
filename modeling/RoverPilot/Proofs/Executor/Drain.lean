import Mathlib.Tactic
import RoverPilot.Proofs.Executor.Progress

/-!
After a shutdown the worker comes to its end.

* `Ledger.Closing`: the executor is shut down, and stays so; `Ledger.Closing.keep` and
  `Ledger.Closing.measure_le` go from one step then to any number of them;
* `Ledger.rounds`, `Ledger.drain`: the looks at the board that the worker has still to take, and
  all that it has still to do; no step makes more of it;
* `World.works`, `World.works_add_le`: how often the worker comes to work in a state of some kind,
  which a measure bounds that each such work lowers;
* `World.works_looks_le`, `World.works_advances_le`: so the looks at the board are bounded by the
  commands that wait, and all works that nothing holds up by these and the handlers begun;
* `World.awake_run`, `World.exists_exited`: once woken, only a call of a handler or a report on
  its way can hold the worker up, so it can end without a control call.
-/

namespace RoverPilot

variable {M : Machinery}

namespace Lifecycle

variable {l : Lifecycle} {b : BatchId}

@[simp] lemma pending_finish (l : Lifecycle) : l.finish.2.pending = l.pending := by
  cases l <;> rfl

lemma pending_pos (h : l.executing? = some b) : 0 < l.pending := by
  cases l <;> simp_all [pending, executing?]

lemma pending_le (l : Lifecycle) : l.pending ≤ 2 := by
  cases l <;> simp [pending]

end Lifecycle

namespace Ledger

variable {l l' : Ledger M}

/-! ### After a shutdown -/

/-- A ledger that steps lead to, after a shutdown. -/
structure Closing (l : Ledger M) : Prop where
  reachable : l.Reachable
  closing : l.board.closing = true

/-- After a shutdown no more commands may come. -/
lemma Reachable.hasEnded_of_closing (h : Reachable l) (hc : l.board.closing = true) :
    l.board.lifecycle.hasEnded = true := by
  induction h with
  | initial => rfl
  | step hr hs ih =>
      cases hs with
      | close => exact Lifecycle.hasEnded_finish _
      | promote b t d e i closed hp he hl =>
          have hended := ih hc
          rw [hl] at hended
          obtain rfl : closed = true := hended
          rfl
      | _ => simp_all [Lifecycle.hasEnded]

namespace Closing

lemma hasEnded (h : l.Closing) : l.board.lifecycle.hasEnded = true :=
  h.reachable.hasEnded_of_closing h.closing

lemma isAccepting (h : l.Closing) : l.board.lifecycle.isAccepting = false := by
  have hended := h.hasEnded
  cases hl : l.board.lifecycle <;> simp_all [Lifecycle.hasEnded, Lifecycle.isAccepting]

lemma step (h : l.Closing) (hs : Step l l') : l'.Closing := by
  refine ⟨h.reachable.step hs, ?_⟩
  have hc := h.closing
  cases hs <;> first | exact hc | rfl

lemma steps (h : l.Closing) (hs : Steps l l') : l'.Closing := by
  induction hs with
  | refl => exact h
  | tail _ hs ih => exact ih.step hs

/-- What each step after a shutdown keeps is kept by any number of them. -/
lemma keep {P : Ledger M → Prop} (hstep : ∀ l l', Step l l' → l.Closing → P l → P l')
    (h : l.Closing) (hs : Steps l l') (hP : P l) : P l' := by
  induction hs with
  | refl => exact hP
  | tail hss hs ih => exact hstep _ _ hs (h.steps hss) ih

/-- What no step after a shutdown makes more of does not become more. -/
lemma measure_le {m : Ledger M → Nat} (hstep : ∀ l l', Step l l' → l.Closing → m l' ≤ m l)
    (h : l.Closing) (hs : Steps l l') : m l' ≤ m l :=
  h.keep (P := fun k => m k ≤ m l) (fun _ _ hs h hle => (hstep _ _ hs h).trans hle) hs le_rfl

end Closing

/-! ### What is left to do -/

/-- The looks at the board that the worker has still to take: one for each command that waits, one
for each batch to find it complete, and the last one; none for a batch whose handlers are to finish
already. -/
def rounds (l : Ledger M) : Nat :=
  match l.worker.phase with
  | .finishing _ _ _ | .finishingCall _ _ _ _ =>
    if l.board.epoch = l.worker.epoch then l.board.lifecycle.pending
    else l.board.queue.length + l.board.lifecycle.pending + 1
  | .exited => 0
  | _ => l.board.queue.length + l.board.lifecycle.pending + 1

/-- All that the worker has still to do, wake-ups apart. -/
def drain (l : Ledger M) : Nat :=
  5 * l.board.queue.length + 2 * l.worker.started.length + 4 * l.board.lifecycle.pending +
    match l.worker.phase with
    | .parked => 3
    | p => p.rank (l.board.epoch != l.worker.epoch)

/-- No step makes more of the looks that are left. -/
lemma Step.rounds_le (hs : Step l l') (h : l.Closing) : l'.rounds ≤ l.rounds := by
  have hclosing := h.closing
  have haccepting := h.isAccepting
  cases hs with
  | start | wait | accept | preempt | ignore | drop | finish | rest | park => simp_all
  | retire b t d hp he =>
      have ha := h.reachable.attached_active he (t := t) (b := b) (by rw [hp]; rfl)
      have hpos := Lifecycle.pending_pos (Board.active?_eq_some_iff.mp ha).2
      simp only [rounds, hp, he, if_true]
      exact hpos
  | promote b t d e i closed hp he hl =>
      cases closed <;> simp [rounds, hp, he, hl, Lifecycle.pending]
  | _ => simp_all [rounds] <;> omega

/-- A step that ends a look is one of them. -/
lemma Step.rounds_lt (hs : Step l l') (h : l.Closing) (hp : l.worker.phase = .looking)
    (hp' : l'.worker.phase ≠ .looking) : l'.rounds < l.rounds := by
  have hclosing := h.closing
  have haccepting := h.isAccepting
  cases hs with
  | rest | park => simp_all
  | exit | pop | fail | complete => simp_all [rounds]
  | _ => simp_all

lemma Steps.rounds_lt (hs : Steps l l') (h : l.Closing) (hp : l.worker.phase = .looking)
    (hp' : l'.worker.phase ≠ .looking) : l'.rounds < l.rounds := by
  induction hs with
  | refl => exact absurd hp hp'
  | @tail m l' hss hs ih =>
      by_cases hm : m.worker.phase = .looking
      · have hle := h.measure_le (fun _ _ hs h => Step.rounds_le hs h) hss
        exact (hs.rounds_lt (h.steps hss) hm hp').trans_le hle
      · exact (hs.rounds_le (h.steps hss)).trans_lt (ih hm)

/-- No step makes more of what is left to do. -/
lemma Step.drain_le (hs : Step l l') (h : l.Closing) : l'.drain ≤ l.drain := by
  have hclosing := h.closing
  have haccepting := h.isAccepting
  cases hs with
  | start | wait | accept | preempt | ignore | drop | finish | rest | park => simp_all
  | retire b t d hp he =>
      have ha := h.reachable.attached_active he (t := t) (b := b) (by rw [hp]; rfl)
      have hpos := Lifecycle.pending_pos (Board.active?_eq_some_iff.mp ha).2
      have hidle : Lifecycle.idle.pending = 0 := rfl
      simp only [drain, hp, Phase.rank, hidle, List.length_nil]
      omega
  | promote b t d e i closed hp he hl =>
      cases closed <;> simp [drain, hp, he, hl, Lifecycle.pending, Phase.rank] <;> omega
  | discard b t hp he =>
      simp only [drain, hp, Phase.rank, bne_iff_ne.mpr he, Bool.toNat_true]
      omega
  | _ => simp_all [drain, Phase.rank] <;> omega

/-- As long as the worker has not ended, something is left to do. -/
lemma drain_pos (hp : l.worker.phase ≠ .exited) : 0 < l.drain := by
  rw [drain]
  cases h : l.worker.phase <;> simp_all [Phase.rank]

/-! ### The worker waits no more -/

/-- A worker that waits has a wake-up waiting for it. -/
def Awake (l : Ledger M) : Prop := l.worker.phase = .parked → l.wake = true

lemma Step.awake (hs : Step l l') (h : l.Closing) (ha : l.Awake) : l'.Awake := by
  have hclosing := h.closing
  have haccepting := h.isAccepting
  cases hs <;> simp_all [Awake]

lemma Steps.awake (hs : Steps l l') (h : l.Closing) (ha : l.Awake) : l'.Awake :=
  h.keep (fun _ _ hs h ha => hs.awake h ha) hs ha

/-- A worker that does not wait never waits again, and no wake-up is used up. -/
lemma Step.ne_parked_of_closing (hs : Step l l') (h : l.Closing) (hp : l.worker.phase ≠ .parked) :
    l'.worker.phase ≠ .parked ∧ (l.wake = true → l'.wake = true) := by
  have hclosing := h.closing
  have haccepting := h.isAccepting
  cases hs <;> simp_all

lemma Steps.ne_parked_of_closing (hs : Steps l l') (h : l.Closing)
    (hp : l.worker.phase ≠ .parked) :
    l'.worker.phase ≠ .parked ∧ (l.wake = true → l'.wake = true) := by
  refine h.keep (P := fun k => k.worker.phase ≠ .parked ∧ (l.wake = true → k.wake = true))
    (fun _ _ hs h hk => ?_) hs ⟨hp, id⟩
  obtain ⟨hphase, hwake⟩ := hs.ne_parked_of_closing h hk.1
  exact ⟨hphase, hwake ∘ hk.2⟩

end Ledger

namespace World

/-! ### How often the worker comes to work -/

/-- The worker comes to look at the board. -/
def Looks (w : World M) : Prop := w.worker.phase = .looking

instance : DecidablePred (Looks (M := M)) := fun w =>
  match h : w.worker.phase with
  | .looking => .isTrue h
  | .parked | .popped _ _ _ | .running _ _ _ _ | .finishing _ _ _ | .finishingCall _ _ _ _
  | .reporting _ _ _ | .exited => .isFalse (by simp [Looks, h])

instance {α : Type} (r : Progress α) : Decidable (∃ e, r = .ended e) :=
  match r with
  | .ended e => .isTrue ⟨e, rfl⟩
  | .running _ => .isFalse (by simp)

instance : DecidablePred (Advances (M := M)) := fun w =>
  match h : w.worker.phase with
  | .looking | .popped _ _ _ | .finishing _ _ _ => .isTrue (by simp [Advances, h])
  | .parked => decidable_of_iff (w.wake = true) (by simp [Advances, h])
  | .running _ t _ a | .finishingCall _ t a _ =>
    decidable_of_iff (∃ e, (M.resume a (w.moment t) w.plant).2 = .ended e) (by simp [Advances, h])
  | .reporting _ r deadline =>
    decidable_of_iff (w.channel.offer r.encode = .full → deadline ≤ w.now) (by simp [Advances, h])
  | .exited => .isFalse (by simp [Advances, h])

/-- Among some actions, the works of the worker that find the world in a state of some kind. -/
def works (P : World M → Prop) [DecidablePred P] (w : World M) : List (Action M) → Nat
  | [] => 0
  | .work :: as => (if P w then 1 else 0) + works P w.work as
  | a :: as => works P (w.act a) as

variable {w : World M}

lemma closing_act (h : w.ledger.Closing) (a : Action M) : (w.act a).ledger.Closing :=
  h.steps (w.steps_act a h.reachable.signalled)

lemma closing_run (h : w.ledger.Closing) (as : List (Action M)) : (w.run as).ledger.Closing :=
  h.steps (w.steps_run h.reachable as)

/-- If no step after a shutdown makes more of something, and each of these works leaves less of it,
it bounds their number. -/
lemma works_add_le {P : World M → Prop} [DecidablePred P] {m : Ledger M → Nat}
    (hstep : ∀ l l' : Ledger M, Ledger.Step l l' → l.Closing → m l' ≤ m l)
    (hwork : ∀ w : World M, w.ledger.Closing → P w → m w.work.ledger < m w.ledger)
    (h : w.ledger.Closing) (as : List (Action M)) :
    w.works P as + m (w.run as).ledger ≤ m w.ledger := by
  induction as generalizing w with
  | nil => simp [works]
  | cons a as ih =>
      have hact := h.measure_le hstep (w.steps_act a h.reachable.signalled)
      have hrest := ih (closing_act h a)
      rw [run_cons]
      cases a with
      | work =>
          rw [works]
          split
          · have hlt := hwork w h ‹_›
            simp only [act] at hrest ⊢
            omega
          · rw [Nat.zero_add]
            exact hrest.trans hact
      | _ => exact hrest.trans hact

/-! ### Looks at the board -/

/-- A look at the board comes to something. -/
lemma look_ne_looking (w : World M) : w.look.worker.phase ≠ .looking := by
  rw [look]
  generalize w.noticePreemption = v
  cases v.board.lifecycle.executing? with
  | none => cases hc : v.board.closing <;> simp [enter, hc]
  | some b =>
      simp only
      generalize v.currentToken.2.noticeCancellation v.currentToken.1 = u
      rcases u.attend_cases b v.currentToken.1 with ⟨_, _, _, _, h⟩ | ⟨_, _, _, h⟩ | ⟨_, h⟩ <;>
        simp [h, enter, beginFinishing]

lemma rounds_work_lt (h : w.ledger.Closing) (hp : w.Looks) :
    w.work.ledger.rounds < w.ledger.rounds := by
  refine (w.steps_work h.reachable.signalled).rounds_lt h hp ?_
  have hphase : w.worker.phase = .looking := hp
  simp only [ledger_worker, work, hphase]
  exact w.look_ne_looking

/-- After a shutdown the worker looks at the board no more often than there are looks left. -/
lemma works_looks_le (h : w.ledger.Closing) (as : List (Action M)) :
    w.works Looks as + (w.run as).ledger.rounds ≤ w.ledger.rounds :=
  works_add_le (fun _ _ hs h => hs.rounds_le h) (fun _ => rounds_work_lt) h as

/-! ### Works that nothing holds up -/

lemma rank_eq_drain (hp : w.worker.phase ≠ .parked) :
    w.rank = w.ledger.drain + 3 * w.wake.toNat := by
  rw [rank, Ledger.drain]
  split
  · exact absurd ‹_› hp
  · rfl

/-- Each work after a shutdown that nothing holds up leaves less to do. -/
lemma drain_work_lt (h : w.ledger.Closing) (hadvances : w.Advances) :
    w.work.ledger.drain < w.ledger.drain := by
  by_cases hp : w.worker.phase = .parked
  · have hwake : w.wake = true := by simpa [Advances, hp] using hadvances
    simp [work, hp, hwake, Ledger.drain, enter, Phase.rank]
  · obtain ⟨hp', hkept⟩ :=
      (w.steps_work h.reachable.signalled).ne_parked_of_closing h hp
    have hlt := w.rank_work h.reachable hadvances
    have hwake : w.wake.toNat ≤ w.work.wake.toNat := by
      cases hw : w.wake with
      | false => exact Nat.zero_le _
      | true => rw [show w.work.wake = true from hkept hw]
    rw [rank_eq_drain hp, rank_eq_drain hp'] at hlt
    omega

/-- After a shutdown the worker does no more than is left to do, when nothing holds it up. -/
lemma works_advances_le (h : w.ledger.Closing) (as : List (Action M)) :
    w.works Advances as + (w.run as).ledger.drain ≤ w.ledger.drain :=
  works_add_le (fun _ _ hs h => hs.drain_le h) (fun _ => drain_work_lt) h as

/-! ### The end -/

/-- Once woken after a shutdown, the worker never waits without a wake-up. -/
lemma awake_run (h : w.ledger.Closing) (as : List (Action M))
    (ha : w.ledger.Awake ∨ .rouse ∈ as) : (w.run as).ledger.Awake := by
  induction as generalizing w with
  | nil => simpa using ha
  | cons a as ih =>
      refine ih (closing_act h a) ?_
      rcases ha with ha | ha
      · exact .inl ((w.steps_act a h.reachable.signalled).awake h ha)
      · rcases List.mem_cons.mp ha with rfl | ha
        · exact .inl fun _ => rfl
        · exact .inr ha

/-- A worker that does not wait without a wake-up after a shutdown can end without a control call,
if calls of handlers come to an end. -/
theorem exists_exited (hM : M.Terminates) (h : w.ledger.Closing) (ha : w.ledger.Awake) :
    ∃ as : List (Action M), (∀ a ∈ as, a.unasked = true) ∧ (w.run as).worker.phase = .exited := by
  refine exists_unasked (P := fun v => v.worker.phase = .exited)
    (I := fun v => v.ledger.Closing ∧ v.ledger.Awake) (fun v => v.ledger.drain) ?_ ⟨h, ha⟩
  rintro w ⟨h, ha⟩
  by_cases hexited : w.worker.phase = .exited
  · exact .inl hexited
  · obtain ⟨as, has, hadvances⟩ := inTime_advances hM ha hexited
    have hledger := ledger_run_ambient w has
    refine .inr ⟨as, has, .inr ?_⟩
    rw [← hledger] at h ha ⊢
    have hsteps := (w.run as).steps_work h.reachable.signalled
    exact ⟨⟨h.steps hsteps, hsteps.awake h ha⟩, drain_work_lt h hadvances⟩

end World

end RoverPilot
