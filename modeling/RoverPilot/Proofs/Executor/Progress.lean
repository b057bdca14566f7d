import Mathlib.Tactic
import RoverPilot.Proofs.Executor.Hearing
import RoverPilot.Proofs.Executor.Wake

/-!
Once no more commands may come, the worker comes to the end of a batch by itself.

* `World.InTime`, `Machinery.Terminates`: what comes true by what happens around the executor, and
  that calls of handlers come to an end by it;
* `World.exists_unasked`: what the worker brings about without a control call;
* `World.rank`: what the worker has still to do;
* `World.Advances`, `World.rank_work`: the worker can go on, and each thing that it does then
  leaves less to do;
* `World.inTime_advances`: only a call of a handler or a report on its way can hold it up;
* `World.exists_report`: the executing batch can be reported without a control call.
-/

namespace RoverPilot

open History

variable {M : Machinery}

/-! ### What happens around the executor -/

/-- Whether an action is the worker's, or happens around the executor. -/
def Action.unasked : Action M → Bool
  | .work => true
  | a => a.ambient

lemma Action.unasked_of_ambient {a : Action M} (h : a.ambient = true) : a.unasked = true := by
  cases a <;> first | exact h | rfl

namespace World

variable {w : World M} {P : World M → Prop}

/-- Something comes true by what happens around the executor. -/
def InTime (w : World M) (P : World M → Prop) : Prop :=
  ∃ as : List (Action M), (∀ a ∈ as, a.ambient = true) ∧ P (w.run as)

lemma InTime.now (h : P w) : w.InTime P := ⟨[], by simp, h⟩

lemma InTime.after {a : Action M} (ha : a.ambient = true) (h : (w.act a).InTime P) :
    w.InTime P := by
  obtain ⟨as, has, hP⟩ := h
  exact ⟨a :: as, by simpa [ha] using has, hP⟩

end World

/-- Something can be brought about without a control call if each time, by what happens around the
executor, the next thing that the worker does either brings it about or leaves less to do. -/
lemma World.exists_unasked {P I : World M → Prop} (m : World M → Nat)
    (h : ∀ w, I w → P w ∨ w.InTime fun v => P v.work ∨ I v.work ∧ m v.work < m w) {w : World M}
    (hw : I w) : ∃ as : List (Action M), (∀ a ∈ as, a.unasked = true) ∧ P (w.run as) := by
  induction hn : m w using Nat.strong_induction_on generalizing w with
  | _ n ih =>
      rcases h w hw with hP | ⟨as, has, hwork⟩
      · exact ⟨[], by simp, hP⟩
      · obtain ⟨bs, hbs, hP⟩ : ∃ bs : List (Action M), (∀ b ∈ bs, b.unasked = true) ∧
            P ((w.run as).work.run bs) := by
          rcases hwork with hP | ⟨hI, hlt⟩
          · exact ⟨[], by simp, hP⟩
          · exact ih _ (hn ▸ hlt) hI rfl
        refine ⟨as ++ .work :: bs, ?_, by simpa [act] using hP⟩
        simp only [List.mem_append, List.mem_cons]
        rintro a (ha | rfl | ha)
        · exact Action.unasked_of_ambient (has a ha)
        · rfl
        · exact hbs a ha

/-- Whatever a call of a handler is at, it comes to an end by what happens around the executor. -/
def Machinery.Terminates (M : Machinery) : Prop :=
  ∀ (w : World M) (t : Token) (a : M.Activity),
    w.InTime fun v => ∃ e, (M.resume a (v.moment t) v.plant).2 = .ended e

/-! ### What is left to do -/

/-- The batches that are not over. -/
def Lifecycle.pending : Lifecycle → Nat
  | idle => 0
  | collecting _ _ _ => 2
  | _ => 1

/-- What is left to do in a phase.  A batch that was preempted is not over by its report. -/
def Phase.rank (stale : Bool) : Phase M → Nat
  | .looking => 2
  | .parked => 0
  | .popped _ _ _ => 6
  | .running _ _ _ _ => 3
  | .finishing _ _ ks => 2 * ks.length + 2 * stale.toNat + 1
  | .finishingCall _ _ _ ks => 2 * ks.length + 2 * stale.toNat + 2
  | .reporting _ _ _ => 3
  | .exited => 0

namespace World

/-- What the worker has still to do: commands that wait, handlers that are to finish, batches
that are to be over, the rest of its phase, and a wake-up. -/
def rank (w : World M) : Nat :=
  5 * w.board.queue.length + 2 * w.worker.started.length + 4 * w.board.lifecycle.pending +
    w.worker.phase.rank (w.board.epoch != w.worker.epoch) + 3 * w.wake.toNat

/-- The next thing that the worker does is not held up by a call of a handler, by a report on its
way, or for want of a wake-up. -/
def Advances (w : World M) : Prop :=
  match w.worker.phase with
  | .parked => w.wake = true
  | .running _ t _ a => ∃ e, (M.resume a (w.moment t) w.plant).2 = .ended e
  | .finishingCall _ t a _ => ∃ e, (M.resume a (w.moment t) w.plant).2 = .ended e
  | .reporting _ r deadline => w.channel.offer r.encode = .full → deadline ≤ w.now
  | .exited => False
  | _ => True

section

variable (w : World M)

/-! ### Each thing that the worker does leaves less to do -/

lemma rank_noticePreemption (hp : w.worker.phase = .looking) :
    w.noticePreemption.rank ≤ w.rank := by
  rw [noticePreemption]
  split
  · exact Nat.le_refl _
  · simp [rank, hp, Phase.rank]

lemma rank_noticeCancellation (t : Token) : (w.noticeCancellation t).rank = w.rank := by
  rw [noticeCancellation]
  split <;> rfl

lemma rank_attend (b : BatchId) (t : Token) (hp : w.worker.phase = .looking)
    (he : w.board.epoch = w.worker.epoch) : (w.attend b t).rank < w.rank := by
  rcases w.attend_cases b t with ⟨c, q, -, hq, hattend⟩ | ⟨-, -, -, hattend⟩ | ⟨-, hattend⟩
  · simp only [hattend, rank, enter, hp, hq, Phase.rank, List.length_cons]
    omega
  · simp only [hattend, rank, enter, hp, Phase.rank]
    omega
  · simp only [hattend, rank, beginFinishing, hp, he, Phase.rank, bne_self_eq_false,
      Bool.toNat_false, List.length_nil]
    omega

lemma rank_look (hp : w.worker.phase = .looking) (hs : w.board.Signalled) :
    w.look.rank < w.rank := by
  refine Nat.lt_of_lt_of_le ?_ (w.rank_noticePreemption hp)
  obtain ⟨hboard, hphase, he⟩ := w.noticePreemption_spec
  rw [← hphase] at hp
  rcases w.look_cases hs with ⟨-, hlook⟩ | ⟨b, t, -, hlook⟩
  · rw [hlook, ← hboard]
    generalize w.noticePreemption = v at *
    cases v.board.closing <;>
      simp only [rank, enter, hp, Phase.rank, List.length_nil, if_true, Bool.false_eq_true,
        if_false] <;> omega
  · rw [hlook]
    generalize w.noticePreemption = v at *
    obtain ⟨hb, hq, hw, -⟩ := v.noticeCancellation_spec t
    refine (rank_attend _ b t (hq.trans hp) ?_).trans_eq (v.rank_noticeCancellation t)
    rw [hb, hw, he]

lemma rank_begin {b : BatchId} {t : Token} {c : Command} (hp : w.worker.phase = .popped b t c) :
    (w.begin b t c).rank < w.rank := by
  rcases w.begin_cases b t c with ⟨-, h⟩ | ⟨k, -, ⟨-, h⟩ | ⟨-, h⟩⟩ <;> rw [h]
  · simp only [rank, conclude, note, hp, Phase.rank]
    omega
  · simp only [rank, conclude, note, hp, Phase.rank]
    omega
  · obtain ⟨p, a | e⟩ := M.execute k c.args _ _ <;>
      simp only [rank, afterCall, remember, conclude, note, enter, hp, Phase.rank,
        List.length_append, List.length_singleton] <;> omega

lemma rank_finishNext {b : BatchId} {t : Token} {k : M.Handler} {ks : List M.Handler}
    (hp : w.worker.phase = .finishing b t (k :: ks)) : (w.finishNext b t k ks).rank < w.rank := by
  rw [finishNext]
  obtain ⟨p, a | e⟩ := M.finish k _ _ <;>
    simp only [rank, afterFinish, note, enter, hp, Phase.rank, List.length_cons] <;> omega

lemma rank_proceed {b : BatchId} {t : Token} {c : Command} {a : M.Activity} {e : Ending}
    (hp : w.worker.phase = .running b t c a)
    (he : (M.resume a (w.moment t) w.plant).2 = .ended e) :
    (w.proceed b t c a).rank < w.rank := by
  simp only [proceed, afterLook, he, afterCall, rank, note, conclude, hp, Phase.rank]
  omega

lemma rank_finishOn {b : BatchId} {t : Token} {a : M.Activity} {ks : List M.Handler} {e : Ending}
    (hp : w.worker.phase = .finishingCall b t a ks)
    (he : (M.resume a (w.moment t) w.plant).2 = .ended e) :
    (w.finishOn b t a ks).rank < w.rank := by
  simp only [finishOn, afterFinish, he, rank, note, enter, hp, Phase.rank]
  omega

/-- The batch that waits takes the place of the one that is over. -/
lemma pending_finalize {l : Lifecycle} {b : BatchId} (hl : l.executing? = some b) :
    l.finalize.2.pending + 1 = l.pending := by
  cases l with
  | idle => cases hl
  | collecting e i closed => cases closed <;> rfl
  | _ => rfl

lemma rank_retire {b : BatchId} {t : Token} (hw : w.ledger.Reachable)
    (hp : w.worker.phase = .finishing b t []) : (w.retire b t).rank < w.rank := by
  rw [retire]
  simp only
  split
  · rename_i he
    simp only [rank, note, enter, hp, Phase.rank, bne_iff_ne.mpr he, Bool.toNat_true]
    omega
  · rename_i he
    rw [not_not] at he
    have ha := hw.attached_active he (t := t) (b := b) (by simp [hp])
    have hpending := pending_finalize (Board.active?_eq_some_iff.mp ha).2
    rw [ledger_board] at hpending
    cases w.worker.outcome.isOk <;> simp only [clearBoard, if_true, Bool.false_eq_true, if_false,
        cancel] <;> split <;>
      simp only [rank, activate, note, enter, hp, he, Phase.rank, List.length_nil,
        bne_self_eq_false, Bool.toNat_false] <;> omega

lemma rank_deliver {t : Token} {r : Result} {deadline : Nat}
    (hp : w.worker.phase = .reporting t r deadline)
    (h : w.channel.offer r.encode = .full → deadline ≤ w.now) :
    (w.deliver t r deadline).rank < w.rank := by
  rw [deliver]
  split
  · simp only [rank, note, enter, hp, Phase.rank]
    omega
  · simp only [rank, note, enter, hp, Phase.rank]
    omega
  · rename_i hfull
    rw [if_pos (h hfull)]
    simp only [rank, note, enter, hp, Phase.rank]
    omega

/-- Each thing that the worker does leaves less to do, as long as nothing holds it up. -/
theorem rank_work (hw : w.ledger.Reachable) (h : w.Advances) : w.work.rank < w.rank := by
  rw [Advances] at h
  rw [work]
  generalize hp : w.worker.phase = phase at h
  cases phase with
  | looking => exact w.rank_look hp hw.signalled
  | parked =>
      have hwake : w.wake = true := h
      simp [rank, hwake, enter, hp, Phase.rank]
  | popped b t c => exact w.rank_begin hp
  | running b t c a =>
      obtain ⟨e, he⟩ := h
      exact w.rank_proceed hp he
  | finishing b t ks =>
      cases ks with
      | nil => exact w.rank_retire hw hp
      | cons k ks => exact w.rank_finishNext hp
  | finishingCall b t a ks =>
      obtain ⟨e, he⟩ := h
      exact w.rank_finishOn hp he
  | reporting t r deadline => exact w.rank_deliver hp h
  | exited => exact h.elim

end

/-! ### What holds the worker up -/

section

variable {w : World M} {t : Token}

/-- What happens around the executor changes nothing that its laws speak of. -/
lemma ledger_run_ambient (w : World M) {as : List (Action M)} (has : ∀ a ∈ as, a.ambient = true) :
    (w.run as).ledger = w.ledger := by
  induction as generalizing w with
  | nil => rfl
  | cons a as ih =>
      have hact : (w.act a).ledger = w.ledger := by
        have ha := has a List.mem_cons_self
        cases a <;> first | rfl | cases ha
      exact (ih _ fun b hb => has b (List.mem_cons_of_mem a hb)).trans hact

lemma rank_eq_of_ledger_eq {v : World M} (h : v.ledger = w.ledger) : v.rank = w.rank := by
  have hboard : v.board = w.board := congrArg Ledger.board h
  have hworker : v.worker = w.worker := congrArg Ledger.worker h
  have hwake : v.wake = w.wake := congrArg Ledger.wake h
  rw [rank, rank, hboard, hworker, hwake]

/-- Only a call of a handler or a report on its way holds up a worker that has not ended and does
not wait for want of a wake-up; if calls come to an end, so does the delay. -/
lemma inTime_advances (hM : M.Terminates) (hawake : w.worker.phase = .parked → w.wake = true)
    (hexited : w.worker.phase ≠ .exited) : w.InTime Advances := by
  cases hp : w.worker.phase with
  | looking | popped | finishing => exact .now (by simp [Advances, hp])
  | parked => exact .now (by simpa [Advances, hp] using hawake hp)
  | running b u c a =>
      obtain ⟨as, has, hends⟩ := hM w u a
      have hphase : (w.run as).worker.phase = .running b u c a :=
        (congrArg (·.worker.phase) (ledger_run_ambient w has)).trans hp
      exact ⟨as, has, by simpa [Advances, hphase] using hends⟩
  | finishingCall b u a ks =>
      obtain ⟨as, has, hends⟩ := hM w u a
      have hphase : (w.run as).worker.phase = .finishingCall b u a ks :=
        (congrArg (·.worker.phase) (ledger_run_ambient w has)).trans hp
      exact ⟨as, has, by simpa [Advances, hphase] using hends⟩
  | reporting u r deadline =>
      exact .after (a := .pass deadline) rfl (.now (by simp [Advances, act, passTo, hp]))
  | exited => exact absurd hp hexited

/-- Once no more commands may come, nothing else can hold up a worker that is at a batch. -/
lemma exists_advances (hM : M.Terminates) (hw : w.ledger.Reachable) (halert : w.ledger.Alert)
    (hended : w.board.lifecycle.hasEnded = true) (ht : w.board.token = some t) :
    w.InTime Advances := by
  have hnotIdle : w.board.lifecycle ≠ .idle := fun hl => by
    have hs := hw.signalled
    simp [Board.Signalled, ht, hl] at hs
  refine inTime_advances hM (fun hp => (halert hp).resolve_right fun hquiet => ?_)
    fun hp => hnotIdle (hw.exited hp).1
  cases hquiet with
  | idle hl => exact hnotIdle hl
  | receiving b u hl =>
      rw [ledger_board] at hl
      rw [hl] at hended
      cases hended

/-! ### The end of a batch -/

/-- The worker goes on with the executing batch until it is reported. -/
lemma work_executing (hw : w.ledger.Reachable) (ht : w.board.token = some t) :
    (w.work.board.token = some t ∧ w.work.board.lifecycle = w.board.lifecycle) ∨
      ∃ r, (t, r) ∈ reports w.work.history := by
  by_cases hover : ∃ b u, w.Retires b u
  · obtain ⟨b, u, hover⟩ := hover
    have hactive := Board.active?_eq_some_iff.mp (hover.active hw)
    obtain rfl : u = t := Option.some.inj (hactive.1.symm.trans ht)
    exact .inr hover.exists_report
  · push Not at hover
    have hsame := sameIntake_work_of_not_retires hw.signalled hover
    exact .inl ⟨hsame.token.trans ht, hsame.lifecycle⟩

/-- Once no more commands may come, the executing batch can be reported without a control call,
if calls of handlers come to an end. -/
theorem exists_report (hM : M.Terminates) (hw : w.ledger.Reachable) (halert : w.ledger.Alert)
    (hended : w.board.lifecycle.hasEnded = true) (ht : w.board.token = some t) :
    ∃ as : List (Action M), (∀ a ∈ as, a.unasked = true) ∧
      ∃ r, (t, r) ∈ reports (w.run as).history := by
  refine exists_unasked (P := fun v => ∃ r, (t, r) ∈ reports v.history) (I := fun v =>
    v.ledger.Reachable ∧ v.ledger.Alert ∧ v.board.lifecycle.hasEnded = true ∧
      v.board.token = some t) rank ?_ ⟨hw, halert, hended, ht⟩
  rintro w ⟨hw, halert, hended, ht⟩
  obtain ⟨as, has, hadvances⟩ := exists_advances hM hw halert hended ht
  have hledger := ledger_run_ambient w has
  refine .inr ⟨as, has, ?_⟩
  rw [← rank_eq_of_ledger_eq hledger]
  generalize w.run as = v at *
  rw [← hledger] at hw halert
  have hended : v.board.lifecycle.hasEnded = true :=
    (congrArg (·.board.lifecycle.hasEnded) hledger).trans hended
  have ht : v.board.token = some t := (congrArg (·.board.token) hledger).trans ht
  rcases work_executing hw ht with ⟨htoken, hlifecycle⟩ | hreport
  · exact .inr ⟨⟨hw.steps (v.steps_work hw.signalled), alert_work hw halert, hlifecycle ▸ hended,
      htoken⟩, v.rank_work hw hadvances⟩
  · exact .inl hreport

end

end World

end RoverPilot
