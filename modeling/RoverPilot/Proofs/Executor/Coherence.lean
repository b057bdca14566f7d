import Mathlib.Tactic
import RoverPilot.Proofs.Batch.Fields
import RoverPilot.Proofs.Executor.Finishing
import RoverPilot.Proofs.Executor.Hearing
import RoverPilot.Proofs.Executor.Shutdown

/-!
What control calls and the worker share hangs together.

* `World.fields`: the open batches after a run, kept in four fields beside the board;
  `World.shows_run`: they show its lifecycle;
* `History.starters`, `Ledger.Mustered`, `Ledger.Reachable.mustered`: the handlers that the worker
  has begun for a batch are those that have begun to finish for it, those that it is going
  through and those that it remembers;
* `Ledger.Reachable.cancelled_iff`: the signal of the executing batch is given exactly if the
  operator stopped the robot under it;
* `Ledger.Reachable.outcome_eq`: what the worker remembers of how the executing batch goes is the
  first outcome of it that is not good;
* `World.Coherent`, `World.run_coherent`: how fields, board, worker and signals hang together
  after every run.
-/

namespace RoverPilot

open History

variable {M : Machinery}

/-! ### The open batches in four fields -/

/-- A call of the parser. -/
def Lifecycle.Fields.update (f : Lifecycle.Fields) : Call → Lifecycle.Fields
  | .start b => (f.start b).2
  | .enqueue c => (f.enqueue c).2
  | .finish => f.finish.2

namespace World

variable {w : World M} {f : Lifecycle.Fields}

/-- The four fields after an action, which changes them as it changes the board. -/
def track (w : World M) (f : Lifecycle.Fields) : Action M → Lifecycle.Fields
  | .call c => if w.board.closing then f else f.update c
  | .close => f.finish.2
  | .work =>
    match w.worker.phase with
    | .finishing _ _ [] => if w.board.epoch = w.worker.epoch then f.finalize.2 else f
    | _ => f
  | _ => f

/-- The four fields after a run. -/
def fields (w : World M) (f : Lifecycle.Fields) : List (Action M) → Lifecycle.Fields
  | [] => f
  | a :: as => (w.act a).fields (w.track f a) as

lemma Retires.lifecycle {b : BatchId} {t : Token} (h : w.Retires b t) :
    w.work.board.lifecycle = w.board.lifecycle.finalize.2 := by
  rw [h.work, retire]
  simp only [if_neg (not_not.mpr h.2)]
  split <;> simp only [clearBoard] <;> split <;> rfl

lemma Retires.track {b : BatchId} {t : Token} (h : w.Retires b t) (f : Lifecycle.Fields) :
    w.track f .work = f.finalize.2 := by
  simp [World.track, h.1, h.2]

lemma track_work_of_not_retires (hp : ∀ b t, ¬ w.Retires b t) (f : Lifecycle.Fields) :
    w.track f .work = f := by
  rw [track]
  split
  · rename_i b t hphase
    exact if_neg fun he => hp b t ⟨hphase, he⟩
  · rfl

lemma shows_update (h : f.Shows w.board.lifecycle) (c : Call) :
    (f.update c).Shows (w.update c).1.board.lifecycle := by
  cases c with
  | start b => exact (w.board_start b).1 ▸ (h.start b).2
  | enqueue c => exact (w.board_enqueue c).1 ▸ (h.enqueue c).2
  | finish => exact h.finish.2

/-- The fields keep in step with the board. -/
lemma shows_act (h : f.Shows w.board.lifecycle) (hw : w.ledger.Reachable) (a : Action M) :
    (w.track f a).Shows (w.act a).board.lifecycle := by
  cases a with
  | call c =>
      rw [track, act]
      split
      · exact h
      · exact shows_update h c
  | stop => exact w.board_stopUpdate ▸ h
  | close => exact h.finish.2
  | work =>
      by_cases hover : ∃ b t, w.Retires b t
      · obtain ⟨b, t, hover⟩ := hover
        rw [hover.track]
        exact hover.lifecycle ▸ h.finalize.2
      · push Not at hover
        rw [track_work_of_not_retires hover]
        exact (sameIntake_work_of_not_retires hw.signalled hover).lifecycle ▸ h
  | rouse | background | pass | disturb | receive | hangUp => exact h

/-- Fields that show a lifecycle show it after every run. -/
lemma shows_run (h : f.Shows w.board.lifecycle) (hw : w.ledger.Reachable) (as : List (Action M)) :
    (w.fields f as).Shows (w.run as).board.lifecycle := by
  induction as generalizing w f with
  | nil => exact h
  | cons a as ih => exact ih (shows_act h hw a) (hw.steps (w.steps_act a hw.signalled))

end World

/-! ### Handlers -/

/-- The handler that begins a command of an activation. -/
@[simp] def Event.starter? (t : Token) : Event M → Option M.Handler
  | .began u _ k => if u = t then some k else none
  | _ => none

/-- The handlers that have begun a command of an activation, in order. -/
abbrev History.starters (t : Token) (h : List (Event M)) : List M.Handler :=
  view (Event.starter? t) h

namespace Ledger

variable {l l' : Ledger M} {t : Token}

lemma about_starter? (t : Token) : About t (Event.starter? (M := M) t) := by
  intro e a ha
  cases e <;> simp_all

lemma about_finisher? (t : Token) : About t (Event.finisher? (M := M) t) := by
  intro e a ha
  cases e <;> simp_all

/-- A worker that goes through the handlers of a batch, or has no batch, remembers none. -/
lemma Reachable.started_eq_nil (h : Reachable l)
    (hp : l.worker.phase.finishing?.isSome ∨ l.board.token = none) : l.worker.started = [] := by
  induction h with
  | initial => rfl
  | step hr hs ih =>
      cases hs with
      -- a command that begins is of the executing batch
      | begin b u c k _ hw _ he | doAtOnce b u c k _ hw _ he =>
          have ha := hr.attached_active he (t := u) (b := b) (by rw [hw]; rfl)
          simp_all
      | _ => simp_all

/-- The handlers that have begun for an activation, if it is the executing one: those that have
begun to finish for it, those that the worker is going through and those that it remembers. -/
def Mustered (t : Token) (l : Ledger M) : Prop :=
  finishes t l.history ++ l.mind.phase.left t ++ l.mind.started = starters t l.history

lemma mustered_iff (he : l.board.epoch = l.worker.epoch) :
    Mustered t l ↔ finishes t l.history ++ l.worker.phase.left t ++ l.worker.started =
      starters t l.history := by
  rw [Mustered, mind_eq he]

lemma mustered_iff_of_stale (he : l.board.epoch ≠ l.worker.epoch) :
    Mustered t l ↔ finishes t l.history = starters t l.history := by
  rw [Mustered, mind_eq_fresh he]
  simp

/-- None has begun for a new activation. -/
lemma Reachable.starters_fresh (h : Reachable l) :
    finishes l.tokens l.history = [] ∧ starters l.tokens l.history = [] :=
  ⟨h.view_eq_nil (about_finisher? _) (Nat.le_refl _),
    h.view_eq_nil (about_starter? _) (Nat.le_refl _)⟩

lemma Reachable.left_fresh (h : Reachable l) : l.worker.phase.left l.tokens = [] := by
  have hlt {u : Token} {b : BatchId} := h.attached_lt (t := u) (b := b)
  cases hp : l.worker.phase with
  | finishing b u ks | finishingCall b u a ks =>
      have hu : u ≠ l.tokens := Nat.ne_of_lt (hlt (b := b) (by rw [hp]; rfl))
      simp [hu]
  | _ => rfl

/-- In every reachable ledger the handlers of the executing batch are mustered. -/
theorem Reachable.mustered (h : Reachable l) (ht : l.board.token = some t) : Mustered t l := by
  induction h generalizing t with
  | initial => cases ht
  | step hr hs ih =>
      rename_i l l'
      cases hs with
      | start b hopen hl =>
          obtain rfl : l.tokens = t := Option.some.inj ht
          have hnone : l.board.token = none := by
            simpa [Board.Signalled, hl] using hr.signalled
          rw [mustered_iff (by exact (hr.idle hnone).1)]
          simpa [hr.starters_fresh, hr.started_eq_nil (.inr hnone)] using hr.left_fresh
      | preempt b i k u c =>
          obtain rfl : l.tokens = t := Option.some.inj ht
          have hle := hr.epoch_le
          rw [mustered_iff_of_stale (by simp only; omega)]
          simp [hr.starters_fresh]
      | promote b u d e i closed hp he =>
          obtain rfl : l.tokens = t := Option.some.inj ht
          rw [mustered_iff (by exact he)]
          simp [hr.starters_fresh, hr.started_eq_nil (.inl (by simp [hp]))]
      | retire => cases ht
      | begin b u c k _ hp _ he | doAtOnce b u c k _ hp _ he =>
          have hu := hr.attached_active he (t := u) (b := b) (by rw [hp]; rfl)
          obtain rfl : u = t :=
            Option.some.inj ((Board.active?_eq_some_iff.mp hu).1.symm.trans ht)
          have h := (mustered_iff he).mp (ih ht)
          rw [mustered_iff (by exact he)]
          simpa [hp, ← List.append_assoc] using h
      | notice hp he =>
          have h := (mustered_iff_of_stale he).mp (ih ht)
          rw [mustered_iff rfl]
          simp [hp, h]
      | _ =>
          have h := ih ht
          by_cases he : l.board.epoch = l.worker.epoch
          · rw [mustered_iff (by exact he)]
            rw [mustered_iff he] at h
            have hown {u : Token} {b : BatchId}
                (hp : l.worker.phase.attached? = some (u, b)) : l.board.token = some u :=
              (Board.active?_eq_some_iff.mp (hr.attached_active he hp)).1
            clear ih
            simp_all
          · rw [mustered_iff_of_stale (by exact he)]
            rw [mustered_iff_of_stale he] at h
            have hforeign {u : Token} {b : BatchId} := hr.attached_ne ht he (u := u) (b := b)
            clear ih
            simp_all

/-! ### Outcomes and signals -/

end Ledger

/-- The outcome that the worker remembers is the first bad one. -/
lemma Standing.firstBad_eq {o : Outcome} {p : Hand} {q : List Command} {acc : Bool}
    {tr : List (Option Command × Outcome)} {bg ac : List Command}
    (h : Standing o p q acc tr bg ac) : firstBad tr = o := by
  cases h with
  | good done ho htrail => simp [firstBad, htrail, ho, Function.comp_def, Outcome.isOk]
  | bad done c? ho htrail => simp [firstBad, htrail, Function.comp_def, Outcome.isOk, ho]

namespace History

variable {t : Token} {e e' : Event M} {h : List (Event M)}

@[simp] lemma stoppedUnder_append_singleton :
    StoppedUnder t (h ++ [e]) ↔ StoppedUnder t h ∨ e = .stopped ∧ Executing t h := by
  simp only [StoppedUnder, List.prefix_concat_iff]
  constructor
  · rintro ⟨pre, heq | hpre, hexec⟩
    · obtain ⟨rfl, hlast⟩ := List.append_inj' heq rfl
      cases hlast
      exact .inr ⟨rfl, hexec⟩
    · exact .inl ⟨pre, hpre, hexec⟩
  · rintro (⟨pre, hpre, hexec⟩ | ⟨rfl, hexec⟩)
    · exact ⟨pre, .inr hpre, hexec⟩
    · exact ⟨h, .inl rfl, hexec⟩

@[simp] lemma stoppedUnder_append_pair :
    StoppedUnder t (h ++ [e, e']) ↔
      StoppedUnder t (h ++ [e]) ∨ e' = .stopped ∧ Executing t (h ++ [e]) := by
  rw [List.append_cons, stoppedUnder_append_singleton]

/-- An activation under which the operator stopped the robot has begun. -/
lemma StoppedUnder.exists_activation (hs : StoppedUnder t h) : ∃ b, (t, b) ∈ activations h := by
  obtain ⟨pre, hpre, ⟨b, hb⟩, -⟩ := hs
  have hsub : pre <+: h := (List.prefix_append _ _).trans hpre
  exact ⟨b, (hsub.filterMap _).subset hb⟩

end History

namespace Ledger

variable {l l' : Ledger M} {t : Token}

/-- A worker that has seen every preemption remembers of the executing batch the first outcome
that is not good. -/
lemma Reachable.outcome_eq (h : Reachable l) (ht : l.board.token = some t)
    (he : l.board.epoch = l.worker.epoch) :
    l.worker.outcome = firstBad (trail t l.history) :=
  ((stands_iff he).mp (h.stands ht)).firstBad_eq.symm

/-- A stop by the operator gives the signal of the executing batch, and it stays given. -/
lemma Reachable.cancelled_of_stopped (h : Reachable l) (ht : l.board.token = some t)
    (hstop : StoppedUnder t l.history) : t ∈ l.cancelled := by
  induction h generalizing t with
  | initial => cases ht
  | step hr hs ih =>
      rename_i l l'
      have hlt (hstop : StoppedUnder t l.history) : t < l.tokens := by
        obtain ⟨b, hb⟩ := hstop.exists_activation
        exact List.mem_range.mp (hr.numbered ▸ List.mem_map_of_mem (f := Prod.fst) hb)
      have hs' := hs
      cases hs with
      | stop =>
          have htoken : t ∈ l.board.token.toList := by simpa using ht
          exact List.mem_append_left _ htoken
      -- under a new activation the operator has not stopped the robot yet
      | start | preempt | promote =>
          obtain rfl : l.tokens = t := Option.some.inj ht
          exact absurd (hlt (by simpa using hstop)) (Nat.lt_irrefl _)
      | retire => cases ht
      | _ => exact hs'.cancelled_subset (ih ht (by simpa using hstop))

/-- The signal of the executing batch is given exactly if the operator stopped the robot under
it. -/
theorem Reachable.cancelled_iff (h : Reachable l) (ht : l.board.token = some t) :
    t ∈ l.cancelled ↔ StoppedUnder t l.history :=
  ⟨fun hc => h.stopped_of_active hc ht, h.cancelled_of_stopped ht⟩

/-- The executing activation is the last one, under a number that no earlier one has. -/
lemma Reachable.exists_earlier (h : Reachable l) {b : BatchId}
    (ha : l.board.active? = some (t, b)) :
    ∃ earlier, activations l.history = earlier ++ [(t, b)] ∧ t ∉ earlier.map Prod.fst := by
  have ht := (Board.active?_eq_some_iff.mp ha).1
  have hnumbered := h.numbered
  rw [← h.token_succ ht, List.range_succ, List.map_eq_append_iff] at hnumbered
  obtain ⟨earlier, last, heq, hearlier, hlast⟩ := hnumbered
  obtain ⟨⟨u, b'⟩, rfl, rfl⟩ := List.map_eq_singleton_iff.mp hlast
  obtain rfl : b' = b := h.activation_unique (by simp [heq]) (h.active_mem ha)
  exact ⟨earlier, heq, by simp [hearlier]⟩

end Ledger

/-! ### All of it -/

/-- How the open batches in four fields hang together with the board, the worker and the
signals. -/
structure World.Coherent (w : World M) (f : Lifecycle.Fields) : Prop where
  /-- The fields show the lifecycle of the board. -/
  shows : f.Shows w.board.lifecycle
  /-- A batch executes exactly if the stage is not idle, one is behind it exactly while its first
  command is awaited or its commands are dropped, and only then a stream is marked as ended. -/
  sound : f.Sound
  /-- A signal is stored exactly while a batch executes. -/
  token : w.board.token.isSome = f.executing.isSome
  /-- Without an executing batch no command waits, and the worker has seen every preemption and
  remembers nothing. -/
  idle : f.executing = none → w.board.queue = [] ∧ w.board.epoch = w.worker.epoch ∧
    w.worker.started = [] ∧ w.worker.outcome = .ok
  /-- The executing batch is the last one activated.  No other activation has its signal, which is
  given exactly if the operator stopped the robot under it, and the commands that wait are the
  last ones accepted into it. -/
  executing : ∀ t b, w.board.token = some t → f.executing = some b →
    (∃ earlier, activations w.history = earlier ++ [(t, b)] ∧ t ∉ earlier.map Prod.fst) ∧
      (t ∈ w.cancelled ↔ StoppedUnder t w.history) ∧ w.board.queue <:+ accepted t w.history
  /-- What a worker that has seen every preemption remembers is of the executing batch: the
  handlers that have begun for it and are not to finish yet, and the first outcome of it that is
  not good. -/
  current : ∀ t, w.board.token = some t → w.board.epoch = w.worker.epoch →
    finishes t w.history ++ w.worker.phase.left t ++ w.worker.started = starters t w.history ∧
      w.worker.outcome = firstBad (trail t w.history)
  /-- A look at the board finds the signal of the executing batch, and makes up none. -/
  found : f.executing.isSome → w.noticePreemption.currentToken.2 = w.noticePreemption
  /-- The fields decide on a command as the lifecycle does. -/
  decides : ∀ c, (f.enqueue c).1 = (w.board.lifecycle.enqueue c).1
  /-- Where they do not fit their stage, no batch executes, or the stream of the executing one has
  ended. -/
  dropped : ∀ c s, (f.enqueue c).1 = .reject (.notAccepting s) ↔
    s = f.stage ∧ (f.stage = .idle ∨ f.stage = .finishCalled)

/-- Fields, board, worker and signals hang together after every run, whatever the worker is at
when a control call comes. -/
theorem World.run_coherent (p : M.Plant) (ch : Channel) (d : Nat) (as : List (Action M)) :
    ((fresh p ch d).run as).Coherent ((fresh p ch d).fields {} as) := by
  have hshows := shows_run (w := fresh p ch d) (f := {}) rfl .initial as
  have hw : ((fresh p ch d).run as).ledger.Reachable := reachable_run p ch d as
  generalize (fresh p ch d).run as = w at *
  generalize (fresh p ch d).fields {} as = f at *
  have htoken : w.board.token.isSome = f.executing.isSome := by
    rw [hshows.executing_eq]
    exact hw.signalled
  refine ⟨hshows, hshows.sound, htoken, fun hnone => ?_, fun t b ht hb => ?_, fun t ht he => ?_,
    fun hsome => ?_, fun c => (hshows.enqueue c).1, hshows.enqueue_eq_notAccepting_iff⟩
  · have ht : w.board.token = none := by simpa [hnone] using htoken
    obtain ⟨he, ho, hq, -⟩ := hw.idle ht
    exact ⟨hq, he, hw.started_eq_nil (.inr ht), ho⟩
  · have ha : w.board.active? = some (t, b) :=
      Board.active?_eq_some_iff.mpr ⟨ht, hshows.executing_eq ▸ hb⟩
    exact ⟨hw.exists_earlier ha, hw.cancelled_iff ht, hw.queue_isSuffix ht⟩
  · exact ⟨(Ledger.mustered_iff he).mp (hw.mustered ht), hw.outcome_eq ht he⟩
  · obtain ⟨t, ht⟩ := Option.isSome_iff_exists.mp (htoken.trans hsome)
    rw [currentToken, w.noticePreemption_spec.1, ht]

end RoverPilot
