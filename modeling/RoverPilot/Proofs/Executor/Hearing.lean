import Mathlib.Tactic
import RoverPilot.Proofs.Executor.Intake
import RoverPilot.Proofs.Stream.Authority

/-!
What the executor makes of the calls of the parser.

* `Action.calls`: the calls of the parser among actions;
* `Lifecycle.hasEnded`, `Lifecycle.Follows`: no more commands may come, or only those of the
  batch that the calls so far are at;
* `History.enrolled`, `World.work_spec`: all accepted commands, with which the worker has nothing
  to do;
* `World.Heard`, `World.heard_run`: after orderly calls the lifecycle follows them, and each
  accepted command was brought by a call of its own for the batch that executes, in order.
-/

namespace RoverPilot

open History

variable {M : Machinery}

/-! ### Calls among actions -/

namespace Action

/-- The call of the parser that an action is. -/
def call? : Action M → Option Call
  | .call c => some c
  | _ => none

/-- The calls of the parser among actions, in order. -/
def calls (as : List (Action M)) : List Call := as.filterMap call?

variable (a : Action M) (as bs : List (Action M))

@[simp] lemma calls_nil : calls ([] : List (Action M)) = [] := rfl

@[simp] lemma calls_cons : calls (a :: as) = a.call?.toList ++ calls as := by
  cases h : a.call? <;> simp [calls, h]

@[simp] lemma calls_append : calls (as ++ bs) = calls as ++ calls bs := List.filterMap_append

end Action

/-! ### Lifecycles and calls -/

namespace Lifecycle

/-- No more commands may come: the stream of the last header has ended, or its batch is not to
receive any. -/
def hasEnded : Lifecycle → Bool
  | executing _ => false
  | collecting _ _ closed => closed
  | _ => true

/-- The commands that may come are those of the given batch, if any. -/
def Follows (batch : Option BatchId) : Lifecycle → Prop
  | executing b => batch = some b
  | collecting _ i closed => batch = if closed then none else some i
  | _ => True

variable {l : Lifecycle} {batch : Option BatchId}

/-- A header makes its batch the one whose commands may come. -/
lemma follows_start (l : Lifecycle) (b : BatchId) : (l.start b).2.Follows (some b) := by
  cases l <;> rfl

/-- The end of a stream leaves no batch whose commands may come. -/
lemma follows_finish (l : Lifecycle) : l.finish.2.Follows none := by
  cases l <;> trivial

/-- A command of the batch whose commands may come leaves it so. -/
lemma Follows.enqueue {b : BatchId} (h : l.Follows (some b)) (c : Command) :
    (l.enqueue c).2.Follows (some b) := by
  cases l with
  | collecting e i closed =>
      cases closed with
      | true => cases h
      | false =>
          simp only [Lifecycle.enqueue]
          split
          · exact h
          · trivial
  | _ => exact h

/-- The waiting batch takes the place of the one that is over as open or ended as it was. -/
lemma Follows.finalize (h : l.Follows batch) : l.finalize.2.Follows batch := by
  cases l with
  | collecting e i closed =>
      cases closed with
      | true => trivial
      | false => exact h
  | _ => trivial

/-- If there is no batch whose commands may come, none may. -/
lemma Follows.hasEnded (h : l.Follows none) : l.hasEnded = true := by
  cases l with
  | executing b => cases h
  | collecting e i closed =>
      cases closed with
      | true => rfl
      | false => cases h
  | _ => rfl

@[simp] lemma hasEnded_finish (l : Lifecycle) : l.finish.2.hasEnded = true := by
  cases l <;> rfl

lemma hasEnded_finalize (h : l.hasEnded = true) : l.finalize.2.hasEnded = true := by
  cases l with
  | collecting e i closed =>
      obtain rfl : closed = true := h
      rfl
  | _ => rfl

end Lifecycle

/-! ### Accepted commands -/

/-- A command accepted into some activation. -/
@[simp] def Event.enrolled? : Event M → Option (Token × Command)
  | .accepted t c => some (t, c)
  | _ => none

/-- All accepted commands with their activations, in order. -/
abbrev History.enrolled (h : List (Event M)) : List (Token × Command) := view Event.enrolled? h

lemma History.mem_accepted_of_enrolled {h : List (Event M)} {t : Token} {c : Command}
    (hc : (t, c) ∈ enrolled h) : c ∈ accepted t h := by
  obtain ⟨e, he, heq⟩ := mem_view.mp hc
  cases e with
  | accepted u c' =>
      obtain ⟨rfl, rfl⟩ : u = t ∧ c' = c := by simpa using heq
      exact mem_view.mpr ⟨_, he, by simp⟩
  | _ => cases heq

namespace World

variable {w v : World M}

/-- Where the intake of each activation is the same, no command was accepted. -/
lemma SameIntake.enrolled (h : SameIntake w v) (hpre : w.history <+: v.history) :
    enrolled v.history = enrolled w.history := by
  obtain ⟨new, hnew⟩ := hpre
  have hnone : History.enrolled new = [] := by
    rw [List.eq_nil_iff_forall_not_mem]
    rintro ⟨t, c⟩ hc
    have hmem := mem_accepted_of_enrolled hc
    have hsame : History.accepted t (w.history ++ new) = History.accepted t w.history :=
      hnew ▸ h.accepted t
    have hempty : History.accepted t new = [] := by simpa using hsame
    rw [hempty] at hmem
    cases hmem
  simp [← hnew, hnone]

/-- The next thing that the worker does is to report a batch, which is over then. -/
def Retires (w : World M) (b : BatchId) (t : Token) : Prop :=
  w.worker.phase = .finishing b t [] ∧ w.board.epoch = w.worker.epoch

/-- The worker leaves alone what the board receives, unless a batch is over. -/
lemma sameIntake_work_of_not_retires (hs : w.board.Signalled) (hp : ∀ b t, ¬ w.Retires b t) :
    SameIntake w w.work := by
  by_cases hphase : ∃ b t, w.worker.phase = .finishing b t []
  · obtain ⟨b, t, hphase⟩ := hphase
    have he : w.board.epoch ≠ w.worker.epoch := fun he => hp b t ⟨hphase, he⟩
    rw [work, hphase]
    simp only [retire, if_pos he]
    exact ⟨rfl, rfl, rfl, fun u => by simp [history, note, enter]⟩
  · push Not at hphase
    exact w.sameIntake_work hs hphase

lemma Retires.work {b : BatchId} {t : Token} (h : w.Retires b t) : w.work = w.retire b t := by
  rw [World.work, h.1]

/-- The batch that is over is the executing one. -/
lemma Retires.active {b : BatchId} {t : Token} (h : w.Retires b t) (hw : w.ledger.Reachable) :
    w.board.active? = some (t, b) :=
  hw.attached_active h.2 (by simp [h.1])

lemma Retires.exists_report {b : BatchId} {t : Token} (h : w.Retires b t) :
    ∃ r, (t, r) ∈ reports w.work.history := by
  rw [h.work, retire]
  simp only [if_neg (not_not.mpr h.2)]
  exact ⟨.ofOutcome b w.worker.outcome, by simp [history, note, enter]⟩

/-- The worker accepts no command, and changes the lifecycle only where it retires a batch. -/
lemma work_spec (hw : w.ledger.Reachable) :
    (w.work.board.lifecycle = w.board.lifecycle ∨
      w.work.board.lifecycle = w.board.lifecycle.finalize.2) ∧
    w.work.board.closing = w.board.closing ∧
    enrolled w.work.history = enrolled w.history := by
  by_cases hover : ∃ b t, w.Retires b t
  · obtain ⟨b, t, hover⟩ := hover
    rw [hover.work, retire]
    simp only [if_neg (not_not.mpr hover.2)]
    refine ⟨.inr ?_, ?_, ?_⟩ <;> split <;> simp only [clearBoard] <;> split <;>
      simp [activate, history, note, enter, cancel]
  · push Not at hover
    have hsame := sameIntake_work_of_not_retires hw.signalled hover
    exact ⟨.inl hsame.lifecycle, hsame.closing,
      hsame.enrolled (w.steps_work hw.signalled).history_isPrefix⟩

/-! ### What was heard -/

/-- The accepted commands were brought by calls, each by one of its own, in order, for the
batches that executed. -/
def Brought (h : List (Event M)) (cs : List Call) : Prop :=
  List.SublistForall₂ (fun x e => (x.1, e.1) ∈ activations h ∧ x.2 = e.2) (enrolled h)
    (Call.entries none cs)

/-- The executor has heard some calls of the parser. -/
structure Heard (w : World M) (cs : List Call) : Prop where
  /-- The commands that may come are those of the batch that the calls are at. -/
  follows : w.board.closing = false → w.board.lifecycle.Follows (Call.current none cs)
  /-- None may come after a shutdown. -/
  ended : w.board.closing = true → w.board.lifecycle.hasEnded = true
  /-- The accepted commands were brought by the calls. -/
  brought : Brought w.history cs

variable {cs : List Call}

lemma heard_fresh (p : M.Plant) (ch : Channel) (d : Nat) : (fresh p ch d).Heard [] :=
  ⟨fun _ => trivial, fun _ => rfl, .nil⟩

/-- Later calls and events leave that as it is, if no command is accepted. -/
lemma Brought.mono {h h' : List (Event M)} (hb : Brought h cs) (hpre : h <+: h')
    (henrolled : enrolled h' = enrolled h) (ds : List Call) : Brought h' (cs ++ ds) := by
  have hactivations : activations h <+: activations h' := hpre.filterMap _
  rw [Brought, henrolled, Call.entries_append]
  refine List.append_nil (enrolled h) ▸ sublistForall₂_append (sublistForall₂_imp ?_ hb) .nil
  exact fun x e hx => ⟨hactivations.subset hx.1, hx.2⟩

lemma board_start (w : World M) (b : BatchId) :
    (w.start b).board.lifecycle = (w.board.lifecycle.start b).2 ∧
      (w.start b).board.closing = w.board.closing := by
  rw [start]
  generalize w.board.lifecycle.start b = r
  obtain ⟨admission, lifecycle⟩ := r
  cases admission <;> exact ⟨rfl, rfl⟩

lemma board_enqueue (w : World M) (c : Command) :
    (w.enqueue c).1.board.lifecycle = (w.board.lifecycle.enqueue c).2 ∧
      (w.enqueue c).1.board.closing = w.board.closing := by
  rw [enqueue]
  generalize w.board.lifecycle.enqueue c = r
  obtain ⟨decision, lifecycle⟩ := r
  cases decision with
  | accept b => cases ht : w.board.token <;> simp [ht, note]
  | preempt b i => cases ht : w.board.token <;> simp [ht, preempt, note, cancel, halt, activate]
  | reject cause => simp [note]

lemma board_stopUpdate (w : World M) : w.stopUpdate.board = w.board := by
  simp only [stopUpdate]
  split <;> rfl

/-- A command that is accepted was brought for the batch that executes. -/
lemma Heard.brought_enqueue (h : w.Heard cs) (hw : w.ledger.Reachable) {c : Command}
    (hpre : w.history <+: (w.enqueue c).1.history) {b : BatchId}
    (hb : Call.current none cs = some b) (hfollows : w.board.lifecycle.Follows (some b)) :
    Brought (w.enqueue c).1.history (cs ++ [.enqueue c]) := by
  cases hl : w.board.lifecycle with
  | executing e =>
      obtain rfl : b = e := by simpa [hl, Lifecycle.Follows] using hfollows
      obtain ⟨t, ht, ha⟩ := hw.signalled.exists_active (congrArg Lifecycle.executing? hl)
      have hmem : (t, b) ∈ activations w.history := hw.active_mem ha
      have hhistory : (w.enqueue c).1.history = w.history ++ [.accepted t c] := by
        rw [ledger_board] at ht
        simp [enqueue, Lifecycle.enqueue, hl, ht, history, note]
      rw [hhistory]
      rw [Brought, Call.entries_append, hb, History.enrolled, view_append]
      refine sublistForall₂_append (sublistForall₂_imp ?_ h.brought) (.cons ⟨?_, rfl⟩ .nil)
      · exact fun x e hx => ⟨by simpa using hx.1, hx.2⟩
      · simpa using hmem
  | collecting e i closed =>
      refine h.brought.mono hpre ?_ _
      cases hc : c.hasName preemptingName with
      | true =>
          cases ht : w.board.token <;>
            simp [enqueue, Lifecycle.enqueue, hl, hc, preempt, ht, history, note, cancel, halt,
              activate]
      | false => simp [enqueue, Lifecycle.enqueue, hl, hc, history, note]
  | idle | finishCalled e | ignoring e i =>
      refine h.brought.mono hpre ?_ _
      simp [enqueue, Lifecycle.enqueue, hl, history, note]

lemma Heard.of_open (hopen : w.board.closing = false)
    (hfollows : w.board.lifecycle.Follows (Call.current none cs))
    (hbrought : Brought w.history cs) : w.Heard cs :=
  ⟨fun _ => hfollows, fun hclosed => absurd (hopen.symm.trans hclosed) Bool.false_ne_true, hbrought⟩

lemma Heard.start (h : w.Heard cs) (hopen : w.board.closing = false) (b : BatchId)
    (hpre : w.history <+: (w.start b).history) : (w.start b).Heard (cs ++ [.start b]) := by
  obtain ⟨hlifecycle, hclosing⟩ := w.board_start b
  have henrolled : enrolled (w.start b).history = enrolled w.history := by
    simp only [World.start]
    split <;> simp [activate, history, note]
  refine .of_open (hclosing.trans hopen) ?_ (h.brought.mono hpre henrolled _)
  rw [Call.current_append]
  exact hlifecycle ▸ Lifecycle.follows_start _ b

lemma Heard.enqueue (h : w.Heard cs) (hw : w.ledger.Reachable) (hopen : w.board.closing = false)
    {c : Command} (hpre : w.history <+: (w.enqueue c).1.history) {b : BatchId}
    (hb : Call.current none cs = some b) : (w.enqueue c).1.Heard (cs ++ [.enqueue c]) := by
  have hfollows : w.board.lifecycle.Follows (some b) := hb ▸ h.follows hopen
  obtain ⟨hlifecycle, hclosing⟩ := w.board_enqueue c
  refine .of_open (hclosing.trans hopen) ?_ (h.brought_enqueue hw hpre hb hfollows)
  rw [Call.current_append, hb]
  exact hlifecycle ▸ hfollows.enqueue c

lemma Heard.finishStream (h : w.Heard cs) (hopen : w.board.closing = false) :
    w.finishStream.Heard (cs ++ [.finish]) := by
  refine .of_open hopen ?_ (h.brought.mono (List.prefix_refl _) rfl _)
  rw [Call.current_append]
  exact Lifecycle.follows_finish _

/-- A call of the parser that brings a command only within a batch. -/
lemma Heard.act_call (h : w.Heard cs) (hw : w.ledger.Reachable) {c : Call}
    (hc : Call.current none cs = none → c.command? = none) :
    (w.act (.call c)).Heard (cs ++ [c]) := by
  have hpre := (w.steps_act (.call c) hw.signalled).history_isPrefix
  cases hopen : w.board.closing with
  | true =>
      have hact : w.act (.call c) = w := by simp [World.act, hopen]
      rw [hact]
      exact ⟨fun hopen' => absurd (hopen'.symm.trans hopen) Bool.false_ne_true, h.ended,
        h.brought.mono (List.prefix_refl _) rfl [c]⟩
  | false =>
      have hact : w.act (.call c) = (w.update c).1 := by simp [World.act, hopen]
      rw [hact] at hpre ⊢
      cases c with
      | start b => exact h.start hopen b hpre
      | finish => exact h.finishStream hopen
      | enqueue c =>
          obtain ⟨b, hb⟩ : ∃ b, Call.current none cs = some b :=
            Option.ne_none_iff_exists'.mp fun hnone => by simpa [Call.command?] using hc hnone
          exact h.enqueue hw hopen hpre hb

/-- Anything else leaves what was heard as it is. -/
lemma Heard.act (h : w.Heard cs) (hw : w.ledger.Reachable) {a : Action M} (ha : a.call? = none) :
    (w.act a).Heard cs := by
  have hpre := (w.steps_act a hw.signalled).history_isPrefix
  have hmono {v : World M} (hpre : w.history <+: v.history)
      (henrolled : enrolled v.history = enrolled w.history) : Brought v.history cs :=
    List.append_nil cs ▸ h.brought.mono hpre henrolled []
  cases a with
  | call c => cases ha
  | stop =>
      have hboard := w.board_stopUpdate
      have henrolled : enrolled w.stopUpdate.history = enrolled w.history := by
        simp only [stopUpdate]
        split <;> simp [history, note, halt, cancel]
      exact ⟨hboard ▸ h.follows, hboard ▸ h.ended, hmono hpre henrolled⟩
  | close =>
      refine ⟨fun hopen => ?_, fun _ => Lifecycle.hasEnded_finish _, hmono hpre ?_⟩
      · cases hopen
      · simp [World.act, closeUpdate, World.finishStream, history, note]
  | work =>
      obtain ⟨hlifecycle, hclosing, henrolled⟩ := work_spec hw
      refine ⟨fun hopen => ?_, fun hclosed => ?_, hmono hpre henrolled⟩
      · have hfollows := h.follows (hclosing.symm.trans hopen)
        rcases hlifecycle with heq | heq
        · exact heq ▸ hfollows
        · exact heq ▸ hfollows.finalize
      · have hended := h.ended (hclosing.symm.trans hclosed)
        rcases hlifecycle with heq | heq
        · exact heq ▸ hended
        · exact heq ▸ Lifecycle.hasEnded_finalize hended
  | rouse | background | pass | disturb | receive | hangUp =>
      exact ⟨h.follows, h.ended, h.brought⟩

/-- After a run with orderly calls the executor has heard them. -/
lemma Heard.run (h : w.Heard cs) (hw : w.ledger.Reachable) (as : List (Action M))
    (has : Call.Orderly (Call.current none cs) (Action.calls as)) :
    (w.run as).Heard (cs ++ Action.calls as) := by
  induction as generalizing w cs with
  | nil => simpa using h
  | cons a as ih =>
      have hact := hw.steps (w.steps_act a hw.signalled)
      cases ha : a.call? with
      | none =>
          rw [Action.calls_cons, ha] at has ⊢
          exact ih (h.act hw ha) hact has
      | some c =>
          obtain rfl : a = .call c := by cases a <;> simp_all [Action.call?]
          rw [Action.calls_cons, ha] at has ⊢
          have hrun := ih (h.act_call hw has.1) hact (by simpa using has.2)
          simpa using hrun

end World

/-- After every run in which commands come only within a batch the executor has heard its calls,
in whatever order these, a stop, a shutdown and the worker take their turns. -/
theorem World.heard_run (p : M.Plant) (ch : Channel) (d : Nat) (as : List (Action M))
    (has : Call.Orderly none (Action.calls as)) :
    ((fresh p ch d).run as).Heard (Action.calls as) := by
  simpa using (heard_fresh p ch d).run .initial as has

end RoverPilot
