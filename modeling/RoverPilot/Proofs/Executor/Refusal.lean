import Mathlib.Tactic
import RoverPilot.Proofs.Executor.Alike
import RoverPilot.Proofs.Executor.Stop
import RoverPilot.Proofs.Executor.Wake

/-!
A batch that is refused does not disturb the executing one.

* `Lifecycle.Draining`: a batch executes that receives no more commands, and none waits behind it;
* `World.Lockstep`: two worlds stay alike, and the same calls wake the worker in them;
* `World.Undecided`, `World.Decided`: in one world a batch behind the executing one waits for its
  first command, and what becomes of it is not decided; no batch waits in one world that does not
  in the other;
* `World.run_refused`: after a header whose batch is refused all goes on as after the end of a
  stream in its place.
-/

namespace RoverPilot

open History

variable {M : Machinery}

/-! ### Draining -/

namespace Lifecycle

/-- A batch executes that receives no more commands, and none behind it waits for its first
one. -/
def Draining (a : BatchId) : Lifecycle → Prop
  | finishCalled b => b = a
  | ignoring b _ => b = a
  | _ => False

variable {l : Lifecycle} {a : BatchId}

namespace Draining

variable (h : l.Draining a)

include h

lemma executing? : l.executing? = some a := by
  cases l <;> simp_all [Draining]

lemma isAccepting : l.isAccepting = false := by
  cases l <;> simp_all [Draining, Lifecycle.isAccepting]

lemma start (b : BatchId) : l.start b = (.waits a b, collecting a b false) := by
  rw [Lifecycle.start, h.executing?]

lemma enqueue (c : Command) : ∃ cause, l.enqueue c = (.reject cause, l) := by
  cases l <;> simp_all [Draining, Lifecycle.enqueue]

lemma finish : l.finish.2 = l := by
  cases l <;> simp_all [Draining, Lifecycle.finish]

lemma finalize : l.finalize = (none, idle) := by
  cases l <;> simp_all [Draining, Lifecycle.finalize]

end Draining

/-- A command that does not preempt is dropped once the executing batch receives none, and then no
batch waits behind it. -/
lemma draining_enqueue {c : Command} (hc : c.hasName preemptingName = false)
    (hl : l.executing? = some a) (hacc : l.isAccepting = false) :
    ∃ cause l', l.enqueue c = (.reject cause, l') ∧ l'.Draining a := by
  cases l with
  | idle => cases hl
  | executing b => cases hacc
  | collecting b i k =>
      exact ⟨.incomingNotStop i, .ignoring b i, by simp [enqueue, hc], Option.some.inj hl⟩
  | finishCalled b => exact ⟨_, _, rfl, Option.some.inj hl⟩
  | ignoring b i => exact ⟨_, _, rfl, Option.some.inj hl⟩

end Lifecycle

/-- Whether an action may decide what becomes of a batch that waits: another header, a command or
a shutdown. -/
def Action.decides : Action M → Bool
  | .call (.start _) => true
  | .call (.enqueue _) => true
  | .close => true
  | _ => false

namespace World

/-! ### In lockstep -/

/-- Two worlds stay alike while some actions happen to both, and the same of them are calls that
wake the worker. -/
def Lockstep (w v : World M) : List (Action M) → Prop
  | [] => Alike w v
  | x :: xs => Alike w v ∧ v.wakes x = w.wakes x ∧ Lockstep (w.act x) (v.act x) xs

/-! ### Once it is decided -/

section

variable {w v w' v' : World M} {t : Option Token}

/-- The lifecycles are the same, or the executing batch, of the given signal if there is one,
receives no more commands, and none behind it waits for its first one. -/
structure Decided (t : Option Token) (w v : World M) : Prop where
  alike : Alike w v
  lifecycle : v.board.lifecycle = w.board.lifecycle ∨ (w.board.token = t ∧ t.isSome) ∧
    ∃ a, w.board.lifecycle.Draining a ∧ v.board.lifecycle.Draining a

namespace Decided

variable (h : Decided t w v)

include h

/-- What leaves the lifecycles and the signal as they are decides nothing new. -/
lemma congr (halike : Alike w' v') (hw : w'.board.lifecycle = w.board.lifecycle)
    (hv : v'.board.lifecycle = v.board.lifecycle) (htoken : w'.board.token = w.board.token) :
    Decided t w' v' :=
  ⟨halike, by rw [hw, hv, htoken]; exact h.lifecycle⟩

lemma executing? : v.board.lifecycle.executing? = w.board.lifecycle.executing? := by
  rcases h.lifecycle with heq | ⟨-, a, hw, hv⟩
  · rw [heq]
  · rw [hw.executing?, hv.executing?]

lemma isAccepting : v.board.lifecycle.isAccepting = w.board.lifecycle.isAccepting := by
  rcases h.lifecycle with heq | ⟨-, a, hw, hv⟩
  · rw [heq]
  · rw [hw.isAccepting, hv.isAccepting]

lemma finalize : v.board.lifecycle.finalize = w.board.lifecycle.finalize := by
  rcases h.lifecycle with heq | ⟨-, a, hw, hv⟩
  · rw [heq]
  · rw [hw.finalize, hv.finalize]

/-- Another header finds both the same. -/
lemma start (b : BatchId) : v.board.lifecycle.start b = w.board.lifecycle.start b := by
  rcases h.lifecycle with heq | ⟨-, a, hw, hv⟩
  · rw [heq]
  · rw [hw.start, hv.start]

/-- The end of a stream decides nothing new. -/
lemma finish (halike : Alike w' v') (hw' : w'.board.lifecycle = w.board.lifecycle.finish.2)
    (hv' : v'.board.lifecycle = v.board.lifecycle.finish.2)
    (htoken : w'.board.token = w.board.token) : Decided t w' v' := by
  refine ⟨halike, ?_⟩
  rw [hw', hv', htoken]
  rcases h.lifecycle with heq | ⟨ht, a, hw, hv⟩
  · exact .inl (heq ▸ rfl)
  · exact .inr ⟨ht, a, hw.finish.symm ▸ hw, hv.finish.symm ▸ hv⟩

lemma enqueue (c : Command) :
    Decided t (w.enqueue c).1 (v.enqueue c).1 ∧ (v.enqueue c).2 = (w.enqueue c).2 := by
  rcases h.lifecycle with heq | ⟨ht, a, hw, hv⟩
  · obtain ⟨halike, hwakes, hl⟩ := h.alike.enqueue (c := c) (by rw [heq])
    exact ⟨⟨halike, .inl hl⟩, hwakes⟩
  · obtain ⟨x, hdrop⟩ := hw.enqueue c
    obtain ⟨x', hdrop'⟩ := hv.enqueue c
    obtain ⟨halike, hwakes, hwakes', hboard, hl⟩ := h.alike.enqueue_dropped hdrop hdrop'
    exact ⟨h.congr halike (by rw [hboard]) hl (by rw [hboard]), hwakes'.trans hwakes.symm⟩

lemma work (hw : w.ledger.Reachable) (hv : v.ledger.Reachable) : Decided t w.work v.work := by
  by_cases hover : ∃ b u, w.Retires b u
  · obtain ⟨b, u, hover⟩ := hover
    obtain ⟨halike, hl⟩ := h.alike.retire hover.2 h.finalize b u
    rw [hover.work, (h.alike.retires_iff.mpr hover).work]
    exact ⟨halike, .inl hl⟩
  · push Not at hover
    have hsame := sameIntake_work_of_not_retires hw.signalled hover
    have hsame' := sameIntake_work_of_not_retires hv.signalled
      fun b u => mt h.alike.retires_iff.mp (hover b u)
    exact h.congr (h.alike.work hw.signalled h.executing? h.isAccepting hover) hsame.lifecycle
      hsame'.lifecycle hsame.token

/-- Whatever happens, nothing new is decided, and the same calls wake the worker. -/
lemma act (hw : w.ledger.Reachable) (hv : v.ledger.Reachable) (x : Action M) :
    Decided t (w.act x) (v.act x) ∧ v.wakes x = w.wakes x := by
  cases x with
  | call c =>
      have hclosing := h.alike.closing
      cases hopen : w.board.closing with
      | true =>
          rw [hopen] at hclosing
          simpa [World.act, wakes, hopen, hclosing] using h
      | false =>
          rw [hopen] at hclosing
          simp only [World.act, wakes, hopen, hclosing, Bool.false_eq_true, if_false,
            Bool.not_false, Bool.true_and]
          cases c with
          | start b =>
              obtain ⟨halike, hl⟩ := h.alike.start (h.start b)
              exact ⟨⟨halike, .inl hl⟩, rfl⟩
          | enqueue c => exact h.enqueue c
          | finish => exact ⟨h.finish h.alike.finishStream rfl rfl rfl, rfl⟩
  | stop =>
      have hboard := w.board_stopUpdate
      have hboard' := v.board_stopUpdate
      exact ⟨h.congr h.alike.stopUpdate (congrArg _ hboard) (congrArg _ hboard')
        (congrArg _ hboard), rfl⟩
  | close => exact ⟨h.finish h.alike.closeUpdate rfl rfl rfl, rfl⟩
  | rouse => exact ⟨h.congr (h.alike.map World.rouse (fun _ _ => rfl) rfl) rfl rfl rfl, rfl⟩
  | work => exact ⟨h.work hw hv, rfl⟩
  | background | pass | disturb | receive | hangUp =>
      exact ⟨h.congr (h.alike.act_ambient rfl) rfl rfl rfl, rfl⟩

end Decided

/-- Once it is decided the worlds go on in lockstep. -/
lemma Decided.run (h : Decided t w v) (hw : w.ledger.Reachable) (hv : v.ledger.Reachable)
    (xs : List (Action M)) : Decided t (w.run xs) (v.run xs) ∧ Lockstep w v xs := by
  induction xs generalizing w v with
  | nil => exact ⟨h, h.alike⟩
  | cons x xs ih =>
      obtain ⟨hact, hwakes⟩ := h.act hw hv x
      obtain ⟨hrun, hrest⟩ := ih hact (hw.steps (w.steps_act x hw.signalled))
        (hv.steps (v.steps_act x hv.signalled))
      exact ⟨hrun, h.alike, hwakes, hrest⟩

/-- A batch that has been reported is not draining any more. -/
lemma Decided.lifecycle_eq_of_reported {t : Token} (h : Decided (some t) w v)
    (hw : w.ledger.Reachable) {r : Result} (hr : (t, r) ∈ reports w.history) :
    v.board.lifecycle = w.board.lifecycle :=
  h.lifecycle.resolve_right fun hdraining => (hw.closed_of_reported hr).2.1 hdraining.1.1

lemma Decided.lifecycle_eq (h : Decided none w v) : v.board.lifecycle = w.board.lifecycle :=
  h.lifecycle.resolve_right fun hdraining => by simp at hdraining

/-- Another header that is not refused makes the lifecycles the same. -/
lemma Decided.act_start (h : Decided t w v) (hopen : w.board.closing = false) (b : BatchId) :
    Decided none (w.act (.call (.start b))) (v.act (.call (.start b))) := by
  simp only [World.act, hopen, h.alike.closing, Bool.false_eq_true, if_false]
  obtain ⟨halike, hl⟩ := h.alike.start (h.start b)
  exact ⟨halike, .inl hl⟩

end

/-! ### Before it is decided -/

section

variable {w v : World M} {t : Token} {a : BatchId}

/-- A batch behind the executing one waits for its first command in the first world; in the second
one the executing batch receives no more commands either. -/
structure Undecided (t : Token) (a : BatchId) (w v : World M) : Prop where
  alike : Alike w v
  /-- The signal of the executing batch. -/
  token : w.board.token = some t
  waits : ∃ i closed, w.board.lifecycle = .collecting a i closed
  executing : v.board.lifecycle.executing? = some a
  ended : v.board.lifecycle.isAccepting = false
  notClosing : w.board.closing = false

namespace Undecided

/-- The header of a batch behind the executing one, or the end of a stream in its place. -/
lemma of_start (ht : w.board.active? = some (t, a)) (hopen : w.board.closing = false)
    (b : BatchId) :
    Undecided t a (w.act (.call (.start b))) (w.act (.call .finish)) := by
  obtain ⟨htoken, hexec⟩ := Board.active?_eq_some_iff.mp ht
  have hstart : w.board.lifecycle.start b = (.waits a b, .collecting a b false) := by
    rw [Lifecycle.start, hexec]
  have hstarted : w.act (.call (.start b)) = w.start b := by simp [World.act, hopen, update]
  have hfinished : w.act (.call .finish) = w.finishStream := by simp [World.act, hopen, update]
  rw [hstarted, hfinished, World.start, hstart]
  exact {
    alike := ((Alike.refl w).withLifecycle _ _).note_left rfl
    token := htoken
    waits := ⟨b, false, rfl⟩
    executing := (Lifecycle.executing?_finish _).trans hexec
    ended := Lifecycle.isAccepting_finish _
    notClosing := hopen }

variable (h : Undecided t a w v)

include h

/-- What leaves the boards as they are decides nothing. -/
lemma congr {w' v' : World M} (halike : Alike w' v')
    (hlifecycle : w'.board.lifecycle = w.board.lifecycle) (htoken : w'.board.token = w.board.token)
    (hclosing : w'.board.closing = w.board.closing)
    (hlifecycle' : v'.board.lifecycle = v.board.lifecycle) : Undecided t a w' v' where
  alike := halike
  token := htoken.trans h.token
  waits := hlifecycle ▸ h.waits
  executing := hlifecycle' ▸ h.executing
  ended := hlifecycle' ▸ h.ended
  notClosing := hclosing.trans h.notClosing

lemma executing? : w.board.lifecycle.executing? = some a := by
  obtain ⟨i, closed, hl⟩ := h.waits
  rw [hl]
  rfl

lemma isAccepting : w.board.lifecycle.isAccepting = false := by
  obtain ⟨i, closed, hl⟩ := h.waits
  rw [hl]
  rfl

/-- The end of a stream. -/
lemma finish : Undecided t a w.finishStream v.finishStream := by
  obtain ⟨i, closed, hl⟩ := h.waits
  exact {
    alike := h.alike.finishStream
    token := h.token
    waits := ⟨i, true, by simp [finishStream, hl, Lifecycle.finish]⟩
    executing := (Lifecycle.executing?_finish _).trans h.executing
    ended := Lifecycle.isAccepting_finish _
    notClosing := h.notClosing }

/-- The first command of the batch that waits, if it does not preempt, decides it. -/
lemma decide {c : Command} (hc : c.hasName preemptingName = false) :
    Decided (some t) (w.act (.call (.enqueue c))) (v.act (.call (.enqueue c))) ∧
      v.wakes (.call (.enqueue c)) = w.wakes (.call (.enqueue c)) := by
  have hopen := h.notClosing
  have hopen' := h.alike.closing.trans hopen
  obtain ⟨x, l, hdrop, hl⟩ := Lifecycle.draining_enqueue hc h.executing? h.isAccepting
  obtain ⟨x', l', hdrop', hl'⟩ := Lifecycle.draining_enqueue hc h.executing h.ended
  obtain ⟨halike, hwakes, hwakes', hboard, hlifecycle⟩ := h.alike.enqueue_dropped hdrop hdrop'
  simp only [World.act, wakes, hopen, hopen', Bool.false_eq_true, if_false, Bool.not_false,
    Bool.true_and, update]
  refine ⟨⟨halike, .inr ⟨⟨?_, rfl⟩, a, ?_, hlifecycle ▸ hl'⟩⟩, hwakes'.trans hwakes.symm⟩
  · rw [hboard]
    exact h.token
  · rw [hboard]
    exact hl

/-- The worker decides nothing, unless it reports the executing batch. -/
lemma work (hw : w.ledger.Reachable) (hv : v.ledger.Reachable)
    (hreport : ∀ r, (t, r) ∉ reports w.work.history) : Undecided t a w.work v.work := by
  have hover : ∀ b u, ¬ w.Retires b u := by
    intro b u hover
    have hactive := Board.active?_eq_some_iff.mp (hover.active hw)
    obtain rfl : u = t := Option.some.inj (hactive.1.symm.trans h.token)
    obtain ⟨r, hr⟩ := hover.exists_report
    exact hreport r hr
  have hsame := sameIntake_work_of_not_retires hw.signalled hover
  have hsame' := sameIntake_work_of_not_retires hv.signalled
    fun b u => mt h.alike.retires_iff.mp (hover b u)
  refine h.congr ?_ hsame.lifecycle hsame.token hsame.closing hsame'.lifecycle
  exact h.alike.work hw.signalled (h.executing.trans h.executing?.symm)
    (h.ended.trans h.isAccepting.symm) hover

/-- What is neither another header, nor a command, nor a shutdown decides nothing, unless the
executing batch is reported. -/
lemma act (hw : w.ledger.Reachable) (hv : v.ledger.Reachable) {x : Action M}
    (hx : x.decides = false) (hreport : ∀ r, (t, r) ∉ reports (w.act x).history) :
    Undecided t a (w.act x) (v.act x) ∧ v.wakes x = w.wakes x := by
  have hopen := h.notClosing
  have hopen' := h.alike.closing.trans hopen
  cases x with
  | call c =>
      cases c with
      | start b => cases hx
      | enqueue c => cases hx
      | finish =>
          simp only [World.act, wakes, hopen, hopen', Bool.false_eq_true, if_false]
          exact ⟨h.finish, rfl⟩
  | stop =>
      have hboard := w.board_stopUpdate
      have hboard' := v.board_stopUpdate
      exact ⟨h.congr h.alike.stopUpdate (congrArg _ hboard) (congrArg _ hboard) (congrArg _ hboard)
        (congrArg _ hboard'), rfl⟩
  | close => cases hx
  | rouse => exact ⟨h.congr (h.alike.map World.rouse (fun _ _ => rfl) rfl) rfl rfl rfl rfl, rfl⟩
  | work => exact ⟨h.work hw hv hreport, rfl⟩
  | background | pass | disturb | receive | hangUp =>
      exact ⟨h.congr (h.alike.act_ambient rfl) rfl rfl rfl rfl, rfl⟩

/-- Until it is decided the worlds go on in lockstep, and from then on, too. -/
lemma run (hw : w.ledger.Reachable) (hv : v.ledger.Reachable) {mid : List (Action M)}
    (hmid : ∀ x ∈ mid, x.decides = false) (hreport : ∀ r, (t, r) ∉ reports (w.run mid).history) :
    Undecided t a (w.run mid) (v.run mid) ∧
      ∀ xs, Lockstep (w.run mid) (v.run mid) xs → Lockstep w v (mid ++ xs) := by
  induction mid generalizing w v with
  | nil => exact ⟨h, fun xs hxs => hxs⟩
  | cons x mid ih =>
      have hw' := hw.steps (w.steps_act x hw.signalled)
      have hv' := hv.steps (v.steps_act x hv.signalled)
      have hpre : (w.act x).history <+: (w.run (x :: mid)).history :=
        (steps_run _ hw' mid).history_isPrefix
      obtain ⟨hact, hwakes⟩ := h.act hw hv (hmid x List.mem_cons_self)
        fun r hr => hreport r ((hpre.filterMap _).subset hr)
      obtain ⟨hrun, hrest⟩ := ih hact hw' hv' (fun y hy => hmid y (List.mem_cons_of_mem x hy))
        hreport
      exact ⟨hrun, fun xs hxs => ⟨h.alike, hwakes, hrest xs hxs⟩⟩

end Undecided

end

/-- After the header of a batch that is refused by its first command, and after the end of a stream
and the same command, it is decided. -/
lemma decided_of_start {w : World M} {t : Token} {a : BatchId} (hw : w.ledger.Reachable)
    (hactive : w.board.active? = some (t, a)) (b : BatchId) {c : Command} {mid : List (Action M)}
    (hmid : ∀ x ∈ mid, x.decides = false) (hc : c.hasName preemptingName = false)
    (hreport : ∀ r, (t, r) ∉ reports ((w.act (.call (.start b))).run mid).history) :
    let xs := mid ++ [.call (.enqueue c)]
    Decided (some t) ((w.act (.call (.start b))).run xs) ((w.act (.call .finish)).run xs) ∧
      ∀ ys, Lockstep ((w.act (.call (.start b))).run xs) ((w.act (.call .finish)).run xs) ys →
        Lockstep (w.act (.call (.start b))) (w.act (.call .finish)) (xs ++ ys) := by
  intro xs
  cases hclosing : w.board.closing with
  | true =>
      -- both calls are refused
      have hsame {u : Option Token} : Decided u w w := ⟨.refl w, .inl rfl⟩
      have hstart : w.act (.call (.start b)) = w := by simp [World.act, hclosing]
      have hfinish : w.act (.call .finish) = w := by simp [World.act, hclosing]
      rw [hstart, hfinish]
      exact ⟨⟨.refl _, .inl rfl⟩, fun ys _ => (hsame (u := none).run hw hw (xs ++ ys)).2⟩
  | false =>
      have hw₁ := hw.steps (w.steps_act (.call (.start b)) hw.signalled)
      have hv₁ := hw.steps (w.steps_act (.call .finish) hw.signalled)
      obtain ⟨hrun, hmidstep⟩ := (Undecided.of_start hactive hclosing b).run hw₁ hv₁ hmid hreport
      obtain ⟨hdecided, hwakes⟩ := hrun.decide hc
      refine ⟨by simpa [xs] using hdecided, fun ys hys => ?_⟩
      have hstep := hmidstep (.call (.enqueue c) :: ys)
        ⟨hrun.alike, hwakes, by simpa [xs] using hys⟩
      simpa [xs] using hstep

end World

/-- A batch that is refused does not disturb the executing one.  Let a header arrive while a batch
executes, and then a command that does not preempt, before that batch is reported, another header
arrives or the executor is shut down.  If the end of a stream had come in the place of the header,
and all else as it did, then the worker, the handlers and what they act on, the channel and all
that the journal says of them with its times would have been the same all along, and the same
calls would have woken the worker.  From the report of the executing batch on, or from the next
header that is not refused, the board is the same, too. -/
theorem World.run_refused (p : M.Plant) (ch : Channel) (d : Nat) (as mid rest : List (Action M))
    (b : BatchId) (c : Command) (t : Token) (a : BatchId)
    (hactive : ((fresh p ch d).run as).board.active? = some (t, a))
    (hmid : ∀ x ∈ mid, x.decides = false) (hc : c.hasName preemptingName = false)
    (hreport : ∀ r, (t, r) ∉
      reports ((fresh p ch d).run (as ++ .call (.start b) :: mid)).history) :
    let u := (fresh p ch d).run as
    let w := u.act (.call (.start b))
    let v := u.act (.call .finish)
    let xs := mid ++ .call (.enqueue c) :: rest
    u.wakes (.call .finish) = u.wakes (.call (.start b)) ∧ Lockstep w v xs ∧
      ((∃ r, (t, r) ∈ reports (w.run xs).history) ∨
          (∃ rest₁ b' rest₂, rest = rest₁ ++ .call (.start b') :: rest₂ ∧
            (w.run (mid ++ .call (.enqueue c) :: rest₁)).board.closing = false) →
        v.run xs = { w.run xs with journal := (v.run xs).journal }) := by
  intro u w v xs
  have hu : u.ledger.Reachable := reachable_run p ch d as
  have hw : w.ledger.Reachable := hu.steps (u.steps_act _ hu.signalled)
  have hv : v.ledger.Reachable := hu.steps (u.steps_act _ hu.signalled)
  have hreport : ∀ r, (t, r) ∉ reports (w.run mid).history := by simpa using hreport
  obtain ⟨hdecided, hlockstep⟩ := decided_of_start hu hactive b hmid hc hreport
  have hw' := hw.steps (w.steps_run hw (mid ++ [.call (.enqueue c)]))
  have hv' := hv.steps (v.steps_run hv (mid ++ [.call (.enqueue c)]))
  have hrun (ys : List (Action M)) := hdecided.run hw' hv' ys
  refine ⟨rfl, by simpa [xs] using hlockstep rest (hrun rest).2, ?_⟩
  have hxs (z : World M) : z.run xs = (z.run (mid ++ [.call (.enqueue c)])).run rest := by
    simp [xs]
  rw [hxs w, hxs v]
  rintro (⟨r, hr⟩ | ⟨rest₁, b', rest₂, rfl, hopen⟩)
  · have hreported := hw'.steps (steps_run _ hw' rest)
    exact (hrun rest).1.alike.eq_of_lifecycle ((hrun rest).1.lifecycle_eq_of_reported hreported hr)
  · have hw₁ := hw'.steps (steps_run _ hw' (rest₁ ++ [.call (.start b')]))
    have hv₁ := hv'.steps (steps_run _ hv' (rest₁ ++ [.call (.start b')]))
    have hstart : Decided none
        ((w.run (mid ++ [.call (.enqueue c)])).run (rest₁ ++ [.call (.start b')]))
        ((v.run (mid ++ [.call (.enqueue c)])).run (rest₁ ++ [.call (.start b')])) := by
      simpa using (hrun rest₁).1.act_start (by simpa using hopen) b'
    have hend := (hstart.run hw₁ hv₁ rest₂).1
    simpa using hend.alike.eq_of_lifecycle hend.lifecycle_eq

/-- The standard robot moves back. -/
def backBegun : List (Action (Rig.machinery {})) :=
  [.call (.start 1), .call (.enqueue ⟨"BACK", ["50"]⟩), .work, .work]

/-- The stream of the refused batch ends, the move does so in time, and its batch is over. -/
def backEnding : List (Action (Rig.machinery {})) :=
  [.call .finish, .pass 60000, .work, .work, .work, .work]

/-- A batch that begins with another command than the preempting one is refused while the robot
moves back, and after the move all is as if it had never come. -/
theorem World.run_refused_moving :
    let aim : Command := ⟨"CAMERA", ["0", "10"]⟩
    let u := standardWorld.run backBegun
    let w := u.act (.call (.start 2))
    let v := u.act (.call .finish)
    let xs := [.work] ++ .call (.enqueue aim) :: backEnding
    u.board.active? = some (0, 1) ∧ aim.hasName preemptingName = false ∧
      (w.run [.work, .call (.enqueue aim)]).board.lifecycle = .ignoring 1 2 ∧
      (v.run [.work, .call (.enqueue aim)]).board.lifecycle = .finishCalled 1 ∧
      reports (w.run xs).history = [(0, ⟨1, .ok, .none⟩)] ∧ Lockstep w v xs ∧
      v.run xs = { w.run xs with journal := (v.run xs).journal } := by
  intro aim u w v xs
  have hactive : u.board.active? = some (0, 1) := by decide +kernel
  have hc : aim.hasName preemptingName = false := by decide +kernel
  have hnone : reports (standardWorld.run (backBegun ++ .call (.start 2) :: [.work])).history =
      [] := by decide +kernel
  have hreport : ∀ r, (0, r) ∉
      reports (standardWorld.run (backBegun ++ .call (.start 2) :: [.work])).history := by
    rw [hnone]
    exact fun r => List.not_mem_nil
  have hreports : reports (w.run xs).history = [(0, ⟨1, .ok, .none⟩)] := by decide +kernel
  obtain ⟨-, hlockstep, hsame⟩ := World.run_refused _ _ _ backBegun [.work] backEnding 2 aim 0 1
    hactive (by simp [Action.decides]) hc hreport
  exact ⟨hactive, hc, by decide +kernel, by decide +kernel, hreports, hlockstep,
    hsame (.inl ⟨_, hreports ▸ List.mem_singleton_self _⟩)⟩

end RoverPilot
