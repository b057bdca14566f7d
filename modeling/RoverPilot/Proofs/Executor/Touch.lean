import Mathlib.Tactic
import RoverPilot.Proofs.Executor.Ledger

/-!
What the executor does to the plant.

* `Phase.work?`: the call of a handler that the worker is at;
* `World.Touch`: what one action does to the plant and to that call, one constructor for each
  way in which the executor touches the plant;
* `World.touch_act`: every action does one of these things, a change of the plant by itself
  apart.
-/

namespace RoverPilot

variable {M : Machinery}

/-- The activity of a call that goes on. -/
def Progress.activity? {α : Type} : Progress α → Option α
  | .running a => some a
  | .ended _ => none

@[simp] lemma Progress.activity?_running {α : Type} (a : α) :
    (Progress.running a).activity? = some a := rfl

@[simp] lemma Progress.activity?_ended {α : Type} (e : Ending) :
    (Progress.ended e : Progress α).activity? = none := rfl

/-- The call of a handler that the worker is at, with its command if it carries one out. -/
def Phase.work? : Phase M → Option (Option Command × M.Activity)
  | .running _ _ c a => some (some c, a)
  | .finishingCall _ _ a _ => some (none, a)
  | _ => none

namespace World

/-- What an action does to the plant and to the call that the worker is at: `w` is the world
before it and `v` the one after it. -/
inductive Touch (w v : World M) : Prop where
  /-- Nothing. -/
  | nothing (hplant : v.plant = w.plant) (hwork : v.worker.phase.work? = w.worker.phase.work?)
  /-- The motors stop. -/
  | halt (hplant : v.plant = M.halt w.now w.plant)
      (hwork : v.worker.phase.work? = w.worker.phase.work?)
  /-- The background goes on. -/
  | background (hplant : v.plant = M.background w.now w.isCancelled w.plant)
      (hwork : v.worker.phase.work? = w.worker.phase.work?)
  /-- A command begins. -/
  | execute (t : Token) (c : Command) (k : M.Handler) (new : List (Event M))
      (hrest : w.worker.phase.work? = none) (hresolve : M.resolve c.name = some k)
      (hsignal : t ∉ w.cancelled) (hhistory : v.history = w.history ++ .began t c k :: new)
      (hplant : v.plant = (M.execute k c.args (w.moment t) w.plant).1)
      (hwork : v.worker.phase.work? =
        (M.execute k c.args (w.moment t) w.plant).2.activity?.map (some c, ·))
  /-- A handler begins to finish. -/
  | finish (t : Token) (k : M.Handler) (hrest : w.worker.phase.work? = none)
      (hplant : v.plant = (M.finish k (w.moment t) w.plant).1)
      (hwork : v.worker.phase.work? =
        (M.finish k (w.moment t) w.plant).2.activity?.map (none, ·))
  /-- A call goes on. -/
  | resume (t : Token) (c? : Option Command) (a : M.Activity)
      (hat : w.worker.phase.work? = some (c?, a))
      (hplant : v.plant = (M.resume a (w.moment t) w.plant).1)
      (hwork : v.worker.phase.work? =
        (M.resume a (w.moment t) w.plant).2.activity?.map (c?, ·))
  /-- A command that has not ended by itself is given up. -/
  | giveUp (t : Token) (c : Command) (a a' : M.Activity)
      (hat : w.worker.phase.work? = some (some c, a)) (hsignal : t ∈ w.cancelled)
      (hresume : (M.resume a (w.moment t) w.plant).2 = .running a')
      (hplant : v.plant = (M.resume a (w.moment t) w.plant).1)
      (hwork : v.worker.phase.work? = none)

variable (w : World M)

/-! ### Control calls -/

lemma touch_enqueue (c : Command) : Touch w (w.enqueue c).1 := by
  rw [enqueue]
  cases hd : w.board.lifecycle.enqueue c with
  | mk decision lifecycle =>
      cases decision with
      | accept b =>
          cases ht : w.board.token <;>
            exact .nothing (by simp [ht, note]) (by simp [ht, note])
      | preempt b i =>
          cases ht : w.board.token <;>
            exact .halt (by simp [preempt, ht, World.halt, activate, note, cancel])
              (by simp [preempt, ht, World.halt, activate, note, cancel])
      | reject cause => exact .nothing rfl rfl

lemma touch_update (c : Call) : Touch w (w.update c).1 := by
  cases c with
  | start b =>
      refine .nothing ?_ ?_ <;> simp only [update, start] <;> split <;> rfl
  | enqueue c => exact w.touch_enqueue c
  | finish => exact .nothing rfl rfl

lemma touch_stopUpdate : Touch w w.stopUpdate := by
  cases ht : w.board.token <;>
    exact .halt (by simp [stopUpdate, ht, World.halt, note, cancel])
      (by simp [stopUpdate, ht, World.halt, note, cancel])

/-! ### The worker -/

lemma plant_noticePreemption : w.noticePreemption.plant = w.plant := by
  rw [noticePreemption]
  split <;> rfl

lemma plant_currentToken : w.currentToken.2.plant = w.plant := by
  rw [currentToken]
  split <;> rfl

lemma plant_noticeCancellation (t : Token) : (w.noticeCancellation t).plant = w.plant := by
  rw [noticeCancellation]
  split <;> rfl

/-- A worker that goes on with a batch leaves the plant alone and is at no call. -/
lemma attend_spec (b : BatchId) (t : Token) :
    (w.attend b t).plant = w.plant ∧ (w.attend b t).worker.phase.work? = none := by
  rcases w.attend_cases b t with ⟨_, _, _, _, h⟩ | ⟨_, _, _, h⟩ | ⟨_, h⟩ <;> rw [h] <;>
    exact ⟨rfl, rfl⟩

/-- A look at the board leaves the plant alone, and the worker is at no call after it. -/
lemma look_spec : w.look.plant = w.plant ∧ w.look.worker.phase.work? = none := by
  have hplant := w.plant_noticePreemption
  rw [look]
  generalize w.noticePreemption = v at *
  cases hx : v.board.lifecycle.executing? with
  | none =>
      refine ⟨hplant, ?_⟩
      cases hc : v.board.closing <;> simp [enter, hc, Phase.work?]
  | some b =>
      obtain ⟨hsame, hwork⟩ :=
        (v.currentToken.2.noticeCancellation v.currentToken.1).attend_spec b v.currentToken.1
      refine ⟨?_, hwork⟩
      rw [hsame, plant_noticeCancellation, plant_currentToken, hplant]

lemma afterCall_spec (b : BatchId) (t : Token) (c : Command) (r : M.Plant × Progress M.Activity) :
    (w.afterCall b t c r).plant = r.1 ∧
      (w.afterCall b t c r).worker.phase.work? = r.2.activity?.map (some c, ·) ∧
      ∃ new, (w.afterCall b t c r).history = w.history ++ new := by
  obtain ⟨p, a | e⟩ := r
  · exact ⟨rfl, rfl, [], by simp [afterCall, history, enter]⟩
  · exact ⟨rfl, rfl, [.ended t c e], by simp [afterCall, history, note, conclude]⟩

lemma afterFinish_spec (b : BatchId) (t : Token) (ks : List M.Handler)
    (r : M.Plant × Progress M.Activity) :
    (w.afterFinish b t ks r).plant = r.1 ∧
      (w.afterFinish b t ks r).worker.phase.work? = r.2.activity?.map (none, ·) := by
  obtain ⟨p, a | e⟩ := r <;> exact ⟨rfl, rfl⟩

lemma touch_begin {b : BatchId} {t : Token} {c : Command} (hp : w.worker.phase = .popped b t c) :
    Touch w (w.begin b t c) := by
  have hrest : w.worker.phase.work? = none := by rw [hp]; rfl
  rcases w.begin_cases b t c with ⟨-, h⟩ | ⟨k, hr, ⟨-, h⟩ | ⟨hgo, h⟩⟩ <;> rw [h]
  · exact .nothing rfl (by rw [hrest]; rfl)
  · exact .nothing rfl (by rw [hrest]; rfl)
  · obtain ⟨hcall, hwork, new, hnew⟩ :=
      (w.remember t c k).afterCall_spec b t c (M.execute k c.args (w.moment t) w.plant)
    exact .execute t c k new hrest hr hgo.2 (by simp [hnew]) hcall hwork

lemma touch_proceed {b : BatchId} {t : Token} {c : Command} {a : M.Activity}
    (hp : w.worker.phase = .running b t c a) : Touch w (w.proceed b t c a) := by
  have hat : w.worker.phase.work? = some (some c, a) := by rw [hp]; rfl
  obtain ⟨hcall, hwork, -⟩ := w.afterCall_spec b t c (M.resume a (w.moment t) w.plant)
  rw [proceed, afterLook]
  split
  · exact .resume t (some c) a hat hcall hwork
  · rename_i a' hresume
    split
    · rename_i hc
      rw [isCancelled_iff] at hc
      exact .giveUp t c a a' hat hc hresume rfl rfl
    · exact .resume t (some c) a hat hcall hwork

lemma touch_finishNext {b : BatchId} {t : Token} {k : M.Handler} {ks : List M.Handler}
    (hp : w.worker.phase = .finishing b t (k :: ks)) : Touch w (w.finishNext b t k ks) := by
  have hrest : w.worker.phase.work? = none := by rw [hp]; rfl
  rw [finishNext]
  obtain ⟨hcall, hwork⟩ := (w.note (.finishBegan t k)).afterFinish_spec b t ks
    (M.finish k (w.moment t) w.plant)
  exact .finish t k hrest hcall hwork

lemma touch_finishOn {b : BatchId} {t : Token} {a : M.Activity} {ks : List M.Handler}
    (hp : w.worker.phase = .finishingCall b t a ks) : Touch w (w.finishOn b t a ks) := by
  have hat : w.worker.phase.work? = some (none, a) := by rw [hp]; rfl
  obtain ⟨hcall, hwork⟩ := w.afterFinish_spec b t ks (M.resume a (w.moment t) w.plant)
  exact .resume t none a hat hcall hwork

lemma plant_clearBoard : w.clearBoard.plant = w.plant := by
  rw [clearBoard]
  simp only
  split <;> rfl

lemma retire_spec (b : BatchId) (t : Token) :
    (w.retire b t).plant = w.plant ∧ (w.retire b t).worker.phase.work? = none := by
  rw [retire]
  simp only
  split
  · exact ⟨rfl, rfl⟩
  · refine ⟨?_, rfl⟩
    split
    · exact plant_clearBoard _
    · exact plant_clearBoard _

lemma deliver_spec {t : Token} {r : Result} {deadline : Nat}
    (hp : w.worker.phase = .reporting t r deadline) :
    (w.deliver t r deadline).plant = w.plant ∧
      (w.deliver t r deadline).worker.phase.work? = none := by
  rw [deliver]
  split
  · exact ⟨rfl, rfl⟩
  · exact ⟨rfl, rfl⟩
  · split
    · exact ⟨rfl, rfl⟩
    · exact ⟨rfl, by rw [hp]; rfl⟩

lemma touch_work : Touch w w.work := by
  rw [work]
  cases hp : w.worker.phase with
  | looking => exact .nothing w.look_spec.1 (by rw [hp]; exact w.look_spec.2)
  | parked =>
      simp only
      split
      · exact .nothing rfl (by rw [hp]; rfl)
      · exact .nothing rfl rfl
  | popped b t c => exact w.touch_begin hp
  | running b t c a => exact w.touch_proceed hp
  | finishing b t ks =>
      cases ks with
      | nil => exact .nothing (w.retire_spec b t).1 (by rw [hp]; exact (w.retire_spec b t).2)
      | cons k ks => exact w.touch_finishNext hp
  | finishingCall b t a ks => exact w.touch_finishOn hp
  | reporting t r deadline =>
      exact .nothing (w.deliver_spec hp).1 (by rw [hp]; exact (w.deliver_spec hp).2)
  | exited => exact .nothing rfl rfl

/-- Every action does one of these things, unless the plant changes by itself. -/
theorem touch_act {a : Action M} (ha : a.disturbs = false) : Touch w (w.act a) := by
  cases a with
  | call c =>
      rw [act]
      split
      · exact .nothing rfl rfl
      · exact w.touch_update c
  | stop => exact w.touch_stopUpdate
  | work => exact w.touch_work
  | background => exact .background rfl rfl
  | disturb p => cases ha
  | close | rouse | pass | receive | hangUp => exact .nothing rfl rfl

end World

end RoverPilot
