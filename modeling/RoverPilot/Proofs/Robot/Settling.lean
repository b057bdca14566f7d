import Mathlib.Tactic
import RoverPilot.Proofs.Executor.Delivery
import RoverPilot.Proofs.Executor.Drain
import RoverPilot.Proofs.Robot.Stir

/-!
What can happen at one time comes to an end.

* `World.load`: all that the worker has still to do, and all that may happen beside it;
* `World.load_work_lt`, `World.load_background_lt`: each thing that can happen leaves less;
* `World.Brings`: what control calls bring;
* `Session.load_step_lt`, `Session.load_le_backlog`: each step of a session leaves less, and the
  backlog of a session counts as many steps as suffice.
-/

namespace RoverPilot

variable {rig : Rig}

/-! ### Each thing that happens leaves less -/

namespace Rig

variable {p : Plant} {t : Moment} {a : Activity}

/-- If another look brings a call forward, the call ends or a look at the sensor is due. -/
lemma ended_or_looks (h : ready a t p = true) :
    (∃ e, (rig.resume a t p).2 = .ended e) ∨ 0 < a.looks t.now := by
  cases a with
  | holding hold =>
      simp only [ready, Hold.ready, Bool.or_eq_true, decide_eq_true_eq] at h
      rcases h with (hc | hend) | hlook
      · refine .inl ?_
        rcases hold.poll_cases rig.motion t.now p.body t.cancelled with
          ⟨h', -, -, -, hgo⟩ | ⟨o, hr⟩
        · cases hc.symm.trans hgo
        · obtain ⟨b, e, hclose⟩ := hold.close_ended t.now p.body o
          exact ⟨e, by simp [resume, hr, hclose, Plant.onBody]⟩
      · exact .inl (rig.holding_ended hend)
      · exact .inr (by simp [Activity.looks, hlook])
  | saying text => exact .inl (saying_ended h text)
  | silence => exact .inl (silence_ended h)
  | scripted s till =>
      refine .inl ?_
      simp only [ready, Script.ready, Bool.or_eq_true, Bool.and_eq_true, Bool.not_eq_true',
        decide_eq_true_eq] at h
      rcases h with ⟨hc, hobeys⟩ | hend
      · refine ⟨.returned .interrupted, ?_⟩
        simp [resume, Script.resume, hc, hobeys, Plant.onScript]
      · exact rig.scripted_ended hend
  | scriptedFinish s till =>
      exact .inl (rig.scriptedFinish_ended (by simpa [ready] using h))

end Rig

namespace World

/-- A call that goes on leaves as much for the worker to do. -/
lemma rank_proceed_le {M : Machinery} {w : World M} {b : BatchId} {t : Token} {c : Command}
    {a : M.Activity} (hp : w.worker.phase = .running b t c a) :
    (w.proceed b t c a).rank ≤ w.rank := by
  rcases w.proceed_cases b t c a with heq | ⟨a', -, heq⟩
  · rw [heq]
    obtain ⟨p, a' | e⟩ := M.resume a (w.moment t) w.plant <;>
      simp only [afterCall, rank, enter, note, conclude, hp, Phase.rank] <;> omega
  · rw [heq]
    simp only [rank, note, conclude, hp, Phase.rank]
    omega

/-- A command whose signal is given is over after its next call. -/
lemma rank_proceed_lt {M : Machinery} {w : World M} {b : BatchId} {t : Token} {c : Command}
    {a : M.Activity} (hp : w.worker.phase = .running b t c a) (hc : w.isCancelled t = true) :
    (w.proceed b t c a).rank < w.rank := by
  rw [proceed, afterLook]
  cases hr : (M.resume a (w.moment t) w.plant).2 with
  | ended e =>
      simp only [afterCall, hr, rank, note, conclude, hp, Phase.rank]
      omega
  | running a' =>
      simp only [if_pos hc, rank, note, conclude, hp, Phase.rank]
      omega

lemma rank_finishOn_le {M : Machinery} {w : World M} {b : BatchId} {t : Token} {a : M.Activity}
    {ks : List M.Handler} (hp : w.worker.phase = .finishingCall b t a ks) :
    (w.finishOn b t a ks).rank ≤ w.rank := by
  rw [finishOn]
  obtain ⟨p, a' | e⟩ := M.resume a (w.moment t) w.plant <;>
    simp only [afterFinish, rank, enter, note, hp, Phase.rank] <;> omega

variable {w : World rig.machinery} {b : BatchId} {t : Token} {c : Command} {a : Activity}

/-- All that may happen at one time. -/
def load (w : World rig.machinery) : Nat := w.rank + w.stir

/-- Whatever the worker can do leaves less. -/
lemma load_work_lt (hw : w.ledger.Reachable) (hs : w.Suited) (hready : w.workerReady = true) :
    w.work.load < w.load := by
  have hadvances (h : w.Advances) : w.work.load < w.load :=
    Nat.add_lt_add_of_lt_of_le (w.rank_work hw h) (stir_work_le hs)
  rw [workerReady] at hready
  cases hp : w.worker.phase with
  | looking | popped | finishing => exact hadvances (by simp [Advances, hp])
  | parked => exact hadvances (by simpa [Advances, hp] using hready)
  | running b t c a =>
      have hwork : w.work = w.proceed b t c a := by rw [work, hp]
      have hstir := stir_proceed hp (hs (some c) a (by rw [hp]; rfl))
      by_cases hended : ∃ e, (rig.machinery.resume a (w.moment t) w.plant).2 = .ended e
      · exact hadvances (by simpa [Advances, hp] using hended)
      · rw [hwork, load, load]
        simp only [hp, Bool.or_eq_true] at hready
        rcases hready with hc | hready
        · have hrank := rank_proceed_lt hp hc
          omega
        · have hrank := rank_proceed_le hp
          have hlooks : 0 < a.looks w.now := (Rig.ended_or_looks hready).resolve_left hended
          omega
  | finishingCall b t a ks =>
      have hwork : w.work = w.finishOn b t a ks := by rw [work, hp]
      have hstir := stir_finishOn hp (hs none a (by rw [hp]; rfl))
      by_cases hended : ∃ e, (rig.machinery.resume a (w.moment t) w.plant).2 = .ended e
      · exact hadvances (by simpa [Advances, hp] using hended)
      · rw [hwork, load, load]
        have hrank := rank_finishOn_le hp
        simp only [hp] at hready
        have hlooks : 0 < Activity.looks w.now a := (Rig.ended_or_looks hready).resolve_left hended
        omega
  | reporting t r d =>
      refine hadvances ?_
      simp only [hp, Bool.or_eq_true, decide_eq_true_eq] at hready
      simp only [Advances, hp]
      intro hfull
      obtain ⟨hopen, hroom⟩ := Channel.offer_eq_full_iff.mp hfull
      simpa [hopen, hroom] using hready
  | exited => simp [hp] at hready

/-- So does whatever the background can do. -/
lemma load_background_lt (hready : w.backgroundReady = true) : w.background.load < w.load := by
  have hrank : w.background.rank = w.rank := rank_eq_of_ledger_eq rfl
  have hturns : w.background.voice.turns < w.voice.turns := Voice.turns_step_lt hready
  have hstir : w.background.stir + w.voice.turns = w.stir + w.background.voice.turns := by
    simp only [stir]
    exact Nat.add_right_comm _ _ _
  rw [load, load]
  omega

/-- Once what the background waits for is over, it can go on. -/
lemma backgroundReady_of_wait {x : Wait} (h : w.backgroundWait = some x) (hx : x.till ≤ w.now) :
    w.backgroundReady = true :=
  Voice.ready_of_wait h hx

/-- Whatever can happen leaves less. -/
lemma load_step_lt (hw : w.ledger.Reachable) (hs : w.Suited)
    (hready : (w.workerReady || w.backgroundReady) = true) : w.step.load < w.load := by
  rw [step]
  split
  · rename_i hworker
    exact load_work_lt hw hs hworker.1
  · rename_i hworker
    refine load_background_lt ?_
    by_cases hwait : endsBefore w.now w.backgroundWait w.workerWait = true
    · cases hx : w.backgroundWait with
      | none => simp [hx, endsBefore] at hwait
      | some x =>
          refine backgroundReady_of_wait hx ?_
          cases hy : w.workerWait <;> simp [hx, hy, endsBefore] at hwait
          exact hwait.1
    · simp_all

/-! ### Control calls -/

/-- What control calls leave alone, and how many commands they bring. -/
structure Brings (w v : World rig.machinery) (n : Nat) : Prop where
  now : v.now = w.now
  worker : v.worker = w.worker
  voice : v.voice = w.voice
  queue : v.board.queue.length ≤ w.board.queue.length + n

namespace Brings

lemma trans {u v w : World rig.machinery} {m n : Nat} (h : u.Brings v m) (k : v.Brings w n) :
    u.Brings w (m + n) :=
  ⟨k.now.trans h.now, k.worker.trans h.worker, k.voice.trans h.voice,
    by have := h.queue; have := k.queue; omega⟩

lemma rouse {v : World rig.machinery} {n : Nat} (h : w.Brings v n) : w.Brings v.rouse n :=
  ⟨h.now, h.worker, h.voice, h.queue⟩

end Brings

lemma brings_act {x : Action rig.machinery} (hwork : x ≠ .work) (hpass : ∀ s, x ≠ .pass s)
    (hvoice : (w.act x).voice = w.voice)
    (hqueue : (w.act x).board.queue.length ≤ w.board.queue.length + 1) : w.Brings (w.act x) 1 where
  now := (w.now_act x).resolve_right fun ⟨s, hs, _⟩ => hpass s hs
  worker := w.worker_act hwork
  voice := hvoice
  queue := hqueue

lemma brings_call (w : World rig.machinery) (c : Call) : w.Brings (w.act (.call c)) 1 := by
  refine brings_act (by simp) (by simp) (w.voice_call c) ?_
  rw [act]
  split
  · exact Nat.le_add_right _ _
  · cases c with
    | start b =>
        simp only [update, start]
        split <;> exact Nat.le_add_right _ _
    | enqueue c =>
        simp only [update, enqueue]
        split
        · split <;> simp [note]
        · exact Nat.zero_le _
        · exact Nat.le_add_right _ _
    | finish => exact Nat.le_add_right _ _

lemma brings_stop (w : World rig.machinery) : w.Brings (w.act .stop) 1 := by
  refine brings_act (by simp) (by simp) w.voice_stopUpdate ?_
  simp only [act, stopUpdate]
  split <;> exact Nat.le_add_right _ _

lemma brings_control (w : World rig.machinery) (c : Control) : w.Brings (w.control c).2 1 := by
  cases c with
  | call c =>
      have hcall := w.brings_call c
      rw [act] at hcall
      rw [control, call]
      split
      · simpa [*] using hcall
      · rename_i hopen
        rw [if_neg hopen] at hcall
        simp only
        split
        · exact hcall.rouse
        · exact hcall
  | stopNow => exact w.brings_stop.rouse

lemma brings_controls (w : World rig.machinery) (cs : List Control) :
    w.Brings (w.controls cs) cs.length := by
  induction cs generalizing w with
  | nil => exact ⟨rfl, rfl, rfl, le_rfl⟩
  | cons c cs ih =>
      have h := (w.brings_control c).trans (ih (w.control c).2)
      rwa [Nat.add_comm] at h

/-- Control calls bring no more than that, at a command that was taken. -/
lemma load_le_of_brings {v : World rig.machinery} {n : Nat} (h : w.Brings v n)
    (hp : w.worker.phase = .popped b t c) : v.load ≤ w.load + 8 * n + 11 := by
  have hqueue := h.queue
  have hpending := v.board.lifecycle.pending_le
  have hwake := Bool.toNat_le v.wake
  simp only [load, rank, stir, h.worker, h.voice, hp, Phase.rank, Phase.stir]
  omega

end World

/-! ### Sessions -/

namespace Session

/-- All that may happen at one time in a session, the interjection included. -/
def load (s : RobotSession rig) : Nat :=
  s.world.load + match s.interjection with
    | some i => 8 * i.controls.length + 12
    | none => 0

/-- Each step of a session leaves less. -/
lemma load_step_lt {s : RobotSession rig} (hw : s.world.ledger.Reachable) (hs : s.world.Suited)
    (hready : (s.world.workerReady || s.world.backgroundReady) = true) :
    load (Session.step s) < load s := by
  rw [step]
  cases hdue : s.interjectionDue? with
  | none =>
      have hlt := World.load_step_lt hw hs hready
      simp only [load]
      omega
  | some i =>
      rw [interjectionDue?] at hdue
      split at hdue
      · rename_i b t c hp
        have hsome : s.interjection = some i := (Option.filter_eq_some_iff.mp hdue).1
        have hle := World.load_le_of_brings (s.world.brings_controls i.controls) hp
        simp only [load, hsome]
        omega
      · cases hdue

/-- The backlog of a session is enough. -/
lemma load_le_backlog (s : RobotSession rig) : load s ≤ Session.backlog s := by
  have hturns : s.world.voice.turns + 2 ≤ 4 * rig.machinery.backgroundBacklog s.world.plant := by
    have h := s.world.voice.turns_le
    have hbacklog : rig.machinery.backgroundBacklog s.world.plant =
        s.world.voice.aborted.length + 2 := rfl
    omega
  have hpending := s.world.board.lifecycle.pending_le
  have hwake := Bool.toNat_le s.world.wake
  have hstale := Bool.toNat_le (s.world.board.epoch != s.world.worker.epoch)
  have hphase : s.world.worker.phase.rank (s.world.board.epoch != s.world.worker.epoch) +
      s.world.worker.phase.stir s.world.now ≤ 8 * World.unfinished s.world.worker.phase + 9 := by
    cases s.world.worker.phase with
    | running b t c a =>
        have hlooks := Activity.looks_le s.world.now a
        simp only [Phase.rank, Phase.stir, World.unfinished]
        omega
    | finishingCall b t a ks =>
        have hlooks := Activity.looks_le s.world.now a
        simp only [Phase.rank, Phase.stir, World.unfinished]
        omega
    | _ => simp only [Phase.rank, Phase.stir, World.unfinished]; omega
  simp only [load, backlog, World.load, World.rank, World.stir, World.workload, interjectionSize]
  cases s.interjection <;> simp only <;> omega

end Session

end RoverPilot
