import Mathlib.Tactic
import RoverPilot.Proofs.Robot.Settling

/-!
In a session of the robot nothing is put off.

* `Clockwork.not_ready_settle`: nothing can happen any more once things have settled, if each step
  leaves less to do and the backlog counts it;
* `Clockwork.Exact`, `Exact.advanceTo`, `Exact.advanceUntil`: what holds as long as nothing is late
  goes on to hold while time passes;
* `World.LivesPromptlyTo`: some life in which nothing is put off leads from one world to another;
* `RobotSession.Reached`, `RobotSession.Reached.prompt`: every session is such a life.
-/

namespace RoverPilot

/-! ### Clockworks -/

namespace Clockwork

variable {σ : Type} (c : Clockwork σ) {P : σ → Prop}

/-- Nothing can happen any more once things have settled, if each step leaves less to do and the
backlog counts it. -/
theorem not_ready_settle (step : ∀ s, P s → P (c.step s)) (m : σ → Nat)
    (less : ∀ s, P s → c.ready s = true → m (c.step s) < m s)
    (enough : ∀ s, P s → m s ≤ c.backlog s) {s : σ} (h : P s) : c.ready (c.settle s) = false := by
  have hin : ∀ n s, P s → m s ≤ n → c.ready (c.settleIn n s) = false := by
    intro n
    induction n with
    | zero =>
        intro s h hm
        by_contra hready
        have hless := less s h (by simpa [settleIn] using hready)
        omega
    | succ n ih =>
        intro s h hm
        rw [settleIn]
        split
        · rename_i hready
          have hless := less s h hready
          exact ih _ (step s h) (by omega)
        · rename_i hready
          simpa using hready
  exact hin _ s h (enough s h)

/-- A property of states in which nothing is late: whatever can happen keeps it and comes to an
end, what is due then is due later, and it is kept by time that passes no further than that. -/
structure Exact (P : σ → Prop) : Prop where
  now_step : ∀ s, c.now (c.step s) = c.now s
  now_passTo : ∀ t s, c.now (c.passTo t s) = max t (c.now s)
  step : ∀ s, P s → P (c.step s)
  settled : ∀ s, P s → c.ready (c.settle s) = false
  later : ∀ s, P s → c.ready s = false → ∀ d ∈ c.due s, c.now s < d
  passTo : ∀ t s, P s → c.ready s = false → (∀ d ∈ c.due s, t ≤ d) → P (c.passTo t s)

namespace Exact

variable {c} (hc : c.Exact P)

include hc

lemma settle {s : σ} (h : P s) : P (c.settle s) := c.settle_induction hc.step h

lemma now_settle (s : σ) : c.now (c.settle s) = c.now s :=
  c.settle_induction (P := fun s' => c.now s' = c.now s) (fun s' h => (hc.now_step s').trans h) rfl

/-- Time passes to the next due moment. -/
lemma passTo_next {limit t : Nat} {s : σ} (h : P s) (hready : c.ready s = false)
    (ht : c.nextBefore? limit s = some t) : P (c.passTo t s) ∧ c.now s < c.now (c.passTo t s) := by
  obtain ⟨hdue, hlt⟩ := Option.filter_eq_some_iff.mp ht
  have hnow : c.now s < t := of_decide_eq_true (Bool.and_eq_true_iff.mp hlt).1
  refine ⟨hc.passTo t s h hready fun d hd => ?_, ?_⟩
  · rw [hdue] at hd
    exact (Option.mem_some.mp hd).le
  · rw [hc.now_passTo]
    exact hnow.trans_le (Nat.le_max_left t _)

/-- Time passes up to a moment before which nothing is due. -/
lemma passTo_target {target : Nat} {s : σ} (h : P s) (hready : c.ready s = false)
    (hnone : target ≤ c.now s ∨ c.nextBefore? target s = none) : P (c.passTo target s) := by
  refine hc.passTo target s h hready fun d hd => ?_
  have hlater := hc.later s h hready d hd
  rcases hnone with hpast | hnone
  · exact hpast.trans hlater.le
  · rw [nextBefore?, Option.mem_def.mp hd, Option.filter_some] at hnone
    by_contra hbefore
    simp [hlater, Nat.lt_of_not_le hbefore] at hnone

/-- It holds while time passes up to a moment. -/
theorem advanceTo (target : Nat) {s : σ} (h : P s) : P (c.advanceTo target s) := by
  have hin : ∀ n s, P s → target - c.now s ≤ n → P (c.advanceIn target n s) := by
    intro n
    induction n with
    | zero =>
        intro s h hn
        have hpast : target ≤ c.now (c.settle s) := by
          rw [hc.now_settle]
          omega
        exact hc.settle (hc.passTo_target (hc.settle h) (hc.settled s h) (.inl hpast))
    | succ n ih =>
        intro s h hn
        rw [advanceIn]
        split
        · rename_i t ht
          obtain ⟨hkept, hlater⟩ := hc.passTo_next (hc.settle h) (hc.settled s h) ht
          rw [hc.now_settle] at hlater
          exact ih _ hkept (by omega)
        · rename_i hnone
          exact hc.settle (hc.passTo_target (hc.settle h) (hc.settled s h) (.inr hnone))
  exact hin _ s h le_rfl

/-- It holds while time passes until a condition does. -/
theorem advanceUntil (done : σ → Bool) (limit : Nat) {s : σ} (h : P s) :
    P (c.advanceUntil done limit s) := by
  have hin : ∀ n s, P s → P (c.advanceUntilIn done limit n s) := by
    intro n
    induction n with
    | zero => exact fun s h => hc.settle h
    | succ n ih =>
        intro s h
        rw [advanceUntilIn]
        split
        · exact hc.settle h
        · split
          · rename_i t ht
            exact ih _ (hc.passTo_next (hc.settle h) (hc.settled s h) ht).1
          · exact hc.settle h
  exact hin _ s h

end Exact

end Clockwork

/-! ### What is due is due later -/

variable {rig : Rig}

/-- The earlier of two ends is later than what both are. -/
lemma lt_of_earlierEnd {n : Nat} {a b : Option Wait} (ha : ∀ x ∈ a, n < x.till)
    (hb : ∀ x ∈ b, n < x.till) : ∀ d ∈ earlierEnd a b, n < d := by
  intro d hd
  cases a with
  | none =>
      cases b with
      | none => cases hd
      | some y =>
          cases hd
          exact hb y rfl
  | some x =>
      cases b with
      | none =>
          cases hd
          exact ha x rfl
      | some y =>
          cases hd
          exact lt_min (ha x rfl) (hb y rfl)

/-- A call that another look would not bring forward waits for a later time. -/
lemma Rig.lt_of_wait {a : Activity} {t : Moment} {p : Plant} (h : Rig.ready a t p = false)
    {x : Wait} (hx : Rig.wait a = some x) : t.now < x.till := by
  cases a with
  | holding hold =>
      obtain rfl := Option.some.inj hx
      simp only [Rig.ready, Hold.ready, Bool.or_eq_false_iff, decide_eq_false_iff_not,
        Bool.and_eq_false_iff] at h
      rw [Hold.wait]
      split <;> simp_all
  | saying | silence => cases hx
  | scripted s till =>
      obtain rfl := Option.some.inj hx
      simp only [Rig.ready, Script.ready, Bool.or_eq_false_iff, decide_eq_false_iff_not] at h
      exact Nat.lt_of_not_le h.2
  | scriptedFinish s till =>
      obtain rfl := Option.some.inj hx
      simpa [Rig.ready] using h

namespace World

variable {w v u : World rig.machinery}

/-- What a worker that cannot go on waits for is over later. -/
lemma lt_of_workerWait (hready : w.workerReady = false) {x : Wait} (hx : x ∈ w.workerWait) :
    w.now < x.till := by
  rw [workerReady] at hready
  rw [Option.mem_def, workerWait] at hx
  cases hp : w.worker.phase with
  | running b t c a =>
      simp only [hp, Bool.or_eq_false_iff] at hready hx
      exact Rig.lt_of_wait hready.2 hx
  | finishingCall b t a ks =>
      simp only [hp] at hready hx
      exact Rig.lt_of_wait hready hx
  | reporting t r d =>
      simp only [hp, Bool.or_eq_false_iff, decide_eq_false_iff_not] at hready hx
      obtain rfl := Option.some.inj hx
      exact Nat.lt_of_not_le hready.2
  | _ => simp [hp] at hx

/-- So it is with the background. -/
lemma lt_of_backgroundWait (hready : w.backgroundReady = false) {x : Wait}
    (hx : x ∈ w.backgroundWait) : w.now < x.till := by
  by_contra hpast
  rw [backgroundReady_of_wait hx (Nat.le_of_not_lt hpast)] at hready
  cases hready

/-- Where nothing can happen, what happens by itself happens later. -/
lemma lt_of_due (hready : (w.workerReady || w.backgroundReady) = false) :
    ∀ d ∈ w.due, w.now < d := by
  obtain ⟨hworker, hbackground⟩ := Bool.or_eq_false_iff.mp hready
  exact lt_of_earlierEnd (fun _ hx => lt_of_workerWait hworker hx)
    fun _ hx => lt_of_backgroundWait hbackground hx

/-! ### Lives in which nothing is put off -/

/-- Some life in which nothing is put off leads from one world to another. -/
def LivesPromptlyTo (w v : World rig.machinery) : Prop :=
  ∃ es, v = w.live es ∧ w.Prompt (w.course es)

namespace LivesPromptlyTo

lemma refl (w : World rig.machinery) : w.LivesPromptlyTo w := ⟨[], rfl, trivial⟩

lemma trans (h : u.LivesPromptlyTo v) (k : v.LivesPromptlyTo w) : u.LivesPromptlyTo w := by
  obtain ⟨es, rfl, hes⟩ := h
  obtain ⟨es', rfl, hes'⟩ := k
  refine ⟨es ++ es', (live_append u es es').symm, ?_⟩
  rw [course_append, prompt_append, run_course]
  exact ⟨hes, hes'⟩

lemma of_happen (e : Happening rig) (he : w.Permits (w.action e)) :
    w.LivesPromptlyTo (w.happen e) :=
  ⟨[e], rfl, he, trivial⟩

/-- Whatever the executor does at one time is part of such a life. -/
lemma lasting : Lasting fun w v : World rig.machinery =>
    w.now ≤ v.now ∧ (v.now = w.now → w.LivesPromptlyTo v) where
  refl w := ⟨le_rfl, fun _ => refl w⟩
  trans := by
    rintro u v w ⟨hle, h⟩ ⟨hle', h'⟩
    refine ⟨hle.trans hle', fun hnow => ?_⟩
    have hmiddle : v.now = u.now := le_antisymm (hle'.trans hnow.le) hle
    exact (h hmiddle).trans (h' (hnow.trans hmiddle.symm))
  act w a ha := by
    refine ⟨w.now_le_act a, fun hnow => ?_⟩
    cases a with
    | pass t =>
        -- no time passes
        have hsame : w.act (.pass t) = w := by
          have hmax : max t w.now = w.now := hnow
          rw [act, passTo, hmax]
        exact hsame.symm ▸ refl w
    | call | stop | close | rouse | work | background | disturb | receive | hangUp =>
        exact of_happen (.act _ ha) trivial

end LivesPromptlyTo

end World

/-! ### Sessions -/

namespace RobotSession

open World

variable {p : Plant} {ch : Channel} {d : Nat} {i : Option Interjection} {s : RobotSession rig}

lemma now_step (s : RobotSession rig) : s.step.world.now = s.world.now := by
  rw [Session.step]
  split
  · exact (s.world.brings_controls _).now
  · change s.world.step.now = s.world.now
    rw [World.step]
    split
    · exact s.world.now_work.1
    · rfl

/-- As time passes in a session nothing is put off. -/
theorem exact (p : Plant) (ch : Channel) (d : Nat) :
    (Session.clockwork rig.machinery).Exact fun s =>
      (fresh p ch d : World rig.machinery).LivesPromptlyTo s.world := by
  have hstep (s : RobotSession rig)
      (h : (fresh p ch d : World rig.machinery).LivesPromptlyTo s.world) :
      (fresh p ch d : World rig.machinery).LivesPromptlyTo s.step.world :=
    h.trans ((LivesPromptlyTo.lasting.sessionStep s).2 (now_step s))
  refine
    { now_step := now_step
      now_passTo := fun t s => rfl
      step := hstep
      settled := fun s h => ?_
      later := fun s _ hready => lt_of_due hready
      passTo := fun t s h hready hdue => ?_ }
  · refine Clockwork.not_ready_settle _ hstep Session.load (fun s hs hready => ?_)
      (fun s _ => s.load_le_backlog) h
    obtain ⟨es, hes, -⟩ := hs
    refine Session.load_step_lt ?_ ?_ hready
    · rw [hes]
      exact reachable_live es p ch d
    · rw [hes]
      exact (suited_fresh p ch d).live es
  · obtain ⟨hworker, hbackground⟩ := Bool.or_eq_false_iff.mp hready
    exact h.trans (.of_happen (.act (.pass t) rfl) ⟨hworker, hbackground, hdue⟩)

/-- What a session can be, from its beginning on. -/
inductive Reached (rig : Rig) (p : Plant) (ch : Channel) (d : Nat) (i : Option Interjection) :
    RobotSession rig → Prop where
  | create : Reached rig p ch d i (create rig p ch d i)
  | add {s : RobotSession rig} (h : Reached rig p ch d i s) (piece : List Char) :
      Reached rig p ch d i (s.add piece)
  | finish {s : RobotSession rig} (h : Reached rig p ch d i s) : Reached rig p ch d i s.finish.2
  | ask {s : RobotSession rig} (h : Reached rig p ch d i s) (c : Control) :
      Reached rig p ch d i (s.ask c).2
  | sleep {s : RobotSession rig} (h : Reached rig p ch d i s) (ms : Nat) :
      Reached rig p ch d i (s.sleep ms)
  | shutDown {s : RobotSession rig} (h : Reached rig p ch d i s) : Reached rig p ch d i s.shutDown
  | receive {s : RobotSession rig} (h : Reached rig p ch d i s) : Reached rig p ch d i s.receive.2
  | drain {s : RobotSession rig} (h : Reached rig p ch d i s) : Reached rig p ch d i s.drain.2
  | hangUp {s : RobotSession rig} (h : Reached rig p ch d i s) : Reached rig p ch d i s.hangUp
  | setDistance {s : RobotSession rig} (h : Reached rig p ch d i s) (cm : Float) :
      Reached rig p ch d i (s.setDistance cm)
  | setFault {s : RobotSession rig} (h : Reached rig p ch d i s) (detail : String) :
      Reached rig p ch d i (s.setFault detail)

/-- Every session is a life in which nothing is put off. -/
theorem Reached.prompt (h : Reached rig p ch d i s) :
    (fresh p ch d : World rig.machinery).LivesPromptlyTo s.world := by
  have hlasting := @LivesPromptlyTo.lasting rig
  induction h with
  | create => exact .refl _
  | add h piece ih => exact ih.trans ((hlasting.add _ piece).2 (brings_controls _ _).now)
  | finish h ih => exact ih.trans ((hlasting.finish _).2 (brings_controls _ _).now)
  | ask h c ih => exact ih.trans ((hlasting.ask _ c).2 (brings_control _ c).now)
  | sleep h ms ih => exact (exact p ch d).advanceTo _ ih
  | shutDown h ih =>
      rename_i s
      have hclosed : (fresh p ch d : World rig.machinery).LivesPromptlyTo s.world.close :=
        ih.trans ((hlasting.close s.world).2 rfl)
      exact (exact p ch d).settle ((exact p ch d).advanceUntil _ _ hclosed)
  | receive h ih => exact ih.trans ((hlasting.receive _).2 rfl)
  | drain h ih => exact ih.trans ((hlasting.drain _).2 rfl)
  | hangUp h ih => exact ih.trans ((hlasting.hangUp _).2 rfl)
  | setDistance h cm ih => exact ih.trans (.of_happen (.distance cm) trivial)
  | setFault h detail ih => exact ih.trans (.of_happen (.fault detail) trivial)

end RobotSession

end RoverPilot
