import Mathlib.Tactic
import RoverPilot.Proofs.Executor.Prompt
import RoverPilot.Proofs.Robot.Rest

/-!
What no text can make the body do.

* `Settings.Motion.Allows`: what the settings allow an actuator to do;
* `Body.Answered`, `Body.Enveloped`: a body that has done nothing else, and whose motors were
  stopped in time after each start, or run for a hold that ends in time;
* `Move.begin_enveloped`, `Hold.poll_enveloped`, `Rig.execute_enveloped`, `Rig.resume_enveloped`:
  calls of handlers leave the body so;
* `World.Enveloped.happen`: and so does whatever happens, if time that may not pass does not;
* `World.live_enveloped`: so it is in every life, and at the end of a hold the worker's next step
  stops the motors.
-/

namespace RoverPilot

/-- What the settings allow an actuator to do. -/
def Settings.Motion.Allows (m : Settings.Motion) : BodyEvent → Prop
  | .steering degrees => degrees = 0.0 ∨ degrees = m.turnSteering ∨ degrees = -m.turnSteering
  | .power p => p = m.drivePower ∨ p = -m.drivePower
  | .stop => True
  | .camera pan tilt =>
    (m.cameraPan.1 ≤ pan ∧ pan ≤ m.cameraPan.2) ∧ m.cameraTilt.1 ≤ tilt ∧ tilt ≤ m.cameraTilt.2

/-- Camera limits that leave some angle. -/
structure Settings.Motion.Aimable (m : Settings.Motion) : Prop where
  pan : m.cameraPan.1 ≤ m.cameraPan.2
  tilt : m.cameraTilt.1 ≤ m.cameraTilt.2

/-! ### Holds that go on -/

/-- The hold that goes on in an activity. -/
@[simp] def Activity.hold? : Activity → Option Hold
  | .holding h => some h
  | _ => none

namespace Progress

/-- The hold that goes on in a call. -/
def hold? (r : Progress Activity) : Option Hold := r.activity?.bind Activity.hold?

lemma move?_eq (r : Progress Activity) : r.move? = r.hold?.map Hold.move := by
  cases r with
  | ended e => rfl
  | running a => cases a <;> rfl

lemma hold?_eq_none {r : Progress Activity} (h : r.move? = none) : r.hold? = none := by
  rw [move?_eq] at h
  exact Option.map_eq_none_iff.mp h

end Progress

/-! ### A body in its limits -/

/-- After a start of the motors at a time, and with what came after it, they were stopped within the
time of the longest move, or else they run for the hold that goes on, which ends by then.  Only
where `strict` holds the time of the stop counts. -/
def Body.Answered (m : Settings.Motion) (strict : Prop) (hold? : Option Hold)
    (newer : Log BodyEvent) (s : Nat) : Prop :=
  (∃ s', (s', .stop) ∈ newer ∧ s ≤ s' ∧ (strict → s' ≤ s + m.longest)) ∨
    ∃ h ∈ hold?, h.deadline ≤ s + m.longest

/-- All that the body has done is allowed and was done before, and each start of its motors is
answered. -/
structure Body.Enveloped (m : Settings.Motion) (strict : Prop) (now : Nat) (hold? : Option Hold)
    (b : Body) : Prop where
  allowed : ∀ x ∈ b.log, m.Allows x.2
  past : ∀ x ∈ b.log, x.1 ≤ now
  present : strict → ∀ h ∈ hold?, now ≤ h.deadline
  answered : ∀ newer older s p, b.log = newer ++ (s, .power p) :: older →
    Answered m strict hold? newer s

namespace Body

variable {m : Settings.Motion} {strict : Prop} {now : Nat} {hold? : Option Hold} {h h' : Hold}
  {b c : Body}

/-- Later events do not matter to a start that was answered, while the hold goes on. -/
lemma Answered.cons {newer : Log BodyEvent} {s : Nat} (hs : Answered m strict hold? newer s)
    (x : Nat × BodyEvent) : Answered m strict hold? (x :: newer) s := by
  rcases hs with ⟨s', hmem, hs'⟩ | hend
  · exact .inl ⟨s', List.mem_cons_of_mem _ hmem, hs'⟩
  · exact .inr hend

namespace Enveloped

/-- Only the log of the body matters. -/
lemma congr (hb : b.Enveloped m strict now hold?) (hlog : c.log = b.log) :
    c.Enveloped m strict now hold? :=
  ⟨hlog ▸ hb.allowed, hlog ▸ hb.past, hb.present, hlog ▸ hb.answered⟩

/-- Time passes, but not past the end of the hold. -/
lemma later (hb : b.Enveloped m strict now hold?) {now' : Nat} (hle : now ≤ now')
    (hpresent : strict → ∀ h ∈ hold?, now' ≤ h.deadline) : b.Enveloped m strict now' hold? :=
  ⟨hb.allowed, fun x hx => (hb.past x hx).trans hle, hpresent, hb.answered⟩

/-- Of a hold only its end matters. -/
lemma goOn (hb : b.Enveloped m strict now (some h)) (hdeadline : h'.deadline = h.deadline) :
    b.Enveloped m strict now (some h') := by
  refine ⟨hb.allowed, hb.past, fun hs => ?_, fun newer older s p hlog => ?_⟩
  · rintro _ ⟨⟩
    exact hdeadline ▸ hb.present hs h rfl
  · rcases hb.answered newer older s p hlog with hstop | ⟨_, ⟨⟩, hend⟩
    · exact .inl hstop
    · exact .inr ⟨h', rfl, hdeadline ▸ hend⟩

/-- What is allowed may be done, as long as each start of the motors stays answered, and so is one
that it is itself. -/
lemma grow {next? : Option Hold} {e : BodyEvent} (hb : b.Enveloped m strict now hold?)
    (he : m.Allows e) (hpresent : strict → ∀ h ∈ next?, now ≤ h.deadline)
    (hold : ∀ newer s p, (s, .power p) ∈ b.log → Answered m strict hold? newer s →
      Answered m strict next? ((now, e) :: newer) s)
    (hnew : ∀ p, e = .power p → Answered m strict next? [] now) :
    (b.record now e).Enveloped m strict now next? := by
  refine ⟨?_, ?_, hpresent, fun newer older s p hlog => ?_⟩
  · simp only [log_record, List.forall_mem_cons]
    exact ⟨he, hb.allowed⟩
  · simp only [log_record, List.forall_mem_cons]
    exact ⟨le_rfl, hb.past⟩
  · rw [log_record] at hlog
    rcases List.cons_eq_append_iff.mp hlog with ⟨rfl, hfirst⟩ | ⟨newer, rfl, hlater⟩
    · cases hfirst
      exact hnew p rfl
    · exact hold newer s p (by simp [hlater]) (hb.answered newer older s p hlater)

/-- What is allowed may be done, as long as the motors do not start. -/
lemma record {e : BodyEvent} (hb : b.Enveloped m strict now hold?) (he : m.Allows e)
    (hpower : e.power? = none) : (b.record now e).Enveloped m strict now hold? := by
  refine hb.grow he hb.present (fun newer s p _ hs => hs.cons _) fun p hp => ?_
  rw [hp] at hpower
  cases hpower

/-- A stop may come at any time, and answers all starts before it. -/
lemma stop (hb : b.Enveloped m strict now hold?) : (b.stop now).Enveloped m strict now none := by
  refine hb.grow trivial (by simp) (fun newer s p hpower hs => ?_) (by simp)
  rcases hs with hstop | ⟨h, hh, hend⟩
  · exact Answered.cons (.inl hstop) _
  · exact .inl ⟨now, List.mem_cons_self, hb.past _ hpower,
      fun hs => (hb.present hs h hh).trans hend⟩

/-- The motors may start if they run for a hold that ends in time. -/
lemma power (hb : b.Enveloped m strict now none) {p : Int32} (hp : m.Allows (.power p))
    (hle : now ≤ h.deadline) (hend : h.deadline ≤ now + m.longest) :
    (b.record now (.power p)).Enveloped m strict now (some h) := by
  refine hb.grow hp ?_ (fun newer s p _ hs => ?_) fun _ _ => .inr ⟨h, rfl, hend⟩
  · rintro - _ ⟨⟩
    exact hle
  · rcases hs with hstop | ⟨_, ⟨⟩, -⟩
    exact Answered.cons (.inl hstop) _

end Enveloped

end Body

/-! ### Moves -/

section Moves

variable {m : Settings.Motion} {strict : Prop} {now : Nat} {b : Body}

/-- At the end of a hold the motors are stopped. -/
lemma Hold.close_enveloped {h : Hold} {hold? : Option Hold}
    (hb : b.Enveloped m strict now hold?) (o : Outcome) :
    (h.close now b o).1.Enveloped m strict now none := by
  have hstraight : m.Allows (.steering 0.0) := Or.inl rfl
  rw [close]
  split
  · split
    · rename_i c hc
      obtain ⟨-, rfl⟩ := Body.act?_eq_ok_iff.mp hc
      exact hb.stop.record hstraight rfl
    · exact hb.stop
  · exact hb.stop

lemma Hold.poll_enveloped {h : Hold} (hb : b.Enveloped m strict now (some h)) (cancelled : Bool) :
    (h.poll m now cancelled b).1.Enveloped m strict now (h.poll m now cancelled b).2.activity? := by
  rcases h.poll_cases m now b cancelled with ⟨h', hr, -, hdeadline, -⟩ | ⟨o, hr⟩
  · rw [hr]
    exact hb.goOn hdeadline
  · have hrest := h.close_enveloped hb o
    obtain ⟨c, e, hclose⟩ := h.close_ended now b o
    rw [hclose] at hr hrest
    rw [hr]
    exact hrest

/-- The end of a hold is written down, and before the wheels are put straight the motors stop. -/
lemma Hold.log_close (h : Hold) (now : Nat) (b : Body) (o : Outcome) :
    ∃ newest, (h.close now b o).1.log = newest ++ (now, .stop) :: b.log := by
  rw [(h.close_spec now b o).2.2.2, Move.lastEvents]
  split
  · exact ⟨[(now, .steering 0.0)], rfl⟩
  · exact ⟨[], rfl⟩

/-- A hold whose end has come is over. -/
lemma Hold.poll_of_deadline_le {h : Hold} (hend : h.deadline ≤ now) (cancelled : Bool) :
    ∃ o, h.poll m now cancelled b = h.close now b o := by
  cases cancelled with
  | true => exact ⟨.interrupted, rfl⟩
  | false => exact ⟨.ok, by simp [poll, outcome?, hend]⟩

namespace Move

/-- The wheels are turned by the angle of a turn or put straight. -/
lemma allows_steering (move : Move) : m.Allows (.steering (move.steering m)) := by
  cases move with
  | forward | back => exact .inl rfl
  | left => exact .inr (.inr rfl)
  | right => exact .inr (.inl rfl)

/-- The motors get the power of a drive, or its opposite. -/
lemma allows_power {move : Move} {p : Int32} (h : move.power? m = some p) :
    m.Allows (.power p) := by
  cases move with
  | forward | left | right =>
      cases h
      exact .inl rfl
  | back =>
      simp only [power?, ite_eq_iff, reduceCtorEq, and_false, false_or] at h
      exact .inr (Option.some_injective _ h.2).symm

lemma begin_enveloped (ht : m.Timely) (hb : b.Enveloped m strict now none) (move : Move)
    (args : List String) (cancelled : Bool) :
    (move.begin m args now cancelled b).1.Enveloped m strict now
      (move.begin m args now cancelled b).2.activity? := by
  have hwheels := hb.record move.allows_steering rfl
  rcases move.begin_cases args now cancelled ht b with
    ⟨e, hr⟩ | ⟨-, ⟨e, hr, -⟩ | ⟨p, h, hr, -, hpower, hle, hend⟩⟩
  · rw [hr]
    exact hb
  · rw [hr]
    exact hwheels
  · rw [hr]
    exact h.poll_enveloped (hwheels.power (allows_power hpower) hle hend) cancelled

end Move

end Moves

/-! ### Calls of handlers -/

/-- An angle is kept between limits that leave some. -/
lemma Plant.clamp_spec {limits : Int32 × Int32} (h : limits.1 ≤ limits.2) (value : Int32) :
    limits.1 ≤ clamp value limits ∧ clamp value limits ≤ limits.2 := by
  have hlow : limits.1 ≤ max value limits.1 := by
    change limits.1 ≤ if value ≤ limits.1 then limits.1 else value
    split
    · exact Int32.le_refl _
    · rename_i hlt
      exact Int32.le_of_lt (Int32.not_le.mp hlt)
  exact ⟨Std.le_min_iff.mpr ⟨hlow, h⟩, Std.min_le_right⟩

namespace Rig

variable {rig : Rig} {strict : Prop} {p : Plant} {t : Moment}

lemma hold?_onBody (p : Plant) (r : Body × Progress Hold) :
    (p.onBody r).2.hold? = r.2.activity? := by
  obtain ⟨b, h | e⟩ := r <;> rfl

/-- The camera turns within its limits. -/
lemma aim_enveloped (haim : rig.motion.Aimable) (args : List String)
    (hb : p.body.Enveloped rig.motion strict t.now none) :
    (p.aim rig.motion args t.now).1.body.Enveloped rig.motion strict t.now
      (p.aim rig.motion args t.now).2.hold? := by
  have hlimits (pan tilt : Int32) : rig.motion.Allows (.camera
      (Plant.clamp pan rig.motion.cameraPan) (Plant.clamp tilt rig.motion.cameraTilt)) :=
    And.intro (Plant.clamp_spec haim.pan pan) (Plant.clamp_spec haim.tilt tilt)
  rw [Plant.aim]
  split
  · exact hb
  · split
    · exact hb
    · exact hb
    · rw [Plant.actOnce]
      split
      · rename_i c hc
        obtain ⟨-, rfl⟩ := Body.act?_eq_ok_iff.mp hc
        exact hb.record (hlimits _ _) rfl
      · exact hb

/-- A command that begins while no hold goes on. -/
lemma execute_enveloped (ht : rig.motion.Timely) (haim : rig.motion.Aimable)
    (hb : p.body.Enveloped rig.motion strict t.now none) (k : Handler) (args : List String) :
    (rig.execute k args t p).1.body.Enveloped rig.motion strict t.now
      (rig.execute k args t p).2.hold? := by
  have hleft {r : Plant × Progress Activity} (h : p.Bodiless r) :
      r.1.body.Enveloped rig.motion strict t.now r.2.hold? := by
    rw [Progress.hold?_eq_none h.move]
    exact hb.congr (by rw [h.body])
  cases k with
  | move move =>
      rw [execute, hold?_onBody]
      exact move.begin_enveloped ht hb args t.cancelled
  | camera => exact aim_enveloped haim args hb
  | stop => exact hb.stop
  | say =>
      rw [execute]
      split
      · exact hb
      · exact hleft (p.saying_bodiless _ t)
  | scripted s =>
      rw [execute]
      exact hleft (p.onScript_bodiless (by rfl) t.now (by rfl) _)

/-- A call that goes on. -/
lemma resume_enveloped {a : Activity} (hb : p.body.Enveloped rig.motion strict t.now a.hold?) :
    (rig.resume a t p).1.body.Enveloped rig.motion strict t.now (rig.resume a t p).2.hold? := by
  have hleft {r : Plant × Progress Activity} (h : p.Bodiless r) (ha : a.hold? = none) :
      r.1.body.Enveloped rig.motion strict t.now r.2.hold? := by
    rw [Progress.hold?_eq_none h.move]
    exact (ha ▸ hb).congr (by rw [h.body])
  cases a with
  | holding h =>
      rw [resume, hold?_onBody]
      exact h.poll_enveloped hb t.cancelled
  | saying text => exact hleft (p.saying_bodiless text t) rfl
  | silence => exact hleft (p.silence_bodiless t) rfl
  | scripted | scriptedFinish => exact hleft (p.onScript_bodiless rfl t.now rfl _) rfl

/-- No hold goes on once the signal is given. -/
lemma resume_hold?_eq_none {a : Activity} (hc : t.cancelled = true) :
    (rig.resume a t p).2.hold? = none := by
  refine Progress.hold?_eq_none ?_
  rcases rig.resume_cases p t a with ⟨-, hmove, hsignal⟩ | ⟨h, o, -, hr⟩
  · exact hmove.trans (hsignal hc)
  · obtain ⟨c, e, hclose⟩ := h.close_ended t.now p.body o
    rw [hr, Plant.move?_onBody, hclose]
    rfl

end Rig

/-! ### Lives -/

namespace World

variable {rig : Rig} {w v : World rig.machinery} {strict : Prop}

/-- The hold that the worker is at. -/
def hold? (w : World rig.machinery) : Option Hold :=
  w.worker.phase.work?.bind fun call => Activity.hold? call.2

lemma hold?_of_work? {c? : Option Command} {r : Progress rig.machinery.Activity}
    (h : w.worker.phase.work? = r.activity?.map (c?, ·)) : w.hold? = Progress.hold? r := by
  rw [hold?, h]
  cases r <;> rfl

lemma hold?_eq_none (h : w.worker.phase.work? = none) : w.hold? = none := by
  rw [hold?, h]
  rfl

lemma hold?_eq_of_work? {c? : Option Command} {a : Activity}
    (h : w.worker.phase.work? = some (c?, a)) : w.hold? = a.hold? := by
  rw [hold?, h]
  rfl

/-- A worker at a hold is at the call that the hold goes on in. -/
lemma phase_of_hold? {h : Hold} (hh : w.hold? = some h) :
    (∃ b t c, w.worker.phase = .running b t c (Activity.holding h)) ∨
      ∃ b t ks, w.worker.phase = .finishingCall b t (Activity.holding h) ks := by
  have hat {a : Activity} (ha : a.hold? = some h) : a = .holding h := by
    cases a <;> cases ha
    rfl
  cases hp : w.worker.phase with
  | running b t c a =>
      rw [hold?, hp] at hh
      obtain rfl := hat hh
      exact .inl ⟨b, t, c, rfl⟩
  | finishingCall b t a ks =>
      rw [hold?, hp] at hh
      obtain rfl := hat hh
      exact .inr ⟨b, t, ks, rfl⟩
  | _ =>
      rw [hold?, hp] at hh
      cases hh

/-- Time that may pass does not pass the end of a hold. -/
lemma le_deadline {h : Hold} (hh : w.hold? = some h) {t : Nat} (ht : w.Permits (.pass t)) :
    t ≤ h.deadline := by
  have hwait : w.workerWait = some h.wait := by
    rcases phase_of_hold? hh with ⟨b, t, c, hp⟩ | ⟨b, t, ks, hp⟩
    · rw [workerWait, hp]
      rfl
    · rw [workerWait, hp]
      rfl
  refine (Permits.le_workerWait w ht hwait).trans ?_
  rw [Hold.wait]
  split
  · exact Nat.min_le_left _ _
  · exact le_rfl

/-- The body is in its limits, and stays there as long as the worker is not put off. -/
def Enveloped (w : World rig.machinery) (strict : Prop) : Prop :=
  w.body.Enveloped rig.motion strict w.now w.hold?

namespace Enveloped

/-- What leaves time, body and hold alone. -/
lemma of_work? (h : w.Enveloped strict) (hnow : v.now = w.now)
    (hwork : v.worker.phase.work? = w.worker.phase.work?) (hlog : v.body.log = w.body.log) :
    v.Enveloped strict := by
  rw [Enveloped, hnow, hold?, hwork]
  exact h.congr hlog

/-- However the executor touches the body at the present time, it stays in its limits. -/
lemma touch (ht : rig.motion.Timely) (haim : rig.motion.Aimable) (h : w.Enveloped strict)
    (htouch : Touch w v) (hnow : v.now = w.now) : v.Enveloped strict := by
  cases htouch with
  | nothing hplant hwork | background hplant hwork =>
      refine h.of_work? hnow hwork ?_
      rw [body, hplant]
      rfl
  | halt hplant hwork =>
      rw [Enveloped, hnow, hold?, hwork, body, hplant]
      exact h.record (e := .stop) trivial rfl
  | execute t c k new hrest hresolve hsignal hhistory hplant hwork =>
      rw [Enveloped, hold?_eq_none hrest] at h
      rw [Enveloped, hnow, hold?_of_work? hwork, body, hplant]
      exact rig.execute_enveloped (t := w.moment t) ht haim h k c.args
  | finish t k hrest hplant hwork =>
      obtain ⟨hsame, hmove⟩ := Rig.finish_bodiless w.plant (w.moment t) k
      have hnone : v.hold? = none := (hold?_of_work? hwork).trans (Progress.hold?_eq_none hmove)
      rw [Enveloped, hold?_eq_none hrest] at h
      rw [Enveloped, hnow, hnone, body, hplant]
      exact h.congr (congrArg Body.log hsame)
  | resume t c? a hat hplant hwork =>
      rw [Enveloped, hold?_eq_of_work? hat] at h
      rw [Enveloped, hnow, hold?_of_work? hwork, body, hplant]
      exact rig.resume_enveloped (t := w.moment t) h
  | giveUp t c a a' hat hsignal hresume hplant hwork =>
      rw [Enveloped, hold?_eq_of_work? hat] at h
      have hnone : (rig.resume a (w.moment t) w.plant).2.hold? = none :=
        Rig.resume_hold?_eq_none ((w.isCancelled_iff t).mpr hsignal)
      rw [Enveloped, hnow, hold?_eq_none hwork, body, hplant]
      exact hnone ▸ rig.resume_enveloped (t := w.moment t) h

/-- Whatever happens it stays so, if time that may not pass does not. -/
lemma happen (ht : rig.motion.Timely) (haim : rig.motion.Aimable) (h : w.Enveloped strict)
    (e : Happening rig) (he : strict → w.Permits (w.action e)) :
    (w.happen e).Enveloped strict := by
  cases e with
  | act a ha =>
      rcases w.now_act a with hnow | ⟨t, rfl, hnow⟩
      · exact h.touch ht haim (w.touch_act ha) hnow
      · refine Body.Enveloped.later h (Nat.le_max_right t w.now) fun hs hold hh => ?_
        exact Nat.max_le.mpr ⟨le_deadline hh (he hs), h.present hs hold hh⟩
  | distance cm => exact h.of_work? rfl rfl rfl
  | fault detail => exact h.of_work? rfl rfl rfl

/-- So it is in every life in which nothing is put off. -/
lemma live (ht : rig.motion.Timely) (haim : rig.motion.Aimable) (h : w.Enveloped strict)
    (es : List (Happening rig)) (hes : strict → w.Prompt (w.course es)) :
    (w.live es).Enveloped strict := by
  induction es generalizing w with
  | nil => exact h
  | cons e es ih => exact ih (h.happen ht haim e fun hs => (hes hs).1) fun hs => (hes hs).2

end Enveloped

/-- Once the end of a hold has come, the worker's next step stops the motors. -/
lemma log_work_of_hold? {h : Hold} (hh : w.hold? = some h) (hend : h.deadline ≤ w.now) :
    ∃ newest, w.work.body.log = newest ++ (w.now, .stop) :: w.body.log := by
  suffices ∃ o, w.work.body = (h.close w.now w.body o).1 by
    obtain ⟨o, ho⟩ := this
    exact ho ▸ h.log_close w.now w.body o
  have hresume (t : Token) : ∃ o e, rig.machinery.resume (Activity.holding h) (w.moment t) w.plant =
      (w.withBody (h.close w.now w.body o).1, .ended e) := by
    obtain ⟨o, ho⟩ := Hold.poll_of_deadline_le (m := rig.motion) (b := w.body) hend
      (w.moment t).cancelled
    obtain ⟨c, e, hclose⟩ := h.close_ended w.now w.body o
    refine ⟨o, e, ?_⟩
    change Plant.onBody w.plant (h.poll rig.motion w.now (w.moment t).cancelled w.body) = _
    rw [ho, hclose]
    rfl
  rcases phase_of_hold? hh with ⟨b, t, c, hp⟩ | ⟨b, t, ks, hp⟩
  · obtain ⟨o, e, ho⟩ := hresume t
    refine ⟨o, ?_⟩
    rw [work, hp]
    simp only [proceed, afterLook, ho]
    rfl
  · obtain ⟨o, e, ho⟩ := hresume t
    refine ⟨o, ?_⟩
    rw [work, hp]
    simp only [finishOn, ho]
    rfl

end World

/-- Whatever the model says and whenever control calls, other distances and motor faults come, the
motors get no power but that of a drive or its opposite, the wheels no angle but that of a turn, its
opposite or none, and the camera no angle beyond its limits.  If nothing is put off, the motors stop
after each start within the time of the longest move: unless they have, the worker is at a hold that
ends by then, and once that time has come, the worker's next step stops them. -/
theorem World.live_enveloped (rig : Rig) (ht : rig.motion.Timely) (haim : rig.motion.Aimable)
    (cm : Float) (voice : Voice) (ch : Channel) (d : Nat) (es : List (Happening rig)) :
    let plant : Plant := { body := { distance := cm }, voice }
    let u : World rig.machinery := fresh plant ch d
    let w := u.live es
    (∀ x ∈ w.body.log, rig.motion.Allows x.2) ∧
      (u.Prompt (u.course es) → ∀ newer older s p, w.body.log = newer ++ (s, .power p) :: older →
        (∃ s', (s', .stop) ∈ newer ∧ s ≤ s' ∧ s' ≤ s + rig.motion.longest) ∨
          ∃ e, w.now ≤ e ∧ e ≤ s + rig.motion.longest ∧
            ∃ newest, (w.passTo e).work.body.log = newest ++ (e, .stop) :: w.body.log) := by
  intro plant u w
  have hfresh (strict : Prop) : u.Enveloped strict :=
    { allowed := fun _ hx => absurd hx List.not_mem_nil
      past := fun _ hx => absurd hx List.not_mem_nil
      present := fun _ _ hh => by cases hh
      answered := fun newer older s p hlog => (by cases newer <;> cases hlog) }
  have hallowed := ((hfresh False).live ht haim es False.elim).allowed
  refine ⟨hallowed, fun hprompt newer older s p hlog => ?_⟩
  have h : w.Enveloped (u.Prompt (u.course es)) := (hfresh _).live ht haim es id
  rcases h.answered newer older s p hlog with ⟨s', hmem, hle, hbound⟩ | ⟨hold, hh, hend⟩
  · exact .inl ⟨s', hmem, hle, hbound hprompt⟩
  · have hnow : w.now ≤ hold.deadline := h.present hprompt hold hh
    refine .inr ⟨hold.deadline, hnow, hend, ?_⟩
    have hcome : (w.passTo hold.deadline).now = hold.deadline := Nat.max_eq_left hnow
    obtain ⟨newest, hnewest⟩ := log_work_of_hold? (w := w.passTo hold.deadline) hh hcome.ge
    rw [hcome] at hnewest
    exact ⟨newest, hnewest⟩

/-- The standard robot moves back until that takes its end. -/
def backed : List (Happening {}) := backing ++ Happening.acts [.pass 500, .work]

/-- It has started its motors once, and has stopped them in time. -/
theorem World.live_enveloped_backed :
    let w := standardWorld.live backed
    Settings.Motion.Timely {} ∧ Settings.Motion.Aimable {} ∧
      standardWorld.Prompt (standardWorld.course backed) ∧
      w.body.log = [(500, .stop), (0, .power (-80)), (0, .steering 0.0)] ∧
      (∀ x ∈ w.body.log, Settings.Motion.Allows {} x.2) ∧
      500 ≤ 0 + Settings.Motion.longest {} := by
  intro w
  have ht : Settings.Motion.Timely {} := ⟨by decide, by decide⟩
  have haim : Settings.Motion.Aimable {} := ⟨by decide, by decide⟩
  have hprompt : standardWorld.Prompt (standardWorld.course backed) := by decide +kernel
  have hlog : w.body.log = [(500, .stop), (0, .power (-80)), (0, .steering 0.0)] := rfl
  obtain ⟨hallowed, hstopped⟩ :=
    World.live_enveloped {} ht haim 100.0 { msPerWord := 250 } (.withCapacity 16) 5000 backed
  refine ⟨ht, haim, hprompt, hlog, hallowed, ?_⟩
  rcases hstopped hprompt [(500, .stop)] [(0, .steering 0.0)] 0 (-80) hlog with
    ⟨s', hmem, -, hbound⟩ | ⟨e, -, -, newest, hnewest⟩
  · cases List.mem_singleton.mp hmem
    exact hbound
  · -- the worker is at no hold any more, so its next step does not touch the body
    have hsame : (w.passTo e).work.body.log = w.body.log := rfl
    have hgrown : w.body.log = newest ++ (e, .stop) :: w.body.log := hsame.symm.trans hnewest
    have hlength := congrArg List.length hgrown
    rw [List.length_append, List.length_cons] at hlength
    omega

end RoverPilot
