import Mathlib.Tactic
import RoverPilot.Proofs.Executor.Ledger
import RoverPilot.Robot.Session

/-!
Lives of a robot: whatever the executor does, while the surroundings of the robot change.

* `Happening`, `World.happen`: an action of the executor, another distance or a motor fault;
* `Happening.acts`: actions of the executor, one after another;
* `World.live`, `World.run_of_live`: the world after a list of happenings, which is a run;
* `World.course`, `World.run_course`: the actions of that run;
* `World.LivesTo`, `World.LivesTo.lasting`: whatever a session does is part of a life, so what
  holds of all lives holds of every session of the robot.
-/

namespace RoverPilot

variable {rig : Rig}

/-- One thing that may happen to a robot.  Only these change its body from outside. -/
inductive Happening (rig : Rig) where
  /-- Anything but a change from outside. -/
  | act (a : Action rig.machinery) (ha : a.disturbs = false)
  /-- The sensor reads another distance. -/
  | distance (cm : Float)
  /-- The motors become faulty. -/
  | fault (detail : String)

/-- What happens if actions follow one another; changes from outside are not among them. -/
def Happening.acts (as : List (Action rig.machinery)) : List (Happening rig) :=
  as.filterMap fun a => if ha : a.disturbs = false then some (.act a ha) else none

namespace World

/-- The body of the robot. -/
def body (w : World rig.machinery) : Body := Plant.body w.plant

/-- Another body in the place of the present one. -/
def withBody (w : World rig.machinery) (body : Body) : rig.machinery.Plant :=
  let p : Plant := w.plant
  { p with body }

/-- What happens as an action. -/
def action (w : World rig.machinery) : Happening rig → Action rig.machinery
  | .act a _ => a
  | .distance cm => .disturb (w.withBody (w.body.setDistance cm))
  | .fault detail => .disturb (w.withBody (w.body.setFault detail))

/-- The world after something happened. -/
def happen (w : World rig.machinery) (e : Happening rig) : World rig.machinery :=
  w.act (w.action e)

/-- The world after a list of happenings. -/
def live (w : World rig.machinery) (es : List (Happening rig)) : World rig.machinery :=
  es.foldl happen w

variable (w : World rig.machinery) (e : Happening rig) (es es' : List (Happening rig))

@[simp] theorem live_nil : w.live [] = w := rfl

@[simp] theorem live_cons : w.live (e :: es) = (w.happen e).live es := rfl

@[simp] theorem live_append : w.live (es ++ es') = (w.live es).live es' := by
  simp [live]

/-- A life is a run of the executor. -/
theorem run_of_live : ∃ as, w.live es = w.run as := by
  induction es generalizing w with
  | nil => exact ⟨[], rfl⟩
  | cons e es ih =>
      obtain ⟨as, has⟩ := ih (w.happen e)
      exact ⟨w.action e :: as, has⟩

/-- The actions of a life. -/
def course (w : World rig.machinery) : List (Happening rig) → List (Action rig.machinery)
  | [] => []
  | e :: es => w.action e :: (w.happen e).course es

theorem run_course : w.run (w.course es) = w.live es := by
  induction es generalizing w with
  | nil => rfl
  | cons e es ih => exact ih (w.happen e)

@[simp] theorem course_append : w.course (es ++ es') = w.course es ++ (w.live es).course es' := by
  induction es generalizing w with
  | nil => rfl
  | cons e es ih => exact congrArg (w.action e :: ·) (ih (w.happen e))

/-- So the laws of the executor hold along every life. -/
lemma steps_live (h : w.ledger.Reachable) : Ledger.Steps w.ledger (w.live es).ledger := by
  obtain ⟨as, has⟩ := w.run_of_live es
  exact has ▸ w.steps_run h as

lemma reachable_live (p : Plant) (ch : Channel) (d : Nat) :
    ((fresh p ch d : World rig.machinery).live es).ledger.Reachable := by
  obtain ⟨as, has⟩ := (fresh p ch d : World rig.machinery).run_of_live es
  exact has ▸ reachable_run p ch d as

/-! ### Sessions -/

/-- Some life leads from one world to another. -/
def LivesTo (w v : World rig.machinery) : Prop := ∃ es, v = w.live es

namespace LivesTo

theorem refl : w.LivesTo w := ⟨[], rfl⟩

variable {w}

theorem trans {u v : World rig.machinery} (h : u.LivesTo v) (k : v.LivesTo w) : u.LivesTo w := by
  obtain ⟨es, rfl⟩ := h
  obtain ⟨es', rfl⟩ := k
  exact ⟨es ++ es', (live_append u es es').symm⟩

theorem of_happen (w : World rig.machinery) (e : Happening rig) : w.LivesTo (w.happen e) :=
  ⟨[e], rfl⟩

/-- Whatever the executor does in a session is part of a life. -/
theorem lasting : Lasting (@LivesTo rig) where
  refl := .refl
  trans := .trans
  act w a ha := .of_happen w (.act a ha)

end LivesTo

end World

namespace RobotSession

variable (s : RobotSession rig)

/-- A session begins where a life begins. -/
theorem world_create (p : Plant) (ch : Channel) (d : Nat) (i : Option Interjection) :
    (create rig p ch d i).world = .fresh p ch d := rfl

/-- Another distance in a session is part of a life. -/
theorem livesTo_setDistance (cm : Float) : s.world.LivesTo (s.setDistance cm).world :=
  .of_happen s.world (.distance cm)

/-- A motor fault in a session is part of a life. -/
theorem livesTo_setFault (detail : String) : s.world.LivesTo (s.setFault detail).world :=
  .of_happen s.world (.fault detail)

end RobotSession

end RoverPilot
