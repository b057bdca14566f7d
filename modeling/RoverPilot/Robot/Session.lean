import RoverPilot.Executor.Session
import RoverPilot.Robot.Handler

/-!
Sessions of the whole robot.

* `RobotSession`, `RobotSession.create`: a session on a rig, and its beginning;
* `RobotSession.plant`: body and voice;
* `RobotSession.setDistance`, `RobotSession.setFault`: the surroundings change.
-/

namespace RoverPilot

/-- A session of a robot. -/
abbrev RobotSession (rig : Rig) := Session rig.machinery

namespace RobotSession

variable {rig : Rig}

/-- A robot before anything happens. -/
def create (rig : Rig) (plant : Plant) (channel : Channel) (reportTimeout : Nat)
    (interjection : Option Interjection) : RobotSession rig where
  world := { plant := (plant : Plant), channel, reportTimeout }
  interjection := interjection

/-- What the handlers act on. -/
def plant (s : RobotSession rig) : Plant := s.world.plant

/-- The body changes. -/
def changeBody (s : RobotSession rig) (f : Body → Body) : RobotSession rig :=
  let p : Plant := { s.plant with body := f s.plant.body }
  { s with world := { s.world with plant := p } }

/-- The sensor reads another distance. -/
def setDistance (s : RobotSession rig) (cm : Float) : RobotSession rig :=
  changeBody s (·.setDistance cm)

/-- The motors become faulty. -/
def setFault (s : RobotSession rig) (detail : String) : RobotSession rig :=
  changeBody s (·.setFault detail)

end RobotSession

end RoverPilot
