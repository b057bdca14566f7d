/-!
What the robot is set to.

* `Settings.Motion`: moves and camera;
* `Settings.Simulation`: the simulated sensor and voice;
* `Settings`: all of it;
* `Settings.Motion.driveTime?`, `Settings.Motion.turnTime?`,
  `Settings.Motion.pollPeriod`: the times that follow.
-/

namespace RoverPilot

namespace Settings

/-- How the robot moves. -/
structure Motion where
  /-- The motor power of a move. -/
  drivePower : Int32 := 80
  msPerCm : UInt64 := 10
  msPerDegree : UInt64 := 10
  /-- The angle of the front wheels while turning right. -/
  turnSteering : Float := 30.0
  /-- Longer drives are refused. -/
  maxDriveCm : Int32 := 300
  /-- Larger turns are refused. -/
  maxTurnDegrees : Int32 := 360
  /-- A positive reading below this is an obstacle. -/
  obstacleDistance : Float := 15.0
  /-- The time between two looks at the sensor while moving. -/
  obstaclePollMs : UInt64 := 50
  cameraPan : Int32 × Int32 := (-45, 45)
  cameraTilt : Int32 × Int32 := (-10, 60)

/-- The simulated robot. -/
structure Simulation where
  /-- What the front sensor reads. -/
  frontDistance : Float := 120.0
  speechMsPerWord : UInt64 := 250

end Settings

/-- What the robot is set to. -/
structure Settings where
  /-- The time that the delivery of one report may take. -/
  reportTimeoutMs : UInt64 := 5000
  motion : Settings.Motion := {}
  simulation : Settings.Simulation := {}

namespace Settings.Motion

/-! ### Times -/

/-- A whole number of units at a pace, if the time is a word of 64 bits. -/
def time? (amount : Int32) (pace : UInt64) : Option Nat :=
  let ms := amount.toInt.natAbs * pace.toNat
  if ms < UInt64.size then some ms else none

/-- How long a drive takes, in milliseconds. -/
def driveTime? (m : Motion) (cm : Int32) : Option Nat := time? cm m.msPerCm

/-- How long a turn takes, in milliseconds. -/
def turnTime? (m : Motion) (degrees : Int32) : Option Nat := time? degrees m.msPerDegree

/-- The time between two looks at the sensor, at least a millisecond. -/
def pollPeriod (m : Motion) : Nat := max m.obstaclePollMs.toNat 1

end Settings.Motion

end RoverPilot
