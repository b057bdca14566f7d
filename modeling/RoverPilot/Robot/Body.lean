import RoverPilot.Clock
import RoverPilot.Handler.Ending

/-!
The simulated body: motors, front wheels, camera and distance sensor.

* `BodyEvent`, `Body`: what an actuator did, and the state of the body;
* `Body.act?`: a call of an actuator, refused after a motor fault;
* `Body.stop`: the motors stop, fault or no fault;
* `Body.obstacleAhead`: what the sensor says.
-/

namespace RoverPilot

/-- What an actuator did. -/
inductive BodyEvent where
  | steering (degrees : Float)
  | power (p : Int32)
  | stop
  | camera (pan tilt : Int32)

/-- The body of the robot. -/
structure Body where
  power : Int32 := 0
  steering : Float := 0.0
  /-- What the front sensor reads; without an echo, no positive number. -/
  distance : Float
  /-- The motor fault, from the moment it is set. -/
  fault : Option String := none
  log : Log BodyEvent := []

namespace Body

/-! ### Actuators -/

/-- The body after an event. -/
def record (b : Body) (now : Nat) (e : BodyEvent) : Body :=
  let b := { b with log := (now, e) :: b.log }
  match e with
  | .steering degrees => { b with steering := degrees }
  | .power p => { b with power := p }
  | .stop => { b with power := 0 }
  | .camera _ _ => b

/-- A call of an actuator.  With a motor fault it has no effect. -/
def act? (b : Body) (now : Nat) (e : BodyEvent) : Except Fault Body :=
  match b.fault with
  | some detail => .error (.actuator (.motorFault detail))
  | none => .ok (b.record now e)

/-- The motors stop, also with a motor fault. -/
def stop (b : Body) (now : Nat) : Body := b.record now .stop

/-- The number of stops so far. -/
def stops (b : Body) : Nat :=
  b.log.countP fun entry => match entry.2 with
    | .stop => true
    | _ => false

/-- After a stop the motors are off. -/
@[simp] theorem power_stop (b : Body) (now : Nat) : (b.stop now).power = 0 := rfl

/-- A stop does not move the wheels. -/
@[simp] theorem steering_stop (b : Body) (now : Nat) : (b.stop now).steering = b.steering := rfl

/-- What the body does leaves the motor fault as it is. -/
@[simp] theorem fault_record (b : Body) (now : Nat) (e : BodyEvent) :
    (b.record now e).fault = b.fault := by
  cases e <;> rfl

/-- What the body does is written down once. -/
@[simp] theorem log_record (b : Body) (now : Nat) (e : BodyEvent) :
    (b.record now e).log = (now, e) :: b.log := by
  cases e <;> rfl

/-- An actuator works exactly when there is no motor fault. -/
theorem act?_eq_ok_iff {b c : Body} {now : Nat} {e : BodyEvent} :
    b.act? now e = .ok c ↔ b.fault = none ∧ c = b.record now e := by
  rw [act?]
  split
  · rename_i detail h
    simp [h]
  · rename_i h
    simp [h, eq_comm]

/-! ### Sensor -/

/-- Whether the sensor reads a positive distance below the threshold. -/
def obstacleAhead (b : Body) (threshold : Float) : Bool :=
  decide (0.0 < b.distance) && decide (b.distance < threshold)

/-! ### Changes from outside -/

/-- The sensor reads another distance. -/
def setDistance (b : Body) (distance : Float) : Body := { b with distance }

/-- The motors become faulty. -/
def setFault (b : Body) (detail : String) : Body := { b with fault := some detail }

end Body

end RoverPilot
