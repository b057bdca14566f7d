import RoverPilot.Handler.Machinery
import RoverPilot.Robot.Body
import RoverPilot.Settings.Basic
import RoverPilot.Text.Numeral

/-!
Timed moves: the motors run for a time that follows from a distance or an angle,
and then stop.

* `Move`: forward, back, left, right;
* `Move.amount?`: the distance or angle of a move, or why it is refused before
  anything happens;
* `Move.begin`: the motors start;
* `Hold`, `Hold.poll`: the motors run until the time is over, the batch is
  cancelled or an obstacle is near.
-/

namespace RoverPilot

/-! ### Arguments -/

/-- The argument at a position, as a word of 32 bits with a sign. -/
def wordArgument (command : String) (args : List String) (index : Nat) : Except Fault Int32 :=
  match args[index]? with
  | none => .error (.argumentCount command (index + 1) args.length)
  | some value =>
    match Text.integer? value.toList with
    | some n =>
      if Int32.minValue.toInt ≤ n ∧ n ≤ Int32.maxValue.toInt then .ok (Int32.ofInt n)
      else .error (.invalidArgument command (index + 1) value)
    | none => .error (.invalidArgument command (index + 1) value)

/-! ### Moves -/

/-- The moves. -/
inductive Move where
  | forward
  | back
  | left
  | right
  deriving DecidableEq, Repr

namespace Move

/-- The name of a move. -/
def name : Move → String
  | forward => "FORWARD"
  | back => "BACK"
  | left => "LEFT"
  | right => "RIGHT"

/-- Whether a move changes the heading. -/
def isTurn : Move → Bool
  | left => true
  | right => true
  | _ => false

/-- Whether a move looks out for obstacles; the sensor is at the front. -/
def watches : Move → Bool
  | back => false
  | _ => true

/-- The largest amount of a move. -/
def limit (m : Settings.Motion) (move : Move) : Int32 :=
  if move.isTurn then m.maxTurnDegrees else m.maxDriveCm

/-- How long a move takes, if the words hold the time. -/
def time? (m : Settings.Motion) (move : Move) (amount : Int32) : Option Nat :=
  if move.isTurn then m.turnTime? amount else m.driveTime? amount

/-- The angle of the front wheels during a move. -/
def steering (m : Settings.Motion) : Move → Float
  | left => -m.turnSteering
  | right => m.turnSteering
  | _ => 0.0

/-- The motor power of a move; the least word has no opposite. -/
def power? (m : Settings.Motion) : Move → Option Int32
  | back => if m.drivePower = Int32.minValue then none else some (-m.drivePower)
  | _ => some m.drivePower

/-! ### Refusals -/

/-- The amount of a move, or how it ends before anything happens.  The argument
comes first, then its limit, then the obstacle, then the signal of the batch. -/
def amount? (m : Settings.Motion) (move : Move) (args : List String) (cancelled : Bool)
    (b : Body) : Except Ending Int32 :=
  match wordArgument move.name args 0 with
  | .error fault => .error (.raised fault)
  | .ok amount =>
    if amount < 0 then .error (.raised (.invalidArgument move.name 1 (args.head?.getD "")))
    else if move.limit m < amount then .error (.returned .safety)
    else if move.watches && b.obstacleAhead m.obstacleDistance then .error (.returned .obstacle)
    else if cancelled then .error (.returned .interrupted)
    else .ok amount

end Move

/-! ### Running motors -/

/-- A move with running motors. -/
structure Hold where
  move : Move
  /-- The time of the last look at the sensor, or else of the beginning. -/
  since : Nat
  deadline : Nat
  /-- The time of the next look at the sensor. -/
  nextLook : Nat
  deriving DecidableEq, Repr

namespace Hold

/-- How a hold ends now, if it does.  The signal comes first, then the time, then
the sensor. -/
def outcome? (m : Settings.Motion) (h : Hold) (now : Nat) (cancelled : Bool) (b : Body) :
    Option Outcome :=
  if cancelled then some .interrupted
  else if h.deadline ≤ now then some .ok
  else if h.move.watches ∧ h.nextLook ≤ now ∧ b.obstacleAhead m.obstacleDistance then
    some .obstacle
  else none

/-- The motors stop, and after a turn the wheels are put straight; that they cannot
be is a fault. -/
def close (h : Hold) (now : Nat) (b : Body) (o : Outcome) : Body × Progress Hold :=
  let b := b.stop now
  if h.move.isTurn then
    match b.act? now (.steering 0.0) with
    | .ok b => (b, .ended (.returned o))
    | .error fault => (b, .ended (.raised fault))
  else (b, .ended (.returned o))

/-- A look at a hold.  After a look at the sensor the next one follows a period
later. -/
def poll (m : Settings.Motion) (h : Hold) (now : Nat) (cancelled : Bool) (b : Body) :
    Body × Progress Hold :=
  match h.outcome? m now cancelled b with
  | some o => h.close now b o
  | none =>
    (b, .running (if h.nextLook ≤ now then
      { h with since := now, nextLook := now + m.pollPeriod } else h))

/-- Whether a look would change anything. -/
def ready (h : Hold) (now : Nat) (cancelled : Bool) : Bool :=
  cancelled || decide (h.deadline ≤ now) || (h.move.watches && decide (h.nextLook ≤ now))

/-- The wait for the next look that matters. -/
def wait (h : Hold) : Wait where
  since := h.since
  till := if h.move.watches then min h.deadline h.nextLook else h.deadline

end Hold

namespace Move

/-- A move begins: wheels first, motors next, and the time is known last. -/
def begin (m : Settings.Motion) (move : Move) (args : List String) (now : Nat)
    (cancelled : Bool) (b : Body) : Body × Progress Hold :=
  match move.amount? m args cancelled b with
  | .error e => (b, .ended e)
  | .ok amount =>
    match b.act? now (.steering (move.steering m)) with
    | .error fault => (b, .ended (.raised fault))
    | .ok b =>
      match move.power? m with
      | none => (b, .ended .panicked)
      | some p =>
        match b.act? now (.power p) with
        | .error fault => (b, .ended (.raised fault))
        | .ok b =>
          match move.time? m amount with
          | none => (b, .ended .panicked)
          | some ms =>
            let h : Hold := { move, since := now, deadline := now + ms, nextLook := now }
            h.poll m now cancelled b

end Move

end RoverPilot
