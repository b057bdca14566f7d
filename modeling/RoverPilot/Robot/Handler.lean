import RoverPilot.Robot.Move
import RoverPilot.Robot.Script
import RoverPilot.Robot.Voice
import RoverPilot.Text.Letters

/-!
The handlers of the robot.

* `Handler`: moves, camera, stop, speech and scripted handlers;
* `Registry`: handlers by name, of two with one name the first;
* `Plant`: body, voice and the log of scripted handlers;
* `Activity`: a call that goes on;
* `Rig`, `Rig.machinery`: settings and handlers as a machinery.
-/

namespace RoverPilot

/-! ### Handlers by name -/

/-- The handlers. -/
inductive Handler where
  | move (m : Move)
  | camera
  | stop
  | say
  | scripted (s : Script)
  deriving DecidableEq, Repr

/-- The name of a handler. -/
def Handler.name : Handler → String
  | .move m => m.name
  | .camera => "CAMERA"
  | .stop => "STOP"
  | .say => "SAY"
  | .scripted s => s.name

/-- The handlers of the body. -/
def Handler.chassis : List Handler :=
  [.move .forward, .move .back, .move .left, .move .right, .camera, .stop]

/-- The handlers of the body and the voice. -/
def Handler.standard : List Handler := Handler.chassis ++ [.say]

/-- Handlers in the order of their registration. -/
abbrev Registry := List Handler

namespace Registry

/-- The name under which a handler is found. -/
def key (h : Handler) : String := Text.upperString h.name

/-- The handler of a name in letters of either case: the first one registered. -/
def find? (r : Registry) (name : String) : Option Handler :=
  List.find? (fun h => key h == Text.upperString name) r

/-- The handler of a name, or the fault that there is none. -/
def resolve (r : Registry) (name : String) : Except Fault Handler :=
  match r.find? name with
  | some h => .ok h
  | none => .error (.unknownCommand name)

/-- The names under which handlers are found, in the order of code points. -/
def names (r : Registry) : List String :=
  (r.map key).eraseDups.mergeSort fun a b => Text.notAfter a.toList b.toList

end Registry

/-! ### What handlers act on -/

/-- Body, voice and the log of scripted handlers. -/
structure Plant where
  body : Body
  voice : Voice
  scripts : Log ScriptEvent := []

/-- A call that goes on. -/
inductive Activity where
  /-- Motors run. -/
  | holding (h : Hold)
  /-- A text waits for the utterance before it. -/
  | saying (text : String)
  /-- Finishing waits for the last utterance. -/
  | silence
  /-- A scripted handler takes its time. -/
  | scripted (s : Script) (till : Nat)
  /-- A scripted handler takes its time to finish. -/
  | scriptedFinish (s : Script) (till : Nat)
  deriving DecidableEq, Repr

namespace Plant

/-- A call on the body; motors that go on running are an activity. -/
def onBody (p : Plant) (r : Body × Progress Hold) : Plant × Progress Activity :=
  ({ p with body := r.1 }, match r.2 with
    | .running h => .running (.holding h)
    | .ended e => .ended e)

/-- One actuator call that ends a command. -/
def actOnce (p : Plant) (now : Nat) (e : BodyEvent) : Plant × Progress Activity :=
  match p.body.act? now e with
  | .ok body => ({ p with body }, .ended (.returned .ok))
  | .error fault => (p, .ended (.raised fault))

/-! ### Camera -/

/-- An angle kept between two limits; the upper one counts last. -/
def clamp (value : Int32) (limits : Int32 × Int32) : Int32 := min (max value limits.1) limits.2

/-- The camera turns, as far as its limits allow. -/
def aim (p : Plant) (m : Settings.Motion) (args : List String) (now : Nat) :
    Plant × Progress Activity :=
  if args.length < 2 then (p, .ended (.raised (.argumentCount "CAMERA" 2 args.length)))
  else match wordArgument "CAMERA" args 0, wordArgument "CAMERA" args 1 with
    | .error fault, _ => (p, .ended (.raised fault))
    | .ok _, .error fault => (p, .ended (.raised fault))
    | .ok pan, .ok tilt =>
      p.actOnce now (.camera (clamp pan m.cameraPan) (clamp tilt m.cameraTilt))

/-! ### Voice -/

/-- How waiting for the last utterance ends, if it does: it is given up when the
signal is given, or it is over. -/
def awaitUtterance (p : Plant) (cancelled : Bool) : Plant × Option (Bool × Option Cause) :=
  match p.voice.current with
  | none => (p, some (true, none))
  | some u =>
    if cancelled then ({ p with voice := p.voice.abort }, some (false, none))
    else match u.playback with
      | .over trouble => ({ p with voice := p.voice.take }, some (true, trouble))
      | _ => (p, none)

/-- A text is given to the voice once the utterance before it is over, well or
not. -/
def saying (p : Plant) (text : String) (t : Moment) : Plant × Progress Activity :=
  match p.awaitUtterance t.cancelled with
  | (p, none) => (p, .running (.saying text))
  | (p, some (false, _)) => (p, .ended (.returned .interrupted))
  | (p, some (true, _)) =>
    ({ p with voice := p.voice.say t.token text }, .ended (.returned .ok))

/-- Finishing ends once the last utterance is over; what went wrong with it is a
fault. -/
def silence (p : Plant) (t : Moment) : Plant × Progress Activity :=
  match p.awaitUtterance t.cancelled with
  | (p, none) => (p, .running .silence)
  | (p, some (_, none)) => (p, .ended (.returned .ok))
  | (p, some (_, some cause)) => (p, .ended (.raised (.actuator cause)))

/-! ### Scripts -/

/-- Events of a scripted handler, in order. -/
def note (p : Plant) (now : Nat) (events : List ScriptEvent) : Plant :=
  { p with scripts := (events.map fun e => (now, e)).reverse ++ p.scripts }

/-- What a look at a scripted handler brought. -/
def onScript (p : Plant) (now : Nat) (a : Activity) (r : List ScriptEvent × Option Ending) :
    Plant × Progress Activity :=
  (p.note now r.1, match r.2 with
    | some e => .ended e
    | none => .running a)

end Plant

/-! ### The machinery -/

/-- The settings and the handlers of a robot. -/
structure Rig where
  motion : Settings.Motion := {}
  registry : Registry := Handler.standard

namespace Rig

/-- A handler begins to carry out a command. -/
def execute (rig : Rig) (h : Handler) (args : List String) (t : Moment) (p : Plant) :
    Plant × Progress Activity :=
  match h with
  | .move m => p.onBody (m.begin rig.motion args t.now t.cancelled p.body)
  | .camera => p.aim rig.motion args t.now
  | .stop => ({ p with body := p.body.stop t.now }, .ended (.returned .ok))
  | .say =>
    if args.isEmpty then (p, .ended (.raised (.argumentCount "SAY" 1 0)))
    else p.saying (" ".intercalate args) t
  | .scripted s =>
    let till := t.now + s.delay
    (p.note t.now [.execute s.name args]).onScript t.now (.scripted s till)
      (s.resume till t.now t.cancelled)

/-- A handler begins to finish. -/
def finish (h : Handler) (t : Moment) (p : Plant) : Plant × Progress Activity :=
  match h with
  | .say => p.silence t
  | .scripted s =>
    let till := t.now + s.finishDelay
    (p.note t.now [.finish s.name t.cancelled]).onScript t.now (.scriptedFinish s till)
      (s.resumeFinish till t.now)
  | _ => (p, .ended (.returned .ok))

/-- A call is looked at again. -/
def resume (rig : Rig) (a : Activity) (t : Moment) (p : Plant) : Plant × Progress Activity :=
  match a with
  | .holding h => p.onBody (h.poll rig.motion t.now t.cancelled p.body)
  | .saying text => p.saying text t
  | .silence => p.silence t
  | .scripted s till => p.onScript t.now a (s.resume till t.now t.cancelled)
  | .scriptedFinish s till => p.onScript t.now a (s.resumeFinish till t.now)

/-- Whether another look at a call would bring it forward. -/
def ready (a : Activity) (t : Moment) (p : Plant) : Bool :=
  match a with
  | .holding h => h.ready t.now t.cancelled
  | .saying _ => (p.awaitUtterance t.cancelled).2.isSome
  | .silence => (p.awaitUtterance t.cancelled).2.isSome
  | .scripted s till => s.ready till t.now t.cancelled
  | .scriptedFinish _ till => decide (till ≤ t.now)

/-- What a call waits for until it can go on by itself. -/
def wait : Activity → Option Wait
  | .holding h => some h.wait
  | .scripted s till => some { since := till - s.delay, till }
  | .scriptedFinish s till => some { since := till - s.finishDelay, till }
  | .saying _ => none
  | .silence => none

/-- The machinery of a robot. -/
def machinery (rig : Rig) : Machinery where
  Plant := Plant
  Handler := Handler
  Activity := Activity
  resolve := rig.registry.find?
  execute := rig.execute
  finish := finish
  resume := rig.resume
  ready := ready
  wait := fun a _ => wait a
  halt := fun now p => { p with body := p.body.stop now }
  background := fun now cancelled p => { p with voice := p.voice.step now cancelled }
  backgroundReady := fun now cancelled p => p.voice.ready now cancelled
  backgroundWait := fun p => p.voice.wait
  backgroundBacklog := fun p => p.voice.aborted.length + 2

end Rig

end RoverPilot
