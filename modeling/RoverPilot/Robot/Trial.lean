import RoverPilot.Robot.Handler

/-!
Single calls of handlers in virtual time.

* `Trial`: a plant with one call at work;
* `Trial.clockwork`: the call and the voice as time passes;
* `Trial.call`, `Trial.change`, `Trial.complete`: a call begins, something
  changes while it goes on, it goes on to its end.
-/

namespace RoverPilot

/-- What changes around a call. -/
inductive Change where
  | distance (cm : Float)
  | fault (detail : String)
  | cancel

/-- A plant with one call at work, all calls under one signal. -/
structure Trial where
  plant : Plant
  now : Nat := 0
  cancelled : Bool := false
  call : Progress Activity := .ended (.returned .ok)

namespace Trial

/-- The moment as the call sees it. -/
def moment (s : Trial) : Moment := { now := s.now, token := 0, cancelled := s.cancelled }

/-- Whether the call can go on. -/
def callReady (s : Trial) : Bool :=
  match s.call with
  | .running a => Rig.ready a s.moment s.plant
  | .ended _ => false

/-- Whether the voice can go on. -/
def voiceReady (s : Trial) : Bool := s.plant.voice.ready s.now fun _ => s.cancelled

/-- The call or else the voice goes on. -/
def step (rig : Rig) (s : Trial) : Trial :=
  match s.call, s.callReady with
  | .running a, true =>
    let (plant, call) := rig.resume a s.moment s.plant
    { s with plant, call }
  | _, _ =>
    { s with plant := { s.plant with voice := s.plant.voice.step s.now fun _ => s.cancelled } }

/-- The next time at which something happens by itself. -/
def due (s : Trial) : Option Nat :=
  let call := match s.call with
    | .running a => Rig.wait a
    | .ended _ => none
  earlierEnd call s.plant.voice.wait

/-- The call and the voice as time passes. -/
def clockwork (rig : Rig) : Clockwork Trial where
  now := now
  ready := fun s => s.callReady || s.voiceReady
  step := step rig
  due := due
  passTo := fun t s => { s with now := max t s.now }
  backlog := fun s => s.plant.voice.aborted.length + 8

/-! ### A call and what happens around it -/

/-- A handler is asked to carry out a command, or to finish.  The call is a
background task itself and takes a number. -/
def begin (rig : Rig) (s : Trial) (h : Handler) (args : List String) (finishes : Bool) : Trial :=
  let before := { s.plant with voice := s.plant.voice.countTask }
  let (plant, call) :=
    if finishes then Rig.finish h s.moment before else rig.execute h args s.moment before
  { s with plant, call }

/-- Something changes at a time. -/
def change (rig : Rig) (s : Trial) (time : Nat) (c : Change) : Trial :=
  let s := (clockwork rig).advanceTo time s
  match c with
  | .distance cm => { s with plant := { s.plant with body := s.plant.body.setDistance cm } }
  | .fault detail => { s with plant := { s.plant with body := s.plant.body.setFault detail } }
  | .cancel => { s with cancelled := true }

/-- Whether the call has ended. -/
def isOver (s : Trial) : Bool :=
  match s.call with
  | .running _ => false
  | .ended _ => true

/-- A time before which every call ends: it waits at most for one utterance and
for itself, and each wait is a word of 64 bits. -/
def horizon (s : Trial) : Nat := s.now + 4 * UInt64.size

/-- The call goes on to its end, and then everything settles. -/
def complete (rig : Rig) (s : Trial) : Trial :=
  let c := clockwork rig
  c.settle (c.advanceUntil isOver s.horizon s)

/-- A whole call with the changes around it, each at a time after its beginning. -/
def run (rig : Rig) (s : Trial) (h : Handler) (args : List String) (finishes : Bool)
    (changes : List (Nat × Change)) : Trial :=
  let start := s.now
  let s := s.begin rig h args finishes
  (changes.foldl (fun s c => s.change rig (start + c.1) c.2) s).complete rig

end Trial

end RoverPilot
