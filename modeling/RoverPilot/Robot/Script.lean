import RoverPilot.Clock
import RoverPilot.Handler.Machinery

/-!
Scripted handlers, for rehearsals without a body.

* `Script`: how long a handler takes and how it ends;
* `ScriptEvent`: what a scripted handler reports of itself;
* `Script.resume`, `Script.resumeFinish`: a look at a call of it.
-/

namespace RoverPilot

/-- How a scripted handler behaves. -/
structure Script where
  name : String
  /-- How long a call takes. -/
  delay : Nat := 0
  /-- Whether a call ignores the signal of its batch. -/
  stubborn : Bool := false
  ending : Ending
  /-- How long finishing takes; it ignores the signal. -/
  finishDelay : Nat := 0
  finishEnding : Ending := .returned .ok
  deriving DecidableEq, Repr

/-- What a scripted handler reports of itself. -/
inductive ScriptEvent where
  | execute (name : String) (args : List String)
  | cancel (name : String)
  | complete (name : String)
  | finish (name : String) (cancelled : Bool)
  | finished (name : String)
  deriving DecidableEq, Repr

namespace Script

/-- A call of the handler is looked at; it goes on until the given time. -/
def resume (s : Script) (till : Nat) (now : Nat) (cancelled : Bool) :
    List ScriptEvent × Option Ending :=
  if cancelled ∧ ¬ s.stubborn then ([.cancel s.name], some (.returned .interrupted))
  else if till ≤ now then ([.complete s.name], some s.ending)
  else ([], none)

/-- Whether a look would change anything. -/
def ready (s : Script) (till : Nat) (now : Nat) (cancelled : Bool) : Bool :=
  (cancelled && !s.stubborn) || decide (till ≤ now)

/-- Finishing is looked at; it goes on until the given time. -/
def resumeFinish (s : Script) (till : Nat) (now : Nat) : List ScriptEvent × Option Ending :=
  if till ≤ now then (if s.finishDelay = 0 then [] else [.finished s.name], some s.finishEnding)
  else ([], none)

end Script

end RoverPilot
