import RoverPilot.Clock
import RoverPilot.Handler.Ending

/-!
What the executor knows of handlers.

* `Token`: the cancellation signal of one batch;
* `Moment`: the present time and the state of a signal, as a call sees them;
* `Machinery`: handlers that act on a plant in calls that may go on for a while.

The executor is defined for every machinery, so that its laws hold whatever the
handlers do.
-/

namespace RoverPilot

/-- The cancellation signal of one batch. -/
abbrev Token := Nat

/-- The present time, the signal of the batch at work, and whether that signal is
given. -/
structure Moment where
  now : Nat
  token : Token
  cancelled : Bool

/-- Handlers that act on a plant. -/
structure Machinery where
  /-- What the handlers act on. -/
  Plant : Type
  /-- The handlers of commands. -/
  Handler : Type
  /-- A call that goes on. -/
  Activity : Type
  /-- The handler of a command name. -/
  resolve : String → Option Handler
  /-- A handler begins to carry out a command with the given arguments. -/
  execute : Handler → List String → Moment → Plant → Plant × Progress Activity
  /-- A handler begins to finish what it does for a batch. -/
  finish : Handler → Moment → Plant → Plant × Progress Activity
  /-- A call is looked at again. -/
  resume : Activity → Moment → Plant → Plant × Progress Activity
  /-- Whether another look would bring a call forward. -/
  ready : Activity → Moment → Plant → Bool
  /-- What a call waits for until it can go on by itself. -/
  wait : Activity → Plant → Option Wait
  /-- The motors stop at the given time. -/
  halt : Nat → Plant → Plant
  /-- One step of what goes on beside the calls, at the given time and with the
  given signals. -/
  background : Nat → (Token → Bool) → Plant → Plant
  /-- Whether such a step is possible. -/
  backgroundReady : Nat → (Token → Bool) → Plant → Bool
  /-- What the background waits for until such a step becomes possible by itself. -/
  backgroundWait : Plant → Option Wait
  /-- A number of such steps that suffices at one time. -/
  backgroundBacklog : Plant → Nat

end RoverPilot
