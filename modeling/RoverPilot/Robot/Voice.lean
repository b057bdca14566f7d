import RoverPilot.Clock
import RoverPilot.Handler.Machinery
import RoverPilot.Text.Blank

/-!
The simulated voice: texts spoken in the background, one word at a time.

* `Utterance`, `Voice`: a text to speak and how far it is, and all of them;
* `Voice.say`, `Voice.abort`, `Voice.take`: a text is given, given up, or waited
  for to the end;
* `Voice.step`: one step of the background.

An utterance ends with the signal of its batch; one whose signal is given before
its first step is never heard.
-/

namespace RoverPilot

/-- What is heard of an utterance. -/
inductive SpeechEvent where
  | start (text : String)
  | finish (text : String)
  /-- It breaks off. -/
  | cut (text : String)
  deriving DecidableEq, Repr

/-- How far an utterance is. -/
inductive Playback where
  /-- It was not heard yet. -/
  | waiting
  /-- It is heard for a time. -/
  | playing (wait : Wait)
  /-- It is over, well or not. -/
  | over (trouble : Option Cause)
  deriving DecidableEq, Repr

/-- A text to speak for a batch. -/
structure Utterance where
  /-- The number of its background task. -/
  task : Nat
  token : Token
  text : String
  playback : Playback := .waiting
  deriving DecidableEq, Repr

/-- The voice of the robot. -/
structure Voice where
  msPerWord : UInt64
  /-- The number of background tasks so far. -/
  tasks : Nat := 0
  /-- The utterance that nobody has waited for to the end. -/
  current : Option Utterance := none
  /-- Utterances given up but not silent yet, the oldest first. -/
  aborted : List Utterance := []
  log : Log SpeechEvent := []

/-! ### Texts -/

/-- How long a text is heard, in milliseconds, if the time is a word of 64 bits. -/
def speakingTime? (text : String) (msPerWord : UInt64) : Option Nat :=
  let ms := (Text.words text.toList).length * msPerWord.toNat
  if ms < UInt64.size then some ms else none

/-- What goes wrong at the end of a text: a mark at its end rehearses a speaker
that is offline or a task that breaks. -/
def troubleAfter (text : String) (task : Nat) : Option Cause :=
  if text.endsWith "!fail" then some .speakerOffline
  else if text.endsWith "!panic" then some (.speechTask task "speaker bug")
  else none

namespace Voice

/-! ### Utterances -/

/-- Another background task takes the next number. -/
def countTask (v : Voice) : Voice := { v with tasks := v.tasks + 1 }

/-- A text is given to be spoken while the signal of its batch is not given. -/
def say (v : Voice) (token : Token) (text : String) : Voice :=
  { v.countTask with current := some { task := v.countTask.tasks, token, text } }

/-- The utterance is given up. -/
def abort (v : Voice) : Voice :=
  { v with current := none, aborted := v.aborted ++ v.current.toList }

/-- The utterance is done with. -/
def take (v : Voice) : Voice := { v with current := none }

/-- Something is heard. -/
def hear (v : Voice) (now : Nat) (e : SpeechEvent) : Voice := { v with log := (now, e) :: v.log }

/-- The utterance is further than before. -/
def play (v : Voice) (u : Utterance) (playback : Playback) : Voice :=
  { v with current := some { u with playback } }

/-! ### The background -/

/-- One step of an utterance. -/
def stepCurrent (v : Voice) (now : Nat) (cancelled : Bool) (u : Utterance) : Voice :=
  match u.playback with
  | .waiting =>
    if cancelled then v.play u (.over none)
    else
      let v := v.hear now (.start u.text)
      match speakingTime? u.text v.msPerWord with
      | some ms => v.play u (.playing { since := now, till := now + ms })
      | none =>
        (v.hear now (.cut u.text)).play u
          (.over (some (.speechTask u.task "attempt to multiply with overflow")))
  | .playing wait =>
    if cancelled then (v.hear now (.cut u.text)).play u (.over none)
    else if wait.till ≤ now then
      (v.hear now (.finish u.text)).play u (.over (troubleAfter u.text u.task))
    else v
  | .over _ => v

/-- One step of the background.  What was given up falls silent first. -/
def step (v : Voice) (now : Nat) (cancelled : Token → Bool) : Voice :=
  match v.aborted with
  | u :: rest =>
    let v := { v with aborted := rest }
    match u.playback with
    | .playing _ => v.hear now (.cut u.text)
    | _ => v
  | [] =>
    match v.current with
    | some u => v.stepCurrent now (cancelled u.token) u
    | none => v

/-- Whether a step of the background is possible. -/
def ready (v : Voice) (now : Nat) (cancelled : Token → Bool) : Bool :=
  !v.aborted.isEmpty || match v.current with
    | some u => match u.playback with
      | .waiting => true
      | .playing wait => cancelled u.token || decide (wait.till ≤ now)
      | .over _ => false
    | none => false

/-- The wait for the end of the utterance. -/
def wait (v : Voice) : Option Wait :=
  match v.current with
  | some u => match u.playback with
    | .playing wait => some wait
    | _ => none
  | none => none

end Voice

end RoverPilot
