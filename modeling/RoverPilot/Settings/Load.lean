import RoverPilot.Json.Typed
import RoverPilot.Settings.Basic
import RoverPilot.Text.Utf8

/-!
Settings from a file.

* `Settings.read`: the settings that a JSON text describes;
* `Settings.LoadError`, `Settings.load`: the settings of a file, which may be
  missing or broken.
-/

namespace RoverPilot.Settings

open Json

/-! ### Fields -/

/-- The fields of the motion settings, in their order. -/
def Motion.fields : List (Member Motion) := [
  ⟨"drive_power", fun m => return { m with drivePower := ← word32 }⟩,
  ⟨"ms_per_cm", fun m => return { m with msPerCm := ← word64 }⟩,
  ⟨"ms_per_degree", fun m => return { m with msPerDegree := ← word64 }⟩,
  ⟨"turn_steering_deg", fun m => return { m with turnSteering := ← real }⟩,
  ⟨"max_drive_cm", fun m => return { m with maxDriveCm := ← word32 }⟩,
  ⟨"max_turn_deg", fun m => return { m with maxTurnDegrees := ← word32 }⟩,
  ⟨"obstacle_distance_cm", fun m => return { m with obstacleDistance := ← real }⟩,
  ⟨"obstacle_poll_ms", fun m => return { m with obstaclePollMs := ← word64 }⟩,
  ⟨"camera_pan_deg", fun m => return { m with cameraPan := ← pair }⟩,
  ⟨"camera_tilt_deg", fun m => return { m with cameraTilt := ← pair }⟩]

/-- The fields of the simulation settings, in their order. -/
def Simulation.fields : List (Member Simulation) := [
  ⟨"front_distance_cm", fun s => return { s with frontDistance := ← real }⟩,
  ⟨"speech_ms_per_word", fun s => return { s with speechMsPerWord := ← word64 }⟩]

/-- The fields of all settings, in their order. -/
def fields : List (Member Settings) := [
  ⟨"report_timeout_ms", fun s => return { s with reportTimeoutMs := ← word64 }⟩,
  ⟨"motion", fun s => return { s with motion := ← record Motion.fields {} }⟩,
  ⟨"simulation", fun s => return { s with simulation := ← record Simulation.fields {} }⟩]

/-! ### Texts and files -/

/-- The settings that a text describes; what it does not mention has its default. -/
def read (text : List Char) : Except Flaw Settings := document (record fields {}) text

/-- Why there are no settings. -/
inductive LoadError where
  /-- There is no file, or it holds no text. -/
  | unreadable
  /-- The text describes no settings. -/
  | flawed (flaw : Flaw)
  deriving DecidableEq, Repr

/-- What a file holds; nothing if there is no such file. -/
abbrev FileContent := Option (List UInt8)

/-- The settings of a file, or the defaults when no file is asked for. -/
def load : Option FileContent → Except LoadError Settings
  | none => .ok {}
  | some none => .error .unreadable
  | some (some bytes) =>
    if Text.Utf8.tail? bytes = some [] then
      match read (Text.Utf8.decode bytes) with
      | .ok s => .ok s
      | .error flaw => .error (.flawed flaw)
    else .error .unreadable

end RoverPilot.Settings
