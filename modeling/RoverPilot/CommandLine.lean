import RoverPilot.Robot.Session
import RoverPilot.Settings.Load
import RoverPilot.Stream.Intake

/-!
The program as a function: arguments, files and input in, messages and exit code
out.

* `Request`, `Request.ofArgs`: what the arguments ask for;
* `drive`: a whole turn of the model on the simulated robot, and the reports it
  leads to;
* `Exit`: exit code and output;
* `run`: the whole program, for any way to read files and input.
-/

namespace RoverPilot.CommandLine

/-! ### Options -/

/-- The files that the arguments name. -/
structure Options where
  config : Option String := none
  input : Option String := none
  deriving DecidableEq, Repr

/-- The options that take a file. -/
inductive FileOption where
  | config
  | input
  deriving DecidableEq, Repr

/-- The spelling of an option. -/
def FileOption.spelling : FileOption → String
  | .config => "--config"
  | .input => "--input"

namespace Options

/-- The file of an option. -/
def get (o : Options) : FileOption → Option String
  | .config => o.config
  | .input => o.input

/-- An option is given a file.  It may be given only once, and a file has a name. -/
def set? (o : Options) (option : FileOption) (file : String) : Option Options :=
  if file.isEmpty ∨ (o.get option).isSome then none
  else some (match option with
    | .config => { o with config := some file }
    | .input => { o with input := some file })

end Options

/-! ### Single arguments -/

/-- What one argument is. -/
inductive Argument where
  | version
  | help
  /-- An option whose file is the next argument. -/
  | option (option : FileOption)
  /-- An option with its file behind an equals sign. -/
  | assigned (option : FileOption) (file : String)
  /-- The end of the options. -/
  | separator
  | unknown
  deriving DecidableEq, Repr

namespace Argument

/-- Whether an argument is no file name: it begins with a hyphen and goes on. -/
def looksLikeOption (arg : String) : Bool :=
  match arg.toList with
  | '-' :: _ :: _ => true
  | _ => false

/-- The file behind the spelling of an option and an equals sign. -/
def assigned? (arg : String) (option : FileOption) : Option String :=
  (Text.after? (option.spelling ++ "=").toList arg.toList).map String.ofList

/-- What an argument is; a short option may have others behind it. -/
def of (arg : String) : Argument :=
  if arg = "--version" then .version
  else if arg = "--help" then .help
  else if arg = "--" then .separator
  else if arg = FileOption.config.spelling then .option .config
  else if arg = FileOption.input.spelling then .option .input
  else match assigned? arg .config, assigned? arg .input with
    | some file, _ => .assigned .config file
    | none, some file => .assigned .input file
    | none, none =>
      match arg.toList with
      | '-' :: 'V' :: _ => .version
      | '-' :: 'h' :: _ => .help
      | _ => .unknown

end Argument

/-! ### All arguments -/

/-- What the arguments ask for. -/
inductive Request where
  | turn (o : Options)
  | version
  | help
  /-- The arguments cannot be understood. -/
  | misuse
  deriving DecidableEq, Repr

namespace Request

/-- What the arguments ask for after some options.  The first fault or question
counts. -/
def ofArgsFrom (o : Options) : List String → Request
  | [] => .turn o
  | arg :: rest =>
    match Argument.of arg with
    | .version => .version
    | .help => .help
    | .separator => if rest.isEmpty then .turn o else .misuse
    | .assigned option file =>
      match o.set? option file with
      | some o => ofArgsFrom o rest
      | none => .misuse
    | .option option =>
      match rest with
      | [] => .misuse
      | file :: rest =>
        if Argument.looksLikeOption file then .misuse
        else match o.set? option file with
          | some o => ofArgsFrom o rest
          | none => .misuse
    | .unknown => .misuse

/-- What the arguments ask for. -/
def ofArgs (args : List String) : Request := ofArgsFrom {} args

end Request

/-! ### A turn of the model -/

/-- The number of reports that may wait for the model. -/
def reportCapacity : Nat := 16

/-- The simulated robot with the given settings, before anything happens. -/
def simulated (s : Settings) : RobotSession { motion := s.motion } :=
  RobotSession.create { motion := s.motion }
    { body := { distance := s.simulation.frontDistance }
      voice := { msPerWord := s.simulation.speechMsPerWord } }
    (.withCapacity reportCapacity) s.reportTimeoutMs.toNat none

/-- The reports on the batches of one turn.  The text of the whole turn arrives
before the robot begins to move; then the turn ends, and so does the executor. -/
def drive (s : Settings) (bytes : List UInt8) : List (List Char) :=
  let (_, intake, calls) := Intake.readAll {} none [bytes]
  let session := { (simulated s).send calls with parser := intake.parser }
  session.finish.2.shutDown.drain.1

/-! ### The program -/

/-- Exit code and output. -/
structure Exit where
  code : UInt32
  output : String := ""
  deriving DecidableEq, Repr

namespace Exit

/-- All went well. -/
def success (output : String) : Exit := { code := 0, output }

/-- Settings or input could not be read. -/
def failure : Exit := { code := 1 }

/-- The arguments could not be understood. -/
def misuse : Exit := { code := 2 }

/-- The name and number of the program. -/
def version : Exit := success "picar-edge 0.1.0\n"

/-- How the program is called. -/
def help : Exit := success ("Drive the robot from a streamed model response\n\n" ++
  "Usage: picar-edge [OPTIONS]\n\nOptions:\n" ++
  "      --config <CONFIG>  JSON configuration file (defaults when omitted)\n" ++
  "      --input <INPUT>    Read the model stream from a file instead of stdin\n" ++
  "  -h, --help             Print help\n" ++
  "  -V, --version          Print version\n")

/-- The reports on a turn, with an empty line after each. -/
def ofTurn (s : Settings) (bytes : List UInt8) : Exit :=
  success (String.join ((drive s bytes).map fun m => String.ofList (m ++ ['\n', '\n'])))

end Exit

/-- A turn with the given files.  The settings are read first, and the input only
if they are good. -/
def runTurn {m : Type → Type} [Monad m] (readFile : String → m Settings.FileContent)
    (readInput : m (List UInt8)) (o : Options) : m Exit := do
  match Settings.load (← o.config.mapM readFile) with
  | .error _ => return Exit.failure
  | .ok settings =>
    match o.input with
    | none => return Exit.ofTurn settings (← readInput)
    | some file =>
      match ← readFile file with
      | some bytes => return Exit.ofTurn settings bytes
      | none => return Exit.failure

/-- The whole program. -/
def run {m : Type → Type} [Monad m] (readFile : String → m Settings.FileContent)
    (readInput : m (List UInt8)) (args : List String) : m Exit :=
  match Request.ofArgs args with
  | .turn o => runTurn readFile readInput o
  | .version => return Exit.version
  | .help => return Exit.help
  | .misuse => return Exit.misuse

end RoverPilot.CommandLine
