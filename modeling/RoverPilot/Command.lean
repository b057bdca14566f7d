import RoverPilot.Text.Letters

/-!
Commands.

* `Command`, `Command.of`: a name in upper-case letters with arguments;
* `Command.hasName`: comparison of names;
* `Command.text`: the command as one line.
-/

namespace RoverPilot

/-- A command of the model: a name and its arguments. -/
structure Command where
  name : String
  args : List String
  deriving DecidableEq, Repr

/-- The command whose name is given in letters of either case. -/
def Command.of (name : String) (args : List String) : Command :=
  { name := Text.upperString name, args }

/-- Whether a command has the given name, in letters of either case. -/
def Command.hasName (c : Command) (name : String) : Bool := Text.sameLetters c.name name

/-- Name and arguments with single spaces between them. -/
def Command.text (c : Command) : String := " ".intercalate (c.name :: c.args)

end RoverPilot
