import RoverPilot.Batch.Id
import RoverPilot.Command
import RoverPilot.Text.Blank

/-!
Lines of the model's text.

* `Line`: blank, batch header, command or free text;
* `Line.headerId?`: what stands between the equals sign and the bracket of a header;
* `Line.classify`: the kind of a line.
-/

namespace RoverPilot

/-- A line of the model's text. -/
inductive Line where
  /-- Nothing but blanks. -/
  | blank
  /-- A batch header; its id may be refused. -/
  | header (id : Except FormatError BatchId)
  /-- A command. -/
  | command (c : Command)
  /-- Anything else, without the blanks around it. -/
  | text (s : List Char)

namespace Line

/-! ### Headers -/

/-- Whether a character is the given upper-case ASCII letter or bracket, up to
case folding; the long s folds to S. -/
def foldsTo (letter c : Char) : Bool :=
  c.toUpper == letter || (letter == 'S' && c == 'ſ')

/-- What follows a text that agrees with `letters` up to case folding. -/
def afterFolded? : List Char → List Char → Option (List Char)
  | [], s => some s
  | _ :: _, [] => none
  | letter :: letters, c :: s => if foldsTo letter c then afterFolded? letters s else none

/-- The text between the equals sign and the first closing bracket of a header,
without the blanks around it.  A header is the word `[COMMANDS`, one or more
blanks, the word `id`, an equals sign with or without blanks before it, and a
stretch up to a closing bracket; whatever follows the bracket does not count. -/
def headerId? (s : List Char) : Option (List Char) := do
  let afterWord ← afterFolded? "[COMMANDS".toList s
  let afterBlanks := Text.trimLeft afterWord
  if afterBlanks.length = afterWord.length then none
  let afterId ← afterFolded? "ID".toList afterBlanks
  match Text.trimLeft afterId with
  | '=' :: rest =>
    if rest.contains ']' then some (Text.trim (rest.takeWhile (· != ']'))) else none
  | _ => none

/-! ### Commands -/

/-- The command after a `>`: the first word is the name and the others are the
arguments.  Without a word there is no command. -/
def command? : List Char → Option Command
  | '>' :: rest =>
    match Text.words rest with
    | name :: args => some (Command.of (String.ofList name) (args.map String.ofList))
    | [] => none
  | _ => none

/-! ### Kinds of lines -/

/-- The kind of a line; blanks around it do not count. -/
def classify (raw : List Char) : Line :=
  let s := Text.trim raw
  if s.isEmpty then .blank
  else match headerId? s with
    | some id => .header (BatchId.read id)
    | none =>
      match command? s with
      | some c => .command c
      | none => .text s

end Line

end RoverPilot
