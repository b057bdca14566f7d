import RoverPilot.Stream.Line
import RoverPilot.Stream.Assembler

/-!
The model's text as calls on the batches.

* `Call`: a header, a command or the end of the turn, as told to the executor;
* `Parser`: the batch that commands belong to and what was seen in this turn;
* `Parser.line`: one line of text;
* `Parser.add`, `Parser.finish`: a piece of text arrives, the turn ends.
-/

namespace RoverPilot

/-- What the parser tells the executor. -/
inductive Call where
  /-- A batch begins. -/
  | start (batch : BatchId)
  /-- A command of the batch that began last. -/
  | enqueue (c : Command)
  /-- The turn with the batch ends. -/
  | finish
  deriving DecidableEq, Repr

/-- The name that asks for another turn and is no command. -/
def continueName : String := "CONTINUE"

/-- What the parser remembers of a turn. -/
structure Parser where
  assembler : Assembler := {}
  /-- The batch of the last valid header. -/
  batch : Option BatchId := none
  /-- Whether lines are dropped up to the next valid header. -/
  ignoring : Bool := false
  /-- Whether another turn was asked for. -/
  continues : Bool := false
  deriving DecidableEq, Repr

namespace Parser

/-! ### Lines -/

/-- A command line.  Without a batch it makes the parser drop lines. -/
def command (p : Parser) (c : Command) : Parser × Option Call :=
  if p.batch.isNone then ({ p with ignoring := true }, none)
  else if c.hasName continueName then ({ p with continues := true }, none)
  else (p, some (.enqueue c))

/-- One line.  A valid header begins a batch and a refused one makes the parser
drop lines, whether it drops lines already or not; free text makes it drop lines. -/
def line (p : Parser) (raw : List Char) : Parser × Option Call :=
  match Line.classify raw with
  | .blank => (p, none)
  | .header (.ok id) => ({ p with batch := some id, ignoring := false }, some (.start id))
  | .header (.error _) => ({ p with ignoring := true }, none)
  | .command c => if p.ignoring then (p, none) else p.command c
  | .text _ => ({ p with ignoring := true }, none)

/-- Several lines and the calls they make, in order. -/
def lines (p : Parser) : List (List Char) → Parser × List Call
  | [] => (p, [])
  | raw :: rest =>
    let (p, call) := p.line raw
    let (p, calls) := lines p rest
    (p, call.toList ++ calls)

/-! ### Turns -/

/-- A piece of text arrives. -/
def add (p : Parser) (piece : List Char) : Parser × List Call :=
  let (complete, assembler) := (p.assembler.push piece).drain
  lines { p with assembler } complete

/-- The turn ends: the unfinished line counts as a line and an open batch ends.
Tells whether another turn was asked for. -/
def finish (p : Parser) : Bool × Parser × List Call :=
  let (p, calls) := match p.assembler.takeRest? with
    | some (rest, assembler) => lines { p with assembler } [rest]
    | none => (p, [])
  let last := if p.batch.isSome then [Call.finish] else []
  (p.continues, { assembler := p.assembler }, calls ++ last)

end Parser

end RoverPilot
