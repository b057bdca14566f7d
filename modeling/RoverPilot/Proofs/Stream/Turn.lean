import Mathlib.Tactic
import RoverPilot.Stream.Parser

/-!
Turns of the model's text.

* `Feed`, `Parser.hear`, `Parser.hearAll`: what reaches the parser, and the calls that it makes;
* `Assembler.cutLines_append`: lines are cut where they are, in however many pieces a text comes;
* `Assembler.lines`, `Feed.turns`, `Feed.transcript`: the lines of a whole turn, and the texts
  and lines of all turns;
* `Parser.within`, `Parser.turnCalls`: the parser within a turn, and the calls for a whole turn;
* `Parser.hearAll_eq`: the calls are those for the texts of the turns, each read from the
  beginning and as a whole;
* `Parser.turn`, `Parser.hearTurns_eq`: a whole turn cut at its line ends, which is what each of
  several turns comes to, in however many pieces they arrive.
-/

namespace RoverPilot

/-! ### What reaches the parser -/

/-- What reaches the parser. -/
inductive Feed where
  /-- A piece of the model's text. -/
  | piece (text : List Char)
  /-- The end of the model's turn. -/
  | turnEnd
  deriving DecidableEq, Repr

namespace Parser

/-- The parser after some input, and the calls that it makes for it. -/
def hear (p : Parser) : Feed → Parser × List Call
  | .piece text => p.add text
  | .turnEnd => p.finish.2

/-- The parser after several inputs, and all calls that it makes, in order. -/
def hearAll (p : Parser) : List Feed → Parser × List Call
  | [] => (p, [])
  | f :: fs =>
    let (p, calls) := p.hear f
    let (p, more) := hearAll p fs
    (p, calls ++ more)

variable (p : Parser)

@[simp] lemma hearAll_nil : p.hearAll [] = (p, []) := rfl

@[simp] lemma hearAll_cons (f : Feed) (fs : List Feed) :
    p.hearAll (f :: fs) =
      (((p.hear f).1.hearAll fs).1, (p.hear f).2 ++ ((p.hear f).1.hearAll fs).2) := rfl

end Parser

/-! ### Lines of texts in pieces -/

namespace Assembler

/-- The complete lines of two texts one after the other: those of the first one, and those of its
unfinished line with the second one behind it. -/
lemma cutLines_append (s t : List Char) :
    cutLines (s ++ t) =
      ((cutLines s).1 ++ (cutLines ((cutLines s).2 ++ t)).1,
        (cutLines ((cutLines s).2 ++ t)).2) := by
  induction s with
  | nil => simp [cutLines]
  | cons c s ih =>
      by_cases hc : c = '\n'
      · simp [cutLines, hc, ih]
      · cases hl : (cutLines s).1 <;> simp [cutLines, hc, ih, hl]

/-- All lines of a text: an unfinished one counts if there is anything in it. -/
def lines (s : List Char) : List (List Char) :=
  (cutLines s).1 ++ if (cutLines s).2.isEmpty then [] else [(cutLines s).2]

/-- The pieces between line ends are the complete lines and the unfinished one. -/
lemma lines_eq_cutLines (s : List Char) : Text.lines s = (cutLines s).1 ++ [(cutLines s).2] := by
  induction s with
  | nil => rfl
  | cons c s ih =>
      rw [Text.lines] at ih
      rw [Text.lines, List.splitOn_cons_eq_if_modifyHead]
      by_cases hc : c = '\n'
      · simp [cutLines, hc, ih]
      · cases hl : (cutLines s).1 <;> simp [cutLines, hc, ih, hl]

end Assembler

/-! ### Turns -/

namespace Feed

/-- The texts of the turns that have ended, and the text of the present one, which began with
the given text. -/
def turns (text : List Char) : List Feed → List (List Char) × List Char
  | [] => ([], text)
  | .piece t :: fs => turns (text ++ t) fs
  | .turnEnd :: fs =>
    let (ended, present) := turns [] fs
    (text :: ended, present)

/-- The lines of all turns, turn by turn.  In the present one only complete lines count. -/
def transcript (fs : List Feed) : List (List (List Char)) :=
  (turns [] fs).1.map Assembler.lines ++ [(Assembler.cutLines (turns [] fs).2).1]

end Feed

namespace Parser

/-! ### Lines and the unfinished line -/

section

variable (p : Parser)

@[simp] lemma lines_nil : p.lines [] = (p, []) := rfl

@[simp] lemma lines_cons (raw : List Char) (rest : List (List Char)) :
    p.lines (raw :: rest) =
      (((p.line raw).1.lines rest).1,
        (p.line raw).2.toList ++ ((p.line raw).1.lines rest).2) := rfl

lemma lines_append (xs ys : List (List Char)) :
    p.lines (xs ++ ys) =
      (((p.lines xs).1.lines ys).1, (p.lines xs).2 ++ ((p.lines xs).1.lines ys).2) := by
  induction xs generalizing p with
  | nil => simp
  | cons raw xs ih => simp [ih]

/-- A line leaves the unfinished line alone, and does not depend on it. -/
lemma line_assembler (a : Assembler) (raw : List Char) :
    ({ p with assembler := a } : Parser).line raw =
      ({ (p.line raw).1 with assembler := a }, (p.line raw).2) := by
  simp only [line]
  cases Line.classify raw with
  | header id => cases id <;> rfl
  | command c =>
      cases hi : p.ignoring with
      | true => simp [hi]
      | false =>
          cases hb : p.batch with
          | none => simp [command, hb]
          | some b => cases hc : c.hasName continueName <;> simp [command, hi, hb, hc]
  | _ => rfl

lemma lines_assembler (a : Assembler) (raws : List (List Char)) :
    ({ p with assembler := a } : Parser).lines raws =
      ({ (p.lines raws).1 with assembler := a }, (p.lines raws).2) := by
  induction raws generalizing p with
  | nil => rfl
  | cons raw raws ih => simp [line_assembler, ih]

/-- It does not matter whether an unfinished line without text counts, as a blank line changes
nothing. -/
lemma lines_textLines (s : List Char) : p.lines (Text.lines s) = p.lines (Assembler.lines s) := by
  have hblank (p : Parser) : p.line [] = (p, none) := rfl
  rw [Assembler.lines_eq_cutLines, Assembler.lines]
  cases h : (Assembler.cutLines s).2 <;> simp [lines_append, hblank]

end

/-! ### Within a turn -/

/-- The parser within a turn of which the given text has come. -/
def within (text : List Char) : Parser :=
  { (lines {} (Assembler.cutLines text).1).1 with
    assembler := { buffer := (Assembler.cutLines text).2 } }

@[simp] lemma within_nil : within [] = {} := rfl

/-- The calls for the complete lines of a turn's text. -/
def callsWithin (text : List Char) : List Call := (lines {} (Assembler.cutLines text).1).2

@[simp] lemma callsWithin_nil : callsWithin [] = [] := rfl

/-- The calls for a whole turn: those for its lines, and the end of the batch if there is one. -/
def turnCalls (text : List Char) : List Call :=
  (lines {} (Assembler.lines text)).2 ++
    if (lines {} (Assembler.lines text)).1.batch.isSome then [.finish] else []

/-- A piece of text extends the text of the turn. -/
lemma add_within (text piece : List Char) :
    ((within text).add piece).1 = within (text ++ piece) ∧
      callsWithin (text ++ piece) = callsWithin text ++ ((within text).add piece).2 := by
  simp only [add, Assembler.push, Assembler.drain, within, callsWithin,
    Assembler.cutLines_append text piece, lines_append]
  rw [lines_assembler, lines_assembler]
  exact ⟨rfl, rfl⟩

/-- The end of the turn brings the remaining calls, and nothing of the turn is left. -/
lemma finish_within (text : List Char) :
    (within text).finish.2.1 = {} ∧
      turnCalls text = callsWithin text ++ (within text).finish.2.2 := by
  cases h : (Assembler.cutLines text).2 with
  | nil =>
      simp [finish, Assembler.takeRest?, within, turnCalls, Assembler.lines, callsWithin, h]
  | cons c rest =>
      -- the unfinished line is read by the same parser, with nothing behind it
      have hlast := lines_assembler (lines {} (Assembler.cutLines text).1).1 {} [c :: rest]
      simp only [finish, Assembler.takeRest?, within, turnCalls, Assembler.lines, callsWithin, h,
        List.isEmpty_cons, Bool.false_eq_true, if_false, lines_append, hlast]
      exact ⟨trivial, by rw [List.append_assoc]⟩

/-- Within a turn, the calls made and those that follow are those for all texts. -/
lemma hearAll_within (text : List Char) (fs : List Feed) :
    ((within text).hearAll fs).1 = within (Feed.turns text fs).2 ∧
      callsWithin text ++ ((within text).hearAll fs).2 =
        (Feed.turns text fs).1.flatMap turnCalls ++ callsWithin (Feed.turns text fs).2 := by
  induction fs generalizing text with
  | nil => simp [Feed.turns]
  | cons f fs ih =>
      cases f with
      | piece piece =>
          obtain ⟨hparser, hcalls⟩ := add_within text piece
          obtain ⟨hlast, hrest⟩ := ih (text ++ piece)
          simp only [hearAll_cons, hear, hparser, Feed.turns]
          exact ⟨hlast, by rw [← List.append_assoc, ← hcalls, hrest]⟩
      | turnEnd =>
          obtain ⟨hparser, hcalls⟩ := finish_within text
          obtain ⟨hlast, hrest⟩ := ih []
          simp only [callsWithin_nil, within_nil, List.nil_append] at hlast hrest
          simp only [hearAll_cons, hear, hparser, Feed.turns, List.flatMap_cons]
          exact ⟨hlast, by rw [← List.append_assoc, ← hcalls, hrest, List.append_assoc]⟩

/-- The calls are those for the texts of the turns that have ended, each read as a whole by a
parser that knows nothing of the turns before it, and those for the complete lines of the
present turn. -/
theorem hearAll_eq (fs : List Feed) :
    (hearAll {} fs).2 =
      (Feed.turns [] fs).1.flatMap turnCalls ++ callsWithin (Feed.turns [] fs).2 := by
  simpa using (hearAll_within [] fs).2

/-! ### Turn after turn -/

/-- A turn that comes in pieces: whether another one is asked for, the parser after it, and all
calls that it makes. -/
def hearTurn (p : Parser) (pieces : List (List Char)) : Bool × Parser × List Call :=
  let (p, calls) := p.hearAll (pieces.map .piece)
  let (continues, p, last) := p.finish
  (continues, p, calls ++ last)

/-- Several turns one after another: for each of them whether another one is asked for, and its
calls. -/
def hearTurns (p : Parser) : List (List (List Char)) → List (Bool × List Call)
  | [] => []
  | pieces :: turns =>
    let (continues, p, calls) := p.hearTurn pieces
    (continues, calls) :: hearTurns p turns

/-- A turn whose whole text is cut at the line ends, for a parser that knows nothing before it:
whether another one is asked for, and the calls for its lines and for its end. -/
def turn (text : List Char) : Bool × List Call :=
  let (p, calls) := lines {} (Text.lines text)
  (p.continues, calls ++ if p.batch.isSome then [.finish] else [])

lemma turn_snd (text : List Char) : (turn text).2 = turnCalls text := by
  simp only [turn, turnCalls, lines_textLines]

/-- Another turn is asked for as it is in the whole text. -/
lemma continues_finish_within (text : List Char) : (within text).finish.1 = (turn text).1 := by
  simp only [turn, lines_textLines, Assembler.lines]
  cases h : (Assembler.cutLines text).2 with
  | nil => simp [finish, Assembler.takeRest?, within, h]
  | cons c rest =>
      have hlast := lines_assembler (lines {} (Assembler.cutLines text).1).1 {} [c :: rest]
      simp [finish, Assembler.takeRest?, within, h, lines_append, hlast]

lemma turns_pieces (text : List Char) (pieces : List (List Char)) :
    Feed.turns text (pieces.map .piece) = ([], text ++ pieces.flatten) := by
  induction pieces generalizing text with
  | nil => simp [Feed.turns]
  | cons piece pieces ih => simp [Feed.turns, ih]

/-- A turn in pieces is the turn of the whole text, and leaves nothing behind. -/
lemma hearTurn_eq (pieces : List (List Char)) :
    hearTurn {} pieces = ((turn pieces.flatten).1, {}, (turn pieces.flatten).2) := by
  obtain ⟨hparser, hcalls⟩ := hearAll_within [] (pieces.map .piece)
  simp only [turns_pieces, within_nil, callsWithin_nil, List.nil_append, List.flatMap_nil]
    at hparser hcalls
  obtain ⟨hafter, hall⟩ := finish_within pieces.flatten
  simp only [hearTurn, hparser, hcalls, hafter, continues_finish_within, turn_snd, hall]

/-- What the parser makes of several turns is what it makes of each one by itself, read as a
whole. -/
theorem hearTurns_eq (turns : List (List (List Char))) :
    hearTurns {} turns = turns.map fun pieces => turn pieces.flatten := by
  induction turns with
  | nil => rfl
  | cons pieces turns ih => simp [hearTurns, hearTurn_eq, ih]

end Parser

end RoverPilot
