import Mathlib.Tactic
import RoverPilot.Executor.Session
import RoverPilot.Proofs.Stream.Turn

/-!
What the calls of the parser reach, and what it answers.

* `Surface`, `Surface.answers`: something that answers calls, any of which may fail;
* `Dialogue`: a parser that makes its calls to such a partner one after another, each as soon as
  its line is read, and the answers that it gets;
* `Dialogue.lines_eq`, `Dialogue.add_eq`, `Dialogue.finish_eq`: the answers change nothing in the
  parser, which makes the calls that it makes without a partner;
* `Surface.turns_of_texts`: so the calls of several turns, and whether another turn is asked for,
  are those for the text of each turn by itself, whatever answers and however the text is cut;
* `World.surface`, `Session.add_eq_dialogue`, `Session.finish_eq_dialogue`: the executor is such a
  partner, and the parser of a session talks to it.
-/

namespace RoverPilot

/-! ### Surfaces -/

/-- Something that answers calls.  A call may fail, and it may change what answers it. -/
structure Surface (σ ε : Type) where
  answer : σ → Call → Except ε Unit × σ

namespace Surface

variable {σ ε : Type} (s : Surface σ ε)

/-- Several calls one after another with their answers, and what answers after them. -/
def answers (a : σ) : List Call → List (Call × Except ε Unit) × σ
  | [] => ([], a)
  | c :: cs =>
    let (answer, a) := s.answer a c
    let (more, a) := answers a cs
    ((c, answer) :: more, a)

variable (a : σ) (cs ds : List Call)

lemma answers_append :
    s.answers a (cs ++ ds) =
      ((s.answers a cs).1 ++ (s.answers (s.answers a cs).2 ds).1,
        (s.answers (s.answers a cs).2 ds).2) := by
  induction cs generalizing a with
  | nil => rfl
  | cons c cs ih => simp [answers, ih]

/-- Every call is tried, whatever the answers to those before it. -/
lemma map_fst_answers : (s.answers a cs).1.map Prod.fst = cs := by
  induction cs generalizing a with
  | nil => rfl
  | cons c cs ih => simp [answers, ih]

end Surface

/-! ### Dialogues -/

/-- A parser that makes its calls to a partner. -/
structure Dialogue (σ ε : Type) where
  parser : Parser
  partner : σ
  /-- The calls tried so far with their answers, the oldest first. -/
  tried : List (Call × Except ε Unit) := []

namespace Dialogue

variable {σ ε : Type} (s : Surface σ ε) (d : Dialogue σ ε)

/-- A call is tried; a failure leaves the parser as it is. -/
def attempt (c : Call) : Dialogue σ ε :=
  let (answer, partner) := s.answer d.partner c
  { d with partner, tried := d.tried ++ [(c, answer)] }

/-- One line is read, and the call for it, if there is one, is tried at once. -/
def line (raw : List Char) : Dialogue σ ε :=
  let (parser, call) := d.parser.line raw
  match call with
  | some c => { d with parser }.attempt s c
  | none => { d with parser }

/-- Several lines are read. -/
def lines (raws : List (List Char)) : Dialogue σ ε := raws.foldl (line s) d

/-- A piece of text arrives. -/
def add (piece : List Char) : Dialogue σ ε :=
  let (complete, assembler) := (d.parser.assembler.push piece).drain
  lines s { d with parser := { d.parser with assembler } } complete

/-- The batch ends, if there is one. -/
def closeBatch : Dialogue σ ε := if d.parser.batch.isSome then d.attempt s .finish else d

/-- The turn ends; tells whether another one is asked for. -/
def finish : Bool × Dialogue σ ε :=
  let d := match d.parser.assembler.takeRest? with
    | some (rest, assembler) => line s { d with parser := { d.parser with assembler } } rest
    | none => d
  (d.parser.continues, { d.closeBatch s with parser := { assembler := d.parser.assembler } })

/-- Several turns, each in pieces: for each of them whether another one is asked for, and the
calls tried with their answers. -/
def turns (d : Dialogue σ ε) : List (List (List Char)) → List (Bool × List (Call × Except ε Unit))
  | [] => []
  | pieces :: rest =>
    let (continues, d) := (pieces.foldl (add s) { d with tried := [] }).finish s
    (continues, d.tried) :: turns d rest

/-! ### The answers change nothing in the parser -/

/-- The dialogue that has come to a parser over some calls. -/
def after (p : Parser) (cs : List Call) : Dialogue σ ε where
  parser := p
  partner := (s.answers d.partner cs).2
  tried := d.tried ++ (s.answers d.partner cs).1

lemma after_after (p q : Parser) (cs ds : List Call) :
    (d.after s p cs).after s q ds = d.after s q (cs ++ ds) := by
  simp [after, Surface.answers_append]

lemma line_eq (raw : List Char) :
    d.line s raw = d.after s (d.parser.line raw).1 (d.parser.line raw).2.toList := by
  rw [line]
  cases h : (d.parser.line raw).2 <;> simp [after, attempt, h, Surface.answers]

/-- Lines are read and calls are made as without a partner. -/
lemma lines_eq (raws : List (List Char)) :
    d.lines s raws = d.after s (d.parser.lines raws).1 (d.parser.lines raws).2 := by
  induction raws generalizing d with
  | nil => simp [lines, after, Surface.answers]
  | cons raw raws ih =>
      have hrest : d.lines s (raw :: raws) = (d.line s raw).lines s raws := rfl
      rw [hrest, ih, line_eq, after_after]
      rfl

/-- So it is with a piece of text, -/
lemma add_eq (piece : List Char) :
    d.add s piece = d.after s (d.parser.add piece).1 (d.parser.add piece).2 := by
  simp only [add, lines_eq]
  rfl

lemma closeBatch_eq :
    d.closeBatch s = d.after s d.parser (if d.parser.batch.isSome then [.finish] else []) := by
  rw [closeBatch]
  split <;> simp [after, attempt, Surface.answers]

/-- and with the end of a turn. -/
lemma finish_eq :
    d.finish s = (d.parser.finish.1, d.after s d.parser.finish.2.1 d.parser.finish.2.2) := by
  cases h : d.parser.assembler.takeRest? with
  | none => simp [finish, h, closeBatch_eq, Parser.finish, after]
  | some rest =>
      simp only [finish, h, closeBatch_eq, line_eq, Parser.finish, after, Parser.lines_cons,
        Parser.lines_nil, List.append_nil, Surface.answers_append, List.append_assoc]

lemma pieces_eq (pieces : List (List Char)) :
    pieces.foldl (add s) d = d.after s (d.parser.hearAll (pieces.map .piece)).1
      (d.parser.hearAll (pieces.map .piece)).2 := by
  induction pieces generalizing d with
  | nil => simp [after, Surface.answers]
  | cons piece pieces ih =>
      rw [List.foldl_cons, ih, add_eq, after_after]
      rfl

/-- A dialogue in turns goes as the parser hears them. -/
lemma turns_spec (rest : List (List (List Char))) :
    (d.turns s rest).map (fun talk => (talk.1, talk.2.map Prod.fst)) = d.parser.hearTurns rest ∧
      (d.turns s rest).flatMap Prod.snd =
        (s.answers d.partner ((d.parser.hearTurns rest).flatMap Prod.snd)).1 := by
  induction rest generalizing d with
  | nil => exact ⟨rfl, rfl⟩
  | cons pieces rest ih =>
      have hturn : (pieces.foldl (add s) { d with tried := [] }).finish s =
          ((d.parser.hearTurn pieces).1,
            { d with tried := [] }.after s (d.parser.hearTurn pieces).2.1
              (d.parser.hearTurn pieces).2.2) := by
        rw [pieces_eq, finish_eq, after_after]
        rfl
      obtain ⟨hcalls, hanswers⟩ := ih ({ d with tried := [] }.after s
        (d.parser.hearTurn pieces).2.1 (d.parser.hearTurn pieces).2.2)
      simp only [turns, hturn, List.map_cons, List.flatMap_cons, hcalls, hanswers, Parser.hearTurns,
        Surface.answers_append]
      constructor <;> simp [after, Surface.map_fst_answers]

end Dialogue

/-- The calls of the parser depend on the texts of the turns alone, whatever answers them, which
of them fail, and however each text is cut in pieces.  Turn by turn the calls tried, and whether
another turn is asked for, are those for the whole text of that turn, cut at its line ends and
read by a parser that knows nothing before it; so nothing is left of a turn in the next one.  The
answers are those to these calls, one after another. -/
theorem Surface.turns_of_texts {σ ε : Type} (s : Surface σ ε) (a : σ)
    (turns : List (List (List Char))) :
    let talks := Dialogue.turns s { parser := {}, partner := a } turns
    let wanted := turns.map fun pieces => Parser.turn pieces.flatten
    talks.map (fun talk => (talk.1, talk.2.map Prod.fst)) = wanted ∧
      talks.flatMap Prod.snd = (s.answers a (wanted.flatMap Prod.snd)).1 := by
  intro talks wanted
  have hwanted : Parser.hearTurns {} turns = wanted := Parser.hearTurns_eq turns
  obtain ⟨hcalls, hanswers⟩ := Dialogue.turns_spec s { parser := {}, partner := a } turns
  exact ⟨hcalls.trans hwanted, hanswers.trans (by rw [hwanted])⟩

/-! ### The executor -/

section

variable {M : Machinery}

/-- The executor answers calls: all of them fail once it is shut down. -/
def World.surface : Surface (World M) ControlError := ⟨World.call⟩

lemma World.answers_surface (w : World M) (cs : List Call) :
    (World.surface.answers w cs).2 = w.controls (cs.map .call) := by
  induction cs generalizing w with
  | nil => rfl
  | cons c cs ih => exact ih _

namespace Session

variable (s : Session M)

/-- The parser of a session and the executor that it talks to. -/
def dialogue : Dialogue (World M) ControlError := { parser := s.parser, partner := s.world }

/-- The parser of a session talks to the executor, -/
theorem add_eq_dialogue (piece : List Char) :
    (s.add piece).parser = (s.dialogue.add World.surface piece).parser ∧
      (s.add piece).world = (s.dialogue.add World.surface piece).partner := by
  rw [Dialogue.add_eq]
  exact ⟨rfl, (World.answers_surface _ _).symm⟩

/-- also at the end of a turn. -/
theorem finish_eq_dialogue :
    s.finish.1 = (s.dialogue.finish World.surface).1 ∧
      s.finish.2.parser = (s.dialogue.finish World.surface).2.parser ∧
      s.finish.2.world = (s.dialogue.finish World.surface).2.partner := by
  rw [Dialogue.finish_eq]
  exact ⟨rfl, rfl, (World.answers_surface _ _).symm⟩

end Session

end

end RoverPilot
