import Mathlib.Tactic
import RoverPilot.Stream.Intake
import RoverPilot.Proofs.Text.Utf8
import RoverPilot.Proofs.Stream.Turn

/-!
Bytes that arrive in reads.

* `Parser.within_add_append`: text in two pieces is text in one;
* `Intake.flatten_pieces`, `Intake.reads_within`: reads are the bytes of the portions, and give the
  parser the text that is taken out of them;
* `Intake.readAll_within`: a source that ends gives the parser all text of its reads;
* `Intake.readAll_exact`: this is the text of all bytes exactly if no read ends, behind a fault,
  within a character; where the reads end is otherwise of no account.
-/

namespace RoverPilot

open Text

namespace Parser

variable (text s t : List Char)

/-- Nothing is added. -/
lemma within_add_nil : (within text).add [] = (within text, []) := by
  obtain ⟨hparser, hcalls⟩ := add_within text []
  rw [List.append_nil] at hparser hcalls
  exact Prod.ext hparser (List.self_eq_append_right.mp hcalls)

/-- Text that comes in two pieces is that text in one. -/
lemma within_add_append :
    (within text).add (s ++ t) =
      (((within (text ++ s)).add t).1,
        ((within text).add s).2 ++ ((within (text ++ s)).add t).2) := by
  obtain ⟨hparser, hcalls⟩ := add_within text (s ++ t)
  obtain ⟨-, hcalls₁⟩ := add_within text s
  obtain ⟨hparser₂, hcalls₂⟩ := add_within (text ++ s) t
  rw [← List.append_assoc] at hparser hcalls
  refine Prod.ext (hparser.trans hparser₂.symm) ?_
  rw [hcalls₂, hcalls₁, List.append_assoc, List.append_cancel_left_eq] at hcalls
  exact hcalls.symm

end Parser

namespace Intake

/-! ### Portions in pieces -/

@[simp] lemma flatten_pieces (portion : List UInt8) : (pieces portion).flatten = portion := by
  induction portion using pieces.induct with
  | case1 => rw [pieces, List.flatten_nil]
  | case2 b rest ih => rw [pieces, List.flatten_cons, ih, List.take_append_drop]

lemma flatten_flatMap_pieces (portions : List (List UInt8)) :
    (portions.flatMap pieces).flatten = portions.flatten := by
  induction portions with
  | nil => rfl
  | cons portion portions ih => simp [ih]

/-! ### Reads -/

/-- Bytes are held, and the parser is within a turn. -/
def within (held : List UInt8) (text : List Char) : Intake :=
  { pending := held, parser := Parser.within text }

variable (held : List UInt8) (text t : List Char) (rs : List (List UInt8))

lemma give_within :
    (within held text).give t = (within held (text ++ t), ((Parser.within text).add t).2) := by
  rw [give]
  split
  · rename_i hempty
    rw [List.isEmpty_iff.mp hempty, Parser.within_add_nil, List.append_nil]
  · rw [within.eq_def held (text ++ t), ← (Parser.add_within text t).1]
    rfl

/-- Reads give the parser the text that is taken out of them. -/
lemma reads_within :
    (within held text).reads rs =
      (within (Utf8.takes held rs).2 (text ++ (Utf8.takes held rs).1),
        ((Parser.within text).add (Utf8.takes held rs).1).2) := by
  induction rs generalizing held text with
  | nil => simp [reads, Utf8.takes, Parser.within_add_nil]
  | cons r rs ih =>
      have hread : (within held text).read r =
          (within (Utf8.take (held ++ r)).2 (text ++ (Utf8.take (held ++ r)).1),
            ((Parser.within text).add (Utf8.take (held ++ r)).1).2) := give_within _ _ _
      simp only [reads, hread, ih, Utf8.takes, Parser.within_add_append, List.append_assoc]

/-- A source that ends gives the parser all text of its reads, and nothing stays held. -/
lemma readAll_within {portions : List (List UInt8)} (hne : ∀ portion ∈ portions, portion ≠ []) :
    (within held text).readAll none portions =
      (.ok (), within [] (text ++ Utf8.heard held (portions.flatMap pieces)),
        ((Parser.within text).add (Utf8.heard held (portions.flatMap pieces))).2) := by
  induction portions generalizing held text with
  | nil =>
      have hclose : (within held text).close = _ := give_within [] text (Utf8.decode held)
      simp [readAll, hclose]
  | cons portion portions ih =>
      have hportion : portion.isEmpty = false := by simpa using hne portion List.mem_cons_self
      have hrest := fun held text =>
        ih held text fun portion h => hne portion (List.mem_cons_of_mem _ h)
      simp only [readAll, hportion, Bool.false_eq_true, if_false, reads_within, hrest,
        List.flatMap_cons, Utf8.heard_append, Parser.within_add_append, List.append_assoc]

end Intake

/-- A source that ends, whatever its portions, gives the parser the text that is heard of its
reads, and leaves it as if it had been given that text at once.  This is the text of all bytes
exactly if the reads are intact: if none of them ends, behind a fault, within a character that
goes on in the next one.  So it is wherever the reads end if there is no fault in the bytes. -/
theorem Intake.readAll_exact (fs : List Feed) (portions : List (List UInt8))
    (hne : ∀ portion ∈ portions, portion ≠ []) :
    let p := (Parser.hearAll {} fs).1
    let rs := portions.flatMap pieces
    let heard := Utf8.heard [] rs
    readAll { parser := p } none portions =
        (.ok (), { parser := (p.add heard).1 }, (p.add heard).2) ∧
      rs.flatten = portions.flatten ∧
      (heard = Utf8.decode portions.flatten ↔ Utf8.Intact [] rs) ∧
      (Utf8.tail? portions.flatten ≠ none → Utf8.Intact [] rs) := by
  intro p rs heard
  have hp : p = Parser.within (Feed.turns [] fs).2 := (Parser.hearAll_within [] fs).1
  have hflatten : rs.flatten = portions.flatten := flatten_flatMap_pieces portions
  refine ⟨?_, hflatten, ?_, fun hfault => Utf8.intact_of_tail? rs ?_⟩
  · have hadd := (Parser.add_within (Feed.turns [] fs).2 heard).1
    rw [hp, hadd]
    exact readAll_within [] (Feed.turns [] fs).2 hne
  · rw [← hflatten]
    exact Utf8.heard_eq_iff rs []
  · rw [List.nil_append, hflatten]
    exact hfault

/-- A character cut between two reads stays whole if there is no fault before it. -/
theorem Intake.readAll_exact_cut :
    (∀ portion ∈ [[0x68, 0xc3], [0xa9, 0x6c]], portion ≠ ([] : List UInt8)) ∧
      (readAll {} none [[0x68, 0xc3], [0xa9, 0x6c]]).2.1.parser.assembler.buffer =
        ['h', 'é', 'l'] := by
  have hne : ∀ portion ∈ [[0x68, 0xc3], [0xa9, 0x6c]], portion ≠ ([] : List UInt8) := by simp
  obtain ⟨hread, -, hheard, hwhole⟩ := readAll_exact [] [[0x68, 0xc3], [0xa9, 0x6c]] hne
  rw [hheard.mpr (hwhole (by decide))] at hread
  refine ⟨hne, ?_⟩
  calc (readAll {} none [[0x68, 0xc3], [0xa9, 0x6c]]).2.1.parser.assembler.buffer
    _ = (({} : Parser).add (Utf8.decode [0x68, 0xc3, 0xa9, 0x6c])).1.assembler.buffer :=
        congrArg (·.2.1.parser.assembler.buffer) hread
    _ = ['h', 'é', 'l'] := by decide

/-- Two reads with a fault in the first one, which ends within a character. -/
def tornReads : List (List UInt8) :=
  ["[COMMANDS id=1]\n>SAY ".toList.map (·.toNat.toUInt8) ++ [0xff, 0xc3], [0xa9, 0x0a]]

/-- That character is replaced, although the second read goes on with it. -/
theorem Intake.readAll_tornReads :
    (readAll {} none tornReads).2.2 =
        [.start 1, .enqueue { name := "SAY", args := ["\ufffd\ufffd\ufffd"] }] ∧
      (({} : Parser).add (Utf8.decode tornReads.flatten)).2 =
        [.start 1, .enqueue { name := "SAY", args := ["\ufffdé"] }] := by
  decide +kernel

end RoverPilot
