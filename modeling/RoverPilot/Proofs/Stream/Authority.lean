import Mathlib.Tactic
import RoverPilot.Proofs.Stream.Turn

/-!
Commands and the headers that they stand behind.

* `Call.current`, `Call.entries`, `Call.Orderly`: the batch that commands belong to after some
  calls, the commands that calls bring with their batches, and that no command comes without one;
* `Announces`, `Place`, `Place.Authorises`: the last line but commands and blanks is a valid
  header, a line with those before it in its turn, and a line that is a command of a batch;
* `Parser.announces_iff`: the parser passes commands on exactly behind a valid header;
* `Parser.orderly_hearAll`, `Parser.current_hearAll_turnEnd`: commands come only within a batch,
  and after the end of a turn there is none;
* `Parser.entries_hearAll`: each command that the parser passes on comes from a line of its own
  that is a command of its batch, in the order of the text.
-/

namespace RoverPilot

/-! ### Calls -/

namespace Call

/-- The command that a call brings. -/
def command? : Call → Option Command
  | .enqueue c => some c
  | _ => none

/-- The batch that commands belong to after a call. -/
def batchAfter (batch : Option BatchId) : Call → Option BatchId
  | .start b => some b
  | .enqueue _ => batch
  | .finish => none

/-- The batch that commands belong to after several calls: that of the last header, unless its
stream has ended. -/
def current (batch : Option BatchId) (cs : List Call) : Option BatchId := cs.foldl batchAfter batch

/-- The commands that calls bring, in order, each with the batch that it belongs to. -/
def entries (batch : Option BatchId) : List Call → List (BatchId × Command)
  | [] => []
  | .start b :: cs => entries (some b) cs
  | .enqueue c :: cs => (batch.map fun b => (b, c)).toList ++ entries batch cs
  | .finish :: cs => entries none cs

/-- Commands come only while there is a batch that they belong to. -/
def Orderly (batch : Option BatchId) : List Call → Prop
  | [] => True
  | c :: cs => (batch = none → c.command? = none) ∧ Orderly (batchAfter batch c) cs

variable (batch : Option BatchId) (c : Call) (xs ys : List Call)

@[simp] lemma current_nil : current batch [] = batch := rfl

@[simp] lemma current_cons : current batch (c :: xs) = current (batchAfter batch c) xs := rfl

@[simp] lemma current_append : current batch (xs ++ ys) = current (current batch xs) ys :=
  List.foldl_append

lemma entries_append :
    entries batch (xs ++ ys) = entries batch xs ++ entries (current batch xs) ys := by
  induction xs generalizing batch with
  | nil => rfl
  | cons c xs ih => cases c <;> simp [entries, batchAfter, ih]

lemma orderly_append :
    Orderly batch (xs ++ ys) ↔ Orderly batch xs ∧ Orderly (current batch xs) ys := by
  induction xs generalizing batch with
  | nil => simp [Orderly]
  | cons c xs ih => simp [Orderly, ih, and_assoc]

variable {batch xs}

/-- Without a batch and without headers there is no batch afterwards. -/
lemma Orderly.current_eq_none (h : Orderly none xs) (hheader : ∀ b, .start b ∉ xs) :
    current none xs = none := by
  induction xs with
  | nil => rfl
  | cons c xs ih =>
      have hnext : batchAfter none c = none := by
        cases c with
        | start b => exact absurd List.mem_cons_self (hheader b)
        | enqueue c => rfl
        | finish => rfl
      rw [current_cons, hnext]
      exact ih (hnext ▸ h.2) fun b hb => hheader b (List.mem_cons_of_mem c hb)

end Call

/-! ### Lines -/

/-- Whether commands behind a line stand behind no earlier header any more: the line is a
header, valid or not, or free text. -/
def Line.breaks : Line → Bool
  | .blank => false
  | .header _ => true
  | .command _ => false
  | .text _ => true

/-- Lines end with a valid header of a batch, commands and blank lines behind it apart. -/
def Announces (before : List (List Char)) (b : BatchId) : Prop :=
  ∃ pre header mid, before = pre ++ header :: mid ∧ Line.classify header = .header (.ok b) ∧
    ∀ raw ∈ mid, (Line.classify raw).breaks = false

lemma announces_concat_iff {before : List (List Char)} {raw : List Char} {b : BatchId} :
    Announces (before ++ [raw]) b ↔
      Line.classify raw = .header (.ok b) ∨
        Announces before b ∧ (Line.classify raw).breaks = false := by
  constructor
  · rintro ⟨pre, header, mid, heq, hheader, hmid⟩
    rcases List.eq_nil_or_concat' mid with rfl | ⟨mid, last, rfl⟩
    · obtain ⟨-, hraw⟩ := List.append_inj' heq rfl
      cases hraw
      exact .inl hheader
    · have heq' : before ++ [raw] = (pre ++ header :: mid) ++ [last] := by simpa using heq
      obtain ⟨rfl, hraw⟩ := List.append_inj' heq' rfl
      cases hraw
      exact .inr ⟨⟨pre, header, mid, rfl, hheader, fun x hx => hmid x (by simp [hx])⟩,
        hmid raw (by simp)⟩
  · rintro (hheader | ⟨⟨pre, header, mid, rfl, hheader, hmid⟩, hraw⟩)
    · exact ⟨before, raw, [], rfl, hheader, by simp⟩
    · refine ⟨pre, header, mid ++ [raw], by simp, hheader, fun x hx => ?_⟩
      rcases List.mem_append.mp hx with hx | hx
      · exact hmid x hx
      · rw [List.mem_singleton.mp hx]
        exact hraw

/-- A line of a turn, with those before it. -/
structure Place where
  before : List (List Char)
  raw : List Char
  deriving DecidableEq, Repr

/-- A line is a command of a batch: it stands behind a valid header of the batch, with neither
another header nor free text between them, and it does not ask for another turn. -/
structure Place.Authorises (l : Place) (b : BatchId) (c : Command) : Prop where
  announced : Announces l.before b
  command : Line.classify l.raw = .command c
  executable : c.hasName continueName = false

/-- The places of lines that follow others in a turn. -/
def placesAfter (before : List (List Char)) : List (List Char) → List Place
  | [] => []
  | raw :: rest => ⟨before, raw⟩ :: placesAfter (before ++ [raw]) rest

/-- The places of all lines of all turns, in the order of the text. -/
def Feed.places (fs : List Feed) : List Place := (transcript fs).flatMap (placesAfter [])

/-! ### Matching in order -/

section SublistForall₂

variable {α β γ : Type} {R R' : α → β → Prop} {S : β → γ → Prop} {T : α → γ → Prop}
  {as as' : List α} {bs bs' : List β} {cs : List γ}

lemma sublistForall₂_imp (hR : ∀ a b, R a b → R' a b) (h : List.SublistForall₂ R as bs) :
    List.SublistForall₂ R' as bs := by
  induction h with
  | nil => exact .nil
  | cons hab _ ih => exact .cons (hR _ _ hab) ih
  | cons_right _ ih => exact .cons_right ih

lemma sublistForall₂_append (h : List.SublistForall₂ R as bs)
    (h' : List.SublistForall₂ R as' bs') : List.SublistForall₂ R (as ++ as') (bs ++ bs') := by
  induction h with
  | @nil bs =>
      induction bs with
      | nil => exact h'
      | cons b bs ih => exact .cons_right ih
  | cons hab _ ih => exact .cons hab ih
  | cons_right _ ih => exact .cons_right ih

lemma sublistForall₂_trans (hT : ∀ a b c, R a b → S b c → T a c)
    (h : List.SublistForall₂ R as bs) (k : List.SublistForall₂ S bs cs) :
    List.SublistForall₂ T as cs := by
  induction k generalizing as with
  | nil =>
      cases h
      exact .nil
  | cons hbc _ ih =>
      cases h with
      | nil => exact .nil
      | cons hab h => exact .cons (hT _ _ _ hab hbc) (ih h)
      | cons_right h => exact .cons_right (ih h)
  | cons_right _ ih => exact .cons_right (ih h)

lemma sublistForall₂_of_sublist (hs : as'.Sublist as) (h : List.SublistForall₂ R as bs) :
    List.SublistForall₂ R as' bs :=
  sublistForall₂_trans (R := (· = ·)) (fun _ _ _ heq hR => heq ▸ hR) hs.sublistForall₂ h

end SublistForall₂

/-! ### The parser -/

namespace Parser

variable (p : Parser) (raw : List Char) {b : BatchId} {c : Command}

/-- After a line commands are passed on for a batch if the line is its header, or if they were
so before and the line does not break that. -/
lemma line_receives_iff :
    ((p.line raw).1.ignoring = false ∧ (p.line raw).1.batch = some b) ↔
      Line.classify raw = .header (.ok b) ∨
        (p.ignoring = false ∧ p.batch = some b) ∧ (Line.classify raw).breaks = false := by
  rw [line]
  cases Line.classify raw with
  | blank => simp [Line.breaks]
  | header id => cases id <;> simp [Line.breaks]
  | text s => simp [Line.breaks]
  | command c =>
      cases hi : p.ignoring with
      | true => simp [hi]
      | false =>
          cases hb : p.batch with
          | none => simp [command, hb]
          | some b' => cases hc : c.hasName continueName <;>
              simp [command, hi, hb, hc, Line.breaks]

/-- A line is passed on as a command if it is one, commands are passed on, and it does not ask
for another turn. -/
lemma line_eq_enqueue_iff :
    (p.line raw).2 = some (.enqueue c) ↔
      p.ignoring = false ∧ p.batch.isSome ∧ Line.classify raw = .command c ∧
        c.hasName continueName = false := by
  rw [line]
  cases Line.classify raw with
  | blank => simp
  | header id => cases id <;> simp
  | text s => simp
  | command c' =>
      cases hi : p.ignoring with
      | true => simp
      | false =>
          cases hb : p.batch with
          | none => simp [command, hb]
          | some b' =>
              cases hc : c'.hasName continueName with
              | true => simpa [command, hb, hc] using fun h => h ▸ hc
              | false => simpa [command, hb, hc] using fun h => h ▸ hc

/-- The parser's batch is that of its calls. -/
lemma current_line : Call.current p.batch (p.line raw).2.toList = (p.line raw).1.batch := by
  rw [line]
  cases Line.classify raw with
  | header id => cases id <;> rfl
  | command c =>
      cases hi : p.ignoring with
      | true => rfl
      | false =>
          cases hb : p.batch with
          | none => simp [command, hb]
          | some b => cases hc : c.hasName continueName <;> simp [command, hb, hc, Call.batchAfter]
  | _ => rfl

lemma current_lines (raws : List (List Char)) :
    Call.current p.batch (p.lines raws).2 = (p.lines raws).1.batch := by
  induction raws generalizing p with
  | nil => rfl
  | cons raw raws ih => simp [current_line, ih]

/-- A line brings a command only while there is a batch. -/
lemma orderly_line : Call.Orderly p.batch (p.line raw).2.toList := by
  cases h : (p.line raw).2 with
  | none => trivial
  | some call =>
      refine ⟨fun hb => ?_, trivial⟩
      cases call with
      | start b => rfl
      | finish => rfl
      | enqueue c =>
          obtain ⟨-, hsome, -⟩ := (p.line_eq_enqueue_iff raw).mp h
          simp [hb] at hsome

lemma orderly_lines (raws : List (List Char)) : Call.Orderly p.batch (p.lines raws).2 := by
  induction raws generalizing p with
  | nil => trivial
  | cons raw raws ih =>
      rw [lines_cons, Call.orderly_append, current_line]
      exact ⟨p.orderly_line raw, ih _⟩

/-! ### Turns -/

/-- The parser passes commands on for a batch exactly where its header stands last, commands and
blank lines apart. -/
theorem announces_iff {before : List (List Char)} :
    Announces before b ↔
      (lines {} before).1.ignoring = false ∧ (lines {} before).1.batch = some b := by
  induction before using List.reverseRecOn with
  | nil => simp [Announces]
  | append_singleton before raw ih =>
      have hlast : (lines {} (before ++ [raw])).1 = ((lines {} before).1.line raw).1 := by
        simp [lines_append]
      rw [announces_concat_iff, ih, hlast, line_receives_iff]

/-- Each command that lines bring comes from a line of its own that is a command of its batch,
in order. -/
lemma entries_lines (before raws : List (List Char)) :
    List.SublistForall₂ (fun x l => l.Authorises x.1 x.2)
      (Call.entries (lines {} before).1.batch ((lines {} before).1.lines raws).2)
      (placesAfter before raws) := by
  induction raws generalizing before with
  | nil => exact .nil
  | cons raw raws ih =>
      have hlast : (lines {} (before ++ [raw])).1 = ((lines {} before).1.line raw).1 := by
        simp [lines_append]
      have hrest := hlast ▸ ih (before ++ [raw])
      generalize hp : (lines {} before).1 = p at *
      rw [lines_cons, Call.entries_append, current_line]
      cases hcall : (p.line raw).2 with
      | none => exact .cons_right hrest
      | some call =>
          cases call with
          | start b => exact .cons_right hrest
          | finish => exact .cons_right hrest
          | enqueue c =>
              obtain ⟨hi, hsome, hclass, hname⟩ := (p.line_eq_enqueue_iff raw).mp hcall
              obtain ⟨b, hb⟩ := Option.isSome_iff_exists.mp hsome
              have hannounced : Announces before b := announces_iff.mpr (hp ▸ ⟨hi, hb⟩)
              simp only [hb, Option.toList_some, Call.entries, Option.map_some,
                List.append_nil, List.singleton_append]
              exact .cons ⟨hannounced, hclass, hname⟩ hrest

/-- After the calls for a whole turn there is no batch. -/
lemma current_turnCalls (text : List Char) : Call.current none (turnCalls text) = none := by
  have hcurrent := current_lines {} (Assembler.lines text)
  rw [turnCalls, Call.current_append, hcurrent]
  cases hb : (lines {} (Assembler.lines text)).1.batch <;> simp [Call.batchAfter]

lemma orderly_turnCalls (text : List Char) : Call.Orderly none (turnCalls text) := by
  rw [turnCalls, Call.orderly_append]
  refine ⟨orderly_lines {} _, ?_⟩
  split
  · exact ⟨fun _ => rfl, trivial⟩
  · trivial

/-- The end of a turn brings no command. -/
lemma entries_turnCalls (text : List Char) :
    Call.entries none (turnCalls text) =
      Call.entries none (lines {} (Assembler.lines text)).2 := by
  rw [turnCalls, Call.entries_append]
  split <;> simp [Call.entries]

lemma current_flatMap_turnCalls (texts : List (List Char)) :
    Call.current none (texts.flatMap turnCalls) = none := by
  induction texts with
  | nil => rfl
  | cons text texts ih => simp [current_turnCalls, ih]

lemma orderly_flatMap_turnCalls (texts : List (List Char)) :
    Call.Orderly none (texts.flatMap turnCalls) := by
  induction texts with
  | nil => trivial
  | cons text texts ih =>
      rw [List.flatMap_cons, Call.orderly_append, current_turnCalls]
      exact ⟨orderly_turnCalls text, ih⟩

lemma entries_flatMap_turnCalls (texts : List (List Char)) :
    List.SublistForall₂ (fun x l => l.Authorises x.1 x.2)
      (Call.entries none (texts.flatMap turnCalls))
      ((texts.map Assembler.lines).flatMap (placesAfter [])) := by
  induction texts with
  | nil => exact .nil
  | cons text texts ih =>
      rw [List.flatMap_cons, Call.entries_append, current_turnCalls, entries_turnCalls,
        List.map_cons, List.flatMap_cons]
      exact sublistForall₂_append (entries_lines [] (Assembler.lines text)) ih

/-! ### All turns -/

/-- Commands come only within a batch. -/
theorem orderly_hearAll (fs : List Feed) : Call.Orderly none (hearAll {} fs).2 := by
  rw [hearAll_eq, Call.orderly_append, current_flatMap_turnCalls]
  exact ⟨orderly_flatMap_turnCalls _, orderly_lines {} _⟩

lemma turns_append_turnEnd (text : List Char) (fs : List Feed) :
    (Feed.turns text (fs ++ [.turnEnd])).2 = [] := by
  induction fs generalizing text with
  | nil => rfl
  | cons f fs ih =>
      cases f with
      | piece t => exact ih (text ++ t)
      | turnEnd => exact ih []

/-- After the end of a turn there is no batch. -/
theorem current_hearAll_turnEnd (fs : List Feed) :
    Call.current none (hearAll {} (fs ++ [.turnEnd])).2 = none := by
  rw [hearAll_eq, Call.current_append, current_flatMap_turnCalls, turns_append_turnEnd]
  rfl

/-- Each command that the parser passes on comes from a line of its own, in the order of the
text, which is a command of the batch that it is passed on for. -/
theorem entries_hearAll (fs : List Feed) :
    List.SublistForall₂ (fun x l => l.Authorises x.1 x.2)
      (Call.entries none (hearAll {} fs).2) (Feed.places fs) := by
  rw [hearAll_eq, Call.entries_append, current_flatMap_turnCalls, Feed.places, Feed.transcript,
    List.flatMap_append, List.flatMap_singleton]
  exact sublistForall₂_append (entries_flatMap_turnCalls _) (entries_lines [] _)

end Parser

end RoverPilot
