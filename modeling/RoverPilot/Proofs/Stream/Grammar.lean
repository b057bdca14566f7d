import Mathlib
import RoverPilot.Proofs.Stream.Authority
import RoverPilot.Proofs.Text.Blank

/-!
What the parser says in a turn.

* `Call.spell`, `Call.exists_spell`: a batch as calls, and calls without an end as batches with
  commands in front of them;
* `Line.id?`, `Place.task?`, `Place.AsksAgain`: the batch that a line begins, the command that it
  is for its batch, and a line that asks for another turn;
* `Command.Spoken`: names and arguments are words, and the name is in upper case;
* `Parser.starts_lines`, `Parser.entries_lines_eq`, `Parser.continues_lines_iff`: the calls and the
  answer for some lines, read off the lines;
* `Renders`, `Parser.hearTurns_render`: every turn comes to batches and one end behind them, with
  exactly the headers and commands of its lines.
-/

namespace RoverPilot

/-! ### Batches as calls -/

namespace Call

/-- The batch that a call begins. -/
def start? : Call → Option BatchId
  | .start b => some b
  | _ => none

/-- A batch as calls: its header and its commands. -/
def spell (batch : BatchId × List Command) : List Call :=
  .start batch.1 :: batch.2.map .enqueue

/-- Calls among which no batch ends are batches, with commands in front of the first one. -/
lemma exists_spell {cs : List Call} (hfinish : .finish ∉ cs) :
    ∃ (mine : List Command) (batches : List (BatchId × List Command)),
      cs = mine.map .enqueue ++ batches.flatMap spell := by
  induction cs with
  | nil => exact ⟨[], [], rfl⟩
  | cons call cs ih =>
      obtain ⟨mine, batches, rfl⟩ := ih fun h => hfinish (List.mem_cons_of_mem _ h)
      cases call with
      | start b => exact ⟨[], (b, mine) :: batches, by simp [spell]⟩
      | enqueue c => exact ⟨c :: mine, batches, rfl⟩
      | finish => exact absurd List.mem_cons_self hfinish

/-- If commands come only within a batch, there is none in front. -/
lemma Orderly.exists_spell {cs : List Call} (horderly : Orderly none cs)
    (hfinish : .finish ∉ cs) : ∃ batches : List (BatchId × List Command),
      cs = batches.flatMap spell := by
  obtain ⟨mine, batches, rfl⟩ := Call.exists_spell hfinish
  cases mine with
  | nil => exact ⟨batches, rfl⟩
  | cons c mine => exact absurd (horderly.1 rfl) (by simp [command?])

/-- Commands and batches leave a batch open exactly if there is a batch among them. -/
lemma isSome_current_iff {cs : List Call} (hfinish : .finish ∉ cs) (batch : Option BatchId) :
    (current batch cs).isSome ↔ batch.isSome ∨ cs.filterMap start? ≠ [] := by
  induction cs generalizing batch with
  | nil => simp
  | cons call cs ih =>
      rw [current_cons, ih fun h => hfinish (List.mem_cons_of_mem _ h)]
      cases call with
      | start b => simp [batchAfter, start?]
      | enqueue c => simp [batchAfter, start?]
      | finish => exact absurd List.mem_cons_self hfinish

lemma starts_flatMap_spell (batches : List (BatchId × List Command)) :
    (batches.flatMap spell).filterMap start? = batches.map Prod.fst := by
  have hcommands (cs : List Command) : (cs.map .enqueue).filterMap start? = [] := by
    simp [start?]
  induction batches with
  | nil => rfl
  | cons batch batches ih =>
      rw [List.flatMap_cons, List.filterMap_append, ih, spell, List.filterMap_cons, hcommands]
      rfl

end Call

/-! ### Commands as they are spoken -/

/-- A command has a name that is a word without lower-case letters, and arguments that are
words. -/
structure Command.Spoken (c : Command) : Prop where
  name_ne : c.name ≠ ""
  name_letters : ∀ x ∈ c.name.toList, Text.isBlank x = false ∧ x.isLower = false
  args_ne : ∀ a ∈ c.args, a ≠ ""
  args_letters : ∀ a ∈ c.args, ∀ x ∈ a.toList, Text.isBlank x = false

namespace Text

lemma ne_nil_of_mem_words {s word : List Char} (h : word ∈ words s) : word ≠ [] := by
  rintro rfl
  simp [words] at h

lemma isBlank_of_mem_words {s word : List Char} (h : word ∈ words s) {x : Char} (hx : x ∈ word) :
    isBlank x = false :=
  not_of_mem_splitOnP (List.mem_of_mem_filter h) hx

/-- No letter is blank. -/
lemma isBlank_of_isAlpha {x : Char} (hx : x.isAlpha = true) : isBlank x = false := by
  have hbounds : (65 ≤ x.toNat ∧ x.toNat ≤ 90) ∨ (97 ≤ x.toNat ∧ x.toNat ≤ 122) := by
    simpa [Char.isAlpha, Char.isUpper, Char.isLower, UInt32.le_iff_toNat_le] using hx
  simp only [isBlank, Bool.or_eq_false_iff, Bool.and_eq_false_iff, decide_eq_false_iff_not,
    beq_eq_false_iff_ne]
  omega

/-- A character that is not blank is not so in upper case. -/
lemma isBlank_toUpper {x : Char} (hx : isBlank x = false) : isBlank x.toUpper = false := by
  by_cases hlower : x.isLower = true
  · refine isBlank_of_isAlpha ?_
    rw [Char.isAlpha_toUpper_eq_isAlpha, Char.isAlpha, hlower, Bool.or_true]
  · rwa [Char.toUpper_eq_of_not_isLower hlower]

end Text

namespace Line

/-- The batch that a line begins: that of a valid header. -/
def id? : Line → Option BatchId
  | .header (.ok b) => some b
  | _ => none

lemma id?_eq_some_iff {l : Line} {b : BatchId} : l.id? = some b ↔ l = .header (.ok b) := by
  cases l with
  | header id => cases id <;> simp [id?]
  | _ => simp [id?]

/-- The number in a valid header is positive. -/
lemma one_le_of_classify_eq_header {raw : List Char} {b : BatchId}
    (h : classify raw = .header (.ok b)) : 1 ≤ b := by
  have hread : ∃ s, BatchId.read s = .ok b := by
    simp only [classify] at h
    split at h
    · cases h
    · split at h
      · exact ⟨_, Line.header.inj h⟩
      · split at h <;> cases h
  obtain ⟨s, hs⟩ := hread
  simp only [BatchId.read] at hs
  split at hs
  · split at hs
    · rename_i n _ hn
      cases hs
      rw [UInt32.le_iff_toNat_le, UInt32.toNat_ofNat_of_lt' hn.2]
      exact hn.1
    · cases hs
  · cases hs

/-- A command line is read in words. -/
lemma spoken_of_classify_eq_command {raw : List Char} {c : Command}
    (h : classify raw = .command c) : c.Spoken := by
  have hcommand : command? (Text.trim raw) = some c := by
    simp only [classify] at h
    split at h
    · cases h
    · split at h
      · cases h
      · split at h
        · rename_i heq
          cases h
          exact heq
        · cases h
  rw [command?.eq_def] at hcommand
  split at hcommand
  · rename_i rest _
    cases hwords : Text.words rest with
    | nil => simp [hwords] at hcommand
    | cons name args =>
        simp only [hwords, Option.some.injEq] at hcommand
        subst hcommand
        have hword {word : List Char} (h : word ∈ name :: args) :
            word ≠ [] ∧ ∀ x ∈ word, Text.isBlank x = false := by
          rw [← hwords] at h
          exact ⟨Text.ne_nil_of_mem_words h, fun x => Text.isBlank_of_mem_words h⟩
        obtain ⟨hne, hletters⟩ := hword List.mem_cons_self
        refine ⟨?_, ?_, ?_, ?_⟩
        · simpa [Command.of, Text.upperString, Text.upper] using hne
        · simp only [Command.of, Text.upperString, Text.upper, String.toList_ofList, List.mem_map]
          rintro _ ⟨x, hx, rfl⟩
          exact ⟨Text.isBlank_toUpper (hletters x hx), x.isLower_toUpper_eq_false⟩
        · simp only [Command.of, List.mem_map]
          rintro _ ⟨arg, harg, rfl⟩
          simpa using (hword (List.mem_cons_of_mem _ harg)).1
        · simp only [Command.of, List.mem_map]
          rintro _ ⟨arg, harg, rfl⟩
          simpa using (hword (List.mem_cons_of_mem _ harg)).2
  · cases hcommand

end Line

/-! ### Lines in their places -/

namespace Line

/-- The batch that commands are passed on for after a line: a valid header begins one, any other
header and free text end it. -/
def leads (batch : Option BatchId) (l : Line) : Option BatchId :=
  if l.breaks then l.id? else batch

lemma leads_eq_some_iff {batch : Option BatchId} {l : Line} {b : BatchId} :
    l.leads batch = some b ↔ l = .header (.ok b) ∨ batch = some b ∧ l.breaks = false := by
  rw [leads, ← id?_eq_some_iff]
  cases l with
  | header id => cases id <;> simp [breaks, id?]
  | _ => simp [breaks, id?]

end Line

/-- The batch whose header lines end with, commands and blank lines behind it apart. -/
def announced? (before : List (List Char)) : Option BatchId :=
  before.foldl (fun batch raw => (Line.classify raw).leads batch) none

lemma announced?_eq_some_iff {before : List (List Char)} {b : BatchId} :
    announced? before = some b ↔ Announces before b := by
  induction before using List.reverseRecOn with
  | nil => simp [announced?, Announces]
  | append_singleton before raw ih =>
      rw [announces_concat_iff, ← ih, announced?, List.foldl_append]
      exact Line.leads_eq_some_iff

namespace Place

variable {l : Place} {b : BatchId} {c : Command}

/-- The command that a line is, with its batch. -/
def task? (l : Place) : Option (BatchId × Command) :=
  match announced? l.before, Line.classify l.raw with
  | some b, .command c => if c.hasName continueName then none else some (b, c)
  | _, _ => none

lemma task?_eq_some_iff : l.task? = some (b, c) ↔ l.Authorises b c := by
  have hauthorises : l.Authorises b c ↔ announced? l.before = some b ∧
      Line.classify l.raw = .command c ∧ c.hasName continueName = false := by
    rw [announced?_eq_some_iff]
    exact ⟨fun ⟨h, h', h''⟩ => ⟨h, h', h''⟩, fun ⟨h, h', h''⟩ => ⟨h, h', h''⟩⟩
  rw [hauthorises, task?]
  split
  · rename_i b' c' hb hc
    rw [hb, hc]
    cases hname : c'.hasName continueName <;> aesop
  · rename_i hnone
    simp only [reduceCtorEq, false_iff]
    exact fun ⟨hb, hc, _⟩ => hnone b c hb hc

/-- A line is a command of a batch. -/
def Authorised (l : Place) : Prop := ∃ b c, l.Authorises b c

lemma isSome_task?_iff : l.task?.isSome ↔ l.Authorised := by
  simp only [Option.isSome_iff_exists, Prod.exists, task?_eq_some_iff]
  rfl

instance : DecidablePred Authorised := fun _ => decidable_of_iff _ isSome_task?_iff

/-- A line asks for another turn: it stands as a command of a batch does, with the name for
that. -/
def AsksAgain (l : Place) : Prop :=
  ∃ b c, Announces l.before b ∧ Line.classify l.raw = .command c ∧ c.hasName continueName = true

/-- The commands that lines are, against the lines that are commands. -/
lemma forall₂_filterMap_task? (ls : List Place) :
    List.Forall₂ (fun x l => l.Authorises x.1 x.2) (ls.filterMap task?)
      (ls.filter (·.Authorised)) := by
  induction ls with
  | nil => exact .nil
  | cons l ls ih =>
      cases h : l.task? with
      | none =>
          have hnot : ¬ l.Authorised := by rw [← isSome_task?_iff, h]; simp
          simpa [h, hnot] using ih
      | some x =>
          have hx : l.Authorises x.1 x.2 := task?_eq_some_iff.mp h
          have hl : l.Authorised := ⟨_, _, hx⟩
          simpa [h, hl] using ⟨hx, ih⟩

end Place

/-! ### The calls for lines -/

namespace Parser

variable (p : Parser) (raw : List Char) (before raws : List (List Char))

lemma line_ne_finish : (p.line raw).2 ≠ some .finish := by
  rw [line]
  cases Line.classify raw with
  | header id => cases id <;> simp
  | command c =>
      simp only [command]
      split
      · simp
      · split
        · simp
        · split <;> simp
  | _ => simp

/-- No batch ends while lines come. -/
lemma finish_notMem_lines : .finish ∉ (p.lines raws).2 := by
  induction raws generalizing p with
  | nil => simp
  | cons raw raws ih =>
      rw [lines_cons, List.mem_append, Option.mem_toList]
      exact not_or.mpr ⟨p.line_ne_finish raw, ih _⟩

/-- A line begins a batch exactly if it is a valid header. -/
lemma start?_line : (p.line raw).2.bind Call.start? = (Line.classify raw).id? := by
  rw [line]
  cases Line.classify raw with
  | header id => cases id <;> rfl
  | command c =>
      simp only [command, Line.id?]
      split
      · rfl
      · split
        · rfl
        · split <;> rfl
  | _ => rfl

/-- The batches that begin are those of the valid headers. -/
lemma starts_lines :
    (p.lines raws).2.filterMap Call.start? = raws.filterMap fun raw => (Line.classify raw).id? := by
  induction raws generalizing p with
  | nil => rfl
  | cons raw raws ih =>
      have hline := p.start?_line raw
      rw [lines_cons, List.filterMap_append, ih, List.filterMap_cons, ← hline]
      cases (p.line raw).2 with
      | none => rfl
      | some call => cases h : call.start? <;> simp [h]

/-- The commands that are passed on stand in the lines, and none of them has the name that asks
for another turn. -/
lemma exists_command_of_mem_lines {c : Command} (h : .enqueue c ∈ (p.lines raws).2) :
    ∃ raw ∈ raws, Line.classify raw = .command c ∧ c.hasName continueName = false := by
  induction raws generalizing p with
  | nil => simp at h
  | cons raw raws ih =>
      rw [lines_cons, List.mem_append, Option.mem_toList] at h
      rcases h with h | h
      · obtain ⟨-, -, hclass, hname⟩ := (p.line_eq_enqueue_iff raw).mp h
        exact ⟨raw, List.mem_cons_self, hclass, hname⟩
      · obtain ⟨raw', hmem, hraw⟩ := ih _ h
        exact ⟨raw', List.mem_cons_of_mem _ hmem, hraw⟩

lemma lines_fst_concat :
    (lines {} (before ++ [raw])).1 = ((lines {} before).1.line raw).1 := by
  simp [lines_append]

/-- A line is a command of a batch in its place exactly if the parser passes it on for that
batch. -/
lemma authorises_iff {b : BatchId} {c : Command} :
    (Place.mk before raw).Authorises b c ↔
      (lines {} before).1.batch = some b ∧
        ((lines {} before).1.line raw).2 = some (.enqueue c) := by
  rw [line_eq_enqueue_iff]
  constructor
  · rintro ⟨hannounced, hclass, hname⟩
    obtain ⟨hi, hb⟩ := announces_iff.mp hannounced
    exact ⟨hb, hi, by simp [hb], hclass, hname⟩
  · rintro ⟨hb, hi, -, hclass, hname⟩
    exact ⟨announces_iff.mpr ⟨hi, hb⟩, hclass, hname⟩

/-- The command that a line brings is the one that it is in its place. -/
lemma entries_line :
    Call.entries (lines {} before).1.batch ((lines {} before).1.line raw).2.toList =
      (Place.mk before raw).task?.toList := by
  have hplace (b c) : (Place.mk before raw).task? = some (b, c) ↔ _ :=
    Place.task?_eq_some_iff.trans (authorises_iff raw before)
  generalize (lines {} before).1 = p at hplace ⊢
  have hnone (h : ∀ c, (p.line raw).2 ≠ some (.enqueue c)) :
      (Place.mk before raw).task? = none :=
    Option.eq_none_iff_forall_ne_some.mpr fun x hx => h x.2 ((hplace x.1 x.2).mp hx).2
  cases hcall : (p.line raw).2 with
  | none =>
      rw [hnone (by simp [hcall])]
      rfl
  | some call =>
      cases call with
      | start b =>
          rw [hnone (by simp [hcall])]
          rfl
      | finish =>
          rw [hnone (by simp [hcall])]
          rfl
      | enqueue c =>
          obtain ⟨-, hsome, -⟩ := (p.line_eq_enqueue_iff raw).mp hcall
          obtain ⟨b, hb⟩ := Option.isSome_iff_exists.mp hsome
          rw [(hplace b c).mpr ⟨hb, hcall⟩, hb]
          rfl

/-- The commands that lines bring are exactly those that they are in their places. -/
lemma entries_lines_eq :
    Call.entries (lines {} before).1.batch ((lines {} before).1.lines raws).2 =
      (placesAfter before raws).filterMap Place.task? := by
  induction raws generalizing before with
  | nil => rfl
  | cons raw raws ih =>
      have hrest := ih (before ++ [raw])
      rw [lines_fst_concat] at hrest
      rw [lines_cons, Call.entries_append, current_line, hrest, entries_line, placesAfter]
      cases h : (Place.mk before raw).task? <;> simp [h]

/-- A line asks for another turn if it is a command with the name for that, and commands are
passed on. -/
lemma line_continues_iff :
    (p.line raw).1.continues = true ↔
      p.continues = true ∨ p.ignoring = false ∧ p.batch.isSome ∧
        ∃ c, Line.classify raw = .command c ∧ c.hasName continueName = true := by
  rw [line]
  cases Line.classify raw with
  | header id => cases id <;> simp
  | command c =>
      cases hi : p.ignoring with
      | true => simp
      | false =>
          cases hb : p.batch with
          | none => simp [command, hb]
          | some b => cases hc : c.hasName continueName <;> simp [command, hb, hc]
  | _ => simp

/-- In its place that is so behind a valid header. -/
lemma continues_line_iff :
    ((lines {} before).1.line raw).1.continues = true ↔
      (lines {} before).1.continues = true ∨ (Place.mk before raw).AsksAgain := by
  rw [line_continues_iff]
  refine or_congr_right ⟨?_, ?_⟩
  · rintro ⟨hi, hsome, c, hclass, hname⟩
    obtain ⟨b, hb⟩ := Option.isSome_iff_exists.mp hsome
    exact ⟨b, c, announces_iff.mpr ⟨hi, hb⟩, hclass, hname⟩
  · rintro ⟨b, c, hannounced, hclass, hname⟩
    obtain ⟨hi, hb⟩ := announces_iff.mp hannounced
    exact ⟨hi, by simp [hb], c, hclass, hname⟩

lemma continues_lines_iff :
    ((lines {} before).1.lines raws).1.continues = true ↔
      (lines {} before).1.continues = true ∨ ∃ l ∈ placesAfter before raws, l.AsksAgain := by
  induction raws generalizing before with
  | nil => simp [placesAfter]
  | cons raw raws ih =>
      have hrest := ih (before ++ [raw])
      rw [lines_fst_concat, continues_line_iff] at hrest
      simpa [placesAfter, or_assoc] using hrest

end Parser

/-! ### Turns -/

/-- What a turn with the given lines comes to: whether another one is asked for, and the calls. -/
structure Renders (raws : List (List Char)) (continues : Bool) (calls : List Call) : Prop where
  /-- There are no calls, or batches with their commands and the end of the last one. -/
  shape : calls = [] ∨ ∃ batches : List (BatchId × List Command),
    calls = batches.flatMap Call.spell ++ [.finish]
  /-- There is an end exactly if there is a valid header. -/
  ends : .finish ∈ calls ↔ ∃ raw ∈ raws, ∃ b, Line.classify raw = .header (.ok b)
  /-- The end comes once. -/
  once : calls.count .finish ≤ 1
  /-- The batches are those of the valid headers, in order. -/
  starts : calls.filterMap Call.start? = raws.filterMap fun raw => (Line.classify raw).id?
  /-- Their numbers are positive. -/
  positive : ∀ b, .start b ∈ calls → 1 ≤ b
  /-- The commands of the batches are exactly the lines that are commands of them, in order. -/
  commands : List.Forall₂ (fun x l => l.Authorises x.1 x.2) (Call.entries none calls)
    ((placesAfter [] raws).filter (·.Authorised))
  /-- They are made of words. -/
  spoken : ∀ c, .enqueue c ∈ calls → c.Spoken ∧ c.name ≠ continueName
  /-- Another turn is asked for exactly if a line does so. -/
  again : continues = true ↔ ∃ l ∈ placesAfter [] raws, l.AsksAgain

namespace Parser

/-- After some lines there is a batch exactly if they began one, -/
lemma isSome_batch_lines (raws : List (List Char)) :
    (lines {} raws).1.batch.isSome ↔ (lines {} raws).2.filterMap Call.start? ≠ [] := by
  rw [← current_lines, Call.isSome_current_iff (finish_notMem_lines _ _)]
  exact or_iff_right (by simp)

/-- and so if one of them is a valid header. -/
lemma isSome_batch_lines_iff (raws : List (List Char)) :
    (lines {} raws).1.batch.isSome ↔
      ∃ raw ∈ raws, ∃ b, Line.classify raw = .header (.ok b) := by
  rw [isSome_batch_lines, starts_lines]
  simp [← Line.id?_eq_some_iff, Option.ne_none_iff_exists']

section

variable (text : List Char)

/-- The calls of a turn are those for its lines, and an end behind them if there is a batch. -/
lemma calls_turn :
    (turn text).2 = (lines {} (Text.lines text)).2 ++
      if (lines {} (Text.lines text)).1.batch.isSome then [.finish] else [] := rfl

lemma finish_mem_turn_iff :
    .finish ∈ (turn text).2 ↔
      ∃ raw ∈ Text.lines text, ∃ b, Line.classify raw = .header (.ok b) := by
  rw [← isSome_batch_lines_iff, calls_turn, List.mem_append, or_iff_right (finish_notMem_lines _ _)]
  split <;> rename_i h <;> simpa using h

/-- The end of a turn adds neither a header nor a command. -/
lemma mem_lines_of_mem_turn {call : Call} (hne : call ≠ .finish) (h : call ∈ (turn text).2) :
    call ∈ (lines {} (Text.lines text)).2 := by
  rw [calls_turn, List.mem_append] at h
  refine h.resolve_right fun h => ?_
  split at h <;> simp_all

lemma starts_turn :
    (turn text).2.filterMap Call.start? =
      (Text.lines text).filterMap fun raw => (Line.classify raw).id? := by
  rw [calls_turn, List.filterMap_append, starts_lines]
  split <;> simp [Call.start?]

lemma entries_turn :
    Call.entries none (turn text).2 = (placesAfter [] (Text.lines text)).filterMap Place.task? := by
  rw [← entries_lines_eq, calls_turn, Call.entries_append]
  split <;> simp [Call.entries]

/-- There are no calls in a turn, or batches and one end behind them. -/
lemma turn_snd_eq (text : List Char) : (turn text).2 = [] ∨
    ∃ batches : List (BatchId × List Command),
      (turn text).2 = batches.flatMap Call.spell ++ [.finish] := by
  have hfinish := finish_notMem_lines {} (Text.lines text)
  obtain ⟨batches, hspell⟩ := (orderly_lines {} (Text.lines text)).exists_spell hfinish
  have hbatch := isSome_batch_lines (Text.lines text)
  rw [hspell, Call.starts_flatMap_spell] at hbatch
  rw [calls_turn, hspell]
  split
  · exact .inr ⟨batches, rfl⟩
  · rename_i hnone
    have hempty : batches = [] := by simpa using hbatch.not.mp hnone
    exact .inl (by rw [hempty]; rfl)

/-- The calls of a whole turn are read off its lines. -/
lemma renders_turn : Renders (Text.lines text) (turn text).1 (turn text).2 where
  shape := turn_snd_eq text
  ends := finish_mem_turn_iff text
  once := by
    rw [calls_turn, List.count_append, List.count_eq_zero_of_not_mem (finish_notMem_lines _ _)]
    split <;> simp
  starts := starts_turn text
  positive b hb := by
    have hmem : b ∈ (turn text).2.filterMap Call.start? := List.mem_filterMap.mpr ⟨_, hb, rfl⟩
    rw [starts_turn, List.mem_filterMap] at hmem
    obtain ⟨raw, -, hid⟩ := hmem
    exact Line.one_le_of_classify_eq_header (Line.id?_eq_some_iff.mp hid)
  commands := by
    rw [entries_turn]
    exact Place.forall₂_filterMap_task? _
  spoken c hc := by
    obtain ⟨raw, -, hclass, hname⟩ :=
      exists_command_of_mem_lines {} _ (mem_lines_of_mem_turn text (by simp) hc)
    refine ⟨Line.spoken_of_classify_eq_command hclass, fun heq => ?_⟩
    rw [Command.hasName, heq, Text.sameLetters_self] at hname
    cases hname
  again := (continues_lines_iff [] (Text.lines text)).trans (by simp)

end

/-- Each of several turns, in whatever pieces it comes, comes to batches and one end behind them;
its calls and whether it asks for another turn are read off its own lines. -/
theorem hearTurns_render (turns : List (List (List Char))) :
    List.Forall₂ (fun pieces talk => Renders (Text.lines pieces.flatten) talk.1 talk.2)
      turns (hearTurns {} turns) := by
  rw [hearTurns_eq, List.forall₂_map_right_iff, List.forall₂_same]
  exact fun pieces _ => renders_turn pieces.flatten

end Parser

end RoverPilot
