import Mathlib.Tactic
import RoverPilot.Proofs.Batch.Message

/-!
What is read as an id and as a report.

* `BatchId.Denotes`, `BatchId.read_eq_iff`: the texts that denote a batch, and the fault of the
  others;
* `Result.IsHeader`, `Result.IsField`: the form of the header line of a message, and of a line with
  a status or a reason;
* `Result.Tells`, `Result.decode_eq_ok_iff`: the messages that hold a report;
* `Result.decode_exact`: exactly these are read, the written ones among them.
-/

namespace RoverPilot

open Text

/-! ### Ids -/

namespace BatchId

variable {s : List Char}

/-- What a text says as the id of a batch: a number from one to the largest word, in digits with an
optional plus sign; or else it is refused as a whole. -/
def Denotes (s : List Char) : Except FormatError BatchId → Prop
  | .ok b => Unsigned s b.toNat ∧ 1 ≤ b
  | .error e => e = .invalidId s ∧ ∀ n, Unsigned s n → ¬ (1 ≤ n ∧ n < 2 ^ 32)

lemma read_of_unsigned {n : Nat} (h : Unsigned s n) (hn : 1 ≤ n ∧ n < 2 ^ 32) :
    read s = .ok (UInt32.ofNat n) := by
  rw [read, signedNatural?_eq_some_iff.mpr h]
  exact if_pos hn

lemma read_of_not_unsigned (h : ∀ n, Unsigned s n → ¬ (1 ≤ n ∧ n < 2 ^ 32)) :
    read s = .error (.invalidId s) := by
  rw [read]
  split
  · rename_i n hn
    exact if_neg (h n (signedNatural?_eq_some_iff.mp hn))
  · rfl

/-- A text is read as what it says. -/
theorem read_eq_iff {id : Except FormatError BatchId} : read s = id ↔ Denotes s id := by
  constructor
  · rintro rfl
    by_cases h : ∃ n, Unsigned s n ∧ 1 ≤ n ∧ n < 2 ^ 32
    · obtain ⟨n, hs, hn⟩ := h
      have hword : (UInt32.ofNat n).toNat = n := UInt32.toNat_ofNat_of_lt' hn.2
      rw [read_of_unsigned hs hn]
      exact ⟨hword.symm ▸ hs, UInt32.le_iff_toNat_le.mpr (hword.symm ▸ hn.1)⟩
    · have hnot : ∀ n, Unsigned s n → ¬ (1 ≤ n ∧ n < 2 ^ 32) := fun n hs hn => h ⟨n, hs, hn⟩
      rw [read_of_not_unsigned hnot]
      exact ⟨rfl, hnot⟩
  · intro h
    cases id with
    | ok b =>
        obtain ⟨hs, hb⟩ := h
        rw [read_of_unsigned hs ⟨UInt32.le_iff_toNat_le.mp hb, b.toNat_lt⟩, UInt32.ofNat_toNat]
    | error e =>
        obtain ⟨rfl, hnot⟩ := h
        exact read_of_not_unsigned hnot

end BatchId

/-! ### Lines of a message -/

namespace Result

variable {line value : List Char}

/-- The header line of a message: the opening word, one or more blanks, `id=`, ASCII digits of a
positive word, and the closing bracket. -/
def IsHeader (line : List Char) (id : BatchId) : Prop :=
  ∃ gap digits, line = "[EXEC_RESULT".toList ++ (gap ++ ("id=".toList ++ (digits ++ [']']))) ∧
    gap ≠ [] ∧ Blanks gap ∧ Numeral digits id.toNat ∧ 1 ≤ id

/-- A line with a word and a value, and perhaps blanks between them. -/
def IsField (word value line : List Char) : Prop :=
  ∃ gap, line = word ++ (gap ++ value) ∧ Blanks gap

/-- A header line and the id that is read of it. -/
lemma isHeader_iff {id : BatchId} :
    IsHeader line id ↔
      ∃ digits, headerDigits? line = some digits ∧ BatchId.read digits = .ok id := by
  constructor
  · rintro ⟨gap, digits, hline, hne, hgap, hnumeral, hid⟩
    have hall : ∀ c ∈ digits, isDecimalDigit c = true := fun c hc =>
      isDecimalDigit_of_isDigit (hnumeral.2.1 c hc)
    exact ⟨digits, headerDigits?_eq_some_iff.mpr ⟨gap, hline, hne, hgap, hnumeral.1, hall⟩,
      BatchId.read_eq_iff.mpr ⟨.inl hnumeral, hid⟩⟩
  · rintro ⟨digits, hdigits, hread⟩
    obtain ⟨gap, hline, hne, hgap, -, hall⟩ := headerDigits?_eq_some_iff.mp hdigits
    obtain ⟨hnumber, hid⟩ := BatchId.read_eq_iff.mp hread
    refine ⟨gap, digits, hline, hne, hgap, hnumber.resolve_right ?_, hid⟩
    -- a plus sign is a digit in no script
    rintro ⟨rest, rfl, -⟩
    have hplus : isDecimalDigit '+' = false := by decide +kernel
    cases (hall '+' List.mem_cons_self).symm.trans hplus

/-- A line with a word and a value, in a message, where no line ends with a blank. -/
lemma isField_iff {word : List Char} (hline : ∀ c ∈ line.getLast?, isBlank c = false)
    (hvalue : trim value = value) :
    IsField word value line ↔ ∃ rest, after? word line = some rest ∧ trim rest = value := by
  simp only [after?_eq_some_iff]
  constructor
  · rintro ⟨gap, rfl, hgap⟩
    refine ⟨gap ++ value, rfl, ?_⟩
    have htrim := trim_append_of_blanks hgap blanks_nil value
    rw [List.append_nil] at htrim
    rw [htrim, hvalue]
  · rintro ⟨rest, rfl, hrest⟩
    obtain ⟨before, after, rfl, hbefore, hafter, -⟩ := trimmed_iff.mpr hrest.symm
    suffices hnil : after = [] from ⟨before, by rw [hnil, List.append_nil], hbefore⟩
    by_contra hne
    have hlast := List.getLast?_eq_getLast_of_ne_nil hne
    have hblank := hafter _ (List.getLast_mem hne)
    rw [hline _ (by simp [hlast])] at hblank
    cases hblank

/-! ### Names -/

lemma trim_status (status : Status) : trim status.name.toList = status.name.toList := by
  cases status <;> decide +kernel

lemma trim_reason (reason : Reason) : trim reason.name.toList = reason.name.toList := by
  cases reason <;> decide +kernel

end Result

lemma Status.read_eq_ok_iff {s : List Char} {status : Status} :
    Status.read s = .ok status ↔ s = status.name.toList := by
  rw [Status.read]
  constructor
  · intro h
    split at h
    · rename_i found hfound
      have hname := List.find?_some hfound
      obtain rfl := Except.ok.inj h
      exact (beq_iff_eq.mp hname).symm
    · cases h
  · rintro rfl
    cases status <;> rfl

lemma Reason.read_eq_ok_iff {s : List Char} {reason : Reason} :
    Reason.read s = .ok reason ↔ s = reason.name.toList := by
  rw [Reason.read]
  constructor
  · intro h
    split at h
    · rename_i found hfound
      have hname := List.find?_some hfound
      obtain rfl := Except.ok.inj h
      exact (beq_iff_eq.mp hname).symm
    · cases h
  · rintro rfl
    cases reason <;> rfl

namespace Result

/-- No line of a message that is looked at ends with a blank. -/
lemma isBlank_of_mem_contentLines {message line : List Char} (h : line ∈ contentLines message) :
    ∀ c ∈ line.getLast?, isBlank c = false := by
  obtain ⟨raw, -, rfl⟩ := List.mem_map.mp (List.mem_of_mem_filter h)
  obtain ⟨-, -, -, -, -, -, hlast⟩ := trimmed_trim raw
  exact hlast

section

variable {line? : Option (List Char)}
  (hline : ∀ line ∈ line?, ∀ c ∈ line.getLast?, isBlank c = false)

include hline

lemma readStatusLine_eq_ok_iff {status : Status} :
    readStatusLine line? = .ok status ↔
      ∃ line, line? = some line ∧ IsField "STATUS:".toList status.name.toList line := by
  cases line? with
  | none => simp only [readStatusLine, Option.bind_none, reduceCtorEq, false_and, exists_false]
  | some line =>
      simp only [Option.some.injEq, exists_eq_left',
        isField_iff (hline line rfl) (trim_status status)]
      rw [readStatusLine, Option.bind_some]
      cases after? "STATUS:".toList line with
      | none => simp
      | some rest => simpa using Status.read_eq_ok_iff

lemma readReasonLine_eq_ok_iff {reason : Reason} :
    readReasonLine line? = .ok reason ↔
      line? = none ∧ reason = .none ∨
        ∃ line, line? = some line ∧ IsField "REASON:".toList reason.name.toList line := by
  cases line? with
  | none => simp [readReasonLine, eq_comm]
  | some line =>
      simp only [reduceCtorEq, false_and, false_or, Option.some.injEq, exists_eq_left',
        isField_iff (hline line rfl) (trim_reason reason)]
      rw [readReasonLine]
      cases after? "REASON:".toList line with
      | none => simp
      | some rest => simpa using Reason.read_eq_ok_iff

end

/-! ### Messages -/

/-- The message holds a report: its lines, without those that are blank and without the blanks
around them, are a header line with the id, a line with the status and either none or one with the
reason, behind which nothing counts. -/
def Tells (message : List Char) (r : Result) : Prop :=
  ∃ raws header status more, IsLines message raws ∧
    (raws.map trim).filter (!·.isEmpty) = header :: status :: more ∧ IsHeader header r.id ∧
      IsField "STATUS:".toList r.status.name.toList status ∧
        (more = [] ∧ r.reason = .none ∨
          ∃ reason rest, more = reason :: rest ∧
            IsField "REASON:".toList r.reason.name.toList reason)

lemma tells_iff {message : List Char} {r : Result} :
    Tells message r ↔ ∃ header status more, contentLines message = header :: status :: more ∧
      IsHeader header r.id ∧ IsField "STATUS:".toList r.status.name.toList status ∧
        (more = [] ∧ r.reason = .none ∨
          ∃ reason rest, more = reason :: rest ∧
            IsField "REASON:".toList r.reason.name.toList reason) := by
  simp only [Tells, isLines_iff]
  constructor
  · rintro ⟨_, header, status, more, rfl, h⟩
    exact ⟨header, status, more, h⟩
  · rintro ⟨header, status, more, h⟩
    exact ⟨_, header, status, more, rfl, h⟩

lemma bind_eq_ok_iff {ε α β : Type} {x : Except ε α} {f : α → Except ε β} {b : β} :
    (x >>= f) = .ok b ↔ ∃ a, x = .ok a ∧ f a = .ok b := by
  cases x <;> simp [bind, Except.bind]

/-- A report is read of the header line and of the two lines behind it, if there are any. -/
lemma decode_eq_ok_iff_of_cons {message header : List Char} {rest : List (List Char)}
    (h : contentLines message = header :: rest) {r : Result} :
    decode message = .ok r ↔ IsHeader header r.id ∧ readStatusLine rest.head? = .ok r.status ∧
      readReasonLine rest.tail.head? = .ok r.reason := by
  rw [decode, h, isHeader_iff]
  dsimp only
  cases headerDigits? header with
  | none => simp
  | some digits =>
      simp only [Option.some.injEq, exists_eq_left', bind_eq_ok_iff]
      constructor
      · rintro ⟨id, hid, status, hstatus, reason, hreason, hr⟩
        cases hr
        exact ⟨hid, hstatus, hreason⟩
      · rintro ⟨hid, hstatus, hreason⟩
        exact ⟨_, hid, _, hstatus, _, hreason, rfl⟩

/-- Exactly the messages that hold a report are read. -/
theorem decode_eq_ok_iff {message : List Char} {r : Result} :
    decode message = .ok r ↔ Tells message r := by
  rw [tells_iff]
  cases hlines : contentLines message with
  | nil => simp [decode, hlines]
  | cons header rest =>
      have hends (line : List Char) (h : line ∈ rest) : ∀ c ∈ line.getLast?, isBlank c = false :=
        isBlank_of_mem_contentLines (hlines ▸ List.mem_cons_of_mem header h)
      have hstatus := fun line h => hends line (List.mem_of_mem_head? h)
      have hreason := fun line h => hends line (List.mem_of_mem_tail (List.mem_of_mem_head? h))
      rw [decode_eq_ok_iff_of_cons hlines, readStatusLine_eq_ok_iff hstatus,
        readReasonLine_eq_ok_iff hreason]
      cases rest with
      | nil => simp
      | cons status more => cases more <;> simp

/-- The message for a report under a positive id is read as that report; what is read has a positive
id, and its own message is read as the same; and exactly the messages that hold a report are
read. -/
theorem decode_exact :
    (∀ r : Result, 1 ≤ r.id → decode r.encode = .ok r) ∧
      (∀ message r, decode message = .ok r → 1 ≤ r.id ∧ decode r.encode = .ok r) ∧
      ∀ message r, decode message = .ok r ↔ Tells message r := by
  have hencode (r : Result) (h : 1 ≤ r.id) : decode r.encode = .ok r := by
    refine decode_encode (UInt32.lt_iff_toNat_lt.mpr ?_)
    exact UInt32.le_iff_toNat_le.mp h
  refine ⟨hencode, fun message r h => ?_, fun message r => decode_eq_ok_iff⟩
  obtain ⟨_, _, _, _, -, -, ⟨_, _, -, -, -, -, hid⟩, -⟩ := decode_eq_ok_iff.mp h
  exact ⟨hid, hencode r hid⟩

example : decode " \r\n[EXEC_RESULT \tid=007]\r\n\nSTATUS:FAILED\nREASON: NONE\nmore".toList =
    .ok { id := 7, status := .failed, reason := .none } := by decide +kernel

end Result

end RoverPilot
