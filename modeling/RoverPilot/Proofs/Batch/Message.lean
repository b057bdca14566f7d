import Mathlib.Data.List.TakeWhile
import Mathlib.Tactic
import RoverPilot.Batch.Message
import RoverPilot.Proofs.Text.Blank
import RoverPilot.Proofs.Text.Numeral

/-!
Reports survive the way through a message.

* `Result.headerDigits?_eq_some_iff`: the form of the header line of a message;
* `Result.headerDigits?_header`, `Result.contentLines_encode`: the digits and the lines of the
  message for a report;
* `Result.decode_encode`: the message for a report under a positive id holds that report.
-/

namespace RoverPilot

/-! ### Digits -/

namespace Text

lemma isDecimalDigit_of_isDigit {c : Char} (h : c.isDigit = true) : isDecimalDigit c = true := by
  have hrange : 0x30 ≤ c.toNat ∧ c.toNat ≤ 0x39 := by
    rw [Char.isDigit, Bool.and_eq_true, decide_eq_true_eq, decide_eq_true_eq] at h
    exact h
  simp [isDecimalDigit, inRanges, decimalDigits, hrange]

end Text

/-! ### Messages -/

namespace Result

/-- The header line of the message for a report. -/
def header (id : BatchId) : List Char :=
  ['[', 'E', 'X', 'E', 'C', '_', 'R', 'E', 'S', 'U', 'L', 'T', ' ', 'i', 'd', '='] ++
    Text.render id.toNat ++ [']']

/-- The other lines of the message. -/
def body (status : Status) (reason : Reason) : List Char :=
  ['S', 'T', 'A', 'T', 'U', 'S', ':', ' '] ++ (status.name.toList ++
    if reason = .none then [] else "\nREASON: ".toList ++ reason.name.toList)

lemma encode_eq (r : Result) : r.encode = header r.id ++ '\n' :: body r.status r.reason := by
  have hopening : "[EXEC_RESULT id=".toList =
      ['[', 'E', 'X', 'E', 'C', '_', 'R', 'E', 'S', 'U', 'L', 'T', ' ', 'i', 'd', '='] := by
    decide +kernel
  have hstatus : "]\nSTATUS: ".toList =
      [']', '\n', 'S', 'T', 'A', 'T', 'U', 'S', ':', ' '] := by
    decide +kernel
  unfold encode header body
  rw [hopening, hstatus]
  simp only [List.append_assoc, List.cons_append, List.nil_append]

lemma trim_header (id : BatchId) : Text.trim (header id) = header id := by
  refine Text.trim_eq_self (fun c hc => ?_) fun c hc => ?_
  · obtain rfl : c = '[' := by simpa [header, eq_comm] using hc
    rfl
  · rw [header, List.getLast?_append_of_ne_nil _ (by simp)] at hc
    obtain rfl : c = ']' := by simpa [eq_comm] using hc
    rfl

lemma newline_not_mem_header (id : BatchId) : '\n' ∉ header id := by
  have hdigits : '\n' ∉ Text.render id.toNat := fun hmem =>
    absurd (Text.isDigit_of_mem_render hmem) (by decide)
  simp [header, hdigits]

/-- The lines of a message are the header, the status and the reason, if any. -/
lemma contentLines_encode (r : Result) :
    contentLines r.encode = header r.id :: contentLines (body r.status r.reason) := by
  rw [encode_eq, contentLines, Text.lines_append (newline_not_mem_header r.id), List.map_cons,
    trim_header, List.filter_cons_of_pos (by simp [header])]
  rfl

/-- The digits of a header line, of any script. -/
lemma headerDigits?_eq_some_iff {line digits : List Char} :
    headerDigits? line = some digits ↔
      ∃ gap, line = "[EXEC_RESULT".toList ++ (gap ++ ("id=".toList ++ (digits ++ [']']))) ∧
        gap ≠ [] ∧ Text.Blanks gap ∧ digits ≠ [] ∧ ∀ c ∈ digits, Text.isDecimalDigit c = true := by
  rw [headerDigits?]
  simp only [Option.bind_eq_bind]
  constructor
  · intro h
    obtain ⟨afterWord, hword, h⟩ := Option.bind_eq_some_iff.mp h
    obtain ⟨gap, hgap, hafter⟩ := Text.exists_blanks_append afterWord
    split at h
    · cases h
    · rename_i hlonger
      obtain ⟨rest, hid, h⟩ := Option.bind_eq_some_iff.mp h
      split at h
      · cases h
      · rename_i hbody
        obtain rfl := Option.some.inj h
        rw [not_or, not_not, List.isEmpty_iff] at hbody
        refine ⟨gap, ?_, ?_, hgap, hbody.1, fun c => List.mem_takeWhile_imp⟩
        · rw [← hbody.2, List.takeWhile_append_dropWhile, ← Text.after?_eq_some_iff.mp hid,
            ← hafter]
          exact Text.after?_eq_some_iff.mp hword
        · rintro rfl
          rw [List.nil_append] at hafter
          exact hlonger (congrArg List.length hafter).symm
  · rintro ⟨gap, rfl, hne, hgap, hdigits, hall⟩
    have hbracket : Text.isDecimalDigit ']' = false := by decide +kernel
    have hletter : ∀ c ∈ ("id=".toList ++ (digits ++ [']'])).head?, Text.isBlank c = false := by
      simp
      decide
    have hlonger := (Text.length_trimLeft_append_eq_iff hgap hletter).not.mpr hne
    rw [Text.after?_eq_some_iff.mpr rfl, Option.bind_some, if_neg hlonger,
      Text.trimLeft_append_of_blanks hgap, Text.trimLeft_eq_self hletter,
      Text.after?_eq_some_iff.mpr rfl, Option.bind_some, List.takeWhile_append_of_pos hall,
      List.dropWhile_append_of_pos hall]
    simp [hbracket, hdigits]

/-- The digits of the header are those of the id. -/
lemma headerDigits?_header (id : BatchId) :
    headerDigits? (header id) = some (Text.render id.toNat) := by
  refine headerDigits?_eq_some_iff.mpr ⟨[' '], by simp [header], by simp, ?_, ?_, ?_⟩
  · simp [Text.Blanks, Text.isBlank]
  · exact Text.render_ne_nil _
  · exact fun c hc => Text.isDecimalDigit_of_isDigit (Text.isDigit_of_mem_render hc)

/-- Status and reason are read from the other lines. -/
lemma read_body (status : Status) (reason : Reason) :
    readStatusLine (contentLines (body status reason)).head? = .ok status ∧
      readReasonLine (contentLines (body status reason)).tail.head? = .ok reason := by
  cases status <;> cases reason <;> decide +kernel

end Result

lemma BatchId.read_render {id : BatchId} (h : 0 < id) :
    BatchId.read (Text.render id.toNat) = .ok id := by
  have hpos : 0 < id.toNat := UInt32.lt_iff_toNat_lt.mp h
  simp [BatchId.read, Text.signedNatural?_render, hpos, id.toNat_lt_size]

/-- The message for a report under a positive id holds that report. -/
theorem Result.decode_encode {r : Result} (h : 0 < r.id) : Result.decode r.encode = .ok r := by
  obtain ⟨hstatus, hreason⟩ := read_body r.status r.reason
  rw [decode, contentLines_encode]
  simp only [headerDigits?_header, BatchId.read_render h, hstatus, hreason]
  rfl

end RoverPilot
