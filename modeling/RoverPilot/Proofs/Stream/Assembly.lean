import Mathlib.Tactic
import RoverPilot.Stream.Assembler
import RoverPilot.Proofs.Text.Encoding

/-!
What goes into an assembler comes out of it.

* `Assembler.next?_eq_some_iff`, `Assembler.next?_eq_none_iff`: a line is the text before the first
  line end, if there is a line end;
* `Assembler.next?_encode`: in bytes the text is cut at the first byte of a line end, and the
  characters on both sides are whole;
* `Assembler.Drains`, `Assembler.drains_iff`: lines taken one by one until there is none are the
  lines of `drain`;
* `Assembler.Request`, `Assembler.serveAll`: pieces arrive, lines and unfinished lines leave, in any
  order;
* `Assembler.serveAll_exact`: what has left and what waits is what has arrived.
-/

namespace RoverPilot.Assembler

open Text

variable {a b : Assembler} {s line rest : List Char} {lines : List (List Char)}

/-! ### The first line -/

/-- A text is cut at its first line end. -/
lemma cutLine_eq_some_iff :
    cutLine s = some (line, rest) ↔ '\n' ∉ line ∧ s = line ++ '\n' :: rest := by
  induction s generalizing line with
  | nil => simp [cutLine]
  | cons c s ih =>
      by_cases hc : c = '\n'
      · cases line with
        | nil => simp [cutLine, hc]
        | cons d line => simp +contextual [cutLine, hc]
      · cases line with
        | nil => simp [cutLine, hc]
        | cons d line =>
            by_cases hd : c = d
            · subst hd
              simp [cutLine, hc, Ne.symm hc, ih]
            · simp [cutLine, hc, hd]

lemma cutLine_eq_none_iff : cutLine s = none ↔ '\n' ∉ s := by
  constructor
  · intro hnone hmem
    obtain ⟨line, rest, hs, hline⟩ := List.eq_append_cons_of_mem hmem
    have hsome := cutLine_eq_some_iff.mpr ⟨hline, hs⟩
    rw [hnone] at hsome
    cases hsome
  · intro hnot
    cases hcut : cutLine s with
    | none => rfl
    | some cut =>
        obtain ⟨-, rfl⟩ := cutLine_eq_some_iff.mp hcut
        simp at hnot

/-- A line without a line end leaves, and the line end behind it goes with it. -/
lemma next?_eq_some_iff :
    a.next? = some (line, b) ↔ '\n' ∉ line ∧ a.buffer = line ++ '\n' :: b.buffer := by
  rw [← cutLine_eq_some_iff, next?, Option.map_eq_some_iff]
  constructor
  · rintro ⟨cut, hcut, heq⟩
    obtain ⟨rfl, rfl⟩ := Prod.mk.inj heq
    exact hcut
  · intro hcut
    exact ⟨_, hcut, rfl⟩

/-- No line leaves exactly if no line end waits. -/
lemma next?_eq_none_iff : a.next? = none ↔ '\n' ∉ a.buffer := by
  rw [← cutLine_eq_none_iff, next?, Option.map_eq_none_iff]

/-! ### The first line in bytes -/

/-- The byte of a line end. -/
def lineEnd : UInt8 := 0x0A

/-- The bytes before the first line end and those behind it. -/
def cutBytes (s : List UInt8) : Option (List UInt8 × List UInt8) :=
  (s.idxOf? lineEnd).map fun i => (s.take i, s.drop (i + 1))

lemma cutBytes_of_not_mem {s : List UInt8} (h : lineEnd ∉ s) : cutBytes s = none := by
  rw [cutBytes, List.idxOf?_eq_none_iff.mpr h, Option.map_none]

lemma cutBytes_append {s : List UInt8} (h : lineEnd ∉ s) (t : List UInt8) :
    cutBytes (s ++ lineEnd :: t) = some (s, t) := by
  have hfind : (s ++ lineEnd :: t).idxOf? lineEnd = some s.length := by
    have hnone := List.idxOf?_eq_none_iff.mpr h
    rw [List.idxOf?] at hnone ⊢
    simp [List.findIdx?_append, hnone, List.findIdx?_cons]
  simp [cutBytes, hfind]

/-- A byte of a line end is part of no other character. -/
lemma lineEnd_mem_encode_iff : lineEnd ∈ Utf8.encode s ↔ '\n' ∈ s := by
  rw [Utf8.mem_encode_iff (by decide)]
  constructor
  · rintro ⟨c, hc, heq⟩
    have hline : lineEnd.toNat = '\n'.toNat := by decide
    rwa [Char.toNat_inj.mp (heq.trans hline)] at hc
  · intro h
    exact ⟨_, h, rfl⟩

/-- The bytes of the waiting text are cut where the text is. -/
theorem next?_encode (a : Assembler) :
    a.next?.map (fun cut => (Utf8.encode cut.1, Utf8.encode cut.2.buffer)) =
      cutBytes (Utf8.encode a.buffer) := by
  cases hnext : a.next? with
  | none =>
      have hbytes := mt lineEnd_mem_encode_iff.mp (next?_eq_none_iff.mp hnext)
      rw [cutBytes_of_not_mem hbytes, Option.map_none]
  | some cut =>
      obtain ⟨line, b⟩ := cut
      obtain ⟨hline, hbuffer⟩ := next?_eq_some_iff.mp hnext
      have hbytes : Utf8.encode a.buffer = Utf8.encode line ++ lineEnd :: Utf8.encode b.buffer := by
        rw [hbuffer, Utf8.encode_append]
        rfl
      rw [hbytes, cutBytes_append (mt lineEnd_mem_encode_iff.mp hline), Option.map_some]

/-! ### One line after another -/

/-- Lines are taken one by one until there is none. -/
inductive Drains : Assembler → List (List Char) → Assembler → Prop where
  | done {a : Assembler} : a.next? = none → Drains a [] a
  | next {a b c : Assembler} {line : List Char} {lines : List (List Char)} :
      a.next? = some (line, b) → Drains b lines c → Drains a (line :: lines) c

lemma drain_of_next?_eq_none (h : a.next? = none) : a.drain = ([], a) := by
  have hcut := cutLine_eq_none_iff.mpr (next?_eq_none_iff.mp h)
  rw [drain, cutLines_of_cutLine_eq_none hcut]

lemma drain_of_next?_eq_some (h : a.next? = some (line, b)) :
    a.drain = (line :: b.drain.1, b.drain.2) := by
  have hcut := cutLine_eq_some_iff.mpr (next?_eq_some_iff.mp h)
  rw [drain, cutLines_of_cutLine hcut]
  rfl

/-- The complete lines can be taken one by one, and then there is none. -/
lemma drains_drain (a : Assembler) : a.Drains a.drain.1 a.drain.2 := by
  -- the induction is on the lines that are to come, as each of them leaves another assembler
  generalize hlines : a.drain.1 = lines
  induction lines generalizing a with
  | nil =>
      cases hnext : a.next? with
      | none => rw [drain_of_next?_eq_none hnext]; exact .done hnext
      | some cut => rw [drain_of_next?_eq_some hnext] at hlines; cases hlines
  | cons line lines ih =>
      cases hnext : a.next? with
      | none => rw [drain_of_next?_eq_none hnext] at hlines; cases hlines
      | some cut =>
          rw [drain_of_next?_eq_some hnext] at hlines ⊢
          obtain ⟨rfl, hrest⟩ := List.cons.inj hlines
          exact .next hnext (ih cut.2 hrest)

/-- Nothing else is taken that way. -/
lemma drains_iff : a.Drains lines b ↔ a.drain = (lines, b) := by
  constructor
  · intro h
    induction h with
    | done hnext => exact drain_of_next?_eq_none hnext
    | next hnext _ ih => rw [drain_of_next?_eq_some hnext, ih]
  · intro h
    have hdrain := drains_drain a
    rwa [h] at hdrain

lemma length_cutLines (s : List Char) : (cutLines s).1.length = s.count '\n' := by
  induction s with
  | nil => rfl
  | cons c s ih =>
      by_cases hc : c = '\n'
      · simp [cutLines, hc, ih]
      · rw [List.count_cons_of_ne hc, ← ih]
        cases hl : (cutLines s).1 <;> simp [cutLines, hc, hl]

/-! ### Requests in any order -/

/-- What may be asked of an assembler. -/
inductive Request where
  /-- To take up a piece of text. -/
  | push (piece : List Char)
  /-- To give out a complete line. -/
  | next
  /-- To give out the unfinished line. -/
  | takeRest
  deriving DecidableEq, Repr

/-- The text that arrives with a request. -/
def Request.text : Request → List Char
  | .push piece => piece
  | .next | .takeRest => []

/-- What leaves an assembler. -/
inductive Answer where
  /-- A complete line, without its line end. -/
  | line (text : List Char)
  /-- An unfinished line. -/
  | rest (text : List Char)
  deriving DecidableEq, Repr

/-- The text that has left with an answer: that of a complete line has its line end. -/
def Answer.text : Answer → List Char
  | .line text => text ++ ['\n']
  | .rest text => text

/-- The assembler after a request, and what leaves it. -/
def serve (a : Assembler) : Request → Assembler × Option Answer
  | .push piece => (a.push piece, none)
  | .next =>
    match a.next? with
    | some (line, a) => (a, some (.line line))
    | none => (a, none)
  | .takeRest =>
    match a.takeRest? with
    | some (rest, a) => (a, some (.rest rest))
    | none => (a, none)

/-- The assembler after several requests, and all that leaves it, in order. -/
def serveAll (a : Assembler) : List Request → Assembler × List Answer
  | [] => (a, [])
  | r :: rs =>
    let (a, answer) := a.serve r
    let (a, answers) := serveAll a rs
    (a, answer.toList ++ answers)

variable {r : Request}

@[simp] lemma serveAll_nil (a : Assembler) : a.serveAll [] = (a, []) := rfl

@[simp] lemma serveAll_cons (a : Assembler) (r : Request) (rs : List Request) :
    a.serveAll (r :: rs) =
      (((a.serve r).1.serveAll rs).1,
        (a.serve r).2.toList ++ ((a.serve r).1.serveAll rs).2) := rfl

/-- A request moves text, and neither loses nor invents any. -/
lemma text_serve (a : Assembler) (r : Request) :
    (a.serve r).2.toList.flatMap Answer.text ++ (a.serve r).1.buffer = a.buffer ++ r.text := by
  cases r with
  | push piece => rfl
  | next =>
      cases hnext : a.next? with
      | none => simp [serve, hnext, Request.text]
      | some cut =>
          obtain ⟨-, hbuffer⟩ := next?_eq_some_iff.mp hnext
          simp [serve, hnext, Request.text, Answer.text, hbuffer]
  | takeRest =>
      by_cases hempty : a.buffer = []
      · simp [serve, takeRest?, hempty, Request.text]
      · simp [serve, takeRest?, hempty, Request.text, Answer.text]

/-- So do several requests. -/
lemma text_serveAll (a : Assembler) (rs : List Request) :
    (a.serveAll rs).2.flatMap Answer.text ++ (a.serveAll rs).1.buffer =
      a.buffer ++ rs.flatMap Request.text := by
  induction rs generalizing a with
  | nil => simp
  | cons r rs ih =>
      calc (a.serveAll (r :: rs)).2.flatMap Answer.text ++ (a.serveAll (r :: rs)).1.buffer
          = (a.serve r).2.toList.flatMap Answer.text ++
              (((a.serve r).1.serveAll rs).2.flatMap Answer.text ++
                ((a.serve r).1.serveAll rs).1.buffer) := by
            rw [serveAll_cons, List.flatMap_append, List.append_assoc]
        _ = (a.serve r).2.toList.flatMap Answer.text ++ (a.serve r).1.buffer ++
              rs.flatMap Request.text := by rw [ih, List.append_assoc]
        _ = a.buffer ++ (r :: rs).flatMap Request.text := by
            rw [text_serve, List.flatMap_cons, List.append_assoc]

/-- A line leaves without a line end. -/
lemma newline_not_mem_serve (h : (a.serve r).2 = some (.line line)) : '\n' ∉ line := by
  cases r with
  | push piece => cases h
  | next =>
      cases hnext : a.next? with
      | none => simp [serve, hnext] at h
      | some cut =>
          obtain ⟨hline, -⟩ := next?_eq_some_iff.mp hnext
          obtain rfl : cut.1 = line := by simpa [serve, hnext] using h
          exact hline
  | takeRest =>
      by_cases hempty : a.buffer = [] <;> simp [serve, takeRest?, hempty] at h

lemma newline_not_mem_serveAll {rs : List Request} (h : .line line ∈ (a.serveAll rs).2) :
    '\n' ∉ line := by
  induction rs generalizing a with
  | nil => cases h
  | cons r rs ih =>
      rw [serveAll_cons, List.mem_append, Option.mem_toList] at h
      exact h.elim newline_not_mem_serve ih

/-- **Whatever is asked of an assembler, it loses and invents nothing.** All that has left it, each
line with its line end behind it, followed by the text that waits, is the text of the pieces in
their order.  No line that has left contains a line end.  There is no next line exactly if no line
end waits; in bytes, the next line and the text behind it are what stands on both sides of the first
byte of a line end.  And taking lines one by one comes to an end: it gives all complete lines, as
many as line ends wait. -/
theorem serveAll_exact (rs : List Request) :
    let a := (serveAll {} rs).1
    let answers := (serveAll {} rs).2
    answers.flatMap Answer.text ++ a.buffer = rs.flatMap Request.text ∧
      (∀ line, .line line ∈ answers → '\n' ∉ line) ∧
      (a.next? = none ↔ '\n' ∉ a.buffer) ∧
      (a.next?.map fun cut => (Utf8.encode cut.1, Utf8.encode cut.2.buffer)) =
        cutBytes (Utf8.encode a.buffer) ∧
      (∀ lines b, a.Drains lines b ↔ a.drain = (lines, b)) ∧
      a.drain.1.length = a.buffer.count '\n' := by
  intro a answers
  have htext := text_serveAll {} rs
  rw [List.nil_append] at htext
  refine ⟨htext, fun line hline => newline_not_mem_serveAll hline, next?_eq_none_iff,
    next?_encode a, fun lines b => drains_iff, length_cutLines a.buffer⟩

example :
    serveAll {} [.push "hé\ny".toList, .next, .push "ou".toList, .next, .takeRest] =
      ({}, [.line "hé".toList, .rest "you".toList]) := by
  decide

end RoverPilot.Assembler
