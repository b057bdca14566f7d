import Mathlib.Tactic
import RoverPilot.Batch.Lifecycle

/-!
Streams that have ended.

* `Lifecycle.Request`, `Lifecycle.serveAll`: the lifecycle after headers, commands, ends of
  streams and ends of batches in any order;
* `Lifecycle.Shut`, `Shut.serveAll`: no batch may receive commands before the next header;
* `Lifecycle.serveAll_executing`: how long a batch goes on to receive commands;
* `Lifecycle.serveAll_finish_iff`: after the end of a stream, and before the next header, a batch
  receives commands exactly if it waited for its first command, no batch was over meanwhile, and
  that command was the preempting one;
* `Lifecycle.serveAll_finish_reopened`: so a stream that has ended may be open again.
-/

namespace RoverPilot.Lifecycle

/-! ### Requests -/

/-- What may be asked of the open batches. -/
inductive Request where
  /-- A batch header arrives. -/
  | start (batch : BatchId)
  /-- A command arrives. -/
  | enqueue (c : Command)
  /-- The stream of the last header ends. -/
  | finish
  /-- The executing batch is over. -/
  | finalize
  deriving DecidableEq, Repr

/-- Whether a request is a command. -/
def Request.isCommand : Request → Bool
  | .enqueue _ => true
  | _ => false

/-- Whether a request is a batch header. -/
def Request.isHeader : Request → Bool
  | .start _ => true
  | _ => false

/-- The open batches after a request. -/
def serve (l : Lifecycle) : Request → Lifecycle
  | .start b => (l.start b).2
  | .enqueue c => (l.enqueue c).2
  | .finish => l.finish.2
  | .finalize => l.finalize.2

/-- The open batches after requests, one after another. -/
def serveAll (l : Lifecycle) (rs : List Request) : Lifecycle := rs.foldl serve l

variable {l : Lifecycle} {r : Request} {rs : List Request} {i j : BatchId}

@[simp] lemma serveAll_nil (l : Lifecycle) : l.serveAll [] = l := rfl

@[simp] lemma serveAll_cons (l : Lifecycle) (r : Request) (rs : List Request) :
    l.serveAll (r :: rs) = (l.serve r).serveAll rs := rfl

@[simp] lemma serveAll_append (l : Lifecycle) (rs rs' : List Request) :
    l.serveAll (rs ++ rs') = (l.serveAll rs).serveAll rs' := List.foldl_append

/-! ### Before the next header -/

/-- No batch may receive commands before the next header. -/
def Shut : Lifecycle → Prop
  | idle => True
  | finishCalled _ => True
  | ignoring _ _ => True
  | executing _ => False
  | collecting _ _ _ => False

/-- That stays so until the next header. -/
lemma Shut.serve (h : l.Shut) (hr : r.isHeader = false) : (l.serve r).Shut := by
  cases l with
  | executing | collecting => cases h
  | idle | finishCalled | ignoring =>
      cases r with
      | start => cases hr
      | enqueue | finish | finalize => trivial

lemma Shut.serveAll (h : l.Shut) (hrs : ∀ r ∈ rs, r.isHeader = false) : (l.serveAll rs).Shut := by
  induction rs generalizing l with
  | nil => exact h
  | cons r rs ih =>
      rw [List.forall_mem_cons] at hrs
      exact ih (h.serve hrs.1) hrs.2

lemma Shut.serveAll_ne (h : l.Shut) (hrs : ∀ r ∈ rs, r.isHeader = false) :
    l.serveAll rs ≠ executing i := by
  intro heq
  have hshut := h.serveAll hrs
  rw [heq] at hshut
  exact hshut

lemma serve_enqueue_executing (j : BatchId) (c : Command) :
    (executing j).serve (.enqueue c) = executing j := rfl

/-- A batch goes on to receive commands as long as nothing but commands arrives. -/
lemma serveAll_executing (hrs : ∀ r ∈ rs, r.isHeader = false) :
    (executing j).serveAll rs = executing i ↔ i = j ∧ ∀ r ∈ rs, r.isCommand = true := by
  induction rs with
  | nil => simpa using eq_comm
  | cons r rs ih =>
      rw [List.forall_mem_cons] at hrs
      rw [serveAll_cons, List.forall_mem_cons]
      cases r with
      | start => cases hrs.1
      | enqueue c =>
          rw [serve_enqueue_executing, ih hrs.2]
          simp [Request.isCommand]
      | finish =>
          have hne := Shut.serveAll_ne (l := finishCalled j) (i := i) trivial hrs.2
          simpa [Request.isCommand, serve, Lifecycle.finish] using hne
      | finalize =>
          have hne := Shut.serveAll_ne (l := idle) (i := i) trivial hrs.2
          simpa [Request.isCommand, serve, Lifecycle.finalize] using hne

/-! ### The end of a stream -/

/-- The first command that arrives is the preempting one, it comes while the same batch still
executes, and after it nothing but commands arrives. -/
def Takeover (rs : List Request) : Prop :=
  ∃ c early late, rs = early ++ .enqueue c :: late ∧ (∀ r ∈ early, r = .finish) ∧
    c.hasName preemptingName = true ∧ ∀ r ∈ late, r.isCommand = true

lemma takeover_enqueue {c : Command} :
    Takeover (.enqueue c :: rs) ↔
      c.hasName preemptingName = true ∧ ∀ r ∈ rs, r.isCommand = true := by
  constructor
  · rintro ⟨d, early, late, heq, hearly, hd, hlate⟩
    cases early with
    | nil =>
        cases heq
        exact ⟨hd, hlate⟩
    | cons r early =>
        obtain ⟨rfl, -⟩ := List.cons.inj heq
        cases hearly _ List.mem_cons_self
  · rintro ⟨hc, hrs⟩
    exact ⟨c, [], rs, rfl, by simp, hc, hrs⟩

lemma takeover_finish : Takeover (.finish :: rs) ↔ Takeover rs := by
  constructor
  · rintro ⟨c, early, late, heq, hearly, hc, hlate⟩
    cases early with
    | nil => cases heq
    | cons r early =>
        rw [List.forall_mem_cons] at hearly
        exact ⟨c, early, late, (List.cons.inj heq).2, hearly.2, hc, hlate⟩
  · rintro ⟨c, early, late, rfl, hearly, hc, hlate⟩
    exact ⟨c, .finish :: early, late, rfl, by simpa using hearly, hc, hlate⟩

lemma not_takeover_finalize : ¬ Takeover (.finalize :: rs) := by
  rintro ⟨c, early, late, heq, hearly, -⟩
  cases early with
  | nil => cases heq
  | cons r early =>
      obtain ⟨rfl, -⟩ := List.cons.inj heq
      cases hearly _ List.mem_cons_self

/-- A batch whose stream has ended before its first command receives commands after a takeover,
and in no other way. -/
lemma serveAll_collecting (hrs : ∀ r ∈ rs, r.isHeader = false) (b : BatchId) :
    (collecting b j true).serveAll rs = executing i ↔ i = j ∧ Takeover rs := by
  induction rs with
  | nil =>
      have hnot : ¬ Takeover [] := by
        rintro ⟨c, early, late, heq, -⟩
        simp at heq
      simp [hnot]
  | cons r rs ih =>
      rw [List.forall_mem_cons] at hrs
      rw [serveAll_cons]
      cases r with
      | start => cases hrs.1
      | enqueue c =>
          rw [takeover_enqueue]
          cases hc : c.hasName preemptingName with
          | true => simpa [serve, Lifecycle.enqueue, hc] using serveAll_executing hrs.2
          | false =>
              have hne := Shut.serveAll_ne (l := ignoring b j) (i := i) trivial hrs.2
              simpa [serve, Lifecycle.enqueue, hc] using hne
      | finish =>
          rw [takeover_finish]
          exact ih hrs.2
      | finalize =>
          have hne := Shut.serveAll_ne (l := finishCalled j) (i := i) trivial hrs.2
          simpa [serve, Lifecycle.finalize, not_takeover_finalize] using hne

/-- After the end of a stream and before the next header, whatever else is asked, a batch executes
with an open stream, and so accepts commands, exactly if it waited for its first command when the
stream ended, and this command was the preempting one and came before the batch ahead of it was
over. -/
theorem serveAll_finish_iff (rs rs' : List Request) (hrs : ∀ r ∈ rs', r.isHeader = false) :
    let l := idle.serveAll rs
    let l' := idle.serveAll (rs ++ .finish :: rs')
    ∀ i, (l' = executing i ↔ (∃ b closed, l = collecting b i closed) ∧ Takeover rs') ∧
      ∀ c, (l'.enqueue c).1 = .accept i ↔
        (∃ b closed, l = collecting b i closed) ∧ Takeover rs' := by
  intro l l' i
  suffices hiff : l' = executing i ↔ (∃ b closed, l = collecting b i closed) ∧ Takeover rs' from
    ⟨hiff, fun c => enqueue_eq_accept_iff.trans hiff⟩
  have hl' : l' = l.finish.2.serveAll rs' := serveAll_append idle rs (.finish :: rs')
  rw [hl']
  generalize l = l
  cases l with
  | collecting b j closed => simpa [Lifecycle.finish, eq_comm] using serveAll_collecting hrs b
  | executing b =>
      have hne := Shut.serveAll_ne (l := finishCalled b) (i := i) trivial hrs
      simpa [Lifecycle.finish] using hne
  | idle | finishCalled b | ignoring b j =>
      refine iff_of_false (Shut.serveAll_ne ?_ hrs) (by simp)
      exact trivial

/-- A second header arrives while a batch executes, and its stream ends. -/
def endedWaiting : List Request := [.start 1, .start 2]

/-- Its first command is the preempting one, and another one comes after it. -/
def belated : List Request := [.enqueue ⟨"STOP", []⟩, .enqueue ⟨"LEFT", ["90"]⟩]

/-- Both come after the end of the stream, but the batch takes over and receives the second. -/
theorem serveAll_finish_iff_belated :
    (∀ r ∈ belated, r.isHeader = false) ∧
      (∃ b closed, idle.serveAll endedWaiting = collecting b 2 closed) ∧ Takeover belated ∧
      idle.serveAll (endedWaiting ++ .finish :: belated) = executing 2 := by
  have hrs : ∀ r ∈ belated, r.isHeader = false := by decide
  have hwaits : ∃ b closed, idle.serveAll endedWaiting = collecting b 2 closed := ⟨1, false, rfl⟩
  have htakes : Takeover belated := takeover_enqueue.mpr ⟨by decide, by decide⟩
  exact ⟨hrs, hwaits, htakes,
    (serveAll_finish_iff endedWaiting belated hrs 2).1.mpr ⟨hwaits, htakes⟩⟩

/-- So it is not true that a stream that has ended stays so until the next header. -/
theorem serveAll_finish_reopened :
    ¬ ∀ rs rs', (∀ r ∈ rs', r.isHeader = false) →
      ∀ i c, idle.serveAll (rs ++ .finish :: rs') ≠ executing i ∧
        ((idle.serveAll (rs ++ .finish :: rs')).enqueue c).1 ≠ .accept i := by
  intro h
  have hopen := h endedWaiting [.enqueue ⟨"STOP", []⟩] (by decide) 2 ⟨"LEFT", ["90"]⟩
  exact hopen.2 (by decide)

end RoverPilot.Lifecycle
