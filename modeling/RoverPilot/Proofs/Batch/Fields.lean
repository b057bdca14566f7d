import Mathlib.Tactic
import RoverPilot.Batch.Lifecycle

/-!
The open batches in four fields.

* `Lifecycle.Fields`, with `start`, `enqueue`, `finish` and `finalize`: the stage, the executing
  batch, the one behind it, and whether the stream of that one has ended, each set by itself;
* `Lifecycle.Fields.Shows`: fields that show a lifecycle.  Its transitions and those of the fields
  keep in step (`Shows.start`, `Shows.enqueue`, `Shows.finish`, `Shows.finalize`), so they decide
  alike;
* `Lifecycle.Fields.Sound`, `Lifecycle.Fields.Shows.sound`: which of the fields hold something in
  which stage;
* `Lifecycle.Fields.Shows.enqueue_eq_notAccepting_iff`: a command for which no batch is open finds
  no batch executing, or one whose stream has ended.
-/

namespace RoverPilot.Lifecycle

/-- The open batches, in four fields. -/
structure Fields where
  stage : Stage := .idle
  /-- The executing batch. -/
  executing : Option BatchId := none
  /-- The batch that arrived behind the executing one. -/
  incoming : Option BatchId := none
  /-- Whether the stream of that batch ended before its first command. -/
  incomingClosed : Bool := false
  deriving DecidableEq, Repr

namespace Fields

/-! ### Transitions -/

/-- A batch header arrives. -/
def start (f : Fields) (batch : BatchId) : Admission × Fields :=
  match f.stage, f.executing with
  | .idle, _ => (.started batch, { stage := .executing, executing := some batch })
  | _, none => (.started batch, { stage := .executing, executing := some batch })
  | _, some b =>
    (.waits b batch,
      { f with stage := .collecting, incoming := some batch, incomingClosed := false })

/-- A command arrives.  Where the fields do not fit its stage, it is dropped. -/
def enqueue (f : Fields) (c : Command) : Decision × Fields :=
  match f.stage, f.executing, f.incoming with
  | .executing, some b, _ => (.accept b, f)
  | .collecting, some b, some i =>
    if c.hasName preemptingName then
      (.preempt b i, { stage := .executing, executing := some i })
    else (.reject (.incomingNotStop i), { f with stage := .ignoring })
  | .ignoring, _, some i => (.reject (.incomingIgnored i), f)
  | stage, _, _ => (.reject (.notAccepting stage), f)

/-- The stream of the last header ends; tells whether that was the stream of the executing batch,
still open. -/
def finish (f : Fields) : Bool × Fields :=
  match f.stage with
  | .executing => (true, { f with stage := .finishCalled })
  | .collecting => (false, { f with incomingClosed := true })
  | _ => (false, f)

/-- The executing batch is over, and one that waits for its first command takes its place. -/
def finalize (f : Fields) : Option BatchId × Fields :=
  match f.stage, f.incoming with
  | .collecting, some i =>
    let stage : Stage := if f.incomingClosed then .finishCalled else .executing
    (some i, { stage, executing := some i })
  | _, _ => (none, {})

/-! ### Fields that fit their stage -/

/-- Which of the fields hold something in which stage. -/
structure Sound (f : Fields) : Prop where
  /-- A batch executes exactly if the stage is not idle. -/
  executing : f.executing.isSome ↔ f.stage ≠ .idle
  /-- A batch is behind it exactly while its first command is awaited, or its commands are
  dropped. -/
  incoming : f.incoming.isSome ↔ f.stage = .collecting ∨ f.stage = .ignoring
  /-- Only the stream of such a batch is marked as ended. -/
  closed : f.incomingClosed = true → f.incoming.isSome

/-- The fields show a lifecycle.  Once the commands of the incoming batch are dropped, it does not
matter whether its stream has ended. -/
def Shows (f : Fields) : Lifecycle → Prop
  | .idle => f = {}
  | .executing b => f = { stage := .executing, executing := some b }
  | .finishCalled b => f = { stage := .finishCalled, executing := some b }
  | .collecting b i closed => f = ⟨.collecting, some b, some i, closed⟩
  | .ignoring b i => ∃ closed, f = ⟨.ignoring, some b, some i, closed⟩

namespace Shows

variable {f : Fields} {l : Lifecycle}

/-- Fields that show a lifecycle fit their stage. -/
lemma sound (h : f.Shows l) : f.Sound := by
  cases l with
  | ignoring b i =>
      obtain ⟨closed, rfl⟩ := h
      exact ⟨by simp, by simp, by simp⟩
  | _ =>
      obtain rfl := h
      exact ⟨by simp, by simp, by simp⟩

lemma executing_eq (h : f.Shows l) : f.executing = l.executing? := by
  cases l with
  | ignoring b i =>
      obtain ⟨closed, rfl⟩ := h
      rfl
  | _ =>
      obtain rfl := h
      rfl

/-! ### Transitions keep in step -/

lemma start (h : f.Shows l) (b : BatchId) :
    (f.start b).1 = (l.start b).1 ∧ (f.start b).2.Shows (l.start b).2 := by
  cases l with
  | ignoring e i =>
      obtain ⟨closed, rfl⟩ := h
      exact ⟨rfl, rfl⟩
  | _ =>
      obtain rfl := h
      exact ⟨rfl, rfl⟩

lemma enqueue (h : f.Shows l) (c : Command) :
    (f.enqueue c).1 = (l.enqueue c).1 ∧ (f.enqueue c).2.Shows (l.enqueue c).2 := by
  cases l with
  | ignoring e i =>
      obtain ⟨closed, rfl⟩ := h
      exact ⟨rfl, closed, rfl⟩
  | collecting e i closed =>
      obtain rfl := h
      simp only [Fields.enqueue, Lifecycle.enqueue]
      split
      · exact ⟨rfl, rfl⟩
      · exact ⟨rfl, closed, rfl⟩
  | _ =>
      obtain rfl := h
      exact ⟨rfl, rfl⟩

lemma finish (h : f.Shows l) : f.finish.1 = l.finish.1 ∧ f.finish.2.Shows l.finish.2 := by
  cases l with
  | ignoring e i =>
      obtain ⟨closed, rfl⟩ := h
      exact ⟨rfl, closed, rfl⟩
  | _ =>
      obtain rfl := h
      exact ⟨rfl, rfl⟩

lemma finalize (h : f.Shows l) :
    f.finalize.1 = l.finalize.1 ∧ f.finalize.2.Shows l.finalize.2 := by
  cases l with
  | ignoring e i =>
      obtain ⟨closed, rfl⟩ := h
      exact ⟨rfl, rfl⟩
  | collecting e i closed =>
      obtain rfl := h
      cases closed <;> exact ⟨rfl, rfl⟩
  | _ =>
      obtain rfl := h
      exact ⟨rfl, rfl⟩

/-- A command is dropped for want of an open batch exactly if none executes, or the stream of the
executing one has ended. -/
lemma enqueue_eq_notAccepting_iff (h : f.Shows l) (c : Command) (s : Stage) :
    (f.enqueue c).1 = .reject (.notAccepting s) ↔
      s = f.stage ∧ (f.stage = .idle ∨ f.stage = .finishCalled) := by
  cases l with
  | ignoring e i =>
      obtain ⟨closed, rfl⟩ := h
      simp [Fields.enqueue]
  | collecting e i closed =>
      obtain rfl := h
      simp only [Fields.enqueue]
      split <;> simp
  | _ =>
      obtain rfl := h
      simp [Fields.enqueue, eq_comm]

end Shows

end Fields

end RoverPilot.Lifecycle
