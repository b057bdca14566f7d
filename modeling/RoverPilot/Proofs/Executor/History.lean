import Mathlib.Tactic
import RoverPilot.Executor.World

/-!
What a history of events says of each activation.

* `History.activations`, `History.retired`, `History.reports`: the activations that began, those
  that are over by preemption or report, and the reports, in order;
* `History.accepted`, `History.begun`: the commands accepted into an activation, and those begun
  under it;
* `History.trail`: how each command of an activation ended, and whether the batch was found
  interrupted between its commands;
* `History.inProgress`: the calls of handlers that have begun and not ended;
* `History.Always`: what holds of each event and those before it.

A history lists events, the oldest first.
-/

namespace RoverPilot

variable {M : Machinery}

namespace Event

/-- The batch whose header arrives. -/
@[simp] def header? : Event M → Option BatchId
  | .announced b => some b
  | _ => none

/-- The activation that begins. -/
@[simp] def activation? : Event M → Option (Token × BatchId)
  | .activated t b => some (t, b)
  | _ => none

/-- The activation that is over. -/
@[simp] def retired? : Event M → Option Token
  | .preempted t _ => some t
  | .reported t _ => some t
  | _ => none

/-- The activation that is preempted. -/
@[simp] def preempted? : Event M → Option Token
  | .preempted t _ => some t
  | _ => none

/-- The report that is made. -/
@[simp] def report? : Event M → Option (Token × Result)
  | .reported t r => some (t, r)
  | _ => none

/-- The command accepted into an activation. -/
@[simp] def accepted? (t : Token) : Event M → Option Command
  | .accepted u c => if u = t then some c else none
  | _ => none

/-- The command begun under an activation. -/
@[simp] def begun? (t : Token) : Event M → Option Command
  | .began u c _ => if u = t then some c else none
  | _ => none

/-- What an event says of how an activation goes: the outcome of a command, or that the
batch was found interrupted between two commands. -/
@[simp] def finding? (t : Token) : Event M → Option (Option Command × Outcome)
  | .ended u c e => if u = t then some (some c, e.outcome) else none
  | .givenUp u c => if u = t then some (some c, .interrupted) else none
  | .unresolved u c => if u = t then some (some c, .parseError) else none
  | .skipped u c => if u = t then some (some c, .interrupted) else none
  | .interrupted u => if u = t then some (none, .interrupted) else none
  | _ => none

/-- The command that arrives. -/
@[simp] def command? : Event M → Option Command
  | .accepted _ c => some c
  | .dropped c _ => some c
  | .preempted _ c => some c
  | _ => none

/-- The calls in progress after an event: the begin of a call adds it, its end takes it away.
A call that lets a handler finish has no command. -/
@[simp] def progress (calls : List (Token × Option Command)) :
    Event M → List (Token × Option Command)
  | .began t c _ => (t, some c) :: calls
  | .ended t c _ => calls.erase (t, some c)
  | .givenUp t c => calls.erase (t, some c)
  | .finishBegan t _ => (t, none) :: calls
  | .finishEnded t _ => calls.erase (t, none)
  | _ => calls

/-- The activation that an event is about.  What becomes of a report on its way to the model
is not about the activation any more. -/
@[simp] def token? : Event M → Option Token
  | .activated t _ => some t
  | .accepted t _ => some t
  | .preempted t _ => some t
  | .interrupted t => some t
  | .unresolved t _ => some t
  | .skipped t _ => some t
  | .began t _ _ => some t
  | .ended t _ _ => some t
  | .givenUp t _ => some t
  | .finishBegan t _ => some t
  | .finishEnded t _ => some t
  | .discarded t => some t
  | .reported t _ => some t
  | _ => none

end Event

namespace History

/-! ### Views -/

/-- What the events of a history say one after another. -/
def view {α : Type} (f : Event M → Option α) (h : List (Event M)) : List α := h.filterMap f

section View

variable {α : Type} (f : Event M → Option α) (e : Event M) (h k : List (Event M))

@[simp] lemma view_nil : view f [] = [] := rfl

@[simp] lemma view_append : view f (h ++ k) = view f h ++ view f k := List.filterMap_append

@[simp] lemma view_cons : view f (e :: h) = (f e).toList ++ view f h := by
  rw [view, List.filterMap_cons]
  cases f e <;> rfl

variable {f e h}

/-- An event of which a view says nothing. -/
lemma view_concat (he : f e = none) : view f (h ++ [e]) = view f h := by
  rw [view_append, view_cons, he]
  exact List.append_nil _

lemma mem_view {a : α} : a ∈ view f h ↔ ∃ e ∈ h, f e = some a := List.mem_filterMap

end View

/-- The batches whose headers arrived, in order. -/
abbrev headers (h : List (Event M)) : List BatchId := view Event.header? h

/-- The activations, in order. -/
abbrev activations (h : List (Event M)) : List (Token × BatchId) := view Event.activation? h

/-- The activations that are over, in the order of their ends. -/
abbrev retired (h : List (Event M)) : List Token := view Event.retired? h

/-- The activations that are preempted, in order. -/
abbrev preempted (h : List (Event M)) : List Token := view Event.preempted? h

/-- The reports, in order. -/
abbrev reports (h : List (Event M)) : List (Token × Result) := view Event.report? h

/-- The commands accepted into an activation, in order. -/
abbrev accepted (t : Token) (h : List (Event M)) : List Command := view (Event.accepted? t) h

/-- The commands begun under an activation, in order. -/
abbrev begun (t : Token) (h : List (Event M)) : List Command := view (Event.begun? t) h

/-- How an activation went: the outcomes of its commands, in order, and the discoveries that
it was interrupted between two of them. -/
abbrev trail (t : Token) (h : List (Event M)) : List (Option Command × Outcome) :=
  view (Event.finding? t) h

/-- The commands that arrive, in order. -/
abbrev commands (h : List (Event M)) : List Command := view Event.command? h

/-- The calls of handlers that have begun and not ended. -/
abbrev inProgress (h : List (Event M)) : List (Token × Option Command) :=
  h.foldl Event.progress []

/-- An activation that is over was preempted or reported. -/
lemma mem_retired_iff {t : Token} {h : List (Event M)} :
    t ∈ retired h ↔ t ∈ preempted h ∨ ∃ r, (t, r) ∈ reports h := by
  induction h with
  | nil => simp
  | cons e h ih => cases e <;> simp [ih, or_assoc, or_left_comm, exists_or]

/-- An activation executes: it has begun and is not over. -/
def Executing (t : Token) (h : List (Event M)) : Prop :=
  (∃ b, (t, b) ∈ activations h) ∧ t ∉ retired h

/-! ### Events in their order -/

/-- What holds of each event of a history and those before it. -/
def Always (P : List (Event M) → Event M → Prop) (h : List (Event M)) : Prop :=
  ∀ pre e, pre ++ [e] <+: h → P pre e

section Always

variable {P : List (Event M) → Event M → Prop} {e e' : Event M} {h : List (Event M)}

@[simp] lemma always_nil : Always P [] := by simp [Always]

@[simp] lemma always_append_singleton : Always P (h ++ [e]) ↔ Always P h ∧ P h e := by
  simp only [Always, List.prefix_concat_iff]
  constructor
  · exact fun ha => ⟨fun pre e' hpre => ha pre e' (.inr hpre), ha h e (.inl rfl)⟩
  · rintro ⟨ha, he⟩ pre e' (heq | hpre)
    · obtain ⟨rfl, hlast⟩ := List.append_inj' heq rfl
      cases hlast
      exact he
    · exact ha pre e' hpre

@[simp] lemma always_append_pair :
    Always P (h ++ [e, e']) ↔ Always P h ∧ P h e ∧ P (h ++ [e]) e' := by
  rw [List.append_cons, always_append_singleton, always_append_singleton, and_assoc]

/-- What holds at first and after each event holds of all first parts of a history. -/
lemma Always.of_isPrefix {Q : List (Event M) → Prop} (ha : Always (fun pre e => Q (pre ++ [e])) h)
    (hnil : Q []) {pre : List (Event M)} (hpre : pre <+: h) : Q pre := by
  rcases List.eq_nil_or_concat' pre with rfl | ⟨pre, e, rfl⟩
  · exact hnil
  · exact ha pre e hpre

end Always

end History

end RoverPilot
