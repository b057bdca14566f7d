import Mathlib.Tactic
import RoverPilot.Proofs.Executor.Cancellation
import RoverPilot.Proofs.Executor.Closeup
import RoverPilot.Proofs.Executor.Standing

/-!
What a report says.

* `Event.Finds`, `History.Told`: what events find of an activation, one case for each way in which
  a command may end;
* `Outcome.Means`: the status and the reason that an outcome stands for, one by one;
* `History.firstBad`: the first outcome of an activation that is not good;
* `Account`, `Ledger.Reachable.account`: a report is the verdict of that outcome, and tells
  whether all commands were carried out;
* `Closeup.run_accurate`: so it is after every run, seen close up.
-/

namespace RoverPilot

open History

variable {M : Machinery}

/-! ### What events find -/

/-- What an event finds of an activation: how a command of it went, or that it was interrupted
between two of them. -/
inductive Event.Finds (t : Token) : Event M → Option Command → Outcome → Prop
  /-- What a handler returns counts as it is. -/
  | returned (c : Command) (o : Outcome) : Finds t (.ended t c (.returned o)) (some c) o
  /-- A command that its handler does not know is an error of the model. -/
  | unknown (c : Command) (name : String) :
      Finds t (.ended t c (.raised (.unknownCommand name))) (some c) .parseError
  /-- So is one with too few arguments. -/
  | miscounted (c : Command) (name : String) (expected got : Nat) :
      Finds t (.ended t c (.raised (.argumentCount name expected got))) (some c) .parseError
  /-- So is one with an argument that cannot be understood. -/
  | misread (c : Command) (name : String) (index : Nat) (value : String) :
      Finds t (.ended t c (.raised (.invalidArgument name index value))) (some c) .parseError
  /-- What fails in the body or in the voice is a failure of the robot. -/
  | failed (c : Command) (cause : Cause) :
      Finds t (.ended t c (.raised (.actuator cause))) (some c) .failed
  /-- So is a handler that breaks. -/
  | broke (c : Command) : Finds t (.ended t c .panicked) (some c) .failed
  /-- The signal was given while the command was at work. -/
  | givenUp (c : Command) : Finds t (.givenUp t c) (some c) .interrupted
  /-- A command without a handler is an error of the model. -/
  | unresolved (c : Command) : Finds t (.unresolved t c) (some c) .parseError
  /-- The batch was interrupted before the command began. -/
  | skipped (c : Command) : Finds t (.skipped t c) (some c) .interrupted
  /-- The batch was interrupted before the next command was taken. -/
  | interrupted : Finds t (.interrupted t) none .interrupted

/-- What the events of a history find of an activation, in order. -/
inductive History.Told (t : Token) : List (Event M) → List (Option Command × Outcome) → Prop
  | nil : Told t [] []
  | found {e : Event M} {c? : Option Command} {o : Outcome} {h : List (Event M)}
      {tr : List (Option Command × Outcome)} (he : e.Finds t c? o) (hh : Told t h tr) :
      Told t (e :: h) ((c?, o) :: tr)
  | silent {e : Event M} {h : List (Event M)} {tr : List (Option Command × Outcome)}
      (he : ∀ c? o, ¬ e.Finds t c? o) (hh : Told t h tr) : Told t (e :: h) tr

section Told

variable {t : Token}

lemma Event.finds_of_ended (c : Command) (e : Ending) :
    (Event.ended (M := M) t c e).Finds t (some c) e.outcome := by
  cases e with
  | returned o => exact .returned c o
  | raised f =>
      cases f with
      | unknownCommand name => exact .unknown c name
      | argumentCount name expected got => exact .miscounted c name expected got
      | invalidArgument name index value => exact .misread c name index value
      | actuator cause => exact .failed c cause
  | panicked => exact .broke c

lemma Event.finds_iff {e : Event M} {c? : Option Command} {o : Outcome} :
    e.Finds t c? o ↔ e.finding? t = some (c?, o) := by
  constructor
  · intro h
    cases h <;> simp [Ending.outcome, Fault.outcome]
  · intro h
    cases e <;> simp only [finding?, Option.ite_none_right_eq_some, Option.some.injEq,
      Prod.mk.injEq, reduceCtorEq] at h <;> obtain ⟨rfl, rfl, rfl⟩ := h
    · exact .interrupted
    · exact .unresolved _
    · exact .skipped _
    · exact finds_of_ended _ _
    · exact .givenUp _

/-- The trail of an activation is what the events find of it. -/
lemma History.told_trail (h : List (Event M)) : Told t h (trail t h) := by
  induction h with
  | nil => exact .nil
  | cons e h ih =>
      rw [trail, view_cons]
      cases he : e.finding? t with
      | none =>
          refine .silent (fun c? o hfinds => ?_) ih
          rw [Event.finds_iff, he] at hfinds
          cases hfinds
      | some f => exact .found (Event.finds_iff.mpr he) ih

end Told

/-! ### Verdicts -/

/-- The status and the reason that an outcome stands for. -/
inductive Outcome.Means : Outcome → Status → Reason → Prop
  | ok : Means .ok .ok .none
  | obstacle : Means .obstacle .interrupted .obstacle
  | userStop : Means .userStop .interrupted .userStop
  | interrupted : Means .interrupted .interrupted .userStop
  | safety : Means .safety .failed .safety
  | parseError : Means .parseError .failed .parseError
  | failed : Means .failed .failed .internalError

lemma Outcome.means_verdict (o : Outcome) : o.Means o.verdict.1 o.verdict.2 := by
  cases o <;> constructor

/-! ### The first bad outcome -/

/-- The first outcome that is not good; without one all is well. -/
def History.firstBad (trail : List (Option Command × Outcome)) : Outcome :=
  ((trail.map Prod.snd).find? (!·.isOk)).getD .ok

/-- How an activation went that is over, by the last outcome that the worker remembers. -/
inductive Account (o : Outcome) (trail : List (Option Command × Outcome))
    (begun accepted : List Command) : Prop where
  /-- All commands that were accepted were carried out, and went well. -/
  | well (ho : o = .ok) (htrail : trail = accepted.map fun c => (some c, .ok))
      (hbegun : begun = accepted)
  /-- Something went wrong, at a command or between two, and nothing was taken after it. -/
  | badly (done : List Command) (c? : Option Command) (ho : o ≠ .ok)
      (htrail : trail = (done.map fun c => (some c, .ok)) ++ [(c?, o)])
      (hbegun : begun <+: done ++ c?.toList)
      (haccepted : done ++ c?.toList <+: accepted)

section Account

variable {o : Outcome} {q : List Command} {acc : Bool} {tr : List (Option Command × Outcome)}
  {bg ac : List Command}

/-- An activation whose handlers are to finish is accounted for. -/
lemma Standing.account (h : Standing o .finishing q acc tr bg ac) : Account o tr bg ac := by
  cases h with
  | good done ho htrail hbegun haccepted hfinish =>
      obtain rfl : ac = done := by simpa [(hfinish rfl).1] using haccepted
      exact .well ho htrail (by simpa using hbegun)
  | bad done c? ho htrail hbegun haccepted hcommand =>
      exact .badly done c? ho htrail hbegun haccepted

/-- The outcome that the worker remembers is the first bad one. -/
lemma Account.firstBad_eq (h : Account o tr bg ac) : firstBad tr = o := by
  cases h with
  | well ho htrail hbegun => simp [firstBad, htrail, ho, Function.comp_def, Outcome.isOk]
  | badly done c? ho htrail hbegun haccepted =>
      simp [firstBad, htrail, Function.comp_def, Outcome.isOk, ho]

end Account

lemma Outcome.verdict_ne_ignored (o : Outcome) : o.verdict.1 ≠ .ignored := by
  cases o <;> simp [verdict]

lemma Outcome.verdict_eq_ok_iff {o : Outcome} : o.verdict.1 = .ok ↔ o = .ok := by
  cases o <;> simp [verdict]

namespace Ledger

variable {l l' : Ledger M} {t : Token} {b : BatchId}

/-! ### Reports -/

/-- A report accounts for its activation, and for nothing else. -/
lemma Reachable.account (h : Reachable l) {r : Result} (hr : (t, r) ∈ reports l.history) :
    ∃ b o, (t, b) ∈ activations l.history ∧ r = .ofOutcome b o ∧
      Account o (trail t l.history) (begun t l.history) (accepted t l.history) := by
  induction h with
  | initial => cases hr
  | step hl hs ih =>
      rename_i l l'
      have hold (hr : (t, r) ∈ reports l.history) : ∃ b o, (t, b) ∈ activations l'.history ∧
          r = .ofOutcome b o ∧
          Account o (trail t l'.history) (begun t l'.history) (accepted t l'.history) := by
        obtain ⟨b, o, hb, ho, hacc⟩ := ih hr
        obtain ⟨new, hnew, -⟩ := hs.concerns
        refine ⟨b, o, by simp [hnew, hb], ho, ?_⟩
        rwa [trail, begun, accepted, hs.view_of_reported hl (about_finding? t) hr,
          hs.view_of_reported hl (about_begun? t) hr, hs.view_of_reported hl (about_accepted? t) hr]
      cases hs with
      | retire b u d hp he | promote b u d e i closed hp he =>
          have ha := hl.attached_active he (t := u) (b := b) (by rw [hp]; rfl)
          have hstands := (stands_iff he).mp (hl.stands (Board.active?_eq_some_iff.mp ha).1)
          rw [hp] at hstands
          simp only [view_append, view_cons, List.mem_append] at hr
          rcases hr with hr | hr
          · exact hold hr
          · obtain ⟨rfl, rfl⟩ : t = u ∧ r = .ofOutcome b l.worker.outcome := by simpa using hr
            exact ⟨b, l.worker.outcome, by simp [hl.active_mem ha], rfl,
              by simpa using hstands.account⟩
      | _ => exact hold (by simpa using hr)

/-- Only a command whose name has no handler is said to have none. -/
lemma Reachable.resolve_of_unresolved (h : Reachable l) {c : Command}
    (hmem : .unresolved t c ∈ l.history) : M.resolve c.name = none := by
  induction h with
  | initial => cases hmem
  | step _ hs ih =>
      cases hs with
      | unresolved b u c' hp hr =>
          rcases List.mem_append.mp hmem with hmem | hmem
          · exact ih hmem
          · cases List.mem_singleton.mp hmem
            exact hr
      | _ => exact ih (by simpa using hmem)

end Ledger

/-! ### Late beginnings -/

section Akin

variable {h k : List (Event M)} {t : Token}

lemma History.Executing.of_others (hk : h.filter (!·.ofCall) = k.filter (!·.ofCall))
    (hexec : Executing t h) : Executing t k := by
  have hactivations : activations h = activations k :=
    view_of_others hk fun e he => by cases e <;> simp_all
  have hretired : retired h = retired k := view_of_others hk fun e he => by cases e <;> simp_all
  rwa [Executing, ← hactivations, ← hretired]

/-- A stop comes at the same moment of an activation, wherever calls have their places. -/
lemma History.Akin.stoppedUnder (hk : Akin h k) (hs : StoppedUnder t h) : StoppedUnder t k := by
  obtain ⟨pre, ⟨post, rfl⟩, hexec⟩ := hs
  have hothers := hk.others.symm
  rw [List.append_assoc, List.filter_append, List.filter_eq_append_iff] at hothers
  obtain ⟨k₁, k₂, rfl, hpre, hpost⟩ := hothers
  obtain ⟨l₁, l₂, rfl, hnone, -, -⟩ := List.filter_eq_cons_iff.mp hpost
  have hl₁ : l₁.filter (!·.ofCall) = [] := List.filter_eq_nil_iff.mpr hnone
  refine ⟨k₁ ++ l₁, ⟨l₂, by simp⟩, hexec.of_others ?_⟩
  rw [List.filter_append, hpre, hl₁, List.append_nil]

end Akin

namespace Ledger.Feasible

variable {l : Ledger M} {t : Token}

lemma account (h : l.Feasible) {r : Result} (hr : (t, r) ∈ reports l.history) :
    ∃ b o, (t, b) ∈ activations l.history ∧ r = .ofOutcome b o ∧
      Account o (trail t l.history) (begun t l.history) (accepted t l.history) := by
  obtain ⟨g, hakin, hreach⟩ := h
  rw [hakin.reports_eq] at hr
  rw [hakin.activations_eq, hakin.trail_eq, hakin.begun_eq, hakin.accepted_eq]
  exact hreach.account hr

lemma stopped_of_interruption (h : l.Feasible) (ht : t ∈ interruptions l.history) :
    t ∈ preempted l.history ∨ StoppedUnder t l.history := by
  obtain ⟨g, hakin, hreach⟩ := h
  have hinterruptions : interruptions l.history = interruptions g :=
    hakin.view_of_work fun e he => by cases e <;> simp_all
  rw [hinterruptions] at ht
  rw [hakin.preempted_eq]
  exact (hreach.stopped_of_interruption ht).imp_right hakin.symm.stoppedUnder

lemma resolve_of_unresolved (h : l.Feasible) {c : Command} (hmem : .unresolved t c ∈ l.history) :
    M.resolve c.name = none := by
  obtain ⟨g, hakin, hreach⟩ := h
  exact hreach.resolve_of_unresolved (hakin.symm.mem rfl hmem)

lemma exited (h : l.Feasible) (hp : l.worker.phase = .exited) :
    l.board.lifecycle = .idle ∧ .closed ∈ l.history := by
  obtain ⟨g, hakin, hreach⟩ := h
  obtain ⟨hidle, hclosed⟩ := hreach.exited hp
  exact ⟨hidle, hakin.mem rfl hclosed⟩

end Ledger.Feasible

/-- A report is the verdict of the first bad outcome of its own activation, whatever the
handlers do and in whatever order control calls and the worker take their turns, also if a call
comes after the last look at the board before a command and before its beginning.  It says that
all is well only if every command that was accepted was carried out and went well; otherwise
that outcome is the last thing that was found, at the last command that was taken or after it.
A reported activation is found interrupted only if the operator stopped the robot under it, and
no batch is reported as ignored.  Only commands whose names have no handler are found without
one.  The worker ends only after a shutdown, with nothing left to do. -/
theorem Closeup.run_accurate (p : M.Plant) (ch : Channel) (d : Nat) (as : List (Action M)) :
    let w := ((World.fresh p ch d).closeup.run as).world
    let h := w.history
    (∀ t r, (t, r) ∈ reports h →
      ∃ b tr, (t, b) ∈ activations h ∧ Told t h tr ∧ r = .ofOutcome b (firstBad tr) ∧
        r.id = b ∧ (firstBad tr).Means r.status r.reason ∧
        (r.status = .ok → begun t h = accepted t h ∧
          tr = (accepted t h).map fun c => (some c, .ok)) ∧
        (r.status ≠ .ok → ∃ done c?,
          tr = (done.map fun c => (some c, .ok)) ++ [(c?, firstBad tr)] ∧
            begun t h <+: done ++ c?.toList ∧ done ++ c?.toList <+: accepted t h) ∧
        (t ∈ interruptions h → StoppedUnder t h) ∧ r.status ≠ .ignored) ∧
      (∀ t c, .unresolved t c ∈ h → M.resolve c.name = none) ∧
      (w.worker.phase = .exited → .closed ∈ h ∧ w.board.lifecycle = .idle) := by
  intro w h
  have hr : w.ledger.Feasible := (sound_run p ch d as).feasible
  refine ⟨fun t r hreport => ?_, fun t c => hr.resolve_of_unresolved,
    fun hp => (hr.exited hp).symm⟩
  obtain ⟨b, o, hb, rfl, hacc⟩ := hr.account hreport
  have ho : firstBad (trail t h) = o := hacc.firstBad_eq
  have hstopped (ht : t ∈ interruptions h) : StoppedUnder t h :=
    (hr.stopped_of_interruption ht).resolve_left (hr.not_preempted_of_reported hreport)
  refine ⟨b, trail t h, hb, told_trail h, by rw [ho], rfl, by rw [ho]; exact o.means_verdict,
    fun hok => ?_, fun hbad => ?_, hstopped, o.verdict_ne_ignored⟩
  · cases hacc with
    | well _ htrail hbegun => exact ⟨hbegun, htrail⟩
    | badly _ _ hne => exact absurd (Outcome.verdict_eq_ok_iff.mp hok) hne
  · cases hacc with
    | well heq => exact absurd (Outcome.verdict_eq_ok_iff.mpr heq) hbad
    | badly done c? _ htrail hbegun haccepted =>
        exact ⟨done, c?, by rw [ho]; exact htrail, hbegun, haccepted⟩

end RoverPilot
