import Mathlib.Tactic
import RoverPilot.Proofs.Executor.Activation

/-!
Runs seen close up: between the last look at the board before a command and the beginning of the
command, other things may happen.

* `Closeup`, `Closeup.act`, `Closeup.run`: a world whose worker begins a command in two steps;
* `World.exists_closeup_run`: a run is one seen close up in which nothing comes between the two;
* `Closeup.Brings`, `Closeup.brings`: what an action brings, seen close up, one case for each thing;
* `History.Akin`, `Ledger.Feasible`: histories that differ in their order only, and ledgers that
  are reachable but for the order of their histories;
* `Ledger.FoundFit`, `World.launch_feasible`: a command that begins late could as well have begun
  when it was found fit;
* `Closeup.sound_run`: so the ledgers of runs seen close up are feasible.
-/

namespace RoverPilot

open History

variable {M : Machinery}

/-! ### Seen close up -/

/-- A world whose worker looks at a command first and begins it next. -/
structure Closeup (M : Machinery) where
  world : World M
  /-- The handler of the command that was taken, once that is found fit to begin. -/
  fit : Option M.Handler := none

/-- A world seen close up, with no command found fit to begin. -/
def World.closeup (w : World M) : Closeup M := { world := w }

namespace Closeup

/-- The next thing that the worker does: a command that was taken is looked at, and begins only
with the next step. -/
def work (s : Closeup M) : Closeup M :=
  match s.world.worker.phase with
  | .popped b t c =>
    match s.fit with
    | some k => { world := s.world.launch b t c k }
    | none => { world := (s.world.vet t c).2, fit := (s.world.vet t c).1 }
  | _ => { s with world := s.world.work }

/-- What happens, seen close up. -/
def act (s : Closeup M) : Action M → Closeup M
  | .work => s.work
  | a => { s with world := s.world.act a }

/-- A list of actions, seen close up. -/
def run (s : Closeup M) (as : List (Action M)) : Closeup M := as.foldl act s

variable (s : Closeup M)

@[simp] lemma run_nil : s.run [] = s := rfl

@[simp] lemma run_cons (a : Action M) (as : List (Action M)) :
    s.run (a :: as) = (s.act a).run as := rfl

@[simp] lemma run_append (as bs : List (Action M)) :
    s.run (as ++ bs) = (s.run as).run bs := by
  simp [run]

/-- What others do, seen close up. -/
lemma act_of_ne {a : Action M} (ha : a ≠ .work) : s.act a = { s with world := s.world.act a } := by
  cases a <;> first | rfl | exact absurd rfl ha

/-- What an action brings, seen close up. -/
inductive Brings (s : Closeup M) : Action M → Closeup M → Prop
  /-- A command that was found fit begins. -/
  | begins (b : BatchId) (t : Token) (c : Command) (k : M.Handler)
      (hp : s.world.worker.phase = .popped b t c) (hfit : s.fit = some k) :
      Brings s .work { world := s.world.launch b t c k }
  /-- A command that was taken is found fit to begin. -/
  | fits (b : BatchId) (t : Token) (c : Command) (k : M.Handler)
      (hp : s.world.worker.phase = .popped b t c) (hfit : s.fit = none)
      (hr : M.resolve c.name = some k) (he : s.world.board.epoch = s.world.worker.epoch)
      (hc : t ∉ s.world.cancelled) : Brings s .work { s with fit := some k }
  /-- All is as it is seen from afar. -/
  | afar (a : Action M)
      (hwork : a = .work → s.fit = none ∨ ∀ b t c, s.world.worker.phase ≠ .popped b t c) :
      Brings s a { s with world := s.world.act a }

/-- Every action brings one of these things. -/
theorem brings (a : Action M) : s.Brings a (s.act a) := by
  by_cases ha : a = .work
  · subst ha
    rw [act, work]
    cases hp : s.world.worker.phase with
    | popped b t c =>
        have hwork : s.world.act .work = s.world.begin b t c := by rw [World.act, World.work, hp]
        dsimp only
        cases hfit : s.fit with
        | some k => exact .begins b t c k hp hfit
        | none =>
            have hafar : s.Brings .work { world := s.world.begin b t c, fit := none } := by
              rw [← hwork, ← hfit]
              exact .afar .work fun _ => .inl hfit
            rcases s.world.vet_cases t c with ⟨-, hvet⟩ | ⟨k, hr, ⟨-, hvet⟩ | ⟨⟨he, hc⟩, hvet⟩⟩
            · rw [World.begin, hvet] at hafar
              rw [hvet]
              exact hafar
            · rw [World.begin, hvet] at hafar
              rw [hvet]
              exact hafar
            · rw [hvet]
              exact .fits b t c k hp hfit hr he hc
    | _ => exact .afar .work fun _ => .inr (by simp [hp])
  · rw [s.act_of_ne ha]
    exact .afar a fun h => absurd h ha

end Closeup

/-- What happens is the same seen close up, but for a command that begins: it is found fit, and
begins with the worker's next step. -/
lemma World.closeup_act (w : World M) (a : Action M) :
    w.closeup.act a = (w.act a).closeup ∨
      (a = .work ∧ (w.closeup.act .work).act .work = (w.act .work).closeup) := by
  have hbrings := w.closeup.brings a
  generalize hv : w.closeup.act a = v at hbrings
  cases hbrings with
  | begins b t c k hp hfit => cases hfit
  | fits b t c k hp hfit hr he hc =>
      refine .inr ⟨rfl, ?_⟩
      have hpopped : w.worker.phase = .popped b t c := hp
      have hvet : w.vet t c = (some k, w) := by
        rcases w.vet_cases t c with ⟨hnone, -⟩ | ⟨k', hr', ⟨hs, -⟩ | ⟨-, hvet⟩⟩
        · cases hr.symm.trans hnone
        · exact absurd hs (not_or.mpr ⟨not_not.mpr he, hc⟩)
        · cases hr.symm.trans hr'
          exact hvet
      rw [hv]
      simp [Closeup.act, Closeup.work, closeup, World.act, World.work, hpopped, begin, hvet]
  | afar => exact .inl rfl

/-- A run is one seen close up in which every command begins as soon as it is found fit. -/
theorem World.exists_closeup_run (w : World M) (as : List (Action M)) :
    ∃ as', w.closeup.run as' = (w.run as).closeup := by
  induction as generalizing w with
  | nil => exact ⟨[], rfl⟩
  | cons a as ih =>
      obtain ⟨as', has'⟩ := ih (w.act a)
      rcases w.closeup_act a with hact | ⟨rfl, hact⟩
      · exact ⟨a :: as', by rw [Closeup.run_cons, hact, has', run_cons]⟩
      · exact ⟨.work :: .work :: as', by
          rw [Closeup.run_cons, Closeup.run_cons, hact, has', run_cons]⟩

/-! ### Histories in another order -/

/-- Whether an event tells of a call for a command: its beginning or its end. -/
@[simp] def Event.ofCall : Event M → Bool
  | .began _ _ _ => true
  | .ended _ _ _ => true
  | .givenUp _ _ => true
  | _ => false

/-- Whether an event tells how the worker fares with commands. -/
@[simp] def Event.ofWork : Event M → Bool
  | .interrupted _ => true
  | .unresolved _ _ => true
  | .skipped _ _ => true
  | e => e.ofCall

/-- A view of some events is one of those alone. -/
lemma History.view_filter {α : Type} {f : Event M → Option α} {q : Event M → Bool}
    (hf : ∀ e, q e = false → f e = none) (h : List (Event M)) :
    view f (h.filter q) = view f h := by
  rw [view, view, List.filterMap_filter]
  refine List.filterMap_congr fun e _ => ?_
  cases he : q e with
  | true => rfl
  | false => exact (hf e he).symm

/-- What is said of all but calls. -/
lemma History.view_of_others {h k : List (Event M)}
    (hk : h.filter (!·.ofCall) = k.filter (!·.ofCall)) {α : Type} {f : Event M → Option α}
    (hf : ∀ e, e.ofCall = true → f e = none) : view f h = view f k := by
  have hnot (e : Event M) (he : (!e.ofCall) = false) : f e = none := hf e (by simpa using he)
  rw [← view_filter hnot h, ← view_filter hnot k, hk]

/-- Two histories tell the same of how the worker fares with commands, and the same of all but
calls; a call may have another place among what others do. -/
structure History.Akin (h k : List (Event M)) : Prop where
  work : h.filter Event.ofWork = k.filter Event.ofWork
  others : h.filter (!·.ofCall) = k.filter (!·.ofCall)

namespace History.Akin

variable {h h' k k' m : List (Event M)}

lemma refl (h : List (Event M)) : Akin h h := ⟨rfl, rfl⟩

lemma symm (hk : Akin h k) : Akin k h := ⟨hk.work.symm, hk.others.symm⟩

lemma trans (h₁ : Akin h k) (h₂ : Akin k m) : Akin h m :=
  ⟨h₁.work.trans h₂.work, h₁.others.trans h₂.others⟩

lemma append (h₁ : Akin h k) (h₂ : Akin h' k') : Akin (h ++ h') (k ++ k') where
  work := by simp only [List.filter_append, h₁.work, h₂.work]
  others := by simp only [List.filter_append, h₁.others, h₂.others]

/-- Calls change places with what is not the worker's. -/
lemma swap (hk : ∀ e ∈ k, e.ofWork = false) (hm : ∀ e ∈ m, e.ofCall = true) :
    Akin (k ++ m) (m ++ k) := by
  have hkwork : k.filter Event.ofWork = [] :=
    List.filter_eq_nil_iff.mpr fun e he => Bool.eq_false_iff.mp (hk e he)
  have hmothers : m.filter (!·.ofCall) = [] :=
    List.filter_eq_nil_iff.mpr fun e he hnot => by
      simp only [hm e he, Bool.not_true, Bool.false_eq_true] at hnot
  constructor
  · rw [List.filter_append, List.filter_append, hkwork, List.nil_append, List.append_nil]
  · rw [List.filter_append, List.filter_append, hmothers, List.nil_append, List.append_nil]

lemma mem (hk : Akin h k) {e : Event M} (he : e.ofCall = false) (hmem : e ∈ k) : e ∈ h := by
  have hfilter : e ∈ k.filter (!·.ofCall) := List.mem_filter.mpr ⟨hmem, by simp only [he, Bool.not_false]⟩
  rw [← hk.others] at hfilter
  exact (List.mem_filter.mp hfilter).1

/-- What is said of the worker's commands alone is the same. -/
lemma view_of_work (hk : Akin h k) {α : Type} {f : Event M → Option α}
    (hf : ∀ e, e.ofWork = false → f e = none) : view f h = view f k := by
  rw [← view_filter hf h, ← view_filter hf k, hk.work]

lemma begun_eq (hk : Akin h k) (t : Token) : begun t h = begun t k :=
  hk.view_of_work fun e he => by cases e <;> simp_all

lemma trail_eq (hk : Akin h k) (t : Token) : trail t h = trail t k :=
  hk.view_of_work fun e he => by cases e <;> simp_all

lemma accepted_eq (hk : Akin h k) (t : Token) : accepted t h = accepted t k :=
  view_of_others hk.others fun e he => by cases e <;> simp_all

lemma activations_eq (hk : Akin h k) : activations h = activations k :=
  view_of_others hk.others fun e he => by cases e <;> simp_all

lemma reports_eq (hk : Akin h k) : reports h = reports k :=
  view_of_others hk.others fun e he => by cases e <;> simp_all

lemma preempted_eq (hk : Akin h k) : preempted h = preempted k :=
  view_of_others hk.others fun e he => by cases e <;> simp_all

end History.Akin

/-! ### Feasible ledgers -/

namespace Ledger

variable {l l' m : Ledger M} {b : BatchId} {t : Token} {c : Command} {k : M.Handler}

/-- A ledger is reachable but for the places of calls in its history. -/
def Feasible (l : Ledger M) : Prop :=
  ∃ h, Akin l.history h ∧ ({ l with history := h } : Ledger M).Reachable

lemma Reachable.feasible (h : Reachable l) : l.Feasible := ⟨l.history, .refl _, h⟩

/-- No step looks at the history. -/
lemma Step.retell (hs : Step l l') (h : List (Event M)) :
    ∃ new, l'.history = l.history ++ new ∧
      Step { l with history := h } { l' with history := h ++ new } := by
  cases hs with
  | complete b t hp he ha ho hc hq hl =>
      exact ⟨[], (List.append_nil _).symm, by
        rw [List.append_nil]
        exact .complete b t hp he ha ho hc hq hl⟩
  | finish | rouse | notice | rest | exit | pop | park | fail | unpark | goOn | goOnFinishing =>
      exact ⟨[], (List.append_nil _).symm, by
        rw [List.append_nil]
        constructor <;> assumption⟩
  | _ => exact ⟨_, rfl, by constructor <;> assumption⟩

/-- Steps lead from a feasible ledger to feasible ones. -/
lemma Feasible.steps (h : l.Feasible) (hs : Steps l l') : l'.Feasible := by
  induction hs with
  | refl => exact h
  | tail _ hs ih =>
      obtain ⟨g, hakin, hr⟩ := ih
      obtain ⟨new, hnew, hstep⟩ := hs.retell g
      exact ⟨g ++ new, hnew ▸ hakin.append (.refl new), hr.step hstep⟩

section Feasible

variable (h : l.Feasible)

include h

lemma Feasible.signalled : l.board.Signalled := by
  obtain ⟨_, -, hr⟩ := h
  exact hr.signalled

lemma Feasible.token_lt (ht : l.board.token = some t) : t < l.tokens := by
  obtain ⟨_, -, hr⟩ := h
  exact hr.token_lt ht

lemma Feasible.attached_active (he : l.board.epoch = l.worker.epoch)
    (hp : l.worker.phase.attached? = some (t, b)) : l.board.active? = some (t, b) := by
  obtain ⟨_, -, hr⟩ := h
  exact hr.attached_active he hp

lemma Feasible.not_preempted_of_reported {r : Result} (hreport : (t, r) ∈ reports l.history) :
    t ∉ preempted l.history := by
  obtain ⟨_, hakin, hr⟩ := h
  rw [hakin.reports_eq] at hreport
  rw [hakin.preempted_eq]
  exact hr.not_preempted_of_reported hreport

lemma Feasible.closed_of_reported {r : Result} (hreport : (t, r) ∈ reports l.history) :
    t < l.tokens ∧ l.board.token ≠ some t := by
  obtain ⟨_, hakin, hr⟩ := h
  rw [hakin.reports_eq] at hreport
  obtain ⟨hlt, htoken, -⟩ := hr.closed_of_reported hreport
  exact ⟨hlt, htoken⟩

lemma Feasible.accepted_eq_nil (ht : l.tokens ≤ t) : accepted t l.history = [] := by
  obtain ⟨_, hakin, hr⟩ := h
  rw [hakin.accepted_eq]
  exact hr.view_eq_nil (about_accepted? t) ht

end Feasible

/-! ### Aside -/

/-- Others lead from a ledger to another one, whatever the worker is at, and these events tell of
it. -/
structure Aside (l l' : Ledger M) (new : List (Event M)) : Prop where
  worker : l'.worker = l.worker
  others : ∀ e ∈ new, e.ofWork = false
  steps (x : Worker M) (h : List (Event M)) :
    Steps { l with worker := x, history := h } { l' with worker := x, history := h ++ new }

namespace Aside

variable {new new' : List (Event M)}

lemma trans (h : Aside l l' new) (k : Aside l' m new') : Aside l m (new ++ new') where
  worker := k.worker.trans h.worker
  others e he := (List.mem_append.mp he).elim (h.others e) (k.others e)
  steps x g := by
    rw [← List.append_assoc]
    exact (h.steps x g).trans (k.steps x _)

end Aside

/-! ### Late beginnings -/

/-- A command was found fit to begin, and from then on only others have done something. -/
def FoundFit (l : Ledger M) (b : BatchId) (t : Token) (c : Command) (k : M.Handler) : Prop :=
  ∃ (m : Ledger M) (new : List (Event M)), m.Reachable ∧ m.worker.phase = .popped b t c ∧
    M.resolve c.name = some k ∧ m.board.epoch = m.worker.epoch ∧ t ∉ m.cancelled ∧
      Aside m l new ∧ Akin l.history (m.history ++ new)

/-- A command that was taken may be found fit. -/
lemma Feasible.foundFit (h : l.Feasible) (hp : l.worker.phase = .popped b t c)
    (hr : M.resolve c.name = some k) (he : l.board.epoch = l.worker.epoch)
    (hc : t ∉ l.cancelled) : l.FoundFit b t c k := by
  obtain ⟨g, hakin, hreach⟩ := h
  refine ⟨{ l with history := g }, [], hreach, hp, hr, he, hc, ⟨rfl, by simp, fun x h => ?_⟩, ?_⟩
  · rw [List.append_nil]
  · rw [List.append_nil]
    exact hakin

/-- Whatever others do, the command stays found fit. -/
lemma FoundFit.aside {new : List (Event M)} (h : l.FoundFit b t c k) (ha : Aside l l' new)
    (hnew : l'.history = l.history ++ new) : l'.FoundFit b t c k := by
  obtain ⟨m, old, hm, hp, hr, he, hc, haside, hakin⟩ := h
  refine ⟨m, old ++ new, hm, hp, hr, he, hc, haside.trans ha, ?_⟩
  rw [hnew, ← List.append_assoc]
  exact hakin.append (.refl new)

/-- The worker is still at the command. -/
lemma FoundFit.phase_eq (h : l.FoundFit b t c k) : l.worker.phase = .popped b t c := by
  obtain ⟨m, new, -, hp, -, -, -, haside, -⟩ := h
  rw [haside.worker, hp]

/-- A call that comes late could as well have come when the command was found fit: what others
did meanwhile comes after it. -/
lemma FoundFit.late (h : l.FoundFit b t c k) {x : Worker M} {g : List (Event M)}
    (hg : ∀ e ∈ g, e.ofCall = true)
    (hstep : ∀ m : Ledger M, m.worker.phase = .popped b t c → M.resolve c.name = some k →
      m.board.epoch = m.worker.epoch → t ∉ m.cancelled → m.worker = l.worker →
        Step m { m with worker := x, history := m.history ++ g }) :
    ({ l with worker := x, history := l.history ++ g } : Ledger M).Feasible := by
  obtain ⟨m, new, hm, hp, hr, he, hc, haside, hakin⟩ := h
  have hbegun := hm.step (hstep m hp hr he hc haside.worker.symm)
  refine ⟨m.history ++ g ++ new, ?_, hbegun.steps (haside.steps x _)⟩
  refine (hakin.append (.refl g)).trans ?_
  rw [List.append_assoc, List.append_assoc]
  exact (Akin.refl m.history).append (.swap haside.others hg)

end Ledger

namespace World

variable (w : World M)

/-- What others do depends neither on the worker nor on the journal. -/
lemma act_swap {a : Action M} (ha : a ≠ .work) (x : Worker M) (j : Log (Event M)) :
    ({ w with worker := x, journal := j } : World M).act a =
      { w.act a with
        worker := x
        journal := (({ w with journal := [] } : World M).act a).journal ++ j } := by
  obtain ⟨now, ⟨lifecycle, queue, token, epoch, closing⟩, worker, wake, tokens, cancelled, plant,
    channel, reportTimeout, journal⟩ := w
  cases a with
  | call c =>
      cases closing with
      | true => rfl
      | false =>
          cases c with
          | start b => cases lifecycle <;> rfl
          | enqueue c =>
              cases lifecycle with
              | executing => cases token <;> rfl
              | collecting e i k =>
                  cases hc : c.hasName preemptingName <;> cases token <;>
                    simp [act, update, enqueue, Lifecycle.enqueue, hc, preempt, halt, activate,
                      note, cancel]
              | _ => rfl
          | finish => rfl
  | stop => cases token <;> rfl
  | work => exact absurd rfl ha
  | _ => rfl

/-- What others do tells nothing of how the worker fares. -/
lemma ofWork_act {a : Action M} (ha : a ≠ .work) :
    ∀ e ∈ (({ w with journal := [] } : World M).act a).journal, e.2.ofWork = false := by
  cases a with
  | call c =>
      cases hc : w.board.closing with
      | true => simp [act, hc]
      | false =>
          cases c with
          | start b =>
              cases hl : w.board.lifecycle <;>
                simp [act, hc, update, start, Lifecycle.start, hl, Lifecycle.executing?, note,
                  activate]
          | enqueue c =>
              cases hl : w.board.lifecycle with
              | executing =>
                  cases ht : w.board.token <;>
                    simp [act, hc, update, enqueue, Lifecycle.enqueue, hl, ht, note]
              | collecting e i k =>
                  cases hn : c.hasName preemptingName <;> cases ht : w.board.token <;>
                    simp [act, hc, update, enqueue, Lifecycle.enqueue, hl, hn, ht, preempt, halt,
                      activate, note, cancel]
              | _ => simp [act, hc, update, enqueue, Lifecycle.enqueue, hl, note]
          | finish => simp [act, hc, update, finishStream]
  | stop => cases ht : w.board.token <;> simp [act, stopUpdate, halt, note, cancel, ht]
  | close => simp [act, closeUpdate, finishStream, note]
  | work => exact absurd rfl ha
  | _ => simp [act, rouse, background, passTo]

/-- So others are aside. -/
lemma aside_act (hs : w.board.Signalled) {a : Action M} (ha : a ≠ .work) :
    ∃ new, (w.act a).history = w.history ++ new ∧
      Ledger.Aside w.ledger (w.act a).ledger new := by
  have hswap := w.act_swap ha
  set j := (({ w with journal := [] } : World M).act a).journal
  have hself : w.act a = { w.act a with worker := w.worker, journal := j ++ w.journal } :=
    hswap w.worker w.journal
  have hworker : (w.act a).worker = w.worker := (congrArg World.worker hself).trans rfl
  refine ⟨j.reverse.map Prod.snd, ?_, hworker, fun e he => ?_, fun x h => ?_⟩
  · have hjournal : (w.act a).journal = j ++ w.journal := congrArg World.journal hself
    simp [history, hjournal]
  · obtain ⟨entry, hentry, rfl⟩ := List.mem_map.mp he
    exact w.ofWork_act ha entry (List.mem_reverse.mp hentry)
  · -- a world with that worker and that history takes the same step
    have hsteps := ({ w with worker := x, journal := (h.map (0, ·)).reverse } : World M).steps_act a
      hs
    rw [hswap] at hsteps
    simpa [ledger, history, Function.comp_def] using hsteps

/-- A command that begins is executed by its handler, with no signal handed out or given. -/
lemma launch_spec (b : BatchId) (t : Token) (c : Command) (k : M.Handler) :
    (w.launch b t c k).plant = (M.execute k c.args (w.moment t) w.plant).1 ∧
      (w.launch b t c k).tokens = w.tokens ∧ (w.launch b t c k).cancelled = w.cancelled := by
  rw [launch, afterLook]
  change _ = (M.execute k c.args ((w.remember t c k).moment t) (w.remember t c k).plant).1 ∧ _
  obtain ⟨p, a | e⟩ := M.execute k c.args _ _
  · simp only
    split <;> exact ⟨rfl, rfl, rfl⟩
  · exact ⟨rfl, rfl, rfl⟩

/-- A command that begins is noted as begun, and at most its end after it. -/
lemma history_launch (b : BatchId) (t : Token) (c : Command) (k : M.Handler) :
    ∃ rest, (w.launch b t c k).history = w.history ++ .began t c k :: rest ∧
      ∀ e ∈ rest, ∀ u, e.begun? u = none := by
  rw [launch, afterLook]
  obtain ⟨p, a | e⟩ := M.execute k c.args _ _
  · simp only
    split
    · exact ⟨[.givenUp t c], by simp [history, note, remember, conclude], by simp⟩
    · exact ⟨[], by simp [history, note, remember, afterCall, enter], by simp⟩
  · exact ⟨[.ended t c e], by simp [history, note, remember, afterCall, conclude], by simp⟩

/-- A command that begins late could as well have begun when it was found fit. -/
lemma launch_feasible {b : BatchId} {t : Token} {c : Command} {k : M.Handler}
    (h : w.ledger.FoundFit b t c k) : (w.launch b t c k).ledger.Feasible := by
  rw [launch, afterLook]
  obtain ⟨p, a | e⟩ := M.execute k c.args _ _
  · have hgoing := h.late (x := { w.worker with
        phase := .running b t c a, started := w.worker.started ++ [k] })
      (g := [.began t c k]) (by simp)
      fun m hp hr he hc hw => (Ledger.Step.begin b t c k a hp hr he hc).congr (by rw [hw]; rfl)
    simp only
    split
    · rename_i hc
      have hover := hgoing.steps (.single (.giveUp b t c a rfl ((w.isCancelled_iff t).mp hc)))
      simpa [ledger, history, remember, note, conclude] using hover
    · simpa [ledger, history, remember, note, afterCall, enter] using hgoing
  · have hover := h.late (x := { w.worker with
        phase := .looking, started := w.worker.started ++ [k], outcome := e.outcome })
      (g := [.began t c k, .ended t c e]) (by simp)
      fun m hp hr he hc hw => (Ledger.Step.doAtOnce b t c k e hp hr he hc).congr (by rw [hw]; rfl)
    simpa [ledger, history, remember, note, afterCall, conclude] using hover

end World

/-! ### All runs -/

namespace Closeup

variable {s : Closeup M}

/-- The ledger is feasible, and a command that is found fit to begin was found so. -/
structure Sound (s : Closeup M) : Prop where
  feasible : s.world.ledger.Feasible
  fit : ∀ k ∈ s.fit, ∃ b t c, s.world.ledger.FoundFit b t c k

lemma sound_closeup {w : World M} (hw : w.ledger.Reachable) : w.closeup.Sound where
  feasible := hw.feasible
  fit k hk := by cases hk

lemma Sound.act (h : s.Sound) (a : Action M) : (s.act a).Sound := by
  have hbrings := s.brings a
  generalize s.act a = v at hbrings ⊢
  cases hbrings with
  | begins b t c k hp hfit =>
      obtain ⟨b', t', c', hfound⟩ := h.fit k hfit
      cases hp.symm.trans hfound.phase_eq
      exact ⟨s.world.launch_feasible hfound, fun k hk => by cases hk⟩
  | fits b t c k hp hfit hr he hc =>
      refine ⟨h.feasible, fun k' hk => ?_⟩
      cases hk
      exact ⟨b, t, c, h.feasible.foundFit hp hr he hc⟩
  | afar _ hwork =>
      have hsteps := s.world.steps_act a h.feasible.signalled
      refine ⟨h.feasible.steps hsteps, fun k hk => ?_⟩
      obtain ⟨b, t, c, hfound⟩ := h.fit k hk
      by_cases ha : a = .work
      · rcases hwork ha with hnone | hnot
        · cases hnone.symm.trans hk
        · exact absurd hfound.phase_eq (hnot b t c)
      · obtain ⟨new, hnew, haside⟩ := s.world.aside_act h.feasible.signalled ha
        exact ⟨b, t, c, hfound.aside haside hnew⟩

lemma Sound.run (h : s.Sound) (as : List (Action M)) : (s.run as).Sound := by
  induction as generalizing s with
  | nil => exact h
  | cons a as ih => exact ih (h.act a)

/-- Histories only grow. -/
lemma Sound.history_isPrefix_act (h : s.Sound) (a : Action M) :
    s.world.history <+: (s.act a).world.history := by
  have hbrings := s.brings a
  generalize s.act a = v at hbrings ⊢
  cases hbrings with
  | begins b t c k =>
      obtain ⟨rest, hrest, -⟩ := s.world.history_launch b t c k
      exact hrest ▸ List.prefix_append _ _
  | fits => exact List.prefix_refl _
  | afar => exact (s.world.steps_act a h.feasible.signalled).history_isPrefix

lemma Sound.history_isPrefix (h : s.Sound) (as : List (Action M)) :
    s.world.history <+: (s.run as).world.history := by
  induction as generalizing s with
  | nil => exact List.prefix_refl _
  | cons a as ih => exact (h.history_isPrefix_act a).trans (ih (h.act a))

/-- The ledgers of runs seen close up are feasible. -/
theorem sound_run (p : M.Plant) (ch : Channel) (d : Nat) (as : List (Action M)) :
    ((World.fresh p ch d).closeup.run as).Sound :=
  (sound_closeup (World.reachable_run p ch d [])).run as

end Closeup

end RoverPilot
