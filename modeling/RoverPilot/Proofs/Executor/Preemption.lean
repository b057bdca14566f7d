import Mathlib.Tactic
import RoverPilot.Proofs.Executor.Intake
import RoverPilot.Proofs.Executor.Separation
import RoverPilot.Proofs.Executor.Stop

/-!
A waiting batch takes the place of the executing one.

* `World.TakenOver`, `World.takenOver_act`: what the preempting command does at once;
* `Ledger.Steps.begun_of_cancelled`: once its signal is given no command of an activation is found
  fit to begin;
* `Closeup.held`, `Closeup.begun_run`: one that was found fit before may still begin;
* `Closeup.run_preempted`: what becomes of both batches, whatever the worker is at.
-/

namespace RoverPilot

open History

variable {M : Machinery}

namespace Ledger

variable {l l' : Ledger M} {t : Token}

/-! ### Signals -/

/-- Only signals that were handed out are given. -/
lemma Reachable.cancelled_lt (h : Reachable l) (ht : t ∈ l.cancelled) : t < l.tokens := by
  induction h with
  | initial => cases ht
  | step hr hs ih =>
      have hle := hs.tokens_le
      have hold (ht : t ∈ _) := Nat.lt_of_lt_of_le (ih ht) hle
      cases hs with
      | stop =>
          rw [List.mem_append, Option.mem_toList] at ht
          rcases ht with ht | ht
          · exact hr.token_lt ht
          · exact hold ht
      | preempt b i k u c hopen hl hc hu =>
          rcases List.mem_cons.mp ht with rfl | ht
          · exact Nat.lt_succ_of_lt (hr.token_lt hu)
          · exact hold ht
      | retire b u d hp | promote b u d e i closed hp =>
          have hu : u < _ := hr.attached_lt (t := u) (b := b) (by rw [hp]; rfl)
          simp only at ht
          split at ht
          · exact hold ht
          · rcases List.mem_cons.mp ht with rfl | ht
            · exact Nat.lt_of_lt_of_le hu hle
            · exact hold ht
      | _ => exact hold ht

/-- Once its signal is given no command of an activation begins that is looked at and begins in
one step: the worker skips the command that it has taken. -/
lemma Step.begun_of_cancelled (hs : Step l l') (ht : t ∈ l.cancelled) :
    begun t l'.history = begun t l.history := by
  cases hs with
  | begin b u c k a hp hres he hc | doAtOnce b u c k e hp hres he hc =>
      have hne : u ≠ t := by
        rintro rfl
        exact hc ht
      simp [hne]
  | _ => simp

lemma Steps.cancelled_subset (hs : Steps l l') : l.cancelled ⊆ l'.cancelled := by
  induction hs with
  | refl => exact List.Subset.refl _
  | tail hss hs ih => exact List.Subset.trans ih hs.cancelled_subset

lemma Steps.begun_of_cancelled (hs : Steps l l') (ht : t ∈ l.cancelled) :
    begun t l'.history = begun t l.history := by
  induction hs with
  | refl => rfl
  | tail hss hs ih => exact (hs.begun_of_cancelled (Steps.cancelled_subset hss ht)).trans ih

lemma Feasible.cancelled_lt (h : l.Feasible) (ht : t ∈ l.cancelled) : t < l.tokens := by
  obtain ⟨_, -, hr⟩ := h
  exact hr.cancelled_lt ht

lemma Feasible.begun_isPrefix (h : l.Feasible) (t : Token) :
    begun t l.history <+: accepted t l.history := by
  obtain ⟨_, hakin, hr⟩ := h
  rw [hakin.begun_eq, hakin.accepted_eq]
  exact hr.begun_isPrefix.of_isPrefix (Q := fun pre => ∀ t, begun t pre <+: accepted t pre)
    (by simp) (List.prefix_refl _) t

/-! ### The preempted batch -/

/-- A preempted activation does not execute. -/
lemma Reachable.token_ne_of_preempted (h : Reachable l) (ht : t ∈ preempted l.history) :
    l.board.token ≠ some t :=
  fun htoken => h.token_not_mem_retired htoken (mem_retired_iff.mpr (.inl ht))

lemma Steps.preempted_of_preempted (hs : Steps l l') (ht : t ∈ preempted l.history) :
    t ∈ preempted l'.history :=
  (hs.history_isPrefix.sublist.filterMap _).subset ht

end Ledger

namespace World

/-! ### The takeover -/

/-- What a preempting command changes at once: `w` is the world before it and `v` the one after
it, `t` is the preempted activation and `u` that of the batch that waited. -/
structure TakenOver (w v : World M) (c : Command) (t u : Token) (b : BatchId) : Prop where
  /-- The motors stop. -/
  halted : v.plant = M.halt w.now w.plant
  /-- The preempted batch is told to stop. -/
  cancelled : t ∈ v.cancelled
  /-- The commands that waited for their turn are gone. -/
  emptied : v.board.queue = []
  /-- The batch that waited executes. -/
  active : v.board.active? = some (u, b)
  /-- Nobody has told it to stop. -/
  unhurt : u ∉ v.cancelled
  /-- The command itself is accepted into no batch. -/
  history : v.history = w.history ++ [.preempted t c, .activated u b]

variable {w : World M}

/-- The preempting command as the first one of a waiting batch. -/
lemma takenOver_act (hw : w.ledger.Feasible) {c : Command} {a b : BatchId} {closed : Bool}
    (hopen : w.board.closing = false) (hl : w.board.lifecycle = .collecting a b closed)
    (hc : c.hasName preemptingName = true) :
    ∃ t, w.board.active? = some (t, a) ∧
      TakenOver w (w.act (.call (.enqueue c))) c t w.tokens b ∧
      (w.act (.call (.enqueue c))).Receiving w.tokens := by
  obtain ⟨t, ht, ha⟩ := hw.signalled.exists_active (congrArg Lifecycle.executing? hl)
  have htoken : w.board.token = some t := ht
  have hfresh : w.tokens ∉ w.cancelled := fun hmem => Nat.lt_irrefl _ (hw.cancelled_lt hmem)
  have hne : w.tokens ≠ t := Nat.ne_of_gt (hw.token_lt ht)
  have hact : w.act (.call (.enqueue c)) = (w.enqueue c).1 := by simp [act, hopen, update]
  rw [hact]
  refine ⟨t, ha, ?_, ?_⟩ <;> constructor <;>
    simp [enqueue, Lifecycle.enqueue, hl, hc, htoken, preempt, World.history, note, cancel, halt,
      activate, hfresh, hne, hopen, Lifecycle.isAccepting]

end World

/-! ### Commands that begin late -/

/-- Whether an action is the worker's. -/
def Action.works : Action M → Bool
  | .work => true
  | _ => false

lemma Action.works_of_ne {a : Action M} (ha : a ≠ .work) : a.works = false := by
  cases a <;> first | rfl | exact absurd rfl ha

namespace Closeup

/-- The command of an activation that was found fit and has not begun, if there is one. -/
def held (s : Closeup M) (t : Token) : List Command :=
  match s.fit, s.world.worker.phase with
  | some _, .popped _ u c => if u = t then [c] else []
  | _, _ => []

variable {s : Closeup M} {t : Token}

lemma held_of_fit_eq_none (h : s.fit = none) : s.held t = [] := by
  rw [held, h]

/-- Only the worker does something with it. -/
lemma Sound.held_act (hs : s.Sound) {a : Action M} (ha : a ≠ .work) :
    (s.act a).held t = s.held t := by
  obtain ⟨new, -, haside⟩ := s.world.aside_act hs.feasible.signalled ha
  have hworker : (s.world.act a).worker = s.world.worker := haside.worker
  rw [s.act_of_ne ha, held, held, hworker]

lemma Sound.cancelled_subset_act (hs : s.Sound) (a : Action M) :
    s.world.cancelled ⊆ (s.act a).world.cancelled := by
  have hbrings := s.brings a
  generalize s.act a = v at hbrings ⊢
  cases hbrings with
  | begins b u c k =>
      rw [(World.launch_spec ..).2.2]
      exact List.Subset.refl _
  | fits => exact List.Subset.refl _
  | afar => exact Ledger.Steps.cancelled_subset (s.world.steps_act a hs.feasible.signalled)

/-- Once its signal is given, a command of an activation begins only if it was found fit before,
and with the worker's next step. -/
lemma begun_act (hs : s.Sound) (ht : t ∈ s.world.cancelled) (a : Action M) :
    begun t (s.act a).world.history =
        begun t s.world.history ++ (if a.works then s.held t else []) ∧
      (s.act a).held t = if a.works then [] else s.held t := by
  have hbrings := s.brings a
  generalize hv : s.act a = v at hbrings ⊢
  cases hbrings with
  | begins b u c k hp hfit =>
      obtain ⟨rest, hrest, hnone⟩ := s.world.history_launch b u c k
      have hover : begun t rest = [] := List.filterMap_eq_nil_iff.mpr fun e he => hnone e he t
      refine ⟨?_, rfl⟩
      rw [hrest]
      by_cases hu : u = t <;> simp [hover, Action.works, held, hfit, hp, hu]
  | fits b u c k hp hfit hr he hc =>
      have hne : u ≠ t := by
        rintro rfl
        exact hc ht
      refine ⟨by simp [Action.works, held_of_fit_eq_none hfit], ?_⟩
      simp [held, hp, hne, Action.works]
  | afar _ hwork =>
      have hbegun : begun t (s.world.act a).history = begun t s.world.history :=
        (s.world.steps_act a hs.feasible.signalled).begun_of_cancelled ht
      by_cases ha : a = .work
      · have hfit : s.fit = none := by
          refine (hwork ha).elim id fun hnot =>
            Option.eq_none_iff_forall_not_mem.mpr fun k hk => ?_
          obtain ⟨b, u, c, hfound⟩ := hs.fit k hk
          exact hnot b u c hfound.phase_eq
        subst ha
        refine ⟨?_, held_of_fit_eq_none hfit⟩
        simp [hbegun, held_of_fit_eq_none hfit]
      · rw [← hv, hs.held_act ha, hv]
        simp [Action.works_of_ne ha, hbegun]

lemma begun_run (hs : s.Sound) (ht : t ∈ s.world.cancelled) (as : List (Action M)) :
    begun t (s.run as).world.history =
      begun t s.world.history ++ (if as.any Action.works then s.held t else []) := by
  induction as generalizing s with
  | nil => simp
  | cons a as ih =>
      obtain ⟨hbegun, hheld⟩ := begun_act hs ht a
      rw [run_cons, ih (hs.act a) (hs.cancelled_subset_act a ht), hbegun, hheld, List.any_cons]
      cases a.works <;> simp only [Bool.false_or, Bool.true_or, if_true, Bool.false_eq_true,
        if_false, List.append_nil, ite_self]

end Closeup

/-- The first command of a waiting batch is the preempting one, whatever the worker is at.  The
waiting batch takes over at once, and the preempted one is never reported.  From then on no command
of the preempted batch is found fit to begin.  One that was found fit just before, and is held by the
worker, begins with the worker's next step all the same; no other one begins.  The batch that took
over receives the commands that come while it stays open, in order, and the commands begun under it
are the first ones of these. -/
theorem Closeup.run_preempted (p : M.Plant) (ch : Channel) (d : Nat) (as : List (Action M))
    (c : Command) (a b : BatchId) (closed : Bool)
    (hopen : ((World.fresh p ch d).closeup.run as).world.board.closing = false)
    (hl : ((World.fresh p ch d).closeup.run as).world.board.lifecycle = .collecting a b closed)
    (hc : c.hasName preemptingName = true) :
    let s := (World.fresh p ch d).closeup.run as
    let v := s.act (.call (.enqueue c))
    ∃ t u, s.world.board.active? = some (t, a) ∧ s.world.TakenOver v.world c t u b ∧
      ∀ as' : List (Action M),
        let h := (v.run as').world.history
        begun t h =
            begun t s.world.history ++ (if as'.any Action.works then s.held t else []) ∧
        (∀ r, (t, r) ∉ reports h) ∧
        begun u h <+: accepted u h ∧
        ∃ as₁ as₂, as' = as₁ ++ as₂ ∧ v.StaysOpen u as₁ ∧
          (∀ e ∈ as₂.head?, ¬ v.StaysOpen u (as₁ ++ [e])) ∧
          accepted u h = Action.commands as₁ := by
  intro s v
  have hs : s.Sound := sound_run p ch d as
  have hv : v.Sound := hs.act _
  obtain ⟨t, ha, htaken, hreceiving⟩ := World.takenOver_act hs.feasible hopen hl hc
  have hhistory : v.world.history = s.world.history ++ [.preempted t c, .activated _ b] :=
    htaken.history
  refine ⟨t, s.world.tokens, ha, htaken, fun as' => ?_⟩
  have hr : (v.run as').Sound := hv.run as'
  have hpre : t ∈ preempted v.world.history := by rw [hhistory]; simp
  refine ⟨?_, fun r hreport => ?_, ?_, ?_⟩
  · have hnone : begun t v.world.history = begun t s.world.history := by rw [hhistory]; simp
    have hheld : v.held t = s.held t := hs.held_act (by simp)
    rw [begun_run hv htaken.cancelled, hnone, hheld]
  · refine hr.feasible.not_preempted_of_reported hreport ?_
    exact ((hv.history_isPrefix as').sublist.filterMap _).subset hpre
  · exact hr.feasible.begun_isPrefix _
  · obtain ⟨as₁, as₂, heq, hstays, hlast, haccepted⟩ := exists_intake hv hreceiving as'
    have hbefore : accepted s.world.tokens s.world.history = [] :=
      hs.feasible.accepted_eq_nil (Nat.le_refl _)
    have hnone : accepted s.world.tokens v.world.history = [] := by
      rw [hhistory]
      simpa using hbefore
    exact ⟨as₁, as₂, heq, hstays, hlast, by rw [haccepted, hnone, List.nil_append]⟩

/-- The camera of the standard robot is to turn: the command was found fit and has not begun.
Another one waits, and a second header arrives. -/
def aiming : List (Action (Rig.machinery {})) :=
  [.call (.start 1), .call (.enqueue ⟨"CAMERA", ["0", "10"]⟩), .call (.enqueue ⟨"BACK", ["20"]⟩),
    .work, .work, .call (.start 2)]

/-- The command that is held begins after the takeover, the one behind it does not, and the batch
that took over receives the command that comes next, but not the one after the end of its
stream. -/
theorem Closeup.run_preempted_held :
    let stop : Command := ⟨"Stop", []⟩
    let aim : Command := ⟨"CAMERA", ["5", "0"]⟩
    let s := standardWorld.closeup.run aiming
    let h := ((s.act (.call (.enqueue stop))).run [.work, .call (.enqueue aim), .work, .work, .work,
      .work, .call .finish, .call (.enqueue aim)]).world.history
    s.world.board.closing = false ∧ s.world.board.lifecycle = .collecting 1 2 false ∧
      stop.hasName preemptingName = true ∧ s.world.board.active? = some (0, 1) ∧
      begun 0 s.world.history = [] ∧ begun 0 h = [⟨"CAMERA", ["0", "10"]⟩] ∧
      (∀ r, (0, r) ∉ reports h) ∧ begun 1 h = [aim] ∧ accepted 1 h = [aim] := by
  intro stop aim s h
  have hopen : s.world.board.closing = false := by decide +kernel
  have hl : s.world.board.lifecycle = .collecting 1 2 false := by decide +kernel
  have hc : stop.hasName preemptingName = true := by decide +kernel
  have hactive : s.world.board.active? = some (0, 1) := by decide +kernel
  have hbefore : begun 0 s.world.history = [] := by decide +kernel
  have hheld : s.held 0 = [⟨"CAMERA", ["0", "10"]⟩] := by decide +kernel
  obtain ⟨t, u, ha, -, hrest⟩ := Closeup.run_preempted _ _ _ aiming stop 1 2 false hopen hl hc
  obtain rfl : t = 0 := congrArg Prod.fst (Option.some.inj (ha.symm.trans hactive))
  obtain ⟨hlate, hreports, -⟩ := hrest [.work, .call (.enqueue aim), .work, .work, .work, .work,
    .call .finish, .call (.enqueue aim)]
  have hboth : begun 0 s.world.history ++ s.held 0 = [⟨"CAMERA", ["0", "10"]⟩] := by
    rw [hbefore, hheld, List.nil_append]
  exact ⟨hopen, hl, hc, hactive, hbefore, hlate.trans hboth, hreports, by decide +kernel,
    by decide +kernel⟩

/-- A second header arrives, and the end of its stream, before any of its commands. -/
def endedEarly : List (Action (Rig.machinery {})) :=
  [.call (.start 1), .call (.start 2), .call .finish]

/-- So a command of a preempted batch may begin after the preempting call has returned, and a batch
whose stream ended while it waited receives commands when it takes over. -/
theorem Closeup.run_preempted_late :
    let stop : Command := ⟨"STOP", []⟩
    let aim : Command := ⟨"CAMERA", ["0", "10"]⟩
    let s := standardWorld.closeup.run aiming
    let v := s.act (.call (.enqueue stop))
    let s' := standardWorld.closeup.run endedEarly
    let v' := s'.act (.call (.enqueue stop))
    stop.hasName preemptingName = true ∧
      (s.world.board.closing = false ∧ s.world.board.lifecycle = .collecting 1 2 false ∧
        s.world.board.active? = some (0, 1) ∧ v.world.board.active? = some (1, 2) ∧
        0 ∈ v.world.cancelled ∧ begun 0 v.world.history = [] ∧
        begun 0 (v.run [.work]).world.history = [aim]) ∧
      s'.world.board.closing = false ∧ s'.world.board.lifecycle = .collecting 1 2 true ∧
        v'.world.board.active? = some (1, 2) ∧
        accepted 1 (v'.run [.call (.enqueue aim)]).world.history = [aim] := by
  decide +kernel

end RoverPilot
