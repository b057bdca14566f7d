import Mathlib.Tactic
import RoverPilot.Proofs.Executor.Stretch

/-!
What becomes of each header.

* `Fate`, `Fate.Holds`: the fates that a header may have;
* `Ledger.Reachable.exists_fate`, `Ledger.fate_unique`: each header has exactly one of them;
* `Ledger.Reachable.reports_sublist`: reports are made in the order of the activations, under
  the batches that were activated;
* `World.run_fates`: so it is after every run, and once the worker has ended no header is
  left open.
-/

namespace RoverPilot

open History

variable {M : Machinery}

/-- What may become of a header. -/
inductive Fate where
  /-- Its batch is reported. -/
  | reported
  /-- Its batch is preempted and not reported. -/
  | preempted
  /-- Its batch is refused, as it does not begin with the preempting command. -/
  | ignored
  /-- Another header takes its place before its first command. -/
  | replaced
  /-- Its batch executes, or waits for its first command. -/
  | pending

/-- What a fate says of a header with its stretch, given the stretches after it. -/
def Fate.Holds (h : List (Event M)) (newer : List (Stretch M)) (s : Stretch M) : Fate → Prop
  | reported => ∃ t r, s.Activated t ∧ (t, r) ∈ reports h ∧ r.id = s.batch ∧
      ((reports h).map Prod.fst).count t = 1
  | preempted => ∃ t, s.Activated t ∧ (∃ s' ∈ newer, s'.Preempts t) ∧ ∀ r, (t, r) ∉ reports h
  | ignored => s.Refused
  | replaced => s.Silent ∧ newer ≠ []
  | pending => s.Silent ∧ newer = [] ∨ ∃ t, s.Activated t ∧ Executing t h

namespace Ledger

variable {l l' : Ledger M} {t : Token} {b : BatchId}

/-! ### Reports -/

/-- A report is on the batch that was activated. -/
lemma Reachable.mem_activations_of_report (h : Reachable l) {r : Result}
    (hr : (t, r) ∈ reports l.history) : (t, r.id) ∈ activations l.history := by
  induction h with
  | initial => cases hr
  | step hl hs ih =>
      cases hs with
      | retire b u d hp he | promote b u d e i closed hp he =>
          have ha := hl.active_mem (hl.attached_active he (t := u) (b := b) (by rw [hp]; rfl))
          simp only [view_append, view_cons, List.mem_append] at hr ⊢
          rcases hr with hr | hr
          · exact .inl (ih hr)
          · obtain ⟨rfl, rfl⟩ : t = u ∧ r = .ofOutcome b _ := by simpa using hr
            exact .inl ha
      | _ => simp_all

/-- The activations reported are among those that are over, in the same order. -/
lemma reports_sublist_retired (h : List (Event M)) :
    ((reports h).map Prod.fst).Sublist (retired h) := by
  induction h with
  | nil => exact .slnil
  | cons e h ih => cases e <;> simp [ih]

/-- An activation is reported once. -/
lemma Reachable.count_reports (h : Reachable l) {r : Result} (hr : (t, r) ∈ reports l.history) :
    ((reports l.history).map Prod.fst).count t = 1 :=
  List.count_eq_one_of_mem (h.nodup_retired.sublist (reports_sublist_retired l.history))
    (List.mem_map_of_mem (f := Prod.fst) hr)

/-- Reports are made in the order of the activations. -/
lemma Reachable.reports_sublist (h : Reachable l) :
    ((reports l.history).map fun p => (p.1, p.2.id)).Sublist (activations l.history) := by
  let r : Token × BatchId → Token × BatchId → Prop := fun p q => p.1 < q.1
  have hactivations : (activations l.history).Pairwise r :=
    List.pairwise_map.mp (h.numbered ▸ List.pairwise_lt_range)
  have hretired : (retired l.history).Sublist (List.range l.tokens) :=
    h.retired_eq ▸ List.sublist_append_left _ _
  have hreports : ((reports l.history).map fun p => (p.1, p.2.id)).Pairwise r := by
    have hlt := List.pairwise_lt_range.sublist
      ((reports_sublist_retired l.history).trans hretired)
    rw [List.pairwise_map] at hlt ⊢
    exact hlt
  have hsubset : (reports l.history).map (fun p => (p.1, p.2.id)) ⊆ activations l.history := by
    intro p hp
    obtain ⟨⟨t, r⟩, hr, rfl⟩ := List.mem_map.mp hp
    exact h.mem_activations_of_report hr
  have hirrefl : Std.Irrefl r := ⟨fun p => Nat.lt_irrefl p.1⟩
  have hantisymm : Std.Antisymm r := ⟨fun p q hpq hqp => absurd hpq (Nat.lt_asymm hqp)⟩
  exact List.sublist_of_subperm_of_pairwise (List.subperm_of_subset hreports.nodup hsubset)
    hreports hactivations

/-! ### Fates -/

/-- Each header has a fate. -/
lemma Reachable.exists_fate (h : Reachable l) {newer older : List (Stretch M)} {s : Stretch M}
    (hss : stretches l.history = newer ++ s :: older) :
    ∃ f : Fate, f.Holds l.history newer s := by
  have hs : s ∈ stretches l.history := by simp [hss]
  rcases h.settled s hs with (⟨t, hact⟩ | hrefused) | hsilent
  · have hact' := h.mem_activations hs hact
    by_cases hret : t ∈ retired l.history
    · rcases mem_retired_iff.mp hret with hpre | ⟨r, hr⟩
      · exact ⟨.preempted, t, hact, h.exists_preempts hss hact hpre,
          fun r hr => h.not_preempted_of_reported hr hpre⟩
      · have hid := h.activation_unique (h.mem_activations_of_report hr) hact'
        exact ⟨.reported, t, r, hact, hr, hid, h.count_reports hr⟩
    · exact ⟨.pending, .inr ⟨t, hact, ⟨s.batch, hact'⟩, hret⟩⟩
  · exact ⟨.ignored, hrefused⟩
  · by_cases hn : newer = []
    · exact ⟨.pending, .inl ⟨hsilent, hn⟩⟩
    · exact ⟨.replaced, hsilent, hn⟩

/-- A header has one fate. -/
lemma fate_unique {h : List (Event M)} {newer older : List (Stretch M)} {s : Stretch M}
    (hss : stretches h = newer ++ s :: older) {f f' : Fate} (hf : f.Holds h newer s)
    (hf' : f'.Holds h newer s) : f = f' := by
  have hpreempted {t : Token} (hp : ∃ s' ∈ newer, s'.Preempts t) : ¬ Executing t h := by
    obtain ⟨s', hs', hp⟩ := hp
    obtain ⟨e, he, het⟩ := mem_view.mp hp.mem
    have hmem : e ∈ h := mem_of_mem_stretches (by simp [hss, hs']) he
    exact fun hexec => hexec.2 (mem_retired_iff.mpr (.inl (mem_view.mpr ⟨e, hmem, het⟩)))
  have hreported {t : Token} {r : Result} (hr : (t, r) ∈ reports h) : ¬ Executing t h :=
    fun hexec => hexec.2 (mem_retired_iff.mpr (.inr ⟨r, hr⟩))
  -- two fates that differ contradict each other in what is reported, executes or was begun
  cases f <;> cases f' <;> simp only [Fate.Holds] at hf hf' <;>
    grind [Stretch.Activated.unique, Stretch.Activated.not_silent, Stretch.Activated.not_refused,
      Stretch.Refused.not_silent]

/-! ### The end -/

/-- Without an executing batch no header is open. -/
lemma Reachable.not_pending (h : Reachable l) {newer older : List (Stretch M)} {s : Stretch M}
    (hss : stretches l.history = newer ++ s :: older) (hl : l.board.lifecycle = .idle) :
    ¬ Fate.pending.Holds l.history newer s := by
  rintro (⟨hsilent, rfl⟩ | ⟨t, -, hexec⟩)
  · have hnewest := h.newest
    rw [hl, hss] at hnewest
    cases hnewest with
    | idle s ss hsettled =>
        rcases hsettled with ⟨t, ht⟩ | hrefused
        · exact ht.not_silent hsilent
        · exact hrefused.not_silent hsilent
  · have hsig := h.signalled
    rw [Board.Signalled, hl, h.executing_iff.mp hexec] at hsig
    cases hsig

end Ledger

/-- Each header has exactly one fate, whatever the handlers do and in whatever order control
calls and the worker take their turns: its batch is reported, once and under its own name; or
preempted by the first command of a later header; or refused for its own first command; or
replaced while it waits for one; or still open.  Each activation belongs to the header in whose
stretch it begins, and the reports are made in the order of the activations.  Once the worker
has ended no header is open, and the last one was reported unless it was refused. -/
theorem World.run_fates (p : M.Plant) (ch : Channel) (d : Nat) (as : List (Action M)) :
    let w := (fresh p ch d).run as
    let h := w.history
    (∀ newer s older, stretches h = newer ++ s :: older → ∃! f : Fate, f.Holds h newer s) ∧
      activations h = Stretch.activations (stretches h) ∧
      ((reports h).map fun p => (p.1, p.2.id)).Sublist (activations h) ∧
      (w.worker.phase = .exited →
        (∀ newer s older, stretches h = newer ++ s :: older → ¬ Fate.pending.Holds h newer s) ∧
        ∀ s older, stretches h = s :: older →
          Fate.reported.Holds h [] s ∨ Fate.ignored.Holds h [] s) := by
  intro w h
  have hr : w.ledger.Reachable := reachable_run p ch d as
  refine ⟨fun newer s older hss => ?_, hr.activations_eq, hr.reports_sublist, fun hp => ?_⟩
  · obtain ⟨f, hf⟩ := hr.exists_fate hss
    exact ⟨f, hf, fun f' hf' => Ledger.fate_unique hss hf' hf⟩
  · have hl := (hr.exited hp).1
    refine ⟨fun newer s older hss => hr.not_pending hss hl, fun s older hss => ?_⟩
    have hnone : stretches h = [] ++ s :: older := hss
    obtain ⟨f, hf⟩ := hr.exists_fate hnone
    cases f with
    | reported => exact .inl hf
    | ignored => exact .inr hf
    | preempted =>
        obtain ⟨t, -, ⟨s', hs', -⟩, -⟩ := hf
        cases hs'
    | replaced => exact absurd rfl hf.2
    | pending => exact absurd hf (hr.not_pending hnone hl)

end RoverPilot
