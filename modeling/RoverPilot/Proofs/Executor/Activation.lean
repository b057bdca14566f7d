import Mathlib.Tactic
import RoverPilot.Proofs.Executor.Ledger

/-!
Activations: when a batch is the executing one, and what the worker is at meanwhile.

* `Ledger.Reachable.numbered`, `Ledger.Reachable.retired_eq`: activations are numbered as they
  begin, and those that are over, with the executing one behind them, are all of them in the
  same order.  So each is over at most once, and the executing one is the newest;
* `Ledger.Reachable.attached_active`, `Ledger.Reachable.attached_stale`: a worker that has seen
  every preemption is at the executing batch, if it is at one; any other worker is at a
  preempted one;
* `Ledger.Step.concerns`: a step says something only of the executing activation, of the one
  the worker is at, and of a new one; hence what is said of a reported activation stays as
  it is (`Ledger.Step.view_of_reported`);
* `Ledger.Reachable.active_iff`: the board and the history agree on which activation executes.
-/

namespace RoverPilot

open History

variable {M : Machinery}

/-- The activation that the worker is at. -/
@[simp] def Phase.attached? : Phase M → Option (Token × BatchId)
  | .popped b t _ => some (t, b)
  | .running b t _ _ => some (t, b)
  | .finishing b t _ => some (t, b)
  | .finishingCall b t _ _ => some (t, b)
  | _ => none

namespace Ledger

variable {l l' : Ledger M} {t : Token} {b : BatchId}

/-! ### The board -/

lemma Reachable.epoch_le (h : Reachable l) : l.worker.epoch ≤ l.board.epoch := by
  induction h with
  | initial => exact Nat.le_refl 0
  | step _ hs ih =>
      cases hs with
      | preempt => exact Nat.le_succ_of_le ih
      | notice => exact Nat.le_refl _
      | _ => exact ih

lemma Reachable.closing_iff (h : Reachable l) :
    l.board.closing = true ↔ .closed ∈ l.history := by
  induction h with
  | initial => simp [Ledger.initial]
  | step _ hs ih => cases hs <;> simp_all

/-- A worker that has ended was shut down and has left nothing. -/
lemma Reachable.exited (h : Reachable l) (hp : l.worker.phase = .exited) :
    l.board.lifecycle = .idle ∧ .closed ∈ l.history := by
  rw [← h.closing_iff]
  induction h with
  | initial => cases hp
  | step _ hs ih => cases hs <;> simp_all [Lifecycle.finish]

/-- Activations are numbered in the order in which they begin. -/
lemma Reachable.numbered (h : Reachable l) :
    (activations l.history).map Prod.fst = List.range l.tokens := by
  induction h with
  | initial => rfl
  | step _ hs ih =>
      cases hs with
      | start | preempt | promote => simpa [List.range_succ] using ih
      | _ => simpa using ih

/-- The executing batch has been activated. -/
lemma Reachable.active_mem (h : Reachable l) (ha : l.board.active? = some (t, b)) :
    (t, b) ∈ activations l.history := by
  induction h generalizing t b with
  | initial => cases ha
  | step _ hs ih =>
      cases hs with
      | promote _ _ _ _ _ closed => cases closed <;> simp_all
      | _ => simp_all

/-! ### The worker -/

/-- A worker that has seen every preemption is at the executing batch, if it is at one. -/
lemma Reachable.attached_active (h : Reachable l) (he : l.board.epoch = l.worker.epoch)
    (hp : l.worker.phase.attached? = some (t, b)) : l.board.active? = some (t, b) := by
  induction h with
  | initial => cases hp
  | step hr hs ih =>
      have hle := hr.epoch_le
      have hsig := hr.signalled
      cases hs with
      | preempt =>
          simp only at he
          omega
      | _ => simp_all [Board.Signalled]

/-- A worker that has not seen every preemption is at a preempted batch, if it is at one. -/
lemma Reachable.attached_stale (h : Reachable l) (he : l.board.epoch ≠ l.worker.epoch)
    (hp : l.worker.phase.attached? = some (t, b)) : t ∈ preempted l.history := by
  induction h with
  | initial => cases hp
  | step hr hs ih =>
      rename_i l _
      cases hs with
      | preempt =>
          -- the batch that the worker is at is the one preempted now, unless it was before
          by_cases hseen : l.board.epoch = l.worker.epoch
          · have ht := (Board.active?_eq_some_iff.mp (hr.attached_active hseen hp)).1
            simp_all
          · simp [ih hseen hp]
      | _ => simp_all

/-- The activations that are over, with the executing one behind them, are all activations
in the order in which they began. -/
lemma Reachable.retired_eq (h : Reachable l) :
    retired l.history ++ l.board.token.toList = List.range l.tokens := by
  induction h with
  | initial => rfl
  | step hr hs ih =>
      have hsig := hr.signalled
      cases hs with
      | start | preempt => simp_all [List.range_succ, Board.Signalled]
      -- the activation reported is the one on the board, so it moves to those that are over
      | retire b t d hp he | promote b t d e i closed hp he =>
          have ha := hr.attached_active he (t := t) (b := b) (by simp [hp])
          rw [(Board.active?_eq_some_iff.mp ha).1] at ih
          simp [List.range_succ, ← ih]
      | _ => simpa using ih

/-! ### What is over and what executes -/

lemma Reachable.nodup_retired (h : Reachable l) : (retired l.history).Nodup := by
  have hnodup := h.retired_eq ▸ List.nodup_range (n := l.tokens)
  exact (List.nodup_append.mp hnodup).1

lemma Reachable.retired_lt (h : Reachable l) (ht : t ∈ retired l.history) : t < l.tokens := by
  have hmem : t ∈ List.range l.tokens := h.retired_eq ▸ List.mem_append_left _ ht
  exact List.mem_range.mp hmem

/-- The executing activation is the newest one. -/
lemma Reachable.token_succ (h : Reachable l) (ht : l.board.token = some t) :
    t + 1 = l.tokens := by
  have heq := h.retired_eq
  rw [ht] at heq
  cases hn : l.tokens with
  | zero => simp [hn] at heq
  | succ n =>
      rw [hn, List.range_succ] at heq
      have hlast := (List.append_inj' heq rfl).2
      simp_all

lemma Reachable.token_lt (h : Reachable l) (ht : l.board.token = some t) : t < l.tokens :=
  h.token_succ ht ▸ Nat.lt_succ_self t

/-- The executing activation is not over. -/
lemma Reachable.token_not_mem_retired (h : Reachable l) (ht : l.board.token = some t) :
    t ∉ retired l.history := by
  intro hmem
  have hnodup := h.retired_eq ▸ List.nodup_range (n := l.tokens)
  rw [ht] at hnodup
  exact (List.nodup_append.mp hnodup).2.2 t hmem t (by simp) rfl

/-- An activation is over in one way only. -/
lemma Reachable.retired_unique (h : Reachable l) {e e' : Event M} (he : e ∈ l.history)
    (he' : e' ∈ l.history) (ht : e.retired? = some t) (ht' : e'.retired? = some t) : e = e' := by
  have hnodup := h.nodup_retired
  rw [retired, view, List.Nodup, List.pairwise_filterMap] at hnodup
  by_contra hne
  let R : Event M → Event M → Prop := fun e e' =>
    ∀ u, e.retired? = some u → ∀ u', e'.retired? = some u' → u ≠ u'
  have hsymm : Std.Symm R := ⟨fun _ _ hR u hu u' hu' => (hR u' hu' u hu).symm⟩
  exact List.Pairwise.forall (R := R) hnodup he he' hne t ht t ht' rfl

lemma Reachable.not_preempted_of_reported (h : Reachable l) {r : Result}
    (hr : (t, r) ∈ reports l.history) : t ∉ preempted l.history := by
  intro hp
  obtain ⟨e, he, her⟩ := mem_view.mp hr
  obtain ⟨e', he', her'⟩ := mem_view.mp hp
  cases e with
  | reported =>
      cases e' with
      | preempted => cases h.retired_unique (t := t) he he' (by simp_all) (by simp_all)
      | _ => cases her'
  | _ => cases her

/-- An activation is of one batch. -/
lemma Reachable.activation_unique (h : Reachable l) {b' : BatchId}
    (hb : (t, b) ∈ activations l.history) (hb' : (t, b') ∈ activations l.history) : b = b' := by
  have hnodup := h.numbered ▸ List.nodup_range (n := l.tokens)
  exact congrArg Prod.snd (List.inj_on_of_nodup_map hnodup hb hb' rfl)

/-- An activation that executes is the one whose signal is stored. -/
lemma Reachable.executing_iff (h : Reachable l) :
    Executing t l.history ↔ l.board.token = some t := by
  constructor
  · rintro ⟨⟨b, hb⟩, hnot⟩
    have hrange : t ∈ List.range l.tokens := h.numbered ▸ List.mem_map_of_mem (f := Prod.fst) hb
    rw [← h.retired_eq, List.mem_append] at hrange
    simpa [hnot] using hrange
  · intro ht
    have hsome : l.board.lifecycle.executing?.isSome := by rw [← h.signalled, ht]; rfl
    obtain ⟨b, hb⟩ := Option.isSome_iff_exists.mp hsome
    exact ⟨⟨b, h.active_mem (Board.active?_eq_some_iff.mpr ⟨ht, hb⟩)⟩, h.token_not_mem_retired ht⟩

/-- The board and the history agree on which activation executes. -/
theorem Reachable.active_iff (h : Reachable l) :
    l.board.active? = some (t, b) ↔ Executing t l.history ∧ (t, b) ∈ activations l.history := by
  constructor
  · intro ha
    exact ⟨h.executing_iff.mpr (Board.active?_eq_some_iff.mp ha).1, h.active_mem ha⟩
  · rintro ⟨hexec, hb⟩
    have ht := h.executing_iff.mp hexec
    have hsome : l.board.lifecycle.executing?.isSome := by rw [← h.signalled, ht]; rfl
    obtain ⟨b', hb'⟩ := Option.isSome_iff_exists.mp hsome
    have ha : l.board.active? = some (t, b') := Board.active?_eq_some_iff.mpr ⟨ht, hb'⟩
    rwa [h.activation_unique hb (h.active_mem ha)]

/-- The activation that the worker is at has begun; it executes or was preempted. -/
lemma Reachable.attached_cases (h : Reachable l) (hp : l.worker.phase.attached? = some (t, b)) :
    (l.board.epoch = l.worker.epoch ∧ l.board.active? = some (t, b)) ∨
      (l.board.epoch ≠ l.worker.epoch ∧ t ∈ preempted l.history ∧ l.board.token ≠ some t) := by
  by_cases he : l.board.epoch = l.worker.epoch
  · exact .inl ⟨he, h.attached_active he hp⟩
  · have hmem := h.attached_stale he hp
    exact .inr ⟨he, hmem, fun ht => h.token_not_mem_retired ht (mem_retired_iff.mpr (.inl hmem))⟩

lemma Reachable.attached_lt (h : Reachable l) (hp : l.worker.phase.attached? = some (t, b)) :
    t < l.tokens := by
  rcases h.attached_cases hp with ⟨-, ha⟩ | ⟨-, hmem, -⟩
  · exact h.token_lt (Board.active?_eq_some_iff.mp ha).1
  · exact h.retired_lt (mem_retired_iff.mpr (.inl hmem))

/-! ### What a step is about -/

/-- A step adds to the history.  What it adds is about the executing activation, the one that
the worker is at, or a new one. -/
theorem Step.concerns (h : Step l l') :
    ∃ new, l'.history = l.history ++ new ∧ ∀ e ∈ new, ∀ t, e.token? = some t →
      l.board.token = some t ∨ (∃ b, l.worker.phase.attached? = some (t, b)) ∨
        (t = l.tokens ∧ l'.tokens = l.tokens + 1) := by
  cases h with
  | finish | rouse | notice | rest | exit | pop | park | fail | complete | unpark | goOn
  | goOnFinishing => exact ⟨[], by simp⟩
  | _ => exact ⟨_, rfl, by simp_all⟩

/-- Histories only grow. -/
lemma Steps.history_isPrefix (h : Steps l l') : l.history <+: l'.history := by
  induction h with
  | refl => exact List.prefix_refl _
  | tail _ hs ih =>
      obtain ⟨new, hnew, -⟩ := hs.concerns
      exact hnew ▸ ih.trans (List.prefix_append _ _)

lemma Step.tokens_le (h : Step l l') : l.tokens ≤ l'.tokens := by
  cases h <;> simp

/-- Events are about activations that have begun. -/
lemma Reachable.token?_lt (h : Reachable l) {e : Event M} (he : e ∈ l.history)
    (ht : e.token? = some t) : t < l.tokens := by
  induction h with
  | initial => cases he
  | step hr hs ih =>
      obtain ⟨new, hnew, hconcerns⟩ := hs.concerns
      have hle := hs.tokens_le
      rw [hnew, List.mem_append] at he
      rcases he with he | he
      · exact Nat.lt_of_lt_of_le (ih he) hle
      · rcases hconcerns e he t ht with htok | ⟨b, hb⟩ | ⟨rfl, hmint⟩
        · exact Nat.lt_of_lt_of_le (hr.token_lt htok) hle
        · exact Nat.lt_of_lt_of_le (hr.attached_lt hb) hle
        · exact hmint ▸ Nat.lt_succ_self _

/-- A view that says something of one activation only. -/
def About {α : Type} (t : Token) (f : Event M → Option α) : Prop :=
  ∀ e a, f e = some a → e.token? = some t

lemma about_accepted? (t : Token) : About t (Event.accepted? (M := M) t) := by
  intro e a ha
  cases e <;> simp_all

lemma about_begun? (t : Token) : About t (Event.begun? (M := M) t) := by
  intro e a ha
  cases e <;> simp_all

lemma about_finding? (t : Token) : About t (Event.finding? (M := M) t) := by
  intro e a ha
  cases e <;> simp_all

/-- Nothing is said of an activation that has not begun. -/
lemma Reachable.view_eq_nil (h : Reachable l) {α : Type} {f : Event M → Option α}
    (hf : About t f) (ht : l.tokens ≤ t) : view f l.history = [] := by
  rw [List.eq_nil_iff_forall_not_mem]
  intro a ha
  obtain ⟨e, he, hfe⟩ := mem_view.mp ha
  exact Nat.not_lt.mpr ht (h.token?_lt he (hf e a hfe))

/-- What is said of an activation that neither executes nor occupies the worker stays as it
is. -/
lemma Step.view_of_foreign (h : Step l l') {α : Type} {f : Event M → Option α} (hf : About t f)
    (hlt : t < l.tokens) (htoken : l.board.token ≠ some t)
    (hphase : ∀ b, l.worker.phase.attached? ≠ some (t, b)) :
    view f l'.history = view f l.history := by
  obtain ⟨new, hnew, hconcerns⟩ := h.concerns
  rw [hnew, view_append, List.append_right_eq_self, List.eq_nil_iff_forall_not_mem]
  intro a ha
  obtain ⟨e, he, hfe⟩ := mem_view.mp ha
  rcases hconcerns e he t (hf e a hfe) with htok | ⟨b, hb⟩ | ⟨rfl, -⟩
  · exact htoken htok
  · exact hphase b hb
  · exact Nat.lt_irrefl _ hlt

/-- A reported activation is closed: it does not execute, and the worker is not at it. -/
lemma Reachable.closed_of_reported (h : Reachable l) {r : Result}
    (hr : (t, r) ∈ reports l.history) :
    t < l.tokens ∧ l.board.token ≠ some t ∧ ∀ b, l.worker.phase.attached? ≠ some (t, b) := by
  have hret : t ∈ retired l.history := mem_retired_iff.mpr (.inr ⟨r, hr⟩)
  refine ⟨h.retired_lt hret, fun ht => h.token_not_mem_retired ht hret, fun b hb => ?_⟩
  rcases h.attached_cases hb with ⟨-, ha⟩ | ⟨-, hpre, -⟩
  · exact h.token_not_mem_retired (Board.active?_eq_some_iff.mp ha).1 hret
  · exact h.not_preempted_of_reported hr hpre

/-- What is said of a reported activation stays as it is. -/
theorem Step.view_of_reported (h : Step l l') (hl : Reachable l) {α : Type}
    {f : Event M → Option α} (hf : About t f) {r : Result} (hr : (t, r) ∈ reports l.history) :
    view f l'.history = view f l.history := by
  obtain ⟨hlt, htoken, hphase⟩ := hl.closed_of_reported hr
  exact h.view_of_foreign hf hlt htoken hphase

end Ledger

end RoverPilot
