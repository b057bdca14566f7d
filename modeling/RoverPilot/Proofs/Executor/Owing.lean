import Mathlib.Tactic
import RoverPilot.Proofs.Executor.Coherence
import RoverPilot.Proofs.Executor.Prompt

/-!
Handlers that are still to finish for a batch.

* `History.Halting`, `World.HaltedAt`: when a batch was told to stop, as it was preempted or the
  operator stopped the robot under it;
* `World.EndedAt`: when it was told to stop or was over;
* `World.exists_haltedAt`: the signal of a batch is given only then, unless it was reported;
* `Ledger.Owes`: the worker has begun a handler for the executing batch and is still to let it
  finish;
* `World.owes_act`: so it is until that handler has finished or the batch is told to stop.
-/

namespace RoverPilot

open History

variable {M : Machinery}

/-! ### Batches that are told to stop -/

/-- An event tells the batch of an activation to stop: it is preempted, or the operator stops the
robot under it. -/
def History.Halting (t : Token) (pre : List (Event M)) (e : Event M) : Prop :=
  (∃ c, e = .preempted t c) ∨ e = .stopped ∧ Executing t pre

namespace World

variable {w v : World M} {t : Token} {s : Nat}

/-- The batch of an activation was told to stop at a time. -/
def HaltedAt (w : World M) (t : Token) (s : Nat) : Prop :=
  ∃ newer e older, w.journal = newer ++ (s, e) :: older ∧
    Halting t (older.reverse.map Prod.snd) e

/-- The batch of an activation was told to stop at a time, or preempted or reported. -/
def EndedAt (w : World M) (t : Token) (s : Nat) : Prop :=
  w.HaltedAt t s ∨ ∃ e, (s, e) ∈ w.journal ∧ e.retired? = some t

/-- What has happened stays so. -/
lemma HaltedAt.mono (h : w.HaltedAt t s) {new : Log (Event M)}
    (hv : v.journal = new ++ w.journal) : v.HaltedAt t s := by
  obtain ⟨newer, e, older, heq, he⟩ := h
  exact ⟨new ++ newer, e, older, by rw [hv, heq, List.append_assoc], he⟩

/-- It is told to stop by something new, or was told before. -/
lemma HaltedAt.of_append (h : v.HaltedAt t s) {new : Log (Event M)}
    (hv : v.journal = new ++ w.journal) : (∃ e, (s, e) ∈ new) ∨ w.HaltedAt t s := by
  obtain ⟨newer, e, older, heq, he⟩ := h
  rcases List.append_eq_append_iff.mp (hv.symm.trans heq) with ⟨rest, rfl, hold⟩ | ⟨rest, rfl, hcut⟩
  · exact .inr ⟨rest, e, older, hold, he⟩
  · cases rest with
    | nil => exact .inr ⟨[], e, older, hcut.symm, he⟩
    | cons x rest =>
        obtain ⟨rfl, -⟩ := List.cons_eq_cons.mp hcut
        exact .inl ⟨e, by simp⟩

lemma EndedAt.of_append (h : v.EndedAt t s) {new : Log (Event M)}
    (hv : v.journal = new ++ w.journal) : (∃ e, (s, e) ∈ new) ∨ w.EndedAt t s := by
  rcases h with h | ⟨e, he, hret⟩
  · exact (h.of_append hv).imp_right .inl
  · rw [hv, List.mem_append] at he
    exact he.imp (fun hmem => ⟨e, hmem⟩) fun hmem => .inr ⟨e, hmem, hret⟩

lemma HaltedAt.mem (h : w.HaltedAt t s) : ∃ e, (s, e) ∈ w.journal := by
  obtain ⟨newer, e, older, heq, -⟩ := h
  exact ⟨e, by simp [heq]⟩

/-- A batch is told to stop by a preemption or by the operator. -/
lemma HaltedAt.stopped_or_preempted (h : w.HaltedAt t s) :
    StoppedUnder t w.history ∨ t ∈ preempted w.history := by
  obtain ⟨newer, e, older, heq, he⟩ := h
  have hhistory : w.history = older.reverse.map Prod.snd ++ [e] ++ newer.reverse.map Prod.snd := by
    simp [history, heq]
  rcases he with ⟨c, rfl⟩ | ⟨rfl, hexec⟩
  · have hmem : .preempted t c ∈ w.history := by simp [hhistory]
    exact .inr (mem_view.mpr ⟨_, hmem, rfl⟩)
  · exact .inl ⟨_, hhistory ▸ List.prefix_append _ _, hexec⟩

/-- What the first new event tells a batch, it tells it now. -/
lemma haltedAt_now {new : List (Event M)} (hnew : v.journal = new.map (Prod.mk w.now) ++ w.journal)
    {e : Event M} {rest : List (Event M)} (hhistory : v.history = w.history ++ e :: rest)
    (he : Halting t w.history e) : v.HaltedAt t w.now := by
  have hreverse : new.reverse = e :: rest := by
    have hsame : v.history = w.history ++ new.reverse := by
      simp [history, hnew, Function.comp_def]
    exact List.append_cancel_left (hsame.symm.trans hhistory)
  obtain rfl : new = rest.reverse ++ [e] := by
    rw [← List.reverse_reverse new, hreverse, List.reverse_cons]
  exact ⟨rest.reverse.map (Prod.mk w.now), e, w.journal, by simp [hnew], he⟩

/-- The signal of an activation is given only if its batch was told to stop or reported. -/
lemma exists_haltedAt (hw : w.ledger.Reachable) (ht : t ∈ w.cancelled)
    (hreport : ∀ r, (t, r) ∉ reports w.history) : ∃ s, w.HaltedAt t s := by
  have hsplit {pre post : List (Event M)} {e : Event M} (h : w.history = pre ++ e :: post)
      (he : Halting t pre e) : ∃ s, w.HaltedAt t s := by
    obtain ⟨older, rest, hreverse, rfl, hrest⟩ := List.map_eq_append_iff.mp h
    obtain ⟨x, newer, rfl, rfl, -⟩ := List.map_eq_cons_iff.mp hrest
    refine ⟨x.1, newer.reverse, x.2, older.reverse, ?_, by simpa using he⟩
    rw [← List.reverse_reverse w.journal, hreverse]
    simp
  rcases hw.stopped_of_cancelled ht with hret | ⟨pre, ⟨post, hpre⟩, hexec⟩
  · rcases mem_retired_iff.mp hret with hp | ⟨r, hr⟩
    · obtain ⟨e, he, hep⟩ := mem_view.mp hp
      obtain ⟨pre, post, heq⟩ := List.append_of_mem he
      cases e with
      | preempted u c =>
          cases hep
          exact hsplit heq (.inl ⟨c, rfl⟩)
      | _ => cases hep
    · exact absurd hr (hreport r)
  · have heq : w.history = pre ++ .stopped :: post := by
      rw [← ledger_history, ← hpre, List.append_assoc]
      rfl
    exact hsplit heq (.inr ⟨rfl, hexec⟩)

end World

/-! ### Handlers that are owed their finish -/

namespace Ledger

variable {l l' : Ledger M} {k : M.Handler} {fin : M.Activity} {t : Token}

/-- The signal of a preempted batch is given. -/
lemma Reachable.cancelled_of_preempted (hr : Reachable l) (ht : t ∈ preempted l.history) :
    t ∈ l.cancelled := by
  induction hr with
  | initial => cases ht
  | step hr hs ih =>
      have hs' := hs
      cases hs with
      | preempt b i j u c =>
          obtain ht | rfl : t ∈ preempted _ ∨ t = u := by simpa using ht
          · exact List.mem_cons_of_mem _ (ih ht)
          · exact List.mem_cons_self
      | _ => exact hs'.cancelled_subset (ih (by simpa using ht))

/-- The handler of the command at work has begun. -/
lemma Reachable.mem_started (hr : Reachable l) {b : BatchId} {c : Command} {a : M.Activity}
    (hp : l.worker.phase = .running b t c a) (hk : M.resolve c.name = some k) :
    k ∈ l.worker.started := by
  induction hr generalizing b a with
  | initial => cases hp
  | step hr hs ih =>
      cases hs with
      | begin b u c' k' a' _ hresolve =>
          cases hp
          obtain rfl : k' = k := Option.some.inj (hresolve.symm.trans hk)
          simp
      | goOn b u c' a' a'' hrunning =>
          cases hp
          exact ih hrunning
      | _ => simp_all

/-- The worker has begun a handler for the executing batch, and is still to let it finish or is at
it; `fin` is what it is at then. -/
structure Owes (l : Ledger M) (k : M.Handler) (fin : M.Activity) (t : Token) : Prop where
  token : l.board.token = some t
  seen : l.board.epoch = l.worker.epoch
  owed : k ∈ l.worker.started ∨ k ∈ l.worker.phase.left t ∨
    ∃ b ks, l.worker.phase = .finishingCall b t fin ks

/-- The batch that the worker is at is the executing one. -/
lemma Owes.attached (h : l.Owes k fin t) (hr : Reachable l) {u : Token} {b : BatchId}
    (hp : l.worker.phase.attached? = some (u, b)) : u = t := by
  have ha := hr.attached_active h.seen hp
  exact Option.some.inj ((Board.active?_eq_some_iff.mp ha).1.symm.trans h.token)

/-- The batch is not over. -/
lemma Owes.not_retired (h : l.Owes k fin t) (hr : Reachable l) : t ∉ retired l.history :=
  hr.token_not_mem_retired h.token

/-- A handler that has begun for the batch that the worker is at is owed its finish, as long as
the signal of the batch is not given. -/
lemma Reachable.owes_of_started (hr : Reachable l) {b : BatchId}
    (hp : l.worker.phase.attached? = some (t, b)) (hc : t ∉ l.cancelled)
    (hk : k ∈ l.worker.started) : l.Owes k fin t := by
  rcases hr.attached_cases hp with ⟨he, ha⟩ | ⟨-, hpre, -⟩
  · exact ⟨(Board.active?_eq_some_iff.mp ha).1, he, .inl hk⟩
  · exact absurd (hr.cancelled_of_preempted hpre) hc

/-- A worker that has gone through all handlers owes none. -/
lemma Reachable.not_owes (hr : Reachable l) {b : BatchId} {u : Token}
    (hp : l.worker.phase = .finishing b u []) : ¬ l.Owes k fin t := by
  intro h
  rcases h.owed with hk | hk | ⟨b', ks, hk⟩
  · rw [hr.started_eq_nil (.inl (by rw [hp]; rfl))] at hk
    cases hk
  · simp [hp] at hk
  · rw [hp] at hk
    cases hk

/-- No step takes a handler away from those that are owed their finish, unless the worker goes on
with one that finishes, or the batch is told to stop. -/
lemma Step.owes (hs : Step l l') (hr : Reachable l) (h : l.Owes k fin t) (hc : t ∉ l.cancelled)
    (hp : l'.worker = l.worker ∨ l.worker.phase.finishing? = none ∨
      ∃ b u, l.worker.phase = .finishing b u []) :
    (t ∉ l'.cancelled ∧ l'.Owes k fin t) ∨
      t ∈ l'.cancelled ∧ ∃ e new, l'.history = l.history ++ e :: new ∧ Halting t l.history e := by
  have hnot {b : BatchId} {u : Token} (hphase : l.worker.phase = .finishing b u []) :
      ¬ l.Owes k fin t := hr.not_owes hphase
  have ht := h.token
  have he := h.seen
  have howed := h.owed
  have hlifecycle : l.board.lifecycle ≠ .idle := by
    intro hidle
    have hsignalled := hr.signalled
    simp [Board.Signalled, hidle, ht] at hsignalled
  cases hs with
  | preempt b i j u c hopen hl hname hu =>
      obtain rfl : u = t := Option.some.inj (hu.symm.trans ht)
      exact .inr ⟨by simp, _, _, rfl, .inl ⟨c, rfl⟩⟩
  | stop => exact .inr ⟨by simp [ht], _, _, rfl, .inr ⟨rfl, hr.executing_iff.mpr ht⟩⟩
  | start | rest | exit => exact absurd ‹_› hlifecycle
  | notice hphase hepoch => exact absurd he hepoch
  | discard b u hphase | retire b u d hphase | promote b u d e i j hphase =>
      exact absurd h (hnot hphase)
  | beginFinish b u k' ks a hphase | finishAtOnce b u k' ks e hphase
  | goOnFinishing b u ks a a' hphase | endFinish b u ks a e hphase =>
      have hworker := hp.resolve_right (by simp [hphase])
      exact .inl ⟨hc, ⟨ht, he.trans (congrArg Worker.epoch hworker).symm, hworker ▸ howed⟩⟩
  | fail b u hphase hepoch ha | complete b u hphase hepoch ha =>
      obtain rfl : u = t := Option.some.inj ((Board.active?_eq_some_iff.mp ha).1.symm.trans ht)
      exact .inl ⟨hc, ⟨ht, he, by simpa [hphase] using howed⟩⟩
  | begin b u c k' a hphase | doAtOnce b u c k' e hphase =>
      have hstarted : k ∈ l.worker.started := by simpa [hphase] using howed
      exact .inl ⟨hc, ⟨ht, he, .inl (List.mem_append_left _ hstarted)⟩⟩
  | wait | accept | ignore | drop | finish | close | rouse | interrupt =>
      exact .inl ⟨hc, ⟨ht, he, howed⟩⟩
  | _ => exact .inl ⟨hc, ⟨ht, he, by simp_all⟩⟩

end Ledger

namespace World

variable {w v : World M} {k : M.Handler} {fin : M.Activity} {t : Token}

/-- A batch that is owed a finish was not told to stop, and is not over. -/
lemma not_endedAt_of_owes (hw : w.ledger.Reachable) (h : w.ledger.Owes k fin t)
    (hc : t ∉ w.cancelled) {s : Nat} : ¬ w.EndedAt t s := by
  rintro (hhalted | ⟨e, he, hret⟩)
  · rcases hhalted.stopped_or_preempted with hstop | hpre
    · exact hc (hw.cancelled_of_stopped h.token hstop)
    · exact hc (hw.cancelled_of_preempted hpre)
  · refine h.not_retired hw (mem_view.mpr ⟨e, ?_, hret⟩)
    exact List.mem_map_of_mem (List.mem_reverse.mpr he)

/-- What the next thing means for a handler that is owed its finish: it still is, or its batch is
told to stop. -/
def KeepsOwing (w v : World M) (k : M.Handler) (fin : M.Activity) (t : Token) : Prop :=
  (t ∉ v.cancelled ∧ v.ledger.Owes k fin t) ∨ (t ∈ v.cancelled ∧ v.HaltedAt t w.now)

/-- A step of the ledger outside the finish of handlers. -/
lemma keepsOwing_of_step (hw : w.ledger.Reachable) (h : w.ledger.Owes k fin t)
    (hc : t ∉ w.cancelled) (hs : Ledger.Step w.ledger v.ledger)
    (hp : v.worker = w.worker ∨ w.worker.phase.finishing? = none ∨
      ∃ b u, w.worker.phase = .finishing b u [])
    (hjournal : ∃ new : List (Event M), v.journal = new.map (Prod.mk w.now) ++ w.journal) :
    KeepsOwing w v k fin t := by
  obtain ⟨new, hnew⟩ := hjournal
  rcases hs.owes hw h hc hp with hkeep | ⟨hc', e, rest, hhistory, he⟩
  · exact .inl hkeep
  · exact .inr ⟨hc', haltedAt_now hnew hhistory he⟩

/-- What changes neither the board nor what the worker remembers and is at. -/
lemma keepsOwing_of_same (h : w.ledger.Owes k fin t) (hc : t ∉ w.cancelled)
    (hboard : v.board = w.board) (hepoch : v.worker.epoch = w.worker.epoch)
    (hstarted : v.worker.started = w.worker.started) (hcancelled : v.cancelled = w.cancelled)
    (howed : k ∈ w.worker.started ∨ k ∈ v.worker.phase.left t ∨
      ∃ b ks, v.worker.phase = .finishingCall b t fin ks) : KeepsOwing w v k fin t := by
  refine .inl ⟨hcancelled ▸ hc, ?_, ?_, ?_⟩
  · rw [ledger_board, hboard]
    exact h.token
  · exact (congrArg Board.epoch hboard).trans (h.seen.trans hepoch.symm)
  · exact howed.imp_left fun hk => hstarted ▸ hk

/-- After a call that lets a handler finish a handler is owed its finish if it comes later, or if
it is the one that goes on. -/
lemma keepsOwing_afterFinish (h : w.ledger.Owes k fin t) (hc : t ∉ w.cancelled)
    (hboard : v.board = w.board) (hworker : v.worker = w.worker)
    (hcancelled : v.cancelled = w.cancelled) {b : BatchId} {ks : List M.Handler}
    {r : M.Plant × Progress M.Activity} (hrest : k ∈ ks ∨ r.2 = .running fin) :
    KeepsOwing w (v.afterFinish b t ks r) k fin t := by
  have hepoch : v.worker.epoch = w.worker.epoch := congrArg Worker.epoch hworker
  have hstarted : v.worker.started = w.worker.started := congrArg Worker.started hworker
  obtain ⟨p, a | e⟩ := r
  · refine keepsOwing_of_same h hc hboard hepoch hstarted hcancelled (.inr ?_)
    rcases hrest with hk | hr
    · exact .inl (by simpa [afterFinish, enter] using hk)
    · cases hr
      exact .inr ⟨b, ks, rfl⟩
  · refine keepsOwing_of_same h hc hboard hepoch hstarted hcancelled (.inr (.inl ?_))
    rcases hrest with hk | hr
    · simpa [afterFinish, enter] using hk
    · cases hr

/-- A worker that looks at the board finds the batch as it was, and goes on with it. -/
lemma look_of_owes (hw : w.ledger.Reachable) (h : w.ledger.Owes k fin t) (hc : t ∉ w.cancelled) :
    ∃ b, w.board.active? = some (t, b) ∧ w.look = w.attend b t := by
  have ht : w.board.token = some t := h.token
  have hseen : w.noticePreemption = w := if_pos h.seen
  have hsignal : w.noticeCancellation t = w := by
    rw [noticeCancellation, if_neg]
    rw [isCancelled_iff]
    exact fun hboth => hc hboth.2
  rcases w.look_cases hw.signalled with ⟨hl, -⟩ | ⟨b, u, ha, hlook⟩
  · have hsignalled : w.board.Signalled := hw.signalled
    simp [Board.Signalled, hl, ht] at hsignalled
  · obtain rfl : u = t := Option.some.inj ((Board.active?_eq_some_iff.mp ha).1.symm.trans ht)
    exact ⟨b, ha, by rw [hlook, hseen, hsignal]⟩

/-- The handler finishes with the worker's next step, and `fin` is what the worker is at until
then. -/
inductive Finishes (w : World M) (k : M.Handler) (fin : M.Activity) (t : Token) : Prop where
  | atOnce (b : BatchId) (ks : List M.Handler) (e : Ending)
      (hp : w.worker.phase = .finishing b t (k :: ks))
      (he : (M.finish k (w.moment t) w.plant).2 = .ended e)
  | later (b : BatchId) (ks : List M.Handler) (e : Ending)
      (hp : w.worker.phase = .finishingCall b t fin ks)
      (he : (M.resume fin (w.moment t) w.plant).2 = .ended e)

section Work

variable (hw : w.ledger.Reachable) (h : w.ledger.Owes k fin t)

include hw h

/-- The handlers that are to finish are those of the batch. -/
lemma keepsOwing_finishNext (hc : t ∉ w.cancelled)
    (hfinish : ∀ m p a, (M.finish k m p).2 = .running a → a = fin) {b : BatchId} {u : Token}
    {k' : M.Handler} {ks : List M.Handler} (hp : w.worker.phase = .finishing b u (k' :: ks)) :
    KeepsOwing w (w.finishNext b u k' ks) k fin t ∨ w.Finishes k fin t := by
  obtain rfl : u = t := h.attached hw (b := b) (by rw [ledger_worker, hp]; rfl)
  have hleft : k = k' ∨ k ∈ ks := by
    have hstarted : w.worker.started = [] := hw.started_eq_nil (.inl (by simp [hp]))
    simpa [hp, hstarted] using h.owed
  have hafter (hrest : k ∈ ks ∨ (M.finish k' (w.moment u) w.plant).2 = .running fin) :
      KeepsOwing w (w.finishNext b u k' ks) k fin u :=
    keepsOwing_afterFinish (v := w.note (.finishBegan u k')) h hc rfl rfl rfl hrest
  rcases hleft with rfl | hk
  · cases hr : (M.finish k (w.moment u) w.plant).2 with
    | running a => exact .inl (hafter (.inr (hfinish _ _ _ hr ▸ hr)))
    | ended e => exact .inr (.atOnce b ks e hp hr)
  · exact .inl (hafter (.inl hk))

lemma keepsOwing_finishOn (hc : t ∉ w.cancelled)
    (hresume : ∀ m p a, (M.resume fin m p).2 = .running a → a = fin) {b : BatchId} {u : Token}
    {a : M.Activity} {ks : List M.Handler} (hp : w.worker.phase = .finishingCall b u a ks) :
    KeepsOwing w (w.finishOn b u a ks) k fin t ∨ w.Finishes k fin t := by
  obtain rfl : u = t := h.attached hw (b := b) (by rw [ledger_worker, hp]; rfl)
  have hleft : k ∈ ks ∨ a = fin := by
    have hstarted : w.worker.started = [] := hw.started_eq_nil (.inl (by simp [hp]))
    simpa [hp, hstarted] using h.owed
  have hafter (hrest : k ∈ ks ∨ (M.resume a (w.moment u) w.plant).2 = .running fin) :
      KeepsOwing w (w.finishOn b u a ks) k fin u :=
    keepsOwing_afterFinish (v := w) h hc rfl rfl rfl hrest
  rcases hleft with hk | rfl
  · exact .inl (hafter (.inl hk))
  · cases hr : (M.resume a (w.moment u) w.plant).2 with
    | running a' => exact .inl (hafter (.inr (hresume _ _ _ hr ▸ hr)))
    | ended e => exact .inr (.later b ks e hp hr)

/-- A handler that is owed its finish still is after the worker's next step, unless it has
finished. -/
lemma owes_work (hc : t ∉ w.cancelled)
    (hfinish : ∀ m p a, (M.finish k m p).2 = .running a → a = fin)
    (hresume : ∀ m p a, (M.resume fin m p).2 = .running a → a = fin) :
    KeepsOwing w w.work k fin t ∨ w.Finishes k fin t := by
  have hjournal := w.journal_act .work
  have hstep {v : World M} (hs : Ledger.Step w.ledger v.ledger) (hv : w.work = v)
      (hp : w.worker.phase.finishing? = none ∨ ∃ b u, w.worker.phase = .finishing b u []) :
      KeepsOwing w w.work k fin t :=
    keepsOwing_of_step hw h hc (hv ▸ hs) (.inr hp) hjournal
  cases hp : w.worker.phase with
  | looking =>
      obtain ⟨b, ha, hlook⟩ := look_of_owes hw h hc
      have hwork : w.work = w.attend b t := by rw [work, hp, ← hlook]
      exact .inl (hstep (w.step_attend hp h.seen ha fun _ => hc) hwork (.inl (by rw [hp]; rfl)))
  | parked =>
      have howed : k ∈ w.worker.started := by simpa [hp] using h.owed
      refine .inl ?_
      rw [work, hp]
      simp only
      split <;> exact keepsOwing_of_same h hc rfl rfl rfl rfl (.inl howed)
  | popped b u c =>
      exact .inl (hstep (w.step_begin hp) (by rw [work, hp]) (.inl (by rw [hp]; rfl)))
  | running b u c a =>
      exact .inl (hstep (w.step_proceed hp) (by rw [work, hp]) (.inl (by rw [hp]; rfl)))
  | finishing b u ks =>
      cases ks with
      | nil => exact .inl (hstep (w.step_retire hp) (by rw [work, hp]) (.inr ⟨b, u, hp⟩))
      | cons k' ks =>
          rw [work, hp]
          exact keepsOwing_finishNext hw h hc hfinish hp
  | finishingCall b u a ks =>
      rw [work, hp]
      exact keepsOwing_finishOn hw h hc hresume hp
  | reporting u r deadline =>
      have howed : k ∈ w.worker.started := by simpa [hp] using h.owed
      refine .inl ?_
      rcases w.deliver_cases hp with ⟨c, -, hv⟩ | ⟨-, hv⟩ | ⟨-, ⟨-, hv⟩ | ⟨-, hv⟩⟩ <;>
        rw [hv] <;> exact keepsOwing_of_same h hc rfl rfl rfl rfl (.inl howed)
  | exited =>
      have howed : k ∈ w.worker.started := by simpa [hp] using h.owed
      refine .inl ?_
      rw [work, hp]
      exact keepsOwing_of_same h hc rfl rfl rfl rfl (.inl howed)

end Work

/-- A handler that is owed its finish still is, whatever happens next, unless it finishes or its
batch is told to stop. -/
theorem owes_act (hw : w.ledger.Reachable) (h : w.ledger.Owes k fin t) (hc : t ∉ w.cancelled)
    (hfinish : ∀ m p a, (M.finish k m p).2 = .running a → a = fin)
    (hresume : ∀ m p a, (M.resume fin m p).2 = .running a → a = fin) (a : Action M) :
    KeepsOwing w (w.act a) k fin t ∨ a = .work ∧ w.Finishes k fin t := by
  have hjournal := w.journal_act a
  have hsame {v : World M} (hboard : v.board = w.board) (hworker : v.worker = w.worker)
      (hcancelled : v.cancelled = w.cancelled) : KeepsOwing w v k fin t :=
    keepsOwing_of_same h hc hboard (by rw [hworker]) (by rw [hworker]) hcancelled
      (by rw [hworker]; exact h.owed)
  have hstep (ha : a ≠ .work) (hs : Ledger.Step w.ledger (w.act a).ledger) :
      KeepsOwing w (w.act a) k fin t :=
    keepsOwing_of_step hw h hc hs (.inl (w.worker_act ha)) hjournal
  cases a with
  | work =>
      rcases owes_work hw h hc hfinish hresume with hkeep | hover
      · exact .inl hkeep
      · exact .inr ⟨rfl, hover⟩
  | call c =>
      refine .inl ?_
      by_cases hopen : w.board.closing = false
      · exact hstep (by simp) (by simpa [act, hopen] using w.step_update c hopen hw.signalled)
      · rw [act, if_pos (by simpa using hopen)]
        exact hsame rfl rfl rfl
  | stop => exact .inl (hstep (by simp) w.step_stopUpdate)
  | close => exact .inl (hstep (by simp) w.step_closeUpdate)
  | rouse | background | pass | disturb | receive | hangUp => exact .inl (hsame rfl rfl rfl)

end World

end RoverPilot
