import Mathlib.Tactic
import RoverPilot.Proofs.Executor.Intake

/-!
When things happen.

* `Event.dispatched?`, `World.Writes`, `World.journal_act`: what happens is written down under the
  present time, and only the worker at a report changes the channel and writes of what has become
  of one;
* `World.now_act`: nothing but the passing of time changes the present time;
* `World.Permits`, `World.Prompt`: time passes only while neither the worker nor the background
  can go on, and no further than to the next moment at which one of them can.
-/

namespace RoverPilot

open History

variable {M : Machinery}

/-- The report of which it is known what has become of it. -/
@[simp] def Event.dispatched? : Event M → Option (Token × Result)
  | .delivered t r => some (t, r)
  | .undelivered t r _ => some (t, r)
  | .timedOut t r => some (t, r)
  | _ => none

namespace World

/-! ### What is written down -/

/-- What happens on the way to another world is written down under the present time, and is
nothing that becomes of a report. -/
structure Writes (w v : World M) : Prop where
  now : v.now = w.now
  reportTimeout : v.reportTimeout = w.reportTimeout
  channel : v.channel = w.channel
  journal : ∃ new : List (Event M), v.journal = new.map (Prod.mk w.now) ++ w.journal ∧
    ∀ e ∈ new, e.dispatched? = none

namespace Writes

variable {u v w : World M}

lemma refl (w : World M) : Writes w w := ⟨rfl, rfl, rfl, [], rfl, by simp⟩

lemma trans (h : Writes u v) (k : Writes v w) : Writes u w := by
  obtain ⟨new, hnew, hnone⟩ := h.journal
  obtain ⟨new', hnew', hnone'⟩ := k.journal
  refine ⟨k.now.trans h.now, k.reportTimeout.trans h.reportTimeout, k.channel.trans h.channel,
    new' ++ new, ?_, ?_⟩
  · rw [hnew', hnew, h.now, List.map_append, List.append_assoc]
  · simp only [List.mem_append]
    rintro e (he | he)
    · exact hnone' e he
    · exact hnone e he

/-- Nothing is written down. -/
lemma silent (hnow : v.now = w.now) (htimeout : v.reportTimeout = w.reportTimeout)
    (hchannel : v.channel = w.channel) (hjournal : v.journal = w.journal) : Writes w v :=
  ⟨hnow, htimeout, hchannel, [], by simpa using hjournal, by simp⟩

/-- One event is written down. -/
lemma one {e : Event M} (he : e.dispatched? = none) (hnow : v.now = w.now)
    (htimeout : v.reportTimeout = w.reportTimeout) (hchannel : v.channel = w.channel)
    (hjournal : v.journal = (w.now, e) :: w.journal) : Writes w v :=
  ⟨hnow, htimeout, hchannel, [e], by simpa using hjournal, by simpa using he⟩

lemma noteEnter (w : World M) {e : Event M} (he : e.dispatched? = none) (p : Phase M) :
    Writes w ((w.note e).enter p) :=
  .one he rfl rfl rfl rfl

/-- Two events are written down. -/
lemma two {e f : Event M} (he : e.dispatched? = none) (hf : f.dispatched? = none)
    (hnow : v.now = w.now) (htimeout : v.reportTimeout = w.reportTimeout)
    (hchannel : v.channel = w.channel)
    (hjournal : v.journal = (w.now, f) :: (w.now, e) :: w.journal) : Writes w v :=
  ⟨hnow, htimeout, hchannel, [f, e], by simpa using hjournal, by simpa using ⟨hf, he⟩⟩

end Writes

section

variable (w : World M)

lemma writes_update (c : Call) : Writes w (w.update c).1 := by
  cases c with
  | start b =>
      simp only [update, start]
      split
      · exact .two (e := .announced b) (f := .activated _ _) rfl rfl rfl rfl rfl rfl
      · exact .one (e := .announced b) rfl rfl rfl rfl rfl
  | enqueue c =>
      simp only [update, enqueue]
      split
      · split
        · exact .one (e := .accepted _ c) rfl rfl rfl rfl rfl
        · exact .silent rfl rfl rfl rfl
      · simp only [preempt]
        split
        · exact .two (e := .preempted _ c) (f := .activated _ _) rfl rfl rfl rfl rfl rfl
        · exact .one (e := .activated _ _) rfl rfl rfl rfl rfl
      · exact .one (e := .dropped c _) rfl rfl rfl rfl rfl
  | finish => exact .silent rfl rfl rfl rfl

lemma writes_stopUpdate : Writes w w.stopUpdate := by
  simp only [stopUpdate]
  split <;> exact .one (e := .stopped) rfl rfl rfl rfl rfl

lemma writes_closeUpdate : Writes w w.closeUpdate := .one (e := .closed) rfl rfl rfl rfl rfl

lemma writes_noticePreemption : Writes w w.noticePreemption := by
  rw [noticePreemption]
  split <;> exact .silent rfl rfl rfl rfl

lemma writes_currentToken : Writes w w.currentToken.2 := by
  rw [currentToken]
  split <;> exact .silent rfl rfl rfl rfl

lemma writes_noticeCancellation (t : Token) : Writes w (w.noticeCancellation t) := by
  rw [noticeCancellation]
  split
  · exact .one (e := .interrupted t) rfl rfl rfl rfl rfl
  · exact .refl w

lemma writes_attend (b : BatchId) (t : Token) : Writes w (w.attend b t) := by
  rcases w.attend_cases b t with ⟨_, _, _, _, h⟩ | ⟨_, _, _, h⟩ | ⟨_, h⟩ <;> rw [h] <;>
    exact .silent rfl rfl rfl rfl

lemma writes_look : Writes w w.look := by
  rw [look]
  refine w.writes_noticePreemption.trans ?_
  split
  · exact .silent rfl rfl rfl rfl
  · exact (writes_currentToken _).trans
      ((writes_noticeCancellation _ _).trans (writes_attend _ _ _))

lemma writes_afterCall (b : BatchId) (t : Token) (c : Command)
    (r : M.Plant × Progress M.Activity) : Writes w (w.afterCall b t c r) := by
  obtain ⟨p, a | e⟩ := r
  · exact .silent rfl rfl rfl rfl
  · exact .one (e := .ended t c e) rfl rfl rfl rfl rfl

lemma writes_begin (b : BatchId) (t : Token) (c : Command) : Writes w (w.begin b t c) := by
  rcases w.begin_cases b t c with ⟨-, h⟩ | ⟨k, -, ⟨-, h⟩ | ⟨-, h⟩⟩ <;> rw [h]
  · exact .one (e := .unresolved t c) rfl rfl rfl rfl rfl
  · exact .one (e := .skipped t c) rfl rfl rfl rfl rfl
  · refine Writes.trans ?_ (writes_afterCall _ b t c _)
    exact .one (e := .began t c k) rfl rfl rfl rfl rfl

lemma writes_proceed (b : BatchId) (t : Token) (c : Command) (a : M.Activity) :
    Writes w (w.proceed b t c a) := by
  rw [proceed, afterLook]
  split
  · exact w.writes_afterCall b t c _
  · split
    · exact .one (e := .givenUp t c) rfl rfl rfl rfl rfl
    · exact w.writes_afterCall b t c _

lemma writes_afterFinish (b : BatchId) (t : Token) (ks : List M.Handler)
    (r : M.Plant × Progress M.Activity) : Writes w (w.afterFinish b t ks r) := by
  obtain ⟨p, a | e⟩ := r
  · exact .silent rfl rfl rfl rfl
  · exact .one (e := .finishEnded t e) rfl rfl rfl rfl rfl

lemma writes_finishNext (b : BatchId) (t : Token) (k : M.Handler) (ks : List M.Handler) :
    Writes w (w.finishNext b t k ks) := by
  rw [finishNext]
  refine Writes.trans ?_ (writes_afterFinish _ b t ks _)
  exact .one (e := .finishBegan t k) rfl rfl rfl rfl rfl

lemma writes_clearBoard : Writes w w.clearBoard := by
  simp only [clearBoard]
  split
  · exact .one (e := .activated _ _) rfl rfl rfl rfl rfl
  · exact .silent rfl rfl rfl rfl

lemma writes_retire (b : BatchId) (t : Token) : Writes w (w.retire b t) := by
  simp only [retire]
  split
  · exact .one (e := .discarded t) rfl rfl rfl rfl rfl
  · refine Writes.trans (Writes.trans ?_ (writes_clearBoard _)) (.noteEnter _ rfl _)
    split <;> exact .silent rfl rfl rfl rfl

/-- The worker changes the channel, and writes of what has become of a report, only while it
delivers one. -/
lemma writes_work (hp : ∀ t r d, w.worker.phase ≠ .reporting t r d) : Writes w w.work := by
  rw [work]
  cases hphase : w.worker.phase with
  | looking => exact w.writes_look
  | parked =>
      simp only
      split
      · exact .silent rfl rfl rfl rfl
      · exact .refl w
  | popped b t c => exact w.writes_begin b t c
  | running b t c a => exact w.writes_proceed b t c a
  | finishing b t ks =>
      cases ks with
      | nil => exact w.writes_retire b t
      | cons k ks => exact w.writes_finishNext b t k ks
  | finishingCall b t a ks => exact w.writes_afterFinish b t ks _
  | reporting t r d => exact absurd hphase (hp t r d)
  | exited => exact .refl w

/-- Of a report on its way it becomes known that the channel has taken or refused it, or that it
took too long, or else it stays on its way. -/
lemma deliver_cases {t : Token} {r : Result} {deadline : Nat}
    (hp : w.worker.phase = .reporting t r deadline) :
    (∃ c, w.channel.offer r.encode = .taken c ∧
      w.work = ({ w with channel := c }.note (.delivered t r)).enter .looking) ∨
    (w.channel.closed = true ∧
      w.work = (w.note (.undelivered t r .clientClosed)).enter .looking) ∨
    w.channel.offer r.encode = .full ∧
      (deadline ≤ w.now ∧ w.work = (w.note (.timedOut t r)).enter .looking ∨
        w.now < deadline ∧ w.work = w) := by
  rw [work, hp]
  simp only [deliver]
  cases ho : w.channel.offer r.encode with
  | taken c => exact .inl ⟨c, rfl, rfl⟩
  | refused => exact .inr (.inl ⟨Channel.offer_eq_refused_iff.mp ho, rfl⟩)
  | full =>
      simp only
      split
      · rename_i hd
        exact .inr (.inr ⟨trivial, .inl ⟨hd, rfl⟩⟩)
      · rename_i hd
        exact .inr (.inr ⟨trivial, .inr ⟨Nat.lt_of_not_le hd, rfl⟩⟩)

/-- So it is with everything else that happens. -/
lemma writes_act {a : Action M} (ha : a.ambient = false)
    (hp : a = .work → ∀ t r d, w.worker.phase ≠ .reporting t r d) : Writes w (w.act a) := by
  cases a with
  | call c =>
      rw [act]
      split
      · exact .refl w
      · exact w.writes_update c
  | stop => exact w.writes_stopUpdate
  | close => exact w.writes_closeUpdate
  | rouse => exact .silent rfl rfl rfl rfl
  | work => exact w.writes_work (hp rfl)
  | background | pass | disturb | receive | hangUp => cases ha

/-- Whatever happens is written down under the present time. -/
theorem journal_act (a : Action M) :
    ∃ new : List (Event M), (w.act a).journal = new.map (Prod.mk w.now) ++ w.journal := by
  have hwrites (h : Writes w (w.act a)) :
      ∃ new : List (Event M), (w.act a).journal = new.map (Prod.mk w.now) ++ w.journal := by
    obtain ⟨new, hnew, -⟩ := h.journal
    exact ⟨new, hnew⟩
  cases a with
  | background | pass | disturb | receive | hangUp => exact ⟨[], rfl⟩
  | work =>
      by_cases hp : ∃ t r d, w.worker.phase = .reporting t r d
      · obtain ⟨t, r, d, hp⟩ := hp
        rcases w.deliver_cases hp with ⟨c, -, hv⟩ | ⟨-, hv⟩ | ⟨-, ⟨-, hv⟩ | ⟨-, hv⟩⟩
        · exact ⟨[.delivered t r], by rw [act, hv]; rfl⟩
        · exact ⟨[.undelivered t r .clientClosed], by rw [act, hv]; rfl⟩
        · exact ⟨[.timedOut t r], by rw [act, hv]; rfl⟩
        · exact ⟨[], by rw [act, hv]; rfl⟩
      · push Not at hp
        exact hwrites (w.writes_act rfl fun _ => hp)
  | _ => exact hwrites (w.writes_act rfl fun h => by cases h)

/-! ### Time -/

/-- The worker leaves the present time and the time for deliveries alone. -/
lemma now_work : w.work.now = w.now ∧ w.work.reportTimeout = w.reportTimeout := by
  by_cases hp : ∃ t r d, w.worker.phase = .reporting t r d
  · obtain ⟨t, r, d, hp⟩ := hp
    rcases w.deliver_cases hp with ⟨c, -, hv⟩ | ⟨-, hv⟩ | ⟨-, ⟨-, hv⟩ | ⟨-, hv⟩⟩ <;>
      rw [hv] <;> exact ⟨rfl, rfl⟩
  · push Not at hp
    exact ⟨(w.writes_work hp).now, (w.writes_work hp).reportTimeout⟩

/-- Only the passing of time changes the present time. -/
lemma now_act (a : Action M) :
    (w.act a).now = w.now ∨ ∃ t, a = .pass t ∧ (w.act a).now = max t w.now := by
  cases a with
  | pass t => exact .inr ⟨t, rfl, rfl⟩
  | background | disturb | receive | hangUp => exact .inl rfl
  | work => exact .inl w.now_work.1
  | call c => exact .inl (w.writes_act (a := .call c) rfl (by simp)).now
  | stop => exact .inl (w.writes_act (a := .stop) rfl (by simp)).now
  | close | rouse => exact .inl rfl

lemma reportTimeout_act (a : Action M) : (w.act a).reportTimeout = w.reportTimeout := by
  cases a with
  | background | pass | disturb | receive | hangUp => rfl
  | work => exact w.now_work.2
  | call c => exact (w.writes_act (a := .call c) rfl (by simp)).reportTimeout
  | stop => exact (w.writes_act (a := .stop) rfl (by simp)).reportTimeout
  | close | rouse => rfl

lemma reportTimeout_run (as : List (Action M)) : (w.run as).reportTimeout = w.reportTimeout := by
  induction as generalizing w with
  | nil => rfl
  | cons a as ih => exact (ih (w.act a)).trans (w.reportTimeout_act a)

lemma now_le_act (a : Action M) : w.now ≤ (w.act a).now := by
  rcases w.now_act a with h | ⟨t, -, h⟩
  · exact h.ge
  · exact h ▸ Nat.le_max_right t w.now

/-- Only the worker changes what it is at. -/
lemma worker_act {a : Action M} (ha : a ≠ .work) : (w.act a).worker = w.worker := by
  cases a with
  | work => exact absurd rfl ha
  | call c =>
      rw [act]
      split
      · rfl
      · cases c with
        | start b =>
            simp only [update, start]
            split <;> rfl
        | enqueue c =>
            simp only [update, enqueue]
            split
            · split <;> rfl
            · simp only [preempt]
              split <;> rfl
            · rfl
        | finish => rfl
  | stop =>
      simp only [act, stopUpdate]
      split <;> rfl
  | _ => rfl

/-- An action does not put off what can happen: time passes only while neither the worker nor the
background can go on, and no further than to the next moment at which something is due. -/
def Permits (w : World M) : Action M → Prop
  | .pass t => w.workerReady = false ∧ w.backgroundReady = false ∧ ∀ d ∈ w.due, t ≤ d
  | _ => True

instance (w : World M) (a : Action M) : Decidable (w.Permits a) :=
  match a with
  | .pass _ => inferInstanceAs (Decidable (_ ∧ _ ∧ _))
  | .call _ | .stop | .close | .rouse | .work | .background | .disturb _ | .receive | .hangUp =>
    isTrue trivial

/-- Time that may pass does not pass the end of what the worker waits for. -/
lemma Permits.le_workerWait {t : Nat} (h : w.Permits (.pass t)) {a : Wait}
    (ha : w.workerWait = some a) : t ≤ a.till := by
  obtain ⟨-, -, hdue⟩ := h
  cases hb : w.backgroundWait with
  | none => exact hdue _ (by simp [due, ha, hb, earlierEnd])
  | some b => exact (hdue (min a.till b.till) (by simp [due, ha, hb, earlierEnd])).trans (by simp)

/-- Nor the end of what the background waits for. -/
lemma Permits.le_backgroundWait {t : Nat} (h : w.Permits (.pass t)) {b : Wait}
    (hb : w.backgroundWait = some b) : t ≤ b.till := by
  obtain ⟨-, -, hdue⟩ := h
  cases ha : w.workerWait with
  | none => exact hdue _ (by simp [due, ha, hb, earlierEnd])
  | some a => exact (hdue (min a.till b.till) (by simp [due, ha, hb, earlierEnd])).trans (by simp)

/-- Nothing is put off in a run. -/
def Prompt (w : World M) : List (Action M) → Prop
  | [] => True
  | a :: as => w.Permits a ∧ (w.act a).Prompt as

instance decidablePrompt (w : World M) : (as : List (Action M)) → Decidable (w.Prompt as)
  | [] => isTrue trivial
  | a :: as =>
    have := decidablePrompt (w.act a) as
    inferInstanceAs (Decidable (_ ∧ _))

lemma prompt_append {as bs : List (Action M)} :
    w.Prompt (as ++ bs) ↔ w.Prompt as ∧ (w.run as).Prompt bs := by
  induction as generalizing w with
  | nil => simp [Prompt]
  | cons a as ih => simp [Prompt, ih, and_assoc]

end

end World

end RoverPilot
