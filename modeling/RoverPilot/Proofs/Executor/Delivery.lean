import Mathlib.Tactic
import RoverPilot.Proofs.Batch.Message
import RoverPilot.Proofs.Executor.Fate
import RoverPilot.Proofs.Executor.Hearing
import RoverPilot.Proofs.Executor.Prompt
import RoverPilot.Proofs.Executor.Stop

/-!
What becomes of reports on their way to the model.

* `History.dispatched`, `Ledger.Reachable.dispatched_append`: it becomes known of each report what
  becomes of it, in order, unless it is on its way;
* `World.received`, `World.Conveys`, `World.Carries`: the messages that leave the channel in a run,
  what an action does to the channel, and that it carries the messages in order;
* `World.mem_history_of_dispatched`, `World.not_timedOut`: what becomes of a report is final, and it
  does not take too long if there is room for it at some time;
* `World.Timely`: when reports are made, and when it becomes known what becomes of them;
* `World.Delivers`, `World.run_delivered`: what has become of the reports after every run.
-/

namespace RoverPilot

open History

variable {M : Machinery}

/-- The report that the channel has taken. -/
@[simp] def Event.delivered? : Event M → Option (Token × Result)
  | .delivered t r => some (t, r)
  | _ => none

/-- The report on its way. -/
@[simp] def Phase.report? : Phase M → Option (Token × Result)
  | .reporting t r _ => some (t, r)
  | _ => none

/-- A message has to wait for room exactly if the receiving end is there and there is none. -/
lemma Channel.offer_eq_full_iff {c : Channel} {message : List Char} :
    c.offer message = .full ↔ c.closed = false ∧ c.hasRoom = false := by
  rw [offer]
  cases hclosed : c.closed <;> cases hroom : c.hasRoom <;> simp

namespace History

/-- The reports of which it is known what has become of them, in order. -/
abbrev dispatched (h : List (Event M)) : List (Token × Result) := view Event.dispatched? h

/-- The reports that the channel has taken, in order. -/
abbrev delivered (h : List (Event M)) : List (Token × Result) := view Event.delivered? h

lemma delivered_sublist_dispatched (h : List (Event M)) : (delivered h).Sublist (dispatched h) := by
  induction h with
  | nil => exact .slnil
  | cons e h ih => cases e <;> simp [ih]

/-- Where nothing becomes of reports, none is delivered. -/
lemma delivered_eq_nil {h : List (Event M)} (hnone : ∀ e ∈ h, e.dispatched? = none) :
    delivered h = [] := by
  rw [List.eq_nil_iff_forall_not_mem]
  intro x hx
  obtain ⟨e, he, hex⟩ := mem_view.mp hx
  have hset := hnone e he
  cases e <;> simp_all

/-- Where a view says nothing twice, it says each thing of one event. -/
lemma eq_of_nodup_view {α : Type} {f : Event M → Option α} {h : List (Event M)}
    (hnodup : (view f h).Nodup) {e e' : Event M} (he : e ∈ h) (he' : e' ∈ h) {x : α}
    (hx : f e = some x) (hx' : f e' = some x) : e = e' := by
  induction h with
  | nil => cases he
  | cons a h ih =>
      rw [view_cons, List.nodup_append] at hnodup
      obtain ⟨-, hrest, hapart⟩ := hnodup
      have hfirst {e : Event M} (ha : f a = some x) (he : e ∈ h) : f e ≠ some x := fun hx =>
        hapart x (by simp [ha]) x (mem_view.mpr ⟨e, he, hx⟩) rfl
      rcases List.mem_cons.mp he with rfl | hmem <;> rcases List.mem_cons.mp he' with rfl | hmem'
      · rfl
      · exact absurd hx' (hfirst hx hmem')
      · exact absurd hx (hfirst hx' hmem)
      · exact ih hrest hmem hmem'

end History

namespace Ledger

variable {l l' : Ledger M}

/-- It becomes known of each report what becomes of it, in order, unless it is on its way. -/
lemma Reachable.dispatched_append (h : Reachable l) :
    dispatched l.history ++ l.worker.phase.report?.toList = reports l.history := by
  induction h with
  | initial => rfl
  | step hr hs ih => cases hs <;> simp_all

/-- No report is dispatched twice. -/
lemma Reachable.nodup_dispatched (h : Reachable l) :
    (dispatched l.history ++ l.worker.phase.report?.toList).Nodup := by
  rw [h.dispatched_append]
  exact (h.nodup_retired.sublist (reports_sublist_retired l.history)).of_map

end Ledger

namespace World

variable {w v : World M} {t : Token} {r : Result} {deadline : Nat}

/-! ### The channel -/

/-- The message that leaves the channel, if any. -/
def reception (w : World M) : Action M → List (List Char)
  | .receive => w.channel.receive.1.toList
  | _ => []

/-- The messages that leave the channel in a run, in order. -/
def received (w : World M) : List (Action M) → List (List Char)
  | [] => []
  | a :: as => w.reception a ++ (w.act a).received as

/-- The messages for the reports that the channel has taken, in order. -/
def sent (w : World M) : List (List Char) := (delivered w.history).map fun x => x.2.encode

lemma Writes.history (h : Writes w v) :
    ∃ new, v.history = w.history ++ new ∧ ∀ e ∈ new, e.dispatched? = none := by
  obtain ⟨new, hnew, hnone⟩ := h.journal
  exact ⟨new.reverse, by simp [World.history, hnew, Function.comp_def], by simpa using hnone⟩

lemma Writes.sent (h : Writes w v) : v.sent = w.sent := by
  obtain ⟨new, hnew, hnone⟩ := h.history
  simp [World.sent, hnew, delivered_eq_nil hnone]

/-- What an action does to the channel, with the messages that it takes from it. -/
inductive Conveys (w v : World M) (ms : List (List Char)) : Prop where
  /-- Nothing. -/
  | nothing (hchannel : v.channel = w.channel) (hsent : v.sent = w.sent) (hms : ms = [])
  /-- The channel takes the message for a report that is on its way. -/
  | takes (x : Token × Result) (hreport : w.worker.phase.report? = some x)
      (hover : v.worker.phase = .looking)
      (hoffer : w.channel.offer x.2.encode = .taken v.channel)
      (hsent : v.sent = w.sent ++ [x.2.encode]) (hms : ms = [])
  /-- The oldest message leaves. -/
  | gives (m : List Char) (rest : List (List Char)) (hmessages : w.channel.messages = m :: rest)
      (hchannel : v.channel = { w.channel with messages := rest }) (hsent : v.sent = w.sent)
      (hms : ms = [m])
  /-- The receiving end goes. -/
  | closes (hchannel : v.channel = w.channel.close) (hsent : v.sent = w.sent) (hms : ms = [])

lemma Writes.conveys (h : Writes w v) : Conveys w v [] := .nothing h.channel h.sent rfl

@[simp] lemma history_note_enter (w : World M) (e : Event M) (p : Phase M) :
    ((w.note e).enter p).history = w.history ++ [e] := by
  simp [World.history, note, enter]

lemma conveys_deliver (hp : w.worker.phase = .reporting t r deadline) : Conveys w w.work [] := by
  have hnothing {e : Event M} (he : e.delivered? = none) :
      Conveys w ((w.note e).enter .looking) [] :=
    .nothing rfl (by rw [sent, history_note_enter, delivered, view_concat he, sent]) rfl
  rcases w.deliver_cases hp with ⟨c, hoffer, hv⟩ | ⟨-, hv⟩ | ⟨-, ⟨-, hv⟩ | ⟨-, hv⟩⟩
  · refine .takes (t, r) (by rw [hp]; rfl) (by rw [hv]; rfl) (by rw [hv]; exact hoffer) ?_ rfl
    simp [hv, sent, World.history, note, enter]
  · exact hv ▸ hnothing rfl
  · exact hv ▸ hnothing rfl
  · exact .nothing (by rw [hv]) (by rw [hv]) rfl

/-- Every action does one of these things. -/
lemma conveys_act (w : World M) (a : Action M) : Conveys w (w.act a) (w.reception a) := by
  cases a with
  | receive =>
      cases hm : w.channel.messages with
      | nil =>
          have hchannel : w.channel.receive = (none, w.channel) := by
            cases hc : w.channel
            simp_all [Channel.receive]
          exact .nothing (by simp [act, hchannel]) rfl (by simp [reception, hchannel])
      | cons m rest =>
          exact .gives m rest hm (by simp [act, Channel.receive, hm]) rfl
            (by simp [reception, Channel.receive, hm])
  | hangUp => exact .closes rfl rfl rfl
  | background | pass | disturb => exact .nothing rfl rfl rfl
  | work =>
      by_cases hp : ∃ t r d, w.worker.phase = .reporting t r d
      · obtain ⟨t, r, d, hp⟩ := hp
        exact conveys_deliver hp
      · push Not at hp
        exact (w.writes_work hp).conveys
  | call c => exact (w.writes_act (a := .call c) rfl (by simp)).conveys
  | stop => exact w.writes_stopUpdate.conveys
  | close => exact w.writes_closeUpdate.conveys
  | rouse => exact .nothing rfl rfl rfl

/-- The messages received so far are the first ones of those that were sent, and the others wait
as long as the receiving end is there. -/
structure Carries (w : World M) (rs : List (List Char)) : Prop where
  received : rs <+: w.sent
  waiting : w.channel.closed = false → rs ++ w.channel.messages = w.sent
  lost : w.channel.closed = true → w.channel.messages = []

lemma Carries.conveys {rs ms : List (List Char)} (h : w.Carries rs) (hv : Conveys w v ms) :
    v.Carries (rs ++ ms) := by
  cases hv with
  | nothing hchannel hsent hms =>
      rw [hms, List.append_nil]
      refine ⟨hsent ▸ h.received, ?_, hchannel ▸ h.lost⟩
      rw [hchannel, hsent]
      exact h.waiting
  | takes x hreport hover hoffer hsent hms =>
      obtain ⟨hmessages, -, hopen'⟩ := Channel.messages_of_offer hoffer
      have hopen : w.channel.closed = false := by
        by_contra hne
        have hrefused : w.channel.offer x.2.encode = .refused :=
          Channel.offer_eq_refused_iff.mpr (by simpa using hne)
        rw [hoffer] at hrefused
        cases hrefused
      rw [hms, List.append_nil]
      refine ⟨?_, fun _ => ?_, fun hclosed => by rw [hopen'] at hclosed; cases hclosed⟩
      · exact hsent ▸ h.received.trans (List.prefix_append _ _)
      · rw [hmessages, ← List.append_assoc, h.waiting hopen, hsent]
  | gives m rest hmessages hchannel hsent hms =>
      have hopen : w.channel.closed = false := by
        by_contra hne
        rw [h.lost (by simpa using hne)] at hmessages
        cases hmessages
      have hwaiting : rs ++ [m] ++ rest = w.sent := by
        rw [← h.waiting hopen, hmessages, List.append_assoc]
        rfl
      rw [hms]
      refine ⟨hsent ▸ hwaiting ▸ List.prefix_append _ _, fun _ => ?_, fun hclosed => ?_⟩
      · rw [hchannel, hsent]
        exact hwaiting
      · rw [hchannel] at hclosed
        exact absurd (hopen.symm.trans hclosed) (by simp)
  | closes hchannel hsent hms =>
      rw [hms, List.append_nil]
      refine ⟨hsent ▸ h.received, fun hopen => ?_, fun _ => by rw [hchannel]; rfl⟩
      rw [hchannel] at hopen
      cases hopen

/-- So it is after every run. -/
lemma Carries.run {rs : List (List Char)} (h : w.Carries rs) (as : List (Action M)) :
    (w.run as).Carries (rs ++ w.received as) := by
  induction as generalizing w rs with
  | nil => simpa [World.received] using h
  | cons a as ih =>
      rw [World.received, ← List.append_assoc]
      exact ih (h.conveys (w.conveys_act a))

/-! ### What becomes of a report -/

/-- What becomes of a report is final. -/
lemma mem_history_of_dispatched (hw : w.ledger.Reachable) {x : Token × Result}
    (hx : x ∈ dispatched w.history) (as : List (Action M)) {e : Event M}
    (he : e ∈ (w.run as).history) (hex : e.dispatched? = some x) : e ∈ w.history := by
  have hsteps := w.steps_run hw as
  obtain ⟨new, hnew⟩ : w.history <+: (w.run as).history := hsteps.history_isPrefix
  have hnodup := (List.nodup_append.mp (hw.steps hsteps).nodup_dispatched).1
  rw [ledger_history, ← hnew, dispatched, view_append] at hnodup
  rw [← hnew, List.mem_append] at he
  refine he.resolve_right fun he => ?_
  exact (List.nodup_append.mp hnodup).2.2 x hx x (mem_view.mpr ⟨e, he, hex⟩) rfl

/-- A report on its way has not been dispatched. -/
lemma not_mem_dispatched (hw : w.ledger.Reachable) {x : Token × Result}
    (hx : w.worker.phase.report? = some x) : x ∉ dispatched w.history := by
  have hnodup := hw.nodup_dispatched
  rw [ledger_worker, hx] at hnodup
  exact fun hmem => (List.nodup_append.mp hnodup).2.2 x hmem x (by simp) rfl

/-- While a report is on its way, room for it stays. -/
lemma Conveys.offer_ne_full {ms : List (List Char)} (h : Conveys w v ms)
    (hp : v.worker.phase = .reporting t r deadline) (hroom : w.channel.offer r.encode ≠ .full) :
    v.channel.offer r.encode ≠ .full := by
  rw [Ne, Channel.offer_eq_full_iff] at hroom ⊢
  cases h with
  | nothing hchannel => rwa [hchannel]
  | takes x hreport hover => rw [hp] at hover; cases hover
  | gives m rest hmessages hchannel =>
      simp only [hchannel, Channel.hasRoom, hmessages, List.length_cons] at hroom ⊢
      grind
  | closes hchannel => simp [hchannel, Channel.close]

/-- A report does not take too long if there is room for it at some time while it is on its way,
or if the receiving end is gone by then. -/
lemma not_timedOut (hw : w.ledger.Reachable) (hp : w.worker.phase = .reporting t r deadline)
    (hroom : w.channel.offer r.encode ≠ .full) (as : List (Action M)) :
    .timedOut t r ∉ (w.run as).history := by
  have hreport : w.worker.phase.report? = some (t, r) := by rw [hp]; rfl
  have hfirst : .timedOut t r ∉ w.history := fun hmem =>
    not_mem_dispatched hw hreport (mem_view.mpr ⟨_, hmem, rfl⟩)
  induction as generalizing w with
  | nil => exact hfirst
  | cons a as ih =>
      have hact := hw.steps (w.steps_act a hw.signalled)
      have hdone {e : Event M} (he : e.dispatched? = some (t, r)) (hne : e ≠ .timedOut t r)
          (hhistory : (w.act a).history = w.history ++ [e]) :
          .timedOut t r ∉ ((w.act a).run as).history := by
        intro hmem
        have hold := mem_history_of_dispatched hact (x := (t, r))
          (mem_view.mpr ⟨e, by simp [hhistory], he⟩) as hmem rfl
        rw [hhistory, List.mem_append, List.mem_singleton] at hold
        exact hold.elim hfirst fun heq => hne heq.symm
      by_cases ha : a = .work
      · subst ha
        rcases w.deliver_cases hp with ⟨c, -, hv⟩ | ⟨-, hv⟩ | ⟨hfull, -⟩
        · exact hdone (e := .delivered t r) rfl (by simp) (by rw [act, hv, history_note_enter]; rfl)
        · exact hdone (e := .undelivered t r .clientClosed) rfl (by simp)
            (by rw [act, hv, history_note_enter])
        · exact absurd hfull hroom
      · have hphase : (w.act a).worker.phase = .reporting t r deadline := by
          rw [w.worker_act ha, hp]
        have hreport' : (w.act a).worker.phase.report? = some (t, r) := by rw [hphase]; rfl
        exact ih hact hphase ((w.conveys_act a).offer_ne_full hphase hroom) hreport' fun hmem =>
          not_mem_dispatched hact hreport' (mem_view.mpr ⟨_, hmem, rfl⟩)

/-! ### Times -/

lemma report?_attend (w : World M) (b : BatchId) (t : Token) :
    (w.attend b t).worker.phase.report? = none := by
  rcases w.attend_cases b t with ⟨_, _, _, _, h⟩ | ⟨_, _, _, h⟩ | ⟨_, h⟩ <;> rw [h] <;> rfl

lemma report?_look (w : World M) : w.look.worker.phase.report? = none := by
  rw [look]
  split
  · cases hc : w.noticePreemption.board.closing <;> simp [enter, hc]
  · exact report?_attend _ _ _

lemma report?_afterCall (w : World M) (b : BatchId) (t : Token) (c : Command)
    (r : M.Plant × Progress M.Activity) : (w.afterCall b t c r).worker.phase.report? = none := by
  obtain ⟨p, a | e⟩ := r <;> rfl

lemma report?_afterFinish (w : World M) (b : BatchId) (t : Token) (ks : List M.Handler)
    (r : M.Plant × Progress M.Activity) :
    (w.afterFinish b t ks r).worker.phase.report? = none := by
  obtain ⟨p, a | e⟩ := r <;> rfl

/-- A batch that is over is reported now, and its report is on its way for the time that a
delivery may take. -/
lemma Retires.reporting {b : BatchId} (h : w.Retires b t) :
    ∃ r, w.work.worker.phase = .reporting t r (w.now + w.reportTimeout) ∧
      (w.now, .reported t r) ∈ w.work.journal := by
  rw [h.work, retire]
  simp only [if_neg (not_not.mpr h.2)]
  have hclear (v : World M) (hv : v.now = w.now) : v.clearBoard.now = w.now :=
    v.writes_clearBoard.now.trans hv
  cases w.worker.outcome.isOk <;> exact ⟨_, rfl, by simp [note, enter, hclear, cancel]⟩

/-- Only a batch that is over brings a report on its way. -/
lemma report?_work (hp : ∀ b t, ¬ w.Retires b t) (hnone : w.worker.phase.report? = none) :
    w.work.worker.phase.report? = none := by
  rw [work]
  cases hphase : w.worker.phase with
  | looking => exact w.report?_look
  | parked =>
      simp only
      split
      · rfl
      · exact hnone
  | popped b t c =>
      rcases w.begin_cases b t c with ⟨-, h⟩ | ⟨k, -, ⟨-, h⟩ | ⟨-, h⟩⟩ <;> simp only [h]
      · rfl
      · rfl
      · exact report?_afterCall _ _ _ _ _
  | running b t c a =>
      simp only [proceed, afterLook]
      split
      · exact report?_afterCall _ _ _ _ _
      · split
        · rfl
        · exact report?_afterCall _ _ _ _ _
  | finishing b t ks =>
      cases ks with
      | nil =>
          have he : w.board.epoch ≠ w.worker.epoch := fun he => hp b t ⟨hphase, he⟩
          simp only [retire, if_pos he]
          rfl
      | cons k ks => exact report?_afterFinish _ _ _ _ _
  | finishingCall b t a ks => exact report?_afterFinish _ _ _ _ _
  | reporting t r d => rw [hphase] at hnone; cases hnone
  | exited => exact hnone

/-- A report that is on its way was so before, or its batch is over now. -/
lemma reporting_act {a : Action M} (hp : (w.act a).worker.phase = .reporting t r deadline) :
    w.worker.phase = .reporting t r deadline ∨
      deadline = w.now + w.reportTimeout ∧ (w.act a).now = w.now ∧
        (w.now, .reported t r) ∈ (w.act a).journal := by
  by_cases ha : a = .work
  · subst ha
    have hreport : w.work.worker.phase.report? = some (t, r) := congrArg Phase.report? hp
    by_cases hover : ∃ b t, w.Retires b t
    · obtain ⟨b, u, hover⟩ := hover
      obtain ⟨r', hphase, hjournal⟩ := hover.reporting
      obtain ⟨rfl, rfl, rfl⟩ : t = u ∧ r = r' ∧ deadline = w.now + w.reportTimeout := by
        simpa using hp.symm.trans hphase
      exact .inr ⟨rfl, w.now_work.1, hjournal⟩
    · push Not at hover
      cases hphase : w.worker.phase with
      | reporting u r' d =>
          rcases w.deliver_cases hphase with ⟨c, -, hv⟩ | ⟨-, hv⟩ | ⟨-, ⟨-, hv⟩ | ⟨-, hv⟩⟩
          · rw [hv] at hreport; cases hreport
          · rw [hv] at hreport; cases hreport
          · rw [hv] at hreport; cases hreport
          · rw [act, hv, hphase] at hp
            exact .inl hp
      | _ =>
          rw [report?_work hover (by rw [hphase]; rfl)] at hreport
          cases hreport
  · exact .inl (by rw [← w.worker_act ha, hp])

/-- What becomes of a report on its way is written down now, if it becomes known. -/
lemma dispatched_deliver {u : Token} {r' : Result} {d s : Nat} {e : Event M}
    (hp : w.worker.phase = .reporting u r' d) (he : (s, e) ∈ w.work.journal)
    (hx : e.dispatched? = some (t, r)) :
    (s, e) ∈ w.journal ∨ s = w.now ∧ (u = t ∧ r' = r) ∧ (e = .timedOut t r → d ≤ w.now) ∧
      (∀ x, e = .undelivered t r x → w.channel.closed = true) := by
  -- only one event is new, and it is about the report on its way
  have hnew (e' : Event M) {c : Channel} (he' : e'.dispatched? = some (u, r'))
      (hv : w.work = ({ w with channel := c }.note e').enter .looking) :
      (s, e) ∈ w.journal ∨ e = e' ∧ s = w.now ∧ u = t ∧ r' = r := by
    rw [hv] at he
    rcases List.mem_cons.mp he with heq | hold
    · cases heq
      cases he'.symm.trans hx
      exact .inr ⟨rfl, rfl, rfl, rfl⟩
    · exact .inl hold
  rcases w.deliver_cases hp with ⟨c, -, hv⟩ | ⟨hclosed, hv⟩ | ⟨-, ⟨hd, hv⟩ | ⟨-, hv⟩⟩
  · refine (hnew (.delivered u r') rfl hv).imp_right ?_
    rintro ⟨rfl, hs, hreport⟩
    exact ⟨hs, hreport, by simp, by simp⟩
  · refine (hnew (.undelivered u r' .clientClosed) rfl hv).imp_right ?_
    rintro ⟨rfl, hs, hreport⟩
    exact ⟨hs, hreport, by simp, fun _ _ => hclosed⟩
  · refine (hnew (.timedOut u r') rfl hv).imp_right ?_
    rintro ⟨rfl, hs, hreport⟩
    exact ⟨hs, hreport, fun _ => hd, by simp⟩
  · exact .inl (hv ▸ he)

/-- What becomes of a report is written down when it was written down before, or now, as the report
is on its way. -/
lemma dispatched_act {a : Action M} {s : Nat} {e : Event M} (he : (s, e) ∈ (w.act a).journal)
    (hx : e.dispatched? = some (t, r)) :
    (s, e) ∈ w.journal ∨ s = w.now ∧ ∃ d, w.worker.phase = .reporting t r d ∧
      (e = .timedOut t r → d ≤ w.now) ∧
      (∀ x, e = .undelivered t r x → w.channel.closed = true) := by
  have hwrites (h : Writes w (w.act a)) : (s, e) ∈ w.journal := by
    obtain ⟨new, hnew, hnone⟩ := h.journal
    rw [hnew, List.mem_append, List.mem_map] at he
    rcases he with ⟨e', he', heq⟩ | he
    · cases heq
      rw [hnone e he'] at hx
      cases hx
    · exact he
  cases a with
  | background | pass | disturb | receive | hangUp => exact .inl he
  | call c => exact .inl (hwrites (w.writes_act rfl (by simp)))
  | stop | close | rouse => exact .inl (hwrites (w.writes_act rfl (by simp)))
  | work =>
      by_cases hp : ∃ u r' d, w.worker.phase = .reporting u r' d
      · obtain ⟨u, r', d, hp⟩ := hp
        refine (dispatched_deliver hp he hx).imp_right ?_
        rintro ⟨hs, ⟨rfl, rfl⟩, hlate, hclosed⟩
        exact ⟨hs, d, hp, hlate, hclosed⟩
      · push Not at hp
        exact .inl (hwrites (w.writes_work hp))

/-- A receiving end that is gone does not come back. -/
lemma closed_act (h : w.channel.closed = true) (a : Action M) :
    (w.act a).channel.closed = true := by
  cases w.conveys_act a with
  | nothing hchannel => rwa [hchannel]
  | takes x hreport hover hoffer =>
      rw [Channel.offer, if_pos h] at hoffer
      cases hoffer
  | gives m rest hmessages hchannel => rwa [hchannel]
  | closes hchannel => rw [hchannel]; rfl

/-- When reports are made, and when it becomes known what becomes of them.  Where nothing is put
off that is no later than the time for a delivery allows. -/
structure Timely (w : World M) (strict : Prop) : Prop where
  /-- A report is on its way for the time that a delivery may take. -/
  deadline : ∀ t r d, w.worker.phase = .reporting t r d →
    ∃ s, (s, .reported t r) ∈ w.journal ∧ s ≤ w.now ∧ d = s + w.reportTimeout ∧
      (strict → w.now ≤ d)
  /-- It becomes known what becomes of a report once it is made, and that it took too long once
  that time is over. -/
  dispatched : ∀ s' e t r, (s', e) ∈ w.journal → e.dispatched? = some (t, r) →
    ∃ s, (s, .reported t r) ∈ w.journal ∧ s ≤ s' ∧
      (e = .timedOut t r → s + w.reportTimeout ≤ s') ∧ (strict → s' ≤ s + w.reportTimeout)
  /-- Only a channel whose receiving end is gone refuses a report. -/
  refused : ∀ s t r x, (s, .undelivered t r x) ∈ w.journal → w.channel.closed = true

lemma Timely.act {strict : Prop} (h : w.Timely strict) {a : Action M} (ha : strict → w.Permits a) :
    (w.act a).Timely strict := by
  obtain ⟨new, hnew⟩ := w.journal_act a
  have hmono {x : Nat × Event M} (hx : x ∈ w.journal) : x ∈ (w.act a).journal := by
    rw [hnew]
    exact List.mem_append_right _ hx
  refine ⟨fun t r d hp => ?_, fun s' e t r he hx => ?_, fun s t r x he => ?_⟩
  · rw [w.reportTimeout_act]
    rcases reporting_act hp with hphase | ⟨rfl, hnow, hreport⟩
    · obtain ⟨s, hs, hle, rfl, hpresent⟩ := h.deadline t r d hphase
      refine ⟨s, hmono hs, hle.trans (w.now_le_act a), rfl, fun hstrict => ?_⟩
      rcases w.now_act a with hnow | ⟨u, rfl, hnow⟩
      · exact hnow ▸ hpresent hstrict
      · have hwait : w.workerWait = some
            { since := s + w.reportTimeout - w.reportTimeout, till := s + w.reportTimeout } := by
          simp [workerWait, hphase]
        exact hnow ▸ Nat.max_le.mpr ⟨Permits.le_workerWait _ (ha hstrict) hwait, hpresent hstrict⟩
    · exact ⟨w.now, hreport, hnow.ge, rfl, fun _ => hnow ▸ Nat.le_add_right _ _⟩
  · rw [w.reportTimeout_act]
    rcases dispatched_act he hx with he | ⟨rfl, d, hp, hlate, -⟩
    · obtain ⟨s, hs, hrest⟩ := h.dispatched s' e t r he hx
      exact ⟨s, hmono hs, hrest⟩
    · obtain ⟨s, hs, hle, rfl, hpresent⟩ := h.deadline t r d hp
      exact ⟨s, hmono hs, hle, hlate, hpresent⟩
  · refine closed_act ?_ a
    rcases dispatched_act he rfl with he | ⟨-, d, -, -, hclosed⟩
    · exact h.refused s t r x he
    · exact hclosed x rfl

lemma timely_fresh (p : M.Plant) (ch : Channel) (d : Nat) (strict : Prop) :
    (fresh p ch d).Timely strict where
  deadline _ _ _ hp := by cases hp
  dispatched _ _ _ _ he := by cases he
  refused _ _ _ _ he := by cases he

/-- So it is after every run. -/
lemma Timely.run {strict : Prop} (h : w.Timely strict) (as : List (Action M))
    (has : strict → w.Prompt as) : (w.run as).Timely strict := by
  induction as generalizing w with
  | nil => exact h
  | cons a as ih =>
      exact ih (h.act fun hstrict => (has hstrict).1) fun hstrict => (has hstrict).2

/-! ### All of it -/

/-- What has become of the reports, when the given messages were received. -/
structure Delivers (w : World M) (rs : List (List Char)) : Prop where
  /-- A batch is reported once. -/
  once : ((reports w.history).map Prod.fst).Nodup
  /-- It becomes known of each report what becomes of it, in order, unless it is on its way. -/
  dispatched : dispatched w.history ++ w.worker.phase.report?.toList = reports w.history
  /-- The reports delivered are among them, in the same order. -/
  delivered : (delivered w.history).Sublist (reports w.history)
  /-- Only one thing becomes of a report: one that took too long, or was refused, is not
  delivered. -/
  apart : ∀ t r, .delivered t r ∈ w.history →
    .timedOut t r ∉ w.history ∧ ∀ x, .undelivered t r x ∉ w.history
  /-- The messages received are those for the first reports delivered, in order. -/
  received : ∃ xs, xs <+: History.delivered w.history ∧ rs = xs.map fun x => x.2.encode
  /-- As long as the receiving end is there the messages for the others wait. -/
  waiting : w.channel.closed = false →
    rs ++ w.channel.messages = (History.delivered w.history).map fun x => x.2.encode
  /-- A report under a positive id can be read from its message. -/
  readable : ∀ x ∈ History.delivered w.history, 0 < x.2.id → Result.decode x.2.encode = .ok x.2
  /-- A report is refused only if the receiving end is gone. -/
  refused : ∀ t r x, .undelivered t r x ∈ w.history → w.channel.closed = true
  /-- A report takes too long only after the whole time for a delivery. -/
  late : ∀ s' t r, (s', .timedOut t r) ∈ w.journal →
    ∃ s, (s, .reported t r) ∈ w.journal ∧ s + w.reportTimeout ≤ s'
  /-- While a report is on its way the worker only waits, and then it looks at the board as it is,
  whatever has become of the report. -/
  next : ∀ t r d, w.worker.phase = .reporting t r d →
    w.work = w ∧ w.channel.offer r.encode = .full ∧ w.now < d ∨
      ∃ c e, e.dispatched? = some (t, r) ∧
        w.work = ({ w with channel := c }.note e).enter .looking

lemma mem_history_iff {e : Event M} : e ∈ w.history ↔ ∃ s, (s, e) ∈ w.journal := by
  simp [World.history]

/-- What has become of the reports can be read off the channel, the times and the history. -/
lemma delivers {rs : List (List Char)} (hw : w.ledger.Reachable) (hcarries : w.Carries rs)
    (htimely : w.Timely False) : w.Delivers rs := by
  have hnodup := (List.nodup_append.mp hw.nodup_dispatched).1
  have heq := hw.dispatched_append
  have hunique {e e' : Event M} {x : Token × Result} (he : e ∈ w.history) (he' : e' ∈ w.history)
      (hx : e.dispatched? = some x) (hx' : e'.dispatched? = some x) : e = e' :=
    eq_of_nodup_view hnodup he he' hx hx'
  refine
    { once := hw.nodup_retired.sublist (Ledger.reports_sublist_retired w.history)
      dispatched := heq
      delivered := (delivered_sublist_dispatched _).trans (heq ▸ List.sublist_append_left _ _)
      apart := fun t r he => ⟨fun he' => ?_, fun x he' => ?_⟩
      received := ?_
      waiting := hcarries.waiting
      readable := fun x _ hid => Result.decode_encode hid
      refused := fun t r x he => ?_
      late := fun s' t r he => ?_
      next := fun t r d hp => ?_ }
  · cases hunique he he' (x := (t, r)) rfl rfl
  · cases hunique he he' (x := (t, r)) rfl rfl
  · obtain ⟨ys, hys⟩ := hcarries.received
    obtain ⟨xs, zs, hxs, hrs, -⟩ := List.map_eq_append_iff.mp hys.symm
    exact ⟨xs, hxs ▸ List.prefix_append _ _, hrs.symm⟩
  · obtain ⟨s, hs⟩ := mem_history_iff.mp he
    exact htimely.refused s t r x hs
  · obtain ⟨s, hs, -, hlate, -⟩ := htimely.dispatched s' _ t r he rfl
    exact ⟨s, hs, hlate rfl⟩
  · rcases w.deliver_cases hp with ⟨c, -, hv⟩ | ⟨-, hv⟩ | ⟨hfull, ⟨-, hv⟩ | ⟨hd, hv⟩⟩
    · exact .inr ⟨c, .delivered t r, rfl, hv⟩
    · exact .inr ⟨w.channel, .undelivered t r .clientClosed, rfl, hv⟩
    · exact .inr ⟨w.channel, .timedOut t r, rfl, hv⟩
    · exact .inl ⟨hv, hfull, hd⟩

end World

/-- Reports reach the model in order, each at most once, as messages from which they can be read.
One is missing only if the receiving end is gone, or after the whole time for a delivery during
which there was no room at any moment; it is not delivered later.  If nothing is put off, the
worker is at a report no longer than that time, and then looks at the board at once, which is as if
the report had been delivered. -/
theorem World.run_delivered (p : M.Plant) (n d : Nat) (as : List (Action M)) :
    let u : World M := fresh p (.withCapacity n) d
    let w := u.run as
    w.Delivers (u.received as) ∧
      (∀ bs cs t r e, as = bs ++ cs → (u.run bs).worker.phase = .reporting t r e →
        .timedOut t r ∈ w.history →
          (u.run bs).channel.closed = false ∧ (u.run bs).channel.hasRoom = false) ∧
      (u.Prompt as →
        (∀ t r e, w.worker.phase = .reporting t r e →
          w.now ≤ e ∧ ∃ s, (s, .reported t r) ∈ w.journal ∧ e = s + d) ∧
        (∀ s' e t r, (s', e) ∈ w.journal → e.dispatched? = some (t, r) →
          ∃ s, (s, .reported t r) ∈ w.journal ∧ s ≤ s' ∧ s' ≤ s + d) ∧
        (w.worker.phase = .looking → ∀ t, ¬ w.Permits (.pass t))) := by
  intro u w
  have hreach (bs : List (Action M)) : (u.run bs).ledger.Reachable := reachable_run p _ d bs
  have hw : w.ledger.Reachable := hreach as
  have htimeout : w.reportTimeout = d := u.reportTimeout_run as
  have hcarries : w.Carries (u.received as) :=
    (⟨List.prefix_refl _, fun _ => rfl, fun _ => rfl⟩ : u.Carries []).run as
  have htimely (strict : Prop) (has : strict → u.Prompt as) : w.Timely strict :=
    (timely_fresh p _ d strict).run as has
  refine ⟨delivers hw hcarries (htimely False False.elim), fun bs cs t r e has hp htimedOut => ?_,
    fun hprompt => ?_⟩
  · by_contra hroom
    have htaken : (u.run bs).channel.offer r.encode ≠ .full := mt Channel.offer_eq_full_iff.mp hroom
    have hnot := not_timedOut (hreach bs) hp htaken cs
    rw [← run_append, ← has] at hnot
    exact hnot htimedOut
  · have ht := htimely (u.Prompt as) id
    refine ⟨fun t r e hp => ?_, fun s' e t r he hx => ?_, fun hp t hpermits => ?_⟩
    · obtain ⟨s, hs, -, rfl, hpresent⟩ := ht.deadline t r e hp
      exact ⟨hpresent hprompt, s, hs, by rw [htimeout]⟩
    · obtain ⟨s, hs, hle, -, hpresent⟩ := ht.dispatched s' e t r he hx
      exact ⟨s, hs, hle, htimeout ▸ hpresent hprompt⟩
    · have hready := hpermits.1
      rw [workerReady, hp] at hready
      cases hready

/-! ### A channel with room for one report -/

/-- The standard robot, with such a channel. -/
def narrowWorld : World (Rig.machinery {}) :=
  .fresh (M := Rig.machinery {}) standardWorld.plant (.withCapacity 1) 5000

/-- Two batches without commands end, and no message is received. -/
def twoReported : List (Action (Rig.machinery {})) :=
  [.call (.start 1), .call .finish, .work, .work, .work, .call (.start 2), .call .finish, .work,
    .work, .work]

/-- The second report takes too long.  Once the first message is received there is room for the
report on a third batch. -/
def secondTimedOut : List (Action (Rig.machinery {})) :=
  [.pass 5000, .work, .receive, .call (.start 3), .call .finish, .work, .work, .work]

/-- The second report is missing, as there was no room for it. -/
theorem World.run_delivered_narrow :
    let w := narrowWorld.run (twoReported ++ secondTimedOut)
    let v := narrowWorld.run twoReported
    narrowWorld.Prompt (twoReported ++ secondTimedOut) ∧
      w.Delivers [Result.encode ⟨1, .ok, .none⟩] ∧
      delivered w.history = [(0, ⟨1, .ok, .none⟩), (2, ⟨3, .ok, .none⟩)] ∧
      v.worker.phase = .reporting 1 ⟨2, .ok, .none⟩ 5000 ∧
      (5000, .timedOut 1 ⟨2, .ok, .none⟩) ∈ w.journal ∧
      v.channel.closed = false ∧ v.channel.hasRoom = false ∧
      ∃ s, (s, .reported 1 ⟨2, .ok, .none⟩) ∈ w.journal ∧ s ≤ 5000 ∧ 5000 ≤ s + 5000 := by
  intro w v
  have hprompt : narrowWorld.Prompt (twoReported ++ secondTimedOut) := by decide +kernel
  have hreceived : narrowWorld.received (twoReported ++ secondTimedOut) =
      [Result.encode ⟨1, .ok, .none⟩] := by decide +kernel
  have hphase : v.worker.phase = .reporting 1 ⟨2, .ok, .none⟩ 5000 := rfl
  have hlate : (5000, .timedOut 1 ⟨2, .ok, .none⟩) ∈ w.journal :=
    List.mem_of_getElem? (i := 4) rfl
  obtain ⟨hdelivers, hfull, htimes⟩ :=
    World.run_delivered standardWorld.plant 1 5000 (twoReported ++ secondTimedOut)
  obtain ⟨hopen, hroom⟩ := hfull twoReported secondTimedOut 1 ⟨2, .ok, .none⟩ 5000 rfl hphase
    (World.mem_history_iff.mpr ⟨5000, hlate⟩)
  exact ⟨hprompt, hreceived ▸ hdelivers, by decide +kernel, hphase, hlate, hopen, hroom,
    (htimes hprompt).2.1 5000 _ 1 _ hlate rfl⟩

end RoverPilot
