import Mathlib.Tactic
import RoverPilot.Proofs.Executor.Touch
import RoverPilot.Proofs.Robot.Life
import RoverPilot.Proofs.Robot.Speaking

/-!
Texts that commands give to the voice.

* `History.said`: these texts, in order;
* `World.Suited`: the call that the worker is at has to do with the voice only if its command is to
  speak, and then it is about the text of the command;
* `World.Relays`: what the voice is given is what commands give to it;
* `Speaks.command`, `Speaks.finishing`: so it is with a call for a command and with one that lets a
  handler finish;
* `Speaks.work`, `Speaks.happen`: and so with whatever the worker does and whatever happens.
-/

namespace RoverPilot

open History

variable {rig : Rig}

/-- The text that a command has given to the voice, under the signal of its batch. -/
@[simp] def Event.said? : Event rig.machinery → Option (Token × String)
  | .ended t c (.returned .ok) =>
    if rig.registry.find? c.name = some .say then some (t, " ".intercalate c.args) else none
  | _ => none

/-- The texts that commands have given to the voice, in order. -/
abbrev History.said (h : List (Event rig.machinery)) : List (Token × String) := view Event.said? h

/-! ### Calls that speak -/

/-- The activity of a call suits the command that it carries out, if it does: only a handler that
speaks waits for an utterance, and then for the text of the command. -/
def Activity.Suits (rig : Rig) (c? : Option Command) : Activity → Prop
  | .saying text =>
    ∃ c ∈ c?, rig.registry.find? c.name = some .say ∧ text = " ".intercalate c.args
  | .silence => c? = none
  | _ => ∀ c ∈ c?, rig.registry.find? c.name ≠ some .say

/-- A call for a command has to do with the voice only if it is of a handler that speaks, and then
it is about the text of the command. -/
def Plant.Utters (p : Plant) (rig : Rig) (c : Command) (t : Moment)
    (r : Plant × Progress Activity) : Prop :=
  p.Voiceless r ∧ (rig.registry.find? c.name = some .say → r.2 ≠ .ended (.returned .ok)) ∨
    rig.registry.find? c.name = some .say ∧ r = p.saying (" ".intercalate c.args) t

/-- A call that lets a handler finish has to do with the voice only if it waits for the last
utterance. -/
def Plant.Hushes (p : Plant) (t : Moment) (r : Plant × Progress Activity) : Prop :=
  p.Voiceless r ∨ r = p.silence t

/-- An activity that has nothing to do with the voice. -/
lemma Activity.suits_of_awaits {c? : Option Command} {a : Activity} (ha : a.awaits = false)
    (hc : ∀ c ∈ c?, rig.registry.find? c.name ≠ some .say) : a.Suits rig c? := by
  cases a with
  | saying | silence => cases ha
  | holding | scripted | scriptedFinish => exact hc

namespace Rig

variable {p : Plant} {t : Moment} {a a' : Activity}

lemma execute_suits {c : Command} {k : Handler} (hk : rig.registry.find? c.name = some k)
    (ha : (rig.execute k c.args t p).2 = .running a) : a.Suits rig (some c) := by
  by_cases hsay : k = .say
  · subst hsay
    rw [execute] at ha
    split at ha
    · cases ha
    · rcases p.saying_cases t (" ".intercalate c.args) with hr | ⟨-, hr⟩ | ⟨v, -, hr⟩ <;>
        rw [hr] at ha <;> cases ha
      exact ⟨c, rfl, hk, rfl⟩
  · refine Activity.suits_of_awaits ((rig.execute_voiceless p t hsay c.args).activity a ha) ?_
    rintro _ ⟨⟩
    rw [hk]
    exact fun heq => hsay (Option.some.inj heq)

/-- So it is with a command that begins. -/
lemma execute_utters {c : Command} {k : Handler} (hk : rig.registry.find? c.name = some k) :
    p.Utters rig c t (rig.execute k c.args t p) := by
  by_cases hsay : k = .say
  · subst hsay
    rw [execute]
    split
    · exact .inl ⟨Plant.voiceless_of_ended rfl rfl, fun _ => by simp⟩
    · exact .inr ⟨hk, rfl⟩
  · refine .inl ⟨rig.execute_voiceless p t hsay c.args, fun heq => absurd ?_ hsay⟩
    exact Option.some.inj (hk.symm.trans heq)

/-- So it is with one that goes on. -/
lemma resume_utters {c : Command} (ha : a.Suits rig (some c)) :
    p.Utters rig c t (rig.resume a t p) := by
  cases a with
  | saying text =>
      obtain ⟨_, ⟨⟩, hsay, rfl⟩ := ha
      exact .inr ⟨hsay, rfl⟩
  | silence => cases ha
  | holding | scripted | scriptedFinish =>
      exact .inl ⟨rig.resume_voiceless p t rfl, fun hsay => absurd hsay (ha c rfl)⟩

/-- Each handler finishes so. -/
lemma finish_hushes (k : Handler) : p.Hushes t (finish k t p) := by
  by_cases hsay : k = .say
  · subst hsay
    exact .inr rfl
  · exact .inl (finish_voiceless p t hsay)

lemma resume_hushes (ha : a.Suits rig none) : p.Hushes t (rig.resume a t p) := by
  cases a with
  | saying text =>
      obtain ⟨_, ⟨⟩, -⟩ := ha
  | silence => exact .inr rfl
  | holding | scripted | scriptedFinish => exact .inl (rig.resume_voiceless p t rfl)

lemma finish_suits {k : Handler} (ha : (finish k t p).2 = .running a) : a.Suits rig none := by
  by_cases hsay : k = .say
  · subst hsay
    obtain rfl := p.eq_silence_of_running t ha
    rfl
  · exact Activity.suits_of_awaits ((finish_voiceless p t hsay).activity a ha) (by simp)

lemma resume_suits {c? : Option Command} (hsuits : a.Suits rig c?)
    (ha : (rig.resume a t p).2 = .running a') : a'.Suits rig c? := by
  cases a with
  | saying text =>
      rw [resume] at ha
      rcases p.saying_cases t text with hr | ⟨-, hr⟩ | ⟨v, -, hr⟩ <;> rw [hr] at ha <;> cases ha
      exact hsuits
  | silence =>
      obtain rfl := p.eq_silence_of_running t ha
      exact hsuits
  | holding | scripted | scriptedFinish =>
      exact Activity.suits_of_awaits ((rig.resume_voiceless p t rfl).activity a' ha) hsuits

end Rig

namespace World

variable {w v : World rig.machinery} {strict : Prop} {done : List Speech} {t : Token}

/-- The call that the worker is at suits its command. -/
def Suited (w : World rig.machinery) : Prop :=
  ∀ c? a, w.worker.phase.work? = some (c?, a) → Activity.Suits rig c? a

namespace Suited

lemma of_call {c? : Option Command} {r : Progress rig.machinery.Activity}
    (hwork : v.worker.phase.work? = r.activity?.map (c?, ·))
    (hr : ∀ a : Activity, r = .running a → a.Suits rig c?) : v.Suited := by
  intro c?' a hat
  rw [hwork] at hat
  cases r with
  | running a' =>
      cases hat
      exact hr a rfl
  | ended e => cases hat

/-- However the executor touches the plant, the call suits its command. -/
lemma touch (h : w.Suited) (htouch : Touch w v) : v.Suited := by
  cases htouch with
  | nothing _ hwork | halt _ hwork | background _ hwork =>
      rw [Suited, hwork]
      exact h
  | execute t c k new _ hresolve _ _ _ hwork =>
      exact of_call hwork fun a ha => Rig.execute_suits hresolve ha
  | finish t k _ _ hwork => exact of_call hwork fun a ha => Rig.finish_suits ha
  | resume t c? a hat _ hwork =>
      exact of_call hwork fun a' ha' => Rig.resume_suits (h c? a hat) ha'
  | giveUp t c a a' _ _ _ _ hwork =>
      intro c? a'' hat
      rw [hwork] at hat
      cases hat

lemma happen (h : w.Suited) (e : Happening rig) : (w.happen e).Suited := by
  cases e with
  | act a ha => exact h.touch (w.touch_act ha)
  | distance | fault => exact h

lemma live (h : w.Suited) (es : List (Happening rig)) : (w.live es).Suited := by
  induction es generalizing w with
  | nil => exact h
  | cons e es ih => exact ih (h.happen e)

end Suited

lemma suited_fresh (p : Plant) (ch : Channel) (d : Nat) :
    (fresh p ch d : World rig.machinery).Suited := by
  intro c? a hat
  cases hat

end World

/-! ### Texts that commands give to the voice -/

/-- Only the end of a command gives a text to the voice. -/
lemma Ledger.Step.said_eq {l l' : Ledger rig.machinery} (hs : Ledger.Step l l')
    (hp : l'.worker = l.worker ∨ l.worker.phase.hand.command? = none) :
    said l'.history = said l.history := by
  have hphase (p : Phase rig.machinery) (h : l.worker.phase = p) (hne : p.hand.command? ≠ none) :
      l'.worker = l.worker := hp.resolve_right (h ▸ hne)
  cases hs with
  | doAtOnce b t c k e h | endCommand b t c a e h =>
      have hsame := congrArg Worker.phase (hphase _ h (by simp))
      rw [h] at hsame
      cases hsame
  | _ => simp

namespace World

variable {w v : World rig.machinery} {strict : Prop} {done : List Speech} {t : Token}

lemma said_attend (b : BatchId) : said (w.attend b t).history = said w.history := by
  rcases w.attend_cases b t with ⟨_, _, _, _, h⟩ | ⟨_, _, _, h⟩ | ⟨_, h⟩ <;> rw [h] <;> rfl

lemma said_noticeCancellation : said (w.noticeCancellation t).history = said w.history := by
  rw [noticeCancellation]
  split
  · simp [history, note]
  · rfl

lemma said_look : said w.look.history = said w.history := by
  have hnotice : said w.noticePreemption.history = said w.history := by
    rw [noticePreemption]
    split <;> rfl
  have hcurrent (v : World rig.machinery) : said v.currentToken.2.history = said v.history := by
    rw [currentToken]
    split <;> rfl
  rw [look]
  split
  · exact hnotice
  · exact (said_attend _).trans (said_noticeCancellation.trans ((hcurrent _).trans hnotice))

/-- A worker that is at no command gives no text to the voice. -/
lemma said_work (hp : w.worker.phase.hand.command? = none) :
    said w.work.history = said w.history := by
  have hstep {v : World rig.machinery} (hs : Ledger.Step w.ledger v.ledger) :
      said v.history = said w.history := hs.said_eq (.inr hp)
  rw [work]
  cases hphase : w.worker.phase with
  | looking => exact said_look
  | parked =>
      simp only
      split <;> rfl
  | popped | running => simp [hphase] at hp
  | finishing b u ks =>
      cases ks with
      | nil => exact hstep (w.step_retire hphase)
      | cons k ks => exact hstep (w.step_finishNext hphase)
  | finishingCall b u a ks => exact hstep (w.step_finishOn hphase)
  | reporting u r deadline =>
      simp only [deliver]
      split
      · simp [history, note, enter]
      · simp [history, note, enter]
      · split
        · simp [history, note, enter]
        · rfl
  | exited => rfl

/-- Neither does anything else that happens. -/
lemma said_act (hw : w.ledger.Reachable) {a : Action rig.machinery} (ha : a ≠ .work) :
    said (w.act a).history = said w.history := by
  have hstep (hs : Ledger.Step w.ledger (w.act a).ledger) :
      said (w.act a).history = said w.history := hs.said_eq (.inl (w.worker_act ha))
  cases a with
  | work => exact absurd rfl ha
  | call c =>
      by_cases hopen : w.board.closing = false
      · exact hstep (by simpa [act, hopen] using w.step_update c hopen hw.signalled)
      · rw [act, if_pos (by simpa using hopen)]
  | stop => exact hstep w.step_stopUpdate
  | close => exact hstep w.step_closeUpdate
  | rouse | background | pass | disturb | receive | hangUp => rfl

/-- Control calls leave the voice alone. -/
lemma voice_call (w : World rig.machinery) (c : Call) : (w.act (.call c)).voice = w.voice := by
  rw [act]
  split
  · rfl
  · cases c with
    | start b =>
        simp only [update, start]
        split <;> rfl
    | enqueue c =>
        simp only [update, enqueue]
        split
        · split <;> rfl
        · simp only [preempt]
          split <;> rfl
        · rfl
    | finish => rfl

lemma voice_stopUpdate (w : World rig.machinery) : (w.act .stop).voice = w.voice := by
  simp only [act, stopUpdate]
  split <;> rfl

/-- The text that a call for a command has given to the voice. -/
def given? (t : Token) (c : Command) : Progress Activity → Option (Token × String)
  | .ended e => @Event.said? rig (.ended t c e)
  | .running _ => none

/-- Only a handler that speaks gives a text to the voice, when all goes well. -/
lemma given?_eq_none {c : Command} {r : Progress Activity}
    (h : rig.registry.find? c.name = some .say → r ≠ .ended (.returned .ok)) :
    @given? rig t c r = none := by
  cases r with
  | running a => rfl
  | ended e =>
      rw [given?, Event.said?.eq_def]
      split
      · rename_i heq
        cases heq
        exact if_neg fun hsay => h hsay rfl
      · rfl

section

variable (w)

lemma said_afterCall (b : BatchId) (t : Token) (c : Command) (r : Plant × Progress Activity) :
    said (World.afterCall (M := rig.machinery) w b t c r).history =
      said w.history ++ (@given? rig t c r.2).toList := by
  obtain ⟨p, a | e⟩ := r
  · exact (List.append_nil _).symm
  · simp [afterCall, history, note, conclude, given?]

lemma cancelled_afterCall (b : BatchId) (t : Token) (c : Command)
    (r : Plant × Progress Activity) :
    (World.afterCall (M := rig.machinery) w b t c r).cancelled = w.cancelled := by
  obtain ⟨p, a | e⟩ := r <;> rfl

/-- After the first call for a command its handler is to finish. -/
lemma owesSpeech_afterCall (b : BatchId) (c : Command) (r : Plant × Progress Activity)
    (ht : w.board.token = some t) (hseen : w.board.epoch = w.worker.epoch)
    (hstarted : Handler.say ∈ w.worker.started) :
    (World.afterCall (M := rig.machinery) w b t c r).OwesSpeech t := by
  obtain ⟨p, a | e⟩ := r <;> exact ⟨ht, hseen, .inl hstarted⟩

end

/-- A command that goes on is called again, and given up if it does not end by itself. -/
lemma proceed_cases {M : Machinery} (w : World M) (b : BatchId) (t : Token) (c : Command)
    (a : M.Activity) :
    w.proceed b t c a = w.afterCall b t c (M.resume a (w.moment t) w.plant) ∨
      ∃ a', (M.resume a (w.moment t) w.plant).2 = .running a' ∧ w.proceed b t c a =
        ({ w with plant := (M.resume a (w.moment t) w.plant).1 }.note (.givenUp t c)).conclude
          .interrupted := by
  rw [proceed, afterLook]
  split
  · exact .inl rfl
  · rename_i a' hr
    split
    · exact .inr ⟨a', hr, rfl⟩
    · exact .inl rfl

lemma proceed_spec (b : BatchId) (t : Token) (c : Command) (a : Activity) :
    (World.proceed (M := rig.machinery) w b t c a).voice =
        (rig.resume a (w.moment t) w.plant).1.voice ∧
      said (World.proceed (M := rig.machinery) w b t c a).history = said w.history ++
        (@given? rig t c (rig.resume a (w.moment t) w.plant).2).toList ∧
      (World.proceed (M := rig.machinery) w b t c a).cancelled = w.cancelled := by
  rcases w.proceed_cases (M := rig.machinery) b t c a with heq | ⟨a', hr, heq⟩
  · rw [heq]
    exact ⟨congrArg Plant.voice (afterCall_spec w b t c _).1, w.said_afterCall b t c _,
      w.cancelled_afterCall b t c _⟩
  · have hnone : @given? rig t c (rig.resume a (w.moment t) w.plant).2 = none :=
      congrArg (given? t c) hr
    rw [heq, hnone]
    exact ⟨rfl, by simp [history, note, conclude], rfl⟩

/-- The voice was given the texts that commands have given to it, and none else. -/
def Relays (w v : World rig.machinery) (strict : Prop) (done : List Speech) : Prop :=
  ∃ done' new, v.Speaks strict done' ∧
    (v.speeches done').map Speech.key = (w.speeches done).map Speech.key ++ new ∧
      said v.history = said w.history ++ new

/-- No text is given. -/
lemma Speaks.relays (h : v.Speaks strict done) (hsame : v.voice.pending = w.voice.pending)
    (hsaid : said v.history = said w.history) : w.Relays v strict done :=
  ⟨done, [], h, by rw [speeches, hsame, List.append_nil]; rfl, by rw [hsaid, List.append_nil]⟩

namespace Speaks

/-- A command of a handler that speaks is looked at. -/
lemma utter (h : w.Speaks strict done) (hw : w.ledger.Reachable) (hb : w.Beside v) {b : BatchId}
    (hat : w.worker.phase.attached? = some (t, b)) {text : String}
    {r : Plant × Progress Activity} (hr : r = Plant.saying w.plant text (w.moment t))
    (hvoice : v.voice = r.1.voice)
    (hsaid : r.2 = .ended (.returned .ok) → said v.history = said w.history ++ [(t, text)])
    (hsilent : r.2 ≠ .ended (.returned .ok) → said v.history = said w.history)
    (hheld : t ∉ v.cancelled → v.OwesSpeech t) (hlost : t ∈ v.cancelled → ∃ r, v.HaltedAt t r) :
    w.Relays v strict done := by
  rcases Plant.saying_cases w.plant (w.moment t) text with
    hcall | ⟨hc, hcall⟩ | ⟨voice, hfreed, hcall⟩
  · obtain rfl := hr.trans hcall
    exact (h.still hb hvoice).relays (by rw [hvoice]; rfl) (hsilent (by simp))
  · obtain rfl := hr.trans hcall
    have hall := h.all_lost hw hat ((w.isCancelled_iff t).mp hc)
    exact (h.abort hb hvoice hall).relays (by rw [hvoice]; exact Voice.pending_abort _)
      (hsilent (by simp))
  · obtain rfl := hr.trans hcall
    obtain ⟨hspeaks, hspeeches⟩ := h.say hb hfreed hvoice hheld hlost
    exact ⟨done, [(t, text)], hspeaks, by rw [hspeeches, List.map_append]; rfl, hsaid rfl⟩

/-- A command has been looked at. -/
lemma command (h : w.Speaks strict done) (hw : w.ledger.Reachable) (hb : w.Beside v) {b : BatchId}
    (hat : w.worker.phase.attached? = some (t, b)) {c : Command} {r : Plant × Progress Activity}
    (hr : Plant.Utters w.plant rig c (w.moment t) r)
    (hvoice : v.voice = r.1.voice)
    (hsaid : said v.history = said w.history ++ (@given? rig t c r.2).toList)
    (hheld : rig.registry.find? c.name = some .say → t ∉ v.cancelled → v.OwesSpeech t)
    (hlost : t ∈ v.cancelled → ∃ r, v.HaltedAt t r) : w.Relays v strict done := by
  have hsilent (hnot : rig.registry.find? c.name = some .say → r.2 ≠ .ended (.returned .ok)) :
      said v.history = said w.history := by
    rw [hsaid, given?_eq_none hnot]
    exact List.append_nil _
  rcases hr with ⟨hvoiceless, hnot⟩ | ⟨hsay, hr⟩
  · have hsame : v.voice = w.voice := hvoice.trans hvoiceless.voice
    exact (h.still hb hsame).relays (by rw [hsame]) (hsilent hnot)
  · refine h.utter hw hb hat hr hvoice (fun hok => ?_) (fun hnot => hsilent fun _ => hnot)
      (hheld hsay) hlost
    rw [hsaid, hok]
    simp [given?, hsay]

/-- A command that was taken begins. -/
lemma begin (h : w.Speaks strict done) (hw : w.ledger.Reachable) {b : BatchId} {c : Command}
    (hp : w.worker.phase = .popped b t c) : w.Relays (w.begin b t c) strict done := by
  have hb : w.Beside (w.begin b t c) := by
    have hwork : w.act .work = w.begin b t c := by rw [act, work, hp]
    exact hwork ▸ h.beside_act hw (by simp)
  have hat : w.worker.phase.attached? = some (t, b) := by rw [hp]; rfl
  rcases w.begin_cases (M := rig.machinery) b t c with
    ⟨-, hbegin⟩ | ⟨k, hresolve, ⟨-, hbegin⟩ | ⟨hgo, hbegin⟩⟩ <;> rw [hbegin] at hb ⊢
  · exact (h.still hb rfl).relays rfl (by simp [history, note, conclude])
  · exact (h.still hb rfl).relays rfl (by simp [history, note, conclude])
  · have hhistory : said (w.remember (M := rig.machinery) t c k).history = said w.history := by
      simp
    refine h.command hw hb hat (Rig.execute_utters hresolve)
      (congrArg Plant.voice (afterCall_spec _ b t c _).1)
      ((said_afterCall _ b t c _).trans (by rw [hhistory]; rfl)) (fun hsay _ => ?_) fun hc => ?_
    · obtain rfl : k = .say := Option.some.inj (hresolve.symm.trans hsay)
      have ha := hw.attached_active hgo.1 hat
      exact owesSpeech_afterCall _ b c _ (Board.active?_eq_some_iff.mp ha).1 hgo.1
        (List.mem_append_right _ (List.mem_singleton.mpr rfl))
    · have hsame := cancelled_afterCall (w.remember (M := rig.machinery) t c k) b t c
        (rig.execute k c.args (w.moment t) w.plant)
      exact absurd (hsame ▸ hc) hgo.2

/-- A command goes on. -/
lemma proceed (h : w.Speaks strict done) (hw : w.ledger.Reachable) (hsuited : w.Suited)
    {b : BatchId} {c : Command} {a : Activity}
    (hp : w.worker.phase = .running (M := rig.machinery) b t c a) :
    w.Relays (w.proceed b t c a) strict done := by
  have hwork : w.act .work = w.proceed b t c a := by rw [act, work, hp]
  have hb : w.Beside (w.proceed b t c a) := hwork ▸ h.beside_act hw (by simp)
  have hat : w.worker.phase.attached? = some (t, b) := by rw [hp]; rfl
  have hsuits : a.Suits rig (some c) := hsuited (some c) a (by rw [hp]; rfl)
  obtain ⟨hvoice, hsaid, hcancelled⟩ := w.proceed_spec b t c a
  refine h.command hw hb hat (Rig.resume_utters hsuits) hvoice hsaid (fun hsay hc => ?_)
    fun hc => ?_
  · rw [hcancelled] at hc
    have howes : w.OwesSpeech t := hw.owes_of_started hat hc (hw.mem_started hp hsay)
    rcases owesSpeech_act hw howes hc .work with (⟨-, hkeep⟩ | ⟨hgiven, -⟩) | ⟨-, hfinish⟩
    · exact hwork ▸ hkeep
    · rw [hwork, hcancelled] at hgiven
      exact absurd hgiven hc
    · -- the worker is at no handler that finishes
      cases hfinish with
      | atOnce b' ks e hp' | later b' ks e hp' =>
          rw [hp] at hp'
          cases hp'
  · rw [hcancelled] at hc
    have hreport (r : Result) : (t, r) ∉ reports w.history := fun hr =>
      (hw.closed_of_reported hr).2.2 b hat
    obtain ⟨s, hs⟩ := exists_haltedAt hw hc hreport
    obtain ⟨new, hnew⟩ := hb.journal
    exact ⟨s, hs.mono hnew⟩

/-- Handlers finish; one that speaks waits for the last text. -/
lemma finishing (h : w.Speaks strict done) (hw : w.ledger.Reachable) (hb : w.Beside v)
    {b : BatchId} (hat : w.worker.phase.attached? = some (t, b)) {r : Plant × Progress Activity}
    (hr : Plant.Hushes w.plant (w.moment t) r)
    (hvoice : v.voice = r.1.voice) :
    v.Speaks strict done ∧ v.voice.pending = w.voice.pending := by
  rcases hr with hvoiceless | hr
  · have hsame : v.voice = w.voice := hvoice.trans hvoiceless.voice
    exact ⟨h.still hb hsame, by rw [hsame]⟩
  · rcases Plant.silence_cases w.plant (w.moment t) with
      hcall | ⟨e, hc, hcall⟩ | ⟨u, e, hfreed, hcall⟩
    · obtain rfl := hr.trans hcall
      exact ⟨h.still hb hvoice, by rw [hvoice]; rfl⟩
    · obtain rfl := hr.trans hcall
      have hall := h.all_lost hw hat ((w.isCancelled_iff t).mp hc)
      exact ⟨h.abort hb hvoice hall, by rw [hvoice]; exact Voice.pending_abort _⟩
    · obtain rfl := hr.trans hcall
      have hv : v.voice = u := hvoice
      exact ⟨h.freed hb (hv ▸ hfreed), by rw [hv]; exact hfreed.pending⟩

/-- The worker does the next thing. -/
lemma work (h : w.Speaks strict done) (hw : w.ledger.Reachable) (hsuited : w.Suited) :
    w.Relays w.work strict done := by
  have hb : w.Beside w.work := h.beside_act hw (a := .work) (by simp)
  have hstill (hp : w.worker.phase.hand.command? = none) (hvoice : w.work.voice = w.voice) :
      w.Relays w.work strict done :=
    (h.still hb hvoice).relays (by rw [hvoice]) (said_work hp)
  cases hp : w.worker.phase with
  | looking =>
      refine hstill (by rw [hp]; rfl) (congrArg Plant.voice ?_)
      rw [World.work, hp]
      exact w.look_spec.1
  | parked =>
      refine hstill (by rw [hp]; rfl) (congrArg Plant.voice ?_)
      rw [World.work, hp]
      simp only
      split <;> rfl
  | popped b t c =>
      rw [World.work, hp]
      exact h.begin hw hp
  | running b t c a =>
      rw [World.work, hp]
      exact h.proceed hw hsuited hp
  | finishing b t ks =>
      cases ks with
      | nil =>
          refine hstill (by rw [hp]; rfl) (congrArg Plant.voice ?_)
          rw [World.work, hp]
          exact (w.retire_spec b t).1
      | cons k ks =>
          have hat : w.worker.phase.attached? = some (t, b) := by rw [hp]; rfl
          have hvoice : w.work.voice = (Rig.finish k (w.moment t) w.plant).1.voice := by
            rw [World.work, hp]
            exact congrArg Plant.voice ((w.note (.finishBegan t k)).afterFinish_spec b t ks _).1
          obtain ⟨hspeaks, hpending⟩ := h.finishing hw hb hat (Rig.finish_hushes k) hvoice
          exact hspeaks.relays hpending (said_work (by rw [hp]; rfl))
  | finishingCall b t a ks =>
      have hat : w.worker.phase.attached? = some (t, b) := by rw [hp]; rfl
      have hsuits : Activity.Suits rig none a := hsuited none a (by rw [hp]; rfl)
      have hvoice : w.work.voice = (rig.resume a (w.moment t) w.plant).1.voice := by
        rw [World.work, hp]
        exact congrArg Plant.voice (w.afterFinish_spec b t ks _).1
      obtain ⟨hspeaks, hpending⟩ :=
        h.finishing hw hb hat (Rig.resume_hushes hsuits) hvoice
      exact hspeaks.relays hpending (said_work (by rw [hp]; rfl))
  | reporting t r deadline =>
      refine hstill (by rw [hp]; rfl) (congrArg Plant.voice ?_)
      rw [World.work, hp]
      exact (w.deliver_spec hp).1
  | exited =>
      refine hstill (by rw [hp]; rfl) (congrArg Plant.voice ?_)
      rw [World.work, hp]

/-- Whatever happens the voice is given the texts that commands give to it. -/
lemma happen (h : w.Speaks strict done) (hw : w.ledger.Reachable) (hsuited : w.Suited)
    (e : Happening rig) (he : strict → w.Permits (w.action e)) :
    w.Relays (w.happen e) strict done := by
  have hstill (hpass : ∀ s, w.action e ≠ .pass s) (hwork : w.action e ≠ .work)
      (hvoice : (w.happen e).voice = w.voice) : w.Relays (w.happen e) strict done :=
    (h.still (h.beside_act hw hpass) hvoice).relays (congrArg Voice.pending hvoice)
      (said_act hw hwork)
  cases e with
  | act a ha =>
      cases a with
      | work => exact h.work hw hsuited
      | background =>
          obtain ⟨done', hspeaks, hkeys⟩ := h.turn hw
          exact ⟨done', [], hspeaks, hkeys.trans (List.append_nil _).symm,
            (List.append_nil _).symm⟩
      | pass s => exact (h.pass hw he).relays rfl rfl
      | disturb p => cases ha
      | call c => exact hstill (by simp [action]) (by simp [action]) (w.voice_call c)
      | stop => exact hstill (by simp [action]) (by simp [action]) w.voice_stopUpdate
      | close | rouse | receive | hangUp =>
          exact hstill (by simp [action]) (by simp [action]) rfl
  | distance | fault => exact hstill (by simp [action]) (by simp [action]) rfl

end Speaks

end World

end RoverPilot
