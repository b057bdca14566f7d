import Mathlib.Tactic
import RoverPilot.Proofs.Robot.Saying

/-!
What may happen at one time beside the steps of the worker.

* `Voice.turns`, `Voice.turns_step_lt`: how often the voice can go on, each time once less;
* `Activity.looks`: whether a look at the sensor is due;
* `Plant.Calms`: how much a call of a handler brings, by `Rig.execute_calms`, `Rig.finish_calms`
  and `Rig.resume_calms`;
* `World.stir`, `World.stir_work_le`: all of it, and the worker never brings more.
-/

namespace RoverPilot

variable {rig : Rig}

/-! ### Voice and sensor -/

/-- How often the voice can go on with an utterance at one time. -/
def Utterance.turns (u : Utterance) : Nat :=
  match u.playback with
  | .waiting => 2
  | .playing _ => 1
  | .over _ => 0

namespace Voice

variable {v v' : Voice}

/-- How often the voice can go on at one time. -/
def turns (v : Voice) : Nat := v.aborted.length + (v.current.map Utterance.turns).getD 0

lemma turns_le (v : Voice) : v.turns ≤ v.aborted.length + 2 := by
  rw [turns]
  cases v.current with
  | none => simp
  | some u =>
      simp only [Option.map_some, Option.getD_some, Utterance.turns]
      split <;> omega

lemma turns_abort_le (v : Voice) : v.abort.turns ≤ v.turns + 1 := by
  simp only [turns, abort, List.length_append]
  cases v.current <;> simp

lemma Freed.turns_le (h : v.Freed v') : v'.turns ≤ v.turns := by
  simp [turns, h.current, h.aborted]

lemma Freed.turns_say_le (h : v.Freed v') (t : Token) (text : String) :
    (v'.say t text).turns ≤ v.turns + 2 := by
  simp only [turns, say, countTask, h.aborted, Option.map_some, Option.getD_some, Utterance.turns]
  omega

/-- Each step of the voice leaves one less. -/
lemma turns_step_lt {now : Nat} {cancelled : Token → Bool} (h : v.ready now cancelled = true) :
    (v.step now cancelled).turns < v.turns := by
  rw [step]
  cases haborted : v.aborted with
  | cons u rest =>
      simp only
      split <;> simp [turns, hear, haborted]
  | nil =>
      rw [ready, haborted] at h
      cases hu : v.current with
      | none => simp [hu] at h
      | some u =>
          simp only [stepCurrent]
          rcases hp : u.playback with _ | wait | trouble
          · simp only
            split
            · simp [turns, play, haborted, hu, hp, Utterance.turns]
            · split <;> simp [turns, play, hear, haborted, hu, hp, Utterance.turns]
          · simp only [hu, hp, List.isEmpty_nil, Bool.not_true, Bool.false_or,
              Bool.or_eq_true, decide_eq_true_eq] at h
            simp only
            split
            · simp [turns, play, hear, haborted, hu, hp, Utterance.turns]
            · rename_i hgo
              rw [if_pos (h.resolve_left hgo)]
              simp [turns, play, hear, haborted, hu, hp, Utterance.turns]
          · simp [hu, hp] at h

/-- An utterance whose time is over can go on. -/
lemma ready_of_wait {now : Nat} {cancelled : Token → Bool} {x : Wait} (h : v.wait = some x)
    (hx : x.till ≤ now) : v.ready now cancelled = true := by
  rw [wait] at h
  split at h
  · rename_i u hu
    split at h
    · rename_i wait hp
      obtain rfl := Option.some.inj h
      simp [ready, hu, hp, hx]
    · cases h
  · cases h

end Voice

/-- Whether a look at the sensor is due. -/
def Activity.looks (now : Nat) : Activity → Nat
  | .holding h => (h.move.watches && decide (h.nextLook ≤ now)).toNat
  | _ => 0

lemma Activity.looks_le (now : Nat) (a : Activity) : a.looks now ≤ 1 := by
  cases a with
  | holding h => exact Bool.toNat_le _
  | saying | silence | scripted | scriptedFinish => exact Nat.zero_le 1

/-- What may happen beside a call that goes on: the given number of turns of the voice, and a look
at the sensor. -/
def Progress.stir (n now : Nat) : Progress Activity → Nat
  | .running a => n + a.looks now
  | .ended _ => 0

/-! ### Calls -/

/-- After a look at the sensor no other one is due. -/
lemma Hold.looks_poll (h : Hold) (m : Settings.Motion) (now : Nat) (cancelled : Bool) (b : Body)
    {h' : Hold} (hr : (h.poll m now cancelled b).2 = .running h') :
    (Activity.holding h').looks now = 0 := by
  rw [poll] at hr
  split at hr
  · rename_i o _
    obtain ⟨c, e, hclose⟩ := h.close_ended now b o
    rw [hclose] at hr
    cases hr
  · cases hr
    have hperiod : 0 < m.pollPeriod := by
      rw [Settings.Motion.pollPeriod]
      omega
    simp only [Activity.looks]
    split <;> simp <;> omega

lemma Move.looks_begin (move : Move) (m : Settings.Motion) (args : List String) (now : Nat)
    (cancelled : Bool) (b : Body) {h : Hold}
    (hr : (move.begin m args now cancelled b).2 = .running h) :
    (Activity.holding h).looks now = 0 := by
  have hbegins := move.begins m args now cancelled b
  generalize move.begin m args now cancelled b = r at hr hbegins
  cases hbegins with
  | refused | faulty | powerless | timeless => cases hr
  | held => exact Hold.looks_poll _ m now cancelled _ hr

/-- A call brings at most the given number of turns of the voice, and has looked at the sensor. -/
def Plant.Calms (p : Plant) (n now : Nat) (r : Plant × Progress Activity) : Prop :=
  r.1.voice.turns + r.2.stir n now ≤ p.voice.turns + n

namespace Plant

variable {p : Plant} {t : Moment}

lemma Voiceless.calms {r : Plant × Progress Activity} (h : p.Voiceless r) {n now : Nat}
    (hlooks : ∀ a, r.2 = .running a → a.looks now = 0) : p.Calms n now r := by
  rw [Calms, h.voice]
  cases hr : r.2 with
  | running a => simp [Progress.stir, hlooks a hr]
  | ended e => simp [Progress.stir]

lemma saying_calms (text : String) : p.Calms 2 t.now (p.saying text t) := by
  rw [Calms]
  rcases p.saying_cases t text with hr | ⟨-, hr⟩ | ⟨v, hfreed, hr⟩ <;> rw [hr]
  · exact le_rfl
  · exact p.voice.turns_abort_le.trans (Nat.add_le_add_left one_le_two _)
  · exact hfreed.turns_say_le t.token text

lemma silence_calms : p.Calms 1 t.now (p.silence t) := by
  rw [Calms]
  rcases p.silence_cases t with hr | ⟨e, -, hr⟩ | ⟨v, e, hfreed, hr⟩ <;> rw [hr]
  · exact le_rfl
  · exact p.voice.turns_abort_le
  · exact hfreed.turns_le.trans (Nat.le_add_right _ _)

lemma looks_onBody {r : Body × Progress Hold} {now : Nat}
    (h : ∀ h', r.2 = .running h' → (Activity.holding h').looks now = 0) {a : Activity}
    (ha : (p.onBody r).2 = .running a) : a.looks now = 0 := by
  obtain ⟨b, h' | e⟩ := r
  · cases ha
    exact h h' rfl
  · cases ha

lemma looks_onScript {now : Nat} {a a' : Activity} (hlooks : a.looks now = 0)
    {r : List ScriptEvent × Option Ending} (ha : (p.onScript now a r).2 = .running a') :
    a'.looks now = 0 := by
  obtain ⟨events, _ | e⟩ := r
  · cases ha
    exact hlooks
  · cases ha

/-- The camera turns at once. -/
lemma aim_ended (m : Settings.Motion) (args : List String) (now : Nat) :
    ∃ q e, p.aim m args now = (q, .ended e) := by
  rw [aim]
  split
  · exact ⟨_, _, rfl⟩
  · split
    · exact ⟨_, _, rfl⟩
    · exact ⟨_, _, rfl⟩
    · rw [actOnce]
      split <;> exact ⟨_, _, rfl⟩

end Plant

namespace Rig

variable (p : Plant) (t : Moment)

/-- A command that begins brings at most the two turns of one utterance. -/
lemma execute_calms (k : Handler) (args : List String) :
    p.Calms 2 t.now (rig.execute k args t p) := by
  by_cases hk : k = .say
  · subst hk
    rw [execute]
    split
    · exact Plant.Voiceless.calms (Plant.voiceless_of_ended rfl rfl) fun a ha => by cases ha
    · exact Plant.saying_calms _
  · refine (rig.execute_voiceless p t hk args).calms fun a ha => ?_
    cases k with
    | move m =>
        refine Plant.looks_onBody (fun h => ?_) ha
        exact m.looks_begin rig.motion args t.now t.cancelled p.body
    | camera =>
        obtain ⟨q, e, hr⟩ := p.aim_ended rig.motion args t.now
        rw [execute, hr] at ha
        cases ha
    | stop => cases ha
    | say => exact absurd rfl hk
    | scripted s =>
        rw [execute] at ha
        exact Plant.looks_onScript rfl ha

/-- A handler that finishes brings at most one, as it gives up the last utterance. -/
lemma finish_calms (k : Handler) : p.Calms 1 t.now (finish k t p) := by
  by_cases hk : k = .say
  · subst hk
    exact Plant.silence_calms
  · refine (finish_voiceless p t hk).calms fun a ha => ?_
    cases k with
    | move | camera | stop => cases ha
    | say => exact absurd rfl hk
    | scripted s =>
        rw [finish] at ha
        exact Plant.looks_onScript rfl ha

lemma looks_resume {a a' : Activity} (hvoice : a.awaits = false)
    (ha : (rig.resume a t p).2 = .running a') : a'.looks t.now = 0 := by
  cases a with
  | holding h =>
      refine Plant.looks_onBody (fun h' => ?_) ha
      exact h.looks_poll rig.motion t.now t.cancelled p.body
  | saying | silence => cases hvoice
  | scripted | scriptedFinish => exact Plant.looks_onScript rfl ha

/-- So it is with calls that go on. -/
lemma resume_calms {c? : Option Command} {a : Activity} (hsuits : a.Suits rig c?) {n : Nat}
    (hn : n = if c?.isSome then 2 else 1) : p.Calms n t.now (rig.resume a t p) := by
  subst hn
  cases a with
  | saying text =>
      obtain ⟨c, hc, -⟩ := hsuits
      cases hc
      exact Plant.saying_calms text
  | silence =>
      cases hsuits
      exact Plant.silence_calms
  | holding | scripted | scriptedFinish =>
      exact (rig.resume_voiceless p t rfl).calms fun a ha => rig.looks_resume p t rfl ha

end Rig

/-! ### Worlds -/

/-- What may happen beside the steps of a worker in a phase: two turns of the voice for a command,
one for each handler that is to finish, and a look at the sensor. -/
def Phase.stir (now : Nat) : Phase rig.machinery → Nat
  | .popped _ _ _ => 3
  | .running _ _ _ a => 2 + Activity.looks now a
  | .finishing _ _ ks => ks.length
  | .finishingCall _ _ a ks => ks.length + 1 + Activity.looks now a
  | _ => 0

namespace World

variable {w : World rig.machinery} {b : BatchId} {t : Token} {c : Command} {a : Activity}

/-- What may happen at one time beside the steps of the worker. -/
def stir (w : World rig.machinery) : Nat :=
  3 * w.board.queue.length + w.worker.started.length + w.worker.phase.stir w.now + w.voice.turns

/-- Looking at the board brings nothing else. -/
lemma stir_attend (b : BatchId) (t : Token) (hp : w.worker.phase = .looking) :
    (w.attend b t).stir ≤ w.stir := by
  rcases w.attend_cases b t with ⟨c, q, -, hq, hattend⟩ | ⟨-, -, -, hattend⟩ | ⟨-, hattend⟩
  · simp only [hattend, stir, enter, hp, hq, Phase.stir, List.length_cons, voice]
    omega
  · simp only [hattend, stir, enter, hp, Phase.stir, voice]
    omega
  · simp only [hattend, stir, beginFinishing, hp, Phase.stir, voice, List.length_nil]
    omega

lemma stir_look (hp : w.worker.phase = .looking) : w.look.stir ≤ w.stir := by
  have hnotice : w.noticePreemption.stir ≤ w.stir := by
    rw [noticePreemption]
    split
    · exact le_rfl
    · simp only [stir, hp, Phase.stir, List.length_nil, voice]
      omega
  have hphase : w.noticePreemption.worker.phase = .looking := w.noticePreemption_spec.2.1.trans hp
  have hcancel (v : World rig.machinery) (t : Token) : (v.noticeCancellation t).stir = v.stir := by
    rw [noticeCancellation]
    split <;> rfl
  have hcurrent (v : World rig.machinery) : v.currentToken.2.stir = v.stir ∧
      v.currentToken.2.worker = v.worker := by
    rw [currentToken]
    split <;> exact ⟨rfl, rfl⟩
  refine le_trans ?_ hnotice
  rw [look]
  generalize w.noticePreemption = v at *
  cases v.board.lifecycle.executing? with
  | none =>
      simp only [stir, enter, hphase, voice, List.length_nil]
      split <;> simp only [Phase.stir] <;> omega
  | some b =>
      obtain ⟨hstir, hworker⟩ := hcurrent v
      refine (stir_attend b v.currentToken.1 ?_).trans_eq ((hcancel _ _).trans hstir)
      exact (noticeCancellation_spec _ _).2.1.trans ((congrArg Worker.phase hworker).trans hphase)

/-- What a call for a command leaves. -/
lemma stir_afterCall (w : World rig.machinery) (b : BatchId) (t : Token) (c : Command)
    (r : Plant × Progress Activity) :
    (World.afterCall (M := rig.machinery) w b t c r).stir =
      3 * w.board.queue.length + w.worker.started.length +
        (r.1.voice.turns + r.2.stir 2 w.now) := by
  obtain ⟨p, a | e⟩ := r <;>
    simp only [stir, afterCall, enter, conclude, note, voice, Phase.stir, Progress.stir] <;> omega

/-- What a call leaves that lets a handler finish. -/
lemma stir_afterFinish (w : World rig.machinery) (b : BatchId) (t : Token)
    (ks : List rig.machinery.Handler) (r : Plant × Progress Activity) :
    (World.afterFinish (M := rig.machinery) w b t ks r).stir =
      3 * w.board.queue.length + w.worker.started.length + ks.length +
        (r.1.voice.turns + r.2.stir 1 w.now) := by
  obtain ⟨p, a | e⟩ := r <;>
    simp only [stir, afterFinish, enter, note, voice, Phase.stir, Progress.stir] <;> omega

lemma stir_begin (hp : w.worker.phase = .popped b t c) : (w.begin b t c).stir ≤ w.stir := by
  rcases w.begin_cases b t c with ⟨-, h⟩ | ⟨k, -, ⟨-, h⟩ | ⟨-, h⟩⟩ <;> rw [h]
  · simp only [stir, conclude, note, hp, Phase.stir, voice]
    omega
  · simp only [stir, conclude, note, hp, Phase.stir, voice]
    omega
  · have hcalms : (rig.execute k c.args (w.moment t) w.plant).1.voice.turns +
        (rig.execute k c.args (w.moment t) w.plant).2.stir 2 w.now ≤ w.voice.turns + 2 :=
      rig.execute_calms w.plant (w.moment t) k c.args
    refine (stir_afterCall _ b t c (rig.execute k c.args (w.moment t) w.plant)).trans_le ?_
    simp only [stir, remember, note, hp, Phase.stir, List.length_append, List.length_singleton]
    omega

/-- A call that goes on has looked at the sensor if that was due. -/
lemma stir_proceed (hp : w.worker.phase = .running (M := rig.machinery) b t c a)
    (hsuits : a.Suits rig (some c)) :
    (World.proceed (M := rig.machinery) w b t c a).stir + a.looks w.now ≤ w.stir := by
  have hcalms : (rig.resume a (w.moment t) w.plant).1.voice.turns +
      (rig.resume a (w.moment t) w.plant).2.stir 2 w.now ≤ w.voice.turns + 2 :=
    rig.resume_calms w.plant (w.moment t) hsuits rfl
  have hstir : w.stir = 3 * w.board.queue.length + w.worker.started.length +
      (2 + a.looks w.now) + w.voice.turns := by
    rw [stir, hp]
    rfl
  have hafter := stir_afterCall w b t c (rig.resume a (w.moment t) w.plant)
  rcases w.proceed_cases (M := rig.machinery) b t c a with heq | ⟨a', -, heq⟩
  · have hproceed : (World.proceed (M := rig.machinery) w b t c a).stir = _ :=
      (congrArg stir heq).trans hafter
    omega
  · have hproceed : (World.proceed (M := rig.machinery) w b t c a).stir =
        3 * w.board.queue.length + w.worker.started.length + 0 +
          (rig.resume a (w.moment t) w.plant).1.voice.turns := congrArg stir heq
    omega

lemma stir_finishNext {k : Handler} {ks : List Handler}
    (hp : w.worker.phase = .finishing (M := rig.machinery) b t (k :: ks)) :
    (World.finishNext (M := rig.machinery) w b t k ks).stir ≤ w.stir := by
  have hcalms : (Rig.finish k (w.moment t) w.plant).1.voice.turns +
      (Rig.finish k (w.moment t) w.plant).2.stir 1 w.now ≤ w.voice.turns + 1 :=
    Rig.finish_calms w.plant (w.moment t) k
  have hstir : w.stir = 3 * w.board.queue.length + w.worker.started.length + (ks.length + 1) +
      w.voice.turns := by
    rw [stir, hp]
    rfl
  have hafter : (World.finishNext (M := rig.machinery) w b t k ks).stir =
      3 * w.board.queue.length + w.worker.started.length + ks.length +
        ((Rig.finish k (w.moment t) w.plant).1.voice.turns +
          (Rig.finish k (w.moment t) w.plant).2.stir 1 w.now) :=
    stir_afterFinish (w.note (.finishBegan t k)) b t ks (Rig.finish k (w.moment t) w.plant)
  omega

lemma stir_finishOn {ks : List Handler}
    (hp : w.worker.phase = .finishingCall (M := rig.machinery) b t a ks)
    (hsuits : a.Suits rig none) :
    (World.finishOn (M := rig.machinery) w b t a ks).stir + a.looks w.now ≤ w.stir := by
  have hcalms : (rig.resume a (w.moment t) w.plant).1.voice.turns +
      (rig.resume a (w.moment t) w.plant).2.stir 1 w.now ≤ w.voice.turns + 1 :=
    rig.resume_calms w.plant (w.moment t) hsuits rfl
  have hstir : w.stir = 3 * w.board.queue.length + w.worker.started.length +
      (ks.length + 1 + a.looks w.now) + w.voice.turns := by
    rw [stir, hp]
    rfl
  have hafter : (World.finishOn (M := rig.machinery) w b t a ks).stir =
      3 * w.board.queue.length + w.worker.started.length + ks.length +
        ((rig.resume a (w.moment t) w.plant).1.voice.turns +
          (rig.resume a (w.moment t) w.plant).2.stir 1 w.now) :=
    stir_afterFinish w b t ks (rig.resume a (w.moment t) w.plant)
  omega

lemma stir_retire (hp : w.worker.phase = .finishing b t []) : (w.retire b t).stir ≤ w.stir := by
  have hclear (v : World rig.machinery) : v.clearBoard.worker = v.worker ∧
      v.clearBoard.board.queue = [] ∧ v.clearBoard.plant = v.plant := by
    rw [clearBoard]
    simp only
    split <;> exact ⟨rfl, rfl, rfl⟩
  rw [retire]
  simp only
  split
  · simp only [stir, enter, note, hp, Phase.stir, voice, List.length_nil, le_refl]
  · simp only [stir, enter, note, hp, Phase.stir, voice, hclear, List.length_nil]
    split <;> simp [cancel]

lemma stir_deliver {r : Result} {d : Nat} (hp : w.worker.phase = .reporting t r d) :
    w.work.stir = w.stir := by
  rcases w.deliver_cases hp with ⟨c, -, hv⟩ | ⟨-, hv⟩ | ⟨-, ⟨-, hv⟩ | ⟨-, hv⟩⟩ <;>
    simp [hv, stir, note, enter, hp, Phase.stir, voice]

/-- Nothing that the worker does brings more. -/
lemma stir_work_le (hs : w.Suited) : w.work.stir ≤ w.stir := by
  rw [work]
  cases hp : w.worker.phase with
  | looking => exact stir_look hp
  | parked =>
      simp only
      split
      · simp [stir, enter, hp, Phase.stir, voice]
      · exact le_rfl
  | popped b t c => exact stir_begin hp
  | running b t c a =>
      exact (Nat.le_add_right _ _).trans (stir_proceed hp (hs (some c) a (by rw [hp]; rfl)))
  | finishing b t ks =>
      cases ks with
      | nil => exact stir_retire hp
      | cons k ks => exact stir_finishNext hp
  | finishingCall b t a ks =>
      exact (Nat.le_add_right _ _).trans (stir_finishOn hp (hs none a (by rw [hp]; rfl)))
  | reporting t r d =>
      have hdeliver := (stir_deliver hp).le
      rwa [work, hp] at hdeliver
  | exited => exact le_rfl

end World

end RoverPilot
