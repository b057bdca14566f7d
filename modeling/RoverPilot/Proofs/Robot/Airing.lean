import Mathlib.Tactic
import RoverPilot.Robot.Handler

/-!
What becomes of the texts that are given to the voice.

* `Airing`, `Speech`, `Speech.heard`: how far a text is that was given to the voice, and what is
  heard of it;
* `Voice.pending`: the utterances that the voice is not done with;
* `Voice.Turn`, `Voice.turn_step`: what one step of the voice does to them, one constructor for
  each way in which it goes on;
* `Voice.Freed`, `Plant.saying_cases`, `Plant.silence_cases`: what calls that wait for the last
  utterance do to them;
* `Plant.Voiceless`: other calls have nothing to do with the voice.
-/

namespace RoverPilot

/-! ### Texts -/

/-- Why nothing more is heard of a text. -/
inductive Close where
  /-- It was heard to its end. -/
  | finished
  /-- It broke as it started, as there is no word for its time. -/
  | broken
  /-- It was cut. -/
  | cut
  deriving DecidableEq, Repr

/-- How far a text is that was given to the voice. -/
inductive Airing where
  | unheard
  /-- It has been heard since a time. -/
  | playing (since : Nat)
  /-- It was heard from a time to another one. -/
  | closed (since till : Nat) (c : Close)
  deriving DecidableEq, Repr

/-- A text that was given to the voice for a batch, and how far it is. -/
structure Speech where
  token : Token
  text : String
  airing : Airing
  deriving DecidableEq, Repr

namespace Speech

/-- The batch and the text. -/
def key (s : Speech) : Token × String := (s.token, s.text)

/-- What is heard of a text, in order. -/
def heard (s : Speech) : List (Nat × SpeechEvent) :=
  match s.airing with
  | .unheard => []
  | .playing since => [(since, .start s.text)]
  | .closed since till .finished => [(since, .start s.text), (till, .finish s.text)]
  | .closed since till _ => [(since, .start s.text), (till, .cut s.text)]

lemma length_heard_le (s : Speech) : s.heard.length ≤ 2 := by
  rw [heard]
  split <;> simp

end Speech

namespace Utterance

/-- Whether an utterance is over. -/
def isOver (u : Utterance) : Bool :=
  match u.playback with
  | .over _ => true
  | _ => false

/-- How far the text of an utterance is that is not over. -/
def speech (u : Utterance) : Speech where
  token := u.token
  text := u.text
  airing := match u.playback with
    | .playing wait => .playing wait.since
    | _ => .unheard

variable {u : Utterance}

lemma isOver_of_waiting (h : u.playback = .waiting) : u.isOver = false := by
  rw [isOver, h]

lemma isOver_of_playing {wait : Wait} (h : u.playback = .playing wait) : u.isOver = false := by
  rw [isOver, h]

lemma isOver_of_over {trouble : Option Cause} (h : u.playback = .over trouble) :
    u.isOver = true := by
  rw [isOver, h]

lemma heard_of_waiting (h : u.playback = .waiting) : u.speech.heard = [] := by
  simp [speech, h, Speech.heard]

lemma heard_of_playing {wait : Wait} (h : u.playback = .playing wait) :
    u.speech.heard = [(wait.since, .start u.text)] := by
  simp [speech, h, Speech.heard]

end Utterance

/-! ### Utterances that are not over -/

namespace Voice

variable {v : Voice} {u : Utterance}

/-- The utterances that the voice is not done with, the oldest first. -/
def pending (v : Voice) : List Utterance :=
  (v.aborted ++ v.current.toList).filter fun u => !u.isOver

lemma mem_pending : u ∈ v.pending ↔ (u ∈ v.aborted ∨ v.current = some u) ∧ u.isOver = false := by
  simp [pending, or_and_right]

/-- Giving an utterance up leaves it to fall silent. -/
@[simp] lemma pending_abort (v : Voice) : v.abort.pending = v.pending := by
  simp [pending, abort]

/-- A text that is given to the voice comes last. -/
lemma pending_say (h : v.current = none) (t : Token) (text : String) :
    (v.say t text).pending =
      v.pending ++ [{ task := v.tasks + 1, token := t, text }] := by
  simp [pending, say, countTask, h, Utterance.isOver]

/-- What a call has done that found no utterance, or has waited for the end of the last one. -/
structure Freed (v v' : Voice) : Prop where
  current : v'.current = none
  pending : v'.pending = v.pending
  aborted : v'.aborted = v.aborted
  log : v'.log = v.log
  msPerWord : v'.msPerWord = v.msPerWord

lemma freed_of_none (h : v.current = none) : v.Freed v := ⟨h, rfl, rfl, rfl, rfl⟩

lemma freed_take (hu : v.current = some u) (hover : u.isOver = true) : v.Freed v.take :=
  ⟨rfl, by simp [Voice.pending, take, hu, hover], rfl, rfl, rfl⟩

/-! ### The background -/

/-- What one step of the voice does to the utterances that it is not done with: `v` is the voice
before it and `v'` the one after it. -/
inductive Turn (v v' : Voice) (now : Nat) (cancelled : Token → Bool) : Prop where
  /-- Nothing. -/
  | nothing (hpending : v'.pending = v.pending) (hlog : v'.log = v.log)
  /-- The first one is dropped without being heard. -/
  | drop (u : Utterance) (rest : List Utterance) (hu : v.pending = u :: rest)
      (hwaiting : u.playback = .waiting) (hsignal : u ∈ v.aborted ∨ cancelled u.token = true)
      (hpending : v'.pending = rest) (hlog : v'.log = v.log)
  /-- The only one starts. -/
  | start (u : Utterance) (ms : Nat) (hu : v.pending = [u]) (hwaiting : u.playback = .waiting)
      (hsignal : cancelled u.token = false) (hms : speakingTime? u.text v.msPerWord = some ms)
      (hpending : v'.pending = [{ u with playback := .playing { since := now, till := now + ms } }])
      (hlog : v'.log = (now, .start u.text) :: v.log)
  /-- The only one starts and breaks. -/
  | broken (u : Utterance) (hu : v.pending = [u]) (hwaiting : u.playback = .waiting)
      (hsignal : cancelled u.token = false) (hms : speakingTime? u.text v.msPerWord = none)
      (hpending : v'.pending = [])
      (hlog : v'.log = (now, .cut u.text) :: (now, .start u.text) :: v.log)
  /-- The first one is cut. -/
  | cut (u : Utterance) (rest : List Utterance) (wait : Wait) (hu : v.pending = u :: rest)
      (hplaying : u.playback = .playing wait)
      (hsignal : u ∈ v.aborted ∨ cancelled u.token = true) (hpending : v'.pending = rest)
      (hlog : v'.log = (now, .cut u.text) :: v.log)
  /-- The only one has been heard to its end. -/
  | finish (u : Utterance) (wait : Wait) (hu : v.pending = [u])
      (hplaying : u.playback = .playing wait) (hsignal : cancelled u.token = false)
      (htill : wait.till ≤ now) (hpending : v'.pending = [])
      (hlog : v'.log = (now, .finish u.text) :: v.log)

variable (v) (now : Nat) (cancelled : Token → Bool)

lemma turn_stepCurrent {v : Voice} (hsilent : v.aborted = []) (hu : v.current = some u) :
    v.Turn (v.stepCurrent now (cancelled u.token) u) now cancelled := by
  have hpending (hover : u.isOver = false) : v.pending = [u] := by
    simp [pending, hsilent, hu, hover]
  rw [stepCurrent]
  rcases hp : u.playback with _ | wait | trouble
  · have hv := hpending (Utterance.isOver_of_waiting hp)
    cases hsignal : cancelled u.token with
    | true =>
        exact .drop u [] hv hp (.inr hsignal)
          (by simp [pending, play, hsilent, Utterance.isOver]) rfl
    | false =>
        simp only [Bool.false_eq_true, if_false]
        cases hms : speakingTime? u.text (v.hear now (.start u.text)).msPerWord with
        | some ms =>
            exact .start u ms hv hp hsignal hms
              (by simp [pending, play, hear, hsilent, Utterance.isOver]) rfl
        | none =>
            exact .broken u hv hp hsignal hms
              (by simp [pending, play, hear, hsilent, Utterance.isOver]) rfl
  · have hv := hpending (Utterance.isOver_of_playing hp)
    cases hsignal : cancelled u.token with
    | true =>
        exact .cut u [] wait hv hp (.inr hsignal)
          (by simp [pending, play, hear, hsilent, Utterance.isOver]) rfl
    | false =>
        simp only [Bool.false_eq_true, if_false]
        split
        · rename_i htill
          exact .finish u wait hv hp hsignal htill
            (by simp [pending, play, hear, hsilent, Utterance.isOver]) rfl
        · exact .nothing rfl rfl
  · exact .nothing rfl rfl

/-- A step of the voice does one of these things. -/
theorem turn_step : v.Turn (v.step now cancelled) now cancelled := by
  rw [step]
  cases haborted : v.aborted with
  | nil =>
      cases hu : v.current with
      | none => exact .nothing rfl rfl
      | some u => exact turn_stepCurrent now cancelled haborted hu
  | cons u rest =>
      have hmem : u ∈ v.aborted := by simp [haborted]
      have hpending (hover : u.isOver = false) :
          v.pending = u :: { v with aborted := rest }.pending := by
        simp [pending, haborted, hover]
      rcases hp : u.playback with _ | wait | trouble
      · simp only [hp]
        exact .drop u _ (hpending (Utterance.isOver_of_waiting hp)) hp (.inl hmem) rfl rfl
      · simp only [hp]
        exact .cut u _ wait (hpending (Utterance.isOver_of_playing hp)) hp (.inl hmem) rfl rfl
      · simp only [hp]
        exact .nothing (by simp [pending, haborted, Utterance.isOver_of_over hp]) rfl

/-- A step of the voice gives nothing up, and leaves its pace as it is. -/
lemma step_spec : (v.step now cancelled).aborted ⊆ v.aborted ∧
    (v.step now cancelled).msPerWord = v.msPerWord := by
  rw [step]
  cases haborted : v.aborted with
  | nil =>
      cases v.current with
      | none => simp [haborted]
      | some u =>
          simp only [stepCurrent]
          split
          · split
            · simp [play, haborted]
            · split <;> simp [play, hear, haborted]
          · split
            · simp [play, hear, haborted]
            · split <;> simp [play, hear, haborted]
          · simp [haborted]
  | cons u rest =>
      simp only
      split <;> simp [hear]

/-- A voice that has nothing to do now is only at a text whose signal is not given, until its
end. -/
lemma playing_of_not_ready (h : v.ready now cancelled = false) {u : Utterance}
    (hu : u ∈ v.pending) :
    ∃ wait, v.wait = some wait ∧ u.playback = .playing wait ∧ cancelled u.token = false := by
  rw [ready, Bool.or_eq_false_iff] at h
  obtain ⟨hsilent, hcurrent⟩ := h
  have haborted : v.aborted = [] := by simpa using hsilent
  obtain ⟨hmem | hmem, hover⟩ := mem_pending.mp hu
  · rw [haborted] at hmem
    cases hmem
  · simp only [hmem] at hcurrent
    rcases hp : u.playback with _ | wait | trouble
    · simp [hp] at hcurrent
    · simp only [hp, Bool.or_eq_false_iff] at hcurrent
      exact ⟨wait, by simp [Voice.wait, hmem, hp], rfl, hcurrent.1⟩
    · rw [Utterance.isOver_of_over hp] at hover
      cases hover

end Voice

/-! ### Calls -/

namespace Plant

variable (p : Plant) (t : Moment)

/-- Another voice in the place of the present one. -/
def withVoice (voice : Voice) : Plant := { p with voice }

/-- Waiting for the last utterance goes on, or it is given up as the signal is given, or there is
none any more. -/
lemma awaitUtterance_cases (cancelled : Bool) :
    p.awaitUtterance cancelled = (p, none) ∨
    (cancelled = true ∧ p.awaitUtterance cancelled =
      (p.withVoice p.voice.abort, some (false, none))) ∨
    ∃ v trouble, p.voice.Freed v ∧
      p.awaitUtterance cancelled = (p.withVoice v, some (true, trouble)) := by
  rw [awaitUtterance]
  cases hu : p.voice.current with
  | none => exact .inr (.inr ⟨p.voice, none, Voice.freed_of_none hu, rfl⟩)
  | some u =>
      cases cancelled with
      | true => exact .inr (.inl ⟨rfl, rfl⟩)
      | false =>
          simp only [Bool.false_eq_true, if_false]
          rcases hp : u.playback with _ | wait | trouble
          · exact .inl rfl
          · exact .inl rfl
          · exact .inr (.inr ⟨_, trouble, Voice.freed_take hu (Utterance.isOver_of_over hp), rfl⟩)

/-- A text waits, or is given up as the signal is given, or is given to the voice. -/
lemma saying_cases (text : String) :
    p.saying text t = (p, .running (.saying text)) ∨
    (t.cancelled = true ∧
      p.saying text t = (p.withVoice p.voice.abort, .ended (.returned .interrupted))) ∨
    ∃ v, p.voice.Freed v ∧
      p.saying text t = (p.withVoice (v.say t.token text), .ended (.returned .ok)) := by
  rw [saying]
  rcases p.awaitUtterance_cases t.cancelled with hr | ⟨hc, hr⟩ | ⟨v, trouble, hv, hr⟩
  · rw [hr]
    exact .inl rfl
  · rw [hr]
    exact .inr (.inl ⟨hc, rfl⟩)
  · rw [hr]
    exact .inr (.inr ⟨v, hv, rfl⟩)

/-- Finishing goes on, or the last utterance is given up as the signal is given, or there is none
any more. -/
lemma silence_cases :
    p.silence t = (p, .running .silence) ∨
    (∃ e, t.cancelled = true ∧ p.silence t = (p.withVoice p.voice.abort, .ended e)) ∨
    ∃ v e, p.voice.Freed v ∧ p.silence t = (p.withVoice v, .ended e) := by
  rw [silence]
  rcases p.awaitUtterance_cases t.cancelled with hr | ⟨hc, hr⟩ | ⟨v, trouble, hv, hr⟩
  · rw [hr]
    exact .inl rfl
  · rw [hr]
    exact .inr (.inl ⟨_, hc, rfl⟩)
  · rw [hr]
    cases trouble <;> exact .inr (.inr ⟨v, _, hv, rfl⟩)

/-- Finishing that goes on waits for the last utterance. -/
lemma eq_silence_of_running {a : Activity} (h : (p.silence t).2 = .running a) : a = .silence := by
  rcases p.silence_cases t with hr | ⟨e, -, hr⟩ | ⟨v, e, -, hr⟩ <;> rw [hr] at h <;> cases h
  rfl

end Plant

/-- Whether an activity waits for an utterance. -/
def Activity.awaits : Activity → Bool
  | .saying _ => true
  | .silence => true
  | _ => false

/-- A call that has nothing to do with the voice. -/
structure Plant.Voiceless (p : Plant) (r : Plant × Progress Activity) : Prop where
  voice : r.1.voice = p.voice
  activity : ∀ a, r.2 = .running a → a.awaits = false

namespace Plant

variable {p : Plant}

/-- A call that is over. -/
lemma voiceless_of_ended {r : Plant × Progress Activity} {e : Ending}
    (hvoice : r.1.voice = p.voice) (he : r.2 = .ended e) : p.Voiceless r := by
  refine ⟨hvoice, fun a ha => ?_⟩
  rw [he] at ha
  cases ha

lemma onBody_voiceless (r : Body × Progress Hold) : p.Voiceless (p.onBody r) := by
  obtain ⟨b, h | e⟩ := r
  · refine ⟨rfl, fun a ha => ?_⟩
    cases ha
    rfl
  · exact voiceless_of_ended rfl rfl

lemma onScript_voiceless {q : Plant} (hq : q.voice = p.voice) (now : Nat) {a : Activity}
    (ha : a.awaits = false) (r : List ScriptEvent × Option Ending) :
    p.Voiceless (q.onScript now a r) := by
  obtain ⟨events, _ | e⟩ := r
  · refine ⟨hq, fun a' ha' => ?_⟩
    cases ha'
    exact ha
  · exact voiceless_of_ended hq rfl

lemma aim_voiceless (m : Settings.Motion) (args : List String) (now : Nat) :
    p.Voiceless (p.aim m args now) := by
  rw [aim]
  split
  · exact voiceless_of_ended rfl rfl
  · split
    · exact voiceless_of_ended rfl rfl
    · exact voiceless_of_ended rfl rfl
    · rw [actOnce]
      split
      · exact voiceless_of_ended rfl rfl
      · exact voiceless_of_ended rfl rfl

end Plant

namespace Rig

variable (rig : Rig) (p : Plant) (t : Moment)

/-- Only a handler that speaks has to do with the voice. -/
lemma execute_voiceless {k : Handler} (hk : k ≠ .say) (args : List String) :
    p.Voiceless (rig.execute k args t p) := by
  cases k with
  | move m => exact p.onBody_voiceless _
  | camera => exact p.aim_voiceless rig.motion args t.now
  | stop => exact Plant.voiceless_of_ended rfl rfl
  | say => exact absurd rfl hk
  | scripted s =>
      rw [execute]
      exact p.onScript_voiceless (by rfl) t.now (by rfl) _

lemma finish_voiceless {k : Handler} (hk : k ≠ .say) : p.Voiceless (finish k t p) := by
  cases k with
  | move | camera | stop => exact Plant.voiceless_of_ended rfl rfl
  | say => exact absurd rfl hk
  | scripted s =>
      rw [finish]
      exact p.onScript_voiceless (by rfl) t.now (by rfl) _

lemma resume_voiceless {a : Activity} (ha : a.awaits = false) :
    p.Voiceless (rig.resume a t p) := by
  cases a with
  | holding h => exact p.onBody_voiceless _
  | saying | silence => cases ha
  | scripted | scriptedFinish => exact p.onScript_voiceless rfl t.now rfl _

end Rig

end RoverPilot
