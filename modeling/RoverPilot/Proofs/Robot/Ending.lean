import Mathlib.Tactic
import RoverPilot.Proofs.Executor.Progress
import RoverPilot.Proofs.Robot.Motors

/-!
Time and the voice bring every call of a robot's handlers to an end.

* `Voice.step_of_waiting`, `Voice.step_of_playing`, `Voice.step_of_aborted`: one step of the voice;
* `World.inTime_spoken`: what was given up falls silent, and the last utterance is over in time;
* `Rig.terminates`: so every call ends in time, whatever the settings and the handlers of the
  robot are.
-/

namespace RoverPilot

/-! ### The voice -/

namespace Voice

variable {v : Voice} {u : Utterance} (now : Nat) (cancelled : Token → Bool)

/-- What was given up first falls silent first. -/
lemma step_of_aborted {rest : List Utterance} (h : v.aborted = u :: rest) :
    (v.step now cancelled).aborted = rest := by
  rw [step, h]
  simp only
  split <;> rfl

/-- An utterance that was not heard yet is heard for a time, or over. -/
lemma step_of_waiting (hsilent : v.aborted = []) (hu : v.current = some u)
    (hwaiting : u.playback = .waiting) :
    (v.step now cancelled).aborted = [] ∧ ∃ playback,
      (v.step now cancelled).current = some { u with playback } ∧ playback ≠ .waiting := by
  simp only [step, hsilent, hu, stepCurrent, hwaiting]
  split
  · exact ⟨hsilent, .over none, rfl, by simp⟩
  · cases speakingTime? u.text (v.hear now (.start u.text)).msPerWord with
    | some ms => exact ⟨hsilent, _, rfl, by simp⟩
    | none => exact ⟨hsilent, _, rfl, by simp⟩

/-- An utterance that is heard is over when its time is. -/
lemma step_of_playing {wait : Wait} (hsilent : v.aborted = []) (hu : v.current = some u)
    (hplaying : u.playback = .playing wait) (hnow : wait.till ≤ now) :
    ∃ trouble, (v.step now cancelled).current = some { u with playback := .over trouble } := by
  simp only [step, hsilent, hu, stepCurrent, hplaying, if_pos hnow]
  split
  · exact ⟨none, rfl⟩
  · exact ⟨_, rfl⟩

end Voice

/-- Waiting for an utterance that is over ends. -/
lemma Plant.awaitUtterance_isSome {p : Plant} (cancelled : Bool)
    (h : ∀ u, p.voice.current = some u → ∃ trouble, u.playback = .over trouble) :
    (p.awaitUtterance cancelled).2.isSome = true := by
  rw [awaitUtterance]
  cases hu : p.voice.current with
  | none => rfl
  | some u =>
      obtain ⟨trouble, hover⟩ := h u hu
      cases cancelled <;> simp [hover]

namespace World

variable {rig : Rig} {w : World rig.machinery} {u : Utterance}

/-- The voice of the robot. -/
def voice (w : World rig.machinery) : Voice := Plant.voice w.plant

/-- Waiting for the last utterance ends, whether or not a signal is given. -/
def Spoken (w : World rig.machinery) : Prop :=
  ∀ cancelled, (Plant.awaitUtterance w.plant cancelled).2.isSome = true

lemma inTime_spoken_of_over {trouble : Option Cause} (hu : w.voice.current = some u)
    (hover : u.playback = .over trouble) : w.InTime Spoken := by
  refine .now fun cancelled => Plant.awaitUtterance_isSome cancelled fun u' hu' => ⟨trouble, ?_⟩
  rw [Option.some.inj (hu'.symm.trans hu), hover]

lemma inTime_spoken_of_playing {wait : Wait} (hsilent : w.voice.aborted = [])
    (hu : w.voice.current = some u) (hplaying : u.playback = .playing wait) : w.InTime Spoken := by
  obtain ⟨trouble, hover⟩ := Voice.step_of_playing _ w.isCancelled hsilent hu hplaying
    (Nat.le_max_left wait.till w.now)
  refine .after (a := .pass wait.till) rfl (.after (a := .background) rfl ?_)
  exact inTime_spoken_of_over hover rfl

lemma inTime_spoken_of_silent (hsilent : w.voice.aborted = []) : w.InTime Spoken := by
  cases hu : w.voice.current with
  | none =>
      refine .now fun cancelled => Plant.awaitUtterance_isSome cancelled fun u' hu' => ?_
      cases hu.symm.trans hu'
  | some u =>
      rcases hplayback : u.playback with _ | wait | trouble
      · obtain ⟨hsilent', playback, hcurrent, hne⟩ :=
          Voice.step_of_waiting w.now w.isCancelled hsilent hu hplayback
        refine .after (a := .background) rfl ?_
        rcases playback with _ | wait | trouble
        · exact absurd rfl hne
        · exact inTime_spoken_of_playing hsilent' hcurrent rfl
        · exact inTime_spoken_of_over hcurrent rfl
      · exact inTime_spoken_of_playing hsilent hu hplayback
      · exact inTime_spoken_of_over hu hplayback

/-- The last utterance is over in time. -/
lemma inTime_spoken (w : World rig.machinery) : w.InTime Spoken := by
  induction h : w.voice.aborted generalizing w with
  | nil => exact inTime_spoken_of_silent h
  | cons u rest ih =>
      exact .after (a := .background) rfl (ih (w.act .background) (Voice.step_of_aborted _ _ h))

end World

/-! ### Calls -/

namespace Rig

/-- Waiting that ends lets the call that waits end. -/
lemma saying_ended {p : Plant} {t : Moment} (h : (p.awaitUtterance t.cancelled).2.isSome = true)
    (text : String) : ∃ e, (p.saying text t).2 = .ended e := by
  rw [Plant.saying]
  split
  · simp_all
  · exact ⟨_, rfl⟩
  · exact ⟨_, rfl⟩

lemma silence_ended {p : Plant} {t : Moment} (h : (p.awaitUtterance t.cancelled).2.isSome = true) :
    ∃ e, (p.silence t).2 = .ended e := by
  rw [Plant.silence]
  split
  · simp_all
  · exact ⟨_, rfl⟩
  · exact ⟨_, rfl⟩

/-- Motors that run stop when their time is over. -/
lemma holding_ended (rig : Rig) {h : Hold} {t : Moment} {p : Plant} (hnow : h.deadline ≤ t.now) :
    ∃ e, (rig.resume (.holding h) t p).2 = .ended e := by
  obtain ⟨o, ho⟩ : ∃ o, h.outcome? rig.motion t.now t.cancelled p.body = some o := by
    rw [Hold.outcome?, if_pos hnow]
    split <;> exact ⟨_, rfl⟩
  obtain ⟨b, e, hclose⟩ := h.close_ended t.now p.body o
  exact ⟨e, by simp [resume, Hold.poll, ho, hclose, Plant.onBody]⟩

/-- A scripted handler ends when its time is over. -/
lemma scripted_ended (rig : Rig) {s : Script} {till : Nat} {t : Moment} {p : Plant}
    (hnow : till ≤ t.now) : ∃ e, (rig.resume (.scripted s till) t p).2 = .ended e := by
  rw [resume, Script.resume, if_pos hnow]
  split <;> exact ⟨_, rfl⟩

lemma scriptedFinish_ended (rig : Rig) {s : Script} {till : Nat} {t : Moment} {p : Plant}
    (hnow : till ≤ t.now) : ∃ e, (rig.resume (.scriptedFinish s till) t p).2 = .ended e := by
  rw [resume, Script.resumeFinish, if_pos hnow]
  exact ⟨_, rfl⟩

/-- Every call of a handler comes to an end in time. -/
theorem terminates (rig : Rig) : rig.machinery.Terminates := by
  intro w t a
  have htill (till : Nat) : till ≤ (w.act (.pass till)).now := Nat.le_max_left till w.now
  cases a with
  | holding h => exact .after (a := .pass h.deadline) rfl (.now (rig.holding_ended (htill _)))
  | saying text =>
      obtain ⟨as, has, hspoken⟩ := w.inTime_spoken
      exact ⟨as, has, saying_ended (hspoken _) text⟩
  | silence =>
      obtain ⟨as, has, hspoken⟩ := w.inTime_spoken
      exact ⟨as, has, silence_ended (hspoken _)⟩
  | scripted s till => exact .after (a := .pass till) rfl (.now (rig.scripted_ended (htill _)))
  | scriptedFinish s till =>
      exact .after (a := .pass till) rfl (.now (rig.scriptedFinish_ended (htill _)))

end Rig

end RoverPilot
