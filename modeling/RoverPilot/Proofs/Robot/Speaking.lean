import Mathlib.Tactic
import RoverPilot.Proofs.Executor.Owing
import RoverPilot.Proofs.Robot.Airing
import RoverPilot.Proofs.Robot.Ending

/-!
What the voice is at, and what became of the texts it was given.

* `World.OwesSpeech`: the worker is still to let the voice finish for the executing batch;
* `World.Closed`, `World.Pends`: a text of which nothing more is heard, and an utterance that the
  voice is not done with;
* `World.Speaks`: these are all texts, and what was heard is what was heard of each, one after the
  other;
* `Speaks.turn`, `Speaks.pass`: so it stays as the voice goes on with its first text and as time
  passes;
* `Speaks.keep`, `Speaks.abort`, `Speaks.say`, `Speaks.beside_act`: and as calls wait for the last
  utterance, give it up or give another text to the voice.
-/

namespace RoverPilot

open History

variable {rig : Rig}

namespace World

variable {w v : World rig.machinery} {strict : Prop} {done : List Speech} {t : Token}

/-! ### What is known of a text -/

/-- The worker is still to let the voice finish for the executing batch. -/
abbrev OwesSpeech (w : World rig.machinery) (t : Token) : Prop :=
  w.ledger.Owes (M := rig.machinery) Handler.say Activity.silence t

/-- It goes on to do so, unless the handler that speaks finishes or the batch is told to stop. -/
lemma owesSpeech_act (hw : w.ledger.Reachable) (howes : w.OwesSpeech t) (hc : t ∉ w.cancelled)
    (a : Action rig.machinery) :
    KeepsOwing (M := rig.machinery) w (w.act a) Handler.say Activity.silence t ∨
      a = .work ∧ Finishes (M := rig.machinery) w Handler.say Activity.silence t := by
  have hrun {m : Moment} {p : Plant} {a' : Activity} :
      (p.silence m).2 = .running a' → a' = .silence := p.eq_silence_of_running m
  exact owes_act hw howes hc (fun m p a' => hrun) (fun m p a' => hrun) a

/-- How it came that nothing more is heard of a text.  Only where `strict` holds nothing was put
off. -/
inductive Closes (w : World rig.machinery) (strict : Prop) (t : Token) (text : String) :
    Airing → Prop where
  | unheard (r : Nat) (hr : w.HaltedAt t r) : Closes w strict t text .unheard
  | finished (since till ms : Nat) (hms : speakingTime? text w.voice.msPerWord = some ms)
      (htill : since + ms ≤ till) (hnow : till ≤ w.now) (hstrict : strict → till = since + ms) :
      Closes w strict t text (.closed since till .finished)
  | broken (since : Nat) (hms : speakingTime? text w.voice.msPerWord = none)
      (hnow : since ≤ w.now) : Closes w strict t text (.closed since since .broken)
  | cut (since till r : Nat) (hr : w.HaltedAt t r) (hle : r ≤ till) (hsince : since ≤ till)
      (hnow : till ≤ w.now) : Closes w strict t text (.closed since till .cut)

/-- A text of which nothing more is heard: nothing was heard of it after the end of its batch. -/
structure Closed (w : World rig.machinery) (strict : Prop) (s : Speech) : Prop where
  closes : w.Closes strict s.token s.text s.airing
  late : ∀ since till c, s.airing = .closed since till c → strict ∨ c ≠ .cut →
    ∀ r, w.EndedAt s.token r → till ≤ r

/-- An utterance that the voice is not done with: its batch has been told to stop, or is the
executing one and has still to wait for it. -/
structure Pends (w : World rig.machinery) (strict : Prop) (u : Utterance) : Prop where
  held : u.token ∉ w.cancelled → w.OwesSpeech u.token
  lost : u.token ∈ w.cancelled → ∃ r, w.HaltedAt u.token r
  playing : ∀ wait, u.playback = .playing wait → wait.since ≤ w.now ∧
    (strict → w.now ≤ wait.till) ∧
      ∃ ms, speakingTime? u.text w.voice.msPerWord = some ms ∧ wait.till = wait.since + ms
  late : strict → ∀ wait, u.playback = .playing wait → ∀ r, w.EndedAt u.token r → w.now ≤ r

/-- All texts that were given to the voice: those of which nothing more is heard, and those that
the voice is not done with. -/
def speeches (w : World rig.machinery) (done : List Speech) : List Speech :=
  done ++ w.voice.pending.map Utterance.speech

/-- What the voice is at, with the texts of which nothing more is heard. -/
structure Speaks (w : World rig.machinery) (strict : Prop) (done : List Speech) : Prop where
  heard : w.voice.log.reverse = (w.speeches done).flatMap Speech.heard
  rest : ∀ u ∈ w.voice.pending.tail, u.playback = .waiting
  aborted : ∀ u ∈ w.voice.aborted, u.isOver = false → u.token ∈ w.cancelled
  pending : ∀ u ∈ w.voice.pending, w.Pends strict u
  done : ∀ s ∈ done, w.Closed strict s
  past : ∀ x ∈ w.journal, x.1 ≤ w.now

/-- Time passes and more is written down. -/
structure Extends (w v : World rig.machinery) : Prop where
  now : w.now ≤ v.now
  journal : ∃ new : Log (Event rig.machinery), v.journal = new ++ w.journal ∧
    ∀ x ∈ new, w.now ≤ x.1 ∧ x.1 ≤ v.now
  msPerWord : v.voice.msPerWord = w.voice.msPerWord

namespace Extends

lemma haltedAt (h : w.Extends v) {r : Nat} (hr : w.HaltedAt t r) : v.HaltedAt t r := by
  obtain ⟨new, hnew, -⟩ := h.journal
  exact hr.mono hnew

/-- What is not later than an end of a batch is not later than one that is written down now. -/
lemma late (h : w.Extends v) {till : Nat} (hnow : till ≤ w.now)
    (hlate : ∀ r, w.EndedAt t r → till ≤ r) : ∀ r, v.EndedAt t r → till ≤ r := by
  obtain ⟨new, hnew, hlater⟩ := h.journal
  intro r hr
  rcases hr.of_append hnew with ⟨e, he⟩ | hold
  · exact hnow.trans (hlater _ he).1
  · exact hlate r hold

lemma past (h : w.Extends v) (hpast : ∀ x ∈ w.journal, x.1 ≤ w.now) :
    ∀ x ∈ v.journal, x.1 ≤ v.now := by
  obtain ⟨new, hnew, hlater⟩ := h.journal
  intro x hx
  rcases List.mem_append.mp (hnew ▸ hx) with hmem | hmem
  · exact (hlater x hmem).2
  · exact (hpast x hmem).trans h.now

lemma closes (h : w.Extends v) {text : String} {a : Airing} (ha : w.Closes strict t text a) :
    v.Closes strict t text a := by
  cases ha with
  | unheard r hr => exact .unheard r (h.haltedAt hr)
  | finished since till ms hms htill hnow hstrict =>
      exact .finished since till ms (h.msPerWord ▸ hms) htill (hnow.trans h.now) hstrict
  | broken since hms hnow => exact .broken since (h.msPerWord ▸ hms) (hnow.trans h.now)
  | cut since till r hr hle hsince hnow =>
      exact .cut since till r (h.haltedAt hr) hle hsince (hnow.trans h.now)

/-- Of a text that was done with nothing more is heard. -/
lemma closed (h : w.Extends v) {s : Speech} (hs : w.Closed strict s) : v.Closed strict s := by
  refine ⟨h.closes hs.closes, fun since till c hair hc => h.late ?_ (hs.late since till c hair hc)⟩
  have hcloses := hs.closes
  rw [hair] at hcloses
  cases hcloses with
  | finished _ _ _ _ _ hnow => exact hnow
  | broken _ _ hnow => exact hnow
  | cut _ _ _ _ _ _ hnow => exact hnow

end Extends

/-! ### Beside the voice -/

/-- What happens beside the voice at the present time: no batch that has still to wait for its
speech forgets it. -/
structure Beside (w v : World rig.machinery) : Prop where
  now : v.now = w.now
  journal : ∃ new : List (Event rig.machinery),
    v.journal = new.map (Prod.mk w.now) ++ w.journal
  cancelled : w.cancelled ⊆ v.cancelled
  owes : ∀ u ∈ w.voice.pending, u.token ∉ w.cancelled →
    KeepsOwing (M := rig.machinery) w v Handler.say Activity.silence u.token

lemma Beside.extends (hb : w.Beside v) (hms : v.voice.msPerWord = w.voice.msPerWord) :
    w.Extends v := by
  obtain ⟨new, hnew⟩ := hb.journal
  refine ⟨hb.now.ge, ⟨_, hnew, fun x hx => ?_⟩, hms⟩
  obtain ⟨e, -, rfl⟩ := List.mem_map.mp hx
  exact ⟨le_rfl, hb.now.ge⟩

/-- An utterance that waits to be heard. -/
lemma Pends.of_waiting {u : Utterance} (hu : u.playback = .waiting)
    (hheld : u.token ∉ w.cancelled → w.OwesSpeech u.token)
    (hlost : u.token ∈ w.cancelled → ∃ r, w.HaltedAt u.token r) : w.Pends strict u := by
  have hnot (wait : Wait) : u.playback ≠ .playing wait := by
    simp [hu]
  exact ⟨hheld, hlost, fun wait hwait => absurd hwait (hnot wait),
    fun _ wait hwait => absurd hwait (hnot wait)⟩

/-- One of a batch that still executes starts. -/
lemma Pends.start {u : Utterance} (h : w.Pends strict u) (hover : ∀ r, ¬ w.EndedAt u.token r)
    {ms : Nat} (hms : speakingTime? u.text w.voice.msPerWord = some ms) :
    w.Pends strict
      { u with playback := .playing { since := w.now, till := w.now + ms } } := by
  refine ⟨h.held, h.lost, fun wait hwait => ?_, fun _ _ _ r hr => absurd hr (hover r)⟩
  cases hwait
  exact ⟨le_rfl, fun _ => Nat.le_add_right _ _, ms, hms, rfl⟩

/-- An utterance that the voice is not done with stays so. -/
lemma Pends.beside {u : Utterance} (h : w.Pends strict u)
    (hkeep : u.token ∉ w.cancelled →
      KeepsOwing (M := rig.machinery) w v Handler.say Activity.silence u.token)
    (hb : w.Beside v) (hms : v.voice.msPerWord = w.voice.msPerWord) : v.Pends strict u := by
  have hext := hb.extends hms
  refine ⟨fun hc => ?_, fun hc => ?_, fun wait hwait => ?_, fun hs wait hwait => ?_⟩
  · rcases hkeep fun hold => hc (hb.cancelled hold) with ⟨-, howes⟩ | ⟨hlost, -⟩
    · exact howes
    · exact absurd hlost hc
  · by_cases hold : u.token ∈ w.cancelled
    · obtain ⟨r, hr⟩ := h.lost hold
      exact ⟨r, hext.haltedAt hr⟩
    · rcases hkeep hold with ⟨hnot, -⟩ | ⟨-, hr⟩
      · exact absurd hc hnot
      · exact ⟨w.now, hr⟩
  · rw [hb.now, hms]
    exact h.playing wait hwait
  · rw [hb.now]
    exact hext.late le_rfl (h.late hs wait hwait)

namespace Speaks

/-- What leaves the texts alone. -/
lemma keep (h : w.Speaks strict done) (hb : w.Beside v)
    (hms : v.voice.msPerWord = w.voice.msPerWord) (hlog : v.voice.log = w.voice.log)
    (hpending : v.voice.pending = w.voice.pending)
    (haborted : ∀ u ∈ v.voice.aborted, u.isOver = false → u.token ∈ v.cancelled) :
    v.Speaks strict done where
  heard := by
    rw [speeches, hlog, hpending]
    exact h.heard
  rest := hpending ▸ h.rest
  aborted := haborted
  pending := by
    rw [hpending]
    exact fun u hu => (h.pending u hu).beside (hb.owes u hu) hb hms
  done := fun s hs => (hb.extends hms).closed (h.done s hs)
  past := (hb.extends hms).past h.past

/-- What leaves the voice alone. -/
lemma still (h : w.Speaks strict done) (hb : w.Beside v) (hvoice : v.voice = w.voice) :
    v.Speaks strict done := by
  refine h.keep hb (by rw [hvoice]) (by rw [hvoice]) (by rw [hvoice]) fun u hu hover => ?_
  exact hb.cancelled (h.aborted u (hvoice ▸ hu) hover)

/-- The last utterance is waited for to the end. -/
lemma freed (h : w.Speaks strict done) (hb : w.Beside v) (hfreed : w.voice.Freed v.voice) :
    v.Speaks strict done := by
  refine h.keep hb hfreed.msPerWord hfreed.log hfreed.pending fun u hu hover => ?_
  exact hb.cancelled (h.aborted u (hfreed.aborted ▸ hu) hover)

/-- The last utterance is given up, as all are lost. -/
lemma abort (h : w.Speaks strict done) (hb : w.Beside v) (hvoice : v.voice = w.voice.abort)
    (hlost : ∀ u ∈ w.voice.pending, u.token ∈ w.cancelled) : v.Speaks strict done := by
  refine h.keep hb (by rw [hvoice]; rfl) (by rw [hvoice]; rfl)
    (by rw [hvoice, Voice.pending_abort]) fun u hu hover => hb.cancelled (hlost u ?_)
  rw [hvoice, Voice.abort, List.mem_append, Option.mem_toList] at hu
  exact Voice.mem_pending.mpr ⟨hu, hover⟩

/-- Another text is given to the voice. -/
lemma say (h : w.Speaks strict done) (hb : w.Beside v) {voice : Voice} {text : String}
    (hfreed : w.voice.Freed voice) (hvoice : v.voice = voice.say t text)
    (hheld : t ∉ v.cancelled → v.OwesSpeech t) (hlost : t ∈ v.cancelled → ∃ r, v.HaltedAt t r) :
    v.Speaks strict done ∧ v.speeches done = w.speeches done ++ [⟨t, text, .unheard⟩] := by
  have hms : v.voice.msPerWord = w.voice.msPerWord := by
    rw [hvoice]
    exact hfreed.msPerWord
  have hpending : v.voice.pending =
      w.voice.pending ++ [{ task := voice.tasks + 1, token := t, text }] := by
    rw [hvoice, Voice.pending_say hfreed.current, hfreed.pending]
  have hspeeches : v.speeches done = w.speeches done ++ [⟨t, text, .unheard⟩] := by
    simp [speeches, hpending, Utterance.speech]
  refine ⟨?_, hspeeches⟩
  refine
    { heard := ?_
      rest := fun u hu => ?_
      aborted := fun u hu hover => ?_
      pending := fun u hu => ?_
      done := fun s hs => (hb.extends hms).closed (h.done s hs)
      past := (hb.extends hms).past h.past }
  · have hlog : v.voice.log = w.voice.log := by
      rw [hvoice]
      exact hfreed.log
    rw [hspeeches, hlog, h.heard]
    simp [Speech.heard]
  · rw [hpending] at hu
    cases hold : w.voice.pending with
    | nil => simp [hold] at hu
    | cons first rest =>
        rw [hold, List.cons_append, List.tail_cons, List.mem_append] at hu
        rcases hu with hu | hu
        · exact h.rest u (by rw [hold]; exact hu)
        · cases List.mem_singleton.mp hu
          rfl
  · have hmem : u ∈ w.voice.aborted := by
      rw [hvoice] at hu
      exact hfreed.aborted ▸ hu
    exact hb.cancelled (h.aborted u hmem hover)
  · rw [hpending, List.mem_append] at hu
    rcases hu with hu | hu
    · exact (h.pending u hu).beside (hb.owes u hu) hb hms
    · cases List.mem_singleton.mp hu
      exact Pends.of_waiting rfl hheld hlost

/-! ### The background -/

section

variable {u : Utterance}

/-- A text that is dropped or cut is of a batch that was told to stop. -/
lemma halted (h : w.Speaks strict done) (hu : u ∈ w.voice.pending)
    (hsignal : u ∈ w.voice.aborted ∨ w.isCancelled u.token = true) :
    ∃ r, w.HaltedAt u.token r := by
  refine (h.pending u hu).lost ?_
  rcases hsignal with hgiven | hc
  · exact h.aborted u hgiven (Voice.mem_pending.mp hu).2
  · exact (w.isCancelled_iff _).mp hc

/-- Any other one is of a batch that still executes. -/
lemma not_ended (h : w.Speaks strict done) (hw : w.ledger.Reachable) (hu : u ∈ w.voice.pending)
    (hsignal : w.isCancelled u.token = false) : ∀ r, ¬ w.EndedAt u.token r := by
  have hc : u.token ∉ w.cancelled := by simpa [isCancelled] using hsignal
  exact fun r => not_endedAt_of_owes hw ((h.pending u hu).held hc) hc

lemma closed_unheard (h : w.Speaks strict done) (hu : u ∈ w.voice.pending)
    (hsignal : u ∈ w.voice.aborted ∨ w.isCancelled u.token = true) :
    w.Closed strict ⟨u.token, u.text, .unheard⟩ := by
  obtain ⟨r, hr⟩ := h.halted hu hsignal
  exact ⟨.unheard r hr, by simp⟩

lemma closed_broken (h : w.Speaks strict done) (hw : w.ledger.Reachable)
    (hu : u ∈ w.voice.pending) (hsignal : w.isCancelled u.token = false)
    (hms : speakingTime? u.text w.voice.msPerWord = none) :
    w.Closed strict ⟨u.token, u.text, .closed w.now w.now .broken⟩ :=
  ⟨.broken w.now hms le_rfl, fun _ _ _ _ _ r hr => absurd hr (h.not_ended hw hu hsignal r)⟩

lemma closed_cut (h : w.Speaks strict done) (hu : u ∈ w.voice.pending) {wait : Wait}
    (hplaying : u.playback = .playing wait)
    (hsignal : u ∈ w.voice.aborted ∨ w.isCancelled u.token = true) :
    w.Closed strict ⟨u.token, u.text, .closed wait.since w.now .cut⟩ := by
  obtain ⟨r, hr⟩ := h.halted hu hsignal
  obtain ⟨e, he⟩ := hr.mem
  have hpends := h.pending u hu
  refine ⟨.cut _ _ r hr (h.past _ he) (hpends.playing wait hplaying).1 le_rfl, ?_⟩
  rintro _ _ _ ⟨⟩ (hs | hne)
  · exact hpends.late hs wait hplaying
  · exact absurd rfl hne

lemma closed_finished (h : w.Speaks strict done) (hw : w.ledger.Reachable)
    (hu : u ∈ w.voice.pending) {wait : Wait} (hplaying : u.playback = .playing wait)
    (hsignal : w.isCancelled u.token = false) (htill : wait.till ≤ w.now) :
    w.Closed strict ⟨u.token, u.text, .closed wait.since w.now .finished⟩ := by
  obtain ⟨-, hend, ms, hms, hlong⟩ := (h.pending u hu).playing wait hplaying
  rw [hlong] at hend htill
  exact ⟨.finished _ _ ms hms htill le_rfl fun hs => le_antisymm (hend hs) htill,
    fun _ _ _ _ _ r hr => absurd hr (h.not_ended hw hu hsignal r)⟩

end

/-- Nothing is heard of texts behind the first one that the voice is not done with. -/
lemma heard_of_rest {rest : List Utterance} (hrest : ∀ u ∈ rest, u.playback = .waiting) :
    (rest.map Utterance.speech).flatMap Speech.heard = [] := by
  rw [List.flatMap_eq_nil_iff, List.forall_mem_map]
  exact fun u hu => Utterance.heard_of_waiting (hrest u hu)

/-- Nothing more is heard of the first text. -/
lemma leave (h : w.Speaks strict done) (hb : w.Beside v)
    (hms : v.voice.msPerWord = w.voice.msPerWord) (haborted : v.voice.aborted ⊆ w.voice.aborted)
    {u : Utterance} {rest : List Utterance} (hu : w.voice.pending = u :: rest)
    (hpending : v.voice.pending = rest) {a : Airing} (hs : w.Closed strict ⟨u.token, u.text, a⟩)
    (news : List (Nat × SpeechEvent)) (hlog : v.voice.log.reverse = w.voice.log.reverse ++ news)
    (hheard : Speech.heard ⟨u.token, u.text, a⟩ = u.speech.heard ++ news) :
    ∃ done', v.Speaks strict done' ∧
      (v.speeches done').map Speech.key = (w.speeches done).map Speech.key := by
  have hrest : ∀ u' ∈ rest, u'.playback = .waiting := by simpa [hu] using h.rest
  refine ⟨done ++ [⟨u.token, u.text, a⟩], ?_, by
    simp [speeches, hu, hpending, Speech.key, Utterance.speech]⟩
  refine
    { heard := ?_
      rest := fun u' hu' => hrest u' (List.mem_of_mem_tail (hpending ▸ hu'))
      aborted := fun u' hu' hover => hb.cancelled (h.aborted u' (haborted hu') hover)
      pending := fun u' hu' => ?_
      done := fun s' hs' => ?_
      past := (hb.extends hms).past h.past }
  · have hold : w.voice.log.reverse = done.flatMap Speech.heard ++ u.speech.heard := by
      rw [h.heard, speeches, hu, List.map_cons, List.flatMap_append, List.flatMap_cons,
        heard_of_rest hrest, List.append_nil]
    rw [hlog, hold, speeches, hpending, List.flatMap_append, heard_of_rest hrest]
    simp [hheard]
  · have hmem : u' ∈ w.voice.pending := by
      rw [hu]
      exact List.mem_cons_of_mem _ (hpending ▸ hu')
    exact (h.pending u' hmem).beside (hb.owes u' hmem) hb hms
  · rcases List.mem_append.mp hs' with hmem | hmem
    · exact (hb.extends hms).closed (h.done s' hmem)
    · exact (hb.extends hms).closed (List.mem_singleton.mp hmem ▸ hs)

/-- The only text starts. -/
lemma start (h : w.Speaks strict done) (hb : w.Beside v)
    (hms : v.voice.msPerWord = w.voice.msPerWord) (haborted : v.voice.aborted ⊆ w.voice.aborted)
    {u u' : Utterance} (hu : w.voice.pending = [u]) (hwaiting : u.playback = .waiting)
    (hpending : v.voice.pending = [u']) {wait : Wait}
    (hu' : u' = { u with playback := .playing wait })
    (hlog : v.voice.log = (wait.since, .start u.text) :: w.voice.log) (hpends : w.Pends strict u') :
    ∃ done', v.Speaks strict done' ∧
      (v.speeches done').map Speech.key = (w.speeches done).map Speech.key := by
  subst hu'
  refine ⟨done, ?_, by simp [speeches, hu, hpending, Speech.key, Utterance.speech]⟩
  refine
    { heard := ?_
      rest := by simp [hpending]
      aborted := fun u' hu' hover => hb.cancelled (h.aborted u' (haborted hu') hover)
      pending := by
        have hkept := hpends.beside (hb.owes u (by simp [hu])) hb hms
        simpa [hpending] using hkept
      done := fun s hs => (hb.extends hms).closed (h.done s hs)
      past := (hb.extends hms).past h.past }
  have hold : w.voice.log.reverse = done.flatMap Speech.heard := by
    simp [h.heard, speeches, hu, Utterance.heard_of_waiting hwaiting]
  rw [hlog, List.reverse_cons, hold]
  simp [speeches, hpending, Utterance.speech, Speech.heard]

/-- The voice goes on with its first text, and nothing else changes. -/
lemma turn (h : w.Speaks strict done) (hw : w.ledger.Reachable) :
    ∃ done', (w.act .background).Speaks strict done' ∧
      ((w.act .background).speeches done').map Speech.key = (w.speeches done).map Speech.key := by
  obtain ⟨haborted, hms⟩ := w.voice.step_spec w.now w.isCancelled
  have hturn := w.voice.turn_step w.now w.isCancelled
  have hb : w.Beside (w.act .background) :=
    ⟨rfl, ⟨[], rfl⟩, List.Subset.refl _, fun u hu hc => .inl ⟨hc, (h.pending u hu).held hc⟩⟩
  have hvoice : (w.act .background).voice = w.voice.step w.now w.isCancelled := rfl
  generalize w.act .background = v at *
  rw [← hvoice] at haborted hms hturn
  have hmem {u : Utterance} {rest : List Utterance} (hu : w.voice.pending = u :: rest) :
      u ∈ w.voice.pending := by simp [hu]
  cases hturn with
  | nothing hpending hlog =>
      refine ⟨done, h.keep hb hms hlog hpending fun u hu hover => ?_, ?_⟩
      · exact hb.cancelled (h.aborted u (haborted hu) hover)
      · rw [speeches, hpending]
        rfl
  | drop u rest hu hwaiting hsignal hpending hlog =>
      refine h.leave hb hms haborted hu hpending (h.closed_unheard (hmem hu) hsignal) [] ?_ ?_
      · rw [hlog, List.append_nil]
      · rw [Utterance.heard_of_waiting hwaiting]
        rfl
  | start u ms hu hwaiting hsignal hms' hpending hlog =>
      have hpends := (h.pending u (hmem hu)).start (h.not_ended hw (hmem hu) hsignal) hms'
      exact h.start hb hms haborted hu hwaiting hpending rfl hlog hpends
  | broken u hu hwaiting hsignal hms' hpending hlog =>
      have hclosed := h.closed_broken hw (hmem hu) hsignal hms'
      refine h.leave hb hms haborted hu hpending hclosed
        [(w.now, .start u.text), (w.now, .cut u.text)] (by simp [hlog]) ?_
      rw [Utterance.heard_of_waiting hwaiting]
      rfl
  | cut u rest wait hu hplaying hsignal hpending hlog =>
      have hclosed := h.closed_cut (hmem hu) hplaying hsignal
      refine h.leave hb hms haborted hu hpending hclosed [(w.now, .cut u.text)] (by simp [hlog]) ?_
      rw [Utterance.heard_of_playing hplaying]
      rfl
  | finish u wait hu hplaying hsignal htill hpending hlog =>
      have hclosed := h.closed_finished hw (hmem hu) hplaying hsignal htill
      refine h.leave hb hms haborted hu hpending hclosed
        [(w.now, .finish u.text)] (by simp [hlog]) ?_
      rw [Utterance.heard_of_playing hplaying]
      rfl

/-- Time passes. -/
lemma pass (h : w.Speaks strict done) (hw : w.ledger.Reachable) {s : Nat}
    (hs : strict → w.Permits (.pass s)) : (w.act (.pass s)).Speaks strict done := by
  have hlater : w.now ≤ (w.act (.pass s)).now := Nat.le_max_right s w.now
  have hext : w.Extends (w.act (.pass s)) :=
    ⟨hlater, ⟨[], rfl, fun _ hx => absurd hx List.not_mem_nil⟩, rfl⟩
  have hpermits (hstrict : strict) {u : Utterance} (hu : u ∈ w.voice.pending) {wait : Wait}
      (hwait : u.playback = .playing wait) : u.token ∉ w.cancelled ∧ s ≤ wait.till := by
    obtain ⟨wait', hwait', hplaying, hsignal⟩ :=
      w.voice.playing_of_not_ready _ _ (hs hstrict).2.1 hu
    cases hwait.symm.trans hplaying
    exact ⟨by simpa [isCancelled] using hsignal, Permits.le_backgroundWait w (hs hstrict) hwait'⟩
  refine
    { heard := h.heard
      rest := h.rest
      aborted := h.aborted
      pending := fun u hu => ?_
      done := fun s' hs' => hext.closed (h.done s' hs')
      past := hext.past h.past }
  have hpends := h.pending u hu
  refine ⟨hpends.held, hpends.lost, fun wait hwait => ?_, fun hstrict wait hwait r hr => ?_⟩
  · obtain ⟨hsince, htill, hms⟩ := hpends.playing wait hwait
    exact ⟨hsince.trans hlater,
      fun hstrict => Nat.max_le.mpr ⟨(hpermits hstrict hu hwait).2, htill hstrict⟩, hms⟩
  · have hc := (hpermits hstrict hu hwait).1
    exact absurd hr (not_endedAt_of_owes hw (hpends.held hc) hc)

/-! ### What happens beside the voice -/

/-- Once the signal of the batch that the worker is at is given, all texts are lost that the voice
is not done with. -/
lemma all_lost (h : w.Speaks strict done) (hw : w.ledger.Reachable) {b : BatchId}
    (hat : w.worker.phase.attached? = some (t, b)) (hc : t ∈ w.cancelled) :
    ∀ u ∈ w.voice.pending, u.token ∈ w.cancelled := by
  intro u hu
  by_contra hnot
  obtain rfl : t = u.token := ((h.pending u hu).held hnot).attached hw hat
  exact hnot hc

/-- So they are once a handler has finished to speak for it. -/
lemma all_lost_of_ended (h : w.Speaks strict done) (hw : w.ledger.Reachable) {b : BatchId}
    (hat : w.worker.phase.attached? = some (t, b)) {e : Ending}
    (he : (Plant.silence w.plant (w.moment t)).2 = .ended e) :
    ∀ u ∈ w.voice.pending, u.token ∈ w.cancelled := by
  rcases Plant.silence_cases w.plant (w.moment t) with hr | ⟨e, hc, -⟩ | ⟨v, e, hfreed, -⟩
  · rw [hr] at he
    cases he
  · exact h.all_lost hw hat ((w.isCancelled_iff t).mp hc)
  · intro u hu
    obtain ⟨hmem | hmem, hover⟩ := Voice.mem_pending.mp (hfreed.pending.symm ▸ hu)
    · exact h.aborted u (hfreed.aborted ▸ hmem) hover
    · rw [hfreed.current] at hmem
      cases hmem

/-- All that happens at the present time is beside the voice. -/
lemma beside_act (h : w.Speaks strict done) (hw : w.ledger.Reachable)
    {a : Action rig.machinery} (ha : ∀ s, a ≠ .pass s) : w.Beside (w.act a) := by
  have hnow : (w.act a).now = w.now := by
    rcases w.now_act a with hnow | ⟨s, hs, -⟩
    · exact hnow
    · exact absurd hs (ha s)
  refine ⟨hnow, w.journal_act a, (w.steps_act a hw.signalled).cancelled_subset, fun u hu hc => ?_⟩
  rcases owesSpeech_act hw ((h.pending u hu).held hc) hc a with hkeep | ⟨-, hfinish⟩
  · exact hkeep
  · -- the handler that speaks does not finish before the last text is over
    refine absurd ?_ hc
    cases hfinish with
    | atOnce b ks e hp he => exact h.all_lost_of_ended hw (b := b) (by rw [hp]; rfl) he u hu
    | later b ks e hp he => exact h.all_lost_of_ended hw (b := b) (by rw [hp]; rfl) he u hu

end Speaks

end World

end RoverPilot
