import Mathlib.Tactic
import RoverPilot.Proofs.Robot.Saying

/-!
Speech belongs to its batch.

* `World.Told`, `World.Punctual`: what becomes of the texts that commands give to the voice, and
  when, if nothing is put off;
* `Speaks.told`, `Speaks.punctual`: both can be read off what the voice is at;
* `World.live_told`: so it is in every life of the robot.
-/

namespace RoverPilot

open History

variable {rig : Rig}

namespace World

variable {w : World rig.machinery} {strict : Prop} {done : List Speech} {us : List Speech}

/-! ### Texts and their ends -/

/-- What becomes of the texts that are given to the voice, in order. -/
structure Told (w : World rig.machinery) (us : List Speech) : Prop where
  /-- They are those that commands have given to the voice. -/
  said : us.map Speech.key = said w.history
  /-- What was heard is what was heard of each of them, one after the other. -/
  heard : w.voice.log.reverse = us.flatMap Speech.heard
  /-- The utterances that the voice is not done with are the last ones. -/
  pending : w.voice.pending.map Utterance.speech <:+ us
  /-- At most one is heard at a time: nothing was heard yet of those behind it. -/
  single : us.Pairwise fun u v => ∀ since, u.airing = .playing since → v.airing = .unheard
  /-- One is cut only after its batch was told to stop. -/
  cut : ∀ u ∈ us, ∀ since till, u.airing = .closed since till .cut →
    ∃ s ≤ till, w.HaltedAt u.token s
  /-- One that was heard to its end was heard as long as its words take. -/
  finished : ∀ u ∈ us, ∀ since till, u.airing = .closed since till .finished →
    ∃ ms, speakingTime? u.text w.voice.msPerWord = some ms ∧ since + ms ≤ till
  /-- One breaks by itself only as there is no word for its time. -/
  broken : ∀ u ∈ us, ∀ since till, u.airing = .closed since till .broken →
    till = since ∧ speakingTime? u.text w.voice.msPerWord = none
  /-- If a batch is reported that the operator did not stop, all its texts have been heard. -/
  reported : ∀ s t r, (s, .reported t r) ∈ w.journal → ¬ StoppedUnder t w.history →
    ∀ u ∈ us, u.token = t → ∃ since till c, u.airing = .closed since till c ∧ c ≠ .cut ∧ till ≤ s

/-- What becomes of them if nothing is put off. -/
structure Punctual (w : World rig.machinery) (us : List Speech) : Prop where
  /-- One is cut as its batch is first told to stop. -/
  cut : ∀ u ∈ us, ∀ since till, u.airing = .closed since till .cut →
    w.HaltedAt u.token till ∧ ∀ s, w.HaltedAt u.token s → till ≤ s
  /-- One that is heard to its end is heard no longer than its words take. -/
  finished : ∀ u ∈ us, ∀ since till, u.airing = .closed since till .finished →
    ∀ ms, speakingTime? u.text w.voice.msPerWord = some ms → till = since + ms
  /-- None is heard after its batch was told to stop, preempted or reported. -/
  late : ∀ u ∈ us, ∀ s, w.EndedAt u.token s →
    (∀ since, u.airing = .playing since → w.now ≤ s) ∧
      ∀ since till c, u.airing = .closed since till c → till ≤ s

namespace Speaks

/-- A text is one of which nothing more is heard or the one of an utterance that the voice is not
done with. -/
lemma mem_speeches {u : Speech} :
    u ∈ w.speeches done ↔ u ∈ done ∨ ∃ x ∈ w.voice.pending, x.speech = u := by
  rw [speeches, List.mem_append, List.mem_map]

/-- Of a text that was closed nothing more is heard. -/
lemma closed_of_airing (h : w.Speaks strict done) {u : Speech} (hu : u ∈ w.speeches done)
    {since till : Nat} {c : Close} (ha : u.airing = .closed since till c) : w.Closed strict u := by
  rcases mem_speeches.mp hu with hmem | ⟨x, -, rfl⟩
  · exact h.done u hmem
  · rw [Utterance.speech] at ha
    split at ha <;> cases ha

/-- Only an utterance that the voice is not done with is being heard. -/
lemma playing_of_airing (h : w.Speaks strict done) {u : Speech} (hu : u ∈ w.speeches done)
    {since : Nat} (ha : u.airing = .playing since) :
    ∃ x ∈ w.voice.pending, ∃ wait, x.playback = .playing wait ∧ x.speech = u := by
  rcases mem_speeches.mp hu with hmem | ⟨x, hx, rfl⟩
  · have hcloses := (h.done u hmem).closes
    rw [ha] at hcloses
    cases hcloses
  · refine ⟨x, hx, ?_⟩
    rcases hp : x.playback with _ | wait | trouble
    · simp [Utterance.speech, hp] at ha
    · exact ⟨wait, rfl, rfl⟩
    · simp [Utterance.speech, hp] at ha

lemma single (h : w.Speaks strict done) : (w.speeches done).Pairwise fun u v =>
    ∀ since, u.airing = .playing since → v.airing = .unheard := by
  have hdone {u : Speech} (hu : u ∈ done) (since : Nat) : u.airing ≠ .playing since := by
    intro ha
    have hcloses := (h.done u hu).closes
    rw [ha] at hcloses
    cases hcloses
  rw [speeches, List.pairwise_append]
  refine ⟨?_, ?_, fun u hu v _ since ha => absurd ha (hdone hu since)⟩
  · refine List.pairwise_of_forall_mem_list fun u hu v _ since ha => absurd ha (hdone hu since)
  · -- all but the first utterance wait for it
    have hrest := h.rest
    cases hpending : w.voice.pending with
    | nil => exact List.Pairwise.nil
    | cons first rest =>
        rw [hpending, List.tail_cons] at hrest
        have hunheard {x : Utterance} (hx : x ∈ rest) : x.speech.airing = .unheard := by
          simp [Utterance.speech, hrest x hx]
        rw [List.map_cons, List.pairwise_cons, List.forall_mem_map]
        refine ⟨fun x hx _ _ => hunheard hx, List.pairwise_map.mpr ?_⟩
        exact List.pairwise_of_forall_mem_list fun x hx y hy _ _ => hunheard hy

/-- If a batch is reported that the operator did not stop, all its texts have been heard. -/
lemma reported (h : w.Speaks strict done) (hw : w.ledger.Reachable) {s : Nat} {t : Token}
    {r : Result} (hreport : (s, .reported t r) ∈ w.journal) (hstop : ¬ StoppedUnder t w.history)
    {u : Speech} (hu : u ∈ w.speeches done) (ht : u.token = t) :
    ∃ since till c, u.airing = .closed since till c ∧ c ≠ .cut ∧ till ≤ s := by
  subst ht
  have hended : w.EndedAt u.token s := .inr ⟨_, hreport, rfl⟩
  have hmem : (u.token, r) ∈ reports w.ledger.history := by
    refine mem_view.mpr ⟨.reported u.token r, ?_, rfl⟩
    exact List.mem_map_of_mem (List.mem_reverse.mpr hreport)
  -- a batch that was neither stopped nor preempted was never told to stop
  have hnot (s' : Nat) : ¬ w.HaltedAt u.token s' := fun hhalted =>
    hhalted.stopped_or_preempted.elim hstop (hw.not_preempted_of_reported hmem)
  rcases mem_speeches.mp hu with hdone | ⟨x, hx, rfl⟩
  · obtain ⟨hcloses, hlate⟩ := h.done u hdone
    cases ha : u.airing with
    | unheard =>
        rw [ha] at hcloses
        cases hcloses with
        | unheard s' hs' => exact absurd hs' (hnot s')
    | playing since =>
        rw [ha] at hcloses
        cases hcloses
    | closed since till c =>
        have hc : c ≠ .cut := by
          rintro rfl
          rw [ha] at hcloses
          cases hcloses with
          | cut _ _ s' hs' => exact hnot s' hs'
        exact ⟨since, till, c, rfl, hc, hlate since till c ha (.inr hc) s hended⟩
  · have hpends := h.pending x hx
    by_cases hc : x.token ∈ w.cancelled
    · obtain ⟨s', hs'⟩ := hpends.lost hc
      exact absurd hs' (hnot s')
    · exact absurd hended (not_endedAt_of_owes hw (hpends.held hc) hc)

/-- What becomes of the texts can be read off what the voice is at. -/
lemma told (h : w.Speaks strict done) (hw : w.ledger.Reachable)
    (hsaid : (w.speeches done).map Speech.key = said w.history) : w.Told (w.speeches done) := by
  refine
    { said := hsaid
      heard := h.heard
      pending := List.suffix_append _ _
      single := h.single
      cut := fun u hu since till ha => ?_
      finished := fun u hu since till ha => ?_
      broken := fun u hu since till ha => ?_
      reported := fun s t r hreport hstop u hu ht => ?_ }
  · have hcloses := (h.closed_of_airing hu ha).closes
    rw [ha] at hcloses
    cases hcloses with
    | cut _ _ r hr hle => exact ⟨r, hle, hr⟩
  · have hcloses := (h.closed_of_airing hu ha).closes
    rw [ha] at hcloses
    cases hcloses with
    | finished _ _ ms hms htill => exact ⟨ms, hms, htill⟩
  · have hcloses := (h.closed_of_airing hu ha).closes
    rw [ha] at hcloses
    cases hcloses with
    | broken _ hms => exact ⟨rfl, hms⟩
  · exact h.reported hw hreport hstop hu ht

/-- So can when it does, if nothing is put off. -/
lemma punctual (h : w.Speaks strict done) (hs : strict) : w.Punctual (w.speeches done) := by
  refine ⟨fun u hu since till ha => ?_, fun u hu since till ha ms hms => ?_,
    fun u hu s hended => ?_⟩
  · obtain ⟨hcloses, hlate⟩ := h.closed_of_airing hu ha
    have hfirst (s : Nat) (hs' : w.HaltedAt u.token s) : till ≤ s :=
      hlate since till .cut ha (.inl hs) s (.inl hs')
    rw [ha] at hcloses
    cases hcloses with
    | cut _ _ r hr hle =>
        obtain rfl : r = till := le_antisymm hle (hfirst r hr)
        exact ⟨hr, hfirst⟩
  · have hcloses := (h.closed_of_airing hu ha).closes
    rw [ha] at hcloses
    cases hcloses with
    | finished _ _ ms' hms' _ _ hstrict =>
        cases hms.symm.trans hms'
        exact hstrict hs
  · refine ⟨fun since ha => ?_, fun since till c ha => ?_⟩
    · obtain ⟨x, hx, wait, hp, rfl⟩ := h.playing_of_airing hu ha
      exact (h.pending x hx).late hs wait hp s hended
    · exact (h.closed_of_airing hu ha).late since till c ha (.inl hs) s hended

/-- What the voice is at after a life, and what it was given. -/
lemma live (h : w.Speaks strict done) (hw : w.ledger.Reachable) (hsuited : w.Suited)
    (hsaid : (w.speeches done).map Speech.key = said w.history) (es : List (Happening rig))
    (hes : strict → w.Prompt (w.course es)) : ∃ done', (w.live es).Speaks strict done' ∧
      ((w.live es).speeches done').map Speech.key = said (w.live es).history := by
  induction es generalizing w done with
  | nil => exact ⟨done, h, hsaid⟩
  | cons e es ih =>
      obtain ⟨done', new, h', hkeys, hsaid'⟩ := h.happen hw hsuited e fun hs => (hes hs).1
      refine ih h' (hw.steps (w.steps_act _ hw.signalled)) (hsuited.happen e) ?_
        fun hs => (hes hs).2
      rw [hkeys, hsaid', hsaid]

end Speaks

end World

/-! ### Every life -/

/-- Whatever the model says and whenever control calls, other distances and motor faults come: the
texts that commands give to the voice are heard one after the other in their order, each at most
once.  One is cut only after its batch was told to stop, and all texts of a batch are heard before
its report unless the operator stopped it.  If nothing is put off, a text is cut at the time at
which its batch is first told to stop, and none is heard later than its batch was preempted or
reported. -/
theorem World.live_told (rig : Rig) (cm : Float) (msPerWord : UInt64) (ch : Channel) (d : Nat)
    (es : List (Happening rig)) :
    let plant : Plant := { body := { distance := cm }, voice := { msPerWord } }
    let u : World rig.machinery := fresh plant ch d
    ∃ us, (u.live es).Told us ∧ (u.Prompt (u.course es) → (u.live es).Punctual us) := by
  intro plant u
  have hfresh : u.Speaks (u.Prompt (u.course es)) [] :=
    { heard := rfl
      rest := fun _ hu => absurd hu List.not_mem_nil
      aborted := fun _ hu => absurd hu List.not_mem_nil
      pending := fun _ hu => absurd hu List.not_mem_nil
      done := fun _ hs => absurd hs List.not_mem_nil
      past := fun _ hx => absurd hx List.not_mem_nil }
  obtain ⟨done, hspeaks, hsaid⟩ := hfresh.live .initial (suited_fresh plant ch d) rfl es id
  have hw : (u.live es).ledger.Reachable := reachable_live es plant ch d
  exact ⟨(u.live es).speeches done, hspeaks.told hw hsaid, hspeaks.punctual⟩

/-- The standard robot says a text until a second batch takes over, and then one of that batch. -/
def helloThenHi : List (Happening {}) :=
  Happening.acts [.call (.start 1), .call (.enqueue ⟨"SAY", ["hello"]⟩), .work, .work, .background,
    .work, .pass 100, .call (.start 2), .call (.enqueue ⟨"STOP", []⟩), .background,
    .call (.enqueue ⟨"SAY", ["hi"]⟩), .call .finish, .rouse, .work, .work, .work, .work, .work,
    .background, .pass 350, .background, .work, .work]

/-- Nothing is put off in it, and the first text is cut as its batch is told to stop. -/
theorem World.live_told_helloThenHi :
    let w := standardWorld.live helloThenHi
    standardWorld.Prompt (standardWorld.course helloThenHi) ∧
      said w.history = [(0, "hello"), (1, "hi")] ∧
      w.voice.log.reverse = [(0, .start "hello"), (100, .cut "hello"), (100, .start "hi"),
        (350, .finish "hi")] ∧
      reports w.history = [(1, ⟨2, .ok, .none⟩)] ∧
      w.HaltedAt 0 100 ∧ ∀ s, w.HaltedAt 0 s → 100 ≤ s := by
  intro w
  have hprompt : standardWorld.Prompt (standardWorld.course helloThenHi) := by decide +kernel
  have hsaid : said w.history = [(0, "hello"), (1, "hi")] := by decide +kernel
  have hlog : w.voice.log.reverse = [(0, .start "hello"), (100, .cut "hello"),
      (100, .start "hi"), (350, .finish "hi")] := by decide +kernel
  refine ⟨hprompt, hsaid, hlog, by decide +kernel, ?_⟩
  obtain ⟨us, htold, hpunctual⟩ :=
    World.live_told {} 100.0 250 (.withCapacity 16) 5000 helloThenHi
  obtain ⟨hello, rest, rfl, hkey, hrest⟩ := List.map_eq_cons_iff.mp (htold.said.trans hsaid)
  obtain ⟨hi, rest, rfl, -, hrest⟩ := List.map_eq_cons_iff.mp hrest
  obtain rfl := List.map_eq_nil_iff.mp hrest
  have hheard : hello.heard ++ hi.heard = [(0, .start "hello"), (100, .cut "hello"),
      (100, .start "hi"), (350, .finish "hi")] := by simpa using htold.heard.symm.trans hlog
  have hcut := (hpunctual hprompt).cut hello (by simp)
  have hbroken := htold.broken hello (by simp)
  have hlength : hi.heard.length ≤ 2 := hi.length_heard_le
  obtain ⟨t, text, airing⟩ := hello
  obtain ⟨rfl, rfl⟩ : t = 0 ∧ text = "hello" := by simpa [Speech.key] using hkey
  cases airing with
  | unheard => simp [show hi.heard = _ from hheard] at hlength
  | playing since =>
      obtain ⟨-, hrest⟩ := List.cons_eq_cons.mp hheard
      simp [show hi.heard = _ from hrest] at hlength
  | closed since till c =>
      cases c with
      | finished => simp [Speech.heard] at hheard
      | broken =>
          obtain ⟨rfl, -⟩ := hbroken since till rfl
          simp [Speech.heard] at hheard
          omega
      | cut =>
          obtain rfl : till = 100 := by
            simp [Speech.heard] at hheard
            omega
          exact hcut since 100 rfl

end RoverPilot
