import Mathlib.Tactic
import RoverPilot.Proofs.Robot.Timekeeping
import RoverPilot.Robot.Trial

/-!
Lives of single calls: whatever happens around a call, in whatever order.

* `Trial.look`, `Trial.step_of_ready`, `Trial.step_of_not_ready`: the call is looked at again, or
  the voice goes on;
* `Trial.Occurrence`, `Trial.occur`, `Trial.live`: one thing that may happen while a call is at
  work, and one after the other;
* `Trial.Remains`, `Trial.live_remains`: a call that has ended does nothing more;
* `Trial.Timely`, `Trial.Prompt`, `Trial.livesTo_run`: time passes no further than to the next moment
  at which the call can go on, and a whole call with changes at given times is such a life.
-/

namespace RoverPilot

/-! ### Calls that go on -/

/-- Of two waits the earlier end is not later than the end of the first one. -/
lemma exists_earlierEnd_le {a b : Option Wait} {x : Wait} (hx : x ∈ a) :
    ∃ d ∈ earlierEnd a b, d ≤ x.till := by
  obtain rfl := Option.mem_def.mp hx
  cases b with
  | none => exact ⟨_, rfl, le_rfl⟩
  | some y => exact ⟨_, rfl, min_le_left _ _⟩

/-- What a handler that finishes may bring, a command may bring, too. -/
lemma Plant.Calms.two {p : Plant} {now : Nat} {r : Plant × Progress Activity}
    (h : p.Calms 1 now r) : p.Calms 2 now r := by
  obtain ⟨q, a | e⟩ := r <;> simp only [Calms, Progress.stir] at h ⊢ <;> omega

/-- A call that goes on brings at most the two turns of one utterance, and has looked at the
sensor. -/
lemma Rig.resume_calms_two (rig : Rig) (p : Plant) (t : Moment) (a : Activity) :
    p.Calms 2 t.now (rig.resume a t p) := by
  cases a with
  | saying text => exact Plant.saying_calms text
  | silence => exact Plant.silence_calms.two
  | holding | scripted | scriptedFinish =>
      exact (rig.resume_voiceless p t rfl).calms fun a ha => rig.looks_resume p t rfl ha

namespace Trial

/-! ### Looks -/

/-- What the call waits for until it can go on by itself. -/
def callWait (s : Trial) : Option Wait :=
  match s.call with
  | .running a => Rig.wait a
  | .ended _ => none

/-- The call is looked at again. -/
def look (rig : Rig) (s : Trial) : Trial :=
  match s.call with
  | .running a =>
    let (plant, call) := rig.resume a s.moment s.plant
    { s with plant, call }
  | .ended _ => s

/-- The voice goes on. -/
def speak (s : Trial) : Trial :=
  { s with plant := { s.plant with voice := s.plant.voice.step s.now fun _ => s.cancelled } }

variable {rig : Rig} {s v w : Trial}

lemma step_of_ready (h : s.callReady = true) : s.step rig = s.look rig := by
  rw [step, look]
  split
  · rename_i a _ hcall _
    rw [hcall]
  · rename_i hnot
    cases hcall : s.call with
    | running a => exact absurd h (hnot a hcall)
    | ended e => simp [callReady, hcall] at h

lemma step_of_not_ready (h : s.callReady = false) : s.step rig = s.speak := by
  rw [step]
  split
  · rename_i hready
    rw [h] at hready
    cases hready
  · rfl

@[simp] lemma now_look (s : Trial) : (s.look rig).now = s.now := by
  rw [look]
  split <;> rfl

@[simp] lemma cancelled_look (s : Trial) : (s.look rig).cancelled = s.cancelled := by
  rw [look]
  split <;> rfl

lemma now_step (s : Trial) : (s.step rig).now = s.now := by
  cases hready : s.callReady with
  | true => rw [step_of_ready hready, now_look]
  | false => rw [step_of_not_ready hready, speak]

/-! ### Lives -/

/-- One thing that may happen while a call is at work. -/
inductive Occurrence where
  /-- The call or else the voice goes on. -/
  | go
  /-- Time passes. -/
  | pass (t : Nat)
  /-- Something changes around the call. -/
  | change (c : Change)

/-- Something changes at the present time. -/
def alter (s : Trial) : Change → Trial
  | .distance cm => { s with plant := { s.plant with body := s.plant.body.setDistance cm } }
  | .fault detail => { s with plant := { s.plant with body := s.plant.body.setFault detail } }
  | .cancel => { s with cancelled := true }

/-- A change at a time is that change once the time has come. -/
lemma change_eq (s : Trial) (t : Nat) (c : Change) :
    s.change rig t c = ((clockwork rig).advanceTo t s).alter c := by
  cases c <;> rfl

/-- A trial after something happened. -/
def occur (rig : Rig) (s : Trial) : Occurrence → Trial
  | .go => s.step rig
  | .pass t => { s with now := max t s.now }
  | .change c => s.alter c

/-- A trial after a list of occurrences. -/
def live (rig : Rig) (s : Trial) (es : List Occurrence) : Trial := es.foldl (occur rig) s

@[simp] theorem live_nil (s : Trial) : s.live rig [] = s := rfl

@[simp] theorem live_cons (s : Trial) (o : Occurrence) (es : List Occurrence) :
    s.live rig (o :: es) = (s.occur rig o).live rig es := rfl

@[simp] theorem live_append (s : Trial) (es es' : List Occurrence) :
    s.live rig (es ++ es') = (s.live rig es).live rig es' := by
  simp [live]

/-! ### After the end -/

/-- How a call has ended, if it has. -/
def ending? (s : Trial) : Option Ending :=
  match s.call with
  | .running _ => none
  | .ended e => some e

/-- What stays of a call that has ended. -/
structure Remains (s v : Trial) : Prop where
  call : v.call = s.call
  power : v.plant.body.power = s.plant.body.power
  log : v.plant.body.log = s.plant.body.log

lemma callReady_of_ended {e : Ending} (h : s.call = .ended e) : s.callReady = false := by
  simp [callReady, h]

lemma occur_remains {e : Ending} (h : s.call = .ended e) (o : Occurrence) :
    s.Remains (s.occur rig o) := by
  cases o with
  | go =>
      rw [occur, step_of_not_ready (callReady_of_ended h)]
      exact ⟨rfl, rfl, rfl⟩
  | pass t => exact ⟨rfl, rfl, rfl⟩
  | change c => cases c <;> exact ⟨rfl, rfl, rfl⟩

/-- Whatever happens later, a call that has ended stays as it is, and the body does nothing for
it. -/
theorem live_remains {e : Ending} (h : s.call = .ended e) (es : List Occurrence) :
    s.Remains (s.live rig es) := by
  induction es generalizing s with
  | nil => exact ⟨rfl, rfl, rfl⟩
  | cons o es ih =>
      have hone : s.Remains (s.occur rig o) := occur_remains h o
      have hall := ih (hone.call.trans h)
      exact ⟨hall.call.trans hone.call, hall.power.trans hone.power, hall.log.trans hone.log⟩

/-! ### Time -/

/-- Time passes only while the call cannot go on, and no further than to the next moment at which
it can by itself. -/
def Timely (s : Trial) : Occurrence → Prop
  | .pass t => s.callReady = false ∧ ∀ x ∈ s.callWait, t ≤ x.till
  | _ => True

/-- Nothing that the call could do in a life is put off. -/
def Prompt (rig : Rig) (s : Trial) : List Occurrence → Prop
  | [] => True
  | o :: es => s.Timely o ∧ (s.occur rig o).Prompt rig es

lemma prompt_append (s : Trial) (es es' : List Occurrence) :
    s.Prompt rig (es ++ es') ↔ s.Prompt rig es ∧ (s.live rig es).Prompt rig es' := by
  induction es generalizing s with
  | nil => simp [Prompt]
  | cons o es ih => simp [Prompt, ih, and_assoc]

/-- Some life in which nothing is put off leads from one trial to another. -/
def LivesTo (rig : Rig) (s v : Trial) : Prop := ∃ es, v = s.live rig es ∧ s.Prompt rig es

namespace LivesTo

lemma refl (s : Trial) : s.LivesTo rig s := ⟨[], rfl, trivial⟩

lemma trans (h : s.LivesTo rig v) (k : v.LivesTo rig w) : s.LivesTo rig w := by
  obtain ⟨es, rfl, hes⟩ := h
  obtain ⟨es', rfl, hes'⟩ := k
  exact ⟨es ++ es', (live_append s es es').symm, (prompt_append s es es').mpr ⟨hes, hes'⟩⟩

lemma of_occur {o : Occurrence} (h : s.Timely o) : s.LivesTo rig (s.occur rig o) :=
  ⟨[o], rfl, h, trivial⟩

end LivesTo

/-! ### Calls in virtual time -/

/-- What may still happen at one time: steps of the voice, and looks at the call, which may give
the voice another text. -/
def load (s : Trial) : Nat :=
  s.plant.voice.turns + match s.call with
    | .running a => 3 + a.looks s.now
    | .ended _ => 0

lemma load_le_backlog (s : Trial) : s.load ≤ (clockwork rig).backlog s := by
  have hturns := s.plant.voice.turns_le
  rw [load]
  change _ ≤ s.plant.voice.aborted.length + 8
  cases s.call with
  | running a =>
      have hlooks := a.looks_le s.now
      simp only
      omega
  | ended e =>
      simp only
      omega

/-- Whatever can happen leaves less. -/
lemma load_step_lt (h : (s.callReady || s.voiceReady) = true) : (s.step rig).load < s.load := by
  cases hready : s.callReady with
  | true =>
      rw [step_of_ready hready, look, load, load]
      cases hcall : s.call with
      | ended e => simp [callReady, hcall] at hready
      | running a =>
          rw [callReady, hcall] at hready
          have hcalm := rig.resume_calms_two s.plant s.moment a
          rw [Plant.Calms] at hcalm
          cases hr : (rig.resume a s.moment s.plant).2 with
          | ended e =>
              simp only [hr, Progress.stir] at hcalm ⊢
              omega
          | running a' =>
              have hlooks : 0 < a.looks s.moment.now :=
                (@Rig.ended_or_looks rig _ _ _ hready).resolve_left (by simp [hr])
              have hnow : s.moment.now = s.now := rfl
              simp only [hr, hnow, Progress.stir] at hcalm hlooks ⊢
              omega
  | false =>
      rw [hready, Bool.false_or, voiceReady] at h
      rw [step_of_not_ready hready]
      exact Nat.add_lt_add_right (Voice.turns_step_lt h) _

/-- Where nothing can happen, what happens by itself happens later. -/
lemma lt_of_due (h : (s.callReady || s.voiceReady) = false) : ∀ d ∈ s.due, s.now < d := by
  obtain ⟨hcall, hvoice⟩ := Bool.or_eq_false_iff.mp h
  refine lt_of_earlierEnd (fun x hx => ?_) fun x hx => ?_
  · cases hs : s.call with
    | running a =>
        rw [callReady, hs] at hcall
        rw [hs] at hx
        exact Rig.lt_of_wait hcall hx
    | ended e =>
        rw [hs] at hx
        cases hx
  · by_contra hpast
    rw [voiceReady, Voice.ready_of_wait hx (Nat.le_of_not_lt hpast)] at hvoice
    cases hvoice

/-- As a call goes on in virtual time nothing is put off. -/
theorem exact (s : Trial) : (clockwork rig).Exact (s.LivesTo rig) where
  now_step := now_step
  now_passTo _ _ := rfl
  step _ h := h.trans (.of_occur (o := .go) trivial)
  settled _ h :=
    (clockwork rig).not_ready_settle (fun _ h => h.trans (.of_occur (o := .go) trivial)) load
      (fun _ _ hready => load_step_lt hready) (fun v _ => v.load_le_backlog) h
  later _ _ hready := lt_of_due hready
  passTo t v h hready hdue := by
    refine h.trans (.of_occur (o := .pass t) ⟨(Bool.or_eq_false_iff.mp hready).1, ?_⟩)
    intro x hx
    obtain ⟨d, hd, hle⟩ := exists_earlierEnd_le (b := v.plant.voice.wait) hx
    exact (hdue d hd).trans hle

/-- So it is with a change at a given time. -/
lemma LivesTo.change (h : s.LivesTo rig v) (t : Nat) (c : Change) :
    s.LivesTo rig (v.change rig t c) := by
  rw [change_eq]
  exact ((exact s).advanceTo t h).trans (.of_occur (o := .change c) trivial)

/-- A whole call with changes at given times is a life in which nothing is put off. -/
theorem livesTo_run (s : Trial) (k : Handler) (args : List String) (finishes : Bool)
    (changes : List (Nat × Change)) :
    (s.begin rig k args finishes).LivesTo rig (s.run rig k args finishes changes) := by
  set u := s.begin rig k args finishes
  have hchanges (v : Trial) (h : u.LivesTo rig v) :
      u.LivesTo rig (changes.foldl (fun v c => v.change rig (s.now + c.1) c.2) v) := by
    induction changes generalizing v with
    | nil => exact h
    | cons c changes ih => exact ih _ (h.change _ _)
  exact (exact u).settle ((exact u).advanceUntil _ _ (hchanges u (.refl u)))

end Trial

end RoverPilot
