import Mathlib.Tactic
import RoverPilot.Proofs.Robot.Occurrence
import RoverPilot.Settings.Load

/-!
Moves that break while they begin.

* `Move.Breaks`, `Move.RunsOn`: a move that is allowed, but for whose power or time there is no
  word, and one that breaks once its motors run;
* `Trial.Braked`, `Trial.Braked.live`: a call for a move that stops the motors before it ends;
* `Trial.live_moved`: exactly the moves that break leave the motors running.
-/

namespace RoverPilot

/-! ### Moves that break -/

namespace Move

variable {m : Settings.Motion} {move : Move} {args : List String} {cancelled : Bool} {b : Body}

/-- A move that is allowed, and for whose power or time there is no word. -/
def Breaks (m : Settings.Motion) (move : Move) (args : List String) (cancelled : Bool) (b : Body) :
    Prop :=
  ∃ amount, move.amount? m args cancelled b = .ok amount ∧ b.fault = none ∧
    (move.power? m = none ∨ move.time? m amount = none)

/-- A move that is allowed and gives its power to the motors, and for whose time there is no
word. -/
def RunsOn (m : Settings.Motion) (move : Move) (args : List String) (cancelled : Bool) (b : Body)
    (p : Int32) : Prop :=
  ∃ amount, move.amount? m args cancelled b = .ok amount ∧ b.fault = none ∧
    move.power? m = some p ∧ move.time? m amount = none

lemma RunsOn.breaks {p : Int32} (h : move.RunsOn m args cancelled b p) :
    move.Breaks m args cancelled b := by
  obtain ⟨amount, hamount, hfault, -, htime⟩ := h
  exact ⟨amount, hamount, hfault, .inr htime⟩

/-- Where the time of every allowed move is known and the power has an opposite, no move breaks. -/
lemma not_breaks (ht : m.Timely) (hp : m.drivePower ≠ Int32.minValue) :
    ¬ move.Breaks m args cancelled b := by
  rintro ⟨amount, hamount, -, hpower | htime⟩
  · cases move <;> simp [power?, hp] at hpower
  · obtain ⟨ms, hms, -⟩ := exists_time? ht hamount
    rw [hms] at htime
    cases htime

/-- A refusal is not a break. -/
lemma ne_panicked_of_refused {e : Ending} (h : move.amount? m args cancelled b = .error e) :
    e ≠ .panicked := by
  rintro rfl
  rw [amount?] at h
  split at h
  · cases h
  · repeat' (split at h; cases h)
    cases h

end Move

/-! ### Moves that stop the motors -/

/-- A call for a move, if it has ended, has stopped the motors and not broken. -/
def Body.Braked (r : Body × Progress Hold) : Prop :=
  ∀ e, r.2 = .ended e → r.1.power = 0 ∧ e ≠ .panicked

lemma Hold.poll_braked (h : Hold) (m : Settings.Motion) (now : Nat) (cancelled : Bool) (b : Body) :
    Body.Braked (h.poll m now cancelled b) := by
  intro e he
  rcases h.poll_cases m now b cancelled with ⟨h', hr, -⟩ | ⟨o, hr⟩
  · rw [hr] at he
    cases he
  · obtain ⟨hend, hpower, -⟩ := h.close_spec now b o
    rw [hr] at he ⊢
    cases hend.symm.trans he
    exact ⟨hpower, h.move.ending_ne_panicked _ _⟩

namespace Move.Begins

variable {m : Settings.Motion} {move : Move} {args : List String} {now : Nat} {cancelled : Bool}
  {b : Body} {r : Body × Progress Hold}

/-- A move that does not break stops the motors before it ends. -/
lemma braked (hr : Begins m move args now cancelled b r) (hpower : b.power = 0)
    (hnot : ¬ move.Breaks m args cancelled b) : Body.Braked r := by
  intro e he
  cases hr with
  | refused h =>
      cases he
      exact ⟨hpower, ne_panicked_of_refused h⟩
  | faulty =>
      cases he
      exact ⟨hpower, by simp⟩
  | powerless h hfault hnone => exact absurd ⟨_, h, hfault, .inl hnone⟩ hnot
  | timeless h hfault _ htime => exact absurd ⟨_, h, hfault, .inr htime⟩ hnot
  | held => exact Hold.poll_braked _ _ _ _ _ e he

/-- A move that breaks leaves the motors as they are then. -/
lemma of_breaks (hr : Begins m move args now cancelled b r) (hpower : b.power = 0)
    (h : move.Breaks m args cancelled b) :
    r.2 = .ended .panicked ∧ ∀ p, p ≠ 0 → (r.1.power = p ↔ move.RunsOn m args cancelled b p) := by
  obtain ⟨amount, hamount, hfault, hnone⟩ := h
  cases hr with
  | refused h =>
      rw [hamount] at h
      cases h
  | faulty _ hfaulty =>
      rw [hfault] at hfaulty
      cases hfaulty
  | powerless _ _ hp =>
      refine ⟨rfl, fun p hzero => ⟨fun hrun => absurd (hrun.symm.trans hpower) hzero, ?_⟩⟩
      rintro ⟨-, -, -, hp', -⟩
      rw [hp] at hp'
      cases hp'
  | timeless h _ hp htime =>
      refine ⟨rfl, fun p _ => ⟨?_, ?_⟩⟩
      · rintro rfl
        exact ⟨_, h, hfault, hp, htime⟩
      · rintro ⟨-, -, -, hp', -⟩
        exact Option.some.inj (hp.symm.trans hp')
  | held h _ hp htime =>
      cases hamount.symm.trans h
      simp [hp, htime] at hnone

end Move.Begins

/-! ### Calls for moves -/

namespace Trial

variable {rig : Rig} {s v : Trial}

/-- A call for a move, which goes on as a hold, or has stopped the motors and not broken. -/
structure Braked (s : Trial) : Prop where
  running : ∀ a, s.call = .running a → ∃ h, a = .holding h
  ended : ∀ e, s.call = .ended e → s.plant.body.power = 0 ∧ e ≠ .panicked

namespace Braked

lemma congr (h : s.Braked) (hcall : v.call = s.call)
    (hpower : v.plant.body.power = s.plant.body.power) : v.Braked where
  running := hcall ▸ h.running
  ended := by
    rw [hcall, hpower]
    exact h.ended

lemma onBody {p : Plant} {r : Body × Progress Hold} (hr : Body.Braked r)
    (hs : (s.plant, s.call) = p.onBody r) : s.Braked := by
  obtain ⟨hplant, hcall⟩ := Prod.mk.inj hs
  obtain ⟨b, h | e⟩ := r
  · refine ⟨fun a ha => ?_, fun e he => ?_⟩
    · cases hcall.symm.trans ha
      exact ⟨h, rfl⟩
    · cases hcall.symm.trans he
  · refine ⟨fun a ha => ?_, fun e' he => ?_⟩
    · cases hcall.symm.trans ha
    · cases hcall.symm.trans he
      rw [hplant]
      exact hr e rfl

lemma occur (h : s.Braked) (o : Occurrence) : (s.occur rig o).Braked := by
  cases o with
  | go =>
      rw [Trial.occur]
      cases hready : s.callReady with
      | false =>
          rw [step_of_not_ready hready]
          exact h.congr rfl rfl
      | true =>
          rw [step_of_ready hready, look]
          split
          · rename_i a hcall
            obtain ⟨hold, rfl⟩ := h.running a hcall
            exact onBody (hold.poll_braked rig.motion s.now s.cancelled s.plant.body) rfl
          · exact h
  | pass t => exact h.congr rfl rfl
  | change c => cases c <;> exact h.congr rfl rfl

lemma live (h : s.Braked) (es : List Occurrence) : (s.live rig es).Braked := by
  induction es generalizing s with
  | nil => exact h
  | cons o es ih => exact ih (h.occur o)

end Braked

/-- A move that breaks does so before anything else can happen. -/
lemma begin_of_breaks {move : Move} {args : List String} (hpower : s.plant.body.power = 0)
    (h : move.Breaks rig.motion args s.cancelled s.plant.body) :
    (s.begin rig (.move move) args false).call = .ended .panicked := by
  have hr := move.begins rig.motion args s.now s.cancelled s.plant.body
  simp [begin, Rig.execute, Plant.onBody, moment, (hr.of_breaks hpower h).1]

/-- Whatever happens around a call for a move of a robot that stands still, the call breaks exactly
if the move is allowed, the motors work, and there is no word for its power or for its time; and
when the call has ended, the motors run exactly if there is a word for the power, which then is
theirs, and none for the time. -/
theorem live_moved (rig : Rig) (s : Trial) (hpower : s.plant.body.power = 0) (move : Move)
    (args : List String) (es : List Occurrence) {e : Ending}
    (he : ((s.begin rig (.move move) args false).live rig es).call = .ended e) :
    let v := (s.begin rig (.move move) args false).live rig es
    (e = .panicked ↔ move.Breaks rig.motion args s.cancelled s.plant.body) ∧
      ∀ p, p ≠ 0 →
        (v.plant.body.power = p ↔ move.RunsOn rig.motion args s.cancelled s.plant.body p) := by
  intro v
  set u := s.begin rig (.move move) args false
  have hr := move.begins rig.motion args s.now s.cancelled s.plant.body
  by_cases hbreaks : move.Breaks rig.motion args s.cancelled s.plant.body
  · have hcall : u.call = .ended .panicked := begin_of_breaks hpower hbreaks
    have hremains : u.Remains v := live_remains hcall es
    cases he.symm.trans (hremains.call.trans hcall)
    refine ⟨⟨fun _ => hbreaks, fun _ => rfl⟩, ?_⟩
    rw [hremains.power]
    exact (hr.of_breaks hpower hbreaks).2
  · have hbraked : v.Braked := (Braked.onBody (hr.braked hpower hbreaks) rfl).live es
    obtain ⟨hstill, hwhole⟩ := hbraked.ended e he
    refine ⟨⟨fun h => absurd h hwhole, fun h => absurd h hbreaks⟩, fun p hp => ⟨fun h => ?_, ?_⟩⟩
    · exact absurd (h.symm.trans hstill) hp
    · exact fun h => absurd h.breaks hbreaks

/-- A robot that stands still, with no call at work. -/
def still : Trial where
  plant := { body := { distance := 100.0 }, voice := { msPerWord := 250 } }

/-- With the settings that hold if none are given, a way back is over in time. -/
theorem live_moved_back :
    let v := (still.begin {} (.move .back) ["2"] false).live {} [.pass 20, .go]
    still.plant.body.power = 0 ∧ v.call = .ended (.returned .ok) ∧
      ¬ Move.back.Breaks {} ["2"] false still.plant.body ∧ v.plant.body.power = 0 := by
  intro v
  have hpower : still.plant.body.power = 0 := rfl
  have hcall : v.call = .ended (.returned .ok) := rfl
  obtain ⟨-, hrun⟩ := live_moved {} still hpower .back ["2"] [.pass 20, .go] hcall
  have hwhole : ¬ Move.back.Breaks {} ["2"] false still.plant.body :=
    Move.not_breaks ⟨by decide, by decide⟩ (by decide)
  refine ⟨hpower, hcall, hwhole, ?_⟩
  by_contra hp
  exact hwhole ((hrun _ hp).mp rfl).breaks

/-- A file with a pace at which two centimetres take longer than any word says. -/
def slowFile : Settings.FileContent :=
  some "\x7b\"motion\": \x7b\"ms_per_cm\": 18446744073709551615\x7d\x7d".toUTF8.toList

/-- The settings of that file are the default ones but for the pace, as far as a way back is
concerned. -/
lemma exists_slow : ∃ settings, Settings.load (some slowFile) = .ok settings ∧
    settings.motion.drivePower = 80 ∧ settings.motion.msPerCm = 18446744073709551615 ∧
      settings.motion.maxDriveCm = 300 := by
  have h : ((Settings.load (some slowFile)).toOption.map fun s =>
      (s.motion.drivePower, s.motion.msPerCm, s.motion.maxDriveCm)) =
        some (80, 18446744073709551615, 300) := by
    decide +kernel
  cases hload : Settings.load (some slowFile) with
  | error e => simp [hload, Except.toOption] at h
  | ok settings =>
      simp only [hload, Except.toOption, Option.map_some, Option.some.injEq, Prod.mk.injEq] at h
      exact ⟨settings, rfl, h.1, h.2.1, h.2.2⟩

/-- With the settings of that file a way back breaks once the motors run, and whatever happens
later, they go on running. -/
theorem live_moved_slow : ∃ settings, Settings.load (some slowFile) = .ok settings ∧
    let rig : Rig := { motion := settings.motion }
    let u := still.begin rig (.move .back) ["2"] false
    still.plant.body.power = 0 ∧ u.call = .ended .panicked ∧
      ∀ es, (u.live rig es).plant.body.power = -80 := by
  obtain ⟨settings, hload, hpower, hpace, hlimit⟩ := exists_slow
  refine ⟨settings, hload, ?_⟩
  intro rig u
  have hamount : Move.back.amount? rig.motion ["2"] false still.plant.body = .ok 2 := by
    have hword : wordArgument Move.back.name ["2"] 0 = .ok 2 := rfl
    have hlow : ¬ (2 : Int32) < 0 := by decide
    have hhigh : ¬ (300 : Int32) < 2 := by decide
    simp [Move.amount?, hword, Move.limit, Move.isTurn, Move.watches, rig, hlimit, hlow, hhigh]
  have hback : Move.back.power? rig.motion = some (-80) := by
    rw [Move.power?, hpower]
    rfl
  have htime : Move.back.time? rig.motion 2 = none := by
    rw [Move.time?, if_neg (by decide), Settings.Motion.driveTime?, Settings.Motion.time?, hpace,
      if_neg (by decide)]
  have hruns : Move.back.RunsOn rig.motion ["2"] false still.plant.body (-80) :=
    ⟨2, hamount, rfl, hback, htime⟩
  have hcall : u.call = .ended .panicked := begin_of_breaks rfl hruns.breaks
  refine ⟨rfl, hcall, fun es => ?_⟩
  rw [(live_remains hcall es).power]
  have hr := Move.back.begins rig.motion ["2"] still.now still.cancelled still.plant.body
  exact ((hr.of_breaks rfl hruns.breaks).2 (-80) (by decide)).mpr hruns

end Trial

end RoverPilot
