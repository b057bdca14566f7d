import Mathlib.Tactic
import RoverPilot.Proofs.Robot.Overrun

/-!
How long motors are held running, and how that ends.

* `Surroundings`, `Surroundings.ends`: what the sensor reads at each time and when the signal is
  given, and the times at which that, or the time of the move, would end a hold;
* `Trial.hold`, `Trial.begin_eq_hold`: motors held running from now on, as by every move that does
  not end at once;
* `Trial.Permits`, `Trial.Within`: lives in given surroundings, in which nothing is put off;
* `Trial.Holding`, `Trial.Held`, `Trial.Holding.occur`: a hold that goes on or has just ended, and
  what can become of one that goes on;
* `Trial.hold_ends`: a hold ends at the earliest of its ends, and touches nothing before that.
-/

namespace RoverPilot

/-! ### Surroundings -/

/-- What happens around a call: what the sensor reads at each time, and when the signal is given,
if ever. -/
structure Surroundings where
  reading : Nat → Float
  signal : Option Nat

/-- A reading that ends a move which looks out for obstacles. -/
def Settings.Motion.Blocks (m : Settings.Motion) (cm : Float) : Prop :=
  0.0 < cm ∧ cm < m.obstacleDistance

/-- The times at which something ends a hold that began at a time and is to last for another: the
signal, the end of that time, and, only for a move that looks out for obstacles, a look at one. -/
def Surroundings.ends (σ : Surroundings) (m : Settings.Motion) (move : Move) (since d : Nat) :
    Set Nat :=
  {t | σ.signal = some t ∨ t = since + d ∨
    move.watches = true ∧ ∃ k, t = since + k * m.pollPeriod ∧ m.Blocks (σ.reading t)}

lemma Move.watches_iff {move : Move} : move.watches = true ↔ move ≠ .back := by
  cases move <;> simp [watches]

lemma Settings.Motion.pollPeriod_pos (m : Settings.Motion) : 0 < m.pollPeriod := by
  rw [pollPeriod]
  omega

lemma Body.obstacleAhead_iff {m : Settings.Motion} {b : Body} :
    b.obstacleAhead m.obstacleDistance = true ↔ m.Blocks b.distance := by
  simp [obstacleAhead, Settings.Motion.Blocks]

namespace Hold

variable {m : Settings.Motion} {h : Hold} {now : Nat} {cancelled : Bool} {b : Body}

lemma outcome?_eq_none_iff : h.outcome? m now cancelled b = none ↔
    cancelled = false ∧ now < h.deadline ∧
      (h.move.watches = true → h.nextLook ≤ now → ¬ m.Blocks b.distance) := by
  rw [outcome?, ← Body.obstacleAhead_iff]
  split
  · simp_all
  · split
    · simp_all
    · split <;> simp_all

variable (h m now)

/-- A hold after a look that came to nothing. -/
def waiting : Hold :=
  if h.nextLook ≤ now then { h with since := now, nextLook := now + m.pollPeriod } else h

@[simp] lemma move_waiting : (h.waiting m now).move = h.move := by
  rw [waiting]
  split <;> rfl

@[simp] lemma deadline_waiting : (h.waiting m now).deadline = h.deadline := by
  rw [waiting]
  split <;> rfl

lemma lt_nextLook_waiting : now < (h.waiting m now).nextLook := by
  rw [waiting]
  split
  · exact Nat.lt_add_of_pos_right m.pollPeriod_pos
  · omega

end Hold

namespace Surroundings

variable (σ : Surroundings) (m : Settings.Motion) (move : Move) (since d : Nat)

/-- Something ends every hold. -/
lemma exists_isLeast_ends : ∃ t, IsLeast (σ.ends m move since d) t := by
  classical
  have hend : ∃ t, t ∈ σ.ends m move since d := ⟨since + d, .inr (.inl rfl)⟩
  exact ⟨Nat.find hend, Nat.find_spec hend, fun t ht => Nat.find_min' hend ht⟩

variable {σ m move since d} {t : Nat}

/-- An obstacle that is there for a whole period ends a move that looks out for it before the
period is over. -/
lemma lt_of_blocked (ht : IsLeast (σ.ends m move since d) t) (hmove : move ≠ .back) {a : Nat}
    (ha : since ≤ a) (hblocked : ∀ x, a ≤ x → x < a + m.pollPeriod → m.Blocks (σ.reading x)) :
    t < a + m.pollPeriod := by
  have hperiod := m.pollPeriod_pos
  -- the first look that is not before the obstacle
  obtain ⟨k, hlow, hhigh⟩ :
      ∃ k, a ≤ since + k * m.pollPeriod ∧ since + k * m.pollPeriod < a + m.pollPeriod := by
    have hdiv := Nat.div_add_mod' (a - since + (m.pollPeriod - 1)) m.pollPeriod
    have hmod := Nat.mod_lt (a - since + (m.pollPeriod - 1)) hperiod
    exact ⟨(a - since + (m.pollPeriod - 1)) / m.pollPeriod, by omega, by omega⟩
  have hmem : since + k * m.pollPeriod ∈ σ.ends m move since d :=
    .inr (.inr ⟨Move.watches_iff.mpr hmove, k, rfl, hblocked _ hlow hhigh⟩)
  exact (ht.2 hmem).trans_lt hhigh

/-- The sensor does not end a way back. -/
lemma isLeast_back (ht : IsLeast (σ.ends m .back since d) t) :
    IsLeast {x | σ.signal = some x ∨ x = since + d} t := by
  have hends : σ.ends m .back since d = {x | σ.signal = some x ∨ x = since + d} := by
    ext x
    simp [ends, Move.watches]
  rwa [hends] at ht

end Surroundings

namespace Trial

variable {rig : Rig} {σ : Surroundings} {s v w : Trial} {move : Move} {d : Nat} {h : Hold}

/-! ### Holds -/

/-- Motors are held running for a move from now on, for a time; the first look is at once. -/
def hold (rig : Rig) (s : Trial) (move : Move) (d : Nat) : Trial :=
  let h : Hold := { move, since := s.now, deadline := s.now + d, nextLook := s.now }
  look rig { s with call := .running (.holding h) }

/-- A move that is allowed, with motors that work, holds them running for its time. -/
lemma begin_eq_hold {args : List String} {amount p : Int32} {ms : Nat}
    (hamount : move.amount? rig.motion args s.cancelled s.plant.body = .ok amount)
    (hfault : s.plant.body.fault = none) (hpower : move.power? rig.motion = some p)
    (htime : move.time? rig.motion amount = some ms) :
    let plant : Plant := { s.plant with
      body := move.started rig.motion s.now p s.plant.body
      voice := s.plant.voice.countTask }
    s.begin rig (.move move) args false = hold rig { s with plant } move ms := by
  intro plant
  have hr := move.begin_of_time? args s.now s.cancelled hamount hfault hpower htime
  simp [begin, Rig.execute, moment, hr, hold, look, Rig.resume, Plant.onBody, plant]

/-! ### Lives in given surroundings -/

/-- What may happen now in given surroundings: a call that looks at the sensor finds the reading of
this time, and no time passes beyond the signal before it is given. -/
def Permits (σ : Surroundings) (s : Trial) : Occurrence → Prop
  | .go => s.callReady = true → s.cancelled = false → s.plant.body.distance = σ.reading s.now
  | .pass t => s.Timely (.pass t) ∧ (s.cancelled = false → ∀ c ∈ σ.signal, t ≤ c)
  | .change .cancel => s.cancelled = false → σ.signal = some s.now
  | .change _ => True

/-- A life in given surroundings. -/
def Within (rig : Rig) (σ : Surroundings) (s : Trial) : List Occurrence → Prop
  | [] => True
  | o :: es => s.Permits σ o ∧ (s.occur rig o).Within rig σ es

lemma within_append (es es' : List Occurrence) :
    s.Within rig σ (es ++ es') ↔ s.Within rig σ es ∧ (s.live rig es).Within rig σ es' := by
  induction es generalizing s with
  | nil => simp [Within]
  | cons o es ih => simp [Within, ih, and_assoc]

/-! ### Holds that go on, and holds that have ended -/

/-- A hold that goes on: no end of it has passed by, and it has done nothing yet. -/
structure Holding (rig : Rig) (σ : Surroundings) (s : Trial) (move : Move) (d : Nat) (h : Hold)
    (v : Trial) : Prop where
  call : v.call = .running (.holding h)
  same : h.move = move
  deadline : h.deadline = s.now + d
  now_le : v.now ≤ h.deadline
  given : v.cancelled = true → σ.signal = some v.now
  awaited : v.cancelled = false → ∀ c ∈ σ.signal, v.now ≤ c
  /-- The next look is not late, and those before it met no obstacle. -/
  looks : move.watches = true → ∃ k, h.nextLook = s.now + k * rig.motion.pollPeriod ∧
    v.now ≤ h.nextLook ∧
      ∀ j < k, ¬ rig.motion.Blocks (σ.reading (s.now + j * rig.motion.pollPeriod))
  log : v.plant.body.log = s.plant.body.log

/-- What a hold comes to when it ends: the signal comes first, then the time, then the sensor. -/
def outcomeAt (s : Trial) (d : Nat) (cancelled : Bool) (t : Nat) : Outcome :=
  if cancelled then .interrupted else if t = s.now + d then .ok else .obstacle

/-- A hold that has just ended: at the earliest of its ends, with one stop of the motors, and after
a turn the wheels are put straight if the motors work. -/
structure Held (rig : Rig) (σ : Surroundings) (s : Trial) (move : Move) (d : Nat) (v : Trial) :
    Prop where
  isLeast : IsLeast (σ.ends rig.motion move s.now d) v.now
  call : v.call = .ended (move.ending v.plant.body.fault (s.outcomeAt d v.cancelled v.now))
  power : v.plant.body.power = 0
  log : v.plant.body.log = move.lastEvents v.plant.body.fault v.now ++ s.plant.body.log
  /-- Only an obstacle that a move looks out for ends it so. -/
  sighted : s.outcomeAt d v.cancelled v.now = .obstacle →
    move ≠ .back ∧ rig.motion.Blocks (σ.reading v.now)

namespace Holding

/-- No end of a hold has passed by. -/
lemma mem_lowerBounds (hv : Holding rig σ s move d h v) :
    v.now ∈ lowerBounds (σ.ends rig.motion move s.now d) := by
  rintro t (hsignal | rfl | ⟨hwatches, k', rfl, hblocks⟩)
  · cases hc : v.cancelled with
    | true => exact (Option.some.inj ((hv.given hc).symm.trans hsignal)).le
    | false => exact hv.awaited hc t hsignal
  · exact hv.deadline ▸ hv.now_le
  · obtain ⟨k, hnext, hnow, hclear⟩ := hv.looks hwatches
    have hk : k ≤ k' := by
      by_contra hlt
      exact hclear k' (by omega) hblocks
    exact (hnext ▸ hnow).trans (Nat.add_le_add_left (Nat.mul_le_mul_right _ hk) _)

/-- What a look comes to ends the hold at its present time. -/
lemma outcome_spec (hv : Holding rig σ s move d h v)
    (hread : v.cancelled = false → v.plant.body.distance = σ.reading v.now) {o : Outcome}
    (ho : h.outcome? rig.motion v.now v.cancelled v.plant.body = some o) :
    v.now ∈ σ.ends rig.motion move s.now d ∧ o = s.outcomeAt d v.cancelled v.now ∧
      (o = .obstacle → move ≠ .back ∧ rig.motion.Blocks (σ.reading v.now)) := by
  rw [Hold.outcome?] at ho
  split at ho
  · rename_i hc
    obtain rfl := Option.some.inj ho
    exact ⟨.inl (hv.given hc), by simp [outcomeAt, hc], by simp⟩
  · rename_i hc
    split at ho
    · rename_i hend
      obtain rfl := Option.some.inj ho
      have hnow : v.now = s.now + d := hv.deadline ▸ le_antisymm hv.now_le hend
      exact ⟨.inr (.inl hnow), by simp [outcomeAt, hc, hnow], by simp⟩
    · rename_i hend
      split at ho
      · rename_i hlook
        obtain rfl := Option.some.inj ho
        obtain ⟨hwatches, hnext, hahead⟩ := hlook
        rw [hv.same] at hwatches
        rw [Body.obstacleAhead_iff, hread (by simpa using hc)] at hahead
        obtain ⟨k, hk, hle, -⟩ := hv.looks hwatches
        have hnow : v.now = s.now + k * rig.motion.pollPeriod := hk ▸ le_antisymm hle hnext
        have hbefore : v.now ≠ s.now + d := by
          rw [← hv.deadline]
          omega
        exact ⟨.inr (.inr ⟨hwatches, k, hnow, hahead⟩), by simp [outcomeAt, hc, hbefore],
          fun _ => ⟨Move.watches_iff.mp hwatches, hahead⟩⟩
      · cases ho

/-- A hold that comes to something has just ended. -/
lemma held_of_outcome (hv : Holding rig σ s move d h v)
    (hread : v.cancelled = false → v.plant.body.distance = σ.reading v.now) {o : Outcome}
    (ho : h.outcome? rig.motion v.now v.cancelled v.plant.body = some o) :
    Held rig σ s move d (v.look rig) := by
  obtain ⟨hmem, rfl, hsighted⟩ := hv.outcome_spec hread ho
  obtain ⟨hend, hpower, hfault, hlog⟩ :=
    h.close_spec v.now v.plant.body (s.outcomeAt d v.cancelled v.now)
  have hclose : v.look rig = { v with
      plant := (v.plant.onBody (h.close v.now v.plant.body (s.outcomeAt d v.cancelled v.now))).1
      call := .ended (h.move.ending v.plant.body.fault (s.outcomeAt d v.cancelled v.now)) } := by
    simp [Trial.look, hv.call, Rig.resume, moment, Hold.poll, ho, Plant.onBody, hend]
  rw [hclose, hv.same]
  exact
    { isLeast := ⟨hmem, hv.mem_lowerBounds⟩
      call := by simp [Plant.onBody, hfault]
      power := hpower
      log := by
        rw [hv.same, hv.log] at hlog
        simp [Plant.onBody, hlog, hfault]
      sighted := hsighted }

/-- A hold that comes to nothing goes on, and waits for a later time. -/
lemma waits_of_outcome (hv : Holding rig σ s move d h v)
    (hread : v.cancelled = false → v.plant.body.distance = σ.reading v.now)
    (ho : h.outcome? rig.motion v.now v.cancelled v.plant.body = none) :
    ∃ h', Holding rig σ s move d h' (v.look rig) ∧ (v.look rig).callReady = false := by
  obtain ⟨hc, hend, hclear⟩ := Hold.outcome?_eq_none_iff.mp ho
  have hlater := h.lt_nextLook_waiting rig.motion v.now
  have hlook : v.look rig =
      { v with call := .running (.holding (h.waiting rig.motion v.now)) } := by
    simp [Trial.look, hv.call, Rig.resume, moment, Hold.poll, ho, Plant.onBody]
    rfl
  rw [hlook]
  refine ⟨h.waiting rig.motion v.now, ?_, ?_⟩
  · refine
      { call := rfl
        same := by rw [h.move_waiting, hv.same]
        deadline := by rw [h.deadline_waiting, hv.deadline]
        now_le := by
          rw [h.deadline_waiting]
          exact hv.now_le
        given := hv.given
        awaited := hv.awaited
        looks := fun hwatches => ?_
        log := hv.log }
    obtain ⟨k, hk, hle, hbefore⟩ := hv.looks hwatches
    by_cases hnext : h.nextLook ≤ v.now
    · -- this look is the next one, and meets no obstacle
      have hnow : v.now = s.now + k * rig.motion.pollPeriod := hk ▸ le_antisymm hle hnext
      refine ⟨k + 1, ?_, hlater.le, fun j hj => ?_⟩
      · rw [Hold.waiting, if_pos hnext, Nat.succ_mul, ← Nat.add_assoc, ← hnow]
      · rcases Nat.lt_succ_iff_lt_or_eq.mp hj with hlt | rfl
        · exact hbefore j hlt
        · rw [← hnow, ← hread hc]
          exact hclear (hv.same ▸ hwatches) hnext
    · rw [Hold.waiting, if_neg hnext]
      exact ⟨k, hk, hle, hbefore⟩
  · simp [callReady, Rig.ready, Hold.ready, moment, hc, hend, hlater.not_ge]

/-- A hold that is looked at has just ended, or goes on and waits. -/
lemma look (hv : Holding rig σ s move d h v)
    (hread : v.cancelled = false → v.plant.body.distance = σ.reading v.now) :
    Held rig σ s move d (v.look rig) ∨
      ∃ h', Holding rig σ s move d h' (v.look rig) ∧ (v.look rig).callReady = false := by
  cases ho : h.outcome? rig.motion v.now v.cancelled v.plant.body with
  | some o => exact .inl (hv.held_of_outcome hread ho)
  | none => exact .inr (hv.waits_of_outcome hread ho)

/-- Changes that a hold does not notice. -/
lemma congr (hv : Holding rig σ s move d h v) (hcall : w.call = v.call) (hnow : w.now = v.now)
    (hcancelled : w.cancelled = v.cancelled) (hlog : w.plant.body.log = v.plant.body.log) :
    Holding rig σ s move d h w where
  call := hcall.trans hv.call
  same := hv.same
  deadline := hv.deadline
  now_le := hnow ▸ hv.now_le
  given := by rw [hnow, hcancelled]; exact hv.given
  awaited := by rw [hnow, hcancelled]; exact hv.awaited
  looks := by rw [hnow]; exact hv.looks
  log := hlog.trans hv.log

/-- A hold that cannot go on now waits for a later time. -/
lemma lt_of_not_ready (hv : Holding rig σ s move d h v) (hready : v.callReady = false) :
    v.cancelled = false ∧ v.now < s.now + d ∧ ∀ x ∈ v.callWait, v.now < x.till := by
  rw [callReady, hv.call] at hready
  refine ⟨?_, ?_, fun x hx => ?_⟩
  · simp_all [Rig.ready, Hold.ready, moment]
  · simp_all [Rig.ready, Hold.ready, moment, hv.deadline]
  · rw [callWait, hv.call] at hx
    exact Rig.lt_of_wait hready hx

/-- Time passes, but no further than to the next end. -/
lemma pass (hv : Holding rig σ s move d h v) {t : Nat} (ht : v.Permits σ (.pass t)) :
    Holding rig σ s move d h { v with now := max t v.now } := by
  obtain ⟨⟨hready, hwait⟩, hsignal⟩ := ht
  have hopen := (hv.lt_of_not_ready hready).1
  have hlate : t ≤ h.wait.till := hwait h.wait (by simp [callWait, hv.call, Rig.wait])
  refine
    { hv with
      now_le := max_le ?_ hv.now_le
      given := fun hc => absurd (hc.symm.trans hopen) (by simp)
      awaited := fun hc c hc' => max_le (hsignal hc c hc') (hv.awaited hc c hc')
      looks := fun hwatches => ?_ }
  · rw [Hold.wait] at hlate
    split at hlate
    · exact hlate.trans (min_le_left _ _)
    · exact hlate
  · obtain ⟨k, hk, hle, hclear⟩ := hv.looks hwatches
    rw [Hold.wait, hv.same, if_pos hwatches] at hlate
    exact ⟨k, hk, max_le (hlate.trans (min_le_right _ _)) hle, hclear⟩

/-- The signal is given. -/
lemma cancel (hv : Holding rig σ s move d h v) (hsignal : σ.signal = some v.now) :
    Holding rig σ s move d h { v with cancelled := true } :=
  { hv with
    given := fun _ => hsignal
    awaited := fun hc => by cases hc }

/-- Whatever may happen to a hold that goes on, it goes on or has just ended. -/
lemma occur (hv : Holding rig σ s move d h v) {o : Occurrence} (ho : v.Permits σ o) :
    Held rig σ s move d (v.occur rig o) ∨ ∃ h', Holding rig σ s move d h' (v.occur rig o) := by
  cases o with
  | go =>
      rw [Trial.occur]
      cases hready : v.callReady with
      | true =>
          rw [step_of_ready hready]
          rcases hv.look (ho hready) with hheld | ⟨h', hgo, -⟩
          · exact .inl hheld
          · exact .inr ⟨h', hgo⟩
      | false =>
          rw [step_of_not_ready hready]
          exact .inr ⟨h, hv.congr rfl rfl rfl rfl⟩
  | pass t => exact .inr ⟨h, hv.pass ho⟩
  | change c =>
      cases c with
      | distance | fault => exact .inr ⟨h, hv.congr rfl rfl rfl rfl⟩
      | cancel =>
          refine .inr ⟨h, hv.cancel ?_⟩
          cases hc : v.cancelled with
          | true => exact hv.given hc
          | false => exact ho hc

lemma isOver (hv : Holding rig σ s move d h v) : v.isOver = false := by
  simp [Trial.isOver, hv.call]

end Holding

lemma Held.isOver (hv : Held rig σ s move d v) : v.isOver = true := by
  simp [Trial.isOver, hv.call]

/-! ### Every hold ends -/

/-- Some life in given surroundings leads to the end of a call. -/
def Closes (rig : Rig) (σ : Surroundings) (v : Trial) : Prop :=
  ∃ es, v.Within rig σ es ∧ (v.live rig es).isOver = true

lemma Closes.of_occur {o : Occurrence} (ho : v.Permits σ o)
    (h : (v.occur rig o).Closes rig σ) : v.Closes rig σ := by
  obtain ⟨es, hes, hover⟩ := h
  exact ⟨o :: es, ⟨ho, hes⟩, hover⟩

namespace Holding

/-- A hold that can go on is looked at, and either ends or waits. -/
lemma closes_of_ready (hv : Holding rig σ s move d h v) (hready : v.callReady = true)
    (hwaits : ∀ h' w, Holding rig σ s move d h' w → w.now = v.now → w.cancelled = v.cancelled →
      w.callReady = false → w.Closes rig σ) : v.Closes rig σ := by
  -- the sensor reads what it has to read now
  set u := v.alter (.distance (σ.reading v.now))
  have hu : Holding rig σ s move d h u := hv.congr rfl rfl rfl rfl
  have hlooks : u.callReady = true := by
    rw [callReady, hv.call] at hready
    rw [callReady, hu.call]
    exact hready
  refine .of_occur (o := .change (.distance (σ.reading v.now))) trivial ?_
  refine .of_occur (o := .go) (fun _ _ => rfl) ?_
  rw [Trial.occur, Trial.occur, step_of_ready hlooks]
  rcases hu.look (fun _ => rfl) with hheld | ⟨h', hgo, hstill⟩
  · exact ⟨[], trivial, hheld.isOver⟩
  · exact hwaits h' _ hgo (now_look u) (cancelled_look u) hstill

lemma closes_of_cancelled (hv : Holding rig σ s move d h v) (hc : v.cancelled = true) :
    v.Closes rig σ := by
  refine hv.closes_of_ready (by simp [callReady, hv.call, Rig.ready, Hold.ready, moment, hc]) ?_
  intro h' w hw _ hcancelled hready
  cases (hw.lt_of_not_ready hready).1.symm.trans (hcancelled.trans hc)

/-- The time of a hold becomes less until it ends. -/
lemma closes (hv : Holding rig σ s move d h v) : v.Closes rig σ := by
  induction hn : s.now + d - v.now using Nat.strong_induction_on generalizing h v with
  | _ n ih =>
      by_cases hsignal : σ.signal = some v.now
      · exact .of_occur (o := .change .cancel) (fun _ => hsignal)
          ((hv.cancel hsignal).closes_of_cancelled rfl)
      · have hwaits (h' : Hold) (w : Trial) (hw : Holding rig σ s move d h' w)
            (hnow : w.now = v.now) (hready : w.callReady = false) : w.Closes rig σ := by
          obtain ⟨hopen, hend, hlater⟩ := hw.lt_of_not_ready hready
          have hpermits : w.Permits σ (.pass (w.now + 1)) := by
            refine ⟨⟨hready, hlater⟩, fun _ c hc => ?_⟩
            refine Nat.lt_of_le_of_ne (hw.awaited hopen c hc) ?_
            rintro rfl
            exact hsignal (hnow ▸ hc)
          have hnext : (w.occur rig (.pass (w.now + 1))).now = w.now + 1 :=
            Nat.max_eq_left (Nat.le_succ _)
          refine .of_occur hpermits (ih _ ?_ (hw.pass hpermits) rfl)
          rw [hnext]
          omega
        cases hready : v.callReady with
        | true => exact hv.closes_of_ready hready fun h' w hw hnow _ => hwaits h' w hw hnow
        | false => exact hwaits h v hv rfl hready

end Holding

/-! ### Lives of holds -/

/-- A hold that begins ends at once, or goes on. -/
lemma hold_begins (hread : s.cancelled = false → s.plant.body.distance = σ.reading s.now)
    (hgiven : s.cancelled = true → σ.signal = some s.now)
    (hawaited : s.cancelled = false → ∀ c ∈ σ.signal, s.now ≤ c) :
    Held rig σ s move d (s.hold rig move d) ∨
      ∃ h, Holding rig σ s move d h (s.hold rig move d) := by
  let h : Hold := { move, since := s.now, deadline := s.now + d, nextLook := s.now }
  have hv : Holding rig σ s move d h { s with call := .running (.holding h) } :=
    { call := rfl
      same := rfl
      deadline := rfl
      now_le := Nat.le_add_right s.now d
      given := hgiven
      awaited := hawaited
      looks := fun _ => ⟨0, by simp [h], le_rfl, fun j hj => absurd hj (Nat.not_lt_zero j)⟩
      log := rfl }
  rcases hv.look hread with hheld | ⟨h', hgo, -⟩
  · exact .inl hheld
  · exact .inr ⟨h', hgo⟩

/-- Along a life a hold goes on, or it has ended at some moment. -/
lemma live_stands {u : Trial}
    (hu : Held rig σ s move d u ∨ ∃ h, Holding rig σ s move d h u) {es : List Occurrence}
    (hes : u.Within rig σ es) :
    (∃ h, Holding rig σ s move d h (u.live rig es)) ∨
      ∃ early late, es = early ++ late ∧
        (∀ pre o, early = pre ++ [o] → (u.live rig pre).isOver = false) ∧
          Held rig σ s move d (u.live rig early) := by
  induction es using List.reverseRecOn with
  | nil =>
      rcases hu with hheld | hgo
      · exact .inr ⟨[], [], rfl, by simp, hheld⟩
      · exact .inl hgo
  | append_singleton es o ih =>
      rw [within_append] at hes
      obtain ⟨hes, ho, -⟩ := hes
      rcases ih hes with ⟨h, hv⟩ | ⟨early, late, rfl, hfirst, hheld⟩
      · rw [live_append]
        rcases hv.occur ho with hheld | hgo
        · refine .inr ⟨es ++ [o], [], by simp, fun pre o' hpre => ?_, by simpa using hheld⟩
          obtain ⟨rfl, -⟩ := List.append_inj' hpre rfl
          exact hv.isOver
        · exact .inl hgo
      · exact .inr ⟨early, late ++ [o], by simp, hfirst, hheld⟩

/-- Motors that are held running for a time `d`, in any surroundings, stop at the earliest of three
times: when the signal is given, when that time is over and, unless the move is a way back, at the
first look at an obstacle.  Until then nothing is done, and it can come to that; then the motors
stop once, and how the hold ends depends on whether the signal is given at that moment, then on
whether its time is over.  So an obstacle that stays ends it within a period. -/
theorem hold_ends (rig : Rig) (σ : Surroundings) (s : Trial) (move : Move) (d : Nat)
    (hread : s.cancelled = false → s.plant.body.distance = σ.reading s.now)
    (hgiven : s.cancelled = true → σ.signal = some s.now)
    (hawaited : s.cancelled = false → ∀ c ∈ σ.signal, s.now ≤ c) :
    let u := s.hold rig move d
    ∃ t, IsLeast (σ.ends rig.motion move s.now d) t ∧
      (move ≠ .back → ∀ a, s.now ≤ a →
        (∀ x, a ≤ x → x < a + rig.motion.pollPeriod → rig.motion.Blocks (σ.reading x)) →
          t < a + rig.motion.pollPeriod) ∧
      (move = .back → IsLeast {x | σ.signal = some x ∨ x = s.now + d} t) ∧
      ∀ es, u.Within rig σ es →
        ((u.live rig es).isOver = false ∧ (u.live rig es).now ≤ t ∧
          (u.live rig es).plant.body.log = s.plant.body.log ∧
            ∃ es', u.Within rig σ (es ++ es') ∧ (u.live rig (es ++ es')).isOver = true) ∨
        ∃ early late, es = early ++ late ∧
          (∀ pre o, early = pre ++ [o] → (u.live rig pre).isOver = false) ∧
            (u.live rig early).now = t ∧ Held rig σ s move d (u.live rig early) ∧
              (u.live rig early).Remains (u.live rig es) := by
  intro u
  obtain ⟨t, ht⟩ := σ.exists_isLeast_ends rig.motion move s.now d
  refine ⟨t, ht, fun hmove a => Surroundings.lt_of_blocked ht hmove, ?_, fun es hes => ?_⟩
  · rintro rfl
    exact Surroundings.isLeast_back ht
  · rcases live_stands (hold_begins hread hgiven hawaited) hes with
      ⟨h, hv⟩ | ⟨early, late, rfl, hfirst, hheld⟩
    · obtain ⟨es', hes', hover⟩ := hv.closes
      refine .inl ⟨hv.isOver, hv.mem_lowerBounds ht.1, hv.log, es', ?_, ?_⟩
      · exact (within_append es es').mpr ⟨hes, hes'⟩
      · rw [live_append]
        exact hover
    · refine .inr ⟨early, late, rfl, hfirst, hheld.isLeast.unique ht, hheld, ?_⟩
      rw [live_append]
      exact live_remains hheld.call late

/-- Something comes into the way after a while, and nobody gives a signal. -/
def lateObstacle : Surroundings where
  reading t := if t < 70 then 100.0 else 10.0
  signal := none

/-- The robot once its motors run for a way forward. -/
def setOff : Trial :=
  { still with plant := { still.plant with
      body := Move.forward.started {} still.now 80 still.plant.body
      voice := still.plant.voice.countTask } }

/-- A way forward of twenty centimetres is a hold. -/
lemma begin_forward :
    still.begin {} (.move .forward) ["20"] false = setOff.hold {} .forward 200 := by
  have hamount : Move.forward.amount? {} ["20"] still.cancelled still.plant.body = .ok 20 := by
    decide +kernel
  exact begin_eq_hold hamount rfl rfl (by decide)

/-- Looks at that way until something is there and once more. -/
def forwardLooks : List Occurrence :=
  [.pass 50, .go, .pass 100, .change (.distance 10.0), .go]

/-- The obstacle that comes at 70 ends the way at the next look, long before its time is over. -/
theorem hold_ends_forward :
    setOff.plant.body.distance = lateObstacle.reading setOff.now ∧
      (setOff.hold {} .forward 200).Within {} lateObstacle forwardLooks ∧
      IsLeast (lateObstacle.ends {} .forward 0 200) 100 ∧
      ((still.begin {} (.move .forward) ["20"] false).live {} forwardLooks).ending? =
        some (.returned .obstacle) := by
  have hread : setOff.plant.body.distance = lateObstacle.reading setOff.now := rfl
  obtain ⟨t, ht, -, -, hlives⟩ :=
    hold_ends {} lateObstacle setOff .forward 200 (fun _ => hread) (by simp [setOff, still])
      (by simp [lateObstacle])
  rw [begin_forward]
  set u := setOff.hold {} .forward 200
  have hwithin : u.Within {} lateObstacle forwardLooks := by
    refine ⟨⟨⟨?_, ?_⟩, ?_⟩, fun _ _ => rfl, ⟨⟨?_, ?_⟩, ?_⟩, trivial, fun _ _ => rfl, trivial⟩ <;>
      decide +kernel
  have hend : (u.live {} forwardLooks).ending? = some (.returned .obstacle) := by decide +kernel
  have htimes : (u.live {} forwardLooks).plant.body.log.map Prod.fst = [100, 0, 0] := by
    decide +kernel
  refine ⟨hread, hwithin, ?_, hend⟩
  rcases hlives forwardLooks hwithin with ⟨hgoes, -⟩ | ⟨early, late, -, -, hnow, hheld, hrest⟩
  · have hover : (u.live {} forwardLooks).isOver = true := by decide +kernel
    cases hgoes.symm.trans hover
  · rw [hrest.log, hheld.log, hnow] at htimes
    have hlast : t = 100 := by
      simpa [Move.lastEvents, Move.isTurn] using (List.cons.inj htimes).1
    exact hlast ▸ ht

end Trial

end RoverPilot
