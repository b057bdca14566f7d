import Mathlib.Tactic
import RoverPilot.Proofs.Executor.Touch
import RoverPilot.Robot.Handler

/-!
What calls of handlers do to the motors and the wheels.

* `Body.powers`, `Body.Unpowered`: when the motors got power, and that they got none;
* `Activity.move?`, `Body.Follows`: the move that goes on, and a body whose motors run only for
  a move and whose wheels are turned only for a turn;
* `Settings.Motion.Timely`, `Settings.Motion.longest`: settings with which the time of every allowed
  move is known, and the time that no move exceeds;
* `Hold.close_spec`, `Hold.poll_cases`: how a hold ends and goes on;
* `Move.Begins`, `Move.begins`: how a move begins, with one case for each place at which it may
  end at once;
* `Move.begin_cases`, `Move.Served`: so the body stays at the service of a move;
* `Rig.execute_follows`, `Rig.resume_cases`, `Rig.finish_bodiless`: what calls of any handler do
  to the body when they begin, go on and finish;
* `Rig.execute_unpowered`: a command that begins under a signal that is given leaves the motors
  without power.
-/

namespace RoverPilot

/-! ### Power -/

/-- The power that an actuator gave to the motors. -/
@[simp] def BodyEvent.power? : BodyEvent → Option Int32
  | .power p => some p
  | _ => none

namespace Body

variable {b : Body} {now : Nat} {e : BodyEvent}

/-- Without a motor fault an actuator works. -/
lemma act?_of_fault (h : b.fault = none) : b.act? now e = .ok (b.record now e) :=
  act?_eq_ok_iff.mpr ⟨h, rfl⟩

/-- Only a motor fault keeps an actuator from working. -/
lemma fault_of_act?_error {f : Fault} (h : b.act? now e = .error f) : b.fault ≠ none := by
  intro hfault
  rw [act?_of_fault hfault] at h
  cases h

/-- When the motors got power, and how much, the newest entry first. -/
def powers (b : Body) : Log Int32 := b.log.filterMap fun entry => entry.2.power?.map (entry.1, ·)

@[simp] lemma powers_record (b : Body) (now : Nat) (e : BodyEvent) :
    (b.record now e).powers = (e.power?.map (now, ·)).toList ++ b.powers := by
  simp only [powers, log_record, List.filterMap_cons]
  cases e.power? <;> rfl

/-- On the way to another body the motors got no power; they may have stopped. -/
structure Unpowered (b c : Body) : Prop where
  power : c.power = b.power ∨ c.power = 0
  powers : c.powers = b.powers

namespace Unpowered

variable {b c d : Body}

lemma refl (b : Body) : b.Unpowered b := ⟨.inl rfl, rfl⟩

lemma trans (h : b.Unpowered c) (k : c.Unpowered d) : b.Unpowered d := by
  refine ⟨?_, k.powers.trans h.powers⟩
  rcases k.power with hk | hk
  · rw [hk]
    exact h.power
  · exact .inr hk

lemma stop (b : Body) (now : Nat) : b.Unpowered (b.stop now) :=
  ⟨.inr rfl, powers_record b now .stop⟩

lemma steering (b : Body) (now : Nat) (degrees : Float) :
    b.Unpowered (b.record now (.steering degrees)) :=
  ⟨.inl rfl, powers_record b now (.steering degrees)⟩

/-- Motors that are off stay off. -/
lemma power_eq_zero (h : b.Unpowered c) (hb : b.power = 0) : c.power = 0 := by
  rcases h.power with hc | hc
  · rw [hc, hb]
  · exact hc

end Unpowered

/-! ### A body at the service of a move -/

/-- The motors run only for a move, and as long as the motors are not faulty the wheels are
turned only for a turn. -/
structure Follows (m? : Option Move) (b : Body) : Prop where
  power : m? = none → b.power = 0
  steering : b.fault = none → (∀ m ∈ m?, m.isTurn = false) → b.steering = 0.0

namespace Follows

variable {m? : Option Move} {b c : Body}

/-- A change of the body that leaves motors, wheels and fault alone. -/
lemma congr (h : b.Follows m?) (hpower : c.power = b.power) (hsteering : c.steering = b.steering)
    (hfault : c.fault = b.fault) : c.Follows m? where
  power := hpower ▸ h.power
  steering := by rw [hfault, hsteering]; exact h.steering

lemma stop (h : b.Follows m?) (now : Nat) : (b.stop now).Follows m? where
  power _ := rfl
  steering hfault := h.steering hfault

/-- Faulty motors do not start. -/
lemma setFault (h : b.Follows m?) (detail : String) : (b.setFault detail).Follows m? where
  power := h.power
  steering hfault := by cases hfault

end Follows

end Body

/-! ### Times -/

/-- The time of every move that is not refused is known. -/
structure Settings.Motion.Timely (m : Settings.Motion) : Prop where
  drive : m.maxDriveCm.toInt.toNat * m.msPerCm.toNat < UInt64.size
  turn : m.maxTurnDegrees.toInt.toNat * m.msPerDegree.toNat < UInt64.size

/-- The time that no allowed move exceeds, in milliseconds. -/
def Settings.Motion.longest (m : Settings.Motion) : Nat :=
  max (m.maxDriveCm.toInt.toNat * m.msPerCm.toNat)
    (m.maxTurnDegrees.toInt.toNat * m.msPerDegree.toNat)

/-- An amount up to a limit takes no longer than the limit, and how long is known if it is for the
limit. -/
lemma Settings.Motion.exists_time? {amount limit : Int32} {pace : UInt64} (hpos : 0 ≤ amount)
    (hle : amount ≤ limit) (ht : limit.toInt.toNat * pace.toNat < UInt64.size) :
    ∃ ms, time? amount pace = some ms ∧ ms ≤ limit.toInt.toNat * pace.toNat := by
  rw [Int32.le_iff_toInt_le] at hpos hle
  have hamount : amount.toInt.natAbs ≤ limit.toInt.toNat := by
    rw [Int32.toInt_zero] at hpos
    omega
  have hms : amount.toInt.natAbs * pace.toNat ≤ limit.toInt.toNat * pace.toNat :=
    Nat.mul_le_mul_right _ hamount
  exact ⟨_, by simp [time?, Nat.lt_of_le_of_lt hms ht], hms⟩

namespace Move

variable {m : Settings.Motion} {move : Move} {args : List String} {cancelled : Bool} {b : Body}
  {amount : Int32}

/-- The amount of a move that is not refused is within its limit. -/
lemma le_limit_of_amount? (h : move.amount? m args cancelled b = .ok amount) :
    0 ≤ amount ∧ amount ≤ move.limit m := by
  rw [amount?] at h
  split at h
  · cases h
  · split at h
    · cases h
    · rename_i hneg
      split at h
      · cases h
      · rename_i hlimit
        split at h
        · cases h
        · split at h
          · cases h
          · cases h
            exact ⟨Int32.not_lt.mp hneg, Int32.not_lt.mp hlimit⟩

/-- Once the signal is given every move is refused. -/
lemma exists_refusal (m : Settings.Motion) (move : Move) (args : List String) (b : Body) :
    ∃ e, move.amount? m args true b = .error e := by
  rw [amount?]
  split
  · exact ⟨_, rfl⟩
  · simp only [if_true]
    split_ifs <;> exact ⟨_, rfl⟩

/-- The time of a move that is not refused is known, and no move takes longer than the longest. -/
lemma exists_time? (ht : m.Timely) (h : move.amount? m args cancelled b = .ok amount) :
    ∃ ms, move.time? m amount = some ms ∧ ms ≤ m.longest := by
  obtain ⟨hpos, hle⟩ := le_limit_of_amount? h
  rw [time?]
  rw [limit] at hle
  split
  · rename_i hturn
    rw [if_pos hturn] at hle
    obtain ⟨ms, hms, hbound⟩ := Settings.Motion.exists_time? hpos hle ht.turn
    exact ⟨ms, hms, hbound.trans (Nat.le_max_right _ _)⟩
  · rename_i hturn
    rw [if_neg hturn] at hle
    obtain ⟨ms, hms, hbound⟩ := Settings.Motion.exists_time? hpos hle ht.drive
    exact ⟨ms, hms, hbound.trans (Nat.le_max_left _ _)⟩

/-- Drives do not turn the wheels. -/
lemma steering_eq_zero (h : move.isTurn = false) : move.steering m = 0.0 := by
  cases move with
  | forward | back => rfl
  | left | right => cases h

/-- Only the power of a drive may have no opposite. -/
lemma isTurn_of_power? (h : move.power? m = none) : move.isTurn = false := by
  cases move with
  | forward | back => rfl
  | left | right => cases h

/-- How a move ends with an outcome: after a turn faulty motors do not put the wheels straight. -/
def ending (move : Move) (fault : Option String) (o : Outcome) : Ending :=
  match fault with
  | some detail => if move.isTurn then .raised (.actuator (.motorFault detail)) else .returned o
  | none => .returned o

/-- What is written down when a move ends, the newest entry first. -/
def lastEvents (move : Move) (fault : Option String) (now : Nat) : Log BodyEvent :=
  if move.isTurn ∧ fault = none then [(now, .steering 0.0), (now, .stop)] else [(now, .stop)]

lemma ending_ne_panicked (move : Move) (fault : Option String) (o : Outcome) :
    move.ending fault o ≠ .panicked := by
  cases fault with
  | none => simp [ending]
  | some detail => cases hturn : move.isTurn <;> simp [ending, hturn]

end Move

/-! ### Running motors -/

/-- What a call on the body for a move has come to: as long as it goes on it is for that
move, and the body is at its service. -/
structure Move.Served (move : Move) (r : Body × Progress Hold) : Prop where
  follows : r.1.Follows (r.2.activity?.map Hold.move)
  same : ∀ h, r.2.activity? = some h → h.move = move

lemma Move.Served.ended {move : Move} {b : Body} (hb : b.Follows none) (e : Ending) :
    move.Served (b, .ended e) :=
  ⟨hb, fun _ h => by cases h⟩

namespace Hold

variable (m : Settings.Motion) (h : Hold) (now : Nat) (b : Body) (o : Outcome)

/-- The end of a hold. -/
lemma close_spec :
    (h.close now b o).2 = .ended (h.move.ending b.fault o) ∧
      (h.close now b o).1.power = 0 ∧ (h.close now b o).1.fault = b.fault ∧
        (h.close now b o).1.log = h.move.lastEvents b.fault now ++ b.log := by
  have hstopped : (b.stop now).fault = b.fault := Body.fault_record b now .stop
  have hlog : (b.stop now).log = (now, .stop) :: b.log := Body.log_record b now .stop
  rw [close]
  cases hturn : h.move.isTurn with
  | false =>
      refine ⟨?_, rfl, hstopped, ?_⟩
      · cases hfault : b.fault <;> simp [Move.ending, hturn]
      · simp [Move.lastEvents, hturn, hlog]
  | true =>
      cases hfault : b.fault with
      | none =>
          rw [hfault] at hstopped
          simp only [Body.act?_of_fault hstopped, if_true]
          refine ⟨rfl, rfl, hstopped, ?_⟩
          simp [Move.lastEvents, hturn, hlog]
      | some detail =>
          rw [hfault] at hstopped
          have hwheels : (b.stop now).act? now (.steering 0.0) =
              .error (.actuator (.motorFault detail)) := by
            rw [Body.act?, hstopped]
          simp only [hwheels, if_true]
          refine ⟨?_, rfl, hstopped, ?_⟩
          · simp [Move.ending, hturn]
          · simp [Move.lastEvents, hlog]

lemma close_ended : ∃ c e, h.close now b o = (c, .ended e) :=
  ⟨_, _, Prod.ext rfl (h.close_spec now b o).1⟩

lemma close_unpowered : b.Unpowered (h.close now b o).1 := by
  obtain ⟨-, hpower, -, hlog⟩ := h.close_spec now b o
  refine ⟨.inr hpower, ?_⟩
  rw [Body.powers, hlog, Move.lastEvents]
  split <;> simp [Body.powers]

/-- At the end of a move the motors are off and the wheels are straight. -/
lemma close_follows {b : Body} (hb : b.Follows (some h.move)) :
    (h.close now b o).1.Follows none := by
  rw [close]
  split
  · split
    · rename_i c hc
      obtain ⟨-, rfl⟩ := Body.act?_eq_ok_iff.mp hc
      exact ⟨fun _ => rfl, fun _ _ => rfl⟩
    · rename_i fault hc
      exact ⟨fun _ => rfl, fun hfault => absurd hfault (Body.fault_of_act?_error hc)⟩
  · rename_i hturn
    exact ⟨fun _ => rfl, fun hfault _ => hb.steering hfault (by simpa using hturn)⟩

/-- The motors go on running, or the move is over. -/
lemma poll_cases (cancelled : Bool) :
    (∃ h', h.poll m now cancelled b = (b, .running h') ∧ h'.move = h.move ∧
        h'.deadline = h.deadline ∧ cancelled = false) ∨
      ∃ o, h.poll m now cancelled b = h.close now b o := by
  rw [poll]
  cases ho : h.outcome? m now cancelled b with
  | some o => exact .inr ⟨o, rfl⟩
  | none =>
      refine .inl ⟨_, rfl, ?_, ?_, ?_⟩
      · split <;> rfl
      · split <;> rfl
      · cases cancelled with
        | false => rfl
        | true => cases ho

lemma poll_served (cancelled : Bool) {b : Body} (hb : b.Follows (some h.move)) :
    h.move.Served (h.poll m now cancelled b) := by
  rcases h.poll_cases m now b cancelled with
    ⟨h', hr, hsame, -, -⟩ | ⟨o, hr⟩
  · rw [hr]
    refine ⟨?_, fun h'' he => ?_⟩
    · rw [← hsame] at hb
      exact hb
    · cases he
      exact hsame
  · obtain ⟨c, e, hclose⟩ := h.close_ended now b o
    have hrest := h.close_follows now o hb
    rw [hclose] at hr hrest
    exact hr ▸ .ended hrest e

end Hold

namespace Move

variable {m : Settings.Motion} (move : Move) (args : List String) (now : Nat) (cancelled : Bool)

/-- The body once the wheels are turned for a move. -/
def steered (m : Settings.Motion) (move : Move) (now : Nat) (b : Body) : Body :=
  b.record now (.steering (move.steering m))

/-- The body once the motors run for a move. -/
def started (m : Settings.Motion) (move : Move) (now : Nat) (p : Int32) (b : Body) : Body :=
  (move.steered m now b).record now (.power p)

/-- How a move begins. -/
inductive Begins (m : Settings.Motion) (move : Move) (args : List String) (now : Nat)
    (cancelled : Bool) (b : Body) : Body × Progress Hold → Prop where
  /-- It is refused. -/
  | refused {e : Ending} (h : move.amount? m args cancelled b = .error e) :
      Begins m move args now cancelled b (b, .ended e)
  /-- The wheels do not turn. -/
  | faulty {amount : Int32} {detail : String} (h : move.amount? m args cancelled b = .ok amount)
      (hfault : b.fault = some detail) :
      Begins m move args now cancelled b (b, .ended (.raised (.actuator (.motorFault detail))))
  /-- There is no word for its power. -/
  | powerless {amount : Int32} (h : move.amount? m args cancelled b = .ok amount)
      (hfault : b.fault = none) (hpower : move.power? m = none) :
      Begins m move args now cancelled b (move.steered m now b, .ended .panicked)
  /-- The motors run, and there is no word for its time. -/
  | timeless {amount p : Int32} (h : move.amount? m args cancelled b = .ok amount)
      (hfault : b.fault = none) (hpower : move.power? m = some p)
      (htime : move.time? m amount = none) :
      Begins m move args now cancelled b (move.started m now p b, .ended .panicked)
  /-- The motors run, and it is looked at for the first time. -/
  | held {amount p : Int32} {ms : Nat} (h : move.amount? m args cancelled b = .ok amount)
      (hfault : b.fault = none) (hpower : move.power? m = some p)
      (htime : move.time? m amount = some ms) :
      Begins m move args now cancelled b
        (Hold.poll m { move, since := now, deadline := now + ms, nextLook := now } now cancelled
          (move.started m now p b))

/-- Every move begins in one of these ways. -/
theorem begins (m : Settings.Motion) (move : Move) (args : List String) (now : Nat)
    (cancelled : Bool) (b : Body) :
    Begins m move args now cancelled b (move.begin m args now cancelled b) := by
  rw [begin]
  cases hamount : move.amount? m args cancelled b with
  | error e => exact .refused hamount
  | ok amount =>
      cases hfault : b.fault with
      | some detail =>
          have hwheels : b.act? now (.steering (move.steering m)) =
              .error (.actuator (.motorFault detail)) := by
            rw [Body.act?, hfault]
          simp only [hwheels]
          exact .faulty hamount hfault
      | none =>
          have hmotors (p : Int32) : (b.record now (.steering (move.steering m))).act? now
              (.power p) = .ok (move.started m now p b) :=
            Body.act?_of_fault ((Body.fault_record b now _).trans hfault)
          simp only [Body.act?_of_fault hfault]
          cases hpower : move.power? m with
          | none => exact .powerless hamount hfault hpower
          | some p =>
              simp only [hmotors]
              cases htime : move.time? m amount with
              | none => exact .timeless hamount hfault hpower htime
              | some ms => exact .held hamount hfault hpower htime

/-- A move for whose power and time there are words is held. -/
lemma begin_of_time? {b : Body} {amount p : Int32} {ms : Nat}
    (h : move.amount? m args cancelled b = .ok amount) (hfault : b.fault = none)
    (hpower : move.power? m = some p) (htime : move.time? m amount = some ms) :
    move.begin m args now cancelled b =
      Hold.poll m { move, since := now, deadline := now + ms, nextLook := now } now cancelled
        (move.started m now p b) := by
  have hr := move.begins m args now cancelled b
  generalize move.begin m args now cancelled b = r at hr ⊢
  cases hr with
  | refused h' => cases h.symm.trans h'
  | faulty _ hfaulty => cases hfault.symm.trans hfaulty
  | powerless _ _ hnone => cases hpower.symm.trans hnone
  | timeless h' _ _ hnone =>
      cases h.symm.trans h'
      cases htime.symm.trans hnone
  | held h' _ hpower' htime' =>
      cases h.symm.trans h'
      cases hpower.symm.trans hpower'
      cases htime.symm.trans htime'
      rfl

/-- A move ends before the wheels turn, or because its power has no opposite, or the motors
start and run for it. -/
lemma begin_cases (ht : m.Timely) (b : Body) :
    (∃ e, move.begin m args now cancelled b = (b, .ended e)) ∨
      b.fault = none ∧
        ((∃ e, move.begin m args now cancelled b =
            (b.record now (.steering (move.steering m)), .ended e) ∧ move.power? m = none) ∨
          ∃ p h, move.begin m args now cancelled b = Hold.poll m h now cancelled
            ((b.record now (.steering (move.steering m))).record now (.power p)) ∧
              h.move = move ∧ move.power? m = some p ∧ now ≤ h.deadline ∧
                h.deadline ≤ now + m.longest) := by
  have hr := begins m move args now cancelled b
  generalize move.begin m args now cancelled b = r at hr ⊢
  cases hr with
  | refused | faulty => exact .inl ⟨_, rfl⟩
  | powerless _ hfault hpower => exact .inr ⟨hfault, .inl ⟨_, rfl, hpower⟩⟩
  | timeless hamount _ _ htime =>
      obtain ⟨ms, hms, -⟩ := exists_time? ht hamount
      cases hms.symm.trans htime
  | held hamount hfault hpower htime =>
      obtain ⟨ms, hms, hbound⟩ := exists_time? ht hamount
      cases hms.symm.trans htime
      exact .inr ⟨hfault, .inr ⟨_, _, rfl, rfl, hpower, Nat.le_add_right now _,
        Nat.add_le_add_left hbound now⟩⟩

/-- A body at rest is at the service of a move that begins. -/
lemma begin_served (ht : m.Timely) {b : Body} (hb : b.Follows none) :
    move.Served (move.begin m args now cancelled b) := by
  rcases move.begin_cases args now cancelled ht b with
    ⟨e, hr⟩ | ⟨hfault, ⟨e, hr, hpower⟩ | ⟨p, h, hr, hmove, -⟩⟩
  · rw [hr]
    exact .ended hb e
  · rw [hr]
    have hstraight := steering_eq_zero (m := m) (isTurn_of_power? hpower)
    have hrest : (b.record now (.steering (move.steering m))).Follows none :=
      ⟨fun _ => hb.power rfl, fun _ _ => hstraight⟩
    exact .ended hrest e
  · rw [hr, ← hmove]
    refine h.poll_served m now cancelled ⟨fun hnone => (by cases hnone), fun _ hnone => ?_⟩
    exact steering_eq_zero (hnone h.move rfl)

end Move

/-! ### Calls of handlers -/

/-- The move that goes on in an activity. -/
@[simp] def Activity.move? : Activity → Option Move
  | .holding h => some h.move
  | _ => none

/-- The move that goes on in a call. -/
def Progress.move? (r : Progress Activity) : Option Move := r.activity?.bind Activity.move?

namespace Plant

/-- A call that leaves the body alone. -/
structure Bodiless (p : Plant) (r : Plant × Progress Activity) : Prop where
  body : r.1.body = p.body
  move : r.2.move? = none

variable (p : Plant)

lemma move?_onBody (r : Body × Progress Hold) :
    (p.onBody r).2.move? = r.2.activity?.map Hold.move := by
  obtain ⟨b, h | e⟩ := r <;> rfl

lemma body_awaitUtterance (cancelled : Bool) : (p.awaitUtterance cancelled).1.body = p.body := by
  rw [awaitUtterance]
  split
  · rfl
  · split
    · rfl
    · split <;> rfl

lemma saying_bodiless (text : String) (t : Moment) : p.Bodiless (p.saying text t) := by
  have hbody := p.body_awaitUtterance t.cancelled
  rw [saying]
  split <;> rename_i hr <;> rw [hr] at hbody <;> exact ⟨hbody, rfl⟩

lemma silence_bodiless (t : Moment) : p.Bodiless (p.silence t) := by
  have hbody := p.body_awaitUtterance t.cancelled
  rw [silence]
  split <;> rename_i hr <;> rw [hr] at hbody <;> exact ⟨hbody, rfl⟩

lemma onScript_bodiless {q : Plant} (hq : q.body = p.body) (now : Nat) {a : Activity}
    (ha : a.move? = none) (r : List ScriptEvent × Option Ending) :
    p.Bodiless (q.onScript now a r) := by
  obtain ⟨events, _ | e⟩ := r
  · exact ⟨hq, ha⟩
  · exact ⟨hq, rfl⟩

/-- The camera gives the motors no power. -/
lemma aim_unpowered (m : Settings.Motion) (args : List String) (now : Nat) :
    p.body.Unpowered (p.aim m args now).1.body := by
  rw [aim]
  split
  · exact .refl p.body
  · split
    · exact .refl p.body
    · exact .refl p.body
    · rw [actOnce]
      split
      · rename_i c hc
        obtain ⟨-, rfl⟩ := Body.act?_eq_ok_iff.mp hc
        exact ⟨.inl rfl, Body.powers_record _ _ _⟩
      · exact .refl p.body

/-- The camera has nothing to do with motors and wheels. -/
lemma aim_follows (m : Settings.Motion) (args : List String) (now : Nat) {m? : Option Move}
    (hb : p.body.Follows m?) :
    (p.aim m args now).1.body.Follows m? ∧ (p.aim m args now).2.move? = none := by
  rw [aim]
  split
  · exact ⟨hb, rfl⟩
  · split
    · exact ⟨hb, rfl⟩
    · exact ⟨hb, rfl⟩
    · rw [actOnce]
      split
      · rename_i c hc
        obtain ⟨-, rfl⟩ := Body.act?_eq_ok_iff.mp hc
        exact ⟨hb.congr rfl rfl rfl, rfl⟩
      · exact ⟨hb, rfl⟩

end Plant

namespace Rig

variable (rig : Rig) (p : Plant) (t : Moment)

/-- Finishing leaves the body alone. -/
lemma finish_bodiless (k : Handler) : p.Bodiless (finish k t p) := by
  cases k with
  | move | camera | stop => exact ⟨rfl, rfl⟩
  | say => exact p.silence_bodiless t
  | scripted s =>
      rw [finish]
      exact p.onScript_bodiless (by rfl) t.now (by rfl) _

/-- A call that goes on leaves the body alone, as long as it goes on; a move may also end. -/
lemma resume_cases (a : Activity) :
    ((rig.resume a t p).1.body = p.body ∧ (rig.resume a t p).2.move? = a.move? ∧
      (t.cancelled = true → a.move? = none)) ∨
    ∃ h o, a = .holding h ∧ rig.resume a t p = p.onBody (h.close t.now p.body o) := by
  have hleft {r : Plant × Progress Activity} (h : p.Bodiless r) (ha : a.move? = none) :
      r.1.body = p.body ∧ r.2.move? = a.move? ∧ (t.cancelled = true → a.move? = none) :=
    ⟨h.body, h.move.trans ha.symm, fun _ => ha⟩
  cases a with
  | holding h =>
      rcases h.poll_cases rig.motion t.now p.body t.cancelled with
        ⟨h', hr, hsame, -, hsignal⟩ | ⟨o, hr⟩
      · refine .inl ⟨?_, ?_, fun hc => ?_⟩
        · simp [resume, hr, Plant.onBody]
        · simp [resume, hr, Plant.onBody, Progress.move?, hsame]
        · rw [hsignal] at hc
          cases hc
      · exact .inr ⟨h, o, rfl, by rw [resume, hr]⟩
  | saying text => exact .inl (hleft (p.saying_bodiless text t) rfl)
  | silence => exact .inl (hleft (p.silence_bodiless t) rfl)
  | scripted | scriptedFinish => exact .inl (hleft (p.onScript_bodiless rfl t.now rfl _) rfl)

/-- A call that goes on gives the motors no power. -/
lemma resume_unpowered (a : Activity) : p.body.Unpowered (rig.resume a t p).1.body := by
  rcases rig.resume_cases p t a with ⟨hbody, -⟩ | ⟨h, o, -, hr⟩
  · rw [hbody]
    exact .refl p.body
  · rw [hr]
    exact h.close_unpowered t.now p.body o

/-- A command that begins under a signal that is given gives the motors no power. -/
lemma execute_unpowered (hc : t.cancelled = true) (k : Handler) (args : List String) :
    p.body.Unpowered (rig.execute k args t p).1.body := by
  have hleft {r : Plant × Progress Activity} (h : r.1.body = p.body) :
      p.body.Unpowered r.1.body := h ▸ .refl p.body
  cases k with
  | move move =>
      obtain ⟨e, he⟩ := move.exists_refusal rig.motion args p.body
      refine hleft ?_
      rw [execute, Move.begin, hc, he]
      rfl
  | camera => exact p.aim_unpowered rig.motion args t.now
  | stop => exact .stop p.body t.now
  | say =>
      rw [execute]
      split
      · exact .refl p.body
      · exact hleft (p.saying_bodiless _ t).body
  | scripted s =>
      rw [execute]
      exact hleft (p.onScript_bodiless (by rfl) t.now (by rfl) _).body

/-- While a call goes on the body is at the service of its move, if any; a move ends when the
signal is given. -/
lemma resume_follows {a : Activity} (hb : p.body.Follows a.move?) :
    (rig.resume a t p).1.body.Follows (rig.resume a t p).2.move? ∧
      (∀ m ∈ (rig.resume a t p).2.move?, a.move? = some m) ∧
      (t.cancelled = true → (rig.resume a t p).2.move? = none) := by
  rcases rig.resume_cases p t a with ⟨hbody, hmove, hsignal⟩ | ⟨h, o, rfl, hr⟩
  · rw [hbody, hmove]
    exact ⟨hb, fun _ hm => hm, hsignal⟩
  · obtain ⟨c, e, hclose⟩ := h.close_ended t.now p.body o
    have hnone : (rig.resume (.holding h) t p).2.move? = none := by
      rw [hr, Plant.move?_onBody, hclose]
      rfl
    rw [hnone, hr]
    exact ⟨h.close_follows t.now o hb, fun _ hm => (by cases hm), fun _ => rfl⟩

/-- A body at rest is at the service of a command that begins; the motors run for its own move
only. -/
lemma execute_follows (ht : rig.motion.Timely) (hb : p.body.Follows none) (k : Handler)
    (args : List String) :
    (rig.execute k args t p).1.body.Follows (rig.execute k args t p).2.move? ∧
      ∀ m ∈ (rig.execute k args t p).2.move?, k = .move m := by
  have hleft {r : Plant × Progress Activity} (h : p.Bodiless r) :
      r.1.body.Follows r.2.move? ∧ ∀ m ∈ r.2.move?, k = .move m := by
    rw [h.body, h.move]
    exact ⟨hb, fun _ hm => (by cases hm)⟩
  cases k with
  | move move =>
      have hserved := move.begin_served args t.now t.cancelled ht hb
      refine ⟨?_, fun m hm => ?_⟩
      · rw [execute, Plant.move?_onBody]
        exact hserved.follows
      · rw [execute, Plant.move?_onBody, Option.mem_def, Option.map_eq_some_iff] at hm
        obtain ⟨h, hh, rfl⟩ := hm
        rw [hserved.same h hh]
  | camera =>
      obtain ⟨hbody, hmove⟩ := p.aim_follows rig.motion args t.now hb
      rw [execute, hmove]
      exact ⟨hbody, fun _ hm => (by cases hm)⟩
  | stop => exact ⟨hb.stop t.now, fun _ hm => (by cases hm)⟩
  | say =>
      rw [execute]
      split
      · exact ⟨hb, fun _ hm => (by cases hm)⟩
      · exact hleft (p.saying_bodiless _ t)
  | scripted s =>
      rw [execute]
      exact hleft (p.onScript_bodiless (by rfl) t.now (by rfl) _)

end Rig

end RoverPilot
