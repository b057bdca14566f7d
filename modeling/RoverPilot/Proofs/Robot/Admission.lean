import Mathlib.Tactic
import RoverPilot.Proofs.Robot.Holding
import RoverPilot.Proofs.Text.Numeral

/-!
Which moves are refused, and all that the others do.

* `Move.Asks`, `Move.Judged`: the amount that the arguments of a move ask for, and what becomes of
  it before anything happens, with one constructor for each refusal in their order;
* `Move.amount?_eq_iff`: that is how the amount of a move is found;
* `Move.Fits`: a move for whose power and time there are words;
* `Trial.Moving`, `Trial.Moved`, `Trial.live_moves`: a move that goes on or has just ended, and
  what the body has done for it by then;
* `Trial.begin_exact`: a refused move touches nothing, and any other turns the wheels, gives power
  and stops once.
-/

namespace RoverPilot

/-! ### Arguments -/

section

variable {name a : String} {rest : List String} {amount : Int32}

lemma wordArgument_cons (name a : String) (rest : List String) :
    wordArgument name (a :: rest) 0 =
      match Text.integer? a.toList with
      | some z =>
        if Int32.minValue.toInt ≤ z ∧ z ≤ Int32.maxValue.toInt then .ok (Int32.ofInt z)
        else .error (.invalidArgument name 1 a)
      | none => .error (.invalidArgument name 1 a) :=
  rfl

/-- An argument is read as the word of 32 bits that it denotes. -/
lemma wordArgument_eq_ok_iff :
    wordArgument name (a :: rest) 0 = .ok amount ↔ Text.Signed a.toList amount.toInt := by
  rw [← Text.integer?_eq_some_iff, wordArgument_cons]
  cases Text.integer? a.toList with
  | none => simp
  | some z =>
      simp only [Option.some.injEq]
      constructor
      · intro h
        split_ifs at h with hrange
        rw [← Except.ok.inj h, Int32.toInt_ofInt_of_le hrange.1 (Int.lt_add_one_of_le hrange.2)]
      · rintro rfl
        rw [if_pos ⟨amount.minValue_le_toInt, amount.toInt_le⟩, Int32.ofInt_toInt]

/-- An argument that denotes none is at fault. -/
lemma wordArgument_eq_error {fault : Fault} (h : wordArgument name (a :: rest) 0 = .error fault) :
    fault = .invalidArgument name 1 a := by
  rw [wordArgument_cons] at h
  split at h
  · split_ifs at h
    exact (Except.error.inj h).symm
  · exact (Except.error.inj h).symm

end

/-! ### Verdicts on moves -/

namespace Move

variable {m : Settings.Motion} {move : Move} {args : List String} {cancelled : Bool} {b : Body}
  {amount : Int32}

/-- The first argument is an amount: an integer in a word of 32 bits, and not negative. -/
def Asks (args : List String) (amount : Int32) : Prop :=
  ∃ a rest, args = a :: rest ∧ Text.Signed a.toList amount.toInt ∧ 0 ≤ amount

/-- What becomes of a move before anything happens, the sensor reading `cm`. -/
inductive Judged (m : Settings.Motion) (move : Move) (args : List String) (cancelled : Bool)
    (cm : Float) : Except Ending Int32 → Prop where
  /-- It has no argument. -/
  | bare (h : args = []) :
      Judged m move args cancelled cm (.error (.raised (.argumentCount move.name 1 0)))
  /-- The first argument is no amount. -/
  | invalid {a : String} {rest : List String} (h : args = a :: rest)
      (hnone : ∀ amount, ¬ Asks args amount) :
      Judged m move args cancelled cm (.error (.raised (.invalidArgument move.name 1 a)))
  /-- The amount is above the limit. -/
  | excessive {amount : Int32} (h : Asks args amount) (hlimit : move.limit m < amount) :
      Judged m move args cancelled cm (.error (.returned .safety))
  /-- Something is in front of the robot, which is not to go back. -/
  | blocked {amount : Int32} (h : Asks args amount) (hlimit : amount ≤ move.limit m)
      (hmove : move ≠ .back) (hblocks : m.Blocks cm) :
      Judged m move args cancelled cm (.error (.returned .obstacle))
  /-- The signal has been given. -/
  | late {amount : Int32} (h : Asks args amount) (hlimit : amount ≤ move.limit m)
      (hclear : move ≠ .back → ¬ m.Blocks cm) (hsignal : cancelled = true) :
      Judged m move args cancelled cm (.error (.returned .interrupted))
  /-- It is allowed. -/
  | allowed {amount : Int32} (h : Asks args amount) (hlimit : amount ≤ move.limit m)
      (hclear : move ≠ .back → ¬ m.Blocks cm) (hsignal : cancelled = false) :
      Judged m move args cancelled cm (.ok amount)

/-- What the arguments ask for is what is read. -/
lemma asks_iff (move : Move) :
    Asks args amount ↔ wordArgument move.name args 0 = .ok amount ∧ 0 ≤ amount := by
  cases args with
  | nil => simp [Asks, wordArgument]
  | cons a rest => simp [Asks, wordArgument_eq_ok_iff]

lemma ahead_iff : (move.watches && b.obstacleAhead m.obstacleDistance) = true ↔
    move ≠ .back ∧ m.Blocks b.distance := by
  rw [Bool.and_eq_true, watches_iff, Body.obstacleAhead_iff]

/-- Whatever the arguments of a move are, it is judged. -/
lemma judged (m : Settings.Motion) (move : Move) (args : List String) (cancelled : Bool)
    (b : Body) : Judged m move args cancelled b.distance (move.amount? m args cancelled b) := by
  cases args with
  | nil => exact .bare rfl
  | cons a rest =>
      rw [amount?]
      cases hword : wordArgument move.name (a :: rest) 0 with
      | error fault =>
          obtain rfl := wordArgument_eq_error hword
          refine .invalid rfl fun amount h => ?_
          cases hword.symm.trans ((asks_iff move).mp h).1
      | ok amount =>
          dsimp only
          split_ifs with hneg hlimit hblocked hsignal
          · refine .invalid rfl fun amount' h => ?_
            obtain ⟨hread, hpos⟩ := (asks_iff move).mp h
            cases hword.symm.trans hread
            exact Int32.not_lt.mpr hpos hneg
          all_goals
            have hasks : Asks (a :: rest) amount :=
              (asks_iff move).mpr ⟨hword, Int32.not_lt.mp hneg⟩
          · exact .excessive hasks hlimit
          all_goals
            have hle : amount ≤ move.limit m := Int32.not_lt.mp hlimit
          · obtain ⟨hmove, hblocks⟩ := ahead_iff.mp hblocked
            exact .blocked hasks hle hmove hblocks
          all_goals
            have hclear := not_and.mp (mt ahead_iff.mpr hblocked)
          · exact .late hasks hle hclear hsignal
          · exact .allowed hasks hle hclear (by simpa using hsignal)

/-- So the amount of a move is found. -/
theorem amount?_eq_iff {r : Except Ending Int32} :
    move.amount? m args cancelled b = r ↔ Judged m move args cancelled b.distance r := by
  refine ⟨fun h => h ▸ judged m move args cancelled b, fun h => ?_⟩
  rw [amount?]
  cases h with
  | bare h =>
      obtain rfl := h
      rfl
  | @invalid a rest h hnone =>
      obtain rfl := h
      cases hword : wordArgument move.name (a :: rest) 0 with
      | error fault => rw [wordArgument_eq_error hword]
      | ok amount =>
          have hneg : amount < 0 := by
            by_contra hpos
            exact hnone amount ((asks_iff move).mpr ⟨hword, Int32.not_lt.mp hpos⟩)
          simp only [hneg, if_true, List.head?_cons, Option.getD_some]
  | excessive h hlimit =>
      obtain ⟨hread, hpos⟩ := (asks_iff move).mp h
      simp only [hread, Int32.not_lt.mpr hpos, hlimit, if_true, if_false]
  | blocked h hlimit hmove hblocks =>
      obtain ⟨hread, hpos⟩ := (asks_iff move).mp h
      simp only [hread, Int32.not_lt.mpr hpos, Int32.not_lt.mpr hlimit, if_false,
        ahead_iff.mpr ⟨hmove, hblocks⟩, if_true]
  | late h hlimit hclear hsignal | allowed h hlimit hclear hsignal =>
      obtain ⟨hread, hpos⟩ := (asks_iff move).mp h
      have hahead : ¬ _ := mt ahead_iff.mp (not_and.mpr hclear)
      simp [hread, Int32.not_lt.mpr hpos, Int32.not_lt.mpr hlimit, hahead, hsignal]

example : Move.left.amount? {} ["2147483648", "1"] true { distance := 5.0 } =
    .error (.raised (.invalidArgument "LEFT" 1 "2147483648")) := by
  rfl

/-- Only the first argument counts. -/
lemma amount?_take :
    move.amount? m (args.take 1) cancelled b = move.amount? m args cancelled b := by
  cases args <;> rfl

/-! ### Words for power and time -/

/-- There are words for the power of a move and for its time. -/
structure Fits (m : Settings.Motion) (move : Move) (amount : Int32) : Prop where
  power : move = .back → m.drivePower ≠ Int32.minValue
  time : amount.toInt.toNat * (if move.isTurn then m.msPerDegree else m.msPerCm).toNat <
    UInt64.size

/-- The power of a move: backwards it is the opposite. -/
def signedPower (m : Settings.Motion) (move : Move) : Int32 :=
  if move = .back then -m.drivePower else m.drivePower

/-- What is written down when a move begins, the newest entry first. -/
def firstEvents (m : Settings.Motion) (move : Move) (now : Nat) : Log BodyEvent :=
  [(now, .power (move.signedPower m)), (now, .steering (move.steering m))]

lemma Fits.power?_eq (h : move.Fits m amount) : move.power? m = some (move.signedPower m) := by
  cases move with
  | back => simp [power?, signedPower, h.power rfl]
  | forward | left | right => rfl

lemma Fits.exists_time? (h : move.Fits m amount) (hpos : 0 ≤ amount) :
    ∃ ms, move.time? m amount = some ms := by
  have htime := h.time
  have hnat : amount.toInt.toNat = amount.toInt.natAbs := by
    have hle := Int32.le_iff_toInt_le.mp hpos
    rw [Int32.toInt_zero] at hle
    omega
  rw [hnat] at htime
  cases move <;> exact ⟨_, if_pos htime⟩

end Move

namespace Trial

variable {rig : Rig} {s v : Trial} {move : Move} {log : Log BodyEvent}

/-! ### Moves that go on, and moves that have ended -/

/-- A move goes on, and `log` is all that the body has done by now. -/
structure Moving (move : Move) (log : Log BodyEvent) (v : Trial) : Prop where
  call : ∃ h, v.call = .running (.holding h) ∧ h.move = move
  log : v.plant.body.log = log

/-- A move has just ended, and has stopped the motors since. -/
structure Moved (move : Move) (log : Log BodyEvent) (v : Trial) : Prop where
  call : ∃ o, v.call = .ended (move.ending v.plant.body.fault o)
  log : v.plant.body.log = move.lastEvents v.plant.body.fault v.now ++ log

namespace Moving

lemma isOver (hv : Moving move log v) : v.isOver = false := by
  obtain ⟨h, hcall, -⟩ := hv.call
  rw [Trial.isOver, hcall]

lemma congr {w : Trial} (hv : Moving move log v) (hcall : w.call = v.call)
    (hlog : w.plant.body.log = v.plant.body.log) : Moving move log w :=
  ⟨hcall ▸ hv.call, hlog.trans hv.log⟩

/-- A look at a hold is a look at the body. -/
lemma look_eq {h : Hold} (hcall : v.call = .running (.holding h)) :
    let r := v.plant.onBody (h.poll rig.motion v.now v.cancelled v.plant.body)
    v.look rig = { v with plant := r.1, call := r.2 } := by
  rw [Trial.look, hcall]
  rfl

/-- The motors are looked at, and go on or stop. -/
lemma look (hv : Moving move log v) :
    Moved move log (v.look rig) ∨ Moving move log (v.look rig) := by
  obtain ⟨h, hcall, hmove⟩ := hv.call
  rw [look_eq hcall]
  rcases h.poll_cases rig.motion v.now v.plant.body v.cancelled with
    ⟨h', hr, hsame, -, -⟩ | ⟨o, hr⟩
  · rw [hr]
    exact .inr ⟨⟨h', rfl, hsame.trans hmove⟩, hv.log⟩
  · obtain ⟨hend, -, hfault, hlog⟩ := h.close_spec v.now v.plant.body o
    rw [hmove] at hend hlog
    rw [hr]
    refine .inl ⟨⟨o, ?_⟩, ?_⟩
    · simp only [Plant.onBody, hend, hfault]
    · simp only [Plant.onBody, hlog, hfault, hv.log]

/-- Whatever happens to a move that goes on, it goes on or has just ended. -/
lemma occur (hv : Moving move log v) (o : Occurrence) :
    Moved move log (v.occur rig o) ∨ Moving move log (v.occur rig o) := by
  cases o with
  | go =>
      rw [Trial.occur]
      cases hready : v.callReady with
      | true =>
          rw [step_of_ready hready]
          exact hv.look
      | false =>
          rw [step_of_not_ready hready]
          exact .inr (hv.congr rfl rfl)
  | pass t => exact .inr (hv.congr rfl rfl)
  | change c => cases c <;> exact .inr (hv.congr rfl rfl)

/-- Once the time of a move is over it ends with the next look. -/
lemma closes (hv : Moving move log v) : ∃ t, (v.live rig [.pass t, .go]).isOver = true := by
  obtain ⟨h, hcall, -⟩ := hv.call
  refine ⟨h.deadline, ?_⟩
  set w : Trial := { v with now := max h.deadline v.now }
  have hend : h.deadline ≤ w.now := le_max_left _ _
  have hready : w.callReady = true := by
    have hwcall : w.call = .running (.holding h) := hcall
    simp [callReady, hwcall, Rig.ready, Hold.ready, moment, hend]
  change (w.step rig).isOver = true
  rw [step_of_ready hready, look_eq (v := w) hcall, Hold.poll]
  cases ho : h.outcome? rig.motion w.now w.cancelled w.plant.body with
  | none => exact absurd hend (Nat.not_le_of_lt (Hold.outcome?_eq_none_iff.mp ho).2.1)
  | some o => simp [Trial.isOver, Plant.onBody, (h.close_spec w.now w.plant.body o).1]

end Moving

/-- Along a life a move goes on, or it has ended at some moment. -/
lemma live_moves (hv : Moved move log v ∨ Moving move log v) (es : List Occurrence) :
    Moving move log (v.live rig es) ∨
      ∃ early late, es = early ++ late ∧
        (∀ pre o, early = pre ++ [o] → (v.live rig pre).isOver = false) ∧
          Moved move log (v.live rig early) := by
  induction es generalizing v with
  | nil => exact hv.symm.imp_right fun hmoved => ⟨[], [], rfl, by simp, hmoved⟩
  | cons o es ih =>
      rcases hv with hmoved | hgo
      · exact .inr ⟨[], o :: es, rfl, by simp, hmoved⟩
      · refine (ih (hgo.occur o)).imp_right fun ⟨early, late, hes, hpre, hmoved⟩ => ?_
        refine ⟨o :: early, late, by rw [hes, List.cons_append], fun pre o' h => ?_, hmoved⟩
        rcases List.append_eq_cons_iff.mp h.symm with ⟨rfl, -⟩ | ⟨rest, rfl, hrest⟩
        · exact hgo.isOver
        · exact hpre rest o' hrest

/-- A refused move leaves everything as it is. -/
lemma begin_of_error {args : List String} {e : Ending}
    (h : move.amount? rig.motion args s.cancelled s.plant.body = .error e) :
    s.begin rig (.move move) args false =
      { s with plant := { s.plant with voice := s.plant.voice.countTask }, call := .ended e } := by
  simp [begin, Rig.execute, moment, Move.begin, h, Plant.onBody]

/-- A move that is allowed, and for which there are words, turns the wheels and gives power; then it
goes on or has just ended. -/
lemma begin_of_fits {args : List String} {amount : Int32}
    (h : move.amount? rig.motion args s.cancelled s.plant.body = .ok amount) (hpos : 0 ≤ amount)
    (hfault : s.plant.body.fault = none) (hfits : move.Fits rig.motion amount) :
    let log := move.firstEvents rig.motion s.now ++ s.plant.body.log
    Moved move log (s.begin rig (.move move) args false) ∨
      Moving move log (s.begin rig (.move move) args false) := by
  obtain ⟨ms, hms⟩ := hfits.exists_time? hpos
  rw [begin_eq_hold h hfault hfits.power?_eq hms, hold]
  exact Moving.look ⟨⟨_, rfl, rfl⟩, rfl⟩

/-- **Which moves are refused, and all that the others do.** Whatever the arguments of a move, the
settings, the reading of the sensor, the fault and the signal are, there is one verdict on it.  If
that is a refusal, the call ends with it at once and nothing else is touched.  If the move is
allowed, the motors work and there are words for its power and its time, then the wheels turn and
the motors get power; along any life the body does nothing more until the call ends, which it can;
and in the moment in which it ends the motors stop once, and after a turn the wheels are put
straight if the motors still work.  Only the first argument counts. -/
theorem begin_exact (rig : Rig) (s : Trial) (move : Move) (args : List String) :
    let u := s.begin rig (.move move) args false
    let judged := move.Judged rig.motion args s.cancelled s.plant.body.distance
    (∃! r, judged r) ∧
    (∀ e, judged (.error e) →
      u = { s with plant := { s.plant with voice := s.plant.voice.countTask }, call := .ended e }) ∧
    (∀ amount, judged (.ok amount) → s.plant.body.fault = none → move.Fits rig.motion amount →
      ∀ es,
        let v := u.live rig es
        let log := move.firstEvents rig.motion s.now ++ s.plant.body.log
        (v.isOver = false ∧ v.plant.body.log = log ∧
          ∃ t, (v.live rig [.pass t, .go]).isOver = true) ∨
        ∃ early late, es = early ++ late ∧
          (∀ pre o, early = pre ++ [o] → (u.live rig pre).isOver = false) ∧
          let w := u.live rig early
          (∃ o, v.ending? = some (move.ending w.plant.body.fault o)) ∧
            v.plant.body.log = move.lastEvents w.plant.body.fault w.now ++ log) ∧
    s.begin rig (.move move) (args.take 1) false = u := by
  intro u judged
  refine ⟨?_, fun e he => begin_of_error (Move.amount?_eq_iff.mpr he), ?_, ?_⟩
  · exact ⟨_, move.judged rig.motion args s.cancelled s.plant.body,
      fun r hr => (Move.amount?_eq_iff.mpr hr).symm⟩
  · intro amount hok hfault hfits es
    have hamount := Move.amount?_eq_iff.mpr hok
    have hpos := (Move.le_limit_of_amount? hamount).1
    rcases live_moves (begin_of_fits hamount hpos hfault hfits) es with
      hgo | ⟨early, late, rfl, hpre, ⟨⟨o, hcall⟩, hlog⟩⟩
    · exact .inl ⟨hgo.isOver, hgo.log, hgo.closes⟩
    · refine .inr ⟨early, late, rfl, hpre, ⟨o, ?_⟩, ?_⟩
      · rw [live_append, ending?, (live_remains hcall late).call, hcall]
      · rw [live_append, (live_remains hcall late).log, hlog]
  · simp only [u, begin, Rig.execute, Move.begin, Move.amount?_take]

end Trial

end RoverPilot
