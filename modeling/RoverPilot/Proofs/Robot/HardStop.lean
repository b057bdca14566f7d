import Mathlib.Tactic
import RoverPilot.Proofs.Executor.Preemption
import RoverPilot.Proofs.Robot.Rest

/-!
A stop keeps the motors off until a command of another activation begins.

* `World.Halts`, `World.Halts.spec`: the actions that stop the robot, and what they do at once;
* `Closeup.live`: lives seen close up, in which a stop may come between the last look at the board
  before a command and its beginning;
* `Closeup.live_unpowered`: while commands begin only under signals that are given, the motors get
  no power;
* `Closeup.live_halted`: after a stop the motors are off, and they get no power before a command
  begins that is not of the activation that was stopped.
-/

namespace RoverPilot

open History

/-! ### Stops -/

section Stops

variable {M : Machinery}

/-- An action stops the robot: the operator does, or the preempting command as the first one of
a waiting batch. -/
inductive World.Halts (w : World M) : Action M → Prop where
  | operator : w.Halts .stop
  | preemption (c : Command) (a b : BatchId) (closed : Bool) (hopen : w.board.closing = false)
      (hl : w.board.lifecycle = .collecting a b closed)
      (hc : c.hasName preemptingName = true) : w.Halts (.call (.enqueue c))

lemma World.Halts.ne_work {w : World M} {a : Action M} (ha : w.Halts a) : a ≠ .work := by
  cases ha <;> simp

/-- The motors stop at once, and the executing batch is told to stop. -/
lemma World.Halts.spec {w : World M} {a : Action M} (ha : w.Halts a) (hw : w.ledger.Feasible) :
    (w.act a).plant = M.halt w.now w.plant ∧
      ∀ t, w.board.token = some t → t ∈ (w.act a).cancelled := by
  cases ha with
  | operator =>
      cases htoken : w.board.token <;>
        simp [World.act, World.stopUpdate, htoken, World.halt, World.note, World.cancel]
  | preemption c b i closed hopen hl hc =>
      obtain ⟨t, hactive, htaken, -⟩ := World.takenOver_act hw hopen hl hc
      refine ⟨htaken.halted, fun u hu => ?_⟩
      have htoken : w.board.token = some t := (Board.active?_eq_some_iff.mp hactive).1
      rw [htoken] at hu
      cases hu
      exact htaken.cancelled

end Stops

/-! ### Motors without power -/

namespace World

variable {rig : Rig} {w v : World rig.machinery}

/-- Unless a command begins, the executor gives the motors no power. -/
lemma Touch.unpowered (h : Touch w v)
    (hno : ∀ t c k new, v.history ≠ w.history ++ .began t c k :: new) :
    w.body.Unpowered v.body := by
  cases h with
  | nothing hplant | background hplant =>
      rw [body, body, hplant]
      exact .refl _
  | halt hplant =>
      rw [body, body, hplant]
      exact .stop _ _
  | execute t c k new hrest hresolve hsignal hhistory => exact absurd hhistory (hno t c k new)
  | finish t k hrest hplant =>
      have hsame := (Rig.finish_bodiless w.plant (w.moment t) k).body
      rw [body, body, hplant]
      exact hsame ▸ .refl _
  | resume t c? a hat hplant =>
      rw [body, body, hplant]
      exact rig.resume_unpowered w.plant (w.moment t) a
  | giveUp t c a a' hat hsignal hresume hplant =>
      rw [body, body, hplant]
      exact rig.resume_unpowered w.plant (w.moment t) a

/-- Neither do the surroundings. -/
lemma happen_unpowered (e : Happening rig)
    (hno : ∀ t c k new, (w.happen e).history ≠ w.history ++ .began t c k :: new) :
    w.body.Unpowered (w.happen e).body := by
  cases e with
  | act a ha => exact (w.touch_act ha).unpowered hno
  | distance cm => exact ⟨.inl rfl, rfl⟩
  | fault detail => exact ⟨.inl rfl, rfl⟩

/-- A command that begins under a signal that is given leaves the motors without power. -/
lemma launch_unpowered {b : BatchId} {t : Token} {c : Command} {k : Handler}
    (ht : t ∈ w.cancelled) :
    w.body.Unpowered (World.body (World.launch (M := rig.machinery) w b t c k)) := by
  obtain ⟨hplant, -⟩ := World.launch_spec (M := rig.machinery) w b t c k
  rw [body, body, hplant]
  exact rig.execute_unpowered w.plant (w.moment t) ((w.isCancelled_iff t).mpr ht) k c.args

end World

/-! ### Lives seen close up -/

namespace Closeup

variable {rig : Rig}

/-- What happens to a robot, seen close up. -/
def happen (s : Closeup rig.machinery) (e : Happening rig) : Closeup rig.machinery :=
  s.act (s.world.action e)

/-- A life, seen close up. -/
def live (s : Closeup rig.machinery) (es : List (Happening rig)) : Closeup rig.machinery :=
  es.foldl happen s

@[simp] lemma live_nil (s : Closeup rig.machinery) : s.live [] = s := rfl

@[simp] lemma live_cons (s : Closeup rig.machinery) (e : Happening rig)
    (es : List (Happening rig)) : s.live (e :: es) = (s.happen e).live es := rfl

/-- A life is one seen close up in which every command begins as soon as it is found fit. -/
theorem exists_closeup_live (w : World rig.machinery) (es : List (Happening rig)) :
    ∃ es', w.closeup.live es' = (w.live es).closeup := by
  induction es generalizing w with
  | nil => exact ⟨[], rfl⟩
  | cons e es ih =>
      obtain ⟨es', hes'⟩ := ih (w.happen e)
      rcases w.closeup_act (w.action e) with hact | ⟨hwork, hact⟩
      · have hfirst : w.closeup.happen e = (w.happen e).closeup := hact
        exact ⟨e :: es', by rw [live_cons, hfirst, hes', World.live_cons]⟩
      · have hfirst : (w.closeup.happen (.act .work rfl)).happen (.act .work rfl) =
            (w.happen e).closeup := by
          rw [World.happen, hwork]
          exact hact
        exact ⟨.act .work rfl :: .act .work rfl :: es', by
          rw [live_cons, live_cons, hfirst, hes', World.live_cons]⟩

/-- A life seen close up is a run seen close up. -/
lemma run_of_live (s : Closeup rig.machinery) (es : List (Happening rig)) :
    ∃ as, s.live es = s.run as := by
  induction es generalizing s with
  | nil => exact ⟨[], rfl⟩
  | cons e es ih =>
      obtain ⟨as, has⟩ := ih (s.happen e)
      exact ⟨s.world.action e :: as, has⟩

variable {s : Closeup rig.machinery}

lemma happen_unpowered (hs : s.Sound) (e : Happening rig) {new : List (Event rig.machinery)}
    (hnew : (s.happen e).world.history = s.world.history ++ new)
    (hno : ∀ t c k, .began t c k ∈ new → t ∈ s.world.cancelled) :
    s.world.body.Unpowered (s.happen e).world.body := by
  have hbrings := s.brings (s.world.action e)
  rw [happen] at hnew ⊢
  generalize s.act (s.world.action e) = v at hbrings hnew ⊢
  generalize ha : s.world.action e = a at hbrings
  cases hbrings with
  | begins b t c k =>
      obtain ⟨rest, hrest, -⟩ := s.world.history_launch b t c k
      have hbegan := List.append_cancel_left (hnew.symm.trans hrest)
      exact World.launch_unpowered (hno t c k (by simp [hbegan]))
  | fits => exact .refl _
  | afar =>
      subst ha
      refine World.happen_unpowered e fun t c k rest hbegan => ?_
      -- a command that is looked at and begins in one step does so under a signal not given
      have hsteps := s.world.steps_act (s.world.action e) hs.feasible.signalled
      obtain rfl := List.append_cancel_left (hnew.symm.trans hbegan)
      have hsame := hsteps.begun_of_cancelled (hno t c k (by simp))
      have hhistory : (s.world.act (s.world.action e)).history = _ := hbegan
      simp [World.ledger_history, hhistory] at hsame

/-- While commands begin only under signals that are given, the motors get no power. -/
lemma live_unpowered (hs : s.Sound) (es : List (Happening rig)) {new : List (Event rig.machinery)}
    (hnew : (s.live es).world.history = s.world.history ++ new)
    (hno : ∀ t c k, .began t c k ∈ new → t ∈ s.world.cancelled) :
    s.world.body.Unpowered (s.live es).world.body := by
  induction es generalizing s new with
  | nil => exact .refl s.world.body
  | cons e es ih =>
      have hv : (s.happen e).Sound := hs.act _
      obtain ⟨new₁, h₁⟩ : s.world.history <+: (s.happen e).world.history :=
        hs.history_isPrefix_act _
      obtain ⟨new₂, h₂⟩ : (s.happen e).world.history <+: ((s.happen e).live es).world.history := by
        obtain ⟨as, has⟩ := (s.happen e).run_of_live es
        exact has ▸ hv.history_isPrefix as
      obtain rfl : new = new₁ ++ new₂ := by
        rw [live_cons, ← h₂, ← h₁, List.append_assoc] at hnew
        exact (List.append_cancel_left hnew).symm
      have hfirst := happen_unpowered hs e h₁.symm fun t c k hmem =>
        hno t c k (List.mem_append_left _ hmem)
      refine hfirst.trans (ih hv h₂.symm fun t c k hmem => ?_)
      exact hs.cancelled_subset_act _ (hno t c k (List.mem_append_right _ hmem))

/-- Then no command begins but the one that was found fit before. -/
lemma begun_isPrefix_held (hs : s.Sound) (es : List (Happening rig))
    {new : List (Event rig.machinery)}
    (hnew : (s.live es).world.history = s.world.history ++ new)
    (hno : ∀ t c k, .began t c k ∈ new → t ∈ s.world.cancelled) (t : Token) :
    begun t new <+: s.held t := by
  by_cases ht : t ∈ s.world.cancelled
  · obtain ⟨as, has⟩ := s.run_of_live es
    have hbegun := begun_run hs ht as
    rw [← has, hnew] at hbegun
    have hsplit : begun t (s.world.history ++ new) = begun t s.world.history ++ begun t new :=
      view_append _ _ _
    rw [List.append_cancel_left (hsplit.symm.trans hbegun)]
    split
    · exact List.prefix_refl _
    · exact List.nil_prefix
  · have hnone : begun t new = [] := List.eq_nil_iff_forall_not_mem.mpr fun c hc => by
      obtain ⟨e, he, hbegun⟩ := mem_view.mp hc
      cases e with
      | began u c' k =>
          obtain ⟨rfl, -⟩ : u = t ∧ c' = c := by simpa using hbegun
          exact ht (hno u c' k he)
      | _ => cases hbegun
    exact hnone ▸ List.nil_prefix

end Closeup

/-- When a stop returns the motors are off, whatever the robot was at and whether its motors are
faulty or not, also if the worker is about to begin a command that it found fit.  As long as no
command of another activation begins, no command begins but that one, and the motors get no
power. -/
theorem Closeup.live_halted (rig : Rig) (p : Plant) (ch : Channel) (d : Nat)
    (es : List (Happening rig)) (a : Action rig.machinery)
    (ha : ((World.fresh p ch d : World rig.machinery).closeup.live es).world.Halts a) :
    let s := (World.fresh p ch d : World rig.machinery).closeup.live es
    let v := s.act a
    v.world.body.power = 0 ∧ ∀ es' : List (Happening rig),
      ∃ new, (v.live es').world.history = v.world.history ++ new ∧
        ((∀ t c k, .began t c k ∈ new → s.world.board.token = some t) →
          (∀ t, begun t new <+: s.held t) ∧ (v.live es').world.body.power = 0 ∧
            (v.live es').world.body.powers = s.world.body.powers) := by
  intro s v
  have hs : s.Sound := by
    obtain ⟨as, has⟩ := (World.fresh p ch d : World rig.machinery).closeup.run_of_live es
    rw [show s = _ from has]
    exact sound_run p ch d as
  have hv : v.Sound := hs.act a
  have hact : v = { s with world := s.world.act a } := s.act_of_ne ha.ne_work
  obtain ⟨hhalted, hcancelled⟩ := ha.spec hs.feasible
  have hbody : v.world.body = s.world.body.stop s.world.now := by
    rw [hact]
    exact congrArg Plant.body hhalted
  have hoff : v.world.body.power = 0 := by rw [hbody, Body.power_stop]
  refine ⟨hoff, fun es' => ?_⟩
  obtain ⟨as, has⟩ := v.run_of_live es'
  obtain ⟨new, hnew⟩ : v.world.history <+: (v.live es').world.history :=
    has ▸ hv.history_isPrefix as
  refine ⟨new, hnew.symm, fun hown => ?_⟩
  have hgiven (t : Token) (c : Command) (k : Handler) (hbegan : .began t c k ∈ new) :
      t ∈ v.world.cancelled := by
    rw [hact]
    exact hcancelled t (hown t c k hbegan)
  have hunpowered := live_unpowered hv es' hnew.symm hgiven
  have hstop : s.world.body.Unpowered v.world.body := hbody ▸ .stop s.world.body s.world.now
  refine ⟨fun t => ?_, hunpowered.power_eq_zero hoff, (hstop.trans hunpowered).powers⟩
  have hheld : v.held t = s.held t := hs.held_act ha.ne_work
  exact hheld ▸ begun_isPrefix_held hv es' hnew.symm hgiven t

/-- The standard robot is to move back, and the move was found fit and has not begun.  The operator
stops the robot, and the move begins after that: it is refused, and the motors stay off. -/
theorem Closeup.live_halted_backing :
    let s := standardWorld.closeup.live backing
    let v := (s.act .stop).live [.act .work rfl]
    s.world.Halts .stop ∧ s.held 0 = [⟨"BACK", ["50"]⟩] ∧ (s.act .stop).world.body.power = 0 ∧
      begun 0 v.world.history = [⟨"BACK", ["50"]⟩] ∧ v.world.body.power = 0 ∧
      v.world.body.powers = [] := by
  intro s v
  have hheld : s.held 0 = [⟨"BACK", ["50"]⟩] := by decide +kernel
  have hpowers : s.world.body.powers = [] := by decide +kernel
  have hbegun : begun 0 v.world.history = [⟨"BACK", ["50"]⟩] := by decide +kernel
  have hhistory : v.world.history = (s.act .stop).world.history ++
      [.began 0 ⟨"BACK", ["50"]⟩ (.move .back), .ended 0 ⟨"BACK", ["50"]⟩ (.returned .interrupted)] :=
    rfl
  obtain ⟨hstopped, hlater⟩ := Closeup.live_halted {} _ _ _ backing .stop .operator
  obtain ⟨new, hnew, hkeep⟩ := hlater [.act .work rfl]
  obtain rfl : new = _ := List.append_cancel_left (hnew.symm.trans hhistory)
  obtain ⟨-, hoff, hsame⟩ := hkeep fun t c k hbegan => by
    rcases List.mem_pair.mp hbegan with heq | heq
    · cases heq
      decide +kernel
    · cases heq
  exact ⟨.operator, hheld, hstopped, hbegun, hoff, hsame.trans hpowers⟩

end RoverPilot
