import Mathlib.Tactic
import RoverPilot.Executor.Session

/-!
Runs of the executor: control calls, the worker, the background, time and the surroundings
go on in whatever order.

* `Action`, `World.act`: one thing that happens, and the world after it.  What a control call
  changes and the wake-up at its end are two actions, so that other things may happen
  between them;
* `World.fresh`, `World.run`: a world before anything happens, and the world after a list of
  actions;
* `World.Reaches`: some run leads from one world to another;
* `World.Lasting`: a relation to later worlds that every action keeps to, disturbances apart;
  `World.Reaches.lasting` is the widest one;
* `World.Lasting.add`, `World.Lasting.sleep`, `World.Lasting.shutDown`: whatever happens in a
  session keeps to it, so what holds of all runs holds of every session.
-/

namespace RoverPilot

/-! ### Actions -/

/-- One thing that may happen in a world. -/
inductive Action (M : Machinery) where
  /-- A call of the parser changes the board. -/
  | call (c : Call)
  /-- A stop by the operator changes the board. -/
  | stop
  /-- A shutdown changes the board. -/
  | close
  /-- A control call wakes the worker. -/
  | rouse
  /-- The worker does the next thing. -/
  | work
  /-- The background goes on. -/
  | background
  /-- Time passes. -/
  | pass (t : Nat)
  /-- What the handlers act on changes by itself. -/
  | disturb (p : M.Plant)
  /-- A message leaves the channel. -/
  | receive
  /-- The receiving end of the channel goes. -/
  | hangUp

/-- Whether an action changes what the handlers act on from outside. -/
def Action.disturbs {M : Machinery} : Action M → Bool
  | .disturb _ => true
  | _ => false

/-- Whether an action is neither a control call, nor its wake-up, nor the worker's. -/
def Action.ambient {M : Machinery} : Action M → Bool
  | .background => true
  | .pass _ => true
  | .disturb _ => true
  | .receive => true
  | .hangUp => true
  | _ => false

namespace World

variable {M : Machinery}

/-- A world before anything happens. -/
def fresh (plant : M.Plant) (channel : Channel) (reportTimeout : Nat) : World M :=
  { plant, channel, reportTimeout }

/-- The world after an action.  A call of the parser changes nothing once the executor is
shut down. -/
def act (w : World M) : Action M → World M
  | .call c => if w.board.closing then w else (w.update c).1
  | .stop => w.stopUpdate
  | .close => w.closeUpdate
  | .rouse => w.rouse
  | .work => w.work
  | .background => w.background
  | .pass t => w.passTo t
  | .disturb p => { w with plant := p }
  | .receive => { w with channel := w.channel.receive.2 }
  | .hangUp => { w with channel := w.channel.close }

/-- The world after a list of actions. -/
def run (w : World M) (as : List (Action M)) : World M := as.foldl act w

@[simp] theorem run_nil (w : World M) : w.run [] = w := rfl

@[simp] theorem run_cons (w : World M) (a : Action M) (as : List (Action M)) :
    w.run (a :: as) = (w.act a).run as := rfl

@[simp] theorem run_append (w : World M) (as bs : List (Action M)) :
    w.run (as ++ bs) = (w.run as).run bs := by
  simp [run]

/-! ### Reaching -/

/-- Some run leads from one world to another. -/
def Reaches (w v : World M) : Prop := ∃ as, v = w.run as

namespace Reaches

theorem refl (w : World M) : w.Reaches w := ⟨[], rfl⟩

theorem trans {u v w : World M} (h : u.Reaches v) (k : v.Reaches w) : u.Reaches w := by
  obtain ⟨as, rfl⟩ := h
  obtain ⟨bs, rfl⟩ := k
  exact ⟨as ++ bs, (run_append u as bs).symm⟩

theorem of_act (w : World M) (a : Action M) : w.Reaches (w.act a) := ⟨[a], rfl⟩

end Reaches

/-- A relation between a world and later ones that every action keeps to, disturbances
apart. -/
structure Lasting (R : World M → World M → Prop) : Prop where
  refl (w : World M) : R w w
  trans {u v w : World M} (h : R u v) (k : R v w) : R u w
  act (w : World M) {a : Action M} (ha : a.disturbs = false) : R w (w.act a)

theorem Reaches.lasting : Lasting (Reaches (M := M)) where
  refl := .refl
  trans := .trans
  act w a _ := .of_act w a

namespace Lasting

variable {R : World M → World M → Prop} (hR : Lasting R) (w : World M)

include hR

/-- A control call that changes the board and then wakes the worker. -/
theorem rouse {a : Action M} (ha : a.disturbs = false) : R w (w.act a).rouse :=
  hR.trans (hR.act w ha) (hR.act (w.act a) (a := .rouse) rfl)

/-- A whole call of the parser is the change on the board and then the wake-up. -/
theorem call (c : Call) : R w (w.call c).2 := by
  rw [World.call]
  split
  · exact hR.refl w
  · rename_i hopen
    have hact : w.act (.call c) = (w.update c).1 := by simp [World.act, hopen]
    simp only
    split
    · exact hact ▸ hR.rouse w (a := .call c) rfl
    · exact hact ▸ hR.act w (a := .call c) rfl

theorem control (c : Control) : R w (w.control c).2 := by
  cases c with
  | call c => exact hR.call w c
  | stopNow => exact hR.rouse w (a := .stop) rfl

theorem controls (cs : List Control) : R w (w.controls cs) := by
  induction cs generalizing w with
  | nil => exact hR.refl w
  | cons c cs ih => exact hR.trans (hR.control w c) (ih _)

theorem close : R w w.close := hR.rouse w (a := .close) rfl

end Lasting

end World

/-! ### Sessions -/

namespace Clockwork

variable {σ : Type} (c : Clockwork σ)

/-- What steps and the passing of time keep is kept while time passes up to a moment. -/
theorem advanceTo_induction {P : σ → Prop} (step : ∀ s, P s → P (c.step s))
    (pass : ∀ t s, P s → P (c.passTo t s)) (target : Nat) {s : σ} (h : P s) :
    P (c.advanceTo target s) := by
  have hin : ∀ n s, P s → P (c.advanceIn target n s) := by
    intro n
    induction n with
    | zero =>
        intro s h
        exact c.settle_induction step (pass _ _ (c.settle_induction step h))
    | succ n ih =>
        intro s h
        have hs := c.settle_induction step h
        rw [advanceIn]
        split
        · exact ih _ (pass _ _ hs)
        · exact c.settle_induction step (pass _ _ hs)
  exact hin _ s h

/-- What steps and the passing of time keep is kept while time passes until a condition
holds. -/
theorem advanceUntil_induction {P : σ → Prop} (step : ∀ s, P s → P (c.step s))
    (pass : ∀ t s, P s → P (c.passTo t s)) (done : σ → Bool) (limit : Nat) {s : σ} (h : P s) :
    P (c.advanceUntil done limit s) := by
  have hin : ∀ n s, P s → P (c.advanceUntilIn done limit n s) := by
    intro n
    induction n with
    | zero => exact fun s h => c.settle_induction step h
    | succ n ih =>
        intro s h
        have hs := c.settle_induction step h
        rw [advanceUntilIn]
        split
        · exact hs
        · split
          · exact ih _ (pass _ _ hs)
          · exact hs
  exact hin _ s h

end Clockwork

namespace World.Lasting

variable {M : Machinery} {R : World M → World M → Prop} (hR : Lasting R) (s : Session M)

include hR

/-- The interjection, a step of the worker or a step of the background. -/
theorem sessionStep : R s.world s.step.world := by
  rw [Session.step]
  split
  · exact hR.controls s.world _
  · show R s.world s.world.step
    rw [World.step]
    split
    · exact hR.act s.world (a := .work) rfl
    · exact hR.act s.world (a := .background) rfl

theorem send (calls : List Call) : R s.world (s.send calls).world :=
  hR.controls s.world _

/-- A piece of text that arrives. -/
theorem add (piece : List Char) : R s.world (s.add piece).world :=
  hR.controls s.world _

/-- The end of a turn. -/
theorem finish : R s.world s.finish.2.world :=
  hR.controls s.world _

theorem ask (c : Control) : R s.world (s.ask c).2.world :=
  hR.control s.world c

theorem receive : R s.world s.receive.2.world :=
  hR.act s.world (a := .receive) rfl

/-- All messages leave, one after another. -/
theorem drain : R s.world s.drain.2.world := by
  have hall (ms : List (List Char)) : ∀ w : World M, w.channel.messages = ms →
      R w { w with channel := w.channel.drain.2 } := by
    induction ms with
    | nil =>
        intro w hw
        have hdrain : w.channel.drain.2 = w.channel := by rw [Channel.drain, ← hw]
        rw [hdrain]
        exact hR.refl w
    | cons m ms ih =>
        intro w hw
        have hrest : (w.act .receive).channel.messages = ms := by
          simp [World.act, Channel.receive, hw]
        exact hR.trans (hR.act w (a := .receive) rfl) (ih _ hrest)
  exact hall _ s.world rfl

theorem hangUp : R s.world s.hangUp.world :=
  hR.act s.world (a := .hangUp) rfl

/-- Time that passes in a session. -/
theorem sleep (ms : Nat) : R s.world (s.sleep ms).world :=
  (Session.clockwork M).advanceTo_induction (P := fun t => R s.world t.world)
    (fun t h => hR.trans h (hR.sessionStep t))
    (fun n t h => hR.trans h (hR.act t.world (a := .pass n) rfl)) _ (hR.refl _)

/-- A shutdown of a session, with all that happens until the worker has ended. -/
theorem shutDown : R s.world s.shutDown.world :=
  (Session.clockwork M).settle_induction (P := fun t => R s.world t.world)
    (fun t h => hR.trans h (hR.sessionStep t))
    ((Session.clockwork M).advanceUntil_induction (P := fun t => R s.world t.world)
      (fun t h => hR.trans h (hR.sessionStep t))
      (fun n t h => hR.trans h (hR.act t.world (a := .pass n) rfl)) _ _ (hR.close s.world))

end World.Lasting

end RoverPilot
