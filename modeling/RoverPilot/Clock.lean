/-!
Virtual time.

* `Log`: what happened when, the newest entry first;
* `Wait`: a stretch of time after which something happens by itself;
* `Clockwork`: a state in which something may happen at the present time or is due
  at a later one;
* `Clockwork.settle`: everything that can happen at the present time happens;
* `Clockwork.advanceTo`, `Clockwork.advanceUntil`: time passes up to a moment, or
  until a condition holds.

Time passes from one due moment to the next, so that nothing due is late.
-/

namespace RoverPilot

/-! ### Logs -/

/-- What happened when, the newest entry first. -/
abbrev Log (α : Type) := List (Nat × α)

/-- The entries of a log that an earlier state of it did not have, oldest first. -/
def Log.since {α : Type} (new old : Log α) : List (Nat × α) :=
  (new.take (new.length - old.length)).reverse

/-! ### Waits -/

/-- A stretch of time after which something happens by itself. -/
structure Wait where
  since : Nat
  till : Nat
  deriving DecidableEq, Repr

/-- The earlier end of two waits. -/
def earlierEnd : Option Wait → Option Wait → Option Nat
  | some a, some b => some (min a.till b.till)
  | some a, none => some a.till
  | none, b => b.map Wait.till

/-- Whether a wait that began before another one is over.  Of two waits that end at
one time the one that began first ends first. -/
def endsBefore (now : Nat) : Option Wait → Option Wait → Bool
  | some a, some b => decide (a.till ≤ now) && decide (a.since < b.since)
  | _, _ => false

/-! ### Clockworks -/

/-- A state with virtual time. -/
structure Clockwork (σ : Type) where
  /-- The present time. -/
  now : σ → Nat
  /-- Whether something can happen at the present time. -/
  ready : σ → Bool
  /-- One thing happens. -/
  step : σ → σ
  /-- The next time at which something can happen by itself. -/
  due : σ → Option Nat
  /-- The present time becomes a later one. -/
  passTo : Nat → σ → σ
  /-- A number of steps that suffices at the present time. -/
  backlog : σ → Nat

namespace Clockwork

variable {σ : Type} (c : Clockwork σ)

/-- At most the given number of steps at the present time. -/
def settleIn : Nat → σ → σ
  | 0, s => s
  | n + 1, s => if c.ready s then settleIn n (c.step s) else s

/-- Everything that can happen at the present time happens. -/
def settle (s : σ) : σ := c.settleIn (c.backlog s) s

/-- Nothing happens where nothing can. -/
theorem settleIn_of_not_ready {s : σ} (h : c.ready s = false) (n : Nat) : c.settleIn n s = s := by
  cases n with
  | zero => rfl
  | succ n => simp [settleIn, h]

/-- What every step keeps is kept while things settle. -/
theorem settle_induction {P : σ → Prop} (step : ∀ s, P s → P (c.step s)) {s : σ} (h : P s) :
    P (c.settle s) := by
  have hin : ∀ n s, P s → P (c.settleIn n s) := by
    intro n
    induction n with
    | zero => exact fun s h => h
    | succ n ih =>
      intro s h
      rw [settleIn]
      split
      · exact ih _ (step s h)
      · exact h
  exact hin _ s h

/-- The next due moment after the present one and before `limit`. -/
def nextBefore? (limit : Nat) (s : σ) : Option Nat :=
  (c.due s).filter fun t => c.now s < t && t < limit

/-- Time passes up to `target` over at most the given number of due moments. -/
def advanceIn (target : Nat) : Nat → σ → σ
  | 0, s => c.settle (c.passTo target (c.settle s))
  | n + 1, s =>
    let s := c.settle s
    match c.nextBefore? target s with
    | some t => advanceIn target n (c.passTo t s)
    | none => c.settle (c.passTo target s)

/-- Time passes up to `target`, and everything due until then happens. -/
def advanceTo (target : Nat) (s : σ) : σ := c.advanceIn target (target - c.now s) s

/-- Time passes over at most the given number of due moments before `limit`, until
the condition holds or nothing is due. -/
def advanceUntilIn (done : σ → Bool) (limit : Nat) : Nat → σ → σ
  | 0, s => c.settle s
  | n + 1, s =>
    let s := c.settle s
    if done s then s
    else match c.nextBefore? limit s with
      | some t => advanceUntilIn done limit n (c.passTo t s)
      | none => s

/-- Time passes until the condition holds, before `limit`. -/
def advanceUntil (done : σ → Bool) (limit : Nat) (s : σ) : σ :=
  c.advanceUntilIn done limit (limit - c.now s) s

end Clockwork

end RoverPilot
