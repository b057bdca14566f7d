import Mathlib.Tactic
import RoverPilot.Proofs.Executor.Closeup

/-!
What the executing batch receives.

* `World.SameIntake`, `World.sameIntake_work`: the worker leaves alone what the board receives,
  unless it retires a batch;
* `World.Receiving`, `Ledger.Shut`: an activation receives commands, or none any more;
* `Action.command?`, `Action.endsIntake`: the command that an action brings, and the actions
  that end what a batch receives;
* `Closeup.StaysOpen`, `Closeup.exists_intake`: of all actions that follow, those up to the end of
  the batch's intake are the ones whose commands it receives, in order.
-/

namespace RoverPilot

open History

variable {M : Machinery}

/-! ### Actions -/

/-- The command that an action brings. -/
def Action.command? : Action M → Option Command
  | .call (.enqueue c) => some c
  | _ => none

/-- Whether an action ends what the newest batch may receive: another header, the end of the
stream, or a shutdown. -/
def Action.endsIntake : Action M → Bool
  | .call (.start _) => true
  | .call .finish => true
  | .close => true
  | _ => false

/-- The commands that actions bring, in order. -/
def Action.commands (as : List (Action M)) : List Command := as.filterMap Action.command?

namespace Action

@[simp] lemma commands_nil : commands ([] : List (Action M)) = [] := rfl

@[simp] lemma commands_cons (a : Action M) (as : List (Action M)) :
    commands (a :: as) = a.command?.toList ++ commands as := by
  cases h : a.command? <;> simp [commands, h]

end Action

/-! ### The worker and the intake -/

namespace World

/-- The board receives commands as before, and has accepted none meanwhile. -/
structure SameIntake (w v : World M) : Prop where
  lifecycle : v.board.lifecycle = w.board.lifecycle
  token : v.board.token = w.board.token
  closing : v.board.closing = w.board.closing
  accepted : ∀ t, accepted t v.history = accepted t w.history

lemma SameIntake.trans {u v w : World M} (h : SameIntake u v) (k : SameIntake v w) :
    SameIntake u w where
  lifecycle := k.lifecycle.trans h.lifecycle
  token := k.token.trans h.token
  closing := k.closing.trans h.closing
  accepted t := (k.accepted t).trans (h.accepted t)

section

variable (w : World M) (b : BatchId) (t : Token) (c : Command)

lemma sameIntake_noticePreemption : SameIntake w w.noticePreemption := by
  rw [noticePreemption]
  split <;> exact ⟨rfl, rfl, rfl, fun _ => rfl⟩

lemma sameIntake_noticeCancellation : SameIntake w (w.noticeCancellation t) := by
  rw [noticeCancellation]
  split
  · exact ⟨rfl, rfl, rfl, fun u => by simp [history, note]⟩
  · exact ⟨rfl, rfl, rfl, fun _ => rfl⟩

lemma sameIntake_attend : SameIntake w (w.attend b t) := by
  rcases w.attend_cases b t with ⟨_, _, _, _, h⟩ | ⟨_, _, _, h⟩ | ⟨_, h⟩ <;> rw [h] <;>
    exact ⟨rfl, rfl, rfl, fun _ => rfl⟩

lemma sameIntake_look (hs : w.board.Signalled) : SameIntake w w.look := by
  refine w.sameIntake_noticePreemption.trans ?_
  have hboard := w.noticePreemption_spec.1
  rcases w.look_cases hs with ⟨-, hlook⟩ | ⟨b, t, -, hlook⟩
  · rw [hlook, ← hboard]
    exact ⟨rfl, rfl, rfl, fun _ => rfl⟩
  · rw [hlook]
    exact (sameIntake_noticeCancellation _ t).trans (sameIntake_attend _ b t)

lemma sameIntake_afterCall (r : M.Plant × Progress M.Activity) :
    SameIntake w (w.afterCall b t c r) := by
  obtain ⟨p, a | e⟩ := r
  · exact ⟨rfl, rfl, rfl, fun _ => rfl⟩
  · exact ⟨rfl, rfl, rfl, fun u => by simp [afterCall, history, note, conclude]⟩

lemma sameIntake_begin : SameIntake w (w.begin b t c) := by
  rcases w.begin_cases b t c with ⟨-, h⟩ | ⟨k, -, ⟨-, h⟩ | ⟨-, h⟩⟩ <;> rw [h]
  · exact ⟨rfl, rfl, rfl, fun u => by simp [history, note, conclude]⟩
  · exact ⟨rfl, rfl, rfl, fun u => by simp [history, note, conclude]⟩
  · refine SameIntake.trans ?_ (sameIntake_afterCall _ b t c _)
    exact ⟨rfl, rfl, rfl, fun u => by simp⟩

lemma sameIntake_afterLook (r : M.Plant × Progress M.Activity) :
    SameIntake w (w.afterLook b t c r) := by
  rw [afterLook]
  split
  · exact w.sameIntake_afterCall b t c _
  · split
    · exact ⟨rfl, rfl, rfl, fun u => by simp [history, note, conclude]⟩
    · exact w.sameIntake_afterCall b t c _

lemma sameIntake_launch (k : M.Handler) : SameIntake w (w.launch b t c k) := by
  rw [launch]
  refine SameIntake.trans ?_ (sameIntake_afterLook _ b t c _)
  exact ⟨rfl, rfl, rfl, fun u => by simp⟩

lemma sameIntake_afterFinish (ks : List M.Handler) (r : M.Plant × Progress M.Activity) :
    SameIntake w (w.afterFinish b t ks r) := by
  obtain ⟨p, a | e⟩ := r
  · exact ⟨rfl, rfl, rfl, fun _ => rfl⟩
  · exact ⟨rfl, rfl, rfl, fun u => by simp [afterFinish, history, note, enter]⟩

lemma sameIntake_finishNext (k : M.Handler) (ks : List M.Handler) :
    SameIntake w (w.finishNext b t k ks) := by
  rw [finishNext]
  refine SameIntake.trans ?_ (sameIntake_afterFinish _ b t ks _)
  exact ⟨rfl, rfl, rfl, fun u => by simp [history, note]⟩

lemma sameIntake_deliver (r : Result) (deadline : Nat) :
    SameIntake w (w.deliver t r deadline) := by
  rw [deliver]
  split
  · exact ⟨rfl, rfl, rfl, fun u => by simp [history, note, enter]⟩
  · exact ⟨rfl, rfl, rfl, fun u => by simp [history, note, enter]⟩
  · split
    · exact ⟨rfl, rfl, rfl, fun u => by simp [history, note, enter]⟩
    · exact ⟨rfl, rfl, rfl, fun _ => rfl⟩

/-- The worker leaves alone what the board receives, unless it retires a batch. -/
theorem sameIntake_work (hs : w.board.Signalled)
    (hp : ∀ b t, w.worker.phase ≠ .finishing b t []) : SameIntake w w.work := by
  rw [work]
  cases hphase : w.worker.phase with
  | looking => exact w.sameIntake_look hs
  | parked =>
      simp only
      split <;> exact ⟨rfl, rfl, rfl, fun _ => rfl⟩
  | popped b t c => exact w.sameIntake_begin b t c
  | running b t c a => exact w.sameIntake_afterLook b t c _
  | finishing b t ks =>
      cases ks with
      | nil => exact absurd hphase (hp b t)
      | cons k ks => exact w.sameIntake_finishNext b t k ks
  | finishingCall b t a ks => exact w.sameIntake_afterFinish b t ks _
  | reporting t r deadline => exact w.sameIntake_deliver t r deadline
  | exited => exact ⟨rfl, rfl, rfl, fun _ => rfl⟩

end

end World

/-! ### The end of an intake -/

namespace Ledger

variable {l l' : Ledger M} {t : Token}

/-- An activation receives no more commands. -/
def Shut (t : Token) (l : Ledger M) : Prop :=
  t < l.tokens ∧ (l.board.token = some t → l.board.lifecycle.isAccepting = false)

/-- It never receives one again. -/
lemma Step.shut (hs : Step l l') (h : Shut t l) :
    Shut t l' ∧ accepted t l'.history = accepted t l.history := by
  obtain ⟨hlt, hshut⟩ := h
  have hne : l.tokens ≠ t := Nat.ne_of_gt hlt
  refine ⟨⟨Nat.lt_of_lt_of_le hlt hs.tokens_le, fun ht => ?_⟩, ?_⟩
  · cases hs with
    | finish | close => simp
    | _ => simp_all [Lifecycle.isAccepting]
  · cases hs with
    | accept b u c hopen hl hu =>
        have hnot : u ≠ t := by
          rintro rfl
          simpa [hl, Lifecycle.isAccepting] using hshut hu
        simp [hnot]
    | _ => simp

lemma Steps.shut (hs : Steps l l') (h : Shut t l) :
    Shut t l' ∧ accepted t l'.history = accepted t l.history := by
  induction hs with
  | refl => exact ⟨h, rfl⟩
  | tail _ hs ih =>
      obtain ⟨hshut, haccepted⟩ := hs.shut ih.1
      exact ⟨hshut, haccepted.trans ih.2⟩

lemma Feasible.shut_of_reported (h : l.Feasible) {r : Result}
    (hr : (t, r) ∈ reports l.history) : Shut t l := by
  obtain ⟨hlt, htoken⟩ := h.closed_of_reported hr
  exact ⟨hlt, fun ht => absurd ht htoken⟩

end Ledger

/-! ### The intake of a batch -/

namespace World

variable {w : World M} {t : Token}

/-- The executing activation receives commands. -/
structure Receiving (w : World M) (t : Token) : Prop where
  token : w.board.token = some t
  accepting : w.board.lifecycle.isAccepting = true
  opened : w.board.closing = false

lemma Receiving.of_sameIntake {v : World M} (h : w.Receiving t) (hsame : SameIntake w v) :
    v.Receiving t where
  token := hsame.token.trans h.token
  accepting := hsame.lifecycle ▸ h.accepting
  opened := hsame.closing.trans h.opened

lemma Receiving.exists_executing (h : w.Receiving t) : ∃ b, w.board.lifecycle = .executing b := by
  cases hl : w.board.lifecycle with
  | executing b => exact ⟨b, rfl⟩
  | _ => simpa [hl, Lifecycle.isAccepting] using h.accepting

/-- After a command has come it has been accepted. -/
lemma Receiving.enqueue (h : w.Receiving t) (c : Command) :
    (w.enqueue c).1.Receiving t ∧
      accepted t (w.enqueue c).1.history = accepted t w.history ++ [c] := by
  obtain ⟨b, hl⟩ := h.exists_executing
  have ht := h.token
  have hopen := h.opened
  refine ⟨⟨?_, ?_, ?_⟩, ?_⟩ <;>
    simp [World.enqueue, Lifecycle.enqueue, hl, ht, hopen, history, note, Lifecycle.isAccepting]

/-- The intake ends with another header, the end of the stream or a shutdown. -/
lemma Receiving.shut (h : w.Receiving t) (hw : w.ledger.Feasible) {a : Action M}
    (ha : a.endsIntake = true) :
    (w.act a).ledger.Shut t ∧ accepted t (w.act a).history = accepted t w.history := by
  obtain ⟨b, hl⟩ := h.exists_executing
  have hlt : t < w.tokens := hw.token_lt h.token
  have hopen := h.opened
  cases a with
  | call c =>
      cases c with
      | start b' =>
          simp [act, hopen, update, start, Lifecycle.start, hl, Ledger.Shut, ledger, note, history,
            Lifecycle.isAccepting, hlt]
      | enqueue c => cases ha
      | finish =>
          simp [act, hopen, update, finishStream, Ledger.Shut, ledger, history, hlt]
  | close => simp [act, closeUpdate, finishStream, Ledger.Shut, ledger, history, note, hlt]
  | _ => cases ha

/-- Any other action brings a command, which is accepted, or leaves the intake as it is, unless
the batch is over with it. -/
lemma Receiving.act (h : w.Receiving t) (hw : w.ledger.Feasible) {a : Action M}
    (ha : a.endsIntake = false) :
    (w.act a).Receiving t ∧
        accepted t (w.act a).history = accepted t w.history ++ a.command?.toList ∨
      (∃ r, (t, r) ∈ reports (w.act a).history) ∧
        accepted t (w.act a).history = accepted t w.history := by
  have hsame {v : World M} (hs : SameIntake w v) : v.Receiving t ∧
      accepted t v.history = accepted t w.history ++ (none : Option Command).toList :=
    ⟨h.of_sameIntake hs, by simp [hs.accepted]⟩
  cases a with
  | call c =>
      cases c with
      | enqueue c =>
          have hact : w.act (.call (.enqueue c)) = (w.enqueue c).1 := by
            simp [World.act, h.opened, update]
          rw [hact]
          exact .inl (h.enqueue c)
      | _ => cases ha
  | close => cases ha
  | stop =>
      refine .inl (hsame ?_)
      have ht := h.token
      constructor <;> simp [World.act, stopUpdate, ht, cancel, note, halt, history]
  | work =>
      by_cases hp : ∃ b u, w.worker.phase = .finishing b u []
      · obtain ⟨b, u, hp⟩ := hp
        have hwork : w.act .work = w.retire b u := by simp [World.act, work, hp]
        rw [hwork, retire]
        simp only
        split
        · exact .inl (hsame ⟨rfl, rfl, rfl, fun v => by simp [history, note, enter]⟩)
        · -- the worker has seen every preemption, so the batch that it retires is this one
          rename_i he
          have ha := hw.attached_active (not_not.mp he) (t := u) (b := b) (by simp [hp])
          obtain rfl : u = t := Option.some.inj
            ((Board.active?_eq_some_iff.mp ha).1.symm.trans h.token)
          obtain ⟨b', hl⟩ := h.exists_executing
          refine .inr ⟨⟨.ofOutcome b w.worker.outcome, ?_⟩, ?_⟩ <;> split <;>
            simp [clearBoard, Lifecycle.finalize, hl, history, note, enter, cancel]
      · push Not at hp
        exact .inl (hsame (w.sameIntake_work hw.signalled hp))
  | _ => exact .inl (hsame ⟨rfl, rfl, rfl, fun _ => rfl⟩)

end World

namespace Closeup

variable {s : Closeup M} {t : Token}

/-- So it is seen close up. -/
lemma receiving_act (hs : s.Sound) (h : s.world.Receiving t) {a : Action M}
    (ha : a.endsIntake = false) :
    (s.act a).world.Receiving t ∧
        accepted t (s.act a).world.history = accepted t s.world.history ++ a.command?.toList ∨
      (∃ r, (t, r) ∈ reports (s.act a).world.history) ∧
        accepted t (s.act a).world.history = accepted t s.world.history := by
  have hbrings := s.brings a
  generalize s.act a = v at hbrings ⊢
  cases hbrings with
  | begins b u c k =>
      have hsame := s.world.sameIntake_launch b u c k
      exact .inl ⟨h.of_sameIntake hsame, by simp [hsame.accepted, Action.command?]⟩
  | fits => exact .inl ⟨h, by simp [Action.command?]⟩
  | afar => exact h.act hs.feasible ha

lemma shut_act (hs : s.Sound) (h : s.world.ledger.Shut t) (a : Action M) :
    (s.act a).world.ledger.Shut t ∧
      accepted t (s.act a).world.history = accepted t s.world.history := by
  have hbrings := s.brings a
  generalize s.act a = v at hbrings ⊢
  cases hbrings with
  | begins b u c k =>
      have hsame := s.world.sameIntake_launch b u c k
      obtain ⟨-, htokens, -⟩ := s.world.launch_spec b u c k
      refine ⟨⟨h.1.trans_eq htokens.symm, fun ht => ?_⟩, hsame.accepted t⟩
      rw [World.ledger_board] at ht ⊢
      rw [hsame.token] at ht
      rw [hsame.lifecycle]
      exact h.2 ht
  | fits => exact ⟨h, rfl⟩
  | afar => exact (s.world.steps_act a hs.feasible.signalled).shut h

lemma shut_run (hs : s.Sound) (h : s.world.ledger.Shut t) (as : List (Action M)) :
    accepted t (s.run as).world.history = accepted t s.world.history := by
  induction as generalizing s with
  | nil => rfl
  | cons a as ih =>
      obtain ⟨hshut, haccepted⟩ := shut_act hs h a
      exact (ih (hs.act a) hshut).trans haccepted

/-- A batch stays open over some actions: none of them ends what it may receive, and it is not
over after them. -/
def StaysOpen (s : Closeup M) (t : Token) (as : List (Action M)) : Prop :=
  (∀ a ∈ as, a.endsIntake = false) ∧ ∀ r, (t, r) ∉ reports (s.run as).world.history

lemma staysOpen_cons_iff {a : Action M} {as : List (Action M)} :
    s.StaysOpen t (a :: as) ↔ a.endsIntake = false ∧ (s.act a).StaysOpen t as := by
  simp [StaysOpen, and_assoc]

/-- A batch that receives commands has not been reported. -/
lemma staysOpen_nil (hs : s.Sound) (h : s.world.Receiving t) : s.StaysOpen t [] :=
  ⟨by simp, fun _ hr => (hs.feasible.closed_of_reported hr).2 h.token⟩

/-- A batch receives the commands that come while it stays open, in order, and none after
that. -/
theorem exists_intake (hs : s.Sound) (h : s.world.Receiving t) (as : List (Action M)) :
    ∃ as₁ as₂, as = as₁ ++ as₂ ∧ s.StaysOpen t as₁ ∧
      (∀ a ∈ as₂.head?, ¬ s.StaysOpen t (as₁ ++ [a])) ∧
      accepted t (s.run as).world.history =
        accepted t s.world.history ++ Action.commands as₁ := by
  induction as generalizing s with
  | nil => exact ⟨[], [], rfl, staysOpen_nil hs h, by simp, by simp⟩
  | cons a as ih =>
      -- once the intake is shut, the commands of all actions that follow go elsewhere
      have hend (hopen : ¬ s.StaysOpen t [a]) (hshut : (s.act a).world.ledger.Shut t)
          (haccepted : accepted t (s.act a).world.history = accepted t s.world.history) :
          ∃ as₁ as₂, a :: as = as₁ ++ as₂ ∧ s.StaysOpen t as₁ ∧
            (∀ a ∈ as₂.head?, ¬ s.StaysOpen t (as₁ ++ [a])) ∧
            accepted t (s.run (a :: as)).world.history =
              accepted t s.world.history ++ Action.commands as₁ := by
        refine ⟨[], a :: as, rfl, staysOpen_nil hs h, by simpa using hopen, ?_⟩
        simpa [haccepted] using shut_run (hs.act a) hshut as
      cases ha : a.endsIntake with
      | true =>
          have hact : s.act a = { s with world := s.world.act a } := s.act_of_ne (by
            rintro rfl
            cases ha)
          obtain ⟨hshut, haccepted⟩ := h.shut hs.feasible ha
          exact hend (by simp [staysOpen_cons_iff, ha]) (by rw [hact]; exact hshut)
            (by rw [hact]; exact haccepted)
      | false =>
          rcases receiving_act hs h ha with ⟨hreceiving, haccepted⟩ | ⟨⟨r, hr⟩, haccepted⟩
          · obtain ⟨as₁, as₂, rfl, hopen, hlast, hrun⟩ := ih (hs.act a) hreceiving
            refine ⟨a :: as₁, as₂, rfl, staysOpen_cons_iff.mpr ⟨ha, hopen⟩, fun e he => ?_, ?_⟩
            · rw [List.cons_append, staysOpen_cons_iff]
              exact fun hne => hlast e he hne.2
            · rw [run_cons, hrun, haccepted]
              simp
          · exact hend (fun hopen => hopen.2 r hr)
              ((hs.act a).feasible.shut_of_reported hr) haccepted

end Closeup

end RoverPilot
