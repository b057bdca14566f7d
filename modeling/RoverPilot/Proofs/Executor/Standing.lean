import Mathlib.Tactic
import RoverPilot.Proofs.Executor.Activation

/-!
How the executing batch stands.

* `Hand`, `Phase.hand`: what of the executing batch the worker has in hand;
* `Standing`: how commands, outcome and findings of an activation hang together.  As long as
  all is well, the commands that are done, the one in hand and those that wait are the
  accepted ones, in order; once something went wrong, nothing more is taken;
* `Ledger.Stands`, `Ledger.Reachable.stands`: so it stands with the executing batch, whatever
  the worker has seen of preemptions.
-/

namespace RoverPilot

open History

variable {M : Machinery}

/-! ### What the worker has in hand -/

/-- What of a batch the worker has in hand. -/
inductive Hand where
  /-- Nothing. -/
  | free
  /-- A command that was taken and not begun. -/
  | taken (c : Command)
  /-- A command at work. -/
  | running (c : Command)
  /-- The handlers, which are to finish. -/
  | finishing
  deriving DecidableEq

namespace Hand

/-- The command in hand, begun or not. -/
def command? : Hand → Option Command
  | free => none
  | taken c => some c
  | running c => some c
  | finishing => none

/-- The command at work. -/
def running? : Hand → Option Command
  | free => none
  | taken _ => none
  | running c => some c
  | finishing => none

variable (c : Command)

@[simp] lemma command?_free : free.command? = none := rfl

@[simp] lemma command?_taken : (taken c).command? = some c := rfl

@[simp] lemma command?_running : (running c).command? = some c := rfl

@[simp] lemma command?_finishing : finishing.command? = none := rfl

@[simp] lemma running?_free : free.running? = none := rfl

@[simp] lemma running?_taken : (taken c).running? = none := rfl

@[simp] lemma running?_running : (running c).running? = some c := rfl

@[simp] lemma running?_finishing : finishing.running? = none := rfl

end Hand

/-- What the worker has in hand. -/
def Phase.hand : Phase M → Hand
  | .looking => .free
  | .parked => .free
  | .popped _ _ c => .taken c
  | .running _ _ c _ => .running c
  | .finishing _ _ _ => .finishing
  | .finishingCall _ _ _ _ => .finishing
  | .reporting _ _ _ => .free
  | .exited => .free

namespace Phase

section

variable (b : BatchId) (t : Token) (c : Command) (a : M.Activity) (ks : List M.Handler)
  (r : Result) (deadline : Nat)

@[simp] lemma hand_looking : (looking (M := M)).hand = .free := rfl

@[simp] lemma hand_parked : (parked (M := M)).hand = .free := rfl

@[simp] lemma hand_popped : (popped (M := M) b t c).hand = .taken c := rfl

@[simp] lemma hand_running : (running b t c a).hand = .running c := rfl

@[simp] lemma hand_finishing : (finishing b t ks).hand = .finishing := rfl

@[simp] lemma hand_finishingCall : (finishingCall b t a ks).hand = .finishing := rfl

@[simp] lemma hand_reporting : (reporting (M := M) t r deadline).hand = .free := rfl

end

lemma hand_of_attached? {p : Phase M} (h : p.attached? = none) : p.hand = .free := by
  cases p <;> first | rfl | cases h

end Phase

/-! ### Standing -/

/-- How an activation stands, by the outcome that the worker remembers, what it has in hand,
the commands that wait, whether more may come, the findings so far, the commands begun and
those accepted. -/
inductive Standing (o : Outcome) (p : Hand) (queue : List Command) (accepting : Bool)
    (trail : List (Option Command × Outcome)) (begun accepted : List Command) : Prop where
  /-- All is well so far. -/
  | good (done : List Command) (ho : o = .ok)
      (htrail : trail = done.map fun c => (some c, .ok))
      (hbegun : begun = done ++ p.running?.toList)
      (haccepted : accepted = done ++ p.command?.toList ++ queue)
      (hfinish : p = .finishing → queue = [] ∧ accepting = false)
  /-- Something went wrong, at a command or between two. -/
  | bad (done : List Command) (c? : Option Command) (ho : o ≠ .ok)
      (htrail : trail = (done.map fun c => (some c, .ok)) ++ [(c?, o)])
      (hbegun : begun <+: done ++ c?.toList)
      (haccepted : done ++ c?.toList <+: accepted)
      (hcommand : p.command? = none)

namespace Standing

variable {o : Outcome} {p : Hand} {q : List Command} {acc : Bool}
  {tr : List (Option Command × Outcome)} {bg ac : List Command} {c : Command}

/-- Nothing has happened yet. -/
lemma fresh : Standing .ok .free [] acc [] [] [] :=
  .good [] rfl rfl rfl rfl (by simp)

/-- No more commands may come. -/
lemma close (h : Standing o p q acc tr bg ac) : Standing o p q false tr bg ac := by
  cases h with
  | good done ho htrail hbegun haccepted hfinish =>
      exact .good done ho htrail hbegun haccepted fun hp => ⟨(hfinish hp).1, rfl⟩
  | bad done c? ho htrail hbegun haccepted hcommand =>
      exact .bad done c? ho htrail hbegun haccepted hcommand

/-- A command comes. -/
lemma accept (h : Standing o p q true tr bg ac) (c : Command) :
    Standing o p (q ++ [c]) true tr bg (ac ++ [c]) := by
  cases h with
  | good done ho htrail hbegun haccepted hfinish =>
      refine .good done ho htrail hbegun (by simp [haccepted]) fun hp => ?_
      cases (hfinish hp).2
  | bad done c? ho htrail hbegun haccepted hcommand =>
      exact .bad done c? ho htrail hbegun (haccepted.trans (List.prefix_append _ _)) hcommand

/-- The first command that waits is taken. -/
lemma take (h : Standing .ok .free (c :: q) acc tr bg ac) :
    Standing .ok (.taken c) q acc tr bg ac := by
  cases h with
  | good done ho htrail hbegun haccepted hfinish =>
      exact .good done rfl htrail hbegun (by simpa using haccepted) (by simp)
  | bad done c? ho => exact absurd rfl ho

/-- The command that was taken is not begun. -/
lemma drop (h : Standing o (.taken c) q acc tr bg ac) (o' : Outcome) (ho' : o' ≠ .ok) :
    Standing o' .free q acc (tr ++ [(some c, o')]) bg ac := by
  cases h with
  | good done ho htrail hbegun haccepted hfinish =>
      exact .bad done (some c) ho' (by rw [htrail]) (by simp [hbegun]) (by simp [haccepted]) rfl
  | bad done c? ho htrail hbegun haccepted hcommand => cases hcommand

/-- The command that was taken begins. -/
lemma start (h : Standing o (.taken c) q acc tr bg ac) :
    Standing o (.running c) q acc tr (bg ++ [c]) ac := by
  cases h with
  | good done ho htrail hbegun haccepted hfinish =>
      exact .good done ho htrail (by simp [hbegun]) haccepted (by simp)
  | bad done c? ho htrail hbegun haccepted hcommand => cases hcommand

/-- The command at work ends, well or not. -/
lemma finish (h : Standing o (.running c) q acc tr bg ac) (o' : Outcome) :
    Standing o' .free q acc (tr ++ [(some c, o')]) bg ac := by
  cases h with
  | good done ho htrail hbegun haccepted hfinish =>
      by_cases ho' : o' = .ok
      · subst ho'
        exact .good (done ++ [c]) rfl (by simp [htrail]) (by simp [hbegun]) (by simp [haccepted])
          (by simp)
      · exact .bad done (some c) ho' (by rw [htrail]) (by simp [hbegun]) (by simp [haccepted]) rfl
  | bad done c? ho htrail hbegun haccepted hcommand => cases hcommand

/-- The batch is found interrupted between two commands. -/
lemma interrupt (h : Standing .ok .free q acc tr bg ac) :
    Standing .interrupted .free q acc (tr ++ [(none, .interrupted)]) bg ac := by
  cases h with
  | good done ho htrail hbegun haccepted hfinish =>
      exact .bad done none (by simp) (by rw [htrail]) (by simp [hbegun]) (by simp [haccepted]) rfl
  | bad done c? ho => exact absurd rfl ho

/-- The handlers are to finish, as all commands are done and no more may come. -/
lemma complete (h : Standing .ok .free [] false tr bg ac) :
    Standing .ok .finishing [] false tr bg ac := by
  cases h with
  | good done ho htrail hbegun haccepted hfinish =>
      exact .good done rfl htrail hbegun haccepted fun _ => ⟨rfl, rfl⟩
  | bad done c? ho => exact absurd rfl ho

/-- The handlers are to finish, as something went wrong. -/
lemma fail (h : Standing o .free q acc tr bg ac) (ho : o ≠ .ok) :
    Standing o .finishing q acc tr bg ac := by
  cases h with
  | good done ho' => exact absurd ho' ho
  | bad done c? ho htrail hbegun haccepted hcommand =>
      exact .bad done c? ho htrail hbegun haccepted rfl

end Standing

/-! ### The executing batch -/

namespace Ledger

variable {l l' : Ledger M} {t : Token}

/-- What the worker remembers of the executing batch, which is nothing as long as it has not
seen every preemption. -/
def mind (l : Ledger M) : Worker M := if l.board.epoch = l.worker.epoch then l.worker else {}

lemma mind_eq (h : l.board.epoch = l.worker.epoch) : l.mind = l.worker := if_pos h

lemma mind_eq_fresh (h : l.board.epoch ≠ l.worker.epoch) : l.mind = {} := if_neg h

/-- How it stands with an activation, if it is the executing one. -/
def Stands (l : Ledger M) (t : Token) : Prop :=
  Standing l.mind.outcome l.mind.phase.hand l.board.queue l.board.lifecycle.isAccepting
    (trail t l.history) (begun t l.history) (accepted t l.history)

/-- Without an executing batch there is nothing left of any. -/
lemma Reachable.idle (h : Reachable l) (ht : l.board.token = none) :
    l.board.epoch = l.worker.epoch ∧ l.worker.outcome = .ok ∧ l.board.queue = [] ∧
      l.worker.phase.attached? = none := by
  induction h with
  | initial => exact ⟨rfl, rfl, rfl, rfl⟩
  | step hr hs ih => cases hs <;> simp_all

lemma stands_iff (he : l.board.epoch = l.worker.epoch) :
    l.Stands t ↔ Standing l.worker.outcome l.worker.phase.hand l.board.queue
      l.board.lifecycle.isAccepting (trail t l.history) (begun t l.history)
      (accepted t l.history) := by
  rw [Stands, mind_eq he]

lemma stands_iff_of_stale (he : l.board.epoch ≠ l.worker.epoch) :
    l.Stands t ↔ Standing .ok .free l.board.queue l.board.lifecycle.isAccepting
      (trail t l.history) (begun t l.history) (accepted t l.history) := by
  rw [Stands, mind_eq_fresh he]
  rfl

/-- What a worker that has not seen every preemption is at is not the executing batch. -/
lemma Reachable.attached_ne (h : Reachable l) (ht : l.board.token = some t)
    (he : l.board.epoch ≠ l.worker.epoch) {u : Token} {b : BatchId}
    (hp : l.worker.phase.attached? = some (u, b)) : u ≠ t := by
  rintro rfl
  rcases h.attached_cases hp with ⟨he', -⟩ | ⟨-, -, ht'⟩
  · exact he he'
  · exact ht' ht

/-- What a worker that has not seen every preemption does is nothing to the executing batch. -/
lemma Step.stands_of_stale (hs : Step l l') (hr : Reachable l) (ht : l.board.token = some t)
    (he : l.board.epoch ≠ l.worker.epoch) (hboard : l'.board = l.board) (h : l.Stands t) :
    l'.Stands t := by
  have hforeign {u : Token} {b : BatchId} := hr.attached_ne ht he (u := u) (b := b)
  have hlifecycle : l'.board.lifecycle = l.board.lifecycle := by rw [hboard]
  have hqueue : l'.board.queue = l.board.queue := by rw [hboard]
  clear hboard
  rw [stands_iff_of_stale he] at h
  cases hs with
  | start _ _ hl | preempt _ _ _ _ _ _ hl => rw [hl] at hlifecycle; cases hlifecycle
  | notice =>
      rw [stands_iff rfl]
      simp_all [Phase.hand]
  | _ =>
      rw [stands_iff_of_stale (by exact he)]
      simp_all

/-- A new activation stands as nothing has happened. -/
lemma Reachable.standing_fresh (h : Reachable l) (acc : Bool) :
    Standing .ok .free [] acc (trail l.tokens l.history) (begun l.tokens l.history)
      (accepted l.tokens l.history) := by
  rw [trail, begun, accepted, h.view_eq_nil (about_finding? _) (Nat.le_refl _),
    h.view_eq_nil (about_begun? _) (Nat.le_refl _),
    h.view_eq_nil (about_accepted? _) (Nat.le_refl _)]
  exact .fresh

/-- What a worker that has seen every preemption does, the commands that wait growing no more,
moves the executing batch on. -/
lemma Step.stands_of_current (hs : Step l l') (hr : Reachable l) (ht : l.board.token = some t)
    (he : l.board.epoch = l.worker.epoch) (hlifecycle : l'.board.lifecycle = l.board.lifecycle)
    (hqueue : l'.board.queue <:+ l.board.queue) (h : l.Stands t) : l'.Stands t := by
  -- what the worker is at is the executing batch, so its findings count for `t`
  have hown {u : Token} {b : BatchId} (hp : l.worker.phase.attached? = some (u, b)) : u = t := by
    have ha := (Board.active?_eq_some_iff.mp (hr.attached_active he hp)).1
    exact Option.some.inj (ha.symm.trans ht)
  have hsig := hr.signalled
  rw [stands_iff he] at h
  cases hs with
  | start _ _ hl | preempt _ _ _ _ _ _ hl => rw [hl] at hlifecycle; cases hlifecycle
  | promote _ _ _ _ _ closed _ _ hl =>
      rw [hl] at hlifecycle
      cases closed <;> cases hlifecycle
  | retire | rest | exit =>
      have hidle : l.board.lifecycle = .idle := hlifecycle.symm.trans (by simp [*])
      simp [Board.Signalled, hidle, ht] at hsig
  | accept => simpa using hqueue.length_le
  | notice _ hne => exact absurd he hne
  | discard _ _ _ hne => exact absurd he hne
  | interrupt b u hp _ ha ho =>
      obtain rfl : u = t := by simp_all
      rw [hp, ho] at h
      rw [stands_iff (by exact he)]
      simpa [hp] using h.interrupt
  | pop b u c q hp _ _ ho _ hq =>
      rw [hp, ho, hq] at h
      rw [stands_iff (by exact he)]
      simpa [ho] using h.take
  | fail b u hp _ _ ho =>
      rw [hp] at h
      rw [stands_iff (by exact he)]
      simpa using h.fail ho
  | complete b u hp _ _ ho _ hq hl =>
      rw [hp, ho, hq, hl] at h
      rw [stands_iff (by exact he)]
      simpa [ho, hq, hl] using h.complete
  | unresolved b u c hp =>
      obtain rfl := hown (by rw [hp]; rfl)
      rw [hp] at h
      rw [stands_iff (by exact he)]
      simpa using h.drop .parseError (by simp)
  | skip b u c k hp =>
      obtain rfl := hown (by rw [hp]; rfl)
      rw [hp] at h
      rw [stands_iff (by exact he)]
      simpa using h.drop .interrupted (by simp)
  | begin b u c k a hp =>
      obtain rfl := hown (by rw [hp]; rfl)
      rw [hp] at h
      rw [stands_iff (by exact he)]
      simpa using h.start
  | doAtOnce b u c k e hp =>
      obtain rfl := hown (by rw [hp]; rfl)
      rw [hp] at h
      rw [stands_iff (by exact he)]
      simpa using h.start.finish e.outcome
  | endCommand b u c a e hp =>
      obtain rfl := hown (by rw [hp]; rfl)
      rw [hp] at h
      rw [stands_iff (by exact he)]
      simpa using h.finish e.outcome
  | giveUp b u c a hp =>
      obtain rfl := hown (by rw [hp]; rfl)
      rw [hp] at h
      rw [stands_iff (by exact he)]
      simpa using h.finish .interrupted
  | _ =>
      rw [stands_iff (by exact he)]
      simp_all

/-- In every reachable ledger it stands with the executing batch as `Standing` says. -/
theorem Reachable.stands (h : Reachable l) (ht : l.board.token = some t) : l.Stands t := by
  induction h generalizing t with
  | initial => cases ht
  | step hr hs ih =>
      rename_i l l'
      have hs' := hs
      cases hs with
      | start b hopen hl =>
          obtain rfl : l.tokens = t := Option.some.inj ht
          have hsig := hr.signalled
          rw [Board.Signalled, hl] at hsig
          obtain ⟨he, ho, hq, hp⟩ := hr.idle (by simpa using hsig)
          rw [stands_iff (by exact he)]
          simpa [ho, hq, Phase.hand_of_attached? hp] using hr.standing_fresh _
      | preempt b i k u c =>
          obtain rfl : l.tokens = t := Option.some.inj ht
          -- the number of preemptions grows, so the worker cannot have seen this one
          have hle := hr.epoch_le
          rw [stands_iff_of_stale (by simp only; omega)]
          simpa using hr.standing_fresh _
      | promote b u d e i closed hp he =>
          obtain rfl : l.tokens = t := Option.some.inj ht
          rw [stands_iff (by exact he)]
          simpa using hr.standing_fresh _
      | wait | ignore => simpa [Stands, mind, Lifecycle.isAccepting] using (ih ht).close
      | finish | close => simpa [Stands, mind] using (ih ht).close
      | accept b u c hopen hl hu =>
          obtain rfl : u = t := by simpa [hu] using ht
          have h := ih hu
          rw [Stands, hl] at h
          simpa [Stands, mind, hl, Lifecycle.isAccepting] using h.accept c
      | retire => cases ht
      -- the worker rests only while no batch executes
      | rest _ _ hl | exit _ _ hl =>
          have hsig := hr.signalled
          simp_all [Board.Signalled]
      | pop b u c q _ he _ _ _ hq =>
          exact hs'.stands_of_current hr ht he rfl (by simp [hq]) (ih ht)
      | _ =>
          by_cases he : l.board.epoch = l.worker.epoch
          · exact hs'.stands_of_current hr ht he rfl (List.suffix_refl _) (ih ht)
          · exact hs'.stands_of_stale hr ht he rfl (ih ht)

end Ledger

end RoverPilot
