import Mathlib.Tactic
import RoverPilot.Proofs.Executor.Verdict
import RoverPilot.Robot.Session

/-!
What a stop by the operator does to the report of the executing batch.

* `Phase.finishing?`: the activation whose handlers are to finish;
* `Ledger.Found`, `Ledger.Steps.trail_of_finishing`: once they are, nothing more is found;
* `Ledger.Doomed`, `Ledger.Steps.status_ne_ok`: if they are not when the signal is given, the
  report will not be good;
* `World.run_stopped`: so a stop shows in the report exactly if it comes before the handlers
  are to finish.
-/

namespace RoverPilot

open History

variable {M : Machinery}

/-- The activation whose handlers are to finish. -/
@[simp] def Phase.finishing? : Phase M → Option Token
  | .finishing _ t _ => some t
  | .finishingCall _ t _ _ => some t
  | _ => none

lemma Phase.attached?_of_finishing? {p : Phase M} {t : Token} (h : p.finishing? = some t) :
    ∃ b, p.attached? = some (t, b) := by
  cases p <;> simp_all

namespace Ledger

variable {l l' : Ledger M} {t : Token} {b : BatchId}

/-! ### A stop that comes late -/

/-- Nothing more will be found of an activation: its handlers are to finish, or it is over and
the worker is not at it. -/
def Found (t : Token) (l : Ledger M) : Prop :=
  l.worker.phase.finishing? = some t ∨
    t < l.tokens ∧ l.board.token ≠ some t ∧ ∀ b, l.worker.phase.attached? ≠ some (t, b)

/-- An activation that is over for the board and the worker stays so. -/
lemma Step.foreign (hs : Step l l') (hlt : t < l.tokens) (htoken : l.board.token ≠ some t)
    (hphase : ∀ b, l.worker.phase.attached? ≠ some (t, b)) :
    t < l'.tokens ∧ l'.board.token ≠ some t ∧ ∀ b, l'.worker.phase.attached? ≠ some (t, b) := by
  have hne : l.tokens ≠ t := Nat.ne_of_gt hlt
  refine ⟨Nat.lt_of_lt_of_le hlt hs.tokens_le, ?_, ?_⟩
  · cases hs <;> simp_all
  · cases hs <;> simp_all

/-- Nothing more is found of it, now or later. -/
lemma Step.found (hs : Step l l') (hr : Reachable l) (hf : Found t l) :
    trail t l'.history = trail t l.history ∧ Found t l' := by
  rcases hf with hf | ⟨hlt, htoken, hphase⟩
  · cases hs with
    -- the worker leaves the activation, which the board has left or leaves now
    | discard b u hp he =>
        obtain rfl : u = t := by simpa [hp] using hf
        have hu : l.worker.phase.attached? = some (u, b) := by rw [hp]; rfl
        exact ⟨by simp, .inr ⟨hr.attached_lt hu, fun ht => hr.attached_ne ht he hu rfl, by simp⟩⟩
    | retire b u d hp he =>
        obtain rfl : u = t := by simpa [hp] using hf
        have hu : l.worker.phase.attached? = some (u, b) := by rw [hp]; rfl
        exact ⟨by simp, .inr ⟨hr.attached_lt hu, by simp, by simp⟩⟩
    | promote b u d e i closed hp he =>
        obtain rfl : u = t := by simpa [hp] using hf
        have hu : l.worker.phase.attached? = some (u, b) := by rw [hp]; rfl
        have hlt := hr.attached_lt hu
        exact ⟨by simp, .inr ⟨Nat.lt_succ_of_lt hlt, by simp [Nat.ne_of_gt hlt], by simp⟩⟩
    | _ => simp_all [Found]
  · exact ⟨hs.view_of_foreign (about_finding? t) hlt htoken hphase,
      .inr (hs.foreign hlt htoken hphase)⟩

/-- Once the handlers are to finish, what is found stays as it is. -/
lemma Steps.trail_of_finishing (hs : Steps l l') (hr : Reachable l)
    (hf : l.worker.phase.finishing? = some t) : trail t l'.history = trail t l.history := by
  suffices hall : trail t l'.history = trail t l.history ∧ Found t l' from hall.1
  induction hs with
  | refl => exact ⟨rfl, .inl hf⟩
  | tail hss hs ih =>
      obtain ⟨htrail, hfound⟩ := hs.found (hr.steps hss) ih.2
      exact ⟨htrail.trans ih.1, hfound⟩

/-! ### A stop that comes in time -/

/-- The signal of an activation is given, and it will not be reported as good. -/
structure Doomed (t : Token) (l : Ledger M) : Prop where
  cancelled : t ∈ l.cancelled
  finishing : l.board.token = some t → l.worker.phase.finishing? = some t → l.worker.outcome ≠ .ok
  reported : ∀ r, (t, r) ∈ reports l.history → r.status ≠ .ok

lemma Step.cancelled_subset (hs : Step l l') : l.cancelled ⊆ l'.cancelled := by
  cases hs with
  | retire | promote => grind
  | _ => simp

lemma Step.doomed (hs : Step l l') (hr : Reachable l) (hd : Doomed t l) : Doomed t l' := by
  obtain ⟨hcancelled, hfinishing, hreported⟩ := hd
  refine ⟨hs.cancelled_subset hcancelled, fun ht hp => ?_, fun r hreport => ?_⟩
  · have hnew (hp : l.worker.phase.finishing? = some t) : l.tokens ≠ t := by
      obtain ⟨b, hb⟩ := Phase.attached?_of_finishing? hp
      exact Nat.ne_of_gt (hr.attached_lt hb)
    cases hs with
    -- a new activation is not the one whose handlers are to finish
    | start | preempt => exact absurd (Option.some.inj ht) (hnew hp)
    -- handlers finish a batch that went well only as long as its signal is not given
    | complete _ u _ _ _ _ hc =>
        obtain rfl : u = t := by simpa using hp
        exact absurd hcancelled hc
    | fail _ _ _ _ _ ho => exact ho
    | _ => simp_all
  · cases hs with
    | retire b u d hp he | promote b u d e i closed hp he =>
        have ha := hr.attached_active he (t := u) (b := b) (by rw [hp]; rfl)
        simp only [view_append, view_cons, List.mem_append] at hreport
        rcases hreport with hreport | hreport
        · exact hreported r hreport
        · obtain ⟨rfl, rfl⟩ : t = u ∧ r = .ofOutcome b l.worker.outcome := by
            simpa using hreport
          have ho := hfinishing (Board.active?_eq_some_iff.mp ha).1 (by rw [hp]; rfl)
          exact fun hok => ho (Outcome.verdict_eq_ok_iff.mp hok)
    | _ => exact hreported r (by simpa using hreport)

/-- If the handlers are not to finish when the signal of the executing batch is given, the
report will not be good. -/
lemma Steps.status_ne_ok (hs : Steps l l') (hr : Reachable l) (ht : l.board.token = some t)
    (hc : t ∈ l.cancelled) (hf : l.worker.phase.finishing? ≠ some t) {r : Result}
    (hreport : (t, r) ∈ reports l'.history) : r.status ≠ .ok := by
  suffices hd : Doomed t l' from hd.reported r hreport
  clear hreport
  induction hs with
  | refl =>
      refine ⟨hc, fun _ hp => absurd hp hf, fun r hr' => ?_⟩
      exact absurd ht (hr.closed_of_reported hr').2.1
  | tail hss hs ih => exact hs.doomed (hr.steps hss) ih

end Ledger

/-! ### What the report says -/

namespace History

lemma firstBad_eq_ok_iff {tr : List (Option Command × Outcome)} :
    firstBad tr = .ok ↔ ∀ x ∈ tr, x.2 = .ok := by
  constructor
  · intro hok x hx
    by_contra hne
    cases hbad : (tr.map Prod.snd).find? (!·.isOk) with
    | none =>
        have hgood := List.find?_eq_none.mp hbad x.2 (List.mem_map_of_mem hx)
        exact hne (Outcome.isOk_iff.mp (by simpa using hgood))
    | some o =>
        have ho := List.find?_some hbad
        rw [firstBad, hbad, Option.getD_some] at hok
        simp [hok, Outcome.isOk] at ho
  · intro hall
    have hbad : (tr.map Prod.snd).find? (!·.isOk) = none := by
      rw [List.find?_eq_none]
      rintro o ho
      obtain ⟨x, hx, rfl⟩ := List.mem_map.mp ho
      simp [hall x hx, Outcome.isOk]
    rw [firstBad, hbad]
    rfl

/-- What is found between two commands is an interruption. -/
lemma eq_interrupted_of_mem_trail {t : Token} {h : List (Event M)} {o : Outcome}
    (ho : (none, o) ∈ trail t h) : o = .interrupted := by
  obtain ⟨e, -, he⟩ := mem_view.mp ho
  cases e <;> simp_all

end History

namespace Ledger

variable {l l' : Ledger M} {t : Token} {b : BatchId} {r : Result}

/-- The batch that was active when the signal was given is the one reported. -/
lemma Steps.exists_account (hs : Steps l l') (hl : Reachable l)
    (ha : l.board.active? = some (t, b)) (hr : (t, r) ∈ reports l'.history) :
    ∃ o, r = .ofOutcome b o ∧
      Account o (trail t l'.history) (begun t l'.history) (accepted t l'.history) := by
  obtain ⟨b', o, hb', rfl, hacc⟩ := (hl.steps hs).account hr
  have hsub := hs.history_isPrefix.sublist.filterMap Event.activation?
  have hb := (hl.steps hs).activation_unique (hsub.subset (hl.active_mem ha)) hb'
  exact ⟨o, by rw [hb], hacc⟩

/-- The signal of the executing batch is given while no command of it has gone wrong.  The
report is good exactly if the handlers are to finish by then and no interruption was found. -/
lemma Steps.status_eq_ok_iff (hs : Steps l l') (hl : Reachable l)
    (ha : l.board.active? = some (t, b)) (hc : t ∈ l.cancelled)
    (hok : ∀ c o, (some c, o) ∈ trail t l.history → o = .ok)
    (hr : (t, r) ∈ reports l'.history) :
    r.status = .ok ↔
      l.worker.phase.finishing? = some t ∧ (none, .interrupted) ∉ trail t l.history := by
  obtain ⟨o, rfl, hacc⟩ := hs.exists_account hl ha hr
  have ho : firstBad (trail t l'.history) = o := hacc.firstBad_eq
  have htoken := (Board.active?_eq_some_iff.mp ha).1
  constructor
  · intro hstatus
    have hf : l.worker.phase.finishing? = some t := by
      by_contra hf
      exact hs.status_ne_ok hl htoken hc hf hr hstatus
    refine ⟨hf, fun hmem => ?_⟩
    rw [hs.trail_of_finishing hl hf, Outcome.verdict_eq_ok_iff.mp hstatus,
      firstBad_eq_ok_iff] at ho
    cases ho _ hmem
  · rintro ⟨hf, hmem⟩
    rw [hs.trail_of_finishing hl hf] at ho
    have hall : firstBad (trail t l.history) = .ok := by
      rw [firstBad_eq_ok_iff]
      rintro ⟨c?, o⟩ hx
      cases c? with
      | none => exact absurd (eq_interrupted_of_mem_trail hx ▸ hx) hmem
      | some c => exact hok c o hx
    rw [← ho, hall]
    rfl

/-- It says that the user stopped the batch exactly if it is not good and no command of the
batch has gone wrong in another way. -/
lemma Steps.eq_userStop_iff (hs : Steps l l') (hl : Reachable l)
    (ha : l.board.active? = some (t, b)) (hr : (t, r) ∈ reports l'.history) :
    r = ⟨b, .interrupted, .userStop⟩ ↔ r.status ≠ .ok ∧
      ∀ c o, (some c, o) ∈ trail t l'.history →
        o = .ok ∨ o.verdict = (.interrupted, .userStop) := by
  obtain ⟨o, rfl, hacc⟩ := hs.exists_account hl ha hr
  constructor
  · intro heq
    have hverdict : o.verdict = (.interrupted, .userStop) := by
      simpa [Result.ofOutcome, Prod.ext_iff] using heq
    refine ⟨by simp [heq], fun c o' hmem => ?_⟩
    cases hacc with
    | well ho => cases ho ▸ hverdict
    | badly done c? _ htrail =>
        rw [htrail, List.mem_append, List.mem_singleton] at hmem
        rcases hmem with hmem | hmem
        · obtain ⟨_, -, heq⟩ := List.mem_map.mp hmem
          exact .inl (congrArg Prod.snd heq).symm
        · cases hmem
          exact .inr hverdict
  · rintro ⟨hstatus, hall⟩
    cases hacc with
    | well ho => exact absurd (Outcome.verdict_eq_ok_iff.mpr ho) hstatus
    | badly done c? ho htrail =>
        have hlast : (c?, o) ∈ trail t l'.history := by simp [htrail]
        cases c? with
        | none => rw [eq_interrupted_of_mem_trail hlast]; rfl
        | some c =>
            have hverdict := (hall c o hlast).resolve_left ho
            rw [Result.ofOutcome, hverdict]

end Ledger

/-- A stop by the operator while a batch executes, and no command of the batch has gone wrong
so far, shows in the report exactly if it comes before the handlers are to finish: then the
batch is not reported as good, and it is reported as stopped by the user unless a command goes
wrong in another way.  If it comes later, the report is good, unless an earlier stop was found
before. -/
theorem World.run_stopped (p : M.Plant) (ch : Channel) (d : Nat) (as as' : List (Action M))
    (t : Token) (b : BatchId) (r : Result)
    (ha : ((fresh p ch d).run as).board.active? = some (t, b))
    (hok : ∀ c o, (some c, o) ∈ trail t ((fresh p ch d).run as).history → o = .ok)
    (hr : (t, r) ∈ reports ((fresh p ch d).run (as ++ .stop :: as')).history) :
    let w := (fresh p ch d).run as
    let h := ((fresh p ch d).run (as ++ .stop :: as')).history
    (r.status = .ok ↔
      w.worker.phase.finishing? = some t ∧ (none, .interrupted) ∉ trail t w.history) ∧
    (r = ⟨b, .interrupted, .userStop⟩ ↔ r.status ≠ .ok ∧
      ∀ c o, (some c, o) ∈ trail t h → o = .ok ∨ o.verdict = (.interrupted, .userStop)) := by
  intro w h
  have hw : w.ledger.Reachable := reachable_run p ch d as
  have hl : (w.act .stop).ledger.Reachable := hw.step w.step_stopUpdate
  have hs : Ledger.Steps (w.act .stop).ledger ((w.act .stop).run as').ledger :=
    steps_run _ hl as'
  have hledger : (w.act .stop).ledger = _ := w.ledger_stopUpdate
  rw [hledger] at hs hl
  have htrail : trail t (w.history ++ [.stopped]) = trail t w.history := by simp
  have htoken := (Board.active?_eq_some_iff.mp ha).1
  have hc : t ∈ w.board.token.toList ++ w.cancelled := by simp [w, htoken]
  have hh : h = ((w.act .stop).run as').history := by rw [← run_cons, ← run_append]
  rw [← htrail, hh]
  rw [run_append] at hr
  rw [← htrail] at hok
  exact ⟨hs.status_eq_ok_iff hl ha hc hok hr, hs.eq_userStop_iff hl ha hr⟩

/-! ### A stop in time, and one too late -/

/-- The standard robot before anything happens. -/
def standardWorld : World (Rig.machinery {}) :=
  let plant : Plant := { body := { distance := 100.0 }, voice := { msPerWord := 250 } }
  .fresh (M := Rig.machinery {}) plant (.withCapacity 16) 5000

/-- A batch of one text to speak arrives, and the worker takes its command. -/
def sayTaken : List (Action (Rig.machinery {})) :=
  [.call (.start 1), .call (.enqueue ⟨"SAY", ["hello"]⟩), .call .finish, .work]

/-- The text is given to the voice, and the handler waits for its end. -/
def sayFinishing : List (Action (Rig.machinery {})) := sayTaken ++ [.work, .work, .work]

/-- A stop after a command was taken and before it begins shows in the report. -/
theorem World.run_stopped_taken :
    let w := standardWorld.run sayTaken
    let h := (standardWorld.run (sayTaken ++ .stop :: [.work, .work, .work])).history
    w.board.active? = some (0, 1) ∧ (∀ c o, (some c, o) ∈ trail 0 w.history → o = .ok) ∧
      (0, ⟨1, .interrupted, .userStop⟩) ∈ reports h ∧
      ¬ (w.worker.phase.finishing? = some 0 ∧ (none, .interrupted) ∉ trail 0 w.history) ∧
      ∀ c o, (some c, o) ∈ trail 0 h → o = .ok ∨ o.verdict = (.interrupted, .userStop) := by
  intro w h
  have ha : w.board.active? = some (0, 1) := by decide +kernel
  have htrail : trail 0 w.history = [] := by decide +kernel
  have hok : ∀ c o, (some c, o) ∈ trail 0 w.history → o = .ok := by simp [htrail]
  have hr : (0, ⟨1, .interrupted, .userStop⟩) ∈ reports h := by decide +kernel
  have hstopped := World.run_stopped _ _ _ sayTaken [.work, .work, .work] 0 1 _ ha hok hr
  exact ⟨ha, hok, hr, fun hlate => absurd (hstopped.1.mpr hlate) (by simp),
    (hstopped.2.mp rfl).2⟩

/-- A stop while the handler waits for the text to end does not show, though the batch
executes and its command went well. -/
theorem World.run_stopped_finishing :
    let w := standardWorld.run sayFinishing
    let h := (standardWorld.run (sayFinishing ++ .stop :: [.background, .work, .work])).history
    w.board.active? = some (0, 1) ∧ trail 0 w.history = [(some ⟨"SAY", ["hello"]⟩, .ok)] ∧
      preempted h = [] ∧ reports h = [(0, ⟨1, .ok, .none⟩)] := by
  decide +kernel

end RoverPilot
