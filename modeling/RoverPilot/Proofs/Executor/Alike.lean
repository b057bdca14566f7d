import Mathlib.Tactic
import RoverPilot.Proofs.Executor.Hearing

/-!
Worlds that differ only in what they say of batches behind the executing one.

* `Event.arrival`, `World.doings`: the events that only tell of an arrival, and a journal without
  them;
* `World.Alike`: worlds of which only the lifecycles and the arrivals in the journals differ;
* `World.Alike.work`: the worker does the same in both, as long as the same batch executes, may as
  well receive commands or not, and is not over;
* `World.Alike.retire`: it does so when the batch is over, if nothing waits behind it in one of
  them that does not in the other.
-/

namespace RoverPilot

variable {M : Machinery}

/-- Whether an event only tells of the arrival of a header, or of a command that is dropped. -/
def Event.arrival : Event M → Bool
  | .announced _ => true
  | .dropped _ _ => true
  | _ => false

namespace World

/-- What a journal says apart from arrivals. -/
def doings (j : Log (Event M)) : Log (Event M) := j.filter fun x => !x.2.arrival

/-- Only the lifecycles, and what the journals say of arrivals, differ. -/
structure Alike (w v : World M) : Prop where
  same : v = { w with
    board := { w.board with lifecycle := v.board.lifecycle }, journal := v.journal }
  doings : doings v.journal = doings w.journal

namespace Alike

variable {w v : World M}

lemma refl (w : World M) : Alike w w := ⟨rfl, rfl⟩

variable (h : Alike w v)

/-! ### What is the same -/

include h

lemma now : v.now = w.now := by rw [h.same]

lemma queue : v.board.queue = w.board.queue := by rw [h.same]

lemma token : v.board.token = w.board.token := by rw [h.same]

lemma epoch : v.board.epoch = w.board.epoch := by rw [h.same]

lemma closing : v.board.closing = w.board.closing := by rw [h.same]

lemma worker : v.worker = w.worker := by rw [h.same]

lemma wake : v.wake = w.wake := by rw [h.same]

lemma tokens : v.tokens = w.tokens := by rw [h.same]

lemma plant : v.plant = w.plant := by rw [h.same]

lemma channel : v.channel = w.channel := by rw [h.same]

lemma reportTimeout : v.reportTimeout = w.reportTimeout := by rw [h.same]

lemma isCancelled (t : Token) : v.isCancelled t = w.isCancelled t := by
  rw [World.isCancelled, h.same, World.isCancelled]

/-- The same batches are over in alike worlds. -/
lemma retires_iff {b : BatchId} {t : Token} : v.Retires b t ↔ w.Retires b t := by
  rw [Retires, Retires, h.worker, h.epoch]

/-- With the same lifecycle only the journals differ. -/
lemma eq_of_lifecycle (hl : v.board.lifecycle = w.board.lifecycle) :
    v = { w with journal := v.journal } := by
  have hsame := h.same
  rwa [hl] at hsame

/-! ### What does the same -/

/-- What neither looks at the lifecycle and the journal nor changes them does the same. -/
lemma map (f : World M → World M)
    (hf : ∀ l j, f { w with board := { w.board with lifecycle := l }, journal := j } =
      { f w with board := { (f w).board with lifecycle := l }, journal := j })
    (hjournal : (f w).journal = w.journal) : Alike (f w) (f v) := by
  have hv : f v = { f w with
      board := { (f w).board with lifecycle := v.board.lifecycle }, journal := v.journal } :=
    (congrArg f h.same).trans (hf _ _)
  refine ⟨?_, ?_⟩
  · rw [hv]
  · rw [hv, hjournal]
    exact h.doings

lemma note (e : Event M) : Alike (w.note e) (v.note e) := by
  refine ⟨?_, ?_⟩
  · rw [World.note, h.same]
    rfl
  · have hj := h.doings
    simp only [World.note, World.doings, List.filter_cons, h.now] at hj ⊢
    rw [hj]

/-- Arrivals may differ. -/
lemma note_arrival {e e' : Event M} (he : e.arrival = true) (he' : e'.arrival = true) :
    Alike (w.note e) (v.note e') := by
  refine ⟨?_, ?_⟩
  · rw [World.note, h.same]
    rfl
  · have hj := h.doings
    simp only [World.note, World.doings, List.filter_cons, he, he'] at hj ⊢
    simpa using hj

/-- One arrival more makes no difference. -/
lemma note_left {e : Event M} (he : e.arrival = true) : Alike (w.note e) v := by
  refine ⟨h.same, ?_⟩
  have hj := h.doings
  simp only [World.note, World.doings, List.filter_cons, he] at hj ⊢
  simpa using hj

lemma withWorker (x : Worker M) : Alike { w with worker := x } { v with worker := x } :=
  h.map (fun u => { u with worker := x }) (fun _ _ => rfl) rfl

lemma withPlant (p : M.Plant) : Alike { w with plant := p } { v with plant := p } :=
  h.map (fun u => { u with plant := p }) (fun _ _ => rfl) rfl

lemma withQueue (q : List Command) :
    Alike { w with board := { w.board with queue := q } }
      { v with board := { v.board with queue := q } } :=
  h.map (fun u => { u with board := { u.board with queue := q } }) (fun _ _ => rfl) rfl

lemma withLifecycle (l l' : Lifecycle) :
    Alike { w with board := { w.board with lifecycle := l } }
      { v with board := { v.board with lifecycle := l' } } := by
  refine ⟨?_, h.doings⟩
  rw [h.same]

lemma enter (p : Phase M) : Alike (w.enter p) (v.enter p) :=
  h.map (·.enter p) (fun _ _ => rfl) rfl

lemma conclude (o : Outcome) : Alike (w.conclude o) (v.conclude o) :=
  h.map (·.conclude o) (fun _ _ => rfl) rfl

lemma cancel (t : Token) : Alike (w.cancel t) (v.cancel t) :=
  h.map (·.cancel t) (fun _ _ => rfl) rfl

lemma halt : Alike w.halt v.halt :=
  h.map World.halt (fun _ _ => rfl) rfl

lemma activate (b : BatchId) : Alike (w.activate b) (v.activate b) := by
  rw [World.activate, World.activate, h.tokens]
  refine Alike.note ?_ _
  exact h.map (fun u => { u with
    tokens := w.tokens + 1, board := { u.board with token := some w.tokens } }) (fun _ _ => rfl) rfl

/-! ### The worker -/

lemma noticePreemption : Alike w.noticePreemption v.noticePreemption := by
  rw [World.noticePreemption, World.noticePreemption, h.epoch, h.worker]
  split
  · exact h
  · exact h.withWorker _

lemma noticeCancellation (t : Token) :
    Alike (w.noticeCancellation t) (v.noticeCancellation t) := by
  rw [World.noticeCancellation, World.noticeCancellation, h.isCancelled, h.worker]
  split
  · exact (h.withWorker _).note _
  · exact h

lemma attend (hacc : v.board.lifecycle.isAccepting = w.board.lifecycle.isAccepting) (b : BatchId)
    (t : Token) : Alike (w.attend b t) (v.attend b t) := by
  have hover : Alike (w.beginFinishing b t) (v.beginFinishing b t) :=
    h.map (·.beginFinishing b t) (fun _ _ => rfl) rfl
  rw [World.attend, World.attend, congrArg Worker.outcome h.worker, h.queue, hacc]
  split
  · split
    · exact (h.withQueue _).enter _
    · split
      · exact h.enter _
      · exact hover
  · exact hover

lemma look (hs : w.board.Signalled)
    (hexec : v.board.lifecycle.executing? = w.board.lifecycle.executing?)
    (hacc : v.board.lifecycle.isAccepting = w.board.lifecycle.isAccepting) :
    Alike w.look v.look := by
  have hnotice := h.noticePreemption
  have hboard := w.noticePreemption_spec.1
  have hboard' := v.noticePreemption_spec.1
  rw [World.look, World.look]
  generalize w.noticePreemption = w₁ at *
  generalize v.noticePreemption = v₁ at *
  rw [← hboard, ← hboard'] at hexec hacc
  rw [← hboard] at hs
  simp only [hexec]
  cases hx : w₁.board.lifecycle.executing? with
  | none =>
      have hphase : (if v₁.board.closing then Phase.exited else .parked : Phase M) =
          if w₁.board.closing then .exited else .parked := by rw [hnotice.closing]
      simp only [hphase]
      exact (hnotice.withQueue _).enter _
  | some b =>
      obtain ⟨t, ht, -⟩ := hs.exists_active hx
      simp only [currentToken, hnotice.token, ht]
      refine (hnotice.noticeCancellation t).attend ?_ b t
      rw [(w₁.noticeCancellation_spec t).1, (v₁.noticeCancellation_spec t).1, hacc]

lemma afterCall (b : BatchId) (t : Token) (c : Command) (r : M.Plant × Progress M.Activity) :
    Alike (w.afterCall b t c r) (v.afterCall b t c r) := by
  obtain ⟨p, a | e⟩ := r
  · exact (h.withPlant p).enter _
  · exact ((h.withPlant p).note _).conclude _

lemma moment (t : Token) : v.moment t = w.moment t := by
  rw [World.moment, World.moment, h.now, h.isCancelled]

lemma afterLook (b : BatchId) (t : Token) (c : Command) (r : M.Plant × Progress M.Activity) :
    Alike (w.afterLook b t c r) (v.afterLook b t c r) := by
  simp only [World.afterLook, h.isCancelled]
  split
  · exact h.afterCall b t c _
  · split
    · exact ((h.withPlant _).note _).conclude _
    · exact h.afterCall b t c _

lemma launch (b : BatchId) (t : Token) (c : Command) (k : M.Handler) :
    Alike (w.launch b t c k) (v.launch b t c k) := by
  have hbegan : Alike (w.remember t c k) (v.remember t c k) := by
    rw [remember, remember, h.worker]
    exact (h.withWorker _).note _
  simp only [World.launch, hbegan.moment, hbegan.plant]
  exact hbegan.afterLook b t c _

lemma begin (b : BatchId) (t : Token) (c : Command) : Alike (w.begin b t c) (v.begin b t c) := by
  simp only [World.begin, vet]
  cases M.resolve c.name with
  | none => exact (h.note _).conclude _
  | some k =>
      simp only [h.epoch, h.worker, h.isCancelled]
      split_ifs
      · exact (h.note _).conclude _
      · exact h.launch b t c k

lemma proceed (b : BatchId) (t : Token) (c : Command) (a : M.Activity) :
    Alike (w.proceed b t c a) (v.proceed b t c a) := by
  rw [World.proceed, World.proceed, h.moment, h.plant]
  exact h.afterLook b t c _

lemma afterFinish (b : BatchId) (t : Token) (ks : List M.Handler)
    (r : M.Plant × Progress M.Activity) :
    Alike (w.afterFinish b t ks r) (v.afterFinish b t ks r) := by
  obtain ⟨p, a | e⟩ := r
  · exact (h.withPlant p).enter _
  · exact ((h.withPlant p).note _).enter _

lemma finishNext (b : BatchId) (t : Token) (k : M.Handler) (ks : List M.Handler) :
    Alike (w.finishNext b t k ks) (v.finishNext b t k ks) := by
  have hnote := h.note (.finishBegan t k)
  rw [World.finishNext, World.finishNext, hnote.moment, hnote.plant]
  exact hnote.afterFinish b t ks _

lemma finishOn (b : BatchId) (t : Token) (a : M.Activity) (ks : List M.Handler) :
    Alike (w.finishOn b t a ks) (v.finishOn b t a ks) := by
  rw [World.finishOn, World.finishOn, h.moment, h.plant]
  exact h.afterFinish b t ks _

lemma deliver (t : Token) (r : Result) (deadline : Nat) :
    Alike (w.deliver t r deadline) (v.deliver t r deadline) := by
  rw [World.deliver, World.deliver, h.channel]
  split
  · rename_i ch hoffer
    exact ((h.map (fun u => { u with channel := ch }) (fun _ _ => rfl) rfl).note _).enter _
  · exact (h.note _).enter _
  · rw [h.now]
    split
    · exact (h.note _).enter _
    · exact h

/-- If the same would follow the batch that is over, the same does. -/
lemma clearBoard (hfinal : v.board.lifecycle.finalize = w.board.lifecycle.finalize) :
    Alike w.clearBoard v.clearBoard ∧
      v.clearBoard.board.lifecycle = w.clearBoard.board.lifecycle := by
  have hcleared (l : Lifecycle) : Alike
      { w with board := { w.board with lifecycle := l, queue := [], token := none } }
      { v with board := { v.board with lifecycle := l, queue := [], token := none } } :=
    (h.withLifecycle l l).map
      (fun u => { u with board := { u.board with queue := [], token := none } })
      (fun _ _ => rfl) rfl
  simp only [World.clearBoard, hfinal]
  split
  · exact ⟨(hcleared _).activate _, rfl⟩
  · exact ⟨hcleared _, rfl⟩

lemma report (hfinal : v.board.lifecycle.finalize = w.board.lifecycle.finalize) (t : Token)
    (r : Result) :
    Alike ((w.clearBoard.note (.reported t r)).enter (.reporting t r (w.now + w.reportTimeout)))
        ((v.clearBoard.note (.reported t r)).enter (.reporting t r (v.now + v.reportTimeout))) ∧
      v.clearBoard.board.lifecycle = w.clearBoard.board.lifecycle := by
  obtain ⟨hclear, hl⟩ := h.clearBoard hfinal
  rw [h.now, h.reportTimeout]
  exact ⟨(hclear.note _).enter _, hl⟩

/-- The result of a preempted batch is dropped in both. -/
lemma discard (he : w.board.epoch ≠ w.worker.epoch) (b : BatchId) (t : Token) :
    Alike (w.retire b t) (v.retire b t) := by
  have he' : v.board.epoch ≠ v.worker.epoch := by rwa [h.epoch, h.worker]
  rw [World.retire, World.retire]
  simp only [if_pos he, if_pos he']
  exact ((h.map (fun u => { u with worker := { u.worker with outcome := .ok } }) (fun _ _ => rfl)
    rfl).note _).enter _

/-- If the same follows it in both, a batch is over in both, and then the lifecycles are the
same. -/
lemma retire (he : w.board.epoch = w.worker.epoch)
    (hfinal : v.board.lifecycle.finalize = w.board.lifecycle.finalize) (b : BatchId) (t : Token) :
    Alike (w.retire b t) (v.retire b t) ∧
      (v.retire b t).board.lifecycle = (w.retire b t).board.lifecycle := by
  have he' : v.board.epoch = v.worker.epoch := by rw [h.epoch, h.worker, he]
  have hok : Alike { w with worker := { w.worker with outcome := .ok } }
      { v with worker := { v.worker with outcome := .ok } } :=
    h.map (fun u => { u with worker := { u.worker with outcome := .ok } }) (fun _ _ => rfl) rfl
  simp only [World.retire, if_neg (not_not.mpr he), if_neg (not_not.mpr he'),
    congrArg Worker.outcome h.worker]
  cases w.worker.outcome.isOk with
  | true => exact hok.report hfinal t (.ofOutcome b w.worker.outcome)
  | false => exact (hok.cancel t).report hfinal t (.ofOutcome b w.worker.outcome)

/-- The worker does the same, as long as the same batch executes, may as well receive commands or
not, and is not over. -/
theorem work (hs : w.board.Signalled)
    (hexec : v.board.lifecycle.executing? = w.board.lifecycle.executing?)
    (hacc : v.board.lifecycle.isAccepting = w.board.lifecycle.isAccepting)
    (hp : ∀ b t, ¬ w.Retires b t) : Alike w.work v.work := by
  rw [World.work, World.work, congrArg Worker.phase h.worker]
  cases hphase : w.worker.phase with
  | looking => exact h.look hs hexec hacc
  | parked =>
      simp only [h.wake]
      split
      · exact (h.map (fun u => { u with wake := false }) (fun _ _ => rfl) rfl).enter _
      · exact h
  | popped b t c => exact h.begin b t c
  | running b t c a => exact h.proceed b t c a
  | finishing b t ks =>
      cases ks with
      | nil => exact h.discard (fun he => hp b t ⟨hphase, he⟩) b t
      | cons k ks => exact h.finishNext b t k ks
  | finishingCall b t a ks => exact h.finishOn b t a ks
  | reporting t r deadline => exact h.deliver t r deadline
  | exited => exact h

/-! ### Control calls -/

lemma start {b : BatchId} (hstart : v.board.lifecycle.start b = w.board.lifecycle.start b) :
    Alike (w.start b) (v.start b) ∧ (v.start b).board.lifecycle = (w.start b).board.lifecycle := by
  have hannounced (l : Lifecycle) := (h.withLifecycle l l).note (.announced b)
  simp only [World.start, hstart]
  split
  · exact ⟨(hannounced _).activate _, rfl⟩
  · exact ⟨hannounced _, rfl⟩

lemma preempt (c : Command) (b : BatchId) : Alike (w.preempt c b) (v.preempt c b) := by
  have hrest {w v : World M} (h : Alike w v) :
      Alike { w.halt.activate b with board := { (w.halt.activate b).board with
          queue := [], epoch := (w.halt.activate b).board.epoch + 1 } }
        { v.halt.activate b with board := { (v.halt.activate b).board with
          queue := [], epoch := (v.halt.activate b).board.epoch + 1 } } :=
    (h.halt.activate b).map
      (fun u => { u with board := { u.board with queue := [], epoch := u.board.epoch + 1 } })
      (fun _ _ => rfl) rfl
  simp only [World.preempt, h.token]
  split
  · exact hrest ((h.cancel _).note _)
  · exact hrest h

lemma note_accepted (c : Command) {w' v' : World M} (h' : Alike w' v') :
    Alike (match w.board.token with | some t => w'.note (.accepted t c) | none => w')
      (match v.board.token with | some t => v'.note (.accepted t c) | none => v') := by
  rw [h.token]
  split
  · exact h'.note _
  · exact h'

lemma enqueue {c : Command} (hc : v.board.lifecycle.enqueue c = w.board.lifecycle.enqueue c) :
    Alike (w.enqueue c).1 (v.enqueue c).1 ∧ (v.enqueue c).2 = (w.enqueue c).2 ∧
      (v.enqueue c).1.board.lifecycle = (w.enqueue c).1.board.lifecycle := by
  refine ⟨?_, ?_, by rw [(v.board_enqueue c).1, (w.board_enqueue c).1, hc]⟩
  · have hqueued {w v : World M} (h : Alike w v) : Alike
        { w with board := { w.board with queue := w.board.queue ++ [c] } }
        { v with board := { v.board with queue := v.board.queue ++ [c] } } :=
      h.map (fun u => { u with board := { u.board with queue := u.board.queue ++ [c] } })
        (fun _ _ => rfl) rfl
    rw [World.enqueue, World.enqueue, hc]
    obtain ⟨decision, l⟩ := w.board.lifecycle.enqueue c
    have hl := h.withLifecycle l l
    cases decision with
    | accept b => exact hqueued (h.note_accepted c hl)
    | preempt b i => exact hl.preempt c i
    | reject cause => exact hl.note _
  · rw [World.enqueue, World.enqueue, hc]
    obtain ⟨decision, l⟩ := w.board.lifecycle.enqueue c
    cases decision <;> rfl

/-- Where both drop a command they go on alike, and the worker is not woken. -/
lemma enqueue_dropped {c : Command} {x x' : Rejection} {l l' : Lifecycle}
    (hw : w.board.lifecycle.enqueue c = (.reject x, l))
    (hv : v.board.lifecycle.enqueue c = (.reject x', l')) :
    Alike (w.enqueue c).1 (v.enqueue c).1 ∧ (w.enqueue c).2 = false ∧ (v.enqueue c).2 = false ∧
      (w.enqueue c).1.board = { w.board with lifecycle := l } ∧
      (v.enqueue c).1.board.lifecycle = l' := by
  simp only [World.enqueue, hw, hv]
  exact ⟨(h.withLifecycle l l').note_arrival rfl rfl, trivial, trivial, rfl, rfl⟩

lemma finishStream : Alike w.finishStream v.finishStream := h.withLifecycle _ _

lemma stopUpdate : Alike w.stopUpdate v.stopUpdate := by
  have hstopped := h.halt.note .stopped
  rw [World.stopUpdate, World.stopUpdate, hstopped.token]
  split
  · exact hstopped.cancel _
  · exact hstopped

lemma closeUpdate : Alike w.closeUpdate v.closeUpdate :=
  ((h.map (fun u => { u with board := { u.board with closing := true } }) (fun _ _ => rfl)
    rfl).finishStream).note _

/-- What happens around the executor happens to both. -/
lemma act_ambient {x : Action M} (hx : x.ambient = true) : Alike (w.act x) (v.act x) := by
  cases x with
  | background => exact h.map background (fun _ _ => rfl) rfl
  | pass t => exact h.map (·.passTo t) (fun _ _ => rfl) rfl
  | disturb p => exact h.withPlant p
  | receive => exact h.map (fun u => { u with channel := u.channel.receive.2 }) (fun _ _ => rfl) rfl
  | hangUp => exact h.map (fun u => { u with channel := u.channel.close }) (fun _ _ => rfl) rfl
  | _ => cases hx

end Alike

end World

end RoverPilot
