import Mathlib.Tactic
import RoverPilot.Proofs.Executor.Activation

/-!
Headers and what happens until the next one.

* `Stretch`, `History.stretches`: a history falls into the stretches of its headers, the
  newest one first;
* `Stretch.Activated`, `Stretch.Refused`, `Stretch.Silent`: what may become of a header until
  the next one arrives;
* `Stretch.Newest`, `Ledger.Reachable.newest`: what has become of the last header agrees with
  the lifecycle;
* `Ledger.Reachable.activations_eq`: each activation belongs to the stretch in which it begins;
* `Stretch.Overtaken`, `Ledger.Reachable.overtaken`: a preempted activation is preempted by the
  first command of a later header.
-/

namespace RoverPilot

open History

variable {M : Machinery}

/-- A header and what happens until the next one. -/
structure Stretch (M : Machinery) where
  batch : BatchId
  /-- What happens after the header, the oldest event first. -/
  events : List (Event M)

namespace Stretch

variable {s : Stretch M} {ss : List (Stretch M)} {e : Event M} {t : Token}

/-! ### Stretches -/

/-- One more event happens. -/
def add (s : Stretch M) (e : Event M) : Stretch M := { s with events := s.events ++ [e] }

@[simp] lemma add_batch : (s.add e).batch = s.batch := rfl

@[simp] lemma add_events : (s.add e).events = s.events ++ [e] := rfl

/-- A header begins a stretch, and any other event belongs to the newest one. -/
def file (ss : List (Stretch M)) : Event M → List (Stretch M)
  | .announced b => ⟨b, []⟩ :: ss
  | e => ss.modifyHead (·.add e)

@[simp] lemma file_announced (b : BatchId) : file ss (.announced b) = ⟨b, []⟩ :: ss := rfl

lemma file_eq (he : e.header? = none) : file ss e = ss.modifyHead (·.add e) := by
  cases e <;> first | rfl | cases he

/-- The activations of stretches, in order. -/
def activations (ss : List (Stretch M)) : List (Token × BatchId) :=
  ss.reverse.flatMap fun s => History.activations s.events

@[simp] lemma activations_nil : activations ([] : List (Stretch M)) = [] := rfl

@[simp] lemma activations_cons :
    activations (s :: ss) = activations ss ++ History.activations s.events := by
  simp [activations]

lemma activations_file (he : e.activation? = none) :
    activations (file ss e) = activations ss := by
  cases hh : e.header? with
  | some b => cases e <;> simp_all
  | none =>
      rw [file_eq hh]
      cases ss with
      | nil => rfl
      | cons s ss =>
          rw [List.modifyHead_cons, activations_cons, activations_cons, add_events,
            History.activations, view_concat he]

/-! ### What may become of a header -/

/-- The batch is activated. -/
def Activated (t : Token) (s : Stretch M) : Prop := History.activations s.events = [(t, s.batch)]

/-- The batch is not activated, and no command has come. -/
def Silent (s : Stretch M) : Prop :=
  History.activations s.events = [] ∧ commands s.events = []

/-- The batch is not activated, and its first command was not the preempting one and was
dropped for that. -/
def Refused (s : Stretch M) : Prop :=
  History.activations s.events = [] ∧ ∃ mid c rest,
    s.events = mid ++ .dropped c (.incomingNotStop s.batch) :: rest ∧ commands mid = [] ∧
      c.hasName preemptingName = false

/-- The first command is the preempting one, and preempts an activation. -/
def Preempts (t : Token) (s : Stretch M) : Prop :=
  ∃ mid c rest, s.events = mid ++ .preempted t c :: rest ∧ commands mid = [] ∧
    c.hasName preemptingName = true

/-- The batch was activated or refused. -/
def Settled (s : Stretch M) : Prop := (∃ t, s.Activated t) ∨ s.Refused

lemma Activated.unique {u : Token} (h : s.Activated t) (hu : s.Activated u) : t = u := by
  simpa using h.symm.trans hu

lemma Activated.not_silent (h : s.Activated t) : ¬ s.Silent :=
  fun hs => List.cons_ne_nil _ _ (h.symm.trans hs.1)

lemma Activated.not_refused (h : s.Activated t) : ¬ s.Refused :=
  fun hs => List.cons_ne_nil _ _ (h.symm.trans hs.1)

lemma Refused.not_silent (h : s.Refused) : ¬ s.Silent := by
  obtain ⟨-, mid, c, rest, heq, -, -⟩ := h
  intro hs
  simpa [heq] using hs.2

lemma Preempts.mem (h : s.Preempts t) : t ∈ preempted s.events := by
  obtain ⟨mid, c, rest, heq, -, -⟩ := h
  simp [heq]

lemma Activated.add (h : s.Activated t) (he : e.activation? = none) : (s.add e).Activated t := by
  rwa [Activated, add_events, History.activations, view_concat he]

lemma Silent.add (h : s.Silent) (he : e.activation? = none) (hc : e.command? = none) :
    (s.add e).Silent := by
  rwa [Silent, add_events, History.activations, commands, view_concat he, view_concat hc]

lemma Silent.activate (h : s.Silent) (t : Token) : (s.add (.activated t s.batch)).Activated t := by
  simpa [Activated] using h.1

lemma Silent.refuse (h : s.Silent) {c : Command} (hc : c.hasName preemptingName = false) :
    (s.add (.dropped c (.incomingNotStop s.batch))).Refused :=
  ⟨by simpa using h.1, s.events, c, [], rfl, h.2, hc⟩

lemma Silent.preempt (h : s.Silent) {c : Command} (hc : c.hasName preemptingName = true) :
    (s.add (.preempted t c)).Preempts t :=
  ⟨s.events, c, [], rfl, h.2, hc⟩

lemma Refused.add (h : s.Refused) (he : e.activation? = none) : (s.add e).Refused := by
  obtain ⟨hact, mid, c, rest, heq, hmid, hc⟩ := h
  exact ⟨(view_concat he).trans hact, mid, c, rest ++ [e], by simp [heq], hmid, hc⟩

lemma Preempts.add (h : s.Preempts t) : (s.add e).Preempts t := by
  obtain ⟨mid, c, rest, heq, hmid, hc⟩ := h
  exact ⟨mid, c, rest ++ [e], by simp [heq], hmid, hc⟩

lemma Settled.add (h : s.Settled) (he : e.activation? = none) : (s.add e).Settled :=
  h.imp (fun ⟨t, ht⟩ => ⟨t, ht.add he⟩) (·.add he)

/-! ### The newest header -/

/-- What has become of the newest header, by the lifecycle and the signal stored. -/
inductive Newest (token : Option Token) : Lifecycle → List (Stretch M) → Prop where
  | unannounced : Newest token .idle []
  | idle (s : Stretch M) (ss : List (Stretch M)) (h : s.Settled) : Newest token .idle (s :: ss)
  | executing (s : Stretch M) (ss : List (Stretch M)) (t : Token) (ht : token = some t)
      (h : s.Activated t) : Newest token (.executing s.batch) (s :: ss)
  | finishCalled (s : Stretch M) (ss : List (Stretch M)) (t : Token) (ht : token = some t)
      (h : s.Activated t) : Newest token (.finishCalled s.batch) (s :: ss)
  | collecting (s : Stretch M) (ss : List (Stretch M)) (b : BatchId) (closed : Bool)
      (h : s.Silent) : Newest token (.collecting b s.batch closed) (s :: ss)
  | ignoring (s : Stretch M) (ss : List (Stretch M)) (b : BatchId)
      (h : s.Refused) : Newest token (.ignoring b s.batch) (s :: ss)

section Newest

variable {token : Option Token} {lc : Lifecycle}

/-- An event that is neither a header nor an activation, and no command as long as a batch
waits for its first one. -/
lemma Newest.file (h : Newest token lc ss) (hheader : e.header? = none) (he : e.activation? = none)
    (hc : lc.stage = .collecting → e.command? = none) : Newest token lc (file ss e) := by
  rw [file_eq hheader]
  cases h with
  | unannounced => exact .unannounced
  | idle s ss h => exact .idle _ ss (h.add he)
  | executing s ss t ht h => exact .executing (s.add e) ss t ht (h.add he)
  | finishCalled s ss t ht h => exact .finishCalled (s.add e) ss t ht (h.add he)
  | collecting s ss b closed h => exact .collecting (s.add e) ss b closed (h.add he (hc rfl))
  | ignoring s ss b h => exact .ignoring (s.add e) ss b (h.add he)

/-- The stream of the newest header ends. -/
lemma Newest.finish (h : Newest token lc ss) : Newest token lc.finish.2 ss := by
  cases h with
  | unannounced => exact .unannounced
  | idle s ss h => exact .idle s ss h
  | executing s ss t ht h => exact .finishCalled s ss t ht h
  | finishCalled s ss t ht h => exact .finishCalled s ss t ht h
  | collecting s ss b closed h => exact .collecting s ss b true h
  | ignoring s ss b h => exact .ignoring s ss b h

/-- The executing batch is over, and no batch waits for its first command. -/
lemma Newest.retire (h : Newest token lc ss) (hl : lc.stage ≠ .collecting) (token' : Option Token) :
    Newest token' .idle ss := by
  cases h with
  | unannounced => exact .unannounced
  | idle s ss h => exact .idle s ss h
  | executing s ss t ht h => exact .idle s ss (.inl ⟨t, h⟩)
  | finishCalled s ss t ht h => exact .idle s ss (.inl ⟨t, h⟩)
  | collecting => exact absurd rfl hl
  | ignoring s ss b h => exact .idle s ss (.inr h)

/-- A batch that waits for its first command is that of the newest header. -/
lemma Newest.waits {b i : BatchId} {closed : Bool} (h : Newest token (.collecting b i closed) ss) :
    ∃ s older, ss = s :: older ∧ s.batch = i ∧ s.Silent := by
  cases h with
  | collecting s older b closed h => exact ⟨s, older, rfl, rfl, h⟩

/-- The newest header was activated or refused, or waits. -/
lemma Newest.settled_or_silent (h : Newest token lc ss) : ∀ s ∈ ss.head?, s.Settled ∨ s.Silent := by
  cases h with
  | unannounced => simp
  | idle s ss h => simpa using .inl h
  | executing s ss t ht h => simpa using .inl (.inl ⟨t, h⟩)
  | finishCalled s ss t ht h => simpa using .inl (.inl ⟨t, h⟩)
  | collecting s ss b closed h => simpa using .inr h
  | ignoring s ss b h => simpa using .inl (.inr h)

end Newest

lemma forall_mem {P : Stretch M → Prop} (hhead : ∀ s ∈ ss.head?, P s)
    (htail : ∀ s ∈ ss.tail, P s) : ∀ s ∈ ss, P s := by
  cases ss <;> simp_all

/-! ### Preemptions -/

/-- An activation was preempted by the first command of a later header. -/
def Overtaken (t : Token) (ss : List (Stretch M)) : Prop :=
  ∃ newer s older, ss = newer ++ s :: older ∧ s.Preempts t ∧ ∃ s' ∈ older, s'.Activated t

lemma Overtaken.file (h : Overtaken t ss) : Overtaken t (file ss e) := by
  obtain ⟨newer, s, older, rfl, hs, hs'⟩ := h
  cases hh : e.header? with
  | some b =>
      obtain rfl : e = .announced b := by cases e <;> simp_all
      exact ⟨⟨b, []⟩ :: newer, s, older, rfl, hs, hs'⟩
  | none =>
      rw [file_eq hh]
      cases newer with
      | nil => exact ⟨[], s.add e, older, rfl, hs.add, hs'⟩
      | cons n newer => exact ⟨n.add e :: newer, s, older, rfl, hs, hs'⟩

lemma Overtaken.foldl (h : Overtaken t ss) (new : List (Event M)) :
    Overtaken t (new.foldl Stretch.file ss) := by
  induction new generalizing ss with
  | nil => exact h
  | cons e new ih => exact ih h.file

end Stretch

namespace History

/-- The stretches of a history, the newest one first. -/
def stretches (h : List (Event M)) : List (Stretch M) := h.foldl Stretch.file []

variable {h k : List (Event M)} {e e' : Event M}

@[simp] lemma stretches_nil : stretches ([] : List (Event M)) = [] := rfl

lemma stretches_append : stretches (h ++ k) = k.foldl Stretch.file (stretches h) :=
  List.foldl_append

@[simp] lemma stretches_append_singleton :
    stretches (h ++ [e]) = Stretch.file (stretches h) e := stretches_append

@[simp] lemma stretches_append_pair :
    stretches (h ++ [e, e']) = Stretch.file (Stretch.file (stretches h) e) e' := stretches_append

/-- A history is what happened before the first header, and then its stretches. -/
lemma eq_append_stretches (h : List (Event M)) : ∃ pre, headers pre = [] ∧
    h = pre ++ (stretches h).reverse.flatMap fun s => .announced s.batch :: s.events := by
  induction h using List.reverseRecOn with
  | nil => exact ⟨[], rfl, rfl⟩
  | append_singleton h e ih =>
      obtain ⟨pre, hpre, heq⟩ := ih
      rw [stretches_append_singleton]
      cases hh : e.header? with
      | some b =>
          obtain rfl : e = .announced b := by cases e <;> simp_all
          exact ⟨pre, hpre, by simpa using congrArg (· ++ [Event.announced b]) heq⟩
      | none =>
          rw [Stretch.file_eq hh]
          cases hs : stretches h with
          | nil =>
              rw [hs] at heq
              exact ⟨pre ++ [e], (view_concat hh).trans hpre, by simpa using heq⟩
          | cons s ss =>
              rw [hs] at heq
              exact ⟨pre, hpre, by simpa using congrArg (· ++ [e]) heq⟩

lemma mem_of_mem_stretches {s : Stretch M} (hs : s ∈ stretches h) (he : e ∈ s.events) :
    e ∈ h := by
  obtain ⟨pre, -, heq⟩ := eq_append_stretches h
  rw [heq, List.mem_append, List.mem_flatMap]
  exact .inr ⟨s, List.mem_reverse.mpr hs, List.mem_cons_of_mem _ he⟩

end History

/-- A command that is dropped without a change meets no batch that waits for its first one. -/
lemma Lifecycle.stage_of_reject {lc : Lifecycle} {c : Command} {cause : Rejection}
    (h : lc.enqueue c = (.reject cause, lc)) : lc.stage ≠ .collecting := by
  cases lc with
  | collecting b i closed =>
      rw [enqueue] at h
      split at h <;> cases h
  | _ => simp [stage]

namespace Ledger

variable {l l' : Ledger M} {t : Token} {b : BatchId}

/-- What has become of the newest header agrees with the lifecycle. -/
lemma Reachable.newest (h : Reachable l) :
    Stretch.Newest l.board.token l.board.lifecycle (stretches l.history) := by
  induction h with
  | initial => exact .unannounced
  | step hr hs ih =>
      rename_i l l'
      cases hs with
      | start b => simpa using .executing (Stretch.add ⟨b, []⟩ _) _ _ rfl rfl
      | wait b e => simpa using .collecting ⟨b, []⟩ _ e false ⟨rfl, rfl⟩
      | preempt b i k u c hopen hl =>
          rw [hl] at ih
          obtain ⟨s, older, hss, rfl, hsilent⟩ := ih.waits
          rw [stretches_append_pair, hss]
          exact .executing ((s.add _).add _) older l.tokens rfl
            (by simpa [Stretch.Activated] using hsilent.1)
      | ignore b i k c hopen hl hc =>
          rw [hl] at ih
          obtain ⟨s, older, hss, rfl, hsilent⟩ := ih.waits
          rw [stretches_append_singleton, hss]
          exact .ignoring (s.add _) older b (hsilent.refuse hc)
      | finish => exact ih.finish
      | close => simpa using ih.finish.file rfl rfl (fun _ => rfl)
      | retire b u d hp he hl => simpa using (ih.retire hl none).file rfl rfl (fun _ => rfl)
      | promote b u d e i closed hp he hl =>
          rw [hl] at ih
          obtain ⟨s, older, hss, rfl, hsilent⟩ := ih.waits
          rw [stretches_append_pair, hss]
          have hact := (hsilent.activate l.tokens).add
            (e := .reported u (.ofOutcome b l.worker.outcome)) rfl
          cases closed with
          | true => exact .finishCalled ((s.add _).add _) older l.tokens rfl hact
          | false => exact .executing ((s.add _).add _) older l.tokens rfl hact
      | drop c cause hopen hl =>
          rw [stretches_append_singleton]
          exact ih.file rfl rfl (fun hcol => absurd hcol (Lifecycle.stage_of_reject hl))
      | accept b t c hopen hl =>
          rw [stretches_append_singleton]
          exact ih.file rfl rfl (fun hcol => by rw [hl] at hcol; cases hcol)
      | rouse | notice | rest | exit | pop | park | fail | complete | unpark | goOn
      | goOnFinishing => exact ih
      | doAtOnce | finishAtOnce =>
          rw [stretches_append_pair]
          exact (ih.file rfl rfl (fun _ => rfl)).file rfl rfl (fun _ => rfl)
      | _ =>
          rw [stretches_append_singleton]
          exact ih.file rfl rfl (fun _ => rfl)

/-- What has become of the headers before the newest one. -/
lemma Reachable.older_settled (h : Reachable l) :
    ∀ s ∈ (stretches l.history).tail, s.Settled ∨ s.Silent := by
  induction h with
  | initial => simp [Ledger.initial]
  | step hr hs ih =>
      cases hs with
      | start | wait =>
          have hhead := hr.newest.settled_or_silent
          simpa [Stretch.file] using Stretch.forall_mem hhead ih
      | finish | rouse | notice | rest | exit | pop | park | fail | complete | unpark | goOn
      | goOnFinishing => exact ih
      | _ => simpa [Stretch.file] using ih

/-- What has become of the headers. -/
lemma Reachable.settled (h : Reachable l) :
    ∀ s ∈ stretches l.history, s.Settled ∨ s.Silent :=
  Stretch.forall_mem h.newest.settled_or_silent h.older_settled

/-- Each activation belongs to the stretch in which it begins. -/
lemma Reachable.activations_eq (h : Reachable l) :
    activations l.history = Stretch.activations (stretches l.history) := by
  induction h with
  | initial => rfl
  | step hr hs ih =>
      rename_i l l'
      have hnewest := hr.newest
      cases hs with
      | start => simp [Stretch.file, ih]
      | preempt b i k u c hopen hl | promote b u d e i closed hp he hl =>
          rw [hl] at hnewest
          obtain ⟨s, older, hss, rfl, hsilent⟩ := hnewest.waits
          simp [Stretch.file, ih, hss]
      | finish | rouse | notice | rest | exit | pop | park | fail | complete | unpark | goOn
      | goOnFinishing => exact ih
      | doAtOnce | finishAtOnce =>
          rw [stretches_append_pair, Stretch.activations_file rfl, Stretch.activations_file rfl]
          simpa using ih
      | _ =>
          rw [stretches_append_singleton, Stretch.activations_file rfl]
          simpa using ih

lemma Reachable.mem_activations (h : Reachable l) {s : Stretch M} (hs : s ∈ stretches l.history)
    (ht : s.Activated t) : (t, s.batch) ∈ activations l.history := by
  rw [h.activations_eq, Stretch.activations, List.mem_flatMap]
  exact ⟨s, List.mem_reverse.mpr hs, by rw [ht]; simp⟩

/-- A stretch in which an activation begins. -/
lemma Reachable.exists_activated (h : Reachable l) (ht : (t, b) ∈ activations l.history) :
    ∃ s ∈ stretches l.history, s.Activated t := by
  rw [h.activations_eq, Stretch.activations, List.mem_flatMap] at ht
  obtain ⟨s, hs, hmem⟩ := ht
  rw [List.mem_reverse] at hs
  refine ⟨s, hs, ?_⟩
  rcases h.settled s hs with (⟨u, hu⟩ | hu) | hu
  · rw [hu, List.mem_singleton] at hmem
    cases hmem
    exact hu
  · simp [hu.1] at hmem
  · simp [hu.1] at hmem

/-- A preempted activation was preempted by the first command of a later header. -/
lemma Reachable.overtaken (h : Reachable l) (ht : t ∈ preempted l.history) :
    Stretch.Overtaken t (stretches l.history) := by
  induction h with
  | initial => simp [Ledger.initial] at ht
  | step hr hs ih =>
      rename_i l l'
      obtain ⟨new, hnew, -⟩ := hs.concerns
      have hold (ht : t ∈ preempted l.history) : Stretch.Overtaken t (stretches l'.history) := by
        rw [hnew, stretches_append]
        exact (ih ht).foldl new
      cases hs with
      | preempt b i k u c hopen hl hc hu =>
          obtain ht | rfl : t ∈ preempted l.history ∨ t = u := by simpa using ht
          · exact hold ht
          · have hnewest := hr.newest
            rw [hl] at hnewest
            obtain ⟨s, older, hss, rfl, hsilent⟩ := hnewest.waits
            have ha : l.board.active? = some (t, b) :=
              Board.active?_eq_some_iff.mpr ⟨hu, congrArg Lifecycle.executing? hl⟩
            obtain ⟨s', hs', hact⟩ := hr.exists_activated (hr.active_mem ha)
            rw [stretches_append_pair, hss]
            rw [hss] at hs'
            have hne : s' ≠ s := by
              rintro rfl
              exact hact.not_silent hsilent
            have hover : Stretch.Overtaken t (Stretch.file (s :: older) (.preempted t c)) :=
              ⟨[], s.add _, older, rfl, hsilent.preempt hc, s', by simpa [hne] using hs', hact⟩
            exact hover.file
      | _ => exact hold (by simpa using ht)

/-- An activation begins in one stretch only. -/
lemma Reachable.pairwise_activated (h : Reachable l) :
    (stretches l.history).Pairwise fun s s' => ∀ t, s.Activated t → ¬ s'.Activated t := by
  have hnodup := h.numbered ▸ List.nodup_range (n := l.tokens)
  rw [h.activations_eq, Stretch.activations, List.map_flatMap, List.nodup_flatMap,
    List.pairwise_reverse] at hnodup
  refine hnodup.2.imp fun {s s'} hdisjoint t hs hs' => ?_
  have hmem {s : Stretch M} (hact : s.Activated t) :
      t ∈ (activations s.events).map Prod.fst := by
    rw [hact]
    simp
  exact hdisjoint (hmem hs') (hmem hs)

/-- The header whose first command preempts an activation is newer than the one whose batch
was activated. -/
lemma Reachable.exists_preempts (h : Reachable l) {newer older : List (Stretch M)}
    {s : Stretch M} (hss : stretches l.history = newer ++ s :: older) (hact : s.Activated t)
    (ht : t ∈ preempted l.history) : ∃ s' ∈ newer, s'.Preempts t := by
  obtain ⟨newer', s', older', hss', hs', s'', hs'', hact''⟩ := h.overtaken ht
  -- `s` is the only stretch that `t` begins in, so the older one `s''` is `s` itself or newer
  have hpair := h.pairwise_activated
  rw [hss, List.pairwise_append, List.pairwise_cons] at hpair
  have hnot : s'' ∉ older := fun hmem => hpair.2.1.1 s'' hmem t hact hact''
  refine ⟨s', ?_, hs'⟩
  rcases List.append_eq_append_iff.mp (hss.symm.trans hss') with
    ⟨as, -, htail⟩ | ⟨bs, rfl, htail⟩
  · cases as with
    | nil =>
        cases htail
        exact absurd hs'' hnot
    | cons a as =>
        cases htail
        exact absurd (List.mem_append_right _ (List.mem_cons_of_mem _ hs'')) hnot
  · cases bs with
    | nil =>
        cases htail
        exact absurd hs'' hnot
    | cons b bs =>
        cases htail
        simp

end Ledger

end RoverPilot
