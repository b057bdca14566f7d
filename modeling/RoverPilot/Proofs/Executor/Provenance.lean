import Mathlib.Tactic
import RoverPilot.Proofs.Executor.Hearing
import RoverPilot.Proofs.Executor.Stop

/-!
Where the commands that begin come from.

* `History.begins`, `Ledger.waiting`: the commands that began, and those that wait to begin, each
  with its activation;
* `Ledger.Reachable.begins_sublist`: the commands that began, with those that wait behind them,
  are some of the accepted ones, in the same order;
* `World.run_authorised`: each command that begins stands on a line of its own of the model's text,
  behind the header of its batch.
-/

namespace RoverPilot

open History

variable {M : Machinery}

/-! ### Commands that begin -/

/-- A command that begins, with its activation. -/
@[simp] def Event.begin? : Event M → Option (Token × Command)
  | .began t c _ => some (t, c)
  | _ => none

/-- The commands that began with their activations, in order. -/
abbrev History.begins (h : List (Event M)) : List (Token × Command) := view Event.begin? h

/-- The command that the worker has in hand, with its activation. -/
@[simp] def Phase.popped? : Phase M → Option (Token × Command)
  | .popped _ t c => some (t, c)
  | _ => none

namespace Ledger

variable {l : Ledger M}

/-- The commands that wait to begin, with their activations: the one in hand, and those in the
queue. -/
def waiting (l : Ledger M) : List (Token × Command) :=
  l.worker.phase.popped?.toList ++ l.board.token.toList ×ˢ l.board.queue

/-- The commands that began, with those that wait behind them, are some of the accepted ones. -/
lemma Reachable.begins_sublist (h : Reachable l) :
    (begins l.history ++ l.waiting).Sublist (enrolled l.history) := by
  induction h with
  | initial => exact .slnil
  | step hr hs ih =>
      rename_i l l'
      -- it suffices that fewer commands wait than before
      have hfewer {new : List (Token × Command)} (h : new.Sublist l.waiting) :
          (begins l.history ++ new).Sublist (enrolled l.history) := (h.append_left _).trans ih
      cases hs with
      | start b hopen hl =>
          have ht : l.board.token = none := by simpa [Board.Signalled, hl] using hr.signalled
          have hq : l.board.queue = [] := (hr.idle ht).2.2.1
          simpa [waiting, ht, hq] using ih
      | accept b t c hopen hl ht =>
          simpa [waiting, ht] using ih.append_right [(t, c)]
      | preempt => simpa [waiting] using hfewer (List.sublist_append_left _ _)
      | unresolved _ _ _ hp | skip _ _ _ _ hp =>
          simpa [waiting, hp] using hfewer (List.sublist_append_right _ _)
      | rest hp | exit hp | retire _ _ _ hp | promote _ _ _ _ _ _ hp =>
          simpa [waiting, hp] using hfewer (List.nil_sublist _)
      | _ => simp_all [waiting]

/-- A command begins as a call of the handler of its name. -/
lemma Reachable.resolve_of_began (h : Reachable l) {t : Token} {c : Command} {k : M.Handler}
    (hb : .began t c k ∈ l.history) : M.resolve c.name = some k := by
  induction h with
  | initial => cases hb
  | step _ hs ih =>
      cases hs with
      | begin | doAtOnce => grind
      | _ => simp_all

end Ledger

/-- The model's text authorises every command, however the text is cut in pieces and in whatever
order its calls, a stop, a shutdown and the worker take their turns.  Each command that begins
stands on a line of its own, in the order of the text: a command of the batch that it begins for,
behind a valid header of that batch in the same turn, with neither another header nor free text
between them.  It begins as a call of the handler of its name. -/
theorem World.run_authorised (p : M.Plant) (ch : Channel) (d : Nat) (fs : List Feed)
    (as : List (Action M)) (hcalls : Action.calls as <+: (Parser.hearAll {} fs).2) :
    let h := ((fresh p ch d).run as).history
    List.SublistForall₂ (fun x l => ∃ b, (x.1, b) ∈ activations h ∧ l.Authorises b x.2)
        (begins h) (Feed.places fs) ∧
      ∀ t c k, .began t c k ∈ h → M.resolve c.name = some k := by
  intro h
  have hr : (World.ledger _).Reachable := reachable_run p ch d as
  refine ⟨?_, fun t c k => hr.resolve_of_began⟩
  obtain ⟨rest, hrest⟩ := hcalls
  have horderly := Parser.orderly_hearAll fs
  have hentries := Parser.entries_hearAll fs
  rw [← hrest] at horderly hentries
  rw [Call.entries_append] at hentries
  -- what begins was accepted, what was accepted was brought, and what was brought was written
  have hbegan : (begins h).Sublist (enrolled h) :=
    (List.sublist_append_left _ _).trans hr.begins_sublist
  have hbrought : Brought h (Action.calls as) :=
    (heard_run p ch d as ((Call.orderly_append _ _ _).mp horderly).1).brought
  have hwritten := sublistForall₂_of_sublist (List.sublist_append_left _ _) hentries
  refine sublistForall₂_of_sublist hbegan (sublistForall₂_trans ?_ hbrought hwritten)
  rintro ⟨t, c⟩ ⟨b, c'⟩ l ⟨hactive, hcommand⟩ hl
  obtain rfl : c = c' := hcommand
  exact ⟨b, hactive, hl⟩

/-- Two turns in three pieces: a text to speak with free text behind it, and then a batch that
takes over, with a line that nothing stands behind. -/
def twoTurns : List Feed :=
  [.piece "[COMMANDS id=1]\n> say he".toList, .piece "llo\nThat is all.\n> say more".toList,
    .turnEnd, .piece "[commands ID = 2]\n>stop\n\n> Say again".toList, .turnEnd]

/-- The worker takes turns with the calls for them. -/
def twoTurnsHeard : List (Action (Rig.machinery {})) :=
  [.call (.start 1), .call (.enqueue ⟨"SAY", ["hello"]⟩), .work, .call .finish, .work,
    .call (.start 2), .call (.enqueue ⟨"STOP", []⟩), .call (.enqueue ⟨"SAY", ["again"]⟩),
    .call .finish, .work, .work]

/-- Both texts are spoken, each for the batch of its header, and what stands behind the free text
is not. -/
theorem World.run_authorised_twoTurns :
    let h := (standardWorld.run twoTurnsHeard).history
    Action.calls twoTurnsHeard <+: (Parser.hearAll {} twoTurns).2 ∧
      begins h = [(0, ⟨"SAY", ["hello"]⟩), (1, ⟨"SAY", ["again"]⟩)] ∧
      activations h = [(0, 1), (1, 2)] ∧
      List.SublistForall₂ (fun x l => ∃ b, (x.1, b) ∈ activations h ∧ l.Authorises b x.2)
        (begins h) (Feed.places twoTurns) := by
  intro h
  have hcalls : Action.calls twoTurnsHeard <+: (Parser.hearAll {} twoTurns).2 := by
    decide +kernel
  exact ⟨hcalls, by decide +kernel, by decide +kernel,
    (World.run_authorised _ _ _ twoTurns twoTurnsHeard hcalls).1⟩

end RoverPilot
