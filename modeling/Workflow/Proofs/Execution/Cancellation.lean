import Workflow.Proofs.Execution.Lineage
import Workflow.Proofs.Execution.Settlement

/-!
# `Workflow.Proofs.Execution.Cancellation` — what is given up stays given up

A run that is to be aborted is not told so in one place: each activation finds out when it has its turn.  Until
then it may still take in jobs, be caught and pause, but it neither enters a state nor invokes a handler.  An
attempt that fails lets go of the jobs still under way, and with them of their names: no name is given twice, so nothing
that happens later in the run can belong to them.

## Contents
- **Turns.** `Note.Begins`, and `respond_rests`: no turn begins anything once the run is to be given up.
- **Attempts.** `FailsOn`, and `FailsOn.spends`: an attempt that fails has spent the names of all its jobs.
- **Runs.** `Quiet`, `Stilled` and `Stilled.move`, and `Named.spent_of_fails`.
-/

namespace Workflow.Execution

variable {host : Host} {moment : Moment} {frame : Frame} {attempt : Attempt}

/-! ## Turns -/

/-- A note about something that begins: a state is entered, or a handler is invoked. -/
def Note.Begins : Note → Prop
  | .event (.stateEntered ..) => True
  | .call .. => True
  | _ => False

/-- A turn in which nothing begins. -/
def Turn.Rests (turn : Turn) : Prop := ∀ note ∈ turn.notes, ¬ note.Begins

theorem Turn.Rests.after {turn : Turn} {notes : List Note} (h : turn.Rests)
    (resting : ∀ note ∈ notes, ¬ note.Begins) : (turn.after notes).Rests :=
  fun note hnote => (List.mem_append.mp hnote).elim (resting note) (h note)

theorem stop_rests (ending : Ending) : (stop frame ending).Rests := by
  simp [Turn.Rests, stop]

theorem leave_rests (next : Option String) (output : Json) : (leave frame next output).Rests := by
  cases next <;> simp [Turn.Rests, leave, Note.Begins]

theorem recover_rests (fault : Fault) : (recover moment frame attempt fault).Rests := by
  rcases recover_cases moment frame attempt fault with
    ⟨number, delay, counters, -, e⟩ | ⟨next, output, counters, -, e⟩ | ⟨last, counters, -, e⟩ <;> rw [e]
  · simp [Turn.Rests, Note.Begins]
  · exact (leave_rests _ _).after (by simp [Note.Begins])
  · exact stop_rests _

theorem conclude_rests (result : Json) : (conclude moment frame attempt result).Rests := by
  rcases conclude_cases moment frame attempt result with
    ⟨fault, -, e⟩ | ⟨next, output, -, e⟩ | ⟨fault, -, e⟩ <;> rw [e]
  · exact recover_rests fault
  · exact leave_rests next output
  · exact stop_rests _

/-- Jobs that begin have not entered their first state. -/
theorem begunNotes_rest (indices : List Nat) : ∀ note ∈ begunNotes frame attempt indices, ¬ note.Begins := by
  refine forall_begunNotes ?_ ?_ indices <;> simp [Note.Begins]

theorem fan_rests (fanOut : FanOut Activation) : (fan moment frame attempt fanOut).Rests := by
  obtain ⟨filling, rfl, ⟨fault, -, e⟩ | ⟨-, -, e⟩ | ⟨-, -, e⟩⟩ := fan_cases moment frame attempt fanOut <;> rw [e]
  · exact (recover_rests fault).after (begunNotes_rest _)
  · exact (conclude_rests _).after (begunNotes_rest _)
  · exact begunNotes_rest _

theorem join_rests (fanOut : FanOut Activation) (index : Nat) (ending : Ending) :
    (join moment frame attempt fanOut index ending).Rests := by
  cases ending with
  | output value =>
      refine (fan_rests _).after ?_
      unfold succeededEvent
      split <;> simp [Note.Begins]
  | fault fault =>
      exact (recover_rests _).after (forall_jobNotes (by simp [Note.Begins]) (by simp [Note.Begins]) _ _ _)
  | cancelled => exact stop_rests _

/-- Nothing begins in a turn in which a reply is taken. -/
theorem respond_rests_of_invoking {invocation : Invocation} {signal : Signal} {turn : Turn}
    (h : (Activation.node frame (.invoking attempt invocation)).respond host moment signal = some turn) : turn.Rests := by
  rcases respond_cases h with ⟨-, hp⟩ | ⟨_, _, _, _, _, _, -, e, -⟩
  · rcases proceed_cases hp with ⟨-, rfl⟩ | ⟨-, ⟨e, -⟩ | ⟨_, _, _, e, -⟩ | ⟨_, _, result, -, -, rfl⟩ |
      ⟨_, _, fault, -, -, rfl⟩ | ⟨_, _, e, -⟩⟩
    · exact stop_rests _
    · cases e
    · cases e
    · exact conclude_rests result
    · exact recover_rests fault
    · cases e
  · cases e

/-- **Once the run is to be given up, nothing begins in any turn.** -/
theorem respond_rests {signal : Signal} {activation : Activation} {turn : Turn} (cancelled : moment.cancelled = true)
    (h : activation.respond host moment signal = some turn) : turn.Rests := by
  rcases respond_cases h with ⟨-, hp⟩ | ⟨frame, attempt, fanOut, index, child, ending, -, -, -, -, rfl⟩
  · rcases proceed_cases hp with ⟨-, rfl⟩ | ⟨going, -⟩
    · exact stop_rests _
    · cases cancelled.symm.trans going
  · exact join_rests fanOut index ending

/-! ## Attempts -/

/-- To take in the job at an index fails the attempt: the job has failed, or it has ended and the next one has an input
    that cannot be told. -/
def FailsOn (frame : Frame) (attempt : Attempt) (fanOut : FanOut Activation) (index : Nat) : Prop :=
  ∃ child, fanOut.child? index = some child ∧
    ((∃ fault, child.ending? = some (.fault fault)) ∨
      ∃ value fault, child.ending? = some (.output value) ∧
        ((fanOut.deliver index value).fill (frame.beginJob attempt)).fault = some fault)

/-- Who has no jobs and has left an attempt behind has spent the names of all jobs of the attempt. -/
theorem Turn.Continues.spends {turn : Turn}
    (continues : turn.Continues frame ⟨frame.entered, attempt.counters.retries + 1, 0⟩)
    (leaf : turn.activation.IsLeaf) (other : Nat) :
    Activation.Spent [frame.origin attempt other] turn.activation := by
  refine ⟨continues.horizon _ ?_, fun child hchild _ => ?_⟩
  · simp [Origin.Before, Frame.origin]
  · cases (leaf.child? _).symm.trans hchild

/-- An attempt that is recovered from has given all its origins, and holds nobody. -/
theorem recover_spends (fault : Fault) (other : Nat) :
    Activation.Spent [frame.origin attempt other] (recover moment frame attempt fault).activation :=
  (recover_continues fault).spends (recover_isLeaf fault) other

/-- So does an attempt that is concluded. -/
theorem conclude_spends (result : Json) (other : Nat) :
    Activation.Spent [frame.origin attempt other] (conclude moment frame attempt result).activation :=
  (conclude_continues result).spends (conclude_isLeaf result) other

/-- And so does an activation that stops. -/
theorem stop_spends (ending : Ending) (other : Nat) :
    Activation.Spent [frame.origin attempt other] (stop frame ending).activation := by
  refine ((stop_continues ending).weaken fun origin before => ?_).spends (fun _ _ h => nomatch h) other
  simp only [Origin.Before] at before ⊢
  omega

/-- **An attempt that fails has spent the names of all its jobs,** of those that have not begun as well. -/
theorem FailsOn.spends {fanOut : FanOut Activation} {index : Nat} {turn : Turn} (h : FailsOn frame attempt fanOut index)
    (hturn : (Activation.node frame (.fanning attempt fanOut)).respond host moment (.join index) = some turn)
    (other : Nat) : Activation.Spent [frame.origin attempt other] turn.activation := by
  obtain ⟨child, hchild, failing⟩ := h
  rcases respond_cases hturn with ⟨e, -⟩ | ⟨_, _, _, found, child', ending, e, e', hchild', hending, rfl⟩
  · cases e
  · cases e
    cases e'
    cases hchild.symm.trans hchild'
    rcases failing with ⟨fault, failed⟩ | ⟨value, fault, ended, hfault⟩
    · cases hending.symm.trans failed
      exact recover_spends _ other
    · cases hending.symm.trans ended
      obtain ⟨filling, rfl, ⟨fault', -, e⟩ | ⟨none, -⟩ | ⟨none, -⟩⟩ :=
        fan_cases moment frame attempt (fanOut.deliver index value)
      · rw [join, Turn.activation_after, e]
        exact recover_spends fault' other
      · cases none.symm.trans hfault
      · cases none.symm.trans hfault

/-! ## Runs -/

namespace Run

variable {setup : Setup} {run after : Run}

/-- Nothing has begun since a run was as it was. -/
def Quiet (run after : Run) : Prop :=
  ∃ more, after.log = more ++ run.log ∧ ∀ entry ∈ more, ¬ entry.note.Begins

theorem not_begins_of_closing {entry : Entry} (h : Closing entry) : ¬ entry.note.Begins := by
  obtain ⟨settlement, millis, last⟩ := h
  obtain ⟨event, told, rfl⟩ := Settlement.mem_entries.mp last
  cases settlement <;> cases told <;> simp [Note.Begins]

theorem Quiet.trans {between : Run} (h : Quiet run between) (next : Quiet between after) : Quiet run after := by
  obtain ⟨more, hmore, resting⟩ := h
  obtain ⟨last, hlast, restingLast⟩ := next
  refine ⟨last ++ more, by rw [hlast, hmore, List.append_assoc], fun entry hentry => ?_⟩
  exact (List.mem_append.mp hentry).elim (restingLast entry) (resting entry)

/-- A move is quiet if the turn is by which it is made. -/
theorem quiet_of_move {next : Move} (hmove : run.move setup next = some after)
    (rests : ∀ place signal actor turn, next = .act place signal → run.outermost.at? place = some actor →
      actor.respond setup.host run.moment signal = some turn → turn.Rests) : Quiet run after := by
  rcases move_effect hmove with
    ⟨-, hlog⟩ | ⟨closing, last, -, hlog⟩ | ⟨place, signal, entries, closing, e, hact, last, hlog⟩
  · exact ⟨[], hlog, fun _ h => nomatch h⟩
  · exact ⟨closing, hlog, fun entry hentry => not_begins_of_closing (last entry hentry)⟩
  · obtain ⟨actor, turn, hactor, hturn, -, rfl⟩ := Activation.actor_of_act hact
    refine ⟨closing ++ _, hlog.trans (List.append_assoc ..).symm, fun entry hentry => ?_⟩
    rcases List.mem_append.mp hentry with inClosing | inTurn
    · exact not_begins_of_closing (last entry inClosing)
    · obtain ⟨note, hnote, rfl⟩ := List.mem_map.mp (List.mem_reverse.mp inTurn)
      exact rests place signal actor turn e hactor hturn note hnote

/-- Nobody at an inner place settles the run by a turn. -/
theorem settlement_of_inner {index : Nat} {place : Place} {signal : Signal}
    (hact : run.act setup (index :: place) signal = some after) : after.settlement = run.settlement := by
  obtain ⟨outermost, entries, hinner, ⟨ending, hending, -⟩ | ⟨-, rfl⟩⟩ := act_cases hact
  · obtain ⟨_, _, _, _, _, -, -, -, rfl⟩ := Activation.act_cons hinner
    cases hending
  · rfl

/-- **A run that is to be aborted** since it was as it was: it goes on or was settled as aborted, and nothing has
    begun. -/
structure Stilled (run after : Run) : Prop where
  requested : after.abortRequested = true
  settlement : after.settlement = none ∨ after.settlement = some .aborted
  quiet : Quiet run after

/-- Whoever acts at an inner place settles nothing, and an outermost activation that has its turn settles the run as
    aborted before it acts. -/
theorem Stilled.move {between : Run} {next : Move} (h : Stilled run between)
    (hmove : between.move setup next = some after) : Stilled run after := by
  refine ⟨?_, ?_, h.quiet.trans (quiet_of_move hmove fun _ _ _ _ _ _ => respond_rests h.requested)⟩
  · -- No move takes back the demand to abort.
    rcases move_cases hmove with ⟨time, -, rfl⟩ | ⟨-, rfl⟩ | ⟨settlement, -, -, rfl⟩ | ⟨place, signal, -, -, hact⟩
    · exact h.requested
    · rfl
    · exact h.requested
    · obtain ⟨outermost, entries, -, ⟨ending, -, rfl⟩ | ⟨-, rfl⟩⟩ := act_cases hact <;> exact h.requested
  · -- A demand to abort comes before a deadline, so nothing else overrules an activation.
    have aborted : between.overruled? setup = some .aborted := overruled_of_requested h.requested
    rcases move_cases hmove with ⟨time, -, rfl⟩ | ⟨-, rfl⟩ | ⟨settlement, -, hover, rfl⟩ |
      ⟨place, signal, -, outer, hact⟩
    · exact h.settlement
    · exact h.settlement
    · cases aborted.symm.trans hover
      exact Or.inr rfl
    · cases place with
      | nil => cases aborted.symm.trans (outer rfl).2
      | cons index place =>
          rw [settlement_of_inner hact]
          exact h.settlement

end Run

end Workflow.Execution
