import Workflow.Proofs.Definition.Parts

/-!
# `Workflow.Proofs.Definition.States` — the kinds of states are restored

A state of each kind is written with the fields that are declared for the kind, and every field is restored.  The graphs
inside parallel and map states are restored if the reader of graphs restores them.

## Contents
- `State.Kept`, that what is written for a state has the declared fields of its kind and gives the state again.
- One lemma for each kind of state, and `kept_ofRecord` for them all.
-/

namespace Workflow.State

open Datum (Record Restores)
open Datum.Record (Whole)
open Datum.Reading (gives_map gives_seq)
open Definition (Reading)

/-- A state of the kind is written with the declared fields of its kind, in some order, and a record with what is written
for them gives the state again. -/
def Kept (graph : Datum → Reading Graph) (depth bound : Nat) (kind : Kind) (state : State) : Prop :=
  state.kind = kind ∧ ∃ values : List (Option Json), state.entries.Perm (Record.entries kind.fieldNames values) ∧
    Whole kind.fieldNames depth bound (ofRecord graph · kind) state values

variable {graph again : Datum → Reading Graph} {depth bound : Nat} {record : Record} {state : State}

theorem kept_task (drawn : record.Drawn depth) (given : (ofRecord graph record .task).Gives state) :
    Kept again depth bound .task state := by
  simp only [ofRecord, gives_map, gives_seq] at given
  obtain ⟨_, ⟨_, transition, ⟨_, heartbeatPath, ⟨_, heartbeat, ⟨_, timeoutPath, ⟨_, timeout, ⟨_, recovery,
    ⟨_, selector, ⟨_, parameters, ⟨_, result, ⟨_, output, ⟨_, input, ⟨_, resource, ⟨comment,
    hcomment, rfl⟩, hresource, rfl⟩, hinput, rfl⟩, houtput, rfl⟩, hresult, rfl⟩, hparameters, rfl⟩, hselector, rfl⟩,
    hrecovery, rfl⟩, htimeout, rfl⟩, htimeoutPath, rfl⟩, hheartbeat, rfl⟩, hheartbeatPath, rfl⟩, htransition, rfl⟩,
    rfl⟩ := given
  have comment' := restored_text bound drawn hcomment
  have resource' := Datum.Record.restored_required (Datum.restores_asText bound) drawn hresource
  have input' := restored_pathField bound drawn hinput
  have output' := restored_pathField bound drawn houtput
  have result' := restored_pathField bound drawn hresult
  have parameters' := restored_any bound drawn hparameters
  have selector' := restored_any bound drawn hselector
  have recovery' := restored_recovery bound drawn hrecovery
  have timeout' := restored_nat64 bound drawn htimeout
  have timeoutPath' := restored_text bound drawn htimeoutPath
  have heartbeat' := restored_nat64 bound drawn hheartbeat
  have heartbeatPath' := restored_text bound drawn hheartbeatPath
  have transition' := restored_transition bound drawn htransition
  refine ⟨rfl, [comment.map .str, some (.str resource), input.written, output.written, result.written, parameters,
    selector, listWritten Retrier.toJson recovery.retriers, listWritten Catcher.toJson recovery.catchers,
    timeout.map fun n : Nat => .int n, timeoutPath.map .str, heartbeat.map fun n : Nat => .int n,
    heartbeatPath.map .str, transition.next.map .str, flagWritten transition.isEnd], .of_eq ?_, rfl, ?_,
    fun record holds => ?_⟩
  · simp only [State.entries, Task.entries, Kind.fieldNames, Record.entries, textEntry_eq, pathEntry_eq, anyEntry_eq,
      natEntry_eq, recoveryEntries_eq, transitionEntries_eq, List.append_assoc, List.append_nil]
    rfl
  · simp only [List.forall_mem_cons]
    exact ⟨comment'.fits, resource'.fits, input'.fits, output'.fits, result'.fits, parameters'.fits, selector'.fits,
      recovery'.fits_left, recovery'.fits_right, timeout'.fits, timeoutPath'.fits, heartbeat'.fits, heartbeatPath'.fits,
      transition'.fits_left, transition'.fits_right, fun _ inside => absurd inside List.not_mem_nil⟩
  · refine Datum.Reading.Gives.map ?_ State.task
    exact (comment'.reads record (holds 0 _ rfl)).map _
      |>.seq (resource'.reads record (holds 1 _ rfl))
      |>.seq (input'.reads record (holds 2 _ rfl))
      |>.seq (output'.reads record (holds 3 _ rfl))
      |>.seq (result'.reads record (holds 4 _ rfl))
      |>.seq (parameters'.reads record (holds 5 _ rfl))
      |>.seq (selector'.reads record (holds 6 _ rfl))
      |>.seq (recovery'.reads record (holds 7 _ rfl) (holds 8 _ rfl))
      |>.seq (timeout'.reads record (holds 9 _ rfl))
      |>.seq (timeoutPath'.reads record (holds 10 _ rfl))
      |>.seq (heartbeat'.reads record (holds 11 _ rfl))
      |>.seq (heartbeatPath'.reads record (holds 12 _ rfl))
      |>.seq (transition'.reads record (holds 13 _ rfl) (holds 14 _ rfl))

theorem kept_wait (drawn : record.Drawn depth) (given : (ofRecord graph record .wait).Gives state) :
    Kept again depth bound .wait state := by
  simp only [ofRecord, gives_map, gives_seq] at given
  obtain ⟨_, ⟨_, transition, ⟨_, timestampPath, ⟨_, secondsPath, ⟨_, timestamp, ⟨_, seconds, ⟨_, output, ⟨_, input,
    ⟨comment, hcomment, rfl⟩, hinput, rfl⟩, houtput, rfl⟩, hseconds, rfl⟩, htimestamp, rfl⟩, hsecondsPath, rfl⟩,
    htimestampPath, rfl⟩, htransition, rfl⟩, rfl⟩ := given
  have comment' := restored_text bound drawn hcomment
  have input' := restored_pathField bound drawn hinput
  have output' := restored_pathField bound drawn houtput
  have seconds' := restored_nat64 bound drawn hseconds
  have timestamp' := restored_text bound drawn htimestamp
  have secondsPath' := restored_text bound drawn hsecondsPath
  have timestampPath' := restored_text bound drawn htimestampPath
  have transition' := restored_transition bound drawn htransition
  refine ⟨rfl, [comment.map .str, input.written, output.written, seconds.map fun n : Nat => .int n, timestamp.map .str,
    secondsPath.map .str, timestampPath.map .str, transition.next.map .str, flagWritten transition.isEnd], .of_eq ?_,
    rfl, ?_, fun record holds => ?_⟩
  · simp only [State.entries, Wait.entries, Kind.fieldNames, Record.entries, textEntry_eq, pathEntry_eq, natEntry_eq,
      transitionEntries_eq, List.append_assoc, List.append_nil]
  · simp only [List.forall_mem_cons]
    exact ⟨comment'.fits, input'.fits, output'.fits, seconds'.fits, timestamp'.fits, secondsPath'.fits,
      timestampPath'.fits, transition'.fits_left, transition'.fits_right,
      fun _ inside => absurd inside List.not_mem_nil⟩
  · refine Datum.Reading.Gives.map ?_ State.wait
    exact (comment'.reads record (holds 0 _ rfl)).map _
      |>.seq (input'.reads record (holds 1 _ rfl))
      |>.seq (output'.reads record (holds 2 _ rfl))
      |>.seq (seconds'.reads record (holds 3 _ rfl))
      |>.seq (timestamp'.reads record (holds 4 _ rfl))
      |>.seq (secondsPath'.reads record (holds 5 _ rfl))
      |>.seq (timestampPath'.reads record (holds 6 _ rfl))
      |>.seq (transition'.reads record (holds 7 _ rfl) (holds 8 _ rfl))

theorem kept_choice (drawn : record.Drawn depth) (given : (ofRecord graph record .choice).Gives state) :
    Kept again depth bound .choice state := by
  simp only [ofRecord, gives_map, gives_seq] at given
  obtain ⟨_, ⟨_, default, ⟨_, rules, ⟨_, output, ⟨_, input, ⟨comment, hcomment, rfl⟩, hinput, rfl⟩, houtput, rfl⟩,
    hrules, rfl⟩, hdefault, rfl⟩, rfl⟩ := given
  have comment' := restored_text bound drawn hcomment
  have input' := restored_pathField bound drawn hinput
  have output' := restored_pathField bound drawn houtput
  have rules' := Datum.Record.restored_required (Datum.restores_asList (restores_rule bound)) drawn hrules
  have default' := restored_text bound drawn hdefault
  refine ⟨rfl, [comment.map .str, input.written, output.written, some (.arr (rules.map Choice.Rule.toJson)),
    default.map .str], .of_eq ?_, rfl, ?_, fun record holds => ?_⟩
  · simp only [State.entries, ChoiceState.entries, Kind.fieldNames, Record.entries, textEntry_eq, pathEntry_eq,
      List.append_assoc, List.append_nil]
    rfl
  · simp only [List.forall_mem_cons]
    exact ⟨comment'.fits, input'.fits, output'.fits, rules'.fits, default'.fits,
      fun _ inside => absurd inside List.not_mem_nil⟩
  · refine Datum.Reading.Gives.map ?_ State.choice
    exact (comment'.reads record (holds 0 _ rfl)).map _
      |>.seq (input'.reads record (holds 1 _ rfl))
      |>.seq (output'.reads record (holds 2 _ rfl))
      |>.seq (rules'.reads record (holds 3 _ rfl))
      |>.seq (default'.reads record (holds 4 _ rfl))

theorem kept_pass (drawn : record.Drawn depth) (given : (ofRecord graph record .pass).Gives state) :
    Kept again depth bound .pass state := by
  simp only [ofRecord, gives_map, gives_seq] at given
  obtain ⟨_, ⟨_, transition, ⟨_, fixed, ⟨_, parameters, ⟨_, result, ⟨_, output, ⟨_, input, ⟨comment, hcomment, rfl⟩,
    hinput, rfl⟩, houtput, rfl⟩, hresult, rfl⟩, hparameters, rfl⟩, hfixed, rfl⟩, htransition, rfl⟩, rfl⟩ := given
  have comment' := restored_text bound drawn hcomment
  have input' := restored_pathField bound drawn hinput
  have output' := restored_pathField bound drawn houtput
  have result' := restored_pathField bound drawn hresult
  have parameters' := restored_any bound drawn hparameters
  have fixed' := restored_any bound drawn hfixed
  have transition' := restored_transition bound drawn htransition
  refine ⟨rfl, [comment.map .str, input.written, output.written, result.written, parameters, fixed,
    transition.next.map .str, flagWritten transition.isEnd], .of_eq ?_, rfl, ?_, fun record holds => ?_⟩
  · simp only [State.entries, Pass.entries, Kind.fieldNames, Record.entries, textEntry_eq, pathEntry_eq, anyEntry_eq,
      transitionEntries_eq, List.append_assoc, List.append_nil]
  · simp only [List.forall_mem_cons]
    exact ⟨comment'.fits, input'.fits, output'.fits, result'.fits, parameters'.fits, fixed'.fits,
      transition'.fits_left, transition'.fits_right, fun _ inside => absurd inside List.not_mem_nil⟩
  · refine Datum.Reading.Gives.map ?_ State.pass
    exact (comment'.reads record (holds 0 _ rfl)).map _
      |>.seq (input'.reads record (holds 1 _ rfl))
      |>.seq (output'.reads record (holds 2 _ rfl))
      |>.seq (result'.reads record (holds 3 _ rfl))
      |>.seq (parameters'.reads record (holds 4 _ rfl))
      |>.seq (fixed'.reads record (holds 5 _ rfl))
      |>.seq (transition'.reads record (holds 6 _ rfl) (holds 7 _ rfl))

theorem kept_succeed (drawn : record.Drawn depth) (given : (ofRecord graph record .succeed).Gives state) :
    Kept again depth bound .succeed state := by
  simp only [ofRecord, gives_map, gives_seq] at given
  obtain ⟨_, ⟨_, output, ⟨_, input, ⟨comment, hcomment, rfl⟩, hinput, rfl⟩, houtput, rfl⟩, rfl⟩ := given
  have comment' := restored_text bound drawn hcomment
  have input' := restored_pathField bound drawn hinput
  have output' := restored_pathField bound drawn houtput
  refine ⟨rfl, [comment.map .str, input.written, output.written], .of_eq ?_, rfl, ?_, fun record holds => ?_⟩
  · simp only [State.entries, Succeed.entries, Kind.fieldNames, Record.entries, textEntry_eq, pathEntry_eq,
      List.append_assoc, List.append_nil]
  · simp only [List.forall_mem_cons]
    exact ⟨comment'.fits, input'.fits, output'.fits, fun _ inside => absurd inside List.not_mem_nil⟩
  · refine Datum.Reading.Gives.map ?_ State.succeed
    exact (comment'.reads record (holds 0 _ rfl)).map _
      |>.seq (input'.reads record (holds 1 _ rfl))
      |>.seq (output'.reads record (holds 2 _ rfl))

theorem kept_fail (drawn : record.Drawn depth) (given : (ofRecord graph record .fail).Gives state) :
    Kept again depth bound .fail state := by
  simp only [ofRecord, gives_map, gives_seq] at given
  obtain ⟨_, ⟨_, causePath, ⟨_, cause, ⟨_, errorPath, ⟨_, error, ⟨comment, hcomment, rfl⟩, herror, rfl⟩, herrorPath,
    rfl⟩, hcause, rfl⟩, hcausePath, rfl⟩, rfl⟩ := given
  have comment' := restored_text bound drawn hcomment
  have error' := restored_text bound drawn herror
  have errorPath' := restored_text bound drawn herrorPath
  have cause' := restored_text bound drawn hcause
  have causePath' := restored_text bound drawn hcausePath
  refine ⟨rfl, [comment.map .str, error.map .str, errorPath.map .str, cause.map .str, causePath.map .str], .of_eq ?_,
    rfl, ?_, fun record holds => ?_⟩
  · simp only [State.entries, Fail.entries, Kind.fieldNames, Record.entries, textEntry_eq, List.append_assoc,
      List.append_nil]
  · simp only [List.forall_mem_cons]
    exact ⟨comment'.fits, error'.fits, errorPath'.fits, cause'.fits, causePath'.fits,
      fun _ inside => absurd inside List.not_mem_nil⟩
  · refine Datum.Reading.Gives.map ?_ State.fail
    exact (comment'.reads record (holds 0 _ rfl)).map _
      |>.seq (error'.reads record (holds 1 _ rfl))
      |>.seq (errorPath'.reads record (holds 2 _ rfl))
      |>.seq (cause'.reads record (holds 3 _ rfl))
      |>.seq (causePath'.reads record (holds 4 _ rfl))

theorem graphObjects_eq (graphs : List Graph) : graphObjects graphs = graphs.map graphObject := by
  induction graphs with
  | nil => rfl
  | cons graph rest ih => rw [graphObjects, ih, List.map_cons]

theorem kept_parallel (hgraph : Restores bound graph again graphObject) (drawn : record.Drawn depth)
    (given : (ofRecord graph record .parallel).Gives state) : Kept again depth bound .parallel state := by
  simp only [ofRecord, gives_map, gives_seq] at given
  obtain ⟨_, branches, ⟨_, ⟨_, transition, ⟨_, recovery, ⟨_, selector, ⟨_, parameters, ⟨_, result, ⟨_, output,
    ⟨_, input, ⟨comment, hcomment, rfl⟩, hinput, rfl⟩, houtput, rfl⟩, hresult, rfl⟩, hparameters, rfl⟩, hselector,
    rfl⟩, hrecovery, rfl⟩, htransition, rfl⟩, rfl⟩, hbranches, rfl⟩ := given
  have comment' := restored_text bound drawn hcomment
  have branches' := Datum.Record.restored_required (Datum.restores_asList hgraph) drawn hbranches
  have input' := restored_pathField bound drawn hinput
  have output' := restored_pathField bound drawn houtput
  have result' := restored_pathField bound drawn hresult
  have parameters' := restored_any bound drawn hparameters
  have selector' := restored_any bound drawn hselector
  have recovery' := restored_recovery bound drawn hrecovery
  have transition' := restored_transition bound drawn htransition
  refine ⟨rfl, [comment.map .str, some (.arr (branches.map graphObject)), input.written, output.written, result.written,
    parameters, selector, listWritten Retrier.toJson recovery.retriers, listWritten Catcher.toJson recovery.catchers,
    transition.next.map .str, flagWritten transition.isEnd], ?_, rfl, ?_, fun record holds => ?_⟩
  · -- The branches are written in front of the comment.
    simp only [State.entries, Parallel.entries, Kind.fieldNames, Record.entries, textEntry_eq, pathEntry_eq, anyEntry_eq,
      recoveryEntries_eq, transitionEntries_eq, graphObjects_eq, List.append_assoc, List.append_nil]
    exact List.perm_middle.symm
  · simp only [List.forall_mem_cons]
    exact ⟨comment'.fits, branches'.fits, input'.fits, output'.fits, result'.fits, parameters'.fits, selector'.fits,
      recovery'.fits_left, recovery'.fits_right, transition'.fits_left, transition'.fits_right,
      fun _ inside => absurd inside List.not_mem_nil⟩
  · refine Datum.Reading.Gives.seq (Datum.Reading.Gives.map ?_ State.parallel)
      (branches'.reads record (holds 1 _ rfl))
    exact (comment'.reads record (holds 0 _ rfl)).map _
      |>.seq (input'.reads record (holds 2 _ rfl))
      |>.seq (output'.reads record (holds 3 _ rfl))
      |>.seq (result'.reads record (holds 4 _ rfl))
      |>.seq (parameters'.reads record (holds 5 _ rfl))
      |>.seq (selector'.reads record (holds 6 _ rfl))
      |>.seq (recovery'.reads record (holds 7 _ rfl) (holds 8 _ rfl))
      |>.seq (transition'.reads record (holds 9 _ rfl) (holds 10 _ rfl))

theorem kept_map (hgraph : Restores bound graph again graphObject) (drawn : record.Drawn depth)
    (given : (ofRecord graph record .map).Gives state) : Kept again depth bound .map state := by
  simp only [ofRecord, gives_map, gives_seq] at given
  obtain ⟨_, processor, ⟨_, ⟨_, transition, ⟨_, recovery, ⟨_, selector, ⟨_, result, ⟨_, output, ⟨_, input,
    ⟨_, concurrency, ⟨_, itemSelector, ⟨_, items, ⟨comment, hcomment, rfl⟩, hitems, rfl⟩, hitemSelector, rfl⟩,
    hconcurrency, rfl⟩, hinput, rfl⟩, houtput, rfl⟩, hresult, rfl⟩, hselector, rfl⟩, hrecovery, rfl⟩, htransition,
    rfl⟩, rfl⟩, hprocessor, rfl⟩ := given
  have comment' := restored_text bound drawn hcomment
  have processor' := Datum.Record.restored_required hgraph drawn hprocessor
  have items' := restored_text bound drawn hitems
  have itemSelector' := restored_any bound drawn hitemSelector
  have concurrency' := restored_nat32 bound drawn hconcurrency
  have input' := restored_pathField bound drawn hinput
  have output' := restored_pathField bound drawn houtput
  have result' := restored_pathField bound drawn hresult
  have selector' := restored_any bound drawn hselector
  have recovery' := restored_recovery bound drawn hrecovery
  have transition' := restored_transition bound drawn htransition
  refine ⟨rfl, [comment.map .str, some (graphObject processor), items.map .str, itemSelector,
    concurrency.map fun n : Nat => .int n, input.written, output.written, result.written, selector,
    listWritten Retrier.toJson recovery.retriers, listWritten Catcher.toJson recovery.catchers,
    transition.next.map .str, flagWritten transition.isEnd], ?_, rfl, ?_, fun record holds => ?_⟩
  · -- The graph is written in front of the comment.
    simp only [State.entries, MapState.entries, Kind.fieldNames, Record.entries, textEntry_eq, pathEntry_eq, anyEntry_eq,
      natEntry_eq, recoveryEntries_eq, transitionEntries_eq, List.append_assoc, List.append_nil]
    exact List.perm_middle.symm
  · simp only [List.forall_mem_cons]
    exact ⟨comment'.fits, processor'.fits, items'.fits, itemSelector'.fits, concurrency'.fits, input'.fits, output'.fits,
      result'.fits, selector'.fits, recovery'.fits_left, recovery'.fits_right, transition'.fits_left,
      transition'.fits_right, fun _ inside => absurd inside List.not_mem_nil⟩
  · refine Datum.Reading.Gives.seq (Datum.Reading.Gives.map ?_ State.map) (processor'.reads record (holds 1 _ rfl))
    exact (comment'.reads record (holds 0 _ rfl)).map _
      |>.seq (items'.reads record (holds 2 _ rfl))
      |>.seq (itemSelector'.reads record (holds 3 _ rfl))
      |>.seq (concurrency'.reads record (holds 4 _ rfl))
      |>.seq (input'.reads record (holds 5 _ rfl))
      |>.seq (output'.reads record (holds 6 _ rfl))
      |>.seq (result'.reads record (holds 7 _ rfl))
      |>.seq (selector'.reads record (holds 8 _ rfl))
      |>.seq (recovery'.reads record (holds 9 _ rfl) (holds 10 _ rfl))
      |>.seq (transition'.reads record (holds 11 _ rfl) (holds 12 _ rfl))

/-- **A state that was read from a record is written with the declared fields of its kind, and given by them again.** -/
theorem kept_ofRecord (hgraph : Restores bound graph again graphObject) (drawn : record.Drawn depth) {kind : Kind}
    (given : (ofRecord graph record kind).Gives state) : Kept again depth bound kind state := by
  cases kind with
  | task => exact kept_task drawn given
  | wait => exact kept_wait drawn given
  | choice => exact kept_choice drawn given
  | pass => exact kept_pass drawn given
  | succeed => exact kept_succeed drawn given
  | fail => exact kept_fail drawn given
  | parallel => exact kept_parallel hgraph drawn given
  | map => exact kept_map hgraph drawn given

end Workflow.State
