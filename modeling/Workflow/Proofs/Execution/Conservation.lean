import Workflow.Proofs.Execution.Trail
import Workflow.Proofs.Path.Writable

/-!
# `Workflow.Proofs.Execution.Conservation` — what no result path touches survives

The raw input of a state is what the state before passed on.  Where the states of a graph only put results into it,
and put them elsewhere, what lies at a path is still there at the end of the graph: however often attempts are retried
and wherever catchers lead.

## Contents
- **Settings.** `Setting.IsWhole` and `Setting.Avoids`, with `input_whole`, `output_whole` and `merge_avoids`: what the
  stages of a state leave alone.
- **States.** `State.Conserves`.
- **Turns.** `Activation.Retains`, kept by every turn, by way of one lemma for each function of a turn.
- **Runs.** `retains_of_play` and `data_conserved`.
-/

namespace Workflow

/-! ## Settings -/

namespace Path.Setting

/-- The setting stands for the whole document. -/
def IsWhole (setting : Setting) : Prop := setting.text? = some dataRoot

/-- A result path that leaves what lies at a path alone: it discards the result, or names a place in the data to which
    another way leads. -/
def Avoids (path : Path) : Setting → Prop
  | .whole => False
  | .nothing => True
  | .path text => ∃ target, parse text = .ok target ∧ target.Writable ∧ Diverges target.steps path.steps

end Path.Setting

namespace DataFlow

open Workflow.Path (Setting)

variable {setting : Setting} {raw context result output : Json} {path : Path} {value : Json}

theorem input_whole (whole : setting.IsWhole) : input setting raw context = .ok raw := by
  rw [input, select, whole]
  exact if_pos rfl

theorem output_whole (whole : setting.IsWhole) : DataFlow.output setting raw context = .ok raw := by
  rw [DataFlow.output, select, whole]
  exact if_pos rfl

/-- No way parts from the one that leads nowhere. -/
theorem ne_dataRoot_of_diverges {text : String} {target : Path} (parsed : Path.parse text = .ok target)
    (apart : Path.Diverges target.steps path.steps) : text ≠ Path.dataRoot := by
  rintro rfl
  have root : Path.parse Path.dataRoot = .ok ⟨.data, []⟩ := by cbv
  cases root.symm.trans parsed
  obtain ⟨common, step, other, rest, rest', none, -⟩ := apart
  cases common <;> cases none

/-- **What lies at a path that a result path avoids is passed on.** -/
theorem merge_avoids (definite : path.Definite) (avoids : setting.Avoids path)
    (h : merge setting raw result = .ok output) (held : path.select? raw = some value) :
    path.select? output = some value := by
  cases setting with
  | whole => exact avoids.elim
  | nothing =>
      cases h
      exact held
  | path text =>
      obtain ⟨target, parsed, -, apart⟩ := avoids
      -- The result does not stand in for the whole input, because the way to it is not empty.
      have inner : text ≠ Path.dataRoot := ne_dataRoot_of_diverges parsed apart
      have injected : (Path.injectText text raw result).mapError mergeFault = .ok output := by
        simpa only [merge, Setting.text?, if_neg inner] using h
      obtain ⟨named, hnamed, placed⟩ := Path.injectText_eq_ok.mp (mapError_eq_ok.mp injected)
      obtain rfl : target = named := Except.ok.inj (parsed.symm.trans (mapError_eq_ok.mp hnamed))
      exact Path.select?_inject definite apart placed held

end DataFlow

/-! ## States -/

/-- The state passes on what lies at a path as it is: it takes its input whole where that is all that it passes on,
    gives its output whole, and puts results and faults elsewhere. -/
def State.Conserves (path : Path) : State → Prop
  | .task s => s.outputPath.IsWhole ∧ s.resultPath.Avoids path ∧
      ∀ catcher ∈ s.recovery.catchers, catcher.resultPath.Avoids path
  | .parallel s _ => s.outputPath.IsWhole ∧ s.resultPath.Avoids path ∧
      ∀ catcher ∈ s.recovery.catchers, catcher.resultPath.Avoids path
  | .map s _ => s.outputPath.IsWhole ∧ s.resultPath.Avoids path ∧
      ∀ catcher ∈ s.recovery.catchers, catcher.resultPath.Avoids path
  | .pass s => s.outputPath.IsWhole ∧ s.resultPath.Avoids path
  | .wait s => s.inputPath.IsWhole ∧ s.outputPath.IsWhole
  | .choice s => s.inputPath.IsWhole ∧ s.outputPath.IsWhole
  | .succeed s => s.inputPath.IsWhole ∧ s.outputPath.IsWhole
  | .fail _ => True

namespace State.Conserves

variable {path : Path} {state : State}

theorem delivery (h : state.Conserves path) (recoverable : Execution.State.IsRecoverable state) :
    state.delivery.outputPath.IsWhole ∧ state.delivery.resultPath.Avoids path := by
  cases state with
  | task s => exact ⟨h.1, h.2.1⟩
  | parallel s branches => exact ⟨h.1, h.2.1⟩
  | map s processor => exact ⟨h.1, h.2.1⟩
  | _ => simp [Execution.State.IsRecoverable, State.kind] at recoverable

theorem catcher (h : state.Conserves path) {catcher : Catcher} (hcatcher : catcher ∈ state.recovery.catchers) :
    catcher.resultPath.Avoids path := by
  cases state with
  | task s => exact h.2.2 catcher hcatcher
  | parallel s branches => exact h.2.2 catcher hcatcher
  | map s processor => exact h.2.2 catcher hcatcher
  | _ => cases hcatcher

end State.Conserves

namespace Execution

/-! ## Turns -/

/-- An activation retains a value at a path: it has it in front of its states, in them, and at the end.  The states of
    its graph conserve it. -/
def Activation.Retains (path : Path) (value : Json) : Activation → Prop
  | .node frame phase =>
    (∀ name state, frame.graph.state? name = some state → state.Conserves path) ∧
      match phase with
      | .ready => path.select? frame.raw = some value
      | .waiting wait effective _ => wait.outputPath.IsWhole ∧ path.select? effective = some value
      | .invoking attempt _ | .pausing attempt _ | .fanning attempt _ =>
        State.IsRecoverable attempt.state ∧ attempt.state.Conserves path ∧ path.select? frame.raw = some value
      | .ended (.output output) => path.select? output = some value
      | .ended _ => True

section Turns

variable {path : Path} {value : Json} {host : Host} {moment : Moment} {frame : Frame} {attempt : Attempt}

/-- What a graph says of all its states. -/
abbrev Frame.Conserves (frame : Frame) (path : Path) : Prop :=
  ∀ name state, frame.graph.state? name = some state → state.Conserves path

theorem stop_retains (graph : frame.Conserves path) {ending : Ending} (empty : ∀ output, ending ≠ .output output) :
    (stop frame ending).activation.Retains path value := by
  refine ⟨graph, ?_⟩
  cases ending with
  | output output => exact absurd rfl (empty output)
  | fault _ => trivial
  | cancelled => trivial

theorem leave_retains (graph : frame.Conserves path) (next : Option String) {output : Json}
    (held : path.select? output = some value) : (leave frame next output).activation.Retains path value := by
  cases next with
  | none => exact ⟨graph, held⟩
  | some next => exact ⟨graph, held⟩

theorem leaveOrFail_retains (graph : frame.Conserves path) {outcome : DataFlow.Outcome (Option String × Json)}
    (held : ∀ next output, outcome = .ok (next, output) → path.select? output = some value) :
    (leaveOrFail frame outcome).activation.Retains path value := by
  cases outcome with
  | error fault => exact stop_retains graph (by simp)
  | ok left => exact leave_retains graph left.1 (held left.1 left.2 rfl)

/-- An attempt at a state that conserves what lies at a path, which is in the raw input. -/
structure Attempt.Conserves (attempt : Attempt) (frame : Frame) (path : Path) (value : Json) : Prop where
  graph : frame.Conserves path
  recoverable : State.IsRecoverable attempt.state
  state : attempt.state.Conserves path
  raw : path.select? frame.raw = some value

/-- Where a catcher takes over, it has put the fault elsewhere. -/
theorem recover_retains (definite : path.Definite) (conserves : attempt.Conserves frame path value) (fault : Fault) :
    (recover moment frame attempt fault).activation.Retains path value := by
  rcases recover_cases moment frame attempt fault with
    ⟨number, delay, counters, -, e⟩ | ⟨next, output, counters, decided, e⟩ | ⟨last, counters, -, e⟩ <;> rw [e]
  · exact ⟨conserves.graph, conserves.recoverable, conserves.state, conserves.raw⟩
  · obtain ⟨catcher, hcatcher, -, hmerge⟩ := Retry.handled_of_resolve decided
    exact leave_retains conserves.graph _
      (DataFlow.merge_avoids definite (conserves.state.catcher hcatcher) hmerge conserves.raw)
  · exact stop_retains conserves.graph (by simp)

/-- A result is put elsewhere. -/
theorem delivered_retains (definite : path.Definite) (conserves : attempt.Conserves frame path value) {result output : Json}
    (h : delivered frame attempt result = .ok output) : path.select? output = some value := by
  obtain ⟨whole, avoids⟩ := conserves.state.delivery conserves.recoverable
  obtain ⟨selected, -, h⟩ := DataFlow.bind_eq_ok.mp h
  obtain ⟨merged, hmerge, h⟩ := DataFlow.bind_eq_ok.mp h
  rw [DataFlow.output_whole whole] at h
  cases h
  exact DataFlow.merge_avoids definite avoids hmerge conserves.raw

theorem conclude_retains (definite : path.Definite) (conserves : attempt.Conserves frame path value) (result : Json) :
    (conclude moment frame attempt result).activation.Retains path value := by
  unfold conclude
  cases hd : delivered frame attempt result with
  | error fault =>
      simp only [hd]
      exact recover_retains definite conserves fault
  | ok output =>
      simp only [hd]
      refine leaveOrFail_retains conserves.graph fun next last e => ?_
      obtain ⟨_, -, e⟩ := DataFlow.map_eq_ok.mp e
      cases e
      exact delivered_retains definite conserves hd

theorem fan_retains (definite : path.Definite) (conserves : attempt.Conserves frame path value)
    (fanOut : FanOut Activation) : (fan moment frame attempt fanOut).activation.Retains path value := by
  obtain ⟨filling, rfl, ⟨fault, -, e⟩ | ⟨-, -, e⟩ | ⟨-, -, e⟩⟩ := fan_cases moment frame attempt fanOut <;> rw [e]
  · exact recover_retains definite conserves fault
  · exact conclude_retains definite conserves _
  · exact ⟨conserves.graph, conserves.recoverable, conserves.state, conserves.raw⟩

theorem join_retains (definite : path.Definite) (conserves : attempt.Conserves frame path value)
    (fanOut : FanOut Activation) (index : Nat) (ending : Ending) :
    (join moment frame attempt fanOut index ending).activation.Retains path value := by
  cases ending with
  | output output => exact fan_retains definite conserves _
  | fault fault => exact recover_retains definite conserves _
  | cancelled => exact stop_retains conserves.graph (by simp)

theorem beginAttempt_retains (definite : path.Definite) (conserves : attempt.Conserves frame path value) :
    (beginAttempt host moment frame attempt).activation.Retains path value := by
  rcases beginAttempt_cases host moment frame attempt with
    ⟨_, fault, -, -, e⟩ | ⟨_, _, -, -, e⟩ | ⟨fault, -, -, e⟩ | ⟨js, limit, -, e⟩ <;> rw [e]
  · exact recover_retains definite conserves fault
  · exact ⟨conserves.graph, conserves.recoverable, conserves.state, conserves.raw⟩
  · exact recover_retains definite conserves fault
  · exact fan_retains definite conserves _

/-- A pass state puts a result of its own into the raw input. -/
theorem merged_of_pass {s : Pass} {raw context output : Json} {chance : Chance}
    (h : s.output raw context chance = .ok output) :
    ∃ result merged, DataFlow.merge s.resultPath raw result = .ok merged ∧
      DataFlow.output s.outputPath merged context = .ok output := by
  obtain ⟨effective, -, h⟩ := DataFlow.bind_eq_ok.mp h
  cases hresult : s.result with
  | some result =>
      simp only [hresult, pure_bind] at h
      obtain ⟨merged, hmerge, houtput⟩ := DataFlow.bind_eq_ok.mp h
      exact ⟨result, merged, hmerge, houtput⟩
  | none =>
      simp only [hresult] at h
      obtain ⟨result, -, h⟩ := DataFlow.bind_eq_ok.mp h
      obtain ⟨merged, hmerge, houtput⟩ := DataFlow.bind_eq_ok.mp h
      exact ⟨result, merged, hmerge, houtput⟩

/-- A state that takes no time passes on its raw input, or puts its result elsewhere. -/
theorem begin_retains (definite : path.Definite) (graph : frame.Conserves path) {state : State}
    (conserves : state.Conserves path) (held : path.select? frame.raw = some value) :
    (begin host moment frame state).activation.Retains path value := by
  cases state with
  | succeed s =>
      refine leaveOrFail_retains graph fun next output e => ?_
      obtain ⟨_, h, e⟩ := DataFlow.map_eq_ok.mp e
      cases e
      obtain ⟨effective, heffective, h⟩ := DataFlow.bind_eq_ok.mp h
      -- Input and output are whole, so what is passed on is the raw input.
      rw [DataFlow.input_whole conserves.1] at heffective
      cases heffective
      rw [DataFlow.output_whole conserves.2] at h
      cases h
      exact held
  | fail s => exact stop_retains graph (by simp)
  | choice s =>
      refine leaveOrFail_retains graph fun next output e => ?_
      obtain ⟨_, h, e⟩ := DataFlow.map_eq_ok.mp e
      cases e
      obtain ⟨effective, heffective, h⟩ := DataFlow.bind_eq_ok.mp h
      rw [DataFlow.input_whole conserves.1] at heffective
      cases heffective
      obtain ⟨_, -, h⟩ := DataFlow.bind_eq_ok.mp h
      rw [DataFlow.output_whole conserves.2] at h
      cases h
      exact held
  | pass s =>
      refine leaveOrFail_retains graph fun next output e => ?_
      obtain ⟨passed, h, e⟩ := DataFlow.bind_eq_ok.mp e
      obtain ⟨_, -, e⟩ := DataFlow.bind_eq_ok.mp e
      cases e
      -- The result is put elsewhere in the raw input, and all of that is passed on.
      obtain ⟨result, merged, hmerge, h⟩ := merged_of_pass h
      rw [DataFlow.output_whole conserves.1] at h
      cases h
      exact DataFlow.merge_avoids definite conserves.2 hmerge held
  | wait s =>
      rcases begin_wait_cases host moment frame s with ⟨fault, -, e⟩ | ⟨effective, due, heffective, e⟩ <;> rw [e]
      · exact stop_retains graph (by simp)
      · rw [DataFlow.input_whole conserves.1] at heffective
        cases heffective
        exact ⟨graph, conserves.2, held⟩
  | task | parallel | map =>
      rw [begin_of_recoverable host moment frame (by simp [State.IsRecoverable, State.kind])]
      exact beginAttempt_retains definite ⟨graph, by simp [State.IsRecoverable, State.kind], conserves, held⟩

theorem enter_retains (definite : path.Definite) (graph : frame.Conserves path)
    (held : path.select? frame.raw = some value) : (enter host moment frame).activation.Retains path value := by
  unfold enter
  split
  · exact stop_retains graph (by simp)
  · rename_i state defined
    rw [Turn.activation_after]
    refine begin_retains definite ?_ (graph frame.state state defined) ?_
    · exact graph
    · exact held

/-- **Every turn retains what lies at the path.** -/
theorem respond_retains (definite : path.Definite) {signal : Signal} {activation : Activation} {turn : Turn}
    (h : activation.Retains path value) (hturn : activation.respond host moment signal = some turn) :
    turn.activation.Retains path value := by
  rcases respond_cases hturn with
    ⟨-, hp⟩ | ⟨frame, attempt, fanOut, index, child, ending, -, rfl, -, -, rfl⟩
  · obtain ⟨frame, phase⟩ := activation
    obtain ⟨graph, held⟩ := h
    rcases proceed_cases hp with ⟨-, rfl⟩ | ⟨-, ⟨rfl, rfl⟩ | ⟨wait, effective, _, rfl, -, rfl⟩ |
      ⟨attempt, _, result, rfl, -, rfl⟩ | ⟨attempt, _, fault, rfl, -, rfl⟩ | ⟨attempt, _, rfl, -, rfl⟩⟩
    · exact stop_retains graph (by simp)
    · exact enter_retains definite graph held
    · obtain ⟨whole, held⟩ := held
      refine leaveOrFail_retains graph fun next output e => ?_
      obtain ⟨_, h, e⟩ := DataFlow.bind_eq_ok.mp e
      obtain ⟨_, -, e⟩ := DataFlow.bind_eq_ok.mp e
      cases e
      rw [DataFlow.output_whole whole] at h
      cases h
      exact held
    · exact conclude_retains definite ⟨graph, held.1, held.2.1, held.2.2⟩ result
    · exact recover_retains definite ⟨graph, held.1, held.2.1, held.2.2⟩ fault
    · exact beginAttempt_retains definite ⟨graph, held.1, held.2.1, held.2.2⟩
  · obtain ⟨graph, recoverable, conserves, held⟩ := h
    exact join_retains definite ⟨graph, recoverable, conserves, held⟩ fanOut index ending

/-- Whoever acts, the value is retained: what happens inside an attempt leaves its raw input alone. -/
theorem Activation.Retains.act (definite : path.Definite) {signal : Signal} {place : Place}
    {activation after : Activation} {entries : List Entry} (h : activation.Retains path value)
    (hact : activation.act host moment signal place = some (after, entries)) : after.Retains path value := by
  cases place with
  | nil =>
      obtain ⟨turn, hturn, rfl, -⟩ := Activation.act_nil hact
      exact respond_retains definite h hturn
  | cons index place =>
      obtain ⟨frame, attempt, fanOut, child, child', rfl, -, -, rfl⟩ := Activation.act_cons hact
      exact h

theorem Activation.Retains.givenUp {activation : Activation} (h : activation.Retains path value) :
    activation.givenUp.Retains path value := by
  obtain ⟨frame, phase⟩ := activation
  exact ⟨h.1, trivial⟩

/-- Who has ended with an output has the value in it. -/
theorem Activation.Retains.output {activation : Activation} {output : Json} (h : activation.Retains path value)
    (ended : activation.ending? = some (.output output)) : path.select? output = some value := by
  obtain ⟨frame, phase⟩ := activation
  have last : phase = .ended (.output output) := Activation.phase_of_ending ended
  subst last
  exact h.2

end Turns

/-! ## Runs -/

namespace Run

variable {setup : Setup} {run : Run} {path : Path} {value : Json}

/-- **The outermost activation retains what lies at the path,** whatever moves are made. -/
theorem retains_of_play (definite : path.Definite)
    (conserves : ∀ name state, setup.definition.graph.state? name = some state → state.Conserves path)
    (held : path.select? setup.input = some value) {moves : List Move}
    (played : (start setup).play setup moves = some run) : run.outermost.Retains path value := by
  have kept : ∀ (next : Move) (run after : Run), run.outermost.Retains path value →
      run.move setup next = some after → after.outermost.Retains path value := by
    intro next run after h hmove
    rcases move_effect hmove with ⟨same, -⟩ | ⟨_, -, same, -⟩ | ⟨place, signal, entries, _, -, hact, -, -⟩
    · rw [same]
      exact h
    · rw [same]
      exact h.givenUp
    · exact h.act definite hact
  have begun : (start setup).outermost.Retains path value := ⟨conserves, held⟩
  exact play_induct kept begun played

/-- **What no result path touches survives.** Let a definite path select a value in the input of a run.  Let every
    outermost state pass its document on whole, and let every result and every fault that it puts into its raw input go
    where another way leads, or nowhere.  If the run succeeds, however it was moved, the path selects the same value in
    its output. -/
theorem data_conserved (setup : Setup) (path : Path) (value : Json) (moves : List Move) (run : Run)
    (definite : path.Definite)
    (conserves : ∀ name state, setup.definition.graph.state? name = some state → state.Conserves path)
    (held : path.select? setup.input = some value) (played : (start setup).play setup moves = some run)
    (succeeded : run.status = .succeeded) :
    ∃ output, run.settlement = some (.succeeded output) ∧ path.select? output = some value := by
  obtain ⟨output, settled⟩ : ∃ output, run.settlement = some (.succeeded output) := by
    unfold status at succeeded
    cases hsettlement : run.settlement with
    | none =>
        rw [hsettlement] at succeeded
        cases succeeded
    | some settlement =>
        rw [hsettlement] at succeeded
        cases settlement with
        | succeeded output => exact ⟨output, rfl⟩
        | _ => cases succeeded
  have ended := (sealed_of_play played).succeeded output settled
  exact ⟨output, settled, (retains_of_play definite conserves held played).output ended⟩

/-- A run of a task that is tried twice in vain.  The fault is put beside what the input holds, and a remark after it,
    in the place after the next one. -/
def retained : Setup where
  definition :=
    let recovery : Recovery :=
      ⟨[⟨["Flaky"], 0, 2, 1, none, .fixed⟩], [⟨[Fault.Name.taskFailed], "Remark", .path "$.error"⟩]⟩
    let task : Task := ⟨none, "resource", .nothing, .whole, .path "$.result", none, none, recovery, none, none, none, none,
      ⟨some "Remark", false⟩⟩
    let remark : Pass := ⟨none, .whole, .whole, .path "$.kept[2]", none, some (.str "tried"), ⟨none, true⟩⟩
    ⟨⟨none, "Try", [("Remark", .pass remark), ("Try", .task task)]⟩, none, none⟩
  host := ⟨⟨[("Try", ⟨fun _ _ => ⟨0, .failed ⟨"Flaky", "down"⟩, false⟩⟩)]⟩, [], 0⟩
  machine := Setup.defaultMachine
  runId := "run"
  input := .object [("kept", .arr [.int 7])]
  seed := none
  chance := default

/-- The path of what the run has to retain. -/
def retainedPath : Path := ⟨.data, [.field "kept", .index 0]⟩

theorem data_conserved_retained : ∃ run output,
    (start retained).play retained (List.replicate 5 (.act [] .proceed)) = some run ∧ run.status = .succeeded ∧
      retainedPath.select? retained.input = some (.int 7) ∧
      run.settlement = some (.succeeded output) ∧ retainedPath.select? output = some (.int 7) := by
  have conserves : ∀ name state, retained.definition.graph.state? name = some state →
      state.Conserves retainedPath := by
    intro name state defined
    have result : Path.parse "$.result" = .ok ⟨.data, [.field "result"]⟩ := by decide +kernel
    have error : Path.parse "$.error" = .ok ⟨.data, [.field "error"]⟩ := by decide +kernel
    have remark : Path.parse "$.kept[2]" = .ok ⟨.data, [.field "kept", .index 2]⟩ := by decide +kernel
    rcases List.mem_cons.mp (Fields.mem_of_find? defined) with e | hrest
    · cases e
      refine ⟨rfl, _, remark, by decide, [.field "kept"], .index 2, .index 0, [], [], rfl, rfl, by decide⟩
    · cases List.mem_singleton.mp hrest
      refine ⟨rfl, ⟨_, result, by decide, [], _, _, [], [.index 0], rfl, rfl, by decide⟩, fun catcher hcatcher => ?_⟩
      cases List.mem_singleton.mp hcatcher
      exact ⟨_, error, by decide, [], _, _, [], [.index 0], rfl, rfl, by decide⟩
  have possible : ((start retained).play retained (List.replicate 5 (.act [] .proceed))).map (·.status) =
      some .succeeded := by decide +kernel
  obtain ⟨run, played, succeeded⟩ := Option.map_eq_some_iff.mp possible
  obtain ⟨output, settled, held⟩ :=
    data_conserved retained retainedPath (.int 7) _ run (by decide) conserves rfl played succeeded
  exact ⟨run, output, played, succeeded, rfl, settled, held⟩

end Run

end Execution

end Workflow
