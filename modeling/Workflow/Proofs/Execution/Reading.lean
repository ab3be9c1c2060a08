import Workflow.Proofs.Execution.Recovery

/-!
# `Workflow.Proofs.Execution.Reading` — what a turn reads of the context object

The functions of a turn are gone through once more, this time with a record of every evaluation: of which state it is,
and which context object it is given.  A stage is evaluated by `Frame.evaluate` and by `Frame.prepare` only, which note
down the object that they hand to it.  What a turn comes to is the same.

## Contents
- **Records.** `Evaluation` and `Watched`, results with the evaluations that led to them.
- **Turns.** A recording version of each function of a turn, `Watched.respond` at their head, each with a lemma that it
  comes to the same as the function itself.
- **Contexts.** `Watched.Reads`, with a lemma for each function: whatever is evaluated reads the context object of the
  activation, or the one of the iteration that is prepared.
-/

namespace Workflow.Execution

/-! ## Records -/

/-- The evaluation of paths, templates, conditions and intrinsic calls in a stage of a state. -/
structure Evaluation where
  /-- The name of the state. -/
  state : String
  /-- The context object that the stage is given. -/
  context : Json
  /-- The map state and the index of the item, where the stage prepares the input of an iteration. -/
  preparing : Option (MapState × Nat)

/-- A result with the evaluations that led to it, in their order. -/
structure Watched (α : Type) where
  value : α
  seen : List Evaluation

namespace Watched

variable {α β : Type}

instance : Monad Watched where
  pure a := ⟨a, []⟩
  bind first next := ⟨(next first.value).value, first.seen ++ (next first.value).seen⟩

@[simp] theorem value_pure (value : α) : (pure value : Watched α).value = value := rfl
@[simp] theorem value_bind (first : Watched α) (next : α → Watched β) :
    (first >>= next).value = (next first.value).value := rfl
@[simp] theorem seen_pure (value : α) : (pure value : Watched α).seen = [] := rfl
@[simp] theorem seen_bind (first : Watched α) (next : α → Watched β) :
    (first >>= next).seen = first.seen ++ (next first.value).seen := rfl

/-- Results in turn. -/
def each (all : List (Watched α)) : Watched (List α) := ⟨all.map (·.value), all.flatMap (·.seen)⟩

end Watched

/-- Evaluates a stage of the state that an activation is at. -/
def Frame.evaluate {α : Type} (frame : Frame) (stage : Json → α) : Watched α :=
  ⟨stage frame.context, [⟨frame.state, frame.context, none⟩]⟩

/-- Evaluates the stage that prepares the iteration of an item. -/
def Frame.prepare {α : Type} (frame : Frame) (s : MapState) (index : Nat) (item : Json) (stage : Json → α) :
    Watched α :=
  let context := Context.forItem frame.context index item
  ⟨stage context, [⟨frame.state, context, some (s, index)⟩]⟩

@[simp] theorem Frame.value_evaluate {α : Type} (frame : Frame) (stage : Json → α) :
    (frame.evaluate stage).value = stage frame.context := rfl
@[simp] theorem Frame.value_prepare {α : Type} (frame : Frame) (s : MapState) (index : Nat) (item : Json)
    (stage : Json → α) :
    (frame.prepare s index item stage).value = stage (Context.forItem frame.context index item) := rfl

/-- The items that a map state selects. -/
def Frame.items (frame : Frame) (s : MapState) : DataFlow.Outcome (List Json) := do
  let effective ← DataFlow.input s.inputPath frame.raw frame.context
  DataFlow.items s.itemsPath effective frame.context

/-! ## Turns -/

namespace Watched

variable (host : Host) (moment : Moment) (frame : Frame) (attempt : Attempt)

def conclude (result : Json) : Watched Turn := do
  let chance := frame.draw attempt.counters.retries .result
  match ← frame.evaluate fun context => attempt.state.delivery.apply frame.raw context chance result with
  | .error fault => return recover moment frame attempt fault
  | .ok output =>
    return leaveOrFail frame (((attempt.state.transition?.getD ⟨none, false⟩).follow).map (·, output))

theorem value_conclude (result : Json) :
    (conclude moment frame attempt result).value = Execution.conclude moment frame attempt result := by
  simp only [conclude, Execution.conclude, value_bind, Frame.value_evaluate]
  cases attempt.state.delivery.apply frame.raw frame.context _ result <;> rfl

def invoke (task : Task) : Watched Turn := do
  match ← frame.evaluate fun context => request host { frame with context } attempt task with
  | .error fault => return recover moment frame attempt fault
  | .ok asked => return ⟨invoked moment frame attempt asked, [.call asked.key asked.input]⟩

theorem value_invoke (task : Task) :
    (invoke host moment frame attempt task).value = Execution.invoke host moment frame attempt task := by
  simp only [invoke, Execution.invoke, value_bind, Frame.value_evaluate]
  cases request host frame attempt task <;> rfl

/-- The branches of a parallel state get copies of the context object; each item of a map has a stage of its own. -/
def jobs : State → Watched (DataFlow.Outcome (List Job × Nat))
  | .parallel s branches => do
    let chance := frame.draw attempt.counters.retries .parameters
    let input : DataFlow.Outcome Json ← frame.evaluate fun context => do
      let effective ← DataFlow.input s.inputPath frame.raw context
      DataFlow.parameters s.parameters ⟨effective, context, chance⟩
    return input.map fun input => (branches.map fun graph => ⟨graph, frame.context, .ok input⟩, branches.length)
  | .map s processor => do
    let selected : DataFlow.Outcome (Json × List Json) ← frame.evaluate fun context => do
      let effective ← DataFlow.input s.inputPath frame.raw context
      return (effective, ← DataFlow.items s.itemsPath effective context)
    match selected with
    | .error fault => return .error fault
    | .ok (effective, items) =>
      let chance := frame.draw attempt.counters.retries .parameters
      let job (index : Nat) (item : Json) : Watched Job := do
        let input ← frame.prepare s index item fun context =>
          DataFlow.itemInput s.itemSelector item ⟨effective, context, chance.at index⟩
        return ⟨processor, Context.forItem frame.context index item, input⟩
      return .ok (← each (items.mapIdx job), limitOf s items)
  | other => return Execution.jobs frame attempt other

theorem value_each_mapIdx {α β : Type} (step : Nat → α → Watched β) (items : List α) :
    (each (items.mapIdx step)).value = items.mapIdx fun index item => (step index item).value := by
  refine List.ext_getElem? fun index => ?_
  simp [each, Function.comp_def]

theorem value_jobs (state : State) : (jobs frame attempt state).value = Execution.jobs frame attempt state := by
  cases state with
  | parallel s branches =>
      simp only [jobs, Execution.jobs, value_bind, Frame.value_evaluate]
      cases DataFlow.input s.inputPath frame.raw frame.context with
      | error fault => rfl
      | ok effective =>
          simp only [bind, Except.bind]
          cases DataFlow.parameters s.parameters _ <;> rfl
  | map s processor =>
      simp only [jobs, Execution.jobs, value_bind, Frame.value_evaluate]
      cases DataFlow.input s.inputPath frame.raw frame.context with
      | error fault => rfl
      | ok effective =>
          simp only [bind, Except.bind]
          cases DataFlow.items s.itemsPath effective frame.context with
          | error fault => rfl
          | ok items =>
              exact congrArg (fun jobs => (Except.ok (jobs, limitOf s items) : DataFlow.Outcome (List Job × Nat)))
                (value_each_mapIdx _ items)
  | _ => rfl

def fan (fanOut : FanOut Activation) : Watched Turn := do
  let filling := fanOut.fill (frame.beginJob attempt)
  let turn ←
    match filling.fault with
    | some fault => pure (recover moment frame attempt fault)
    | none =>
      if filling.fanOut.isIdle then conclude moment frame attempt filling.fanOut.results
      else pure ⟨.node frame (.fanning attempt filling.fanOut), []⟩
  return turn.after (begunNotes frame attempt filling.begun)

theorem value_fan (fanOut : FanOut Activation) :
    (fan moment frame attempt fanOut).value = Execution.fan moment frame attempt fanOut := by
  simp only [fan, Execution.fan]
  cases (fanOut.fill (frame.beginJob attempt)).fault with
  | some fault => rfl
  | none =>
      cases (fanOut.fill (frame.beginJob attempt)).fanOut.isIdle with
      | true => exact congrArg (Turn.after _) (value_conclude moment frame attempt _)
      | false => rfl

def join (fanOut : FanOut Activation) (index : Nat) : Ending → Watched Turn
  | .output value => do
    let turn ← fan moment frame attempt (fanOut.deliver index value)
    return turn.after [.event (succeededEvent attempt.state frame.state index)]
  | other => return Execution.join moment frame attempt fanOut index other

theorem value_join (fanOut : FanOut Activation) (index : Nat) (ending : Ending) :
    (join moment frame attempt fanOut index ending).value =
      Execution.join moment frame attempt fanOut index ending := by
  cases ending with
  | output value => rw [join, value_bind, value_pure, value_fan]; rfl
  | _ => rfl

/-- Begins the jobs of a state that fans out. -/
def spread (state : State) : Watched Turn := do
  match ← jobs frame attempt state with
  | .error fault => return recover moment frame attempt fault
  | .ok (jobs, limit) => fan moment frame attempt (.ofJobs jobs limit)

theorem value_spread (state : State) : (spread moment frame attempt state).value =
    match Execution.jobs frame attempt state with
    | .error fault => recover moment frame attempt fault
    | .ok (jobs, limit) => Execution.fan moment frame attempt (.ofJobs jobs limit) := by
  simp only [spread, value_bind, value_jobs]
  cases Execution.jobs frame attempt state with
  | error fault => rfl
  | ok planned => exact value_fan moment frame attempt _

def beginAttempt : Watched Turn :=
  match attempt.state with
  | .task task => invoke host moment frame attempt task
  | state => spread moment frame attempt state

theorem value_beginAttempt :
    (beginAttempt host moment frame attempt).value = Execution.beginAttempt host moment frame attempt := by
  obtain ⟨state, counters⟩ := attempt
  cases state with
  | task task => exact value_invoke host moment frame _ task
  | _ => exact value_spread moment frame _ _

def begin (state : State) : Watched Turn :=
  match state with
  | .succeed s => do
    let output ← frame.evaluate fun context => s.output frame.raw context
    return leaveOrFail frame (output.map (none, ·))
  | .fail s => return stop frame (.fault (← frame.evaluate fun context => s.fault frame.raw context))
  | .choice s => do
    let exit ← frame.evaluate fun context => s.exit frame.raw context
    return leaveOrFail frame (exit.map fun exit => (some exit.1, exit.2))
  | .pass s => do
    let passed ← frame.evaluate fun context => s.output frame.raw context (frame.draw 0 .parameters)
    return leaveOrFail frame do
      let output ← passed
      return (← s.transition.follow, output)
  | .wait s => do
    match ← frame.evaluate fun context => planWait host moment { frame with context } s with
    | .error fault => return stop frame (.fault fault)
    | .ok (effective, delay) => return ⟨.node frame (.waiting s effective (moment.after delay)), []⟩
  | .task _ | .parallel .. | .map .. =>
    beginAttempt host moment frame ⟨state, .start state.recovery.retriers.length⟩

theorem value_begin (state : State) :
    (begin host moment frame state).value = Execution.begin host moment frame state := by
  cases state with
  | wait s =>
      simp only [begin, Execution.begin, beginWait, value_bind, Frame.value_evaluate]
      cases planWait host moment frame s <;> rfl
  | task task => exact value_beginAttempt host moment frame _
  | parallel s branches => exact value_beginAttempt host moment frame _
  | map s processor => exact value_beginAttempt host moment frame _
  | _ => rfl

def enter : Watched Turn :=
  match frame.graph.state? frame.state with
  | none => pure (stop frame (.fault (.runtime (.undefinedState frame.state))))
  | some state => do
    let turn ← begin host moment (frame.entering host moment) state
    return turn.after [.event (.stateEntered frame.state state.kind.name frame.raw)]

theorem value_enter : (enter host moment frame).value = Execution.enter host moment frame := by
  simp only [enter, Execution.enter]
  cases frame.graph.state? frame.state with
  | none => rfl
  | some state => exact congrArg (Turn.after _) (value_begin host moment _ state)

def proceed : Phase → Option (Watched Turn)
  | .waiting wait effective due =>
    if moment.cancelled then some (pure (stop frame .cancelled))
    else if due ≤ moment.clock then
      some do
        let selected ← frame.evaluate fun context => DataFlow.output wait.outputPath effective context
        return leaveOrFail frame do
          let output ← selected
          return (← wait.transition.follow, output)
    else none
  | .ready => some (if moment.cancelled then pure (stop frame .cancelled) else enter host moment frame)
  | .invoking attempt invocation =>
    if moment.cancelled then some (pure (stop frame .cancelled))
    else (invocation.outcome? frame.state moment.clock).map fun
      | .ok result => conclude moment frame attempt result
      | .error fault => pure (recover moment frame attempt fault)
  | .pausing attempt due =>
    if moment.cancelled then some (pure (stop frame .cancelled))
    else if due ≤ moment.clock then some (beginAttempt host moment (frame.retrying attempt) attempt)
    else none
  | .fanning .. | .ended _ => none

theorem value_proceed (phase : Phase) :
    (proceed host moment frame phase).map (·.value) = Execution.proceed host moment frame phase := by
  cases phase with
  | ready =>
      simp only [proceed, Execution.proceed, Option.map_some]
      split
      · rfl
      · rw [value_enter]
  | waiting wait effective due =>
      simp only [proceed, Execution.proceed]
      split
      · rfl
      · split <;> rfl
  | invoking attempt invocation =>
      simp only [proceed, Execution.proceed]
      split
      · rfl
      · rw [Option.map_map]
        refine congrArg (Option.map · _) (funext fun outcome => ?_)
        cases outcome with
        | ok result => exact value_conclude moment frame attempt result
        | error fault => rfl
  | pausing attempt due =>
      simp only [proceed, Execution.proceed]
      split
      · rfl
      · split
        · exact congrArg some (value_beginAttempt host moment _ attempt)
        · rfl
  | fanning attempt fanOut => rfl
  | ended ending => rfl

/-- The turn of an activation on a signal, with all that is evaluated in it. -/
def respond (signal : Signal) : Activation → Option (Watched Turn)
  | .node frame phase =>
    match signal, phase with
    | .proceed, phase => proceed host moment frame phase
    | .join index, .fanning attempt fanOut =>
      ((fanOut.child? index).bind Activation.ending?).map (join moment frame attempt fanOut index)
    | .join _, _ => none

/-- **A turn that is watched is the turn.** -/
theorem value_respond (signal : Signal) (activation : Activation) :
    (respond host moment signal activation).map (·.value) = activation.respond host moment signal := by
  obtain ⟨frame, phase⟩ := activation
  cases signal with
  | proceed => exact value_proceed host moment frame phase
  | join index =>
      cases phase with
      | fanning attempt fanOut =>
          simp only [respond, Activation.respond, Option.map_map]
          exact congrArg (Option.map · _) (funext fun ending => value_join moment frame attempt fanOut index ending)
      | _ => rfl

end Watched

/-! ## Contexts -/

/-- The evaluation is one of the state that an activation is at, and reads the context object of the activation; where it
    prepares an iteration, it reads the object of that iteration. -/
def Evaluation.IsFor (frame : Frame) (evaluation : Evaluation) : Prop :=
  evaluation.state = frame.state ∧
    match evaluation.preparing with
    | none => evaluation.context = frame.context
    | some (s, index) => ∃ items item, frame.items s = .ok items ∧ items[index]? = some item ∧
        evaluation.context = Context.forItem frame.context index item

/-- An activation as it evaluates what it evaluates in its turn: it has entered its state, or told templates of the retry;
    or it goes on with what it has begun. -/
def Frame.during (host : Host) (moment : Moment) (frame : Frame) : Phase → Frame
  | .ready => frame.entering host moment
  | .pausing attempt _ => frame.retrying attempt
  | _ => frame

namespace Watched

variable {α β : Type} {host : Host} {moment : Moment} {frame : Frame} {attempt : Attempt}

/-- All evaluations are for the state that an activation is at. -/
def Reads (frame : Frame) (watched : Watched α) : Prop := ∀ evaluation ∈ watched.seen, evaluation.IsFor frame

theorem reads_pure (value : α) : (pure value : Watched α).Reads frame := by
  intro evaluation seen
  cases seen

theorem Reads.bind {first : Watched α} {next : α → Watched β} (h : first.Reads frame)
    (rest : (next first.value).Reads frame) : (first >>= next).Reads frame := by
  intro evaluation seen
  rcases List.mem_append.mp seen with before | after
  · exact h evaluation before
  · exact rest evaluation after

theorem reads_evaluate (stage : Json → α) : (frame.evaluate stage).Reads frame := by
  intro evaluation seen
  rw [List.mem_singleton.mp seen]
  exact ⟨rfl, rfl⟩

theorem reads_prepare {s : MapState} {items : List Json} {index : Nat} {item : Json}
    (selected : frame.items s = .ok items) (here : items[index]? = some item) (stage : Json → α) :
    (frame.prepare s index item stage).Reads frame := by
  intro evaluation seen
  rw [List.mem_singleton.mp seen]
  exact ⟨rfl, items, item, selected, here, rfl⟩

theorem reads_each_mapIdx {step : Nat → α → Watched β} {items : List α}
    (h : ∀ index item, items[index]? = some item → (step index item).Reads frame) :
    (each (items.mapIdx step)).Reads frame := by
  intro evaluation seen
  obtain ⟨watched, hwatched, inside⟩ := List.mem_flatMap.mp seen
  obtain ⟨index, below, rfl⟩ := List.mem_mapIdx.mp hwatched
  exact h index items[index] (List.getElem?_eq_getElem below) evaluation inside

theorem reads_conclude (result : Json) : (conclude moment frame attempt result).Reads frame := by
  refine (reads_evaluate _).bind ?_
  split <;> exact reads_pure _

theorem reads_invoke (task : Task) : (invoke host moment frame attempt task).Reads frame := by
  refine (reads_evaluate _).bind ?_
  split <;> exact reads_pure _

theorem reads_jobs (state : State) : (jobs frame attempt state).Reads frame := by
  cases state with
  | parallel s branches => exact (reads_evaluate _).bind (reads_pure _)
  | map s processor =>
      refine (reads_evaluate _).bind ?_
      split
      · exact reads_pure _
      · rename_i effective items e
        have selected : frame.items s = .ok items := by
          obtain ⟨effective', hinput, h⟩ := DataFlow.bind_eq_ok.mp e
          obtain ⟨items', hitems, h⟩ := DataFlow.bind_eq_ok.mp h
          cases h
          exact DataFlow.bind_eq_ok.mpr ⟨effective, hinput, hitems⟩
        refine (reads_each_mapIdx fun index item here => ?_).bind (reads_pure _)
        exact (reads_prepare selected here _).bind (reads_pure _)
  | _ => exact reads_pure _

theorem reads_fan (fanOut : FanOut Activation) : (fan moment frame attempt fanOut).Reads frame := by
  simp only [fan]
  split
  · exact (reads_pure _).bind (reads_pure _)
  · split
    · exact (reads_conclude _).bind (reads_pure _)
    · exact (reads_pure _).bind (reads_pure _)

theorem reads_join (fanOut : FanOut Activation) (index : Nat) (ending : Ending) :
    (join moment frame attempt fanOut index ending).Reads frame := by
  cases ending with
  | output value => exact (reads_fan _).bind (reads_pure _)
  | _ => exact reads_pure _

theorem reads_spread (state : State) : (spread moment frame attempt state).Reads frame := by
  refine (reads_jobs state).bind ?_
  split
  · exact reads_pure _
  · exact reads_fan _

theorem reads_beginAttempt (frame : Frame) (attempt : Attempt) :
    (beginAttempt host moment frame attempt).Reads frame := by
  unfold beginAttempt
  split
  · exact reads_invoke _
  · exact reads_spread _

theorem reads_begin (state : State) : (begin host moment frame state).Reads frame := by
  cases state with
  | wait s =>
      refine (reads_evaluate _).bind ?_
      split <;> exact reads_pure _
  | task task => exact reads_beginAttempt frame _
  | parallel s branches => exact reads_beginAttempt frame _
  | map s processor => exact reads_beginAttempt frame _
  | _ => exact (reads_evaluate _).bind (reads_pure _)

theorem reads_enter : (enter host moment frame).Reads (frame.entering host moment) := by
  unfold enter
  split
  · exact reads_pure _
  · exact (reads_begin _).bind (reads_pure _)

theorem reads_proceed {phase : Phase} {turn : Watched Turn} (h : proceed host moment frame phase = some turn) :
    turn.Reads (frame.during host moment phase) := by
  cases phase with
  | ready =>
      cases h
      split
      · exact reads_pure _
      · exact reads_enter
  | waiting wait effective due =>
      simp only [proceed] at h
      split at h
      · cases h; exact reads_pure _
      · split at h
        · cases h; exact (reads_evaluate _).bind (reads_pure _)
        · cases h
  | invoking attempt invocation =>
      simp only [proceed] at h
      split at h
      · cases h; exact reads_pure _
      · obtain ⟨outcome, -, rfl⟩ := Option.map_eq_some_iff.mp h
        cases outcome with
        | ok result => exact reads_conclude result
        | error fault => exact reads_pure _
  | pausing attempt due =>
      simp only [proceed] at h
      split at h
      · cases h; exact reads_pure _
      · split at h
        · cases h; exact reads_beginAttempt _ attempt
        · cases h
  | fanning attempt fanOut => cases h
  | ended ending => cases h

/-- **Whatever is evaluated in a turn reads the context object of the activation that has its turn.** -/
theorem reads_respond {signal : Signal} {activation : Activation} {turn : Watched Turn}
    (h : respond host moment signal activation = some turn) :
    turn.Reads (activation.frame.during host moment activation.phase) := by
  obtain ⟨frame, phase⟩ := activation
  cases signal with
  | proceed => exact reads_proceed h
  | join index =>
      cases phase with
      | fanning attempt fanOut =>
          obtain ⟨ending, -, rfl⟩ := Option.map_eq_some_iff.mp h
          exact reads_join fanOut index ending
      | _ => cases h

end Watched

end Workflow.Execution
