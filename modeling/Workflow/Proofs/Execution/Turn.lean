import Workflow.Execution.Turn
import Workflow.Proofs.DataFlow
import Workflow.Proofs.Execution.FanOut

/-!
# `Workflow.Proofs.Execution.Turn` — everything that a turn can come to

Each function of a turn has one lemma that lists what it can come to, with the reason.  Whatever is to be shown
of turns is shown by going through these lists, and from turns it is lifted to activations at any depth.

## Contents
- **Turns.** `recover_cases`, `conclude_cases`, `fan_cases`, `invoke_cases`, `beginAttempt_cases`,
  `begin_wait_cases`, `proceed_cases`, `respond_cases`.
- **Jobs.** `filled_of_fan`, `filled_of_beginAttempt` and `filled_of_join`: which jobs are under way in an attempt; and
  `child?_respond`: a job under way after a turn was under way before it, or has just begun.
- **The tree.** `Activation.act_cons`, and `around_of_act`: what happens inside a job leaves the attempts around it as
  they are; and `Everywhere`, a property of an activation and of all that it holds, with `Everywhere.act`: what every turn
  keeps is kept wherever an activation acts.
-/

namespace Workflow.Execution

@[simp] theorem Turn.activation_after (notes : List Note) (turn : Turn) :
    (turn.after notes).activation = turn.activation := rfl

@[simp] theorem Turn.notes_after (notes : List Note) (turn : Turn) :
    (turn.after notes).notes = notes ++ turn.notes := rfl

theorem Turn.after_after (first second : List Note) (turn : Turn) :
    (turn.after second).after first = turn.after (first ++ second) := by
  simp [Turn.after]

/-! ## Out of a state -/

/-- What the rules of a state decide about a fault of an attempt. -/
abbrev decision (frame : Frame) (attempt : Attempt) (fault : Fault) : Retry.Decision × Retry.Counters :=
  Retry.resolve attempt.state.recovery fault frame.raw (frame.draw attempt.counters.retries .jitter)
    attempt.counters

/-- A fault of an attempt leads to a pause, to a catcher, or out of the graph. -/
theorem recover_cases (moment : Moment) (frame : Frame) (attempt : Attempt) (fault : Fault) :
    (∃ number delay counters, decision frame attempt fault = (.retry number delay, counters) ∧
      recover moment frame attempt fault =
        ⟨.node frame (.pausing { attempt with counters } (moment.after delay)),
          [.event (.stateRetried frame.state fault number delay.millis)]⟩) ∨
    (∃ next output counters, decision frame attempt fault = (.handle next output, counters) ∧
      recover moment frame attempt fault =
        (leave frame (some next) output).after [.event (.stateCaught frame.state fault next)]) ∨
    (∃ last counters, decision frame attempt fault = (.propagate last, counters) ∧
      recover moment frame attempt fault = stop frame (.fault last)) := by
  unfold recover
  rcases hd : decision frame attempt fault with ⟨decided, counters⟩
  cases decided with
  | retry number delay => exact Or.inl ⟨number, delay, counters, rfl, by simp only [hd]⟩
  | handle next output => exact Or.inr (Or.inl ⟨next, output, counters, rfl, by simp only [hd]⟩)
  | propagate last => exact Or.inr (Or.inr ⟨last, counters, rfl, by simp only [hd]⟩)

/-- Where an attempt that has a result leads. -/
abbrev exit (attempt : Attempt) : DataFlow.Outcome (Option String) :=
  (attempt.state.transition?.getD ⟨none, false⟩).follow

/-- What becomes of a result in its stages. -/
abbrev delivered (frame : Frame) (attempt : Attempt) (result : Json) : DataFlow.Outcome Json :=
  attempt.state.delivery.apply frame.raw frame.context (frame.draw attempt.counters.retries .result) result

/-- A result is passed on, unless a stage fails or the state leads nowhere. -/
theorem conclude_cases (moment : Moment) (frame : Frame) (attempt : Attempt) (result : Json) :
    (∃ fault, delivered frame attempt result = .error fault ∧
      conclude moment frame attempt result = recover moment frame attempt fault) ∨
    (∃ next output, exit attempt = .ok next ∧
      conclude moment frame attempt result = leave frame next output) ∨
    (∃ fault, exit attempt = .error fault ∧
      conclude moment frame attempt result = stop frame (.fault fault)) := by
  unfold conclude
  cases hd : delivered frame attempt result with
  | error fault => exact Or.inl ⟨fault, rfl, by simp only [hd]⟩
  | ok output =>
      cases he : exit attempt with
      | ok next => exact Or.inr (Or.inl ⟨next, output, rfl, by simp only [hd, he]; rfl⟩)
      | error fault => exact Or.inr (Or.inr ⟨fault, rfl, by simp only [hd, he]; rfl⟩)

/-! ## Fan-outs -/

/-- The notes about jobs that began. -/
abbrev begunNotes (frame : Frame) (attempt : Attempt) (indices : List Nat) : List Note :=
  indices.map fun index => .event (begunEvent attempt.state frame.state index)

/-- What holds of the notes about branches and about iterations that began holds of all notes about jobs that began. -/
theorem forall_begunNotes {Q : Note → Prop} {frame : Frame} {attempt : Attempt}
    (branch : ∀ name index, Q (.event (.branchStarted name index)))
    (iteration : ∀ name index, Q (.event (.iterationStarted name index))) (indices : List Nat) :
    ∀ note ∈ begunNotes frame attempt indices, Q note := by
  intro note hnote
  obtain ⟨index, -, rfl⟩ := List.mem_map.mp hnote
  unfold begunEvent
  split
  · exact iteration _ _
  · exact branch _ _

/-- What holds of the notes about branches and about iterations that failed holds of all notes about the fault of a job. -/
theorem forall_jobNotes {Q : Note → Prop} {fault : Fault} (branch : ∀ name index, Q (.event (.branchFailed name index fault)))
    (iteration : ∀ name index, Q (.event (.iterationFailed name index fault))) (state : State) (name : String) (index : Nat) :
    ∀ note ∈ jobNotes state name index fault, Q note := by
  intro note hnote
  unfold jobNotes at hnote
  split at hnote
  · cases List.mem_singleton.mp hnote
    unfold failedEvent
    split
    · exact iteration _ _
    · exact branch _ _
  · cases hnote

/-- An attempt fails as its job does, which is then wrapped; or it is told that the job broke off. -/
theorem jobFault_cases (state : State) (fault : Fault) :
    (fault.trap? = none ∧ jobFault state fault = fault.wrap Fault.Name.branchFailed) ∨
    ∃ trap, fault.trap? = some trap ∧
      (jobFault state fault = .runtime (.iterationLost trap) ∨ jobFault state fault = .runtime (.branchLost trap)) := by
  cases broke : fault.trap? with
  | none => exact Or.inl ⟨rfl, by simp only [jobFault, broke]⟩
  | some trap =>
      refine Or.inr ⟨trap, rfl, ?_⟩
      cases state with
      | map => exact Or.inl (by simp only [jobFault, broke])
      | _ => exact Or.inr (by simp only [jobFault, broke])

theorem jobFault_of_named {fault : Fault} (state : State) (named : fault.trap? = none) :
    jobFault state fault = fault.wrap Fault.Name.branchFailed := by
  simp only [jobFault, named]

/-- The job of an item. -/
abbrev jobOfItem (frame : Frame) (attempt : Attempt) (s : MapState) (processor : Graph) (effective : Json)
    (index : Nat) (item : Json) : Job :=
  let context := Context.forItem frame.context index item
  ⟨processor, context, DataFlow.itemInput s.itemSelector item
    ⟨effective, context, (frame.draw attempt.counters.retries .parameters).at index⟩⟩

/-- How many iterations may be under way: at least one, and only so many if the state says so. -/
abbrev limitOf (s : MapState) (items : List Json) : Nat :=
  match s.maxConcurrency with
  | some (most + 1) => most + 1
  | _ => max items.length 1

/-- A parallel state has a job for each branch, all with the same input; a map state has one for each item. -/
theorem jobs_cases {frame : Frame} {attempt : Attempt} {state : State} {js : List Job} {limit : Nat}
    (h : jobs frame attempt state = .ok (js, limit)) :
    (∃ s branches input, state = .parallel s branches ∧
      js = branches.map (fun graph => ⟨graph, frame.context, .ok input⟩) ∧ limit = branches.length) ∨
    (∃ s processor effective items, state = .map s processor ∧
      DataFlow.input s.inputPath frame.raw frame.context = .ok effective ∧
      DataFlow.items s.itemsPath effective frame.context = .ok items ∧
      js = items.mapIdx (jobOfItem frame attempt s processor effective) ∧ limit = limitOf s items) := by
  cases state with
  | parallel s branches =>
      obtain ⟨effective, -, h⟩ := DataFlow.bind_eq_ok.mp h
      obtain ⟨input, -, h⟩ := DataFlow.bind_eq_ok.mp h
      cases h
      exact Or.inl ⟨s, branches, input, rfl, rfl, rfl⟩
  | map s processor =>
      obtain ⟨effective, heffective, h⟩ := DataFlow.bind_eq_ok.mp h
      obtain ⟨items, hitems, h⟩ := DataFlow.bind_eq_ok.mp h
      cases h
      exact Or.inr ⟨s, processor, effective, items, rfl, heffective, hitems, rfl, rfl⟩
  | _ => cases h

/-- There is room for a job wherever there is one. -/
theorem room_of_jobs {frame : Frame} {attempt : Attempt} {state : State} {js : List Job} {limit : Nat}
    (planned : jobs frame attempt state = .ok (js, limit)) :
    limit = 0 → js = [] := by
  intro none
  rcases jobs_cases planned with ⟨s, branches, input, -, rfl, rfl⟩ | ⟨s, processor, effective, items, -, -, -, -, rfl⟩
  · rw [List.length_eq_zero_iff.mp none]
    rfl
  · unfold limitOf at none
    split at none <;> omega

/-- Once jobs have begun, the attempt has failed, is over, or goes on. -/
theorem fan_cases (moment : Moment) (frame : Frame) (attempt : Attempt) (fanOut : FanOut Activation) :
    ∃ filling, filling = fanOut.fill (frame.beginJob attempt) ∧
      ((∃ fault, filling.fault = some fault ∧
          fan moment frame attempt fanOut =
            (recover moment frame attempt fault).after (begunNotes frame attempt filling.begun)) ∨
        (filling.fault = none ∧ filling.fanOut.isIdle = true ∧
          fan moment frame attempt fanOut = (conclude moment frame attempt filling.fanOut.results).after
            (begunNotes frame attempt filling.begun)) ∨
        (filling.fault = none ∧ filling.fanOut.isIdle = false ∧
          fan moment frame attempt fanOut =
            ⟨.node frame (.fanning attempt filling.fanOut), begunNotes frame attempt filling.begun⟩)) := by
  refine ⟨_, rfl, ?_⟩
  unfold fan
  cases hfault : (fanOut.fill (frame.beginJob attempt)).fault with
  | some fault => exact Or.inl ⟨fault, rfl, by simp only [hfault]⟩
  | none =>
      cases hidle : (fanOut.fill (frame.beginJob attempt)).fanOut.isIdle with
      | true => exact Or.inr (Or.inl ⟨rfl, rfl, by simp only [hfault, hidle, if_true]⟩)
      | false => exact Or.inr (Or.inr ⟨rfl, rfl, by simp [hfault, hidle, Turn.after]⟩)

/-! ## Into a state -/

/-- The activation after a handler was invoked. -/
abbrev invoked (moment : Moment) (frame : Frame) (attempt : Attempt) (request : Request) : Activation :=
  let reply := request.handler.reply (moment.earlier request.key) request.input
  .node
    { frame with
      context := Context.issueToken frame.context (frame.draw attempt.counters.retries .token).uuid }
    (.invoking attempt ⟨reply, moment.clock + reply.delayMillis,
      request.limitSeconds.map fun seconds => (seconds, moment.after (.ofSeconds seconds))⟩)

theorem invoke_cases (host : Host) (moment : Moment) (frame : Frame) (attempt : Attempt) (task : Task) :
    (∃ fault, request host frame attempt task = .error fault ∧
      invoke host moment frame attempt task = recover moment frame attempt fault) ∨
    (∃ asked, request host frame attempt task = .ok asked ∧
      invoke host moment frame attempt task =
        ⟨invoked moment frame attempt asked, [.call asked.key asked.input]⟩) := by
  unfold invoke
  cases hr : request host frame attempt task with
  | error fault => exact Or.inl ⟨fault, rfl, by simp only⟩
  | ok asked => exact Or.inr ⟨asked, rfl, by simp only⟩

/-- An attempt that begins fails at once, invokes a handler, or fans out. -/
theorem beginAttempt_cases (host : Host) (moment : Moment) (frame : Frame) (attempt : Attempt) :
    (∃ task fault, attempt.state = .task task ∧ request host frame attempt task = .error fault ∧
      beginAttempt host moment frame attempt = recover moment frame attempt fault) ∨
    (∃ task asked, attempt.state = .task task ∧ request host frame attempt task = .ok asked ∧
      beginAttempt host moment frame attempt =
        ⟨invoked moment frame attempt asked, [.call asked.key asked.input]⟩) ∨
    (∃ fault, (∀ task, attempt.state ≠ .task task) ∧ jobs frame attempt attempt.state = .error fault ∧
      beginAttempt host moment frame attempt = recover moment frame attempt fault) ∨
    (∃ js limit, jobs frame attempt attempt.state = .ok (js, limit) ∧
      beginAttempt host moment frame attempt = fan moment frame attempt (.ofJobs js limit)) := by
  unfold beginAttempt
  split
  · rename_i task htask
    rcases invoke_cases host moment frame attempt task with ⟨fault, hr, e⟩ | ⟨asked, hr, e⟩
    · exact Or.inl ⟨task, fault, htask, hr, e⟩
    · exact Or.inr (Or.inl ⟨task, asked, htask, hr, e⟩)
  · rename_i fans
    cases hj : jobs frame attempt attempt.state with
    | error fault => exact Or.inr (Or.inr (Or.inl ⟨fault, fans, rfl, by simp only⟩))
    | ok planned => exact Or.inr (Or.inr (Or.inr ⟨planned.1, planned.2, rfl, by simp only⟩))

/-- An attempt that has jobs fans out. -/
theorem beginAttempt_of_jobs (host : Host) (moment : Moment) {frame : Frame} {attempt : Attempt} {js : List Job}
    {limit : Nat} (planned : jobs frame attempt attempt.state = .ok (js, limit)) :
    beginAttempt host moment frame attempt = fan moment frame attempt (.ofJobs js limit) := by
  rcases beginAttempt_cases host moment frame attempt with
    ⟨task, _, htask, -, -⟩ | ⟨task, _, htask, -, -⟩ | ⟨fault, -, hfault, -⟩ | ⟨js', limit', hjobs, e⟩
  · rw [htask] at planned
    cases planned
  · rw [htask] at planned
    cases planned
  · cases planned.symm.trans hfault
  · cases planned.symm.trans hjobs
    exact e

/-- A wait state fails at once, or waits with what its input path selects. -/
theorem begin_wait_cases (host : Host) (moment : Moment) (frame : Frame) (wait : Wait) :
    (∃ fault, planWait host moment frame wait = .error fault ∧
      begin host moment frame (.wait wait) = stop frame (.fault fault)) ∨
    (∃ effective due, DataFlow.input wait.inputPath frame.raw frame.context = .ok effective ∧
      begin host moment frame (.wait wait) = ⟨.node frame (.waiting wait effective due), []⟩) := by
  rw [show begin host moment frame (.wait wait) = beginWait host moment frame wait from rfl]
  unfold beginWait
  cases hp : planWait host moment frame wait with
  | error fault => exact Or.inl ⟨fault, rfl, by simp only⟩
  | ok planned =>
      obtain ⟨effective, heffective, hplanned⟩ := DataFlow.bind_eq_ok.mp hp
      have same : planned.1 = effective := by
        split at hplanned
        · cases hplanned
          rfl
        · obtain ⟨delay, -, e⟩ := DataFlow.bind_eq_ok.mp hplanned
          cases e
          rfl
      exact Or.inr ⟨planned.1, moment.after planned.2, same ▸ heffective, by simp only⟩

/-- The states that are run in attempts, so that there are rules for their failures. -/
def State.IsRecoverable (state : State) : Prop := state.kind ∈ [State.Kind.task, .parallel, .map]

instance (state : State) : Decidable (State.IsRecoverable state) := inferInstanceAs (Decidable (_ ∈ _))

/-- A state that is run in attempts begins with one that has no failures behind it. -/
theorem begin_of_recoverable (host : Host) (moment : Moment) (frame : Frame) {state : State}
    (h : State.IsRecoverable state) :
    begin host moment frame state =
      beginAttempt host moment frame ⟨state, .start state.recovery.retriers.length⟩ := by
  cases state with
  | task | parallel | map => rfl
  | _ => simp [State.IsRecoverable, State.kind] at h

/-! ## Acting -/

/-- What a wait state passes on when its time has come, and where it leads. -/
abbrev waited (frame : Frame) (wait : Wait) (effective : Json) : DataFlow.Outcome (Option String × Json) := do
  let output ← DataFlow.output wait.outputPath effective frame.context
  return (← wait.transition.follow, output)

/-- An activation that goes on gives up because the run is to be given up; or it enters a state, leaves a wait state,
    has the outcome of an invocation, or makes an attempt again. -/
theorem proceed_cases {host : Host} {moment : Moment} {frame : Frame} {phase : Phase} {turn : Turn}
    (h : proceed host moment frame phase = some turn) :
    (moment.cancelled = true ∧ turn = stop frame .cancelled) ∨
    (moment.cancelled = false ∧
      ((phase = .ready ∧ turn = enter host moment frame) ∨
        (∃ wait effective due, phase = .waiting wait effective due ∧ due ≤ moment.clock ∧
          turn = leaveOrFail frame (waited frame wait effective)) ∨
        (∃ attempt invocation result, phase = .invoking attempt invocation ∧
          invocation.outcome? frame.state moment.clock = some (.ok result) ∧
          turn = conclude moment frame attempt result) ∨
        (∃ attempt invocation fault, phase = .invoking attempt invocation ∧
          invocation.outcome? frame.state moment.clock = some (.error fault) ∧
          turn = recover moment frame attempt fault) ∨
        (∃ attempt due, phase = .pausing attempt due ∧ due ≤ moment.clock ∧
          turn = beginAttempt host moment
            { frame with context := Context.setRetryCount frame.context attempt.counters.retries } attempt))) := by
  -- A demand to give up comes before whatever the phase waits for.
  cases going : moment.cancelled with
  | true =>
      refine Or.inl ⟨rfl, ?_⟩
      cases phase with
      | fanning | ended => cases h
      | _ =>
          simp only [proceed, going, if_true, Option.some.injEq] at h
          exact h.symm
  | false =>
      refine Or.inr ⟨rfl, ?_⟩
      cases phase with
      | ready =>
          simp only [proceed, going, Bool.false_eq_true, if_false, Option.some.injEq] at h
          exact Or.inl ⟨rfl, h.symm⟩
      | waiting wait effective due =>
          simp only [proceed, going, Bool.false_eq_true, if_false] at h
          split at h
          · rename_i passed
            exact Or.inr (Or.inl ⟨wait, effective, due, rfl, passed, (Option.some.inj h).symm⟩)
          · cases h
      | invoking attempt invocation =>
          simp only [proceed, going, Bool.false_eq_true, if_false] at h
          obtain ⟨outcome, houtcome, rfl⟩ := Option.map_eq_some_iff.mp h
          cases outcome with
          | ok result => exact Or.inr (Or.inr (Or.inl ⟨attempt, invocation, result, rfl, houtcome, rfl⟩))
          | error fault => exact Or.inr (Or.inr (Or.inr (Or.inl ⟨attempt, invocation, fault, rfl, houtcome, rfl⟩)))
      | pausing attempt due =>
          simp only [proceed, going, Bool.false_eq_true, if_false] at h
          split at h
          · rename_i passed
            exact Or.inr (Or.inr (Or.inr (Or.inr ⟨attempt, due, rfl, passed, (Option.some.inj h).symm⟩)))
          · cases h
      | fanning | ended => cases h

/-- An invocation fails as its handler says, breaks off with it, or takes too long. -/
theorem Invocation.fault_cases {invocation : Invocation} {state : String} {clock : Nat} {fault : Fault}
    (h : invocation.outcome? state clock = some (.error fault)) :
    (∃ name message, fault = .ofTask name message) ∨ (∃ message, fault = .trapped (.raised message)) ∨
      ∃ seconds, fault = .new Fault.Name.timeout (.taskTimeout state seconds) := by
  unfold Invocation.outcome? at h
  split at h
  · cases answer : invocation.reply.answer with
    | returned value => rw [answer] at h; cases h
    | failed e => rw [answer] at h; cases h; exact Or.inl ⟨e.name, e.message, rfl⟩
    | raised message => rw [answer] at h; cases h; exact Or.inr (Or.inl ⟨message, rfl⟩)
  · split at h
    · split at h <;> cases h
      exact Or.inr (Or.inr ⟨_, rfl⟩)
    · cases h

/-- An activation acts by going on, or by taking in how one of its jobs ended. -/
theorem respond_cases {host : Host} {moment : Moment} {signal : Signal} {activation : Activation}
    {turn : Turn} (h : activation.respond host moment signal = some turn) :
    (signal = .proceed ∧ proceed host moment activation.frame activation.phase = some turn) ∨
    (∃ frame attempt fanOut index child ending, signal = .join index ∧
      activation = .node frame (.fanning attempt fanOut) ∧ fanOut.child? index = some child ∧
      child.ending? = some ending ∧ turn = join moment frame attempt fanOut index ending) := by
  obtain ⟨frame, phase⟩ := activation
  cases signal with
  | proceed => exact Or.inl ⟨rfl, h⟩
  | join index =>
      cases phase with
      | fanning attempt fanOut =>
          obtain ⟨ending, hending, rfl⟩ := Option.map_eq_some_iff.mp h
          obtain ⟨child, hchild, hending⟩ := Option.bind_eq_some_iff.mp hending
          exact Or.inr ⟨frame, attempt, fanOut, index, child, ending, rfl, rfl, hchild, hending, rfl⟩
      | _ => exact absurd h (by simp [Activation.respond])

/-! ## Jobs under way -/

/-- An activation that holds no jobs. -/
def Activation.IsLeaf (activation : Activation) : Prop :=
  ∀ attempt fanOut, activation.phase ≠ .fanning attempt fanOut

theorem Activation.IsLeaf.child? {activation : Activation} (h : activation.IsLeaf) (index : Nat) :
    activation.child? index = none := by
  obtain ⟨frame, phase⟩ := activation
  cases phase with
  | fanning attempt fanOut => exact absurd rfl (h attempt fanOut)
  | _ => rfl

section Children

variable {host : Host} {moment : Moment} {frame : Frame} {attempt : Attempt} {index : Nat} {child : Activation}

theorem leave_isLeaf (next : Option String) (output : Json) : (leave frame next output).activation.IsLeaf := by
  intro _ _ e
  cases next <;> cases e

theorem leaveOrFail_isLeaf (outcome : DataFlow.Outcome (Option String × Json)) :
    (leaveOrFail frame outcome).activation.IsLeaf := by
  cases outcome with
  | error fault => intro _ _ e; cases e
  | ok left => exact leave_isLeaf left.1 left.2

theorem recover_isLeaf (fault : Fault) : (recover moment frame attempt fault).activation.IsLeaf := by
  rcases recover_cases moment frame attempt fault with
    ⟨_, _, _, -, e⟩ | ⟨next, output, _, -, e⟩ | ⟨_, _, -, e⟩ <;> rw [e]
  · intro _ _ e; cases e
  · exact leave_isLeaf (some next) output
  · intro _ _ e; cases e

theorem conclude_isLeaf (result : Json) : (conclude moment frame attempt result).activation.IsLeaf := by
  rcases conclude_cases moment frame attempt result with ⟨fault, -, e⟩ | ⟨next, output, -, e⟩ | ⟨_, -, e⟩ <;> rw [e]
  · exact recover_isLeaf fault
  · exact leave_isLeaf next output
  · intro _ _ e; cases e

/-- Where jobs are still under way, the attempt is the same, and they are those that were and those that had room. -/
theorem filled_of_fan {fanOut fanOut' : FanOut Activation} {frame' : Frame} {attempt' : Attempt}
    (h : (fan moment frame attempt fanOut).activation = .node frame' (.fanning attempt' fanOut')) :
    frame' = frame ∧ attempt' = attempt ∧ fanOut' = (fanOut.fill (frame.beginJob attempt)).fanOut := by
  obtain ⟨filling, rfl, ⟨fault, -, e⟩ | ⟨-, -, e⟩ | ⟨-, -, e⟩⟩ := fan_cases moment frame attempt fanOut <;>
    rw [e] at h
  · exact absurd (congrArg Activation.phase h) (recover_isLeaf fault _ _)
  · exact absurd (congrArg Activation.phase h) (conclude_isLeaf _ _ _)
  · cases h
    exact ⟨rfl, rfl, rfl⟩

theorem filled_of_beginAttempt {fanOut : FanOut Activation} {frame' : Frame} {attempt' : Attempt}
    (h : (beginAttempt host moment frame attempt).activation = .node frame' (.fanning attempt' fanOut)) :
    frame' = frame ∧ attempt' = attempt ∧ ∃ js limit, jobs frame attempt attempt.state = .ok (js, limit) ∧
      fanOut = ((FanOut.ofJobs js limit).fill (frame.beginJob attempt)).fanOut := by
  rcases beginAttempt_cases host moment frame attempt with
    ⟨_, fault, -, -, e⟩ | ⟨_, _, -, -, e⟩ | ⟨fault, -, -, e⟩ | ⟨js, limit, planned, e⟩ <;> rw [e] at h
  · exact absurd (congrArg Activation.phase h) (recover_isLeaf fault _ _)
  · cases h
  · exact absurd (congrArg Activation.phase h) (recover_isLeaf fault _ _)
  · obtain ⟨sameFrame, sameAttempt, filled⟩ := filled_of_fan h
    exact ⟨sameFrame, sameAttempt, js, limit, planned, filled⟩

/-- A job that an activation has just begun, in front of the first state of its graph. -/
def Activation.Begins (activation : Activation) (index : Nat) (child : Activation) : Prop :=
  ∃ frame attempt fanOut job input, activation = .node frame (.fanning attempt fanOut) ∧
    fanOut.jobs[index]? = some job ∧ job.input = .ok input ∧ child = frame.beginJob attempt index job input

theorem child?_fan {fanOut : FanOut Activation}
    (h : (fan moment frame attempt fanOut).activation.child? index = some child) :
    fanOut.child? index = some child ∨ (fan moment frame attempt fanOut).activation.Begins index child := by
  obtain ⟨filling, rfl, ⟨fault, -, e⟩ | ⟨-, -, e⟩ | ⟨-, -, e⟩⟩ := fan_cases moment frame attempt fanOut <;>
    rw [e] at h ⊢
  · cases ((recover_isLeaf fault).child? index).symm.trans h
  · cases ((conclude_isLeaf _).child? index).symm.trans h
  · rcases FanOut.child?_fill h with before | ⟨job, input, -, hjob, hinput, rfl⟩
    · exact Or.inl before
    · refine Or.inr ⟨frame, attempt, _, job, input, rfl, ?_, hinput, rfl⟩
      rw [(FanOut.fill_keeps _ fanOut).1]
      exact hjob

/-- A job is taken in by an attempt that stays the same, with its output. -/
theorem filled_of_join {fanOut fanOut' : FanOut Activation} {joined : Nat} {ending : Ending} {frame' : Frame}
    {attempt' : Attempt}
    (h : (join moment frame attempt fanOut joined ending).activation = .node frame' (.fanning attempt' fanOut')) :
    frame' = frame ∧ attempt' = attempt ∧ ∃ value, ending = .output value ∧
      fanOut' = ((fanOut.deliver joined value).fill (frame.beginJob attempt)).fanOut := by
  cases ending with
  | output value =>
      obtain ⟨sameFrame, sameAttempt, filled⟩ := filled_of_fan h
      exact ⟨sameFrame, sameAttempt, value, rfl, filled⟩
  | fault fault => exact absurd (congrArg Activation.phase h) (recover_isLeaf _ _ _)
  | cancelled => cases h

theorem child?_join {fanOut : FanOut Activation} {joined : Nat} {ending : Ending}
    (h : (join moment frame attempt fanOut joined ending).activation.child? index = some child) :
    fanOut.child? index = some child ∨
      (join moment frame attempt fanOut joined ending).activation.Begins index child := by
  cases ending with
  | output value =>
      rcases child?_fan h with before | begins
      · rw [FanOut.child?_deliver] at before
        split at before
        · cases before
        · exact Or.inl before
      · exact Or.inr begins
  | fault fault => cases ((recover_isLeaf _).child? index).symm.trans h
  | cancelled => cases h

theorem child?_beginAttempt
    (h : (beginAttempt host moment frame attempt).activation.child? index = some child) :
    (beginAttempt host moment frame attempt).activation.Begins index child := by
  rcases beginAttempt_cases host moment frame attempt with
    ⟨_, fault, -, -, e⟩ | ⟨_, _, -, -, e⟩ | ⟨fault, -, -, e⟩ | ⟨js, limit, -, e⟩ <;> rw [e] at h ⊢
  · cases ((recover_isLeaf fault).child? index).symm.trans h
  · cases h
  · cases ((recover_isLeaf fault).child? index).symm.trans h
  · exact (child?_fan h).resolve_left (by simp [FanOut.ofJobs, FanOut.child?])

theorem child?_begin {state : State}
    (h : (begin host moment frame state).activation.child? index = some child) :
    (begin host moment frame state).activation.Begins index child := by
  cases state with
  | wait s =>
      rcases begin_wait_cases host moment frame s with ⟨_, -, e⟩ | ⟨_, _, -, e⟩ <;> rw [e] at h
      · cases h
      · cases h
  | task | parallel | map =>
      rw [begin_of_recoverable host moment frame (by simp [State.IsRecoverable, State.kind])] at h ⊢
      exact child?_beginAttempt h
  | fail s => cases h
  | _ => cases ((leaveOrFail_isLeaf _).child? index).symm.trans h

/-- Only on entering a state and after a pause are jobs begun where there were none. -/
theorem proceed_isLeaf {phase : Phase} {turn : Turn} (inside : phase ≠ .ready)
    (noRetry : ∀ attempt due, phase = .pausing attempt due → moment.cancelled = true)
    (h : proceed host moment frame phase = some turn) : turn.activation.IsLeaf := by
  rcases proceed_cases h with ⟨-, rfl⟩ | ⟨going, ⟨ready, -⟩ | ⟨wait, effective, _, -, -, rfl⟩ |
    ⟨attempt, _, result, -, -, rfl⟩ | ⟨attempt, _, fault, -, -, rfl⟩ | ⟨attempt, due, pausing, -, -⟩⟩
  · intro _ _ e
    cases e
  · exact absurd ready inside
  · exact leaveOrFail_isLeaf _
  · exact conclude_isLeaf result
  · exact recover_isLeaf fault
  · cases going.symm.trans (noRetry attempt due pausing)

theorem child?_proceed {phase : Phase} {turn : Turn} (hturn : proceed host moment frame phase = some turn)
    (h : turn.activation.child? index = some child) : turn.activation.Begins index child := by
  rcases proceed_cases hturn with ⟨-, rfl⟩ | ⟨-, ⟨-, rfl⟩ | ⟨wait, effective, _, -, -, rfl⟩ |
    ⟨attempt, _, result, -, -, rfl⟩ | ⟨attempt, _, fault, -, -, rfl⟩ | ⟨attempt, _, -, -, rfl⟩⟩
  · cases h
  · unfold enter at h ⊢
    split at h
    · cases h
    · exact child?_begin h
  · cases ((leaveOrFail_isLeaf _).child? index).symm.trans h
  · cases ((conclude_isLeaf result).child? index).symm.trans h
  · cases ((recover_isLeaf fault).child? index).symm.trans h
  · exact child?_beginAttempt h

/-- **The jobs under way after a turn** were under way before it or have just begun. -/
theorem child?_respond {signal : Signal} {activation : Activation} {turn : Turn}
    (hturn : activation.respond host moment signal = some turn)
    (h : turn.activation.child? index = some child) :
    activation.child? index = some child ∨ turn.activation.Begins index child := by
  rcases respond_cases hturn with ⟨-, hp⟩ | ⟨frame, attempt, fanOut, joined, found, ending, -, rfl, -, -, rfl⟩
  · exact Or.inr (child?_proceed hp h)
  · exact child?_join h

end Children

namespace Activation

variable {host : Host} {moment : Moment} {signal : Signal}

theorem phase_of_ending {activation : Activation} {ending : Ending} (h : activation.ending? = some ending) :
    activation.phase = .ended ending := by
  obtain ⟨frame, phase⟩ := activation
  cases phase <;> cases h
  rfl

@[simp] theorem ending?_givenUp (activation : Activation) : activation.givenUp.ending? = some .cancelled := by
  cases activation
  rfl

theorem act_nil {activation after : Activation} {entries : List Entry}
    (h : activation.act host moment signal [] = some (after, entries)) :
    ∃ turn, activation.respond host moment signal = some turn ∧ turn.activation = after ∧
      entries = turn.notes.map (⟨activation.frame.id, ·⟩) := by
  obtain ⟨turn, hturn, e⟩ := Option.map_eq_some_iff.mp (by simpa only [act] using h)
  cases e
  exact ⟨turn, hturn, rfl, rfl⟩

/-- An activation that something inside acts has jobs, and only the one in which it acts changes. -/
theorem act_cons {index : Nat} {place : Place} {activation after : Activation} {entries : List Entry}
    (h : activation.act host moment signal (index :: place) = some (after, entries)) :
    ∃ frame attempt fanOut child child', activation = .node frame (.fanning attempt fanOut) ∧
      fanOut.child? index = some child ∧ child.act host moment signal place = some (child', entries) ∧
      after = .node frame (.fanning attempt (fanOut.replace index child')) := by
  obtain ⟨frame, phase⟩ := activation
  cases phase with
  | fanning attempt fanOut =>
      simp only [act, Option.bind_eq_bind, Option.bind_eq_some_iff] at h
      obtain ⟨child, hchild, ⟨child', entries'⟩, hact, e⟩ := h
      cases e
      exact ⟨frame, attempt, fanOut, child, child', rfl, hchild, hact, rfl⟩
  | _ => simp [act] at h

/-- What a job under way does, it does inside the activation that holds it. -/
theorem act_of_child {index : Nat} {place : Place} {frame : Frame} {attempt : Attempt}
    {fanOut : FanOut Activation} {child child' : Activation} {entries : List Entry}
    (hchild : fanOut.child? index = some child)
    (h : child.act host moment signal place = some (child', entries)) :
    (Activation.node frame (.fanning attempt fanOut)).act host moment signal (index :: place) =
      some (.node frame (.fanning attempt (fanOut.replace index child')), entries) := by
  simp [act, hchild, h]

/-! ## The tree -/

/-- A property of an activation and of all that are under way inside it. -/
def Everywhere (P : Activation → Prop) (activation : Activation) : Prop :=
  ∀ place inner, activation.at? place = some inner → P inner

theorem Everywhere.self {P : Activation → Prop} {activation : Activation} (h : activation.Everywhere P) :
    P activation := h [] activation rfl

theorem Everywhere.child {P : Activation → Prop} {activation child : Activation} {index : Nat}
    (h : activation.Everywhere P) (hchild : activation.child? index = some child) : child.Everywhere P :=
  fun place inner hinner => h (index :: place) inner (by simp [at?, hchild, hinner])

/-- A place inside the activation at another place. -/
theorem at?_append {rest : Place} : ∀ {place : Place} {activation inner : Activation},
    activation.at? place = some inner → activation.at? (place ++ rest) = inner.at? rest := by
  intro place
  induction place with
  | nil => intro activation inner h; cases h; rfl
  | cons index place ih =>
      intro activation inner h
      obtain ⟨child, hchild, hinner⟩ := Option.bind_eq_some_iff.mp h
      show (activation.child? index).bind (at? (place ++ rest)) = inner.at? rest
      rw [hchild]
      exact ih hinner

/-- **What happens inside a job leaves the attempts around it as they are.** -/
theorem around_of_act {inner : Place} (inside : inner ≠ []) :
    ∀ {outer : Place} {activation after : Activation} {entries : List Entry},
    activation.act host moment signal (outer ++ inner) = some (after, entries) →
      ∃ frame attempt fanOut fanOut', activation.at? outer = some (.node frame (.fanning attempt fanOut)) ∧
        after.at? outer = some (.node frame (.fanning attempt fanOut')) ∧ fanOut'.jobs = fanOut.jobs := by
  intro outer
  induction outer with
  | nil =>
      intro activation after entries hact
      obtain ⟨index, rest, rfl⟩ := List.exists_cons_of_ne_nil inside
      obtain ⟨frame, attempt, fanOut, _, child', rfl, -, -, rfl⟩ := act_cons hact
      exact ⟨frame, attempt, fanOut, fanOut.replace index child', rfl, rfl, rfl⟩
  | cons index outer ih =>
      intro activation after entries hact
      obtain ⟨_, _, held, child, child', rfl, hchild, hinner, rfl⟩ := act_cons hact
      obtain ⟨frame, attempt, fanOut, fanOut', hbefore, hafter, same⟩ := ih hinner
      refine ⟨frame, attempt, fanOut, fanOut', Option.bind_eq_some_iff.mpr ⟨child, hchild, hbefore⟩,
        Option.bind_eq_some_iff.mpr ⟨child', ?_, hafter⟩, same⟩
      show (held.replace index child').child? index = some child'
      rw [FanOut.child?_replace, if_pos rfl, hchild]
      rfl

theorem Everywhere.inner {P : Activation → Prop} {activation inner : Activation} {place : Place}
    (h : activation.Everywhere P) (hinner : activation.at? place = some inner) : inner.Everywhere P :=
  fun rest found hfound => h (place ++ rest) found ((at?_append hinner).trans hfound)

theorem everywhere_of_children {P : Activation → Prop} {activation : Activation} (h : P activation)
    (children : ∀ index child, activation.child? index = some child → child.Everywhere P) :
    activation.Everywhere P := by
  intro place inner hinner
  cases place with
  | nil => cases hinner; exact h
  | cons index place =>
      obtain ⟨child, hchild, hinner⟩ := Option.bind_eq_some_iff.mp hinner
      exact children index child hchild place inner hinner

/-- An activation that has given up holds nothing. -/
theorem everywhere_givenUp {P : Activation → Prop} {activation : Activation} (h : P activation.givenUp) :
    activation.givenUp.Everywhere P := by
  refine everywhere_of_children h fun index child hchild => ?_
  cases activation
  cases hchild

/-- After a turn a property holds everywhere, if it holds of the activation that had its turn and of the jobs that it
    has just begun. -/
theorem Everywhere.respond {P : Activation → Prop} {activation : Activation} {turn : Turn}
    (h : activation.Everywhere P) (hturn : activation.respond host moment signal = some turn)
    (self : P turn.activation) (born : ∀ index child, turn.activation.Begins index child → P child) :
    turn.activation.Everywhere P := by
  refine everywhere_of_children self fun index child hchild => ?_
  rcases child?_respond hturn hchild with before | begins
  · exact h.child before
  · refine everywhere_of_children (born index child begins) fun _ _ hinner => ?_
    obtain ⟨_, _, _, _, _, -, -, -, rfl⟩ := begins
    cases hinner

/-- **What every turn keeps is kept wherever an activation acts.** The property of an activation around the one
    that acts has to survive that one of its jobs changes. -/
theorem Everywhere.act {P : Activation → Prop}
    (turns : ∀ (activation : Activation) (turn : Turn), activation.Everywhere P →
      activation.respond host moment signal = some turn →
        P turn.activation ∧ ∀ index child, turn.activation.Begins index child → P child)
    (around : ∀ (frame : Frame) (attempt : Attempt) (fanOut : FanOut Activation) (index : Nat)
      (place : Place) (child child' : Activation) (entries : List Entry), fanOut.child? index = some child →
      child.act host moment signal place = some (child', entries) →
      P (.node frame (.fanning attempt fanOut)) →
      P (.node frame (.fanning attempt (fanOut.replace index child')))) :
    ∀ {place : Place} {activation after : Activation} {entries : List Entry}, activation.Everywhere P →
      activation.act host moment signal place = some (after, entries) → after.Everywhere P := by
  intro place
  induction place with
  | nil =>
      intro activation after entries h hact
      obtain ⟨turn, hturn, rfl, -⟩ := act_nil hact
      obtain ⟨self, born⟩ := turns activation turn h hturn
      exact h.respond hturn self born
  | cons index place ih =>
      intro activation after entries h hact
      obtain ⟨frame, attempt, fanOut, child, child', rfl, hchild, hinner, rfl⟩ := act_cons hact
      refine everywhere_of_children (around frame attempt fanOut index place child child' entries hchild
        hinner h.self) fun other found hfound => ?_
      rcases FanOut.child?_of_replace hchild hfound with ⟨-, rfl⟩ | ⟨-, hfound⟩
      · exact ih (h.child hchild) hinner
      · exact h.child hfound

/-- **What every turn notes down is noted down wherever an activation acts.** -/
theorem entries_of_act {P : Activation → Prop} {Q : Note → Prop}
    (turns : ∀ (activation : Activation) (turn : Turn), activation.Everywhere P →
      activation.respond host moment signal = some turn → ∀ note ∈ turn.notes, Q note) :
    ∀ {place : Place} {activation after : Activation} {entries : List Entry}, activation.Everywhere P →
      activation.act host moment signal place = some (after, entries) → ∀ entry ∈ entries, Q entry.note := by
  intro place
  induction place with
  | nil =>
      intro activation after entries h hact entry hentry
      obtain ⟨turn, hturn, -, rfl⟩ := act_nil hact
      obtain ⟨note, hnote, rfl⟩ := List.mem_map.mp hentry
      exact turns activation turn h hturn note hnote
  | cons index place ih =>
      intro activation after entries h hact
      obtain ⟨frame, attempt, fanOut, child, child', rfl, hchild, hinner, -⟩ := act_cons hact
      exact ih (h.child hchild) hinner

end Activation

end Workflow.Execution
