import Workflow.Context
import Workflow.Execution.Activation
import Workflow.Execution.Stages
import Workflow.Registry

/-!
# `Workflow.Execution.Turn` — what an activation does when it acts

An activation acts when what it waits for is there.  It then does all that takes no time, up to the next state
or to the next thing to wait for, and notes down what it does.  Everything else in the run stays as it is.

Covers `run_graph`, `run_state`, `run_recoverable`, `attempt`, `run_task`, `run_wait`, `run_parallel`, `run_map` and
`cancellable`.

## Contents
- `Host` and `Moment`, what an activation acts in.
- `leave`, `recover` and `conclude`, the ways out of a state.
- `beginAttempt` and `enter`, the ways in.
- `proceed` and `join`, and `Activation.act`, which lets the activation at a place act.
-/

namespace Workflow.Execution

open DataFlow (Outcome)

/-! ## Surroundings -/

/-- What surrounds a run. -/
structure Host where
  handlers : Registry Handler
  /-- The milliseconds for which states wait that would wait for something else. -/
  waits : Fields Nat
  /-- The time of the start of the run, in milliseconds since 1970-01-01. -/
  epochMillis : Nat

/-- When an activation acts. -/
structure Moment where
  /-- Milliseconds since the start of the run. -/
  clock : Nat
  /-- Whether the run is to be given up. -/
  cancelled : Bool
  /-- The inputs that the handler of a key got so far, of which the last comes first. -/
  earlier : String → List Json

/-- The time of day at a moment, in milliseconds. -/
def Host.now (host : Host) (moment : Moment) : Nat := host.epochMillis + moment.clock

/-- The seconds from which on a duration is more than a clock can measure. -/
def clockSeconds : Nat := Nat.pow 2 63

/-- The milliseconds for which a duration is waited for that no clock can measure: thirty years. -/
def foreverMillis : Nat := 30 * 365 * 86400 * 1000

/-- When a duration that begins at a moment is over, in whole milliseconds. -/
def Moment.after (moment : Moment) (duration : Duration) : Nat :=
  moment.clock + if duration.seconds < clockSeconds then duration.ticks else foreverMillis

/-- What an activation comes to when it acts, and what it notes down. -/
structure Turn where
  activation : Activation
  notes : List Note

/-- Puts notes in front of those of a turn. -/
def Turn.after (notes : List Note) (turn : Turn) : Turn := { turn with notes := notes ++ turn.notes }

/-! ## Chance -/

/-- The things in an attempt that are left to chance. -/
inductive Draw where
  | parameters | token | jitter | result | jobs

/-- The place of a draw. -/
def Draw.position : Draw → Nat
  | .parameters => 0
  | .token => 1
  | .jitter => 2
  | .result => 3
  | .jobs => 4

/-- The chance of a draw in an attempt with the given number of retries before it. -/
def Frame.draw (frame : Frame) (retries : Nat) (draw : Draw) : Chance :=
  ((frame.chance.at frame.entered).at retries).at draw.position

/-! ## Out of a state -/

/-- Ends the activation. -/
def stop (frame : Frame) (ending : Ending) : Turn := ⟨.node frame (.ended ending), []⟩

/-- Leaves the state with an output, for the next one or for the end. -/
def leave (frame : Frame) (next : Option String) (output : Json) : Turn :=
  let notes := [Note.event (.stateExited frame.state output)]
  match next with
  | some next => ⟨.node { frame with state := next, raw := output } .ready, notes⟩
  | none => ⟨.node frame (.ended (.output output)), notes⟩

/-- Leaves the state, or fails. -/
def leaveOrFail (frame : Frame) : Outcome (Option String × Json) → Turn
  | .ok (next, output) => leave frame next output
  | .error fault => stop frame (.fault fault)

/-- Does about a fault of an attempt what the rules of the state say. -/
def recover (moment : Moment) (frame : Frame) (attempt : Attempt) (fault : Fault) : Turn :=
  let chance := frame.draw attempt.counters.retries .jitter
  match Retry.resolve attempt.state.recovery fault frame.raw chance attempt.counters with
  | (.retry number delay, counters) =>
    ⟨.node frame (.pausing { attempt with counters } (moment.after delay)),
      [.event (.stateRetried frame.state fault number delay.millis)]⟩
  | (.handle next output, _) =>
    (leave frame (some next) output).after [.event (.stateCaught frame.state fault next)]
  | (.propagate fault, _) => stop frame (.fault fault)

/-- Passes the result of an attempt on. -/
def conclude (moment : Moment) (frame : Frame) (attempt : Attempt) (result : Json) : Turn :=
  let chance := frame.draw attempt.counters.retries .result
  match attempt.state.delivery.apply frame.raw frame.context chance result with
  | .error fault => recover moment frame attempt fault
  | .ok output =>
    leaveOrFail frame (((attempt.state.transition?.getD ⟨none, false⟩).follow).map (·, output))

/-! ## Tasks -/

/-- What is to be invoked. -/
structure Request where
  key : String
  handler : Handler
  input : Json
  limitSeconds : Option Nat

/-- The invocation that a task asks for. -/
def request (host : Host) (frame : Frame) (attempt : Attempt) (task : Task) : Outcome Request := do
  let effective ← DataFlow.input task.inputPath frame.raw frame.context
  let limitSeconds ← task.limit effective frame.context
  let chance := frame.draw attempt.counters.retries .parameters
  let input ← DataFlow.parameters task.parameters ⟨effective, frame.context, chance⟩
  match host.handlers.resolve? frame.state task.resource with
  | some (key, handler) => return { key, handler, input, limitSeconds }
  | none => throw (.new Fault.Name.taskFailed (.noHandler frame.state task.resource))

/-- Invokes the handler of a task under a new token. -/
def invoke (host : Host) (moment : Moment) (frame : Frame) (attempt : Attempt) (task : Task) : Turn :=
  match request host frame attempt task with
  | .error fault => recover moment frame attempt fault
  | .ok request =>
    let token := (frame.draw attempt.counters.retries .token).uuid
    let reply := request.handler.reply (moment.earlier request.key) request.input
    let limit := request.limitSeconds.map fun seconds => (seconds, moment.after (.ofSeconds seconds))
    ⟨.node { frame with context := Context.issueToken frame.context token }
        (.invoking attempt ⟨reply, moment.clock + reply.delayMillis, limit⟩),
      [.call request.key request.input]⟩

/-- What an invocation comes to, if it is over: the reply goes before the limit. -/
def Invocation.outcome? (invocation : Invocation) (state : String) (clock : Nat) :
    Option (Outcome Json) :=
  if invocation.due ≤ clock then some invocation.reply.answer.outcome
  else
    match invocation.limit with
    | some (seconds, due) =>
      if due ≤ clock then
        some (.error (.new Fault.Name.timeout (.taskTimeout state seconds)))
      else none
    | none => none

/-! ## Fan-outs -/

/-- The jobs of a parallel or map state, and how many may be under way at a time. -/
def jobs (frame : Frame) (attempt : Attempt) : State → Outcome (List Job × Nat)
  | .parallel s branches => do
    let effective ← DataFlow.input s.inputPath frame.raw frame.context
    let chance := frame.draw attempt.counters.retries .parameters
    let input ← DataFlow.parameters s.parameters ⟨effective, frame.context, chance⟩
    return (branches.map fun graph => ⟨graph, frame.context, .ok input⟩, branches.length)
  | .map s processor => do
    let effective ← DataFlow.input s.inputPath frame.raw frame.context
    let items ← DataFlow.items s.itemsPath effective frame.context
    let chance := frame.draw attempt.counters.retries .parameters
    let job (index : Nat) (item : Json) : Job :=
      let context := Context.forItem frame.context index item
      ⟨processor, context, DataFlow.itemInput s.itemSelector item ⟨effective, context, chance.at index⟩⟩
    let limit :=
      match s.maxConcurrency with
      | some (most + 1) => most + 1
      | _ => max items.length 1
    return (items.mapIdx job, limit)
  | other => throw (.runtime (.noRetrySemantics other.kind.name))

/-- The activation of a job. -/
def Frame.beginJob (frame : Frame) (attempt : Attempt) (index : Nat) (job : Job) (input : Json) :
    Activation :=
  let retries := attempt.counters.retries
  .begin (frame.id ++ [⟨frame.entered, retries, index⟩]) job.graph job.context input
    ((frame.draw retries .jobs).at index)

/-- The event of beginning a job. -/
def begunEvent (state : State) (name : String) (index : Nat) : Event :=
  match state with
  | .map .. => .iterationStarted name index
  | _ => .branchStarted name index

/-- The event of an output of a job. -/
def succeededEvent (state : State) (name : String) (index : Nat) : Event :=
  match state with
  | .map .. => .iterationSucceeded name index
  | _ => .branchSucceeded name index

/-- The event of a fault of a job. -/
def failedEvent (state : State) (name : String) (index : Nat) (fault : Fault) : Event :=
  match state with
  | .map .. => .iterationFailed name index fault
  | _ => .branchFailed name index fault

/-- Begins jobs while there is room; when none is left under way, the attempt is done. -/
def fan (moment : Moment) (frame : Frame) (attempt : Attempt) (fanOut : FanOut Activation) : Turn :=
  let filling := fanOut.fill (frame.beginJob attempt)
  let turn : Turn :=
    match filling.fault with
    | some fault => recover moment frame attempt fault
    | none =>
      if filling.fanOut.isIdle then conclude moment frame attempt filling.fanOut.results
      else ⟨.node frame (.fanning attempt filling.fanOut), []⟩
  turn.after (filling.begun.map fun index => .event (begunEvent attempt.state frame.state index))

/-- The fault of an attempt a job of which has a fault.  That a job broke off is all that the attempt is told of it. -/
def jobFault (state : State) (fault : Fault) : Fault :=
  match fault.trap?, state with
  | none, _ => fault.wrap Fault.Name.branchFailed
  | some trap, .map .. => .runtime (.iterationLost trap)
  | some trap, _ => .runtime (.branchLost trap)

/-- What is noted about the fault of a job, unless the job broke off. -/
def jobNotes (state : State) (name : String) (index : Nat) (fault : Fault) : List Note :=
  match fault.trap? with
  | none => [.event (failedEvent state name index fault)]
  | some _ => []

/-- Takes in how the job at an index ended.  A fault is the fault of the attempt, and the attempt lets go of the jobs
that are still under way. -/
def join (moment : Moment) (frame : Frame) (attempt : Attempt) (fanOut : FanOut Activation) (index : Nat) :
    Ending → Turn
  | .output value =>
    (fan moment frame attempt (fanOut.deliver index value)).after
      [.event (succeededEvent attempt.state frame.state index)]
  | .fault fault =>
    (recover moment frame attempt (jobFault attempt.state fault)).after
      (jobNotes attempt.state frame.state index fault)
  | .cancelled => stop frame .cancelled

/-! ## Into a state -/

/-- Begins an attempt. -/
def beginAttempt (host : Host) (moment : Moment) (frame : Frame) (attempt : Attempt) : Turn :=
  match attempt.state with
  | .task task => invoke host moment frame attempt task
  | state =>
    match jobs frame attempt state with
    | .error fault => recover moment frame attempt fault
    | .ok (jobs, limit) => fan moment frame attempt (.ofJobs jobs limit)

/-- The effective input of a wait state, and how long it waits. -/
def planWait (host : Host) (moment : Moment) (frame : Frame) (wait : Wait) :
    Outcome (Json × Duration) := do
  let effective ← DataFlow.input wait.inputPath frame.raw frame.context
  match Fields.find? host.waits frame.state with
  | some millis => return (effective, .ofMillis millis)
  | none => return (effective, ← wait.delay effective frame.context (host.now moment))

/-- Begins to wait. -/
def beginWait (host : Host) (moment : Moment) (frame : Frame) (wait : Wait) : Turn :=
  match planWait host moment frame wait with
  | .error fault => stop frame (.fault fault)
  | .ok (effective, delay) => ⟨.node frame (.waiting wait effective (moment.after delay)), []⟩

/-- Does what a state does first. -/
def begin (host : Host) (moment : Moment) (frame : Frame) (state : State) : Turn :=
  match state with
  | .succeed s => leaveOrFail frame ((s.output frame.raw frame.context).map (none, ·))
  | .fail s => stop frame (.fault (s.fault frame.raw frame.context))
  | .choice s =>
    leaveOrFail frame ((s.exit frame.raw frame.context).map fun exit => (some exit.1, exit.2))
  | .pass s => leaveOrFail frame do
    let output ← s.output frame.raw frame.context (frame.draw 0 .parameters)
    return (← s.transition.follow, output)
  | .wait s => beginWait host moment frame s
  | .task _ | .parallel .. | .map .. =>
    beginAttempt host moment frame ⟨state, .start state.recovery.retriers.length⟩

/-- Enters the state that the activation is in front of. -/
def enter (host : Host) (moment : Moment) (frame : Frame) : Turn :=
  match frame.graph.state? frame.state with
  | none => stop frame (.fault (.runtime (.undefinedState frame.state)))
  | some state =>
    -- The time of entry is that of the moment, so that templates see it in every attempt.
    let frame := { frame with
      context := Context.enter frame.context frame.state (Timestamp.render (host.now moment))
      entered := frame.entered + 1 }
    (begin host moment frame state).after
      [.event (.stateEntered frame.state state.kind.name frame.raw)]

/-! ## Acting -/

/-- Goes on, if what the activation waits for is there.  Where the run is to be given up, an activation that
waits for something other than its jobs gives up instead. -/
def proceed (host : Host) (moment : Moment) (frame : Frame) : Phase → Option Turn
  | .ready => some (if moment.cancelled then stop frame .cancelled else enter host moment frame)
  | .waiting wait effective due =>
    if moment.cancelled then some (stop frame .cancelled)
    else if due ≤ moment.clock then
      some (leaveOrFail frame do
        let output ← DataFlow.output wait.outputPath effective frame.context
        return (← wait.transition.follow, output))
    else none
  | .invoking attempt invocation =>
    if moment.cancelled then some (stop frame .cancelled)
    else (invocation.outcome? frame.state moment.clock).map fun
      | .ok result => conclude moment frame attempt result
      | .error fault => recover moment frame attempt fault
  | .pausing attempt due =>
    if moment.cancelled then some (stop frame .cancelled)
    else if due ≤ moment.clock then
      let context := Context.setRetryCount frame.context attempt.counters.retries
      some (beginAttempt host moment { frame with context } attempt)
    else none
  | .fanning .. | .ended _ => none

/-- What lets an activation act. -/
inductive Signal where
  /-- The activation has its turn. -/
  | proceed
  /-- The job at an index has ended. -/
  | join (index : Nat)
  deriving DecidableEq, Repr

namespace Activation

/-- What an activation does on a signal, if the signal is for it. -/
def respond (host : Host) (moment : Moment) (signal : Signal) : Activation → Option Turn
  | .node frame phase =>
    match signal, phase with
    | .proceed, phase => Execution.proceed host moment frame phase
    | .join index, .fanning attempt fanOut =>
      ((fanOut.child? index).bind ending?).map (Execution.join moment frame attempt fanOut index)
    | .join _, _ => none

/-- Lets the activation at a place act; the entries are in the order of their making. -/
def act (host : Host) (moment : Moment) (signal : Signal) :
    Place → Activation → Option (Activation × List Entry)
  | [], activation =>
    (activation.respond host moment signal).map fun turn =>
      (turn.activation, turn.notes.map (⟨activation.frame.id, ·⟩))
  | index :: place, .node frame phase =>
    match phase with
    | .fanning attempt fanOut => do
      let child ← fanOut.child? index
      let (child, entries) ← act host moment signal place child
      return (.node frame (.fanning attempt (fanOut.replace index child)), entries)
    | _ => none

end Activation

end Workflow.Execution
