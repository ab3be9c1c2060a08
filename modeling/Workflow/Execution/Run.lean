import Workflow.Execution.Turn

/-!
# `Workflow.Execution.Run` — whole runs

A run is an activation of the graph of a definition, with a clock and a log.  It moves on when time passes, when
it is asked to abort, and when one of its activations acts; which move comes next is open.  A run that was
asked to abort, or that took longer than it may, is settled before its outermost activation acts again, and
its activations are given up.  It is settled once: time still passes after that, but a demand to abort comes
too late.  What an activation lets go of is no part of the run any more; what becomes of it is told by
`Workflow.Execution.Process`.

Covers `ExecutionError`, `Settled`, `start`, `drive`, `abort`, `status` and `result`.

## Contents
- `Settlement`, how a run ends, with its event, status and result.
- `Setup` and `Run`, with `Run.start`.
- `Move` and `Run.move`, and `Run.play`, which makes moves in turn.
-/

namespace Workflow.Execution

/-! ## Settlements -/

/-- How a run ends. -/
inductive Settlement where
  | succeeded (output : Json)
  | failed (fault : Fault)
  | timedOut (seconds : Nat)
  | aborted
  /-- The run itself broke off, before it could say how it ended. -/
  | lost (trap : Trap)

/-- Why a run has no output. -/
inductive RunError where
  | failed (fault : Fault)
  | timedOut (fault : Fault)
  | aborted

/-- The fault of a run that failed or took too long. -/
def RunError.fault? : RunError → Option Fault
  | .failed fault => some fault
  | .timedOut fault => some fault
  | .aborted => none

/-- The status that an error stands for. -/
def RunError.status : RunError → Status
  | .failed _ => .failed
  | .timedOut _ => .timedOut
  | .aborted => .aborted

/-- The wording of an error. -/
def RunError.message : RunError → String
  | .failed fault => "execution failed: " ++ fault.message
  | .timedOut fault => "execution timed out: " ++ fault.message
  | .aborted => "execution aborted"

namespace Settlement

def status : Settlement → Status
  | .succeeded _ => .succeeded
  | .failed _ => .failed
  | .timedOut _ => .timedOut
  | .aborted => .aborted
  | .lost _ => .running

/-- The event of a settlement, with the milliseconds that the run took.  A run that broke off has none. -/
def event? (millis : Nat) : Settlement → Option Event
  | .succeeded output => some (.runSucceeded output millis)
  | .failed fault => some (.runFailed fault)
  | .timedOut _ => some .runTimedOut
  | .aborted => some .runAborted
  | .lost _ => none

/-- What is noted down about a settlement. -/
def entries (millis : Nat) (settlement : Settlement) : List Entry :=
  ((settlement.event? millis).map fun event => ⟨[], .event event⟩).toList

/-- The result of a run.  On demand, a run that was aborted has the result null. -/
def result (quietAbort : Bool) : Settlement → Except RunError Json
  | .succeeded output => .ok output
  | .failed fault => .error (.failed fault)
  | .timedOut seconds => .error (.timedOut (.new Fault.Name.timeout (.runTimeout seconds)))
  | .aborted => if quietAbort then .ok .null else .error .aborted
  | .lost trap => .error (.failed (.runtime (.runLost trap)))

/-- The settlement that the end of the outermost activation brings about. -/
def ofEnding : Ending → Settlement
  | .output value => .succeeded value
  | .fault fault =>
    match fault.trap? with
    | some trap => .lost trap
    | none => .failed fault
  | .cancelled => .aborted

end Settlement

/-! ## Runs -/

/-- What a run is started with. -/
structure Setup where
  definition : Definition
  host : Host
  /-- The name of the state machine. -/
  machine : String
  runId : String
  input : Json
  /-- What the caller adds to the context object. -/
  seed : Option Json
  chance : Chance

/-- The name of a state machine that was given none. -/
def Setup.defaultMachine : String := "StateMachine"

/-- A run. -/
structure Run where
  /-- Milliseconds since the start. -/
  clock : Nat
  abortRequested : Bool
  outermost : Activation
  /-- The notes so far, of which the last comes first. -/
  log : List Entry
  settlement : Option Settlement

namespace Run

/-- The context object at the start. -/
def startContext (setup : Setup) : Json :=
  Context.start setup.runId setup.machine (Timestamp.render setup.host.epochMillis) setup.input
    setup.seed

/-- A run that has just started. -/
def start (setup : Setup) : Run where
  clock := 0
  abortRequested := false
  outermost := .begin [] setup.definition.graph (startContext setup) setup.input setup.chance
  log := [⟨[], .event (.runStarted setup.input)⟩]
  settlement := none

def status (run : Run) : Status := (run.settlement.map (·.status)).getD .running

/-- The events so far, in the order in which they happened. -/
def events (run : Run) : List Event := eventsIn run.log

/-- The invocations so far, in the order in which they were made. -/
def calls (run : Run) : List (String × Json) := callsIn run.log

/-- The inputs that the handler of a key got so far, of which the last comes first. -/
def inputsOf (run : Run) (key : String) : List Json :=
  run.log.filterMap fun
    | ⟨_, .call k input⟩ => if k = key then some input else none
    | ⟨_, .event _⟩ => none

/-- The present moment. -/
def moment (run : Run) : Moment := ⟨run.clock, run.abortRequested, run.inputsOf⟩

/-! ## Settling -/

/-- Settles the run. -/
def settle (run : Run) (settlement : Settlement) : Run :=
  { run with
    settlement := some settlement
    log := settlement.entries run.clock ++ run.log }

/-- Settles the run from outside: the outermost activation is given up, with all that it holds. -/
def overrule (run : Run) (settlement : Settlement) : Run :=
  ({ run with outermost := run.outermost.givenUp } : Run).settle settlement

/-- When the run has to be over, with the seconds that it may take. -/
def deadline? (setup : Setup) : Option (Nat × Nat) :=
  setup.definition.timeoutSeconds.map fun seconds =>
    (seconds, (⟨0, false, fun _ => []⟩ : Moment).after (.ofSeconds seconds))

/-- How the run is to be settled from outside: a demand to abort goes before the deadline. -/
def overruled? (setup : Setup) (run : Run) : Option Settlement :=
  if run.abortRequested then some .aborted
  else
    match deadline? setup with
    | some (seconds, due) => if due ≤ run.clock then some (.timedOut seconds) else none
    | none => none

/-! ## Moving -/

/-- A move of a run. -/
inductive Move where
  /-- Time passes, until the given millisecond at least. -/
  | wait (time : Nat)
  /-- Someone asks the run to abort. -/
  | abort
  /-- The run is settled from outside. -/
  | overrule
  /-- The activation at a place acts. -/
  | act (place : Place) (signal : Signal)
  deriving DecidableEq, Repr

/-- Lets the activation at a place act at a moment.  When the outermost one ends, the run is settled. -/
def actAt (setup : Setup) (run : Run) (moment : Moment) (place : Place) (signal : Signal) : Option Run :=
  (run.outermost.act setup.host moment signal place).map fun (outermost, entries) =>
    let run := { run with outermost, log := entries.reverse ++ run.log }
    match outermost.ending? with
    | some ending => run.settle (.ofEnding ending)
    | none => run

/-- Lets the activation at a place act at the present moment. -/
def act (setup : Setup) (run : Run) (place : Place) (signal : Signal) : Option Run :=
  run.actAt setup run.moment place signal

/-- The run after a move, if the move is possible.  Once the run is settled, nobody looks any more at whether it
is to be settled, nor at its outermost activation. -/
def move (setup : Setup) (run : Run) : Move → Option Run
  | .wait time => some { run with clock := max run.clock time }
  | .abort => some { run with abortRequested := true }
  | .overrule =>
    if run.settlement.isSome then none else (run.overruled? setup).map run.overrule
  | .act [] signal =>
    if run.settlement.isSome then none
    else
      match run.overruled? setup with
      | some settlement => some (run.overrule settlement)
      | none => run.act setup [] signal
  | .act place signal => run.act setup place signal

/-- The run after moves made in turn, if they are possible. -/
def play (setup : Setup) : List Move → Run → Option Run
  | [], run => some run
  | next :: rest, run => (run.move setup next).bind (play setup rest)

end Run

end Workflow.Execution
