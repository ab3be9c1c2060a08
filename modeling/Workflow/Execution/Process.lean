import Workflow.Execution.Run

/-!
# `Workflow.Execution.Process` — runs with all that they have set going

An activation that leaves its jobs lets go of those that are still under way: it cancels the token to which they
listen, and dooms them.  A job that is doomed never acts again, but what is under way inside it is adrift.  It is under
way still, and acts when it has its turn, until the job around it is dropped as well, which happens at some time later.
So a run can be settled while activations are adrift that were under way in it.  All that holds them back is the
token: whoever has its turn looks whether that, or one further out, has been cancelled.

Covers `child_token`, `drop_guard` and `JoinSet` as `drive`, `run_parallel` and `run_map` use them, `abort_token`
and `events`.

## Contents
- `CancelToken`, and `CancelToken.heeded`, the tokens to which an activation listens.
- `Process`, with `Process.start`, and `Process.moment`, when an activation acts.
- `Process.letGo`, which lets go of jobs; `Process.act`, `Process.drift` and `Process.drop`.
- `Process.Move` and `Process.move`, and `Process.play`, which makes moves in turn.
-/

namespace Workflow.Execution

/-! ## Tokens -/

/-- What is cancelled at once. -/
inductive CancelToken where
  /-- All that is under way in a run. -/
  | run
  /-- The jobs of an attempt, which is told by the name of the activation that makes it, by the number of states that this
  has entered, and by the number of retries. -/
  | attempt (owner : Id) (entered retries : Nat)
  deriving DecidableEq, Repr

/-- The tokens of the attempts in whose jobs an activation is, from that of the given owner on. -/
def CancelToken.inside (owner : Id) : List Origin → List CancelToken
  | [] => []
  | origin :: rest => .attempt owner origin.entered origin.retries :: inside (owner ++ [origin]) rest

/-- The tokens that are not to be cancelled as long as an activation goes on, outermost first. -/
def CancelToken.heeded (id : Id) : List CancelToken := .run :: inside [] id

namespace Activation

/-- The token to which the jobs of an activation listen. -/
def token? : Activation → Option CancelToken
  | .node frame (.fanning attempt _) => some (.attempt frame.id frame.entered attempt.counters.retries)
  | _ => none

/-- The jobs under way, by index. -/
def running : Activation → List (Nat × Activation)
  | .node _ (.fanning _ fanOut) => fanOut.running
  | _ => []

/-- Whether, at a moment, an activation takes the reply of a handler that asks the run to abort. -/
def asksAbort (moment : Moment) : Activation → Bool
  | .node _ (.invoking _ invocation) =>
    !moment.cancelled && decide (invocation.due ≤ moment.clock) && invocation.reply.abortsRun
  | _ => false

end Activation

/-- The index of the job that is taken in. -/
def Signal.taken? : Signal → Option Nat
  | .proceed => none
  | .join index => some index

/-! ## Processes -/

/-- A run with all that it has set going. -/
structure Process where
  run : Run
  /-- The jobs that are doomed, with what is under way in them. -/
  adrift : List Activation
  cancelled : List CancelToken
  /-- The notes so far of everybody, of which the last comes first. -/
  log : List Entry

namespace Process

def start (setup : Setup) : Process := ⟨.start setup, [], [], (Run.start setup).log⟩

/-- The events so far, in the order in which they happened. -/
def events (process : Process) : List Event := eventsIn process.log

/-- The invocations so far, in the order in which they were made. -/
def calls (process : Process) : List (String × Json) := callsIn process.log

/-- The events up to the one that settles the run. -/
def shownEvents (process : Process) : List Event :=
  let (before, rest) := process.events.span (!·.isTerminal)
  before ++ rest.take 1

/-- Whether an activation is told to give up: the run was asked to abort, or a token to which the activation listens
was cancelled. -/
def tells (process : Process) (id : Id) : Bool :=
  process.run.abortRequested || (CancelToken.heeded id).any (process.cancelled.contains ·)

/-- The present moment, for an activation. -/
def moment (process : Process) (id : Id) : Moment := { process.run.moment with cancelled := process.tells id }

/-! ## Letting go -/

/-- Lets go of the jobs of an activation, but for the one that it has just taken in. -/
def letGo (process : Process) (activation : Activation) (taken : Option Nat) : Process :=
  { process with
    adrift := process.adrift ++ (activation.running.filter fun job => some job.1 != taken).map (·.2)
    cancelled := activation.token?.toList ++ process.cancelled }

/-- The process after a turn of an activation, which is then as given: if it has no jobs any more, those that it had are let
go of. -/
def afterTurn (process : Process) (signal : Signal) (before : Activation) (after : Option Activation) : Process :=
  if after.any (·.token?.isSome) then process else process.letGo before signal.taken?

/-- The process once its run has come to be as given.  A run that is settled cancels its token, unless it broke off. -/
def follow (process : Process) (run : Run) : Process :=
  { process with
    run
    cancelled :=
      match run.settlement with
      | none | some (.lost _) => process.cancelled
      | some _ => .run :: process.cancelled
    log := run.log.take (run.log.length - process.run.log.length) ++ process.log }

/-- Settles the run from outside, which lets go of all that its outermost activation holds. -/
def overrule (process : Process) (settlement : Settlement) : Process :=
  (process.follow (process.run.overrule settlement)).letGo process.run.outermost none

/-! ## Acting -/

/-- Lets the activation at a place of the run act. -/
def act (setup : Setup) (process : Process) (place : Place) (signal : Signal) : Option Process := do
  let actor ← process.run.outermost.at? place
  let moment := process.moment actor.frame.id
  let run ← process.run.actAt setup moment place signal
  let asked : Run := { run with abortRequested := run.abortRequested || actor.asksAbort moment }
  return (process.follow asked).afterTurn signal actor (run.outermost.at? place)

/-- Lets the activation at a place inside a doomed job act. -/
def drift (setup : Setup) (process : Process) (doomed : Id) (place : Place) (signal : Signal) : Option Process := do
  let job ← process.adrift.find? (·.frame.id == doomed)
  let actor ← job.at? place
  let moment := process.moment actor.frame.id
  let (after, entries) ← job.act setup.host moment signal place
  let next : Process :=
    { process with
      run := { process.run with abortRequested := process.run.abortRequested || actor.asksAbort moment }
      adrift := process.adrift.map fun other => if other.frame.id == doomed then after else other
      log := entries.reverse ++ process.log }
  return next.afterTurn signal actor (after.at? place)

/-- Drops a doomed job, which lets go of all that the job itself holds. -/
def drop (process : Process) (doomed : Id) : Option Process := do
  let job ← process.adrift.find? (·.frame.id == doomed)
  return { process with adrift := process.adrift.filter (·.frame.id != doomed) }.letGo job none

/-! ## Moving -/

/-- A move of a process. -/
inductive Move where
  /-- The run makes a move. -/
  | run (move : Run.Move)
  /-- An activation inside a doomed job acts.  Its place is given by that of its first job and by the rest. -/
  | drift (doomed : Id) (index : Nat) (place : Place) (signal : Signal)
  /-- A doomed job is dropped. -/
  | drop (doomed : Id)
  deriving DecidableEq, Repr

/-- The process after a move of its run. -/
def moveRun (setup : Setup) (process : Process) : Run.Move → Option Process
  | .overrule =>
    if process.run.settlement.isSome then none else (process.run.overruled? setup).map process.overrule
  | .act [] signal =>
    if process.run.settlement.isSome then none
    else
      match process.run.overruled? setup with
      | some settlement => some (process.overrule settlement)
      | none => process.act setup [] signal
  | .act place signal => process.act setup place signal
  | move => (process.run.move setup move).map process.follow

/-- The process after a move, if the move is possible. -/
def move (setup : Setup) (process : Process) : Move → Option Process
  | .run move => process.moveRun setup move
  | .drift doomed index place signal => process.drift setup doomed (index :: place) signal
  | .drop doomed => process.drop doomed

/-- The process after moves made in turn, if they are possible. -/
def play (setup : Setup) : List Move → Process → Option Process
  | [], process => some process
  | next :: rest, process => (process.move setup next).bind (play setup rest)

end Process

end Workflow.Execution
