import Workflow.Execution.Process

/-!
# `Workflow.Execution.Schedule` — a schedule for processes

Of the moves that a process can make, a schedule picks one.  Under this one, activations are served in the order in
which they queued up: an activation whose turn it is does all that takes no time, and queues up again for what
it then waits for.  What is let go of keeps its place in the queue, and whoever waits in it has no reason to wait any
more.  Time passes only when nobody in the queue can be served, and then to the next moment at which something is due.
Once the run is settled, time stands still.

## Contents
- `Appointment` and `Queue`, who waits for a turn, and from when on it can be served.
- `appointments`, for which an activation queues up; `Queue.release`, the queue once jobs are let go of, and
  `Queue.afterTurn`, the queue after a turn.
- `Simulation`, a process with its queue, `Simulation.nextMove?`, the schedule, and `Simulation.advance`.
-/

namespace Workflow.Execution

/-! ## Queues -/

/-- What an activation can do from a moment on. -/
structure Appointment where
  /-- The doomed job from which on the place is told, if the activation is inside one. -/
  doomed? : Option Id
  place : Place
  signal : Signal
  due : Nat
  deriving DecidableEq, Repr

/-- Appointments in the order in which they were made. -/
abbrev Queue := List Appointment

/-- The move by which an appointment is kept.  All that is left to do with a doomed job itself is to drop it. -/
def Appointment.move (a : Appointment) : Process.Move :=
  match a.doomed?, a.place with
  | none, place => .run (.act place a.signal)
  | some doomed, [] => .drop doomed
  | some doomed, index :: place => .drift doomed index place a.signal

/-- Whether two appointments are for jobs of the same activation that have ended. -/
def Appointment.sharesTurn (a b : Appointment) : Bool :=
  match a.signal, b.signal with
  | .join _, .join _ => a.doomed? == b.doomed? && a.place == b.place
  | _, _ => false

/-- Adds an appointment at the end; but jobs of the same activation that have ended are taken in in one turn. -/
def Queue.add (queue : Queue) (a : Appointment) : Queue :=
  match queue with
  | [] => [a]
  | b :: rest =>
    if b.sharesTurn a && !rest.any (·.sharesTurn a) then b :: a :: rest else b :: Queue.add rest a

/-- When an activation can go on by itself, unless it waits for its jobs or has ended. -/
def PhaseOf.due? {α : Type} : PhaseOf α → Option Nat
  | .ready => some 0
  | .waiting _ _ due => some due
  | .invoking _ invocation =>
    some ((invocation.limit.map fun limit => min limit.2 invocation.due).getD invocation.due)
  | .pausing _ due => some due
  | .fanning .. | .ended _ => none

/-- For what the activation at a place queues up after its turn, given how many of its jobs had begun before it:
for going on, for the jobs that it began, or for being taken in by the activation around it. -/
def appointments (doomed? : Option Id) (place : Place) (begun : Nat) (activation : Activation) : List Appointment :=
  match activation.phase with
  | .ended _ => (place.getLast?.map fun index => ⟨doomed?, place.dropLast, .join index, 0⟩).toList
  | .fanning _ fanOut =>
    ((fanOut.running.map (·.1)).filter (begun ≤ ·)).map fun index => ⟨doomed?, place ++ [index], .proceed, 0⟩
  | phase => (phase.due?.map fun due => ⟨doomed?, place, .proceed, due⟩).toList

/-- How many jobs of an activation have begun. -/
def Activation.begunJobs (activation : Activation) : Nat :=
  match activation.phase with
  | .fanning _ fanOut => fanOut.begun
  | _ => 0

/-- The queue once the activation at a place lets go of its jobs, but for the one that it has taken in. -/
def Queue.release (queue : Queue) (clock : Nat) (doomed? : Option Id) (place : Place) (activation : Activation)
    (taken : Option Nat) : Queue :=
  let jobs := activation.running.filter fun job => some job.1 != taken
  let released := queue.filterMap fun a =>
    if a.doomed? == doomed? && place.isPrefixOf a.place then
      jobs.findSome? fun (index, job) =>
        if (place ++ [index]).isPrefixOf a.place then
          some { a with doomed? := some job.frame.id, place := a.place.drop (place.length + 1) }
        else none
    else some a
  let names := jobs.map (·.2.frame.id)
  let (standing, roused) := released.partition fun a => !a.doomed?.any names.contains || a.due ≤ clock
  -- The jobs are doomed first; then whoever waited inside them finds that the token has been cancelled.
  let idle := jobs.filter fun (_, job) =>
    job.ending?.isNone && !standing.any fun a => a.doomed? == some job.frame.id && a.place.isEmpty
  standing ++ idle.map (fun (_, job) => ⟨some job.frame.id, [], .proceed, 0⟩)
    ++ (roused.filter (!·.place.isEmpty)).map fun a => { a with due := 0 }

/-- The queue after the turn for an appointment. -/
def Queue.afterTurn (queue : Queue) (clock : Nat) (a : Appointment) (before after : Activation) : Queue :=
  let standing :=
    if after.token?.isSome then queue else queue.release clock a.doomed? a.place before a.signal.taken?
  -- What an activation can do at once still belongs to its turn.
  let (more, later) := (appointments a.doomed? a.place before.begunJobs after).partition fun b =>
    b.place == a.place && b.due ≤ clock
  more ++ later.foldl Queue.add standing

/-! ## Simulations -/

mutual
/-- How many invocations are under way. -/
def Activation.invocations : Activation → Nat
  | .node _ (.invoking ..) => 1
  | .node _ (.fanning _ ⟨_, _, _, running, _⟩) => invocationsOfJobs running
  | .node .. => 0
/-- How many invocations are under way in jobs. -/
def invocationsOfJobs : List (Nat × Activation) → Nat
  | [] => 0
  | (_, child) :: rest => Activation.invocations child + invocationsOfJobs rest
end

/-- A process under the schedule. -/
structure Simulation where
  process : Process
  queue : Queue
  /-- The greatest number of invocations under way at a time. -/
  peak : Nat

namespace Simulation

/-- A run that has just started, with its outermost activation in the queue. -/
def start (setup : Setup) : Simulation := ⟨.start setup, [⟨none, [], .proceed, 0⟩], 0⟩

/-- The least of several times. -/
def soonest : List Nat → Option Nat
  | [] => none
  | time :: rest => some (rest.foldl min time)

/-- The first appointment that can be kept. -/
def nextAppointment? (s : Simulation) : Option Appointment := s.queue.find? (·.due ≤ s.process.run.clock)

/-- The next move of a process whose run is asked to abort at the given time, if at all. -/
def nextMove? (setup : Setup) (abortAt : Option Nat) (s : Simulation) : Option Process.Move :=
  let run := s.process.run
  if run.settlement.isSome then s.nextAppointment?.map (·.move)
  else
    let abortAt := if run.abortRequested then none else abortAt
    -- Settling comes before acting, and a demand to abort before the deadline.
    if abortAt.any (· ≤ run.clock) then some (.run .abort)
    else if (run.overruled? setup).isSome then some (.run .overrule)
    else
      match s.nextAppointment? with
      | some a => some a.move
      | none =>
        -- Nothing is due: time passes until the first thing is.
        (soonest (s.queue.map (·.due) ++ ((Run.deadline? setup).map (·.2)).toList ++ abortAt.toList)).map
          fun time => .run (.wait time)

/-- The activation at the place of an appointment. -/
def at? (process : Process) (a : Appointment) : Option Activation :=
  match a.doomed? with
  | none => process.run.outermost.at? a.place
  | some doomed => (process.adrift.find? (·.frame.id == doomed)).bind (·.at? a.place)

/-- The queue of a simulation whose process makes a move and is then as given. -/
def queueAfter (s : Simulation) (move : Process.Move) (process : Process) : Queue :=
  match move with
  | .run .overrule => s.queue.release process.run.clock none [] s.process.run.outermost none
  | .run .abort | .run (.wait _) => s.queue
  | .run (.act ..) | .drift .. | .drop _ =>
    match s.nextAppointment? with
    | none => s.queue
    | some a =>
      let others : Queue := s.queue.eraseP (· == a)
      match at? s.process a, at? process a with
      | some before, some after => others.afterTurn process.run.clock a before after
      | some before, none => others.release process.run.clock a.doomed? a.place before none
      | none, _ => others

/-- The simulation after the next move, if there is one. -/
def next? (setup : Setup) (abortAt : Option Nat) (s : Simulation) : Option Simulation := do
  let move ← s.nextMove? setup abortAt
  let process ← s.process.move setup move
  return { process, queue := s.queueAfter move process, peak := max s.peak process.run.outermost.invocations }

/-- The simulation after at most the given number of moves.  A run need not end, so that there is no number
that is enough for all. -/
def advance (setup : Setup) (abortAt : Option Nat) : Nat → Simulation → Simulation
  | 0, s => s
  | moves + 1, s =>
    match s.next? setup abortAt with
    | none => s
    | some s => advance setup abortAt moves s

end Simulation

end Workflow.Execution
