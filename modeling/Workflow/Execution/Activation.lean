import Workflow.Event
import Workflow.Execution.FanOut
import Workflow.Execution.Handler
import Workflow.Retry.Resolve

/-!
# `Workflow.Execution.Activation` — graphs being run

To run a graph is to hold an activation of it, which is at one state at a time.  A state that has several
graphs run holds their activations, so that the activations of a run are a tree.  To give up a state is to
drop what it holds.

Covers `StateError`, `publish`, and the local state of `run_graph` and of what it awaits.

## Contents
- `Ending`, how an activation ends.
- `Frame`, where an activation is, with `Id`, its name for good.
- `PhaseOf`, what an activation waits for, and `Activation` itself.
- `Activation.at?`, the activation at a place of the tree.
- `Note` and `Entry`, with `eventsIn` and `callsIn`.
-/

namespace Workflow.Execution

/-- How an activation ends. -/
inductive Ending where
  | output (value : Json)
  | fault (fault : Fault)
  /-- Given up because the run is to be aborted. -/
  | cancelled

/-! ## Frames -/

/-- What an activation was begun for: the number of states that its parent had entered, the number of retries
of the state, and the index of the job. -/
structure Origin where
  entered : Nat
  retries : Nat
  index : Nat
  deriving DecidableEq, Repr

/-- The origins of an activation and of those around it, outermost first.  No two activations of a run have
the same. -/
abbrev Id := List Origin

/-- Where an activation is. -/
structure Frame where
  id : Id
  graph : Graph
  context : Json
  /-- The name of the state it is at. -/
  state : String
  /-- The raw input of the state. -/
  raw : Json
  /-- How many states it has entered. -/
  entered : Nat
  chance : Chance

/-! ## Phases -/

/-- One go at a state that can be retried. -/
structure Attempt where
  state : State
  counters : Retry.Counters

/-- An invocation of a handler. -/
structure Invocation where
  reply : Reply
  /-- When the reply is there. -/
  due : Nat
  /-- The seconds that the invocation may take, and when they are over. -/
  limit : Option (Nat × Nat)

/-- What an activation is about to do or waits for; times are milliseconds since the start of the run. -/
inductive PhaseOf (α : Type) where
  /-- In front of its state. -/
  | ready
  /-- In a wait state, with the effective input. -/
  | waiting (wait : Wait) (effective : Json) (due : Nat)
  | invoking (attempt : Attempt) (invocation : Invocation)
  /-- In the delay before a retry. -/
  | pausing (attempt : Attempt) (due : Nat)
  | fanning (attempt : Attempt) (fanOut : FanOut α)
  | ended (ending : Ending)

/-- A graph being run. -/
inductive Activation where
  | node (frame : Frame) (phase : PhaseOf Activation)

/-- The phase of an activation. -/
abbrev Phase := PhaseOf Activation

namespace Activation

def frame : Activation → Frame
  | .node frame _ => frame

def phase : Activation → Phase
  | .node _ phase => phase

/-- An activation in front of the first state of its graph. -/
def begin (id : Id) (graph : Graph) (context input : Json) (chance : Chance) : Activation :=
  .node ⟨id, graph, context, graph.startAt, input, 0, chance⟩ .ready

/-- How an activation ended, if it has. -/
def ending? (activation : Activation) : Option Ending :=
  match activation.phase with
  | .ended ending => some ending
  | _ => none

/-- The activation once it is given up, so that what it held is dropped. -/
def givenUp : Activation → Activation
  | .node frame _ => .node frame (.ended .cancelled)

/-! ## Places -/

/-- The job under way at an index. -/
def child? (activation : Activation) (index : Nat) : Option Activation :=
  match activation.phase with
  | .fanning _ fanOut => fanOut.child? index
  | _ => none

end Activation

/-- The indices of the jobs that lead to an activation, outermost first. -/
abbrev Place := List Nat

/-- The activation at a place. -/
def Activation.at? : Place → Activation → Option Activation
  | [], activation => some activation
  | index :: place, activation => (activation.child? index).bind (Activation.at? place)

/-! ## Notes -/

/-- What is noted down about a run. -/
inductive Note where
  | event (event : Event)
  /-- A handler was invoked. -/
  | call (key : String) (input : Json)

/-- A note with the activation that made it. -/
structure Entry where
  activation : Id
  note : Note

/-- The events in a log of which the last entry comes first, in the order in which they happened. -/
def eventsIn (log : List Entry) : List Event :=
  log.reverse.filterMap fun
    | ⟨_, .event event⟩ => some event
    | ⟨_, .call ..⟩ => none

/-- The invocations in such a log, in the order in which they were made. -/
def callsIn (log : List Entry) : List (String × Json) :=
  log.reverse.filterMap fun
    | ⟨_, .call key input⟩ => some (key, input)
    | ⟨_, .event _⟩ => none

end Workflow.Execution
