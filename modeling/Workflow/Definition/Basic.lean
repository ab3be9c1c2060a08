import Workflow.Choice.Rule
import Workflow.Path.Setting

/-!
# `Workflow.Definition.Basic` — state machine definitions

A definition is a graph of named states.  A state does one thing with its data and names the state that comes
next; parallel and map states hold graphs of their own.

Covers `StateMachineDefinition`, `StateGraph`, `State` and the states, `Retrier`, `Catcher`, `JitterStrategy`,
`transition`, `retriers` and `catchers`.

## Contents
- `Retrier` and `Catcher`, what to do about a failure, and `Recovery`, the two lists of a state.
- One structure per kind of state, `State`, `Graph` and `Definition`.
- What the kinds have in common: `State.kind`, `State.transition?`, `State.delivery`, `State.recovery`.
-/

namespace Workflow

/-! ## Recovery -/

/-- How the delay before a retry is drawn. -/
inductive Jitter where
  /-- At random up to the computed delay. -/
  | full
  /-- Exactly the computed delay. -/
  | fixed
  deriving DecidableEq, Repr

/-- A rule for invoking a failed state again. -/
structure Retrier where
  /-- The names of the faults that the rule is for. -/
  errors : List String
  /-- Seconds before the first retry. -/
  intervalSeconds : Nat
  /-- The number of invocations that the rule allows. -/
  maxAttempts : Nat
  /-- The factor by which the delay grows. -/
  backoffRate : Float
  /-- The greatest delay. -/
  maxDelaySeconds : Option Nat
  jitter : Jitter

/-- A rule for going on elsewhere after a failure. -/
structure Catcher where
  errors : List String
  next : String
  /-- Where the fault is put into the raw input. -/
  resultPath : Path.Setting

/-- What a state does about failures. -/
structure Recovery where
  retriers : List Retrier
  catchers : List Catcher

/-- A state without rules for failures. -/
def Recovery.none : Recovery := ⟨[], []⟩

/-! ## States -/

/-- Where a state leads. -/
structure Transition where
  next : Option String
  isEnd : Bool
  deriving DecidableEq, Repr

/-- What becomes of a result: a template renders it, it is put into the raw input, and a path selects what is
passed on. -/
structure Delivery where
  selector : Option Json
  resultPath : Path.Setting
  outputPath : Path.Setting

/-- Invokes the handler of a resource. -/
structure Task where
  comment : Option String
  resource : String
  inputPath : Path.Setting
  outputPath : Path.Setting
  resultPath : Path.Setting
  parameters : Option Json
  resultSelector : Option Json
  recovery : Recovery
  timeoutSeconds : Option Nat
  timeoutSecondsPath : Option String
  /-- Kept, but handlers need not report. -/
  heartbeatSeconds : Option Nat
  heartbeatSecondsPath : Option String
  transition : Transition

/-- Lets time pass. -/
structure Wait where
  comment : Option String
  inputPath : Path.Setting
  outputPath : Path.Setting
  seconds : Option Nat
  timestamp : Option String
  secondsPath : Option String
  timestampPath : Option String
  transition : Transition

/-- Goes where the first rule that holds leads. -/
structure ChoiceState where
  comment : Option String
  inputPath : Path.Setting
  outputPath : Path.Setting
  rules : List Choice.Rule
  default : Option String

/-- Passes data on, or a fixed result. -/
structure Pass where
  comment : Option String
  inputPath : Path.Setting
  outputPath : Path.Setting
  resultPath : Path.Setting
  parameters : Option Json
  result : Option Json
  transition : Transition

/-- Ends the graph. -/
structure Succeed where
  comment : Option String
  inputPath : Path.Setting
  outputPath : Path.Setting

/-- Ends the graph with a fault. -/
structure Fail where
  comment : Option String
  error : Option String
  errorPath : Option String
  cause : Option String
  causePath : Option String

/-- Runs all branches on the same input; the branches themselves are held by `State.parallel`. -/
structure Parallel where
  comment : Option String
  inputPath : Path.Setting
  outputPath : Path.Setting
  resultPath : Path.Setting
  parameters : Option Json
  resultSelector : Option Json
  recovery : Recovery
  transition : Transition

/-- Runs a graph for every item of an array; the graph itself is held by `State.map`. -/
structure MapState where
  comment : Option String
  itemsPath : Option String
  /-- The template of an iteration's input. -/
  itemSelector : Option Json
  /-- The greatest number of iterations at a time; zero is no bound. -/
  maxConcurrency : Option Nat
  inputPath : Path.Setting
  outputPath : Path.Setting
  resultPath : Path.Setting
  resultSelector : Option Json
  recovery : Recovery
  transition : Transition

/-- Named states with one to start at. -/
structure GraphOf (σ : Type) where
  comment : Option String
  startAt : String
  states : List (String × σ)

/-- A state. -/
inductive State where
  | task (task : Task)
  | wait (wait : Wait)
  | choice (choice : ChoiceState)
  | pass (pass : Pass)
  | succeed (succeed : Succeed)
  | fail (fail : Fail)
  | parallel (parallel : Parallel) (branches : List (GraphOf State))
  | map (map : MapState) (processor : GraphOf State)

/-- A graph of states. -/
abbrev Graph := GraphOf State

/-- A complete definition. -/
structure Definition where
  graph : Graph
  /-- The greatest duration of a run. -/
  timeoutSeconds : Option Nat
  version : Option String

/-! ## What states have in common -/

/-- The state of a name. -/
def GraphOf.state? {σ : Type} (graph : GraphOf σ) (name : String) : Option σ :=
  Fields.find? graph.states name

namespace State

/-- The kinds of states. -/
inductive Kind where
  | task | wait | choice | pass | succeed | fail | parallel | map
  deriving DecidableEq, Repr

/-- The name of a kind. -/
def Kind.name : Kind → String
  | .task => "Task"
  | .wait => "Wait"
  | .choice => "Choice"
  | .pass => "Pass"
  | .succeed => "Succeed"
  | .fail => "Fail"
  | .parallel => "Parallel"
  | .map => "Map"

/-- Every kind. -/
def Kind.all : List Kind := [.task, .wait, .choice, .pass, .succeed, .fail, .parallel, .map]

/-- The kind of a state. -/
def kind : State → Kind
  | .task _ => .task
  | .wait _ => .wait
  | .choice _ => .choice
  | .pass _ => .pass
  | .succeed _ => .succeed
  | .fail _ => .fail
  | .parallel .. => .parallel
  | .map .. => .map

/-- Where a state leads, for the kinds that say so themselves. -/
def transition? : State → Option Transition
  | .task s => some s.transition
  | .wait s => some s.transition
  | .pass s => some s.transition
  | .parallel s _ => some s.transition
  | .map s _ => some s.transition
  | .choice _ | .succeed _ | .fail _ => none

/-- The stages that the result of an attempt passes through. -/
def delivery : State → Delivery
  | .task s => ⟨s.resultSelector, s.resultPath, s.outputPath⟩
  | .parallel s _ => ⟨s.resultSelector, s.resultPath, s.outputPath⟩
  | .map s _ => ⟨s.resultSelector, s.resultPath, s.outputPath⟩
  | _ => ⟨none, .whole, .whole⟩

/-- What a state does about failures. -/
def recovery : State → Recovery
  | .task s => s.recovery
  | .parallel s _ => s.recovery
  | .map s _ => s.recovery
  | _ => .none

end State

end Workflow
