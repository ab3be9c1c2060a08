import Workflow.Choice.Eval
import Workflow.Definition.Basic
import Workflow.Time.Duration

/-!
# `Workflow.Execution.Stages` — what states compute

What a state does with its data, apart from waiting for anything: each function takes the raw input and the
context object and yields a value or the fault with which the state fails.

Covers `transition`, `run_pass`, `fail_record`, `task_timeout`, `wait_delay` and `until`.

## Contents
- `Transition.follow`, where a state leads.
- `Succeed.output`, `Fail.fault`, `ChoiceState.exit`, `Pass.output`.
- `Wait.delay`, `Task.limit`, and `Delivery.apply`, what becomes of a result.
-/

namespace Workflow

open DataFlow (Outcome)

/-- The state that comes next, or none at the end of the graph. -/
def Transition.follow (transition : Transition) : Outcome (Option String) :=
  if transition.isEnd then .ok none
  else
    match transition.next with
    | some next => .ok (some next)
    | none => .error (.runtime .noTransition)

/-! ## States that take no time -/

/-- The output of a succeed state. -/
def Succeed.output (s : Succeed) (raw context : Json) : Outcome Json := do
  let effective ← DataFlow.input s.inputPath raw context
  DataFlow.output s.outputPath effective context

/-- A text given literally or by a path; a value that is no string is written as JSON. -/
def Fail.textOf (literal path : Option String) (field : String) (raw context : Json) : Outcome String :=
  match literal, path with
  | some literal, _ => .ok literal
  | none, some path =>
    (DataFlow.required field path raw context).map fun
      | .str text => text
      | other => other.render
  | none, none => .ok ""

/-- The fault of a fail state; if it cannot be told, the fault that says so. -/
def Fail.fault (s : Fail) (raw context : Json) : Fault :=
  let told : Outcome Fault := do
    let name ← Fail.textOf s.error s.errorPath "ErrorPath" raw context
    let message ← Fail.textOf s.cause s.causePath "CausePath" raw context
    return .new name (.text message)
  match told with
  | .ok fault => fault
  | .error fault => fault

/-- The state that a choice leads to, and what is passed on to it. -/
def ChoiceState.exit (s : ChoiceState) (raw context : Json) : Outcome (String × Json) := do
  let effective ← DataFlow.input s.inputPath raw context
  let next ← Choice.choose s.default effective context s.rules
  let output ← DataFlow.output s.outputPath effective context
  return (next, output)

/-- The output of a pass state. -/
def Pass.output (s : Pass) (raw context : Json) (chance : Chance) : Outcome Json := do
  let effective ← DataFlow.input s.inputPath raw context
  let result ←
    match s.result with
    | some result => pure result
    | none => DataFlow.parameters s.parameters ⟨effective, context, chance⟩
  let merged ← DataFlow.merge s.resultPath raw result
  DataFlow.output s.outputPath merged context

/-! ## Times -/

/-- The time from a number of milliseconds since 1970-01-01 to a timestamp, or zero if it has passed. -/
def Duration.until (target : Timestamp) (nowMillis : Nat) : Duration :=
  let nanos := target.seconds * Duration.nanosPerSecond + target.nanos
    - nowMillis * Duration.nanosPerMilli
  ⟨nanos.toNat⟩

/-- The time to a timestamp that is given as a value. -/
def Wait.delayUntil (field : String) (value : Json) (nowMillis : Nat) : Outcome Duration :=
  match Choice.timestamp? value with
  | some target => .ok (.until target nowMillis)
  | none => .error (.runtime (.notTimestamp field value))

/-- How long a wait state waits: the first delay given decides. -/
def Wait.delay (s : Wait) (effective context : Json) (nowMillis : Nat) : Outcome Duration :=
  match s.seconds, s.timestamp, s.secondsPath, s.timestampPath with
  | some seconds, _, _, _ => .ok (.ofSeconds seconds)
  | none, some given, _, _ => Wait.delayUntil "Timestamp" (.str given) nowMillis
  | none, none, some path, _ => do
    let value ← DataFlow.required "SecondsPath" path effective context
    match value.nat? with
    | some seconds => .ok (.ofSeconds seconds)
    | none => .error (.runtime (.notSeconds path value))
  | none, none, none, some path => do
    let value ← DataFlow.required "TimestampPath" path effective context
    Wait.delayUntil "TimestampPath" value nowMillis
  | none, none, none, none => .error (.runtime .noDelay)

/-- The seconds that an invocation may take, if they are limited. -/
def Task.limit (s : Task) (effective context : Json) : Outcome (Option Nat) :=
  match s.timeoutSeconds, s.timeoutSecondsPath with
  | some seconds, _ => .ok (some seconds)
  | none, none => .ok none
  | none, some path => do
    let value ← DataFlow.required "TimeoutSecondsPath" path effective context
    match value.nat? with
    | some (seconds + 1) => .ok (some (seconds + 1))
    | _ => .error (.runtime (.notTimeout path value))

/-! ## Results -/

/-- What is passed on after a result: it is rendered, put into the raw input, and selected from. -/
def Delivery.apply (d : Delivery) (raw context : Json) (chance : Chance) (result : Json) :
    Outcome Json := do
  let selected ← DataFlow.parameters d.selector ⟨result, context, chance⟩
  let merged ← DataFlow.merge d.resultPath raw selected
  DataFlow.output d.outputPath merged context

end Workflow
