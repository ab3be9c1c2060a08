import Workflow.DataFlow

/-!
# `Workflow.Execution.Handler` — task handlers

A handler does the work of a task.  Here a handler is known by its replies: what it answers to an input, and
after how long, given the inputs that it got before.  Whatever a handler does outside the run, in the run it
shows as such replies.  A handler may break off instead of answering, and may ask the run to which it answers to
abort.

Covers `TaskError`, `TaskHandler` and `invoke`.

## Contents
- `TaskError`, `Answer`, `Reply` and `Handler`.
- `Stub`, a handler that follows a script, with `Stub.handler`.
-/

namespace Workflow.Execution

/-! ## Handlers -/

/-- How a task fails. -/
structure TaskError where
  name : String
  message : String
  deriving DecidableEq, Repr

/-- What comes of an invocation. -/
inductive Answer where
  | returned (value : Json)
  | failed (error : TaskError)
  /-- The handler breaks off with a message. -/
  | raised (message : String)

namespace Answer

def ofResult : Except TaskError Json → Answer
  | .ok value => .returned value
  | .error error => .failed error

/-- What an answer means for the state of the task. -/
def outcome : Answer → DataFlow.Outcome Json
  | .returned value => .ok value
  | .failed error => .error (.ofTask error.name error.message)
  | .raised message => .error (.trapped (.raised message))

end Answer

/-- The answer to an invocation. -/
structure Reply where
  /-- The milliseconds that the answer takes. -/
  delayMillis : Nat
  answer : Answer
  /-- Whether the handler asks its run to abort while it answers. -/
  abortsRun : Bool

/-- A handler replies to an input, given its earlier inputs, of which the last comes first. -/
structure Handler where
  reply : (earlier : List Json) → (input : Json) → Reply

/-! ## Stubs -/

/-- What a stub does with an input. -/
inductive Stub.Act where
  /-- Returns the input. -/
  | echo
  | give (value : Json)
  /-- Renders a template from the input. -/
  | render (template : Json)
  | fail (error : TaskError)

/-- One reply of a stub. -/
structure Stub.Step where
  delayMillis : Nat
  act : Stub.Act

/-- A handler that follows a script: the steps of the case for an input, or else the common steps.  Each list
is followed from reply to reply, and its last step is repeated. -/
structure Stub where
  cases : List (Json × List Stub.Step)
  steps : List Stub.Step

namespace Stub

/-- The name of the error that a template raises. -/
def templateErrorName : String := "Template"

/-- What an act makes of an input. -/
def Act.result (input : Json) : Act → Except TaskError Json
  | .echo => .ok input
  | .give value => .ok value
  | .render template =>
    (Template.render ⟨input, .empty, default⟩ template).mapError fun e =>
      ⟨templateErrorName, e.message⟩
  | .fail error => .error error

/-- The position of the case for an input, if there is one. -/
def case? (stub : Stub) (input : Json) : Option Nat := stub.cases.findIdx? (·.1 == input)

/-- The steps for an input. -/
def stepsFor (stub : Stub) (input : Json) : List Step :=
  (((stub.case? input).bind (stub.cases[·]?)).map (·.2)).getD stub.steps

/-- The step after the given number of replies. -/
def stepAfter (replies : Nat) (steps : List Step) : Step :=
  (steps[min replies (steps.length - 1)]?).getD ⟨0, .echo⟩

/-- The handler that follows a script. -/
def handler (stub : Stub) : Handler where
  reply earlier input :=
    let case := stub.case? input
    let replies := earlier.countP fun before => stub.case? before == case
    let step := stepAfter replies (stub.stepsFor input)
    ⟨step.delayMillis, .ofResult (step.act.result input), false⟩

end Stub

end Workflow.Execution
