import Workflow.Definition.Basic
import Workflow.Intrinsic.Basic
import Workflow.Fault

/-!
# `Workflow.Validation.Finding` — what is wrong with a definition

A finding names a place in a definition, a graph or a state of a graph, and the problem there.

Covers `ValidationReport` and `ValidationError`.

## Contents
- `Scope`, the graph in which a place is.
- `GraphProblem`, `StateProblem` and `Finding`, with `Finding.message`.
-/

namespace Workflow.Validation

/-! ## Places -/

/-- A step from a graph to one inside it. -/
inductive Descent where
  | branch (state : String) (index : Nat)
  | processor (state : String)
  deriving DecidableEq, Repr

/-- The steps from the outermost graph to a graph. -/
abbrev Scope := List Descent

/-- A state of the graph in front of which the text stands. -/
def stateText (name : String) : String := "state '" ++ name ++ "'"

/-- The wording of a step. -/
def Descent.message : Descent → String
  | .branch state index => stateText state ++ " branch " ++ toString index ++ " > "
  | .processor state => stateText state ++ " item processor > "

/-- The wording of a scope. -/
def Scope.message (scope : Scope) : String := String.join (scope.map Descent.message)

/-! ## Problems -/

/-- A problem of a graph as a whole. -/
inductive GraphProblem where
  | noStates
  | undefinedStart (name : String)
  | unreachable (name : String)
  deriving DecidableEq, Repr

/-- A problem of a state. -/
inductive StateProblem where
  | exclusive (first second : String)
  | noTransition
  | undefinedTarget (field target : String) (leavesGraph : Bool)
  | notPositive (field : String)
  | heartbeatTooLong
  | notArn (resource : String)
  | delayCount
  | notTimestamp (text : String)
  | noRules
  | ruleWithoutNext (index : Nat)
  | noBranches
  | noErrors (field : String) (index : Nat)
  | allNotAlone (field : String) (index : Nat)
  | retrierTooSmall (index : Nat) (field least : String)
  | path (field : String) (error : Path.Error)
  | intrinsic (field : String) (error : Intrinsic.Error)
  | notText (field key : String)

/-- A problem at a place. -/
inductive Finding where
  | zeroTimeout
  | graph (scope : Scope) (problem : GraphProblem)
  | state (scope : Scope) (name : String) (problem : StateProblem)

/-! ## Wording -/

/-- The wording of a problem of a graph. -/
def GraphProblem.message : GraphProblem → String
  | .noStates => "States must not be empty"
  | .undefinedStart name => "StartAt '" ++ name ++ "' does not name a defined state"
  | .unreachable name => stateText name ++ " is not reachable from StartAt"

/-- The wording of a problem of a state. -/
def StateProblem.message : StateProblem → String
  | .exclusive first second => "'" ++ first ++ "' and '" ++ second ++ "' are mutually exclusive"
  | .noTransition => "must have either 'Next' or 'End: true'"
  | .undefinedTarget field target leavesGraph =>
    field ++ " '" ++ target ++ "' does not name a state in the same graph"
      ++ if leavesGraph then " (transitions cannot leave a Parallel branch or Map item processor)"
        else ""
  | .notPositive field => "'" ++ field ++ "' must be greater than 0"
  | .heartbeatTooLong => "'HeartbeatSeconds' must be smaller than 'TimeoutSeconds'"
  | .notArn resource => "Resource '" ++ resource ++ "' is not a valid ARN"
  | .delayCount =>
    "exactly one of 'Seconds', 'Timestamp', 'SecondsPath' or 'TimestampPath' is required"
  | .notTimestamp given => "Timestamp '" ++ given ++ "' is not an RFC 3339 timestamp"
  | .noRules => "'Choices' must not be empty"
  | .ruleWithoutNext index => "choice rule " ++ toString index ++ " is missing 'Next'"
  | .noBranches => "'Branches' must not be empty"
  | .noErrors field index => field ++ "[" ++ toString index ++ "] 'ErrorEquals' must not be empty"
  | .allNotAlone field index =>
    field ++ "[" ++ toString index ++ "] '" ++ Fault.Name.all
      ++ "' must appear alone in the last rule"
  | .retrierTooSmall index field least =>
    "Retry[" ++ toString index ++ "] '" ++ field ++ "' must be at least " ++ least
  | .path field error => field ++ ": " ++ error.message
  | .intrinsic field error => field ++ ": " ++ error.message
  | .notText field key => field ++ " field '" ++ key ++ "' must hold a string expression"

/-- The wording of a finding. -/
def Finding.message : Finding → String
  | .zeroTimeout => "TimeoutSeconds must be greater than 0"
  | .graph scope problem => scope.message ++ problem.message
  | .state scope name problem => scope.message ++ stateText name ++ ": " ++ problem.message

/-- The wording of all findings together. -/
def summary (findings : List Finding) : String :=
  "state machine definition is invalid: " ++ "; ".intercalate (findings.map Finding.message)

end Workflow.Validation
