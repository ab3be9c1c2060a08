import Workflow.Intrinsic.Parser
import Workflow.Path.Resolve
import Workflow.Time.Timestamp
import Workflow.Validation.Finding
import Workflow.Validation.Reachability

/-!
# `Workflow.Validation.Check` — checking definitions

A definition is checked without being run.  All problems are found, those of the outer graph and of every
graph inside it, in the order of the states.

Covers `validate`, `graph`, `state`, `target`, `retriers`, `catchers`, `error_equals`, `io_paths`, `result_path`, `path`,
`template`, `condition` and `is_arn`.

## Contents
- `Options`, which checks are made.
- `pathProblems`, `templateProblems`, `conditionProblems`, the checks of expressions.
- `stateProblems`, the checks of a state within its graph, and `check`, all findings in a definition.
-/

namespace Workflow.Validation

/-- Which checks are made. -/
structure Options where
  /-- Read every path and every expression. -/
  checkPaths : Bool
  /-- Demand that resources are named by ARNs. -/
  checkArn : Bool
  /-- Check nothing at all. -/
  skip : Bool
  deriving DecidableEq, Repr

/-- All checks. -/
def Options.all : Options := ⟨true, true, false⟩

/-- A problem if a condition holds. -/
def problemIf (condition : Bool) (problem : StateProblem) : List StateProblem :=
  if condition then [problem] else []

/-! ## Expressions -/

/-- The problems of a path text. -/
def pathProblems (field text : String) (writable : Bool) : List StateProblem :=
  match Path.check text writable with
  | .ok () => []
  | .error e => [.path field e]

/-- The problems of a path text that may be absent. -/
def optionalPathProblems (field : String) (text : Option String) : List StateProblem :=
  text.toList.flatMap (pathProblems field · false)

/-- The problems of a path setting. -/
def settingProblems (field : String) (setting : Path.Setting) (writable : Bool) :
    List StateProblem :=
  match setting with
  | .path text => pathProblems field text writable
  | _ => []

/-- The problems of an expression under a dynamic key. -/
def expressionProblems (field key : String) : Json → List StateProblem
  | .str text =>
    let place := field ++ " field '" ++ key ++ "'"
    if Intrinsic.isIntrinsic text then
      match Intrinsic.Call.parse text with
      | .ok call => call.paths.flatMap (pathProblems place · false)
      | .error e => [.intrinsic place e]
    else pathProblems place text false
  | _ => [.notText field key]

/-- The problems of a template that may be absent. -/
def templateProblems (field : String) (template : Option Json) : List StateProblem :=
  template.toList.flatMap fun template =>
    (Template.expressions template).flatMap fun e => expressionProblems field e.1 e.2

/-- The problems of a comparison. -/
def comparisonProblems (comparison : Choice.Comparison) : List StateProblem :=
  pathProblems "Variable" comparison.variable false
    ++ match comparison.operand with
      | .path text => pathProblems comparison.operator.pathKey text false
      | .literal _ => []

mutual
/-- The problems of a condition. -/
def conditionProblems : Choice.Condition → List StateProblem
  | .and conditions => conditionsProblems conditions
  | .or conditions => conditionsProblems conditions
  | .not condition => conditionProblems condition
  | .compare comparison => comparisonProblems comparison
/-- The problems of conditions. -/
def conditionsProblems : List Choice.Condition → List StateProblem
  | [] => []
  | condition :: rest => conditionProblems condition ++ conditionsProblems rest
end

/-! ## Rules for failures -/

/-- The problems of the lists of names in rules for failures: none is empty, and the name for all faults
stands alone in the last one. -/
def errorsProblems (field : String) (lists : List (List String)) : List StateProblem :=
  (lists.mapIdx fun index names =>
    problemIf names.isEmpty (.noErrors field index)
      ++ problemIf (names.contains Fault.Name.all && (1 < names.length || index + 1 != lists.length))
        (.allNotAlone field index)).flatten

/-- The problems of the numbers of a retrier. -/
def retrierProblems (index : Nat) (r : Retrier) : List StateProblem :=
  problemIf (r.intervalSeconds == 0) (.retrierTooSmall index "IntervalSeconds" "1")
    ++ problemIf (!(1.0 ≤ r.backoffRate)) (.retrierTooSmall index "BackoffRate" "1.0")
    ++ problemIf (r.maxDelaySeconds == some 0) (.retrierTooSmall index "MaxDelaySeconds" "1")

/-- The problems of the rules for failures. -/
def recoveryProblems (options : Options) (recovery : Recovery) : List StateProblem :=
  errorsProblems "Retry" (recovery.retriers.map (·.errors))
    ++ (recovery.retriers.mapIdx retrierProblems).flatten
    ++ errorsProblems "Catch" (recovery.catchers.map (·.errors))
    ++ if options.checkPaths then
        (recovery.catchers.mapIdx fun index c =>
          settingProblems ("Catch[" ++ toString index ++ "] ResultPath") c.resultPath true).flatten
      else []

/-! ## States -/

/-- The problem of a target, unless it is defined. -/
def targetProblems (defined : String → Bool) (field target : String) (leavesGraph : Bool) :
    List StateProblem :=
  problemIf (!defined target) (.undefinedTarget field target leavesGraph)

/-- The problems of a transition. -/
def transitionProblems (defined : String → Bool) (transition : Transition) : List StateProblem :=
  problemIf (transition.next.isSome && transition.isEnd) (.exclusive "Next" "End")
    ++ problemIf (transition.next.isNone && !transition.isEnd) .noTransition
    ++ transition.next.toList.flatMap (targetProblems defined "Next" · false)

/-- Whether a resource is named by an ARN: it has at least six parts. -/
def isArn (resource : String) : Bool :=
  ['a', 'r', 'n', ':'].isPrefixOf resource.toList && 5 ≤ resource.toList.count ':'

/-- The problems of the input and output paths. -/
def ioProblems (inputPath outputPath : Path.Setting) : List StateProblem :=
  settingProblems "InputPath" inputPath false ++ settingProblems "OutputPath" outputPath false

/-- The problems of the expressions of a state. -/
def expressionsProblems : State → List StateProblem
  | .task s =>
    ioProblems s.inputPath s.outputPath ++ settingProblems "ResultPath" s.resultPath true
      ++ templateProblems "Parameters" s.parameters
      ++ templateProblems "ResultSelector" s.resultSelector
      ++ optionalPathProblems "TimeoutSecondsPath" s.timeoutSecondsPath
      ++ optionalPathProblems "HeartbeatSecondsPath" s.heartbeatSecondsPath
  | .wait s =>
    ioProblems s.inputPath s.outputPath ++ optionalPathProblems "SecondsPath" s.secondsPath
      ++ optionalPathProblems "TimestampPath" s.timestampPath
  | .choice s => ioProblems s.inputPath s.outputPath
  | .pass s =>
    ioProblems s.inputPath s.outputPath ++ settingProblems "ResultPath" s.resultPath true
      ++ templateProblems "Parameters" s.parameters
  | .succeed s => ioProblems s.inputPath s.outputPath
  | .fail s =>
    optionalPathProblems "ErrorPath" s.errorPath ++ optionalPathProblems "CausePath" s.causePath
  | .parallel s _ =>
    ioProblems s.inputPath s.outputPath ++ settingProblems "ResultPath" s.resultPath true
      ++ templateProblems "Parameters" s.parameters
      ++ templateProblems "ResultSelector" s.resultSelector
  | .map s _ =>
    ioProblems s.inputPath s.outputPath ++ settingProblems "ResultPath" s.resultPath true
      ++ templateProblems "ItemSelector" s.itemSelector
      ++ templateProblems "ResultSelector" s.resultSelector
      ++ optionalPathProblems "ItemsPath" s.itemsPath

/-- The problems of the other settings of a task. -/
def taskProblems (options : Options) (s : Task) : List StateProblem :=
  problemIf (s.timeoutSeconds.isSome && s.timeoutSecondsPath.isSome)
      (.exclusive "TimeoutSeconds" "TimeoutSecondsPath")
    ++ problemIf (s.timeoutSeconds == some 0) (.notPositive "TimeoutSeconds")
    ++ problemIf (s.heartbeatSeconds.isSome && s.heartbeatSecondsPath.isSome)
      (.exclusive "HeartbeatSeconds" "HeartbeatSecondsPath")
    ++ (match s.heartbeatSeconds, s.timeoutSeconds with
      | some heartbeat, some timeout => problemIf (timeout ≤ heartbeat) .heartbeatTooLong
      | _, _ => [])
    ++ problemIf (options.checkArn && !isArn s.resource) (.notArn s.resource)

/-- The number of delays that a wait state gives. -/
def delayCount (s : Wait) : Nat :=
  s.seconds.isSome.toNat + s.timestamp.isSome.toNat + s.secondsPath.isSome.toNat
    + s.timestampPath.isSome.toNat

/-- The problems of the other settings of a wait state. -/
def waitProblems (s : Wait) : List StateProblem :=
  problemIf (delayCount s != 1) .delayCount
    ++ s.timestamp.toList.flatMap fun given =>
      problemIf (Timestamp.parse? given).isNone (.notTimestamp given)

/-- The problems of the rules of a choice state. -/
def choiceProblems (options : Options) (defined : String → Bool) (s : ChoiceState) :
    List StateProblem :=
  problemIf s.rules.isEmpty .noRules
    ++ (s.rules.mapIdx fun index rule =>
      (match rule.next with
        | some next => targetProblems defined "Choice Next" next false
        | none => [.ruleWithoutNext index])
      ++ if options.checkPaths then conditionProblems rule.condition else []).flatten
    ++ s.default.toList.flatMap (targetProblems defined "Default" · false)

/-- The problems of the other settings of a fail state. -/
def failProblems (s : Fail) : List StateProblem :=
  problemIf (s.error.isSome && s.errorPath.isSome) (.exclusive "Error" "ErrorPath")
    ++ problemIf (s.cause.isSome && s.causePath.isSome) (.exclusive "Cause" "CausePath")

/-- The problems of a state in a graph that defines certain names, apart from those of the graphs inside it. -/
def stateProblems (options : Options) (nested : Bool) (defined : String → Bool) (state : State) :
    List StateProblem :=
  state.transition?.toList.flatMap (transitionProblems defined)
    ++ state.recovery.catchers.flatMap (fun c => targetProblems defined "Catch Next" c.next nested)
    ++ recoveryProblems options state.recovery
    ++ (match state with
      | .task s => taskProblems options s
      | .wait s => waitProblems s
      | .choice s => choiceProblems options defined s
      | .fail s => failProblems s
      | .parallel _ branches => problemIf branches.isEmpty .noBranches
      | .pass _ | .succeed _ | .map .. => [])
    ++ if options.checkPaths then expressionsProblems state else []

/-! ## Graphs -/

/-- The problems of a graph as a whole that come before those of its states. -/
def startProblems (graph : Graph) : List GraphProblem :=
  if (graph.state? graph.startAt).isSome then [] else [.undefinedStart graph.startAt]

/-- The states that cannot be reached, provided that the start is defined. -/
def unreachableProblems (graph : Graph) : List GraphProblem :=
  if (graph.state? graph.startAt).isSome then
    let reached := reachable graph
    (graph.states.filter fun s => !reached.contains s.1).map fun s => .unreachable s.1
  else []

mutual
/-- The findings in a graph and in the graphs inside it. -/
def checkGraph (options : Options) (scope : Scope) : GraphOf State → List Finding
  | ⟨comment, startAt, states⟩ =>
    let graph : Graph := ⟨comment, startAt, states⟩
    if states.isEmpty then [.graph scope .noStates]
    else
      (startProblems graph).map (.graph scope)
        ++ checkStates options scope (fun name => (graph.state? name).isSome) states
        ++ (unreachableProblems graph).map (.graph scope)
/-- The findings in states of a graph that defines certain names. -/
def checkStates (options : Options) (scope : Scope) (defined : String → Bool) :
    List (String × State) → List Finding
  | [] => []
  | (name, state) :: rest =>
    (stateProblems options (!scope.isEmpty) defined state).map (.state scope name)
      ++ checkInside options scope name state
      ++ checkStates options scope defined rest
/-- The findings in the graphs inside a state. -/
def checkInside (options : Options) (scope : Scope) (name : String) : State → List Finding
  | .parallel _ branches => checkBranches options scope name 0 branches
  | .map _ processor => checkGraph options (scope ++ [.processor name]) processor
  | _ => []
/-- The findings in branches, the first of which has the given index. -/
def checkBranches (options : Options) (scope : Scope) (name : String) (index : Nat) :
    List (GraphOf State) → List Finding
  | [] => []
  | branch :: rest =>
    checkGraph options (scope ++ [.branch name index]) branch
      ++ checkBranches options scope name (index + 1) rest
end

/-- All findings in a definition. -/
def check (options : Options) (definition : Definition) : List Finding :=
  if options.skip then []
  else
    (if definition.timeoutSeconds = some 0 then [.zeroTimeout] else [])
      ++ checkGraph options [] definition.graph

end Workflow.Validation
