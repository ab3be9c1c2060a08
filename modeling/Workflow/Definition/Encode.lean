import Workflow.Definition.Basic

/-!
# `Workflow.Definition.Encode` — writing definitions

A definition is written as a JSON object.  Absent settings, empty lists of rules and a false end are left out;
a retrier is written with all its numbers.

## Contents
- The entries of the parts, and `State.toJson`, `Graph.toJson`, `Definition.toJson`.
-/

namespace Workflow

/-! ## Parts -/

/-- An entry that may be absent. -/
def optionalEntry {α : Type} (key : String) (write : α → Json) (value : Option α) :
    List (String × Json) :=
  (value.map fun v => (key, write v)).toList

/-- An entry with a text. -/
def textEntry (key : String) : Option String → List (String × Json) := optionalEntry key .str

/-- An entry with a number. -/
def natEntry (key : String) : Option Nat → List (String × Json) :=
  optionalEntry key fun n => .int n

/-- An entry with any value. -/
def anyEntry (key : String) : Option Json → List (String × Json) := optionalEntry key id

/-- An entry with a path setting. -/
def pathEntry (key : String) : Path.Setting → List (String × Json)
  | .whole => []
  | .nothing => [(key, .null)]
  | .path text => [(key, .str text)]

/-- An entry with a list, unless it is empty. -/
def listEntry {α : Type} (key : String) (write : α → Json) : List α → List (String × Json)
  | [] => []
  | items => [(key, .arr (items.map write))]

/-- The name of a jitter. -/
def Jitter.name : Jitter → String
  | .full => "FULL"
  | .fixed => "NONE"

/-- The value of a rate; null stands for one that is not finite. -/
def rateToJson (rate : Float) : Json := if rate.isFinite then .float rate else .null

/-- The object of a retrier. -/
def Retrier.toJson (r : Retrier) : Json :=
  .object ([("ErrorEquals", .arr (r.errors.map .str)), ("IntervalSeconds", .int r.intervalSeconds),
    ("MaxAttempts", .int r.maxAttempts), ("BackoffRate", rateToJson r.backoffRate)]
    ++ natEntry "MaxDelaySeconds" r.maxDelaySeconds ++ [("JitterStrategy", .str r.jitter.name)])

/-- The object of a catcher. -/
def Catcher.toJson (c : Catcher) : Json :=
  .object ([("ErrorEquals", .arr (c.errors.map .str)), ("Next", .str c.next)]
    ++ pathEntry "ResultPath" c.resultPath)

/-- The entries of the rules for failures. -/
def Recovery.entries (r : Recovery) : List (String × Json) :=
  listEntry "Retry" Retrier.toJson r.retriers ++ listEntry "Catch" Catcher.toJson r.catchers

/-- The entries of a transition. -/
def Transition.entries (t : Transition) : List (String × Json) :=
  textEntry "Next" t.next ++ if t.isEnd then [("End", .bool true)] else []

/-! ## States -/

/-- The entries of a task. -/
def Task.entries (s : Task) : List (String × Json) :=
  textEntry "Comment" s.comment ++ [("Resource", .str s.resource)]
    ++ pathEntry "InputPath" s.inputPath ++ pathEntry "OutputPath" s.outputPath
    ++ pathEntry "ResultPath" s.resultPath ++ anyEntry "Parameters" s.parameters
    ++ anyEntry "ResultSelector" s.resultSelector ++ s.recovery.entries
    ++ natEntry "TimeoutSeconds" s.timeoutSeconds
    ++ textEntry "TimeoutSecondsPath" s.timeoutSecondsPath
    ++ natEntry "HeartbeatSeconds" s.heartbeatSeconds
    ++ textEntry "HeartbeatSecondsPath" s.heartbeatSecondsPath ++ s.transition.entries

/-- The entries of a wait state. -/
def Wait.entries (s : Wait) : List (String × Json) :=
  textEntry "Comment" s.comment ++ pathEntry "InputPath" s.inputPath
    ++ pathEntry "OutputPath" s.outputPath ++ natEntry "Seconds" s.seconds
    ++ textEntry "Timestamp" s.timestamp ++ textEntry "SecondsPath" s.secondsPath
    ++ textEntry "TimestampPath" s.timestampPath ++ s.transition.entries

/-- The entries of a choice state. -/
def ChoiceState.entries (s : ChoiceState) : List (String × Json) :=
  textEntry "Comment" s.comment ++ pathEntry "InputPath" s.inputPath
    ++ pathEntry "OutputPath" s.outputPath
    ++ [("Choices", .arr (s.rules.map Choice.Rule.toJson))] ++ textEntry "Default" s.default

/-- The entries of a pass state. -/
def Pass.entries (s : Pass) : List (String × Json) :=
  textEntry "Comment" s.comment ++ pathEntry "InputPath" s.inputPath
    ++ pathEntry "OutputPath" s.outputPath ++ pathEntry "ResultPath" s.resultPath
    ++ anyEntry "Parameters" s.parameters ++ anyEntry "Result" s.result ++ s.transition.entries

/-- The entries of a succeed state. -/
def Succeed.entries (s : Succeed) : List (String × Json) :=
  textEntry "Comment" s.comment ++ pathEntry "InputPath" s.inputPath
    ++ pathEntry "OutputPath" s.outputPath

/-- The entries of a fail state. -/
def Fail.entries (s : Fail) : List (String × Json) :=
  textEntry "Comment" s.comment ++ textEntry "Error" s.error ++ textEntry "ErrorPath" s.errorPath
    ++ textEntry "Cause" s.cause ++ textEntry "CausePath" s.causePath

/-- The entries of a parallel state besides its branches. -/
def Parallel.entries (s : Parallel) : List (String × Json) :=
  textEntry "Comment" s.comment ++ pathEntry "InputPath" s.inputPath
    ++ pathEntry "OutputPath" s.outputPath ++ pathEntry "ResultPath" s.resultPath
    ++ anyEntry "Parameters" s.parameters ++ anyEntry "ResultSelector" s.resultSelector
    ++ s.recovery.entries ++ s.transition.entries

/-- The entries of a map state besides its graph. -/
def MapState.entries (s : MapState) : List (String × Json) :=
  textEntry "Comment" s.comment ++ textEntry "ItemsPath" s.itemsPath
    ++ anyEntry "ItemSelector" s.itemSelector ++ natEntry "MaxConcurrency" s.maxConcurrency
    ++ pathEntry "InputPath" s.inputPath ++ pathEntry "OutputPath" s.outputPath
    ++ pathEntry "ResultPath" s.resultPath ++ anyEntry "ResultSelector" s.resultSelector
    ++ s.recovery.entries ++ s.transition.entries

/-- The entries of a graph, given the objects of its states. -/
def graphEntries (comment : Option String) (startAt : String) (states : List (String × Json)) :
    List (String × Json) :=
  textEntry "Comment" comment ++ [("StartAt", .str startAt), ("States", .obj states)]

mutual
/-- The entries of a state besides its kind. -/
def State.entries : State → List (String × Json)
  | .task s => s.entries
  | .wait s => s.entries
  | .choice s => s.entries
  | .pass s => s.entries
  | .succeed s => s.entries
  | .fail s => s.entries
  | .parallel s branches => ("Branches", .arr (graphObjects branches)) :: s.entries
  | .map s processor => ("ItemProcessor", graphObject processor) :: s.entries
/-- The object of a graph. -/
def graphObject : GraphOf State → Json
  | ⟨comment, startAt, states⟩ => .object (graphEntries comment startAt (stateObjects states))
/-- The objects of graphs. -/
def graphObjects : List (GraphOf State) → List Json
  | [] => []
  | graph :: rest => graphObject graph :: graphObjects rest
/-- The objects of named states, under their names. -/
def stateObjects : List (String × State) → List (String × Json)
  | [] => []
  | (name, state) :: rest =>
    (name, .object (("Type", .str state.kind.name) :: State.entries state)) :: stateObjects rest
end

/-- The object of a state. -/
def State.toJson (state : State) : Json :=
  .object (("Type", .str state.kind.name) :: state.entries)

/-- The object of a graph. -/
def Graph.toJson (graph : Graph) : Json := graphObject graph

/-- The object of a definition. -/
def Definition.toJson (d : Definition) : Json :=
  .object (graphEntries d.graph.comment d.graph.startAt (stateObjects d.graph.states)
    ++ natEntry "TimeoutSeconds" d.timeoutSeconds ++ textEntry "Version" d.version)

end Workflow
