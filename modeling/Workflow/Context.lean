import Workflow.Chance
import Workflow.Time.Timestamp
import Workflow.Json.Basic

/-!
# `Workflow.Context` — the context object

Every run has a context object, a document that expressions can read.  It tells of the run, the state that
is being run, and the item of the innermost map.  Branches and iterations work on copies of their own.

Covers `ExecutionContext`, `enter_state`, `set_retry_count`, `issue_task_token`, `for_map_item` and `merge_sections`.

## Contents
- `Context.start`, the object of a new run, with what a caller adds to it.
- `Context.enter`, `Context.setRetryCount`, `Context.issueToken`, `Context.forItem`, its changes.
-/

namespace Workflow.Context

/-- The account in the names of local resources. -/
def account : String := "000000000000"

/-- The sections of a context object; a document that is no object has none. -/
def sections : Json → Fields Json
  | .obj fields => fields
  | _ => []

/-- Puts a section into the object. -/
def setSection (context : Json) (key : String) (value : Json) : Json :=
  .obj (Fields.set (sections context) key value)

/-- Adds a section of a caller: fields are added to a section that is an object, anything else replaces
what is there. -/
def addSection (fields : Fields Json) (key : String) (value : Json) : Fields Json :=
  match Fields.find? fields key, value with
  | some (.obj present), .obj added =>
    Fields.set fields key (.obj (added.foldl (fun fs e => Fields.set fs e.1 e.2) present))
  | _, _ => Fields.set fields key value

/-- The object of a new run of a named machine. -/
def start (runId machine startTime : String) (input : Json) (seed : Option Json) : Json :=
  let arn (kind rest : String) := "arn:aws:states:local:" ++ account ++ ":" ++ kind ++ ":" ++ rest
  let generated := Fields.ofList [
    ("Execution", .object [
      ("Id", .str (arn "execution" (machine ++ ":" ++ runId))),
      ("Input", input),
      ("Name", .str runId),
      ("RoleArn", .str ("arn:aws:iam::" ++ account ++ ":role/aslrun")),
      ("StartTime", .str startTime),
      ("RedriveCount", .int 0)]),
    ("State", .empty),
    ("StateMachine", .object [
      ("Id", .str (arn "stateMachine" machine)),
      ("Name", .str machine)])]
  match seed with
  | some (.obj added) => .obj (added.foldl (fun fs e => addSection fs e.1 e.2) generated)
  | _ => .obj generated

/-- Enters a state: its name, the time, and no retries; the task of the state before is forgotten. -/
def enter (context : Json) (name time : String) : Json :=
  let state := Json.object
    [("EnteredTime", .str time), ("Name", .str name), ("RetryCount", .int 0)]
  .obj (Fields.erase (Fields.set (sections context) "State" state) "Task")

/-- Sets the number of retries of the state. -/
def setRetryCount (context : Json) (count : Nat) : Json :=
  let fields := sections context
  match Fields.find? fields "State" with
  | some (.obj state) => .obj (Fields.set fields "State" (.obj (Fields.set state "RetryCount" (.int count))))
  | _ => .obj fields

/-- Issues the token of a task invocation. -/
def issueToken (context : Json) (token : String) : Json :=
  setSection context "Task" (.object [("Token", .str token)])

/-- The object for one iteration of a map. -/
def forItem (context : Json) (index : Nat) (item : Json) : Json :=
  setSection context "Map"
    (.object [("Item", .object [("Index", .int index), ("Value", item)])])

end Workflow.Context
