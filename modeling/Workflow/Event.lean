import Workflow.Fault
import Workflow.Datum.Decode
import Workflow.Text.Uuid

/-!
# `Workflow.Event` — what a run tells about itself

A run publishes events: that it started and how it settled, what its states did, and how its branches and
iterations fared.

Covers `ExecutionEvent`, `is_terminal` and `ExecutionStatus`.

## Contents
- `Status`, the status of a run.
- `Event`, and `Event.isTerminal`, which events settle a run.
- `Event.toJson`, and back: `Event.read`.
-/

namespace Workflow

/-! ## Status -/

/-- The status of a run. -/
inductive Status where
  | running | succeeded | failed | timedOut | aborted
  deriving DecidableEq, Repr

namespace Status

/-- The name of a status. -/
def name : Status → String
  | .running => "RUNNING"
  | .succeeded => "SUCCEEDED"
  | .failed => "FAILED"
  | .timedOut => "TIMED_OUT"
  | .aborted => "ABORTED"

def all : List Status := [.running, .succeeded, .failed, .timedOut, .aborted]

/-- A run with this status is settled. -/
def isTerminal (status : Status) : Bool := status != .running

/-- The status of a name, which may also be the key of a table that holds only null. -/
def ofDatum? (value : Datum) : Option Status :=
  match value.choice? false with
  | some (.str name) => all.find? (·.name == name)
  | _ => none

end Status

/-! ## Events -/

/-- Something that happened in a run. -/
inductive Event where
  | runStarted (input : Json)
  | runSucceeded (output : Json) (millis : Nat)
  | runFailed (fault : Fault)
  | runAborted
  | runTimedOut
  | stateEntered (state kind : String) (input : Json)
  | stateExited (state : String) (output : Json)
  | stateRetried (state : String) (fault : Fault) (attempt delayMillis : Nat)
  | stateCaught (state : String) (fault : Fault) (next : String)
  | branchStarted (state : String) (index : Nat)
  | branchSucceeded (state : String) (index : Nat)
  | branchFailed (state : String) (index : Nat) (fault : Fault)
  | iterationStarted (state : String) (index : Nat)
  | iterationSucceeded (state : String) (index : Nat)
  | iterationFailed (state : String) (index : Nat) (fault : Fault)

namespace Event

/-- Events that settle a run. -/
def isTerminal : Event → Bool
  | .runSucceeded .. | .runFailed _ | .runAborted | .runTimedOut => true
  | _ => false

/-! ## Writing -/

/-- The names of the events. -/
def typeNames : List String :=
  ["execution_started", "execution_succeeded", "execution_failed", "execution_aborted",
    "execution_timed_out", "state_entered", "state_exited", "state_retried", "state_caught",
    "branch_started", "branch_succeeded", "branch_failed", "map_iteration_started",
    "map_iteration_succeeded", "map_iteration_failed"]

/-- The name of an event and its entries. -/
def entries : Event → String × List (String × Json)
  | .runStarted input => ("execution_started", [("input", input)])
  | .runSucceeded output millis =>
    ("execution_succeeded", [("output", output), ("duration_ms", .int millis)])
  | .runFailed fault => ("execution_failed", [("error", fault.toJson)])
  | .runAborted => ("execution_aborted", [])
  | .runTimedOut => ("execution_timed_out", [])
  | .stateEntered state kind input =>
    ("state_entered", [("state_name", .str state), ("state_type", .str kind), ("input", input)])
  | .stateExited state output =>
    ("state_exited", [("state_name", .str state), ("output", output)])
  | .stateRetried state fault attempt delayMillis =>
    ("state_retried", [("state_name", .str state), ("error", fault.toJson),
      ("attempt", .int attempt), ("delay_ms", .int delayMillis)])
  | .stateCaught state fault next =>
    ("state_caught", [("state_name", .str state), ("error", fault.toJson), ("next", .str next)])
  | .branchStarted state index =>
    ("branch_started", [("state_name", .str state), ("index", .int index)])
  | .branchSucceeded state index =>
    ("branch_succeeded", [("state_name", .str state), ("index", .int index)])
  | .branchFailed state index fault =>
    ("branch_failed", [("state_name", .str state), ("index", .int index), ("error", fault.toJson)])
  | .iterationStarted state index =>
    ("map_iteration_started", [("state_name", .str state), ("index", .int index)])
  | .iterationSucceeded state index =>
    ("map_iteration_succeeded", [("state_name", .str state), ("index", .int index)])
  | .iterationFailed state index fault =>
    ("map_iteration_failed",
      [("state_name", .str state), ("index", .int index), ("error", fault.toJson)])

/-- The key under which the run of an event is told. -/
def runKey : String := "execution_id"

/-- The key under which the duration of a run is told. -/
def durationKey : String := "duration_ms"

/-- The object of an event of a run. -/
def toJson (runId : String) (event : Event) : Json :=
  let (type, entries) := event.entries
  .object (("type", .str type) :: (runKey, .str runId) :: entries)

/-! ## Reading -/

open Datum (Record asText asNat64 asNat32 asAny)

/-- A reading that has no causes of its own. -/
abbrev PlainReading := Datum.Reading Empty

/-- Reads a fault by its name and cause. -/
def readFault (value : Datum) : PlainReading Fault :=
  Record.read [["Error"], ["Cause"]] value fun r =>
    (fun name cause => Fault.new name (.text cause)) <$> r.required 0 asText <*> r.required 1 asText

/-- Reads the identifier of a run. -/
def readRunId : Datum → PlainReading String
  | .str text =>
    match Text.Uuid.parse? text with
    | some id => pure id
    | none => .mismatch
  | _ => .mismatch

/-- The further fields of an event of a type. -/
def fieldNames : String → List String
  | "execution_started" => ["input"]
  | "execution_succeeded" => ["output", "duration_ms"]
  | "execution_failed" => ["error"]
  | "state_entered" => ["state_name", "state_type", "input"]
  | "state_exited" => ["state_name", "output"]
  | "state_retried" => ["state_name", "error", "attempt", "delay_ms"]
  | "state_caught" => ["state_name", "error", "next"]
  | "branch_started" | "branch_succeeded" | "map_iteration_started" | "map_iteration_succeeded" =>
    ["state_name", "index"]
  | "branch_failed" | "map_iteration_failed" => ["state_name", "index", "error"]
  | _ => []

/-- Reads the further fields of an event of a type. -/
def readBody (r : Record) : String → PlainReading Event
  | "execution_started" => runStarted <$> r.required 1 asAny
  | "execution_succeeded" => runSucceeded <$> r.required 1 asAny <*> r.required 2 asNat64
  | "execution_failed" => runFailed <$> r.required 1 readFault
  | "execution_aborted" => pure runAborted
  | "execution_timed_out" => pure runTimedOut
  | "state_entered" =>
    stateEntered <$> r.required 1 asText <*> r.required 2 asText <*> r.required 3 asAny
  | "state_exited" => stateExited <$> r.required 1 asText <*> r.required 2 asAny
  | "state_retried" =>
    stateRetried <$> r.required 1 asText <*> r.required 2 readFault <*> r.required 3 asNat32
      <*> r.required 4 asNat64
  | "state_caught" =>
    stateCaught <$> r.required 1 asText <*> r.required 2 readFault <*> r.required 3 asText
  | "branch_started" => branchStarted <$> r.required 1 asText <*> r.required 2 asNat64
  | "branch_succeeded" => branchSucceeded <$> r.required 1 asText <*> r.required 2 asNat64
  | "branch_failed" =>
    branchFailed <$> r.required 1 asText <*> r.required 2 asNat64 <*> r.required 3 readFault
  | "map_iteration_started" => iterationStarted <$> r.required 1 asText <*> r.required 2 asNat64
  | "map_iteration_succeeded" => iterationSucceeded <$> r.required 1 asText <*> r.required 2 asNat64
  | "map_iteration_failed" =>
    iterationFailed <$> r.required 1 asText <*> r.required 2 asNat64 <*> r.required 3 readFault
  | _ => .mismatch

/-- The type that a value names. -/
def typeOf? : Datum → Option String
  | .str name => if name ∈ typeNames then some name else none
  | _ => none

/-- Reads an event and the identifier of its run. -/
def read (value : Datum) : PlainReading (String × Event) :=
  match (value.splitTag? "type").bind fun (type, rest) => (typeOf? type).map (·, rest) with
  | none => .mismatch
  | some (type, rest) =>
    Record.read ([runKey] :: (fieldNames type).map ([·])) rest fun r =>
      Prod.mk <$> r.required 0 readRunId <*> readBody r type

end Event

end Workflow
