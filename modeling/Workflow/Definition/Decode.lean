import Workflow.Definition.Basic
import Workflow.Datum.Decode
import Workflow.Json.Scan

/-!
# `Workflow.Definition.Decode` — reading definitions

A definition is read from a document.  Unknown fields are ignored, a repeated field is refused, and an
optional field may be null.  A state, graph, retrier or catcher may also be written as an array of its
fields in the order in which they are declared here, and a key may be the number of a field in that order.

## Contents
- The declared fields of each part, and its reader: `Retrier.read`, `State.readTo`, `Graph.readWith`, …
- `Definition.ofDatum`, with `Definition.Error`.
-/

namespace Workflow

open Datum (Record asText asNat64 asNat32 asFlag asDouble asList asAny asFields)

/-- A reading that a bad choice rule can spoil. -/
abbrev Definition.Reading := Datum.Reading Choice.Rule.Error

open Definition (Reading)

/-! ## Parts -/

/-- A path setting; it may be null. -/
def Path.Setting.read : Datum → Reading Path.Setting
  | .null => pure .nothing
  | value => Path.Setting.path <$> asText value

/-- A field that is a path setting. -/
def pathField (record : Record) (index : Nat) : Reading Path.Setting :=
  record.withDefault index .whole Path.Setting.read

/-- The jitter of a name or number. -/
def Jitter.ofName? : Datum → Option Jitter
  | .str "FULL" | .int 0 => some .full
  | .str "NONE" | .int 1 => some .fixed
  | _ => none

/-- Reads a jitter; it is said whether tables without entries may stand for null. -/
def Jitter.read (empties : Bool) (value : Datum) : Reading Jitter :=
  match (value.choice? empties).bind Jitter.ofName? with
  | some jitter => pure jitter
  | none => .mismatch

/-- The fields of a retrier. -/
def Retrier.fieldNames : List (List String) :=
  [["ErrorEquals"], ["IntervalSeconds"], ["MaxAttempts"], ["BackoffRate"], ["MaxDelaySeconds"],
    ["JitterStrategy"]]

/-- Reads a retrier; it is said whether tables without entries may stand for null. -/
def Retrier.read (empties : Bool) (value : Datum) : Reading Retrier :=
  Record.read Retrier.fieldNames value fun r =>
    Retrier.mk <$> r.required 0 (asList asText) <*> r.withDefault 1 1 asNat64
      <*> r.withDefault 2 3 asNat32 <*> r.withDefault 3 2.0 asDouble <*> r.optional 4 asNat64
      <*> r.withDefault 5 .fixed (Jitter.read empties)

/-- The fields of a catcher. -/
def Catcher.fieldNames : List (List String) := [["ErrorEquals"], ["Next"], ["ResultPath"]]

/-- Reads a catcher. -/
def Catcher.read (value : Datum) : Reading Catcher :=
  Record.read Catcher.fieldNames value fun r =>
    Catcher.mk <$> r.required 0 (asList asText) <*> r.required 1 asText <*> pathField r 2

/-- Two fields with the rules for failures. -/
def recoveryFields (record : Record) (retry catching : Nat) : Reading Recovery :=
  Recovery.mk <$> record.withDefault retry [] (asList (Retrier.read true))
    <*> record.withDefault catching [] (asList Catcher.read)

/-- Two fields with the transition. -/
def transitionFields (record : Record) (next isEnd : Nat) : Reading Transition :=
  Transition.mk <$> record.optional next asText <*> record.withDefault isEnd false asFlag

/-- Reads a choice rule. -/
def Choice.Rule.read (value : Datum) : Reading Choice.Rule :=
  match value.toJson? with
  | some value => .ofExcept (Choice.Rule.parse value)
  | none => .mismatch

/-! ## States -/

/-- The fields of a kind of state. -/
def State.Kind.fieldNames : State.Kind → List (List String)
  | .task =>
    [["Comment"], ["Resource"], ["InputPath"], ["OutputPath"], ["ResultPath"], ["Parameters"],
      ["ResultSelector"], ["Retry"], ["Catch"], ["TimeoutSeconds"], ["TimeoutSecondsPath"],
      ["HeartbeatSeconds"], ["HeartbeatSecondsPath"], ["Next"], ["End"]]
  | .wait =>
    [["Comment"], ["InputPath"], ["OutputPath"], ["Seconds"], ["Timestamp"], ["SecondsPath"],
      ["TimestampPath"], ["Next"], ["End"]]
  | .choice => [["Comment"], ["InputPath"], ["OutputPath"], ["Choices"], ["Default"]]
  | .pass =>
    [["Comment"], ["InputPath"], ["OutputPath"], ["ResultPath"], ["Parameters"], ["Result"],
      ["Next"], ["End"]]
  | .succeed => [["Comment"], ["InputPath"], ["OutputPath"]]
  | .fail => [["Comment"], ["Error"], ["ErrorPath"], ["Cause"], ["CausePath"]]
  | .parallel =>
    [["Comment"], ["Branches"], ["InputPath"], ["OutputPath"], ["ResultPath"], ["Parameters"],
      ["ResultSelector"], ["Retry"], ["Catch"], ["Next"], ["End"]]
  | .map =>
    [["Comment"], ["ItemProcessor", "Iterator"], ["ItemsPath"], ["ItemSelector", "Parameters"],
      ["MaxConcurrency"], ["InputPath"], ["OutputPath"], ["ResultPath"], ["ResultSelector"],
      ["Retry"], ["Catch"], ["Next"], ["End"]]

/-- The fields of a graph. -/
def Graph.fieldNames : List (List String) := [["Comment"], ["StartAt"], ["States"]]

/-- The graph in a record. -/
def Graph.ofRecord (state : Datum → Reading State) (record : Record) : Reading Graph :=
  GraphOf.mk <$> record.optional 0 asText <*> record.required 1 asText
    <*> record.required 2 (asFields state)

/-- Reads a graph, given how to read its states. -/
def Graph.readWith (state : Datum → Reading State) (value : Datum) : Reading Graph :=
  Record.read Graph.fieldNames value (Graph.ofRecord state)

/-- The state of a kind in a record, given how to read a graph. -/
def State.ofRecord (graph : Datum → Reading Graph) (r : Record) : State.Kind → Reading State
  | .task =>
    State.task <$> (Task.mk <$> r.optional 0 asText <*> r.required 1 asText <*> pathField r 2
      <*> pathField r 3 <*> pathField r 4 <*> r.optional 5 asAny <*> r.optional 6 asAny
      <*> recoveryFields r 7 8 <*> r.optional 9 asNat64 <*> r.optional 10 asText
      <*> r.optional 11 asNat64 <*> r.optional 12 asText <*> transitionFields r 13 14)
  | .wait =>
    State.wait <$> (Wait.mk <$> r.optional 0 asText <*> pathField r 1 <*> pathField r 2
      <*> r.optional 3 asNat64 <*> r.optional 4 asText <*> r.optional 5 asText
      <*> r.optional 6 asText <*> transitionFields r 7 8)
  | .choice =>
    State.choice <$> (ChoiceState.mk <$> r.optional 0 asText <*> pathField r 1 <*> pathField r 2
      <*> r.required 3 (asList Choice.Rule.read) <*> r.optional 4 asText)
  | .pass =>
    State.pass <$> (Pass.mk <$> r.optional 0 asText <*> pathField r 1 <*> pathField r 2
      <*> pathField r 3 <*> r.optional 4 asAny <*> r.optional 5 asAny <*> transitionFields r 6 7)
  | .succeed =>
    State.succeed <$> (Succeed.mk <$> r.optional 0 asText <*> pathField r 1 <*> pathField r 2)
  | .fail =>
    State.fail <$> (Fail.mk <$> r.optional 0 asText <*> r.optional 1 asText <*> r.optional 2 asText
      <*> r.optional 3 asText <*> r.optional 4 asText)
  | .parallel =>
    State.parallel <$> (Parallel.mk <$> r.optional 0 asText <*> pathField r 2 <*> pathField r 3
      <*> pathField r 4 <*> r.optional 5 asAny <*> r.optional 6 asAny <*> recoveryFields r 7 8
      <*> transitionFields r 9 10)
      <*> r.required 1 (asList graph)
  | .map =>
    State.map <$> (MapState.mk <$> r.optional 0 asText <*> r.optional 2 asText
      <*> r.optional 3 asAny <*> r.optional 4 asNat32 <*> pathField r 5 <*> pathField r 6
      <*> pathField r 7 <*> r.optional 8 asAny <*> recoveryFields r 9 10
      <*> transitionFields r 11 12)
      <*> r.required 1 graph

/-- The kind of state that a value names: by its name or by its number. -/
def State.Kind.ofName? : Datum → Option State.Kind
  | .str name => Kind.all.find? (·.name == name)
  | .int number => if 0 ≤ number then Kind.all[number.toNat]? else none
  | _ => none

/-- The field that holds the kind of a state. -/
def State.kindField : String := "Type"

/-- Splits a state into its kind and its other fields.  The kind is in a field of its own, or it is the first
item of a list. -/
def State.split? (value : Datum) : Option (State.Kind × Datum) :=
  (value.splitTag? State.kindField).bind fun (kind, rest) => (State.Kind.ofName? kind).map (·, rest)

/-- Reads a state in which at most the given number of states are nested. -/
def State.readTo : Nat → Datum → Reading State
  | 0, _ => .mismatch
  | depth + 1, value =>
    match State.split? value with
    | none => .inside 0 .mismatch
    | some (kind, rest) =>
      .inside 1 (Record.read kind.fieldNames rest fun record =>
        State.ofRecord (Graph.readWith (State.readTo depth)) record kind)

/-- Reads a state. -/
def State.read (value : Datum) : Reading State := State.readTo value.depth value

/-! ## Definitions -/

/-- The fields of a definition besides those of its graph. -/
def Definition.fieldNames : List (List String) := [["TimeoutSeconds"], ["Version"]]

/-- The timeout and the version of a definition. -/
def Definition.ownFields (r : Record) : Reading (Option Nat × Option String) :=
  Prod.mk <$> r.optional 0 asNat64 <*> r.optional 1 asText

/-- Reads a definition, which is a table.  Its own fields are looked at before those of its graph. -/
def Definition.read : Datum → Reading Definition
  | .table entries =>
    (fun own graph => Definition.mk graph own.1 own.2)
      -- Position 0 puts an issue with these fields before every issue with the graph.
      <$> .inside 0 (Record.read Definition.fieldNames (.table entries) Definition.ownFields)
      <*> .inside 1 (Graph.readWith State.read (.table entries))
  | _ => .mismatch

/-- Why a text is no definition. -/
inductive Definition.Error where
  | malformed (error : Json.ReadError)
  /-- The document is no definition; a choice rule may be to blame. -/
  | unfit (rule : Option Choice.Rule.Error)

/-- The definition in a document. -/
def Definition.ofDatum (value : Datum) : Except Definition.Error Definition :=
  (Definition.read value).result.mapError fun issue => .unfit issue.cause

end Workflow
