import Workflow.Datum.Decode
import Workflow.Toml.Document

/-!
# `Workflow.Config` — settings of the command line

A settings file says which checks are made by default, how long wait states wait, and which programs do the
work of tasks.  A file that cannot be read says nothing.

Covers `AslrunConfig` and `load_config`.

## Contents
- `Config`, `Config.default` and `Config.toJson`.
- `Config.read`, and `Config.load` for the text of a file.
-/

namespace Workflow

open Datum (Record asFlag asNat64 asText asFields)

/-- Settings of the command line. -/
structure Config where
  checkPaths : Bool
  checkArn : Bool
  /-- Milliseconds by the name of a wait state. -/
  waits : Fields Nat
  /-- Programs by the name of a task state or of a resource. -/
  tasks : Fields String

namespace Config

/-- The settings of a file that says nothing. -/
def default : Config := ⟨true, true, [], []⟩

/-- A reading that has no causes of its own. -/
abbrev Reading := Datum.Reading Empty

/-- Reads a group of settings; of an array only as many items count as the group has settings. -/
def group {α : Type} (names : List String) (value : Datum) (body : Record → Reading α) : Reading α :=
  let value :=
    match value with
    | .list items => .list (items.take names.length)
    | other => other
  Record.read (names.map ([·])) value body

/-- Reads the defaults of the checks. -/
def readChecks (value : Datum) : Reading (Bool × Bool) :=
  group ["check_paths", "check_arn"] value fun r =>
    Prod.mk <$> r.withDefault 0 true asFlag <*> r.withDefault 1 true asFlag

/-- Reads what stands in for states. -/
def readOverrides (value : Datum) : Reading (Fields Nat × Fields String) :=
  group ["wait", "task"] value fun r =>
    Prod.mk <$> r.withDefault 0 [] (asFields asNat64) <*> r.withDefault 1 [] (asFields asText)

/-- Reads settings. -/
def read (value : Datum) : Reading Config :=
  group ["validation", "overrides"] value fun r =>
    (fun checks overrides => ⟨checks.1, checks.2, overrides.1, overrides.2⟩)
      <$> r.withDefault 0 (true, true) readChecks <*> r.withDefault 1 ([], []) readOverrides

/-- The settings in the text of a file, if there is one. -/
def load (text : Option String) : Config :=
  match (text.bind Toml.parse?).map fun value => (read (.ofJson value)).result with
  | some (.ok config) => config
  | _ => default

/-- The object of settings. -/
def toJson (config : Config) : Json :=
  .object [
    ("validation", .object [
      ("check_paths", .bool config.checkPaths), ("check_arn", .bool config.checkArn)]),
    ("overrides", .object [
      ("wait", .obj (config.waits.map fun w => (w.1, .int w.2))),
      ("task", .obj (config.tasks.map fun t => (t.1, .str t.2)))])]

end Config

end Workflow
