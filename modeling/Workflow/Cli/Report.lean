import Workflow.Execution.Batch
import Workflow.Json.Printer
import Workflow.Validation.Check

/-!
# `Workflow.Cli.Report` — what commands print

A command prints its results to the output, everything else to the stream of errors, and ends with a code:
zero if all went well, one if not, and two if the command line is no good.

Covers `report` and `print_events`.

## Contents
- `Report`, with `Report.refuse` and `Report.fail`.
- `Report.ofRuns`, the report of runs, and `Report.ofFindings`, the report of a check.
-/

namespace Workflow.Cli

open Execution (RunError)

/-- The lines that a command prints, and the code with which it ends. -/
structure Report where
  output : List String
  errors : List String
  exitCode : Nat

namespace Report

/-- The code of a command that was carried out. -/
def codeOf (isGood : Bool) : Nat := if isGood then 0 else 1

/-- The report of a command that printed nothing but text. -/
def text (lines : List String) : Report := ⟨lines, [], 0⟩

/-- The report of a command line that is no good. -/
def refuse (message usage : String) : Report := ⟨[], ["error: " ++ message, "", usage], 2⟩

/-- The report of a command that failed before it had results. -/
def fail (lines : List String) : Report := ⟨[], lines.map ("Error: " ++ ·), 1⟩

/-! ## Runs -/

/-- How a run ended: its identifier and its result. -/
structure Finished where
  runId : String
  result : Except RunError Json

/-- Whether a run has an output. -/
def Finished.isGood (f : Finished) : Bool := f.result.toBool

/-- The object that describes the end of a run. -/
def Finished.toJson (f : Finished) : Json :=
  match f.result with
  | .ok output => .object [
      ("execution_id", .str f.runId), ("status", .str Status.succeeded.name), ("output", output)]
  | .error e => .object [
      ("execution_id", .str f.runId), ("status", .str e.status.name),
      ("error", (e.fault?.map Fault.toJson).getD .null)]

/-- What the end of a run adds to the output: an object on one line, or the value that came out. -/
def Finished.outputLines (json : Bool) (f : Finished) : List String :=
  if json then [f.toJson.render]
  else
    match f.result with
    | .ok output => output.renderLines
    | .error _ => []

/-- What the end of a run adds to the stream of errors. -/
def Finished.errorLines (json quiet : Bool) (f : Finished) : List String :=
  if json then []
  else
    match f.result with
    | .ok _ => if quiet then [] else ["  ✓ " ++ f.runId]
    | .error e =>
      ("  ✗ " ++ f.runId ++ " " ++ e.status.name)
        :: (e.fault?.map fun fault => "    " ++ fault.message).toList

/-- The report of runs, in their order, after lines about their events. -/
def ofRuns (json quiet : Bool) (eventLines : List String) (runs : List Finished) : Report where
  output := runs.flatMap (Finished.outputLines json)
  errors := eventLines ++ runs.flatMap (Finished.errorLines json quiet)
  exitCode := codeOf (runs.all Finished.isGood)

/-! ## Checks -/

/-- The report of a check of the definition in a file with the given number of states. -/
def ofFindings (json : Bool) (file : String) (states : Nat) (findings : List Validation.Finding) :
    Report where
  output :=
    if json then
      (Json.object [
        ("definition", .str file), ("valid", .bool findings.isEmpty),
        ("errors", .arr (findings.map fun f => .str f.message))]).renderLines
    else if findings.isEmpty then
      ["", "  ✓ " ++ file ++ " is valid (" ++ toString states ++ " top-level states)", ""]
    else
      ["", "  ✗ " ++ file ++ " has " ++ toString findings.length ++ " problem(s):"]
        ++ findings.map (fun f => "    - " ++ f.message) ++ [""]
  errors := []
  exitCode := codeOf findings.isEmpty

end Report

end Workflow.Cli
