import Workflow.Cli.Arguments
import Workflow.Cli.Report
import Workflow.Cli.Script
import Workflow.Config
import Workflow.Load

/-!
# `Workflow.Cli.Program` — the commands of the program

Covers `main`, `handle_run`, `collect_inputs`, `run_options` and `handle_validate`.

## Contents
- `Surroundings`, what a command finds in place.
- `collectInputs`, the inputs of a request to run.
- `validate` and `run`, the commands, and `program`, which carries out a command line.
-/

namespace Workflow.Cli

open Execution (Setup Batch)

/-! ## Surroundings -/

/-- What a command finds in place. -/
structure Surroundings where
  /-- The variables of the environment. -/
  environment : String → Option String
  /-- The directory of settings. -/
  configHome : Option String
  /-- The time, in milliseconds since 1970-01-01. -/
  epochMillis : Nat
  /-- The chance of each run. -/
  chance : Nat → Chance
  /-- The greatest number of moves of a run, which need not come to an end by itself. -/
  moveLimit : Nat

/-- The version of the program. -/
def programVersion : String := "0.1.0"

/-- The file of settings below the directory of settings. -/
def configName : String := "/aslrun/config.toml"

/-- The settings that a command works with. -/
def loadConfig (surroundings : Surroundings) (manner : Manner) : Session Config :=
  match manner.config.or (surroundings.configHome.map (· ++ configName)) with
  | some name => do return Config.load (← Session.file name).text?
  | none => return Config.default

/-- The checks that the settings and a request leave. -/
def optionsOf (config : Config) (waived : Waived) (unchecked : Bool) : Validation.Options :=
  ⟨config.checkPaths && !waived.paths, config.checkArn && !waived.arn, unchecked⟩

/-- The report of a definition that cannot be loaded. -/
def loadFailure (name : String) : Report := .fail ["Failed to load " ++ name]

/-! ## Checking -/

/-- Checks the definition in a file. -/
def validate (config : Config) (manner : Manner) (request : ValidateRequest) : Session Report := do
  match Load.definitionFile request.definition (← Session.file request.definition).text? with
  | .error _ => return loadFailure request.definition
  | .ok definition =>
    let findings := Validation.check (optionsOf config request.waived false) definition
    return .ofFindings manner.json request.definition definition.graph.states.length findings

/-! ## Running -/

/-- The inputs in texts and in a file, if one is given; where there are none, there is one empty object. -/
def collectInputs (texts : List String) (file : Option File) : Except String (List Json) := do
  let inline ← texts.mapM fun text =>
    (Load.input text).mapError fun _ => "Invalid input '" ++ text ++ "'"
  let more ←
    match file with
    | some file => (Load.inputs file.text?).mapError fun _ => "Failed to load inputs"
    | none => pure []
  let inputs := inline ++ more
  return if inputs.isEmpty then [.empty] else inputs

/-- The programs of tasks: those of a request replace those of the settings. -/
def programsOf (config : Config) (request : RunRequest) : List (String × String) :=
  config.tasks ++ request.tasks

/-- The waits of states: those of a request replace those of the settings. -/
def waitsOf (config : Config) (request : RunRequest) : Fields Nat :=
  Fields.ofList (config.waits ++ request.waits)

/-- Looks up the files of programs. -/
def scriptsOf : List (String × String) → Session (List (String × Script))
  | [] => return []
  | (key, name) :: rest => do
    let script ← Script.ofFile name (← Session.file name)
    return (key, script) :: (← scriptsOf rest)

/-- The handlers of programs. -/
def handlersOf (scripts : List (String × Script)) : Registry Execution.Handler :=
  .ofList (scripts.map fun (key, script) => (key, script.handler))

/-- What the runs of a request are started with: one for every input. -/
def setupsOf (surroundings : Surroundings) (config : Config) (request : RunRequest)
    (definition : Definition) (scripts : List (String × Script)) (seed : Option Json)
    (inputs : List Json) : List Setup :=
  inputs.zipIdx.map fun (input, index) =>
    { definition
      host := ⟨handlersOf scripts, waitsOf config request, surroundings.epochMillis⟩
      machine := request.machine.getD Setup.defaultMachine
      runId := ((surroundings.chance index).at 0).uuid
      input, seed
      chance := (surroundings.chance index).at 1 }

/-- The report of runs that have come to an end. -/
def reportOf (manner : Manner) (request : RunRequest) (batch : Batch) : Report :=
  let eventLines :=
    if request.showsEvents then
      batch.flatMap fun (setup, process) => process.shownEvents.map fun event => (event.toJson setup.runId).render
    else []
  .ofRuns manner.json manner.quiet eventLines (batch.filterMap fun (setup, process) =>
    process.run.settlement.map fun settlement => ⟨setup.runId, settlement.result request.quietAbort⟩)

/-- Runs the definition in a file. -/
def run (surroundings : Surroundings) (config : Config) (manner : Manner) (request : RunRequest) :
    Session Report := do
  match Load.definitionFile request.definition (← Session.file request.definition).text? with
  | .error _ => return loadFailure request.definition
  | .ok definition =>
    let findings := Validation.check (optionsOf config request.waived request.unchecked) definition
    if !findings.isEmpty then
      return .fail ("Definition validation failed:" :: findings.map fun f => "  - " ++ f.message)
    let inputFile ←
      match request.inputFile with
      | some name => some <$> Session.file name
      | none => pure none
    match collectInputs request.inputs inputFile, request.context.mapM Json.parse with
    | .error message, _ => return .fail [message]
    | .ok _, .error _ => return .fail ["--context must be valid JSON"]
    | .ok inputs, .ok seed =>
      let scripts ← scriptsOf (programsOf config request)
      let setups := setupsOf surroundings config request definition scripts seed inputs
      return reportOf manner request (Batch.simulate surroundings.moveLimit setups)

/-! ## The program -/

/-- The line with the version of a command. -/
def versionLine (command : Command) : String :=
  "-".intercalate (command.name.splitOn " ") ++ " " ++ programVersion

/-- Carries out a command line. -/
def program (surroundings : Surroundings) (arguments : List String) : Session Report :=
  match Request.read surroundings.environment arguments with
  | .refuse command message => return .refuse message command.usage
  | .help command => return .text (command.helpLines surroundings.environment)
  | .version command => return .text [versionLine command]
  | .validate manner request => do validate (← loadConfig surroundings manner) manner request
  | .run manner request => do run surroundings (← loadConfig surroundings manner) manner request

end Workflow.Cli
