import Workflow.Cli.Help
import Workflow.Text.Blank

/-!
# `Workflow.Cli.Arguments` — the command line of the program

Covers `Cli`, `Commands`, `RunArgs`, `ValidateArgs`, `parse_key_value` and `parse_wait_override`.

## Contents
- The commands, `topCommand`, `runCommand` and `validateCommand`.
- `Request`, what a command line asks for, with `RunRequest` and `ValidateRequest`.
- `Request.read`, the reader of command lines.
-/

namespace Workflow.Cli

/-! ## Values -/

/-- A key and a value with an equals sign between them; the key is not empty. -/
def assignment? (text : String) : Option (String × String) :=
  let key := text.toList.takeWhile (· ≠ '=')
  match key, text.toList.dropWhile (· ≠ '=') with
  | _ :: _, _ :: value => some (String.ofList key, String.ofList value)
  | _, _ => none

/-- The number in a text of digits, maybe after a plus sign, if it is less than 2^64. -/
def word64? (text : String) : Option Nat :=
  let digits :=
    match text.toList with
    | '+' :: digits => digits
    | digits => digits
  if digits.isEmpty ∨ !digits.all Char.isDigit then none
  else
    let number := digits.foldl (fun number c => number * 10 + (c.toNat - '0'.toNat)) 0
    if number < Nat.pow 2 64 then some number else none

/-- A key and a number. -/
def numberAssignment? (text : String) : Option (String × Nat) := do
  let (key, value) ← assignment? text
  return (key, ← word64? value)

/-- A text that is not empty. -/
def isPath (text : String) : Bool := !text.isEmpty

/-! ## Commands -/

/-- A flag without a value. -/
def switch (long help : String) : Flag where
  long; short := none; role := .switch; repeats := false; accepts _ := true; help; variableName := none

/-- A flag with a value. -/
def valued (long name : String) (accepts : String → Bool) (help : String) : Flag where
  long; short := none; role := .value name; repeats := false; accepts; help; variableName := none

/-- The variable that names the settings file. -/
def configVariable : String := "ASLRUN_CONFIG"

def jsonFlag : Flag := switch "json" "Output machine-readable JSON instead of styled text"

def quietFlag : Flag := switch "quiet" "Suppress all output except results and errors"

def verboseFlag : Flag :=
  { switch "verbose" "Detailed logs (-v for debug, -vv for trace)" with short := some 'v', repeats := true }

def otelFlag : Flag := switch "otel" "Export spans to stdout via OpenTelemetry"

def configFlag : Flag :=
  { valued "config" "CONFIG" isPath "Config file (default: <config dir>/aslrun/config.toml)" with
    variableName := some configVariable }

def definitionFlag : Flag :=
  { valued "definition" "DEFINITION" isPath "Definition file (JSON, or YAML by extension)" with
    short := some 'd' }

def inputFileFlag : Flag :=
  valued "input-file" "INPUT_FILE" isPath
    "JSON file of inputs; a top-level array is one execution per element"

def taskFlag : Flag :=
  { valued "task" "STATE=SCRIPT" (fun text => (assignment? text).isSome)
      "Run a Task state (or resource) with an executable: STATE=SCRIPT" with
    short := some 't', repeats := true }

def waitFlag : Flag :=
  { valued "wait" "STATE=MS" (fun text => (numberAssignment? text).isSome)
      "Replace a Wait state's delay: STATE=MILLISECONDS" with
    short := some 'w', repeats := true }

def contextFlag : Flag :=
  valued "context" "CONTEXT" (fun _ => true) "JSON merged into the context object"

def nameFlag : Flag :=
  valued "name" "NAME" (fun _ => true) "Name reported as \x60$$.StateMachine.Name\x60"

def noPathsFlag : Flag := switch "no-path-validation" "Skip reference path and template checks"

def noArnFlag : Flag := switch "no-arn-validation" "Allow Task resources that are not ARNs"

def noValidationFlag : Flag := switch "no-validation" "Skip definition validation entirely"

def eventsFlag : Flag := switch "events" "Print execution events to stderr as JSON lines"

def quietAbortFlag : Flag :=
  switch "no-throw-on-abort" "Report aborted executions as a null result instead of an error"

def runHelp : String := "Execute a definition once per input"

def validateHelp : String := "Check a definition without running it"

def helpHelp : String := "Print this message or the help of the given subcommand(s)"

def runCommand : Command where
  name := "aslrun run"
  help := runHelp
  flags := [definitionFlag, jsonFlag, inputFileFlag, quietFlag, taskFlag, verboseFlag, otelFlag,
    waitFlag, configFlag, contextFlag, nameFlag, noPathsFlag, noArnFlag, noValidationFlag, eventsFlag,
    quietAbortFlag]
  required := some definitionFlag.long
  operands := some ("INPUTS", "Inline JSON inputs; one execution per input")
  commands := []

def validateCommand : Command where
  name := "aslrun validate"
  help := validateHelp
  flags := [definitionFlag, jsonFlag, noPathsFlag, quietFlag, noArnFlag, verboseFlag, otelFlag,
    configFlag]
  required := some definitionFlag.long
  operands := none
  commands := []

def topCommand : Command where
  name := "aslrun"
  help := "Command-line front end for the aslrun state machine engine"
  flags := [jsonFlag, quietFlag, verboseFlag, otelFlag, configFlag]
  required := none
  operands := none
  commands := [("run", runHelp), ("validate", validateHelp), ("help", helpHelp)]

/-- The command that prints help. -/
def helpCommand : Command where
  name := "aslrun help"
  help := helpHelp
  flags := []
  required := none
  operands := none
  commands := topCommand.commands

/-! ## Requests -/

/-- What is asked for with every command. -/
structure Manner where
  json : Bool
  quiet : Bool
  /-- The name of the settings file. -/
  config : Option String

/-- The checks that are left out. -/
structure Waived where
  paths : Bool
  arn : Bool

/-- A request to check a definition. -/
structure ValidateRequest where
  definition : String
  waived : Waived

/-- A request to run a definition. -/
structure RunRequest where
  definition : String
  /-- The texts of inputs. -/
  inputs : List String
  inputFile : Option String
  tasks : List (String × String)
  waits : List (String × Nat)
  context : Option String
  machine : Option String
  waived : Waived
  /-- Whether no check is made at all. -/
  unchecked : Bool
  showsEvents : Bool
  quietAbort : Bool

/-- What a command line asks for. -/
inductive Request where
  | run (manner : Manner) (request : RunRequest)
  | validate (manner : Manner) (request : ValidateRequest)
  | help (command : Command)
  | version (command : Command)
  | refuse (command : Command) (message : String)

namespace Request

/-- The manner of a command, of which a part can be given in front of its name; the variable of the settings
file counts least. -/
def mannerOf (outer inner filled : Given) : Manner where
  json := outer.has jsonFlag.long || inner.has jsonFlag.long
  quiet := outer.has quietFlag.long || inner.has quietFlag.long
  config := ((inner.value? configFlag.long).or (outer.value? configFlag.long)).or
    (filled.value? configFlag.long)

def waivedOf (given : Given) : Waived := ⟨given.has noPathsFlag.long, given.has noArnFlag.long⟩

def validateOf (given : Given) : ValidateRequest where
  definition := (given.value? definitionFlag.long).getD ""
  waived := waivedOf given

def runOf (given : Given) : RunRequest where
  definition := (given.value? definitionFlag.long).getD ""
  inputs := given.operands
  inputFile := given.value? inputFileFlag.long
  tasks := (given.all taskFlag.long).filterMap assignment?
  waits := (given.all waitFlag.long).filterMap numberAssignment?
  context := given.value? contextFlag.long
  machine := given.value? nameFlag.long
  waived := waivedOf given
  unchecked := given.has noValidationFlag.long
  showsEvents := given.has eventsFlag.long
  quietAbort := given.has quietAbortFlag.long

/-- What a command asks for that is not carried out. -/
def ofStop (command : Command) : Stop → Request
  | .usage message => .refuse command message
  | .help => .help command
  | .version => .version command

/-- The command of a name inside the program. -/
def commandOf? : String → Option Command
  | "run" => some runCommand
  | "validate" => some validateCommand
  | "help" => some helpCommand
  | _ => none

/-- The help that is asked for with the names of commands. -/
def readHelp (names : List String) : Request :=
  match names with
  | [] => .help topCommand
  | name :: rest =>
    match commandOf? name with
    | none => .refuse topCommand ("unrecognized subcommand '" ++ name ++ "'")
    | some command =>
      match rest.find? fun inner => !command.commands.any (·.1 == inner) with
      | some inner => .refuse command ("unrecognized subcommand '" ++ inner ++ "'")
      | none => .help command

/-- Reads the arguments of a command inside the program. -/
def readInner (environment : String → Option String) (command : Command) (outer : Given)
    (use : Given → Manner → Request) (arguments : List String) : Request :=
  let inner := do
    let (given, _) ← command.scan .start arguments
    let filled ← command.fillFrom environment given
    return (given, ← command.demand filled)
  match inner with
  | .error stop => ofStop command stop
  | .ok (given, filled) =>
    match topCommand.fillFrom environment outer with
    | .error stop => ofStop topCommand stop
    | .ok _ => use given (mannerOf outer given filled)

/-- Reads a command line. -/
def read (environment : String → Option String) (arguments : List String) : Request :=
  match topCommand.scan .start arguments with
  | .error stop => ofStop topCommand stop
  | .ok (_, []) => .refuse topCommand "a subcommand is required but one was not provided"
  | .ok (outer, name :: rest) =>
    match name with
    | "run" =>
      readInner environment runCommand outer (fun given manner => .run manner (runOf given)) rest
    | "validate" =>
      readInner environment validateCommand outer
        (fun given manner => .validate manner (validateOf given)) rest
    | _ => readHelp rest

end Request

end Workflow.Cli
