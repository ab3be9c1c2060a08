import Workflow.Cli.Flag

/-!
# `Workflow.Cli.Help` — the help of commands

The help of a command has a line that shows how it is used, and a line for every command inside it, operand and
flag, in columns.

## Contents
- `Command.usage` and `Command.helpLines`.
-/

namespace Workflow.Cli

/-! ## Columns -/

/-- Entries in two columns, of which the second begins two spaces after the longest text of the first. -/
def columns (entries : List (String × String)) : List String :=
  let width := entries.foldl (fun width e => max width e.1.length) 0
  entries.map fun (left, right) =>
    left ++ String.ofList (List.replicate (width + 2 - left.length) ' ') ++ right

/-- A section with a title, or nothing if it is empty. -/
def titled (title : String) (entries : List (String × String)) : List String :=
  if entries.isEmpty then [] else ["", title ++ ":"] ++ columns entries

/-! ## Flags -/

/-- How a flag is written; dots show that it is counted. -/
def Flag.written (flag : Flag) : String :=
  "--" ++ flag.long ++
    match flag.role with
    | .value name => " <" ++ name ++ ">"
    | .switch => if flag.repeats then "..." else ""
    | _ => ""

/-- The entry of a flag in a help text. -/
def Flag.entry (environment : String → Option String) (flag : Flag) : String × String :=
  let short :=
    match flag.short with
    | some letter => String.ofList ['-', letter, ',', ' ']
    | none => "    "
  let source :=
    match flag.variableName with
    | some name => " [env: " ++ name ++ "=" ++ (environment name).getD "" ++ "]"
    | none => ""
  ("  " ++ short ++ flag.written, flag.help ++ source)

/-! ## Commands -/

namespace Command

/-- The name of operands as it is written. -/
def operandsWritten (name : String) : String := "[" ++ name ++ "]..."

/-- How a command is used. -/
def usage (command : Command) : String :=
  let required :=
    match command.flags.find? fun f => command.required = some f.long with
    | some flag => " " ++ flag.written
    | none => ""
  let operands :=
    match command.operands with
    | some (name, _) => " " ++ operandsWritten name
    | none => ""
  let inner := if command.commands.isEmpty then "" else " <COMMAND>"
  "Usage: " ++ command.name ++ " [OPTIONS]" ++ required ++ operands ++ inner

/-- The help text of a command. -/
def helpLines (command : Command) (environment : String → Option String) : List String :=
  [command.help, "", command.usage]
    ++ titled "Commands" (command.commands.map fun c => ("  " ++ c.1, c.2))
    ++ titled "Arguments" (command.operands.toList.map fun o => ("  " ++ operandsWritten o.1, o.2))
    ++ titled "Options" (command.allFlags.map (Flag.entry environment))

end Command

end Workflow.Cli
