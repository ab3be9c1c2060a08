import Workflow.Cli.Session
import Workflow.Execution.Handler
import Workflow.Fault
import Workflow.Json.Printer
import Workflow.Json.Reader
import Workflow.Shell.Run
import Workflow.Text.Blank

/-!
# `Workflow.Cli.Script` — programs as task handlers

A program gets the input of a task as its only argument, as compact JSON, and prints the result.  A program
that prints nothing has the result null, and one that fails raises an error with what it complained of.

Covers `ScriptTaskHandler` and `invoke`.

## Contents
- `LaunchError`, and `launch`, which starts a program.
- `Script.ofFile`, a program with the files that its text speaks of.
- `Script.reply`, the reply to the input of a task, and `Script.handler`.
-/

namespace Workflow.Cli

open Execution (Handler Reply TaskError)

/-! ## Starting programs -/

/-- Why a program cannot be started. -/
inductive LaunchError where
  | absent
  | refused
  | blocked
  | format
  deriving DecidableEq, Repr

/-- The wording of an error. -/
def LaunchError.message : LaunchError → String
  | .absent => "No such file or directory (os error 2)"
  | .refused => "Permission denied (os error 13)"
  | .blocked => "Not a directory (os error 20)"
  | .format => "Exec format error (os error 8)"

/-- Starts a program under a name that leads to the given file, with other files that it can read, and gives the
state in which it ends.  Names without a slash are those of programs that every system has. -/
def launch (name : String) (file : File) (files : Fields StoredFile) (argument : String) :
    Except LaunchError Shell :=
  match Shell.program? name [argument] files with
  | some shell => .ok shell
  | none =>
    if !name.contains '/' then .error (if name = "." ∨ name = ".." then .refused else .absent)
    else
      match file with
      | .absent => .error .absent
      | .blocked => .error .blocked
      | .directory => .error .refused
      | .regular _ false => .error .refused
      | .regular text true =>
        match Shell.Interpreter.ofText text with
        | .unknown => .error .absent
        | .unnamed => .error .format
        | .shell dialect option =>
          .ok (((Shell.start dialect name [argument] files).withOptions option).play text)

/-! ## Handlers -/

/-- A program under its name. -/
structure Script where
  name : String
  file : File
  /-- The files that the program can read. -/
  files : Fields StoredFile

namespace Script

/-- The characters of the names of files. -/
def isFileNameChar (c : Char) : Bool := c.isAlphanum || ['.', '_', '-', '/'].contains c

/-- The words in the text of a program that could be names of files. -/
def namesIn (text : String) : List String :=
  let words := (text.toList.map fun c => if isFileNameChar c then c else ' ').splitOn ' '
  ((words.map String.ofList).filter fun word => !word.isEmpty && !word.startsWith "/").eraseDups

/-- A program under a name that leads to the given file, with the files that it could read. -/
def ofFile (name : String) (file : File) : Session Script := do
  let files ← (name :: (file.text?.map namesIn).getD []).filterMapM fun word => do
    match ← Session.file word with
    | .regular text isProgram => return some (Shell.pathOf word, (⟨text, isProgram⟩ : StoredFile))
    | _ => return none
  return ⟨name, file, Fields.ofList files⟩

/-- The error of a program that failed. -/
def failure (message : String) : TaskError := ⟨Fault.Name.taskFailed, message⟩

/-- A text without white space at either end. -/
def trimmed (text : String) : String := String.ofList (Text.trim text.toList)

/-- The result of a task whose program ended in the given way. -/
def resultOf (name : String) (exit : Exit) : Except TaskError Json :=
  if exit.status ≠ 0 then .error (failure (trimmed exit.errors))
  else if (trimmed exit.output).isEmpty then .ok .null
  else
    (Json.parse (trimmed exit.output)).mapError fun e =>
      failure (name ++ " printed invalid JSON: " ++ e.message)

/-- Starts a program with the input of a task. -/
def start (script : Script) (files : Fields StoredFile) (input : Json) : Except LaunchError Shell :=
  launch script.name script.file files input.render

/-- The files that a program leaves after the inputs that it got, of which the last comes first. -/
def filesAfter (script : Script) : List Json → Fields StoredFile
  | [] => script.files
  | input :: earlier =>
    let files := script.filesAfter earlier
    match script.start files input with
    | .ok shell => shell.files
    | .error _ => files

/-- The reply of a program to the input of a task, given what it got before. -/
def reply (script : Script) (earlier : List Json) (input : Json) : Reply :=
  match script.start (script.filesAfter earlier) input with
  | .error e => ⟨0, .failed (failure ("failed to spawn " ++ script.name ++ ": " ++ e.message)), false⟩
  | .ok shell => ⟨shell.elapsedMillis, .ofResult (resultOf script.name shell.exit), false⟩

/-- The handler that starts a program. -/
def handler (script : Script) : Handler := ⟨script.reply⟩

end Script

end Workflow.Cli
