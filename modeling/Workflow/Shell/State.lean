import Workflow.Json.Basic
import Workflow.Shell.Command

/-!
# `Workflow.Shell.State` — the state of a running script

A script writes to streams, reads from one, keeps values under names and leaves files behind.  After each command it
goes on, or leaves a loop, a function or the whole script.

## Contents
- `Exit`, `Sink`, `Flow` and `Shell`, the state.
- `Shell.value?`, the values of parameters; `Shell.send`, `Shell.complain` and `Shell.abort`, what is written.
- `Shell.isolate` and `Shell.capture`, commands in shells of their own.
-/

namespace Workflow

/-- What a program leaves behind when it ends. -/
structure Exit where
  status : Nat
  output : String
  errors : String
  elapsedMillis : Nat
  deriving Repr

/-- A file that scripts can read. -/
structure StoredFile where
  text : String
  isProgram : Bool
  deriving Repr

namespace Shell

/-- Where what is written goes. -/
inductive Sink where
  /-- To a stream, by its place among those that are written to. -/
  | stream (index : Nat)
  | file (name : String)
  | nowhere
  deriving DecidableEq, Repr

/-- How a script goes on after a command. -/
inductive Flow where
  | onward
  /-- The script is over. -/
  | finished
  /-- The function is over. -/
  | returning
  /-- The innermost loops are over, as many as told. -/
  | leaving (loops : Nat)
  /-- All but one of the innermost loops are over, as many as told, and that one goes on with its next round. -/
  | renewing (loops : Nat)
  deriving DecidableEq, Repr

/-- What shells differ in. -/
inductive Dialect where
  /-- The common shell, in which every echo takes backslashes as escapes. -/
  | common
  /-- A shell that counts lines aloud, and whose echo takes escapes only when it is told to. -/
  | extended
  deriving DecidableEq, Repr

end Shell

open Shell in
/-- The state of a script. -/
structure Shell where
  dialect : Dialect
  /-- The name under which the script was called. -/
  name : String
  arguments : List String
  bindings : Fields String
  functions : Fields Command
  /-- The texts that stand after lines of the script, by their numbers. -/
  texts : List Word
  files : Fields StoredFile
  /-- What can still be read. -/
  input : String
  /-- What has been written to each stream. -/
  streams : List String
  /-- Where the numbered streams of commands lead; the first entry of a number counts. -/
  sinks : List (Nat × Sink)
  /-- How the last command ended. -/
  status : Nat
  /-- How the last command ended whose output was made part of a word. -/
  innerStatus : Option Nat
  flow : Flow
  /-- Whether a failure is looked at by what runs the command. -/
  isTested : Bool
  /-- Whether a failure that nothing looks at ends the script. -/
  endsOnFailure : Bool
  /-- Whether a parameter must have a value. -/
  wantsValues : Bool
  /-- The number of loops around the present command. -/
  loops : Nat
  /-- The values that names get back when the function is over, if one is running. -/
  kept : Option (List (String × Option String))
  /-- The commands that are run when the script is over. -/
  atEnd : Option String
  /-- The number of the line of the present command. -/
  line : Nat
  /-- The command that complains, if it is a part of the shell. -/
  speaker : Option String
  elapsedMillis : Nat

namespace Shell

/-- A shell that is about to run a script. -/
def start (dialect : Dialect) (name : String) (arguments : List String) (files : Fields StoredFile) : Shell where
  dialect
  name
  arguments
  bindings := []
  functions := []
  texts := []
  files
  input := ""
  streams := ["", ""]
  sinks := [(1, .stream 0), (2, .stream 1)]
  status := 0
  innerStatus := none
  flow := .onward
  isTested := false
  endsOnFailure := false
  wantsValues := false
  loops := 0
  kept := none
  atEnd := none
  line := 1
  speaker := none
  elapsedMillis := 0

/-- What a shell leaves behind. -/
def exit (s : Shell) : Exit :=
  ⟨s.status, (s.streams[0]?).getD "", (s.streams[1]?).getD "", s.elapsedMillis⟩

/-- Ends a command in the given way. -/
def withStatus (s : Shell) (status : Nat) : Shell := { s with status }

/-- Ends a command that answers a question. -/
def answering (s : Shell) (answer : Bool) : Shell := s.withStatus (if answer then 0 else 1)

/-! ## Parameters -/

/-- The characters at which values are split. -/
def separators (s : Shell) : String := (Fields.find? s.bindings "IFS").getD " \t\n"

/-- The arguments in one text. -/
def joined (s : Shell) : String :=
  String.intercalate (String.ofList (s.separators.toList.take 1)) s.arguments

/-- The number that the running shell has among the programs of its system. -/
def processNumber : Nat := 1000

/-- The letters of the options that are set. -/
def optionLetters (s : Shell) : String :=
  (if s.endsOnFailure then "e" else "") ++ if s.wantsValues then "u" else ""

/-- The value of a parameter, if it has one. -/
def value? (s : Shell) (name : String) : Option String :=
  match name with
  | "0" => some s.name
  | "#" => some (toString s.arguments.length)
  | "?" => some (toString s.status)
  | "$" => some (toString processNumber)
  | "-" => some s.optionLetters
  | "@" | "*" => if s.arguments.isEmpty then none else some s.joined
  | name =>
    match name.toNat? with
    | some number => s.arguments[number - 1]?
    | none => Fields.find? s.bindings name

/-- Sets a name. -/
def bind (s : Shell) (name value : String) : Shell :=
  { s with bindings := Fields.set s.bindings name value }

/-! ## Files and streams -/

/-- The name of a file without steps that lead nowhere. -/
def pathOf (name : String) : String :=
  "/".intercalate ((name.splitOn "/").filter (· ≠ "."))

/-- The file of a name. -/
def file? (s : Shell) (name : String) : Option StoredFile := Fields.find? s.files (pathOf name)

/-- Puts a text into the file of a name. -/
def store (s : Shell) (name text : String) : Shell :=
  let isProgram := ((s.file? name).map (·.isProgram)).getD false
  { s with files := Fields.set s.files (pathOf name) ⟨text, isProgram⟩ }

/-- Where a numbered stream leads. -/
def sink (s : Shell) (number : Nat) : Sink := ((s.sinks.find? (·.1 == number)).map (·.2)).getD .nowhere

/-- Makes a numbered stream lead somewhere. -/
def direct (s : Shell) (number : Nat) (sink : Sink) : Shell :=
  { s with sinks := (number, sink) :: s.sinks.filter (·.1 != number) }

/-- Writes to a numbered stream. -/
def send (s : Shell) (number : Nat) (text : String) : Shell :=
  match s.sink number with
  | .stream index => { s with streams := s.streams.modify index (· ++ text) }
  | .file name => s.store name (((s.file? name).map (·.text)).getD "" ++ text)
  | .nowhere => s

/-- Writes to the usual stream. -/
def write (s : Shell) (text : String) : Shell := s.send 1 text

/-- What stands in front of complaints. -/
def complaintStart (s : Shell) : String :=
  s.name ++ ": " ++ (if s.dialect = .extended then "line " else "") ++ toString s.line ++ ": "
    ++ ((s.speaker.map (· ++ ": ")).getD "")

/-- Complains of a command and ends it in the given way. -/
def complain (s : Shell) (status : Nat) (message : String) : Shell :=
  (s.send 2 (s.complaintStart ++ message ++ "\n")).withStatus status

/-- Complains and ends the script. -/
def abort (s : Shell) (message : String) : Shell := { s.complain 2 message with flow := .finished }

/-- Waits for ever. -/
def hang (s : Shell) : Shell := { s with elapsedMillis := s.elapsedMillis + Nat.pow 10 15, flow := .finished }

/-! ## Shells of their own -/

/-- Runs something in a shell of its own, of which only what it wrote and read and how it ended is left. -/
def isolate (s : Shell) (run : Shell → Shell) : Shell :=
  let after := run { s with atEnd := none }
  { s with
    files := after.files, streams := after.streams, input := after.input, status := after.status
    elapsedMillis := after.elapsedMillis }

/-- Runs something in a shell of its own and takes what it writes. -/
def capture (s : Shell) (run : Shell → Shell) : String × Shell :=
  let index := s.streams.length
  let after := s.isolate fun s => run ({ s with streams := s.streams ++ [""] }.direct 1 (.stream index))
  ((after.streams[index]?).getD "", { after with streams := after.streams.take index })

/-- Runs something whose complaints a command makes. -/
def speaking (s : Shell) (speaker : String) (run : Shell → Shell) : Shell :=
  { run { s with speaker := some speaker } with speaker := s.speaker }

/-- Runs something whose failure is looked at. -/
def tested (s : Shell) (run : Shell → Shell) : Shell :=
  { run { s with isTested := true } with isTested := s.isTested }

/-- Ends the script if a failure that nothing looks at has to. -/
def settle (s : Shell) : Shell :=
  if s.endsOnFailure && !s.isTested && s.status != 0 && s.flow = .onward then { s with flow := .finished } else s

end Shell

end Workflow
