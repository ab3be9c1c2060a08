import Workflow.Shell.Filter
import Workflow.Shell.Script
import Workflow.Text.Blank

/-!
# `Workflow.Shell.Run` — running scripts

A command changes the state of a script.  Loops and functions need not come to an end, so a script is run with a
limit to how deep commands can be nested and how often a loop can go round; one that reaches it never ends.

## Contents
- `Interpreter`, what the first line of a script tells.
- `runScript`, `call` and `runProgram`, how scripts, functions and programs are run, given how commands are.
- `simple`, `round` and `selected`, the kinds of commands, likewise.
- `run`, which runs a command, `Shell.play`, which runs a script, and `program?`, which runs a program.
-/

namespace Workflow.Shell

/-! ## Interpreters -/

/-- What the first line of a script tells of its language. -/
inductive Interpreter where
  /-- A shell, and the argument that it gets. -/
  | shell (dialect : Dialect) (option : String)
  | unknown
  | unnamed
  deriving DecidableEq, Repr

/-- The shells by name. -/
def dialects : List (String × Dialect) := [("sh", .common), ("dash", .common), ("bash", .extended)]

/-- The directories of programs. -/
def programDirectories : List String := ["/bin/", "/usr/bin/"]

/-- The name of a program without its directory. -/
def baseName (program : String) : String :=
  match programDirectories.find? (·.toList.isPrefixOf program.toList) with
  | some directory => String.ofList (program.toList.drop directory.length)
  | none => program

/-- The shell of a name. -/
def dialect? (program : String) : Option Dialect := (dialects.find? (·.1 == program)).map (·.2)

/-- The programs by name that every system has. -/
def utility? (name : String) : Option (Shell → List String → Shell) := (tool? name).or (filter? name)

/-- What the first line of a script tells. -/
def Interpreter.ofText (text : String) : Interpreter :=
  match text.toList.takeWhile (· ≠ '\n') with
  | '#' :: '!' :: line =>
    let cs := Text.trim line
    let isBlank (c : Char) : Bool := c = ' ' || c = '\t'
    let path := String.ofList (cs.takeWhile (!isBlank ·))
    let option := String.ofList ((cs.dropWhile (!isBlank ·)).dropWhile isBlank)
    if path = "/usr/bin/env" then ((dialect? option).map (Interpreter.shell · "")).getD .unknown
    else if baseName path = path then .unknown
    else ((dialect? (baseName path)).map (Interpreter.shell · option)).getD .unknown
  | _ => .unnamed

/-- Sets the options in an argument of a shell. -/
def withOptions (s : Shell) (option : String) : Shell :=
  if option.startsWith "-" then (option.toList.drop 1).foldl (setOption true) s else s

/-! ## Going on -/

/-- What a loop does after a round: whether it is over. -/
def afterRound (s : Shell) : Bool × Shell :=
  match s.flow with
  | .onward => (false, s)
  | .leaving loops => (true, { s with flow := if loops ≤ 1 then .onward else .leaving (loops - 1) })
  | .renewing loops =>
    if loops ≤ 1 then (false, { s with flow := .onward })
    else (true, { s with flow := .renewing (loops - 1) })
  | .finished | .returning => (true, s)

/-- Goes round until it is over, at most as often as told. -/
def iterate (round : Shell → Bool × Shell) : Nat → Shell → Shell
  | 0, s => s.hang
  | rounds + 1, s =>
    match round s with
    | (true, after) => after
    | (false, after) => iterate round rounds after

/-- Runs something inside a loop. -/
def inLoop (s : Shell) (run : Shell → Shell) : Shell :=
  { run { s with loops := s.loops + 1, status := 0 } with loops := s.loops }

section

variable (run : Command → Shell → Shell)

/-- Runs a command that need not be there. -/
def runBody : Command → Shell → Shell
  | .skip, s => s.withStatus 0
  | command, s => run command s

/-! ## Scripts and functions -/

/-- Runs a script. -/
def runScript (script : Script) (s : Shell) : Shell :=
  let after := script.lines.foldl (fun s command => run command s) { s with texts := script.texts }
  match script.misprint with
  | some misprint =>
    if after.flow = .onward then
      { after with line := misprint.line }.abort ("Syntax error: " ++ misprint.cause.message)
    else after
  | none => after

/-- Runs the commands in a text. -/
def runText (text : String) (s : Shell) : Shell := runScript run (.ofText s.texts text) s

/-- Runs what has been kept for the end. -/
def conclude (s : Shell) : Shell :=
  match s.atEnd with
  | none => s
  | some text =>
    let after := runText run text { s with atEnd := none, flow := .onward }
    if after.flow = .finished then after else after.withStatus s.status

/-- Runs the text of a program in a shell that it has for itself. -/
def runFile (text : String) (s : Shell) : Shell := conclude run (runText run text s)

/-- Runs a program whose shell has been set up, from another script. -/
def visit (text : String) (own : Shell) (s : Shell) : Shell :=
  s.isolate fun s =>
    runFile run text
      { own with
        input := s.input, streams := s.streams, sinks := s.sinks, elapsedMillis := s.elapsedMillis }

/-- Calls a function. -/
def call (body : Command) (arguments : List String) (s : Shell) : Shell :=
  let after := run body { s with arguments, kept := some [], loops := 0 }
  { after.restore (after.kept.getD []) with
    arguments := s.arguments, kept := s.kept, loops := s.loops
    flow := if after.flow = .returning then .onward else after.flow }

/-! ## Programs -/

/-- Complains that a program is not found. -/
def notFound (s : Shell) (program : String) : Shell :=
  let cause :=
    match s.dialect with
    | .common => "not found"
    | .extended => if program.contains '/' then "No such file or directory" else "command not found"
  s.complain 127 (program ++ ": " ++ cause)

/-- Runs a shell as a program. -/
def runShell (dialect : Dialect) (program : String) (arguments : List String) (s : Shell) : Shell :=
  let options := arguments.takeWhile fun argument => isOption argument && !argument.contains 'c'
  let own (name : String) (arguments : List String) : Shell :=
    options.foldl withOptions (start dialect name arguments s.files)
  match arguments.drop options.length with
  | [] => visit run s.input (own program []) { s with input := "" }
  | first :: rest =>
    if isOption first then
      match rest with
      | text :: name :: arguments => visit run text ((own name arguments).withOptions first) s
      | [text] => visit run text ((own program []).withOptions first) s
      | [] => (s.send 2 (program ++ ": 0: " ++ first ++ " requires an argument\n")).withStatus 2
    else
      match s.file? first with
      | some file => visit run file.text (own first rest) s
      | none =>
        match dialect with
        | .common =>
          let message := program ++ ": 0: cannot open " ++ first ++ ": No such file\n"
          (s.send 2 message).withStatus 2
        | .extended =>
          (s.send 2 (program ++ ": " ++ first ++ ": No such file or directory\n")).withStatus 127

/-- Runs a command or program that is no function. -/
def runOther (program : String) (arguments : List String) (s : Shell) : Shell :=
  let name := baseName program
  match builtin? name, utility? name, dialect? name with
  | some perform, _, _ => s.speaking program (perform · arguments)
  | none, some perform, _ => perform s arguments
  | none, none, some dialect => runShell run dialect program arguments s
  | none, none, none =>
    match if program.contains '/' then s.file? program else none with
    | none => s.notFound program
    | some file =>
      if !file.isProgram then s.complain 126 (program ++ ": Permission denied")
      else
        match Interpreter.ofText file.text with
        | .shell dialect option =>
          visit run file.text ((start dialect program arguments s.files).withOptions option) s
        | .unnamed => visit run file.text (start .common program arguments s.files) s
        | .unknown => s.notFound program

/-- Tells where a command is found. -/
def findCommand (s : Shell) (name : String) : Shell :=
  let shown : Option String :=
    if (Fields.find? s.functions name).isSome || (builtin? name).isSome then some name
    else if (utility? name).isSome || (dialect? name).isSome then some ("/usr/bin/" ++ name)
    else if name.contains '/' && ((s.file? name).map (·.isProgram)).getD false then some name
    else none
  match shown with
  | some text => (s.write (text ++ "\n")).withStatus 0
  | none => s.withStatus 127

/-- Runs commands from a file. -/
def source (name : String) (s : Shell) : Shell :=
  match s.file? name with
  | some file =>
    let after := s.speaking name (runText run file.text)
    if after.flow = .returning then { after with flow := .onward } else after
  | none =>
    s.speaking "." fun s =>
      s.abort (if name.contains '/' then "cannot open " ++ name ++ ": No such file" else name ++ ": not found")

/-- Runs a command, function or program. -/
def runProgram (program : String) (arguments : List String) (s : Shell) : Shell :=
  match program, arguments with
  | "eval", _ => (s.withStatus 0).speaking "eval" (runText run (" ".intercalate arguments))
  | ".", name :: _ => source run name s
  | "exec", program :: arguments => { runOther run program arguments s with flow := .finished }
  | "command", "-v" :: name :: _ => s.findCommand name
  | "command", program :: arguments => runOther run program arguments s
  | _, _ =>
    match if settingsStay.contains program then none else Fields.find? s.functions program with
    | some body => call run body arguments s
    | none => runOther run program arguments s

/-! ## Commands -/

/-- Runs something with settings, which stay only for some commands. -/
def withSettings (settings : List (String × Word)) (stay : Bool) (perform : Shell → Shell) (s : Shell) : Shell :=
  let old := settings.map fun (name, _) => (name, Fields.find? s.bindings name)
  match (applySettings run settings).run s with
  | (none, after) => after
  | (some (), after) =>
    let after := perform after
    if stay then after else after.restore old

/-- Runs a simple command. -/
def simple (settings : List (String × Word)) (words : List Word) (redirections : List Redirection)
    (s : Shell) : Shell :=
  match (expandFields run words).run s with
  | (none, after) => after
  | (some [], after) =>
    redirected run redirections (withSettings run settings true fun s => s.withStatus (s.innerStatus.getD 0)) after
  | (some ["exec"], after) =>
    -- Without a program the streams stay as they are opened.
    match ((redirections.forM (redirect run)).run).run after with
    | (none, after) => { after with flow := .finished }
    | (some (), after) => after.withStatus 0
  | (some (program :: arguments), after) =>
    redirected run redirections
      (withSettings run settings (settingsStay.contains program) (runProgram run program arguments)) after

/-- A round of a loop, whose status is that of its last body. -/
def round (whileFails : Bool) (condition body : Command) (s : Shell) : Bool × Shell :=
  let checked := s.tested (run condition)
  if checked.flow ≠ .onward then afterRound checked
  else if (checked.status == 0) == whileFails then (true, checked.withStatus s.status)
  else afterRound (run body checked)

/-- Runs a command for each of some fields. -/
def forEach (name : String) (body : Command) : List String → Shell → Shell
  | [], s => s
  | field :: rest, s =>
    match afterRound (run body (s.bind name field)) with
    | (true, after) => after
    | (false, after) => forEach name body rest after

/-- Whether a text fits one of some patterns. -/
def fitsAny (text : String) : List Word → ExpandM Bool
  | [] => return false
  | word :: rest => do
    if (← expandPattern run word).accepts text.toList then return true else fitsAny text rest

/-- Runs the command of the first case that a text fits. -/
def selected (text : String) : List (List Word × Command) → Shell → Shell
  | [], s => s.withStatus 0
  | (patterns, command) :: rest, s =>
    match (fitsAny run text patterns).run s with
    | (none, after) => after
    | (some true, after) => runBody run command after
    | (some false, after) => selected text rest after

/-- Runs two commands of which the second reads what the first one writes; both take their time at once. -/
def piped (left right : Command) (s : Shell) : Shell :=
  let (output, first) := s.capture (run left)
  let second := { first with input := output, elapsedMillis := s.elapsedMillis }.isolate (run right)
  { second with input := first.input, elapsedMillis := max first.elapsedMillis second.elapsedMillis }

end

/-- Runs a command, given how deep commands can be nested in it and how often each of its loops can go round. -/
def run : Nat → Command → Shell → Shell
  | 0, _, s => s.hang
  | limit + 1, command, s =>
    if s.flow ≠ .onward then s
    else
      match command with
      | .skip => s
      | .simple line settings words redirections =>
        (simple (run limit) settings words redirections { s with line, innerStatus := none }).settle
      | .redirected command redirections => redirected (run limit) redirections (run limit command) s
      | .pipe left right => (piped (run limit) left right s).settle
      | .both left right =>
        let after := s.tested (run limit left)
        if after.status = 0 then run limit right after else after
      | .either left right =>
        let after := s.tested (run limit left)
        if after.status = 0 then after else run limit right after
      | .not command =>
        let after := s.tested (run limit command)
        if after.flow = .onward then after.answering (after.status != 0) else after
      | .next left right => run limit right (run limit left s)
      | .choose condition yes no =>
        let after := s.tested (run limit condition)
        if after.flow ≠ .onward then after
        else if after.status = 0 then runBody (run limit) yes after
        else runBody (run limit) no after
      | .loop whileFails condition body =>
        s.inLoop (iterate (round (run limit) whileFails condition body) limit)
      | .each name none body => s.inLoop (forEach (run limit) name body s.arguments)
      | .each name (some words) body =>
        match (expandFields (run limit) words).run s with
        | (none, after) => after
        | (some fields, after) => after.inLoop (forEach (run limit) name body fields)
      | .select word cases =>
        match (expandText (run limit) word).run s with
        | (none, after) => after
        | (some text, after) => selected (run limit) text cases after
      | .inner command => (s.isolate (run limit command)).settle
      | .define name body => { s with functions := Fields.set s.functions name body, status := 0 }

/-- The limit with which scripts are run. -/
def limit : Nat := 20000

/-! ## Whole scripts -/

/-- Runs the script in a text from beginning to end. -/
def play (s : Shell) (text : String) : Shell := runFile (run limit) text s

/-- The state in which a program ends that every system has. -/
def program? (name : String) (arguments : List String) (files : Fields StoredFile) : Option Shell :=
  let short := baseName name
  let s := start .extended name arguments files
  if name.contains '/' && short == name then none
  else
    match utility? short, dialect? short with
    | some perform, _ => some (perform s arguments)
    | none, some dialect => some (runShell (run limit) dialect name arguments s)
    | none, none =>
      if ["echo", "printf", "true", "false", "test", "["].contains short then
        (builtin? short).map fun perform => perform s arguments
      else none

end Workflow.Shell
