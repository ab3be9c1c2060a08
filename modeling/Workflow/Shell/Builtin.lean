import Workflow.Shell.Format
import Workflow.Shell.Pattern
import Workflow.Shell.Test

/-!
# `Workflow.Shell.Builtin` — the commands that are part of a shell

A command takes the state of the script and its arguments and leaves a state.  Those that run other commands are not
among these.

## Contents
- Writing: `echo` and `printf`.  Reading: `readLine`.
- Values: `setOptions`, `shift`, `unset`, `assign` and `keep`.
- Going on: `leave`, `exit`, `goBack` and `trap`.
- `builtin?`, the commands by name.
-/

namespace Workflow.Shell

/-! ## Writing -/

/-- The options in front of what an echo writes. -/
def echoOptions (dialect : Dialect) (arguments : List String) : List String :=
  match dialect with
  | .common => (arguments.take 1).filter (· = "-n")
  | .extended =>
    arguments.takeWhile fun argument =>
      match argument.toList with
      | '-' :: first :: rest => (first :: rest).all (['n', 'e', 'E'].contains ·)
      | _ => false

/-- Writes arguments with spaces between them. -/
def echo (s : Shell) (arguments : List String) : Shell :=
  let options := echoOptions s.dialect arguments
  let letters := options.flatMap String.toList
  let isEscaped := s.dialect = .common || (letters.filter (['e', 'E'].contains ·)).getLast? = some 'e'
  let given := " ".intercalate (arguments.drop options.length)
  let written := if isEscaped then Format.unescape given else ⟨given.toUTF8.toList, false⟩
  let ending := if letters.contains 'n' || written.isStopped then "" else "\n"
  (s.write (Format.textOf written.bytes ++ ending)).withStatus 0

/-- Writes arguments as a format says. -/
def printf (s : Shell) (arguments : List String) : Shell :=
  match if arguments.head? = some "--" then arguments.drop 1 else arguments with
  | [] => s.complain 2 "usage: printf format [arg ...]"
  | format :: arguments =>
    let marks := Format.marks true format.toList
    let written := Format.formatAll marks (arguments.length + 1) ⟨[], arguments, [], 0, false⟩
    let after := written.complaints.foldl (fun s complaint => s.complain 1 complaint) s
    (after.write (Format.textOf written.bytes)).withStatus written.status

/-! ## Reading -/

/-- The first line of a text, whether it has an end, and what is after it.  A backslash joins it with the next line
if told so. -/
def firstLineOf (joins : Bool) : List Char → List Letter × Bool × List Char
  | [] => ([], false, [])
  | '\n' :: rest => ([], true, rest)
  | '\\' :: c :: rest =>
    if joins then
      let (line, hasEnd, after) := firstLineOf joins rest
      (if c = '\n' then line else ⟨c, true⟩ :: line, hasEnd, after)
    else
      let (line, hasEnd, after) := firstLineOf joins (c :: rest)
      (⟨'\\', false⟩ :: line, hasEnd, after)
  | c :: rest =>
    let (line, hasEnd, after) := firstLineOf joins rest
    (⟨c, false⟩ :: line, hasEnd, after)
termination_by cs => cs.length

/-- Gives the fields of a line to names; the last name gets all that is left. -/
def distribute (separators : List Char) : List String → List Letter → Shell → Shell
  | [], _, s => s
  | name :: more, letters, s =>
    let isSeparator (letter : Letter) : Bool := separators.contains letter.char && !letter.isQuoted
    let isBlank (letter : Letter) : Bool := isSeparator letter && [' ', '\t', '\n'].contains letter.char
    let letters := letters.dropWhile isBlank
    if more.isEmpty then s.bind name (textOf ((letters.reverse.dropWhile isBlank).reverse))
    else
      let after := (letters.dropWhile fun letter => !isSeparator letter).dropWhile isBlank
      let after :=
        match after with
        | letter :: rest => if isSeparator letter then rest else after
        | [] => after
      distribute separators more after
        (s.bind name (textOf (letters.takeWhile fun letter => !isSeparator letter)))

/-- Reads a line. -/
def readLine (s : Shell) (arguments : List String) : Shell :=
  let options := arguments.takeWhile (·.startsWith "-")
  match arguments.drop options.length with
  | [] => s.complain 2 "arg count"
  | names =>
    let (line, hasEnd, rest) := firstLineOf (!options.contains "-r") s.input.toList
    (distribute s.separators.toList names line { s with input := String.ofList rest }).answering hasEnd

/-! ## Values -/

/-- The name and the value in a setting. -/
def settingOf (argument : String) : String × Option String :=
  let cs := argument.toList
  (String.ofList (cs.takeWhile (· ≠ '=')),
    if cs.contains '=' then some (String.ofList ((cs.dropWhile (· ≠ '=')).drop 1)) else none)

/-- Sets names. -/
def assign (s : Shell) (arguments : List String) : Shell :=
  (arguments.foldl (fun s argument =>
    match settingOf argument with
    | (name, some value) => s.bind name value
    | (_, none) => s) s).withStatus 0

/-- Sets names that get their values back when the function is over. -/
def keep (s : Shell) (arguments : List String) : Shell :=
  match s.kept with
  | none => s.abort "not in a function"
  | some kept =>
    let old := arguments.map fun argument =>
      let name := (settingOf argument).1
      (name, Fields.find? s.bindings name)
    { s with kept := some (kept ++ old) }.assign arguments

/-- Gives names the values back that they had. -/
def restore (s : Shell) (kept : List (String × Option String)) : Shell :=
  kept.foldr (fun (name, value) s =>
    match value with
    | some value => s.bind name value
    | none => { s with bindings := Fields.erase s.bindings name }) s

/-- Takes values or functions away. -/
def unset (s : Shell) (arguments : List String) : Shell :=
  match arguments with
  | "-f" :: names => { s with functions := names.foldl Fields.erase s.functions, status := 0 }
  | "-v" :: names | names => { s with bindings := names.foldl Fields.erase s.bindings, status := 0 }

/-- Drops arguments. -/
def shift (s : Shell) (arguments : List String) : Shell :=
  match (arguments.head?.getD "1").toNat? with
  | none => s.abort ("Illegal number: " ++ arguments.head?.getD "")
  | some count =>
    if s.arguments.length < count then s.abort "can't shift that many"
    else { s with arguments := s.arguments.drop count, status := 0 }

/-- Sets an option by its letter. -/
def setOption (isSet : Bool) (s : Shell) (letter : Char) : Shell :=
  match letter with
  | 'e' => { s with endsOnFailure := isSet }
  | 'u' => { s with wantsValues := isSet }
  | _ => s

/-- The letters of options by their names. -/
def optionNames : List (String × Char) :=
  [("errexit", 'e'), ("nounset", 'u'), ("xtrace", 'x'), ("noglob", 'f'), ("allexport", 'a'), ("noclobber", 'C')]

/-- Sets options and arguments. -/
def setOptions (s : Shell) (arguments : List String) : Shell :=
  match arguments with
  | [] => s.withStatus 0
  | "--" :: rest => { s with arguments := rest, status := 0 }
  | first :: rest =>
    match first.toList with
    | sign :: letter :: letters =>
      if sign ≠ '-' ∧ sign ≠ '+' then { s with arguments, status := 0 }
      else
        let after := (letter :: letters).foldl (setOption (sign = '-')) s
        if (letter :: letters).contains 'o' then
          match rest with
          | name :: more =>
            match optionNames.find? (·.1 == name) with
            | some entry => setOptions (setOption (sign = '-') after entry.2) more
            | none =>
              if s.dialect = .extended then setOptions after more
              else s.abort ("Illegal option " ++ sign.toString ++ "o " ++ name)
          | [] => after.withStatus 0
        else setOptions after rest
    | _ => { s with arguments, status := 0 }

/-! ## Going on -/

/-- The status that is told, or that of the last command. -/
def toldStatus (s : Shell) (arguments : List String) (next : Nat → Shell) : Shell :=
  match arguments with
  | [] => next s.status
  | argument :: _ =>
    match argument.toNat? with
    | some status => next (status % 256)
    | none => s.abort ("Illegal number: " ++ argument)

/-- Ends the script. -/
def finish (s : Shell) (arguments : List String) : Shell :=
  s.toldStatus arguments fun status => { s with status, flow := .finished }

/-- Ends the function. -/
def goBack (s : Shell) (arguments : List String) : Shell :=
  s.toldStatus arguments fun status => { s with status, flow := .returning }

/-- Leaves loops, or begins their next rounds. -/
def leave (flow : Nat → Flow) (s : Shell) (arguments : List String) : Shell :=
  let illegal := s.abort ("Illegal number: " ++ arguments.head?.getD "")
  match (arguments.head?.getD "1").toNat? with
  | none | some 0 => illegal
  | some count =>
    let loops := min count s.loops
    { s with status := 0, flow := if loops = 0 then .onward else flow loops }

/-- Keeps commands for the end of the script. -/
def trap (s : Shell) (arguments : List String) : Shell :=
  match arguments with
  | action :: conditions =>
    if conditions.any fun condition => condition = "EXIT" || condition = "0" then
      { s with atEnd := if action = "-" then none else some action, status := 0 }
    else s.withStatus 0
  | [] => s.withStatus 0

/-- The numbers of signals. -/
def signalNumbers : List (String × Nat) :=
  [("-9", 9), ("-KILL", 9), ("-SIGKILL", 9), ("-s", 15), ("-15", 15), ("-TERM", 15), ("-2", 2), ("-INT", 2),
    ("-1", 1), ("-HUP", 1), ("-6", 6), ("-ABRT", 6), ("-11", 11), ("-SEGV", 11)]

/-- Ends the script by a signal, if it is sent to the script itself. -/
def kill (s : Shell) (arguments : List String) : Shell :=
  if arguments.getLast? = some (toString processNumber) then
    let number := ((arguments.head?.bind fun name => signalNumbers.find? (·.1 == name)).map (·.2)).getD 15
    { s with status := 128 + number, flow := .finished, atEnd := none }
  else s.complain 1 "No such process"

/-- Finds out whether a condition holds. -/
def test (s : Shell) (arguments : List String) : Shell :=
  let arguments :=
    if s.dialect = .extended then arguments.map fun word => if word = "==" then "=" else word else arguments
  match Test.holds s arguments with
  | .ok answer => s.answering answer
  | .error error => s.complain 2 error.message

/-- Goes to another directory; only those that every system has can be gone to. -/
def changeDirectory (s : Shell) (arguments : List String) : Shell :=
  match arguments.filter (· ≠ "--") with
  | name :: _ =>
    if name.startsWith "/" ∨ pathOf name = "" then s.withStatus 0
    else s.complain 2 ("can't cd to " ++ name)
  | [] => s.withStatus 0

/-- The commands by name. -/
def builtin? : String → Option (Shell → List String → Shell)
  | "echo" => some echo
  | "printf" => some printf
  | "read" => some readLine
  | "true" | ":" | "wait" | "umask" | "alias" | "hash" => some fun s _ => s.withStatus 0
  | "false" => some fun s _ => s.withStatus 1
  | "test" => some test
  | "[" => some fun s arguments =>
    if arguments.getLast? = some "]" then test s arguments.dropLast
    else s.complain 2 "missing ]"
  | "set" => some setOptions
  | "shift" => some shift
  | "unset" => some unset
  | "export" | "readonly" => some assign
  | "local" => some keep
  | "exit" => some finish
  | "return" => some goBack
  | "break" => some (leave .leaving)
  | "continue" => some (leave .renewing)
  | "trap" => some trap
  | "kill" => some kill
  | "cd" => some changeDirectory
  -- The names of files are told from the directory where the script runs.
  | "pwd" => some fun s _ => (s.write ".\n").withStatus 0
  | _ => none

/-- The commands whose settings stay. -/
def settingsStay : List String :=
  [":", ".", "break", "continue", "eval", "exec", "exit", "export", "readonly", "return", "set", "shift", "trap",
    "unset"]

end Workflow.Shell
