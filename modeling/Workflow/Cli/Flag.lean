/-!
# `Workflow.Cli.Flag` — the grammar of command lines

A command takes flags, which begin with hyphens, and operands.  A flag can have a value, in the same argument
after an equals sign or in the next one; flags of one letter can share an argument.

## Contents
- `Flag` and `Command`, what a command takes.
- `Given`, what it got, and `Stop`, why a command line is not carried out.
- `Command.step` and `Command.scan`, the reader of arguments.
-/

namespace Workflow.Cli

/-! ## Commands -/

/-- What a flag does. -/
inductive Flag.Role where
  | switch
  /-- Takes a value of the given name. -/
  | value (name : String)
  | help
  | version
  deriving DecidableEq

/-- A flag. -/
structure Flag where
  long : String
  short : Option Char
  role : Flag.Role
  /-- Whether the flag can be given more than once. -/
  repeats : Bool
  /-- Which values the flag takes. -/
  accepts : String → Bool
  help : String
  /-- The variable of the environment whose value the flag has if it is not given. -/
  variableName : Option String

/-- A command. -/
structure Command where
  name : String
  help : String
  flags : List Flag
  /-- The flag that must be given, if there is one. -/
  required : Option String
  /-- The name and the help of operands, if the command takes any. -/
  operands : Option (String × String)
  /-- The names and the help of the commands inside this one. -/
  commands : List (String × String)

/-- The flags that every command has. -/
def commonFlags : List Flag := [
  { long := "help", short := some 'h', role := .help, repeats := false, accepts := fun _ => true
    help := "Print help", variableName := none },
  { long := "version", short := some 'V', role := .version, repeats := false, accepts := fun _ => true
    help := "Print version", variableName := none }]

/-- All flags of a command. -/
def Command.allFlags (command : Command) : List Flag := command.flags ++ commonFlags

/-- Why a command line is not carried out. -/
inductive Stop where
  | usage (message : String)
  | help
  | version
  deriving DecidableEq, Repr

/-! ## What is given -/

/-- The flags and operands of a command, in order. -/
structure Given where
  /-- Flags by their long names, with their values. -/
  flags : List (String × String)
  operands : List String

namespace Given

def none : Given := ⟨[], []⟩

/-- Whether a flag is given. -/
def has (given : Given) (long : String) : Bool := given.flags.any (·.1 == long)

/-- The values of a flag, in order. -/
def all (given : Given) (long : String) : List String :=
  given.flags.filterMap fun f => if f.1 = long then some f.2 else .none

/-- The value of a flag, if it is given. -/
def value? (given : Given) (long : String) : Option String := (given.all long).head?

end Given

/-! ## Reading -/

/-- How far a reader has come. -/
structure Progress where
  given : Given
  /-- A flag whose value comes next. -/
  pending : Option Flag
  /-- Whether only operands can follow. -/
  operandsOnly : Bool

namespace Progress

def start : Progress := ⟨.none, none, false⟩

/-- Adds a flag; not every flag can be given twice, and not every value is taken. -/
def add (p : Progress) (flag : Flag) (value : String) : Except Stop Progress :=
  if !flag.repeats && p.given.has flag.long then
    .error (.usage ("the argument '--" ++ flag.long ++ "' cannot be used multiple times"))
  else if !flag.accepts value then
    .error (.usage ("invalid value '" ++ value ++ "' for '--" ++ flag.long ++ "'"))
  else .ok { p with given.flags := p.given.flags ++ [(flag.long, value)], pending := none }

end Progress

/-- Whether an argument is one or more flags, or the mark that ends them. -/
def looksLikeFlag (argument : String) : Bool := argument.startsWith "-" && argument != "-"

/-- The complaint about an argument. -/
def unexpected (argument : String) : Stop := .usage ("unexpected argument '" ++ argument ++ "' found")

namespace Command

/-- Takes a flag that has no value of its own. -/
def takeSwitch (p : Progress) (flag : Flag) : Except Stop Progress :=
  match flag.role with
  | .help => .error .help
  | .version => .error .version
  | _ => p.add flag ""

/-- Takes a flag by its long name, maybe with a value. -/
def takeLong (command : Command) (p : Progress) (body : List Char) : Except Stop Progress :=
  let name := String.ofList (body.takeWhile (· ≠ '='))
  match command.allFlags.find? (·.long == name), body.dropWhile (· ≠ '=') with
  | none, _ => .error (unexpected ("--" ++ name))
  | some flag, [] =>
    match flag.role with
    | .value _ => .ok { p with pending := some flag }
    | _ => takeSwitch p flag
  | some flag, _ :: value =>
    match flag.role with
    | .value _ => p.add flag (String.ofList value)
    | _ => .error (.usage ("unexpected value '" ++ String.ofList value ++ "' for '--" ++ name ++ "' found"))

/-- Takes flags by their letters; what follows a flag that has a value is the value. -/
def takeShort (command : Command) (p : Progress) : List Char → Except Stop Progress
  | [] => .ok p
  | letter :: rest =>
    match command.allFlags.find? (·.short == some letter) with
    | none => .error (unexpected (String.ofList ['-', letter]))
    | some flag =>
      match flag.role, rest with
      | .value _, [] => .ok { p with pending := some flag }
      | .value _, '=' :: value => p.add flag (String.ofList value)
      | .value _, value => p.add flag (String.ofList value)
      | _, rest =>
        match takeSwitch p flag with
        | .ok p => takeShort command p rest
        | .error stop => .error stop

/-- Takes an operand. -/
def takeOperand (command : Command) (p : Progress) (argument : String) : Except Stop Progress :=
  if command.operands.isSome then .ok { p with given.operands := p.given.operands ++ [argument] }
  else .error (unexpected argument)

/-- Takes an argument. -/
def step (command : Command) (p : Progress) (argument : String) : Except Stop Progress :=
  match p.pending with
  | some flag =>
    if looksLikeFlag argument then
      .error (.usage ("a value is required for '--" ++ flag.long ++ "' but none was supplied"))
    else p.add flag argument
  | none =>
    if p.operandsOnly || !looksLikeFlag argument then command.takeOperand p argument
    else
      match argument.toList with
      | '-' :: '-' :: [] => .ok { p with operandsOnly := true }
      | '-' :: '-' :: body => command.takeLong p body
      | '-' :: letters => command.takeShort p letters
      | _ => command.takeOperand p argument

/-- Takes arguments, up to the name of a command inside this one. -/
def scan (command : Command) (p : Progress) : List String → Except Stop (Given × List String)
  | [] =>
    match p.pending with
    | some flag => .error (.usage ("a value is required for '--" ++ flag.long ++ "' but none was supplied"))
    | none => .ok (p.given, [])
  | argument :: rest =>
    if p.pending.isNone && !p.operandsOnly && command.commands.any (·.1 == argument) then
      .ok (p.given, argument :: rest)
    else
      match command.step p argument with
      | .ok p => command.scan p rest
      | .error stop => .error stop

/-- Takes the values of variables for flags that are not given. -/
def fillFrom (command : Command) (environment : String → Option String) (given : Given) :
    Except Stop Given :=
  command.flags.foldlM (fun given flag =>
    match if given.has flag.long then none else flag.variableName.bind environment with
    | some value =>
      if flag.accepts value then .ok { given with flags := given.flags ++ [(flag.long, value)] }
      else .error (.usage ("invalid value '" ++ value ++ "' for '--" ++ flag.long ++ "'"))
    | none => .ok given) given

/-- Wants the flag that must be given. -/
def demand (command : Command) (given : Given) : Except Stop Given :=
  match command.required with
  | some long =>
    if given.has long then .ok given
    else .error (.usage ("the required argument '--" ++ long ++ "' was not provided"))
  | none => .ok given

end Command

end Workflow.Cli
