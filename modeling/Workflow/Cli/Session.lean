import Workflow.Json.Basic

/-!
# `Workflow.Cli.Session` — asking for files

A command reads files whose names it learns on the way.  A `Session` is a computation that asks for files by
their names; who answers, a file system or a `Folder` in memory, is open.

## Contents
- `File` and `Session`, a monad, with `Session.file`.
- `Folder`, files in memory: `Folder.file`, and `Session.within`, a session whose questions a folder answers.
-/

namespace Workflow.Cli

/-! ## Sessions -/

/-- What stands under a name. -/
inductive File where
  | absent
  /-- The name leads through something that is no directory. -/
  | blocked
  | directory
  | regular (text : String) (isProgram : Bool)
  deriving Repr

/-- The text of a file that can be read. -/
def File.text? : File → Option String
  | .regular text _ => some text
  | _ => none

/-- A computation that asks for files. -/
inductive Session (α : Type) where
  | done (value : α)
  | ask (name : String) (next : File → Session α)

namespace Session

variable {α β : Type}

/-- Goes on with the value of a session. -/
def andThen : Session α → (α → Session β) → Session β
  | .done value, next => next value
  | .ask name rest, next => .ask name fun file => (rest file).andThen next

instance : Monad Session where
  pure := .done
  bind := andThen

/-- Asks for a file. -/
def file (name : String) : Session File := .ask name .done

/-- The value of a session, given what stands under each name. -/
def answer (files : String → File) : Session α → α
  | .done value => value
  | .ask name next => (next (files name)).answer files

end Session

/-! ## Folders -/

/-- Files in memory by their names, in which slashes part the directories. -/
structure Folder where
  files : Fields String

namespace Folder

/-- The ending of the names of programs. -/
def programEnding : List Char := ['.', 's', 'h']

/-- The parts of a name. -/
def partsOf (name : String) : List String := name.splitOn "/"

/-- What stands under a sequence of parts. -/
def lookUp (folder : Folder) (parts : List String) : File :=
  match List.find? (fun (name, _) => partsOf name == parts) folder.files with
  | some (name, text) => .regular text (programEnding.isSuffixOf name.toList)
  | none => if folder.files.any fun f => parts.isPrefixOf (partsOf f.1) then .directory else .absent

/-- What a name leads to from a directory: a dot stays there and two dots go up. -/
def walk (folder : Folder) (place : List String) : List String → File
  | [] => if place.isEmpty then .directory else folder.lookUp place
  | part :: rest =>
    match if place.isEmpty then .directory else folder.lookUp place with
    | .directory =>
      if part = "" ∨ part = "." then folder.walk place rest
      else if part = ".." then if place.isEmpty then .absent else folder.walk place.dropLast rest
      else folder.walk (place ++ [part]) rest
    | .regular .. => .blocked
    | other => other

/-- What stands under a name; names that begin with a slash lead out of the folder. -/
def file (folder : Folder) (name : String) : File :=
  if name.isEmpty ∨ name.startsWith "/" then .absent else folder.walk [] (partsOf name)

end Folder

/-- The value of a session whose questions a folder answers. -/
def Session.within {α : Type} (folder : Folder) (session : Session α) : α :=
  session.answer folder.file

end Workflow.Cli
