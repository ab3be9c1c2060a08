import Workflow.Definition.Text
import Workflow.Definition.Yaml

/-!
# `Workflow.Load` — reading files

A definition is in JSON or in YAML, as the ending of the name of its file tells.  A file of inputs holds one
input, or an array of them.

Covers `LoadError`, `is_yaml`, `parse_definition`, `load_definition`, `parse_input` and `load_inputs`.

## Contents
- `Load.Error`.
- `isYamlName` and `Load.definition`.
- `Load.input` and `Load.inputs`.
-/

namespace Workflow

namespace Load

/-- Why something cannot be loaded. -/
inductive Error where
  /-- There is no such file. -/
  | unreadable
  | yaml
  | json (error : Definition.Error)

/-- Whether the name of a file ends like that of a YAML file; what is in front of the ending is not empty. -/
def isYamlName (file : String) : Bool :=
  let name := file.toList.reverse.takeWhile (· ≠ '/')
  let ending := (name.takeWhile (· ≠ '.')).reverse
  let before := name.dropWhile (· ≠ '.')
  1 < before.length && String.ofList (ending.map Char.toLower) ∈ ["yaml", "yml"]

/-- The definition in a text. -/
def definition (isYaml : Bool) (text : String) : Except Error Definition :=
  if isYaml then
    match Definition.ofYaml? text with
    | some definition => .ok definition
    | none => .error .yaml
  else (Definition.parse text).mapError .json

/-- The definition in a file of a name with the given text, if it can be read. -/
def definitionFile (file : String) (text : Option String) : Except Error Definition :=
  match text with
  | some text => definition (isYamlName file) text
  | none => .error .unreadable

/-- The value in a text. -/
def input (text : String) : Except Error Json :=
  (Json.parse text).mapError fun e => .json (.malformed e)

/-- The inputs in a file with the given text, if it can be read. -/
def inputs (text : Option String) : Except Error (List Json) :=
  match text with
  | none => .error .unreadable
  | some text =>
    (input text).map fun
      | .arr items => items
      | other => [other]

end Load

end Workflow
