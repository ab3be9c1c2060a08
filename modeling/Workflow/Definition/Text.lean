import Workflow.Definition.Decode
import Workflow.Json.Reader

/-!
# `Workflow.Definition.Text` — definitions in JSON text

The fields that a definition has besides those of its graph are looked at as soon as they are read, the graph only
when the whole text is.  So an issue with such a field counts even if the text turns out to be malformed later.

Covers `from_json`.

## Contents
- `Definition.isSpoiled`, whether there is such an issue in front of a fault of the text.
- `Definition.parse`, the definition that a text holds.
-/

namespace Workflow.Definition

/-- The fields of a definition itself. -/
def isOwn (key : String) : Bool := fieldNames.any (·.contains key)

/-- Whether a value fits a field of a definition itself. -/
def fits (key : String) (value : Json) : Bool :=
  match Datum.Record.read fieldNames (.table [(.str key, .ofJson value)]) ownFields with
  | ⟨.ok _⟩ => true
  | ⟨.error _⟩ => false

/-- Whether a list or a table opens, which no field of a definition itself is. -/
def opensBracket (cs : List Char) : Bool :=
  match Json.skipBlanks cs with
  | '[' :: _ | '\x7b' :: _ => true
  | _ => false

/-- Whether a field of the definition itself is repeated or does not fit, among the fields that can be read from
here on.  The keys in front are given. -/
def isSpoiledAfter (keys : List String) (cs : List Char) : Bool :=
  match Json.skipBlanks cs with
  | '"' :: rest =>
    match Json.string rest with
    | .error _ => false
    | .ok ⟨(key, rest), _⟩ =>
      if isOwn key && keys.contains key then true
      else
        match Json.skipBlanks rest with
        | ':' :: rest =>
          if isOwn key && opensBracket rest then true
          else
            match Json.value (Json.depthMax - 1) rest with
            | .error _ => false
            | .ok ⟨(value, rest), _⟩ =>
              if isOwn key && !fits key value then true
              else
                match Json.skipBlanks rest with
                | ',' :: rest => if rest.length < cs.length then isSpoiledAfter (key :: keys) rest else false
                | _ => false
        | _ => false
  | _ => false
termination_by cs.length

/-- Whether the text of a definition has an issue in front of the fault that makes it malformed.  A list is no
definition as soon as it opens. -/
def isSpoiled (cs : List Char) : Bool :=
  match Json.skipBlanks cs with
  | '[' :: _ => true
  | '\x7b' :: rest => isSpoiledAfter [] rest
  | _ => false

/-- The definition that a text holds.  What follows the first value is looked at only when that is a definition. -/
def parse (text : String) : Except Definition.Error Definition :=
  match Json.readFirst text with
  | .error e => .error (if isSpoiled text.toList then .unfit none else .malformed e)
  | .ok (value, rest) => do
    let definition ← ofDatum (.ofJson value)
    (Json.checkEnd text rest).mapError .malformed
    return definition

end Workflow.Definition
