import Workflow.Definition.Decode
import Workflow.Yaml.Document

/-!
# `Workflow.Definition.Yaml` — definitions in YAML

In YAML the keys of a definition are texts, however they are written, and so is its version, while its timeout is a
number only if it is written plainly.  All else is read by what scalars stand for.

## Contents
- `Definition.entryOfYaml` and `Definition.ofYaml?`.
-/

namespace Workflow

open Yaml (Document NumberedNode)

/-- An entry of a definition. -/
def Definition.entryOfYaml (document : Document) (key value : NumberedNode) : Document.Reading (Datum × Datum) := do
  let key ← document.text key
  let value ←
    match key with
    | "TimeoutSeconds" => document.optionalNat value
    | "Version" => document.optionalText value
    | _ => document.value value
  return (.str key, value)

/-- The definition in a text. -/
def Definition.ofYaml? (text : String) : Option Definition := do
  let document ← Document.ofText? text
  let entries ← document.run (document.entries (Definition.entryOfYaml document))
  match Definition.ofDatum entries with
  | .ok definition => some definition
  | .error _ => none

end Workflow
