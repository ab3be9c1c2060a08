import Workflow.Fault
import Workflow.Path.Setting

/-!
# `Workflow.DataFlow` — the stages around a state

The data of a state passes through stages in a fixed order: the input path selects the effective input, a
template renders the parameters, the state does its work, a template renders the result, the result path
puts it into the raw input, and the output path selects what is passed on.  Each stage fails with a fault
of its own name.

Covers `select_stage`, `apply_input_path`, `apply_parameters`, `apply_result_selector`, `apply_item_selector`,
`apply_result_path`, `apply_output_path`, `select_items`, `resolve_required` and `json_type`.

## Contents
- `select`, the rule of input and output paths, and `parameters`, that of templates.
- `merge`, the rule of result paths.
- `items` and `itemInput`, the items of a map and the input of one iteration.
- `required`, a path that must resolve.
-/

namespace Workflow.DataFlow

/-- What a stage yields. -/
abbrev Outcome (α : Type) := Except Fault α

/-- Selects data by a path setting; null selects an empty object. -/
def select (field : String) (setting : Path.Setting) (data context : Json) : Outcome Json :=
  match setting.text? with
  | none => .ok .empty
  | some path =>
    if path = Path.dataRoot then .ok data
    else (Path.resolve path data context).mapError fun e => .runtime (.path field e)

/-- Selects the effective input of a state. -/
def input (setting : Path.Setting) (data context : Json) : Outcome Json :=
  select "InputPath" setting data context

/-- Selects the output of a state. -/
def output (setting : Path.Setting) (data context : Json) : Outcome Json :=
  select "OutputPath" setting data context

/-- The fault that a template error stands for. -/
def templateFault (error : Template.Error) : Fault :=
  match error with
  | .intrinsic _ (.misuse _ (.trapped trap)) => .trapped trap
  | .intrinsic .. => .new Fault.Name.intrinsicFailure (.template error)
  | _ => .new Fault.Name.parameterPathFailure (.template error)

/-- Renders a template. -/
def render (template : Json) (scope : Scope) : Outcome Json :=
  (Template.render scope template).mapError templateFault

/-- Renders a template if there is one, and else passes the data on. -/
def parameters (template : Option Json) (scope : Scope) : Outcome Json :=
  match template with
  | some template => render template scope
  | none => .ok scope.data

/-- The fault that an error of a result path stands for. -/
def mergeFault (error : Path.Error) : Fault :=
  match error with
  | .trapped trap => .trapped trap
  | _ => .new Fault.Name.resultPathMatchFailure (.path "ResultPath" error)

/-- Puts a result into the raw input.  The whole document is replaced by the result, and null discards the
result. -/
def merge (setting : Path.Setting) (raw result : Json) : Outcome Json :=
  match setting.text? with
  | none => .ok raw
  | some path =>
    if path = Path.dataRoot then .ok result
    else (Path.injectText path raw result).mapError mergeFault

/-- The kind of a value. -/
def kindOf : Json → String
  | .null => "null"
  | .bool _ => "boolean"
  | .int _ | .float _ => "number"
  | .str _ => "string"
  | .arr _ => "array"
  | .obj _ => "object"

/-- The items that a map works on. -/
def items (path : Option String) (data context : Json) : Outcome (List Json) :=
  let path := path.getD Path.dataRoot
  match Path.resolve path data context with
  | .ok (.arr items) => .ok items
  | .ok other => .error (.new Fault.Name.parameterPathFailure (.itemsNotArray path (kindOf other)))
  | .error e => .error (.new Fault.Name.parameterPathFailure (.path "ItemsPath" e))

/-- The input of one iteration: the item, or what a template renders from the effective input. -/
def itemInput (template : Option Json) (item : Json) (scope : Scope) : Outcome Json :=
  match template with
  | some template => render template scope
  | none => .ok item

/-- The value of a path that must resolve. -/
def required (field path : String) (data context : Json) : Outcome Json :=
  (Path.resolve path data context).mapError fun e => .runtime (.path field e)

end Workflow.DataFlow
