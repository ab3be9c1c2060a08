import Workflow.Intrinsic.Eval

/-!
# `Workflow.Template` — payload templates

A template is a JSON value.  A field whose key ends in `.$` is dynamic: its value is an expression, a path or
an intrinsic call, and in the output the key loses the ending and holds what the expression evaluates to.
Everything else is copied.

Covers `TemplateError`, `render_template`, `template_expressions` and `collect_expressions`.

## Contents
- `Template.dynamicName?`, which tells dynamic keys, and `Template.evaluate`, the value of an expression.
- `Template.render`, the output of a template.
- `Template.expressions`, every dynamic key of a template with its expression.
-/

namespace Workflow.Template

/-- Why a template cannot be rendered; each cause names the key at fault. -/
inductive Error where
  | path (key : String) (error : Path.Error)
  | intrinsic (key : String) (error : Intrinsic.Error)
  | notText (key : String)

/-- The wording of an error. -/
def Error.message : Error → String
  | .path key error => "field '" ++ key ++ "': " ++ error.message
  | .intrinsic key error => "field '" ++ key ++ "': " ++ error.message
  | .notText key => "field '" ++ key ++ "' must hold a path or intrinsic string"

/-- The output key of a dynamic key. -/
def dynamicName? (key : String) : Option String :=
  match key.toList.reverse with
  | '$' :: '.' :: rest => some (String.ofList rest.reverse)
  | _ => none

/-- The value of the expression under a dynamic key. -/
def evaluate (scope : Scope) (key : String) : Json → Except Error Json
  | .str text =>
    if Intrinsic.isIntrinsic text then
      (Intrinsic.evaluate scope text).mapError (.intrinsic key)
    else (Path.resolve text scope.data scope.context).mapError (.path key)
  | _ => .error (.notText key)

mutual
/-- The output of a template. -/
def render (scope : Scope) : Json → Except Error Json
  | .arr items => (renderItems scope 0 items).map .arr
  | .obj fields => (renderFields scope 0 [] fields).map .obj
  | value => .ok value
/-- The outputs of items, the first of which is at the given position. -/
def renderItems (scope : Scope) (position : Nat) : List Json → Except Error (List Json)
  | [] => .ok []
  | item :: rest =>
    match render (scope.at position) item with
    | .ok value => (renderItems scope (position + 1) rest).map (value :: ·)
    | .error e => .error e
/-- The output fields so far, extended by the outputs of fields; a later output replaces an earlier one of
the same key. -/
def renderFields (scope : Scope) (position : Nat) (output : Fields Json) :
    List (String × Json) → Except Error (Fields Json)
  | [] => .ok output
  | (key, value) :: rest =>
    match dynamicName? key with
    | some name =>
      match evaluate (scope.at position) key value with
      | .ok result => renderFields scope (position + 1) (output.set name result) rest
      | .error e => .error e
    | none =>
      match render (scope.at position) value with
      | .ok result => renderFields scope (position + 1) (output.set key result) rest
      | .error e => .error e
end

mutual
/-- Every dynamic key with its expression, depth first. -/
def expressions : Json → List (String × Json)
  | .arr items => expressionsOfItems items
  | .obj fields => expressionsOfFields fields
  | _ => []
/-- The expressions of items, in order. -/
def expressionsOfItems : List Json → List (String × Json)
  | [] => []
  | item :: rest => expressions item ++ expressionsOfItems rest
/-- The expressions of fields, in order; what a dynamic key holds is not searched. -/
def expressionsOfFields : List (String × Json) → List (String × Json)
  | [] => []
  | (key, value) :: rest =>
    (if (dynamicName? key).isSome then [(key, value)] else expressions value)
      ++ expressionsOfFields rest
end

end Workflow.Template
