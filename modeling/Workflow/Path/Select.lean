import Workflow.Path.Basic

/-!
# `Workflow.Path.Select` — reading through a path

A definite path selects the one value it addresses, if there is one.  A path with a wildcard selects the
array of all values it reaches, which may be empty.

Covers `select` and `collect_matches`.

## Contents
- `child?`, the value one step further, and `walk?`, along definite steps.
- `walkAll`, the values that steps with wildcards reach, in document order.
- `Path.select?`, which chooses between the two.
-/

namespace Workflow.Path

/-- The value that one definite step leads to. -/
def child? : Step → Json → Option Json
  | .field name, value => value.field? name
  | .index position, value => value.item? position
  | .wildcard, _ => none

/-- The value that definite steps lead to. -/
def walk? : List Step → Json → Option Json
  | [], value => some value
  | step :: rest, value => (child? step value).bind (walk? rest)

/-- The values that one step leads to, fields in the order of their keys. -/
def children : Step → Json → List Json
  | .wildcard, .obj fields => fields.map Prod.snd
  | .wildcard, .arr items => items
  | step, value => (child? step value).toList

/-- The values that steps lead to, in document order. -/
def walkAll : List Step → Json → List Json
  | [], value => [value]
  | step :: rest, value => (children step value).flatMap (walkAll rest)

/-- The value that a path selects in a document. -/
def select? (path : Path) (document : Json) : Option Json :=
  if path.Definite then walk? path.steps document
  else some (.arr (walkAll path.steps document))

end Workflow.Path
