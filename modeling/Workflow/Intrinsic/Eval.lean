import Workflow.Intrinsic.Function
import Workflow.Intrinsic.Parser
import Workflow.Path.Resolve

/-!
# `Workflow.Intrinsic.Eval` — evaluating calls

Arguments are evaluated from left to right before the function is looked up; the first that fails decides.

Covers `evaluate`.

## Contents
- `Scope`, what an expression can see.
- `evalTerm` and `evalTerms`, and `Intrinsic.evaluate` for a text.
-/

namespace Workflow

/-- What an expression can see: the data, the context object, and a chance of its own. -/
structure Scope where
  data : Json
  context : Json
  chance : Chance

/-- The scope of the part at a position. -/
def Scope.at (scope : Scope) (position : Nat) : Scope :=
  { scope with chance := scope.chance.at position }

namespace Intrinsic

/-- Applies the function of a name. -/
def applyName (name : String) (chance : Chance) (arguments : List Json) : Except Error Json :=
  match Function.ofName? name with
  | some f => (f.apply chance arguments).mapError (.misuse name)
  | none => .error (.unknownFunction name)

mutual
/-- The value of an argument. -/
def evalTerm (scope : Scope) : Term → Except Error Json
  | .literal value => .ok value
  | .path text => (Path.resolve text scope.data scope.context).mapError .path
  | .call name arguments =>
    match evalTerms scope 0 arguments with
    | .ok values => applyName name scope.chance values
    | .error e => .error e
/-- The values of arguments, the first of which is at the given position. -/
def evalTerms (scope : Scope) (position : Nat) : List Term → Except Error (List Json)
  | [] => .ok []
  | term :: rest =>
    match evalTerm (scope.at position) term with
    | .ok value => (evalTerms scope (position + 1) rest).map (value :: ·)
    | .error e => .error e
end

/-- The value of a call. -/
def Call.evaluate (scope : Scope) (call : Call) : Except Error Json :=
  evalTerm scope (.call call.name call.arguments)

/-- The value of the call that a text denotes. -/
def evaluate (scope : Scope) (text : String) : Except Error Json := do
  (← Call.parse text).evaluate scope

end Intrinsic

end Workflow
