import Workflow.Choice.Glob
import Workflow.Choice.Rule
import Workflow.DataFlow
import Workflow.Time.Timestamp

/-!
# `Workflow.Choice.Eval` — deciding choices

A condition is evaluated against the effective input and the context object.  To compare values of the wrong
kind is no error, the comparison does not hold; a variable that does not resolve is one, unless the test
is whether it is present.

Covers `select_next`, `evaluate`, `compare`, `cmp_strings`, `cmp_numbers`, `cmp_timestamps` and `parse_timestamp`.

## Contents
- `Operator.holds`, the comparison of two values.
- `Comparison.eval` and `Condition.eval`.
- `choose`, the state to which the first rule that holds leads.
-/

namespace Workflow.Choice

/-- The order of two doubles neither of which is undefined. -/
def compareNumbers (a b : Float) : Option Ordering :=
  if a < b then some .lt else if a == b then some .eq else if b < a then some .gt else none

/-- Whether two values of one kind, if they are of it, compare as a relation demands. -/
def related {α : Type} (view : Json → Option α) (order : α → α → Option Ordering) (relation : Relation)
    (a b : Json) : Bool :=
  match view a, view b with
  | some a, some b => ((order a b).map relation.holds).getD false
  | _, _ => false

/-- The timestamp that a value is. -/
def timestamp? (value : Json) : Option Timestamp := value.text?.bind Timestamp.parse?

/-- Whether a value is of the kind for which a type test asks. -/
def Operator.isOfKind (operator : Operator) (value : Json) : Bool :=
  match operator with
  | .isNull => value.isNull
  | .isPresent => true
  | .isNumeric => value.number?.isSome
  | .isString => value.text?.isSome
  | .isBoolean => value.bool?.isSome
  | .isTimestamp => (timestamp? value).isSome
  | _ => false

/-- Whether a value compares with an operand as the operator demands. -/
def Operator.holds (operator : Operator) (value operand : Json) : Bool :=
  match operator with
  | .string relation => related Json.text? (fun a b => some (compare a b)) relation value operand
  | .stringMatches =>
    match value, operand with
    | .str text, .str pattern => Glob.accepts pattern text
    | _, _ => false
  | .numeric relation => related Json.number? compareNumbers relation value operand
  | .booleanEquals =>
    match value, operand with
    | .bool a, .bool b => a == b
    | _, _ => false
  | .timestamp relation =>
    related timestamp? (fun a b => some (a.compare b)) relation value operand
  | test => test.isOfKind value == operand.bool?.getD false

/-- The value of an operand. -/
def Operand.eval (operator : Operator) (data context : Json) : Operand → Except Fault Json
  | .literal value => .ok value
  | .path text =>
    (Path.resolve text data context).mapError fun e => .runtime (.path operator.pathKey e)

/-- Whether a comparison holds. -/
def Comparison.eval (data context : Json) (comparison : Comparison) : Except Fault Bool := do
  let value? ← match Path.resolve comparison.variable data context with
    | .ok value => pure (some value)
    | .error (.notFound _) => pure none
    | .error e => throw (.runtime (.malformedVariable e))
  let operand ← comparison.operand.eval comparison.operator data context
  match value? with
  | some value => return comparison.operator.holds value operand
  | none =>
    if comparison.operator = .isPresent then return operand == .bool false
    else throw (.runtime (.missingVariable comparison.variable))

mutual
/-- Whether a condition holds.  Conditions that do not matter any more are not evaluated. -/
def Condition.eval (data context : Json) : Condition → Except Fault Bool
  | .and conditions => Condition.evalAll data context conditions
  | .or conditions => Condition.evalAny data context conditions
  | .not condition => (Condition.eval data context condition).map (!·)
  | .compare comparison => comparison.eval data context
/-- Whether all conditions hold. -/
def Condition.evalAll (data context : Json) : List Condition → Except Fault Bool
  | [] => .ok true
  | condition :: rest =>
    match Condition.eval data context condition with
    | .ok true => Condition.evalAll data context rest
    | other => other
/-- Whether some condition holds. -/
def Condition.evalAny (data context : Json) : List Condition → Except Fault Bool
  | [] => .ok false
  | condition :: rest =>
    match Condition.eval data context condition with
    | .ok false => Condition.evalAny data context rest
    | other => other
end

/-- The state to which the first rule that holds leads, or else the default. -/
def choose (default : Option String) (data context : Json) : List Rule → Except Fault String
  | [] =>
    match default with
    | some state => .ok state
    | none => .error (.new Fault.Name.noChoiceMatched .noChoiceMatched)
  | rule :: rest =>
    match rule.condition.eval data context with
    | .ok true =>
      match rule.next with
      | some state => .ok state
      | none => .error (.runtime .ruleWithoutNext)
    | .ok false => choose default data context rest
    | .error fault => .error fault

end Workflow.Choice
