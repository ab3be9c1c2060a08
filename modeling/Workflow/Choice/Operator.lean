import Workflow.Json.Basic

/-!
# `Workflow.Choice.Operator` — comparison operators

A choice rule compares a value with an operand by one of these operators.  Each has a key under which it
stands in a rule, and most have a second key for an operand that is given by a path.

Covers `ComparisonOperator`, `from_key`, `is_type_test`, `accepts_path` and `check_literal`.

## Contents
- `Operator`, `Operator.key`, and `Operator.ofKey?`.
- `Operator.Operand`, what an operator can be compared with, and `Operand.admits`.
-/

namespace Workflow.Choice

/-- A relation between two ordered values. -/
inductive Relation where
  | equals | lessThan | greaterThan | lessThanEquals | greaterThanEquals
  deriving DecidableEq, Repr

namespace Relation

def name : Relation → String
  | .equals => "Equals"
  | .lessThan => "LessThan"
  | .greaterThan => "GreaterThan"
  | .lessThanEquals => "LessThanEquals"
  | .greaterThanEquals => "GreaterThanEquals"

def all : List Relation := [.equals, .lessThan, .greaterThan, .lessThanEquals, .greaterThanEquals]

/-- Whether the relation holds between values that compare in the given way. -/
def holds : Relation → Ordering → Bool
  | .equals, o => o == .eq
  | .lessThan, o => o == .lt
  | .greaterThan, o => o == .gt
  | .lessThanEquals, o => o != .gt
  | .greaterThanEquals, o => o != .lt

end Relation

/-- A comparison operator. -/
inductive Operator where
  | string (relation : Relation)
  | stringMatches
  | numeric (relation : Relation)
  | booleanEquals
  | timestamp (relation : Relation)
  | isNull | isPresent | isNumeric | isString | isBoolean | isTimestamp
  deriving DecidableEq, Repr

namespace Operator

/-- The key of an operator. -/
def key : Operator → String
  | .string relation => "String" ++ relation.name
  | .stringMatches => "StringMatches"
  | .numeric relation => "Numeric" ++ relation.name
  | .booleanEquals => "BooleanEquals"
  | .timestamp relation => "Timestamp" ++ relation.name
  | .isNull => "IsNull"
  | .isPresent => "IsPresent"
  | .isNumeric => "IsNumeric"
  | .isString => "IsString"
  | .isBoolean => "IsBoolean"
  | .isTimestamp => "IsTimestamp"

/-- Every operator. -/
def all : List Operator :=
  Relation.all.map .string ++ [.stringMatches] ++ Relation.all.map .numeric ++ [.booleanEquals]
    ++ Relation.all.map .timestamp
    ++ [.isNull, .isPresent, .isNumeric, .isString, .isBoolean, .isTimestamp]

/-- Type tests look at the variable only; their operand is a boolean. -/
def isTypeTest : Operator → Bool
  | .isNull | .isPresent | .isNumeric | .isString | .isBoolean | .isTimestamp => true
  | _ => false

/-- Whether the operand can be given by a path. -/
def acceptsPath (operator : Operator) : Bool := !operator.isTypeTest && operator != .stringMatches

/-- The key of an operator whose operand is given by a path. -/
def pathKey (operator : Operator) : String := operator.key ++ "Path"

/-- The operator of a key, and whether the key is the one for a path. -/
def ofKey? (key : String) : Option (Operator × Bool) :=
  match all.find? (·.key == key) with
  | some operator => some (operator, false)
  | none => (all.find? fun o => o.acceptsPath && o.pathKey == key).map (·, true)

/-- The kind of literal that an operator compares with. -/
inductive Operand where
  | text | number | boolean
  deriving DecidableEq, Repr

/-- The wording of a kind. -/
def Operand.message : Operand → String
  | .text => "a string"
  | .number => "a number"
  | .boolean => "a boolean"

/-- The kind of literal that the operator compares with. -/
def operand : Operator → Operand
  | .string _ | .stringMatches | .timestamp _ => .text
  | .numeric _ => .number
  | _ => .boolean

/-- Whether a literal is of a kind. -/
def Operand.admits : Operand → Json → Bool
  | .text, .str _ => true
  | .number, .int _ | .number, .float _ => true
  | .boolean, .bool _ => true
  | _, _ => false

end Operator

end Workflow.Choice
