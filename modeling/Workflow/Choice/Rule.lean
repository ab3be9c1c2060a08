import Workflow.Choice.Operator

/-!
# `Workflow.Choice.Rule` — choice rules

A choice rule is an object: a condition, the state to go to when it holds, and a comment.  A condition
compares a variable with an operand, or combines conditions.

Covers `ChoiceRuleError`, `Condition`, `parse`, `parse_list` and `to_map`.

## Contents
- `Condition` and `Rule`.
- `Rule.Error`, why an object is no rule, with its wording.
- `Condition.parse`, `Rule.parse`, and back: `Condition.fields`, `Rule.toJson`.
-/

namespace Workflow.Choice

/-- What a variable is compared with. -/
inductive Operand where
  | literal (value : Json)
  /-- A path that is resolved when the condition is evaluated. -/
  | path (text : String)

/-- One test of a variable. -/
structure Comparison where
  «variable» : String
  operator : Operator
  operand : Operand

/-- A condition. -/
inductive Condition where
  | and (conditions : List Condition)
  | or (conditions : List Condition)
  | not (condition : Condition)
  | compare (comparison : Comparison)

/-- A choice rule. -/
structure Rule where
  condition : Condition
  /-- The state to go to; only the rules of a choice state have one. -/
  next : Option String
  comment : Option String

/-! ## Errors -/

/-- Why a value is no choice rule. -/
inductive Rule.Error where
  | notObject
  | missingVariable
  | missingOperator
  | multipleOperators (keys : List String)
  | notConditions (key : String)
  | notCondition (key : String)
  | notPath (key : String)
  | notLiteral (key : String) (expected : Operator.Operand)
  deriving DecidableEq, Repr

/-- The wording of an error. -/
def Rule.Error.message : Rule.Error → String
  | .notObject => "choice rule must be a JSON object"
  | .missingVariable => "choice rule is missing 'Variable'"
  | .missingOperator => "choice rule has no comparison operator"
  | .multipleOperators keys =>
    "choice rule has more than one comparison operator: " ++ ", ".intercalate keys
  | .notConditions key => "'" ++ key ++ "' expects an array of rules"
  | .notCondition key => "'" ++ key ++ "' expects an object"
  | .notPath key => "'" ++ key ++ "' expects a path string"
  | .notLiteral key expected => "'" ++ key ++ "' expects " ++ expected.message

/-! ## Reading -/

/-- The fields of an object whose keys are operators. -/
def operatorFields (fields : Fields Json) : List (String × Json × Operator × Bool) :=
  fields.filterMap fun (key, value) =>
    (Operator.ofKey? key).map fun (operator, path) => (key, value, operator, path)

/-- Reads a comparison from the fields of an object. -/
def Comparison.parse (fields : Fields Json) : Except Rule.Error Comparison :=
  match (fields.find? "Variable").bind Json.text? with
  | none => .error .missingVariable
  | some name =>
    match operatorFields fields with
    | [] => .error .missingOperator
    | [(key, value, operator, true)] =>
      match value with
      | .str text => .ok ⟨name, operator, .path text⟩
      | _ => .error (.notPath key)
    | [(key, value, operator, false)] =>
      if operator.operand.admits value then .ok ⟨name, operator, .literal value⟩
      else .error (.notLiteral key operator.operand)
    | several => .error (.multipleOperators (several.map (·.1)))

mutual
/-- Reads a condition from a value. -/
def Condition.parse : Json → Except Rule.Error Condition
  | .obj fields =>
    match Condition.parseFirst "And" fields with
    | some (.ok conditions) => .ok (.and conditions)
    | some (.error e) => .error e
    | none =>
      match Condition.parseFirst "Or" fields with
      | some (.ok conditions) => .ok (.or conditions)
      | some (.error e) => .error e
      | none =>
        match Condition.parseNot fields with
        | some (.ok condition) => .ok (.not condition)
        | some (.error e) => .error e
        | none => (Comparison.parse fields).map .compare
  | _ => .error .notObject
/-- Reads the conditions under a key, if the key is there. -/
def Condition.parseFirst (key : String) :
    List (String × Json) → Option (Except Rule.Error (List Condition))
  | [] => none
  | (k, value) :: rest =>
    if k = key then
      match value with
      | .arr items => some (Condition.parseAll items)
      | _ => some (.error (.notConditions key))
    else Condition.parseFirst key rest
/-- Reads the negated condition, if there is one. -/
def Condition.parseNot : List (String × Json) → Option (Except Rule.Error Condition)
  | [] => none
  | (k, value) :: rest =>
    if k = "Not" then
      match value with
      | .obj fields => some (Condition.parse (.obj fields))
      | _ => some (.error (.notCondition "Not"))
    else Condition.parseNot rest
/-- Reads conditions, up to the first that is none. -/
def Condition.parseAll : List Json → Except Rule.Error (List Condition)
  | [] => .ok []
  | item :: rest =>
    match Condition.parse item with
    | .ok condition => (Condition.parseAll rest).map (condition :: ·)
    | .error e => .error e
end

/-- Reads a rule from a value. -/
def Rule.parse (value : Json) : Except Rule.Error Rule :=
  (Condition.parse value).map fun condition =>
    { condition
      next := (value.field? "Next").bind Json.text?
      comment := (value.field? "Comment").bind Json.text? }

/-! ## Writing -/

/-- The fields of a comparison. -/
def Comparison.fields (comparison : Comparison) : List (String × Json) :=
  match comparison.operand with
  | .literal value => [("Variable", .str comparison.variable), (comparison.operator.key, value)]
  | .path text => [("Variable", .str comparison.variable), (comparison.operator.pathKey, .str text)]

mutual
/-- The fields of a condition. -/
def Condition.fields : Condition → List (String × Json)
  | .and conditions => [("And", .arr (Condition.objects conditions))]
  | .or conditions => [("Or", .arr (Condition.objects conditions))]
  | .not condition => [("Not", .object (Condition.fields condition))]
  | .compare comparison => comparison.fields
/-- The objects of conditions. -/
def Condition.objects : List Condition → List Json
  | [] => []
  | condition :: rest => .object (Condition.fields condition) :: Condition.objects rest
end

/-- The object of a rule. -/
def Rule.toJson (rule : Rule) : Json :=
  .object (rule.condition.fields
    ++ (rule.next.map fun next => ("Next", Json.str next)).toList
    ++ (rule.comment.map fun comment => ("Comment", Json.str comment)).toList)

end Workflow.Choice
