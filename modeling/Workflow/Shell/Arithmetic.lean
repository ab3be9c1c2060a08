import Workflow.Json.Basic
import Workflow.Text.Scanner

/-!
# `Workflow.Shell.Arithmetic` — whole numbers in scripts

Expressions over integers of 64 bits, which wrap around.  A name stands for the number that its value is written as,
and for zero where it has none.

## Contents
- `Expression`, and `Expression.ofText`.
- `Expression.eval`, and `Arithmetic.value`, the value of a text.
-/

namespace Workflow.Shell.Arithmetic

open Text Text.Scanner

/-! ## Expressions -/

/-- An expression. -/
inductive Expression where
  | number (value : Int)
  | named (key : String)
  | unary (operator : String) (operand : Expression)
  | binary (operator : String) (left right : Expression)
  | choose (condition yes no : Expression)
  /-- Sets a name, maybe to what an operator makes of its value and another one. -/
  | assign (name : String) (operator : Option String) (value : Expression)

/-- Why a text has no value. -/
inductive Error where
  | noPrimary
  | noEnd
  | noColon
  | divisionByZero
  /-- A value is written as no number. -/
  | illegalNumber (text : String)
  deriving DecidableEq, Repr

/-- The wording of an error with the expression that has it. -/
def Error.message (expression : String) : Error → String
  | .illegalNumber text => "Illegal number: " ++ text
  | error =>
    let cause := match error with
      | .noPrimary => "expecting primary"
      | .noEnd => "expecting EOF"
      | .noColon => "expecting ':'"
      | _ => "division by zero"
    "arithmetic expression: " ++ cause ++ ": \"" ++ expression ++ "\""

/-! ## Numbers -/

/-- An integer of 64 bits. -/
def wrap (value : Int) : Int := Int.bmod value (Nat.pow 2 64)

/-- The value of a digit in a base. -/
def digit? (base : Nat) (c : Char) : Option Nat :=
  let value :=
    if c.isDigit then some (c.toNat - '0'.toNat)
    else if 'a' ≤ c ∧ c ≤ 'f' then some (c.toNat - 'a'.toNat + 10)
    else if 'A' ≤ c ∧ c ≤ 'F' then some (c.toNat - 'A'.toNat + 10)
    else none
  value.filter (· < base)

/-- The number in digits of a base. -/
def ofDigits? (base : Nat) (cs : List Char) : Option Nat :=
  if cs.isEmpty then none
  else cs.foldlM (fun value c => (digit? base c).map (value * base + ·)) 0

/-- The number without a sign that a text denotes: in base sixteen, eight or ten, as its beginning tells. -/
def natural? : List Char → Option Nat
  | '0' :: 'x' :: cs | '0' :: 'X' :: cs => ofDigits? 16 cs
  | '0' :: c :: cs => ofDigits? 8 (c :: cs)
  | cs => ofDigits? 10 cs

/-- The number that a text denotes, with a sign and blanks around it, given what digits denote. -/
def signed? (natural? : List Char → Option Nat) (text : String) : Option Int :=
  let isBlank (c : Char) : Bool := c = ' ' || c = '\t' || c = '\n'
  let cs := ((text.toList.dropWhile isBlank).reverse.dropWhile isBlank).reverse
  match cs with
  | '-' :: cs => (natural? cs).map fun n => -(n : Int)
  | '+' :: cs => (natural? cs).map Int.ofNat
  | cs => (natural? cs).map Int.ofNat

/-- The number that a text denotes. -/
def integer? : String → Option Int := signed? natural?

/-- The number that a text denotes in base ten. -/
def decimal? : String → Option Int := signed? (ofDigits? 10)

/-! ## Reading -/

/-- The binary operators by level, weakest first. -/
def levels : List (List String) :=
  [["||"], ["&&"], ["|"], ["^"], ["&"], ["==", "!="], ["<=", ">=", "<", ">"], ["<<", ">>"], ["+", "-"],
    ["*", "/", "%"]]

/-- The operators in front of an operand. -/
def unaryOperators : List String := ["-", "+", "!", "~"]

/-- The operators that can stand in front of the mark of a setting. -/
def settingOperators : List String := ["<<", ">>", "+", "-", "*", "/", "%", "&", "^", "|"]

/-- The marks, where one begins like another the longer one first. -/
def marks : List String :=
  settingOperators.map (· ++ "=")
    ++ ["||", "&&", "==", "!=", "<=", ">=", "<<", ">>", "+", "-", "*", "/", "%", "<", ">", "=", "!", "~", "&",
      "^", "|", "?", ":", "(", ")"]

/-- A token of an expression. -/
inductive Token where
  | number (value : Nat)
  | named (key : String)
  | mark (mark : String)
  deriving DecidableEq, Repr

/-- Takes a token. -/
def token : Scanner Token := do
  let _ ← run fun c => c = ' ' || c = '\t' || c = '\n'
  let isWordChar (c : Char) : Bool := c.isAlphanum || c = '_'
  let written : Scanner Token := do
    if ((← peek).map Char.isDigit).getD false then
      let digits (base : Nat) (cs : List Char) : Scanner Token := do
        return .number ((ofDigits? base cs).getD 0)
      let octal (c : Char) : Bool := '0' ≤ c && c ≤ '7'
      (word ['0', 'x'] <|> word ['0', 'X']) *> run1 (fun c => (digit? 16 c).isSome) >>= digits 16
        <|> (do if (← peek) = some '0' then digits 8 (← run octal) else failure)
        <|> run1 Char.isDigit >>= digits 10
    else return .named (String.ofList (← run1 isWordChar))
  let mark : Scanner Token := fun cs =>
    (marks.find? fun m => m.toList.isPrefixOf cs).map fun m => (.mark m, cs.drop m.length)
  written <|> mark

/-- The tokens of a text, unless something in it is none. -/
def tokens? (text : String) : Option (List Token) :=
  ((many token <* run fun c => c = ' ' || c = '\t' || c = '\n') text.toList).bind fun (tokens, rest) =>
    if rest.isEmpty then some tokens else none

/-- A reader of expressions. -/
abbrev ReadM := StateT (List Token) (Except Error)

/-- The operator among some that comes next. -/
def operatorOf (operators : List String) : ReadM (Option String) := do
  match ← get with
  | .mark mark :: rest =>
    if operators.contains mark then
      set rest
      return some mark
    else return none
  | _ => return none

/-- Reads the operands that follow one on a level. -/
def moreOf (operators : List String) (operand : ReadM Expression) :
    Nat → Expression → ReadM Expression
  | 0, left => return left
  | steps + 1, left => do
    match ← operatorOf operators with
    | none => return left
    | some operator => moreOf operators operand steps (.binary operator left (← operand))

/-- Reads an expression of the given levels, whose operands are read as told. -/
def ofLevels (operand : ReadM Expression) : List (List String) → ReadM Expression
  | [] => operand
  | operators :: stronger => do
    let left ← ofLevels operand stronger
    moreOf operators (ofLevels operand stronger) (← get).length left

/-- Reads an expression in which at most the given number of expressions are nested. -/
def expression : Nat → ReadM Expression
  | 0 => throw .noPrimary
  | depth + 1 => do
    let inner := expression depth
    let rec operand : Nat → ReadM Expression
      | 0 => throw .noPrimary
      | steps + 1 => do
        match ← get with
        | .number value :: rest =>
          set rest
          return .number value
        | .named name :: rest =>
          set rest
          return .named name
        | .mark "(" :: rest =>
          set rest
          let value ← inner
          match ← get with
          | .mark ")" :: rest =>
            set rest
            return value
          | _ => throw .noPrimary
        | .mark mark :: rest =>
          if unaryOperators.contains mark then
            set rest
            return .unary mark (← operand steps)
          else throw .noPrimary
        | [] => throw .noPrimary
    match ← get with
    | .named name :: .mark mark :: rest =>
      if mark = "=" then
        set rest
        return .assign name none (← inner)
      match settingOperators.find? fun operator => operator ++ "=" = mark with
      | some operator =>
        set rest
        return .assign name (some operator) (← inner)
      | none => pure ()
    | _ => pure ()
    let condition ← ofLevels (operand ((← get).length + 1)) levels
    match ← operatorOf ["?"] with
    | none => return condition
    | some _ =>
      let yes ← inner
      match ← operatorOf [":"] with
      | none => throw .noColon
      | some _ => return .choose condition yes (← inner)

/-- The expression that a text is; an empty one is zero. -/
def Expression.ofText (text : String) : Except Error Expression :=
  match tokens? text with
  | none => .error .noPrimary
  | some [] => .ok (.number 0)
  | some tokens =>
    match expression (tokens.length + 1) tokens with
    | .error error => .error error
    | .ok (value, []) => .ok value
    | .ok (_, _ :: _) => .error .noEnd

/-! ## Values -/

/-- The number that stands for a truth value. -/
def ofBool (value : Bool) : Int := if value then 1 else 0

/-- What an operator in front of an operand makes of it. -/
def applyUnary (operator : String) (a : Int) : Int :=
  match operator with
  | "-" => wrap (-a)
  | "!" => ofBool (a == 0)
  | "~" => -a - 1
  | _ => a

/-- What a binary operator makes of operands both of which are needed. -/
def applyBinary (operator : String) (a b : Int) : Except Error Int :=
  let bits (f : UInt64 → UInt64 → UInt64) : Int :=
    wrap (f (UInt64.ofInt a) (UInt64.ofInt b)).toNat
  match operator with
  | "+" => .ok (wrap (a + b))
  | "-" => .ok (wrap (a - b))
  | "*" => .ok (wrap (a * b))
  | "/" => if b = 0 then .error .divisionByZero else .ok (wrap (Int.tdiv a b))
  | "%" => if b = 0 then .error .divisionByZero else .ok (wrap (Int.tmod a b))
  | "<<" => .ok (wrap (a * Nat.pow 2 (Int.emod b 64).toNat))
  | ">>" => .ok (Int.fdiv a (Nat.pow 2 (Int.emod b 64).toNat))
  | "<" => .ok (ofBool (a < b))
  | "<=" => .ok (ofBool (a ≤ b))
  | ">" => .ok (ofBool (b < a))
  | ">=" => .ok (ofBool (b ≤ a))
  | "==" => .ok (ofBool (a == b))
  | "!=" => .ok (ofBool (a != b))
  | "&" => .ok (bits (· &&& ·))
  | "^" => .ok (bits (· ^^^ ·))
  | "|" => .ok (bits (· ||| ·))
  | _ => .error .noEnd

/-- The number that a name stands for. -/
def valueOf (bindings : Fields String) (name : String) : Except Error Int :=
  match Fields.find? bindings name with
  | none | some "" => .ok 0
  | some text =>
    match integer? text with
    | some value => .ok (wrap value)
    | none => .error (.illegalNumber text)

/-- The value of an expression, and the values of names after that. -/
def Expression.eval (bindings : Fields String) : Expression → Except Error (Int × Fields String)
  | .number value => .ok (wrap value, bindings)
  | .named name => do return (← valueOf bindings name, bindings)
  | .unary operator operand => do
    let (a, bindings) ← operand.eval bindings
    return (applyUnary operator a, bindings)
  | .binary operator left right => do
    let (a, bindings) ← left.eval bindings
    -- The right operand counts only where the left one does not decide.
    if operator = "&&" ∧ a = 0 then return (0, bindings)
    if operator = "||" ∧ a ≠ 0 then return (1, bindings)
    let (b, bindings) ← right.eval bindings
    if operator = "&&" ∨ operator = "||" then return (ofBool (b != 0), bindings)
    return (← applyBinary operator a b, bindings)
  | .choose condition yes no => do
    let (a, bindings) ← condition.eval bindings
    if a ≠ 0 then yes.eval bindings else no.eval bindings
  | .assign name operator value => do
    let (b, bindings) ← value.eval bindings
    let result ← match operator with
      | none => pure b
      | some operator => applyBinary operator (← valueOf bindings name) b
    return (result, Fields.set bindings name (toString result))

/-- The value of a text, and the values of names after that. -/
def value (bindings : Fields String) (text : String) : Except Error (Int × Fields String) := do
  (← Expression.ofText text).eval bindings

end Workflow.Shell.Arithmetic
