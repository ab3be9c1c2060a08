import Workflow.Shell.Arithmetic
import Workflow.Shell.State

/-!
# `Workflow.Shell.Test` — conditions on texts, numbers and files

The words of a condition can also be taken for operators, so what a word is depends on those that follow it.

## Contents
- `Test.Error`, and `Test.Kind`, what a word is.
- `primary`, `negation`, `chain` and `expression`, the levels of conditions.
- `Test.holds`, the truth of a condition.
-/

namespace Workflow.Shell.Test

/-- Why a condition is neither true nor false. -/
inductive Error where
  | unexpectedOperator (word : String)
  | argumentExpected (operator : String)
  | closingExpected
  | illegalNumber (text : String)
  deriving DecidableEq, Repr

/-- The wording of an error. -/
def Error.message : Error → String
  | .unexpectedOperator word => word ++ ": unexpected operator"
  | .argumentExpected operator => operator ++ ": argument expected"
  | .closingExpected => "closing paren expected"
  | .illegalNumber text => "Illegal number: " ++ text

/-! ## Words -/

/-- What a word is. -/
inductive Kind where
  | nothing
  | operand
  | unary (operator : String)
  | binary (operator : String)
  | not
  | both
  | either
  | opening
  | closing
  deriving DecidableEq, Repr

/-- The operators in front of a word. -/
def unaryOperators : List String :=
  ["-z", "-n", "-e", "-f", "-d", "-r", "-w", "-x", "-s", "-t", "-b", "-c", "-g", "-h", "-k", "-p", "-u", "-G",
    "-L", "-O", "-S"]

/-- The operators between two words. -/
def binaryOperators : List String :=
  ["=", "!=", "<", ">", "-eq", "-ne", "-lt", "-le", "-gt", "-ge", "-nt", "-ot", "-ef"]

/-- Whether a word is an operator between two words. -/
def isBinary (word : String) : Bool := binaryOperators.contains word

/-- Whether a word that could be an operator is none because of the words that follow it. -/
def standsAlone : List String → Bool
  | [] => true
  | [_] => false
  | next :: _ => isBinary next

/-- What the first word is. -/
def kindOf : List String → Kind
  | [] => .nothing
  | word :: rest =>
    if unaryOperators.contains word then if standsAlone rest then .operand else .unary word
    else if isBinary word then .binary word
    else if word = "!" then .not
    else if word = "-a" then .both
    else if word = "-o" then .either
    else if word = "(" then if rest.isEmpty then .operand else .opening
    else if word = ")" then .closing
    else .operand

/-! ## Operators -/

/-- The number that a word is. -/
def number (word : String) : Except Error Int :=
  match Arithmetic.decimal? word with
  | some value => .ok value
  | none => .error (.illegalNumber word)

/-- The truth of an operator in front of a word. -/
def applyUnary (s : Shell) (operator word : String) : Bool :=
  let isDirectory := ["", "."].contains (pathOf word) && !word.isEmpty
  match operator with
  | "-z" => word.isEmpty
  | "-n" => !word.isEmpty
  | "-f" => (s.file? word).isSome
  | "-d" => isDirectory
  | "-e" | "-r" | "-w" => (s.file? word).isSome || isDirectory
  | "-x" => ((s.file? word).map (·.isProgram)).getD isDirectory
  | "-s" => ((s.file? word).map (!·.text.isEmpty)).getD isDirectory
  | _ => false

/-- The truth of an operator between two words. -/
def applyBinary (operator a b : String) : Except Error Bool :=
  let compare (test : Int → Int → Bool) : Except Error Bool := do
    let a ← number a
    return test a (← number b)
  match operator with
  | "=" => .ok (a == b)
  | "!=" => .ok (a != b)
  | "<" => .ok (a < b)
  | ">" => .ok (b < a)
  | "-eq" => compare (· == ·)
  | "-ne" => compare (· != ·)
  | "-lt" => compare (· < ·)
  | "-le" => compare (· ≤ ·)
  | "-gt" => compare (· > ·)
  | "-ge" => compare (· ≥ ·)
  | _ => .ok false

/-! ## Levels -/

/-- The truth of a condition, and the words from its last one on. -/
abbrev Judged := Except Error (Bool × List String)

/-- The truth of a condition without operators that combine conditions, but with parentheses around others. -/
def primary (s : Shell) (inner : List String → Judged) (words : List String) : Judged := do
  let rest := words.drop 1
  match kindOf words with
  | .nothing => return (false, words)
  | .opening =>
    if kindOf rest = .closing then return (false, rest)
    let (answer, last) ← inner rest
    if kindOf (last.drop 1) = .closing then return (answer, last.drop 1) else throw .closingExpected
  | .unary operator =>
    match rest with
    | [] => throw (.argumentExpected operator)
    | word :: _ => return (applyUnary s operator word, rest)
  | _ =>
    let word := words.head?.getD ""
    match kindOf rest, rest.drop 1 with
    | .binary operator, [] => throw (.argumentExpected operator)
    | .binary operator, other :: after => return (← applyBinary operator word other, other :: after)
    | _, _ => return (!word.isEmpty, words)

/-- The truth of a condition after any number of negations. -/
def negation (operand : List String → Judged) : List String → Judged
  | "!" :: next :: rest => do
    let (answer, last) ← negation operand (next :: rest)
    return (!answer, last)
  | ["!"] => return (true, ["!"])
  | words => operand words

/-- The truth of conditions between which a mark stands. -/
def chain (mark : Kind) (combine : Bool → Bool → Bool) (operand : List String → Judged) :
    Nat → List String → Judged
  | 0, words => operand words
  | steps + 1, words => do
    let (answer, last) ← operand words
    if kindOf (last.drop 1) = mark then
      let (other, last) ← chain mark combine operand steps (last.drop 2)
      return (combine answer other, last)
    else return (answer, last)

/-- The truth of a condition in which at most as many others are nested as told. -/
def expression (s : Shell) : Nat → List String → Judged
  | 0, words => .ok (false, words)
  | depth + 1, words =>
    let conjunction (words : List String) : Judged :=
      chain .both and (negation (primary s (expression s depth))) words.length words
    chain .either or conjunction words.length words

/-- The truth of a condition. -/
def holds (s : Shell) (words : List String) : Except Error Bool := do
  let general (words : List String) : Except Error Bool := do
    let (answer, last) ← expression s (words.length + 1) words
    match last with
    | word :: _ :: _ => throw (.unexpectedOperator word)
    | _ => return answer
  match words with
  | [] => return false
  | [a, operator, b] => if isBinary operator then applyBinary operator a b else general words
  | words => general words

end Workflow.Shell.Test
