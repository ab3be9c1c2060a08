import Workflow.Json.Scan
import Workflow.Path.Basic
import Workflow.Text.Base64
import Workflow.Text.Blank

/-!
# `Workflow.Intrinsic.Basic` — intrinsic calls

An intrinsic call is a function name with arguments: literals, reference paths, and calls in turn.

Covers `IntrinsicError`, `Arg`, `IntrinsicCall`, `is_intrinsic` and `paths`.

## Contents
- `Intrinsic.Term` and `Intrinsic.Call`, and `Call.paths`, the path texts in a call.
- `Intrinsic.Flaw`, `Intrinsic.Misuse` and `Intrinsic.Error`: malformed texts, unfit arguments, and what
  an evaluation can fail with, each with its wording.
- `isIntrinsic`, which tells a call from a path.
-/

namespace Workflow.Intrinsic

/-! ## Calls -/

/-- An argument of a call. -/
inductive Term where
  | literal (value : Json)
  | path (text : String)
  | call (name : String) (arguments : List Term)
  deriving Inhabited

/-- A call of a named function. -/
structure Call where
  name : String
  arguments : List Term

mutual
/-- The path texts in an argument, from left to right. -/
def Term.paths : Term → List String
  | .literal _ => []
  | .path text => [text]
  | .call _ arguments => Term.pathsOf arguments
/-- The path texts in arguments, from left to right. -/
def Term.pathsOf : List Term → List String
  | [] => []
  | term :: rest => Term.paths term ++ Term.pathsOf rest
end

/-- The path texts in a call, from left to right. -/
def Call.paths (call : Call) : List String := Term.pathsOf call.arguments

/-- What every function name begins with. -/
def namespaceMark : List Char := ['S', 't', 'a', 't', 'e', 's', '.']

/-- Whether a text is meant as a call and not as a path. -/
def isIntrinsic (text : String) : Bool := namespaceMark.isPrefixOf (Text.trimStart text.toList)

/-! ## Errors -/

/-- Why a text is no call. -/
inductive Flaw where
  | expectedName | expectedParenthesis | expectedSeparator | expectedArgument
  | unterminatedString | danglingEscape | invalidNumber | trailingInput
  deriving DecidableEq, Repr

/-- The wording of a flaw. -/
def Flaw.message : Flaw → String
  | .expectedName => "expected a 'States.' function name"
  | .expectedParenthesis => "expected '('"
  | .expectedSeparator => "expected ',' or ')'"
  | .expectedArgument => "expected an argument"
  | .unterminatedString => "unterminated string literal"
  | .danglingEscape => "dangling escape"
  | .invalidNumber => "invalid number"
  | .trailingInput => "unexpected trailing input"

/-- Why a function yields no value for its arguments. -/
inductive Misuse where
  | arity (least most given : Nat)
  | noTemplate
  | notText (role : String)
  | notInteger (role : String)
  | notArray (role : String)
  | tooManyPlaceholders
  | tooManyArguments
  | notJson (error : Json.ReadError)
  | chunkSizeNotPositive
  | zeroStep
  | rangeTooLong (most : Nat)
  | outOfBounds (index : Int)
  | notBase64 (error : Text.Base64.Error)
  | notUtf8
  | unknownAlgorithm (name : String)
  | deepMerge
  | notObjects
  | emptyInterval
  | overflow
  /-- The function breaks off. -/
  | trapped (trap : Trap)

/-- The wording of a misuse. -/
def Misuse.message : Misuse → String
  | .arity least most given =>
    "expected " ++ toString least ++ (if least = most then "" else " to " ++ toString most)
      ++ " arguments, got " ++ toString given
  | .noTemplate => "expected a template argument"
  | .notText role => role ++ " must be a string"
  | .notInteger role => role ++ " must be an integer"
  | .notArray role => role ++ " must be an array"
  | .tooManyPlaceholders => "more placeholders than arguments"
  | .tooManyArguments => "more arguments than placeholders"
  | .notJson error => error.message
  | .chunkSizeNotPositive => "chunk size must be positive"
  | .zeroStep => "step must not be zero"
  | .rangeTooLong most => "range exceeds " ++ toString most ++ " items"
  | .outOfBounds index => "index " ++ toString index ++ " is out of bounds"
  | .notBase64 error => error.message
  | .notUtf8 => "decoded data is not valid UTF-8"
  | .unknownAlgorithm name => "unsupported algorithm '" ++ name ++ "'"
  | .deepMerge => "only shallow merges (false) are supported"
  | .notObjects => "both arguments must be objects"
  | .emptyInterval => "start must be less than end"
  | .overflow => "integer overflow"
  | .trapped trap => trap.message

/-- What is wrong with an intrinsic text, or with its evaluation.  Offsets count characters. -/
inductive Error where
  | malformed (text : String) (flaw : Flaw) (offset : Nat)
  | unknownFunction (name : String)
  | misuse (name : String) (reason : Misuse)
  | path (error : Path.Error)

/-- The wording of an error. -/
def Error.message : Error → String
  | .malformed text flaw offset =>
    "invalid intrinsic expression '" ++ text ++ "': " ++ flaw.message ++ " at offset "
      ++ toString offset
  | .unknownFunction name => "unknown intrinsic function '" ++ name ++ "'"
  | .misuse name reason => name ++ ": " ++ reason.message
  | .path error => error.message

end Workflow.Intrinsic
