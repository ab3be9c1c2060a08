import Workflow.Json.Basic
import Workflow.Trap

/-!
# `Workflow.Path.Basic` — reference paths

A reference path addresses values inside a document.  Its root says in which document, the state's data
or the context object, and its steps lead from there through fields and items.  A wildcard step leads to
all of them at once.

Covers `PathError`, `PathRoot`, `Segment`, `ReferencePath` and `is_definite`.

## Contents
- `Path`, `Path.Root`, `Path.Step`, and `Path.Definite`, "addresses at most one value".
- The causes for which a path text is refused (`Path.Flaw`) or cannot be written to (`Path.Refusal`), and
  `Path.Error`, which names the text at fault, each with its wording.
-/

namespace Workflow

namespace Path

/-- The document in which a path starts. -/
inductive Root where
  /-- The value being processed, written as one dollar sign. -/
  | data
  /-- The context object, written as two dollar signs. -/
  | context
  deriving DecidableEq, Repr

/-- One step of a path. -/
inductive Step where
  | field (name : String)
  | index (position : Nat)
  /-- Every field or item of a value. -/
  | wildcard
  deriving DecidableEq, Repr

end Path

/-- A reference path. -/
structure Path where
  root : Path.Root
  steps : List Path.Step
  deriving DecidableEq, Repr

namespace Path

/-- The path addresses at most one value: it has no wildcard. -/
def Definite (path : Path) : Prop := Step.wildcard ∉ path.steps

instance (path : Path) : Decidable path.Definite := inferInstanceAs (Decidable (_ ∉ _))

/-- The path can be written to: it addresses one place in the data. -/
def Writable (path : Path) : Prop := path.Definite ∧ path.root = .data

instance (path : Path) : Decidable path.Writable := inferInstanceAs (Decidable (_ ∧ _))

/-! ## Errors -/

/-- Why a text is no path. -/
inductive Flaw where
  | noRoot | trailingDot | recursiveDescent | unterminatedField | danglingEscape
  | indexOutOfRange | filter | expectedStep | expectedBracket
  | unexpected (found : Char)
  deriving DecidableEq, Repr

/-- The wording of a flaw. -/
def Flaw.message : Flaw → String
  | .noRoot => "must start with '$'"
  | .trailingDot => "trailing '.'"
  | .recursiveDescent => "recursive descent is not supported"
  | .unterminatedField => "unterminated quoted field"
  | .danglingEscape => "dangling escape"
  | .indexOutOfRange => "array index out of range"
  | .filter => "filter expressions are not supported"
  | .expectedStep => "expected field name, index or '*' after '['"
  | .expectedBracket => "expected ']'"
  | .unexpected found => "unexpected character '" ++ found.toString ++ "'"

/-- Why a place cannot be written to. -/
inductive Refusal where
  | contextIsReadOnly
  | wildcardStep
  | fieldOfNonObject (name : String)
  | indexOfNonArray (position : Nat)
  | notWritable
  deriving DecidableEq, Repr

/-- The wording of a refusal. -/
def Refusal.message : Refusal → String
  | .contextIsReadOnly => "the context object is read-only"
  | .wildcardStep => "wildcards cannot be written to"
  | .fieldOfNonObject name => "cannot set field '" ++ name ++ "' on a non-object"
  | .indexOfNonArray position => "cannot set index " ++ toString position ++ " on a non-array"
  | .notWritable => "must be a definite data path"

/-- What is wrong with a path text, or with its use on a document. -/
inductive Error where
  | malformed (text : String) (flaw : Flaw)
  | notFound (text : String)
  | refused (text : String) (refusal : Refusal)
  /-- A write breaks off. -/
  | trapped (trap : Trap)
  deriving DecidableEq, Repr

/-- The wording of an error. -/
def Error.message : Error → String
  | .malformed text flaw => "invalid path '" ++ text ++ "': " ++ flaw.message
  | .notFound text => "path '" ++ text ++ "' could not be found in the input"
  | .refused text refusal => "cannot write to path '" ++ text ++ "': " ++ refusal.message
  | .trapped trap => trap.message

end Path

end Workflow
