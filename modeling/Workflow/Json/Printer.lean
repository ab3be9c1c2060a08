import Workflow.Json.Basic
import Workflow.Decimal.Layout

/-!
# `Workflow.Json.Printer` — JSON text

## Contents
- `Json.render`, which writes a value without blanks, its fields in their order.
- `Json.renderLines`, which gives every item and every field a line of its own.
-/

namespace Workflow.Json

/-- Doubles are positional from `0.00001` up to `1e16`, whole ones end in `.0`, and the exponent always
has a sign. -/
def floatLayout : Decimal.Layout where
  positionalFrom := -5
  positionalBelow := 16
  wholeSuffix := ".0"
  exponentMark := "e"
  plus := "+"

/-- A double as its shortest digits. -/
def renderFloat (x : Float) : String :=
  let digits := (Decimal.shortest x).render floatLayout
  if x.toBits.toNat < Nat.pow 2 63 then digits else "-" ++ digits

/-- Appends one character of a string: quotes and backslashes are escaped, and control characters have
a short escape or else four hexadecimal digits. -/
def pushEscaped (text : String) (c : Char) : String :=
  match c with
  | '"' => text ++ "\\\""
  | '\\' => text ++ "\\\\"
  | '\n' => text ++ "\\n"
  | '\r' => text ++ "\\r"
  | '\t' => text ++ "\\t"
  | '\x08' => text ++ "\\b"
  | '\x0c' => text ++ "\\f"
  | c =>
    if c.toNat < 32 then
      text ++ "\\u00" ++ String.ofList [Nat.digitChar (c.toNat / 16), Nat.digitChar (c.toNat % 16)]
    else text.push c

/-- A string in quotes. -/
def renderText (text : String) : String := (text.foldl pushEscaped "\"").push '"'

mutual
/-- The compact text of a value. -/
def render : Json → String
  | .null => "null"
  | .bool true => "true"
  | .bool false => "false"
  | .int value => toString value
  | .float value => renderFloat value
  | .str text => renderText text
  | .arr [] => "[]"
  | .arr (item :: rest) => "[" ++ render item ++ renderItems rest ++ "]"
  | .obj [] => "\x7b\x7d"
  | .obj ((key, value) :: rest) =>
    "\x7b" ++ renderText key ++ ":" ++ render value ++ renderFields rest ++ "\x7d"
/-- The further items of an array, each after a comma. -/
def renderItems : List Json → String
  | [] => ""
  | item :: rest => "," ++ render item ++ renderItems rest
/-- The further fields of an object, each after a comma. -/
def renderFields : List (String × Json) → String
  | [] => ""
  | (key, value) :: rest => "," ++ renderText key ++ ":" ++ render value ++ renderFields rest
end

/-! ## Lines -/

/-- The line break before something at the given level, with two spaces for every level. -/
def lineBreak (level : Nat) : String := String.ofList ('\n' :: List.replicate (2 * level) ' ')

mutual
/-- The text of a value that stands at the given level; what is empty stays on one line. -/
def renderAt (level : Nat) : Json → String
  | .arr (item :: rest) =>
    "[" ++ lineBreak (level + 1) ++ renderAt (level + 1) item ++ renderItemsAt (level + 1) rest
      ++ lineBreak level ++ "]"
  | .obj ((key, value) :: rest) =>
    "\x7b" ++ lineBreak (level + 1) ++ renderText key ++ ": " ++ renderAt (level + 1) value
      ++ renderFieldsAt (level + 1) rest ++ lineBreak level ++ "\x7d"
  | other => render other
/-- The further items of an array, each after a comma. -/
def renderItemsAt (level : Nat) : List Json → String
  | [] => ""
  | item :: rest => "," ++ lineBreak level ++ renderAt level item ++ renderItemsAt level rest
/-- The further fields of an object, each after a comma. -/
def renderFieldsAt (level : Nat) : List (String × Json) → String
  | [] => ""
  | (key, value) :: rest =>
    "," ++ lineBreak level ++ renderText key ++ ": " ++ renderAt level value
      ++ renderFieldsAt level rest
end

/-- The text of a value with every item and every field on a line of its own. -/
def renderLines (value : Json) : List String := (renderAt 0 value).splitOn "\n"

end Workflow.Json
