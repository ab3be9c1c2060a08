import Workflow.Datum.Basic
import Workflow.Decimal.Nearest
import Workflow.Yaml.Node

/-!
# `Workflow.Yaml.Resolution` — values of scalars

A plain scalar without a tag stands for null, a boolean or a number if it is written like one, and for its text
otherwise; in quotes or as a block text it always stands for its text.  A tag can ask for one of these values,
whatever the style.

## Contents
- `null?`, `flag?`, `int?` and `double?`, the readers of the single kinds.
- `plainValue?`, the value of a plain scalar, and `scalarValue?`, the value of any scalar.
-/

namespace Workflow.Yaml

open Text Text.Scanner

/-! ## Names -/

/-- The names of null. -/
def nulls : List String := ["~", "null", "Null", "NULL"]

/-- Null by one of its names. -/
def null? (text : String) : Option Unit := if text ∈ nulls then some () else none

/-- A boolean by one of its names. -/
def flag? (text : String) : Option Bool :=
  if text ∈ ["true", "True", "TRUE"] then some true
  else if text ∈ ["false", "False", "FALSE"] then some false
  else none

/-! ## Whole numbers -/

/-- The number that digits to a base denote. -/
def natOf? (base : Nat) (cs : List Char) : Option Nat :=
  if cs.isEmpty then none
  else cs.foldlM (fun n c => (hexValue? c).bind fun d => if d < base then some (n * base + d) else none) 0

/-- The base that a letter after a zero stands for. -/
def baseOf? : Char → Option Nat
  | 'x' => some 16
  | 'o' => some 8
  | 'b' => some 2
  | _ => none

/-- Whether decimal digits begin with a superfluous zero, so that they are no number. -/
def hasLeadingZero (cs : List Char) : Bool :=
  match cs with
  | '0' :: rest => !rest.isEmpty && rest.all Char.isDigit
  | _ => false

/-- The number that a text without a sign denotes. -/
def magnitude? (cs : List Char) : Option Nat :=
  let based :=
    match cs with
    | '0' :: letter :: digits => (baseOf? letter).bind (natOf? · digits)
    | _ => none
  based.or (if hasLeadingZero cs then none else natOf? 10 cs)

/-- The whole number that a text denotes. -/
def whole? : List Char → Option Int
  | '+' :: rest => (magnitude? rest).map fun n => n
  | '-' :: rest => (magnitude? rest).map fun n => -(n : Int)
  | cs => (magnitude? cs).map fun n => n

/-- The whole number that a text without a minus denotes. -/
def unsigned? : List Char → Option Int
  | '-' :: _ => none
  | cs => whole? cs

/-- Whole numbers of 64 bits, with or without sign. -/
def isWord (n : Int) : Bool := -9223372036854775808 ≤ n && n < 18446744073709551616

/-- Whole numbers of 128 bits, with or without sign. -/
def isDoubleWord (n : Int) : Bool :=
  -170141183460469231731687303715884105728 ≤ n && n < 340282366920938463463374607431768211456

/-! ## Doubles -/

/-- Scans a decimal number; the parts are its digits and the power of ten. -/
def decimal : Scanner (Nat × Int) := do
  let whole ← run Char.isDigit
  let places ← maybe (char '.' *> run Char.isDigit)
  let places := places.getD []
  if whole.isEmpty ∧ places.isEmpty then failure
  let power ← maybe do
    let _ ← one fun c => c = 'e' || c = 'E'
    let sign ← maybe (one fun c => c = '+' || c = '-')
    let digits ← run1 Char.isDigit
    let value := (natOf? 10 digits).getD 0
    return if sign = some '-' then -(value : Int) else value
  return ((natOf? 10 (whole ++ places)).getD 0, power.getD 0 - places.length)

/-- The finite double that a text without a sign denotes. -/
def finite? (cs : List Char) : Option Float := do
  let ((digits, power), _) ← (decimal <* atEnd) cs
  let value := Decimal.nearest digits power
  if value.isFinite then some value else none

/-- The names of the infinite number. -/
def infinities : List String := [".inf", ".Inf", ".INF"]

/-- A double that is not finite by one of its names. -/
def notFinite? (text : String) : Option Float :=
  if text ∈ infinities ∨ text ∈ infinities.map ("+" ++ ·) then some (1.0 / 0.0)
  else if text ∈ infinities.map ("-" ++ ·) then some (-1.0 / 0.0)
  else if text ∈ [".nan", ".NaN", ".NAN"] then some (0.0 / 0.0)
  else none

/-- The double that a text denotes. -/
def double? (text : String) : Option Float :=
  (notFinite? text).or <|
    match text.toList with
    | '+' :: rest => finite? rest
    | '-' :: rest => (finite? rest).map fun x => -x
    | cs => finite? cs

/-! ## Scalars -/

/-- The value of a whole number, which must fit 64 bits. -/
def word? (n : Int) : Option Datum := if isWord n then some (.int n) else none

/-- The value of a plain scalar.  A whole number that does not fit 64 bits is refused, but one that does not even
fit 128 is a double. -/
def plainValue? (text : String) : Option Datum :=
  let cs := text.toList
  let unsigned := match cs with
    | '+' :: rest | '-' :: rest => rest
    | cs => cs
  let other : Datum := if hasLeadingZero unsigned then .str text else ((double? text).map .float).getD (.str text)
  if text.isEmpty then some .null
  else match null? text, flag? text, whole? cs with
    | some (), _, _ => some .null
    | _, some value, _ => some (.bool value)
    | _, _, some n => if isDoubleWord n then word? n else some other
    | _, _, none => some other

/-- The tags of the kinds of scalars. -/
def kindTag (kind : String) : Tag := .ofText ("tag:yaml.org,2002:" ++ kind)

/-- Whether a tag belongs to one document only, so that nothing is known about it. -/
def Tag.isLocal (tag : Tag) : Bool :=
  tag.head? == some '!'.toNat.toUInt8 && (String.fromUTF8? ⟨tag.toArray⟩).isSome

/-- The value of a scalar with a tag that is not local. -/
def taggedValue? (tag : Tag) (text : String) : Option Datum :=
  if tag = kindTag "null" then (null? text).map fun _ => .null
  else if tag = kindTag "bool" then (flag? text).map .bool
  else if tag = kindTag "int" then (whole? text.toList).bind word?
  else if tag = kindTag "float" then (double? text).map .float
  else some (.str text)

/-- The value of a scalar. -/
def scalarValue? (tag : Option Tag) (text : String) (style : Style) : Option Datum :=
  match tag with
  | some tag => if tag.isLocal then none else taggedValue? tag text
  | none => if style = .plain then plainValue? text else some (.str text)

end Workflow.Yaml
