import Workflow.Decimal.Binary64
import Workflow.Decimal.Nearest
import Workflow.Shell.Arithmetic
import Workflow.Text.Utf8

/-!
# `Workflow.Shell.Format` — texts with escapes and places

In what is written a backslash and what follows it stand for a byte, and in a format there are places for arguments,
which have a kind, a width and a precision.

## Contents
- `Place` and `Mark`, the parts of a format, and `marks`, the parts of a text.
- `unescape`, a text whose escapes are replaced.
- `Place.fill`, an argument at a place, and `formatAll`, arguments in a format.
-/

namespace Workflow.Shell.Format

/-! ## Parts -/

/-- A width or precision. -/
inductive Measure where
  | fixed (amount : Nat)
  /-- One that is an argument itself. -/
  | given
  deriving DecidableEq, Repr

/-- A place for an argument. -/
structure Place where
  flags : List Char
  width : Option Measure
  precision : Option Measure
  kind : Char
  deriving DecidableEq, Repr

/-- A part of a text. -/
inductive Mark where
  | byte (byte : UInt8)
  /-- Nothing after this is written. -/
  | stop
  | place (place : Place)
  /-- A place of a kind that is unknown. -/
  | unknown (directive : String)
  deriving DecidableEq, Repr

/-- The characters that a backslash and a letter stand for. -/
def escapes : List (Char × Char) :=
  [('a', '\x07'), ('b', '\x08'), ('e', '\x1b'), ('f', '\x0c'), ('n', '\n'), ('r', '\r'), ('t', '\t'), ('v', '\x0b'),
    ('\\', '\\')]

/-- The octal digits. -/
def isOctal (c : Char) : Bool := '0' ≤ c && c ≤ '7'

/-- Goes on with a number in octal digits, of which there are at most as many as told. -/
def octal : Nat → Nat → List Char → Nat × List Char
  | count + 1, value, c :: rest =>
    if isOctal c then octal count (value * 8 + (c.toNat - '0'.toNat)) rest else (value, c :: rest)
  | _, value, cs => (value, cs)

theorem length_octal (count value : Nat) (cs : List Char) :
    (octal count value cs).2.length ≤ cs.length := by
  fun_induction octal count value cs with
  | case1 count value c rest _ ih => exact Nat.le_succ_of_le ih
  | case2 => exact Nat.le_refl _
  | case3 => exact Nat.le_refl _

/-- The byte in octal digits of which the first is given, and what is after them.  But for a format the digits may
have one more zero in front. -/
def octalByte (isFormat : Bool) (first : Char) (cs : List Char) : UInt8 × List Char :=
  let number := octal (if !isFormat && first == '0' then 3 else 2) (first.toNat - '0'.toNat) cs
  (UInt8.ofNat number.1, number.2)

theorem length_octalByte (isFormat : Bool) (first : Char) (cs : List Char) :
    (octalByte isFormat first cs).2.length ≤ cs.length := length_octal _ _ _

/-- The parts of a character that stands for itself. -/
def plainMarks (c : Char) : List Mark := (String.utf8EncodeChar c).map .byte

/-- The characters that change how an argument is shown. -/
def flagCharacters : List Char := ['-', '+', ' ', '#', '0']

/-- The kinds of places. -/
def kinds : List Char := ['d', 'i', 'o', 'u', 'x', 'X', 'f', 'F', 'c', 's', 'b']

/-- Takes a width or precision. -/
def measure (cs : List Char) : Option Measure × List Char :=
  match cs with
  | '*' :: rest => (some .given, rest)
  | _ =>
    let digits := cs.takeWhile Char.isDigit
    (if digits.isEmpty then none else some (.fixed ((String.ofList digits).toNat?.getD 0)),
      cs.dropWhile Char.isDigit)

/-- The place that follows a percent sign. -/
def placeMark (cs : List Char) : Mark × List Char :=
  let flags := cs.takeWhile flagCharacters.contains
  let (width, rest) := measure (cs.dropWhile flagCharacters.contains)
  let (precision, rest) :=
    match rest with
    | '.' :: rest =>
      let (precision, rest) := measure rest
      (some (precision.getD (.fixed 0)), rest)
    | _ => (none, rest)
  match rest with
  | kind :: rest =>
    if kinds.contains kind then (.place ⟨flags, width, precision, kind⟩, rest)
    else (.unknown (String.ofList ('%' :: cs.take (cs.length - rest.length))), rest)
  | [] => (.unknown (String.ofList ('%' :: cs)), [])

/-- The parts of a text.  Only a format has places for arguments.  A backslash that stands for nothing stands
for itself. -/
def marks (isFormat : Bool) : List Char → List Mark
  | [] => []
  | '\\' :: c :: rest =>
    match escapes.find? (·.1 == c) with
    | some entry => plainMarks entry.2 ++ marks isFormat rest
    | none =>
      if isOctal c then
        have := length_octalByte isFormat c rest
        .byte (octalByte isFormat c rest).1 :: marks isFormat (octalByte isFormat c rest).2
      else if c = 'c' ∧ !isFormat then [.stop]
      else plainMarks '\\' ++ marks isFormat (c :: rest)
  | '%' :: c :: rest =>
    if !isFormat then plainMarks '%' ++ marks isFormat (c :: rest)
    else if c = '%' then plainMarks '%' ++ marks isFormat rest
    else
      match placeMark (c :: rest) with
      | (mark, after) => if after.length ≤ rest.length then mark :: marks isFormat after else [mark]
  | c :: rest => plainMarks c ++ marks isFormat rest
termination_by cs => cs.length
decreasing_by all_goals (simp only [List.length_cons]; omega)

/-! ## Writing -/

/-- What is written, and whether something in it put an end to it. -/
structure Written where
  bytes : List UInt8
  isStopped : Bool

/-- A text whose escapes are replaced by what they stand for. -/
def unescape (text : String) : Written :=
  let parts := marks false text.toList
  ⟨parts.filterMap fun
    | .byte byte => some byte
    | _ => none, parts.contains .stop⟩

/-- The text of bytes. -/
def textOf (bytes : List UInt8) : String := String.ofList (Text.Utf8.decode bytes)

/-! ## Arguments -/

/-- The byte of an ASCII character. -/
def byteOf (c : Char) : UInt8 := UInt8.ofNat c.toNat

/-- Fills bytes up to a width: at their end, with zeros between sign and digits, or at their beginning. -/
def fitted (place : Place) (width : Nat) (zeros : Bool) (sign body : List UInt8) : List UInt8 :=
  let missing := width - (sign.length + body.length)
  if place.flags.contains '-' then sign ++ body ++ List.replicate missing (byteOf ' ')
  else if zeros && place.flags.contains '0' then sign ++ List.replicate missing (byteOf '0') ++ body
  else List.replicate missing (byteOf ' ') ++ sign ++ body

/-- The sign of a number. -/
def signOf (place : Place) (isNegative : Bool) : String :=
  if isNegative then "-"
  else if place.flags.contains '+' then "+"
  else if place.flags.contains ' ' then " "
  else ""

/-- The digits of a number in a base. -/
def digitsIn (base : Nat) (value : Nat) : String := String.ofList (Nat.toDigits base value)

/-- A number of which there are at least some digits. -/
def atLeast (count : Nat) (digits : String) : String := "".pushn '0' (count - digits.length) ++ digits

/-- Sign and digits of an integer. -/
def shownInteger (place : Place) (precision : Option Nat) (value : Int) : String × String :=
  let unsigned := (value % Nat.pow 2 64).toNat
  let sharp := place.flags.contains '#' && unsigned ≠ 0
  let (sign, digits) :=
    match place.kind with
    | 'u' => ("", digitsIn 10 unsigned)
    | 'o' => (if sharp then "0" else "", digitsIn 8 unsigned)
    | 'x' => (if sharp then "0x" else "", digitsIn 16 unsigned)
    | 'X' => (if sharp then "0X" else "", (digitsIn 16 unsigned).toUpper)
    | _ => (signOf place (value < 0), digitsIn 10 value.natAbs)
  (sign, atLeast (precision.getD 1) digits)

/-- A quotient rounded to the nearest whole number, halves to the even one. -/
def roundedQuotient (dividend divisor : Nat) : Nat :=
  let quotient := dividend / divisor
  let twice := 2 * (dividend % divisor)
  if twice > divisor ∨ (twice = divisor ∧ quotient % 2 = 1) then quotient + 1 else quotient

/-- Sign and digits of a double with the given number of places. -/
def shownDouble (place : Place) (places : Nat) (value : Float) : String × String :=
  let number := Binary64.ofFloat value
  let scaled := number.mantissa * Nat.pow 10 places
  let rounded :=
    if 0 ≤ number.exponent then scaled * Nat.pow 2 number.exponent.toNat
    else roundedQuotient scaled (Nat.pow 2 (-number.exponent).toNat)
  let digits := (atLeast (places + 1) (toString rounded)).toList
  let whole := String.ofList (digits.take (digits.length - places))
  (signOf place number.negative,
    if places = 0 then whole else whole ++ "." ++ String.ofList (digits.drop (digits.length - places)))

/-- An integer within the bounds of 64 bits, and what is wrong with it otherwise. -/
def bounded (argument : String) (value : Int) : Int × Option String :=
  let least : Int := -(Nat.pow 2 63 : Nat)
  let greatest : Int := (Nat.pow 2 63 : Nat) - 1
  if value < least then (least, some (argument ++ ": Numerical result out of range"))
  else if greatest < value then (greatest, some (argument ++ ": Numerical result out of range"))
  else (value, none)

/-- The integer that an argument is, and what is wrong with it. -/
def integerOf (argument : String) : Int × Option String :=
  match argument.toList with
  | [] => (0, none)
  | '"' :: c :: _ | '\'' :: c :: _ => (c.toNat, none)
  | cs =>
    match Arithmetic.integer? argument with
    | some value => bounded argument value
    | none =>
      let (isNegative, digits) := match cs with
        | '-' :: rest => (true, rest.takeWhile Char.isDigit)
        | rest => (false, rest.takeWhile Char.isDigit)
      match (String.ofList digits).toNat? with
      | some value =>
        ((bounded argument (if isNegative then -value else value)).1,
          some (argument ++ ": not completely converted"))
      | none => (0, some (argument ++ ": expected numeric value"))

/-- The double that an argument is, and what is wrong with it. -/
def doubleOf (argument : String) : Float × Option String :=
  let isNegative := argument.startsWith "-"
  let cs := if isNegative then argument.toList.drop 1 else argument.toList
  let whole := cs.takeWhile Char.isDigit
  let afterWhole := cs.dropWhile Char.isDigit
  let places := if afterWhole.head? = some '.' then (afterWhole.drop 1).takeWhile Char.isDigit else []
  let rest := if afterWhole.head? = some '.' then (afterWhole.drop 1).dropWhile Char.isDigit else afterWhole
  let power : Option Int := match rest with
    | 'e' :: exponent | 'E' :: exponent => Arithmetic.integer? (String.ofList exponent)
    | _ => none
  let digits := ((String.ofList (whole ++ places)).toNat?).getD 0
  let magnitude := Decimal.nearest digits (power.getD 0 - places.length)
  let wrong :=
    if argument.isEmpty then none
    else if whole.isEmpty && places.isEmpty then some (argument ++ ": expected numeric value")
    else if !rest.isEmpty && power.isNone then some (argument ++ ": not completely converted")
    else none
  (if isNegative then -magnitude else magnitude, wrong)

/-- What has been written, the arguments left, and what was wrong with the others. -/
structure Progress where
  bytes : List UInt8
  left : List String
  complaints : List String
  status : Nat
  isStopped : Bool

/-- Adds bytes. -/
def Progress.add (p : Progress) (bytes : List UInt8) : Progress := { p with bytes := p.bytes ++ bytes }

/-- The next argument. -/
def Progress.next (p : Progress) : Option String × Progress := (p.left.head?, { p with left := p.left.drop 1 })

/-- Takes note of what is wrong with an argument. -/
def Progress.note (p : Progress) (wrong : Option String) : Progress :=
  match wrong with
  | some complaint => { p with complaints := p.complaints ++ [complaint], status := 1 }
  | none => p

/-- The amount of a width or precision, which can be an argument. -/
def Measure.amount (p : Progress) : Option Measure → Option Int × Progress
  | none => (none, p)
  | some (.fixed amount) => (some amount, p)
  | some .given =>
    let (argument, p) := p.next
    let (value, wrong) := integerOf (argument.getD "")
    (some value, p.note wrong)

/-- Puts the next argument into a place. -/
def Place.fill (place : Place) (p : Progress) : Progress :=
  let (width, p) := Measure.amount p place.width
  let (precision, p) := Measure.amount p place.precision
  -- A width below zero is a width with the argument at its beginning.
  let place := if width.any (· < 0) then { place with flags := '-' :: place.flags } else place
  let size := (width.map Int.natAbs).getD 0
  let precision := (precision.filter (0 ≤ ·)).map Int.toNat
  let (argument, p) := p.next
  let given := argument.getD ""
  match place.kind with
  | 's' => p.add (fitted place size false [] (given.toUTF8.toList.take (precision.getD given.utf8ByteSize)))
  | 'c' => p.add (fitted place size false [] (given.toUTF8.toList.take 1))
  | 'b' =>
    let written := unescape given
    let p := p.add (fitted place size false [] (written.bytes.take (precision.getD written.bytes.length)))
    { p with isStopped := written.isStopped }
  | 'f' | 'F' =>
    let (value, wrong) := doubleOf given
    let (sign, digits) := shownDouble place (precision.getD 6) value
    (p.note wrong).add (fitted place size true sign.toUTF8.toList digits.toUTF8.toList)
  | _ =>
    let (value, wrong) := integerOf given
    let (sign, digits) := shownInteger place precision value
    (p.note wrong).add (fitted place size precision.isNone sign.toUTF8.toList digits.toUTF8.toList)

/-- Takes a part of a format. -/
def Progress.take (p : Progress) (mark : Mark) : Progress :=
  if p.isStopped then p
  else
    match mark with
    | .byte byte => p.add [byte]
    | .stop => { p with isStopped := true }
    | .place place => place.fill p
    | .unknown directive =>
      { p.note (some (directive ++ ": invalid directive")) with status := 2, isStopped := true }

/-- Uses a format again for the arguments that are left, if it has places for them, at most as often as told. -/
def formatAll (format : List Mark) : Nat → Progress → Progress
  | 0, p => p
  | rounds + 1, p =>
    let after := format.foldl .take p
    if after.isStopped || after.left.isEmpty || after.left.length = p.left.length then after
    else formatAll format rounds after

end Workflow.Shell.Format
