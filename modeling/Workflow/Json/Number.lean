import Workflow.Json.Scan

/-!
# `Workflow.Json.Number` — reading numbers

A number without point and exponent that fits 64 bits, signed or unsigned, is an integer; any other is a
double.  A double is read as a significand of at most 64 bits, further digits being dropped, which is
rounded to a double and then multiplied or divided by a power of ten.

## Contents
- `significand`, the digits that fit, and `scale?`, their product with a power of ten.
- `number`, the reader of a number without its sign, and `Json.number?`, for a whole text.
-/

namespace Workflow.Json

open Text (Taken Rest Reader)

/-- The greatest significand. -/
def significandMax : Nat := Nat.pow 2 64 - 1

/-- Extends a significand by digits as long as it fits 64 bits; also gives the digits left over. -/
def significand (start : Nat) : List Char → Nat × List Char
  | [] => (start, [])
  | c :: rest =>
    let next := start * 10 + (c.toNat - '0'.toNat)
    if next ≤ significandMax then significand next rest else (start, c :: rest)

/-- A power of ten as the nearest double. -/
def powerOfTen (exponent : Nat) : Float := Float.ofScientific 1 false exponent

/-- A significand times a power of ten, each rounded to a double; `none` if that is too large. -/
def scale? (digits : Nat) (exponent : Int) : Option Float :=
  let x := Float.ofNat digits
  if 0 ≤ exponent then
    if exponent ≤ 308 then
      let y := x * powerOfTen exponent.toNat
      if y.isFinite then some y else none
    else if digits = 0 then some x else none
  else if -308 ≤ exponent then some (x / powerOfTen (-exponent).toNat)
  else if -616 ≤ exponent then
    some (x / powerOfTen 308 / powerOfTen (-exponent - 308).toNat)
  else some 0.0

/-- A double of the given sign. -/
def signed (negative : Bool) (x : Float) : Json := .float (if negative then -x else x)

/-- The double with the given parts, in front of the rest of the text. -/
def scaled (negative : Bool) (digits : Nat) (exponent : Int) (rest : List Char) : Except Stop Json :=
  match scale? digits exponent with
  | some x => .ok (signed negative x)
  | none => .error (.after .numberOutOfRange rest)

/-- The greatest exponent that is told apart from greater ones. -/
def exponentMax : Nat := Nat.pow 2 31 - 1

/-- The value of exponent digits, or the rest of the text after the digit that made it too large. -/
def exponentValue (start : Nat) (after : List Char) : List Char → Except (List Char) Nat
  | [] => .ok start
  | c :: rest =>
    let next := start * 10 + (c.toNat - '0'.toNat)
    if next ≤ exponentMax then exponentValue next after rest else .error (rest ++ after)

/-- The text after a sign that it may begin with. -/
def afterSign (cs : List Char) : Rest cs :=
  match cs with
  | [] => .all []
  | c :: rest => if c = '+' ∨ c = '-' then (Rest.all rest).after else .all (c :: rest)

/-- Reads the digits of an exponent whose sign has been read. -/
def exponentDigits (negative : Bool) (digits : Nat) (start : Int) (down : Bool) (cs : List Char) :
    Except Stop (Json × Rest cs) :=
  let rest : Rest cs := .dropWhile Char.isDigit cs
  match cs.head? with
  | none => .error (.after .endOfValue [])
  | some c =>
    if c.isDigit then
      match exponentValue 0 rest.1 (cs.takeWhile Char.isDigit) with
      | .ok value =>
        (scaled negative digits (if down then start - value else start + value) rest.1).map (·, rest)
      | .error unread =>
        if digits ≠ 0 ∧ ¬ down then .error (.after .numberOutOfRange unread)
        else .ok (signed negative 0.0, rest)
    else .error (.before .invalidNumber cs)

/-- Reads what follows the exponent mark. -/
def exponent (negative : Bool) (digits : Nat) (start : Int) (cs : List Char) :
    Except Stop (Json × Rest cs) :=
  let unsigned := afterSign cs
  (exponentDigits negative digits start (cs.head? == some '-') unsigned.1).map fun r =>
    (r.1, r.2.widen unsigned.2)

/-- Reads what follows the digits of the significand. -/
def exponentPart (negative : Bool) (digits : Nat) (start : Int) (cs : List Char) :
    Except Stop (Json × Rest cs) :=
  match cs with
  | 'e' :: rest | 'E' :: rest =>
    (exponent negative digits start rest).map fun r => (r.1, r.2.after)
  | cs => (scaled negative digits start cs).map (·, .all cs)

/-- Reads what follows the point. -/
def fraction (negative : Bool) (digits : Nat) (start : Int) (cs : List Char) :
    Except Stop (Json × Rest cs) :=
  let places := cs.takeWhile Char.isDigit
  let rest := cs.dropWhile Char.isDigit
  let read := significand digits places
  if places.isEmpty then
    .error (match cs with
      | [] => .after .endOfValue []
      | cs => .before .invalidNumber cs)
  else
    (exponentPart negative read.1 (start - (places.length - read.2.length)) rest).map fun r =>
      (r.1, r.2.widen (Text.length_dropWhile_le _ _))

/-- A number without point and exponent. -/
def whole (negative : Bool) (digits : Nat) : Json :=
  if negative then
    if digits = 0 then .float (-0.0)
    else if digits ≤ Nat.pow 2 63 then .int (-digits)
    else .float (-(Float.ofNat digits))
  else .int digits

/-- Reads what follows the digits before the point. -/
def numberTail (negative : Bool) (digits : Nat) (dropped : Nat) (cs : List Char) :
    Except Stop (Json × Rest cs) :=
  match cs with
  | '.' :: rest =>
    (fraction negative digits dropped rest).map fun r => (r.1, r.2.after)
  | cs =>
    if dropped = 0 ∧ cs.head? ≠ some 'e' ∧ cs.head? ≠ some 'E' then
      .ok (whole negative digits, .all cs)
    else exponentPart negative digits dropped cs

/-- Reads the digits of a number whose sign has been read. -/
def number (negative : Bool) : Reader Stop Json := fun cs =>
  match cs with
  | [] => .error (.after .endOfValue [])
  | c :: rest =>
    if c.isDigit then
      let more := rest.takeWhile Char.isDigit
      if c = '0' ∧ !more.isEmpty then .error (.before .invalidNumber rest)
      else
        let read := significand 0 (c :: more)
        (numberTail negative read.1 read.2.length (rest.dropWhile Char.isDigit)).map fun r =>
          ⟨(r.1, r.2.1),
            Nat.lt_succ_of_le (Nat.le_trans r.2.2 (Text.length_dropWhile_le _ _))⟩
    else .error (.before .invalidNumber cs)

/-- The number that a whole text denotes. -/
def ofNumber? (cs : List Char) : Option Json :=
  let finished {cs : List Char} : Except Stop (Taken Json cs) → Option Json
    | .ok ⟨(value, []), _⟩ => some value
    | _ => none
  match cs with
  | '-' :: rest => finished (number true rest)
  | cs => finished (number false cs)

end Workflow.Json
