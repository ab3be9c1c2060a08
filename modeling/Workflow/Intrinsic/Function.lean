import Workflow.Intrinsic.Basic
import Workflow.Json.Printer
import Workflow.Json.Reader
import Workflow.Decimal.Binary64
import Workflow.Text.Digest
import Workflow.Chance

/-!
# `Workflow.Intrinsic.Function` — the intrinsic functions

Every function takes a list of values and either yields a value or refuses them.

Covers `apply`, `expect_arity`, `as_str`, `as_int`, `as_array` and `render`.

## Contents
- `Function`, the functions, and `Function.ofName?`.
- Readers of arguments: `textArg`, `integerArg`, `arrayArg`.
- `fill`, `partition`, `range`, `unique`, `splitAtAny`, the rules of single functions.
- `Function.apply`.
-/

namespace Workflow.Intrinsic

/-- The intrinsic functions. -/
inductive Function where
  | format | stringToJson | jsonToString
  | array | arrayPartition | arrayContains | arrayRange | arrayGetItem | arrayLength | arrayUnique
  | base64Encode | base64Decode | hash | jsonMerge | mathRandom | mathAdd | stringSplit | uuid
  deriving DecidableEq, Repr

namespace Function

/-- Every function with its name. -/
def table : List (String × Function) :=
  [("States.Format", .format), ("States.StringToJson", .stringToJson),
    ("States.JsonToString", .jsonToString), ("States.Array", .array),
    ("States.ArrayPartition", .arrayPartition), ("States.ArrayContains", .arrayContains),
    ("States.ArrayRange", .arrayRange), ("States.ArrayGetItem", .arrayGetItem),
    ("States.ArrayLength", .arrayLength), ("States.ArrayUnique", .arrayUnique),
    ("States.Base64Encode", .base64Encode), ("States.Base64Decode", .base64Decode),
    ("States.Hash", .hash), ("States.JsonMerge", .jsonMerge), ("States.MathRandom", .mathRandom),
    ("States.MathAdd", .mathAdd), ("States.StringSplit", .stringSplit), ("States.UUID", .uuid)]

/-- The function of a name. -/
def ofName? (name : String) : Option Function := table.lookup name

end Function

/-! ## Arguments -/

/-- What a function yields. -/
abbrev Outcome (α : Type) := Except Misuse α

/-- Checks the number of arguments. -/
def arity (least most : Nat) (arguments : List Json) : Outcome Unit :=
  if least ≤ arguments.length ∧ arguments.length ≤ most then .ok ()
  else .error (.arity least most arguments.length)

/-- The argument at a position. -/
def argument (arguments : List Json) (position : Nat) : Json := arguments[position]?.getD .null

/-- The text of an argument. -/
def textArg (role : String) : Json → Outcome String
  | .str text => .ok text
  | _ => .error (.notText role)

/-- The least and the greatest integer argument. -/
def integerMin : Int := -9223372036854775808

/-- The greatest integer argument. -/
def integerMax : Int := 9223372036854775807

/-- The integer nearest to a number within the range of 64 bits. -/
def clamp (n : Int) : Int := max integerMin (min integerMax n)

/-- The integer that an argument is.  A double counts if it is whole; what lies outside the range of 64
bits is taken for its nearer end. -/
def integerArg (role : String) : Json → Outcome Int
  | .int n => .ok (clamp n)
  | .float x =>
    match (Binary64.ofFloat x).whole? with
    | some n => .ok (clamp n)
    | none => .error (.notInteger role)
  | _ => .error (.notInteger role)

/-- The items of an argument. -/
def arrayArg (role : String) : Json → Outcome (List Json)
  | .arr items => .ok items
  | _ => .error (.notArray role)

/-- The text of a value: a string as it is, any other value as JSON. -/
def plainText : Json → String
  | .str text => text
  | value => value.render

/-! ## Rules of single functions -/

/-- Fills a template: each pair of braces is replaced by the next text, and a backslash keeps a brace or a
backslash that follows it. -/
def fill : List Char → List (List Char) → Outcome (List Char)
  | [], [] => .ok []
  | [], _ :: _ => .error .tooManyArguments
  | '\\' :: c :: rest, texts =>
    if c = '\x7b' ∨ c = '\x7d' ∨ c = '\\' then (fill rest texts).map (c :: ·)
    else (fill (c :: rest) texts).map ('\\' :: ·)
  | '\x7b' :: '\x7d' :: _, [] => .error .tooManyPlaceholders
  | '\x7b' :: '\x7d' :: rest, text :: texts => (fill rest texts).map (text ++ ·)
  | c :: rest, texts => (fill rest texts).map (c :: ·)

/-- Cuts a list into pieces of the given size, of which the last may be shorter. -/
def partition (size : Nat) (items : List Json) : List (List Json) :=
  if _h : size = 0 ∨ items = [] then []
  else items.take size :: partition size (items.drop size)
termination_by items.length
decreasing_by
  have : items.length ≠ 0 := by simp_all
  simp only [List.length_drop]
  omega

/-- The greatest length of a range. -/
def rangeMax : Nat := 1000

/-- The sum of two integers of 64 bits; if it is none, that is a trap. -/
def sum (a b : Int) : Outcome Int :=
  if integerMin ≤ a + b ∧ a + b ≤ integerMax then .ok (a + b) else .error (.trapped .overflow)

/-- The arithmetic progression from a start up to an end, if there is room for it.  After each number the next one
is reckoned, also after the last that is not past the end. -/
def range (step last : Int) : Nat → Int → Outcome (List Int)
  | room, current =>
    if (0 < step ∧ current ≤ last) ∨ (step < 0 ∧ last ≤ current) then
      match room with
      | 0 => .error (.rangeTooLong rangeMax)
      | room + 1 => do
        let next ← sum current step
        (range step last room next).map (current :: ·)
    else .ok []

/-- The items without those that equal an earlier one. -/
def unique (items : List Json) : List Json :=
  items.foldl (fun kept item => if kept.any (· == item) then kept else kept ++ [item]) []

/-- The parts of a text between delimiters, empty ones included. -/
def splitAtAny (delimiters : List Char) : List Char → List (List Char)
  | [] => [[]]
  | c :: rest =>
    if c ∈ delimiters then [] :: splitAtAny delimiters rest
    else
      match splitAtAny delimiters rest with
      | [] => [[c]]
      | part :: parts => (c :: part) :: parts

/-- The bytes of a text. -/
def bytesOf (text : String) : List UInt8 := text.toUTF8.toList

/-- The digest that a name stands for. -/
def digestOf? : String → Option Text.Digest.Variant
  | "SHA-256" => some Text.Digest.sha256
  | "SHA-384" => some Text.Digest.sha384
  | "SHA-512" => some Text.Digest.sha512
  | _ => none

/-! ## Application -/

/-- Fills the template that is the first argument with the others. -/
def formatted (arguments : List Json) : Outcome Json :=
  match arguments with
  | [] => .error .noTemplate
  | template :: values => do
    let text ← textArg "template" template
    let filled ← fill text.toList (values.map fun v => (plainText v).toList)
    return .str (String.ofList filled)

/-- A number of an interval that excludes its end. -/
def random (chance : Chance) (arguments : List Json) : Outcome Json := do
  arity 2 3 arguments
  let start ← integerArg "start" (argument arguments 0)
  let last ← integerArg "end" (argument arguments 1)
  if last ≤ start then throw .emptyInterval
  let width := (last - start).toNat
  match arguments[2]? with
  | none => return .int (start + chance.below width)
  | some seed => do
    -- A negative seed is taken for the word with the same bits.
    let seed ← integerArg "seed" seed
    return .int (start + chance.drawn (seed % 18446744073709551616).toNat width)

/-- Applies a function to arguments. -/
def Function.apply (f : Function) (chance : Chance) (arguments : List Json) : Outcome Json :=
  let first := argument arguments 0
  let second := argument arguments 1
  match f with
  | .format => formatted arguments
  | .stringToJson => do
    arity 1 1 arguments
    (Json.parse (← textArg "argument" first)).mapError .notJson
  | .jsonToString => do
    arity 1 1 arguments
    return .str first.render
  | .array => return .arr arguments
  | .arrayPartition => do
    arity 2 2 arguments
    let items ← arrayArg "first argument" first
    let size ← integerArg "chunk size" second
    if size ≤ 0 then throw .chunkSizeNotPositive
    return .arr ((partition size.toNat items).map .arr)
  | .arrayContains => do
    arity 2 2 arguments
    let items ← arrayArg "first argument" first
    return .bool (items.any (· == second))
  | .arrayRange => do
    arity 3 3 arguments
    let start ← integerArg "start" first
    let last ← integerArg "end" second
    let step ← integerArg "step" (argument arguments 2)
    if step = 0 then throw .zeroStep
    return .arr ((← range step last rangeMax start).map .int)
  | .arrayGetItem => do
    arity 2 2 arguments
    let items ← arrayArg "first argument" first
    let index ← integerArg "index" second
    match (if 0 ≤ index then items[index.toNat]? else none) with
    | some item => return item
    | none => throw (.outOfBounds index)
  | .arrayLength => do
    arity 1 1 arguments
    return .int (← arrayArg "argument" first).length
  | .arrayUnique => do
    arity 1 1 arguments
    return .arr (unique (← arrayArg "argument" first))
  | .base64Encode => do
    arity 1 1 arguments
    return .str (String.ofList (Text.Base64.encode (bytesOf (← textArg "argument" first))))
  | .base64Decode => do
    arity 1 1 arguments
    let text ← textArg "argument" first
    let bytes ← (Text.Base64.decode (bytesOf text)).mapError .notBase64
    match String.fromUTF8? ⟨bytes.toArray⟩ with
    | some text => return .str text
    | none => throw .notUtf8
  | .hash => do
    arity 2 2 arguments
    let algorithm ← textArg "algorithm" second
    match digestOf? algorithm with
    | some variant =>
      return .str (Text.Digest.hex (Text.Digest.digest variant (bytesOf (plainText first))))
    | none => throw (.unknownAlgorithm algorithm)
  | .jsonMerge => do
    arity 3 3 arguments
    match argument arguments 2 with
    | .bool false => pure ()
    | _ => throw .deepMerge
    match first, second with
    | .obj left, .obj right => return .obj (right.foldl (fun fs e => Fields.set fs e.1 e.2) left)
    | _, _ => throw .notObjects
  | .mathRandom => random chance arguments
  | .mathAdd => do
    arity 2 2 arguments
    let a ← integerArg "first argument" first
    let b ← integerArg "second argument" second
    if integerMin ≤ a + b ∧ a + b ≤ integerMax then return .int (a + b) else throw .overflow
  | .stringSplit => do
    arity 2 2 arguments
    let text ← textArg "first argument" first
    let delimiters ← textArg "delimiter" second
    let parts := (splitAtAny delimiters.toList text.toList).filter (!·.isEmpty)
    return .arr (parts.map fun part => .str (String.ofList part))
  | .uuid => do
    arity 0 0 arguments
    return .str chance.uuid

end Workflow.Intrinsic
