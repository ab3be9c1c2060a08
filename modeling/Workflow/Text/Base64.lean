/-!
# `Workflow.Text.Base64` — Base64 with required padding

The standard alphabet, six bits to a symbol.  Decoding accepts the canonical form only: the text is padded
to whole groups of four, and the bits that stand for nothing are zero.

## Contents
- `encode`, and `decode` with its `Error`, which names the place at fault.
-/

namespace Workflow.Text.Base64

/-- Why a text is no Base64. -/
inductive Error where
  | invalidSymbol (byte : UInt8) (offset : Nat)
  | invalidLastSymbol (byte : UInt8) (offset : Nat)
  | invalidPadding
  | invalidLength (length : Nat)
  deriving DecidableEq, Repr

/-- The wording of an error. -/
def Error.message : Error → String
  | .invalidSymbol byte offset =>
    "Invalid symbol " ++ toString byte.toNat ++ ", offset " ++ toString offset ++ "."
  | .invalidLastSymbol byte offset =>
    "Invalid last symbol " ++ toString byte.toNat ++ ", offset " ++ toString offset ++ "."
  | .invalidPadding => "Invalid padding"
  | .invalidLength length => "Invalid input length: " ++ toString length

/-- The symbol for six bits. -/
def symbol (value : Nat) : Char :=
  if value < 26 then Char.ofNat (65 + value)
  else if value < 52 then Char.ofNat (97 + (value - 26))
  else if value < 62 then Char.ofNat (48 + (value - 52))
  else if value = 62 then '+'
  else '/'

/-- The six bits that a symbol stands for. -/
def value? (byte : UInt8) : Option Nat :=
  let n := byte.toNat
  if 65 ≤ n ∧ n ≤ 90 then some (n - 65)
  else if 97 ≤ n ∧ n ≤ 122 then some (n - 97 + 26)
  else if 48 ≤ n ∧ n ≤ 57 then some (n - 48 + 52)
  else if n = 43 then some 62
  else if n = 47 then some 63
  else none

/-- The padding symbol. -/
def pad : UInt8 := 61

/-- Writes bytes as symbols, three bytes to four. -/
def encode : List UInt8 → List Char
  | [] => []
  | [a] =>
    let n := a.toNat * 16
    [symbol (n / 64), symbol (n % 64), '=', '=']
  | [a, b] =>
    let n := (a.toNat * 256 + b.toNat) * 4
    [symbol (n / 4096), symbol (n / 64 % 64), symbol (n % 64), '=']
  | a :: b :: c :: rest =>
    let n := (a.toNat * 256 + b.toNat) * 256 + c.toNat
    symbol (n / 262144) :: symbol (n / 4096 % 64) :: symbol (n / 64 % 64) :: symbol (n % 64)
      :: encode rest

/-- The values of symbols, none of which may be padding. -/
def values (offset : Nat) : List UInt8 → Except Error (List Nat)
  | [] => .ok []
  | byte :: rest =>
    match value? byte with
    | none => .error (.invalidSymbol byte offset)
    | some value => (values (offset + 1) rest).map (value :: ·)

/-- The whole bytes among the first bits of a number, and what is left over. -/
def bytesOf (values : List Nat) : List UInt8 × Nat :=
  let bits := values.length * 6
  let number := values.foldl (fun n v => n * 64 + v) 0
  let count := bits / 8
  let spare := bits - count * 8
  let whole := number / Nat.pow 2 spare
  ((List.range count).map fun i => UInt8.ofNat (whole / Nat.pow 256 (count - 1 - i) % 256),
    number % Nat.pow 2 spare)

/-- Decodes the last group, which is the only one that may be padded. -/
def lastGroup (offset : Nat) (group : List UInt8) : Except Error (List UInt8) := do
  let symbols := group.takeWhile (· ≠ pad)
  let padding := group.dropWhile (· ≠ pad)
  let values ← values offset symbols
  -- At most two symbols of padding are in place, and nothing comes after them.
  if !padding.isEmpty then
    if symbols.length < 2 ∨ padding.any (· ≠ pad) then
      throw (.invalidSymbol pad (offset + symbols.length))
  if values.length < 2 then throw (.invalidLength (offset + values.length))
  if group.length % 4 ≠ 0 then throw .invalidPadding
  let (bytes, spare) := bytesOf values
  if spare ≠ 0 then
    throw (.invalidLastSymbol (symbols.getLast?.getD pad) (offset + symbols.length - 1))
  return bytes

/-- Decodes all groups in turn. -/
def groups (offset : Nat) : List UInt8 → Except Error (List UInt8)
  | [] => .ok []
  | a :: b :: c :: d :: e :: rest => do
    let values ← values offset [a, b, c, d]
    let more ← groups (offset + 4) (e :: rest)
    return (bytesOf values).1 ++ more
  | group => lastGroup offset group

/-- The bytes that a text stands for.  A single byte too many is looked at first. -/
def decode (bytes : List UInt8) : Except Error (List UInt8) :=
  match bytes.getLast? with
  | some last =>
    if bytes.length % 4 = 1 ∧ last ≠ pad ∧ value? last = none then
      .error (.invalidSymbol last (bytes.length - 1))
    else groups 0 bytes
  | none => .ok []

end Workflow.Text.Base64
