import Workflow.Decimal.Binary64

/-!
# `Workflow.Decimal.Shortest` — the fewest digits that read back

A finite double is one point of a binary grid, and every real number in an interval around it rounds
to it.  Its shortest decimal is the decimal in that interval with the fewest digits, and of those the
nearest one.

## Contents
- `Decimal`, a whole number of digits and a power of ten.
- `Rounding`, the value of a double and the interval that rounds to it, in quarters of its last place.
- `Decimal.shortest`, found by testing the two neighbours of the value on the grids of 1, 2, …, 17
  digits in exact arithmetic.
-/

namespace Workflow

/-- The number `digits · 10 ^ exponent`. -/
structure Decimal where
  digits : Nat
  exponent : Int
  deriving Repr, DecidableEq, Inhabited

namespace Decimal

/-- The number of decimal digits of a number; zero has one. -/
def digitCount (n : Nat) : Nat := (Nat.toDigits 10 n).length

/-- Drops the trailing zeros of the digits, at most as many as given. -/
def trim : Nat → Decimal → Decimal
  | 0, d => d
  | count + 1, d =>
    if d.digits ≠ 0 ∧ d.digits % 10 = 0 then trim count ⟨d.digits / 10, d.exponent + 1⟩ else d

end Decimal

/-- The magnitude of a double in units of a quarter of its last place, with the ends of the interval of
reals that round to it. -/
structure Rounding where
  low : Nat
  value : Nat
  high : Nat
  /-- The binary exponent of the unit. -/
  unit : Int
  /-- Whether the ends themselves round to the value. -/
  closed : Bool

namespace Rounding

/-- The interval of a double.  An end is the middle between two doubles and goes to the even one. -/
def ofBinary64 (b : Binary64) : Rounding where
  -- Below a power of two the next double is half as far away.
  low := 4 * b.mantissa - (if b.atPowerOfTwo then 1 else 2)
  value := 4 * b.mantissa
  high := 4 * b.mantissa + 2
  unit := b.exponent - 2
  closed := b.mantissa % 2 = 0

/-- The exponent of the leading decimal digit of the fraction `num / den`. -/
def leadingExponent (num den : Nat) : Int :=
  if den ≤ num then (Decimal.digitCount (num / den) : Int) - 1
  else
    let places := Decimal.digitCount (den / num)
    if den = num * Nat.pow 10 (places - 1) then 1 - (places : Int) else -(places : Int)

/-- The decimal next to the value on the grid of a power of ten that also rounds to it: of two
neighbours the nearer, on a tie the even one. -/
def nearest? (r : Rounding) (exponent : Int) : Option Nat :=
  -- Multiplied by `scale`, the value and the ends are whole, and so is `step`, the width of the grid.
  let scale := Nat.pow 2 r.unit.toNat * Nat.pow 10 (-exponent).toNat
  let step := Nat.pow 2 (-r.unit).toNat * Nat.pow 10 exponent.toNat
  let value := r.value * scale
  let below := value / step
  let inside (n : Nat) : Bool :=
    if r.closed then r.low * scale ≤ n * step ∧ n * step ≤ r.high * scale
    else r.low * scale < n * step ∧ n * step < r.high * scale
  let gap := 2 * (value - below * step)
  match inside below, inside (below + 1) with
  | true, true =>
    some (if gap < step ∨ (gap = step ∧ below % 2 = 0) then below else below + 1)
  | true, false => some below
  | false, true => some (below + 1)
  | false, false => none

/-- The first grid, from coarse to fine, on which a neighbour of the value rounds to it. -/
def shortestFrom (r : Rounding) (exponent : Int) : Nat → Decimal
  | 0 => ⟨(r.nearest? exponent).getD 0, exponent⟩
  | count + 1 =>
    match r.nearest? exponent with
    | some digits => ⟨digits, exponent⟩
    | none => shortestFrom r (exponent - 1) count

end Rounding

/-- The shortest decimal that reads back as the magnitude of a finite double. -/
def Decimal.shortest (x : Float) : Decimal :=
  let r := Rounding.ofBinary64 (Binary64.ofFloat x)
  if r.value = 0 then ⟨0, 0⟩
  else
    let lead := Rounding.leadingExponent (r.value * Nat.pow 2 r.unit.toNat) (Nat.pow 2 (-r.unit).toNat)
    (r.shortestFrom lead 17).trim 17

end Workflow
