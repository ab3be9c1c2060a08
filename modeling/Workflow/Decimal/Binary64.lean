/-!
# `Workflow.Decimal.Binary64` — the exact value of a double

A finite double is a sign and a whole number times a power of two.  Decoding its bits makes the value
available to exact arithmetic.

## Contents
- `Binary64`, sign, mantissa and exponent, and `Binary64.ofFloat`.
- `Binary64.whole?`, the integer that a double is, if it is one.
-/

namespace Workflow

/-- The number `± mantissa · 2 ^ exponent`. -/
structure Binary64 where
  negative : Bool
  mantissa : Nat
  exponent : Int
  /-- Whether the next smaller magnitude is half as far away as the next greater one. -/
  atPowerOfTwo : Bool
  deriving DecidableEq, Repr

namespace Binary64

/-- Decodes a finite double. -/
def ofFloat (x : Float) : Binary64 :=
  let bits := x.toBits.toNat
  let field := bits / Nat.pow 2 52 % Nat.pow 2 11
  let fraction := bits % Nat.pow 2 52
  { negative := Nat.pow 2 63 ≤ bits
    mantissa := if field = 0 then fraction else fraction + Nat.pow 2 52
    exponent := ((if field = 0 then 1 else field : Nat) : Int) - 1075
    atPowerOfTwo := fraction = 0 ∧ 1 < field }

/-- The integer that the number is. -/
def whole? (b : Binary64) : Option Int :=
  let magnitude : Option Nat :=
    if 0 ≤ b.exponent then some (b.mantissa * Nat.pow 2 b.exponent.toNat)
    else
      let unit := Nat.pow 2 (-b.exponent).toNat
      if b.mantissa % unit = 0 then some (b.mantissa / unit) else none
  magnitude.map fun (m : Nat) => if b.negative then -(m : Int) else m

end Binary64

end Workflow
