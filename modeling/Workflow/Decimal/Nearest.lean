/-!
# `Workflow.Decimal.Nearest` — the double nearest to a decimal

A decimal is digits times a power of ten.  Some formats of documents read it as the double that is nearest to it.
-/

namespace Workflow.Decimal

/-- The greatest power of ten that is told apart from greater ones. -/
def powerMax : Nat := 1000000

/-- A power of ten that is not told apart from it. -/
def bounded (power : Int) : Int := max (-powerMax) (min power powerMax)

/-- The double that is nearest to digits times a power of ten. -/
def nearest (digits : Nat) (power : Int) : Float :=
  let power := bounded power
  Float.ofScientific digits (power < 0) power.natAbs

end Workflow.Decimal
