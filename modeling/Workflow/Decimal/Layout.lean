import Workflow.Decimal.Shortest

/-!
# `Workflow.Decimal.Layout` — writing a decimal as text

Where the point goes, and from which size on an exponent is written, are the decisions of a format.
A `Decimal.Layout` records them, and `Decimal.render` follows it.
-/

namespace Workflow.Decimal

/-- How a format writes a decimal. -/
structure Layout where
  /-- The least exponent of the leading digit that is written without an exponent. -/
  positionalFrom : Int
  /-- The least exponent of the leading digit, above that one, that is written with an exponent. -/
  positionalBelow : Int
  /-- What follows a whole number in positional form. -/
  wholeSuffix : String
  /-- The mark before the exponent. -/
  exponentMark : String
  /-- The sign of an exponent that is not negative. -/
  plus : String

/-- The digits of a decimal, without sign, as a format lays them out. -/
def render (layout : Layout) (d : Decimal) : String :=
  let text := toString d.digits
  let count : Int := text.length
  let lead := d.exponent + count - 1
  if d.digits = 0 then "0" ++ layout.wholeSuffix
  else if layout.positionalFrom ≤ lead ∧ lead < layout.positionalBelow then
    if 0 ≤ d.exponent then
      text ++ "".pushn '0' d.exponent.toNat ++ layout.wholeSuffix
    else if 0 ≤ lead then
      let whole := (lead + 1).toNat
      String.ofList (text.toList.take whole) ++ "." ++ String.ofList (text.toList.drop whole)
    else "0." ++ "".pushn '0' (-lead - 1).toNat ++ text
  else
    let fraction := String.ofList (text.toList.drop 1)
    String.ofList (text.toList.take 1) ++ (if fraction.isEmpty then "" else "." ++ fraction)
      ++ layout.exponentMark ++ (if 0 ≤ lead then layout.plus else "") ++ toString lead

end Workflow.Decimal
