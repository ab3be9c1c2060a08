/-!
# `Workflow.Chance` — randomness as data

Some parts of a run are left to chance: random numbers, identifiers, tokens, jitter.  A `Chance` is a number
for every place at which chance is asked, so that everything that uses one stays a function; a law that
holds for every `Chance` holds whatever is drawn.  A source that is given a seed is none of the places: it is a
function of its seed and of the bound, and nothing else is known of it here.

## Contents
- `Chance` and `Chance.at`, the chance of a part.
- `Chance.below`, a number below a bound, and `Chance.uuid`, a random identifier.
- `Chance.drawn`, a number below a bound for a seed, and `Chance.SameSource`, that sources are deterministic.
-/

namespace Workflow

/-- A number for every place; a place is a list of positions, outermost first. -/
structure Chance where
  number : List Nat → Nat
  /-- What a source with a seed yields where a number below a bound is wanted. -/
  seeded : (seed bound : Nat) → Nat

namespace Chance

instance : Inhabited Chance := ⟨⟨fun _ => 0, fun _ _ => 0⟩⟩

/-- The chance of the part at a position. -/
def «at» (chance : Chance) (position : Nat) : Chance :=
  { chance with number := fun place => chance.number (position :: place) }

/-- A number below a bound, or zero if the bound is. -/
def below (chance : Chance) (bound : Nat) : Nat := chance.number [] % bound

theorem below_lt (chance : Chance) {bound : Nat} (h : 0 < bound) : chance.below bound < bound :=
  Nat.mod_lt _ h

/-- A number below a bound that a source with a seed yields, or zero if the bound is. -/
def drawn (chance : Chance) (seed bound : Nat) : Nat := chance.seeded seed bound % bound

/-- Two chances have the same seeded source, so that the same seed and bound yield the same number for both.  That sources
are deterministic is just this: the chance of every part of a whole has the source of the whole. -/
def SameSource (chance other : Chance) : Prop := chance.seeded = other.seeded

theorem sameSource_at (chance : Chance) (position : Nat) : (chance.at position).SameSource chance := rfl

/-- The given number of lower-case hexadecimal digits of a number. -/
def hexDigits (count n : Nat) : List Char :=
  (List.range count).map fun i => Nat.digitChar (n / Nat.pow 16 (count - 1 - i) % 16)

/-- A random identifier: thirty-two hexadecimal digits, of which one tells the kind and one is in the
range of the variant. -/
def uuid (chance : Chance) : String :=
  let n := chance.number []
  let digits := hexDigits 12 n ++ ['4'] ++ hexDigits 3 (n / Nat.pow 2 48)
    ++ [Nat.digitChar (8 + n / Nat.pow 2 60 % 4)] ++ hexDigits 15 (n / Nat.pow 2 62)
  let part (start count : Nat) := String.ofList ((digits.drop start).take count)
  part 0 8 ++ "-" ++ part 8 4 ++ "-" ++ part 12 4 ++ "-" ++ part 16 4 ++ "-" ++ part 20 12

end Chance

end Workflow
