import Workflow.Decimal.Binary64

/-!
# `Workflow.Time.Duration` — lengths of time

A duration is a whole number of nanoseconds, of which there is a greatest.

## Contents
- `Duration`, made from seconds, from milliseconds, and from a double of seconds.
- `Duration.millis` and `Duration.ticks`, rounded down and rounded up to milliseconds.
-/

namespace Workflow

/-- A length of time. -/
structure Duration where
  nanos : Nat
  deriving DecidableEq, Repr, Inhabited

namespace Duration

def nanosPerSecond : Nat := 1000000000

def nanosPerMilli : Nat := 1000000

/-- The greatest duration. -/
def longest : Duration := ⟨(Nat.pow 2 64 - 1) * nanosPerSecond + (nanosPerSecond - 1)⟩

def zero : Duration := ⟨0⟩

def ofSeconds (seconds : Nat) : Duration := ⟨seconds * nanosPerSecond⟩

def ofMillis (millis : Nat) : Duration := ⟨millis * nanosPerMilli⟩

/-- The lesser of two durations. -/
def least (a b : Duration) : Duration := ⟨min a.nanos b.nanos⟩

/-- The whole seconds. -/
def seconds (d : Duration) : Nat := d.nanos / nanosPerSecond

/-- The nanoseconds beyond the whole seconds. -/
def subsecondNanos (d : Duration) : Nat := d.nanos % nanosPerSecond

/-- The whole milliseconds, as far as 64 bits hold them. -/
def millis (d : Duration) : Nat := min (d.nanos / nanosPerMilli) (Nat.pow 2 64 - 1)

/-- The milliseconds for which a clock that ticks once a millisecond has to wait. -/
def ticks (d : Duration) : Nat := (d.nanos + (nanosPerMilli - 1)) / nanosPerMilli

/-- The quotient of two numbers, rounded to the nearest; a half goes to the even neighbour. -/
def roundDiv (num den : Nat) : Nat :=
  let low := num / den
  let rest := 2 * (num % den)
  if den < rest ∨ (rest = den ∧ low % 2 = 1) then low + 1 else low

/-- The duration of a number of seconds, rounded to the nearest nanosecond.  What is negative or undefined
counts as zero, and what is too long as the longest. -/
def ofDouble (seconds : Float) : Duration :=
  if seconds > 0.0 then
    if seconds < Float.ofNat (Nat.pow 2 64) then
      let b := Binary64.ofFloat seconds
      ⟨roundDiv (b.mantissa * nanosPerSecond * Nat.pow 2 b.exponent.toNat) (Nat.pow 2 (-b.exponent).toNat)⟩
    else longest
  else zero

end Duration

end Workflow
