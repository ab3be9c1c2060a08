import Workflow.Chance
import Workflow.Definition.Basic
import Workflow.Time.Duration

/-!
# `Workflow.Retry.Backoff` — how long to wait before a retry

The delay grows from retry to retry by a constant factor, up to a greatest delay, and may be drawn at random
up to what it would be.

Covers `backoff_delay` and `apply_jitter`.
-/

namespace Workflow.Retry

/-- A power of a double, by repeated squaring from the lowest bit of the exponent. -/
def power (result base : Float) : Nat → Nat → Float
  | 0, _ => result
  | bits + 1, exponent =>
    let result := if exponent % 2 = 1 then result * base else result
    if exponent / 2 = 0 then result else power result (base * base) bits (exponent / 2)

/-- The greatest exponent of the growth factor. -/
def exponentMax : Nat := Nat.pow 2 31 - 1

/-- The delay before a retry, the first of which has number one. -/
def backoff (retrier : Retrier) (retry : Nat) : Duration :=
  let exponent := min (retry - 1) exponentMax
  let growth := power 1.0 retrier.backoffRate 31 exponent
  let delay := Duration.ofDouble (Float.ofNat retrier.intervalSeconds * growth)
  match retrier.maxDelaySeconds with
  | some most => delay.least (.ofSeconds most)
  | none => delay

/-- A delay under a jitter: the delay itself, or a whole number of milliseconds up to it. -/
def jittered (jitter : Jitter) (chance : Chance) (delay : Duration) : Duration :=
  match jitter with
  | .fixed => delay
  | .full => .ofMillis (chance.below (delay.millis + 1))

/-- Jitter never makes a delay longer. -/
theorem jittered_le (jitter : Jitter) (chance : Chance) (delay : Duration) :
    (jittered jitter chance delay).nanos ≤ delay.nanos := by
  cases jitter with
  | fixed => exact Nat.le_refl _
  | full =>
    have drawn : chance.below (delay.millis + 1) ≤ delay.millis :=
      Nat.le_of_lt_succ (Chance.below_lt chance (Nat.succ_pos _))
    have whole : delay.millis ≤ delay.nanos / Duration.nanosPerMilli := Nat.min_le_left _ _
    calc chance.below (delay.millis + 1) * Duration.nanosPerMilli
        ≤ delay.nanos / Duration.nanosPerMilli * Duration.nanosPerMilli :=
          Nat.mul_le_mul_right _ (Nat.le_trans drawn whole)
      _ ≤ delay.nanos := Nat.div_mul_le_self _ _

end Workflow.Retry
