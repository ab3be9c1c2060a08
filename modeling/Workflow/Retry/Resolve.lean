import Workflow.DataFlow
import Workflow.Retry.Backoff

/-!
# `Workflow.Retry.Resolve` — what to do about a fault

The first retrier that is for a fault decides whether the state is invoked again; it does so until the
invocations that it allows are used up.  Otherwise the first catcher that is for the fault takes over, and
without one the fault is passed on.

Covers `RetryCounters`, `matching_retrier`, `matching_catcher`, `matches` and `resolve`.

## Contents
- `Counters`, how often each retrier came up during one entry into a state.
- `Decision`, and `resolve`, which decides and counts.
-/

namespace Workflow.Retry

/-! ## Counters -/

/-- How often each retrier came up, and how many retries there were. -/
structure Counters where
  failures : List Nat
  retries : Nat
  deriving DecidableEq, Repr

namespace Counters

/-- Nothing has happened yet. -/
def start (retriers : Nat) : Counters := ⟨List.replicate retriers 0, 0⟩

/-- How often a retrier came up. -/
def count (counters : Counters) (index : Nat) : Nat := (counters.failures[index]?).getD 0

/-- Counts a failure of a retrier. -/
def record (counters : Counters) (index : Nat) : Counters :=
  let padded :=
    counters.failures ++ List.replicate (index + 1 - counters.failures.length) 0
  { counters with failures := padded.set index (counters.count index + 1) }

end Counters

/-! ## Decisions -/

/-- What to do about a fault. -/
inductive Decision where
  /-- Invoke the state again after a delay; the invocation has the given number. -/
  | retry (attempt : Nat) (delay : Duration)
  /-- Go on elsewhere. -/
  | handle (next : String) (output : Json)
  | propagate (fault : Fault)

/-- Whether one of several names stands for a fault. -/
def isFor (errors : List String) (fault : Fault) : Bool := errors.any fault.matches

/-- The position of the first retrier that is for a fault. -/
def retrierFor? (retriers : List Retrier) (fault : Fault) : Option Nat :=
  retriers.findIdx? fun r => isFor r.errors fault

/-- The first catcher that is for a fault. -/
def catcherFor? (catchers : List Catcher) (fault : Fault) : Option Catcher :=
  catchers.find? fun c => isFor c.errors fault

/-- Hands a fault to the catchers. -/
def handOver (catchers : List Catcher) (fault : Fault) (raw : Json) : Decision :=
  match catcherFor? catchers fault with
  | none => .propagate fault
  | some catcher =>
    match DataFlow.merge catcher.resultPath raw fault.toJson with
    | .ok output => .handle catcher.next output
    | .error fault => .propagate fault

/-- Decides what to do about a fault and counts it. -/
def resolve (recovery : Recovery) (fault : Fault) (raw : Json) (chance : Chance)
    (counters : Counters) : Decision × Counters :=
  match (retrierFor? recovery.retriers fault).bind fun i => recovery.retriers[i]?.map (i, ·) with
  | none => (handOver recovery.catchers fault raw, counters)
  | some (index, retrier) =>
    -- The failure is counted also where it is the last that the retrier allows.
    let counters := counters.record index
    let failures := counters.count index
    if failures < retrier.maxAttempts then
      (.retry (failures + 1) (jittered retrier.jitter chance (backoff retrier failures)),
        { counters with retries := counters.retries + 1 })
    else (handOver recovery.catchers fault raw, counters)

end Workflow.Retry
