/-!
# `Workflow.Trap` — steps that break off

A step may end where it can neither go on nor fail: a sum is no machine word, an array has no item where one is
addressed, or a handler gives up without an answer.  No rule of a definition is for such a trap.  It takes down the
task in which it happens, and who waits for that task is told.

## Contents
- `Trap`, with its wording.
-/

namespace Workflow

/-- Why a step can neither go on nor fail. -/
inductive Trap where
  /-- A sum is no word. -/
  | overflow
  /-- There is no item at an index. -/
  | outOfBounds
  /-- A handler gives up with a message. -/
  | raised (message : String)
  deriving DecidableEq, Repr

/-- The wording of a trap. -/
def Trap.message : Trap → String
  | .overflow => "attempt to add with overflow"
  | .outOfBounds => "index out of bounds"
  | .raised message => message

end Workflow
