import Workflow.Execution.Schedule

/-!
# `Workflow.Execution.Batch` — runs side by side

Several runs can be under way at once.  They do not know of each other: a move of one leaves the others as they
are, so that what becomes of a run does not depend on when the others move.

Covers the runs of `handle_run`.

## Contents
- `Batch`, with `Batch.start`, `Batch.move` and `Batch.play`.
- `Batch.simulate`, every run under its schedule, and `Batch.settlements`.
-/

namespace Workflow.Execution

/-- Runs side by side, each with what it was started with. -/
abbrev Batch := List (Setup × Process)

namespace Batch

/-- Runs that have just started. -/
def start (setups : List Setup) : Batch := setups.map fun setup => (setup, .start setup)

/-- The batch after a move of the process at an index, if the move is possible. -/
def move : Batch → Nat → Process.Move → Option Batch
  | [], _, _ => none
  | (setup, process) :: rest, 0, m => (process.move setup m).map fun process => (setup, process) :: rest
  | first :: rest, index + 1, m => (move rest index m).map (first :: ·)

/-- The batch after moves in turn, if all of them are possible. -/
def play (batch : Batch) : List (Nat × Process.Move) → Option Batch
  | [] => some batch
  | (index, m) :: rest => (batch.move index m).bind (play · rest)

/-- The batch after at most the given number of moves of each run, all of which are under the schedule from the
start. -/
def simulate (moves : Nat) (setups : List Setup) : Batch :=
  setups.map fun setup => (setup, ((Simulation.start setup).advance setup none moves).process)

/-- How the runs ended, in the order in which they were started. -/
def settlements (batch : Batch) : List (Option Settlement) := batch.map fun b => b.2.run.settlement

end Batch

end Workflow.Execution
