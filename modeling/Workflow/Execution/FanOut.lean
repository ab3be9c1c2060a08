import Workflow.DataFlow
import Workflow.Definition.Basic

/-!
# `Workflow.Execution.FanOut` — several graphs at once

A parallel or map state hands out jobs, one for each branch or item.  Jobs are begun in order, as many at a
time as a limit allows, and may end in any order; each output is kept in the place of its job.

Covers `pending`, `join_set` and `results` of `run_parallel` and `run_map`.

## Contents
- `Job` and `FanOut`, where the jobs stand.
- `FanOut.ofJobs` and `FanOut.fill`, which begins jobs while there is room.
- `FanOut.child?`, `FanOut.replace`, `FanOut.deliver`, and `FanOut.results`.
-/

namespace Workflow.Execution

/-- A graph to be run on an input with a context object of its own.  An input that cannot be told is a fault
once the job is to begin. -/
structure Job where
  graph : Graph
  context : Json
  input : DataFlow.Outcome Json

/-- Where jobs stand; those under way are of a type of their own. -/
structure FanOut (α : Type) where
  /-- All jobs; the position of a job is its index. -/
  jobs : List Job
  /-- The greatest number of jobs under way. -/
  limit : Nat
  /-- How many jobs have begun. -/
  begun : Nat
  /-- The jobs under way, by index. -/
  running : List (Nat × α)
  /-- The outputs so far, by index. -/
  outputs : List (Nat × Json)

namespace FanOut

variable {α : Type}

/-- No job has begun yet. -/
def ofJobs (jobs : List Job) (limit : Nat) : FanOut α := ⟨jobs, limit, 0, [], []⟩

/-! ## Beginning -/

/-- The outcome of beginning jobs: where they stand, the indices of those that began, and the fault of the
first that cannot begin. -/
structure Filling (α : Type) where
  fanOut : FanOut α
  begun : List Nat
  fault : Option Fault

/-- Begins the given jobs, which are the next ones, while there is room. -/
def fillWith (begin : Nat → Job → Json → α) : List Job → FanOut α → Filling α
  | [], f => ⟨f, [], none⟩
  | job :: rest, f =>
    if f.running.length < f.limit then
      match job.input with
      | .error fault => ⟨f, [], some fault⟩
      | .ok input =>
        let filling := fillWith begin rest
          { f with begun := f.begun + 1, running := f.running ++ [(f.begun, begin f.begun job input)] }
        { filling with begun := f.begun :: filling.begun }
    else ⟨f, [], none⟩

/-- Begins jobs while there is room. -/
def fill (begin : Nat → Job → Json → α) (f : FanOut α) : Filling α :=
  fillWith begin (f.jobs.drop f.begun) f

/-! ## Jobs under way -/

/-- The job under way at an index. -/
def child? (f : FanOut α) (index : Nat) : Option α :=
  (f.running.find? (·.1 == index)).map (·.2)

/-- Puts a job under way in place of the one at its index. -/
def replace (f : FanOut α) (index : Nat) (child : α) : FanOut α :=
  { f with running := f.running.map fun c => if c.1 == index then (index, child) else c }

/-- Takes the output of the job at an index, which is no longer under way. -/
def deliver (f : FanOut α) (index : Nat) (output : Json) : FanOut α :=
  { f with
    running := f.running.filter (·.1 != index)
    outputs := (index, output) :: f.outputs }

/-- Whether no job is under way. -/
def isIdle (f : FanOut α) : Bool := f.running.isEmpty

/-- The output at an index, or null as long as there is none. -/
def outputAt (f : FanOut α) (index : Nat) : Json :=
  ((f.outputs.find? (·.1 == index)).map (·.2)).getD .null

/-- All outputs in the order of the jobs. -/
def results (f : FanOut α) : Json := .arr ((List.range f.jobs.length).map f.outputAt)

end FanOut

end Workflow.Execution
