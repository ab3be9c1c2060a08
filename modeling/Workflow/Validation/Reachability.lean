import Workflow.Definition.Basic

/-!
# `Workflow.Validation.Reachability` — which states a graph can reach

A state leads to the states that its transition, its rules and its catchers name.  The states that can be
reached from a start are found in rounds: each round adds the defined states to which the last one leads.

Covers `successors` and `reachability`.

## Contents
- `successors`, the names to which a state leads.
- `reach`, the rounds, and `reachable`, the names reached from the start of a graph.
-/

namespace Workflow.Validation

/-- Every name to which a state leads. -/
def successors (state : State) : List String :=
  (state.transition?.bind (·.next)).toList
    ++ (match state with
      | .choice s => s.rules.filterMap (·.next) ++ s.default.toList
      | _ => [])
    ++ state.recovery.catchers.map (·.next)

/-- The names to which the state of a name leads. -/
def successorsOf (graph : Graph) (name : String) : List String :=
  ((graph.state? name).map successors).getD []

/-- Adds, as often as told, the defined states to which the states of the last round lead. -/
def reach (graph : Graph) : Nat → List String → List String → List String
  | 0, _, seen => seen
  | rounds + 1, last, seen =>
    -- Only defined states that are new are looked at in the next round.
    let fresh := ((last.flatMap (successorsOf graph)).filter fun name =>
      (graph.state? name).isSome && !seen.contains name).eraseDups
    if fresh.isEmpty then seen else reach graph rounds fresh (seen ++ fresh)

/-- The defined states that can be reached from the start of a graph. -/
def reachable (graph : Graph) : List String :=
  if (graph.state? graph.startAt).isSome then
    reach graph graph.states.length [graph.startAt] [graph.startAt]
  else []

end Workflow.Validation
