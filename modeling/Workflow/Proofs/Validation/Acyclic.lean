import Mathlib.Logic.Relation
import Workflow.Validation.Reachability

/-!
# `Workflow.Proofs.Validation.Acyclic` — graphs that lead back nowhere

Validation knows where a state may lead: to what its transition, its rules, its default and its catchers name.  A graph
is acyclic when no state leads back to itself, over however many others; and so are the graphs inside its states, for
they are run while the state is visited.

## Contents
- **One graph.** `Leads`, and `not_transGen_of_rank`: a rank that grows rules out every cycle.
- **Graphs inside.** `graphsOf` and `Inside`, and `Acyclic`, with `Acyclic.states` and `Acyclic.inside`.
-/

namespace Workflow.Validation

/-! ## One graph -/

/-- Whether the state of a name may lead to another name. -/
def Leads (graph : Graph) (name next : String) : Prop := next ∈ successorsOf graph name

instance (graph : Graph) (name next : String) : Decidable (Leads graph name next) :=
  inferInstanceAs (Decidable (_ ∈ _))

theorem leads_of_successor {graph : Graph} {name next : String} {state : State}
    (defined : graph.state? name = some state) (leads : next ∈ successors state) : Leads graph name next := by
  rw [Leads, successorsOf, defined]
  exact leads

/-- Who leads anywhere is the name of a state. -/
theorem Leads.mem {graph : Graph} {name next : String} (h : Leads graph name next) :
    name ∈ graph.states.map (·.1) := by
  cases defined : graph.state? name with
  | none =>
      rw [Leads, successorsOf, defined] at h
      cases h
  | some state => exact List.mem_map_of_mem (f := (·.1)) (Fields.mem_of_find? defined)

/-- Where every state leads only to names of a higher rank, no name leads back to itself. -/
theorem not_transGen_of_rank {graph : Graph} (rank : String → Nat)
    (grows : ∀ name ∈ graph.states.map (·.1), ∀ next ∈ successorsOf graph name, rank name < rank next)
    (name : String) : ¬Relation.TransGen (Leads graph) name name := by
  have higher : ∀ {next : String}, Relation.TransGen (Leads graph) name next → rank name < rank next := by
    intro next path
    induction path with
    | single leads => exact grows name leads.mem _ leads
    | tail _ leads ih => exact Nat.lt_trans ih (grows _ leads.mem _ leads)
  exact fun cycle => Nat.lt_irrefl _ (higher cycle)

/-! ## Graphs inside -/

/-- The graphs that a state has run: its branches, or that of its iterations. -/
def graphsOf : State → List Graph
  | .parallel _ branches => branches
  | .map _ processor => [processor]
  | _ => []

/-- A graph itself, and the graphs inside its states at any depth. -/
inductive Inside (graph : Graph) : Graph → Prop
  | self : Inside graph graph
  | within {outer inner : Graph} {name : String} {state : State} (around : Inside graph outer)
      (defined : outer.state? name = some state) (held : inner ∈ graphsOf state) : Inside graph inner

/-- **No state leads back to itself,** neither in the graph nor in any graph inside it. -/
def Acyclic (graph : Graph) : Prop :=
  ∀ inner, Inside graph inner → ∀ name, ¬Relation.TransGen (Leads inner) name name

variable {graph inner : Graph}

theorem Acyclic.states (h : Acyclic graph) (name : String) : ¬Relation.TransGen (Leads graph) name name :=
  h graph .self name

/-- What is inside a graph that is inside another one is inside that one. -/
theorem Inside.trans {innermost : Graph} (h : Inside graph inner) (h' : Inside inner innermost) :
    Inside graph innermost := by
  induction h' with
  | self => exact h
  | within _ defined held ih => exact ih.within defined held

/-- **The graphs inside an acyclic graph are acyclic.** -/
theorem Acyclic.inside (h : Acyclic graph) {name : String} {state : State} (defined : graph.state? name = some state)
    (held : inner ∈ graphsOf state) : Acyclic inner :=
  fun innermost inside => h innermost ((Inside.self.within defined held).trans inside)

end Workflow.Validation
