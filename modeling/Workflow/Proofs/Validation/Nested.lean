import Workflow.Proofs.Definition.RoundTrip
import Workflow.Proofs.Validation.Acyclic
import Workflow.Validation.Finding

/-!
# `Workflow.Proofs.Validation.Nested` — graphs inside graphs

Steps into branches and item processors lead from a graph to every one inside it.  Which graph that is depends on the
steps alone, for the names of the states of a graph are in order: so they are in every definition that was read, at every
depth.

## Contents
- **Steps.** `Descent.graph?`, with `Descent.sizeOf_lt` and `graph_induct`, the induction over the graphs inside;
  `graphAt?`, for several steps, and `exists_graphAt?`.
- **Order.** `Keyed`, with `keyed_of_states`.
- **Documents.** `keyed_readTo`, by induction on the nesting, and `keyed_of_ofDatum`.
-/

namespace Workflow.Validation

variable {graph inner : Graph}

/-! ## Steps -/

namespace Descent

/-- The state whose inside a step leads to. -/
def state : Descent → String
  | .branch name _ => name
  | .processor name => name

/-- The graph inside a state to which a step leads. -/
def inside? : Descent → State → Option Graph
  | .branch _ index, .parallel _ branches => branches[index]?
  | .processor _, .map _ iteration => some iteration
  | _, _ => none

/-- The graph inside a graph to which a step leads. -/
def graph? (graph : Graph) (step : Descent) : Option Graph := (graph.state? step.state).bind step.inside?

theorem mem_graphsOf {step : Descent} {state : State} (h : step.inside? state = some inner) : inner ∈ graphsOf state := by
  unfold inside? at h
  split at h
  · exact List.mem_of_getElem? h
  · exact List.mem_singleton.mpr (Option.some.inj h).symm
  · cases h

theorem exists_inside? {state : State} (held : inner ∈ graphsOf state) (name : String) :
    ∃ step : Descent, step.state = name ∧ step.inside? state = some inner := by
  cases state with
  | parallel s branches =>
      obtain ⟨index, found⟩ := List.mem_iff_getElem?.mp held
      exact ⟨.branch name index, rfl, found⟩
  | map s iteration => exact ⟨.processor name, rfl, congrArg some (List.mem_singleton.mp held).symm⟩
  | _ => cases held

/-- A graph inside another one is smaller. -/
theorem sizeOf_lt {step : Descent} (h : step.graph? graph = some inner) : sizeOf inner < sizeOf graph := by
  obtain ⟨state, found, inside⟩ := Option.bind_eq_some_iff.mp h
  have held := mem_graphsOf inside
  have smaller : sizeOf inner < sizeOf state := by
    cases state with
    | parallel s branches =>
        have listed : sizeOf inner < sizeOf branches := List.sizeOf_lt_of_mem held
        rw [State.parallel.sizeOf_spec]
        omega
    | map s iteration =>
        rw [List.mem_singleton.mp held, State.map.sizeOf_spec]
        omega
    | _ => cases held
  obtain ⟨comment, startAt, states⟩ := graph
  have listed : sizeOf (step.state, state) < sizeOf states := List.sizeOf_lt_of_mem (Fields.mem_of_find? found)
  rw [Prod.mk.sizeOf_spec] at listed
  rw [GraphOf.mk.sizeOf_spec comment startAt states]
  omega

end Descent

/-- What holds of a graph if it holds of those inside it holds of every graph. -/
theorem graph_induct {P : Graph → Prop} (step : ∀ graph, (∀ step inner, Descent.graph? graph step = some inner → P inner) →
    P graph) (graph : Graph) : P graph :=
  step graph fun _ inner _ => graph_induct step inner
termination_by sizeOf graph
decreasing_by rename_i h; exact Descent.sizeOf_lt h

/-- The graph to which the steps from a graph lead. -/
def graphAt? : Graph → Scope → Option Graph
  | graph, [] => some graph
  | graph, step :: rest => (step.graph? graph).bind (graphAt? · rest)

/-- What follows on some steps follows on all of them. -/
theorem graphAt?_append {innermost : Graph} {scope rest : Scope} (there : graphAt? graph scope = some inner)
    (further : graphAt? inner rest = some innermost) : graphAt? graph (scope ++ rest) = some innermost := by
  induction scope generalizing graph with
  | nil =>
      cases there
      exact further
  | cons step scope ih =>
      obtain ⟨next, h, there⟩ := Option.bind_eq_some_iff.mp there
      rw [List.cons_append, graphAt?, h]
      exact ih there

/-- Every graph inside another one, at whatever depth, is one to which steps lead. -/
theorem exists_graphAt? (h : Inside graph inner) : ∃ scope, graphAt? graph scope = some inner := by
  induction h with
  | self => exact ⟨[], rfl⟩
  | @within _ _ name state _ defined held ih =>
      obtain ⟨scope, there⟩ := ih
      obtain ⟨step, rfl, led⟩ := Descent.exists_inside? held name
      refine ⟨scope ++ [step], graphAt?_append there ?_⟩
      rw [graphAt?, Descent.graph?, defined, Option.bind_some, led]
      rfl

/-! ## Order -/

/-- **In a graph, and in those inside it at every depth, the states are in the order of their names.** -/
def Keyed (graph : Graph) : Prop := ∀ scope inner, graphAt? graph scope = some inner → Fields.Sorted inner.states

theorem Keyed.sorted (keyed : Keyed graph) : Fields.Sorted graph.states := keyed [] graph rfl

theorem Keyed.inside (keyed : Keyed graph) {step : Descent} (h : step.graph? graph = some inner) : Keyed inner := by
  intro scope innermost there
  refine keyed (step :: scope) innermost ?_
  rw [graphAt?, h]
  exact there

theorem keyed_of_states (sorted : Fields.Sorted graph.states)
    (inside : ∀ entry ∈ graph.states, ∀ inner ∈ graphsOf entry.2, Keyed inner) : Keyed graph := by
  intro scope innermost there
  cases scope with
  | nil =>
      cases there
      exact sorted
  | cons step rest =>
      obtain ⟨inner, h, there⟩ := Option.bind_eq_some_iff.mp there
      obtain ⟨state, found, led⟩ := Option.bind_eq_some_iff.mp h
      exact inside _ (Fields.mem_of_find? found) inner (Descent.mem_graphsOf led) rest innermost there

/-! ## Documents -/

section Documents

open Datum (Record asFields asList)
open Datum.Reading (gives_map gives_seq gives_inside not_gives_mismatch)
open Definition (Reading)

/-- Fields that were read are in order, and each holds what was read for it. -/
theorem sorted_asFields {α : Type} {part : Datum → Reading α} {value : Datum} {fields : Fields α}
    (given : (asFields part value).Gives fields) :
    fields.Sorted ∧ ∀ entry ∈ fields, ∃ held, (part held).Gives entry.2 := by
  unfold asFields at given
  split at given
  · rename_i entries
    obtain ⟨read, hread, rfl⟩ := gives_map.mp given
    refine ⟨Fields.sorted_ofList read, fun entry inside => ?_⟩
    obtain ⟨reading, listed, gives⟩ := Datum.Reading.exists_of_gives_all hread (Fields.mem_ofList inside)
    obtain ⟨⟨key, held⟩, -, rfl⟩ := List.mem_map.mp listed
    obtain ⟨_, x, hkey, hx, rfl⟩ := gives_seq.mp gives
    obtain ⟨_, -, rfl⟩ := gives_map.mp hkey
    exact ⟨held, hx⟩
  · exact (not_gives_mismatch given).elim

variable {record : Record} {value : Datum}

/-- The states of a graph that was read are in order, and so it is at every depth if it is inside each of them. -/
theorem keyed_readWith {read : Datum → Reading State} (inside : ∀ {held : Datum} {state : State}, (read held).Gives state →
    ∀ inner ∈ graphsOf state, Keyed inner) (given : (Graph.readWith read value).Gives graph) : Keyed graph := by
  obtain ⟨record, -, -, hbody⟩ := Datum.Record.gives_read.mp given
  obtain ⟨_, states, hfirst, hstates, rfl⟩ := gives_seq.mp hbody
  obtain ⟨_, startAt, hcomment, -, rfl⟩ := gives_seq.mp hfirst
  obtain ⟨comment, -, rfl⟩ := gives_map.mp hcomment
  obtain ⟨held, -, hfields⟩ := Datum.Record.gives_required.mp hstates
  obtain ⟨sorted, each⟩ := sorted_asFields hfields
  refine keyed_of_states sorted fun entry listed inner within => ?_
  obtain ⟨held, hstate⟩ := each entry listed
  exact inside hstate inner within

/-- The graphs inside a state that was read are in order if every graph that is read is. -/
theorem keyed_ofRecord {read : Datum → Reading Graph} (inside : ∀ {held : Datum} {graph : Graph},
    (read held).Gives graph → Keyed graph) {kind : State.Kind} {state : State}
    (given : (State.ofRecord read record kind).Gives state) : ∀ inner ∈ graphsOf state, Keyed inner := by
  intro inner within
  cases kind with
  | parallel =>
      obtain ⟨_, branches, hfirst, hbranches, rfl⟩ := gives_seq.mp given
      obtain ⟨_, -, rfl⟩ := gives_map.mp hfirst
      obtain ⟨held, -, hlist⟩ := Datum.Record.gives_required.mp hbranches
      unfold asList at hlist
      split at hlist
      · obtain ⟨reading, listed, gives⟩ := Datum.Reading.exists_of_gives_all hlist within
        obtain ⟨item, -, rfl⟩ := List.mem_map.mp listed
        exact inside gives
      · exact (not_gives_mismatch hlist).elim
  | map =>
      obtain ⟨_, processor, hfirst, hprocessor, rfl⟩ := gives_seq.mp given
      obtain ⟨_, -, rfl⟩ := gives_map.mp hfirst
      obtain ⟨held, -, hgraph⟩ := Datum.Record.gives_required.mp hprocessor
      exact List.mem_singleton.mp within ▸ inside hgraph
  | _ =>
      obtain ⟨_, -, rfl⟩ := gives_map.mp given
      cases within

theorem keyed_readTo (nesting : Nat) {state : State} (given : (State.readTo nesting value).Gives state) :
    ∀ inner ∈ graphsOf state, Keyed inner := by
  induction nesting generalizing value state with
  | zero => exact (not_gives_mismatch given).elim
  | succ nesting ih =>
      -- The graphs inside are read with one state less around their own.
      rw [State.readTo] at given
      split at given
      · exact (not_gives_mismatch (gives_inside.mp given)).elim
      · obtain ⟨record, -, -, hbody⟩ := Datum.Record.gives_read.mp (gives_inside.mp given)
        exact keyed_ofRecord (keyed_readWith ih) hbody

/-- **In every definition that was read, the states are in the order of their names.** -/
theorem keyed_of_ofDatum {definition : Definition} (h : Definition.ofDatum value = .ok definition) :
    Keyed definition.graph := by
  have given := Definition.ofDatum_eq_ok.mp h
  unfold Definition.read at given
  split at given
  · obtain ⟨_, graph, hown, hgraph, rfl⟩ := gives_seq.mp given
    obtain ⟨_, -, rfl⟩ := gives_map.mp hown
    exact keyed_readWith (keyed_readTo _) (gives_inside.mp hgraph)
  · exact (not_gives_mismatch given).elim

end Documents

end Workflow.Validation
