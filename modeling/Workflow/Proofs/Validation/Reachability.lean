import Workflow.Proofs.Validation.Check
import Workflow.Proofs.Validation.Nested

/-!
# `Workflow.Proofs.Validation.Reachability` — exactly the states that cannot be reached are reported

A state leads to those that its transition, its rules, its default and its catchers name, as far as the graph defines
them.  Validation follows these edges in rounds, and only as many of them as there are states; that is enough, for every
round but the last finds a state that was not seen before.  So what it has seen in the end is closed under the edges, and
the states that it reports are the others.

## Contents
- **Edges.** `Names` and `Edge`, with `edge_iff`.
- **Rounds.** `Explored`, the invariant, with `Explored.step` for a round and `Explored.run` for all of them;
  `mem_reachable`.
- **Reports.** `mem_checkGraph`, by induction over the graphs inside, and `unreachable_reported_iff`.
-/

namespace Workflow.Validation

open Relation (ReflTransGen)

variable {graph inner : Graph} {name next : String} {last seen : List String}

/-! ## Edges -/

/-- The names that a state gives for the state that comes next. -/
inductive Names : State → String → Prop
  | next {state : State} {transition : Transition} {next : String} (given : state.transition? = some transition)
      (leads : transition.next = some next) : Names state next
  | rule {choice : ChoiceState} {rule : Choice.Rule} {next : String} (held : rule ∈ choice.rules)
      (leads : rule.next = some next) : Names (.choice choice) next
  | default {choice : ChoiceState} {next : String} (given : choice.default = some next) : Names (.choice choice) next
  | catcher {state : State} {catcher : Catcher} (held : catcher ∈ state.recovery.catchers) : Names state catcher.next

/-- One state of a graph leads to another one of the same graph, or to itself. -/
def Edge (graph : Graph) (name next : String) : Prop :=
  ∃ state, graph.state? name = some state ∧ Names state next ∧ Defined graph next

theorem names_iff {state : State} : Names state next ↔ next ∈ successors state := by
  unfold successors
  rw [List.mem_append, List.mem_append, Option.mem_toList, Option.bind_eq_some_iff, List.mem_map]
  constructor
  · intro h
    cases h with
    | next given leads => exact Or.inl (Or.inl ⟨_, given, leads⟩)
    | rule held leads =>
        exact Or.inl (Or.inr (List.mem_append_left _ (List.mem_filterMap.mpr ⟨_, held, leads⟩)))
    | default given => exact Or.inl (Or.inr (List.mem_append_right _ (Option.mem_toList.mpr given)))
    | catcher held => exact Or.inr ⟨_, held, rfl⟩
  · rintro ((⟨transition, given, leads⟩ | chosen) | ⟨catcher, held, rfl⟩)
    · exact .next given leads
    · -- Only a choice state has rules and a default.
      cases state with
      | choice s =>
          rcases List.mem_append.mp chosen with ruled | given
          · obtain ⟨rule, held, leads⟩ := List.mem_filterMap.mp ruled
            exact .rule held leads
          · exact .default (Option.mem_toList.mp given)
      | _ => cases chosen
    · exact .catcher held

theorem edge_iff : Edge graph name next ↔ Leads graph name next ∧ Defined graph next := by
  unfold Edge Leads successorsOf
  cases graph.state? name with
  | none => simp
  | some state => simp [names_iff]

/-! ## Rounds -/

/-- The states of the next round: those to which the last one leads and that were not seen before. -/
def fresh (graph : Graph) (last seen : List String) : List String :=
  ((last.flatMap (successorsOf graph)).filter fun name =>
    (graph.state? name).isSome && !seen.contains name).eraseDups

theorem mem_fresh : next ∈ fresh graph last seen ↔ next ∉ seen ∧ ∃ name ∈ last, Edge graph name next := by
  unfold fresh
  rw [List.mem_eraseDups, List.mem_filter, List.mem_flatMap, Bool.and_eq_true, Bool.not_eq_true', List.contains_eq_mem,
    decide_eq_false_iff_not]
  simp only [edge_iff, Leads]
  constructor
  · rintro ⟨⟨name, inside, leads⟩, defined, new⟩
    exact ⟨new, name, inside, leads, defined⟩
  · rintro ⟨new, name, inside, leads, defined⟩
    exact ⟨⟨name, inside, leads⟩, defined, new⟩

theorem nodup_eraseDups {α : Type} [DecidableEq α] (items : List α) : items.eraseDups.Nodup := by
  cases items with
  | nil => exact .nil
  | cons item rest =>
      rw [List.eraseDups_cons, List.nodup_cons, List.mem_eraseDups]
      refine ⟨fun inside => ?_, nodup_eraseDups _⟩
      simp at inside
termination_by items.length
decreasing_by exact Nat.lt_succ_of_le (List.length_filter_le ..)

/-- **What holds after every round:** all that was seen can be reached, and only the states of the last round may lead
    to a state that was not seen. -/
structure Explored (graph : Graph) (last seen : List String) : Prop where
  nodup : seen.Nodup
  defined : ∀ name ∈ seen, Defined graph name
  start : graph.startAt ∈ seen
  inside : ∀ name ∈ last, name ∈ seen
  reached : ∀ name ∈ seen, ReflTransGen (Edge graph) graph.startAt name
  closed : ∀ name ∈ seen, name ∉ last → ∀ next, Edge graph name next → next ∈ seen

namespace Explored

theorem initial (start : Defined graph graph.startAt) : Explored graph [graph.startAt] [graph.startAt] where
  nodup := List.nodup_cons.mpr ⟨List.not_mem_nil, .nil⟩
  defined := fun _ inside => List.mem_singleton.mp inside ▸ start
  start := List.mem_singleton_self _
  inside := fun _ inside => inside
  reached := fun _ inside => List.mem_singleton.mp inside ▸ .refl
  closed := fun _ inside other => absurd inside other

/-- **A round keeps the invariant.** -/
theorem step (h : Explored graph last seen) : Explored graph (fresh graph last seen) (seen ++ fresh graph last seen) where
  nodup := by
    refine List.nodup_append.mpr ⟨h.nodup, nodup_eraseDups _, ?_⟩
    rintro name old _ new rfl
    exact (mem_fresh.mp new).1 old
  defined := by
    intro name inside
    rcases List.mem_append.mp inside with old | new
    · exact h.defined name old
    · obtain ⟨-, -, -, -, -, -, defined⟩ := mem_fresh.mp new
      exact defined
  start := List.mem_append_left _ h.start
  inside := fun name inside => List.mem_append_right _ inside
  reached := by
    intro name inside
    rcases List.mem_append.mp inside with old | new
    · exact h.reached name old
    · obtain ⟨-, earlier, inside, edge⟩ := mem_fresh.mp new
      exact (h.reached earlier (h.inside earlier inside)).tail edge
  closed := by
    intro name inside old next edge
    have before := (List.mem_append.mp inside).resolve_right old
    by_cases seenBefore : next ∈ seen
    · exact List.mem_append_left _ seenBefore
    · -- A state that leads to a new one was in the last round, and so the new one is in this round.
      have current : name ∈ last := by
        by_cases current : name ∈ last
        · exact current
        · exact absurd (h.closed name before current next edge) seenBefore
      exact List.mem_append_right _ (mem_fresh.mpr ⟨seenBefore, name, current, edge⟩)

/-- No more can be seen than is defined. -/
theorem length_le (h : Explored graph last seen) : seen.length ≤ graph.states.length := by
  have listed : seen ⊆ graph.states.map (·.1) := by
    intro name inside
    obtain ⟨state, found⟩ := Option.isSome_iff_exists.mp (h.defined name inside)
    exact List.mem_map_of_mem (f := (·.1)) (Fields.mem_of_find? found)
  exact Nat.le_trans (h.nodup.length_le_of_subset listed) (Nat.le_of_eq (List.length_map _))

/-- **The rounds end only when there is nothing left to see,** if there are more of them than states that were not seen
    yet. -/
theorem run {rounds : Nat} (h : Explored graph last seen) (enough : graph.states.length < rounds + seen.length) :
    ∃ final, Explored graph final (reach graph rounds last seen) ∧
      fresh graph final (reach graph rounds last seen) = [] := by
  induction rounds generalizing last seen with
  | zero =>
      rw [Nat.zero_add] at enough
      exact absurd h.length_le (Nat.not_le.mpr enough)
  | succ rounds ih =>
      have unfolded : reach graph (rounds + 1) last seen = if (fresh graph last seen).isEmpty then seen
          else reach graph rounds (fresh graph last seen) (seen ++ fresh graph last seen) := rfl
      rw [unfolded]
      split
      · rename_i nothing
        exact ⟨last, h, List.isEmpty_iff.mp nothing⟩
      · rename_i something
        have positive : 0 < (fresh graph last seen).length :=
          List.length_pos_iff.mpr fun nothing => something (List.isEmpty_iff.mpr nothing)
        -- The new states make up for the round that was used.
        refine ih h.step ?_
        rw [List.length_append]
        omega

/-- Where a round finds nothing, all that can be reached was seen. -/
theorem complete (h : Explored graph last seen) (nothing : fresh graph last seen = [])
    (reached : ReflTransGen (Edge graph) graph.startAt name) : name ∈ seen := by
  induction reached with
  | refl => exact h.start
  | tail _ edge ih =>
      have grown := h.step.closed _ (List.mem_append_left _ ih)
      rw [nothing, List.append_nil] at grown
      exact grown List.not_mem_nil _ edge

end Explored

/-- **The states that are found are those that can be reached.** -/
theorem mem_reachable (start : Defined graph graph.startAt) :
    name ∈ reachable graph ↔ ReflTransGen (Edge graph) graph.startAt name := by
  unfold reachable
  rw [if_pos start]
  obtain ⟨last, explored, nothing⟩ := (Explored.initial start).run (Nat.lt_succ_self graph.states.length)
  exact ⟨explored.reached name, explored.complete nothing⟩

/-- The states that are reported are the others. -/
theorem mem_unreachableProblems (start : Defined graph graph.startAt) : .unreachable name ∈ unreachableProblems graph ↔
    name ∈ graph.states.map (·.1) ∧ ¬ReflTransGen (Edge graph) graph.startAt name := by
  unfold unreachableProblems
  rw [if_pos start]
  simp only [List.mem_map, List.mem_filter, GraphProblem.unreachable.injEq, Bool.not_eq_true', List.contains_eq_mem,
    decide_eq_false_iff_not, mem_reachable start]
  constructor
  · rintro ⟨entry, ⟨inside, unreached⟩, rfl⟩
    exact ⟨⟨entry, inside, rfl⟩, unreached⟩
  · rintro ⟨⟨entry, inside, rfl⟩, unreached⟩
    exact ⟨entry, ⟨inside, unreached⟩, rfl⟩

/-! ## Reports -/

variable {options : Options} {scope place : Scope} {problem : GraphProblem}

theorem mem_checkStates {defined : String → Bool} {states : List (String × State)} :
    .graph place problem ∈ checkStates options scope defined states ↔
      ∃ entry ∈ states, .graph place problem ∈ checkInside options scope entry.1 entry.2 := by
  induction states with
  | nil => simp [checkStates]
  | cons entry rest ih =>
      have ofState : Finding.graph place problem ∉
          (stateProblems options (!scope.isEmpty) defined entry.2).map (.state scope entry.1) := by
        intro inside
        obtain ⟨_, -, same⟩ := List.mem_map.mp inside
        cases same
      rw [checkStates, List.mem_append, List.mem_append, ih, List.exists_mem_cons_iff]
      exact or_congr_left (or_iff_right ofState)

theorem mem_checkBranches {index : Nat} {branches : List Graph} :
    .graph place problem ∈ checkBranches options scope name index branches ↔
      ∃ i branch, branches[i]? = some branch ∧
        .graph place problem ∈ checkGraph options (scope ++ [.branch name (index + i)]) branch := by
  induction branches generalizing index with
  | nil => simp [checkBranches]
  | cons branch rest ih =>
      rw [checkBranches, List.mem_append, ih]
      constructor
      · rintro (first | ⟨i, later, held, found⟩)
        · exact ⟨0, branch, rfl, first⟩
        · exact ⟨i + 1, later, held, Nat.add_right_comm index 1 i ▸ found⟩
      · rintro ⟨i, later, held, found⟩
        cases i with
        | zero =>
            cases held
            exact Or.inl found
        | succ i => exact Or.inr ⟨i, later, held, Nat.add_right_comm index 1 i ▸ found⟩

/-- What is found of the graphs inside a state is what is found of one of them. -/
theorem mem_checkInside {state : State} : .graph place problem ∈ checkInside options scope name state ↔
    ∃ (step : Descent) (inner : Graph), step.state = name ∧ step.inside? state = some inner ∧
      .graph place problem ∈ checkGraph options (scope ++ [step]) inner := by
  cases state with
  | parallel s branches =>
      rw [checkInside, mem_checkBranches]
      constructor
      · rintro ⟨i, branch, held, found⟩
        exact ⟨.branch name i, branch, rfl, held, Nat.zero_add i ▸ found⟩
      · rintro ⟨step, inner, rfl, held, found⟩
        cases step with
        | branch name i => exact ⟨i, inner, held, (Nat.zero_add i).symm ▸ found⟩
        | processor name => cases held
  | map s iteration =>
      rw [checkInside]
      constructor
      · intro found
        exact ⟨.processor name, iteration, rfl, rfl, found⟩
      · rintro ⟨step, inner, rfl, held, found⟩
        cases step with
        | branch name i => cases held
        | processor name =>
            cases held
            exact found
  | _ =>
      -- States of the other kinds have no graphs inside.
      refine iff_of_false List.not_mem_nil ?_
      rintro ⟨step, inner, -, held, -⟩
      cases step <;> cases held

theorem mem_checkGraph_step (keyed : Keyed graph) : .graph place (.unreachable name) ∈ checkGraph options scope graph ↔
    (place = scope ∧ .unreachable name ∈ unreachableProblems graph) ∨
      ∃ step inner, Descent.graph? graph step = some inner ∧
        .graph place (.unreachable name) ∈ checkGraph options (scope ++ [step]) inner := by
  have sorted := keyed.sorted
  obtain ⟨comment, startAt, states⟩ := graph
  rw [checkGraph]
  split
  · rename_i empty
    cases List.isEmpty_iff.mp empty
    refine iff_of_false (fun inside => by simp at inside) ?_
    rintro (⟨-, reported⟩ | ⟨step, inner, led, -⟩)
    · cases reported
    · cases led
  · have ofStart : Finding.graph place (.unreachable name) ∉
        (startProblems ⟨comment, startAt, states⟩).map (.graph scope) := by
      unfold startProblems
      split <;> simp
    -- Reports are made after the states were checked, and graphs inside them are checked with the states.
    rw [List.mem_append, List.mem_append, or_iff_right ofStart, mem_checkStates, or_comm]
    refine or_congr ?_ ?_
    · simp only [List.mem_map, Finding.graph.injEq]
      constructor
      · rintro ⟨_, reported, rfl, rfl⟩
        exact ⟨rfl, reported⟩
      · rintro ⟨rfl, reported⟩
        exact ⟨_, reported, rfl, rfl⟩
    · simp only [mem_checkInside, Descent.graph?, Option.bind_eq_some_iff]
      constructor
      · rintro ⟨entry, listed, step, inner, named, led, found⟩
        exact ⟨step, inner, ⟨entry.2, named ▸ (Fields.find?_eq_some_iff sorted).mpr listed, led⟩, found⟩
      · rintro ⟨step, inner, ⟨state, held, led⟩, found⟩
        exact ⟨(step.state, state), Fields.mem_of_find? held, step, inner, rfl, led, found⟩

/-- **What is found in a graph is found in a graph to which steps lead,** by induction over the graphs inside. -/
theorem mem_checkGraph (keyed : Keyed graph) : .graph place (.unreachable name) ∈ checkGraph options scope graph ↔
    ∃ rest inner, place = scope ++ rest ∧ graphAt? graph rest = some inner ∧
      .unreachable name ∈ unreachableProblems inner := by
  induction graph using graph_induct generalizing scope with
  | step graph ih =>
      rw [mem_checkGraph_step keyed]
      constructor
      · rintro (⟨rfl, reported⟩ | ⟨step, inner, led, found⟩)
        · exact ⟨[], graph, (List.append_nil _).symm, rfl, reported⟩
        · obtain ⟨rest, innermost, rfl, there, reported⟩ := (ih step inner led (keyed.inside led)).mp found
          refine ⟨step :: rest, innermost, List.append_assoc .., ?_, reported⟩
          rw [graphAt?, led]
          exact there
      · rintro ⟨rest, innermost, rfl, there, reported⟩
        cases rest with
        | nil =>
            cases there
            exact Or.inl ⟨List.append_nil _, reported⟩
        | cons step rest =>
            obtain ⟨inner, led, there⟩ := Option.bind_eq_some_iff.mp there
            refine Or.inr ⟨step, inner, led, (ih step inner led (keyed.inside led)).mpr ?_⟩
            exact ⟨rest, innermost, (List.append_assoc scope [step] rest).symm, there, reported⟩

/-- What is reported to be unreachable in a definition is so in a graph to which steps lead. -/
theorem mem_check {definition : Definition} (validated : options.skip = false) (keyed : Keyed definition.graph) :
    .graph scope (.unreachable name) ∈ check options definition ↔
      ∃ inner, graphAt? definition.graph scope = some inner ∧ .unreachable name ∈ unreachableProblems inner := by
  have ofTimeout : Finding.graph scope (.unreachable name) ∉
      (if definition.timeoutSeconds = some 0 then [Finding.zeroTimeout] else []) := by
    split <;> simp
  rw [check, validated, if_neg Bool.false_ne_true, List.mem_append, or_iff_right ofTimeout, mem_checkGraph keyed]
  constructor
  · rintro ⟨_, inner, rfl, there, reported⟩
    exact ⟨inner, there, reported⟩
  · rintro ⟨inner, there, reported⟩
    exact ⟨scope, inner, rfl, there, reported⟩

/-- **Exactly the states that cannot be reached are reported,** of every graph in a definition whose start is defined:
    those of its states to which no chain of edges leads from the start. -/
theorem unreachable_reported_iff {definition : Definition} (validated : options.skip = false)
    (keyed : Keyed definition.graph) (there : graphAt? definition.graph scope = some graph)
    (start : Defined graph graph.startAt) (name : String) :
    (.graph scope (.unreachable name) ∈ check options definition ↔
      Defined graph name ∧ ¬ReflTransGen (Edge graph) graph.startAt name) ∧
    (Finding.graph scope (.unreachable name)).message =
      scope.message ++ ("state '" ++ name ++ "'" ++ " is not reachable from StartAt") := by
  refine ⟨?_, rfl⟩
  have sorted : Fields.Sorted graph.states := keyed scope graph there
  have listed : name ∈ graph.states.map (·.1) ↔ Defined graph name :=
    (Fields.mem_keys_iff sorted).trans Option.isSome_iff_exists.symm
  rw [mem_check validated keyed, ← listed, ← mem_unreachableProblems start]
  constructor
  · rintro ⟨inner, there', reported⟩
    -- The steps lead to one graph only, so that whatever is reported there is reported of this one.
    cases there.symm.trans there'
    exact reported
  · intro reported
    exact ⟨graph, there, reported⟩

/-- A graph in which the first two states lead to each other and nothing leads to the last one, which an item processor
in a branch runs. -/
def roundabout : Graph :=
  let test : Choice.Condition := .compare ⟨"$.n", .isPresent, .literal (.bool true)⟩
  let around : Recovery := ⟨[], [⟨[Fault.Name.all], "Nowhere", .whole⟩]⟩
  let first : ChoiceState := ⟨none, .whole, .whole, [⟨test, some "B", none⟩], some "A"⟩
  let second : Task := ⟨none, "b", .whole, .whole, .whole, none, none, around, none, none, none, none, ⟨some "A", false⟩⟩
  let third : Pass := ⟨none, .whole, .whole, .whole, none, none, ⟨some "B", false⟩⟩
  ⟨none, "A", [("A", .choice first), ("B", .task second), ("C", .pass third)]⟩

/-- A definition that runs the graph for every item of a branch. -/
def roundabouts : Definition :=
  let each : MapState := ⟨none, none, none, none, .whole, .whole, .whole, none, .none, ⟨none, true⟩⟩
  let fork : Parallel := ⟨none, .whole, .whole, .whole, none, none, .none, ⟨none, true⟩⟩
  let branch : Graph := ⟨none, "Each", [("Each", .map each roundabout)]⟩
  ⟨⟨none, "Fork", [("Fork", .parallel fork [branch])]⟩, none, none⟩

/-- A nested state to which nothing leads is reported, and none of those in a circle. -/
theorem unreachable_reported_roundabout :
    let scope : Scope := [.branch "Fork" 0, .processor "Each"]
    let options : Options := ⟨false, true, false⟩
    Keyed roundabouts.graph ∧ graphAt? roundabouts.graph scope = some roundabout ∧
      Defined roundabout roundabout.startAt ∧
      Finding.graph scope (.unreachable "C") ∈ check options roundabouts ∧
      ¬ReflTransGen (Edge roundabout) "A" "C" ∧
      Finding.graph scope (.unreachable "B") ∉ check options roundabouts := by
  intro scope options
  have keyed : Keyed roundabouts.graph := by
    have innermost : Keyed roundabout := keyed_of_states (by unfold Fields.Sorted; decide) (by simp [roundabout, graphsOf])
    refine keyed_of_states (by unfold Fields.Sorted; decide) ?_
    simp only [roundabouts, graphsOf, List.forall_mem_singleton]
    refine keyed_of_states (by unfold Fields.Sorted; decide) ?_
    simp only [graphsOf, List.forall_mem_singleton]
    exact innermost
  have there : graphAt? roundabouts.graph scope = some roundabout := rfl
  have start : Defined roundabout roundabout.startAt := by decide
  have exactly := unreachable_reported_iff (show options.skip = false from rfl) keyed there start
  have reported : Finding.graph scope (.unreachable "C") ∈ check options roundabouts :=
    (mem_check rfl keyed).mpr ⟨roundabout, there, by decide +kernel⟩
  refine ⟨keyed, there, start, reported, ((exactly "C").1.mp reported).2, fun wrong => ?_⟩
  refine ((exactly "B").1.mp wrong).2 (.single ⟨_, rfl, ?_, by decide⟩)
  exact .rule List.mem_cons_self rfl

end Workflow.Validation
