import Workflow.Validation.Check

/-!
# `Workflow.Proofs.Validation.Check` — what it means that nothing is found

A graph is checked when no check finds anything in it.  All that the checks demand can then be relied on: every
name that a state leads to is defined in its graph, wait states say how long they wait, and the graphs inside are
checked as well.

## Contents
- **Graphs.** `Checked`, `Checked.start` and `Checked.state`: every state of a checked graph is checked.
- **States.** `Checked.transition`, `Checked.catcher`, `Checked.rules`, `Checked.default`, `Checked.delay`.
- **Inside.** `Checked.branch` and `Checked.processor`.
-/

namespace Workflow.Validation

@[simp] theorem problemIf_eq_nil {condition : Bool} {problem : StateProblem} :
    problemIf condition problem = [] ↔ condition = false := by
  cases condition <;> simp [problemIf]

@[simp] theorem targetProblems_eq_nil {defined : String → Bool} {field target : String} {leavesGraph : Bool} :
    targetProblems defined field target leavesGraph = [] ↔ defined target = true := by
  simp [targetProblems]

/-! ## Graphs -/

/-- A graph in which nothing is found, wherever it stands. -/
def Checked (options : Options) (graph : Graph) : Prop := ∃ scope, checkGraph options scope graph = []

/-- The names that a graph defines. -/
abbrev Defined (graph : Graph) (name : String) : Prop := (graph.state? name).isSome = true

/-- Nothing is found in states if nothing is found in any of them. -/
theorem checkStates_eq_nil {options : Options} {scope : Scope} {defined : String → Bool} {name : String}
    {state : State} : ∀ {states : List (String × State)}, checkStates options scope defined states = [] →
      (name, state) ∈ states → stateProblems options (!scope.isEmpty) defined state = [] ∧
        checkInside options scope name state = [] := by
  intro states
  induction states with
  | nil => intro _ hmem; cases hmem
  | cons first rest ih =>
      intro h hmem
      obtain ⟨firstName, firstState⟩ := first
      simp only [checkStates, List.append_eq_nil_iff, List.map_eq_nil_iff] at h
      rcases List.mem_cons.mp hmem with e | hrest
      · cases e
        exact h.1
      · exact ih h.2 hrest

/-- Nothing is found in branches if nothing is found in any of them. -/
theorem checked_of_checkBranches {options : Options} {scope : Scope} {name : String} {branch : Graph} :
    ∀ {branches : List Graph} {index : Nat}, checkBranches options scope name index branches = [] →
      branch ∈ branches → Checked options branch := by
  intro branches
  induction branches with
  | nil => intro _ _ hmem; cases hmem
  | cons first rest ih =>
      intro index h hmem
      simp only [checkBranches, List.append_eq_nil_iff] at h
      rcases List.mem_cons.mp hmem with rfl | hrest
      · exact ⟨_, h.1⟩
      · exact ih h.2 hrest

/-- Nothing is found in a definition only if nothing is found in its graph, unless nothing was looked for. -/
theorem checked_of_check {options : Options} {definition : Definition} (looked : options.skip = false)
    (h : check options definition = []) : Checked options definition.graph := by
  simp only [check, looked, Bool.false_eq_true, if_false, List.append_eq_nil_iff] at h
  exact ⟨[], h.2⟩

namespace Checked

variable {options : Options} {graph : Graph} {name : String}

/-- The parts of the check of a graph. -/
theorem parts (h : Checked options graph) :
    Defined graph graph.startAt ∧
      ∃ scope, checkStates options scope (fun name => (graph.state? name).isSome) graph.states = [] := by
  obtain ⟨scope, h⟩ := h
  obtain ⟨comment, startAt, states⟩ := graph
  simp only [checkGraph] at h
  split at h
  · cases h
  · simp only [List.append_eq_nil_iff, List.map_eq_nil_iff] at h
    refine ⟨?_, scope, h.1.2⟩
    have hstart := h.1.1
    simp only [startProblems] at hstart
    split at hstart
    · rename_i hdefined
      exact hdefined
    · cases hstart

/-- A checked graph defines the state at which it starts. -/
theorem start (h : Checked options graph) : Defined graph graph.startAt := h.parts.1

/-- **Every state of a checked graph is checked,** with the graphs inside it. -/
theorem state {state : State} (h : Checked options graph) (hstate : graph.state? name = some state) :
    ∃ scope, stateProblems options (!scope.isEmpty) (fun name => (graph.state? name).isSome) state = [] ∧
      checkInside options scope name state = [] := by
  obtain ⟨-, scope, hstates⟩ := h.parts
  exact ⟨scope, checkStates_eq_nil hstates (Fields.mem_of_find? hstate)⟩

/-! ## States -/

/-- The parts of the check of a state. -/
theorem stateParts {state : State} (h : Checked options graph) (hstate : graph.state? name = some state) :
    (∀ transition, state.transition? = some transition →
        transitionProblems (fun name => (graph.state? name).isSome) transition = []) ∧
      (∀ catcher ∈ state.recovery.catchers, Defined graph catcher.next) ∧
      (∀ s, state = .wait s → waitProblems s = []) ∧
      (∀ s, state = .choice s → choiceProblems options (fun name => (graph.state? name).isSome) s = []) := by
  obtain ⟨scope, hproblems, -⟩ := h.state hstate
  simp only [stateProblems, List.append_eq_nil_iff, List.flatMap_eq_nil_iff, Option.mem_toList,
    targetProblems_eq_nil] at hproblems
  obtain ⟨⟨⟨⟨htransition, hcatchers⟩, -⟩, hkind⟩, -⟩ := hproblems
  refine ⟨htransition, hcatchers, fun s e => ?_, fun s e => ?_⟩
  · subst e; exact hkind
  · subst e; exact hkind

/-- A state of a checked graph leads to a defined state, or ends the graph. -/
theorem transition {state : State} {transition : Transition} (h : Checked options graph)
    (hstate : graph.state? name = some state) (htransition : state.transition? = some transition) :
    transition.isEnd = true ∨ ∃ next, transition.next = some next ∧ Defined graph next := by
  have problems := (h.stateParts hstate).1 transition htransition
  obtain ⟨next, isEnd⟩ := transition
  cases isEnd with
  | true => exact Or.inl rfl
  | false =>
      cases next with
      | none => simp [transitionProblems] at problems
      | some next => exact Or.inr ⟨next, rfl, by simpa [transitionProblems] using problems⟩

/-- A catcher of a state of a checked graph leads to a defined state. -/
theorem catcher {state : State} {catcher : Catcher} (h : Checked options graph)
    (hstate : graph.state? name = some state) (hcatcher : catcher ∈ state.recovery.catchers) :
    Defined graph catcher.next := (h.stateParts hstate).2.1 catcher hcatcher

/-- A rule of a choice of a checked graph leads to a defined state. -/
theorem rules {s : ChoiceState} (h : Checked options graph) (hstate : graph.state? name = some (.choice s))
    {rule : Choice.Rule} (hrule : rule ∈ s.rules) : ∃ next, rule.next = some next ∧ Defined graph next := by
  have problems := (h.stateParts hstate).2.2.2 s rfl
  simp only [choiceProblems, List.append_eq_nil_iff, List.flatten_eq_nil_iff] at problems
  obtain ⟨index, hindex, hget⟩ := List.getElem_of_mem hrule
  have found := problems.1.2 _ (List.mem_mapIdx.mpr ⟨index, hindex, rfl⟩)
  rw [hget] at found
  cases hnext : rule.next with
  | none => simp [hnext] at found
  | some next => exact ⟨next, rfl, by simpa [hnext] using (List.append_eq_nil_iff.mp found).1⟩

/-- The default of a choice of a checked graph is defined. -/
theorem default {s : ChoiceState} (h : Checked options graph) (hstate : graph.state? name = some (.choice s))
    {next : String} (hnext : s.default = some next) : Defined graph next := by
  have problems := (h.stateParts hstate).2.2.2 s rfl
  simp only [choiceProblems, List.append_eq_nil_iff, List.flatMap_eq_nil_iff] at problems
  simpa using problems.2 next (by simp [hnext])

/-- A wait state of a checked graph gives a delay, and a timestamp that it gives can be read. -/
theorem delay {s : Wait} (h : Checked options graph) (hstate : graph.state? name = some (.wait s)) :
    delayCount s = 1 ∧ ∀ given, s.timestamp = some given → (Timestamp.parse? given).isSome := by
  have problems := (h.stateParts hstate).2.2.1 s rfl
  simp only [waitProblems, List.append_eq_nil_iff, List.flatMap_eq_nil_iff, problemIf_eq_nil] at problems
  refine ⟨by simpa using problems.1, fun given hgiven => ?_⟩
  have := problems.2 given (by simp [hgiven])
  cases hparse : Timestamp.parse? given with
  | none => simp [hparse] at this
  | some time => rfl

/-! ## Inside -/

theorem branch {s : Parallel} {branches : List Graph} {branch : Graph} (h : Checked options graph)
    (hstate : graph.state? name = some (.parallel s branches)) (hbranch : branch ∈ branches) :
    Checked options branch := by
  obtain ⟨scope, -, hinside⟩ := h.state hstate
  exact checked_of_checkBranches hinside hbranch

theorem processor {s : MapState} {processor : Graph} (h : Checked options graph)
    (hstate : graph.state? name = some (.map s processor)) : Checked options processor := by
  obtain ⟨scope, -, hinside⟩ := h.state hstate
  exact ⟨_, hinside⟩

end Checked

end Workflow.Validation
