import Workflow.Execution.Stages
import Workflow.Proofs.DataFlow
import Workflow.Proofs.Validation.Check

/-!
# `Workflow.Proofs.Validation.Stages` — stages of checked states do not lose their way

Some causes say that the definition leaves open where a run goes on, or what a state is to do.  The stages of a
state fail for other causes, provided that nothing was found in the state; where a stage picks the state that comes
next, it picks a defined one.

## Contents
- **Causes.** `Fault.Cause.isControlFlow`, and `Plain`, an outcome without such a fault.
- **Data flow.** `select_plain`, `parameters_plain`, `merge_plain`, `items_plain`, `delivery_plain`.
- **Control flow.** `choice_leads`, `follow_leads`, and `delay_plain`.
-/

namespace Workflow

/-- The causes that say that a definition leads nowhere, or leaves open what a state is to do. -/
def Fault.Cause.isControlFlow : Fault.Cause → Bool
  | .undefinedState _ | .noTransition | .ruleWithoutNext | .noDelay | .noRetrySemantics _ => true
  | .notTimestamp field _ => field == "Timestamp"
  | _ => false

/-- A fault for another cause. -/
def Fault.IsPlain (fault : Fault) : Prop := fault.cause.isControlFlow = false

theorem Fault.IsPlain.wrap {fault : Fault} (h : fault.IsPlain) (name : String) : (fault.wrap name).IsPlain := by
  unfold Fault.wrap
  split
  · exact h
  · exact h

namespace Validation

open DataFlow (Outcome FailsOnly failsOnly_ok failsOnly_error)

/-- An outcome that is no fault of control flow. -/
def Plain {α : Type} (outcome : Outcome α) : Prop := ∀ fault, outcome = .error fault → fault.IsPlain

section Plain

variable {α β ε : Type}

theorem plain_ok (value : α) : Plain (.ok value : Outcome α) := failsOnly_ok value

theorem plain_error {fault : Fault} (h : fault.IsPlain) : Plain (.error fault : Outcome α) := failsOnly_error h

theorem Plain.bind {outcome : Outcome α} {next : α → Outcome β} (h : Plain outcome)
    (hnext : ∀ value, outcome = .ok value → Plain (next value)) : Plain (outcome >>= next) := FailsOnly.bind h hnext

theorem Plain.map {outcome : Outcome α} (h : Plain outcome) (f : α → β) : Plain (outcome.map f) := FailsOnly.map h f

theorem plain_mapError {result : Except ε α} {f : ε → Fault} (h : ∀ e, (f e).IsPlain) :
    Plain (result.mapError f) := FailsOnly.mapError fun e _ => h e

end Plain

/-! ## Data flow -/

variable {raw context data : Json}

theorem select_plain (field : String) (setting : Path.Setting) :
    Plain (DataFlow.select field setting data context) := by
  unfold DataFlow.select
  split
  · exact plain_ok _
  · split
    · exact plain_ok _
    · exact plain_mapError fun _ => rfl

theorem render_plain (template : Json) (scope : Workflow.Scope) : Plain (DataFlow.render template scope) :=
  plain_mapError fun e => by
    unfold DataFlow.templateFault
    split <;> rfl

theorem parameters_plain (template : Option Json) (scope : Workflow.Scope) :
    Plain (DataFlow.parameters template scope) := by
  cases template with
  | none => exact plain_ok _
  | some template => exact render_plain template scope

theorem itemInput_plain (template : Option Json) (item : Json) (scope : Workflow.Scope) :
    Plain (DataFlow.itemInput template item scope) := by
  cases template with
  | none => exact plain_ok _
  | some template => exact render_plain template scope

theorem merge_plain (setting : Path.Setting) (result : Json) : Plain (DataFlow.merge setting raw result) := by
  unfold DataFlow.merge
  split
  · exact plain_ok _
  · split
    · exact plain_ok _
    · exact plain_mapError fun e => by cases e <;> rfl

theorem items_plain (path : Option String) : Plain (DataFlow.items path data context) := by
  unfold DataFlow.items
  simp only
  split
  · exact plain_ok _
  · exact plain_error rfl
  · exact plain_error rfl

theorem required_plain (field path : String) : Plain (DataFlow.required field path data context) :=
  plain_mapError fun _ => rfl

theorem delivery_plain (d : Delivery) (chance : Chance) (result : Json) :
    Plain (d.apply raw context chance result) :=
  (parameters_plain _ _).bind fun _ _ => (merge_plain _ _).bind fun _ _ => select_plain _ _

theorem succeed_plain (s : Succeed) : Plain (s.output raw context) :=
  (select_plain _ _).bind fun _ _ => select_plain _ _

theorem pass_plain (s : Pass) (chance : Chance) : Plain (s.output raw context chance) := by
  have merged : ∀ result, Plain (do
      let merged ← DataFlow.merge s.resultPath raw result
      DataFlow.output s.outputPath merged context) :=
    fun result => (merge_plain _ _).bind fun _ _ => select_plain _ _
  refine (select_plain _ _).bind fun effective _ => ?_
  simp only
  split
  · exact (plain_ok _).bind fun result _ => merged result
  · exact (parameters_plain _ _).bind fun result _ => merged result

/-- The fault of a fail state is the one that the definition names, or says that it cannot be told. -/
theorem fail_plain (s : Fail) : (s.fault raw context).IsPlain := by
  have text : ∀ literal path field, Plain (Fail.textOf literal path field raw context) := by
    intro literal path field
    unfold Fail.textOf
    split
    · exact plain_ok _
    · exact (required_plain _ _).map _
    · exact plain_ok _
  unfold Fail.fault
  simp only
  split
  · rename_i fault h
    obtain ⟨name, -, h⟩ := DataFlow.bind_eq_ok.mp h
    obtain ⟨message, -, h⟩ := DataFlow.bind_eq_ok.mp h
    cases h
    rfl
  · rename_i fault h
    exact (text _ _ _).bind (fun _ _ => (text _ _ _).bind fun _ _ => plain_ok _) fault h

theorem limit_plain (s : Task) : Plain (s.limit data context) := by
  unfold Task.limit
  split
  · exact plain_ok _
  · exact plain_ok _
  · refine (required_plain _ _).bind fun value _ => ?_
    split
    · exact plain_ok _
    · exact plain_error rfl

/-! ## Control flow -/

theorem comparison_plain (comparison : Choice.Comparison) : Plain (comparison.eval data context) := by
  have operand : Plain (comparison.operand.eval comparison.operator data context) := by
    cases comparison.operand with
    | literal value => exact plain_ok value
    | path text => exact plain_mapError fun _ => rfl
  unfold Choice.Comparison.eval
  simp only
  split
  · refine (plain_ok _).bind fun value? h => operand.bind fun operand _ => ?_
    cases Except.ok.inj h
    exact plain_ok _
  · refine (plain_ok _).bind fun value? h => operand.bind fun operand _ => ?_
    cases Except.ok.inj h
    simp only
    split
    · exact plain_ok _
    · exact plain_error rfl
  · refine Plain.bind (fun fault e => ?_) fun value? h => nomatch h
    cases e
    rfl

mutual
theorem condition_plain : ∀ condition : Choice.Condition, Plain (condition.eval data context)
  | .and conditions => by
      unfold Choice.Condition.eval
      exact conditions_plain_all conditions
  | .or conditions => by
      unfold Choice.Condition.eval
      exact conditions_plain_any conditions
  | .not condition => by
      unfold Choice.Condition.eval
      exact (condition_plain condition).map _
  | .compare comparison => by
      unfold Choice.Condition.eval
      exact comparison_plain comparison
theorem conditions_plain_all : ∀ conditions : List Choice.Condition,
    Plain (Choice.Condition.evalAll data context conditions)
  | [] => plain_ok _
  | condition :: rest => by
      unfold Choice.Condition.evalAll
      split
      · exact conditions_plain_all rest
      · exact condition_plain condition
theorem conditions_plain_any : ∀ conditions : List Choice.Condition,
    Plain (Choice.Condition.evalAny data context conditions)
  | [] => plain_ok _
  | condition :: rest => by
      unfold Choice.Condition.evalAny
      split
      · exact conditions_plain_any rest
      · exact condition_plain condition
end

/-- A choice among rules that all lead somewhere leads where one of them does, or to the default. -/
theorem choose_leads {leads : String → Prop} {default : Option String}
    (hdefault : ∀ next, default = some next → leads next) :
    ∀ {rules : List Choice.Rule}, (∀ rule ∈ rules, ∃ next, rule.next = some next ∧ leads next) →
      Plain (Choice.choose default data context rules) ∧
        ∀ next, Choice.choose default data context rules = .ok next → leads next := by
  intro rules
  induction rules with
  | nil =>
      intro _
      unfold Choice.choose
      cases default with
      | none => exact ⟨plain_error rfl, fun _ e => nomatch e⟩
      | some state => exact ⟨plain_ok _, fun next e => by cases e; exact hdefault state rfl⟩
  | cons rule rest ih =>
      intro hrules
      obtain ⟨target, htarget, leads⟩ := hrules rule List.mem_cons_self
      have later := ih fun rule hrule => hrules rule (List.mem_cons_of_mem _ hrule)
      unfold Choice.choose
      -- A rule whose condition fails ends the choice, one that does not hold leaves it to the rest.
      cases hcondition : rule.condition.eval data context with
      | error fault =>
          exact ⟨plain_error (condition_plain rule.condition fault hcondition), fun _ e => nomatch e⟩
      | ok holds =>
          cases holds with
          | false => exact later
          | true =>
              simp only [htarget]
              exact ⟨plain_ok _, fun next e => by cases e; exact leads⟩

variable {options : Options} {graph : Graph} {name : String}

/-- A choice of a checked graph leads to a defined state. -/
theorem choice_leads {s : ChoiceState} (h : Checked options graph)
    (hstate : graph.state? name = some (.choice s)) :
    Plain (s.exit raw context) ∧ ∀ exit, s.exit raw context = .ok exit → Defined graph exit.1 := by
  have leads : ∀ effective, Plain (Choice.choose s.default effective context s.rules) ∧
      ∀ next, Choice.choose s.default effective context s.rules = .ok next → Defined graph next :=
    fun effective => choose_leads (fun _ => h.default hstate) (fun _ => h.rules hstate)
  refine ⟨(select_plain _ _).bind fun effective _ => (leads effective).1.bind fun _ _ =>
    (select_plain _ _).bind fun _ _ => plain_ok _, fun exit e => ?_⟩
  obtain ⟨effective, -, e⟩ := DataFlow.bind_eq_ok.mp e
  obtain ⟨next, hnext, e⟩ := DataFlow.bind_eq_ok.mp e
  obtain ⟨output, -, e⟩ := DataFlow.bind_eq_ok.mp e
  cases e
  exact (leads effective).2 next hnext

/-- A state of a checked graph is followed by a defined one, or by none. -/
theorem follow_leads {state : State} {transition : Transition} (h : Checked options graph)
    (hstate : graph.state? name = some state) (htransition : state.transition? = some transition) :
    ∃ next, transition.follow = .ok next ∧ ∀ target, next = some target → Defined graph target := by
  unfold Transition.follow
  rcases h.transition hstate htransition with isEnd | ⟨next, hnext, hdefined⟩
  · exact ⟨none, by simp [isEnd], fun _ e => nomatch e⟩
  · cases hend : transition.isEnd with
    | true => exact ⟨none, by simp, fun _ e => nomatch e⟩
    | false => exact ⟨some next, by simp [hnext], fun target e => by cases e; exact hdefined⟩

theorem delayUntil_plain {field : String} {value : Json} {now : Nat}
    (h : field = "Timestamp" → (Choice.timestamp? value).isSome) : Plain (Wait.delayUntil field value now) := by
  unfold Wait.delayUntil
  split
  · exact plain_ok _
  · rename_i unread
    refine plain_error ?_
    by_cases hfield : field = "Timestamp"
    · rw [unread] at h
      exact absurd (h hfield) (by simp)
    · simp [Fault.IsPlain, Fault.runtime, Fault.new, Fault.Cause.isControlFlow, hfield]

/-- A wait state of a checked graph says how long it waits. -/
theorem delay_plain {s : Wait} (h : Checked options graph) (hstate : graph.state? name = some (.wait s))
    {now : Nat} : Plain (s.delay data context now) := by
  obtain ⟨count, timestamp⟩ := h.delay hstate
  unfold Wait.delay
  split
  · exact plain_ok _
  · rename_i given _ hgiven
    exact delayUntil_plain fun _ => timestamp given hgiven
  · refine (required_plain _ _).bind fun value _ => ?_
    split
    · exact plain_ok _
    · exact plain_error rfl
  · exact (required_plain _ _).bind fun value _ => delayUntil_plain fun e => absurd e (by decide)
  · rename_i h₁ h₂ h₃ h₄
    simp [delayCount, h₁, h₂, h₃, h₄] at count

end Validation

end Workflow
