import Workflow.Proofs.Path.Writable
import Workflow.Proofs.Validation.Provenance

/-!
# `Workflow.Proofs.Validation.Expressions` — a valid definition evaluates only expressions that can be read

Some errors of an expression lie in its text: it is malformed, it is no text at all, or it names a place that nobody
can write to.  Others lie in the data: a value is missing, an argument does not fit.  Checking reads every expression
of a definition once, running evaluates them on data that nobody knows beforehand.  An expression in which nothing was
found fails only on account of the data.

## Contents
- **Errors.** `isOfText`, for the errors of paths, intrinsic calls and templates, and for causes.
- **Evaluation.** `resolve_ofData`, `injectText_ofData`, `evalTerm_ofData`, `render_ofData` and `condition_ofData`.
- **Checks.** `Site.Sound`, and `Checked.sound`: every site of a state of a checked graph is sound.
- **Runs.** `expressions_sound`.
-/

namespace Workflow

open DataFlow (FailsOnly failsOnly_ok failsOnly_error)

/-! ## Errors -/

/-- The refusals that a path brings about wherever it is used. -/
def Path.Refusal.isOfText : Path.Refusal → Bool
  | .contextIsReadOnly | .wildcardStep | .notWritable => true
  | .fieldOfNonObject _ | .indexOfNonArray _ => false

/-- The ends of a write that a path brings about wherever it is used. -/
def Path.Halt.isOfText : Path.Halt → Bool
  | .refused refusal => refusal.isOfText
  | .trapped _ => false

/-- The errors that lie in the text of a path. -/
def Path.Error.isOfText : Path.Error → Bool
  | .malformed .. => true
  | .notFound _ => false
  | .refused _ refusal => refusal.isOfText
  | .trapped _ => false

/-- The errors that lie in the text of an intrinsic call, or of a path in it. -/
def Intrinsic.Error.isOfText : Intrinsic.Error → Bool
  | .malformed .. => true
  | .path e => e.isOfText
  | .unknownFunction _ | .misuse .. => false

/-- The errors that lie in a template or in the text of an expression in it. -/
def Template.Error.isOfText : Template.Error → Bool
  | .path _ e => e.isOfText
  | .intrinsic _ e => e.isOfText
  | .notText _ => true

/-- The causes that lie in the text of an expression. -/
def Fault.Cause.isOfText : Fault.Cause → Bool
  | .path _ e => e.isOfText
  | .template e => e.isOfText
  | .malformedVariable e => e.isOfText
  | _ => false

/-- Every cause that lies in the text of an expression blames an expression. -/
theorem Fault.Cause.isOfExpression_of_isOfText {cause : Fault.Cause} (h : cause.isOfText = true) :
    cause.isOfExpression = true := by
  cases cause <;> first | rfl | cases h

namespace Path

variable {text : String}

/-! ## Paths -/

/-- A path that can be read fails only where it leads nowhere. -/
theorem resolve_ofData {writable : Bool} (h : check text writable = .ok ()) (data context : Json) :
    FailsOnly (fun e => e = .notFound text) (resolve text data context) := by
  obtain ⟨path, hpath, -⟩ := check_eq_ok.mp h
  unfold resolve
  rw [hpath]
  refine FailsOnly.bind (failsOnly_ok path) fun path _ => ?_
  simp only
  split
  · exact failsOnly_ok _
  · exact failsOnly_error rfl

/-- Items cannot be made to reach up to an index only for want of a word. -/
theorem grown_ofData (counting : Counting) (items : List Json) (position : Nat) :
    FailsOnly (fun halt => halt.isOfText = false) (counting.grown items position) := by
  unfold Counting.grown
  split
  · refine FailsOnly.map ?_ _
    unfold Counting.next
    split
    · split
      · exact failsOnly_ok _
      · exact failsOnly_error rfl
    · exact failsOnly_ok _
  · exact failsOnly_ok _

/-- A step that is definite opens every container but one that is no object or no array. -/
theorem opened_ofData {counting : Counting} {step : Step} (definite : step ≠ .wildcard) (document : Json) :
    FailsOnly (fun halt => halt.isOfText = false) (counting.opened step document) := by
  unfold Counting.opened
  split
  · exact failsOnly_ok _
  · exact (grown_ofData counting _ _).map _
  · exact failsOnly_error rfl
  · exact failsOnly_error rfl
  · exact absurd rfl definite

/-- Along definite steps, a value cannot be written only for want of an object, of an array or of a word. -/
theorem write_ofData {counting : Counting} {value : Json} : ∀ {steps : List Step} {document : Json},
    Step.wildcard ∉ steps → FailsOnly (fun halt => halt.isOfText = false) (counting.write steps document value) := by
  intro steps
  induction steps with
  | nil => exact fun _ => failsOnly_ok _
  | cons step rest ih =>
      intro document definite
      refine FailsOnly.bind (opened_ofData (fun h => definite (h ▸ List.mem_cons_self)) document) fun container _ => ?_
      split
      · exact failsOnly_error rfl
      · exact (ih fun h => definite (List.mem_cons_of_mem _ h)).map _

/-- What can be written to refuses a value only on account of the document. -/
theorem injectText_ofData (h : check text true = .ok ()) (document value : Json) :
    FailsOnly (fun e => e.isOfText = false) (injectText text document value) := by
  obtain ⟨path, hpath, writable⟩ := check_eq_ok.mp h
  obtain ⟨definite, root⟩ := writable rfl
  unfold injectText
  rw [hpath]
  have written : FailsOnly (fun halt => halt.isOfText = false) (path.inject document value) := by
    simpa only [inject, Counting.inject, root, definite, reduceCtorEq, if_false, if_true] using write_ofData definite
  refine FailsOnly.bind (failsOnly_ok path) fun same hsame => ?_
  cases hsame
  refine FailsOnly.mapError fun halt he => ?_
  have data := written halt he
  cases halt <;> exact data

end Path

namespace Validation

/-! ## Checks of paths and calls -/

@[simp] theorem pathProblems_eq_nil {field text : String} {writable : Bool} :
    pathProblems field text writable = [] ↔ Path.check text writable = .ok () := by
  unfold pathProblems
  split <;> simp_all

theorem resolve_ofText {text : String} (h : Path.check text false = .ok ()) (data context : Json) :
    FailsOnly (fun e => e.isOfText = false) (Path.resolve text data context) :=
  fun e he => Path.resolve_ofData h data context e he ▸ rfl

end Validation

namespace Intrinsic

/-! ## Intrinsic calls -/

theorem applyName_ofData (name : String) (chance : Chance) (arguments : List Json) :
    FailsOnly (fun e => e.isOfText = false) (applyName name chance arguments) := by
  unfold applyName
  split
  · exact FailsOnly.mapError fun _ _ => rfl
  · exact failsOnly_error rfl

mutual
/-- A call whose paths can be read, however deep they stand in it, fails only on account of the data. -/
theorem evalTerm_ofData : ∀ (term : Term) (scope : Scope), (∀ text ∈ term.paths, Path.check text false = .ok ()) →
    FailsOnly (fun e => e.isOfText = false) (evalTerm scope term)
  | .literal value, scope, _ => by
      unfold evalTerm
      exact failsOnly_ok _
  | .path text, scope, h => by
      unfold evalTerm
      exact FailsOnly.mapError (Validation.resolve_ofText (h text (by simp [Term.paths])) _ _)
  | .call name arguments, scope, h => by
      unfold evalTerm
      have inside := evalTerms_ofData arguments scope 0 (by simpa only [Term.paths] using h)
      split
      · exact applyName_ofData name _ _
      · rename_i e he
        exact failsOnly_error (inside e he)
theorem evalTerms_ofData : ∀ (terms : List Term) (scope : Scope) (position : Nat),
    (∀ text ∈ Term.pathsOf terms, Path.check text false = .ok ()) →
    FailsOnly (fun e => e.isOfText = false) (evalTerms scope position terms)
  | [], scope, position, _ => by
      unfold evalTerms
      exact failsOnly_ok _
  | term :: rest, scope, position, h => by
      simp only [Term.pathsOf, List.mem_append] at h
      have first := evalTerm_ofData term (scope.at position) fun text htext => h text (Or.inl htext)
      have later := evalTerms_ofData rest scope (position + 1) fun text htext => h text (Or.inr htext)
      unfold evalTerms
      split
      · exact later.map _
      · rename_i e he
        exact failsOnly_error (first e he)
end

theorem evaluate_ofData {text : String} {call : Call} (scope : Scope) (parsed : Call.parse text = .ok call)
    (h : ∀ path ∈ call.paths, Path.check path false = .ok ()) :
    FailsOnly (fun e => e.isOfText = false) (evaluate scope text) := by
  unfold evaluate
  rw [parsed]
  exact evalTerm_ofData _ scope (by simpa only [Term.paths, Call.paths] using h)

end Intrinsic

namespace Validation

/-! ## Templates -/

/-- What stands under a dynamic key and has no problems fails only on account of the data. -/
theorem evaluate_ofData {field key : String} {value : Json} (h : expressionProblems field key value = [])
    (scope : Workflow.Scope) : FailsOnly (fun e => e.isOfText = false) (Template.evaluate scope key value) := by
  cases value with
  | str text =>
      by_cases isCall : Intrinsic.isIntrinsic text = true
      · simp only [expressionProblems, isCall, if_true] at h
        simp only [Template.evaluate, isCall, if_true]
        split at h
        · rename_i call parsed
          refine FailsOnly.mapError (Intrinsic.evaluate_ofData scope parsed fun path hpath => ?_)
          exact pathProblems_eq_nil.mp (List.flatMap_eq_nil_iff.mp h path hpath)
        · cases h
      · simp only [expressionProblems, isCall] at h
        simp only [Template.evaluate, isCall]
        exact FailsOnly.mapError (resolve_ofText (pathProblems_eq_nil.mp h) _ _)
  | _ => cases h

/-- Nothing is found in what stands under dynamic keys. -/
def ReadableEntries (entries : List (String × Json)) : Prop :=
  ∀ entry ∈ entries, ∃ field, expressionProblems field entry.1 entry.2 = []

theorem readableEntries_append {first second : List (String × Json)} :
    ReadableEntries (first ++ second) ↔ ReadableEntries first ∧ ReadableEntries second :=
  List.forall_mem_append

mutual
/-- A template fails only as what stands under its dynamic keys does, however deep they stand in it. -/
theorem render_ofData : ∀ (template : Json) (scope : Workflow.Scope),
    ReadableEntries (Template.expressions template) →
    FailsOnly (fun e => e.isOfText = false) (Template.render scope template)
  | .arr items, scope, h => by
      unfold Template.render
      exact (renderItems_ofData items scope 0 (by simpa only [Template.expressions] using h)).map _
  | .obj fields, scope, h => by
      unfold Template.render
      exact (renderFields_ofData fields scope 0 [] (by simpa only [Template.expressions] using h)).map _
  | .null, scope, _ | .bool _, scope, _ | .int _, scope, _ | .float _, scope, _ | .str _, scope, _ => by
      unfold Template.render
      exact failsOnly_ok _
theorem renderItems_ofData : ∀ (items : List Json) (scope : Workflow.Scope) (position : Nat),
    ReadableEntries (Template.expressionsOfItems items) →
    FailsOnly (fun e => e.isOfText = false) (Template.renderItems scope position items)
  | [], scope, position, _ => by
      unfold Template.renderItems
      exact failsOnly_ok _
  | item :: rest, scope, position, h => by
      simp only [Template.expressionsOfItems, readableEntries_append] at h
      have first := render_ofData item (scope.at position) h.1
      have later := renderItems_ofData rest scope (position + 1) h.2
      unfold Template.renderItems
      split
      · exact later.map _
      · rename_i e he
        exact failsOnly_error (first e he)
theorem renderFields_ofData : ∀ (fields : List (String × Json)) (scope : Workflow.Scope) (position : Nat)
    (output : Fields Json), ReadableEntries (Template.expressionsOfFields fields) →
    FailsOnly (fun e => e.isOfText = false) (Template.renderFields scope position output fields)
  | [], scope, position, output, _ => by
      unfold Template.renderFields
      exact failsOnly_ok _
  | (key, value) :: rest, scope, position, output, h => by
      simp only [Template.expressionsOfFields, readableEntries_append] at h
      obtain ⟨here, beyond⟩ := h
      have later := fun output => renderFields_ofData rest scope (position + 1) output beyond
      unfold Template.renderFields
      split
      · rename_i name isDynamic
        obtain ⟨field, readable⟩ := here (key, value) (by simp [isDynamic])
        have first := evaluate_ofData readable (scope.at position)
        split
        · exact later _
        · rename_i e he
          exact failsOnly_error (first e he)
      · rename_i isStatic
        have first := render_ofData value (scope.at position) (by simpa [isStatic] using here)
        split
        · exact later _
        · rename_i e he
          exact failsOnly_error (first e he)
end

/-! ## Conditions -/

variable {data context : Json}

/-- A comparison takes a variable that does not resolve for missing, and fails for no other reason. -/
theorem comparison_ofData {comparison : Choice.Comparison} (h : comparisonProblems comparison = []) :
    FailsOnly (fun fault => fault.cause.isOfText = false) (comparison.eval data context) := by
  simp only [comparisonProblems, List.append_eq_nil_iff, pathProblems_eq_nil] at h
  obtain ⟨readable, hoperand⟩ := h
  have operand : FailsOnly (fun fault => fault.cause.isOfText = false)
      (comparison.operand.eval comparison.operator data context) := by
    cases hkind : comparison.operand with
    | literal value => exact failsOnly_ok value
    | path text =>
        rw [hkind] at hoperand
        exact FailsOnly.mapError (resolve_ofText (pathProblems_eq_nil.mp hoperand) _ _)
  unfold Choice.Comparison.eval
  cases hvalue : Path.resolve comparison.variable data context with
  | ok value =>
      exact FailsOnly.bind (failsOnly_ok _) fun value? e => FailsOnly.bind operand fun operand _ => by
        cases e
        exact failsOnly_ok _
  | error e =>
      cases Path.resolve_ofData readable data context e hvalue
      refine FailsOnly.bind (failsOnly_ok _) fun value? e => FailsOnly.bind operand fun operand _ => ?_
      cases e
      simp only
      split
      · exact failsOnly_ok _
      · exact failsOnly_error rfl

mutual
theorem condition_ofData : ∀ condition : Choice.Condition, conditionProblems condition = [] →
    FailsOnly (fun fault => fault.cause.isOfText = false) (condition.eval data context)
  | .and conditions, h => by
      unfold Choice.Condition.eval
      exact (conditions_ofData conditions h).1
  | .or conditions, h => by
      unfold Choice.Condition.eval
      exact (conditions_ofData conditions h).2
  | .not condition, h => by
      unfold Choice.Condition.eval
      exact (condition_ofData condition h).map _
  | .compare comparison, h => by
      unfold Choice.Condition.eval
      exact comparison_ofData h
theorem conditions_ofData : ∀ conditions : List Choice.Condition, conditionsProblems conditions = [] →
    FailsOnly (fun fault => fault.cause.isOfText = false) (Choice.Condition.evalAll data context conditions) ∧
      FailsOnly (fun fault => fault.cause.isOfText = false) (Choice.Condition.evalAny data context conditions)
  | [], _ => ⟨failsOnly_ok _, failsOnly_ok _⟩
  | condition :: rest, h => by
      simp only [conditionsProblems, List.append_eq_nil_iff] at h
      have first := condition_ofData condition h.1
      have later := conditions_ofData rest h.2
      unfold Choice.Condition.evalAll Choice.Condition.evalAny
      refine ⟨?_, ?_⟩
      · split
        · exact later.1
        · exact first
      · split
        · exact later.2
        · exact first
end

end Validation

/-! ## Sites -/

open Validation

/-- An expression in which nothing is found. -/
def Site.Sound : Site → Prop
  | .source _ text => Path.check text false = .ok ()
  | .target text => Path.check text true = .ok ()
  | .template value => ReadableEntries (Template.expressions value)
  | .condition test => conditionProblems test = []

/-- **A sound expression fails only on account of the data,** whatever the data is. -/
theorem Site.Sound.ofData {site : Site} {cause : Fault.Cause} (sound : site.Sound) (fails : site.Fails cause) :
    cause.isOfText = false := by
  cases fails with
  | source failed => exact resolve_ofText sound _ _ _ failed
  | target failed => exact Path.injectText_ofData sound _ _ _ failed
  | template failed => exact render_ofData _ _ sound _ failed
  | condition failed => exact condition_ofData _ sound _ failed

namespace Validation

variable {options : Options} {graph : Graph} {name : String}

/-- The expressions of a list are sound. -/
def AllSound (sites : List Site) : Prop := ∀ site ∈ sites, site.Sound

@[simp] theorem allSound_nil : AllSound [] := List.forall_mem_nil _

@[simp] theorem allSound_append {first second : List Site} :
    AllSound (first ++ second) ↔ AllSound first ∧ AllSound second := List.forall_mem_append

theorem sources_sound {field : String} {setting : Path.Setting} (h : settingProblems field setting false = []) :
    AllSound (setting.sources field) := by
  cases setting with
  | path text => exact List.forall_mem_singleton.mpr (pathProblems_eq_nil.mp h)
  | _ => exact allSound_nil

theorem targets_sound {field : String} {setting : Path.Setting} (h : settingProblems field setting true = []) :
    AllSound setting.targets := by
  cases setting with
  | path text => exact List.forall_mem_singleton.mpr (pathProblems_eq_nil.mp h)
  | _ => exact allSound_nil

theorem optional_sound {field : String} {text : Option String} (h : optionalPathProblems field text = []) :
    AllSound (Site.optional field text) := by
  cases text with
  | some text =>
      have found := List.flatMap_eq_nil_iff.mp h text (List.mem_singleton_self _)
      exact List.forall_mem_singleton.mpr (pathProblems_eq_nil.mp found)
  | none => exact allSound_nil

theorem templates_sound {field : String} {template : Option Json} (h : templateProblems field template = []) :
    AllSound (Site.templates template) := by
  cases template with
  | some template =>
      have found := List.flatMap_eq_nil_iff.mp h template (List.mem_singleton_self _)
      have readable : ReadableEntries (Template.expressions template) := fun entry hentry =>
        ⟨field, List.flatMap_eq_nil_iff.mp found entry hentry⟩
      exact List.forall_mem_singleton.mpr readable
  | none => exact allSound_nil

theorem recovery_sound {recovery : Recovery} (paths : options.checkPaths = true)
    (h : recoveryProblems options recovery = []) : AllSound recovery.sites := by
  intro site hsite
  obtain ⟨catcher, hcatcher, hsite⟩ := List.mem_flatMap.mp hsite
  simp only [recoveryProblems, paths, if_true, List.append_eq_nil_iff, List.flatten_eq_nil_iff] at h
  obtain ⟨index, hindex, rfl⟩ := List.getElem_of_mem hcatcher
  exact targets_sound (h.2 _ (List.mem_mapIdx.mpr ⟨index, hindex, rfl⟩)) site hsite

theorem rules_sound {s : ChoiceState} {defined : String → Bool} (paths : options.checkPaths = true)
    (h : choiceProblems options defined s = []) :
    AllSound (s.rules.map fun rule => .condition rule.condition) := by
  intro site hsite
  obtain ⟨rule, hrule, rfl⟩ := List.mem_map.mp hsite
  simp only [choiceProblems, paths, if_true, List.append_eq_nil_iff, List.flatten_eq_nil_iff] at h
  obtain ⟨index, hindex, rfl⟩ := List.getElem_of_mem hrule
  exact (List.append_eq_nil_iff.mp (h.1.2 _ (List.mem_mapIdx.mpr ⟨index, hindex, rfl⟩))).2

/-- **Every expression that a state of a checked graph has evaluated is sound.** -/
theorem Checked.sound {state : State} (paths : options.checkPaths = true) (h : Checked options graph)
    (hstate : graph.state? name = some state) : AllSound state.sites := by
  obtain ⟨scope, hproblems, -⟩ := h.state hstate
  simp only [stateProblems, paths, if_true, List.append_eq_nil_iff] at hproblems
  obtain ⟨⟨⟨-, hrecovery⟩, hkind⟩, hexpressions⟩ := hproblems
  have recovery := recovery_sound paths hrecovery
  cases state <;> simp only [expressionsProblems, ioProblems, List.append_eq_nil_iff] at hexpressions <;>
    simp only [State.sites, allSound_append]
  case task s =>
    obtain ⟨⟨⟨⟨⟨⟨input, output⟩, result⟩, parameters⟩, selector⟩, timeout⟩, -⟩ := hexpressions
    exact ⟨⟨⟨⟨⟨⟨sources_sound input, sources_sound output⟩, targets_sound result⟩, templates_sound parameters⟩,
      templates_sound selector⟩, optional_sound timeout⟩, recovery⟩
  case wait s =>
    obtain ⟨⟨⟨input, output⟩, seconds⟩, timestamp⟩ := hexpressions
    exact ⟨⟨⟨sources_sound input, sources_sound output⟩, optional_sound seconds⟩, optional_sound timestamp⟩
  case choice s => exact ⟨hexpressions.imp sources_sound sources_sound, rules_sound paths hkind⟩
  case pass s =>
    obtain ⟨⟨⟨input, output⟩, result⟩, parameters⟩ := hexpressions
    exact ⟨⟨⟨sources_sound input, sources_sound output⟩, targets_sound result⟩, templates_sound parameters⟩
  case succeed s => exact hexpressions.imp sources_sound sources_sound
  case fail s => exact hexpressions.imp optional_sound optional_sound
  case parallel s branches =>
    obtain ⟨⟨⟨⟨input, output⟩, result⟩, parameters⟩, selector⟩ := hexpressions
    exact ⟨⟨⟨⟨⟨sources_sound input, sources_sound output⟩, targets_sound result⟩, templates_sound parameters⟩,
      templates_sound selector⟩, recovery⟩
  case map s processor =>
    obtain ⟨⟨⟨⟨⟨input, output⟩, result⟩, itemSelector⟩, selector⟩, items⟩ := hexpressions
    exact ⟨⟨⟨⟨⟨⟨sources_sound input, sources_sound output⟩, targets_sound result⟩, optional_sound items⟩,
      templates_sound itemSelector⟩, templates_sound selector⟩, recovery⟩

end Validation

/-! ## Runs -/

namespace Execution.Run

open Validation

/-- **Validation is sound for expressions.** However a run of a definition in which nothing is found is moved, no fault
    that shows in it says that an expression is malformed, that it is no text, or that it names a place that nobody can
    write to.  Nor does any expression of any state of any graph that is under way, at any depth and on whatever
    data, fail for such a cause. -/
theorem expressions_sound (options : Options) (setup : Setup) (moves : List Move) (run : Run)
    (looked : options.skip = false) (paths : options.checkPaths = true)
    (valid : Validation.check options setup.definition = [])
    (played : (start setup).play setup moves = some run) :
    (∀ fault, run.Tells fault → fault.cause.isOfText = false) ∧
      ∀ place frame phase, run.outermost.at? place = some (.node frame phase) →
        ∀ name state, frame.graph.state? name = some state →
          ∀ site ∈ state.sites, ∀ cause, site.Fails cause → cause.isOfText = false := by
  obtain ⟨guided, explained⟩ := explained_of_play (checked_of_check looked valid) played
  refine ⟨fun fault tells => ?_, fun place frame phase underWay name state hstate site hsite cause fails => ?_⟩
  · cases ofText : fault.cause.isOfText with
    | false => rfl
    | true =>
        obtain ⟨graph, name, state, checked, hstate, site, hsite, fails⟩ :=
          explained fault tells (Fault.Cause.isOfExpression_of_isOfText ofText)
        exact ofText.symm.trans ((checked.sound paths hstate site hsite).ofData fails)
  · have checked : Checked options frame.graph := (guided.everywhere place _ underWay).checked
    exact (checked.sound paths hstate site hsite).ofData fails

/-- A template that selects what it is given from inside an array. -/
def wordedTemplate : Json := .object [("of", .arr [.object [("n.$", .str "$.n")]])]

/-- A run of two branches that compare what they get and select from it, and whose outputs a template renders. -/
def worded : Setup where
  definition :=
    let test : Choice.Condition := .not (.compare ⟨"$.n", .numeric .lessThan, .path "$$.State.RetryCount"⟩)
    let pick : ChoiceState := ⟨none, .whole, .path "$.of", [⟨test, some "Rest", none⟩], none⟩
    let rest : Succeed := ⟨none, .path "$.first", .whole⟩
    let inner : Graph := ⟨none, "Pick", [("Pick", .choice pick), ("Rest", .succeed rest)]⟩
    let fork : Parallel := ⟨none, .whole, .whole, .path "$.of", none, some wordedTemplate, .none, ⟨none, true⟩⟩
    ⟨⟨none, "Fork", [("Fork", .parallel fork [inner, inner])]⟩, none, none⟩
  host := ⟨⟨[]⟩, [], 0⟩
  machine := Setup.defaultMachine
  runId := "run"
  input := .object [("n", .int 1)]
  seed := none
  chance := default

/-- Both branches begin. -/
def wordedMoves : List Move := [.act [] .proceed]

theorem expressions_sound_worded :
    Validation.check .all worded.definition = [] ∧
      ∃ run, (start worded).play worded wordedMoves = some run ∧
        (∀ fault, run.Tells fault → fault.cause.isOfText = false) ∧
        ∃ branch, run.outermost.at? [0] = some branch ∧
          ∀ state, branch.frame.graph.state? "Pick" = some state →
            ∀ site ∈ state.sites, ∀ cause, site.Fails cause → cause.isOfText = false := by
  have valid : Validation.check .all worded.definition = [] := by
    have compared : ∀ field, pathProblems field "$.n" false = [] :=
      fun field => pathProblems_eq_nil.mpr (by cbv)
    have bound : ∀ field, pathProblems field "$$.State.RetryCount" false = [] :=
      fun field => pathProblems_eq_nil.mpr (by cbv)
    have selected : ∀ field, pathProblems field "$.of" false = [] :=
      fun field => pathProblems_eq_nil.mpr (by cbv)
    have written : ∀ field, pathProblems field "$.of" true = [] :=
      fun field => pathProblems_eq_nil.mpr (by cbv)
    have first : ∀ field, pathProblems field "$.first" false = [] :=
      fun field => pathProblems_eq_nil.mpr (by cbv)
    have template : templateProblems "ResultSelector" (some wordedTemplate) = [] := by
      have entries : Template.expressions wordedTemplate = [("n.$", .str "$.n")] := rfl
      have noCall : Intrinsic.isIntrinsic "$.n" = false := by decide +kernel
      simp only [templateProblems, entries, expressionProblems, compared, noCall, Option.toList,
        List.flatMap_cons, List.flatMap_nil]
      rfl
    simp only [check, worded, Options.all, checkGraph, checkStates, checkInside, checkBranches, stateProblems,
      expressionsProblems, ioProblems, settingProblems, comparisonProblems, conditionProblems, choiceProblems,
      List.mapIdx_cons, compared, bound, selected, written, first, template]
    rfl
  have possible : (((start worded).play worded wordedMoves).bind (·.outermost.at? [0])).isSome = true := by
    decide +kernel
  obtain ⟨branch, hbranch⟩ := Option.isSome_iff_exists.mp possible
  obtain ⟨run, played, underWay⟩ := Option.bind_eq_some_iff.mp hbranch
  have sound := expressions_sound .all worded wordedMoves run rfl rfl valid played
  obtain ⟨frame, phase⟩ := branch
  exact ⟨valid, run, played, sound.1, _, underWay, fun state => sound.2 [0] frame phase underWay "Pick" state⟩

end Execution.Run

end Workflow
