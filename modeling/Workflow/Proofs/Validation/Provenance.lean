import Workflow.Proofs.DataFlow
import Workflow.Proofs.Validation.ControlFlow

/-!
# `Workflow.Proofs.Validation.Provenance` — where the faults of a run come from

A fault that blames an expression comes from one that some state holds.  `State.sites` lists them all, each with
what it is evaluated for, so that whatever is shown of every site of a definition holds of every fault in its runs.
The stages evaluate nothing else; the turns bring up what a stage or a handler brings up, or what a job ended with.

## Contents
- **Sites.** `Site` and `Site.Fails`, `State.sites`, and `Explains`: a cause is that of a site, or blames no
  expression.
- **Stages.** `delivery_explained`, `choice_explained` and their like, one for each stage.
- **Turns.** `respond_explained`, by way of one lemma for each function of a turn.
- **Runs.** `Run.explained_of_play`.
-/

namespace Workflow

open DataFlow (FailsOnly failsOnly_ok failsOnly_error)

/-! ## Sites -/

/-- An expression of a state, by what it is evaluated for. -/
inductive Site where
  /-- Read through; the field is the one that is blamed. -/
  | source (field text : String)
  /-- Written through. -/
  | target (text : String)
  | template (template : Json)
  | condition (condition : Choice.Condition)

/-- The cause for which an expression fails on some data. -/
inductive Site.Fails : Site → Fault.Cause → Prop
  | source {field text : String} {data context : Json} {e : Path.Error}
      (failed : Path.resolve text data context = .error e) : Fails (.source field text) (.path field e)
  | target {text : String} {document value : Json} {e : Path.Error}
      (failed : Path.injectText text document value = .error e) : Fails (.target text) (.path "ResultPath" e)
  | template {template : Json} {scope : Scope} {e : Template.Error}
      (failed : Template.render scope template = .error e) : Fails (.template template) (.template e)
  | condition {condition : Choice.Condition} {data context : Json} {fault : Fault}
      (failed : condition.eval data context = .error fault) : Fails (.condition condition) fault.cause

/-- The expression of a setting through which data is read. -/
def Path.Setting.sources (field : String) : Path.Setting → List Site
  | .path text => [.source field text]
  | _ => []

/-- The expression of a setting through which data is written. -/
def Path.Setting.targets : Path.Setting → List Site
  | .path text => [.target text]
  | _ => []

/-- The expression of a path that may be absent. -/
def Site.optional (field : String) (text : Option String) : List Site := text.toList.map (.source field)

/-- The expressions of a template that may be absent. -/
def Site.templates (template : Option Json) : List Site := template.toList.map .template

/-- The expressions of the catchers of a state. -/
def Recovery.sites (recovery : Recovery) : List Site := recovery.catchers.flatMap (·.resultPath.targets)

/-- **Everything that a state has evaluated,** apart from the graphs inside it. -/
def State.sites : State → List Site
  | .task s =>
    s.inputPath.sources "InputPath" ++ s.outputPath.sources "OutputPath" ++ s.resultPath.targets
      ++ Site.templates s.parameters ++ Site.templates s.resultSelector
      ++ Site.optional "TimeoutSecondsPath" s.timeoutSecondsPath ++ s.recovery.sites
  | .wait s =>
    s.inputPath.sources "InputPath" ++ s.outputPath.sources "OutputPath"
      ++ Site.optional "SecondsPath" s.secondsPath ++ Site.optional "TimestampPath" s.timestampPath
  | .choice s =>
    s.inputPath.sources "InputPath" ++ s.outputPath.sources "OutputPath"
      ++ s.rules.map fun rule => .condition rule.condition
  | .pass s =>
    s.inputPath.sources "InputPath" ++ s.outputPath.sources "OutputPath" ++ s.resultPath.targets
      ++ Site.templates s.parameters
  | .succeed s => s.inputPath.sources "InputPath" ++ s.outputPath.sources "OutputPath"
  | .fail s => Site.optional "ErrorPath" s.errorPath ++ Site.optional "CausePath" s.causePath
  | .parallel s _ =>
    s.inputPath.sources "InputPath" ++ s.outputPath.sources "OutputPath" ++ s.resultPath.targets
      ++ Site.templates s.parameters ++ Site.templates s.resultSelector ++ s.recovery.sites
  | .map s _ =>
    s.inputPath.sources "InputPath" ++ s.outputPath.sources "OutputPath" ++ s.resultPath.targets
      ++ Site.optional "ItemsPath" s.itemsPath ++ Site.templates s.itemSelector
      ++ Site.templates s.resultSelector ++ s.recovery.sites

/-- The causes that blame an expression. -/
def Fault.Cause.isOfExpression : Fault.Cause → Bool
  | .path .. | .template _ | .malformedVariable _ | .missingVariable _ => true
  | _ => false

/-- A cause that blames an expression, if at all, blames one of the given sites. -/
def Explains (sites : List Site) (cause : Fault.Cause) : Prop :=
  cause.isOfExpression = true → ∃ site ∈ sites, site.Fails cause

theorem explains_other {sites : List Site} {cause : Fault.Cause} (h : cause.isOfExpression = false) :
    Explains sites cause := fun blames => absurd (h.symm.trans blames) (by simp)

theorem explains_site {sites : List Site} {site : Site} {cause : Fault.Cause} (mem : site ∈ sites)
    (fails : site.Fails cause) : Explains sites cause := fun _ => ⟨site, mem, fails⟩

/-- An outcome whose fault, if there is one, is explained by the given sites. -/
abbrev ExplainedBy {α : Type} (sites : List Site) (outcome : DataFlow.Outcome α) : Prop :=
  FailsOnly (fun fault => Explains sites fault.cause) outcome

/-! ## Stages -/

namespace Validation

variable {sites : List Site} {raw context data : Json}

theorem select_explained {field : String} {setting : Path.Setting} (sub : setting.sources field ⊆ sites) :
    ExplainedBy sites (DataFlow.select field setting data context) := by
  unfold DataFlow.select
  split
  · exact failsOnly_ok _
  · rename_i path htext
    split
    · exact failsOnly_ok _
    · refine FailsOnly.mapError fun e he => explains_site (sub ?_) (.source he)
      cases setting with
      | whole => cases htext; contradiction
      | nothing => cases htext
      | path text => cases htext; exact List.mem_singleton_self _

theorem merge_explained {setting : Path.Setting} (sub : setting.targets ⊆ sites) (result : Json) :
    ExplainedBy sites (DataFlow.merge setting raw result) := by
  unfold DataFlow.merge
  split
  · exact failsOnly_ok _
  · rename_i path htext
    split
    · exact failsOnly_ok _
    · have mem : Site.target path ∈ sites := by
        refine sub ?_
        cases setting with
        | whole => cases htext; contradiction
        | nothing => cases htext
        | path text => cases htext; exact List.mem_singleton_self _
      refine FailsOnly.mapError fun e he => ?_
      cases e with
      | trapped trap => exact explains_other rfl
      | _ => exact explains_site mem (.target he)

theorem render_explained {template : Json} (mem : .template template ∈ sites) (scope : Workflow.Scope) :
    ExplainedBy sites (DataFlow.render template scope) :=
  FailsOnly.mapError fun e he => by
    show Explains sites (DataFlow.templateFault e).cause
    unfold DataFlow.templateFault
    split
    · exact explains_other rfl
    · exact explains_site mem (.template he)
    · exact explains_site mem (.template he)

theorem parameters_explained {template : Option Json} (sub : Site.templates template ⊆ sites)
    (scope : Workflow.Scope) : ExplainedBy sites (DataFlow.parameters template scope) := by
  cases template with
  | none => exact failsOnly_ok _
  | some template => exact render_explained (sub (List.mem_singleton_self _)) scope

theorem itemInput_explained {template : Option Json} (sub : Site.templates template ⊆ sites) (item : Json)
    (scope : Workflow.Scope) : ExplainedBy sites (DataFlow.itemInput template item scope) := by
  cases template with
  | none => exact failsOnly_ok _
  | some template => exact render_explained (sub (List.mem_singleton_self _)) scope

theorem required_explained {field path : String} (mem : .source field path ∈ sites) :
    ExplainedBy sites (DataFlow.required field path data context) :=
  FailsOnly.mapError fun _ he => explains_site mem (.source he)

/-- The path of the whole data selects the whole data. -/
theorem resolve_dataRoot : Path.resolve Path.dataRoot data context = .ok data := by
  have parsed : Path.parse Path.dataRoot = .ok ⟨.data, []⟩ := by
    simp [Path.parse, Path.dataRoot, Path.parseSteps, Except.map]
  have definite : Path.Definite ⟨.data, []⟩ := by decide
  simp [Path.resolve, Path.ofText, parsed, Except.mapError, bind, Except.bind, Path.select?, definite, Path.walk?]

/-- Without a path to them the items are the whole data, which a map need not find. -/
theorem items_explained {path : Option String} (sub : Site.optional "ItemsPath" path ⊆ sites) :
    ExplainedBy sites (DataFlow.items path data context) := by
  unfold DataFlow.items
  simp only
  split
  · exact failsOnly_ok _
  · exact failsOnly_error (explains_other rfl)
  · rename_i e he
    cases path with
    | none => cases (resolve_dataRoot.symm.trans he)
    | some text => exact failsOnly_error (explains_site (sub (List.mem_singleton_self _)) (.source he))

/-- A choice fails as one of its conditions does, or because it leads nowhere. -/
theorem choose_explained {default : Option String} : ∀ {rules : List Choice.Rule},
    (∀ rule ∈ rules, .condition rule.condition ∈ sites) →
      ExplainedBy sites (Choice.choose default data context rules) := by
  intro rules
  induction rules with
  | nil =>
      intro _
      unfold Choice.choose
      cases default with
      | none => exact failsOnly_error (explains_other rfl)
      | some state => exact failsOnly_ok _
  | cons rule rest ih =>
      intro conditions
      unfold Choice.choose
      split
      · split
        · exact failsOnly_ok _
        · exact failsOnly_error (explains_other rfl)
      · exact ih fun other hother => conditions other (List.mem_cons_of_mem _ hother)
      · rename_i fault failed
        exact failsOnly_error (explains_site (conditions rule List.mem_cons_self) (.condition failed))

/-! ## States -/

theorem succeed_explained (s : Succeed) : ExplainedBy (State.succeed s).sites (s.output raw context) :=
  FailsOnly.bind (select_explained (by grind [State.sites])) fun _ _ => select_explained (by grind [State.sites])

/-- The fault of a fail state is the one that the definition names, unless a path to it fails. -/
theorem fail_explained (s : Fail) : Explains (State.fail s).sites (s.fault raw context).cause := by
  have text : ∀ literal path field, Site.optional field path ⊆ (State.fail s).sites →
      ExplainedBy (State.fail s).sites (Fail.textOf literal path field raw context) := by
    intro literal path field sub
    unfold Fail.textOf
    split
    · exact failsOnly_ok _
    · exact (required_explained (sub (List.mem_singleton_self _))).map _
    · exact failsOnly_ok _
  unfold Fail.fault
  simp only
  split
  · rename_i fault h
    obtain ⟨name, -, h⟩ := DataFlow.bind_eq_ok.mp h
    obtain ⟨message, -, h⟩ := DataFlow.bind_eq_ok.mp h
    cases h
    exact explains_other rfl
  · rename_i fault h
    exact FailsOnly.bind (text _ _ _ (by grind [State.sites])) (fun _ _ =>
      FailsOnly.bind (text _ _ _ (by grind [State.sites])) fun _ _ => failsOnly_ok _) fault h

theorem choice_explained (s : ChoiceState) : ExplainedBy (State.choice s).sites (s.exit raw context) := by
  have conditions : ∀ rule ∈ s.rules, .condition rule.condition ∈ (State.choice s).sites := by
    intro rule hrule
    simp only [State.sites, List.mem_append, List.mem_map]
    exact Or.inr ⟨rule, hrule, rfl⟩
  exact FailsOnly.bind (select_explained (by grind [State.sites])) fun _ _ =>
    FailsOnly.bind (choose_explained conditions) fun _ _ =>
      FailsOnly.bind (select_explained (by grind [State.sites])) fun _ _ => failsOnly_ok _

theorem pass_explained (s : Pass) (chance : Chance) :
    ExplainedBy (State.pass s).sites (s.output raw context chance) := by
  have merged : ∀ result, ExplainedBy (State.pass s).sites (do
      let merged ← DataFlow.merge s.resultPath raw result
      DataFlow.output s.outputPath merged context) := fun result =>
    FailsOnly.bind (merge_explained (by grind [State.sites]) result) fun _ _ =>
      select_explained (by grind [State.sites])
  refine FailsOnly.bind (select_explained (by grind [State.sites])) fun effective _ => ?_
  simp only
  split
  · exact FailsOnly.bind (failsOnly_ok _) fun result _ => merged result
  · exact FailsOnly.bind (parameters_explained (by grind [State.sites]) _) fun result _ => merged result

theorem delay_explained (s : Wait) (now : Nat) :
    ExplainedBy (State.wait s).sites (s.delay data context now) := by
  have until_explained : ∀ field value, ExplainedBy (State.wait s).sites (Wait.delayUntil field value now) := by
    intro field value
    unfold Wait.delayUntil
    split
    · exact failsOnly_ok _
    · exact failsOnly_error (explains_other rfl)
  unfold Wait.delay
  split
  · exact failsOnly_ok _
  · exact until_explained _ _
  · rename_i path _ _ hpath
    refine FailsOnly.bind (required_explained (by simp [State.sites, Site.optional, hpath])) fun value _ => ?_
    split
    · exact failsOnly_ok _
    · exact failsOnly_error (explains_other rfl)
  · rename_i path _ _ _ hpath
    exact FailsOnly.bind (required_explained (by simp [State.sites, Site.optional, hpath])) fun value _ =>
      until_explained _ _
  · exact failsOnly_error (explains_other rfl)

theorem limit_explained (s : Task) : ExplainedBy (State.task s).sites (s.limit data context) := by
  unfold Task.limit
  split
  · exact failsOnly_ok _
  · exact failsOnly_ok _
  · rename_i path _ hpath
    refine FailsOnly.bind (required_explained (by simp [State.sites, Site.optional, hpath])) fun value _ => ?_
    split
    · exact failsOnly_ok _
    · exact failsOnly_error (explains_other rfl)

theorem delivery_explained (state : State) (chance : Chance) (result : Json) :
    ExplainedBy state.sites (state.delivery.apply raw context chance result) := by
  have sub : Site.templates state.delivery.selector ⊆ state.sites ∧
      state.delivery.resultPath.targets ⊆ state.sites ∧
      state.delivery.outputPath.sources "OutputPath" ⊆ state.sites := by
    cases state <;> refine ⟨?_, ?_, ?_⟩ <;>
      grind [State.sites, State.delivery, Site.templates, Path.Setting.targets, Path.Setting.sources]
  exact FailsOnly.bind (parameters_explained sub.1 _) fun _ _ =>
    FailsOnly.bind (merge_explained sub.2.1 _) fun _ _ => select_explained sub.2.2

/-- The paths of the catchers of a state are among its expressions. -/
theorem catcher_targets {state : State} {catcher : Catcher} (h : catcher ∈ state.recovery.catchers) :
    catcher.resultPath.targets ⊆ state.sites := by
  have sub : state.recovery.sites ⊆ state.sites := by
    cases state <;> grind [State.sites, State.recovery, Recovery.sites, Recovery.none]
  exact fun site hsite => sub (List.mem_flatMap.mpr ⟨catcher, h, hsite⟩)

end Validation

namespace Execution

open Validation

variable {options : Options} {host : Host} {moment : Moment} {frame : Frame} {attempt : Attempt}

/-! ## Turns -/

/-- A cause that blames an expression, if at all, blames one that some state of a checked graph holds. -/
def Explained (options : Options) (cause : Fault.Cause) : Prop :=
  cause.isOfExpression = true → ∃ (graph : Graph) (name : String) (state : State), Checked options graph ∧
    graph.state? name = some state ∧ ∃ site ∈ state.sites, site.Fails cause

theorem explained_other {cause : Fault.Cause} (h : cause.isOfExpression = false) : Explained options cause :=
  fun blames => absurd (h.symm.trans blames) (by simp)

/-- What the sites of the state at which an activation is explain is explained. -/
theorem explained_at {state : State} {cause : Fault.Cause} (checked : Checked options frame.graph)
    (hstate : frame.graph.state? frame.state = some state) (h : Explains state.sites cause) :
    Explained options cause :=
  fun blames => ⟨frame.graph, frame.state, state, checked, hstate, h blames⟩

/-- An outcome whose fault, if there is one, is explained. -/
abbrev ExplainedOutcome {α : Type} (options : Options) (outcome : DataFlow.Outcome α) : Prop :=
  FailsOnly (fun fault => Explained options fault.cause) outcome

theorem explainedOutcome_at {α : Type} {state : State} {outcome : DataFlow.Outcome α}
    (checked : Checked options frame.graph) (hstate : frame.graph.state? frame.state = some state)
    (h : ExplainedBy state.sites outcome) : ExplainedOutcome options outcome :=
  fun fault e => explained_at checked hstate (h fault e)

/-- The fault with which an activation has ended, or that keeps a job from beginning, is explained. -/
def PhaseExplained (options : Options) : Phase → Prop
  | .fanning _ fanOut => ∀ job ∈ fanOut.jobs, ExplainedOutcome options job.input
  | .ended (.fault fault) => Explained options fault.cause
  | _ => True

/-- A note that tells of an explained fault, if of any. -/
def Note.Explained (options : Options) : Note → Prop
  | .event told => ∀ fault, told.fault? = some fault → Execution.Explained options fault.cause
  | .call .. => True

/-- A turn that brings up only explained faults. -/
structure Turn.Explained (options : Options) (turn : Turn) : Prop where
  phase : PhaseExplained options turn.activation.phase
  notes : ∀ note ∈ turn.notes, note.Explained options

theorem Turn.Explained.after {turn : Turn} {notes : List Note} (h : turn.Explained options)
    (explained : ∀ note ∈ notes, note.Explained options) : (turn.after notes).Explained options :=
  ⟨h.phase, fun note hnote => (List.mem_append.mp hnote).elim (explained note) (h.notes note)⟩

theorem stop_explained {ending : Ending} (explained : PhaseExplained options (.ended ending)) :
    (stop frame ending).Explained options := ⟨explained, by simp [stop]⟩

theorem leave_explained (next : Option String) (output : Json) : (leave frame next output).Explained options := by
  have exited : ∀ note ∈ [Note.event (.stateExited frame.state output)], note.Explained options := by
    simp [Note.Explained, Event.fault?]
  cases next with
  | some target => exact ⟨trivial, exited⟩
  | none => exact ⟨trivial, exited⟩

theorem leaveOrFail_explained {outcome : DataFlow.Outcome (Option String × Json)}
    (explained : ExplainedOutcome options outcome) : (leaveOrFail frame outcome).Explained options := by
  cases outcome with
  | error fault => exact stop_explained (explained fault rfl)
  | ok left => exact leave_explained left.1 left.2

theorem follow_explained (transition : Transition) : ExplainedOutcome options transition.follow := by
  unfold Transition.follow
  split
  · exact failsOnly_ok _
  · split
    · exact failsOnly_ok _
    · exact failsOnly_error (explained_other rfl)

/-- What a state passes on fails as its stages do, or because it leads nowhere. -/
theorem passOn_explained {stage : DataFlow.Outcome Json} (transition : Transition)
    (h : ExplainedOutcome options stage) :
    (leaveOrFail frame do
      let output ← stage
      return (← transition.follow, output)).Explained options :=
  leaveOrFail_explained
    (FailsOnly.bind h fun _ _ => FailsOnly.bind (follow_explained transition) fun _ _ => failsOnly_ok _)

theorem recover_explained {fault : Fault} (checked : Checked options frame.graph)
    (attempted : Attempted frame attempt) (explained : Explained options fault.cause) :
    (recover moment frame attempt fault).Explained options := by
  rcases recover_cases moment frame attempt fault with
    ⟨number, delay, counters, -, e⟩ | ⟨next, output, counters, -, e⟩ | ⟨last, counters, hd, e⟩ <;> rw [e]
  · exact ⟨trivial, by simpa [Note.Explained, Event.fault?] using explained⟩
  · exact (leave_explained _ output).after (by simpa [Note.Explained, Event.fault?] using explained)
  · refine stop_explained ?_
    rcases Retry.propagated_of_resolve hd with rfl | ⟨catcher, hmem, hmerge⟩
    · exact explained
    · exact explained_at checked attempted.at_state (merge_explained (catcher_targets hmem) _ last hmerge)

theorem conclude_explained (checked : Checked options frame.graph) (attempted : Attempted frame attempt)
    (result : Json) : (conclude moment frame attempt result).Explained options := by
  rcases conclude_cases moment frame attempt result with
    ⟨fault, hfault, e⟩ | ⟨target, output, -, e⟩ | ⟨fault, hfault, e⟩ <;> rw [e]
  · exact recover_explained checked attempted
      (explained_at checked attempted.at_state (delivery_explained attempt.state _ result fault hfault))
  · exact leave_explained target output
  · exact stop_explained (follow_explained _ fault hfault)

/-! ## Turns at fan-outs -/

/-- The jobs of a state are handed out with inputs that fail, if at all, as its templates do. -/
theorem jobs_explained (frame : Frame) (attempt : Attempt) (state : State) :
    ExplainedBy state.sites (jobs frame attempt state) ∧
      ∀ js limit, jobs frame attempt state = .ok (js, limit) → ∀ job ∈ js, ExplainedBy state.sites job.input := by
  refine ⟨?_, fun js limit h job hjob => ?_⟩
  · cases state with
    | parallel s branches =>
        exact FailsOnly.bind (select_explained (by grind [State.sites])) fun _ _ =>
          FailsOnly.bind (parameters_explained (by grind [State.sites]) _) fun _ _ => failsOnly_ok _
    | map s processor =>
        exact FailsOnly.bind (select_explained (by grind [State.sites])) fun _ _ =>
          FailsOnly.bind (items_explained (by grind [State.sites])) fun _ _ => failsOnly_ok _
    | _ => exact failsOnly_error (explains_other rfl)
  · rcases jobs_cases h with ⟨s, branches, input, rfl, rfl, -⟩ | ⟨s, processor, effective, items, rfl, -, -, rfl, -⟩
    · obtain ⟨graph, -, rfl⟩ := List.mem_map.mp hjob
      exact failsOnly_ok _
    · obtain ⟨index, -, rfl⟩ := List.mem_mapIdx.mp hjob
      exact itemInput_explained (by grind [State.sites]) _ _

theorem begunNotes_explained (indices : List Nat) :
    ∀ note ∈ begunNotes frame attempt indices, note.Explained options := by
  refine forall_begunNotes ?_ ?_ indices <;> simp [Note.Explained, Event.fault?]

theorem fan_explained {fanOut : FanOut Activation} (checked : Checked options frame.graph)
    (attempted : Attempted frame attempt) (jobs : ∀ job ∈ fanOut.jobs, ExplainedOutcome options job.input) :
    (fan moment frame attempt fanOut).Explained options := by
  obtain ⟨filling, rfl, ⟨fault, hfault, e⟩ | ⟨-, -, e⟩ | ⟨-, -, e⟩⟩ :=
    fan_cases moment frame attempt fanOut <;> rw [e]
  · obtain ⟨job, hjob, hinput⟩ := FanOut.fault_fill hfault
    exact (recover_explained checked attempted (jobs job hjob fault hinput)).after (begunNotes_explained _)
  · exact (conclude_explained checked attempted _).after (begunNotes_explained _)
  · have same := (FanOut.fill_keeps (frame.beginJob attempt) fanOut).1
    exact ⟨fun job hjob => jobs job (same ▸ hjob), begunNotes_explained _⟩

theorem phaseExplained_of_ending {activation : Activation} {ending : Ending}
    (explained : PhaseExplained options activation.phase) (h : activation.ending? = some ending) :
    PhaseExplained options (.ended ending) := Activation.phase_of_ending h ▸ explained

/-- An attempt fails as its job did, under one more name. -/
theorem join_explained {fanOut : FanOut Activation} {index : Nat} {ending : Ending}
    (checked : Checked options frame.graph) (attempted : Attempted frame attempt)
    (jobs : ∀ job ∈ fanOut.jobs, ExplainedOutcome options job.input)
    (explained : PhaseExplained options (.ended ending)) :
    (join moment frame attempt fanOut index ending).Explained options := by
  cases ending with
  | output value =>
      have same : ∀ job ∈ (fanOut.deliver index value).jobs, ExplainedOutcome options job.input := jobs
      refine (fan_explained checked attempted same).after ?_
      unfold succeededEvent
      split <;> simp [Note.Explained, Event.fault?]
  | fault fault =>
      have told : Explained options fault.cause := explained
      have passedOn : Explained options (jobFault attempt.state fault).cause := by
        rcases jobFault_cases attempt.state fault with ⟨-, e⟩ | ⟨_, -, e | e⟩ <;> rw [e]
        · unfold Fault.wrap
          split
          · exact told
          · exact told
        · exact explained_other rfl
        · exact explained_other rfl
      refine (recover_explained checked attempted passedOn).after (forall_jobNotes ?_ ?_ _ _ _)
      · simpa [Note.Explained, Event.fault?] using told
      · simpa [Note.Explained, Event.fault?] using told
  | cancelled => exact stop_explained trivial

/-! ## Turns at states -/

theorem request_explained (task : Task) : ExplainedBy (State.task task).sites (request host frame attempt task) := by
  refine FailsOnly.bind (select_explained (by grind [State.sites])) fun _ _ =>
    FailsOnly.bind (limit_explained task) fun _ _ =>
      FailsOnly.bind (parameters_explained (by grind [State.sites]) _) fun _ _ => ?_
  split
  · exact failsOnly_ok _
  · exact failsOnly_error (explains_other rfl)

theorem beginAttempt_explained (checked : Checked options frame.graph) (attempted : Attempted frame attempt) :
    (beginAttempt host moment frame attempt).Explained options := by
  have here : ∀ {cause}, Explains attempt.state.sites cause → Explained options cause :=
    explained_at checked attempted.at_state
  have fansOut := jobs_explained frame attempt attempt.state
  rcases beginAttempt_cases host moment frame attempt with
    ⟨task, fault, hstate, hfault, e⟩ | ⟨task, asked, -, -, e⟩ | ⟨fault, -, hfault, e⟩ |
    ⟨js, limit, hjobs, e⟩ <;> rw [e]
  · exact recover_explained checked attempted (here (hstate ▸ request_explained task fault hfault))
  · exact ⟨trivial, by simp [Note.Explained]⟩
  · exact recover_explained checked attempted (here (fansOut.1 fault hfault))
  · exact fan_explained checked attempted fun job hjob fault hinput =>
      here (fansOut.2 js limit hjobs job hjob fault hinput)

theorem planWait_explained (s : Wait) : ExplainedBy (State.wait s).sites (planWait host moment frame s) := by
  refine FailsOnly.bind (select_explained (by grind [State.sites])) fun effective _ => ?_
  split
  · exact failsOnly_ok _
  · exact FailsOnly.bind (delay_explained s _) fun _ _ => failsOnly_ok _

theorem begin_explained {state : State} (checked : Checked options frame.graph)
    (hstate : frame.graph.state? frame.state = some state) :
    (begin host moment frame state).Explained options := by
  cases state with
  | succeed s => exact leaveOrFail_explained ((explainedOutcome_at checked hstate (succeed_explained s)).map _)
  | fail s => exact stop_explained (explained_at checked hstate (fail_explained s))
  | choice s => exact leaveOrFail_explained ((explainedOutcome_at checked hstate (choice_explained s)).map _)
  | pass s => exact passOn_explained _ (explainedOutcome_at checked hstate (pass_explained s _))
  | wait s =>
      rcases begin_wait_cases host moment frame s with ⟨fault, hfault, e⟩ | ⟨effective, due, -, e⟩ <;> rw [e]
      · exact stop_explained (explained_at checked hstate (planWait_explained s fault hfault))
      · exact ⟨trivial, by simp⟩
  | task | parallel | map =>
      rw [begin_of_recoverable host moment frame (by simp [State.IsRecoverable, State.kind])]
      exact beginAttempt_explained checked ⟨hstate, by simp [State.IsRecoverable, State.kind]⟩

theorem enter_explained (checked : Checked options frame.graph) :
    (enter host moment frame).Explained options := by
  unfold enter
  split
  · exact stop_explained (explained_other rfl)
  · rename_i state hstate
    refine Turn.Explained.after (begin_explained ?_ ?_) (by simp [Note.Explained, Event.fault?])
    · exact checked
    · exact hstate

theorem outcome_explained {invocation : Invocation} {state : String} {clock : Nat} {fault : Fault}
    (h : invocation.outcome? state clock = some (.error fault)) : Explained options fault.cause := by
  rcases Invocation.fault_cases h with ⟨name, message, rfl⟩ | ⟨message, rfl⟩ | ⟨seconds, rfl⟩
  · exact explained_other rfl
  · exact explained_other rfl
  · exact explained_other rfl

theorem proceed_explained {phase : Phase} {turn : Turn} (checked : Checked options frame.graph)
    (guided : PhaseGuided options frame phase) (h : proceed host moment frame phase = some turn) :
    turn.Explained options := by
  rcases proceed_cases h with ⟨-, rfl⟩ | ⟨-, ⟨rfl, rfl⟩ | ⟨wait, effective, _, rfl, -, rfl⟩ |
    ⟨attempt, _, result, rfl, -, rfl⟩ | ⟨attempt, _, fault, rfl, houtcome, rfl⟩ | ⟨attempt, _, rfl, -, rfl⟩⟩
  · exact stop_explained trivial
  · exact enter_explained checked
  · have selected : ExplainedBy (State.wait wait).sites (DataFlow.output wait.outputPath effective frame.context) :=
      select_explained (by grind [State.sites])
    exact passOn_explained _ (explainedOutcome_at checked guided selected)
  · exact conclude_explained checked guided result
  · exact recover_explained checked guided (outcome_explained houtcome)
  · exact beginAttempt_explained checked ⟨guided.at_state, guided.recoverable⟩

/-- An activation that has not lost its way, and whose faults are explained. -/
structure Accountable (options : Options) (activation : Activation) : Prop where
  guided : Guided options activation
  phase : PhaseExplained options activation.phase

/-- **A turn brings up only explained faults,** if nothing under way has ended with another one. -/
theorem respond_explained {signal : Signal} {activation : Activation} {turn : Turn}
    (everywhere : activation.Everywhere (Accountable options))
    (h : activation.respond host moment signal = some turn) : turn.Explained options := by
  have guided := everywhere.self.guided
  rcases respond_cases h with ⟨-, hp⟩ | ⟨frame, attempt, fanOut, index, child, ending, -, rfl, hchild, hending, rfl⟩
  · exact proceed_explained guided.checked guided.phase hp
  · exact join_explained guided.checked guided.phase.1 everywhere.self.phase
      (phaseExplained_of_ending (everywhere.child hchild).self.phase hending)

theorem accountable_of_respond {signal : Signal} {activation : Activation} {turn : Turn}
    (everywhere : activation.Everywhere (Accountable options))
    (h : activation.respond host moment signal = some turn) :
    Accountable options turn.activation ∧
      ∀ index child, turn.activation.Begins index child → Accountable options child := by
  have guided : turn.Guided options :=
    respond_guided (fun place inner hinner => (everywhere place inner hinner).guided) h
  refine ⟨⟨guided.guided, (respond_explained everywhere h).phase⟩, fun index child begins => ?_⟩
  have inside := guided_of_begins guided.guided index child begins
  obtain ⟨_, _, _, _, _, -, -, -, rfl⟩ := begins
  exact ⟨inside, trivial⟩

/-! ## Runs -/

namespace Run

variable {setup : Setup} {run after : Run}

/-- **What holds of the faults of a run at all times.** -/
structure Explained (options : Options) (run : Run) : Prop where
  everywhere : run.outermost.Everywhere fun a => PhaseExplained options a.phase
  events : ∀ event ∈ run.events, ∀ fault, event.fault? = some fault → Execution.Explained options fault.cause
  settlement : ∀ fault, run.settlement = some (.failed fault) → Execution.Explained options fault.cause

theorem explained_start : (start setup).Explained options where
  everywhere := Activation.everywhere_of_children trivial fun _ _ hchild => nomatch hchild
  events event hevent fault told := by
    rw [List.mem_singleton.mp hevent] at told
    cases told
  settlement fault e := nomatch e

theorem Explained.settle {settlement : Settlement} (h : run.Explained options)
    (explained : ∀ fault, settlement = .failed fault → Execution.Explained options fault.cause) :
    (run.settle settlement).Explained options where
  everywhere := h.everywhere
  events event hevent fault told := by
    rw [events_settle] at hevent
    rcases List.mem_append.mp hevent with before | last
    · exact h.events event before fault told
    · exact explained fault (Settlement.eq_failed_of_event last told)
  settlement fault e := explained fault (Option.some.inj e)

/-- A run that is settled from outside does not fail: it took too long, or is given up. -/
theorem Explained.overrule {settlement : Settlement} (h : run.Explained options)
    (hover : run.overruled? setup = some settlement) : (run.overrule settlement).Explained options := by
  show Run.Explained options (Run.settle { run with outermost := run.outermost.givenUp } settlement)
  have givenUp : PhaseExplained options run.outermost.givenUp.phase := by
    cases run.outermost
    exact trivial
  refine Explained.settle ⟨Activation.everywhere_givenUp givenUp, h.events, h.settlement⟩ fun fault e => ?_
  subst e
  rcases overruled_cases hover with ⟨e, -⟩ | ⟨_, e⟩ <;> cases e

theorem Explained.act {place : Place} {signal : Signal} (guided : run.Guided options) (h : run.Explained options)
    (hact : run.act setup place signal = some after) : after.Explained options := by
  have before : run.outermost.Everywhere (Accountable options) := fun place inner hinner =>
    ⟨guided.everywhere place inner hinner, h.everywhere place inner hinner⟩
  obtain ⟨outermost, entries, hinner, hafter⟩ := act_cases hact
  have everywhere : outermost.Everywhere (Accountable options) := by
    refine before.act (fun activation turn here hturn => accountable_of_respond here hturn) ?_ hinner
    intro frame attempt fanOut index place child child' entries hchild hinner known
    exact ⟨⟨known.guided.checked, known.guided.phase.1, known.guided.phase.2⟩, known.phase⟩
  have noted : (run.noted outermost entries).Explained options := by
    refine ⟨fun place inner hinner => (everywhere place inner hinner).phase, fun event hevent fault told => ?_,
      h.settlement⟩
    rw [events_noted] at hevent
    rcases List.mem_append.mp hevent with old | new
    · exact h.events event old fault told
    · obtain ⟨entry, hentry, hnote⟩ := exists_entry_of_event new
      have noted := Activation.entries_of_act (Q := Note.Explained options)
        (fun activation turn here hturn => (respond_explained here hturn).notes) before hinner _ hentry
      rw [hnote] at noted
      exact noted fault told
  rcases hafter with ⟨ending, hending, rfl⟩ | ⟨-, rfl⟩
  · refine noted.settle fun fault e => ?_
    obtain ⟨rfl, -⟩ := Settlement.ofEnding_eq_failed e
    exact phaseExplained_of_ending everywhere.self.phase hending
  · exact noted

theorem Explained.move {next : Move} (guided : run.Guided options) (h : run.Explained options)
    (hmove : run.move setup next = some after) : after.Explained options := by
  rcases move_cases hmove with ⟨time, -, rfl⟩ | ⟨-, rfl⟩ | ⟨settlement, -, hover, rfl⟩ | ⟨place, signal, -, -, hact⟩
  · exact ⟨h.everywhere, h.events, h.settlement⟩
  · exact ⟨h.everywhere, h.events, h.settlement⟩
  · exact h.overrule hover
  · exact h.act guided hact

/-- **Every fault that shows in a run of a valid definition is explained:** if it blames an expression, then one that
    some state of a checked graph holds, and that fails so on some data. -/
theorem explained_of_play {moves : List Move} (valid : Checked options setup.definition.graph)
    (played : (start setup).play setup moves = some run) :
    run.Guided options ∧ ∀ fault, run.Tells fault → Execution.Explained options fault.cause := by
  obtain ⟨guided, explained⟩ : run.Guided options ∧ run.Explained options :=
    play_induct (P := fun run => run.Guided options ∧ run.Explained options)
      (fun _ _ _ before hmove => ⟨before.1.move hmove, before.2.move before.1 hmove⟩)
      ⟨guided_start valid, explained_start⟩ played
  refine ⟨guided, fun fault tells => ?_⟩
  cases tells with
  | event happened told => exact explained.events _ happened fault told
  | ended underWay ended => exact phaseExplained_of_ending (explained.everywhere _ _ underWay) ended
  | job underWay hjob untold => exact explained.everywhere _ _ underWay _ hjob fault untold
  | settled settled => exact explained.settlement fault settled

end Run

end Execution

end Workflow
