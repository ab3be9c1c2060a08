import Workflow.Proofs.Execution.Run
import Workflow.Proofs.Retry.Resolve
import Workflow.Proofs.Validation.Stages

/-!
# `Workflow.Proofs.Validation.ControlFlow` — a valid definition always leads somewhere

Checking walks over the graphs of a definition, running walks over its activations.  What ties the two together is
an invariant of every activation: its graph is checked, the state that it is in front of is defined, and the state
that it is at is the one that its graph defines.  Each turn keeps it, and none of the faults that a turn brings up
says that the definition leads nowhere.

## Contents
- **The invariant.** `Guided`, for an activation, and `Turn.Guided`, for a turn.
- **Turns.** `respond_guided`, by way of one lemma for each function of a turn.
- **Runs.** `Run.Tells`, the faults that show in a run, and `control_flow_sound`.
-/

namespace Workflow

/-- The fault that an event tells of. -/
def Event.fault? : Event → Option Fault
  | .runFailed fault => some fault
  | .stateRetried _ fault _ _ => some fault
  | .stateCaught _ fault _ => some fault
  | .branchFailed _ _ fault => some fault
  | .iterationFailed _ _ fault => some fault
  | _ => none

namespace Execution

/-- A settlement tells of a fault only if the run has failed with it. -/
theorem Settlement.eq_failed_of_event {settlement : Settlement} {millis : Nat} {event : Event} {fault : Fault}
    (h : event ∈ (settlement.event? millis).toList) (told : event.fault? = some fault) : settlement = .failed fault := by
  cases settlement <;> simp only [Settlement.event?, Option.toList_some, Option.toList_none, List.mem_singleton,
    List.not_mem_nil] at h
  all_goals subst h
  all_goals cases told
  rfl

open Validation

/-! ## The invariant -/

/-- The attempt is made at the state at which the activation is, and that state is run in attempts. -/
structure Attempted (frame : Frame) (attempt : Attempt) : Prop where
  at_state : frame.graph.state? frame.state = some attempt.state
  recoverable : State.IsRecoverable attempt.state

/-- The graph of a job is checked, and so is what keeps its input from being told. -/
def Job.Guided (options : Options) (job : Job) : Prop := Checked options job.graph ∧ Plain job.input

/-- What is known of the phase of an activation. -/
def PhaseGuided (options : Options) (frame : Frame) : Phase → Prop
  | .ready => Defined frame.graph frame.state
  | .waiting wait _ _ => frame.graph.state? frame.state = some (.wait wait)
  | .invoking attempt _ => Attempted frame attempt
  | .pausing attempt _ => Attempted frame attempt
  | .fanning attempt fanOut => Attempted frame attempt ∧ ∀ job ∈ fanOut.jobs, job.Guided options
  | .ended (.fault fault) => fault.IsPlain
  | .ended _ => True

/-- **An activation that does not lose its way:** its graph is checked, and it is where the graph says. -/
structure Guided (options : Options) (activation : Activation) : Prop where
  checked : Checked options activation.frame.graph
  phase : PhaseGuided options activation.frame activation.phase

theorem Guided.ending {options : Options} {activation : Activation} {ending : Ending}
    (h : Guided options activation) (ended : activation.ending? = some ending) :
    PhaseGuided options activation.frame (.ended ending) := Activation.phase_of_ending ended ▸ h.phase

/-- A note that tells of no fault of control flow. -/
def Note.IsPlain : Note → Prop
  | .event told => ∀ fault, told.fault? = some fault → fault.IsPlain
  | .call .. => True

/-- A turn after which the activation has not lost its way, and which tells of no fault of control flow. -/
structure Turn.Guided (options : Options) (turn : Turn) : Prop where
  guided : Execution.Guided options turn.activation
  plain : ∀ note ∈ turn.notes, note.IsPlain

variable {options : Options} {host : Host} {moment : Moment} {frame : Frame} {attempt : Attempt}

theorem Turn.Guided.after {turn : Turn} {notes : List Note} (h : turn.Guided options)
    (plain : ∀ note ∈ notes, note.IsPlain) : (turn.after notes).Guided options :=
  ⟨h.guided, fun note hnote => (List.mem_append.mp hnote).elim (plain note) (h.plain note)⟩

/-! ## Out of a state -/

theorem stop_guided {ending : Ending} (checked : Checked options frame.graph)
    (plain : PhaseGuided options frame (.ended ending)) : (stop frame ending).Guided options :=
  ⟨⟨checked, plain⟩, by simp [stop]⟩

theorem leave_guided {next : Option String} (checked : Checked options frame.graph)
    (leads : ∀ target, next = some target → Defined frame.graph target) (output : Json) :
    (leave frame next output).Guided options := by
  have exited : ∀ note ∈ [Note.event (.stateExited frame.state output)], note.IsPlain := by
    simp [Note.IsPlain, Event.fault?]
  cases next with
  | some target => exact ⟨⟨checked, leads target rfl⟩, exited⟩
  | none => exact ⟨⟨checked, trivial⟩, exited⟩

theorem leaveOrFail_guided {outcome : DataFlow.Outcome (Option String × Json)}
    (checked : Checked options frame.graph) (plain : Plain outcome)
    (leads : ∀ left, outcome = .ok left → ∀ target, left.1 = some target → Defined frame.graph target) :
    (leaveOrFail frame outcome).Guided options := by
  cases outcome with
  | error fault => exact stop_guided checked (plain fault rfl)
  | ok left => exact leave_guided checked (leads left rfl) left.2

/-- What a state passes on goes where its transition leads. -/
theorem passOn_guided {state : State} {transition : Transition} {stage : DataFlow.Outcome Json}
    (checked : Checked options frame.graph) (hstate : frame.graph.state? frame.state = some state)
    (htransition : state.transition? = some transition) (plain : Plain stage) :
    (leaveOrFail frame do
      let output ← stage
      return (← transition.follow, output)).Guided options := by
  obtain ⟨next, hnext, leads⟩ := follow_leads checked hstate htransition
  have followed : Plain transition.follow := hnext ▸ plain_ok next
  refine leaveOrFail_guided checked
    (plain.bind fun _ _ => followed.bind fun _ _ => plain_ok _) fun left e => ?_
  obtain ⟨output, -, e⟩ := DataFlow.bind_eq_ok.mp e
  obtain ⟨target, htarget, e⟩ := DataFlow.bind_eq_ok.mp e
  cases hnext.symm.trans htarget
  cases e
  exact leads

/-- Where the rules of a state take over, they lead to a defined state. -/
theorem recover_guided {fault : Fault} (checked : Checked options frame.graph)
    (attempted : Attempted frame attempt) (plain : fault.IsPlain) :
    (recover moment frame attempt fault).Guided options := by
  rcases recover_cases moment frame attempt fault with
    ⟨number, delay, counters, -, e⟩ | ⟨next, output, counters, hd, e⟩ | ⟨last, counters, hd, e⟩ <;> rw [e]
  · exact ⟨⟨checked, attempted.at_state, attempted.recoverable⟩, by simpa [Note.IsPlain, Event.fault?] using plain⟩
  · obtain ⟨catcher, hmem, rfl⟩ := Retry.mem_catcher_of_resolve hd
    refine (leave_guided checked (fun target e => ?_) output).after ?_
    · cases e
      exact checked.catcher attempted.at_state hmem
    · simpa [Note.IsPlain, Event.fault?] using plain
  · refine stop_guided checked ?_
    rcases Retry.propagated_of_resolve hd with rfl | ⟨catcher, -, hmerge⟩
    · exact plain
    · exact merge_plain _ _ last hmerge

theorem conclude_guided (checked : Checked options frame.graph) (attempted : Attempted frame attempt)
    (result : Json) : (conclude moment frame attempt result).Guided options := by
  obtain ⟨transition, htransition⟩ : ∃ transition, attempt.state.transition? = some transition := by
    have recoverable := attempted.recoverable
    cases hstate : attempt.state with
    | task s => exact ⟨s.transition, rfl⟩
    | parallel s branches => exact ⟨s.transition, rfl⟩
    | map s processor => exact ⟨s.transition, rfl⟩
    | _ => simp [hstate, State.IsRecoverable, State.kind] at recoverable
  obtain ⟨next, hnext, leads⟩ := follow_leads checked attempted.at_state htransition
  have hexit : exit attempt = .ok next := by rw [exit, htransition]; exact hnext
  rcases conclude_cases moment frame attempt result with
    ⟨fault, hfault, e⟩ | ⟨target, output, htarget, e⟩ | ⟨fault, hfault, -⟩
  · exact e ▸ recover_guided checked attempted (delivery_plain _ _ _ fault hfault)
  · cases htarget.symm.trans hexit
    exact e ▸ leave_guided checked leads output
  · cases hfault.symm.trans hexit

/-! ## Fan-outs -/

/-- The jobs of a state of a checked graph run checked graphs. -/
theorem jobs_guided {js : List Job} {limit : Nat} (checked : Checked options frame.graph)
    (attempted : Attempted frame attempt) (h : jobs frame attempt attempt.state = .ok (js, limit)) :
    ∀ job ∈ js, job.Guided options := by
  intro job hjob
  rcases jobs_cases h with ⟨s, branches, input, hstate, rfl, -⟩ |
    ⟨s, processor, effective, items, hstate, -, -, rfl, -⟩
  · obtain ⟨graph, hgraph, rfl⟩ := List.mem_map.mp hjob
    exact ⟨checked.branch (hstate ▸ attempted.at_state) hgraph, plain_ok _⟩
  · obtain ⟨index, hindex, rfl⟩ := List.mem_mapIdx.mp hjob
    exact ⟨checked.processor (hstate ▸ attempted.at_state), itemInput_plain _ _ _⟩

theorem jobs_plain (attempted : Attempted frame attempt) (fans : ∀ task, attempt.state ≠ .task task) :
    Plain (jobs frame attempt attempt.state) := by
  have recoverable := attempted.recoverable
  cases hstate : attempt.state with
  | parallel s branches =>
      exact (select_plain _ _).bind fun _ _ => (parameters_plain _ _).bind fun _ _ => plain_ok _
  | map s processor => exact (select_plain _ _).bind fun _ _ => (items_plain _).bind fun _ _ => plain_ok _
  | task s => exact absurd hstate (fans s)
  | _ => simp [hstate, State.IsRecoverable, State.kind] at recoverable

theorem begunNotes_plain (indices : List Nat) : ∀ note ∈ begunNotes frame attempt indices, note.IsPlain := by
  refine forall_begunNotes ?_ ?_ indices <;> simp [Note.IsPlain, Event.fault?]

theorem fan_guided {fanOut : FanOut Activation} (checked : Checked options frame.graph)
    (attempted : Attempted frame attempt) (jobs : ∀ job ∈ fanOut.jobs, job.Guided options) :
    (fan moment frame attempt fanOut).Guided options := by
  obtain ⟨filling, rfl, ⟨fault, hfault, e⟩ | ⟨-, -, e⟩ | ⟨-, -, e⟩⟩ :=
    fan_cases moment frame attempt fanOut <;> rw [e]
  · obtain ⟨job, hjob, hinput⟩ := FanOut.fault_fill hfault
    exact (recover_guided checked attempted ((jobs job hjob).2 fault hinput)).after (begunNotes_plain _)
  · exact (conclude_guided checked attempted _).after (begunNotes_plain _)
  · have same := (FanOut.fill_keeps (frame.beginJob attempt) fanOut).1
    exact ⟨⟨checked, attempted, fun job hjob => jobs job (same ▸ hjob)⟩, begunNotes_plain _⟩

/-- An attempt does not fail for such a cause if its job does not; that a job broke off is another cause. -/
theorem jobFault_plain {fault : Fault} (plain : fault.IsPlain) (state : State) : (jobFault state fault).IsPlain := by
  rcases jobFault_cases state fault with ⟨-, e⟩ | ⟨_, -, e | e⟩ <;> rw [e]
  · exact plain.wrap _
  · rfl
  · rfl

/-- The fault of a job is one with which an activation that did not lose its way has ended. -/
theorem join_guided {fanOut : FanOut Activation} {index : Nat} {child : Activation} {ending : Ending}
    (checked : Checked options frame.graph) (attempted : Attempted frame attempt)
    (jobs : ∀ job ∈ fanOut.jobs, job.Guided options) (guided : Guided options child)
    (hending : child.ending? = some ending) : (join moment frame attempt fanOut index ending).Guided options := by
  cases ending with
  | output value =>
      have same : ∀ job ∈ (fanOut.deliver index value).jobs, job.Guided options := jobs
      refine (fan_guided checked attempted same).after ?_
      unfold succeededEvent
      split <;> simp [Note.IsPlain, Event.fault?]
  | fault fault =>
      have plain : fault.IsPlain := guided.ending hending
      refine (recover_guided checked attempted (jobFault_plain plain attempt.state)).after ?_
      exact forall_jobNotes (by simpa [Note.IsPlain, Event.fault?] using plain)
        (by simpa [Note.IsPlain, Event.fault?] using plain) _ _ _
  | cancelled => exact stop_guided checked trivial

/-- A job that has just begun is in front of the first state of a checked graph. -/
theorem guided_of_begins {activation : Activation} (guided : Guided options activation) (index : Nat)
    (child : Activation) (begins : activation.Begins index child) : Guided options child := by
  obtain ⟨frame, attempt, fanOut, job, input, rfl, hjob, -, rfl⟩ := begins
  have checked := (guided.phase.2 job (List.mem_of_getElem? hjob)).1
  exact ⟨checked, checked.start⟩

/-! ## Into a state -/

theorem request_plain (task : Task) : Plain (request host frame attempt task) := by
  refine (select_plain _ _).bind fun _ _ => (limit_plain task).bind fun _ _ =>
    (parameters_plain _ _).bind fun _ _ => ?_
  split
  · exact plain_ok _
  · exact plain_error rfl

theorem beginAttempt_guided (checked : Checked options frame.graph) (attempted : Attempted frame attempt) :
    (beginAttempt host moment frame attempt).Guided options := by
  rcases beginAttempt_cases host moment frame attempt with
    ⟨task, fault, -, hfault, e⟩ | ⟨task, asked, -, -, e⟩ | ⟨fault, fans, hfault, e⟩ |
    ⟨js, limit, hjobs, e⟩ <;> rw [e]
  · exact recover_guided checked attempted (request_plain task fault hfault)
  · exact ⟨⟨checked, attempted.at_state, attempted.recoverable⟩, by simp [Note.IsPlain]⟩
  · exact recover_guided checked attempted (jobs_plain attempted fans fault hfault)
  · exact fan_guided checked attempted (jobs_guided checked attempted hjobs)

theorem planWait_plain {s : Wait} (checked : Checked options frame.graph)
    (hstate : frame.graph.state? frame.state = some (.wait s)) : Plain (planWait host moment frame s) := by
  refine (select_plain _ _).bind fun effective _ => ?_
  split
  · exact plain_ok _
  · exact (delay_plain checked hstate).bind fun _ _ => plain_ok _

theorem begin_guided {state : State} (checked : Checked options frame.graph)
    (hstate : frame.graph.state? frame.state = some state) :
    (begin host moment frame state).Guided options := by
  cases state with
  | succeed s =>
      refine leaveOrFail_guided checked ((succeed_plain s).map _) fun left e target htarget => ?_
      obtain ⟨output, -, rfl⟩ := DataFlow.map_eq_ok.mp e
      cases htarget
  | fail s => exact stop_guided checked (fail_plain s)
  | choice s =>
      obtain ⟨plain, leads⟩ : Plain (s.exit frame.raw frame.context) ∧
        ∀ exit, s.exit frame.raw frame.context = .ok exit → Defined frame.graph exit.1 :=
        choice_leads checked hstate
      refine leaveOrFail_guided checked (plain.map _) fun left e target htarget => ?_
      obtain ⟨exit, hexit, rfl⟩ := DataFlow.map_eq_ok.mp e
      cases htarget
      exact leads exit hexit
  | pass s => exact passOn_guided checked hstate rfl (pass_plain s _)
  | wait s =>
      rcases begin_wait_cases host moment frame s with ⟨fault, hfault, e⟩ | ⟨effective, due, -, e⟩ <;> rw [e]
      · exact stop_guided checked (planWait_plain checked hstate fault hfault)
      · exact ⟨⟨checked, hstate⟩, by simp⟩
  | task | parallel | map =>
      rw [begin_of_recoverable host moment frame (by simp [State.IsRecoverable, State.kind])]
      exact beginAttempt_guided checked ⟨hstate, by simp [State.IsRecoverable, State.kind]⟩

theorem enter_guided (checked : Checked options frame.graph) (defined : Defined frame.graph frame.state) :
    (enter host moment frame).Guided options := by
  obtain ⟨state, hstate⟩ := Option.isSome_iff_exists.mp defined
  unfold enter
  rw [hstate]
  refine Turn.Guided.after (begin_guided ?_ ?_) (by simp [Note.IsPlain, Event.fault?])
  · exact checked
  · exact hstate

/-! ## Acting -/

theorem outcome_plain {invocation : Invocation} {state : String} {clock : Nat} {fault : Fault}
    (h : invocation.outcome? state clock = some (.error fault)) : fault.IsPlain := by
  rcases Invocation.fault_cases h with ⟨name, message, rfl⟩ | ⟨message, rfl⟩ | ⟨seconds, rfl⟩
  · rfl
  · rfl
  · rfl

theorem proceed_guided {phase : Phase} {turn : Turn} (checked : Checked options frame.graph)
    (guided : PhaseGuided options frame phase) (h : proceed host moment frame phase = some turn) :
    turn.Guided options := by
  rcases proceed_cases h with ⟨-, rfl⟩ | ⟨-, ⟨rfl, rfl⟩ | ⟨wait, effective, _, rfl, -, rfl⟩ |
    ⟨attempt, _, result, rfl, -, rfl⟩ | ⟨attempt, _, fault, rfl, houtcome, rfl⟩ | ⟨attempt, _, rfl, -, rfl⟩⟩
  · exact stop_guided checked trivial
  · exact enter_guided checked guided
  · exact passOn_guided checked guided rfl (select_plain _ _)
  · exact conclude_guided checked guided result
  · exact recover_guided checked guided (outcome_plain houtcome)
  · exact beginAttempt_guided checked ⟨guided.at_state, guided.recoverable⟩

/-- **No turn loses its way,** if nothing under way has lost it. -/
theorem respond_guided {signal : Signal} {activation : Activation} {turn : Turn}
    (everywhere : activation.Everywhere (Guided options))
    (h : activation.respond host moment signal = some turn) : turn.Guided options := by
  rcases respond_cases h with ⟨-, hp⟩ | ⟨frame, attempt, fanOut, index, child, ending, -, rfl, hchild, hending, rfl⟩
  · exact proceed_guided everywhere.self.checked everywhere.self.phase hp
  · have guided := everywhere.self.phase
    exact join_guided everywhere.self.checked guided.1 guided.2 (everywhere.child hchild).self hending

/-! ## Runs -/

namespace Run

variable {setup : Setup} {run after : Run}

/-- The faults that show in a run: those of its events, of its activations, of their jobs, and of its settlement.
    What a turn brings up shows, unless a catcher cannot put the fault of an attempt anywhere. -/
inductive Tells (run : Run) : Fault → Prop
  | event {event : Event} {fault : Fault} (happened : event ∈ run.events) (told : event.fault? = some fault) :
      Tells run fault
  | ended {place : Place} {activation : Activation} {fault : Fault}
      (underWay : run.outermost.at? place = some activation) (ended : activation.ending? = some (.fault fault)) :
      Tells run fault
  | job {place : Place} {frame : Frame} {attempt : Attempt} {fanOut : FanOut Activation} {job : Job}
      {fault : Fault} (underWay : run.outermost.at? place = some (.node frame (.fanning attempt fanOut)))
      (handedOut : job ∈ fanOut.jobs) (untold : job.input = .error fault) : Tells run fault
  | settled {fault : Fault} (settled : run.settlement = some (.failed fault)) : Tells run fault

/-- **What holds of a run of a valid definition at all times.** -/
structure Guided (options : Options) (run : Run) : Prop where
  everywhere : run.outermost.Everywhere (Execution.Guided options)
  events : ∀ event ∈ run.events, ∀ fault, event.fault? = some fault → fault.IsPlain
  settlement : ∀ fault, run.settlement = some (.failed fault) → fault.IsPlain

theorem guided_start (valid : Checked options setup.definition.graph) : (start setup).Guided options where
  everywhere := Activation.everywhere_of_children ⟨valid, valid.start⟩ fun _ _ hchild => nomatch hchild
  events event hevent fault told := by
    rw [List.mem_singleton.mp hevent] at told
    cases told
  settlement fault e := nomatch e

/-- A run is settled as failed only with the fault with which its outermost activation ended. -/
theorem Guided.settle {settlement : Settlement} (h : run.Guided options)
    (plain : ∀ fault, settlement = .failed fault → fault.IsPlain) : (run.settle settlement).Guided options where
  everywhere := h.everywhere
  events event hevent fault told := by
    rw [events_settle] at hevent
    rcases List.mem_append.mp hevent with before | last
    · exact h.events event before fault told
    · exact plain fault (Settlement.eq_failed_of_event last told)
  settlement fault e := plain fault (Option.some.inj e)

theorem Guided.overrule {settlement : Settlement} (h : run.Guided options)
    (hover : run.overruled? setup = some settlement) : (run.overrule settlement).Guided options := by
  show Run.Guided options (Run.settle { run with outermost := run.outermost.givenUp } settlement)
  refine Guided.settle ⟨Activation.everywhere_givenUp ?_, h.events, h.settlement⟩ fun fault e => ?_
  · have checked := h.everywhere.self.checked
    revert checked
    cases run.outermost
    exact fun checked => ⟨checked, trivial⟩
  · subst e
    rcases overruled_cases hover with ⟨e, -⟩ | ⟨_, e⟩ <;> cases e

theorem Guided.act {place : Place} {signal : Signal} (h : run.Guided options)
    (hact : run.act setup place signal = some after) : after.Guided options := by
  have turns : ∀ (activation : Activation) (turn : Turn), activation.Everywhere (Execution.Guided options) →
      activation.respond setup.host run.moment signal = some turn → turn.Guided options :=
    fun activation turn everywhere hturn => respond_guided everywhere hturn
  obtain ⟨outermost, entries, hinner, hafter⟩ := act_cases hact
  -- The turn is guided where it is taken; further out only a child was replaced.
  have everywhere : outermost.Everywhere (Execution.Guided options) := by
    refine h.everywhere.act (fun activation turn before hturn => ?_) ?_ hinner
    · have guided := (turns activation turn before hturn).guided
      exact ⟨guided, guided_of_begins guided⟩
    · intro frame attempt fanOut index place child child' entries hchild hinner guided
      exact ⟨guided.checked, guided.phase.1, guided.phase.2⟩
  -- An event is an old one, or one of the entries of this turn.
  have noted : (run.noted outermost entries).Guided options := by
    refine ⟨everywhere, fun event hevent fault told => ?_, h.settlement⟩
    rw [events_noted] at hevent
    rcases List.mem_append.mp hevent with before | new
    · exact h.events event before fault told
    · obtain ⟨entry, hentry, hnote⟩ := exists_entry_of_event new
      have plain := Activation.entries_of_act (Q := Note.IsPlain)
        (fun activation turn before hturn => (turns activation turn before hturn).plain) h.everywhere hinner _ hentry
      rw [hnote] at plain
      exact plain fault told
  rcases hafter with ⟨ending, hending, rfl⟩ | ⟨-, rfl⟩
  · refine noted.settle fun fault e => ?_
    obtain ⟨rfl, -⟩ := Settlement.ofEnding_eq_failed e
    exact everywhere.self.ending hending
  · exact noted

/-- **Every move of a run of a valid definition keeps to the definition.** -/
theorem Guided.move {next : Move} (h : run.Guided options) (hmove : run.move setup next = some after) :
    after.Guided options := by
  rcases move_cases hmove with ⟨time, -, rfl⟩ | ⟨-, rfl⟩ | ⟨settlement, -, hover, rfl⟩ | ⟨place, signal, -, -, hact⟩
  · exact ⟨h.everywhere, h.events, h.settlement⟩
  · exact ⟨h.everywhere, h.events, h.settlement⟩
  · exact h.overrule hover
  · exact h.act hact

/-- **Validation is sound for control flow.** However a run of a definition in which nothing is found is moved, no
    fault that shows in it says that a state is undefined, that a state or a rule leads nowhere, that a wait state
    does not say how long, that its timestamp is none, or that a state cannot be retried.  At any depth, an activation
    is in front of a defined state or at the state that its graph defines, and makes attempts only at states that
    are run in attempts. -/
theorem control_flow_sound (options : Options) (setup : Setup) (moves : List Move) (run : Run)
    (looked : options.skip = false) (valid : Validation.check options setup.definition = [])
    (played : (start setup).play setup moves = some run) :
    (∀ fault, run.Tells fault → fault.cause.isControlFlow = false) ∧
      ∀ place frame phase, run.outermost.at? place = some (.node frame phase) →
        PhaseGuided options frame phase := by
  have guided : run.Guided options :=
    play_induct (fun _ _ _ => Guided.move) (guided_start (checked_of_check looked valid)) played
  refine ⟨fun fault tells => ?_, fun place frame phase underWay => (guided.everywhere place _ underWay).phase⟩
  cases tells with
  | event happened told => exact guided.events _ happened fault told
  | @ended place activation fault underWay ended =>
      have phase := (guided.everywhere place activation underWay).phase
      revert phase
      obtain ⟨frame, phase⟩ := activation
      cases phase <;> cases ended
      exact id
  | job underWay hjob untold => exact ((guided.everywhere _ _ underWay).phase.2 _ hjob).2 fault untold
  | settled settled => exact guided.settlement fault settled

/-- A run in which a branch maps a graph that picks its next state, beside a branch that does so itself. -/
def forked : Setup where
  definition :=
    let pick : ChoiceState := ⟨none, .whole, .whole, [⟨.and [], some "Rest", none⟩], some "Rest"⟩
    let rest : Wait := ⟨none, .whole, .whole, some 1, none, none, none, ⟨none, true⟩⟩
    let inner : Graph := ⟨none, "Pick", [("Pick", .choice pick), ("Rest", .wait rest)]⟩
    let each : MapState := ⟨none, none, none, none, .whole, .whole, .whole, none, .none, ⟨none, true⟩⟩
    let outer : Graph := ⟨none, "Each", [("Each", .map each inner)]⟩
    let recovery : Recovery := ⟨[], [⟨[Fault.Name.all], "Done", .whole⟩]⟩
    let fork : Parallel := ⟨none, .whole, .whole, .whole, none, none, recovery, ⟨some "Done", false⟩⟩
    let done : Succeed := ⟨none, .whole, .whole⟩
    ⟨⟨none, "Fork", [("Done", .succeed done), ("Fork", .parallel fork [outer, inner])]⟩, none, none⟩
  host := ⟨⟨[]⟩, [], 0⟩
  machine := Setup.defaultMachine
  runId := "run"
  input := .arr [.null, .int 1]
  seed := none
  chance := default

/-- Both branches begin, and so does an iteration of the map, which picks its state and waits. -/
def forkedMoves : List Move :=
  [.act [] .proceed, .act [0] .proceed, .act [0, 0] .proceed, .act [0, 0] .proceed, .act [1] .proceed]

theorem control_flow_sound_forked :
    Validation.check .all forked.definition = [] ∧
      ∃ run, (start forked).play forked forkedMoves = some run ∧
        ∀ fault, run.Tells fault → fault.cause.isControlFlow = false := by
  have valid : Validation.check .all forked.definition = [] := by decide +kernel
  have possible : ((start forked).play forked forkedMoves).isSome = true := by decide +kernel
  obtain ⟨run, played⟩ := Option.isSome_iff_exists.mp possible
  exact ⟨valid, run, played, (control_flow_sound .all forked forkedMoves run rfl valid played).1⟩

end Run

end Execution

end Workflow
