import Workflow.Proofs.Execution.History
import Workflow.Proofs.Execution.Settlement
import Workflow.Validation.Reachability

/-!
# `Workflow.Proofs.Execution.Trail` — the log retraces every graph

What an activation notes down about its own states is a walk through its graph: it starts at the first state with the
input of its errand, each state that is left hands its output to the next one, and the next one is among those to which
the state leads.  Where a catcher took over, it is the one that the catcher names.

## Contents
- **Trails.** `Trail`, the walks through a graph, with `Stand`, where a walk has come to, and `trailOf?`, the notes that
  belong to it.
- **Exits.** `mem_successors_of_follow` and `mem_of_choose`: where a state leads, validation looks as well.
- **Turns.** `Turn.Traces`, and one lemma for each function of a turn; `Activation.Stands`.
- **Runs.** `retraces`, the story of every activation, and `trace_faithful`.
-/

namespace Workflow.Execution

/-! ## Trails -/

/-- Where an activation has come to in its graph. -/
inductive Stand where
  /-- In front of a state, with what is passed on to it. -/
  | before (name : String) (raw : Json)
  /-- In a state, which a catcher may have told to go on elsewhere. -/
  | inside (name : String) (state : State) (caught : Option String)
  /-- At the end of the graph. -/
  | done (output : Json)

/-- **A walk through a graph:** the events about entering states, about catchers taking over and about leaving states,
    in the order in which they happen, and where they lead. -/
inductive Trail (errand : Errand) : List Event → Stand → Prop
  | start : Trail errand [] (.before errand.graph.startAt errand.input)
  | enter {told : List Event} {name : String} {raw : Json} {state : State}
      (before : Trail errand told (.before name raw)) (defined : errand.graph.state? name = some state) :
      Trail errand (told ++ [.stateEntered name state.kind.name raw]) (.inside name state none)
  | handle {told : List Event} {name : String} {state : State} (fault : Fault) (next : String)
      (inside : Trail errand told (.inside name state none)) :
      Trail errand (told ++ [.stateCaught name fault next]) (.inside name state (some next))
  | leave {told : List Event} {name : String} {state : State} {caught : Option String} (next : String) (output : Json)
      (inside : Trail errand told (.inside name state caught)) (leads : next ∈ Validation.successors state)
      (heeds : ∀ target, caught = some target → next = target) :
      Trail errand (told ++ [.stateExited name output]) (.before next output)
  | finish {told : List Event} {name : String} {state : State} (output : Json)
      (inside : Trail errand told (.inside name state none)) :
      Trail errand (told ++ [.stateExited name output]) (.done output)

/-- Where nothing happens, the trail is the same. -/
theorem Trail.still {errand : Errand} {told : List Event} {stand : Stand} (h : Trail errand told stand) :
    Trail errand (told ++ []) stand := by
  rwa [List.append_nil]

/-- The events of a trail. -/
def trailOf? : Note → Option Event
  | .event (.stateEntered name kind raw) => some (.stateEntered name kind raw)
  | .event (.stateCaught name fault next) => some (.stateCaught name fault next)
  | .event (.stateExited name output) => some (.stateExited name output)
  | _ => none

theorem trailOf?_inner : IsInner trailOf? where
  started _ := rfl
  settled settlement millis entry hentry := by
    obtain ⟨event, told, rfl⟩ := Settlement.mem_entries.mp hentry
    cases settlement <;> cases told <;> rfl

/-! ## Exits -/

theorem mem_successors_of_follow {state : State} {transition : Transition} {next : String}
    (h : state.transition? = some transition) (leads : transition.follow = .ok (some next)) :
    next ∈ Validation.successors state := by
  obtain ⟨target, isEnd⟩ := transition
  have named : target = some next := by
    unfold Transition.follow at leads
    split at leads
    · cases leads
    · cases target with
      | none => cases leads
      | some target => cases leads; rfl
  simp [Validation.successors, h, named]

theorem mem_of_choose {default : Option String} {data context : Json} {next : String} :
    ∀ {rules : List Choice.Rule}, Choice.choose default data context rules = .ok next →
      next ∈ rules.filterMap (·.next) ++ default.toList := by
  intro rules
  induction rules with
  | nil =>
      intro h
      cases default with
      | none => cases h
      | some target => cases h; simp
  | cons rule rest ih =>
      intro h
      unfold Choice.choose at h
      split at h
      · split at h
        · rename_i target named
          cases h
          simp [named]
        · cases h
      · -- The rule does not hold, so the choice is one among the rules that are left.
        refine (List.mem_append.mp (ih h)).elim (fun later => List.mem_append_left _ ?_) (List.mem_append_right _)
        obtain ⟨other, hother, named⟩ := List.mem_filterMap.mp later
        exact List.mem_filterMap.mpr ⟨other, List.mem_cons_of_mem _ hother, named⟩
      · cases h

/-! ## Turns -/

/-- How an activation stands: in front of a state, in one, or, once it has passed on an output, at the end. -/
def Activation.Stands : Activation → Stand → Prop
  | .node frame .ready, stand => stand = .before frame.state frame.raw
  | .node frame (.waiting wait _ _), stand => stand = .inside frame.state (.wait wait) none
  | .node frame (.invoking attempt _), stand => stand = .inside frame.state attempt.state none
  | .node frame (.pausing attempt _), stand => stand = .inside frame.state attempt.state none
  | .node frame (.fanning attempt _), stand => stand = .inside frame.state attempt.state none
  | .node _ (.ended (.output value)), stand => stand = .done value
  | .node _ (.ended _), _ => True

/-- A turn that goes on with a trail. -/
def Turn.Traces (errand : Errand) (told : List Event) (turn : Turn) : Prop :=
  ∃ stand, Trail errand (told ++ turn.notes.filterMap trailOf?) stand ∧ turn.activation.Stands stand

section Turns

variable {host : Host} {moment : Moment} {frame : Frame} {attempt : Attempt} {errand : Errand} {told : List Event}
variable {state : State}

/-- Other notes are no part of the trail. -/
theorem Turn.Traces.after {turn : Turn} {notes : List Note} (h : turn.Traces errand told)
    (aside : notes.filterMap trailOf? = []) : (turn.after notes).Traces errand told := by
  obtain ⟨stand, trail, stands⟩ := h
  exact ⟨stand, by rwa [Turn.notes_after, List.filterMap_append, aside], stands⟩

/-- Who stops without an output leaves its trail as it is. -/
theorem stop_traces {stand : Stand} (trail : Trail errand told stand) {ending : Ending}
    (empty : ∀ value, ending ≠ .output value) : (stop frame ending).Traces errand told := by
  refine ⟨stand, trail.still, ?_⟩
  cases ending with
  | output value => exact absurd rfl (empty value)
  | _ => trivial

theorem leave_traces (inside : Trail errand told (.inside frame.state state none)) {next : Option String} (output : Json)
    (leads : ∀ target, next = some target → target ∈ Validation.successors state) :
    (leave frame next output).Traces errand told := by
  cases next with
  | some target => exact ⟨_, .leave target output inside (leads target rfl) (by simp), rfl⟩
  | none => exact ⟨_, .finish output inside, rfl⟩

theorem leaveOrFail_traces (inside : Trail errand told (.inside frame.state state none))
    {outcome : DataFlow.Outcome (Option String × Json)}
    (leads : ∀ target output, outcome = .ok (some target, output) → target ∈ Validation.successors state) :
    (leaveOrFail frame outcome).Traces errand told := by
  cases outcome with
  | error fault => exact stop_traces inside (by simp)
  | ok left =>
      obtain ⟨next, output⟩ := left
      exact leave_traces inside output fun target e => leads target output (by rw [e])

/-- Where a catcher takes over, the trail goes on with the state that the catcher names. -/
theorem recover_traces (inside : Trail errand told (.inside frame.state attempt.state none)) (fault : Fault) :
    (recover moment frame attempt fault).Traces errand told := by
  rcases recover_cases moment frame attempt fault with
    ⟨number, delay, counters, -, e⟩ | ⟨next, output, counters, decided, e⟩ | ⟨last, counters, -, e⟩ <;> rw [e]
  · exact ⟨_, inside.still, rfl⟩
  · obtain ⟨catcher, hcatcher, rfl⟩ := Retry.mem_catcher_of_resolve decided
    have leads : catcher.next ∈ Validation.successors attempt.state :=
      List.mem_append_right _ (List.mem_map_of_mem hcatcher)
    have trail := (inside.handle fault catcher.next).leave catcher.next output leads (by simp)
    exact ⟨_, by simpa [leave, trailOf?] using trail, rfl⟩
  · exact stop_traces inside (by simp)

theorem conclude_traces (inside : Trail errand told (.inside frame.state attempt.state none)) (result : Json) :
    (conclude moment frame attempt result).Traces errand told := by
  rcases conclude_cases moment frame attempt result with
    ⟨fault, -, e⟩ | ⟨next, output, leads, e⟩ | ⟨fault, -, e⟩ <;> rw [e]
  · exact recover_traces inside fault
  · refine leave_traces inside output fun target same => ?_
    subst same
    cases htransition : attempt.state.transition? with
    | none =>
        rw [exit, htransition] at leads
        cases leads
    | some transition =>
        rw [exit, htransition] at leads
        exact mem_successors_of_follow htransition leads
  · exact stop_traces inside (by simp)

theorem begunNotes_aside (indices : List Nat) : (begunNotes frame attempt indices).filterMap trailOf? = [] :=
  List.filterMap_eq_nil_iff.mpr (forall_begunNotes (fun _ _ => rfl) (fun _ _ => rfl) indices)

theorem fan_traces (inside : Trail errand told (.inside frame.state attempt.state none)) (fanOut : FanOut Activation) :
    (fan moment frame attempt fanOut).Traces errand told := by
  obtain ⟨filling, rfl, ⟨fault, -, e⟩ | ⟨-, -, e⟩ | ⟨-, -, e⟩⟩ := fan_cases moment frame attempt fanOut <;> rw [e]
  · exact (recover_traces inside fault).after (begunNotes_aside _)
  · exact (conclude_traces inside _).after (begunNotes_aside _)
  · exact ⟨_, by rw [begunNotes_aside]; exact inside.still, rfl⟩

theorem join_traces (inside : Trail errand told (.inside frame.state attempt.state none)) (fanOut : FanOut Activation)
    (index : Nat) (ending : Ending) : (join moment frame attempt fanOut index ending).Traces errand told := by
  cases ending with
  | output value =>
      refine (fan_traces inside _).after ?_
      unfold succeededEvent
      split <;> rfl
  | fault fault =>
      refine (recover_traces inside _).after ?_
      unfold jobNotes failedEvent
      split
      · split <;> rfl
      · rfl
  | cancelled => exact stop_traces inside (by simp)

theorem beginAttempt_traces (inside : Trail errand told (.inside frame.state attempt.state none)) :
    (beginAttempt host moment frame attempt).Traces errand told := by
  rcases beginAttempt_cases host moment frame attempt with
    ⟨_, fault, -, -, e⟩ | ⟨_, _, -, -, e⟩ | ⟨fault, -, -, e⟩ | ⟨js, limit, -, e⟩ <;> rw [e]
  · exact recover_traces inside fault
  · exact ⟨_, inside.still, rfl⟩
  · exact recover_traces inside fault
  · exact fan_traces inside _

theorem begin_traces (inside : Trail errand told (.inside frame.state state none)) :
    (begin host moment frame state).Traces errand told := by
  cases state with
  | succeed s =>
      refine leaveOrFail_traces inside fun target output e => ?_
      obtain ⟨_, -, e⟩ := DataFlow.map_eq_ok.mp e
      cases e
  | fail s => exact stop_traces inside (by simp)
  | choice s =>
      refine leaveOrFail_traces inside fun target output e => ?_
      obtain ⟨left, hleft, e⟩ := DataFlow.map_eq_ok.mp e
      cases e
      obtain ⟨effective, -, hleft⟩ := DataFlow.bind_eq_ok.mp hleft
      obtain ⟨next, chosen, hleft⟩ := DataFlow.bind_eq_ok.mp hleft
      obtain ⟨_, -, e⟩ := DataFlow.bind_eq_ok.mp hleft
      cases e
      simpa [Validation.successors, State.transition?, State.recovery, Recovery.none] using mem_of_choose chosen
  | pass s =>
      refine leaveOrFail_traces inside fun target output e => ?_
      obtain ⟨_, -, e⟩ := DataFlow.bind_eq_ok.mp e
      obtain ⟨next, leads, e⟩ := DataFlow.bind_eq_ok.mp e
      cases e
      exact mem_successors_of_follow rfl leads
  | wait s =>
      rcases begin_wait_cases host moment frame s with ⟨fault, -, e⟩ | ⟨effective, due, -, e⟩ <;> rw [e]
      · exact stop_traces inside (by simp)
      · exact ⟨_, inside.still, rfl⟩
  | task | parallel | map =>
      rw [begin_of_recoverable host moment frame (by simp [State.IsRecoverable, State.kind])]
      exact beginAttempt_traces inside

/-- To enter a state is to go on from where the trail has come to. -/
theorem enter_traces (same : frame.graph = errand.graph) (before : Trail errand told (.before frame.state frame.raw)) :
    (enter host moment frame).Traces errand told := by
  unfold enter
  split
  · exact stop_traces before (by simp)
  · rename_i state defined
    let entering : Frame := { frame with
      context := Context.enter frame.context frame.state (Timestamp.render (host.now moment))
      entered := frame.entered + 1 }
    have begun : (begin host moment entering state).Traces errand
        (told ++ [.stateEntered frame.state state.kind.name frame.raw]) :=
      begin_traces (before.enter (same ▸ defined))
    obtain ⟨stand, trail, stands⟩ := begun
    rw [List.append_assoc] at trail
    exact ⟨stand, trail, stands⟩

/-- What an activation tells on its errand retraces its walk through the graph. -/
structure Retraces (errand : Errand) (told : List Event) (activation : Activation) : Prop where
  graph : activation.frame.graph = errand.graph
  trail : ∃ stand, Trail errand told stand ∧ activation.Stands stand

/-- **Every turn goes on with the trail.** -/
theorem respond_traces {signal : Signal} {activation : Activation} {turn : Turn} (h : Retraces errand told activation)
    (hturn : activation.respond host moment signal = some turn) : turn.Traces errand told := by
  obtain ⟨same, stand, trail, stands⟩ := h
  rcases respond_cases hturn with
    ⟨-, hp⟩ | ⟨frame, attempt, fanOut, index, child, ending, -, rfl, -, -, rfl⟩
  · obtain ⟨frame, phase⟩ := activation
    rcases proceed_cases hp with ⟨-, rfl⟩ | ⟨-, ⟨rfl, rfl⟩ | ⟨wait, effective, _, rfl, -, rfl⟩ |
      ⟨attempt, _, result, rfl, -, rfl⟩ | ⟨attempt, _, fault, rfl, -, rfl⟩ | ⟨attempt, _, rfl, -, rfl⟩⟩
    · exact stop_traces trail (by simp)
    · cases stands
      exact enter_traces same trail
    · cases stands
      refine leaveOrFail_traces trail fun target output e => ?_
      obtain ⟨_, -, e⟩ := DataFlow.bind_eq_ok.mp e
      obtain ⟨next, leads, e⟩ := DataFlow.bind_eq_ok.mp e
      cases e
      exact mem_successors_of_follow rfl leads
    · cases stands
      exact conclude_traces trail result
    · cases stands
      exact recover_traces trail fault
    · cases stands
      exact beginAttempt_traces trail
  · cases stands
    exact join_traces trail fanOut index ending

theorem retraces_lasting (errand : Errand) : Lasting host trailOf? (Retraces errand) where
  turned h hturn := ⟨(respond_continues hturn).graph.trans h.graph, respond_traces h hturn⟩
  within h hact := by
    obtain ⟨frame, attempt, fanOut, child, child', rfl, -, -, rfl⟩ := Activation.act_cons hact
    exact ⟨h.graph, h.trail⟩

/-- **Every activation retraces its walk** from its beginning on. -/
theorem retraces (host : Host) : Story host trailOf? Retraces where
  begun _ _ _ _ := ⟨rfl, _, .start, rfl⟩
  lasting errand := retraces_lasting errand
  givenUp {errand told activation} h := by
    obtain ⟨same, stand, trail, -⟩ := h
    cases activation
    exact ⟨same, stand, trail, trivial⟩

/-- Who has ended with an output has come to the end of its graph. -/
theorem Activation.Stands.done {activation : Activation} {stand : Stand} {value : Json} (h : activation.Stands stand)
    (ended : activation.ending? = some (.output value)) : stand = .done value := by
  obtain ⟨frame, phase⟩ := activation
  cases phase with
  | ended ending => cases ended; exact h
  | _ => cases ended

end Turns

/-! ## Runs -/

namespace Run

variable {setup : Setup} {run after : Run}

/-- The events about its own states that an activation has told in a run. -/
def trace (run : Run) (id : Id) : List Event := shown trailOf? run.log id

/-- A run goes on as long as its outermost activation does, and has succeeded only with the output of that one. -/
structure Sealed (run : Run) : Prop where
  going : run.settlement = none → run.outermost.ending? = none
  succeeded : ∀ output, run.settlement = some (.succeeded output) → run.outermost.ending? = some (.output output)

theorem Sealed.move {next : Move} (h : run.Sealed) (orderly : run.Orderly setup)
    (hmove : run.move setup next = some after) : after.Sealed := by
  rcases move_cases hmove with ⟨time, -, rfl⟩ | ⟨-, rfl⟩ | ⟨settlement, -, hover, rfl⟩ | ⟨place, signal, -, -, hact⟩
  · exact ⟨h.going, h.succeeded⟩
  · exact ⟨h.going, h.succeeded⟩
  · refine ⟨(fun e => nomatch e), fun output e => ?_⟩
    cases e
    rcases overruled_cases hover with ⟨e, -⟩ | ⟨_, e⟩ <;> cases e
  · have unsettled := orderly.unsettled_of_act hact
    obtain ⟨outermost, entries, -, ⟨ending, hending, rfl⟩ | ⟨hending, rfl⟩⟩ := act_cases hact
    · refine ⟨(fun e => nomatch e), fun output e => ?_⟩
      -- Only an output settles a run as succeeded.
      have same : Settlement.ofEnding ending = .succeeded output := Option.some.inj e
      exact Settlement.ofEnding_eq_succeeded same ▸ hending
    · refine ⟨fun _ => hending, fun output e => ?_⟩
      have settled : run.settlement = some (.succeeded output) := e
      rw [unsettled] at settled
      cases settled

theorem sealed_of_play {moves : List Move} (played : (start setup).play setup moves = some run) : run.Sealed := by
  have kept : run.Orderly setup ∧ run.Sealed := by
    refine play_induct (P := fun r => r.Orderly setup ∧ r.Sealed) ?_ ⟨orderly_start setup, ?_⟩ played
    · rintro next before following ⟨orderly, sound⟩ hmove
      exact ⟨orderly.move hmove, sound.move orderly hmove⟩
    · exact ⟨fun _ => rfl, fun _ e => nomatch e⟩
  exact kept.2

/-- A run that says that it succeeded has succeeded. -/
theorem Orderly.succeeded {output : Json} {millis : Nat} (h : run.Orderly setup)
    (told : .runSucceeded output millis ∈ run.events) : run.settlement = some (.succeeded output) := by
  have chronicle := h.chronicle
  generalize run.events = events at told chronicle
  generalize run.settlement = settlement at chronicle
  cases chronicle with
  | going events inner =>
      have inside := List.mem_of_ne_of_mem (by simp) told
      exact absurd (inner _ inside).1 (by simp [Event.isTerminal])
  | settled events inner settlement millis' =>
      have inside := List.mem_of_ne_of_mem (by simp) told
      rcases List.mem_append.mp inside with inside | last
      · exact absurd (inner _ inside).1 (by simp [Event.isTerminal])
      · have same := Option.mem_toList.mp last
        cases settlement <;> cases same
        rfl

/-- A run whose only state has one branch, which passes on a number. -/
def nested : Setup where
  definition :=
    let pass : Pass := ⟨none, .whole, .whole, .whole, none, some (.int 1), ⟨none, true⟩⟩
    let around : Parallel := ⟨none, .whole, .whole, .whole, none, none, .none, ⟨none, true⟩⟩
    ⟨⟨none, "Around", [("Around", .parallel around [⟨none, "Number", [("Number", .pass pass)]⟩])]⟩, none, none⟩
  host := ⟨⟨[]⟩, [], 0⟩
  machine := Setup.defaultMachine
  runId := "run"
  input := .null
  seed := none
  chance := default

end Run

end Workflow.Execution
