import Mathlib.Logic.ExistsUnique
import Workflow.Proofs.Context
import Workflow.Proofs.Execution.Run
import Workflow.Proofs.Retry.Resolve

/-!
# `Workflow.Proofs.Execution.Recovery` — the attempts of one visit to a state

Between entering a state and leaving it an activation may make several attempts.  Each retry is one that some
retrier of the state allowed, so that the counters bound the number of attempts whatever the faults are and in
whatever order they come; and the number that templates are told is that of the retries so far.

## Contents
- **Visits.** `Visit`, what can happen from entering a state on, with the attempts begun and the notes made;
  `enter_of_respond`, `activation_enter` and `retry_of_respond`, about the two turns that begin attempts.
- **Exits.** `Exit`, the ways in which a visit ends, and `Exit.unique`.
- **Turns.** `Standing`, an attempt under way, `Position`, where a visit stands, and one lemma for each function of
  a turn.
- **The bound.** `Visit.sound` and `recovery_bounded`.
- **Runs.** `VisitsFrom`, where a visit began, with `visitsFrom_respond` and `visitsFrom_within`; and `onVisit_of_play`:
  in a run, every attempt belongs to a visit.
-/

namespace Workflow.Execution

/-! ## Visits -/

/-- The frame once its state is entered. -/
def Frame.entering (frame : Frame) (host : Host) (moment : Moment) : Frame :=
  { frame with
    context := Context.enter frame.context frame.state (Timestamp.render (host.now moment))
    entered := frame.entered + 1 }

/-- The frame in which an attempt is made again. -/
def Frame.retrying (frame : Frame) (attempt : Attempt) : Frame :=
  { frame with context := Context.setRetryCount frame.context attempt.counters.retries }

/-- **A visit to a state that is run in attempts.** The activation enters the state, and then has turns of its own,
    which may begin further attempts, between turns of the jobs that it holds.  The indices are the attempts begun
    so far, each with the frame in which it began, the notes that the activation itself made, and the activation as
    it now is. -/
inductive Visit (host : Host) (start : Frame) (state : State) :
    List (Frame × Attempt) → List Note → Activation → Prop
  | entered {moment : Moment} {turn : Turn} (defined : start.graph.state? start.state = some state)
      (recoverable : State.IsRecoverable state) (going : moment.cancelled = false)
      (hturn : (Activation.node start .ready).respond host moment .proceed = some turn) :
      Visit host start state [(start.entering host moment, ⟨state, .start state.recovery.retriers.length⟩)]
        turn.notes turn.activation
  | retried {begun : List (Frame × Attempt)} {told : List Note} {frame : Frame} {attempt : Attempt} {due : Nat}
      {moment : Moment} {turn : Turn} (before : Visit host start state begun told (.node frame (.pausing attempt due)))
      (going : moment.cancelled = false)
      (hturn : (Activation.node frame (.pausing attempt due)).respond host moment .proceed = some turn) :
      Visit host start state (begun ++ [(frame.retrying attempt, attempt)]) (told ++ turn.notes) turn.activation
  | turned {begun : List (Frame × Attempt)} {told : List Note} {activation : Activation} {moment : Moment}
      {signal : Signal} {turn : Turn} (before : Visit host start state begun told activation)
      (inside : activation.phase ≠ .ready)
      (noRetry : ∀ attempt due, activation.phase = .pausing attempt due → moment.cancelled = true)
      (hturn : activation.respond host moment signal = some turn) :
      Visit host start state begun (told ++ turn.notes) turn.activation
  | within {begun : List (Frame × Attempt)} {told : List Note} {activation after : Activation} {moment : Moment}
      {signal : Signal} {index : Nat} {place : Place} {entries : List Entry}
      (before : Visit host start state begun told activation)
      (hact : activation.act host moment signal (index :: place) = some (after, entries)) :
      Visit host start state begun told after

/-- An activation in front of a state enters it. -/
theorem enter_of_respond {host : Host} {moment : Moment} {frame : Frame} {turn : Turn} (going : moment.cancelled = false)
    (h : (Activation.node frame .ready).respond host moment .proceed = some turn) : turn = enter host moment frame := by
  have hp : proceed host moment frame .ready = some turn := h
  rcases proceed_cases hp with ⟨cancelled, -⟩ | ⟨-, ⟨-, e⟩ | ⟨_, _, _, e, -⟩ | ⟨_, _, _, e, -⟩ | ⟨_, _, _, e, -⟩ |
    ⟨_, _, e, -⟩⟩
  · cases going.symm.trans cancelled
  · exact e
  all_goals cases e

/-- To enter a state that is run in attempts is to begin the first one. -/
theorem activation_enter {host : Host} {moment : Moment} {start : Frame} {state : State}
    (defined : start.graph.state? start.state = some state) (recoverable : State.IsRecoverable state) :
    (enter host moment start).activation = (beginAttempt host moment (start.entering host moment)
      ⟨state, .start state.recovery.retriers.length⟩).activation := by
  rw [enter, defined, ← begin_of_recoverable host moment _ recoverable]
  rfl

/-- An activation that pauses makes its attempt again. -/
theorem retry_of_respond {host : Host} {moment : Moment} {frame : Frame} {attempt : Attempt} {due : Nat} {turn : Turn}
    (going : moment.cancelled = false)
    (h : (Activation.node frame (.pausing attempt due)).respond host moment .proceed = some turn) :
    turn = beginAttempt host moment (frame.retrying attempt) attempt := by
  have hp : proceed host moment frame (.pausing attempt due) = some turn := h
  rcases proceed_cases hp with ⟨cancelled, -⟩ | ⟨-, ⟨e, -⟩ | ⟨_, _, _, e, -⟩ | ⟨_, _, _, e, -⟩ | ⟨_, _, _, e, -⟩ |
    ⟨_, _, e, -, again⟩⟩
  · cases going.symm.trans cancelled
  case inr.inr.inr.inr.inr => cases e; exact again
  all_goals cases e

/-! ## Exits -/

/-- The ways in which a visit ends. -/
inductive Exit where
  | succeeded | caught | failed | cancelled
  deriving DecidableEq, Repr

/-- The activation passes an output on, to the next state or out of its graph. -/
def Passes (output : Json) : Activation → Prop
  | .node frame .ready => frame.raw = output
  | .node _ (.ended (.output value)) => value = output
  | _ => False

/-- The notes and the activation at the end of a visit to a named state tell in which way it ended. -/
def Exit.Describes (name : String) (told : List Note) (activation : Activation) : Exit → Prop
  | .succeeded =>
    (∃ output, .event (.stateExited name output) ∈ told ∧ Passes output activation) ∧
      ∀ fault next, .event (.stateCaught name fault next) ∉ told
  | .caught =>
    ∃ fault next output, .event (.stateCaught name fault next) ∈ told ∧
      .event (.stateExited name output) ∈ told ∧ activation.phase = .ready ∧
      activation.frame.state = next ∧ Passes output activation
  | .failed => ∃ fault, activation.ending? = some (.fault fault)
  | .cancelled => activation.ending? = some .cancelled

/-- An activation that passes something on has neither failed nor been cancelled. -/
theorem Passes.not_ended {output : Json} {activation : Activation} (h : Passes output activation) :
    (∀ fault, activation.ending? ≠ some (.fault fault)) ∧ activation.ending? ≠ some .cancelled := by
  obtain ⟨frame, phase⟩ := activation
  cases phase with
  | ready => exact ⟨(fun _ e => nomatch e), (fun e => nomatch e)⟩
  | ended ending =>
      cases ending with
      | output value => exact ⟨(fun _ e => nomatch e), (fun e => nomatch e)⟩
      | _ => cases h
  | _ => cases h

/-- **No two exits describe the same end.** -/
theorem Exit.unique {name : String} {told : List Note} {activation : Activation} {exit other : Exit}
    (h : exit.Describes name told activation) (h' : other.Describes name told activation) : exit = other := by
  cases exit <;> cases other
  case succeeded.succeeded | caught.caught | failed.failed | cancelled.cancelled => rfl
  -- Whoever was caught has told so, and whoever passes an output on has neither failed nor been cancelled.
  case succeeded.caught =>
    obtain ⟨fault, next, _, hcaught, -⟩ := h'
    exact absurd hcaught (h.2 fault next)
  case caught.succeeded =>
    obtain ⟨fault, next, _, hcaught, -⟩ := h
    exact absurd hcaught (h'.2 fault next)
  case succeeded.failed => exact absurd h'.choose_spec (h.1.choose_spec.2.not_ended.1 _)
  case succeeded.cancelled => exact absurd h' h.1.choose_spec.2.not_ended.2
  case caught.failed =>
    obtain ⟨_, _, _, -, -, -, -, passes⟩ := h
    exact absurd h'.choose_spec (passes.not_ended.1 _)
  case caught.cancelled =>
    obtain ⟨_, _, _, -, -, -, -, passes⟩ := h
    exact absurd h' passes.not_ended.2
  case failed.succeeded => exact absurd h.choose_spec (h'.1.choose_spec.2.not_ended.1 _)
  case failed.caught =>
    obtain ⟨_, _, _, -, -, -, -, passes⟩ := h'
    exact absurd h.choose_spec (passes.not_ended.1 _)
  case failed.cancelled =>
    obtain ⟨fault, hfault⟩ := h
    cases hfault.symm.trans h'
  case cancelled.succeeded => exact absurd h h'.1.choose_spec.2.not_ended.2
  case cancelled.caught =>
    obtain ⟨_, _, _, -, -, -, -, passes⟩ := h'
    exact absurd h passes.not_ended.2
  case cancelled.failed =>
    obtain ⟨fault, hfault⟩ := h'
    cases hfault.symm.trans h

/-! ## Turns -/

/-- Nothing has been told about leaving a named state. -/
def Silent (name : String) (told : List Note) : Prop :=
  (∀ output, .event (.stateExited name output) ∉ told) ∧ ∀ fault next, .event (.stateCaught name fault next) ∉ told

theorem Silent.append {name : String} {told more : List Note} (h : Silent name told) (h' : Silent name more) :
    Silent name (told ++ more) :=
  ⟨fun output hmem => (List.mem_append.mp hmem).elim (h.1 output) (h'.1 output),
    fun fault next hmem => (List.mem_append.mp hmem).elim (h.2 fault next) (h'.2 fault next)⟩

/-- **An attempt of a visit:** it is made at the state that is visited, on the raw input with which the state was
    entered; so many retries are counted, and so many are told to templates. -/
structure Standing (start : Frame) (state : State) (counted told : Nat) (frame : Frame) (attempt : Attempt) :
    Prop where
  same : attempt.state = state
  counters : attempt.counters.InStep state.recovery.retriers
  retries : attempt.counters.retries = counted
  told : Context.HasRetryCount frame.context told
  raw : frame.raw = start.raw
  name : frame.state = start.state

/-- Where a visit stands after so many retries.  In the pause before one more, that one is counted but not told. -/
def Position (start : Frame) (state : State) (count : Nat) (told : List Note) : Activation → Prop
  | .node frame (.invoking attempt _) => Standing start state count count frame attempt ∧ Silent start.state told
  | .node frame (.fanning attempt _) => Standing start state count count frame attempt ∧ Silent start.state told
  | .node frame (.pausing attempt _) =>
    Standing start state (count + 1) count frame attempt ∧ Silent start.state told
  | .node _ (.waiting ..) => False
  | activation => ∃ exit : Exit, exit.Describes start.state told activation

/-- A turn after which a visit of which nothing has been told yet stands where it may. -/
def Turn.Stands (start : Frame) (state : State) (count : Nat) (turn : Turn) : Prop :=
  ∀ told, Silent start.state told → Position start state count (told ++ turn.notes) turn.activation

variable {host : Host} {moment : Moment} {start frame : Frame} {state : State} {attempt : Attempt} {count : Nat}

theorem Turn.Stands.after {turn : Turn} {notes : List Note} (h : turn.Stands start state count)
    (silent : Silent start.state notes) : (turn.after notes).Stands start state count := by
  intro told htold
  rw [Turn.notes_after, ← List.append_assoc]
  exact h (told ++ notes) (htold.append silent)

theorem stop_fault_stands (fault : Fault) : (stop frame (.fault fault)).Stands start state count :=
  fun _ _ => ⟨.failed, fault, rfl⟩

theorem stop_cancelled_stands : (stop frame .cancelled).Stands start state count :=
  fun _ _ => ⟨.cancelled, rfl⟩

/-- To leave a state is to have succeeded, unless a catcher has taken over. -/
theorem leave_stands (name : frame.state = start.state) (next : Option String) (output : Json) :
    (leave frame next output).Stands start state count := by
  intro told silent
  have passes : Passes output (leave frame next output).activation := by cases next <;> rfl
  have exited : (leave frame next output).notes = [.event (.stateExited start.state output)] := by
    rw [← name]
    cases next <;> rfl
  have succeeded : Exit.Describes start.state (told ++ (leave frame next output).notes)
      (leave frame next output).activation .succeeded := by
    refine ⟨⟨output, by simp [exited], passes⟩, fun fault target hmem => ?_⟩
    rw [exited] at hmem
    exact silent.2 fault target (by simpa using hmem)
  cases next with
  | some next => exact ⟨.succeeded, succeeded⟩
  | none => exact ⟨.succeeded, succeeded⟩

/-- Where the rules of the state pause, one more retry is counted; where they hand over, a catcher takes over or the
    fault is passed on. -/
theorem recover_stands (standing : Standing start state count count frame attempt) (fault : Fault) :
    (recover moment frame attempt fault).Stands start state count := by
  rcases recover_cases moment frame attempt fault with
    ⟨number, delay, counters, hd, e⟩ | ⟨next, output, _, -, e⟩ | ⟨last, _, -, e⟩ <;> rw [e]
  · -- The retrier that has decided allows one more retry, which is counted here and told only after the pause.
    obtain ⟨index, retrier, hretrier, allowed, rfl⟩ := Retry.retried_of_resolve hd
    rw [standing.same] at hretrier
    refine fun told silent => ⟨⟨standing.same, standing.counters.retry hretrier allowed, ?_, standing.told,
      standing.raw, standing.name⟩, silent.append (by simp [Silent])⟩
    exact congrArg (· + 1) standing.retries
  · intro told _
    refine ⟨.caught, ?_⟩
    rw [← standing.name]
    exact ⟨fault, next, output, by simp, by simp [leave], rfl, rfl, rfl⟩
  · exact stop_fault_stands last

/-- A result that cannot be passed on is a fault like any other; a state that leads nowhere fails. -/
theorem conclude_stands (standing : Standing start state count count frame attempt) (result : Json) :
    (conclude moment frame attempt result).Stands start state count := by
  rcases conclude_cases moment frame attempt result with
    ⟨fault, -, e⟩ | ⟨next, output, -, e⟩ | ⟨fault, -, e⟩ <;> rw [e]
  · exact recover_stands standing fault
  · exact leave_stands standing.name next output
  · exact stop_fault_stands fault

theorem begunNotes_silent (name : String) (indices : List Nat) : Silent name (begunNotes frame attempt indices) := by
  refine ⟨fun output hmem => ?_, fun fault next hmem => ?_⟩
  · obtain ⟨index, -, e⟩ := List.mem_map.mp hmem
    unfold begunEvent at e
    split at e <;> cases e
  · obtain ⟨index, -, e⟩ := List.mem_map.mp hmem
    unfold begunEvent at e
    split at e <;> cases e

theorem fan_stands (standing : Standing start state count count frame attempt) (fanOut : FanOut Activation) :
    (fan moment frame attempt fanOut).Stands start state count := by
  obtain ⟨filling, rfl, ⟨fault, -, e⟩ | ⟨-, -, e⟩ | ⟨-, -, e⟩⟩ := fan_cases moment frame attempt fanOut <;>
    rw [e]
  · exact (recover_stands standing fault).after (begunNotes_silent _ _)
  · exact (conclude_stands standing _).after (begunNotes_silent _ _)
  · exact fun told silent => ⟨standing, silent.append (begunNotes_silent _ _)⟩

theorem join_stands (standing : Standing start state count count frame attempt) (fanOut : FanOut Activation)
    (index : Nat) (ending : Ending) : (join moment frame attempt fanOut index ending).Stands start state count := by
  cases ending with
  | output value =>
      refine (fan_stands standing _).after ?_
      unfold succeededEvent
      split <;> simp [Silent]
  | fault fault =>
      refine (recover_stands standing _).after ⟨fun output hmem => ?_, fun caught next hmem => ?_⟩
      · exact forall_jobNotes (Q := (· ≠ .event (.stateExited start.state output))) (by simp) (by simp) _ _ _ _ hmem rfl
      · exact forall_jobNotes (Q := (· ≠ .event (.stateCaught start.state caught next))) (by simp) (by simp) _ _ _ _ hmem rfl
  | cancelled => exact stop_cancelled_stands

theorem beginAttempt_stands (standing : Standing start state count count frame attempt) :
    (beginAttempt host moment frame attempt).Stands start state count := by
  rcases beginAttempt_cases host moment frame attempt with
    ⟨task, fault, -, -, e⟩ | ⟨task, asked, -, -, e⟩ | ⟨fault, -, -, e⟩ | ⟨js, limit, -, e⟩ <;> rw [e]
  · exact recover_stands standing fault
  · -- The token of the invocation is issued beside the number of retries.
    exact fun told silent => ⟨⟨standing.same, standing.counters, standing.retries, standing.told.issueToken _,
      standing.raw, standing.name⟩, silent.append (by simp [Silent])⟩
  · exact recover_stands standing fault
  · exact fan_stands standing _

/-- The first attempt is made with no retries counted and none told. -/
theorem standing_entering (start : Frame) (state : State) (host : Host) (moment : Moment) :
    Standing start state 0 0 (start.entering host moment) ⟨state, .start state.recovery.retriers.length⟩ where
  same := rfl
  counters := Retry.Counters.inStep_start _
  retries := rfl
  told := Context.hasRetryCount_enter _ _ _
  raw := rfl
  name := rfl

/-- When the pause ends, templates are told of the retry for which it was. -/
theorem Standing.retrying (standing : Standing start state (count + 1) count frame attempt) :
    Standing start state (count + 1) (count + 1) (frame.retrying attempt) attempt where
  same := standing.same
  counters := standing.counters
  retries := standing.retries
  told := standing.retries ▸ standing.told.set _
  raw := standing.raw
  name := standing.name

/-- To enter a state that is run in attempts is to begin the first one. -/
theorem enter_stands (defined : start.graph.state? start.state = some state)
    (recoverable : State.IsRecoverable state) : (enter host moment start).Stands start state 0 := by
  unfold enter
  rw [defined]
  refine Turn.Stands.after ?_ (by simp [Silent])
  rw [begin_of_recoverable host moment _ recoverable]
  exact beginAttempt_stands (standing_entering start state host moment)

/-! ## The bound -/

/-- **What holds of a visit at all times.** The attempts begun so far are numbered by the retries before them, the
    first one was begun with nothing counted, and the visit stands where the last one has led. -/
structure Visit.Sound (start : Frame) (state : State) (begun : List (Frame × Attempt)) (told : List Note)
    (activation : Activation) : Prop where
  attempts : ∀ count frame attempt, begun[count]? = some (frame, attempt) →
    Standing start state count count frame attempt
  first : ∃ frame, begun[0]? = some (frame, ⟨state, .start state.recovery.retriers.length⟩)
  position : ∃ count, begun.length = count + 1 ∧ Position start state count told activation

/-- What a turn of an attempt under way leads to. -/
theorem respond_stands {activation : Activation} {signal : Signal} {turn : Turn} {told : List Note}
    (position : Position start state count told activation) (inside : activation.phase ≠ .ready)
    (noRetry : ∀ attempt due, activation.phase = .pausing attempt due → moment.cancelled = true)
    (hturn : activation.respond host moment signal = some turn) :
    Position start state count (told ++ turn.notes) turn.activation := by
  rcases respond_cases hturn with ⟨-, hp⟩ | ⟨frame, attempt, fanOut, index, child, ending, -, rfl, -, -, rfl⟩
  · obtain ⟨frame, phase⟩ := activation
    rcases proceed_cases hp with ⟨-, rfl⟩ | ⟨going, ⟨rfl, -⟩ | ⟨wait, effective, _, rfl, -, -⟩ |
      ⟨attempt, _, result, rfl, -, rfl⟩ | ⟨attempt, _, fault, rfl, -, rfl⟩ | ⟨attempt, due, rfl, -, -⟩⟩
    · exact ⟨.cancelled, rfl⟩
    · exact absurd rfl inside
    · cases position
    · exact conclude_stands position.1 result told position.2
    · exact recover_stands position.1 fault told position.2
    · cases going.symm.trans (noRetry attempt due rfl)
  · exact join_stands position.1 fanOut index ending told position.2

/-- An attempt of a visit that has begun one more is one of those before, or the new one. -/
theorem getElem?_concat {begun : List (Frame × Attempt)} {last found : Frame × Attempt} {count : Nat}
    (h : (begun ++ [last])[count]? = some found) :
    begun[count]? = some found ∨ count = begun.length ∧ found = last := by
  rw [List.getElem?_append] at h
  split at h
  · exact Or.inl h
  · obtain ⟨below, e⟩ := List.getElem?_eq_some_iff.mp h
    rw [List.length_singleton] at below
    rw [List.getElem_singleton] at e
    exact Or.inr ⟨by omega, e.symm⟩

/-- **Every visit is sound,** by induction over what happens in it. -/
theorem Visit.sound {begun : List (Frame × Attempt)} {told : List Note} {activation : Activation}
    (visit : Visit host start state begun told activation) : Visit.Sound start state begun told activation := by
  induction visit with
  | @entered moment turn defined recoverable going hturn =>
      have e := enter_of_respond going hturn
      refine ⟨fun count frame attempt h => ?_, ⟨_, rfl⟩, 0, rfl, ?_⟩
      · cases count with
        | zero => cases h; exact standing_entering start state host moment
        | succ count => cases h
      · rw [e]
        exact enter_stands defined recoverable [] (by simp [Silent])
  | @retried begun told frame attempt due moment turn before going hturn ih =>
      obtain ⟨count, hlength, position⟩ := ih.position
      -- The pause before the attempt is over, so its retry is told from here on.
      have standing := position.1.retrying
      have e := retry_of_respond going hturn
      refine ⟨fun k frame' attempt' h => ?_, ?_, count + 1, by simp [hlength], ?_⟩
      · rcases getElem?_concat h with before | ⟨last, e⟩
        · exact ih.attempts k frame' attempt' before
        · -- The attempt is the one that begins now.
          cases e
          rw [last, hlength]
          exact standing
      · obtain ⟨frame', h⟩ := ih.first
        exact ⟨frame', by rw [List.getElem?_append_left (by omega)]; exact h⟩
      · rw [e]
        exact beginAttempt_stands standing told position.2
  | turned before inside noRetry hturn ih =>
      obtain ⟨count, hlength, position⟩ := ih.position
      exact ⟨ih.attempts, ih.first, count, hlength, respond_stands position inside noRetry hturn⟩
  | within before hact ih =>
      obtain ⟨count, hlength, position⟩ := ih.position
      obtain ⟨frame, attempt, fanOut, child, child', rfl, -, -, rfl⟩ := Activation.act_cons hact
      exact ⟨ih.attempts, ih.first, count, hlength, position⟩

/-- A visit of which the activation has left the state, or the graph, is at an end. -/
def AtEnd (activation : Activation) : Prop := activation.phase = .ready ∨ activation.ending?.isSome

/-- **The loop of recovery is bounded.** However the attempts of a visit turn out, there are at most as many as the
    retriers allow together.  The attempt after so many retries is told that number, and so is what renders its
    result; each starts from the raw input with which the state was entered, and the first with nothing counted.
    A visit at an end ended in one way only. -/
theorem recovery_bounded (host : Host) (start : Frame) (state : State) (begun : List (Frame × Attempt))
    (told : List Note) (activation : Activation) (visit : Visit host start state begun told activation) :
    begun.length ≤ 1 + (state.recovery.retriers.map fun retrier => max retrier.maxAttempts 1 - 1).sum ∧
      (∀ (retries : Nat) (frame : Frame) (attempt : Attempt), begun[retries]? = some (frame, attempt) →
        (∀ data, Path.resolve Context.retryCountPath data frame.context = .ok (.int retries)) ∧
          frame.raw = start.raw ∧ attempt.state = state) ∧
      (∃ frame, begun[0]? = some (frame, ⟨state, .start state.recovery.retriers.length⟩)) ∧
      (∀ frame attempt, (∃ invocation, activation = .node frame (.invoking attempt invocation)) ∨
          (∃ fanOut, activation = .node frame (.fanning attempt fanOut)) →
        (∀ data, Path.resolve Context.retryCountPath data frame.context = .ok (.int (begun.length - 1 : Nat))) ∧
          frame.raw = start.raw ∧ attempt.state = state) ∧
      (AtEnd activation → ∃! exit : Exit, exit.Describes start.state told activation) := by
  have sound := visit.sound
  obtain ⟨count, hlength, position⟩ := sound.position
  refine ⟨?_, fun retries frame attempt h => ?_, sound.first, fun frame attempt h => ?_, fun ended => ?_⟩
  · -- As many retries are counted in the last attempt as there are attempts before it.
    have standing := sound.attempts count _ _ (List.getElem?_eq_getElem (by omega))
    have bound := standing.retries ▸ standing.counters.retries_le
    show begun.length ≤ 1 + (state.recovery.retriers.map Retry.Counters.allowance).sum
    omega
  · have standing := sound.attempts retries frame attempt h
    exact ⟨fun data => standing.told.resolve data, standing.raw, standing.same⟩
  · have standing : Standing start state count count frame attempt := by
      rcases h with ⟨invocation, rfl⟩ | ⟨fanOut, rfl⟩
      · exact position.1
      · exact position.1
    rw [hlength]
    exact ⟨fun data => standing.told.resolve data, standing.raw, standing.same⟩
  · have described : ∃ exit : Exit, exit.Describes start.state told activation := by
      obtain ⟨frame, phase⟩ := activation
      cases phase with
      | ready => exact position
      | ended ending => exact position
      | _ => rcases ended with e | e <;> cases e
    obtain ⟨exit, h⟩ := described
    exact ⟨exit, h, fun other h' => Exit.unique h' h⟩

/-- A task that may be tried twice. -/
def flakyTask : Task where
  comment := none
  resource := "resource"
  inputPath := .whole
  outputPath := .whole
  resultPath := .whole
  parameters := none
  resultSelector := none
  recovery := ⟨[⟨["Flaky"], 1, 2, 1, none, .full⟩], []⟩
  timeoutSeconds := none
  timeoutSecondsPath := none
  heartbeatSeconds := none
  heartbeatSecondsPath := none
  transition := ⟨none, true⟩

/-- The handler of the task fails whenever it is invoked. -/
def flakyHost : Host where
  handlers := ⟨[("Try", ⟨fun _ _ => ⟨0, .failed ⟨"Flaky", "down"⟩, false⟩⟩)]⟩
  waits := []
  epochMillis := 0

def flakyStart : Frame := ⟨[], ⟨none, "Try", [("Try", .task flakyTask)]⟩, .empty, "Try", .null, 0, default⟩

def flakyMoment : Moment := ⟨0, false, fun _ => []⟩

/-- The task is tried twice and fails; its retrier allows no more. -/
theorem recovery_bounded_flaky :
    ∃ begun told activation, Visit flakyHost flakyStart (.task flakyTask) begun told activation ∧
      begun.length = 2 ∧
      begun.length ≤ 1 + (flakyTask.recovery.retriers.map fun retrier => max retrier.maxAttempts 1 - 1).sum ∧
      ∃! exit : Exit, exit.Describes "Try" told activation := by
  have entered := @Visit.entered flakyHost flakyStart (.task flakyTask) flakyMoment _ rfl (by decide) rfl rfl
  have paused := @Visit.turned _ _ _ _ _ _ flakyMoment .proceed _ entered (fun e => nomatch e) (fun _ _ e => nomatch e) rfl
  have retried := @Visit.retried _ _ _ _ _ _ _ _ flakyMoment _ paused rfl rfl
  have failed := @Visit.turned _ _ _ _ _ _ flakyMoment .proceed _ retried (fun e => nomatch e) (fun _ _ e => nomatch e) rfl
  obtain ⟨bound, -, -, -, ends⟩ := recovery_bounded _ _ _ _ _ _ failed
  exact ⟨_, _, _, failed, rfl, bound, ends (Or.inr rfl)⟩

/-! ## Runs -/

/-- The attempt that an activation is making. -/
def Activation.attempt? (activation : Activation) : Option Attempt :=
  match activation.phase with
  | .invoking attempt _ | .pausing attempt _ | .fanning attempt _ => some attempt
  | _ => none

/-- Where an activation is making an attempt, it is on a visit. -/
def OnVisit (host : Host) (activation : Activation) : Prop :=
  ∀ attempt, activation.attempt? = some attempt →
    ∃ start state begun told, Visit host start state begun told activation

theorem attempt?_leaveOrFail (outcome : DataFlow.Outcome (Option String × Json)) :
    (leaveOrFail frame outcome).activation.attempt? = none := by
  cases outcome with
  | error fault => rfl
  | ok left =>
      obtain ⟨next, output⟩ := left
      cases next <;> rfl

/-- A state that is not run in attempts begins none. -/
theorem attempt?_begin (single : ¬ State.IsRecoverable state) :
    (begin host moment frame state).activation.attempt? = none := by
  cases state with
  | wait s =>
      rcases begin_wait_cases host moment frame s with ⟨_, -, e⟩ | ⟨_, _, -, e⟩ <;> rw [e]
      · rfl
      · rfl
  | task | parallel | map => exact absurd (by simp [State.IsRecoverable, State.kind]) single
  | fail s => rfl
  | _ => exact attempt?_leaveOrFail _

/-- Where an activation is making an attempt, it is on a visit that began in a frame of the given kind. -/
def VisitsFrom (Q : Frame → Prop) (host : Host) (activation : Activation) : Prop :=
  ∀ attempt, activation.attempt? = some attempt →
    ∃ start state begun told, Q start ∧ Visit host start state begun told activation

/-- A turn that makes an attempt begins a visit or goes on with one. -/
theorem visitsFrom_respond {Q : Frame → Prop} {signal : Signal} {activation : Activation} {turn : Turn}
    (h : VisitsFrom Q host activation) (first : activation.phase = .ready → Q activation.frame)
    (hturn : activation.respond host moment signal = some turn) : VisitsFrom Q host turn.activation := by
  intro attempt attempting
  rcases respond_cases hturn with ⟨rfl, hp⟩ | ⟨_, before, _, _, _, _, -, rfl, -, -, -⟩
  · obtain ⟨frame, phase⟩ := activation
    rcases proceed_cases hp with ⟨-, rfl⟩ | ⟨going, ⟨rfl, rfl⟩ | ⟨wait, effective, _, rfl, -, rfl⟩ |
      ⟨before, _, result, rfl, -, -⟩ | ⟨before, _, fault, rfl, -, -⟩ | ⟨before, due, rfl, -, -⟩⟩
    · cases attempting
    · -- Entering makes an attempt only if the state is defined and recoverable.
      cases defined : frame.graph.state? frame.state with
      | none =>
          simp only [enter, Activation.frame, defined] at attempting
          cases attempting
      | some state =>
          by_cases recoverable : State.IsRecoverable state
          · exact ⟨_, _, _, _, first rfl, .entered defined recoverable going hturn⟩
          · simp only [enter, Activation.frame, defined] at attempting
            cases (attempt?_begin recoverable).symm.trans attempting
    · cases (attempt?_leaveOrFail _).symm.trans attempting
    · obtain ⟨start, state, begun, told, kind, visit⟩ := h before rfl
      exact ⟨_, _, _, _, kind, visit.turned (by simp [Activation.phase]) (by simp [Activation.phase]) hturn⟩
    · obtain ⟨start, state, begun, told, kind, visit⟩ := h before rfl
      exact ⟨_, _, _, _, kind, visit.turned (by simp [Activation.phase]) (by simp [Activation.phase]) hturn⟩
    · obtain ⟨start, state, begun, told, kind, visit⟩ := h before rfl
      exact ⟨_, _, _, _, kind, visit.retried going hturn⟩
  · obtain ⟨start, state, begun, told, kind, visit⟩ := h before rfl
    exact ⟨_, _, _, _, kind, visit.turned (by simp [Activation.phase]) (by simp [Activation.phase]) hturn⟩

/-- What a job does leaves the activation around it on its visit. -/
theorem visitsFrom_within {Q : Frame → Prop} {signal : Signal} {index : Nat} {place : Place}
    {activation after : Activation} {entries : List Entry} (h : VisitsFrom Q host activation)
    (hact : activation.act host moment signal (index :: place) = some (after, entries)) :
    VisitsFrom Q host after := by
  obtain ⟨_, attempt, _, _, _, rfl, -, -, rfl⟩ := Activation.act_cons hact
  intro other _
  obtain ⟨start, state, begun, told, kind, visit⟩ := h attempt rfl
  exact ⟨start, state, begun, told, kind, visit.within hact⟩

theorem onVisit_iff {activation : Activation} : OnVisit host activation ↔ VisitsFrom (fun _ => True) host activation := by
  simp only [OnVisit, VisitsFrom, true_and]

/-- **Whatever attempt is under way in a run, at any depth, belongs to a visit.** -/
theorem onVisit_of_play {setup : Setup} {moves : List Run.Move} {run : Run}
    (played : (Run.start setup).play setup moves = some run) : run.outermost.Everywhere (OnVisit setup.host) := by
  refine Run.everywhere_of_play (fun _ e => nomatch e) (fun ⟨_, _⟩ _ _ e => nomatch e) ?_ ?_ played
  · intro moment signal activation turn before hturn
    refine ⟨onVisit_iff.mpr (visitsFrom_respond (onVisit_iff.mp before.self) (fun _ => trivial) hturn), ?_⟩
    rintro index child ⟨_, _, _, _, _, -, -, -, rfl⟩
    exact fun _ e => nomatch e
  · intro moment signal activation after index place entries visited hact
    exact onVisit_iff.mpr (visitsFrom_within (onVisit_iff.mp visited) hact)

end Workflow.Execution
