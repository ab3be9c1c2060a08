import Workflow.Proofs.Execution.Run

/-!
# `Workflow.Proofs.Execution.Settlement` — a run is settled once, and says so last

The log of a run, in which only those take part who are under way in it, begins with the start of the run.  After it
come the notes of activations, none of which settles the run, and the event of the settlement, if there is one, comes
last.  Two facts about turns carry this through every run: what an activation notes down is about states, branches and
iterations only, and it ends as cancelled only where the run is to be aborted.

## Contents
- **Turns.** `Note.IsInner`, `Heeds`, and `respond_orderly`, both facts for every turn.
- **Runs.** `Chronicle`, the shape of a log, `Run.Orderly`, the invariant, and `orderly_of_play`.
- **Looking at a run.** `Agrees`, what a settled run says about itself, and `Move.Looks`; `move_of_overruled`.
-/

namespace Workflow.Execution

/-! ## Turns -/

/-- An event about a state, a branch or an iteration: it tells neither that the run started nor how it settled. -/
def Event.IsInner (event : Event) : Prop :=
  event.isTerminal = false ∧ ∀ input, event ≠ .runStarted input

/-- A note that tells nothing about the run as a whole. -/
def Note.IsInner : Note → Prop
  | .event told => Event.IsInner told
  | .call .. => True

/-- An activation ends as cancelled only where the run is to be aborted. -/
def Heeds (aborting : Bool) (activation : Activation) : Prop :=
  activation.ending? = some .cancelled → aborting = true

/-- A turn after which the activation heeds whether the run is to be aborted, and which notes down nothing about
    the run as a whole. -/
structure Turn.Orderly (aborting : Bool) (turn : Turn) : Prop where
  heeds : Heeds aborting turn.activation
  inner : ∀ note ∈ turn.notes, note.IsInner

variable {aborting : Bool} {host : Host} {moment : Moment} {frame : Frame} {attempt : Attempt}

theorem Turn.Orderly.after {turn : Turn} {notes : List Note} (h : turn.Orderly aborting)
    (inner : ∀ note ∈ notes, note.IsInner) : (turn.after notes).Orderly aborting :=
  ⟨h.heeds, fun note hnote => (List.mem_append.mp hnote).elim (inner note) (h.inner note)⟩

theorem stop_orderly {ending : Ending} (h : ending = .cancelled → aborting = true) :
    (stop frame ending).Orderly aborting :=
  ⟨fun e => h (Option.some.inj e), by simp [stop]⟩

theorem stop_fault_orderly (fault : Fault) : (stop frame (.fault fault)).Orderly aborting :=
  stop_orderly (by simp)

theorem leave_orderly (next : Option String) (output : Json) : (leave frame next output).Orderly aborting := by
  have exited : ∀ note ∈ [Note.event (.stateExited frame.state output)], note.IsInner := by
    simp [Note.IsInner, Event.IsInner, Event.isTerminal]
  cases next with
  | some next => exact ⟨(fun e => nomatch e), exited⟩
  | none => exact ⟨(fun e => nomatch e), exited⟩

theorem leaveOrFail_orderly (outcome : DataFlow.Outcome (Option String × Json)) :
    (leaveOrFail frame outcome).Orderly aborting := by
  cases outcome with
  | error fault => exact stop_fault_orderly fault
  | ok left => exact leave_orderly left.1 left.2

theorem recover_orderly (fault : Fault) : (recover moment frame attempt fault).Orderly aborting := by
  rcases recover_cases moment frame attempt fault with
    ⟨number, delay, counters, -, e⟩ | ⟨next, output, counters, -, e⟩ | ⟨last, counters, -, e⟩ <;> rw [e]
  · exact ⟨(fun e => nomatch e), by simp [Note.IsInner, Event.IsInner, Event.isTerminal]⟩
  · exact (leave_orderly _ _).after (by simp [Note.IsInner, Event.IsInner, Event.isTerminal])
  · exact stop_fault_orderly last

theorem conclude_orderly (result : Json) : (conclude moment frame attempt result).Orderly aborting := by
  rcases conclude_cases moment frame attempt result with
    ⟨fault, -, e⟩ | ⟨next, output, -, e⟩ | ⟨fault, -, e⟩ <;> rw [e]
  · exact recover_orderly fault
  · exact leave_orderly next output
  · exact stop_fault_orderly fault

theorem begunNotes_inner (indices : List Nat) : ∀ note ∈ begunNotes frame attempt indices, note.IsInner := by
  refine forall_begunNotes ?_ ?_ indices <;> simp [Note.IsInner, Event.IsInner, Event.isTerminal]

theorem fan_orderly (fanOut : FanOut Activation) : (fan moment frame attempt fanOut).Orderly aborting := by
  obtain ⟨filling, rfl, ⟨fault, -, e⟩ | ⟨-, -, e⟩ | ⟨-, -, e⟩⟩ := fan_cases moment frame attempt fanOut <;>
    rw [e]
  · exact (recover_orderly fault).after (begunNotes_inner _)
  · exact (conclude_orderly _).after (begunNotes_inner _)
  · exact ⟨(fun e => nomatch e), begunNotes_inner _⟩

/-- A job that was cancelled heeded that the run is to be aborted. -/
theorem join_orderly {fanOut : FanOut Activation} {index : Nat} {child : Activation} {ending : Ending}
    (heeds : Heeds aborting child) (hending : child.ending? = some ending) :
    (join moment frame attempt fanOut index ending).Orderly aborting := by
  cases ending with
  | output value =>
      refine (fan_orderly _).after ?_
      unfold succeededEvent
      split <;> simp [Note.IsInner, Event.IsInner, Event.isTerminal]
  | fault fault =>
      refine (recover_orderly _).after (forall_jobNotes ?_ ?_ _ _ _) <;>
        simp [Note.IsInner, Event.IsInner, Event.isTerminal]
  | cancelled => exact stop_orderly fun _ => heeds hending

theorem beginAttempt_orderly : (beginAttempt host moment frame attempt).Orderly aborting := by
  rcases beginAttempt_cases host moment frame attempt with
    ⟨task, fault, -, -, e⟩ | ⟨task, asked, -, -, e⟩ | ⟨fault, -, -, e⟩ |
    ⟨js, limit, -, e⟩ <;> rw [e]
  · exact recover_orderly fault
  · exact ⟨(fun e => nomatch e), by simp [Note.IsInner]⟩
  · exact recover_orderly fault
  · exact fan_orderly _

theorem begin_orderly (state : State) : (begin host moment frame state).Orderly aborting := by
  cases state with
  | succeed s => exact leaveOrFail_orderly _
  | fail s => exact stop_fault_orderly _
  | choice s => exact leaveOrFail_orderly _
  | pass s => exact leaveOrFail_orderly _
  | wait s =>
      rcases begin_wait_cases host moment frame s with ⟨fault, -, e⟩ | ⟨effective, due, -, e⟩ <;> rw [e]
      · exact stop_fault_orderly fault
      · exact ⟨(fun h => nomatch h), by simp⟩
  | task | parallel | map =>
      rw [begin_of_recoverable host moment frame (by simp [State.IsRecoverable, State.kind])]
      exact beginAttempt_orderly

theorem enter_orderly : (enter host moment frame).Orderly aborting := by
  unfold enter
  split
  · exact stop_fault_orderly _
  · exact (begin_orderly _).after (by simp [Note.IsInner, Event.IsInner, Event.isTerminal])

theorem proceed_orderly {phase : Phase} {turn : Turn} (h : proceed host moment frame phase = some turn) :
    turn.Orderly moment.cancelled := by
  rcases proceed_cases h with ⟨cancelled, rfl⟩ | ⟨-, ⟨-, rfl⟩ | ⟨wait, effective, _, -, -, rfl⟩ |
    ⟨attempt, _, result, -, -, rfl⟩ | ⟨attempt, _, fault, -, -, rfl⟩ | ⟨attempt, _, -, -, rfl⟩⟩
  · exact stop_orderly fun _ => cancelled
  · exact enter_orderly
  · exact leaveOrFail_orderly _
  · exact conclude_orderly result
  · exact recover_orderly fault
  · exact beginAttempt_orderly

/-- A job that has just begun has not been cancelled. -/
theorem heeds_of_begins {activation : Activation} (index : Nat) (child : Activation)
    (begins : activation.Begins index child) : Heeds aborting child := by
  obtain ⟨_, _, _, _, _, -, -, -, rfl⟩ := begins
  exact fun e => nomatch e

/-- **Every turn is orderly,** if the jobs under way heed whether the run is to be aborted. -/
theorem respond_orderly {signal : Signal} {activation : Activation} {turn : Turn}
    (heeds : activation.Everywhere (Heeds moment.cancelled))
    (h : activation.respond host moment signal = some turn) : turn.Orderly moment.cancelled := by
  rcases respond_cases h with ⟨-, hp⟩ | ⟨frame, attempt, fanOut, index, child, ending, -, rfl, hchild, hending, rfl⟩
  · exact proceed_orderly hp
  · exact join_orderly (heeds.child hchild).self hending

/-! ## Runs -/

/-- The events of a run on an input: that it started, what happened inside it, and how it was settled, unless it broke
    off. -/
inductive Chronicle (input : Json) : List Event → Option Settlement → Prop
  | going (told : List Event) (inner : ∀ event ∈ told, Event.IsInner event) :
      Chronicle input (.runStarted input :: told) none
  | settled (told : List Event) (inner : ∀ event ∈ told, Event.IsInner event) (settlement : Settlement)
      (millis : Nat) :
      Chronicle input (.runStarted input :: (told ++ (settlement.event? millis).toList)) (some settlement)

/-- More happens inside a run that goes on. -/
theorem Chronicle.extend {input : Json} {events more : List Event} (h : Chronicle input events none)
    (inner : ∀ event ∈ more, Event.IsInner event) : Chronicle input (events ++ more) none := by
  cases h with
  | going told before =>
      refine .going (told ++ more) fun event hevent => ?_
      exact (List.mem_append.mp hevent).elim (before event) (inner event)

/-- A run that goes on is settled. -/
theorem Chronicle.close {input : Json} {events : List Event} (h : Chronicle input events none)
    (settlement : Settlement) (millis : Nat) :
    Chronicle input (events ++ (settlement.event? millis).toList) (some settlement) := by
  cases h with
  | going told inner => exact .settled told inner settlement millis

namespace Run

variable {setup : Setup} {run after : Run}

/-- **What holds of a run at all times.** Its log is in order.  Everything under way heeds whether the run is to
    be aborted, until it is settled; then the outermost activation has ended. -/
structure Orderly (setup : Setup) (run : Run) : Prop where
  chronicle : Chronicle setup.input run.events run.settlement
  heeds : run.settlement = none → run.outermost.Everywhere (Heeds run.abortRequested)
  ended : run.settlement.isSome → run.outermost.ending?.isSome
  aborted : run.settlement = some .aborted → run.abortRequested = true

theorem orderly_start (setup : Setup) : (start setup).Orderly setup where
  chronicle := .going [] (by simp)
  heeds _ := Activation.everywhere_of_children (fun e => nomatch e) fun _ _ hchild => nomatch hchild
  ended h := nomatch h
  aborted h := nomatch h

/-- In a run that is settled nobody acts. -/
theorem Orderly.unsettled_of_act (h : run.Orderly setup) {moment : Moment} {place : Place} {signal : Signal}
    (hact : run.actAt setup moment place signal = some after) : run.settlement = none := by
  cases settled : run.settlement with
  | none => rfl
  | some settlement =>
      rw [actAt_of_ended (h.ended (settled ▸ rfl))] at hact
      cases hact

/-- A run is settled in order when its outermost activation has ended, and as aborted only on demand. -/
theorem orderly_settle {settlement : Settlement} (chronicle : Chronicle setup.input run.events none)
    (ended : run.outermost.ending?.isSome) (aborted : settlement = .aborted → run.abortRequested = true) :
    (run.settle settlement).Orderly setup where
  chronicle := events_settle run settlement ▸ chronicle.close settlement run.clock
  heeds h := nomatch h
  ended _ := ended
  aborted h := aborted (Option.some.inj h)

/-- A run is settled from outside as aborted only on demand. -/
theorem abortRequested_of_overruled (h : run.overruled? setup = some .aborted) :
    run.abortRequested = true := by
  rcases overruled_cases h with ⟨-, requested⟩ | ⟨_, e⟩
  · exact requested
  · cases e

theorem Orderly.overrule (h : run.Orderly setup) {settlement : Settlement} (unsettled : run.settlement = none)
    (hover : run.overruled? setup = some settlement) : (run.overrule settlement).Orderly setup := by
  show Orderly setup (settle { run with outermost := run.outermost.givenUp } settlement)
  refine orderly_settle ?_ (by simp) fun e => abortRequested_of_overruled (e ▸ hover)
  show Chronicle setup.input run.events none
  exact unsettled ▸ h.chronicle

/-- Turns keep a run that goes on in order. -/
theorem Orderly.act (h : run.Orderly setup) {place : Place} {signal : Signal}
    (hact : run.act setup place signal = some after) : after.Orderly setup := by
  have unsettled := h.unsettled_of_act hact
  have turns : ∀ (activation : Activation) (turn : Turn), activation.Everywhere (Heeds run.abortRequested) →
      activation.respond setup.host run.moment signal = some turn → turn.Orderly run.abortRequested :=
    fun activation turn heeds hturn => respond_orderly heeds hturn
  obtain ⟨outermost, entries, hinner, hafter⟩ := act_cases hact
  have heeds : outermost.Everywhere (Heeds run.abortRequested) :=
    (h.heeds unsettled).act
      (fun activation turn before hturn => ⟨(turns activation turn before hturn).heeds, heeds_of_begins⟩)
      (fun _ _ _ _ _ _ _ _ _ _ _ e => nomatch e) hinner
  have inner : ∀ event ∈ entries.filterMap eventOf?, Event.IsInner event := by
    intro event hevent
    obtain ⟨entry, hentry, hnote⟩ := exists_entry_of_event hevent
    have inner := Activation.entries_of_act (Q := Note.IsInner)
      (fun activation turn before hturn => (turns activation turn before hturn).inner)
      (h.heeds unsettled) hinner _ hentry
    rw [hnote] at inner
    exact inner
  have chronicle : Chronicle setup.input (run.noted outermost entries).events none := by
    rw [events_noted]
    exact (unsettled ▸ h.chronicle).extend inner
  -- If the outermost activation has ended, the run is settled with it.
  rcases hafter with ⟨ending, hending, rfl⟩ | ⟨-, rfl⟩
  · refine orderly_settle chronicle (hending ▸ rfl) fun e => heeds.self ?_
    rw [hending, Settlement.ofEnding_eq_aborted e]
  · have still : (run.noted outermost entries).settlement = none := unsettled
    exact ⟨still ▸ chronicle, fun _ => heeds, fun e => absurd e (by simp [still]),
      fun e => absurd e (by simp [still])⟩

/-- **Every move keeps a run in order.** -/
theorem Orderly.move {next : Move} (h : run.Orderly setup) (hmove : run.move setup next = some after) :
    after.Orderly setup := by
  rcases move_cases hmove with ⟨time, -, rfl⟩ | ⟨-, rfl⟩ | ⟨settlement, unsettled, hover, rfl⟩ |
    ⟨place, signal, -, -, hact⟩
  · exact ⟨h.chronicle, h.heeds, h.ended, h.aborted⟩
  · exact ⟨h.chronicle, fun _ _ _ _ _ => rfl, h.ended, fun _ => rfl⟩
  · exact h.overrule unsettled hover
  · exact h.act hact

/-- **Every run is in order.** -/
theorem orderly_of_play {moves : List Move} (h : (start setup).play setup moves = some run) :
    run.Orderly setup :=
  play_induct (fun _ _ _ => Orderly.move) (orderly_start setup) h

/-- Once a run is settled, a move changes neither its settlement nor its log. -/
theorem Orderly.settled_move {next : Move} (h : run.Orderly setup) (settled : run.settlement.isSome)
    (hmove : run.move setup next = some after) :
    after.settlement = run.settlement ∧ after.log = run.log := by
  rcases move_cases hmove with ⟨time, -, rfl⟩ | ⟨-, rfl⟩ | ⟨settlement, unsettled, -, -⟩ |
    ⟨place, signal, -, -, hact⟩
  · exact ⟨rfl, rfl⟩
  · exact ⟨rfl, rfl⟩
  · rw [unsettled] at settled
    cases settled
  · rw [h.unsettled_of_act hact] at settled
    cases settled

/-- **A run that is settled is over,** whatever moves come next. -/
theorem Orderly.settled_over {later : List Move} (h : run.Orderly setup) (settled : run.settlement.isSome)
    (hlater : run.play setup later = some after) : after.settlement = run.settlement ∧ after.log = run.log := by
  have kept : after.Orderly setup ∧ after.settlement = run.settlement ∧ after.log = run.log := by
    refine play_induct (P := fun r => r.Orderly setup ∧ r.settlement = run.settlement ∧ r.log = run.log)
      ?_ ⟨h, rfl, rfl⟩ hlater
    rintro next before following ⟨orderly, settlement, log⟩ hnext
    obtain ⟨settlement', log'⟩ := orderly.settled_move (settlement ▸ settled) hnext
    exact ⟨orderly.move hnext, settlement'.trans settlement, log'.trans log⟩
  exact kept.2

/-- A move with which someone looks whether the run is to be settled: the outermost activation is served, or only
    the demand to abort and the deadline are. -/
def Move.Looks (next : Move) : Prop := next = .overrule ∨ ∃ signal, next = .act [] signal

/-- What is to be settled from outside is settled by whoever looks. -/
theorem move_of_overruled {next : Move} {settlement : Settlement} (looks : next.Looks)
    (unsettled : run.settlement = none) (hover : run.overruled? setup = some settlement) :
    run.move setup next = some (run.overrule settlement) := by
  rcases looks with rfl | ⟨signal, rfl⟩ <;> simp [move, unsettled, hover]

/-- A demand to abort settles the run, whatever the time. -/
theorem overruled_of_requested (requested : run.abortRequested = true) : run.overruled? setup = some .aborted := by
  simp [overruled?, requested]

/-- Before its deadline, a run that nobody has asked to abort is not settled from outside. -/
theorem overruled_eq_none (requested : run.abortRequested = false)
    (early : ∀ seconds due, deadline? setup = some (seconds, due) → run.clock < due) : run.overruled? setup = none := by
  cases hdue : deadline? setup with
  | none => simp [overruled?, requested, hdue]
  | some limit => simp [overruled?, requested, hdue, Nat.not_le.mpr (early limit.1 limit.2 hdue)]

end Run

end Workflow.Execution
