import Workflow.Execution.Run
import Workflow.Proofs.Execution.Turn

/-!
# `Workflow.Proofs.Execution.Run` — everything that a move can come to

As for turns, one lemma lists what a move can come to.  What every move keeps is kept by a whole run.

## Contents
- **Settlements.** `Settlement.ofEnding_fault_cases`, and what an ending has been if it has brought about a settlement.
- **Moves.** `act_eq`, `act_cases`, `overruled_cases`, `move_cases` and `act_of_move`, and `actAt_of_ended`: an outermost
  activation that has ended does nothing more.
- **Plays.** `play_induct`, `play_append` and `play_concat`, and `reached_induct` for what a run has come to from its start;
  and `everywhere_of_play`, for what holds of every activation.
- **The log.** `exists_entry_of_event`; `events_noted` and `events_settle`, what is added to the events.
-/

namespace Workflow.Execution

/-! ## Settlements -/

/-- A run whose outermost activation has a fault has failed with it, unless it broke off. -/
theorem Settlement.ofEnding_fault_cases (fault : Fault) :
    (fault.trap? = none ∧ Settlement.ofEnding (.fault fault) = .failed fault) ∨
    ∃ trap, fault.trap? = some trap ∧ Settlement.ofEnding (.fault fault) = .lost trap := by
  cases broke : fault.trap? with
  | none => exact Or.inl ⟨rfl, by simp only [Settlement.ofEnding, broke]⟩
  | some trap => exact Or.inr ⟨trap, rfl, by simp only [Settlement.ofEnding, broke]⟩

theorem Settlement.ofEnding_eq_failed {ending : Ending} {fault : Fault} (h : Settlement.ofEnding ending = .failed fault) :
    ending = .fault fault ∧ fault.trap? = none := by
  cases ending with
  | output | cancelled => cases h
  | fault own =>
      rcases Settlement.ofEnding_fault_cases own with ⟨named, e⟩ | ⟨_, -, e⟩
      · cases e.symm.trans h
        exact ⟨rfl, named⟩
      · cases e.symm.trans h

theorem Settlement.ofEnding_eq_succeeded {ending : Ending} {output : Json}
    (h : Settlement.ofEnding ending = .succeeded output) : ending = .output output := by
  cases ending with
  | output own => exact congrArg Ending.output (Settlement.succeeded.inj h)
  | cancelled => cases h
  | fault own => rcases Settlement.ofEnding_fault_cases own with ⟨-, e⟩ | ⟨_, -, e⟩ <;> cases e.symm.trans h

theorem Settlement.ofEnding_eq_aborted {ending : Ending} (h : Settlement.ofEnding ending = .aborted) :
    ending = .cancelled := by
  cases ending with
  | output own => cases h
  | cancelled => rfl
  | fault own => rcases Settlement.ofEnding_fault_cases own with ⟨-, e⟩ | ⟨_, -, e⟩ <;> cases e.symm.trans h

/-- What is noted down about a settlement is its event, about the outermost activation. -/
theorem Settlement.mem_entries {settlement : Settlement} {millis : Nat} {entry : Entry} :
    entry ∈ settlement.entries millis ↔ ∃ event, settlement.event? millis = some event ∧ entry = ⟨[], .event event⟩ := by
  unfold Settlement.entries
  cases settlement.event? millis <;> simp

namespace Run

variable {setup : Setup} {run after : Run}

/-! ## Moves -/

/-- The run once its outermost activation is as given and entries have been added to its log. -/
def noted (run : Run) (outermost : Activation) (entries : List Entry) : Run :=
  { run with outermost, log := entries.reverse ++ run.log }

/-- A run after a turn: it goes on unless the outermost activation has ended. -/
theorem act_eq {place : Place} {signal : Signal} {outermost : Activation} {entries : List Entry}
    (h : run.outermost.act setup.host run.moment signal place = some (outermost, entries)) :
    run.act setup place signal = some (match outermost.ending? with
      | some ending => (run.noted outermost entries).settle (.ofEnding ending)
      | none => run.noted outermost entries) := by
  rw [act, actAt, h]
  rfl

theorem act_cases {place : Place} {signal : Signal} (h : run.act setup place signal = some after) :
    ∃ outermost entries,
      run.outermost.act setup.host run.moment signal place = some (outermost, entries) ∧
      ((∃ ending, outermost.ending? = some ending ∧
          after = (run.noted outermost entries).settle (.ofEnding ending)) ∨
        (outermost.ending? = none ∧ after = run.noted outermost entries)) := by
  obtain ⟨⟨outermost, entries⟩, hact, -⟩ := Option.map_eq_some_iff.mp h
  refine ⟨outermost, entries, hact, ?_⟩
  have hafter := (act_eq hact).symm.trans h
  cases hending : outermost.ending? with
  | some ending => exact Or.inl ⟨ending, rfl, by simpa only [hending, Option.some.injEq, eq_comm] using hafter⟩
  | none => exact Or.inr ⟨rfl, by simpa only [hending, Option.some.injEq, eq_comm] using hafter⟩

/-- As long as nothing settles the run from outside, the outermost activation has its turn. -/
theorem move_outermost {signal : Signal} (unsettled : run.settlement = none)
    (hover : run.overruled? setup = none) : run.move setup (.act [] signal) = run.act setup [] signal := by
  simp [move, unsettled, hover]

/-- From outside, a run is settled as aborted, on demand, or as timed out. -/
theorem overruled_cases {settlement : Settlement} (h : run.overruled? setup = some settlement) :
    (settlement = .aborted ∧ run.abortRequested = true) ∨ ∃ seconds, settlement = .timedOut seconds := by
  unfold overruled? at h
  split at h
  · rename_i requested
    exact Or.inl ⟨(Option.some.inj h).symm, requested⟩
  · split at h
    · split at h <;> cases h
      exact Or.inr ⟨_, rfl⟩
    · cases h

/-- Time passes, someone asks to abort, the run is settled from outside, or an activation acts. -/
theorem move_cases {next : Move} (h : run.move setup next = some after) :
    (∃ time, next = .wait time ∧ after = { run with clock := max run.clock time }) ∨
    (next = .abort ∧ after = { run with abortRequested := true }) ∨
    (∃ settlement, run.settlement = none ∧ run.overruled? setup = some settlement ∧
      after = run.overrule settlement) ∨
    (∃ place signal, next = .act place signal ∧
      (place = [] → run.settlement = none ∧ run.overruled? setup = none) ∧
      run.act setup place signal = some after) := by
  cases next with
  | wait time => exact Or.inl ⟨time, rfl, (Option.some.inj h).symm⟩
  | abort => exact Or.inr (Or.inl ⟨rfl, (Option.some.inj h).symm⟩)
  | overrule =>
      simp only [move] at h
      split at h
      · cases h
      · rename_i unsettled
        obtain ⟨settlement, hover, rfl⟩ := Option.map_eq_some_iff.mp h
        exact Or.inr (Or.inr (Or.inl ⟨settlement, by simpa using unsettled, hover, rfl⟩))
  | act place signal =>
      cases place with
      | nil =>
          simp only [move] at h
          split at h
          · cases h
          · rename_i unsettled
            have unsettled : run.settlement = none := by simpa using unsettled
            split at h
            · rename_i settlement hover
              exact Or.inr (Or.inr (Or.inl ⟨settlement, unsettled, hover, (Option.some.inj h).symm⟩))
            · rename_i hover
              exact Or.inr (Or.inr (Or.inr ⟨[], signal, rfl, fun _ => ⟨unsettled, hover⟩, h⟩))
      | cons index place =>
          exact Or.inr (Or.inr (Or.inr ⟨index :: place, signal, rfl, (by simp), h⟩))

/-- Nothing settles the run from outside before the activation at a place has its turn. -/
abbrev Free (setup : Setup) (run : Run) (place : Place) : Prop := place = [] → run.overruled? setup = none

/-- Where nothing settles the run from outside, a move of an activation is a turn of it. -/
theorem act_of_move {place : Place} {signal : Signal} (free : run.Free setup place)
    (hmove : run.move setup (.act place signal) = some after) : run.act setup place signal = some after := by
  cases place with
  | nil =>
      rcases move_cases hmove with ⟨_, e, -⟩ | ⟨e, -⟩ | ⟨_, -, hover, -⟩ | ⟨_, _, e, -, hact⟩
      · cases e
      · cases e
      · cases (free rfl).symm.trans hover
      · cases e
        exact hact
  | cons index place => exact hmove

/-- An outermost activation that has ended does nothing more, and holds nothing that could. -/
theorem actAt_of_ended (ended : run.outermost.ending?.isSome) (moment : Moment) (place : Place) (signal : Signal) :
    run.actAt setup moment place signal = none := by
  obtain ⟨clock, abortRequested, ⟨frame, phase⟩, log, settlement⟩ := run
  cases phase with
  | ended ending => cases place <;> cases signal <;> rfl
  | _ => simp [Activation.ending?, Activation.phase] at ended

/-! ## Plays -/

/-- **What every move keeps is kept by a whole run.** -/
theorem play_induct {P : Run → Prop}
    (moves : ∀ (next : Move) (run after : Run), P run → run.move setup next = some after → P after) :
    ∀ {played : List Move} {run after : Run}, P run → run.play setup played = some after → P after := by
  intro played
  induction played with
  | nil => intro run after hrun h; cases h; exact hrun
  | cons next rest ih =>
      intro run after hrun h
      obtain ⟨between, hnext, hrest⟩ := Option.bind_eq_some_iff.mp h
      exact ih (moves next run between hrun hnext) hrest

theorem play_append {later : List Move} : ∀ {moves : List Move} {run between after : Run},
    run.play setup moves = some between → between.play setup later = some after →
    run.play setup (moves ++ later) = some after := by
  intro moves
  induction moves with
  | nil => intro run between after h h'; cases h; exact h'
  | cons next rest ih =>
      intro run between after h h'
      obtain ⟨first, hfirst, hrest⟩ := Option.bind_eq_some_iff.mp h
      exact Option.bind_eq_some_iff.mpr ⟨first, hfirst, ih hrest h'⟩

theorem play_concat {moves : List Move} {next : Move} {between : Run} (played : run.play setup moves = some between)
    (hmove : between.move setup next = some after) : run.play setup (moves ++ [next]) = some after := by
  refine play_append played ?_
  rw [play, hmove]
  rfl

/-- **What holds at the start and is kept by every move of what has been reached holds of whatever is reached.** -/
theorem reached_induct {P : Run → Prop}
    (moves : ∀ (moves : List Move) (next : Move) (before after : Run), (start setup).play setup moves = some before →
      P before → before.move setup next = some after → P after)
    (first : P (start setup)) {played : List Move} (h : (start setup).play setup played = some run) : P run := by
  refine (play_induct (P := fun r => (∃ moves, (start setup).play setup moves = some r) ∧ P r) ?_ ⟨⟨[], rfl⟩, first⟩ h).2
  rintro next before after ⟨⟨played, reached⟩, held⟩ hmove
  exact ⟨⟨played ++ [next], play_concat reached hmove⟩, moves played next before after reached held hmove⟩

/-- **What the turns of activations keep holds everywhere in a run.** It has to hold of an activation that gives up, of
    the jobs that have just begun, and of an activation around the one that acts. -/
theorem everywhere_of_play {P : Activation → Prop} (first : P (start setup).outermost)
    (givenUp : ∀ activation, P activation → P activation.givenUp)
    (turns : ∀ (moment : Moment) (signal : Signal) (activation : Activation) (turn : Turn), activation.Everywhere P →
      activation.respond setup.host moment signal = some turn →
        P turn.activation ∧ ∀ index child, turn.activation.Begins index child → P child)
    (around : ∀ (moment : Moment) (signal : Signal) (activation after : Activation) (index : Nat) (place : Place)
      (entries : List Entry), P activation →
      activation.act setup.host moment signal (index :: place) = some (after, entries) → P after)
    {moves : List Move} (played : (start setup).play setup moves = some run) : run.outermost.Everywhere P := by
  refine play_induct (P := fun r => r.outermost.Everywhere P) ?_ ?_ played
  · intro next before after h hmove
    rcases move_cases hmove with ⟨_, -, rfl⟩ | ⟨-, rfl⟩ | ⟨_, -, -, rfl⟩ | ⟨_, _, -, -, hact⟩
    · exact h
    · exact h
    · exact Activation.everywhere_givenUp (givenUp _ h.self)
    · obtain ⟨outermost, entries, hinner, hafter⟩ := act_cases hact
      -- Whether or not the run is settled with the move, the activations are the same.
      have everywhere : outermost.Everywhere P :=
        h.act (turns _ _) (fun _ _ _ _ _ _ _ _ hchild hjob held =>
          around _ _ _ _ _ _ _ held (Activation.act_of_child hchild hjob)) hinner
      rcases hafter with ⟨_, -, rfl⟩ | ⟨-, rfl⟩
      · exact everywhere
      · exact everywhere
  · exact Activation.everywhere_of_children first fun _ _ hchild => nomatch hchild

/-! ## The log -/

/-- The event of an entry, if it is one. -/
def eventOf? (entry : Entry) : Option Event :=
  match entry.note with
  | .event event => some event
  | .call .. => none

theorem events_eq (run : Run) : run.events = run.log.reverse.filterMap eventOf? := by
  refine congrArg (List.filterMap · run.log.reverse) (funext fun ⟨_, note⟩ => ?_)
  cases note <;> rfl

/-- Every event among entries is what some entry notes. -/
theorem exists_entry_of_event {entries : List Entry} {event : Event} (h : event ∈ entries.filterMap eventOf?) :
    ∃ entry ∈ entries, entry.note = .event event := by
  obtain ⟨⟨id, note⟩, hentry, hnote⟩ := List.mem_filterMap.mp h
  refine ⟨⟨id, note⟩, hentry, ?_⟩
  cases note <;> cases hnote
  rfl

theorem events_noted (run : Run) (outermost : Activation) (entries : List Entry) :
    (run.noted outermost entries).events = run.events ++ entries.filterMap eventOf? := by
  simp [events_eq, noted]

theorem events_settle (run : Run) (settlement : Settlement) :
    (run.settle settlement).events = run.events ++ (settlement.event? run.clock).toList := by
  cases settlement <;> simp [events_eq, settle, eventOf?, Settlement.entries, Settlement.event?]

end Run

end Workflow.Execution
