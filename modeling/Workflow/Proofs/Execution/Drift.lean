import Workflow.Proofs.Execution.Process

/-!
# `Workflow.Proofs.Execution.Drift` — what is told in a process is told in some run

A job that is let go of could as well have stayed where it was: in a run that somebody asks to abort just then, and in
which nobody around the job ever has a turn any more, the job does exactly what it does when it is adrift.  So the log
of a process has no entry that no run has, and what holds of all that is told in runs holds of all that is told in
processes.

## Contents
- **Turns.** `respond_of_told` and `act_of_told`: whoever is told to give up has regard to the clock only.
- **Places.** `Activation.act_inside`: an activation acts inside others as it does by itself; `Run.move_inner`.
- **Harbours.** `Harboured`, that an activation is under way in a run that is to be aborted; `Harboured.act`.
- **Logs.** `Traced` and `Sound.traced_move`; `told_in_run`.
-/

namespace Workflow.Execution

variable {host : Host} {moment moment' : Moment}

/-! ## Turns -/

section Told

variable (told : moment.cancelled = true) (told' : moment'.cancelled = true) (clock : moment.clock = moment'.clock)

include clock in
theorem recover_of_clock (frame : Frame) (attempt : Attempt) (fault : Fault) :
    recover moment frame attempt fault = recover moment' frame attempt fault := by
  simp only [recover, Moment.after, clock]

include clock in
theorem fan_of_clock (frame : Frame) (attempt : Attempt) (fanOut : FanOut Activation) :
    fan moment frame attempt fanOut = fan moment' frame attempt fanOut := by
  simp only [fan, conclude, recover_of_clock clock]

include clock in
theorem join_of_clock (frame : Frame) (attempt : Attempt) (fanOut : FanOut Activation) (index : Nat) (ending : Ending) :
    join moment frame attempt fanOut index ending = join moment' frame attempt fanOut index ending := by
  cases ending with
  | output value => simp only [join, fan_of_clock clock]
  | fault fault => simp only [join, recover_of_clock clock]
  | cancelled => rfl

include told told' clock

/-- Whoever is told to give up has regard to the clock only. -/
theorem respond_of_told (signal : Signal) (activation : Activation) :
    activation.respond host moment signal = activation.respond host moment' signal := by
  obtain ⟨frame, phase⟩ := activation
  cases signal with
  | proceed => cases phase <;> simp [Activation.respond, proceed, told, told']
  | join index =>
      cases phase with
      | fanning attempt fanOut =>
          simp only [Activation.respond]
          exact congrArg (Option.map · _) (funext (join_of_clock clock frame attempt fanOut index))
      | _ => rfl

theorem act_of_told (signal : Signal) : ∀ (place : Place) (activation : Activation),
    activation.act host moment signal place = activation.act host moment' signal place := by
  intro place
  induction place with
  | nil =>
      intro activation
      simp only [Activation.act, respond_of_told told told' clock]
  | cons index place ih =>
      rintro ⟨frame, phase⟩
      cases phase with
      | fanning attempt fanOut => simp only [Activation.act, ih]
      | _ => rfl

end Told

/-! ## Places -/

/-- **An activation acts inside others as it does by itself.** -/
theorem Activation.act_inside {signal : Signal} {rest : Place} {job job' : Activation} {entries : List Entry}
    (hact : job.act host moment signal rest = some (job', entries)) : ∀ {place : Place} {activation : Activation},
    activation.at? place = some job → ∃ after, activation.act host moment signal (place ++ rest) = some (after, entries) ∧
      after.at? place = some job' := by
  intro place
  induction place with
  | nil => intro activation hjob; cases hjob; exact ⟨job', hact, rfl⟩
  | cons index place ih =>
      rintro ⟨frame, phase⟩ hjob
      obtain ⟨child, hchild, hinner⟩ := Option.bind_eq_some_iff.mp hjob
      cases phase with
      | fanning attempt fanOut =>
          obtain ⟨child', hact', hjob'⟩ := ih hinner
          refine ⟨_, act_of_child hchild hact', Option.bind_eq_some_iff.mpr ⟨child', ?_, hjob'⟩⟩
          show (fanOut.replace index child').child? index = some child'
          rw [FanOut.child?_replace, if_pos rfl, show fanOut.child? index = some child from hchild]
          rfl
      | _ => cases hchild

/-- Time does not go back. -/
theorem Run.clock_le_of_play {setup : Setup} {moves : List Run.Move} {run after : Run}
    (played : run.play setup moves = some after) : run.clock ≤ after.clock := by
  refine Run.play_induct (P := fun r => run.clock ≤ r.clock) ?_ (Nat.le_refl _) played
  intro next before following ahead hmove
  rcases Run.move_cases hmove with ⟨time, -, rfl⟩ | ⟨-, rfl⟩ | ⟨settlement, -, -, rfl⟩ | ⟨place, signal, -, -, hact⟩
  · exact ahead.trans (Nat.le_max_left _ _)
  · exact ahead
  · exact ahead
  · obtain ⟨_, _, -, ⟨_, -, rfl⟩ | ⟨-, rfl⟩⟩ := Run.act_cases hact <;> exact ahead

/-- Who acts at an inner place settles nothing. -/
theorem Run.move_inner {setup : Setup} {run : Run} {place : Place} {signal : Signal} {outermost : Activation}
    {entries : List Entry} (inner : place ≠ [])
    (hact : run.outermost.act setup.host run.moment signal place = some (outermost, entries)) :
    run.move setup (.act place signal) = some (run.noted outermost entries) := by
  obtain ⟨index, rest, rfl⟩ := List.exists_cons_of_ne_nil inner
  have hrun : run.act setup (index :: rest) signal = _ := Run.act_eq hact
  obtain ⟨frame, attempt, fanOut, child, child', -, -, -, rfl⟩ := Activation.act_cons hact
  exact hrun

namespace Process

variable {setup : Setup} {process after : Process}

/-! ## Harbours -/

/-- Somewhere an activation is under way just so in a run that is to be aborted, and that is not ahead of a process. -/
def Harboured (setup : Setup) (process : Process) (activation : Activation) : Prop :=
  ∃ moves run place, (Run.start setup).play setup moves = some run ∧ run.abortRequested = true ∧
    run.clock ≤ process.run.clock ∧ run.outermost.at? place = some activation

theorem Harboured.mono {activation : Activation} (h : process.Harboured setup activation)
    (later : process.run.clock ≤ after.run.clock) : after.Harboured setup activation := by
  obtain ⟨moves, run, place, played, requested, behind, underWay⟩ := h
  exact ⟨moves, run, place, played, requested, behind.trans later, underWay⟩

/-- Whoever is inside is harboured as well. -/
theorem Harboured.inner {activation inner : Activation} {rest : Place} (h : process.Harboured setup activation)
    (inside : activation.at? rest = some inner) : process.Harboured setup inner := by
  obtain ⟨moves, run, place, played, requested, behind, underWay⟩ := h
  exact ⟨moves, run, place ++ rest, played, requested, behind, (Activation.at?_append underWay).trans inside⟩

/-- What is under way in the run of a process could be aborted there. -/
theorem Sound.harboured (h : process.Sound setup) {place : Place} {activation : Activation}
    (underWay : process.run.outermost.at? place = some activation) : process.Harboured setup activation := by
  obtain ⟨moves, played⟩ := h.played
  exact ⟨moves ++ [.abort], { process.run with abortRequested := true }, place,
    Run.play_append played (by simp [Run.play, Run.move]), rfl, Nat.le_refl _, underWay⟩

/-- Some run tells an entry. -/
def Told (setup : Setup) (entry : Entry) : Prop :=
  ∃ moves run, (Run.start setup).play setup moves = some run ∧ entry ∈ run.log

/-- **Who acts inside an activation that is harboured does so in a run.** -/
theorem Harboured.act {job job' : Activation} {moment : Moment} {signal : Signal} {index : Nat} {rest : Place}
    {entries : List Entry} (h : process.Harboured setup job) (told : moment.cancelled = true)
    (now : moment.clock = process.run.clock)
    (hact : job.act setup.host moment signal (index :: rest) = some (job', entries)) :
    process.Harboured setup job' ∧ ∀ entry ∈ entries, Told setup entry := by
  obtain ⟨moves, run, place, played, requested, behind, underWay⟩ := h
  -- The run waits until the present moment, and lets the same activation act.
  let waited : Run := { run with clock := max run.clock process.run.clock }
  have present : waited.moment.clock = moment.clock := (Nat.max_eq_right behind).trans now.symm
  have still : waited.outermost.at? place = some job := underWay
  have hact : job.act setup.host waited.moment signal (index :: rest) = some (job', entries) :=
    (act_of_told told requested present.symm signal _ job).symm.trans hact
  obtain ⟨outermost, houter, hjob⟩ := Activation.act_inside hact still
  have hwait : run.move setup (.wait process.run.clock) = some waited := rfl
  have hrun : waited.move setup (.act (place ++ index :: rest) signal) = some (waited.noted outermost entries) :=
    Run.move_inner (by simp) houter
  have reached := Run.play_concat (Run.play_concat played hwait) hrun
  refine ⟨⟨_, _, place, reached, requested, ?_, hjob⟩, fun entry hentry => ⟨_, _, reached, ?_⟩⟩
  · exact (present.trans now).le
  · exact List.mem_append_left _ (List.mem_reverse.mpr hentry)

/-! ## Logs -/

/-- What is adrift is harboured, and what has been told is told by runs. -/
structure Traced (setup : Setup) (process : Process) : Prop where
  harboured : ∀ job ∈ process.adrift, process.Harboured setup job
  told : ∀ entry ∈ process.log, Told setup entry

/-- To let go of an activation that is harboured leaves its jobs harboured. -/
theorem Traced.letGo {activation : Activation} {taken : Option Nat} (h : process.Traced setup) (named : activation.Named)
    (holds : process.Harboured setup activation) : (process.letGo activation taken).Traced setup := by
  refine ⟨fun job hjob => ?_, h.told⟩
  rcases mem_adrift_letGo.mp hjob with before | ⟨index, underWay, -⟩
  · exact h.harboured job before
  · obtain ⟨hchild, -⟩ := named.running underWay
    have inside : activation.at? [index] = some job := by simp [Activation.at?, hchild]
    exact holds.inner inside

theorem Traced.afterTurn {activation : Activation} {signal : Signal} {now : Option Activation} (h : process.Traced setup)
    (named : activation.Named) (holds : process.Harboured setup activation) :
    (process.afterTurn signal activation now).Traced setup := by
  unfold Process.afterTurn
  split
  · exact h
  · exact h.letGo named holds

/-- What a run notes down itself is told by that run. -/
theorem Leads.told (leads : process.Leads setup after) (sound : after.Sound setup)
    (h : ∀ entry ∈ process.log, Told setup entry) : ∀ entry ∈ after.log, Told setup entry := by
  obtain ⟨own, hown, hrun⟩ := leads.log
  obtain ⟨moves, played⟩ := sound.played
  intro entry hentry
  rw [hown] at hentry
  rcases List.mem_append.mp hentry with new | old
  · exact ⟨moves, after.run, played, hrun ▸ List.mem_append_left _ new⟩
  · exact h entry old

theorem Leads.clock_le (leads : process.Leads setup after) : process.run.clock ≤ after.run.clock := by
  obtain ⟨moves, played⟩ := leads.moves
  exact Run.clock_le_of_play played

theorem Sound.traced_move {next : Move} (h : process.Sound setup) (traced : process.Traced setup)
    (hmove : process.move setup next = some after) : after.Traced setup := by
  rcases move_cases hmove with ⟨move, run, -, -, hrun, outermost, settlement, hlog, rfl⟩ |
    ⟨_, settlement, -, -, going, hover, rfl⟩ | ⟨place, signal, -, free, hact⟩ |
    ⟨doomed, index, place, signal, -, hdrift⟩ | ⟨doomed, -, hdrop⟩
  · obtain ⟨leads, sound⟩ := h.follow hrun outermost settlement hlog
    exact ⟨fun job hjob => (traced.harboured job hjob).mono leads.clock_le, leads.told sound traced.told⟩
  · obtain ⟨leads, sound⟩ := h.overrule going hover
    have outer : process.run.outermost.at? [] = some process.run.outermost := rfl
    have holds := h.harboured outer
    have before : (process.follow (process.run.overrule settlement)).Traced setup :=
      ⟨fun job hjob => (traced.harboured job hjob).mono leads.clock_le, leads.told sound traced.told⟩
    exact before.letGo h.named.names (holds.mono leads.clock_le)
  · obtain ⟨leads, sound⟩ := h.act free hact
    obtain ⟨actor, run, hactor, -, -, rfl⟩ := h.act_cases free hact
    have clock := leads.clock_le
    have told := leads.told sound traced.told
    rw [run_afterTurn] at clock
    rw [log_afterTurn] at told
    have before : (process.follow { run with
        abortRequested := run.abortRequested || actor.asksAbort process.run.moment }).Traced setup :=
      ⟨fun job hjob => (traced.harboured job hjob).mono clock, told⟩
    exact before.afterTurn (h.named.names.inner hactor) ((h.harboured hactor).mono clock)
  · obtain ⟨job, actor, job', entries, hjob, hactor, told, hact, rfl⟩ := h.drift_cases hdrift
    have holds := traced.harboured job hjob
    obtain ⟨holds', tells⟩ := holds.act told rfl hact
    have before : ({ process with
        adrift := process.adrift.map fun other => if other.frame.id == doomed then job' else other
        log := entries.reverse ++ process.log } : Process).Traced setup := by
      refine ⟨fun other hother => ?_, fun entry hentry => ?_⟩
      · obtain ⟨was, hwas, rfl⟩ := List.mem_map.mp hother
        split
        · exact holds'
        · exact traced.harboured was hwas
      · exact (List.mem_append.mp hentry).elim (fun new => tells entry (List.mem_reverse.mp new)) (traced.told entry)
    exact before.afterTurn ((h.adrift job hjob).named.inner hactor) (holds.inner hactor)
  · obtain ⟨job, hjob, rfl⟩ := drop_cases hdrop
    have before : ({ process with adrift := process.adrift.filter (·.frame.id != doomed) } : Process).Traced setup :=
      ⟨fun other hother => traced.harboured other (List.mem_filter.mp hother).1, traced.told⟩
    exact before.letGo (h.adrift job hjob).named (traced.harboured job hjob)

/-- **What is told in a process is told in some run.** -/
theorem told_in_run {moves : List Move} (played : (start setup).play setup moves = some process) {entry : Entry}
    (told : entry ∈ process.log) :
    ∃ moves run, (Run.start setup).play setup moves = some run ∧ entry ∈ run.log := by
  have first : (start setup).Traced setup := ⟨(fun _ h => nomatch h), fun entry hentry => ⟨[], _, rfl, hentry⟩⟩
  have traced := (play_induct (P := fun p => p.Sound setup ∧ p.Traced setup)
    (fun _ _ _ kept hmove => ⟨(kept.1.move hmove).2, kept.1.traced_move kept.2 hmove⟩) ⟨sound_start setup, first⟩ played).2
  exact traced.told entry told

end Process

end Workflow.Execution
