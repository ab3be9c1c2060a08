import Mathlib.Data.List.Induction
import Workflow.Proofs.Execution.Recovery
import Workflow.Proofs.Execution.Trail

/-!
# `Workflow.Proofs.Execution.Escalation` — a failure that nobody takes comes out as it went in

A job that fails makes the attempt around it fail.  If neither a retrier nor a catcher takes that fault either, the next
attempt outside fails, and so on until the run does.  On its way a fault keeps its name and its cause, and whatever name
stood for it still does; it only learns, once, that it also stands for a failed branch.

## Contents
- **Faults.** `matches_wrap` and `wrap_wrap`, and `Fault.SurfacesAs`, how a failure looks from outside.
- **Turns.** `recover_of_untaken`, and `failsWith_of_failed`: what an attempt does about a job that has failed.
- **Places.** `at?_concat` and `act_of_respond`: who is inside whom, and who can act.
- **Runs.** `Ascent`, the way of a failure through whatever moves are made, with `Ascent.ended_at`.
- **The way out.** `Unhindered` and `Ascent.leaves`, and `failures_surface`.
-/

namespace Workflow

/-! ## Faults -/

namespace Fault

theorem name_wrap (fault : Fault) (name : String) : (fault.wrap name).name = fault.name := by
  unfold wrap
  split <;> rfl

theorem cause_wrap (fault : Fault) (name : String) : (fault.wrap name).cause = fault.cause := by
  unfold wrap
  split <;> rfl

/-- A broader name makes no trap of a failure, and no failure of a trap. -/
theorem trap?_wrap (fault : Fault) (name : String) : (fault.wrap name).trap? = fault.trap? := by
  rw [trap?, cause_wrap]
  rfl

theorem wrapped_wrap (fault : Fault) (name : String) : (fault.wrap name).wrapped =
    fault.wrapped ++ if name = fault.name ∨ name ∈ fault.wrapped then [] else [name] := by
  unfold wrap
  split
  · rw [List.append_nil]
  · rfl

/-- A broader name is added once. -/
theorem wrap_wrap (fault : Fault) (name : String) : (fault.wrap name).wrap name = fault.wrap name := by
  have answers : name = (fault.wrap name).name ∨ name ∈ (fault.wrap name).wrapped := by
    rw [name_wrap, wrapped_wrap]
    by_cases known : name = fault.name ∨ name ∈ fault.wrapped
    · rw [if_pos known, List.append_nil]
      exact known
    · rw [if_neg known]
      exact Or.inr (List.mem_append_right _ (List.mem_singleton_self name))
  rw [wrap, if_pos answers]

/-- A fault with a broader name answers to that one, and to what it answered to before. -/
theorem matches_wrap {broader : String} (single : broader ≠ Name.all) {fault : Fault} (named : fault.trap? = none)
    (name : String) : (fault.wrap broader).matches name = true ↔ fault.matches name = true ∨ name = broader := by
  unfold «matches»
  rw [trap?_wrap, named, name_wrap, wrapped_wrap]
  simp only [Option.isSome_none, Bool.false_eq_true, if_false]
  by_cases all : name = Name.all
  · subst all
    simp only [if_pos, single.symm, or_false]
  · simp only [if_neg all, decide_eq_true_eq, List.mem_append]
    by_cases known : broader = fault.name ∨ broader ∈ fault.wrapped
    · simp only [if_pos known, List.not_mem_nil, or_false]
      constructor
      · exact Or.inl
      · rintro (answers | rfl)
        · exact answers
        · exact known.imp_left Eq.symm
    · simp only [if_neg known, List.mem_singleton, or_assoc]

/-- **How a failure looks from outside the fan-outs around it:** it has the same name and the same cause, and tells a
    catcher the same.  To its broader names one is added, unless it is there or is the name itself.  So it answers to
    every name to which it answered inside, also to that of a failed branch, and to the name for all only if it did so
    inside. -/
structure SurfacesAs (inner outer : Fault) : Prop where
  name : outer.name = inner.name
  cause : outer.cause = inner.cause
  payload : outer.toJson = inner.toJson
  wrapped : outer.wrapped = inner.wrapped ++
    if Name.branchFailed = inner.name ∨ Name.branchFailed ∈ inner.wrapped then [] else [Name.branchFailed]
  kept : ∀ name, inner.matches name = true → outer.matches name = true
  branch : outer.matches Name.branchFailed = true
  all : outer.matches Name.all = true ↔ inner.matches Name.all = true

theorem surfacesAs_wrap {fault : Fault} (named : fault.trap? = none) : fault.SurfacesAs (fault.wrap Name.branchFailed) where
  name := fault.name_wrap _
  cause := fault.cause_wrap _
  payload := by rw [toJson, name_wrap, cause_wrap]; rfl
  wrapped := fault.wrapped_wrap _
  kept name answers := (matches_wrap (by decide) named name).mpr (Or.inl answers)
  branch := (matches_wrap (by decide) named _).mpr (Or.inr rfl)
  all := by
    rw [matches_wrap (by decide) named]
    exact or_iff_left (by decide)

end Fault

namespace Execution

/-! ## Turns -/

variable {host : Host} {moment : Moment} {frame : Frame} {attempt : Attempt}

/-- Neither a retrier nor a catcher of the state takes a fault of an attempt. -/
abbrev Attempt.Leaves (attempt : Attempt) (fault : Fault) : Prop :=
  Retry.Untaken attempt.state.recovery attempt.counters fault

/-- A fault that nobody takes ends the graph. -/
theorem recover_of_untaken {fault : Fault} (untaken : attempt.Leaves fault) :
    recover moment frame attempt fault = stop frame (.fault fault) := by
  obtain ⟨counters, decided⟩ := Retry.resolve_of_untaken untaken frame.raw
    (frame.draw attempt.counters.retries .jitter)
  rcases recover_cases moment frame attempt fault with ⟨_, _, _, e, -⟩ | ⟨_, _, _, e, -⟩ | ⟨last, _, e, h⟩
  · cases decided.symm.trans e
  · cases decided.symm.trans e
  · cases decided.symm.trans e
    exact h

/-- The attempt of an activation fails with a fault as soon as it takes in the job at an index. -/
def Activation.FailsWith (activation : Activation) (index : Nat) (fault : Fault) : Prop :=
  ∃ frame attempt fanOut, activation = .node frame (.fanning attempt fanOut) ∧ ∀ host moment, ∃ told,
    activation.respond host moment (.join index) = some ((recover moment frame attempt fault).after told)

/-- The fault of a job is that of the attempt, to which the name of a failed branch is added. -/
theorem failsWith_of_failed {activation job : Activation} {index : Nat} {fault : Fault}
    (hjob : activation.child? index = some job) (failed : job.ending? = some (.fault fault))
    (named : fault.trap? = none) : activation.FailsWith index (fault.wrap Fault.Name.branchFailed) := by
  obtain ⟨frame, phase⟩ := activation
  cases phase with
  | fanning attempt fanOut =>
      refine ⟨frame, attempt, fanOut, rfl, fun host moment =>
        ⟨jobNotes attempt.state frame.state index fault, ?_⟩⟩
      have hchild : fanOut.child? index = some job := hjob
      simp [Activation.respond, hchild, failed, join, jobFault_of_named _ named]
  | _ => cases hjob

/-! ## Places -/

namespace Activation

variable {signal : Signal}

/-- Who is inside an activation at a place is a job of the one around. -/
theorem at?_concat {place : Place} {index : Nat} {activation job : Activation}
    (h : activation.at? (place ++ [index]) = some job) :
    ∃ around, activation.at? place = some around ∧ around.child? index = some job := by
  induction place generalizing activation with
  | nil =>
      obtain ⟨child, hchild, e⟩ := Option.bind_eq_some_iff.mp h
      cases e
      exact ⟨activation, rfl, hchild⟩
  | cons first place ih =>
      obtain ⟨child, hchild, hinner⟩ := Option.bind_eq_some_iff.mp h
      obtain ⟨around, haround, hjob⟩ := ih hinner
      exact ⟨around, Option.bind_eq_some_iff.mpr ⟨child, hchild, haround⟩, hjob⟩

/-- Whoever is under way and has a turn can act, wherever it is. -/
theorem act_of_respond {actor : Activation} {turn : Turn} : ∀ {place : Place} {activation : Activation},
    activation.at? place = some actor → actor.respond host moment signal = some turn →
      ∃ after entries, activation.act host moment signal place = some (after, entries) := by
  intro place
  induction place with
  | nil =>
      intro activation hactor hturn
      cases hactor
      exact ⟨turn.activation, turn.notes.map (⟨actor.frame.id, ·⟩), by rw [act, hturn]; rfl⟩
  | cons index place ih =>
      intro activation hactor hturn
      obtain ⟨child, hchild, hinner⟩ := Option.bind_eq_some_iff.mp hactor
      obtain ⟨child', entries, hact⟩ := ih hinner hturn
      obtain ⟨frame, phase⟩ := activation
      cases phase with
      | fanning attempt fanOut => exact ⟨_, entries, act_of_child hchild hact⟩
      | _ => cases hchild

end Activation

/-! ## Runs -/

namespace Run

variable {setup : Setup} {run after : Run} {place outer : Place} {fault : Fault} {signal : Signal}

/-- Whoever has its turn comes to what the turn makes of it. -/
theorem turn_of_move {activation : Activation} {turn : Turn} (free : run.Free setup place)
    (underWay : run.outermost.at? place = some activation)
    (hturn : activation.respond setup.host run.moment signal = some turn)
    (hmove : run.move setup (.act place signal) = some after) :
    after.outermost.at? place = some turn.activation := by
  obtain ⟨outermost, entries, hinner, hafter⟩ := act_cases (act_of_move free hmove)
  obtain ⟨actor, turn', hactor, hturn', hat, -⟩ := Activation.actor_of_act hinner
  cases underWay.symm.trans hactor
  cases hturn.symm.trans hturn'
  rcases hafter with ⟨_, -, rfl⟩ | ⟨-, rfl⟩
  · exact hat
  · exact hat

/-- A run whose outermost activation has ended with a fault has failed with it. -/
theorem failed_of_ended {moves : List Move} (played : (start setup).play setup moves = some run)
    (ended : run.outermost.ending? = some (.fault fault)) (named : fault.trap? = none) :
    run.settlement = some (.failed fault) := by
  have going : (start setup).outermost.ending? = none := rfl
  have kept : run.outermost.ending? = some (.fault fault) → run.settlement = some (.failed fault) := by
    refine play_induct (P := fun r => r.outermost.ending? = some (.fault fault) →
      r.settlement = some (.failed fault)) ?_ (fun ended => nomatch going.symm.trans ended) played
    intro next before following kept hmove ended
    rcases move_cases hmove with ⟨_, -, rfl⟩ | ⟨-, rfl⟩ | ⟨_, -, -, rfl⟩ | ⟨place, signal, -, -, hact⟩
    · exact kept ended
    · exact kept ended
    · cases (Activation.ending?_givenUp before.outermost).symm.trans ended
    · obtain ⟨outermost, entries, -, ⟨ending, hending, rfl⟩ | ⟨hending, rfl⟩⟩ := act_cases hact
      · cases hending.symm.trans ended
        rcases Settlement.ofEnding_fault_cases fault with ⟨-, e⟩ | ⟨_, broke, -⟩
        · exact congrArg some e
        · cases named.symm.trans broke
      · cases hending.symm.trans ended
  exact kept ended

/-- **The way of a failure** through the moves of a run.  It begins where an activation has ended with a fault, or where
    an attempt fails with it and nobody takes it.  Other activations may act, and time may pass.  When the job that has
    failed is taken in and nobody takes the fault of the attempt around it, the failure has come one place further out. -/
inductive Ascent (setup : Setup) (place : Place) (fault : Fault) : Run → Place → Prop
  | ended {moves : List Move} {run : Run} {activation : Activation}
      (played : (start setup).play setup moves = some run)
      (underWay : run.outermost.at? place = some activation)
      (failed : activation.ending? = some (.fault fault)) : Ascent setup place fault run place
  | failed {moves : List Move} {run after : Run} {activation : Activation} {signal : Signal} {frame : Frame}
      {attempt : Attempt} {told : List Note} (played : (start setup).play setup moves = some run)
      (underWay : run.outermost.at? place = some activation)
      (fails : activation.respond setup.host run.moment signal =
        some ((recover run.moment frame attempt fault).after told))
      (untaken : attempt.Leaves fault) (free : run.Free setup place)
      (hmove : run.move setup (.act place signal) = some after) : Ascent setup place fault after place
  | elsewhere {run after : Run} {outer : Place} {next : Move} (before : Ascent setup place fault run outer)
      (hmove : run.move setup next = some after)
      (still : after.outermost.at? outer = run.outermost.at? outer) : Ascent setup place fault after outer
  | taken {run after : Run} {outer : Place} {index : Nat} {frame : Frame} {attempt : Attempt}
      {fanOut : FanOut Activation} {job : Activation} {last : Fault}
      (before : Ascent setup place fault run (outer ++ [index]))
      (around : run.outermost.at? outer = some (.node frame (.fanning attempt fanOut)))
      (hjob : fanOut.child? index = some job) (failed : job.ending? = some (.fault last))
      (untaken : attempt.Leaves (last.wrap Fault.Name.branchFailed)) (free : run.Free setup outer)
      (hmove : run.move setup (.act outer (.join index)) = some after) : Ascent setup place fault after outer

namespace Ascent

theorem played (h : Ascent setup place fault run outer) : ∃ moves, (start setup).play setup moves = some run := by
  have further : ∀ {moves : List Move} {next : Move} {before after : Run}, (start setup).play setup moves = some before →
      before.move setup next = some after → (start setup).play setup (moves ++ [next]) = some after :=
    fun played hmove => play_append played (by rw [play, hmove]; rfl)
  induction h with
  | ended played => exact ⟨_, played⟩
  | failed played _ _ _ _ hmove => exact ⟨_, further played hmove⟩
  | elsewhere _ hmove _ ih =>
      obtain ⟨moves, played⟩ := ih
      exact ⟨_, further played hmove⟩
  | taken _ _ _ _ _ _ hmove ih =>
      obtain ⟨moves, played⟩ := ih
      exact ⟨_, further played hmove⟩

/-- The fault with which an activation ends because something inside it, at a place, has failed. -/
def surfaced (inner : Place) (fault : Fault) : Fault :=
  if inner = [] then fault else fault.wrap Fault.Name.branchFailed

theorem wrap_surfaced (inner : Place) (fault : Fault) :
    (surfaced inner fault).wrap Fault.Name.branchFailed = fault.wrap Fault.Name.branchFailed := by
  unfold surfaced
  split
  · rfl
  · exact fault.wrap_wrap _

theorem trap?_surfaced (inner : Place) (fault : Fault) : (surfaced inner fault).trap? = fault.trap? := by
  unfold surfaced
  split
  · rfl
  · exact fault.trap?_wrap _

/-- **Wherever the failure has come to, the activation there has ended with it.** -/
theorem ended_at (h : Ascent setup place fault run outer) (named : fault.trap? = none) : ∃ inner activation, place = outer ++ inner ∧
    run.outermost.at? outer = some activation ∧ activation.ending? = some (.fault (surfaced inner fault)) := by
  induction h with
  | ended _ underWay failed => exact ⟨[], _, (List.append_nil _).symm, underWay, failed⟩
  | failed _ underWay fails untaken free hmove =>
      have hafter := turn_of_move free underWay fails hmove
      rw [recover_of_untaken untaken] at hafter
      exact ⟨[], _, (List.append_nil _).symm, hafter, rfl⟩
  | elsewhere _ _ still ih =>
      obtain ⟨inner, activation, hplace, hat, ended⟩ := ih
      exact ⟨inner, activation, hplace, still.trans hat, ended⟩
  | @taken run after outer index frame attempt fanOut job last _ around hjob failed untaken free hmove ih =>
      obtain ⟨inner, job', hplace, hat, ended⟩ := ih
      -- The job that is taken in is the one in which the failure has come to its end.
      obtain ⟨holder, hholder, hchild⟩ := Activation.at?_concat hat
      cases around.symm.trans hholder
      cases hjob.symm.trans hchild
      cases failed.symm.trans ended
      have hturn : (Activation.node frame (.fanning attempt fanOut)).respond setup.host run.moment (.join index) =
          some (join run.moment frame attempt fanOut index (.fault (surfaced inner fault))) := by
        simp [Activation.respond, hjob, failed]
      have hafter := turn_of_move free around hturn hmove
      have stops : (join run.moment frame attempt fanOut index (.fault (surfaced inner fault))).activation =
          .node frame (.ended (.fault (fault.wrap Fault.Name.branchFailed))) := by
        rw [join, Turn.activation_after, jobFault_of_named _ ((trap?_surfaced inner fault).trans named),
          recover_of_untaken untaken, wrap_surfaced]
        rfl
      refine ⟨index :: inner, _, hplace.trans (List.append_assoc ..), hafter.trans (congrArg some stops), ?_⟩
      rfl

end Ascent

/-! ## The way out -/

/-- The moves that take in a job at a place and then, from inside out, those around it. -/
def joins : Place → List Move
  | [] => []
  | index :: place => (joins place).map (inside index) ++ [.act [] (.join index)]
where
  /-- A move of an activation that is inside a job. -/
  inside (index : Nat) : Move → Move
    | .act place signal => .act (index :: place) signal
    | other => other

theorem joins_concat (outer : Place) (index : Nat) :
    joins (outer ++ [index]) = .act outer (.join index) :: joins outer := by
  induction outer with
  | nil => rfl
  | cons first outer ih =>
      show (joins (outer ++ [index])).map (joins.inside first) ++ [.act [] (.join first)] = _
      rw [ih]
      rfl

/-- The rules of the attempts around a place leave a fault to those further out. -/
def Unhindered (run : Run) (outer : Place) (fault : Fault) : Prop :=
  ∀ depth < outer.length, ∀ attempt ∈ (run.outermost.at? (outer.take depth)).bind Activation.attempt?,
    attempt.Leaves fault

instance (run : Run) (outer : Place) (fault : Fault) : Decidable (run.Unhindered outer fault) :=
  inferInstanceAs (Decidable (∀ depth < outer.length, ∀ attempt ∈ _, _))

/-- Whether a run is to be settled from outside does not depend on who has its turn. -/
theorem overruled?_of_act (hact : run.act setup place signal = some after) :
    after.overruled? setup = run.overruled? setup := by
  obtain ⟨_, _, -, ⟨_, -, rfl⟩ | ⟨-, rfl⟩⟩ := act_cases hact
  · rfl
  · rfl

/-- What happens at a place changes nothing about the rules around it. -/
theorem Unhindered.act {index : Nat} (h : run.Unhindered (outer ++ [index]) fault)
    (hact : run.act setup outer signal = some after) : after.Unhindered outer fault := by
  intro depth below attempt hattempt
  have inside : outer.drop depth ≠ [] := by simp [below]
  obtain ⟨outermost, entries, hinner, hafter⟩ := act_cases hact
  rw [← List.take_append_drop depth outer] at hinner
  obtain ⟨frame, around, _, _, hbefore, hnow, -⟩ := Activation.around_of_act inside hinner
  have same : after.outermost = outermost := by
    rcases hafter with ⟨_, -, rfl⟩ | ⟨-, rfl⟩ <;> rfl
  rw [same, hnow] at hattempt
  cases hattempt
  refine h depth (by rw [List.length_append]; omega) attempt ?_
  rw [List.take_append_of_le_length (Nat.le_of_lt below), hbefore]
  rfl

/-- Whoever has a turn can have it in a move. -/
theorem move_of_respond {activation : Activation} {turn : Turn}
    (free : place = [] → run.settlement = none ∧ run.overruled? setup = none)
    (underWay : run.outermost.at? place = some activation)
    (hturn : activation.respond setup.host run.moment signal = some turn) :
    ∃ next, run.act setup place signal = some next ∧ run.move setup (.act place signal) = some next := by
  obtain ⟨outermost, entries, hinner⟩ := Activation.act_of_respond underWay hturn
  obtain ⟨next, hact⟩ : ∃ next, run.act setup place signal = some next := ⟨_, act_eq hinner⟩
  cases place with
  | nil =>
      obtain ⟨unsettled, going⟩ := free rfl
      exact ⟨next, hact, (move_outermost unsettled going).trans hact⟩
  | cons index place => exact ⟨next, hact, hact⟩

/-- **A failure that nobody takes gets out,** job by job. -/
theorem Ascent.leaves {outer : Place} {run : Run} (ascent : Ascent setup place fault run outer)
    (named : fault.trap? = none) (going : run.overruled? setup = none) (unhindered : run.Unhindered outer (fault.wrap Fault.Name.branchFailed)) :
    ∃ last, run.play setup (joins outer) = some last ∧ Ascent setup place fault last [] := by
  induction outer using List.reverseRecOn generalizing run with
  | nil => exact ⟨run, rfl, ascent⟩
  | append_singleton outer index ih =>
      obtain ⟨moves, played⟩ := ascent.played
      obtain ⟨inner, job, -, hat, ended⟩ := ascent.ended_at named
      obtain ⟨holder, hholder, hjob⟩ := Activation.at?_concat hat
      obtain ⟨frame, attempt, fanOut, rfl, fails⟩ :=
        failsWith_of_failed hjob ended ((Ascent.trap?_surfaced inner fault).trans named)
      obtain ⟨told, hturn⟩ := fails setup.host run.moment
      -- As long as the outermost activation has jobs under way, the run goes on.
      have unsettled : outer = [] → run.settlement = none := by
        rintro rfl
        have holds : run.outermost = .node frame (.fanning attempt fanOut) := Option.some.inj hholder
        cases hs : run.settlement with
        | none => rfl
        | some settlement =>
            have done := (orderly_of_play played).ended (hs ▸ rfl)
            rw [holds] at done
            cases done
      obtain ⟨next, hact, hmove⟩ := move_of_respond (fun e => ⟨unsettled e, going⟩) hholder hturn
      have untaken : attempt.Leaves ((Ascent.surfaced inner fault).wrap Fault.Name.branchFailed) := by
        rw [Ascent.wrap_surfaced]
        refine unhindered outer.length (by simp) attempt ?_
        rw [List.take_left, hholder]
        rfl
      have risen : Ascent setup place fault next outer :=
        .taken ascent hholder hjob ended untaken (fun _ => going) hmove
      obtain ⟨last, hlast, out⟩ := ih risen ((overruled?_of_act hact).trans going) (unhindered.act hact)
      refine ⟨last, ?_, out⟩
      rw [joins_concat, play, hmove]
      exact hlast

/-- **A failure that nobody takes comes out as it went in.** Let a failure, and no trap, be on its way through the moves
    of a run: it came up at some place, at any depth, and nobody has taken it so far.  The activation to which it has come has ended
    with it; it is the fault that came up, or, once it has left a fan-out, shows what came up as a fault that surfaces.
    If it has come out of the outermost activation, the run has failed with it.  If a job has failed with it, the attempt
    around that job fails with a fault that surfaces, whoever takes that one or not.  And if nothing settles the run from
    outside and nobody further out takes the fault either, it gets out, and the run fails with it. -/
theorem failures_surface (setup : Setup) (place outer : Place) (fault : Fault) (run : Run)
    (ascent : Ascent setup place fault run outer) (named : fault.trap? = none) :
    (∃ activation last, run.outermost.at? outer = some activation ∧ activation.ending? = some (.fault last) ∧
      (outer = place → last = fault) ∧ (outer ≠ place → fault.SurfacesAs last) ∧
      (outer = [] → run.settlement = some (.failed last))) ∧
    (∀ around index, outer = around ++ [index] → ∃ activation last, run.outermost.at? around = some activation ∧
      activation.FailsWith index last ∧ fault.SurfacesAs last) ∧
    (run.overruled? setup = none → run.Unhindered outer (fault.wrap Fault.Name.branchFailed) →
      ∃ after last, run.play setup (joins outer) = some after ∧ after.settlement = some (.failed last) ∧
        (place = [] → last = fault) ∧ (place ≠ [] → fault.SurfacesAs last)) := by
  -- What comes out of any place on the way, also of the outermost one.
  have comes : ∀ {outer : Place} {run : Run}, Ascent setup place fault run outer →
      ∃ activation last, run.outermost.at? outer = some activation ∧ activation.ending? = some (.fault last) ∧
        (outer = place → last = fault) ∧ (outer ≠ place → fault.SurfacesAs last) ∧
        (outer = [] → run.settlement = some (.failed last)) := by
    intro outer run ascent
    obtain ⟨moves, played⟩ := ascent.played
    obtain ⟨inner, activation, hplace, hat, ended⟩ := ascent.ended_at named
    have told : (Ascent.surfaced inner fault).trap? = none := (Ascent.trap?_surfaced inner fault).trans named
    refine ⟨activation, _, hat, ended, fun same => ?_, fun apart => ?_, fun outermost => ?_⟩
    · have none_left : inner = [] := by simpa [same] using hplace
      rw [none_left, Ascent.surfaced, if_pos rfl]
    · have left : inner ≠ [] := fun e => apart (by rw [hplace, e, List.append_nil])
      rw [Ascent.surfaced, if_neg left]
      exact Fault.surfacesAs_wrap named
    · subst outermost
      cases hat
      exact failed_of_ended played ended told
  refine ⟨comes ascent, fun around index e => ?_, fun going unhindered => ?_⟩
  · subst e
    obtain ⟨inner, job, -, hat, ended⟩ := ascent.ended_at named
    obtain ⟨holder, hholder, hjob⟩ := Activation.at?_concat hat
    have fails := failsWith_of_failed hjob ended ((Ascent.trap?_surfaced inner fault).trans named)
    rw [Ascent.wrap_surfaced] at fails
    exact ⟨holder, _, hholder, fails, Fault.surfacesAs_wrap named⟩
  · obtain ⟨after, hafter, out⟩ := ascent.leaves named going unhindered
    obtain ⟨_, last, -, -, same, surfaces, failed⟩ := comes out
    exact ⟨after, last, hafter, failed rfl, fun e => same e.symm, fun e => surfaces (Ne.symm e)⟩

/-- Rules that allow no retry, and catch something else. -/
def strictRules : Recovery := ⟨[⟨[Fault.Name.all], 1, 0, 1, none, .full⟩], [⟨["Other"], "Nested", .whole⟩]⟩

/-- A run in which an iteration fails that is inside a branch. -/
def deep : Setup where
  definition :=
    let broken : Fail := ⟨none, some "Broken", none, some "down", none⟩
    let each : MapState := ⟨none, none, none, none, .whole, .whole, .whole, none, strictRules, ⟨none, true⟩⟩
    let around : Parallel := ⟨none, .whole, .whole, .whole, none, none, strictRules, ⟨none, true⟩⟩
    let iteration : Graph := ⟨none, "Break", [("Break", .fail broken)]⟩
    let branch : Graph := ⟨none, "Each", [("Each", .map each iteration)]⟩
    ⟨⟨none, "Nested", [("Nested", .parallel around [branch])]⟩, none, none⟩
  host := ⟨⟨[]⟩, [], 0⟩
  machine := Setup.defaultMachine
  runId := "run"
  input := .arr [.int 1, .int 2]
  seed := none
  chance := default

/-- The second iteration fails, while the first one has not begun to; its failure gets out of the map state, of the
    branch, and of the run. -/
theorem failures_surface_deep : ∃ run fault after last, Ascent deep [0, 1] fault run [0, 1] ∧
    fault.trap? = none ∧ fault.name = "Broken" ∧ run.overruled? deep = none ∧
    run.Unhindered [0, 1] (fault.wrap Fault.Name.branchFailed) ∧
    (∃ activation last, run.outermost.at? [0] = some activation ∧ activation.FailsWith 1 last ∧
      fault.SurfacesAs last) ∧
    run.play deep (joins [0, 1]) = some after ∧ after.settlement = some (.failed last) ∧ fault.SurfacesAs last := by
  have possible : ((start deep).play deep [.act [] .proceed, .act [0] .proceed, .act [0, 1] .proceed]).any (fun run =>
      (run.overruled? deep).isNone && (run.outermost.at? [0, 1]).any fun job => job.ending?.any fun
        | .fault fault => fault.trap? = none ∧ fault.name = "Broken" ∧ run.Unhindered [0, 1] (fault.wrap Fault.Name.branchFailed)
        | _ => false) = true := by decide +kernel
  obtain ⟨run, played, hrun⟩ := Option.any_eq_true _ _ |>.mp possible
  obtain ⟨going, hjob⟩ := Bool.and_eq_true_iff.mp hrun
  obtain ⟨job, underWay, hending⟩ := Option.any_eq_true _ _ |>.mp hjob
  obtain ⟨ending, ended, hfault⟩ := Option.any_eq_true _ _ |>.mp hending
  cases ending with
  | fault fault =>
      obtain ⟨named, name, unhindered⟩ := of_decide_eq_true hfault
      have going : run.overruled? deep = none := Option.isNone_iff_eq_none.mp going
      have ascent : Ascent deep [0, 1] fault run [0, 1] := .ended played underWay ended
      obtain ⟨-, fails, leaves⟩ := failures_surface deep [0, 1] [0, 1] fault run ascent named
      obtain ⟨after, last, hafter, settled, -, surfaces⟩ := leaves going unhindered
      exact ⟨run, fault, after, last, ascent, named, name, going, unhindered, fails [0] 1 rfl, hafter, settled,
        surfaces (by simp)⟩
  | _ => cases hfault

end Run

end Execution

end Workflow
