import Mathlib.Data.List.Nodup
import Workflow.Execution.Process
import Workflow.Proofs.Execution.Cancellation

/-!
# `Workflow.Proofs.Execution.Process` — a process moves as its run does, and drifts besides

An activation that is part of a run listens to tokens, and these are cancelled by those who let go of it.  What a run has
let go of it never names again, so that as long as the run goes on, no token is cancelled to which somebody in it
listens: whoever acts there is told just what the run was asked.  Whoever is adrift listens to a token that has been
cancelled, so that it begins nothing.

## Contents
- **Tokens.** `CancelToken.mem_heeded` and `CancelToken.heeded_subset`: a token is heeded by all inside an attempt.
- **Moves.** `move_cases`, `act_cases`, `drift_cases` and `drop_cases`.
- **Letting go.** `CancelToken.IsSpent`, and `spent_of_left`: who leaves its jobs has spent their names.
- **The invariant.** `Adrift`, with `tells_of_adrift`, and `Sound`; `Sound.move`: each kind of move keeps it.
- **Plays.** `Leads` and `Drifts`, what a move adds, and `Grown`, what moves add; `Sound.play` and `sound_of_play`;
  `Grown.lingers`, what is added once the run is settled.
-/

namespace Workflow.Execution

/-! ## Tokens -/

namespace CancelToken

theorem mem_inside {token : CancelToken} {owner : Id} {path : List Origin} : token ∈ inside owner path ↔
    ∃ before origin after, path = before ++ origin :: after ∧
      token = .attempt (owner ++ before) origin.entered origin.retries := by
  induction path generalizing owner with
  | nil => simp [inside]
  | cons first rest ih =>
      rw [inside, List.mem_cons, ih]
      constructor
      · rintro (rfl | ⟨before, origin, after, rfl, rfl⟩)
        · exact ⟨[], first, rest, rfl, by rw [List.append_nil]⟩
        · exact ⟨first :: before, origin, after, rfl, by rw [List.append_assoc]; rfl⟩
      · rintro ⟨before, origin, after, e, rfl⟩
        cases before with
        | nil =>
            cases e
            exact Or.inl (by rw [List.append_nil])
        | cons _ before =>
            cases e
            exact Or.inr ⟨before, origin, after, rfl, by rw [List.append_assoc]; rfl⟩

/-- An activation listens to the token of the run, and to those of the attempts in whose jobs it is. -/
theorem mem_heeded {token : CancelToken} {id : Id} : token ∈ heeded id ↔ token = .run ∨
    ∃ (owner : Id) (origin : Origin), owner ++ [origin] <+: id ∧
      token = .attempt owner origin.entered origin.retries := by
  rw [heeded, List.mem_cons, mem_inside]
  refine or_congr_right ⟨?_, ?_⟩
  · rintro ⟨owner, origin, after, rfl, rfl⟩
    exact ⟨owner, origin, ⟨after, by rw [List.append_assoc]; rfl⟩, rfl⟩
  · rintro ⟨owner, origin, ⟨after, rfl⟩, rfl⟩
    exact ⟨owner, origin, after, by rw [List.append_assoc]; rfl, rfl⟩

/-- Whoever is inside a job listens to all that the job listens to. -/
theorem heeded_subset {outer inner : Id} (inside : outer <+: inner) : heeded outer ⊆ heeded inner := by
  intro token heeds
  refine mem_heeded.mpr ((mem_heeded.mp heeds).imp_right ?_)
  rintro ⟨owner, origin, within, e⟩
  exact ⟨owner, origin, within.trans inside, e⟩

end CancelToken

/-! ## Jobs under way -/

/-- A job under way is the one at its index. -/
theorem FanOut.Accounted.child?_of_running {α : Type} {f : FanOut α} (h : f.Accounted) {index : Nat} {child : α}
    (underWay : (index, child) ∈ f.running) : f.child? index = some child := by
  obtain ⟨found, hfound⟩ := FanOut.child?_of_mem (List.mem_map_of_mem (f := (·.1)) underWay)
  have once : (f.running.map (·.1)).Nodup := (List.nodup_append.mp h.nodup).1
  have same := List.inj_on_of_nodup_map once (FanOut.mem_of_child? hfound) underWay rfl
  exact hfound.trans (congrArg some (congrArg Prod.snd same))

namespace Activation

/-- A job under way is named after the activation that holds it, and listens to its token. -/
theorem Named.running {activation job : Activation} {index : Nat} (h : activation.Named)
    (underWay : (index, job) ∈ activation.running) : activation.child? index = some job ∧
      ∃ (token : CancelToken) (origin : Origin), activation.token? = some token ∧
        token = .attempt activation.frame.id origin.entered origin.retries ∧
        job.frame.id = activation.frame.id ++ [origin] := by
  obtain ⟨frame, phase⟩ := activation
  cases phase with
  | fanning attempt fanOut =>
      have hchild := h.self.1.child?_of_running underWay
      exact ⟨hchild, _, frame.origin attempt index, rfl, rfl, h.self.2 index job hchild⟩
  | _ => cases underWay

/-- Whoever is told to give up takes no reply. -/
theorem asksAbort_of_told {activation : Activation} {moment : Moment} (told : moment.cancelled = true) :
    activation.asksAbort moment = false := by
  obtain ⟨frame, phase⟩ := activation
  cases phase <;> simp [asksAbort, told]

/-- Only who has jobs has a token for them. -/
theorem token?_eq_some {activation : Activation} {token : CancelToken} (h : activation.token? = some token) :
    ∃ frame attempt fanOut, activation = .node frame (.fanning attempt fanOut) ∧
      token = .attempt frame.id frame.entered attempt.counters.retries := by
  obtain ⟨frame, phase⟩ := activation
  cases phase with
  | fanning attempt fanOut => exact ⟨frame, attempt, fanOut, rfl, (Option.some.inj h).symm⟩
  | _ => cases h

end Activation

namespace Process

variable {setup : Setup} {process after : Process}

/-! ## Moves -/

@[simp] theorem run_letGo (activation : Activation) (taken : Option Nat) :
    (process.letGo activation taken).run = process.run := rfl

@[simp] theorem run_follow (run : Run) : (process.follow run).run = run := rfl

theorem subset_letGo (activation : Activation) (taken : Option Nat) :
    process.cancelled ⊆ (process.letGo activation taken).cancelled := List.subset_append_right _ _

theorem subset_follow (run : Run) : process.cancelled ⊆ (process.follow run).cancelled := by
  unfold follow
  dsimp only
  split
  · exact List.Subset.refl _
  · exact List.Subset.refl _
  · exact List.subset_cons_self _ _

/-- As long as a run goes on, it cancels nothing itself. -/
theorem cancelled_follow {run : Run} (going : run.settlement = none) :
    (process.follow run).cancelled = process.cancelled := by
  simp only [follow, going]

/-- What a run has noted down, its process notes down as well. -/
theorem log_follow {run : Run} {more : List Entry} (h : run.log = more ++ process.run.log) :
    (process.follow run).log = more ++ process.log := by
  simp [follow, h]

theorem mem_adrift_letGo {activation job : Activation} {taken : Option Nat} :
    job ∈ (process.letGo activation taken).adrift ↔
      job ∈ process.adrift ∨ ∃ index, (index, job) ∈ activation.running ∧ some index ≠ taken := by
  simp [letGo]

theorem run_afterTurn (process : Process) (signal : Signal) (before : Activation) (now : Option Activation) :
    (process.afterTurn signal before now).run = process.run := by
  unfold afterTurn
  split <;> rfl

theorem log_afterTurn (process : Process) (signal : Signal) (before : Activation) (now : Option Activation) :
    (process.afterTurn signal before now).log = process.log := by
  unfold afterTurn
  split <;> rfl

/-- After a turn, either nothing is let go of, since the activation has jobs still, or all its jobs are. -/
theorem afterTurn_cases (process : Process) (signal : Signal) (before now : Activation) :
    (now.token?.isSome ∧ process.afterTurn signal before (some now) = process) ∨
    (now.token? = none ∧ process.afterTurn signal before (some now) = process.letGo before signal.taken?) := by
  unfold afterTurn
  cases left : now.token? with
  | some token => exact Or.inl ⟨rfl, by simp [left]⟩
  | none => exact Or.inr ⟨rfl, by simp [left]⟩

/-- **What a move of a process can be:** one of its run by which nobody acts; a settlement of the run from outside; or
    somebody acts in the run, or inside a doomed job; or a doomed job is dropped. -/
theorem move_cases {next : Move} (h : process.move setup next = some after) :
    (∃ move run, next = .run move ∧ (move = .abort ∨ ∃ time, move = .wait time) ∧
      process.run.move setup move = some run ∧ run.outermost = process.run.outermost ∧
      run.settlement = process.run.settlement ∧ run.log = process.run.log ∧ after = process.follow run) ∨
    (∃ looking settlement, next = .run looking ∧ looking.Looks ∧ process.run.settlement = none ∧
      process.run.overruled? setup = some settlement ∧ after = process.overrule settlement) ∨
    (∃ place signal, next = .run (.act place signal) ∧
      (place = [] → process.run.settlement = none ∧ process.run.overruled? setup = none) ∧
      process.act setup place signal = some after) ∨
    (∃ doomed index place signal, next = .drift doomed index place signal ∧
      process.drift setup doomed (index :: place) signal = some after) ∨
    (∃ doomed, next = .drop doomed ∧ process.drop doomed = some after) := by
  cases next with
  | drift doomed index place signal => exact Or.inr (Or.inr (Or.inr (Or.inl ⟨doomed, index, place, signal, rfl, h⟩)))
  | drop doomed => exact Or.inr (Or.inr (Or.inr (Or.inr ⟨doomed, rfl, h⟩)))
  | run move =>
      cases move with
      | wait time =>
          obtain ⟨run, hrun, rfl⟩ := Option.map_eq_some_iff.mp (by simpa only [move, moveRun] using h)
          cases hrun
          exact Or.inl ⟨_, _, rfl, Or.inr ⟨time, rfl⟩, rfl, rfl, rfl, rfl, rfl⟩
      | abort =>
          obtain ⟨run, hrun, rfl⟩ := Option.map_eq_some_iff.mp (by simpa only [move, moveRun] using h)
          cases hrun
          exact Or.inl ⟨_, _, rfl, Or.inl rfl, rfl, rfl, rfl, rfl, rfl⟩
      | overrule =>
          simp only [move, moveRun] at h
          split at h
          · cases h
          · rename_i going
            obtain ⟨settlement, hover, rfl⟩ := Option.map_eq_some_iff.mp h
            exact Or.inr (Or.inl ⟨_, settlement, rfl, Or.inl rfl, by simpa using going, hover, rfl⟩)
      | act place signal =>
          cases place with
          | cons index place => exact Or.inr (Or.inr (Or.inl ⟨index :: place, signal, rfl, (by simp), h⟩))
          | nil =>
              simp only [move, moveRun] at h
              split at h
              · cases h
              · rename_i going
                have going : process.run.settlement = none := by simpa using going
                split at h
                · rename_i settlement hover
                  exact Or.inr (Or.inl ⟨_, settlement, rfl, Or.inr ⟨signal, rfl⟩, going, hover, (Option.some.inj h).symm⟩)
                · rename_i hover
                  exact Or.inr (Or.inr (Or.inl ⟨[], signal, rfl, fun _ => ⟨going, hover⟩, h⟩))

/-- What is to be settled from outside is settled by whoever looks. -/
theorem move_of_overruled {next : Run.Move} {settlement : Settlement} (looks : next.Looks)
    (going : process.run.settlement = none) (hover : process.run.overruled? setup = some settlement) :
    process.move setup (.run next) = some (process.overrule settlement) := by
  rcases looks with rfl | ⟨signal, rfl⟩ <;> simp [move, moveRun, going, hover]

/-- Whoever acts in the run has its turn there; the run gets on by it, and is asked to abort if the handler says so. -/
theorem act_cases {place : Place} {signal : Signal} (h : process.act setup place signal = some after) :
    ∃ actor run, process.run.outermost.at? place = some actor ∧
      process.run.actAt setup (process.moment actor.frame.id) place signal = some run ∧
      after = (process.follow { run with
        abortRequested := run.abortRequested || actor.asksAbort (process.moment actor.frame.id) }).afterTurn signal actor
          (run.outermost.at? place) := by
  simp only [act, Option.bind_eq_bind, Option.bind_eq_some_iff] at h
  obtain ⟨actor, hactor, run, hrun, e⟩ := h
  exact ⟨actor, run, hactor, hrun, (Option.some.inj e).symm⟩

/-- Whoever acts inside a doomed job has its turn there, and leaves the run as it is unless a handler asks that to
    abort. -/
theorem drift_cases {doomed : Id} {place : Place} {signal : Signal}
    (h : process.drift setup doomed place signal = some after) :
    ∃ job actor job' entries, job ∈ process.adrift ∧ job.at? place = some actor ∧
      job.act setup.host (process.moment actor.frame.id) signal place = some (job', entries) ∧
      after = ({ process with
        run := { process.run with
          abortRequested := process.run.abortRequested || actor.asksAbort (process.moment actor.frame.id) }
        adrift := process.adrift.map fun other => if other.frame.id == doomed then job' else other
        log := entries.reverse ++ process.log } : Process).afterTurn signal actor (job'.at? place) := by
  simp only [drift, Option.bind_eq_bind, Option.bind_eq_some_iff] at h
  obtain ⟨job, hjob, actor, hactor, ⟨job', entries⟩, hact, e⟩ := h
  exact ⟨job, actor, job', entries, List.mem_of_find?_eq_some hjob, hactor, hact, (Option.some.inj e).symm⟩

theorem drop_cases {doomed : Id} (h : process.drop doomed = some after) : ∃ job ∈ process.adrift,
    after = ({ process with adrift := process.adrift.filter (·.frame.id != doomed) } : Process).letGo job none := by
  simp only [drop, Option.bind_eq_bind, Option.bind_eq_some_iff] at h
  obtain ⟨job, hjob, e⟩ := h
  exact ⟨job, List.mem_of_find?_eq_some hjob, (Option.some.inj e).symm⟩

end Process

/-! ## Letting go -/

/-- An activation that has its turn and has no jobs any more has spent the names of those that it had. -/
theorem spent_of_left {host : Host} {moment : Moment} {signal : Signal} {activation : Activation} {turn : Turn}
    {entered retries : Nat} (hturn : activation.respond host moment signal = some turn)
    (holds : activation.token? = some (.attempt activation.frame.id entered retries)) (left : turn.activation.token? = none)
    (index : Nat) : Activation.Spent [⟨entered, retries, index⟩] turn.activation := by
  obtain ⟨frame, attempt, fanOut, rfl, e⟩ := Activation.token?_eq_some holds
  obtain ⟨-, rfl, rfl⟩ := CancelToken.attempt.inj e
  rcases respond_cases hturn with ⟨-, hp⟩ | ⟨_, _, _, joined, child, ending, -, e, -, -, rfl⟩
  · cases hp
  · cases e
    cases ending with
    | fault fault => exact recover_spends _ index
    | cancelled => exact stop_spends .cancelled index
    | output value =>
        rw [join, Turn.activation_after] at left ⊢
        obtain ⟨filling, -, ⟨fault, -, e⟩ | ⟨-, -, e⟩ | ⟨-, -, e⟩⟩ :=
          fan_cases moment frame attempt (fanOut.deliver joined value)
        · rw [e]
          exact recover_spends fault index
        · rw [e]
          exact conclude_spends _ index
        · rw [e] at left
          cases left

namespace CancelToken

/-- The names of all jobs that listen to a token are spent. -/
def IsSpent (outermost : Activation) : CancelToken → Prop
  | .run => False
  | .attempt owner entered retries => ∀ index, outermost.Spent (owner ++ [⟨entered, retries, index⟩])

variable {token : CancelToken} {outermost : Activation}

/-- Nobody under way listens to a token that is spent. -/
theorem IsSpent.not_heeded (h : token.IsSpent outermost) (root : outermost.frame.id = []) (named : outermost.Named)
    {place : Place} {inner : Activation} (underWay : outermost.at? place = some inner) :
    token ∉ heeded inner.frame.id := by
  intro heeds
  rcases mem_heeded.mp heeds with rfl | ⟨owner, origin, within, rfl⟩
  · exact h
  · have spent := h origin.index
    refine spent.not_prefix named underWay ?_
    rwa [root, List.nil_append]

/-- A token of an attempt inside a job that listens to a spent token is spent as well. -/
theorem IsSpent.inside {outer inner : Id} (h : token.IsSpent outermost) (heeds : token ∈ heeded outer)
    (within : outer <+: inner) (entered retries : Nat) : (attempt inner entered retries).IsSpent outermost := by
  rcases mem_heeded.mp heeds with rfl | ⟨owner, origin, inside, rfl⟩
  · exact h.elim
  · obtain ⟨more, rfl⟩ := inside.trans within
    intro index
    rw [List.append_assoc]
    exact (h origin.index).append _

theorem IsSpent.act {host : Host} {moment : Moment} {signal : Signal} {place : Place} {after : Activation}
    {entries : List Entry} (h : token.IsSpent outermost)
    (hact : outermost.act host moment signal place = some (after, entries)) : token.IsSpent after := by
  cases token with
  | run => exact h
  | attempt => exact fun index => (h index).act hact

end CancelToken

/-- A note of somebody who is adrift: nothing begins with it, and it tells nothing about the run as a whole. -/
def Note.Lingers (note : Note) : Prop := note.IsInner ∧ ¬ note.Begins

namespace Process

variable {setup : Setup} {process after : Process}

/-! ## The invariant -/

/-- A job with all that is under way in it is adrift: it is named by places, and one of the tokens to which it listens has
    been cancelled. -/
structure Adrift (process : Process) (job : Activation) : Prop where
  named : job.Named
  told : ∃ token ∈ process.cancelled, token ∈ CancelToken.heeded job.frame.id

theorem Adrift.mono {job : Activation} (h : process.Adrift job) (grown : process.cancelled ⊆ after.cancelled) :
    after.Adrift job := by
  obtain ⟨token, cancelled, heeds⟩ := h.told
  exact ⟨h.named, token, grown cancelled, heeds⟩

/-- **Whoever is adrift is told to give up.** -/
theorem tells_of_adrift {job inner : Activation} {place : Place} (h : process.Adrift job)
    (underWay : job.at? place = some inner) : process.tells inner.frame.id = true := by
  obtain ⟨token, cancelled, heeds⟩ := h.told
  obtain ⟨path, hpath, -⟩ := h.named.path underWay
  have listens := CancelToken.heeded_subset (hpath ▸ List.prefix_append _ path) heeds
  exact Bool.or_eq_true_iff.mpr (Or.inr (List.any_eq_true.mpr ⟨token, listens, List.contains_iff_mem.mpr cancelled⟩))

/-- **Who is let go of is adrift.** -/
theorem adrift_letGo {activation job : Activation} {taken : Option Nat} (named : activation.Named)
    (adrift : ∀ job ∈ process.adrift, process.Adrift job) (h : job ∈ (process.letGo activation taken).adrift) :
    (process.letGo activation taken).Adrift job := by
  rcases mem_adrift_letGo.mp h with before | ⟨index, underWay, -⟩
  · exact (adrift job before).mono (subset_letGo activation taken)
  · obtain ⟨hchild, token, origin, holds, rfl, hname⟩ := named.running underWay
    refine ⟨named.child hchild, _, List.mem_append_left _ (Option.mem_toList.mpr holds), ?_⟩
    exact CancelToken.mem_heeded.mpr (Or.inr ⟨_, origin, hname ▸ List.prefix_refl _, rfl⟩)

/-- **What holds of a process at all times.** Its run has come about by moves of its own; as long as that goes on, only
    tokens are cancelled to which nobody in it listens; and all that was let go of is adrift. -/
structure Sound (setup : Setup) (process : Process) : Prop where
  played : ∃ moves, (Run.start setup).play setup moves = some process.run
  spent : process.run.settlement = none → ∀ token ∈ process.cancelled, token.IsSpent process.run.outermost
  adrift : ∀ job ∈ process.adrift, process.Adrift job

theorem sound_start (setup : Setup) : (start setup).Sound setup :=
  ⟨⟨[], rfl⟩, (fun _ _ h => nomatch h), (fun _ h => nomatch h)⟩

theorem Sound.named (h : process.Sound setup) : process.run.Named := by
  obtain ⟨moves, played⟩ := h.played
  exact Run.named_of_play played

theorem Sound.orderly (h : process.Sound setup) : process.run.Orderly setup := by
  obtain ⟨moves, played⟩ := h.played
  exact Run.orderly_of_play played

/-- **As long as a run goes on, whoever is part of it is told just what the run was asked.** -/
theorem Sound.moment_eq (h : process.Sound setup) (going : process.run.settlement = none) {place : Place}
    {actor : Activation} (underWay : process.run.outermost.at? place = some actor) :
    process.moment actor.frame.id = process.run.moment := by
  have none_heeded : (CancelToken.heeded actor.frame.id).any (process.cancelled.contains ·) = false := by
    refine List.any_eq_false.mpr fun token heeds cancelled => ?_
    have spent := h.spent going token (List.contains_iff_mem.mp cancelled)
    exact spent.not_heeded h.named.root h.named.names underWay heeds
  rw [moment, tells, none_heeded, Bool.or_false]
  rfl

/-- In a run that goes on, whoever has its turn acts as in the run itself. -/
theorem Sound.act_of_run (h : process.Sound setup) (going : process.run.settlement = none) {place : Place}
    {signal : Signal} {actor : Activation} {run : Run} (underWay : process.run.outermost.at? place = some actor)
    (hrun : process.run.act setup place signal = some run) :
    ∃ after, process.act setup place signal = some after ∧
      after.run = { run with abortRequested := run.abortRequested || actor.asksAbort process.run.moment } := by
  have hrun : process.run.actAt setup (process.moment actor.frame.id) place signal = some run :=
    (h.moment_eq going underWay).symm ▸ hrun
  refine ⟨_, by simp only [Process.act, underWay, hrun, Option.bind_eq_bind, Option.bind_some]; rfl, ?_⟩
  rw [run_afterTurn, run_follow, h.moment_eq going underWay]

/-! ## Steps -/

/-- The run makes moves of its own, and what it notes down its process notes down as well. -/
structure Leads (setup : Setup) (process after : Process) : Prop where
  moves : ∃ moves, process.run.play setup moves = some after.run
  log : ∃ own, after.log = own ++ process.log ∧ after.run.log = own ++ process.run.log

/-- Somebody who is adrift leaves the run as it is, and notes down only what lingers. -/
structure Drifts (process after : Process) : Prop where
  run : after.run = process.run
  log : ∃ more, after.log = more ++ process.log ∧ ∀ entry ∈ more, entry.note.Lingers

/-- After a turn, whatever is adrift was so before, or was let go of in the turn. -/
theorem adrift_afterTurn {signal : Signal} {before : Activation} {now : Option Activation} (named : before.Named)
    (adrift : ∀ job ∈ process.adrift, process.Adrift job) :
    ∀ job ∈ (process.afterTurn signal before now).adrift, (process.afterTurn signal before now).Adrift job := by
  unfold afterTurn
  split
  · exact adrift
  · exact fun job hjob => adrift_letGo named adrift hjob

/-- A token that is cancelled after a turn was so before, or is that of an activation that has no jobs any more. -/
theorem cancelled_afterTurn {signal : Signal} {before now : Activation} {token : CancelToken}
    (h : token ∈ (process.afterTurn signal before (some now)).cancelled) :
    token ∈ process.cancelled ∨ (before.token? = some token ∧ now.token? = none) := by
  rcases afterTurn_cases process signal before now with ⟨-, e⟩ | ⟨left, e⟩ <;> rw [e] at h
  · exact Or.inl h
  · rcases List.mem_append.mp h with own | earlier
    · exact Or.inr ⟨Option.mem_toList.mp own, left⟩
    · exact Or.inl earlier

/-- The run makes the move of whoever acts, and one more if a handler asks it to abort. -/
theorem play_asked {run next : Run} {move : Run.Move} (hmove : run.move setup move = some next) (asks : Bool) :
    ∃ moves, run.play setup moves = some { next with abortRequested := next.abortRequested || asks } := by
  cases asks with
  | false => exact ⟨[move], by simp [Run.play, hmove]⟩
  | true =>
      refine ⟨[move, .abort], ?_⟩
      rw [Run.play, hmove]
      simp [Run.play, Run.move]

/-- What the run leads to is sound as far as the run is concerned. -/
theorem Leads.played (h : process.Leads setup after) (sound : process.Sound setup) :
    ∃ moves, (Run.start setup).play setup moves = some after.run := by
  obtain ⟨first, played⟩ := sound.played
  obtain ⟨later, further⟩ := h.moves
  exact ⟨first ++ later, Run.play_append played further⟩

/-- And so is what drifts. -/
theorem Drifts.played (h : process.Drifts after) (sound : process.Sound setup) :
    ∃ moves, (Run.start setup).play setup moves = some after.run := h.run ▸ sound.played

section Steps

variable (h : process.Sound setup)
include h

/-- Time passes, or the run is asked to abort. -/
theorem Sound.follow {move : Run.Move} {run : Run} (hmove : process.run.move setup move = some run)
    (outermost : run.outermost = process.run.outermost) (settlement : run.settlement = process.run.settlement)
    (hlog : run.log = process.run.log) : process.Leads setup (process.follow run) ∧ (process.follow run).Sound setup := by
  have leads : process.Leads setup (process.follow run) :=
    ⟨⟨[move], by simp [Run.play, hmove]⟩, [], log_follow hlog, hlog⟩
  refine ⟨leads, leads.played h, fun going token cancelled => ?_, fun job hjob => ?_⟩
  · have going : run.settlement = none := going
    rw [cancelled_follow going] at cancelled
    rw [run_follow, outermost]
    exact h.spent (settlement ▸ going) token cancelled
  · exact (h.adrift job hjob).mono (subset_follow run)

/-- The run is settled from outside: nobody is part of it any more. -/
theorem Sound.overrule {settlement : Settlement} (going : process.run.settlement = none)
    (hover : process.run.overruled? setup = some settlement) :
    process.Leads setup (process.overrule settlement) ∧ (process.overrule settlement).Sound setup := by
  have hmove : process.run.move setup .overrule = some (process.run.overrule settlement) :=
    Run.move_of_overruled (Or.inl rfl) going hover
  have leads : process.Leads setup (process.overrule settlement) :=
    ⟨⟨[.overrule], by rw [Run.play, hmove]; rfl⟩, _, log_follow rfl, rfl⟩
  refine ⟨leads, leads.played h, fun unsettled => absurd unsettled (Option.some_ne_none settlement), fun job hjob => ?_⟩
  exact adrift_letGo h.named.names (fun job hjob => (h.adrift job hjob).mono (subset_follow _)) hjob

/-- Whoever acts in the run makes a move of the run, being told what the run was asked. -/
theorem Sound.act_cases {place : Place} {signal : Signal}
    (free : place = [] → process.run.settlement = none ∧ process.run.overruled? setup = none)
    (hact : process.act setup place signal = some after) :
    ∃ actor run, process.run.outermost.at? place = some actor ∧ process.run.act setup place signal = some run ∧
      process.run.move setup (.act place signal) = some run ∧
      after = (process.follow { run with
        abortRequested := run.abortRequested || actor.asksAbort process.run.moment }).afterTurn signal actor
          (run.outermost.at? place) := by
  obtain ⟨actor, run, hactor, hrun, rfl⟩ := Process.act_cases hact
  have going := h.orderly.unsettled_of_act hrun
  rw [h.moment_eq going hactor] at hrun ⊢
  refine ⟨actor, run, hactor, hrun, ?_, rfl⟩
  cases place with
  | nil => exact (Run.move_outermost going (free rfl).2).trans hrun
  | cons index place => exact hrun

/-- Somebody acts in the run. -/
theorem Sound.act {place : Place} {signal : Signal}
    (free : place = [] → process.run.settlement = none ∧ process.run.overruled? setup = none)
    (hact : process.act setup place signal = some after) : process.Leads setup after ∧ after.Sound setup := by
  obtain ⟨actor, run, hactor, hrun, hmove, rfl⟩ := h.act_cases free hact
  generalize actor.asksAbort process.run.moment = asks
  obtain ⟨outermost, entries, hinner, hafter⟩ := Run.act_cases hrun
  obtain ⟨actor', turn, hactor', hturn, hnow, -⟩ := Activation.actor_of_act hinner
  cases hactor.symm.trans hactor'
  have same : run.outermost = outermost := by
    rcases hafter with ⟨_, -, rfl⟩ | ⟨-, rfl⟩ <;> rfl
  have leads : process.Leads setup ((process.follow { run with abortRequested := run.abortRequested || asks }).afterTurn
      signal actor (run.outermost.at? place)) := by
    obtain ⟨own, hlog⟩ : ∃ own, run.log = own ++ process.run.log := by
      rcases hafter with ⟨ending, -, rfl⟩ | ⟨-, rfl⟩
      · exact ⟨_, (List.append_assoc ..).symm⟩
      · exact ⟨_, rfl⟩
    refine ⟨?_, own, ?_, ?_⟩
    · rw [run_afterTurn]
      exact play_asked hmove asks
    · rw [log_afterTurn]
      exact log_follow hlog
    · rw [run_afterTurn]
      exact hlog
  refine ⟨leads, leads.played h, fun unsettled token cancelled => ?_, ?_⟩
  · rw [run_afterTurn, run_follow] at unsettled ⊢
    rw [show run.outermost.at? place = some turn.activation from same ▸ hnow] at cancelled
    show token.IsSpent run.outermost
    rw [same]
    rcases cancelled_afterTurn cancelled with before | ⟨holds, left⟩
    · rw [cancelled_follow unsettled] at before
      exact (h.spent (h.orderly.unsettled_of_act hrun) token before).act hinner
    · -- The jobs of the attempt that has been left were named after the activation that has left it.
      obtain ⟨frame, attempt, fanOut, rfl, rfl⟩ := Activation.token?_eq_some holds
      intro index
      refine Activation.spent_of_actor h.named.names hinner hactor hturn ?_ (spent_of_left hturn holds left index)
      rw [h.named.root]
      rfl
  · exact adrift_afterTurn (h.named.names.inner hactor) fun job hjob => (h.adrift job hjob).mono (subset_follow _)

/-- Whoever acts and is adrift is told to give up, and leaves the run as it is. -/
theorem Sound.drift_cases {doomed : Id} {place : Place} {signal : Signal}
    (hdrift : process.drift setup doomed place signal = some after) :
    ∃ job actor job' entries, job ∈ process.adrift ∧ job.at? place = some actor ∧
      (process.moment actor.frame.id).cancelled = true ∧
      job.act setup.host (process.moment actor.frame.id) signal place = some (job', entries) ∧
      after = ({ process with
        adrift := process.adrift.map fun other => if other.frame.id == doomed then job' else other
        log := entries.reverse ++ process.log } : Process).afterTurn signal actor (job'.at? place) := by
  obtain ⟨job, actor, job', entries, hjob, hactor, hact, rfl⟩ := Process.drift_cases hdrift
  have told : (process.moment actor.frame.id).cancelled = true := tells_of_adrift (h.adrift job hjob) hactor
  refine ⟨job, actor, job', entries, hjob, hactor, told, hact, ?_⟩
  simp only [Activation.asksAbort_of_told told, Bool.or_false]

/-- Somebody acts who is adrift. -/
theorem Sound.drift {doomed : Id} {index : Nat} {place : Place} {signal : Signal}
    (hdrift : process.drift setup doomed (index :: place) signal = some after) :
    process.Drifts after ∧ after.Sound setup := by
  obtain ⟨job, actor, job', entries, hjob, hactor, told, hact, rfl⟩ := h.drift_cases hdrift
  have adrift := h.adrift job hjob
  obtain ⟨actor', turn, hactor', hturn, hnow, rfl⟩ := Activation.actor_of_act hact
  cases hactor.symm.trans hactor'
  have lingers : ∀ entry ∈ (turn.notes.map fun note => (⟨actor.frame.id, note⟩ : Entry)).reverse, entry.note.Lingers := by
    intro entry hentry
    obtain ⟨note, hnote, rfl⟩ := List.mem_map.mp (List.mem_reverse.mp hentry)
    have heeds : actor.Everywhere (Heeds (process.moment actor.frame.id).cancelled) := fun _ _ _ _ => told
    exact ⟨(respond_orderly heeds hturn).inner note hnote, respond_rests told hturn note hnote⟩
  have drifts : process.Drifts (({ process with
      adrift := process.adrift.map fun other => if other.frame.id == doomed then job' else other
      log := (turn.notes.map fun note => (⟨actor.frame.id, note⟩ : Entry)).reverse ++ process.log } : Process).afterTurn signal actor
        (job'.at? (index :: place))) := by
    refine ⟨?_, _, ?_, lingers⟩
    · rw [run_afterTurn]
    · rw [log_afterTurn]
  refine ⟨drifts, drifts.played h, fun unsettled token cancelled => ?_, ?_⟩
  · rw [run_afterTurn] at unsettled ⊢
    rw [hnow] at cancelled
    rcases cancelled_afterTurn cancelled with before | ⟨holds, -⟩
    · exact h.spent unsettled token before
    · obtain ⟨other, earlier, heeds⟩ := adrift.told
      obtain ⟨frame, attempt, fanOut, rfl, rfl⟩ := Activation.token?_eq_some holds
      obtain ⟨path, hpath, -⟩ := adrift.named.path hactor
      exact (h.spent unsettled other earlier).inside heeds (hpath ▸ List.prefix_append _ path) _ _
  · refine adrift_afterTurn (adrift.named.inner hactor) fun other hother => ?_
    obtain ⟨before, hbefore, rfl⟩ := List.mem_map.mp hother
    split
    · exact ⟨adrift.named.act hact, by rw [(Activation.frame_of_act hact).1]; exact adrift.told⟩
    · exact ⟨(h.adrift before hbefore).named, (h.adrift before hbefore).told⟩

/-- A doomed job is dropped, and what it holds is adrift from then on. -/
theorem Sound.drop {doomed : Id} (hdrop : process.drop doomed = some after) :
    process.Drifts after ∧ after.Sound setup := by
  obtain ⟨job, hjob, rfl⟩ := drop_cases hdrop
  have adrift := h.adrift job hjob
  have drifts : process.Drifts
      (({ process with adrift := process.adrift.filter (·.frame.id != doomed) } : Process).letGo job none) :=
    ⟨rfl, [], rfl, fun _ h => nomatch h⟩
  refine ⟨drifts, drifts.played h, fun unsettled token cancelled => ?_, fun other hother => ?_⟩
  · rcases List.mem_append.mp cancelled with own | before
    · obtain ⟨other, earlier, heeds⟩ := adrift.told
      obtain ⟨frame, attempt, fanOut, rfl, rfl⟩ := Activation.token?_eq_some (Option.mem_toList.mp own)
      exact (h.spent unsettled other earlier).inside heeds (List.prefix_refl _) _ _
    · exact h.spent unsettled token before
  · refine adrift_letGo adrift.named (fun other hother => ?_) hother
    exact ⟨(h.adrift other (List.mem_filter.mp hother).1).named, (h.adrift other (List.mem_filter.mp hother).1).told⟩

/-- **A move of the run is one that the run itself makes,** and a handler may ask it to abort besides. -/
theorem Sound.move_run {next : Run.Move} (hmove : process.move setup (.run next) = some after) :
    ∃ run asks, process.run.move setup next = some run ∧
      after.run = { run with abortRequested := run.abortRequested || asks } := by
  rcases move_cases hmove with ⟨move, run, e, -, hrun, -, -, -, rfl⟩ | ⟨_, settlement, e, looks, going, hover, rfl⟩ |
    ⟨place, signal, e, free, hact⟩ | ⟨_, _, _, _, e, -⟩ | ⟨_, e, -⟩
  · cases e
    exact ⟨run, false, hrun, by simp⟩
  · cases e
    exact ⟨process.run.overrule settlement, false, Run.move_of_overruled looks going hover, by simp [Process.overrule]⟩
  · cases e
    obtain ⟨actor, run, -, -, hrun, rfl⟩ := h.act_cases free hact
    exact ⟨run, _, hrun, run_afterTurn ..⟩
  · cases e
  · cases e

/-- **Every move keeps a process sound;** either it is one of its run, or somebody drifts. -/
theorem Sound.move {next : Move} (hmove : process.move setup next = some after) :
    (process.Leads setup after ∨ process.Drifts after) ∧ after.Sound setup := by
  rcases move_cases hmove with ⟨move, run, -, -, hrun, outermost, settlement, hlog, rfl⟩ |
    ⟨_, settlement, -, -, going, hover, rfl⟩ | ⟨place, signal, -, free, hact⟩ |
    ⟨doomed, index, place, signal, -, hdrift⟩ | ⟨doomed, -, hdrop⟩
  · exact (h.follow hrun outermost settlement hlog).imp_left Or.inl
  · exact (h.overrule going hover).imp_left Or.inl
  · exact (h.act free hact).imp_left Or.inl
  · exact (h.drift hdrift).imp_left Or.inr
  · exact (h.drop hdrop).imp_left Or.inr

end Steps

/-! ## Plays -/

/-- **What every move of a process keeps is kept by a whole play.** -/
theorem play_induct {P : Process → Prop}
    (moves : ∀ (next : Move) (process after : Process), P process → process.move setup next = some after → P after) :
    ∀ {played : List Move} {process after : Process}, P process → process.play setup played = some after → P after := by
  intro played
  induction played with
  | nil => intro process after held h; cases h; exact held
  | cons next rest ih =>
      intro process after held h
      obtain ⟨between, hnext, hrest⟩ := Option.bind_eq_some_iff.mp h
      exact ih (moves next process between held hnext) hrest

/-- **Every process is sound.** -/
theorem sound_of_play {moves : List Move} (played : (start setup).play setup moves = some process) :
    process.Sound setup :=
  play_induct (fun _ _ _ sound hmove => (sound.move hmove).2) (sound_start setup) played

/-- **What moves add that are made in turn.** The run has got on by moves of its own; what the process notes down are
    the notes of the run, among which others linger. -/
structure Grown (setup : Setup) (process after : Process) : Prop where
  moves : ∃ moves, process.run.play setup moves = some after.run
  log : ∃ more own, after.log = more ++ process.log ∧ after.run.log = own ++ process.run.log ∧
    ∀ entry ∈ more, entry ∈ own ∨ entry.note.Lingers

theorem Grown.refl (process : Process) : process.Grown setup process :=
  ⟨⟨[], rfl⟩, [], [], rfl, rfl, fun _ h => nomatch h⟩

/-- The run leads on. -/
theorem Grown.lead {between : Process} (h : process.Grown setup between) (leads : between.Leads setup after) :
    process.Grown setup after := by
  obtain ⟨moves, hmoves⟩ := h.moves
  obtain ⟨further, hfurther⟩ := leads.moves
  obtain ⟨more, own, hmore, hown, among⟩ := h.log
  obtain ⟨last, hlast, hrun⟩ := leads.log
  refine ⟨⟨moves ++ further, Run.play_append hmoves hfurther⟩, last ++ more, last ++ own, ?_, ?_, fun entry hentry => ?_⟩
  · rw [hlast, hmore, List.append_assoc]
  · rw [hrun, hown, List.append_assoc]
  · rcases List.mem_append.mp hentry with new | old
    · exact Or.inl (List.mem_append_left _ new)
    · exact (among entry old).imp_left (List.mem_append_right _)

/-- Somebody drifts. -/
theorem Grown.drift {between : Process} (h : process.Grown setup between) (drifts : between.Drifts after) :
    process.Grown setup after := by
  obtain ⟨more, own, hmore, hown, among⟩ := h.log
  obtain ⟨last, hlast, linger⟩ := drifts.log
  refine ⟨drifts.run ▸ h.moves, last ++ more, own, ?_, drifts.run ▸ hown, fun entry hentry => ?_⟩
  · rw [hlast, hmore, List.append_assoc]
  · exact (List.mem_append.mp hentry).elim (fun new => Or.inr (linger entry new)) (among entry)

/-- One move is enough to grow. -/
theorem Sound.grown_move {next : Move} (h : process.Sound setup) (hmove : process.move setup next = some after) :
    process.Grown setup after := (h.move hmove).1.elim (Grown.refl process).lead (Grown.refl process).drift

/-- **Once its run is settled, a process only lingers:** the run makes no notes any more. -/
theorem Grown.lingers (h : process.Grown setup after) (sound : process.Sound setup)
    (settled : process.run.settlement.isSome) : after.run.settlement = process.run.settlement ∧
      ∃ more, after.log = more ++ process.log ∧ ∀ entry ∈ more, entry.note.Lingers := by
  obtain ⟨moves, played⟩ := h.moves
  obtain ⟨more, own, hmore, hown, among⟩ := h.log
  obtain ⟨settlement, hlog⟩ := sound.orderly.settled_over settled played
  have nothing : own = [] := List.append_left_eq_self.mp (hown.symm.trans hlog)
  refine ⟨settlement, more, hmore, fun entry hentry => (among entry hentry).resolve_left ?_⟩
  rw [nothing]
  exact List.not_mem_nil

/-- **A process that is sound stays so, and grows with its run.** -/
theorem Sound.play {moves : List Move} (h : process.Sound setup) (played : process.play setup moves = some after) :
    process.Grown setup after ∧ after.Sound setup := by
  refine play_induct (P := fun between => process.Grown setup between ∧ between.Sound setup) ?_
    ⟨.refl process, h⟩ played
  rintro next between following ⟨grown, sound⟩ hmove
  obtain ⟨how, sound⟩ := sound.move hmove
  exact ⟨how.elim grown.lead grown.drift, sound⟩

end Process

end Workflow.Execution
