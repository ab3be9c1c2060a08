import Workflow.Proofs.Execution.Run
import Workflow.Proofs.Retry.Resolve

/-!
# `Workflow.Proofs.Execution.Lineage` — no two activations have the same name

The name of an activation lists the origins of the activation itself and of those around it.  An activation gives
its jobs origins in a fixed order, by visit, by attempt and by index, and never goes back; so the place of an
activation in the tree can be read off its name, and a name whose activation is gone is never given again.

## Contents
- **Origins.** `Origin.Before`, and `Activation.horizon`, the first origin that is still to be given.
- **Turns.** `Turn.Continues`: a turn keeps name and graph, and the horizon does not come closer.
- **Jobs.** `attempt_of_respond`, `fanning_of_respond` and `child_of_respond`: which jobs are under way after a turn.
- **Names.** `Named`, with `Named.act`: names follow places, as `Named.path` and `Named.unique` say; so `Named.silent`
  tells the notes of different activations apart.
- **Spent names.** `Spent`, with `Spent.act`, `Spent.silent` and `spent_of_actor`.
- **Runs.** `move_effect`, what a move does to the tree and to the log; `named_of_play`, and `Named.spent_play`: under a
  name that is spent nobody ever acts again.
-/

namespace Workflow.Execution

/-! ## Origins -/

/-- The origin of the job at an index of an attempt. -/
def Frame.origin (frame : Frame) (attempt : Attempt) (index : Nat) : Origin :=
  ⟨frame.entered, attempt.counters.retries, index⟩

/-- The order in which an activation begins its jobs: by visit, then by attempt, then by index. -/
def Origin.Before (origin bound : Origin) : Prop :=
  origin.entered < bound.entered ∨ (origin.entered = bound.entered ∧
    (origin.retries < bound.retries ∨ (origin.retries = bound.retries ∧ origin.index < bound.index)))

/-- The first origin that an activation has not given to any job. -/
def Activation.horizon : Activation → Origin
  | .node frame (.fanning attempt fanOut) => frame.origin attempt fanOut.begun
  | .node frame (.invoking attempt _) => frame.origin attempt 0
  | .node frame (.pausing attempt _) => frame.origin attempt 0
  | .node frame _ => ⟨frame.entered + 1, 0, 0⟩

/-- Within an attempt, jobs are begun by index. -/
theorem Frame.origin_before_origin {frame : Frame} {attempt : Attempt} {index bound : Nat} :
    (frame.origin attempt index).Before (frame.origin attempt bound) ↔ index < bound := by
  simp [Origin.Before, Frame.origin]

/-! ## Turns -/

/-- A turn after which the activation has the name and the graph of a frame, and has left behind every origin in
    front of a bound. -/
structure Turn.Continues (frame : Frame) (bound : Origin) (turn : Turn) : Prop where
  id : turn.activation.frame.id = frame.id
  graph : turn.activation.frame.graph = frame.graph
  horizon : ∀ origin : Origin, origin.Before bound → origin.Before turn.activation.horizon

theorem Turn.Continues.after {frame : Frame} {bound : Origin} {turn : Turn} (notes : List Note)
    (h : turn.Continues frame bound) : (turn.after notes).Continues frame bound := ⟨h.id, h.graph, h.horizon⟩

/-- What is in front of an earlier bound has been left behind as well. -/
theorem Turn.Continues.weaken {frame : Frame} {bound earlier : Origin} {turn : Turn}
    (h : turn.Continues frame bound) (le : ∀ origin : Origin, origin.Before earlier → origin.Before bound) :
    turn.Continues frame earlier := ⟨h.id, h.graph, fun origin before => h.horizon origin (le origin before)⟩

section Turns

variable {host : Host} {moment : Moment} {frame : Frame} {attempt : Attempt}

theorem stop_continues (ending : Ending) : (stop frame ending).Continues frame ⟨frame.entered + 1, 0, 0⟩ :=
  ⟨rfl, rfl, fun _ h => h⟩

theorem leave_continues (next : Option String) (output : Json) :
    (leave frame next output).Continues frame ⟨frame.entered + 1, 0, 0⟩ := by
  cases next with
  | some next => exact ⟨rfl, rfl, fun _ h => h⟩
  | none => exact ⟨rfl, rfl, fun _ h => h⟩

theorem leaveOrFail_continues (outcome : DataFlow.Outcome (Option String × Json)) :
    (leaveOrFail frame outcome).Continues frame ⟨frame.entered + 1, 0, 0⟩ := by
  cases outcome with
  | error fault => exact stop_continues _
  | ok left => exact leave_continues left.1 left.2

/-- To recover is to make one more retry, or to be done with the visit. -/
theorem recover_continues (fault : Fault) :
    (recover moment frame attempt fault).Continues frame ⟨frame.entered, attempt.counters.retries + 1, 0⟩ := by
  -- Whoever leaves the state leaves all its attempts behind, so also the one after this.
  have done : ∀ origin : Origin, origin.Before ⟨frame.entered, attempt.counters.retries + 1, 0⟩ →
      origin.Before ⟨frame.entered + 1, 0, 0⟩ := by
    intro origin h
    simp only [Origin.Before] at h ⊢
    omega
  rcases recover_cases moment frame attempt fault with
    ⟨number, delay, counters, hd, e⟩ | ⟨next, output, _, -, e⟩ | ⟨last, _, -, e⟩ <;> rw [e]
  · obtain ⟨_, _, -, -, rfl⟩ := Retry.retried_of_resolve hd
    exact ⟨rfl, rfl, fun origin h => h⟩
  · exact ((leave_continues (some next) output).after _).weaken done
  · exact (stop_continues _).weaken done

theorem conclude_continues (result : Json) :
    (conclude moment frame attempt result).Continues frame ⟨frame.entered, attempt.counters.retries + 1, 0⟩ := by
  have done : ∀ origin : Origin, origin.Before ⟨frame.entered, attempt.counters.retries + 1, 0⟩ →
      origin.Before ⟨frame.entered + 1, 0, 0⟩ := by
    intro origin h
    simp only [Origin.Before] at h ⊢
    omega
  rcases conclude_cases moment frame attempt result with
    ⟨fault, -, e⟩ | ⟨next, output, -, e⟩ | ⟨fault, -, e⟩ <;> rw [e]
  · exact recover_continues fault
  · exact (leave_continues next output).weaken done
  · exact (stop_continues _).weaken done

/-- What belongs to an attempt comes before what belongs to the next one. -/
theorem origin_before_retry {origin : Origin} {index : Nat} (h : origin.Before (frame.origin attempt index)) :
    origin.Before ⟨frame.entered, attempt.counters.retries + 1, 0⟩ := by
  simp only [Origin.Before, Frame.origin] at h ⊢
  omega

theorem fan_continues (fanOut : FanOut Activation) :
    (fan moment frame attempt fanOut).Continues frame (frame.origin attempt fanOut.begun) := by
  obtain ⟨filling, rfl, ⟨fault, -, e⟩ | ⟨-, -, e⟩ | ⟨-, -, e⟩⟩ := fan_cases moment frame attempt fanOut <;> rw [e]
  · exact ((recover_continues fault).weaken fun _ => origin_before_retry).after _
  · exact ((conclude_continues _).weaken fun _ => origin_before_retry).after _
  · refine ⟨rfl, rfl, fun origin h => ?_⟩
    have le := FanOut.begun_le_fill (frame.beginJob attempt) fanOut
    simp only [Activation.horizon, Frame.origin, Origin.Before] at h ⊢
    omega

theorem join_continues (fanOut : FanOut Activation) (index : Nat) (ending : Ending) :
    (join moment frame attempt fanOut index ending).Continues frame (frame.origin attempt fanOut.begun) := by
  cases ending with
  | output value => exact (fan_continues (fanOut.deliver index value)).after _
  | fault fault => exact ((recover_continues _).weaken fun _ => origin_before_retry).after _
  | cancelled =>
      refine (stop_continues _).weaken fun origin h => ?_
      simp only [Origin.Before, Frame.origin] at h ⊢
      omega

theorem beginAttempt_continues (frame : Frame) (attempt : Attempt) :
    (beginAttempt host moment frame attempt).Continues frame (frame.origin attempt 0) := by
  rcases beginAttempt_cases host moment frame attempt with
    ⟨_, fault, -, -, e⟩ | ⟨_, _, -, -, e⟩ | ⟨fault, -, -, e⟩ | ⟨js, limit, -, e⟩ <;> rw [e]
  · exact (recover_continues fault).weaken fun _ => origin_before_retry
  · exact ⟨rfl, rfl, fun _ h => h⟩
  · exact (recover_continues fault).weaken fun _ => origin_before_retry
  · exact fan_continues (.ofJobs js limit)

/-- A state that is entered comes after everything that belongs to the visits before. -/
theorem begin_continues (frame : Frame) (state : State) :
    (begin host moment frame state).Continues frame ⟨frame.entered, 0, 0⟩ := by
  have done : ∀ origin : Origin, origin.Before ⟨frame.entered, 0, 0⟩ →
      origin.Before ⟨frame.entered + 1, 0, 0⟩ := by
    intro origin h
    simp only [Origin.Before] at h ⊢
    omega
  cases state with
  | succeed s => exact (leaveOrFail_continues _).weaken done
  | fail s => exact (stop_continues _).weaken done
  | choice s => exact (leaveOrFail_continues _).weaken done
  | pass s => exact (leaveOrFail_continues _).weaken done
  | wait s =>
      rcases begin_wait_cases host moment frame s with ⟨_, -, e⟩ | ⟨_, _, -, e⟩ <;> rw [e]
      · exact (stop_continues _).weaken done
      · exact ⟨rfl, rfl, done⟩
  | task | parallel | map =>
      rw [begin_of_recoverable host moment frame (by simp [State.IsRecoverable, State.kind])]
      exact (beginAttempt_continues frame _).weaken fun _ before => before

theorem enter_continues : (enter host moment frame).Continues frame ⟨frame.entered + 1, 0, 0⟩ := by
  unfold enter
  split
  · exact stop_continues _
  · rename_i state _
    let entering : Frame := { frame with
      context := Context.enter frame.context frame.state (Timestamp.render (host.now moment))
      entered := frame.entered + 1 }
    have begun : (begin host moment entering state).Continues entering ⟨entering.entered, 0, 0⟩ :=
      begin_continues entering state
    exact Turn.Continues.after _ ⟨begun.id, begun.graph, begun.horizon⟩

theorem proceed_continues {phase : Phase} {turn : Turn} (h : proceed host moment frame phase = some turn) :
    turn.Continues frame (Activation.node frame phase).horizon := by
  rcases proceed_cases h with ⟨-, rfl⟩ | ⟨-, ⟨rfl, rfl⟩ | ⟨_, _, _, rfl, -, rfl⟩ | ⟨attempt, _, result, rfl, -, rfl⟩ |
    ⟨attempt, _, fault, rfl, -, rfl⟩ | ⟨attempt, _, rfl, -, rfl⟩⟩
  · refine (stop_continues _).weaken fun origin before => ?_
    cases phase <;> simp only [Activation.horizon, Frame.origin, Origin.Before] at before ⊢ <;> omega
  · exact enter_continues
  · exact leaveOrFail_continues _
  · exact (conclude_continues result).weaken fun _ => origin_before_retry
  · exact (recover_continues fault).weaken fun _ => origin_before_retry
  · let retrying : Frame := { frame with context := Context.setRetryCount frame.context attempt.counters.retries }
    have again : (beginAttempt host moment retrying attempt).Continues retrying (retrying.origin attempt 0) :=
      beginAttempt_continues retrying attempt
    exact ⟨again.id, again.graph, again.horizon⟩

/-- **A turn keeps the name and the graph of an activation, and no origin that was given is still to be given.** -/
theorem respond_continues {signal : Signal} {activation : Activation} {turn : Turn}
    (h : activation.respond host moment signal = some turn) :
    turn.Continues activation.frame activation.horizon := by
  rcases respond_cases h with ⟨-, hp⟩ | ⟨frame, attempt, fanOut, index, child, ending, -, rfl, -, -, rfl⟩
  · obtain ⟨frame, phase⟩ := activation
    exact proceed_continues hp
  · exact join_continues fanOut index ending

end Turns

/-! ## Jobs -/

section Jobs

variable {host : Host} {moment : Moment} {frame frame' : Frame} {attempt attempt' : Attempt}
variable {fanOut fanOut' : FanOut Activation}

/-- Only the states that are run in attempts begin with jobs. -/
theorem attempt_of_begin {state : State}
    (h : (begin host moment frame state).activation = .node frame' (.fanning attempt fanOut)) :
    frame' = frame ∧ begin host moment frame state = beginAttempt host moment frame attempt := by
  by_cases recoverable : State.IsRecoverable state
  · have began := begin_of_recoverable host moment frame recoverable
    obtain ⟨sameFrame, rfl, -⟩ := filled_of_beginAttempt (began ▸ h)
    exact ⟨sameFrame, began⟩
  · cases state with
    | wait s =>
        rcases begin_wait_cases host moment frame s with ⟨_, -, e⟩ | ⟨_, _, -, e⟩ <;> rw [e] at h
        · cases h
        · cases h
    | task | parallel | map => exact absurd (by simp [State.IsRecoverable, State.kind]) recoverable
    | fail s => cases h
    | _ => exact absurd (congrArg Activation.phase h) (leaveOrFail_isLeaf _ _ _)

/-- **Where jobs are under way after a turn,** an attempt has just begun, none of whose origins was given before; or one
    of the jobs was taken in, with its output. -/
theorem attempt_of_respond {signal : Signal} {activation : Activation} {turn : Turn}
    (hturn : activation.respond host moment signal = some turn)
    (h : turn.activation = .node frame (.fanning attempt fanOut)) :
    (∃ notes, turn = (beginAttempt host moment frame attempt).after notes ∧
      ∀ index, ¬ (frame.origin attempt index).Before activation.horizon) ∨
    ∃ held joined child value, activation = .node frame (.fanning attempt held) ∧ signal = .join joined ∧
      held.child? joined = some child ∧ child.ending? = some (.output value) ∧
      turn = join moment frame attempt held joined (.output value) := by
  rcases respond_cases hturn with
    ⟨-, hp⟩ | ⟨before, going, held, joined, child, ending, rfl, rfl, hchild, hending, rfl⟩
  · obtain ⟨before, phase⟩ := activation
    rcases proceed_cases hp with ⟨-, rfl⟩ | ⟨-, ⟨rfl, rfl⟩ | ⟨_, _, _, -, -, rfl⟩ | ⟨_, _, result, -, -, rfl⟩ |
      ⟨_, _, fault, -, -, rfl⟩ | ⟨again, _, rfl, -, rfl⟩⟩
    · cases h
    · unfold enter at h ⊢
      split at h
      · cases h
      · -- Before a state is entered, the horizon is at its first attempt.
        obtain ⟨rfl, began⟩ := attempt_of_begin h
        refine Or.inl ⟨_, congrArg (Turn.after _) began, fun index => ?_⟩
        simp only [Activation.horizon, Activation.frame, Frame.origin, Origin.Before]
        omega
    · exact absurd (congrArg Activation.phase h) (leaveOrFail_isLeaf _ _ _)
    · exact absurd (congrArg Activation.phase h) (conclude_isLeaf result _ _)
    · exact absurd (congrArg Activation.phase h) (recover_isLeaf fault _ _)
    · -- In a pause the horizon is at the attempt that comes next.
      obtain ⟨rfl, rfl, -⟩ := filled_of_beginAttempt h
      refine Or.inl ⟨[], rfl, fun index => ?_⟩
      simp only [Activation.horizon, Activation.frame, Frame.origin, Origin.Before]
      omega
  · obtain ⟨rfl, rfl, value, rfl, -⟩ := filled_of_join h
    exact Or.inr ⟨held, joined, child, value, rfl, rfl, hchild, hending, rfl⟩

/-- The jobs under way after a turn are those that were left, and those that had room. -/
theorem fanning_of_respond {signal : Signal} {activation : Activation} {turn : Turn}
    (hturn : activation.respond host moment signal = some turn)
    (h : turn.activation = .node frame (.fanning attempt fanOut)) :
    ∃ base : FanOut Activation, fanOut = (base.fill (frame.beginJob attempt)).fanOut ∧
      ((∃ js limit, base = .ofJobs js limit ∧
          ∀ index, ¬ (frame.origin attempt index).Before activation.horizon) ∨
        ∃ held joined child output, activation = .node frame (.fanning attempt held) ∧
          held.child? joined = some child ∧ base = held.deliver joined output) := by
  rcases attempt_of_respond hturn h with
    ⟨notes, rfl, fresh⟩ | ⟨held, joined, child, value, rfl, -, hchild, -, rfl⟩
  · obtain ⟨-, -, js, limit, -, rfl⟩ := filled_of_beginAttempt h
    exact ⟨_, rfl, Or.inl ⟨js, limit, rfl, fresh⟩⟩
  · obtain ⟨-, -, rfl⟩ := filled_of_fan h
    exact ⟨_, rfl, Or.inr ⟨held, joined, child, value, rfl, hchild, rfl⟩⟩

/-- **The jobs under way after a turn** belonged to the same attempt before it; or they have just begun, and no origin
    like theirs was given before. -/
theorem child_of_respond {signal : Signal} {activation child : Activation} {turn : Turn} {index : Nat}
    (hturn : activation.respond host moment signal = some turn)
    (h : turn.activation.child? index = some child) :
    (∃ frame attempt held fanOut, activation = .node frame (.fanning attempt held) ∧
        turn.activation = .node frame (.fanning attempt fanOut) ∧ fanOut.jobs = held.jobs ∧
        held.child? index = some child) ∨
      ∃ frame attempt fanOut job input, turn.activation = .node frame (.fanning attempt fanOut) ∧
        fanOut.jobs[index]? = some job ∧ job.input = .ok input ∧
        child = frame.beginJob attempt index job input ∧
        ¬ (frame.origin attempt index).Before activation.horizon := by
  generalize hafter : turn.activation = after at h
  obtain ⟨frame, phase⟩ := after
  cases phase with
  | fanning attempt fanOut =>
      obtain ⟨base, rfl, origins⟩ := fanning_of_respond hturn hafter
      have sameJobs := (FanOut.fill_keeps (frame.beginJob attempt) base).1
      -- Filling adds jobs to those that were left, or to none where the attempt begins.
      rcases FanOut.child?_fill h with old | ⟨job, input, le, hjob, hinput, rfl⟩
      · rcases origins with ⟨js, limit, rfl, -⟩ | ⟨held, joined, taken, output, rfl, -, rfl⟩
        · simp [FanOut.ofJobs, FanOut.child?] at old
        · rw [FanOut.child?_deliver] at old
          split at old
          · cases old
          · exact Or.inl ⟨frame, attempt, held, _, rfl, rfl, sameJobs, old⟩
      · refine Or.inr ⟨frame, attempt, _, job, input, rfl, sameJobs ▸ hjob, hinput, rfl, ?_⟩
        rcases origins with ⟨js, limit, rfl, fresh⟩ | ⟨held, joined, taken, output, rfl, -, rfl⟩
        · exact fresh index
        · exact fun before => Nat.not_lt.mpr le (Frame.origin_before_origin.mp before)
  | _ => cases h

end Jobs

/-! ## Names -/

namespace Activation

variable {host : Host} {moment : Moment} {signal : Signal}

/-- Every job under way is named by its origin, after the activation that holds it. -/
def NamesJobs : Activation → Prop
  | .node frame (.fanning attempt fanOut) => fanOut.Accounted ∧ ∀ index child,
      fanOut.child? index = some child → child.frame.id = frame.id ++ [frame.origin attempt index]
  | _ => True

/-- All that are under way inside an activation are named after it. -/
abbrev Named (activation : Activation) : Prop := activation.Everywhere NamesJobs

theorem Named.child {activation child : Activation} {index : Nat} (h : activation.Named)
    (hchild : activation.child? index = some child) : child.Named := Everywhere.child h hchild

/-- Whoever is under way has begun. -/
theorem NamesJobs.job {activation child : Activation} {index : Nat} (h : activation.NamesJobs)
    (hchild : activation.child? index = some child) :
    ∃ origin : Origin, origin.index = index ∧ origin.Before activation.horizon ∧
      child.frame.id = activation.frame.id ++ [origin] := by
  obtain ⟨frame, phase⟩ := activation
  cases phase with
  | fanning attempt fanOut =>
      exact ⟨frame.origin attempt index, rfl, Frame.origin_before_origin.mpr (h.1.lt_of_child? hchild),
        h.2 index child hchild⟩
  | _ => cases hchild

/-- An activation keeps its name and its graph, whoever acts inside it. -/
theorem frame_of_act {place : Place} {activation after : Activation} {entries : List Entry}
    (h : activation.act host moment signal place = some (after, entries)) :
    after.frame.id = activation.frame.id ∧ after.frame.graph = activation.frame.graph := by
  cases place with
  | nil =>
      obtain ⟨turn, hturn, rfl, -⟩ := act_nil h
      exact ⟨(respond_continues hturn).id, (respond_continues hturn).graph⟩
  | cons index place =>
      obtain ⟨frame, attempt, fanOut, child, child', rfl, -, -, rfl⟩ := act_cons h
      exact ⟨rfl, rfl⟩

/-- No origin that was given is still to be given, whoever acts. -/
theorem horizon_of_act {place : Place} {activation after : Activation} {entries : List Entry} {origin : Origin}
    (h : activation.act host moment signal place = some (after, entries)) (given : origin.Before activation.horizon) :
    origin.Before after.horizon := by
  cases place with
  | nil =>
      obtain ⟨turn, hturn, rfl, -⟩ := act_nil h
      exact (respond_continues hturn).horizon origin given
  | cons index place =>
      obtain ⟨frame, attempt, fanOut, child, child', rfl, -, -, rfl⟩ := act_cons h
      exact given

/-- Whoever acts at a place is under way there, and comes to what its turn makes of it. -/
theorem actor_of_act : ∀ {place : Place} {activation after : Activation} {entries : List Entry},
    activation.act host moment signal place = some (after, entries) →
      ∃ actor turn, activation.at? place = some actor ∧ actor.respond host moment signal = some turn ∧
        after.at? place = some turn.activation ∧ entries = turn.notes.map (⟨actor.frame.id, ·⟩) := by
  intro place
  induction place with
  | nil =>
      intro activation after entries h
      obtain ⟨turn, hturn, rfl, rfl⟩ := act_nil h
      exact ⟨activation, turn, rfl, hturn, rfl, rfl⟩
  | cons index place ih =>
      intro activation after entries h
      obtain ⟨frame, attempt, fanOut, child, child', rfl, hchild, hinner, rfl⟩ := act_cons h
      obtain ⟨actor, turn, hactor, hturn, hafter, rfl⟩ := ih hinner
      refine ⟨actor, turn, Option.bind_eq_some_iff.mpr ⟨child, hchild, hactor⟩, hturn,
        Option.bind_eq_some_iff.mpr ⟨child', ?_, hafter⟩, rfl⟩
      show (fanOut.replace index child').child? index = some child'
      rw [FanOut.child?_replace, if_pos rfl, hchild]
      rfl

/-- Whatever is noted down when an activation acts is noted down by the one that acts. -/
theorem author_of_act {place : Place} {activation after : Activation} {entries : List Entry}
    (h : activation.act host moment signal place = some (after, entries)) :
    ∃ actor, activation.at? place = some actor ∧ ∀ entry ∈ entries, entry.activation = actor.frame.id := by
  obtain ⟨actor, turn, hactor, -, -, rfl⟩ := actor_of_act h
  refine ⟨actor, hactor, fun entry hentry => ?_⟩
  obtain ⟨note, -, rfl⟩ := List.mem_map.mp hentry
  rfl

/-- What a turn makes of an activation names its jobs as before. -/
theorem namesJobs_respond {activation : Activation} {turn : Turn} (h : activation.NamesJobs)
    (hturn : activation.respond host moment signal = some turn) : turn.activation.NamesJobs := by
  generalize hafter : turn.activation = after
  obtain ⟨frame, phase⟩ := after
  cases phase with
  | fanning attempt fanOut =>
      refine ⟨?_, fun index child hchild => ?_⟩
      · obtain ⟨base, rfl, ⟨js, limit, rfl, -⟩ | ⟨held, joined, taken, output, rfl, htaken, rfl⟩⟩ :=
          fanning_of_respond hturn hafter
        · exact (FanOut.accounted_ofJobs js limit).fill _
        · exact (h.1.deliver htaken output).fill _
      · have underWay : turn.activation.child? index = some child := by
          rw [hafter]
          exact hchild
        rcases child_of_respond hturn underWay with
          ⟨frame', attempt', held, fanOut', rfl, e, -, old⟩ | ⟨frame', attempt', fanOut', job, input, e, -, -, rfl, -⟩
        · cases hafter.symm.trans e
          exact h.2 index child old
        · cases hafter.symm.trans e
          rfl
  | _ => trivial

/-- **Names follow places, whoever acts.** -/
theorem Named.act {place : Place} {activation after : Activation} {entries : List Entry} (h : activation.Named)
    (hact : activation.act host moment signal place = some (after, entries)) : after.Named := by
  refine Everywhere.act (fun activation turn named hturn => ⟨namesJobs_respond named.self hturn, ?_⟩) ?_ h hact
  · rintro index child ⟨_, _, _, _, _, -, -, -, rfl⟩
    trivial
  · rintro frame attempt fanOut index place child child' entries hchild hinner ⟨accounted, names⟩
    refine ⟨accounted.replace index child', fun other found hfound => ?_⟩
    rcases FanOut.child?_of_replace hchild hfound with ⟨rfl, rfl⟩ | ⟨-, hfound⟩
    · rw [(frame_of_act hinner).1]
      exact names other child hchild
    · exact names other found hfound

/-- **A name tells a place:** it is made of origins that lead there. -/
theorem Named.path : ∀ {place : Place} {activation inner : Activation}, activation.Named →
    activation.at? place = some inner →
      ∃ path : List Origin, inner.frame.id = activation.frame.id ++ path ∧ path.map (·.index) = place := by
  intro place
  induction place with
  | nil =>
      intro activation inner h hinner
      cases hinner
      exact ⟨[], (List.append_nil _).symm, rfl⟩
  | cons index place ih =>
      intro activation inner h hinner
      obtain ⟨child, hchild, below⟩ := Option.bind_eq_some_iff.mp hinner
      obtain ⟨origin, rfl, -, hname⟩ := h.self.job hchild
      obtain ⟨path, hpath, rfl⟩ := ih (h.child hchild) below
      exact ⟨origin :: path, by rw [hpath, hname, List.append_assoc]; rfl, rfl⟩

/-- Whoever is inside a job has the origin of the job in its name. -/
theorem Named.inside {index : Nat} {place : Place} {activation inner : Activation} (h : activation.Named)
    (hinner : activation.at? (index :: place) = some inner) :
    ∃ (child : Activation) (origin : Origin) (path : List Origin), origin.index = index ∧
      activation.child? index = some child ∧ child.at? place = some inner ∧ origin.Before activation.horizon ∧
      child.frame.id = activation.frame.id ++ [origin] ∧ inner.frame.id = child.frame.id ++ path ∧
      inner.frame.id = activation.frame.id ++ origin :: path := by
  obtain ⟨child, hchild, below⟩ := Option.bind_eq_some_iff.mp hinner
  obtain ⟨origin, same, given, childName⟩ := h.self.job hchild
  obtain ⟨path, hpath, -⟩ := (h.child hchild).path below
  exact ⟨child, origin, path, same, hchild, below, given, childName, hpath, by
    rw [hpath, childName, List.append_assoc]; rfl⟩

/-- No two activations under way have the same name. -/
theorem Named.unique {place other : Place} {activation inner inner' : Activation} (h : activation.Named)
    (hinner : activation.at? place = some inner) (hinner' : activation.at? other = some inner')
    (same : inner.frame.id = inner'.frame.id) : place = other := by
  obtain ⟨path, hpath, rfl⟩ := h.path hinner
  obtain ⟨path', hpath', rfl⟩ := h.path hinner'
  rw [hpath, hpath'] at same
  rw [List.append_cancel_left same]

/-- Under the name of an activation, nothing is noted down when another one acts. -/
theorem Named.silent {place target : Place} {activation after inner : Activation} {entries : List Entry}
    (h : activation.Named) (hinner : activation.at? place = some inner)
    (hact : activation.act host moment signal target = some (after, entries)) (apart : target ≠ place) :
    ∀ entry ∈ entries, entry.activation ≠ inner.frame.id := by
  obtain ⟨actor, hactor, authored⟩ := author_of_act hact
  intro entry hentry same
  exact apart (h.unique hactor hinner ((authored entry hentry).symm.trans same))

/-- What is noted down when someone inside a job acts is noted down under the origin of the job. -/
theorem Named.author_inside {index : Nat} {place : Place} {activation after : Activation} {entries : List Entry}
    (h : activation.Named) (hact : activation.act host moment signal (index :: place) = some (after, entries)) :
    ∃ (origin : Origin) (path : List Origin), origin.index = index ∧ origin.Before activation.horizon ∧
      ∀ entry ∈ entries, entry.activation = activation.frame.id ++ origin :: path := by
  obtain ⟨actor, hactor, authored⟩ := author_of_act hact
  obtain ⟨_, origin, path, same, -, -, given, -, -, name⟩ := h.inside hactor
  exact ⟨origin, path, same, given, fun entry hentry => (authored entry hentry).trans name⟩

/-! ## Spent names -/

/-- Origins under which nobody is under way any more, nor ever will be: the first of them has been given, and if the
    job that it was given to is still under way, the others are spent there. -/
def Spent : List Origin → Activation → Prop
  | [], _ => False
  | origin :: path, activation => origin.Before activation.horizon ∧
      ∀ child, activation.child? origin.index = some child →
        child.frame.id = activation.frame.id ++ [origin] → Spent path child

/-- Whatever is inside what is spent is spent as well. -/
theorem Spent.append (more : List Origin) : ∀ {path : List Origin} {activation : Activation}, Spent path activation →
    Spent (path ++ more) activation
  | _ :: _, _, h => ⟨h.1, fun child hchild hname => (h.2 child hchild hname).append more⟩

/-- Nobody under way has a name that is spent. -/
theorem Spent.not_prefix : ∀ {place : Place} {path : List Origin} {activation inner : Activation}, Spent path activation →
    activation.Named → activation.at? place = some inner → ¬ activation.frame.id ++ path <+: inner.frame.id := by
  intro place
  induction place with
  | nil =>
      intro path activation inner h _ hinner hname
      cases hinner
      cases path with
      | nil => exact h
      | cons origin path => simpa using hname.length_le
  | cons index place ih =>
      intro path activation inner h named hinner hname
      obtain ⟨child, given, more, rfl, hchild, below, -, childName, hmore, innerName⟩ := named.inside hinner
      cases path with
      | nil => exact h
      | cons origin path =>
          rw [innerName] at hname
          -- The names agree in their first origin, so the spent one lies below the same child.
          obtain ⟨rfl, hpath⟩ := List.cons_prefix_cons.mp ((List.prefix_append_right_inj _).mp hname)
          refine ih (h.2 child hchild childName) (named.child hchild) below ?_
          rw [hmore]
          exact (List.prefix_append_right_inj _).mpr hpath

/-- Nothing is noted down under a name that is spent. -/
theorem Spent.silent {place : Place} {path : List Origin} {activation after : Activation} {entries : List Entry}
    (h : Spent path activation) (named : activation.Named)
    (hact : activation.act host moment signal place = some (after, entries)) :
    ∀ entry ∈ entries, ¬ activation.frame.id ++ path <+: entry.activation := by
  obtain ⟨actor, hactor, authored⟩ := author_of_act hact
  intro entry hentry
  rw [authored entry hentry]
  exact h.not_prefix named hactor

/-- A turn gives no origin twice: who has one that was given before was under way before. -/
theorem underWay_of_given {activation child : Activation} {turn : Turn} {origin : Origin}
    (given : origin.Before activation.horizon) (hturn : activation.respond host moment signal = some turn)
    (hchild : turn.activation.child? origin.index = some child)
    (hname : child.frame.id = turn.activation.frame.id ++ [origin]) :
    activation.child? origin.index = some child := by
  rcases child_of_respond hturn hchild with
    ⟨frame, attempt, held, fanOut, rfl, e, -, old⟩ | ⟨frame, attempt, fanOut, job, input, e, -, -, rfl, fresh⟩
  · exact old
  · rw [e] at hname
    have same : frame.origin attempt origin.index = origin := List.singleton_inj.mp (List.append_cancel_left hname)
    exact absurd (same ▸ given) fresh

/-- What is spent stays so when the activation has its turn. -/
theorem Spent.respond {path : List Origin} {activation : Activation} {turn : Turn} (h : Spent path activation)
    (hturn : activation.respond host moment signal = some turn) : Spent path turn.activation := by
  have continues := respond_continues hturn
  cases path with
  | nil => exact h
  | cons origin path =>
      refine ⟨continues.horizon origin h.1, fun child hchild hname => ?_⟩
      have old := underWay_of_given h.1 hturn hchild hname
      rw [continues.id] at hname
      exact h.2 child old hname

theorem Spent.act : ∀ {place : Place} {path : List Origin} {activation after : Activation} {entries : List Entry},
    Spent path activation → activation.act host moment signal place = some (after, entries) → Spent path after := by
  intro place
  induction place with
  | nil =>
      intro path activation after entries h hact
      obtain ⟨turn, hturn, rfl, -⟩ := act_nil hact
      exact h.respond hturn
  | cons index place ih =>
      intro path activation after entries h hact
      obtain ⟨frame, attempt, fanOut, child, child', rfl, hchild, hinner, rfl⟩ := act_cons hact
      cases path with
      | nil => exact h
      | cons origin path =>
          refine ⟨h.1, fun found hfound hname => ?_⟩
          -- Whoever acts keeps its name, so what was spent under that name is spent in it.
          rcases FanOut.child?_of_replace hchild hfound with ⟨same, rfl⟩ | ⟨-, hfound⟩
          · rw [(frame_of_act hinner).1] at hname
            exact ih (h.2 child (same ▸ hchild) hname) hinner
          · exact h.2 found hfound hname

/-- To give up is to have given all origins. -/
theorem horizon_givenUp {activation : Activation} {origin : Origin} (h : origin.Before activation.horizon) :
    origin.Before activation.givenUp.horizon := by
  obtain ⟨frame, phase⟩ := activation
  cases phase <;> simp only [horizon, givenUp, Frame.origin, Origin.Before] at h ⊢ <;> omega

/-- Who has given up holds nobody. -/
theorem spent_givenUp {path : List Origin} {activation : Activation} {origin : Origin}
    (h : origin.Before activation.givenUp.horizon) : Spent (origin :: path) activation.givenUp := by
  refine ⟨h, fun child hchild _ => ?_⟩
  cases activation
  cases hchild

theorem Spent.givenUp {path : List Origin} {activation : Activation} (h : Spent path activation) :
    Spent path activation.givenUp := by
  cases path with
  | nil => exact h
  | cons origin path => exact spent_givenUp (horizon_givenUp h.1)

/-- When all is given up, the names of all jobs are spent, wherever the activation is that holds them. -/
theorem Named.spent_givenUp {place : Place} {path : List Origin} {activation inner : Activation} {origin : Origin}
    (h : activation.Named) (hinner : activation.at? place = some inner)
    (hpath : inner.frame.id = activation.frame.id ++ path) (given : origin.Before inner.givenUp.horizon) :
    activation.givenUp.Spent (path ++ [origin]) := by
  cases place with
  | nil =>
      cases hinner
      rw [List.self_eq_append_right.mp hpath]
      exact Activation.spent_givenUp given
  | cons index place =>
      obtain ⟨_, first, more, -, -, -, before, -, -, innerName⟩ := h.inside hinner
      rw [← List.append_cancel_left (innerName.symm.trans hpath)]
      exact Activation.spent_givenUp (horizon_givenUp before)

/-- What is spent inside an activation after its turn is spent in the whole tree, under the name of the activation. -/
theorem spent_of_actor : ∀ {place : Place} {activation after actor : Activation} {entries : List Entry} {turn : Turn}
    {before path : List Origin}, activation.Named →
    activation.act host moment signal place = some (after, entries) → activation.at? place = some actor →
    actor.respond host moment signal = some turn → actor.frame.id = activation.frame.id ++ before →
    Spent path turn.activation → Spent (before ++ path) after := by
  intro place
  induction place with
  | nil =>
      intro activation after actor entries turn before path _ hact hactor hturn hname h
      cases hactor
      obtain ⟨turn', hturn', rfl, -⟩ := act_nil hact
      cases hturn.symm.trans hturn'
      rw [List.self_eq_append_right.mp hname]
      exact h
  | cons index place ih =>
      intro activation after actor entries turn before path named hact hactor hturn hname h
      obtain ⟨child, origin, more, rfl, hchild, below, given, -, hmore, actorName⟩ := named.inside hactor
      obtain ⟨frame, attempt, fanOut, found, child', rfl, hfound, hinner, rfl⟩ := act_cons hact
      cases hchild.symm.trans hfound
      rw [List.append_cancel_left (hname.symm.trans actorName)]
      refine ⟨given, fun other hother _ => ?_⟩
      -- No other job has the origin of the one in which the actor is.
      rcases FanOut.child?_of_replace hfound hother with ⟨-, rfl⟩ | ⟨different, -⟩
      · exact ih (named.child hchild) hinner below hturn hmore h
      · exact absurd rfl different

end Activation

/-! ## Runs -/

namespace Run

variable {setup : Setup} {run after : Run}

/-- An entry about the settlement of the run. -/
def Closing (entry : Entry) : Prop := ∃ settlement : Settlement, ∃ millis, entry ∈ settlement.entries millis

theorem Closing.activation {entry : Entry} (h : Closing entry) : entry.activation = [] := by
  obtain ⟨_, _, noted⟩ := h
  obtain ⟨_, -, rfl⟩ := Settlement.mem_entries.mp noted
  rfl

/-- What a move does to what is under way and to the log: nothing; or all is given up; or an activation acts. -/
theorem move_effect {next : Move} (h : run.move setup next = some after) :
    (after.outermost = run.outermost ∧ after.log = run.log) ∨
    (∃ closing, (∀ entry ∈ closing, Closing entry) ∧ after.outermost = run.outermost.givenUp ∧
      after.log = closing ++ run.log) ∨
    (∃ place signal entries closing, next = .act place signal ∧
      run.outermost.act setup.host run.moment signal place = some (after.outermost, entries) ∧
      (∀ entry ∈ closing, Closing entry) ∧ after.log = closing ++ (entries.reverse ++ run.log)) := by
  rcases move_cases h with ⟨time, -, rfl⟩ | ⟨-, rfl⟩ | ⟨settlement, -, -, rfl⟩ | ⟨place, signal, rfl, -, hact⟩
  · exact Or.inl ⟨rfl, rfl⟩
  · exact Or.inl ⟨rfl, rfl⟩
  · exact Or.inr (Or.inl ⟨_, fun entry hentry => ⟨settlement, _, hentry⟩, rfl, rfl⟩)
  · obtain ⟨outermost, entries, hinner, ⟨ending, -, rfl⟩ | ⟨-, rfl⟩⟩ := act_cases hact
    · exact Or.inr (Or.inr ⟨place, signal, entries, _, rfl, hinner, fun entry hentry => ⟨.ofEnding ending, _, hentry⟩, rfl⟩)
    · exact Or.inr (Or.inr ⟨place, signal, entries, [], rfl, hinner, by simp, rfl⟩)

/-- The names of all that is under way in a run follow their places; the outermost activation has no origin. -/
structure Named (run : Run) : Prop where
  root : run.outermost.frame.id = []
  names : run.outermost.Named

theorem Named.move {next : Move} (h : run.Named) (hmove : run.move setup next = some after) : after.Named := by
  rcases move_effect hmove with ⟨same, -⟩ | ⟨_, -, same, -⟩ | ⟨place, signal, entries, _, -, hact, -, -⟩
  · exact ⟨same ▸ h.root, same ▸ h.names⟩
  · have kept : run.outermost.givenUp.frame = run.outermost.frame := by
      cases run.outermost
      rfl
    refine ⟨same ▸ kept ▸ h.root, same ▸ Activation.everywhere_givenUp ?_⟩
    cases run.outermost
    trivial
  · exact ⟨(Activation.frame_of_act hact).1.trans h.root, h.names.act hact⟩

theorem named_start (setup : Setup) : (start setup).Named :=
  ⟨rfl, Activation.everywhere_of_children trivial fun _ _ hchild => nomatch hchild⟩

theorem Named.play {later : List Move} (h : run.Named) (hlater : run.play setup later = some after) : after.Named :=
  play_induct (fun _ _ _ => Named.move) h hlater

/-- **Every run names what is under way by its place.** -/
theorem named_of_play {moves : List Move} (played : (start setup).play setup moves = some run) : run.Named :=
  (named_start setup).play played

end Run

end Workflow.Execution
