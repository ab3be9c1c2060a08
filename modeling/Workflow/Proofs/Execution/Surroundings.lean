import Workflow.Proofs.Execution.Lineage
import Workflow.Proofs.Execution.Reading

/-!
# `Workflow.Proofs.Execution.Surroundings` — every state reads the context object of its own place

Branches and iterations work on copies of the context object of the state that runs them, so that each activation has an
object of its own.  What it tells depends on where the activation is: in which state, and inside which iteration of which
map.  Nothing else that happens in the run shows.

## Contents
- **Activations.** `Activation.Placed`, an activation whose context object suits its state and the iteration around it,
  kept by every turn, by way of one lemma for each function of a turn.
- **Places.** `mapAt`, the section for a place; `Surrounded`, with `Surrounded.act`; and `Told`, which iteration a section
  has to tell of, with `Surrounded.told`.
- **Copies.** `frame_of_act_elsewhere`: whoever acts leaves the activations alone that are not inside it; and
  `attempt_of_join`: to take in a job leaves the attempt as it is.
- **Runs.** `surrounded_of_play`, and `context_suits`.
-/

namespace Workflow.Execution

open Context (Keeps HasName)

/-! ## Activations -/

/-- An activation that is in its state, with a context object that says so. -/
structure Frame.Inside (start : Json) (iteration : Option Json) (frame : Frame) : Prop where
  keeps : Keeps start iteration frame.context
  name : HasName frame.context frame.state

/-- The context object tells of no task. -/
abbrev Frame.Tokenless (frame : Frame) : Prop := frame.context.field? "Task" = none

/-- The attempt is not one of a task, for which a token may have been issued. -/
abbrev Attempt.Single (attempt : Attempt) : Prop := ∀ task, attempt.state ≠ .task task

/-- **The context object of an activation suits its place,** given the object at the start of the run and the section that
    is to tell of an iteration.  Inside a state it tells the name of the state; only where a handler was invoked can it
    tell of a task.  The jobs under way, and those that are still to begin, are the ones that the state has planned. -/
def Activation.Placed (start : Json) (iteration : Option Json) : Activation → Prop
  | .node frame phase =>
    match phase with
    | .ready | .ended _ => Keeps start iteration frame.context
    | .waiting .. => frame.Inside start iteration ∧ frame.Tokenless
    | .invoking attempt _ => frame.Inside start iteration ∧ ∃ task, attempt.state = .task task
    | .pausing attempt _ => frame.Inside start iteration ∧ (attempt.Single → frame.Tokenless)
    | .fanning attempt fanOut => frame.Inside start iteration ∧ frame.Tokenless ∧
        ∃ limit, jobs frame attempt attempt.state = .ok (fanOut.jobs, limit)

section Turns

variable {start : Json} {iteration : Option Json} {host : Host} {moment : Moment} {frame : Frame} {attempt : Attempt}

theorem Activation.Placed.keeps {activation : Activation} (h : activation.Placed start iteration) :
    Keeps start iteration activation.frame.context := by
  obtain ⟨frame, phase⟩ := activation
  cases phase with
  | ready => exact h
  | ended ending => exact h
  | _ => exact h.1.keeps

theorem entering_inside (host : Host) (moment : Moment) (keeps : Keeps start iteration frame.context) :
    (frame.entering host moment).Inside start iteration ∧ (frame.entering host moment).Tokenless :=
  ⟨⟨keeps.enter _ _, Context.hasName_enter ..⟩, Context.field?_enter_task keeps.sorted _ _⟩

theorem retrying_inside (inside : frame.Inside start iteration) (single : attempt.Single → frame.Tokenless) :
    (frame.retrying attempt).Inside start iteration ∧ (attempt.Single → (frame.retrying attempt).Tokenless) :=
  ⟨⟨inside.keeps.setRetryCount _, inside.name.setRetryCount _⟩,
    fun h => (Context.field?_setRetryCount_of_ne _ _ (by decide)).trans (single h)⟩

theorem stop_placed (keeps : Keeps start iteration frame.context) (ending : Ending) :
    (stop frame ending).activation.Placed start iteration := keeps

theorem leave_placed (keeps : Keeps start iteration frame.context) (next : Option String) (output : Json) :
    (leave frame next output).activation.Placed start iteration := by
  cases next <;> exact keeps

theorem leaveOrFail_placed (keeps : Keeps start iteration frame.context)
    (outcome : DataFlow.Outcome (Option String × Json)) :
    (leaveOrFail frame outcome).activation.Placed start iteration := by
  cases outcome with
  | error fault => exact stop_placed keeps _
  | ok left => exact leave_placed keeps left.1 left.2

theorem recover_placed (inside : frame.Inside start iteration) (single : attempt.Single → frame.Tokenless)
    (fault : Fault) : (recover moment frame attempt fault).activation.Placed start iteration := by
  rcases recover_cases moment frame attempt fault with ⟨_, _, _, -, h⟩ | ⟨_, _, _, -, h⟩ | ⟨_, _, -, h⟩
  · rw [h]
    exact ⟨inside, single⟩
  · rw [h]
    exact leave_placed inside.keeps _ _
  · rw [h]
    exact stop_placed inside.keeps _

theorem conclude_placed (inside : frame.Inside start iteration) (single : attempt.Single → frame.Tokenless)
    (result : Json) : (conclude moment frame attempt result).activation.Placed start iteration := by
  rcases conclude_cases moment frame attempt result with ⟨_, -, h⟩ | ⟨_, _, -, h⟩ | ⟨_, -, h⟩
  · rw [h]
    exact recover_placed inside single _
  · rw [h]
    exact leave_placed inside.keeps _ _
  · rw [h]
    exact stop_placed inside.keeps _

/-- Jobs that begin are among those that were planned. -/
theorem fan_placed (inside : frame.Inside start iteration) (tokenless : frame.Tokenless) (fanOut : FanOut Activation)
    {limit : Nat} (planned : jobs frame attempt attempt.state = .ok (fanOut.jobs, limit)) :
    (fan moment frame attempt fanOut).activation.Placed start iteration := by
  obtain ⟨filling, rfl, ⟨_, -, h⟩ | ⟨-, -, h⟩ | ⟨-, -, h⟩⟩ := fan_cases moment frame attempt fanOut
  · rw [h]
    exact recover_placed inside (fun _ => tokenless) _
  · rw [h]
    exact conclude_placed inside (fun _ => tokenless) _
  · rw [h]
    refine ⟨inside, tokenless, limit, ?_⟩
    rw [(FanOut.fill_keeps _ _).1]
    exact planned

theorem join_placed (inside : frame.Inside start iteration) (tokenless : frame.Tokenless) {fanOut : FanOut Activation}
    {limit : Nat} (planned : jobs frame attempt attempt.state = .ok (fanOut.jobs, limit)) (index : Nat)
    (ending : Ending) : (join moment frame attempt fanOut index ending).activation.Placed start iteration := by
  cases ending with
  | output value => exact fan_placed inside tokenless (fanOut.deliver index value) planned
  | fault fault => exact recover_placed inside (fun _ => tokenless) _
  | cancelled => exact stop_placed inside.keeps _

/-- Only a task gets a token, and only when its handler is invoked. -/
theorem beginAttempt_placed (inside : frame.Inside start iteration) (single : attempt.Single → frame.Tokenless) :
    (beginAttempt host moment frame attempt).activation.Placed start iteration := by
  rcases beginAttempt_cases host moment frame attempt with
    ⟨_, _, -, -, h⟩ | ⟨task, asked, e, -, h⟩ | ⟨_, -, -, h⟩ | ⟨js, limit, planned, h⟩
  · rw [h]
    exact recover_placed inside single _
  · rw [h]
    exact ⟨⟨inside.keeps.issueToken _, inside.name.setSection (by decide)⟩, task, e⟩
  · rw [h]
    exact recover_placed inside single _
  · rw [h]
    refine fan_placed inside (single fun task e => ?_) (.ofJobs js limit) planned
    rcases jobs_cases planned with ⟨_, _, _, e', -, -⟩ | ⟨_, _, _, _, e', -, -, -, -⟩
    · cases e.symm.trans e'
    · cases e.symm.trans e'

theorem begin_placed (inside : frame.Inside start iteration) (tokenless : frame.Tokenless) (state : State) :
    (begin host moment frame state).activation.Placed start iteration := by
  cases state with
  | succeed s => exact leaveOrFail_placed inside.keeps _
  | fail s => exact stop_placed inside.keeps _
  | choice s => exact leaveOrFail_placed inside.keeps _
  | pass s => exact leaveOrFail_placed inside.keeps _
  | wait s =>
      rcases begin_wait_cases host moment frame s with ⟨_, -, h⟩ | ⟨_, _, -, h⟩
      · rw [h]
        exact stop_placed inside.keeps _
      · rw [h]
        exact ⟨inside, tokenless⟩
  | task task => exact beginAttempt_placed inside fun _ => tokenless
  | parallel s branches => exact beginAttempt_placed inside fun _ => tokenless
  | map s processor => exact beginAttempt_placed inside fun _ => tokenless

theorem enter_placed (keeps : Keeps start iteration frame.context) :
    (enter host moment frame).activation.Placed start iteration := by
  unfold enter
  split
  · exact stop_placed keeps _
  · obtain ⟨inside, tokenless⟩ := entering_inside host moment keeps
    exact begin_placed inside tokenless _

/-- **Every turn leaves an activation with a context object that suits its place.** -/
theorem respond_placed {signal : Signal} {activation : Activation} {turn : Turn}
    (h : activation.Placed start iteration) (hturn : activation.respond host moment signal = some turn) :
    turn.activation.Placed start iteration := by
  rcases respond_cases hturn with ⟨-, hproceed⟩ | ⟨frame, attempt, fanOut, index, _, ending, -, rfl, -, -, rfl⟩
  · have keeps := h.keeps
    obtain ⟨frame, phase⟩ := activation
    rcases proceed_cases hproceed with ⟨-, rfl⟩ | ⟨-, ⟨-, rfl⟩ | ⟨_, _, _, -, -, rfl⟩ |
      ⟨attempt, _, _, e, -, rfl⟩ | ⟨attempt, _, _, e, -, rfl⟩ | ⟨attempt, _, e, -, rfl⟩⟩
    · exact stop_placed keeps _
    · exact enter_placed keeps
    · exact leaveOrFail_placed keeps _
    · cases e
      -- Only a task is invoked, and it has no jobs.
      obtain ⟨inside, task, e⟩ := h
      exact conclude_placed inside (fun single => absurd e (single task)) _
    · cases e
      obtain ⟨inside, task, e⟩ := h
      exact recover_placed inside (fun single => absurd e (single task)) _
    · cases e
      obtain ⟨inside, single⟩ := retrying_inside h.1 h.2
      exact beginAttempt_placed inside single
  · obtain ⟨inside, tokenless, limit, planned⟩ := h
    exact join_placed inside tokenless planned index ending

/-- An activation that has a turn evaluates in its state; and unless a handler has been invoked, nothing tells it of a
    task. -/
theorem during_inside {signal : Signal} {activation : Activation} {turn : Turn} (h : activation.Placed start iteration)
    (hturn : activation.respond host moment signal = some turn) :
    (activation.frame.during host moment activation.phase).Inside start iteration ∧
      ((∀ attempt invocation, activation.phase ≠ .invoking attempt invocation) →
        (∀ attempt due, activation.phase = .pausing attempt due → attempt.Single) →
        (activation.frame.during host moment activation.phase).Tokenless) := by
  obtain ⟨frame, phase⟩ := activation
  cases phase with
  | ready =>
      obtain ⟨inside, tokenless⟩ := entering_inside host moment h
      exact ⟨inside, fun _ _ => tokenless⟩
  | waiting wait effective due => exact ⟨h.1, fun _ _ => h.2⟩
  | invoking attempt invocation => exact ⟨h.1, fun idle _ => absurd rfl (idle attempt invocation)⟩
  | pausing attempt due =>
      obtain ⟨inside, single⟩ := retrying_inside h.1 h.2
      exact ⟨inside, fun _ pause => single (pause attempt due rfl)⟩
  | fanning attempt fanOut => exact ⟨h.1, fun _ _ => h.2.1⟩
  | ended ending => cases signal <;> cases hturn

end Turns

/-! ## Places -/

namespace Activation

/-- The section that tells a job of an iteration: a map tells of the item, and a parallel state passes on what it was told
    itself. -/
def mapFor (outside : Option Json) (index : Nat) : Activation → Option Json
  | .node frame (.fanning ⟨.map s _, _⟩ _) =>
    match frame.items s with
    | .ok items => (items[index]?).map (Context.iterationSection index)
    | .error _ => none
  | _ => outside

/-- What a job is told depends on the attempt that holds it, not on how far the other jobs are. -/
theorem mapFor_eq {frame : Frame} {attempt : Attempt} (held fanOut : FanOut Activation) (outside : Option Json)
    (index : Nat) : (Activation.node frame (.fanning attempt fanOut)).mapFor outside index =
      (Activation.node frame (.fanning attempt held)).mapFor outside index := by
  obtain ⟨state, counters⟩ := attempt
  cases state <;> rfl

/-- The section that tells of the innermost iteration around a place, given the one at the start. -/
def mapAt (outside : Option Json) : Place → Activation → Option Json
  | [], _ => outside
  | index :: place, activation =>
    match activation.child? index with
    | some job => job.mapAt (activation.mapFor outside index) place
    | none => outside

theorem mapAt_cons {outside : Option Json} {index : Nat} {place : Place} {activation job : Activation}
    (hjob : activation.child? index = some job) :
    activation.mapAt outside (index :: place) = job.mapAt (activation.mapFor outside index) place := by
  rw [mapAt, hjob]

/-- **Everything under way has a context object that suits its place.** -/
def Surrounded (start : Json) (outside : Option Json) (activation : Activation) : Prop :=
  ∀ place inner, activation.at? place = some inner → inner.Placed start (activation.mapAt outside place)

variable {start : Json} {outside : Option Json} {host : Host} {moment : Moment} {signal : Signal}

theorem Surrounded.self {activation : Activation} (h : activation.Surrounded start outside) :
    activation.Placed start outside := h [] activation rfl

theorem Surrounded.child {activation job : Activation} (h : activation.Surrounded start outside) (index : Nat)
    (hjob : activation.child? index = some job) : job.Surrounded start (activation.mapFor outside index) := by
  intro place inner hinner
  rw [← mapAt_cons hjob]
  exact h (index :: place) inner (Option.bind_eq_some_iff.mpr ⟨job, hjob, hinner⟩)

theorem surrounded_of_children {activation : Activation} (h : activation.Placed start outside)
    (children : ∀ index job, activation.child? index = some job →
      job.Surrounded start (activation.mapFor outside index)) : activation.Surrounded start outside := by
  intro place inner hinner
  cases place with
  | nil => cases hinner; exact h
  | cons index place =>
      obtain ⟨job, hjob, hinside⟩ := Option.bind_eq_some_iff.mp hinner
      rw [mapAt_cons hjob]
      exact children index job hjob place inner hinside

/-- A job begins with a copy of the context object of the state that runs it, or with the object of its item. -/
theorem born_surrounded {frame : Frame} {attempt : Attempt} {fanOut : FanOut Activation} {index : Nat} {job : Job}
    (h : (Activation.node frame (.fanning attempt fanOut)).Placed start outside) (hjob : fanOut.jobs[index]? = some job)
    (input : Json) : (frame.beginJob attempt index job input).Surrounded start
      ((Activation.node frame (.fanning attempt fanOut)).mapFor outside index) := by
  obtain ⟨inside, -, limit, planned⟩ := h
  refine surrounded_of_children ?_ fun _ _ hchild => nomatch hchild
  show Keeps start _ job.context
  obtain ⟨state, counters⟩ := attempt
  rcases jobs_cases planned with ⟨s, branches, _, rfl, hjobs, -⟩ | ⟨s, processor, effective, items, rfl, hinput, hitems,
    hjobs, -⟩
  · -- A branch is given the context object of its holder.
    rw [hjobs, List.getElem?_map] at hjob
    obtain ⟨graph, -, rfl⟩ := Option.map_eq_some_iff.mp hjob
    exact inside.keeps
  · -- An iteration is given it with a section for its item.
    rw [hjobs, List.getElem?_mapIdx] at hjob
    obtain ⟨item, hitem, rfl⟩ := Option.map_eq_some_iff.mp hjob
    have selected : frame.items s = .ok items := DataFlow.bind_eq_ok.mpr ⟨effective, hinput, hitems⟩
    have told : (Activation.node frame (.fanning ⟨.map s processor, counters⟩ fanOut)).mapFor outside index =
        some (Context.iterationSection index item) := by
      simp only [mapFor, selected, hitem, Option.map_some]
    rw [told]
    exact inside.keeps.forItem index item

/-- After a turn the jobs that are left are told what they were told, and new ones are told of their item. -/
theorem Surrounded.respond {activation : Activation} {turn : Turn} (h : activation.Surrounded start outside)
    (hturn : activation.respond host moment signal = some turn) : turn.activation.Surrounded start outside := by
  have placed := respond_placed h.self hturn
  refine surrounded_of_children placed fun index job hjob => ?_
  rcases child_of_respond hturn hjob with
    ⟨frame, attempt, held, fanOut, rfl, hafter, -, hheld⟩ | ⟨frame, attempt, fanOut, new, input, hafter, hnew, -, rfl, -⟩
  · -- The job was there before, in the same attempt.
    rw [hafter, mapFor_eq held fanOut]
    exact h.child index hheld
  · rw [hafter] at placed ⊢
    exact born_surrounded placed hnew input

/-- **Whoever acts, everything keeps a context object that suits its place.** -/
theorem Surrounded.act : ∀ {place : Place} {outside : Option Json} {activation after : Activation} {entries : List Entry},
    activation.Surrounded start outside → activation.act host moment signal place = some (after, entries) →
      after.Surrounded start outside := by
  intro place
  induction place with
  | nil =>
      intro outside activation after entries h hact
      obtain ⟨turn, hturn, rfl, -⟩ := act_nil hact
      exact h.respond hturn
  | cons index place ih =>
      intro outside activation after entries h hact
      obtain ⟨frame, attempt, fanOut, child, child', rfl, hchild, hinner, rfl⟩ := act_cons hact
      refine surrounded_of_children h.self fun other job hjob => ?_
      rw [mapFor_eq fanOut]
      rcases FanOut.child?_of_replace hchild hjob with ⟨rfl, rfl⟩ | ⟨-, held⟩
      · exact ih (h.child other hchild) hinner
      · exact h.child other held

theorem surrounded_givenUp {activation : Activation} (h : activation.Placed start outside) :
    activation.givenUp.Surrounded start outside := by
  have keeps := h.keeps
  obtain ⟨frame, phase⟩ := activation
  exact surrounded_of_children keeps fun _ _ hchild => nomatch hchild

/-- **Which iteration a section of the context object has to tell of,** at a place inside an activation: the innermost one
    around the place.  Outside all iterations it is the section from outside. -/
inductive Told : Option Json → Activation → Place → Option Json → Prop
  | here {outside : Option Json} {activation : Activation} : Told outside activation [] outside
  | branch {outside told : Option Json} {frame : Frame} {attempt : Attempt} {fanOut : FanOut Activation} {index : Nat}
      {job : Activation} {place : Place} {s : Parallel} {branches : List Graph} (state : attempt.state = .parallel s branches)
      (hjob : fanOut.child? index = some job) (inside : Told outside job place told) :
      Told outside (.node frame (.fanning attempt fanOut)) (index :: place) told
  | iteration {outside told : Option Json} {frame : Frame} {attempt : Attempt} {fanOut : FanOut Activation} {index : Nat}
      {job : Activation} {place : Place} {s : MapState} {processor : Graph} {items : List Json} {item : Json}
      (state : attempt.state = .map s processor) (selected : frame.items s = .ok items)
      (here : items[index]? = some item) (hjob : fanOut.child? index = some job)
      (inside : Told (some (Context.iterationSection index item)) job place told) :
      Told outside (.node frame (.fanning attempt fanOut)) (index :: place) told

/-- The section that suits a place tells of the innermost iteration around it. -/
theorem Surrounded.told : ∀ {place : Place} {outside : Option Json} {activation inner : Activation},
    activation.Surrounded start outside → activation.Named → activation.at? place = some inner →
      Told outside activation place (activation.mapAt outside place) := by
  intro place
  induction place with
  | nil => exact fun _ _ _ => .here
  | cons index place ih =>
      intro outside activation inner h named hinner
      obtain ⟨job, hjob, hinside⟩ := Option.bind_eq_some_iff.mp hinner
      have inside := ih (h.child _ hjob) (named.child hjob) hinside
      rw [mapAt_cons hjob]
      obtain ⟨frame, phase⟩ := activation
      cases phase with
      | fanning attempt fanOut =>
          obtain ⟨-, -, limit, planned⟩ := h.self
          obtain ⟨accounted, -⟩ := named.self
          obtain ⟨state, counters⟩ := attempt
          rcases jobs_cases planned with ⟨s, branches, _, rfl, -, -⟩ | ⟨s, processor, effective, items, rfl, hinput, hitems,
            hjobs, -⟩
          · exact .branch rfl hjob inside
          · have selected : frame.items s = .ok items := DataFlow.bind_eq_ok.mpr ⟨effective, hinput, hitems⟩
            -- Whoever is under way has begun, so its index is that of an item.
            have below : index < items.length := by
              have begun := Nat.lt_of_lt_of_le (accounted.lt_of_child? hjob) accounted.begun_le
              rwa [hjobs, List.length_mapIdx] at begun
            have here : items[index]? = some items[index] := List.getElem?_eq_getElem below
            simp only [mapFor, selected, here, Option.map_some] at inside ⊢
            exact .iteration rfl selected here hjob inside
      | _ => cases hjob

/-! ## Copies -/

/-- **Whoever acts leaves the frames of all alone that are not inside it,** those of its siblings and of the activations
    around it included. -/
theorem frame_of_act_elsewhere : ∀ {place other : Place} {activation after : Activation} {entries : List Entry},
    activation.act host moment signal place = some (after, entries) → ¬ place <+: other →
      (after.at? other).map (·.frame) = (activation.at? other).map (·.frame) := by
  intro place
  induction place with
  | nil => exact fun _ apart => absurd (List.nil_prefix) apart
  | cons index place ih =>
      intro other activation after entries hact apart
      obtain ⟨frame, attempt, fanOut, child, child', rfl, hchild, hinner, rfl⟩ := act_cons hact
      cases other with
      | nil => rfl
      | cons first other =>
          show (((fanOut.replace index child').child? first).bind (at? other)).map _ =
            ((fanOut.child? first).bind (at? other)).map _
          rw [FanOut.child?_replace]
          by_cases same : first = index
          · subst same
            rw [if_pos rfl, hchild]
            exact ih hinner fun inside => apart (List.cons_prefix_cons.mpr ⟨rfl, inside⟩)
          · rw [if_neg same]

end Activation

/-- To take in a job leaves the attempt as it is, as long as it goes on. -/
theorem attempt_of_join {host : Host} {moment : Moment} {frame frame' : Frame} {attempt attempt' : Attempt}
    {fanOut fanOut' : FanOut Activation} {index : Nat} {turn : Turn}
    (hturn : (Activation.node frame (.fanning attempt fanOut)).respond host moment (.join index) = some turn)
    (h : turn.activation = .node frame' (.fanning attempt' fanOut')) :
    frame' = frame ∧ attempt' = attempt ∧ fanOut'.jobs = fanOut.jobs := by
  obtain ⟨ending, -, rfl⟩ := Option.map_eq_some_iff.mp hturn
  obtain ⟨rfl, rfl, value, rfl, rfl⟩ := filled_of_join h
  exact ⟨rfl, rfl, (FanOut.fill_keeps _ _).1⟩

/-! ## Runs -/

namespace Run

variable {setup : Setup} {run after : Run} {place job : Place}

/-- **In every run, everything under way has a context object that suits its place.** -/
theorem surrounded_of_play {moves : List Move} (played : (start setup).play setup moves = some run) :
    run.outermost.Surrounded (startContext setup) ((startContext setup).field? "Map") := by
  refine play_induct (P := fun r => r.outermost.Surrounded (startContext setup) ((startContext setup).field? "Map"))
    ?_ ?_ played
  · intro next before following h hmove
    rcases move_cases hmove with ⟨_, -, rfl⟩ | ⟨-, rfl⟩ | ⟨_, -, -, rfl⟩ | ⟨_, _, -, -, hact⟩
    · exact h
    · exact h
    · exact Activation.surrounded_givenUp h.self
    · obtain ⟨outermost, entries, hinner, ⟨_, -, rfl⟩ | ⟨-, rfl⟩⟩ := act_cases hact
      · exact h.act hinner
      · exact h.act hinner
  · have keeps := Context.keeps_self (Context.sorted_start setup.runId setup.machine
      (Timestamp.render setup.host.epochMillis) setup.input setup.seed)
    exact Activation.surrounded_of_children keeps fun _ _ hchild => nomatch hchild

/-- The move is one of a job at a place, or of something inside it; or none of any activation. -/
def Move.Within (job : Place) : Move → Prop
  | .act place _ => job <+: place
  | .overrule => False
  | _ => True

/-- The move is one of something inside the activation at a place; or the activation takes in a job. -/
def Move.Under (place : Place) : Move → Prop
  | .act target signal => place <+: target ∧ (target = place → ∃ index, signal = .join index)
  | .overrule => False
  | _ => True

/-- What a job does shows nowhere outside it. -/
theorem frame_of_within {next : Move} (within : next.Within job) (hmove : run.move setup next = some after)
    {other : Place} (apart : ¬ job <+: other) :
    (after.outermost.at? other).map (·.frame) = (run.outermost.at? other).map (·.frame) := by
  cases next with
  | wait time => cases hmove; rfl
  | abort => cases hmove; rfl
  | overrule => cases within
  | act place signal =>
      have elsewhere : ¬ place <+: other := fun inside => apart (List.IsPrefix.trans within inside)
      have free : run.Free setup place := fun outermost => absurd (outermost ▸ List.nil_prefix) elsewhere
      obtain ⟨outermost, entries, hinner, ⟨_, -, rfl⟩ | ⟨-, rfl⟩⟩ := act_cases (act_of_move free hmove)
      · exact Activation.frame_of_act_elsewhere hinner elsewhere
      · exact Activation.frame_of_act_elsewhere hinner elsewhere

theorem frame_of_within_play {later : List Move} (within : ∀ next ∈ later, next.Within job)
    (hlater : run.play setup later = some after) {other : Place} (apart : ¬ job <+: other) :
    (after.outermost.at? other).map (·.frame) = (run.outermost.at? other).map (·.frame) := by
  induction later generalizing run with
  | nil => cases hlater; rfl
  | cons next rest ih =>
      obtain ⟨between, hmove, hrest⟩ := Option.bind_eq_some_iff.mp hlater
      have kept := ih (fun move hmem => within move (List.mem_cons_of_mem _ hmem)) hrest
      exact kept.trans (frame_of_within (within next List.mem_cons_self) hmove apart)

/-- The activation at a place is in the same attempt as it was, with the same jobs planned, or in none any more. -/
def Attempts (place : Place) (frame : Frame) (attempt : Attempt) (planned : List Job) (run : Run) : Prop :=
  ∀ frame' attempt' fanOut', run.outermost.at? place = some (.node frame' (.fanning attempt' fanOut')) →
    frame' = frame ∧ attempt' = attempt ∧ fanOut'.jobs = planned

/-- **What goes on under an attempt leaves the attempt as it is,** however many jobs are taken in. -/
theorem attempts_of_under {frame : Frame} {attempt : Attempt} {planned : List Job} {next : Move}
    (under : next.Under place) (hmove : run.move setup next = some after)
    (h : Attempts place frame attempt planned run) : Attempts place frame attempt planned after := by
  cases next with
  | wait time => cases hmove; exact h
  | abort => cases hmove; exact h
  | overrule => cases under
  | act target signal =>
      obtain ⟨⟨inner, rfl⟩, joining⟩ := under
      intro frame' attempt' fanOut' hat
      by_cases here : inner = []
      · subst here
        rw [List.append_nil] at hmove joining
        obtain ⟨index, rfl⟩ := joining rfl
        -- The activation itself has its turn, unless the run is settled from outside.
        rcases move_cases hmove with ⟨_, e, -⟩ | ⟨e, -⟩ | ⟨_, -, -, rfl⟩ | ⟨_, _, e, -, hact⟩
        · cases e
        · cases e
        · have leaf : run.outermost.givenUp.IsLeaf := by
            obtain ⟨_, _, ⟨_, _⟩, _, _⟩ := run
            exact fun _ _ e => nomatch e
          exact absurd rfl (Activation.everywhere_givenUp leaf place _ hat attempt' fanOut')
        · cases e
          obtain ⟨outermost, entries, hinner, hafter⟩ := act_cases hact
          obtain ⟨actor, turn, hactor, hturn, hnow, -⟩ := Activation.actor_of_act hinner
          have changed : after.outermost = outermost := by
            rcases hafter with ⟨_, -, rfl⟩ | ⟨-, rfl⟩ <;> rfl
          rw [changed, hnow] at hat
          rcases respond_cases hturn with ⟨e, -⟩ | ⟨_, _, fanOut, _, _, _, -, rfl, -, -, -⟩
          · cases e
          · obtain ⟨rfl, rfl, same⟩ := attempt_of_join hturn (Option.some.inj hat)
            obtain ⟨rfl, rfl, planned⟩ := h _ _ fanOut hactor
            exact ⟨rfl, rfl, same.trans planned⟩
      · have free : run.Free setup (place ++ inner) := fun e => absurd (List.append_eq_nil_iff.mp e).2 here
        obtain ⟨outermost, entries, hinner, hafter⟩ := act_cases (act_of_move free hmove)
        obtain ⟨_, _, fanOut, _, hbefore, hnow, same⟩ := Activation.around_of_act here hinner
        have changed : after.outermost = outermost := by
          rcases hafter with ⟨_, -, rfl⟩ | ⟨-, rfl⟩ <;> rfl
        rw [changed] at hat
        cases hnow.symm.trans hat
        obtain ⟨rfl, rfl, planned⟩ := h _ _ fanOut hbefore
        exact ⟨rfl, rfl, same.trans planned⟩

theorem attempts_of_under_play {frame : Frame} {attempt : Attempt} {planned : List Job} {later : List Move}
    (under : ∀ next ∈ later, next.Under place) (hlater : run.play setup later = some after)
    (h : Attempts place frame attempt planned run) : Attempts place frame attempt planned after := by
  induction later generalizing run with
  | nil => cases hlater; exact h
  | cons next rest ih =>
      obtain ⟨between, hmove, hrest⟩ := Option.bind_eq_some_iff.mp hlater
      exact ih (fun move hmem => under move (List.mem_cons_of_mem _ hmem)) hrest
        (attempts_of_under (under next List.mem_cons_self) hmove h)

/-- **An evaluation reads the context object of its own place.** It is one of the state that the activation is at, whose
    name the object tells.  All sections but those of the state, of the task and of the map are as at the start of the
    run.  The object is that of the activation and tells of the innermost iteration around it, as the start did outside all
    iterations; or an iteration is prepared, and the object tells of the item of that one.  It tells of no task unless the
    activation is at a task, and has invoked its handler or is about to try again. -/
structure Suits (setup : Setup) (run : Run) (place : Place) (activation : Activation) (evaluation : Evaluation) :
    Prop where
  state : evaluation.state = activation.frame.state
  name : HasName evaluation.context activation.frame.state
  others : ∀ key, key ≠ "State" → key ≠ "Task" → key ≠ "Map" →
    evaluation.context.field? key = (startContext setup).field? key
  own : evaluation.preparing = none →
    evaluation.context = (activation.frame.during setup.host run.moment activation.phase).context
  around : evaluation.preparing = none →
    Activation.Told ((startContext setup).field? "Map") run.outermost place (evaluation.context.field? "Map")
  prepared : ∀ s index, evaluation.preparing = some (s, index) → ∃ items item,
    (activation.frame.during setup.host run.moment activation.phase).items s = .ok items ∧
      items[index]? = some item ∧ evaluation.context.field? "Map" = some (Context.iterationSection index item)
  tokenless : (∀ attempt invocation, activation.phase ≠ .invoking attempt invocation) →
    (∀ attempt due, activation.phase = .pausing attempt due → attempt.Single) → evaluation.context.field? "Task" = none

/-- Whatever is evaluated for an activation that is inside its state reads an object that suits its place. -/
theorem suits_of_isFor {activation : Activation} {evaluation : Evaluation} {iteration : Option Json}
    (told : Activation.Told ((startContext setup).field? "Map") run.outermost place iteration)
    (inside : (activation.frame.during setup.host run.moment activation.phase).Inside (startContext setup) iteration)
    (tokenless : (∀ attempt invocation, activation.phase ≠ .invoking attempt invocation) →
      (∀ attempt due, activation.phase = .pausing attempt due → attempt.Single) →
        (activation.frame.during setup.host run.moment activation.phase).Tokenless)
    (h : evaluation.IsFor (activation.frame.during setup.host run.moment activation.phase)) :
    Suits setup run place activation evaluation := by
  have same : (activation.frame.during setup.host run.moment activation.phase).state = activation.frame.state := by
    cases activation.phase <;> rfl
  obtain ⟨state, context, preparing⟩ := evaluation
  obtain ⟨rfl, reads⟩ := h
  cases preparing with
  | none =>
      have reads : context = (activation.frame.during setup.host run.moment activation.phase).context := reads
      -- An evaluation for the state itself sees the context object of the activation.
      subst reads
      exact {
        state := same
        name := same ▸ inside.name
        others := inside.keeps.others
        own := fun _ => rfl
        around := fun _ => inside.keeps.map.symm ▸ told
        prepared := fun _ _ e => nomatch e
        tokenless := tokenless }
  | some prepared =>
      obtain ⟨items, item, selected, here, rfl⟩ := reads
      -- One for an item sees a section about that item in it.
      have keeps := inside.keeps.forItem prepared.2 item
      exact {
        state := same
        name := same ▸ inside.name.setSection (by decide)
        others := keeps.others
        own := fun e => nomatch e
        around := fun e => nomatch e
        prepared := fun s index e => by
          cases e
          exact ⟨items, item, selected, here, keeps.map⟩
        tokenless := fun idle single =>
          (Context.field?_setSection_of_ne _ _ (by decide)).trans (tokenless idle single) }

/-- **Every state reads the context object of its own place.** Whatever the caller adds to the object, and in whatever order
    activations act: whoever has its turn in a run, at any depth, all that is evaluated in that turn reads an object that
    suits its place.  What a job does, for however long, leaves every activation outside it as it is, with its context
    object; and however many jobs an attempt has taken in, it has the frame that it had, and so has every job that is
    still to begin the context object that was planned for it. -/
theorem context_suits (setup : Setup) (moves : List Move) (run : Run)
    (played : (start setup).play setup moves = some run) (place : Place) (activation : Activation)
    (underWay : run.outermost.at? place = some activation) :
    (∀ signal, (Watched.respond setup.host run.moment signal activation).map (·.value) =
        activation.respond setup.host run.moment signal ∧
      ∀ turn, Watched.respond setup.host run.moment signal activation = some turn →
        ∀ evaluation ∈ turn.seen, Suits setup run place activation evaluation) ∧
    (∀ later after, (∀ next ∈ later, next.Within place) → run.play setup later = some after →
      ∀ other, ¬ place <+: other →
        (after.outermost.at? other).map (·.frame) = (run.outermost.at? other).map (·.frame)) ∧
    (∀ frame attempt fanOut, activation = .node frame (.fanning attempt fanOut) →
      ∀ later after, (∀ next ∈ later, next.Under place) → run.play setup later = some after →
        Attempts place frame attempt fanOut.jobs after) := by
  refine ⟨fun signal => ⟨Watched.value_respond setup.host run.moment signal activation, ?_⟩, ?_, ?_⟩
  · intro turn hturn evaluation seen
    have surrounded := surrounded_of_play played
    have responds : activation.respond setup.host run.moment signal = some turn.value := by
      rw [← Watched.value_respond, hturn]
      rfl
    obtain ⟨inside, tokenless⟩ := during_inside (surrounded place activation underWay) responds
    have told := surrounded.told (named_of_play played).names underWay
    exact suits_of_isFor told inside tokenless (Watched.reads_respond hturn evaluation seen)
  · exact fun later after within hlater other apart => frame_of_within_play within hlater apart
  · rintro frame attempt fanOut rfl later after under hlater
    refine attempts_of_under_play under hlater fun frame' attempt' fanOut' hat => ?_
    cases underWay.symm.trans hat
    exact ⟨rfl, rfl, rfl⟩

/-- A run of a map whose iterations run a branch each, in which a template asks for the item.  The caller adds sections of
    the map and of its own. -/
def mixed : Setup where
  definition :=
    let look : Pass := ⟨none, .whole, .whole, .whole, some (.object [("item.$", .str "$$.Map.Item.Value")]), none, ⟨none, true⟩⟩
    let branch : Graph := ⟨none, "Look", [("Look", .pass look)]⟩
    let around : Parallel := ⟨none, .whole, .whole, .whole, none, none, .none, ⟨none, true⟩⟩
    let each : MapState := ⟨none, none, none, none, .whole, .whole, .whole, none, .none, ⟨none, true⟩⟩
    let iteration : Graph := ⟨none, "Around", [("Around", .parallel around [branch])]⟩
    ⟨⟨none, "Each", [("Each", .map each iteration)]⟩, none, none⟩
  host := ⟨⟨[]⟩, [], 0⟩
  machine := Setup.defaultMachine
  runId := "run"
  input := .arr [.int 7, .int 8]
  seed := some (.obj [("Map", .str "none"), ("Tenant", .str "a")])
  chance := default

/-- The branch of the second iteration evaluates its template; neither the first iteration nor the one around the branch
    gets another context object by that. -/
theorem context_suits_mixed : ∃ run branch turn evaluation after frame attempt fanOut,
    (start mixed).play mixed [.act [] .proceed, .act [1] .proceed] = some run ∧
    run.outermost.at? [1, 0] = some branch ∧
    Watched.respond mixed.host run.moment .proceed branch = some turn ∧ evaluation ∈ turn.seen ∧
    Suits mixed run [1, 0] branch evaluation ∧
    run.play mixed [.act [1, 0] .proceed] = some after ∧
    (after.outermost.at? [0]).map (·.frame) = (run.outermost.at? [0]).map (·.frame) ∧
    run.outermost.at? [1] = some (.node frame (.fanning attempt fanOut)) ∧
    Attempts [1] frame attempt fanOut.jobs after := by
  have possible : ((start mixed).play mixed [.act [] .proceed, .act [1] .proceed]).any (fun run =>
      (run.outermost.at? [1]).any (fun holder => (holder.child? 0).isSome) &&
      (run.play mixed [.act [1, 0] .proceed]).isSome &&
      (run.outermost.at? [1, 0]).any fun branch =>
        (Watched.respond mixed.host run.moment .proceed branch).any fun turn => turn.seen.length == 1) = true := by
    decide +kernel
  obtain ⟨run, played, hrun⟩ := Option.any_eq_true _ _ |>.mp possible
  obtain ⟨hbefore, hbranch⟩ := Bool.and_eq_true_iff.mp hrun
  obtain ⟨hholder, hlater⟩ := Bool.and_eq_true_iff.mp hbefore
  obtain ⟨after, hafter⟩ := Option.isSome_iff_exists.mp hlater
  obtain ⟨branch, underWay, hresponds⟩ := Option.any_eq_true _ _ |>.mp hbranch
  obtain ⟨turn, hturn, hseen⟩ := Option.any_eq_true _ _ |>.mp hresponds
  obtain ⟨evaluation, hevaluation⟩ := List.length_eq_one_iff.mp (beq_iff_eq.mp hseen)
  have seen : evaluation ∈ turn.seen := hevaluation ▸ List.mem_singleton_self evaluation
  obtain ⟨holder, hat, hfanning⟩ := Option.any_eq_true _ _ |>.mp hholder
  obtain ⟨frame, phase⟩ := holder
  cases phase with
  | fanning attempt fanOut =>
      obtain ⟨evaluations, elsewhere, -⟩ := context_suits mixed _ run played [1, 0] branch underWay
      obtain ⟨-, -, attempts⟩ := context_suits mixed _ run played [1] _ hat
      refine ⟨run, branch, turn, evaluation, after, frame, attempt, fanOut, played, underWay, hturn, seen,
        (evaluations .proceed).2 turn hturn evaluation seen, hafter,
        elsewhere _ after (fun next hnext => ?_) hafter [0] (by decide), hat,
        attempts frame attempt fanOut rfl _ after (fun next hnext => ?_) hafter⟩
      · cases List.mem_singleton.mp hnext
        exact List.prefix_refl [1, 0]
      · cases List.mem_singleton.mp hnext
        exact ⟨⟨[0], rfl⟩, fun e => absurd e (by decide)⟩
  | _ => cases hfanning

end Run

end Workflow.Execution
