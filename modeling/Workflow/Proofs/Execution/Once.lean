import Workflow.Proofs.Execution.Payment

/-!
# `Workflow.Proofs.Execution.Once` — in an acyclic graph every state is entered once

The trail of an activation leads from state to state as the graph does.  So where the graph leads back nowhere, the trail
comes to no state twice.  The jobs that an activation holds are to run graphs inside its own one; so if no graph inside the
definition leads back anywhere, no trail in the whole run does.

## Contents
- **Trails.** `enteredIn`, the states that a trail enters, `Trail.defined` and `Trail.once`.
- **Jobs.** `Activation.Hosts`, kept by every course: the jobs under way are those of the attempt.
- **Runs.** `acyclic_of_logged` and `sound_of_play`: the errands inside an acyclic one, and what is known of whom they are
  given to.  `onTrail_of_play` from `onTrail_start` and `onTrail_move`, and `entered_nodup_of_play`.
-/

namespace Workflow.Execution

open Validation (Leads Acyclic)

/-! ## Trails -/

/-- The name of the state that an event tells was entered. -/
def entered? : Event → Option String
  | .stateEntered name _ _ => some name
  | _ => none

/-- The names of the states that were entered, in order. -/
def enteredIn (told : List Event) : List String := told.filterMap entered?

theorem enteredIn_append (told more : List Event) : enteredIn (told ++ more) = enteredIn told ++ enteredIn more :=
  List.filterMap_append

/-- A trail is inside a state only if the state is one of the graph. -/
theorem Trail.defined {errand : Errand} {told : List Event} {stand : Stand} (h : Trail errand told stand) :
    ∀ {name : String} {state : State} {caught : Option String}, stand = .inside name state caught →
      errand.graph.state? name = some state := by
  induction h with
  | enter before defined =>
      rintro name state caught ⟨⟩
      exact defined
  | handle fault next inside ih =>
      rintro name state caught ⟨⟩
      exact ih rfl
  | _ =>
      rintro name state caught ⟨⟩

/-- The states that a trail has entered lead to where it stands. -/
def LeadsTo (graph : Graph) (name : String) : Stand → Prop
  | .before next _ => Relation.TransGen (Leads graph) name next
  | .inside here _ _ => Relation.ReflTransGen (Leads graph) name here
  | .done _ => True

/-- **A trail through a graph that leads back nowhere enters no state twice,** by induction along the trail. -/
theorem Trail.once {errand : Errand} {told : List Event} {stand : Stand} (h : Trail errand told stand)
    (acyclic : ∀ name, ¬Relation.TransGen (Leads errand.graph) name name) :
    (enteredIn told).Nodup ∧ ∀ name ∈ enteredIn told, LeadsTo errand.graph name stand := by
  induction h with
  | start => exact ⟨List.nodup_nil, fun _ hname => nomatch hname⟩
  | @enter told name raw state before defined ih =>
      obtain ⟨nodup, leads⟩ := ih
      -- Had the state been entered before, it would lead back to itself.
      have fresh : name ∉ enteredIn told := fun hname => acyclic name (leads name hname)
      rw [enteredIn_append]
      refine ⟨List.nodup_append.mpr ⟨nodup, List.nodup_cons.mpr ⟨List.not_mem_nil, List.nodup_nil⟩, ?_⟩, fun other hother => ?_⟩
      · rintro other hother _ hname rfl
        exact fresh (List.mem_singleton.mp hname ▸ hother)
      · rcases List.mem_append.mp hother with old | new
        · exact (leads other old).to_reflTransGen
        · exact List.mem_singleton.mp new ▸ .refl
  | handle fault next inside ih =>
      rw [enteredIn_append, show enteredIn [.stateCaught _ fault next] = [] from rfl, List.append_nil]
      exact ih
  | leave next output inside leads heeds ih =>
      rw [enteredIn_append, show enteredIn [.stateExited _ output] = [] from rfl, List.append_nil]
      exact ⟨ih.1, fun name hname =>
        .tail' (ih.2 name hname) (Validation.leads_of_successor (inside.defined rfl) leads)⟩
  | finish output inside ih =>
      rw [enteredIn_append, show enteredIn [.stateExited _ output] = [] from rfl, List.append_nil]
      exact ⟨ih.1, fun _ _ => trivial⟩

/-! ## Jobs -/

/-- Where jobs are under way, there is at least one, and all jobs are those of the attempt. -/
def Activation.Hosts (activation : Activation) : Prop :=
  ∀ frame attempt fanOut, activation = .node frame (.fanning attempt fanOut) →
    (∃ limit, jobs frame attempt attempt.state = .ok (fanOut.jobs, limit)) ∧ fanOut.running ≠ []

section Courses

variable {host : Host} {moment : Moment} {frame frame' : Frame} {attempt attempt' : Attempt}

/-- Where nothing comes of beginning jobs at once, one of them is under way. -/
theorem busy_of_fan {fanOut fanOut' : FanOut Activation}
    (h : (fan moment frame attempt fanOut).activation = .node frame' (.fanning attempt' fanOut')) :
    fanOut'.running ≠ [] := by
  obtain ⟨filling, rfl, ⟨fault, -, e⟩ | ⟨-, -, e⟩ | ⟨-, busy, e⟩⟩ := fan_cases moment frame attempt fanOut <;>
    rw [e] at h
  · exact absurd (congrArg Activation.phase h) (recover_isLeaf fault _ _)
  · exact absurd (congrArg Activation.phase h) (conclude_isLeaf _ _ _)
  · cases h
    simpa [FanOut.isIdle] using busy

/-- **In every course the jobs are those of the attempt,** by induction over its steps. -/
theorem Course.hosts {steps : List Step} {turn : Turn} (course : Course host frame attempt steps moment turn) :
    turn.activation.Hosts := by
  induction course with
  | begun moment =>
      intro frame' attempt' fanOut fanning
      obtain ⟨rfl, rfl, js, limit, planned, rfl⟩ := filled_of_beginAttempt fanning
      rw [beginAttempt_of_jobs host moment planned] at fanning
      refine ⟨⟨limit, ?_⟩, busy_of_fan fanning⟩
      rw [(FanOut.fill_keeps _ _).1]
      exact planned
  | @inside _ _ _ _ _ index _ _ _ before hact ih =>
      rintro frame' attempt' fanOut rfl
      obtain ⟨frame, attempt, held, child, child', e, hchild, -, e'⟩ := Activation.act_cons hact
      cases e'
      obtain ⟨planned, busy⟩ := ih frame' attempt' held e
      refine ⟨planned, fun nobody => busy ?_⟩
      -- Who acts stays under way at its index.
      have same := FanOut.map_fst_replace (f := held) index child'
      rw [nobody, List.map_nil] at same
      exact List.map_eq_nil_iff.mp same.symm
  | @joined _ _ _ _ _ index before hturn ih =>
      intro frame' attempt' fanOut fanning
      rcases respond_cases hturn with ⟨e, -⟩ | ⟨frame, attempt, held, found, child, ending, -, e, hchild, -, rfl⟩
      · cases e
      · obtain ⟨rfl, rfl, value, rfl, rfl⟩ := filled_of_join fanning
        obtain ⟨⟨limit, planned⟩, -⟩ := ih _ _ held e
        have filled : (fan _ frame' attempt' (held.deliver found value)).activation = _ := fanning
        refine ⟨⟨limit, ?_⟩, busy_of_fan filled⟩
        rw [(FanOut.fill_keeps _ _).1]
        exact planned

end Courses

/-- The graphs that the jobs of an attempt run are those inside its state. -/
theorem graph_of_jobs {frame : Frame} {attempt : Attempt} {state : State} {js : List Job} {limit : Nat}
    (planned : jobs frame attempt state = .ok (js, limit)) {job : Job} (hjob : job ∈ js) :
    job.graph ∈ Validation.graphsOf state := by
  rcases jobs_cases planned with ⟨s, branches, input, rfl, rfl, -⟩ |
    ⟨s, processor, effective, items, rfl, -, -, rfl, -⟩
  · obtain ⟨graph, hgraph, rfl⟩ := List.mem_map.mp hjob
    exact hgraph
  · obtain ⟨index, _, rfl⟩ := List.mem_mapIdx.mp hjob
    exact List.mem_singleton_self processor

/-! ## Runs -/

/-- An attempt that an activation on its errand makes is one at the state at which it is. -/
theorem Retraces.defined {errand : Errand} {told : List Event} {activation : Activation} {attempt : Attempt}
    (h : Retraces errand told activation) (attempting : activation.attempt? = some attempt) :
    activation.frame.graph.state? activation.frame.state = some attempt.state := by
  obtain ⟨stand, trail, stands⟩ := h.trail
  rw [h.graph]
  obtain ⟨frame, phase⟩ := activation
  cases phase with
  | invoking | pausing | fanning =>
      cases attempting
      exact trail.defined stands
  | _ => cases attempting

/-- An activation that waits on its errand is at the state that says so. -/
theorem Retraces.waits {errand : Errand} {told : List Event} {activation : Activation} {wait : Wait}
    {effective : Json} {due : Nat} (h : Retraces errand told activation)
    (waiting : activation.phase = .waiting wait effective due) :
    activation.frame.graph.state? activation.frame.state = some (.wait wait) := by
  obtain ⟨stand, trail, stands⟩ := h.trail
  rw [h.graph]
  obtain ⟨frame, phase⟩ := activation
  cases waiting
  exact trail.defined stands

/-- An activation on its visit counts the retries in step with its retriers. -/
theorem OnVisit.inStep {host : Host} {activation : Activation} {attempt : Attempt} (h : OnVisit host activation)
    (attempting : activation.attempt? = some attempt) : attempt.counters.InStep attempt.state.recovery.retriers := by
  obtain ⟨start, state, begun, notes, visit⟩ := h attempt attempting
  obtain ⟨count, -, position⟩ := visit.sound.position
  obtain ⟨frame, phase⟩ := activation
  cases phase with
  | invoking | pausing | fanning =>
      cases attempting
      exact position.1.same ▸ position.1.counters
  | _ => cases attempting

/-- **No errand inside an acyclic one leads back anywhere,** by induction on the place of the activation. -/
theorem acyclic_of_logged {log : List Entry} :
    ∀ {place : Place} {errand own : Errand} {activation : Activation}, Logged trailOf? Retraces log errand activation →
      activation.Everywhere Activation.Hosts → Acyclic errand.graph → activation.errand? errand place = some own →
      Acyclic own.graph := by
  intro place
  induction place with
  | nil =>
      rintro errand own activation - - acyclic ⟨⟩
      exact acyclic
  | cons index place ih =>
      intro errand own activation logged hosts acyclic herrand
      obtain ⟨next, hnext, herrand⟩ := Option.bind_eq_some_iff.mp herrand
      obtain ⟨child, hchild, herrand⟩ := Option.bind_eq_some_iff.mp herrand
      obtain ⟨next', hnext', inner⟩ := logged.child hchild
      cases hnext.symm.trans hnext'
      refine ih inner (hosts.child hchild) ?_ herrand
      obtain ⟨frame, phase⟩ := activation
      cases phase with
      | fanning attempt fanOut =>
          obtain ⟨job, hjob, hinput⟩ := Option.bind_eq_some_iff.mp hnext
          obtain ⟨input, -, rfl⟩ := Option.map_eq_some_iff.mp hinput
          -- A job runs in a graph inside the one of its holder, as the plan of the attempt says.
          obtain ⟨⟨limit, planned⟩, -⟩ := hosts.self frame attempt fanOut rfl
          have attempting : (Activation.node frame (.fanning attempt fanOut)).attempt? = some attempt := rfl
          have defined := logged.self.defined attempting
          rw [logged.self.graph] at defined
          exact acyclic.inside defined (graph_of_jobs planned (List.mem_of_getElem? hjob))
      | _ => cases hchild

namespace Run

variable {setup : Setup} {run : Run}

/-- Where jobs are under way in a run, at any depth, they are those of the attempt. -/
theorem hosts_of_play {moves : List Move} (played : (start setup).play setup moves = some run) :
    run.outermost.Everywhere Activation.Hosts := by
  rintro place _ underWay frame attempt fanOut rfl
  obtain ⟨steps, moment, turn, course, same⟩ := course_of_play played underWay
  exact course.hosts frame attempt fanOut same

/-- Whatever is under way in a run of an acyclic definition has an errand that leads back nowhere, which it retraces. -/
theorem errand_of_play (acyclic : Acyclic setup.definition.graph) {moves : List Move}
    (played : (start setup).play setup moves = some run) {place : Place} {activation : Activation}
    (underWay : run.outermost.at? place = some activation) :
    ∃ errand, Acyclic errand.graph ∧ Retraces errand (run.trace activation.frame.id) activation := by
  have logged := logged_of_play (retraces setup.host) trailOf?_inner played
  obtain ⟨errand, herrand, told⟩ := logged.told place activation underWay
  exact ⟨errand, acyclic_of_logged logged (hosts_of_play played) acyclic herrand, told⟩

/-- **Everything under way in a run of an acyclic definition is sound.** -/
theorem sound_of_play (acyclic : Acyclic setup.definition.graph) {moves : List Move}
    (played : (start setup).play setup moves = some run) : run.outermost.Everywhere Activation.Sound := by
  intro place activation underWay
  obtain ⟨errand, noCycle, told⟩ := errand_of_play acyclic played underWay
  refine ⟨told.graph ▸ noCycle.states, fun attempt attempting => ⟨told.defined attempting, ?_⟩,
    fun wait effective due => told.waits, fun attempt fanOut fanning => ?_⟩
  · exact OnVisit.inStep (onVisit_of_play played place activation underWay) attempting
  · have names := (named_of_play played).names place activation underWay
    obtain ⟨frame, phase⟩ := activation
    cases fanning
    exact names.1

/-- What bears a name has told a trail through a graph that leads back nowhere. -/
def OnTrail (run : Run) (id : Id) : Prop := ∃ errand stand, Acyclic errand.graph ∧ Trail errand (run.trace id) stand

/-- Nothing has been told before the first move. -/
theorem onTrail_start (acyclic : Acyclic setup.definition.graph) (id : Id) : (start setup).OnTrail id := by
  have nothing : (start setup).trace id = [] := by
    refine shown_of_others fun entry hentry _ => ?_
    rw [List.mem_singleton.mp hentry]
    rfl
  refine ⟨setup.errand, .before setup.errand.graph.startAt setup.errand.input, acyclic, ?_⟩
  rw [nothing]
  exact .start

/-- A move adds to what one activation has told, and carries its trail on. -/
theorem onTrail_move (acyclic : Acyclic setup.definition.graph) {moves : List Move} {next : Move} {after : Run} {id : Id}
    (reached : (start setup).play setup moves = some run) (told : run.OnTrail id) (hmove : run.move setup next = some after) :
    after.OnTrail id := by
  rcases move_effect hmove with
    ⟨-, same⟩ | ⟨closing, last, -, hlog⟩ | ⟨place, signal, entries, closing, -, hact, last, hlog⟩
  · rwa [OnTrail, trace, same]
  · rwa [OnTrail, trace, hlog, shown_closing trailOf?_inner last]
  · obtain ⟨actor, turn, hactor, hturn, -, rfl⟩ := Activation.actor_of_act hact
    rw [OnTrail, trace, hlog, shown_closing trailOf?_inner last, shown_append]
    -- What anybody else tells does not show under this name.
    by_cases own : actor.frame.id = id
    · subst own
      obtain ⟨errand, noCycle, retraced⟩ := errand_of_play acyclic reached hactor
      obtain ⟨stand, trail, -⟩ := respond_traces retraced hturn
      rw [shown_own]
      exact ⟨errand, stand, noCycle, trail⟩
    · have silent : shown trailOf? (turn.notes.map fun note => (⟨actor.frame.id, note⟩ : Entry)).reverse id = [] := by
        refine shown_of_others fun entry hentry same => ?_
        obtain ⟨note, -, rfl⟩ := List.mem_map.mp (List.mem_reverse.mp hentry)
        exact absurd same own
      rwa [silent, List.append_nil]

/-- **Whatever bears a name in a run of an acyclic definition has told a trail through a graph that leads back nowhere,**
    also once it is no longer under way: by induction over the moves. -/
theorem onTrail_of_play (acyclic : Acyclic setup.definition.graph) {moves : List Move}
    (played : (start setup).play setup moves = some run) (id : Id) : run.OnTrail id :=
  reached_induct (P := fun r => r.OnTrail id) (fun _ _ _ _ reached told hmove => onTrail_move acyclic reached told hmove)
    (onTrail_start acyclic id) played

/-- **No activation enters a state twice** in a run of an acyclic definition. -/
theorem entered_nodup_of_play (acyclic : Acyclic setup.definition.graph) {moves : List Move}
    (played : (start setup).play setup moves = some run) (id : Id) : (enteredIn (run.trace id)).Nodup := by
  obtain ⟨errand, stand, noCycle, trail⟩ := onTrail_of_play acyclic played id
  exact (trail.once noCycle.states).1

end Run

end Workflow.Execution
