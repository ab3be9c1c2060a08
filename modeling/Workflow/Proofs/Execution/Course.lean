import Workflow.Proofs.Execution.Recovery

/-!
# `Workflow.Proofs.Execution.Course` — what comes of the jobs of an attempt

The jobs of an attempt have their turns in any order, and are taken in as they end, in any order.  Each of them does
what it would do alone, since a turn of one leaves the others as they are.  So what comes of the attempt depends on
what comes of each job alone: all outputs in the order of the jobs, or the first fault that was taken in.

## Contents
- **Courses.** `Course`, what can happen in an attempt, and `ownSteps`, the part of one job in it.
- **Jobs alone.** `Ran`, how a job ended alone, and `Kept`, the account of what the jobs have done, which every step
  keeps.
- **Outcomes.** `Outcome`, what can come of a course, `Course.outcome`, and `fan_out_lossless`.
- **Runs.** `course_of_visit` and `course_of_play`: every fan-out is on a course.
-/

namespace Workflow.Execution

/-! ## Courses -/

/-- A turn of the activation at a place. -/
structure Step where
  moment : Moment
  signal : Signal
  place : Place

/-- The steps inside the job at an index, as the job itself makes them. -/
def ownSteps (index : Nat) (steps : List Step) : List Step :=
  steps.filterMap fun step =>
    match step.place with
    | [] => none
    | first :: place => if first = index then some { step with place } else none

/-- The indices of the jobs that were taken in, in that order. -/
def joined (steps : List Step) : List Nat :=
  steps.filterMap fun step =>
    match step.place, step.signal with
    | [], .join index => some index
    | _, _ => none

/-- The activation after steps made in turn, if they are possible. -/
def Activation.steps (host : Host) : List Step → Activation → Option Activation
  | [], activation => some activation
  | step :: rest, activation =>
    (activation.act host step.moment step.signal step.place).bind fun after => steps host rest after.1

/-- **The course of an attempt.** It begins, and then its jobs have turns and are taken in as they end.  The indices
    are the steps so far, the moment of the last turn, and what the activation came to in it. -/
inductive Course (host : Host) (frame : Frame) (attempt : Attempt) : List Step → Moment → Turn → Prop
  | begun (moment : Moment) : Course host frame attempt [] moment (beginAttempt host moment frame attempt)
  | inside {steps : List Step} {last moment : Moment} {turn : Turn} {signal : Signal} {index : Nat}
      {place : Place} {after : Activation} {entries : List Entry} (before : Course host frame attempt steps last turn)
      (hact : turn.activation.act host moment signal (index :: place) = some (after, entries)) :
      Course host frame attempt (steps ++ [⟨moment, signal, index :: place⟩]) moment ⟨after, []⟩
  | joined {steps : List Step} {last moment : Moment} {turn next : Turn} {index : Nat}
      (before : Course host frame attempt steps last turn)
      (hturn : turn.activation.respond host moment (.join index) = some next) :
      Course host frame attempt (steps ++ [⟨moment, .join index, []⟩]) moment next

theorem ownSteps_inside (index other : Nat) (steps : List Step) (moment : Moment) (signal : Signal) (place : Place) :
    ownSteps other (steps ++ [⟨moment, signal, index :: place⟩]) =
      ownSteps other steps ++ if index = other then [⟨moment, signal, place⟩] else [] := by
  unfold ownSteps
  rw [List.filterMap_append]
  congr 1
  split <;> rename_i e <;> simp [e]

@[simp] theorem ownSteps_join (other : Nat) (steps : List Step) (moment : Moment) (signal : Signal) :
    ownSteps other (steps ++ [⟨moment, signal, []⟩]) = ownSteps other steps := by
  simp [ownSteps]

@[simp] theorem joined_inside (index : Nat) (steps : List Step) (moment : Moment) (signal : Signal) (place : Place) :
    joined (steps ++ [⟨moment, signal, index :: place⟩]) = joined steps := by
  simp [joined]

@[simp] theorem joined_join (index : Nat) (steps : List Step) (moment : Moment) :
    joined (steps ++ [⟨moment, .join index, []⟩]) = joined steps ++ [index] := by
  simp [joined]

theorem steps_append {host : Host} {more : List Step} :
    ∀ {before : List Step} {activation between after : Activation},
      activation.steps host before = some between → between.steps host more = some after →
      activation.steps host (before ++ more) = some after := by
  intro before
  induction before with
  | nil => intro activation between after h h'; cases h; exact h'
  | cons step rest ih =>
      intro activation between after h h'
      obtain ⟨first, hfirst, hrest⟩ := Option.bind_eq_some_iff.mp h
      exact Option.bind_eq_some_iff.mpr ⟨first, hfirst, ih hrest h'⟩

/-! ## Jobs alone -/

section Alone

variable (host : Host) (frame : Frame) (attempt : Attempt) (js : List Job)

/-- What the job at an index has come to by its own steps alone. -/
def Alone (steps : List Step) (index : Nat) (after : Activation) : Prop :=
  ∃ job input, js[index]? = some job ∧ job.input = .ok input ∧
    (frame.beginJob attempt index job input).steps host (ownSteps index steps) = some after

/-- How the job at an index ended by its own steps alone. -/
def Ran (steps : List Step) (index : Nat) (ending : Ending) : Prop :=
  ∃ after, Alone host frame attempt js steps index after ∧ after.ending? = some ending

/-- **The account of what the jobs have done.** Those under way are what they have come to alone, those taken in are
    told by their outputs, and those that have not begun have done nothing. -/
structure Kept (limit : Nat) (steps : List Step) (fanOut : FanOut Activation) : Prop where
  jobs : fanOut.jobs = js
  limit : fanOut.limit = limit
  accounted : fanOut.Accounted
  idle : ∀ index, fanOut.begun ≤ index → ownSteps index steps = []
  underWay : ∀ index child, fanOut.child? index = some child → Alone host frame attempt js steps index child
  outputs : ∀ e ∈ fanOut.outputs, Ran host frame attempt js steps e.1 (.output e.2)
  joined : fanOut.outputs.map (·.1) = (joined steps).reverse

end Alone

variable {host : Host} {moment : Moment} {frame : Frame} {attempt : Attempt} {js : List Job} {limit : Nat}
variable {steps : List Step} {fanOut : FanOut Activation}

theorem kept_ofJobs : Kept host frame attempt js limit [] (.ofJobs js limit) where
  jobs := rfl
  limit := rfl
  accounted := FanOut.accounted_ofJobs js limit
  idle _ _ := rfl
  underWay index child hchild := by simp [FanOut.ofJobs, FanOut.child?] at hchild
  outputs e he := by cases he
  joined := rfl

/-- A job that begins has done nothing yet. -/
theorem Kept.fill (h : Kept host frame attempt js limit steps fanOut) :
    Kept host frame attempt js limit steps (fanOut.fill (frame.beginJob attempt)).fanOut := by
  obtain ⟨sameJobs, sameLimit, sameOutputs⟩ := FanOut.fill_keeps (frame.beginJob attempt) fanOut
  refine ⟨sameJobs.trans h.jobs, sameLimit.trans h.limit, h.accounted.fill _, fun index hindex => ?_,
    fun index child hchild => ?_, sameOutputs ▸ h.outputs, sameOutputs ▸ h.joined⟩
  · exact h.idle index (Nat.le_trans (FanOut.begun_le_fill _ fanOut) hindex)
  · rcases FanOut.child?_fill hchild with before | ⟨job, input, hindex, hjob, hinput, rfl⟩
    · exact h.underWay index child before
    · refine ⟨job, input, h.jobs ▸ hjob, hinput, ?_⟩
      -- It begins only now, so none of the steps so far is its own.
      rw [h.idle index hindex]
      rfl

/-- A step inside a job is a step of that job alone. -/
theorem Kept.inside {index : Nat} {child child' : Activation} {signal : Signal} {place : Place}
    {entries : List Entry} (h : Kept host frame attempt js limit steps fanOut)
    (hchild : fanOut.child? index = some child)
    (hact : child.act host moment signal place = some (child', entries)) :
    Kept host frame attempt js limit (steps ++ [⟨moment, signal, index :: place⟩]) (fanOut.replace index child') := by
  have others : ∀ other, other ≠ index →
      ownSteps other (steps ++ [⟨moment, signal, index :: place⟩]) = ownSteps other steps := by
    intro other hother
    rw [ownSteps_inside, if_neg (Ne.symm hother), List.append_nil]
  refine ⟨h.jobs, h.limit, h.accounted.replace index child', fun other hother => ?_, fun other found hfound => ?_,
    fun e he => ?_, by rw [joined_inside]; exact h.joined⟩
  · -- Those that have not begun come after all that have, so also after the one that acts.
    have begun := h.accounted.lt_of_child? hchild
    have later : other ≠ index := by
      have : fanOut.begun ≤ other := hother
      omega
    rw [others other later]
    exact h.idle other hother
  · rcases FanOut.child?_of_replace hchild hfound with ⟨rfl, rfl⟩ | ⟨hother, hfound⟩
    · obtain ⟨job, input, hjob, hinput, hsteps⟩ := h.underWay other child hchild
      refine ⟨job, input, hjob, hinput, ?_⟩
      rw [ownSteps_inside, if_pos rfl]
      exact steps_append hsteps (by simp [Activation.steps, hact])
    · unfold Alone
      rw [others other hother]
      exact h.underWay other found hfound
  · -- A job that was taken in is no longer under way, so that the step is not its own.
    have taken : e.1 ≠ index := by
      intro same
      have present : index ∈ fanOut.running.map (·.1) :=
        List.mem_map_of_mem (f := (·.1)) (FanOut.mem_of_child? hchild)
      have distinct := (List.nodup_append.mp h.accounted.nodup).2.2 index present e.1 (List.mem_map_of_mem he)
      exact distinct same.symm
    unfold Ran Alone
    rw [others e.1 taken]
    exact h.outputs e he

theorem Alone.join {index joined : Nat} {after : Activation} (h : Alone host frame attempt js steps index after) :
    Alone host frame attempt js (steps ++ [⟨moment, .join joined, []⟩]) index after := by
  unfold Alone
  rw [ownSteps_join]
  exact h

/-- To take a job in is no step of any job. -/
theorem Ran.join {index joined : Nat} {ending : Ending} (h : Ran host frame attempt js steps index ending) :
    Ran host frame attempt js (steps ++ [⟨moment, .join joined, []⟩]) index ending := by
  obtain ⟨after, alone, hending⟩ := h
  exact ⟨after, alone.join, hending⟩

/-- A job that is taken in is told by its output. -/
theorem Kept.deliver {index : Nat} {child : Activation} {value : Json}
    (h : Kept host frame attempt js limit steps fanOut) (hchild : fanOut.child? index = some child)
    (hending : child.ending? = some (.output value)) :
    Kept host frame attempt js limit (steps ++ [⟨moment, .join index, []⟩]) (fanOut.deliver index value) := by
  refine ⟨h.jobs, h.limit, h.accounted.deliver hchild value, fun other hother => ?_, fun other found hfound => ?_,
    fun e he => ?_, ?_⟩
  · rw [ownSteps_join]
    exact h.idle other hother
  · rw [FanOut.child?_deliver] at hfound
    split at hfound
    · cases hfound
    · exact (h.underWay other found hfound).join
  · rcases List.mem_cons.mp he with rfl | before
    · exact ⟨child, (h.underWay index child hchild).join, hending⟩
    · exact (h.outputs e before).join
  · rw [joined_join, List.reverse_append, ← h.joined]
    rfl

/-! ## Outcomes -/

/-- **What can come of the jobs of an attempt.** Some are under way; or all have been taken in, and their outputs are
    passed on in the order of the jobs; or one has failed after others that did not, and its fault is the fault of
    the attempt; or one was cancelled. -/
inductive Outcome (host : Host) (frame : Frame) (attempt : Attempt) (js : List Job) (limit : Nat) :
    List Step → Moment → Turn → Prop
  | underWay {steps : List Step} {moment : Moment} {fanOut : FanOut Activation} {notes : List Note}
      (kept : Kept host frame attempt js limit steps fanOut) (busy : fanOut.running ≠ []) :
      Outcome host frame attempt js limit steps moment ⟨.node frame (.fanning attempt fanOut), notes⟩
  | succeeded {steps : List Step} {moment : Moment} {value : Nat → Json} {notes : List Note}
      (all : (joined steps).Perm (List.range js.length))
      (ran : ∀ index < js.length, Ran host frame attempt js steps index (.output (value index))) :
      Outcome host frame attempt js limit steps moment
        ((conclude moment frame attempt (.arr ((List.range js.length).map value))).after notes)
  | failed {before : List Step} {moment : Moment} {index : Nat} {fault : Fault} {notes : List Note}
      (ran : Ran host frame attempt js before index (.fault fault))
      (earlier : ∀ other ∈ joined before, ∃ value, Ran host frame attempt js before other (.output value)) :
      Outcome host frame attempt js limit (before ++ [⟨moment, .join index, []⟩]) moment
        ((recover moment frame attempt (jobFault attempt.state fault)).after notes)
  | cancelled {before : List Step} {moment : Moment} {index : Nat}
      (ran : Ran host frame attempt js before index .cancelled) :
      Outcome host frame attempt js limit (before ++ [⟨moment, .join index, []⟩]) moment (stop frame .cancelled)

/-- Jobs begin until none is left or there is no room; when none is under way, all have been taken in. -/
theorem fan_outcome (kept : Kept host frame attempt js limit steps fanOut) (room : limit = 0 → js = [])
    (told : ∀ job ∈ js, ∃ input, job.input = .ok input) (notes : List Note) :
    Outcome host frame attempt js limit steps moment ((fan moment frame attempt fanOut).after notes) := by
  have after := kept.fill
  obtain ⟨filling, rfl, ⟨fault, hfault, -⟩ | ⟨hfault, idle, e⟩ | ⟨-, busy, e⟩⟩ :=
    fan_cases moment frame attempt fanOut
  · -- The inputs of all jobs can be told, so that no filling fails.
    obtain ⟨job, hjob, untold⟩ := FanOut.fault_fill hfault
    obtain ⟨input, hinput⟩ := told job (kept.jobs ▸ hjob)
    cases hinput.symm.trans untold
  · rw [e]
    generalize hf : (fanOut.fill (frame.beginJob attempt)).fanOut = f at *
    have nobody : f.running = [] := List.isEmpty_iff.mp idle
    have begun : f.begun = f.jobs.length := by
      rcases FanOut.full_fill kept.accounted.begun_le hfault with all | full
      · rw [← hf, all, (FanOut.fill_keeps _ fanOut).1]
      · rw [hf, nobody, List.length_nil, kept.limit] at full
        -- No room where nobody is under way is a limit of zero, which is set only for no jobs at all.
        have none : f.jobs = [] := after.jobs.trans (room (Nat.le_zero.mp full))
        have le := after.accounted.begun_le
        rw [none, List.length_nil] at le ⊢
        exact Nat.le_zero.mp le
    have all := after.accounted.outputs_of_idle begun idle
    have hresults : f.results = .arr ((List.range js.length).map f.outputAt) := by rw [FanOut.results, after.jobs]
    rw [after.jobs] at all
    rw [hresults, Turn.after_after]
    refine Outcome.succeeded ?_ fun index hindex => ?_
    · rw [after.joined] at all
      exact (List.reverse_perm _).symm.trans all
    · exact after.outputs _ (FanOut.outputAt_mem (all.mem_iff.mpr (List.mem_range.mpr hindex)))
  · rw [e]
    exact .underWay after (by simpa [FanOut.isIdle] using busy)

/-- Where a job is under way, nothing has come of the attempt yet. -/
theorem Outcome.underWay_of_child {turn : Turn} {index : Nat} {child : Activation}
    (h : Outcome host frame attempt js limit steps moment turn)
    (hchild : turn.activation.child? index = some child) :
    ∃ fanOut notes, turn = ⟨.node frame (.fanning attempt fanOut), notes⟩ ∧
      Kept host frame attempt js limit steps fanOut ∧ fanOut.running ≠ [] := by
  cases h with
  | underWay kept busy => exact ⟨_, _, rfl, kept, busy⟩
  | succeeded => cases ((conclude_isLeaf _).child? index).symm.trans hchild
  | failed => cases ((recover_isLeaf _).child? index).symm.trans hchild
  | cancelled => cases hchild

/-- **Every course comes to one of these outcomes,** by induction over its steps. -/
theorem Course.outcome {turn : Turn} (planned : jobs frame attempt attempt.state = .ok (js, limit))
    (room : limit = 0 → js = []) (told : ∀ job ∈ js, ∃ input, job.input = .ok input)
    (course : Course host frame attempt steps moment turn) :
    Outcome host frame attempt js limit steps moment turn := by
  induction course with
  | begun moment =>
      rw [beginAttempt_of_jobs host moment planned]
      exact fan_outcome kept_ofJobs room told []
  | @inside _ _ _ _ _ index _ _ _ before hact ih =>
      obtain ⟨_, _, fanOut, child, child', e, hchild, hinner, rfl⟩ := Activation.act_cons hact
      obtain ⟨_, notes, rfl, kept, busy⟩ := ih.underWay_of_child (by rw [e]; exact hchild)
      cases e
      -- Whoever acts stays under way, so that somebody is.
      refine .underWay (kept.inside hchild hinner) fun nobody => busy ?_
      have same := FanOut.map_fst_replace (f := fanOut) index child'
      rw [nobody, List.map_nil] at same
      exact List.map_eq_nil_iff.mp same.symm
  | @joined _ _ _ _ _ index before hturn ih =>
      rcases respond_cases hturn with ⟨e, -⟩ | ⟨_, _, fanOut, found, child, ending, e, e', hchild, hending, rfl⟩
      · cases e
      · have same : index = found := Signal.join.inj e
        subst same
        obtain ⟨_, notes, rfl, kept, -⟩ := ih.underWay_of_child (by rw [e']; exact hchild)
        cases e'
        cases ending with
        | output value => exact fan_outcome (kept.deliver hchild hending) room told _
        | fault fault =>
            refine .failed ⟨child, kept.underWay index child hchild, hending⟩ fun other hother => ?_
            -- Those taken in before are told by the outputs, which hold no fault.
            have taken : other ∈ fanOut.outputs.map (·.1) := by
              rw [kept.joined]
              exact List.mem_reverse.mpr hother
            obtain ⟨e, he, rfl⟩ := List.mem_map.mp taken
            exact ⟨e.2, kept.outputs e he⟩
        | cancelled => exact .cancelled ⟨child, kept.underWay index child hchild, hending⟩

/-- How a job ends that has the given result. -/
def Ending.ofResult : Except Fault Json → Ending
  | .ok value => .output value
  | .error failure => .fault failure

/-- The jobs of a state are its branches, or the items that it works on, in order.  How many of the items may be under
    way changes neither the jobs nor how they begin. -/
def Deals (frame : Frame) (attempt : Attempt) (js : List Job) : State → Prop
  | .parallel _ branches => js.map (·.graph) = branches
  | .map s processor =>
    (∃ effective items, DataFlow.input s.inputPath frame.raw frame.context = .ok effective ∧
      DataFlow.items s.itemsPath effective frame.context = .ok items ∧
      js = items.mapIdx (jobOfItem frame attempt s processor effective)) ∧
    ∀ most other, other = { attempt with state := .map { s with maxConcurrency := most } processor } →
      (∃ limit, jobs frame other other.state = .ok (js, limit)) ∧ frame.beginJob other = frame.beginJob attempt
  | _ => False

theorem deals_of_jobs {state : State} (planned : jobs frame attempt state = .ok (js, limit)) :
    Deals frame attempt js state := by
  rcases jobs_cases planned with ⟨s, branches, input, rfl, rfl, -⟩ |
    ⟨s, processor, effective, items, rfl, heffective, hitems, rfl, -⟩
  · simp [Deals, Function.comp_def]
  · refine ⟨⟨effective, items, heffective, hitems, rfl⟩, ?_⟩
    rintro most _ rfl
    refine ⟨⟨limitOf { s with maxConcurrency := most } items, ?_⟩, rfl⟩
    exact DataFlow.bind_eq_ok.mpr ⟨effective, heffective, DataFlow.bind_eq_ok.mpr ⟨items, hitems, rfl⟩⟩

/-- **A fan-out loses nothing, whatever the order.** Let each job end alone, by its own steps, with a result that is
    given.  As long as the attempt is under way some job is, and one that has ended can be taken in.  If all results
    are outputs, the array of them in the order of the jobs is passed on, after each job was taken in once.  Otherwise
    the attempt fails with the fault of the first job taken in that failed, wrapped unless the job broke off.  Since the jobs of a map state and how they
    begin are the same for every limit, so are their results and the array. -/
theorem fan_out_lossless (host : Host) (frame : Frame) (attempt : Attempt) (js : List Job) (limit : Nat)
    (planned : jobs frame attempt attempt.state = .ok (js, limit))
    (told : ∀ job ∈ js, ∃ input, job.input = .ok input) (steps : List Step) (moment : Moment) (turn : Turn)
    (course : Course host frame attempt steps moment turn) (result : Nat → Except Fault Json)
    (alone : ∀ index ending, Ran host frame attempt js steps index ending → ending = .ofResult (result index)) :
    Deals frame attempt js attempt.state ∧
    ((∃ fanOut index child, turn.activation = .node frame (.fanning attempt fanOut) ∧ index < js.length ∧
        fanOut.child? index = some child ∧
        ∀ moment, child.ending?.isSome → (turn.activation.respond host moment (.join index)).isSome) ∨
      (∃ value notes, (∀ index < js.length, result index = .ok (value index)) ∧
        (joined steps).Perm (List.range js.length) ∧
        turn = (conclude moment frame attempt (.arr ((List.range js.length).map value))).after notes) ∨
      (∃ before index fault notes, steps = before ++ [⟨moment, .join index, []⟩] ∧
        result index = .error fault ∧ (∀ other ∈ joined before, ∃ value, result other = .ok value) ∧
        turn = (recover moment frame attempt (jobFault attempt.state fault)).after notes ∧
        (fault.trap? = none → jobFault attempt.state fault = fault.wrap Fault.Name.branchFailed))) := by
  have output : ∀ index value, Ran host frame attempt js steps index (.output value) → result index = .ok value := by
    intro index value ran
    have ended := alone index _ ran
    cases hresult : result index with
    | ok other => rw [hresult] at ended; cases ended; rfl
    | error fault => rw [hresult] at ended; cases ended
  refine ⟨deals_of_jobs planned, ?_⟩
  cases course.outcome planned (room_of_jobs planned) told with
  | @underWay _ _ fanOut notes kept busy =>
      obtain ⟨c, hc⟩ := List.exists_mem_of_ne_nil _ busy
      obtain ⟨child, hchild⟩ := FanOut.child?_of_mem (List.mem_map_of_mem (f := (·.1)) hc)
      refine Or.inl ⟨fanOut, c.1, child, rfl, ?_, hchild, fun moment ended => ?_⟩
      · exact kept.jobs ▸ Nat.lt_of_lt_of_le (kept.accounted.lt_of_child? hchild) kept.accounted.begun_le
      · simpa [Activation.respond, hchild] using ended
  | succeeded all ran =>
      exact Or.inr (Or.inl ⟨_, _, fun index hindex => output index _ (ran index hindex), all, rfl⟩)
  | @failed before _ index fault notes ran earlier =>
      refine Or.inr (Or.inr ⟨before, index, fault, notes, rfl, ?_, fun other hother => ?_, rfl, jobFault_of_named _⟩)
      · have ended := alone index _ ran.join
        cases hresult : result index with
        | ok value => rw [hresult] at ended; cases ended
        | error other => rw [hresult] at ended; cases ended; rfl
      · obtain ⟨value, ranOther⟩ := earlier other hother
        exact ⟨value, output other value ranOther.join⟩
  | @cancelled before _ index ran =>
      -- A job that ends with a result is not cancelled.
      have ended := alone index _ ran.join
      cases hresult : result index <;> rw [hresult] at ended <;> cases ended

/-- A graph that ends at once, with a number. -/
def numbered (number : Nat) : Graph :=
  let pass : Pass := ⟨none, .whole, .whole, .whole, none, some (.int number), ⟨none, true⟩⟩
  ⟨none, "Number", [("Number", .pass pass)]⟩

/-- An attempt at a state with two branches, each of which ends with its own number. -/
def pairedAttempt : Attempt :=
  let pair : Parallel := ⟨none, .whole, .whole, .whole, none, none, .none, ⟨none, true⟩⟩
  ⟨.parallel pair [numbered 0, numbered 1], .start 0⟩

def pairedHost : Host := ⟨⟨[]⟩, [], 0⟩

def pairedFrame : Frame := ⟨[], ⟨none, "Pair", [("Pair", pairedAttempt.state)]⟩, .empty, "Pair", .null, 1, default⟩

def pairedJobs : List Job := [⟨numbered 0, .empty, .ok .null⟩, ⟨numbered 1, .empty, .ok .null⟩]

def pairedMoment : Moment := ⟨0, false, fun _ => []⟩

/-- The second branch has its turn, and is taken in, before the first. -/
def pairedSteps : List Step :=
  [⟨pairedMoment, .proceed, [1]⟩, ⟨pairedMoment, .join 1, []⟩, ⟨pairedMoment, .proceed, [0]⟩,
    ⟨pairedMoment, .join 0, []⟩]

theorem fan_out_lossless_paired : ∃ turn value notes,
    Course pairedHost pairedFrame pairedAttempt pairedSteps pairedMoment turn ∧
      (∀ index < 2, value index = .int index) ∧
      turn = (conclude pairedMoment pairedFrame pairedAttempt (.arr ((List.range 2).map value))).after notes := by
  have course : Course pairedHost pairedFrame pairedAttempt pairedSteps pairedMoment _ :=
    .joined (.inside (.joined (.inside (.begun pairedMoment) rfl) rfl) rfl) rfl
  have planned : jobs pairedFrame pairedAttempt pairedAttempt.state = .ok (pairedJobs, 2) := rfl
  have told : ∀ job ∈ pairedJobs, ∃ input, job.input = .ok input := by
    simp [pairedJobs]
  have alone : ∀ index ending, Ran pairedHost pairedFrame pairedAttempt pairedJobs pairedSteps index ending →
      ending = .ofResult (.ok (.int index)) := by
    rintro index ending ⟨after, ⟨job, input, hjob, hinput, hsteps⟩, hending⟩
    match index with
    | 0 =>
        cases hjob
        cases hinput
        cases hsteps
        cases hending
        rfl
    | 1 =>
        cases hjob
        cases hinput
        cases hsteps
        cases hending
        rfl
    | index + 2 => simp [pairedJobs] at hjob
  obtain ⟨-, ⟨_, _, _, underWay, -⟩ | ⟨value, notes, all, -, e⟩ | ⟨_, _, _, _, -, failed, -⟩⟩ :=
    fan_out_lossless _ _ _ _ _ planned told _ _ _ course (fun index => .ok (.int index)) alone
  · cases underWay
  · exact ⟨_, value, notes, course, fun index hindex => (Except.ok.inj (all index hindex)).symm, e⟩
  · cases failed

/-! ## Runs -/

/-- **Every fan-out of a visit is on a course,** by induction over what happens in the visit. -/
theorem course_of_visit {start : Frame} {state : State} {begun : List (Frame × Attempt)} {told : List Note}
    {activation : Activation} (visit : Visit host start state begun told activation) :
    ∀ frame attempt fanOut, activation = .node frame (.fanning attempt fanOut) →
      ∃ steps moment turn, Course host frame attempt steps moment turn ∧ turn.activation = activation := by
  induction visit with
  | @entered moment turn defined recoverable going hturn =>
      intro frame attempt fanOut fanning
      have began := (congrArg Turn.activation (enter_of_respond going hturn)).trans (activation_enter defined recoverable)
      -- An attempt begins its fan-out anew, and with it a course.
      obtain ⟨rfl, rfl, -⟩ := filled_of_beginAttempt (began.symm.trans fanning)
      exact ⟨[], moment, _, .begun moment, began.symm⟩
  | @retried begun told frame attempt due moment turn before going hturn ih =>
      intro frame' attempt' fanOut fanning
      have e := retry_of_respond going hturn
      obtain ⟨rfl, rfl, -⟩ := filled_of_beginAttempt (e ▸ fanning)
      exact ⟨[], moment, _, .begun moment, congrArg Turn.activation e.symm⟩
  | turned before inside noRetry hturn ih =>
      intro frame attempt fanOut fanning
      rcases respond_cases hturn with ⟨-, hp⟩ | ⟨frame', attempt', held, index, child, ending, rfl, e, -, -, hjoin⟩
      · exact absurd (congrArg Activation.phase fanning) (proceed_isLeaf inside noRetry hp _ _)
      · obtain ⟨steps, last, before, course, same⟩ := ih frame' attempt' held e
        obtain ⟨rfl, rfl, -⟩ := filled_of_join (hjoin ▸ fanning)
        exact ⟨_, _, _, course.joined (same ▸ hturn), rfl⟩
  | within before hact ih =>
      intro frame attempt fanOut fanning
      obtain ⟨frame', attempt', held, child, child', e, hchild, hinner, rfl⟩ := Activation.act_cons hact
      cases fanning
      obtain ⟨steps, last, turn, course, same⟩ := ih frame attempt held e
      exact ⟨_, _, _, course.inside (same ▸ hact), rfl⟩

/-- **Every fan-out of a run, at any depth, is on a course.** -/
theorem course_of_play {setup : Setup} {moves : List Run.Move} {run : Run} {place : Place}
    (played : (Run.start setup).play setup moves = some run)
    (underWay : run.outermost.at? place = some (.node frame (.fanning attempt fanOut))) :
    ∃ steps moment turn, Course setup.host frame attempt steps moment turn ∧
      turn.activation = .node frame (.fanning attempt fanOut) := by
  obtain ⟨start, state, begun, told, visit⟩ := onVisit_of_play played place _ underWay attempt rfl
  exact course_of_visit visit frame attempt fanOut rfl

end Workflow.Execution
