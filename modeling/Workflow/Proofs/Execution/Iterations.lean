import Mathlib.Data.List.Nodup
import Workflow.Proofs.Execution.History

/-!
# `Workflow.Proofs.Execution.Iterations` — the schedule of a map

A map state begins its iterations in the order of its items, as many at a time as it may, and begins the next ones
whenever one has ended.  What it notes down about them can be read as a ledger; the ledger is in order after every
single note, and it is complete when the attempt is over.

## Contents
- **Ledgers.** `Ledger`, what an attempt notes down, in whatever order its jobs have their turns and end; `startedIn` and
  `succeededIn`, the indices in it.
- **Tallies.** `Tally`, what holds after every note, and `Tallied`, that it does.
- **The books.** `Booked`, which ties the ledger to the jobs under way, kept by every operation of a fan-out.
- **Schedules.** `Scheduled`, where an attempt can stand, `Ledger.scheduled`, and `map_schedule`.
- **Runs.** `ledger_of_play`: the log of a run keeps the ledger of every fan-out.
-/

namespace Workflow.Execution

/-! ## Ledgers -/

/-- **What an attempt notes down.** It begins, and then its jobs have turns and are taken in as they end.  The indices
    are the notes of the attempt so far, the moment of the last turn, and what the activation came to in it. -/
inductive Ledger (host : Host) (frame : Frame) (attempt : Attempt) : List Note → Moment → Turn → Prop
  | begun (moment : Moment) :
      Ledger host frame attempt (beginAttempt host moment frame attempt).notes moment
        (beginAttempt host moment frame attempt)
  | inside {told : List Note} {last moment : Moment} {turn : Turn} {signal : Signal} {index : Nat} {place : Place}
      {after : Activation} {entries : List Entry} (before : Ledger host frame attempt told last turn)
      (hact : turn.activation.act host moment signal (index :: place) = some (after, entries)) :
      Ledger host frame attempt told moment ⟨after, []⟩
  | joined {told : List Note} {last moment : Moment} {turn next : Turn} {index : Nat}
      (before : Ledger host frame attempt told last turn)
      (hturn : turn.activation.respond host moment (.join index) = some next) :
      Ledger host frame attempt (told ++ next.notes) moment next

/-- The indices of the iterations that notes tell to have started, in that order. -/
def startedIn (notes : List Note) : List Nat :=
  notes.filterMap fun
    | .event (.iterationStarted _ index) => some index
    | _ => none

/-- The indices of the iterations that notes tell to have succeeded, in that order. -/
def succeededIn (notes : List Note) : List Nat :=
  notes.filterMap fun
    | .event (.iterationSucceeded _ index) => some index
    | _ => none

theorem startedIn_append (notes more : List Note) : startedIn (notes ++ more) = startedIn notes ++ startedIn more :=
  List.filterMap_append

theorem succeededIn_append (notes more : List Note) :
    succeededIn (notes ++ more) = succeededIn notes ++ succeededIn more :=
  List.filterMap_append

/-- Notes that tell of no iteration that starts or succeeds. -/
def Aside (notes : List Note) : Prop := startedIn notes = [] ∧ succeededIn notes = []

theorem Aside.of_prefix {notes early : List Note} (h : Aside notes) (le : early <+: notes) : Aside early := by
  obtain ⟨late, rfl⟩ := le
  rw [Aside, startedIn_append, succeededIn_append] at h
  exact ⟨(List.append_eq_nil_iff.mp h.1).1, (List.append_eq_nil_iff.mp h.2).1⟩

theorem Aside.append {notes more : List Note} (h : Aside notes) (h' : Aside more) : Aside (notes ++ more) := by
  rw [Aside, startedIn_append, succeededIn_append, h.1, h.2, h'.1, h'.2]
  exact ⟨rfl, rfl⟩

/-! ## Tallies -/

/-- **A tally in order:** iterations start by index, each once and none beyond the last item; each that has succeeded has
    done so once, and has started before; and only so many have started but not succeeded. -/
structure Tally (limit total : Nat) (notes : List Note) : Prop where
  order : startedIn notes = List.range (startedIn notes).length
  all : (startedIn notes).length ≤ total
  once : (succeededIn notes).Nodup
  started : ∀ index ∈ succeededIn notes, index ∈ startedIn notes
  room : (startedIn notes).length ≤ (succeededIn notes).length + limit

/-- The tally is in order after every note. -/
def Tallied (limit total : Nat) (notes : List Note) : Prop := ∀ early, early <+: notes → Tally limit total early

variable {limit total : Nat} {told more : List Note}

theorem Tallied.append (h : Tallied limit total told)
    (later : ∀ early, early <+: more → Tally limit total (told ++ early)) : Tallied limit total (told ++ more) := by
  intro early le
  -- A beginning of the whole is one of the first part, or goes on into the second.
  rcases List.prefix_or_prefix_of_prefix le (List.prefix_append told more) with before | ⟨rest, rfl⟩
  · exact h early before
  · exact later rest ((List.prefix_append_right_inj told).mp le)

theorem Tallied.aside (h : Tallied limit total told) (aside : Aside more) : Tallied limit total (told ++ more) := by
  refine h.append fun early le => ?_
  obtain ⟨noStart, noSuccess⟩ := aside.of_prefix le
  obtain ⟨order, all, once, started, room⟩ := h told (List.prefix_refl told)
  constructor <;> simpa only [startedIn_append, succeededIn_append, noStart, noSuccess, List.append_nil]

/-! ## The books -/

/-- **The books of an attempt:** its notes tell which jobs have begun and which have an output; the others that have
    begun are under way, and those are not too many. -/
structure Booked (limit : Nat) (js : List Job) (bound : Nat) (told : List Note) (fanOut : FanOut Activation) : Prop where
  jobs : fanOut.jobs = js
  bound : fanOut.limit = bound
  tallied : Tallied limit js.length told
  accounted : fanOut.Accounted
  started : startedIn told = List.range fanOut.begun
  succeeded : succeededIn told = (fanOut.outputs.map (·.1)).reverse
  room : fanOut.running.length ≤ limit

/-- The limit that jobs are begun by stands for the given one: it is the same, or neither is ever reached. -/
def StandsFor (limit bound total : Nat) : Prop := bound = limit ∨ (total ≤ limit ∧ total ≤ bound)

section Books

variable {js : List Job} {bound : Nat} {fanOut : FanOut Activation} {host : Host} {moment : Moment} {frame : Frame}
variable {attempt : Attempt}

theorem booked_ofJobs : Booked limit js bound [] (.ofJobs js bound) where
  jobs := rfl
  bound := rfl
  tallied early le := by
    rw [List.prefix_nil.mp le]
    exact ⟨rfl, Nat.zero_le _, List.nodup_nil, by simp [succeededIn], Nat.zero_le _⟩
  accounted := FanOut.accounted_ofJobs js bound
  started := rfl
  succeeded := rfl
  room := Nat.zero_le _

theorem begun_le_jobs (h : Booked limit js bound told fanOut) : fanOut.begun ≤ js.length :=
  h.jobs ▸ h.accounted.begun_le

theorem startedIn_begunNotes (mapped : ∃ s processor, attempt.state = .map s processor) (indices : List Nat) :
    startedIn (begunNotes frame attempt indices) = indices ∧ succeededIn (begunNotes frame attempt indices) = [] := by
  obtain ⟨s, processor, e⟩ := mapped
  simp [startedIn, succeededIn, begunNotes, begunEvent, e, List.filterMap_map]

/-- A job that begins finds room. -/
theorem room_of_fill (h : Booked limit js bound told fanOut) (stands : StandsFor limit bound js.length) :
    (fanOut.fill (frame.beginJob attempt)).fanOut.running.length ≤ limit := by
  refine (FanOut.fill_induct (P := fun f => f.jobs = js ∧ f.limit = bound ∧ f.Accounted ∧ f.running.length ≤ limit) ?_
    ⟨h.jobs, h.bound, h.accounted, h.room⟩).2.2.2
  rintro f job input ⟨hjobs, hbound, accounted, hroom⟩ hjob hinput hlt
  refine ⟨hjobs, hbound, accounted.withNext hjob _, ?_⟩
  have length : (f.withNext (frame.beginJob attempt f.begun job input)).running.length = f.running.length + 1 := by
    simp [FanOut.withNext]
  have next : f.begun < js.length := hjobs ▸ (List.getElem?_eq_some_iff.mp hjob).1
  have counted := accounted.length
  -- Either the bound is the limit itself, or there are no more jobs than the limit admits.
  rcases stands with same | ⟨le, -⟩ <;> omega

/-- **To begin jobs keeps the books,** note by note. -/
theorem Booked.fill (h : Booked limit js bound told fanOut) (stands : StandsFor limit bound js.length)
    (mapped : ∃ s processor, attempt.state = .map s processor) :
    Booked limit js bound
      (told ++ begunNotes frame attempt (fanOut.fill (frame.beginJob attempt)).begun)
      (fanOut.fill (frame.beginJob attempt)).fanOut := by
  obtain ⟨sameJobs, sameLimit, sameOutputs⟩ := FanOut.fill_keeps (frame.beginJob attempt) fanOut
  obtain ⟨count, hbegun, hcount⟩ := FanOut.begun_fill (frame.beginJob attempt) fanOut
  have accounted := h.accounted.fill (frame.beginJob attempt)
  have room : (fanOut.fill (frame.beginJob attempt)).fanOut.running.length ≤ limit := room_of_fill h stands
  have started : ∀ number, startedIn (told ++ begunNotes frame attempt (List.range' fanOut.begun number)) =
      List.range (fanOut.begun + number) := by
    intro number
    rw [startedIn_append, (startedIn_begunNotes mapped _).1, h.started, List.range_add, List.range'_eq_map_range]
  have succeeded : ∀ indices, succeededIn (told ++ begunNotes frame attempt indices) = succeededIn told := by
    intro indices
    rw [succeededIn_append, (startedIn_begunNotes mapped _).2, List.append_nil]
  refine ⟨sameJobs.trans h.jobs, sameLimit.trans h.bound, h.tallied.append fun early le => ?_, accounted, ?_, ?_, room⟩
  · -- So far only the first of the jobs have begun.
    obtain ⟨number, le, rfl⟩ : ∃ number ≤ count, early = begunNotes frame attempt (List.range' fanOut.begun number) := by
      rw [hbegun, begunNotes, List.range'_eq_map_range, List.prefix_map_iff] at le
      obtain ⟨indices, le, rfl⟩ := le
      obtain ⟨first, below, rfl⟩ := List.prefix_map_iff.mp le
      rw [List.prefix_iff_eq_take, List.take_range] at below
      exact ⟨min first.length count, Nat.min_le_right _ _, by rw [List.range'_eq_map_range, ← below]⟩
    have before := h.tallied told (List.prefix_refl told)
    have counted := accounted.length
    have most := accounted.begun_le
    rw [sameJobs, h.jobs] at most
    rw [sameOutputs] at counted
    constructor
    · rw [started, List.length_range]
    · rw [started, List.length_range]
      omega
    · rw [succeeded]
      exact before.once
    · rw [succeeded, startedIn_append]
      exact fun index hindex => List.mem_append_left _ (before.started index hindex)
    · rw [started, succeeded, h.succeeded, List.length_range, List.length_reverse, List.length_map]
      omega
  · rw [hbegun, started, hcount]
  · rw [succeeded, sameOutputs, h.succeeded]

/-- To take in a job with its output is to tell that it succeeded. -/
theorem Booked.deliver (h : Booked limit js bound told fanOut) {index : Nat} {child : Activation}
    (hchild : fanOut.child? index = some child) (value : Json) (name : String) :
    Booked limit js bound (told ++ [.event (.iterationSucceeded name index)]) (fanOut.deliver index value) := by
  have accounted := h.accounted.deliver hchild value
  have counted := accounted.length
  have started : startedIn (told ++ [.event (.iterationSucceeded name index)]) = List.range fanOut.begun := by
    rw [startedIn_append, h.started]
    exact List.append_nil _
  have succeeded : succeededIn (told ++ [.event (.iterationSucceeded name index)]) =
      ((fanOut.deliver index value).outputs.map (·.1)).reverse := by
    rw [succeededIn_append, h.succeeded]
    exact (List.reverse_cons).symm
  have less : (fanOut.deliver index value).running.length ≤ fanOut.running.length := List.length_filter_le _ _
  refine ⟨h.jobs, h.bound, h.tallied.append fun early le => ?_, accounted, started, succeeded,
    Nat.le_trans less h.room⟩
  -- A single note is told, so the tally has to be looked at only before and after it.
  have same : early = [] ∨ early = [.event (.iterationSucceeded name index)] := by
    rcases List.prefix_cons_iff.mp le with none | ⟨rest, rfl, below⟩
    · exact Or.inl none
    · rw [List.prefix_nil.mp below]
      exact Or.inr rfl
  rcases same with rfl | rfl
  · rw [List.append_nil]
    exact h.tallied told (List.prefix_refl told)
  · constructor
    · rw [started, List.length_range]
    · rw [started, List.length_range]
      exact begun_le_jobs h
    · rw [succeeded]
      exact List.nodup_reverse.mpr (List.nodup_append.mp accounted.nodup).2.1
    · rw [succeeded, started]
      intro taken htaken
      exact accounted.indices.mem_iff.mp (List.mem_append_right _ (List.mem_reverse.mp htaken))
    · rw [started, succeeded, List.length_range, List.length_reverse, List.length_map]
      have begun : (fanOut.deliver index value).begun = fanOut.begun := rfl
      have room := h.room
      omega

/-- What happens inside a job is not in the books of the attempt. -/
theorem Booked.replace (h : Booked limit js bound told fanOut) (index : Nat) (child : Activation) :
    Booked limit js bound told (fanOut.replace index child) :=
  ⟨h.jobs, h.bound, h.tallied, h.accounted.replace index child, h.started, h.succeeded, by
    rw [← List.length_map (f := (·.1)), FanOut.map_fst_replace, List.length_map]
    exact h.room⟩

/-! ## Schedules -/

theorem recover_aside (fault : Fault) : Aside (recover moment frame attempt fault).notes := by
  rcases recover_cases moment frame attempt fault with
    ⟨number, delay, counters, -, e⟩ | ⟨next, output, counters, -, e⟩ | ⟨last, counters, -, e⟩ <;> rw [e] <;>
    exact ⟨rfl, rfl⟩

theorem conclude_aside (result : Json) : Aside (conclude moment frame attempt result).notes := by
  rcases conclude_cases moment frame attempt result with
    ⟨fault, -, e⟩ | ⟨next, output, -, e⟩ | ⟨fault, -, e⟩ <;> rw [e]
  · exact recover_aside fault
  · cases next <;> exact ⟨rfl, rfl⟩
  · exact ⟨rfl, rfl⟩

/-- **An iteration that broke off,** and what is told of that, after what was told before. -/
def BrokeOff (host : Host) (frame : Frame) (attempt : Attempt) (told : List Note) (fault : Fault) : Prop :=
  ∃ earlier last before fanOut index child own trap, earlier <+: told ∧
    Ledger host frame attempt earlier last before ∧ before.activation = .node frame (.fanning attempt fanOut) ∧
    fanOut.child? index = some child ∧ child.ending? = some (.fault own) ∧ own.trap? = some trap ∧
    fault = .runtime (.iterationLost trap)

/-- **Where an attempt can stand.** Iterations are under way, and either there is no room for another one or none is left
    to begin; or all have started and succeeded, and the results are passed on; or an iteration failed or broke off, or
    has an input that cannot be told, and that is the fault of the attempt; or an iteration was cancelled. -/
inductive Scheduled (host : Host) (frame : Frame) (attempt : Attempt) (limit : Nat) (js : List Job) (bound : Nat) :
    List Note → Moment → Turn → Prop
  | underWay {told : List Note} {moment : Moment} {fanOut : FanOut Activation} {notes : List Note}
      (booked : Booked limit js bound told fanOut) (busy : fanOut.running ≠ [])
      (full : fanOut.begun = js.length ∨ fanOut.running.length = limit) :
      Scheduled host frame attempt limit js bound told moment ⟨.node frame (.fanning attempt fanOut), notes⟩
  | done {told : List Note} {moment : Moment} {results : Json} {notes : List Note}
      (tallied : Tallied limit js.length told) (started : startedIn told = List.range js.length)
      (succeeded : (succeededIn told).Perm (List.range js.length)) :
      Scheduled host frame attempt limit js bound told moment ((conclude moment frame attempt results).after notes)
  | failed {told : List Note} {moment : Moment} {fault : Fault} {notes : List Note}
      (tallied : Tallied limit js.length told)
      (cause : (∃ index failure, .event (.iterationFailed frame.state index failure) ∈ told ∧
          fault = failure.wrap Fault.Name.branchFailed) ∨ (∃ job ∈ js, job.input = .error fault) ∨
        BrokeOff host frame attempt told fault) :
      Scheduled host frame attempt limit js bound told moment ((recover moment frame attempt fault).after notes)
  | cancelled {told : List Note} {last moment : Moment} {before : Turn} {fanOut : FanOut Activation} {index : Nat}
      {child : Activation} (tallied : Tallied limit js.length told) (ledger : Ledger host frame attempt told last before)
      (fanning : before.activation = .node frame (.fanning attempt fanOut))
      (hchild : fanOut.child? index = some child) (cancelled : child.ending? = some .cancelled) :
      Scheduled host frame attempt limit js bound told moment (stop frame .cancelled)

/-- Jobs have begun until none was left or there was no room; so none is left, or the limit is reached. -/
theorem Booked.full (h : Booked limit js bound told fanOut) (stands : StandsFor limit bound js.length)
    (full : fanOut.begun = js.length ∨ bound ≤ fanOut.running.length) :
    fanOut.begun = js.length ∨ fanOut.running.length = limit := by
  have counted := h.accounted.length
  have most := begun_le_jobs h
  have room := h.room
  rcases full with all | reached
  · exact Or.inl all
  · rcases stands with rfl | ⟨-, le⟩
    · exact Or.inr (Nat.le_antisymm room reached)
    · exact Or.inl (by omega)

/-- When no job is under way and there was room for one, all have been begun and taken in. -/
theorem Booked.complete (h : Booked limit js bound told fanOut) (positive : bound = 0 → js = [])
    (full : fanOut.begun = js.length ∨ bound ≤ fanOut.running.length) (idle : fanOut.isIdle = true) :
    startedIn told = List.range js.length ∧ (succeededIn told).Perm (List.range js.length) := by
  have begun : fanOut.begun = js.length := by
    rcases full with all | reached
    · exact all
    · have nobody : fanOut.running = [] := List.isEmpty_iff.mp idle
      rw [nobody, List.length_nil] at reached
      have most := begun_le_jobs h
      rw [positive (Nat.le_zero.mp reached), List.length_nil] at most ⊢
      exact Nat.le_zero.mp most
  refine ⟨by rw [h.started, begun], ?_⟩
  have all := h.accounted.outputs_of_idle (by rw [begun, h.jobs]) idle
  rw [h.succeeded]
  exact (List.reverse_perm _).trans (h.jobs ▸ all)

/-- **Whenever jobs have begun while there was room,** the attempt stands where it can. -/
theorem fan_scheduled (booked : Booked limit js bound told fanOut) (stands : StandsFor limit bound js.length)
    (mapped : ∃ s processor, attempt.state = .map s processor) (positive : bound = 0 → js = []) (notes : List Note) :
    Scheduled host frame attempt limit js bound (told ++ (fan moment frame attempt fanOut).notes) moment
      ((fan moment frame attempt fanOut).after notes) := by
  have filled : Booked limit js bound
      (told ++ begunNotes frame attempt (fanOut.fill (frame.beginJob attempt)).begun)
      (fanOut.fill (frame.beginJob attempt)).fanOut := booked.fill stands mapped
  have full : (fanOut.fill (frame.beginJob attempt)).fault = none →
      (fanOut.fill (frame.beginJob attempt)).fanOut.begun = js.length ∨
        bound ≤ (fanOut.fill (frame.beginJob attempt)).fanOut.running.length := by
    intro hfault
    rw [← booked.jobs, ← booked.bound]
    exact FanOut.full_fill booked.accounted.begun_le hfault
  -- Whatever comes of filling, the jobs that have begun are in the books by then.
  obtain ⟨filling, rfl, ⟨fault, hfault, e⟩ | ⟨hfault, idle, e⟩ | ⟨hfault, busy, e⟩⟩ :=
    fan_cases moment frame attempt fanOut
  · obtain ⟨job, hjob, untold⟩ := FanOut.fault_fill hfault
    rw [e, Turn.after_after, Turn.notes_after, ← List.append_assoc]
    exact .failed (filled.tallied.aside (recover_aside fault)) (Or.inr (Or.inl ⟨job, booked.jobs ▸ hjob, untold⟩))
  · obtain ⟨started, succeeded⟩ := filled.complete positive (full hfault) idle
    have aside : Aside (conclude moment frame attempt _).notes := conclude_aside
      (fanOut.fill (frame.beginJob attempt)).fanOut.results
    rw [e, Turn.after_after, Turn.notes_after, ← List.append_assoc]
    refine .done (filled.tallied.aside aside) ?_ ?_
    · rw [startedIn_append, aside.1, List.append_nil]
      exact started
    · rw [succeededIn_append, aside.2, List.append_nil]
      exact succeeded
  · rw [e]
    exact .underWay filled (by simpa [FanOut.isIdle] using busy) (filled.full stands (full hfault))

/-- Where a job is under way, so is the attempt. -/
theorem Scheduled.underWay_of_child {turn : Turn} {index : Nat} {child : Activation}
    (h : Scheduled host frame attempt limit js bound told moment turn)
    (hchild : turn.activation.child? index = some child) :
    ∃ fanOut notes, turn = ⟨.node frame (.fanning attempt fanOut), notes⟩ ∧ Booked limit js bound told fanOut ∧
      fanOut.running ≠ [] ∧ (fanOut.begun = js.length ∨ fanOut.running.length = limit) := by
  cases h with
  | underWay booked busy full => exact ⟨_, _, rfl, booked, busy, full⟩
  | done => cases ((conclude_isLeaf _).child? index).symm.trans hchild
  | failed => cases ((recover_isLeaf _).child? index).symm.trans hchild
  | cancelled => cases hchild

/-- **Every attempt stands where it can,** by induction over its ledger. -/
theorem Ledger.scheduled {turn : Turn} (planned : jobs frame attempt attempt.state = .ok (js, bound))
    (stands : StandsFor limit bound js.length) (mapped : ∃ s processor, attempt.state = .map s processor)
    (positive : bound = 0 → js = []) (ledger : Ledger host frame attempt told moment turn) :
    Scheduled host frame attempt limit js bound told moment turn := by
  induction ledger with
  | begun moment =>
      rw [beginAttempt_of_jobs host moment planned]
      exact fan_scheduled booked_ofJobs stands mapped positive []
  | @inside told _ moment turn signal index place after entries before hact ih =>
      obtain ⟨_, _, fanOut, child, child', e, hchild, hinner, rfl⟩ := Activation.act_cons hact
      obtain ⟨_, notes, rfl, booked, busy, full⟩ := ih.underWay_of_child (by rw [e]; exact hchild)
      cases e
      have length : (fanOut.replace index child').running.length = fanOut.running.length := by
        rw [← List.length_map (f := (·.1)), FanOut.map_fst_replace, List.length_map]
      -- Nobody begins or ends inside the attempt, so as many are under way as before.
      refine .underWay (booked.replace index child') (fun nobody => busy ?_) (by rw [length]; exact full)
      rw [nobody] at length
      exact List.length_eq_zero_iff.mp length.symm
  | @joined told last moment turn next index before hturn ih =>
      rcases respond_cases hturn with ⟨e, -⟩ | ⟨_, _, fanOut, found, child, ending, e, e', hchild, hending, rfl⟩
      · cases e
      · have same : index = found := Signal.join.inj e
        subst same
        obtain ⟨_, notes, rfl, booked, -, -⟩ := ih.underWay_of_child (by rw [e']; exact hchild)
        cases e'
        obtain ⟨s, processor, hstate⟩ := mapped
        cases ending with
        | output value =>
            -- The job that is taken in makes room, and others may begin in its place.
            have delivered := booked.deliver hchild value frame.state
            have event : succeededEvent attempt.state frame.state index = .iterationSucceeded frame.state index := by
              rw [hstate]
              rfl
            rw [join, event, Turn.notes_after, ← List.append_assoc]
            exact fan_scheduled delivered stands ⟨s, processor, hstate⟩ positive _
        | fault fault =>
            -- What is told of an iteration that failed or broke off is not tallied.
            have aside : Aside (jobNotes attempt.state frame.state index fault) := by
              rw [hstate]
              unfold jobNotes
              split <;> exact ⟨rfl, rfl⟩
            rw [join, Turn.notes_after]
            refine .failed (booked.tallied.aside (aside.append (recover_aside _))) ?_
            cases broke : fault.trap? with
            | none =>
                refine Or.inl ⟨index, fault, ?_, jobFault_of_named _ broke⟩
                exact List.mem_append_right _ (List.mem_append_left _ (by simp [jobNotes, broke, hstate, failedEvent]))
            | some trap =>
                exact Or.inr (Or.inr ⟨_, _, _, fanOut, index, child, fault, trap, List.prefix_append _ _, before, rfl,
                  hchild, hending, broke, by simp [jobFault, broke, hstate]⟩)
        | cancelled =>
            rw [show (join moment frame attempt fanOut index .cancelled).notes = [] from rfl, List.append_nil]
            exact .cancelled booked.tallied before rfl hchild hending

end Books

/-- How many iterations a map state lets be under way over its items: as many as it says, or all. -/
def iterationLimit (s : MapState) (items : List Json) : Nat :=
  match s.maxConcurrency with
  | some (most + 1) => most + 1
  | _ => items.length

/-- Where the state sets no limit, the one that jobs are begun by is never in the way. -/
theorem standsFor_limitOf (s : MapState) (items : List Json) :
    StandsFor (iterationLimit s items) (limitOf s items) items.length := by
  unfold StandsFor iterationLimit limitOf
  rcases s.maxConcurrency with _ | _ | most
  · exact Or.inr ⟨Nat.le_refl _, Nat.le_max_left _ _⟩
  · exact Or.inr ⟨Nat.le_refl _, Nat.le_max_left _ _⟩
  · exact Or.inl rfl

/-- **The schedule of a map.** In every attempt at a map state over some items, in whatever order its iterations have
    their turns and end, the tally is in order after every note: iterations start by index, each once, each succeeds at
    most once and after it has started, and never are more under way than the limit.  Where the attempt has come to is
    one of these.  Iterations are under way, no more than the limit, namely those that have started and not succeeded;
    another one waits only where the limit is reached; and one that has ended can be taken in.  Or every iteration has
    started and succeeded, each once, and the results are passed on.  Or an iteration failed or broke off, or has an input
    that cannot be told, and that is the fault of the attempt.  Or an iteration was cancelled, and so is the activation. -/
theorem map_schedule (host : Host) (frame : Frame) (attempt : Attempt) (s : MapState) (processor : Graph)
    (effective : Json) (items : List Json) (mapped : attempt.state = .map s processor)
    (heffective : DataFlow.input s.inputPath frame.raw frame.context = .ok effective)
    (hitems : DataFlow.items s.itemsPath effective frame.context = .ok items) (told : List Note) (moment : Moment)
    (turn : Turn) (ledger : Ledger host frame attempt told moment turn) :
    Tallied (iterationLimit s items) items.length told ∧
    ((∃ fanOut, turn.activation = .node frame (.fanning attempt fanOut) ∧ fanOut.running ≠ [] ∧
        fanOut.running.length ≤ iterationLimit s items ∧
        (fanOut.running.map (·.1) ++ succeededIn told).Perm (startedIn told) ∧
        (startedIn told = List.range items.length ∨ fanOut.running.length = iterationLimit s items) ∧
        ∀ index child, fanOut.child? index = some child → child.ending?.isSome →
          ∀ moment, (turn.activation.respond host moment (.join index)).isSome) ∨
      (startedIn told = List.range items.length ∧ (succeededIn told).Perm (List.range items.length) ∧
        ∃ results notes, turn = (conclude moment frame attempt results).after notes) ∨
      (∃ fault notes, turn = (recover moment frame attempt fault).after notes ∧
        ((∃ index failure, .event (.iterationFailed frame.state index failure) ∈ told ∧
            fault = failure.wrap Fault.Name.branchFailed) ∨
          (∃ index item, items[index]? = some item ∧
            (jobOfItem frame attempt s processor effective index item).input = .error fault) ∨
          BrokeOff host frame attempt told fault)) ∨
      (turn = stop frame .cancelled ∧ ∃ last before fanOut index child, Ledger host frame attempt told last before ∧
        before.activation = .node frame (.fanning attempt fanOut) ∧ fanOut.child? index = some child ∧
        child.ending? = some .cancelled)) := by
  have planned : jobs frame attempt attempt.state =
      .ok (items.mapIdx (jobOfItem frame attempt s processor effective), limitOf s items) := by
    rw [mapped]
    exact DataFlow.bind_eq_ok.mpr ⟨effective, heffective, DataFlow.bind_eq_ok.mpr ⟨items, hitems, rfl⟩⟩
  have length : (items.mapIdx (jobOfItem frame attempt s processor effective)).length = items.length :=
    List.length_mapIdx
  have scheduled := ledger.scheduled planned (length.symm ▸ standsFor_limitOf s items) ⟨s, processor, mapped⟩
    (room_of_jobs planned)
  cases scheduled with
  | @underWay _ fanOut notes booked busy full =>
      refine ⟨length ▸ booked.tallied, Or.inl ⟨fanOut, rfl, busy, booked.room, ?_, ?_,
        fun index child hchild ended moment => ?_⟩⟩
      · rw [booked.started, booked.succeeded]
        exact (List.Perm.append_left _ (List.reverse_perm _)).trans booked.accounted.indices
      · rw [booked.started]
        exact full.imp (fun all => by rw [all, length]) id
      · simpa [Activation.respond, hchild] using ended
  | done tallied started succeeded =>
      rw [length] at tallied started succeeded
      exact ⟨tallied, Or.inr (Or.inl ⟨started, succeeded, _, _, rfl⟩)⟩
  | failed tallied cause =>
      refine ⟨length ▸ tallied, Or.inr (Or.inr (Or.inl ⟨_, _, rfl, cause.imp id (Or.imp_left ?_)⟩))⟩
      rintro ⟨job, hjob, untold⟩
      -- The job whose input cannot be told stands for an item, at the same index.
      obtain ⟨index, hindex⟩ := List.mem_iff_getElem?.mp hjob
      obtain ⟨item, hitem, rfl⟩ := Option.map_eq_some_iff.mp (List.getElem?_mapIdx ▸ hindex)
      exact ⟨index, item, hitem, untold⟩
  | cancelled tallied before fanning hchild cancelled =>
      exact ⟨length ▸ tallied, Or.inr (Or.inr (Or.inr ⟨rfl, _, _, _, _, _, before, fanning, hchild, cancelled⟩))⟩

/-- A map of three items, two at a time, whose iterations end at once with their item. -/
def pairwise : MapState := ⟨none, none, none, some 2, .whole, .whole, .whole, none, .none, ⟨none, true⟩⟩

def echo : Graph := ⟨none, "Echo", [("Echo", .succeed ⟨none, .whole, .whole⟩)]⟩

def pairwiseAttempt : Attempt := ⟨.map pairwise echo, .start 0⟩

def pairwiseItems : List Json := [.int 7, .int 8, .int 9]

def pairwiseFrame : Frame :=
  ⟨[], ⟨none, "Each", [("Each", pairwiseAttempt.state)]⟩, .empty, "Each", .arr pairwiseItems, 1, default⟩

def pairwiseHost : Host := ⟨⟨[]⟩, [], 0⟩

def pairwiseMoment : Moment := ⟨0, false, fun _ => []⟩

/-- The second item is done first; then the third one begins, and is done before the first one. -/
theorem map_schedule_pairwise : ∃ told turn, Ledger pairwiseHost pairwiseFrame pairwiseAttempt told pairwiseMoment turn ∧
    startedIn told = [0, 1, 2] ∧ succeededIn told = [1, 2, 0] ∧ Tallied 2 3 told ∧
    turn.activation.ending? = some (.output (.arr pairwiseItems)) := by
  have hitems : DataFlow.items pairwise.itemsPath pairwiseFrame.raw pairwiseFrame.context = .ok pairwiseItems := by cbv
  have planned : jobs pairwiseFrame pairwiseAttempt pairwiseAttempt.state =
      .ok (pairwiseItems.mapIdx (jobOfItem pairwiseFrame pairwiseAttempt pairwise echo pairwiseFrame.raw), 2) :=
    DataFlow.bind_eq_ok.mpr ⟨_, rfl, DataFlow.bind_eq_ok.mpr ⟨_, hitems, rfl⟩⟩
  have begun := @Ledger.begun pairwiseHost pairwiseFrame pairwiseAttempt pairwiseMoment
  rw [beginAttempt_of_jobs _ _ planned] at begun
  have second := @Ledger.inside _ _ _ _ _ pairwiseMoment _ .proceed 1 [] _ _ begun rfl
  have secondDone := @Ledger.joined _ _ _ _ _ pairwiseMoment _ _ 1 second rfl
  have third := @Ledger.inside _ _ _ _ _ pairwiseMoment _ .proceed 2 [] _ _ secondDone rfl
  have thirdDone := @Ledger.joined _ _ _ _ _ pairwiseMoment _ _ 2 third rfl
  have first := @Ledger.inside _ _ _ _ _ pairwiseMoment _ .proceed 0 [] _ _ thirdDone rfl
  have firstDone := @Ledger.joined _ _ _ _ _ pairwiseMoment _ _ 0 first rfl
  have schedule :=
    map_schedule pairwiseHost pairwiseFrame pairwiseAttempt pairwise echo _ pairwiseItems rfl rfl hitems _ _ _ firstDone
  exact ⟨_, _, firstDone, rfl, rfl, schedule.1, rfl⟩

/-! ## Runs -/

/-- The events about iterations that start or succeed. -/
def iterationOf? : Note → Option Event
  | .event (.iterationStarted name index) => some (.iterationStarted name index)
  | .event (.iterationSucceeded name index) => some (.iterationSucceeded name index)
  | _ => none

theorem iterationOf?_inner : IsInner iterationOf? where
  started _ := rfl
  settled settlement millis entry hentry := by
    obtain ⟨event, told, rfl⟩ := Settlement.mem_entries.mp hentry
    cases settlement <;> cases told <;> rfl

/-- An activation that has jobs under way keeps their ledger, at the end of what it has told about iterations. -/
def KeepsLedger (host : Host) (_ : Errand) (told : List Event) (activation : Activation) : Prop :=
  ∀ frame attempt fanOut, activation = .node frame (.fanning attempt fanOut) →
    ∃ earlier notes moment turn, Ledger host frame attempt notes moment turn ∧ turn.activation = activation ∧
      told = earlier ++ notes.filterMap iterationOf?

theorem keepsLedger (host : Host) : Story host iterationOf? (KeepsLedger host) where
  begun _ _ _ _ _ _ _ e := nomatch e
  lasting errand :=
    { turned := by
        intro told activation moment signal turn h hturn frame attempt fanOut fanning
        rcases attempt_of_respond hturn fanning with
          ⟨notes, rfl, -⟩ | ⟨held, joined, child, value, rfl, rfl, -, -, -⟩
        · refine ⟨told ++ notes.filterMap iterationOf?, _, moment, _, .begun moment, rfl, ?_⟩
          rw [Turn.notes_after, List.filterMap_append, List.append_assoc]
        · obtain ⟨earlier, notes, last, before, ledger, same, rfl⟩ := h frame attempt held rfl
          refine ⟨earlier, _, moment, turn, ledger.joined (same ▸ hturn), rfl, ?_⟩
          rw [List.filterMap_append, List.append_assoc]
      within := by
        intro told activation after moment signal index place entries h hact frame attempt fanOut fanning
        obtain ⟨_, _, held, child, child', rfl, hchild, hinner, rfl⟩ := Activation.act_cons hact
        cases fanning
        obtain ⟨earlier, notes, last, before, ledger, same, rfl⟩ := h frame attempt held rfl
        exact ⟨earlier, notes, _, _, ledger.inside (same ▸ hact), rfl, rfl⟩ }
  givenUp := by
    intro errand told activation h frame attempt fanOut e
    cases activation
    cases e

/-- **The log of a run keeps the ledger of every fan-out,** at any depth. -/
theorem ledger_of_play {setup : Setup} {moves : List Run.Move} {run : Run} {place : Place} {frame : Frame}
    {attempt : Attempt} {fanOut : FanOut Activation} (played : (Run.start setup).play setup moves = some run)
    (underWay : run.outermost.at? place = some (.node frame (.fanning attempt fanOut))) :
    ∃ earlier told moment turn, Ledger setup.host frame attempt told moment turn ∧
      turn.activation = .node frame (.fanning attempt fanOut) ∧
      shown iterationOf? run.log frame.id = earlier ++ told.filterMap iterationOf? := by
  obtain ⟨_, -, told⟩ :=
    (Run.logged_of_play (keepsLedger setup.host) iterationOf?_inner played).told place _ underWay
  exact told frame attempt fanOut rfl

end Workflow.Execution
