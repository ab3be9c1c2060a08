import Workflow.Proofs.Execution.Course
import Workflow.Proofs.Execution.Tariff
import Workflow.Proofs.Execution.Trail

/-!
# `Workflow.Proofs.Execution.Payment` — every turn is paid for

Under a tariff, each turn of an activation costs something, and so does what is noted down in it.  What the activation may
still cost after the turn is less than before, by as much: a state is entered at the expense of the states ahead, an
attempt is made at the expense of those that the retriers still allow, and a job is run at the expense of the jobs of its
attempt.  That holds of one turn, hence wherever an activation acts.

## Contents
- **Out of a state.** `Turn.Pays`, with `leave_pays`, `recover_pays` and `conclude_pays`.
- **Jobs.** `fan_pays`, `join_pays`, and `ofFanOut_ofJobs_le`, what the jobs of an attempt cost.
- **Into a state.** `beginAttempt_pays`, `begin_pays`, `enter_pays`.
- **Acting.** `Activation.Sound`, what has to be known of an activation, `respond_pays` and `act_pays`.
-/

namespace Workflow.Execution

open Validation (Leads)

/-! ## Out of a state -/

/-- An attempt at the state that an activation is at, with counters in step with its retriers. -/
structure Attempting (frame : Frame) (attempt : Attempt) : Prop where
  defined : frame.graph.state? frame.state = some attempt.state
  counters : attempt.counters.InStep attempt.state.recovery.retriers

/-- A map state of an activation has no more iterations than a tariff admits. -/
def Tariff.Fits {W : Type} [AddCommMonoid W] [PartialOrder W] (tariff : Tariff W) : Activation → Prop
  | .node _ (.fanning ⟨.map .., _⟩ fanOut) => tariff.Admits fanOut.jobs.length
  | _ => True

/-- A turn after which no more is owed than is given, with what was noted down in it. -/
def Turn.Pays {W : Type} [AddCommMonoid W] [PartialOrder W] (tariff : Tariff W) (given : W) (turn : Turn) : Prop :=
  tariff.owed turn.activation + tariff.charges turn.notes ≤ given

section Turns

variable {W : Type} [AddCommMonoid W] [PartialOrder W] [IsOrderedAddMonoid W] [IsBotZeroClass W] {tariff : Tariff W}
variable {host : Host} {moment : Moment} {frame : Frame} {attempt : Attempt} {given : W}

omit [IsOrderedAddMonoid W] [IsBotZeroClass W] in
/-- Notes without a price are free. -/
theorem Turn.Pays.after {turn : Turn} {notes : List Note} (h : turn.Pays tariff given)
    (free : ∀ note ∈ notes, tariff.charge note = 0) : (turn.after notes).Pays tariff given := by
  rw [Turn.Pays, Turn.notes_after, Tariff.charges_append, tariff.charges_eq_zero free, zero_add]
  exact h

omit [IsOrderedAddMonoid W] in
theorem stop_pays (ending : Ending) : (stop frame ending).Pays tariff given := by
  show 0 + 0 ≤ given
  rw [add_zero]
  exact zero_le

/-- Who leaves a state owes what lies beyond it. -/
theorem leave_pays {next : Option String} (output : Json)
    (leads : ∀ target, next = some target → Leads frame.graph frame.state target) :
    (leave frame next output).Pays tariff (tariff.beyond frame) := by
  cases next with
  | none =>
      show (0 : W) + (0 + 0) ≤ _
      rw [add_zero, add_zero]
      exact zero_le
  | some target =>
      show tariff.front { frame with state := target, raw := output } + (0 + 0) ≤ _
      rw [add_zero, add_zero]
      exact Tariff.front_le_beyond rfl (leads target rfl)

theorem leaveOrFail_pays {outcome : DataFlow.Outcome (Option String × Json)}
    (leads : ∀ target output, outcome = .ok (some target, output) → Leads frame.graph frame.state target) :
    (leaveOrFail frame outcome).Pays tariff (tariff.beyond frame) := by
  cases outcome with
  | error fault => exact stop_pays _
  | ok left =>
      obtain ⟨next, output⟩ := left
      exact leave_pays output fun target e => leads target output (by rw [e])

theorem beyond_le_again : tariff.beyond frame ≤ tariff.again frame attempt := le_add_of_nonneg_left zero_le

/-- **A fault costs one of the retries that are left,** if it is retried. -/
theorem recover_pays (attempting : Attempting frame attempt) (fault : Fault) :
    (recover moment frame attempt fault).Pays tariff (tariff.again frame attempt) := by
  rcases recover_cases moment frame attempt fault with
    ⟨number, delay, counters, hd, e⟩ | ⟨next, output, counters, decided, e⟩ | ⟨last, _, -, e⟩ <;> rw [e]
  · obtain ⟨index, retrier, hretrier, allowed, rfl⟩ := Retry.retried_of_resolve hd
    have bound : attempt.counters.retries + 1 ≤ allowance attempt.state.recovery :=
      (attempting.counters.retry hretrier allowed).retries_le
    -- The retriers still allow the retry, so there was one left to take it from.
    let retried : Attempt :=
      { attempt with counters := { attempt.counters.record index with retries := attempt.counters.retries + 1 } }
    have left : attempt.left = retried.left + 1 := by
      show allowance attempt.state.recovery - attempt.counters.retries =
        allowance attempt.state.recovery - (attempt.counters.retries + 1) + 1
      omega
    show tariff.turn + tariff.ofAttempt retried.state + tariff.again frame retried + (0 + 0) ≤ _
    rw [add_zero, add_zero, tariff.again_of_left frame attempt retried rfl left]
  · obtain ⟨catcher, hcatcher, rfl⟩ := Retry.mem_catcher_of_resolve decided
    have leads : Leads frame.graph frame.state catcher.next :=
      Validation.leads_of_successor attempting.defined (List.mem_append_right _ (List.mem_map_of_mem hcatcher))
    refine Turn.Pays.after ((leave_pays output ?_).trans beyond_le_again) (by simp [Tariff.charge])
    rintro target ⟨⟩
    exact leads
  · exact stop_pays _

theorem conclude_pays (attempting : Attempting frame attempt) (result : Json) :
    (conclude moment frame attempt result).Pays tariff (tariff.again frame attempt) := by
  rcases conclude_cases moment frame attempt result with
    ⟨fault, -, e⟩ | ⟨next, output, leads, e⟩ | ⟨fault, -, e⟩ <;> rw [e]
  · exact recover_pays attempting fault
  · refine (leave_pays output fun target same => ?_).trans beyond_le_again
    subst same
    cases htransition : attempt.state.transition? with
    | none =>
        rw [exit, htransition] at leads
        cases leads
    | some transition =>
        rw [exit, htransition] at leads
        exact Validation.leads_of_successor attempting.defined (mem_successors_of_follow htransition leads)
  · exact stop_pays _

/-! ## Jobs -/

omit [IsOrderedAddMonoid W] [IsBotZeroClass W] in
theorem begunNotes_free (indices : List Nat) : ∀ note ∈ begunNotes frame attempt indices, tariff.charge note = 0 :=
  forall_begunNotes (fun _ _ => rfl) (fun _ _ => rfl) indices

/-- Jobs that begin have to be paid for only where they stay under way. -/
theorem fan_pays (attempting : Attempting frame attempt) {fanOut : FanOut Activation}
    (expected : ∀ fanOut', (fan moment frame attempt fanOut).activation = .node frame (.fanning attempt fanOut') →
      tariff.ofFanOut fanOut ≤ given) :
    (fan moment frame attempt fanOut).Pays tariff (given + tariff.again frame attempt) := by
  obtain ⟨filling, rfl, ⟨fault, -, e⟩ | ⟨-, -, e⟩ | ⟨-, -, e⟩⟩ := fan_cases moment frame attempt fanOut <;>
    rw [e] at expected ⊢
  · exact ((recover_pays attempting fault).after (begunNotes_free _)).trans (le_add_of_nonneg_left zero_le)
  · exact ((conclude_pays attempting _).after (begunNotes_free _)).trans (le_add_of_nonneg_left zero_le)
  · show tariff.owed (.node frame (.fanning attempt _)) + tariff.charges (begunNotes frame attempt _) ≤ _
    rw [tariff.charges_eq_zero (begunNotes_free _), add_zero, Tariff.owed_fanning]
    exact add_le_add_left ((Tariff.ofFanOut_fill frame attempt fanOut).trans (expected _ rfl)) _

/-- Once a job is taken in, only the others are still to be paid for. -/
theorem join_pays (attempting : Attempting frame attempt) (fanOut : FanOut Activation) (index : Nat) (ending : Ending) :
    (join moment frame attempt fanOut index ending).Pays tariff
      (tariff.ofFanOut (fanOut.deliver index .null) + tariff.again frame attempt) := by
  cases ending with
  | output value =>
      refine (fan_pays attempting fun _ _ => le_rfl).after ?_
      unfold succeededEvent
      split <;> simp [Tariff.charge]
  | fault fault =>
      refine ((recover_pays attempting _).after ?_).trans (le_add_of_nonneg_left zero_le)
      exact forall_jobNotes (by simp [Tariff.charge]) (by simp [Tariff.charge]) _ _ _
  | cancelled => exact stop_pays _

omit [IsOrderedAddMonoid W] [IsBotZeroClass W] in
/-- **The jobs of an attempt cost what an attempt at the state does,** if there are not too many of them. -/
theorem ofFanOut_ofJobs_le {js : List Job} {limit : Nat} (planned : jobs frame attempt attempt.state = .ok (js, limit))
    (fits : ∀ s processor, attempt.state = .map s processor → tariff.Admits js.length) :
    tariff.ofFanOut (.ofJobs js limit) ≤ tariff.ofAttempt attempt.state := by
  have all : tariff.ofFanOut (.ofJobs js limit) = (js.map tariff.ofJob).sum := zero_add _
  rw [all]
  rcases jobs_cases planned with ⟨s, branches, input, hstate, rfl, -⟩ |
    ⟨s, processor, effective, items, hstate, -, -, hjobs, -⟩
  · rw [hstate, Tariff.ofAttempt, Tariff.ofBranches_eq, List.map_map]
    exact le_rfl
  · have same : js.map tariff.ofJob = List.replicate js.length (tariff.ofGraph processor + tariff.turn) := by
      refine List.eq_replicate_iff.mpr ⟨List.length_map _, fun price hprice => ?_⟩
      obtain ⟨job, hjob, rfl⟩ := List.mem_map.mp hprice
      rw [hjobs] at hjob
      obtain ⟨index, _, rfl⟩ := List.mem_mapIdx.mp hjob
      rfl
    rw [same, List.sum_replicate, hstate]
    exact tariff.le_spread _ (fits s processor hstate)

/-! ## Into a state -/

/-- To begin an attempt costs what an attempt costs. -/
theorem beginAttempt_pays (attempting : Attempting frame attempt)
    (fits : tariff.Fits (beginAttempt host moment frame attempt).activation) :
    (beginAttempt host moment frame attempt).Pays tariff
      (tariff.ofAttempt attempt.state + tariff.again frame attempt) := by
  rcases beginAttempt_cases host moment frame attempt with
    ⟨_, fault, -, -, e⟩ | ⟨task, asked, htask, -, e⟩ | ⟨fault, -, -, e⟩ | ⟨js, limit, planned, e⟩ <;> rw [e] at fits ⊢
  · exact (recover_pays attempting fault).trans (le_add_of_nonneg_left zero_le)
  · show tariff.turn + tariff.again frame attempt + (tariff.call + 0) ≤ _
    rw [htask, Tariff.ofAttempt, add_zero]
    exact le_of_eq (by abel)
  · exact (recover_pays attempting fault).trans (le_add_of_nonneg_left zero_le)
  · refine fan_pays attempting fun fanOut fanned => ofFanOut_ofJobs_le planned fun s processor mapped => ?_
    obtain ⟨-, -, filled⟩ := filled_of_fan fanned
    have sameJobs : fanOut.jobs = js := filled ▸ (FanOut.fill_keeps (frame.beginJob attempt) (.ofJobs js limit)).1
    obtain ⟨state, counters⟩ := attempt
    cases mapped
    rw [fanned] at fits
    exact sameJobs ▸ fits

/-- To begin with a state costs all attempts that its rules allow, apart from the turn in which it is entered. -/
theorem begin_pays {state : State} (defined : frame.graph.state? frame.state = some state)
    (fits : tariff.Fits (begin host moment frame state).activation) :
    (begin host moment frame state).Pays tariff (tariff.ofAttempt state +
      (allowance state.recovery • (tariff.turn + tariff.ofAttempt state) + tariff.beyond frame)) := by
  -- Where nothing is tried, only what lies beyond the state is still owed.
  have spare : tariff.beyond frame ≤ tariff.ofAttempt state +
      (allowance state.recovery • (tariff.turn + tariff.ofAttempt state) + tariff.beyond frame) :=
    (le_add_of_nonneg_left zero_le).trans (le_add_of_nonneg_left zero_le)
  cases state with
  | succeed s =>
      refine (leaveOrFail_pays fun target output e => ?_).trans spare
      obtain ⟨_, -, e⟩ := DataFlow.map_eq_ok.mp e
      cases e
  | fail s => exact stop_pays _
  | choice s =>
      refine (leaveOrFail_pays fun target output e => ?_).trans spare
      obtain ⟨left, hleft, e⟩ := DataFlow.map_eq_ok.mp e
      cases e
      obtain ⟨effective, -, hleft⟩ := DataFlow.bind_eq_ok.mp hleft
      obtain ⟨next, chosen, hleft⟩ := DataFlow.bind_eq_ok.mp hleft
      obtain ⟨_, -, e⟩ := DataFlow.bind_eq_ok.mp hleft
      cases e
      refine Validation.leads_of_successor defined ?_
      simpa [Validation.successors, State.transition?, State.recovery, Recovery.none] using mem_of_choose chosen
  | pass s =>
      refine (leaveOrFail_pays fun target output e => ?_).trans spare
      obtain ⟨_, -, e⟩ := DataFlow.bind_eq_ok.mp e
      obtain ⟨next, leads, e⟩ := DataFlow.bind_eq_ok.mp e
      cases e
      exact Validation.leads_of_successor defined (mem_successors_of_follow rfl leads)
  | wait s =>
      rcases begin_wait_cases host moment frame s with ⟨fault, -, e⟩ | ⟨effective, due, -, e⟩ <;> rw [e]
      · exact stop_pays _
      · show tariff.turn + tariff.beyond frame + 0 ≤ tariff.turn + (0 • _ + tariff.beyond frame)
        rw [zero_nsmul, zero_add, add_zero]
  | task | parallel | map =>
      rw [begin_of_recoverable host moment frame (by simp [State.IsRecoverable, State.kind])] at fits ⊢
      exact beginAttempt_pays ⟨defined, Retry.Counters.inStep_start _⟩ fits

/-- **To enter a state costs a visit to it,** which has been paid for in front of the state. -/
theorem enter_pays (acyclic : ∀ name, ¬Relation.TransGen (Leads frame.graph) name name)
    (fits : tariff.Fits (enter host moment frame).activation) :
    ∃ given, (enter host moment frame).Pays tariff given ∧ tariff.turn + given ≤ tariff.front frame := by
  unfold enter at fits ⊢
  split
  · exact ⟨0, stop_pays _, by rw [add_zero]; exact le_add_of_nonneg_right zero_le⟩
  · rename_i state defined
    rw [defined] at fits
    let entering : Frame := { frame with
      context := Context.enter frame.context frame.state (Timestamp.render (host.now moment))
      entered := frame.entered + 1 }
    -- What the entry and the first attempt cost is the share of one visit; what lies beyond stays owed.
    have begun : (begin host moment entering state).Pays tariff (tariff.ofAttempt state +
        (allowance state.recovery • (tariff.turn + tariff.ofAttempt state) + tariff.beyond frame)) :=
      begin_pays defined fits
    refine ⟨tariff.entry + (tariff.ofAttempt state +
      (allowance state.recovery • (tariff.turn + tariff.ofAttempt state) + tariff.beyond frame)), ?_, ?_⟩
    · rw [Turn.Pays, Turn.notes_after, Tariff.charges_append, add_left_comm]
      exact add_le_add (le_of_eq (add_zero _)) begun
    · refine le_trans (le_of_eq ?_) (Tariff.visit_add_beyond_le_front defined (acyclic _))
      rw [Tariff.ofVisit, add_nsmul, one_nsmul]
      abel

/-! ## Acting -/

/-- **What is known of an activation of a run** whose graph leads back nowhere: it is at a state of its graph, with
    counters in step and an account of all jobs. -/
structure Activation.Sound (activation : Activation) : Prop where
  acyclic : ∀ name, ¬Relation.TransGen (Leads activation.frame.graph) name name
  attempting : ∀ attempt, activation.attempt? = some attempt → Attempting activation.frame attempt
  waits : ∀ wait effective due, activation.phase = .waiting wait effective due →
    activation.frame.graph.state? activation.frame.state = some (.wait wait)
  accounted : ∀ attempt fanOut, activation.phase = .fanning attempt fanOut → fanOut.Accounted

/-- Every activation that may act has paid for its turn. -/
theorem proceed_pays {phase : Phase} {turn : Turn} (sound : (Activation.node frame phase).Sound)
    (h : proceed host moment frame phase = some turn) (fits : tariff.Fits turn.activation) :
    ∃ given, turn.Pays tariff given ∧ tariff.turn + given ≤ tariff.owed (.node frame phase) := by
  rcases proceed_cases h with ⟨-, rfl⟩ | ⟨-, ⟨rfl, rfl⟩ | ⟨wait, effective, due, rfl, -, rfl⟩ |
    ⟨attempt, _, result, rfl, -, rfl⟩ | ⟨attempt, _, fault, rfl, -, rfl⟩ | ⟨attempt, _, rfl, -, rfl⟩⟩
  · -- Who is cancelled stops, whatever it was doing; the turn was paid for in every phase.
    refine ⟨0, stop_pays _, ?_⟩
    rw [add_zero]
    cases phase with
    | pausing attempt due => exact (le_add_of_nonneg_right zero_le).trans (le_add_of_nonneg_right zero_le)
    | fanning | ended => cases h
    | _ => exact le_add_of_nonneg_right zero_le
  · exact enter_pays sound.acyclic fits
  · refine ⟨_, leaveOrFail_pays fun target output e => ?_, le_rfl⟩
    obtain ⟨_, -, e⟩ := DataFlow.bind_eq_ok.mp e
    obtain ⟨next, leads, e⟩ := DataFlow.bind_eq_ok.mp e
    cases e
    exact Validation.leads_of_successor (sound.waits wait effective due rfl) (mem_successors_of_follow rfl leads)
  · exact ⟨_, conclude_pays (sound.attempting attempt rfl) result, le_rfl⟩
  · exact ⟨_, recover_pays (sound.attempting attempt rfl) fault, le_rfl⟩
  · have attempting : Attempting (frame.retrying attempt) attempt :=
      ⟨(sound.attempting attempt rfl).defined, (sound.attempting attempt rfl).counters⟩
    exact ⟨_, beginAttempt_pays attempting fits, le_of_eq (add_assoc _ _ _).symm⟩

/-- **Every turn is paid for:** after it less is owed than before, by what the turn costs and by what was noted down in
    it. -/
theorem respond_pays {signal : Signal} {activation : Activation} {turn : Turn} (sound : activation.Sound)
    (hturn : activation.respond host moment signal = some turn) (fits : tariff.Fits turn.activation) :
    ∃ given, turn.Pays tariff given ∧ tariff.turn + given ≤ tariff.owed activation := by
  rcases respond_cases hturn with ⟨-, hp⟩ | ⟨frame, attempt, fanOut, index, child, ending, -, rfl, hchild, -, rfl⟩
  · obtain ⟨frame, phase⟩ := activation
    exact proceed_pays sound hp fits
  · refine ⟨_, join_pays (sound.attempting attempt rfl) fanOut index ending, ?_⟩
    rw [Tariff.owed_fanning, ← add_assoc, add_comm tariff.turn]
    exact add_le_add_left (Tariff.ofFanOut_deliver hchild .null) _

end Turns

/-- **Wherever an activation acts, its turn is paid for,** by induction on its place: what a job pays off is paid off by
    all activations around it. -/
theorem act_pays {W : Type} [AddCommMonoid W] [PartialOrder W] [IsOrderedAddMonoid W] [IsBotZeroClass W]
    {tariff : Tariff W} {host : Host} {moment : Moment} {signal : Signal} :
    ∀ {place : Place} {activation after : Activation} {entries : List Entry}, activation.Everywhere Activation.Sound →
      activation.act host moment signal place = some (after, entries) → after.Everywhere tariff.Fits →
      tariff.owed after + (tariff.turn + tariff.charges (entries.map (·.note))) ≤ tariff.owed activation := by
  intro place
  induction place with
  | nil =>
      intro activation after entries sound hact fits
      obtain ⟨turn, hturn, rfl, rfl⟩ := Activation.act_nil hact
      obtain ⟨given, pays, covered⟩ := respond_pays sound.self hturn fits.self
      have notes : (turn.notes.map fun note => (⟨activation.frame.id, note⟩ : Entry)).map (·.note) = turn.notes := by
        rw [List.map_map]
        exact List.map_id _
      rw [notes, add_left_comm]
      exact (add_le_add_right pays _).trans covered
  | cons index place ih =>
      intro activation after entries sound hact fits
      obtain ⟨frame, attempt, fanOut, child, child', rfl, hchild, hinner, rfl⟩ := Activation.act_cons hact
      have hchild' : (fanOut.replace index child').child? index = some child' := by
        rw [FanOut.child?_replace, if_pos rfl, hchild]
        rfl
      -- The holder itself does nothing, so what is owed changes for one of its jobs only.
      have pays := ih (sound.child hchild) hinner (fits.child hchild')
      have accounted := sound.self.accounted attempt fanOut rfl
      rw [Tariff.owed_fanning, Tariff.owed_fanning, add_right_comm]
      exact add_le_add_left (Tariff.ofFanOut_replace accounted hchild pays) _

end Workflow.Execution
