import Mathlib.Algebra.Order.BigOperators.Group.List
import Mathlib.Tactic.Abel
import Mathlib.Tactic.GCongr
import Workflow.Proofs.Execution.Turn
import Workflow.Proofs.Retry.Resolve
import Workflow.Proofs.Validation.Acyclic

/-!
# `Workflow.Proofs.Execution.Tariff` — what a run may cost

A tariff gives prices to turns, to states that are entered and to handlers that are invoked.  In a graph that leads back
nowhere, what an activation may still cost can be told at any time: what its own phase may cost, and all states further
on, each visited once; the jobs that it holds, and those still to begin; and as many further attempts as its retriers
allow.

How many iterations a map state has is known only when they begin.  So a tariff says how many it admits, and what that
many cost at most.

## Contents
- **Tariffs.** `Tariff`, and what it makes of graphs and states: `ofGraph`, `ofVisit`, `ofAttempt`.
- **Debts.** `ahead`, the states further on, and `owed`, what an activation may still cost.
- **Jobs.** `ofFanOut_fill`, `ofFanOut_deliver` and `ofFanOut_replace`: what becomes of the debts of jobs.
-/

namespace Workflow.Execution

open Validation (Leads)

/-! ## Tariffs -/

/-- Prices of turns, of states that are entered and of handlers that are invoked. -/
structure Tariff (W : Type) [AddCommMonoid W] [PartialOrder W] where
  turn : W
  entry : W
  call : W
  /-- Whether a map state may have so many iterations. -/
  Admits : Nat → Prop
  /-- What the iterations of a map state cost at most, given what one of them costs. -/
  spread : W → W
  le_spread : ∀ {count : Nat} (price : W), Admits count → count • price ≤ spread price

/-- How many retries the rules of a state allow in one visit. -/
def allowance (recovery : Recovery) : Nat := (recovery.retriers.map Retry.Counters.allowance).sum

/-- How many of them are left after those that were counted. -/
def Attempt.left (attempt : Attempt) : Nat := allowance attempt.state.recovery - attempt.counters.retries

namespace Tariff

variable {W : Type} [AddCommMonoid W] [PartialOrder W] (tariff : Tariff W)

mutual
/-- What it costs to run a graph each of whose states is visited once. -/
def ofGraph : GraphOf State → W
  | ⟨_, _, states⟩ => tariff.turn + ofStates states
/-- What it costs to visit states, each once. -/
def ofStates : List (String × State) → W
  | [] => 0
  | (_, state) :: rest =>
    tariff.entry + (1 + allowance state.recovery) • (tariff.turn + ofAttempt state) + ofStates rest
/-- What an attempt at a state costs, apart from the turn in which it begins. -/
def ofAttempt : State → W
  | .task _ => tariff.call + tariff.turn
  | .wait _ => tariff.turn
  | .parallel _ branches => ofBranches branches
  | .map _ processor => tariff.spread (ofGraph processor + tariff.turn)
  | .choice _ | .pass _ | .succeed _ | .fail _ => 0
/-- What it costs to run branches and to take them in. -/
def ofBranches : List (GraphOf State) → W
  | [] => 0
  | branch :: rest => ofGraph branch + tariff.turn + ofBranches rest
end

/-- What a visit to a state costs: to enter it, and as many attempts as its rules allow. -/
def ofVisit (state : State) : W :=
  tariff.entry + (1 + allowance state.recovery) • (tariff.turn + tariff.ofAttempt state)

theorem ofStates_eq (states : List (String × State)) :
    tariff.ofStates states = (states.map fun e => tariff.ofVisit e.2).sum := by
  induction states with
  | nil => rfl
  | cons first rest ih =>
      obtain ⟨name, state⟩ := first
      rw [List.map_cons, List.sum_cons, ← ih]
      rfl

theorem ofGraph_eq (graph : Graph) :
    tariff.ofGraph graph = tariff.turn + (graph.states.map fun e => tariff.ofVisit e.2).sum := by
  obtain ⟨comment, startAt, states⟩ := graph
  rw [← ofStates_eq]
  rfl

/-- What a job costs: to run its graph and to take it in. -/
def ofJob (job : Job) : W := tariff.ofGraph job.graph + tariff.turn

theorem ofBranches_eq (branches : List Graph) :
    tariff.ofBranches branches = (branches.map fun graph => tariff.ofGraph graph + tariff.turn).sum := by
  induction branches with
  | nil => rfl
  | cons branch rest ih =>
      rw [List.map_cons, List.sum_cons, ← ih]
      rfl

/-- What is noted down about a state that is entered or a handler that is invoked has its price. -/
def charge : Note → W
  | .event (.stateEntered ..) => tariff.entry
  | .call .. => tariff.call
  | _ => 0

/-- The prices of all that is noted down. -/
def charges (notes : List Note) : W := (notes.map tariff.charge).sum

theorem charges_append (notes more : List Note) :
    tariff.charges (notes ++ more) = tariff.charges notes + tariff.charges more := by
  rw [charges, List.map_append, List.sum_append]
  rfl

/-- What has no price costs nothing. -/
theorem charges_eq_zero {notes : List Note} (free : ∀ note ∈ notes, tariff.charge note = 0) :
    tariff.charges notes = 0 := by
  refine List.sum_eq_zero fun price hprice => ?_
  obtain ⟨note, hnote, rfl⟩ := List.mem_map.mp hprice
  exact free note hnote

/-! ## Debts -/

open Classical in
/-- What a named state costs, if it is among those of some names. -/
noncomputable def share (names : String → Prop) (named : String × State) : W :=
  if names named.1 then tariff.ofVisit named.2 else 0

/-- What it costs to visit the states of some names, each once. -/
noncomputable def ahead (graph : Graph) (names : String → Prop) : W :=
  (graph.states.map (tariff.share names)).sum

/-- What an activation in front of its state may still cost: that state and all further on are to be visited. -/
noncomputable def front (frame : Frame) : W :=
  tariff.turn + tariff.ahead frame.graph (Relation.ReflTransGen (Leads frame.graph) frame.state)

/-- What an activation may still cost once it leaves its state. -/
noncomputable def beyond (frame : Frame) : W :=
  tariff.turn + tariff.ahead frame.graph (Relation.TransGen (Leads frame.graph) frame.state)

/-- What an attempt may still cost once it has failed: all that are left, and what lies beyond the state. -/
noncomputable def again (frame : Frame) (attempt : Attempt) : W :=
  attempt.left • (tariff.turn + tariff.ofAttempt attempt.state) + tariff.beyond frame

/-- One more retry costs one of those that are left. -/
theorem again_of_left (frame : Frame) (attempt retried : Attempt) (same : retried.state = attempt.state)
    (left : attempt.left = retried.left + 1) :
    tariff.turn + tariff.ofAttempt retried.state + tariff.again frame retried = tariff.again frame attempt := by
  simp only [again, left, same, succ_nsmul', add_assoc]

mutual
/-- **What an activation may still cost,** with all that it holds. -/
noncomputable def owed : Activation → W
  | .node frame .ready => tariff.front frame
  | .node frame (.waiting ..) => tariff.turn + tariff.beyond frame
  | .node frame (.invoking attempt _) => tariff.turn + tariff.again frame attempt
  | .node frame (.pausing attempt _) =>
    tariff.turn + tariff.ofAttempt attempt.state + tariff.again frame attempt
  | .node frame (.fanning attempt ⟨jobs, _, begun, running, _⟩) =>
    owedByJobs running + ((jobs.drop begun).map tariff.ofJob).sum + tariff.again frame attempt
  | .node _ (.ended _) => 0
/-- What jobs under way may still cost, until they are taken in. -/
noncomputable def owedByJobs : List (Nat × Activation) → W
  | [] => 0
  | (_, child) :: rest => owed child + tariff.turn + owedByJobs rest
end

/-- What the jobs of an attempt may still cost, those under way and those still to begin. -/
noncomputable def ofFanOut (fanOut : FanOut Activation) : W :=
  tariff.owedByJobs fanOut.running + ((fanOut.jobs.drop fanOut.begun).map tariff.ofJob).sum

theorem owed_fanning (frame : Frame) (attempt : Attempt) (fanOut : FanOut Activation) :
    tariff.owed (.node frame (.fanning attempt fanOut)) = tariff.ofFanOut fanOut + tariff.again frame attempt := rfl

theorem owedByJobs_eq (running : List (Nat × Activation)) :
    tariff.owedByJobs running = (running.map fun c => tariff.owed c.2 + tariff.turn).sum := by
  induction running with
  | nil => rfl
  | cons first rest ih =>
      obtain ⟨index, child⟩ := first
      rw [List.map_cons, List.sum_cons, ← ih]
      rfl

section Order

variable [IsOrderedAddMonoid W] [IsBotZeroClass W] {tariff}

omit [IsOrderedAddMonoid W] in
theorem share_le_share {names more : String → Prop} (h : ∀ name, names name → more name) (named : String × State) :
    tariff.share names named ≤ tariff.share more named := by
  unfold share
  by_cases counted : names named.1
  · rw [if_pos counted, if_pos (h _ counted)]
  · rw [if_neg counted]
    exact zero_le

theorem ahead_le_ahead {graph : Graph} {names more : String → Prop} (h : ∀ name, names name → more name) :
    tariff.ahead graph names ≤ tariff.ahead graph more :=
  List.sum_le_sum fun named _ => share_le_share h named

/-- No states of a graph cost more together than the whole graph. -/
theorem turn_add_ahead_le (graph : Graph) (names : String → Prop) :
    tariff.turn + tariff.ahead graph names ≤ tariff.ofGraph graph := by
  rw [ofGraph_eq]
  refine add_le_add_right (List.sum_le_sum fun named _ => ?_) _
  unfold share
  split
  · exact le_rfl
  · exact zero_le

/-- A state that is not among some others is paid for beside them where it is counted with them. -/
theorem visit_add_sum_le {states : List (String × State)} {names more : String → Prop} {name : String} {state : State}
    (hmem : (name, state) ∈ states) (h : ∀ other, names other → more other) (counted : more name) (apart : ¬names name) :
    tariff.ofVisit state + (states.map (tariff.share names)).sum ≤ (states.map (tariff.share more)).sum := by
  induction states with
  | nil => cases hmem
  | cons first rest ih =>
      rw [List.map_cons, List.sum_cons, List.map_cons, List.sum_cons]
      rcases List.mem_cons.mp hmem with rfl | later
      · have excluded : tariff.share names (name, state) = 0 := if_neg apart
        have included : tariff.share more (name, state) = tariff.ofVisit state := if_pos counted
        rw [excluded, included, zero_add]
        exact add_le_add_right (List.sum_le_sum fun named _ => share_le_share h named) _
      · rw [add_left_comm]
        exact add_le_add (share_le_share h first) (ih later)

/-- Wherever a state leads, what lies beyond it covers what follows. -/
theorem front_le_beyond {frame next : Frame} (same : next.graph = frame.graph)
    (leads : Leads frame.graph frame.state next.state) : tariff.front next ≤ tariff.beyond frame := by
  rw [front, beyond, same]
  exact add_le_add_right (ahead_le_ahead fun _ path => .head' leads path) _

/-- In front of a state, the state itself is paid for, with what lies beyond it, if it does not lead back to itself. -/
theorem visit_add_beyond_le_front {frame : Frame} {state : State}
    (defined : frame.graph.state? frame.state = some state)
    (acyclic : ¬Relation.TransGen (Leads frame.graph) frame.state frame.state) :
    tariff.ofVisit state + tariff.beyond frame ≤ tariff.front frame := by
  rw [front, beyond, add_left_comm]
  exact add_le_add_right
    (visit_add_sum_le (Fields.mem_of_find? defined) (fun _ path => path.to_reflTransGen) .refl acyclic) _

/-- An activation that begins may cost what its graph costs. -/
theorem owed_begin_le (id : Id) (graph : Graph) (context input : Json) (chance : Chance) :
    tariff.owed (.begin id graph context input chance) ≤ tariff.ofGraph graph :=
  turn_add_ahead_le graph _

/-! ## Jobs -/

/-- **A job that begins costs no more than it was expected to.** -/
theorem ofFanOut_withNext {frame : Frame} {attempt : Attempt} {fanOut : FanOut Activation} {job : Job} {input : Json}
    (hjob : fanOut.jobs[fanOut.begun]? = some job) :
    tariff.ofFanOut (fanOut.withNext (frame.beginJob attempt fanOut.begun job input)) ≤ tariff.ofFanOut fanOut := by
  obtain ⟨inside, rfl⟩ := List.getElem?_eq_some_iff.mp hjob
  show tariff.owedByJobs (fanOut.running ++ [(fanOut.begun, _)]) +
    ((fanOut.jobs.drop (fanOut.begun + 1)).map tariff.ofJob).sum ≤ _
  rw [ofFanOut, List.drop_eq_getElem_cons inside, List.map_cons, List.sum_cons, owedByJobs_eq, owedByJobs_eq,
    List.map_append, List.sum_append, List.map_singleton, List.sum_singleton, add_assoc]
  exact add_le_add_right (add_le_add_left (add_le_add_left (owed_begin_le _ _ _ _ _) _) _) _

/-- **To begin jobs while there is room costs nothing that was not expected.** -/
theorem ofFanOut_fill (frame : Frame) (attempt : Attempt) (fanOut : FanOut Activation) :
    tariff.ofFanOut (fanOut.fill (frame.beginJob attempt)).fanOut ≤ tariff.ofFanOut fanOut :=
  FanOut.fill_induct (P := fun f => tariff.ofFanOut f ≤ tariff.ofFanOut fanOut)
    (fun _ _ _ h hjob _ _ => (ofFanOut_withNext hjob).trans h) le_rfl

/-- A job that is no longer under way is no longer owed for, nor is the turn in which it was to be taken in. -/
theorem owedByJobs_filter {running : List (Nat × Activation)} {index : Nat} {child : Activation}
    (hmem : (index, child) ∈ running) :
    tariff.owedByJobs (running.filter (·.1 != index)) + tariff.turn ≤ tariff.owedByJobs running := by
  induction running with
  | nil => cases hmem
  | cons first rest ih =>
      simp only [owedByJobs_eq, List.map_cons, List.sum_cons] at ih ⊢
      rcases List.mem_cons.mp hmem with rfl | later
      · -- Others at the same index would be dropped too, which only lowers the sum.
        have dropped : List.Sublist (((index, child) :: rest).filter (·.1 != index)) rest := by
          rw [List.filter_cons_of_neg (by simp)]
          exact List.filter_sublist
        rw [add_comm]
        exact add_le_add (le_add_of_nonneg_left zero_le) ((dropped.map _).sum_le_sum fun _ _ => zero_le)
      · by_cases same : first.1 = index
        · rw [List.filter_cons_of_neg (by simp [same])]
          exact (ih later).trans (le_add_of_nonneg_left zero_le)
        · rw [List.filter_cons_of_pos (by simp [same]), List.map_cons, List.sum_cons, add_assoc]
          exact add_le_add_right (ih later) _

/-- A job that is taken in pays for the turn in which it is. -/
theorem ofFanOut_deliver {fanOut : FanOut Activation} {index : Nat} {child : Activation}
    (hchild : fanOut.child? index = some child) (output : Json) :
    tariff.ofFanOut (fanOut.deliver index output) + tariff.turn ≤ tariff.ofFanOut fanOut := by
  show tariff.owedByJobs (fanOut.running.filter (·.1 != index)) + _ + tariff.turn ≤ _
  rw [add_right_comm]
  exact add_le_add_left (owedByJobs_filter (FanOut.mem_of_child? hchild)) _

omit [IsBotZeroClass W] in
/-- What one job under way has paid off, all of them have, as nobody else is under way at its index. -/
theorem owedByJobs_map {running : List (Nat × Activation)} {index : Nat} {child child' : Activation} {paid : W}
    (nodup : (running.map (·.1)).Nodup) (hmem : (index, child) ∈ running)
    (pays : tariff.owed child' + paid ≤ tariff.owed child) :
    tariff.owedByJobs (running.map fun c => if c.1 == index then (index, child') else c) + paid ≤
      tariff.owedByJobs running := by
  induction running with
  | nil => cases hmem
  | cons first rest ih =>
      obtain ⟨fresh, nodup⟩ := List.nodup_cons.mp nodup
      rw [List.map_cons]
      rcases List.mem_cons.mp hmem with rfl | later
      · -- Nobody else is under way at the index, so the rest stays as it is.
        have others : (rest.map fun c => if c.1 == index then (index, child') else c) = rest := by
          refine (List.map_congr_left fun c hc => ?_).trans (List.map_id rest)
          have apart : c.1 ≠ index := fun same => fresh (List.mem_map.mpr ⟨c, hc, same⟩)
          rw [if_neg (by simpa using apart)]
          rfl
        rw [others, if_pos (by simp), owedByJobs, owedByJobs]
        calc tariff.owed child' + tariff.turn + tariff.owedByJobs rest + paid
            = tariff.owed child' + paid + tariff.turn + tariff.owedByJobs rest := by abel
          _ ≤ tariff.owed child + tariff.turn + tariff.owedByJobs rest := by gcongr
      · have apart : first.1 ≠ index := fun same => fresh (List.mem_map.mpr ⟨_, later, same.symm⟩)
        rw [if_neg (by simpa using apart), owedByJobs, owedByJobs, add_assoc]
        exact add_le_add_right (ih nodup later) _

omit [IsBotZeroClass W] in
/-- What a job under way has paid off, the jobs of its attempt have paid off. -/
theorem ofFanOut_replace {fanOut : FanOut Activation} {index : Nat} {child child' : Activation} {paid : W}
    (accounted : fanOut.Accounted) (hchild : fanOut.child? index = some child)
    (pays : tariff.owed child' + paid ≤ tariff.owed child) :
    tariff.ofFanOut (fanOut.replace index child') + paid ≤ tariff.ofFanOut fanOut := by
  have nodup : (fanOut.running.map (·.1)).Nodup := (List.nodup_append.mp accounted.nodup).1
  show tariff.owedByJobs (fanOut.running.map _) + _ + paid ≤ _
  rw [add_right_comm]
  exact add_le_add_left (owedByJobs_map nodup (FanOut.mem_of_child? hchild) pays) _

end Order

end Tariff

end Workflow.Execution
