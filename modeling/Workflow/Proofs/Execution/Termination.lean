import Mathlib.Data.Finsupp.Lex
import Mathlib.Data.Finsupp.WellFounded
import Workflow.Execution.Schedule
import Workflow.Proofs.Execution.Once

/-!
# `Workflow.Proofs.Execution.Termination` — acyclic definitions terminate

In a run of a definition that leads back nowhere, every turn is paid for under every tariff.  How long a run may take
cannot be told from the definition alone, since a map state may have any number of iterations; but it can be told as an
ordinal, in which the iterations of a map state count for more than any number of what one of them counts for.  So no run
goes on for ever, and as long as it is not settled somebody can act.  Once the items of its map states are known, what a
run enters and invokes can be counted.

## Contents
- **Ending.** `Run.Ends`: a run that ends, whatever moves it makes.
- **Progress.** `proceed_of_due`, `Activation.induct` and `able_of_hosts`: whoever has not ended can act once time has
  passed, itself or in one of its jobs.
- **Heights.** `Tariff.height`, the tariff in ordinals; `able_of_play` and `lower_of_play`, what one move does to it, and
  `ends_of_play`, by induction.
- **Counting.** `Tariff.counting`, the tariff in numbers; `move_pays` for one move, `play_pays` and `counted_of_play` for a
  play, as long as no map state works on more items than `Run.mostItems`.
- **Termination.** `acyclic_terminates`.
-/

namespace Workflow.Execution

open Validation (Leads Acyclic)

/-! ## Ending -/

namespace Run

/-- A move in which nobody acts: time passes, or someone asks to abort. -/
def Move.IsIdle : Move → Prop
  | .wait _ | .abort => True
  | .overrule | .act .. => False

instance (next : Move) : Decidable next.IsIdle := by
  cases next <;> unfold Move.IsIdle <;> infer_instance

/-- **A run that ends, whatever moves it makes.** It is settled.  Or somebody can always act in it, now or later, however
    much time has passed before and whether or not it was asked to abort; and whoever acts, whenever, leaves a run that
    ends. -/
inductive Ends (setup : Setup) : Run → Prop
  | settled {run : Run} (h : run.settlement.isSome) : Ends setup run
  | going {run : Run}
      (able : ∀ idle between, (∀ next ∈ idle, Move.IsIdle next) → run.play setup idle = some between →
        ∃ time place signal after, between.play setup [.wait time, .act place signal] = some after)
      (ends : ∀ idle between next after, (∀ next ∈ idle, Move.IsIdle next) → run.play setup idle = some between →
        ¬Move.IsIdle next → between.move setup next = some after → Ends setup after) : Ends setup run

/-- Where nobody acts, nothing changes but the time and the demand to abort. -/
theorem play_idle {setup : Setup} {idle : List Move} {run between : Run} (nobody : ∀ next ∈ idle, Move.IsIdle next)
    (h : run.play setup idle = some between) :
    between.outermost = run.outermost ∧ between.settlement = run.settlement := by
  induction idle generalizing run with
  | nil => cases h; exact ⟨rfl, rfl⟩
  | cons next rest ih =>
      obtain ⟨first, hfirst, hrest⟩ := Option.bind_eq_some_iff.mp h
      obtain ⟨sameTree, sameSettlement⟩ := ih (fun later hlater => nobody later (List.mem_cons_of_mem _ hlater)) hrest
      have idle := nobody next List.mem_cons_self
      cases next with
      | wait | abort => cases hfirst; exact ⟨sameTree, sameSettlement⟩
      | _ => cases idle

end Run

/-! ## Progress -/

/-- An invocation is over when its reply is there or its time is up. -/
theorem outcome_of_due (invocation : Invocation) (state : String) {clock : Nat}
    (passed : (invocation.limit.map fun limit => min limit.2 invocation.due).getD invocation.due ≤ clock) :
    (invocation.outcome? state clock).isSome := by
  obtain ⟨reply, due, limit⟩ := invocation
  unfold Invocation.outcome?
  by_cases replied : due ≤ clock
  · simp [replied]
  · cases limit with
    | none => exact absurd passed replied
    | some limit =>
        have late : limit.2 ≤ clock := (min_le_iff.mp passed).resolve_right replied
        simp [replied, late]

/-- An activation that waits for nothing but time goes on when it is due. -/
theorem proceed_of_due {phase : Phase} {due : Nat} (h : phase.due? = some due) (host : Host) {moment : Moment}
    (frame : Frame) (passed : due ≤ moment.clock) : (proceed host moment frame phase).isSome := by
  cases going : moment.cancelled with
  | true =>
      cases phase with
      | fanning | ended => cases h
      | _ => simp [proceed, going]
  | false =>
      cases phase with
      | ready => simp [proceed]
      | waiting | pausing =>
          cases h
          simp [proceed, going, passed]
      | invoking attempt invocation =>
          cases h
          simpa [proceed, going] using outcome_of_due invocation frame.state passed
      | fanning | ended => cases h

/-- **What holds of an activation if it holds of the jobs under way holds of every activation.** -/
theorem Activation.induct {P : Activation → Prop}
    (step : ∀ activation : Activation, (∀ index child, activation.child? index = some child → P child) → P activation)
    (activation : Activation) : P activation := by
  refine step activation fun index child hchild => ?_
  have smaller : sizeOf child < sizeOf activation := by
    obtain ⟨frame, phase⟩ := activation
    cases phase with
    | fanning attempt fanOut =>
        have hmem := List.sizeOf_lt_of_mem (FanOut.mem_of_child? hchild)
        obtain ⟨jobs, limit, begun, running, outputs⟩ := fanOut
        simp at hmem ⊢
        omega
    | _ => cases hchild
  exact Activation.induct step child
termination_by sizeOf activation

/-- **Whoever has not ended can act once enough time has passed,** itself or somewhere inside one of its jobs. -/
theorem able_of_hosts (host : Host) (activation : Activation) :
    activation.Everywhere Activation.Hosts → activation.ending? = none →
      ∃ time place signal, ∀ moment : Moment, time ≤ moment.clock →
        (activation.act host moment signal place).isSome := by
  induction activation using Activation.induct with
  | step activation ih =>
      intro hosts going
      obtain ⟨frame, phase⟩ := activation
      -- Whoever waits for time acts itself, and whoever holds jobs acts for one of them.
      have self : ∀ due, phase.due? = some due → ∃ time place signal, ∀ moment : Moment, time ≤ moment.clock →
          ((Activation.node frame phase).act host moment signal place).isSome := by
        intro due hdue
        refine ⟨due, [], .proceed, fun moment passed => ?_⟩
        simpa [Activation.act, Activation.respond] using proceed_of_due hdue host frame passed
      cases phase with
      | fanning attempt fanOut =>
          obtain ⟨-, busy⟩ := hosts.self frame attempt fanOut rfl
          obtain ⟨c, hc⟩ := List.exists_mem_of_ne_nil _ busy
          obtain ⟨child, hchild⟩ := FanOut.child?_of_mem (List.mem_map_of_mem (f := (·.1)) hc)
          cases hending : child.ending? with
          | some ending =>
              refine ⟨0, [], .join c.1, fun moment _ => ?_⟩
              simp [Activation.act, Activation.respond, hchild, hending]
          | none =>
              obtain ⟨time, place, signal, acts⟩ := ih c.1 child hchild (hosts.child hchild) hending
              refine ⟨time, c.1 :: place, signal, fun moment passed => ?_⟩
              obtain ⟨⟨child', entries⟩, hact⟩ := Option.isSome_iff_exists.mp (acts moment passed)
              rw [Activation.act_of_child hchild hact]
              rfl
      | ended => cases going
      | _ => exact self _ rfl

/-! ## Heights -/

/-- The ordinals below the first one that no power of ω with a finite exponent reaches, with the natural sum: the number of
    times that each power of ω is to be added. -/
abbrev Height := Colex (ℕ →₀ ℕ)

/-- The power of ω that is greater than everything made of the powers in a height. -/
noncomputable def Height.next (height : Height) : Height :=
  toColex (Finsupp.single ((ofColex height).support.sup id + 1) 1)

/-- No number of copies of a height reaches the power above it. -/
theorem Height.nsmul_lt_next (count : ℕ) (height : Height) : count • height < height.next := by
  have above : ∀ power, (ofColex height).support.sup id < power → ofColex height power = 0 := by
    intro power greater
    by_contra there
    exact absurd (Finset.le_sup (f := id) (Finsupp.mem_support_iff.mpr there)) (not_le.mpr greater)
  -- Above the new power both are zero, and at it only the height made of it is not.
  refine Finsupp.Colex.lt_iff.mpr ⟨(ofColex height).support.sup id + 1, fun power greater => ?_, ?_⟩
  · show count • ofColex height power = Finsupp.single ((ofColex height).support.sup id + 1) 1 power
    rw [above power (Nat.lt_of_succ_lt greater), smul_zero, Finsupp.single_eq_of_ne (Nat.ne_of_gt greater)]
  · show count • ofColex height _ < Finsupp.single ((ofColex height).support.sup id + 1) 1 _
    rw [above _ (Nat.lt_succ_self _), smul_zero, Finsupp.single_eq_same]
    exact Nat.one_pos

/-- **The tariff in ordinals.** A turn costs one; the iterations of a map state, however many they are, cost less than the
    next power of ω. -/
noncomputable def Tariff.height : Tariff Height where
  turn := toColex (Finsupp.single 0 1)
  entry := 0
  call := 0
  Admits _ := True
  spread := Height.next
  le_spread price _ := (Height.nsmul_lt_next _ price).le

theorem Tariff.height_turn_pos : 0 < Tariff.height.turn := by
  refine Finsupp.Colex.lt_iff.mpr ⟨0, fun power greater => ?_, ?_⟩
  · exact (Finsupp.single_eq_of_ne (Nat.ne_of_gt greater)).symm
  · show 0 < Finsupp.single 0 1 0
    rw [Finsupp.single_eq_same]
    exact Nat.one_pos

/-- In ordinals any number of iterations is admitted. -/
theorem Tariff.height_fits (activation : Activation) : Tariff.height.Fits activation := by
  obtain ⟨frame, phase⟩ := activation
  cases phase with
  | fanning attempt fanOut =>
      obtain ⟨state, counters⟩ := attempt
      cases state <;> trivial
  | _ => trivial

namespace Run

variable {setup : Setup} {run after : Run}

/-- Where an activation can act, the run can move. -/
theorem move_of_act {place : Place} {signal : Signal} (unsettled : run.settlement = none)
    (acts : (run.outermost.act setup.host run.moment signal place).isSome) :
    ∃ after, run.move setup (.act place signal) = some after := by
  obtain ⟨⟨outermost, entries⟩, hact⟩ := Option.isSome_iff_exists.mp acts
  cases place with
  | nil =>
      cases hover : run.overruled? setup with
      | some settlement => exact ⟨_, move_of_overruled (Or.inr ⟨signal, rfl⟩) unsettled hover⟩
      | none => exact ⟨_, (move_outermost unsettled hover).trans (act_eq hact)⟩
  | cons index place => exact ⟨_, act_eq hact⟩

/-- A move of an activation is a turn of it, whether or not the run is settled after it. -/
theorem outermost_of_act {place : Place} {signal : Signal} (h : run.act setup place signal = some after) :
    ∃ entries, run.outermost.act setup.host run.moment signal place = some (after.outermost, entries) := by
  obtain ⟨outermost, entries, hinner, ⟨ending, -, rfl⟩ | ⟨-, rfl⟩⟩ := act_cases h
  · exact ⟨entries, hinner⟩
  · exact ⟨entries, hinner⟩

/-- **As long as a run is not settled, somebody can act** once enough time has passed. -/
theorem able_of_play {moves : List Move} (played : (start setup).play setup moves = some run)
    (unsettled : run.settlement = none) :
    ∃ time place signal after, run.play setup [.wait time, .act place signal] = some after := by
  obtain ⟨time, place, signal, acts⟩ := able_of_hosts setup.host run.outermost (hosts_of_play played)
    ((sealed_of_play played).going unsettled)
  let later : Run := { run with clock := max run.clock time }
  have unsettledLater : later.settlement = none := unsettled
  obtain ⟨after, hafter⟩ := move_of_act unsettledLater (acts later.moment (Nat.le_max_right _ _))
  refine ⟨time, place, signal, after, ?_⟩
  show (later.move setup (.act place signal)).bind (play setup []) = some after
  rw [hafter]
  rfl

/-- **Whoever acts lowers what is owed,** unless the run is settled from outside. -/
theorem lower_of_play (acyclic : Acyclic setup.definition.graph) {moves : List Move} {next : Move}
    (played : (start setup).play setup moves = some run) (acting : ¬Move.IsIdle next)
    (hmove : run.move setup next = some after) :
    after.settlement.isSome ∨ Tariff.height.owed after.outermost < Tariff.height.owed run.outermost := by
  rcases move_cases hmove with ⟨_, rfl, -⟩ | ⟨rfl, -⟩ | ⟨settlement, -, -, rfl⟩ | ⟨place, signal, rfl, -, hact⟩
  · exact absurd trivial acting
  · exact absurd trivial acting
  · exact Or.inl rfl
  · obtain ⟨entries, hinner⟩ := outermost_of_act hact
    have pays := act_pays (sound_of_play acyclic played) hinner fun _ inner _ => Tariff.height_fits inner
    refine Or.inr (lt_of_lt_of_le (lt_add_of_pos_right _ ?_) pays)
    exact lt_of_lt_of_le Tariff.height_turn_pos (le_add_of_nonneg_right zero_le)

/-- **Every run of an acyclic definition ends,** by induction on the height of what it owes. -/
theorem ends_of_play (acyclic : Acyclic setup.definition.graph) {moves : List Move}
    (played : (start setup).play setup moves = some run) : Ends setup run := by
  generalize hheight : Tariff.height.owed run.outermost = height
  induction height using WellFoundedLT.induction generalizing run moves with
  | ind height ih =>
      cases hsettled : run.settlement with
      | some settlement => exact .settled (hsettled ▸ rfl)
      | none =>
          -- Where nobody acts, nothing that is owed changes, so the height is that of the run before.
          refine .going (fun idle between nobody hidle => ?_) fun idle between next after nobody hidle acting hmove => ?_
          · obtain ⟨-, sameSettlement⟩ := play_idle nobody hidle
            exact able_of_play (play_append played hidle) (sameSettlement.trans hsettled)
          · have reached := play_append played hidle
            obtain ⟨sameTree, -⟩ := play_idle nobody hidle
            rcases lower_of_play acyclic reached acting hmove with settled | lower
            · exact .settled settled
            · rw [sameTree, hheight] at lower
              exact ih _ lower (play_concat reached hmove) rfl

end Run

/-! ## Counting -/

/-- The tariff that counts states entered and handlers invoked, each with its own price, as long as no map state has more
    items than given. -/
def Tariff.counting (entry call most : ℕ) : Tariff ℕ where
  turn := 0
  entry := entry
  call := call
  Admits count := count ≤ most
  spread price := most * price
  le_spread price few := Nat.mul_le_mul_right price few

/-- The invocation that an entry notes, if it is one. -/
def Run.callOf? (entry : Entry) : Option (String × Json) :=
  match entry.note with
  | .event _ => none
  | .call key input => some (key, input)

theorem Run.calls_eq (run : Run) : run.calls = run.log.reverse.filterMap callOf? := by
  refine congrArg (List.filterMap · run.log.reverse) (funext fun ⟨_, note⟩ => ?_)
  cases note <;> rfl

/-- What a log costs under a tariff that counts: so much for each state entered and each handler invoked. -/
theorem Tariff.charges_counting (entry call most : ℕ) (log : List Entry) :
    (Tariff.counting entry call most).charges (log.map (·.note)) =
      entry * (enteredIn (log.reverse.filterMap Run.eventOf?)).length +
        call * (log.reverse.filterMap Run.callOf?).length := by
  induction log with
  | nil => rfl
  | cons first rest ih =>
      have split : (Tariff.counting entry call most).charges ((first :: rest).map (·.note)) =
          (Tariff.counting entry call most).charge first.note +
            (Tariff.counting entry call most).charges (rest.map (·.note)) := rfl
      -- A note is charged for what it is counted as, and each is counted once at most.
      have priced : (Tariff.counting entry call most).charge first.note =
          entry * (enteredIn ([first].filterMap Run.eventOf?)).length + call * ([first].filterMap Run.callOf?).length := by
        obtain ⟨id, note⟩ := first
        cases note with
        | call key input => exact (Nat.zero_add _).symm.trans (congrArg (0 + ·) (Nat.mul_one call).symm)
        | event event =>
            cases event with
            | stateEntered => exact (Nat.mul_one entry).symm
            | _ => rfl
      rw [split, ih, priced, List.reverse_cons, List.filterMap_append, List.filterMap_append, enteredIn_append,
        List.length_append, List.length_append, Nat.mul_add, Nat.mul_add]
      omega

mutual
/-- The greatest number of items that a map state inside an activation works on. -/
def Activation.mostItems : Activation → ℕ
  | .node _ (.fanning ⟨.map .., _⟩ ⟨jobs, _, _, running, _⟩) => max jobs.length (mostItemsOfJobs running)
  | .node _ (.fanning _ ⟨_, _, _, running, _⟩) => mostItemsOfJobs running
  | .node .. => 0
/-- The greatest number of items that a map state inside one of several jobs works on. -/
def mostItemsOfJobs : List (Nat × Activation) → ℕ
  | [] => 0
  | (_, child) :: rest => max child.mostItems (mostItemsOfJobs rest)
end

theorem mostItems_le_of_mem {running : List (Nat × Activation)} {named : Nat × Activation} (h : named ∈ running) :
    named.2.mostItems ≤ mostItemsOfJobs running := by
  induction running with
  | nil => cases h
  | cons first rest ih =>
      rw [mostItemsOfJobs]
      rcases List.mem_cons.mp h with rfl | later
      · exact Nat.le_max_left _ _
      · exact (ih later).trans (Nat.le_max_right _ _)

theorem mostItems_le_of_child? {activation child : Activation} {index : Nat} (h : activation.child? index = some child) :
    child.mostItems ≤ activation.mostItems := by
  obtain ⟨frame, phase⟩ := activation
  cases phase with
  | fanning attempt fanOut =>
      have among := mostItems_le_of_mem (FanOut.mem_of_child? h)
      obtain ⟨state, counters⟩ := attempt
      obtain ⟨jobs, limit, begun, running, outputs⟩ := fanOut
      cases state with
      | map => exact among.trans (Nat.le_max_right _ _)
      | _ => exact among
  | _ => cases h

/-- Where no map state works on more items than given, the tariff admits all of them. -/
theorem fits_of_mostItems (entry call : ℕ) {most : ℕ} {activation : Activation} (few : activation.mostItems ≤ most) :
    activation.Everywhere (Tariff.counting entry call most).Fits := by
  intro place inner hinner
  induction place generalizing activation with
  | nil =>
      cases hinner
      obtain ⟨frame, phase⟩ := inner
      cases phase with
      | fanning attempt fanOut =>
          obtain ⟨state, counters⟩ := attempt
          obtain ⟨jobs, limit, begun, running, outputs⟩ := fanOut
          cases state with
          | map => exact (Nat.le_max_left _ _).trans few
          | _ => trivial
      | _ => trivial
  | cons index place ih =>
      obtain ⟨child, hchild, below⟩ := Option.bind_eq_some_iff.mp hinner
      exact ih ((mostItems_le_of_child? hchild).trans few) below

namespace Run

variable {setup : Setup} {run after : Run}

/-- The greatest number of items that a map state works on while a run makes moves. -/
def mostItems (setup : Setup) : List Move → Run → ℕ
  | [], run => run.outermost.mostItems
  | next :: rest, run => max run.outermost.mostItems (((run.move setup next).map (mostItems setup rest)).getD 0)

/-- What is under way at the end of a play works on no more items than there are in the whole play. -/
theorem mostItems_le (setup : Setup) (moves : List Move) (run : Run) :
    run.outermost.mostItems ≤ mostItems setup moves run := by
  cases moves with
  | nil => exact Nat.le_refl _
  | cons next rest => exact Nat.le_max_left _ _

/-- **Every move is paid for:** what the log costs and what is owed together do not grow. -/
theorem move_pays {W : Type} [AddCommMonoid W] [PartialOrder W] [IsOrderedAddMonoid W] [IsBotZeroClass W]
    {tariff : Tariff W} {next : Move} (sound : run.outermost.Everywhere Activation.Sound)
    (fits : after.outermost.Everywhere tariff.Fits) (hmove : run.move setup next = some after) :
    tariff.charges (after.log.map (·.note)) + tariff.owed after.outermost ≤
      tariff.charges (run.log.map (·.note)) + tariff.owed run.outermost := by
  -- An entry about the settlement costs nothing.
  have free : ∀ {closing : List Entry}, (∀ entry ∈ closing, Closing entry) →
      tariff.charges (closing.map (·.note)) = 0 := by
    intro closing last
    refine tariff.charges_eq_zero fun note hnote => ?_
    obtain ⟨entry, hentry, rfl⟩ := List.mem_map.mp hnote
    obtain ⟨settlement, millis, ofSettlement⟩ := last entry hentry
    obtain ⟨event, told, rfl⟩ := Settlement.mem_entries.mp ofSettlement
    cases settlement <;> cases told <;> rfl
  rcases move_effect hmove with
    ⟨same, sameLog⟩ | ⟨closing, last, same, hlog⟩ | ⟨place, signal, entries, closing, -, hact, last, hlog⟩
  · rw [same, sameLog]
  · -- Whoever is given up owes nothing any more.
    have nothing : tariff.owed run.outermost.givenUp = 0 := by
      cases run.outermost
      rfl
    rw [same, hlog, nothing, add_zero, List.map_append, Tariff.charges_append, free last, zero_add]
    exact le_add_of_nonneg_right zero_le
  · have pays := act_pays sound hact fits
    have told : tariff.charges (entries.reverse.map (·.note)) = tariff.charges (entries.map (·.note)) := by
      rw [List.map_reverse, Tariff.charges, Tariff.charges, List.map_reverse, List.sum_reverse]
    rw [hlog, List.map_append, List.map_append, Tariff.charges_append, Tariff.charges_append, free last, zero_add, told]
    calc tariff.charges (entries.map (·.note)) + tariff.charges (run.log.map (·.note)) + tariff.owed after.outermost
        = tariff.charges (run.log.map (·.note)) +
            (tariff.owed after.outermost + tariff.charges (entries.map (·.note))) := by abel
      _ ≤ tariff.charges (run.log.map (·.note)) +
            (tariff.owed after.outermost + (tariff.turn + tariff.charges (entries.map (·.note)))) := by
          gcongr
          exact le_add_of_nonneg_left zero_le
      _ ≤ tariff.charges (run.log.map (·.note)) + tariff.owed run.outermost := by gcongr

/-- **A play is paid for,** by induction over its moves, under a tariff that admits the items of all map states in it. -/
theorem play_pays (acyclic : Acyclic setup.definition.graph) {entry call most : ℕ} :
    ∀ {moves before : List Move} {run after : Run}, (start setup).play setup before = some run →
      run.play setup moves = some after → mostItems setup moves run ≤ most →
      (Tariff.counting entry call most).charges (after.log.map (·.note)) ≤
        (Tariff.counting entry call most).charges (run.log.map (·.note)) +
          (Tariff.counting entry call most).owed run.outermost := by
  intro moves
  induction moves with
  | nil =>
      rintro before run after - ⟨⟩ -
      exact Nat.le_add_right _ _
  | cons next rest ih =>
      intro before run after reached hplay few
      obtain ⟨between, hnext, hrest⟩ := Option.bind_eq_some_iff.mp hplay
      -- The tariff is that of the whole play, so it admits what is under way at any time in it.
      rw [mostItems, hnext] at few
      have later : mostItems setup rest between ≤ most := (Nat.le_max_right _ _).trans few
      have fits := fits_of_mostItems entry call ((mostItems_le setup rest between).trans later)
      exact (ih (play_concat reached hnext) hrest later).trans (move_pays (sound_of_play acyclic reached) fits hnext)

/-- What a run of an acyclic definition has entered and invoked costs no more than its graph. -/
theorem counted_of_play (acyclic : Acyclic setup.definition.graph) (entry call : ℕ) {moves : List Move}
    (played : (start setup).play setup moves = some run) :
    entry * (enteredIn run.events).length + call * run.calls.length ≤
      (Tariff.counting entry call (mostItems setup moves (start setup))).ofGraph setup.definition.graph := by
  rw [events_eq, calls_eq, ← Tariff.charges_counting]
  refine (play_pays acyclic (show (start setup).play setup [] = some _ from rfl) played le_rfl).trans ?_
  exact (Nat.zero_add _).le.trans (Tariff.owed_begin_le _ _ _ _ _)

/-! ## Termination -/

/-- **Acyclic definitions terminate.** Where no state leads back to itself, neither in the graph of a definition nor in any
    graph inside it, every run on every input and with every host ends.  In no such run does an activation enter a state
    twice.  What the run has entered and invoked at any time is bounded by the graphs, the retries that their states
    allow, and the greatest number of items that a map state in it has worked on. -/
theorem acyclic_terminates (setup : Setup) (acyclic : Acyclic setup.definition.graph) :
    Ends setup (start setup) ∧
      ∀ (moves : List Move) (run : Run), (start setup).play setup moves = some run →
        (∀ id, (enteredIn (run.trace id)).Nodup) ∧
        (enteredIn run.events).length ≤
          (Tariff.counting 1 0 (mostItems setup moves (start setup))).ofGraph setup.definition.graph ∧
        run.calls.length ≤
          (Tariff.counting 0 1 (mostItems setup moves (start setup))).ofGraph setup.definition.graph := by
  refine ⟨ends_of_play acyclic (show (start setup).play setup [] = some _ from rfl), fun moves run played => ?_⟩
  have entries := counted_of_play acyclic 1 0 played
  have calls := counted_of_play acyclic 0 1 played
  rw [Nat.one_mul, Nat.zero_mul, Nat.add_zero] at entries
  rw [Nat.one_mul, Nat.zero_mul, Nat.zero_add] at calls
  exact ⟨entered_nodup_of_play acyclic played, entries, calls⟩

/-- A graph of one task that may be tried twice. -/
def mappedGraph : Graph :=
  ⟨none, "Try", [("Try", .task ⟨none, "resource", .whole, .whole, .whole, none, none,
    ⟨[⟨["States.ALL"], 1, 2, 1, none, .fixed⟩], []⟩, none, none, none, none, ⟨none, true⟩⟩)]⟩

/-- A run that does the task for both of its items, and then is done. -/
def mapped : Setup where
  definition :=
    let each : MapState := ⟨none, none, none, none, .whole, .whole, .whole, none, .none, ⟨some "Done", false⟩⟩
    ⟨⟨none, "Each", [("Done", .succeed ⟨none, .whole, .whole⟩), ("Each", .map each mappedGraph)]⟩, none, none⟩
  host := ⟨⟨[("Try", ⟨fun _ input => ⟨5, .returned input, false⟩⟩)]⟩, [], 0⟩
  machine := Setup.defaultMachine
  runId := "run"
  input := .arr [.int 1, .int 2]
  seed := none
  chance := default

/-- Both iterations begin at once, and end and are taken in in the other order. -/
def mappedMoves : List Move :=
  [.act [] .proceed, .act [0] .proceed, .act [1] .proceed, .wait 5, .act [1] .proceed, .act [] (.join 1),
    .act [0] .proceed, .act [] (.join 0), .act [] .proceed]

theorem acyclic_mapped : Acyclic mapped.definition.graph := by
  have both : ∀ inner, Validation.Inside mapped.definition.graph inner →
      inner = mapped.definition.graph ∨ inner = mappedGraph := by
    intro inner inside
    induction inside with
    | self => exact Or.inl rfl
    | within _ defined held ih =>
        have hmem := Fields.mem_of_find? defined
        rcases ih with rfl | rfl
        · rcases List.mem_cons.mp hmem with e | hmem
          · cases e
            cases held
          · cases List.mem_singleton.mp hmem
            exact Or.inr (List.mem_singleton.mp held)
        · cases List.mem_singleton.mp hmem
          cases held
  intro inner inside
  refine Validation.not_transGen_of_rank (fun name => if name = "Done" then 1 else 0) ?_
  rcases both inner inside with rfl | rfl <;> decide

/-- The run enters as many states as it may, and invokes half as many handlers, since no task has to be tried twice. -/
theorem acyclic_terminates_mapped :
    Ends mapped (start mapped) ∧ ∃ run, (start mapped).play mapped mappedMoves = some run ∧ run.settlement.isSome ∧
      enteredIn run.events = ["Each", "Try", "Try", "Done"] ∧ (enteredIn run.events).length ≤ 4 ∧
      run.calls.length = 2 ∧ run.calls.length ≤ 4 ∧ ∀ id, (enteredIn (run.trace id)).Nodup := by
  obtain ⟨ends, every⟩ := acyclic_terminates mapped acyclic_mapped
  have evaluated : ((start mapped).play mapped mappedMoves).map (fun run =>
      (run.settlement.isSome, enteredIn run.events, run.calls.length)) =
        some (true, ["Each", "Try", "Try", "Done"], 2) := by
    decide +kernel
  obtain ⟨run, played, told⟩ := Option.map_eq_some_iff.mp evaluated
  obtain ⟨settled, entered, called⟩ : run.settlement.isSome = true ∧
      enteredIn run.events = ["Each", "Try", "Try", "Done"] ∧ run.calls.length = 2 := by
    simpa only [Prod.mk.injEq] using told
  obtain ⟨once, entries, calls⟩ := every mappedMoves run played
  have items : mostItems mapped mappedMoves (start mapped) = 2 := by decide +kernel
  rw [items] at entries calls
  exact ⟨ends, run, played, settled, entered, entries, called, calls, once⟩

end Run

end Workflow.Execution
