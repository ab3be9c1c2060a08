import Workflow.Execution.Batch

/-!
# `Workflow.Proofs.Execution.Batch` — runs side by side do not know of each other

Runs that are under way at once move in any order, one at a time.  What becomes of one of them is what becomes of it by its
own moves, as if it were alone; and whatever moves the runs can make alone, they can make side by side, in every order.

## Contents
- **Moves.** `move_eq_some_iff`: the process at an index moves, the others stay as they are.
- **Plays.** `movesOf`, the moves of one process, and `play_eq_some_iff`, with `play_congr`, `fst_of_play` and
  `getElem?_of_play`.
- **Schedules.** `exists_play`, and `exists_play_simulate`: the processes under their schedules are one such play.
-/

namespace Workflow.Execution

/-- A process under the schedule makes moves in turn. -/
theorem Simulation.exists_play_advance (setup : Setup) (abortAt : Option Nat) (count : Nat) (s : Simulation) :
    ∃ moves, s.process.play setup moves = some (s.advance setup abortAt count).process := by
  induction count generalizing s with
  | zero => exact ⟨[], rfl⟩
  | succ count ih =>
      rw [advance]
      cases next : s.next? setup abortAt with
      | none => exact ⟨[], rfl⟩
      | some later =>
          obtain ⟨move, -, next⟩ := Option.bind_eq_some_iff.mp next
          obtain ⟨process, moved, e⟩ := Option.bind_eq_some_iff.mp next
          cases e
          obtain ⟨moves, played⟩ :=
            ih { process, queue := s.queueAfter move process, peak := max s.peak process.run.outermost.invocations }
          refine ⟨move :: moves, ?_⟩
          rw [Process.play, moved]
          exact played

namespace Batch

variable {batch after : Batch} {index i : Nat} {next : Process.Move} {moves moves' : List (Nat × Process.Move)}

/-! ## Moves -/

/-- The process at an index moves, and the others stay as they are. -/
theorem move_eq_some_iff : batch.move index next = some after ↔ ∃ setup process process', batch[index]? = some (setup, process) ∧
    process.move setup next = some process' ∧ after = batch.set index (setup, process') := by
  induction batch generalizing index after with
  | nil => simp [move]
  | cons first rest ih =>
      obtain ⟨setup, process⟩ := first
      cases index with
      | zero =>
          rw [move, Option.map_eq_some_iff]
          constructor
          · rintro ⟨process', moved, rfl⟩
            exact ⟨setup, process, process', rfl, moved, rfl⟩
          · rintro ⟨setup, process, process', held, moved, rfl⟩
            cases held
            exact ⟨process', moved, rfl⟩
      | succ index =>
          simp only [move, Option.map_eq_some_iff, ih, List.getElem?_cons_succ, List.set_cons_succ]
          constructor
          · rintro ⟨_, ⟨setup, process, process', held, moved, rfl⟩, rfl⟩
            exact ⟨setup, process, process', held, moved, rfl⟩
          · rintro ⟨setup, process, process', held, moved, rfl⟩
            exact ⟨_, ⟨setup, process, process', held, moved, rfl⟩, rfl⟩

/-! ## Plays -/

/-- The moves of the process at an index, in their order. -/
def movesOf (index : Nat) (moves : List (Nat × Process.Move)) : List Process.Move :=
  moves.filterMap fun m => if m.1 = index then some m.2 else none

@[simp] theorem movesOf_nil (index : Nat) : movesOf index [] = [] := rfl

theorem movesOf_cons_self (index : Nat) (next : Process.Move) (moves : List (Nat × Process.Move)) :
    movesOf index ((index, next) :: moves) = next :: movesOf index moves := by
  simp [movesOf]

theorem movesOf_cons_of_ne (apart : i ≠ index) (next : Process.Move) (moves : List (Nat × Process.Move)) :
    movesOf i ((index, next) :: moves) = movesOf i moves := by
  simp [movesOf, Ne.symm apart]

/-- What becomes of a process by its own moves, among those of the batch. -/
def alone (moves : List (Nat × Process.Move)) (index : Nat) (b : Setup × Process) : Option (Setup × Process) :=
  (b.2.play b.1 (movesOf index moves)).map (b.1, ·)

/-- After a move of its own a process goes on by the moves that are left; any other process goes on by them too. -/
theorem mapIdx_alone_cons {setup : Setup} {process process' : Process} (held : batch[index]? = some (setup, process))
    (moved : process.move setup next = some process') (moves : List (Nat × Process.Move)) :
    batch.mapIdx (alone ((index, next) :: moves)) = (batch.set index (setup, process')).mapIdx (alone moves) := by
  refine List.ext_getElem? fun i => ?_
  rw [List.getElem?_mapIdx, List.getElem?_mapIdx]
  by_cases same : i = index
  · subst same
    have bound : i < batch.length := (List.getElem?_eq_some_iff.mp held).1
    rw [held, List.getElem?_set_self bound, Option.map_some, Option.map_some, alone, alone, movesOf_cons_self, Process.play,
      moved, Option.bind_some]
  · rw [List.getElem?_set_ne (Ne.symm same)]
    refine congrArg (Option.map · _) (funext fun b => ?_)
    rw [alone, alone, movesOf_cons_of_ne same]

/-- **Runs side by side do not know of each other.** Moves can be made in turn just if all of them are moves of runs of the
batch and every process can make its own; and what becomes of every process is what becomes of it alone. -/
theorem play_eq_some_iff : batch.play moves = some after ↔
    (∀ m ∈ moves, m.1 < batch.length) ∧ batch.mapIdx (alone moves) = after.map some := by
  induction moves generalizing batch with
  | nil =>
      have still : batch.mapIdx (alone []) = batch.map some := List.ext_getElem? fun i => by
        rw [List.getElem?_mapIdx, List.getElem?_map]
        rfl
      rw [still, List.map_inj_right fun _ _ => Option.some.inj, play, Option.some.injEq]
      exact (and_iff_right fun m inside => absurd inside List.not_mem_nil).symm
  | cons m moves ih =>
      obtain ⟨index, next⟩ := m
      rw [List.forall_mem_cons, play, Option.bind_eq_some_iff]
      constructor
      · rintro ⟨between, hmove, played⟩
        obtain ⟨setup, process, process', held, moved, rfl⟩ := move_eq_some_iff.mp hmove
        obtain ⟨bounds, each⟩ := ih.mp played
        rw [List.length_set] at bounds
        rw [mapIdx_alone_cons held moved]
        exact ⟨⟨(List.getElem?_eq_some_iff.mp held).1, bounds⟩, each⟩
      · rintro ⟨⟨bound, bounds⟩, each⟩
        have held : batch[index]? = some batch[index] := List.getElem?_eq_getElem bound
        -- What is found at the index shows that the first move was possible.
        have found := congrArg (·[index]?) each
        simp only [List.getElem?_mapIdx, List.getElem?_map, held, Option.map_some, alone, movesOf_cons_self, Process.play] at found
        cases moved : batch[index].2.move batch[index].1 next with
        | none =>
            rw [moved] at found
            cases hafter : after[index]? <;> rw [hafter] at found <;> cases found
        | some process' =>
            refine ⟨_, move_eq_some_iff.mpr ⟨_, _, process', held, moved, rfl⟩, ih.mpr ⟨?_, ?_⟩⟩
            · rwa [List.length_set]
            · rw [← mapIdx_alone_cons held moved]
              exact each

/-- **The order in which different runs move does not matter.** -/
theorem play_congr (bounds : ∀ m ∈ moves, m.1 < batch.length) (bounds' : ∀ m ∈ moves', m.1 < batch.length)
    (same : ∀ i, movesOf i moves = movesOf i moves') : batch.play moves = batch.play moves' := by
  have each : alone moves = alone moves' := by
    funext i b
    rw [alone, alone, same]
  refine Option.ext fun after => ?_
  rw [play_eq_some_iff, play_eq_some_iff, and_iff_right bounds, and_iff_right bounds', each]

/-- What becomes of the process at an index. -/
theorem getElem?_of_play (played : batch.play moves = some after) {setup : Setup} {process : Process}
    (held : batch[i]? = some (setup, process)) :
    ∃ process', process.play setup (movesOf i moves) = some process' ∧ after[i]? = some (setup, process') := by
  have found := congrArg (·[i]?) (play_eq_some_iff.mp played).2
  simp only [List.getElem?_mapIdx, List.getElem?_map, held, Option.map_some, alone] at found
  obtain ⟨b, hafter, e⟩ := Option.map_eq_some_iff.mp found.symm
  obtain ⟨process', own, rfl⟩ := Option.map_eq_some_iff.mp e.symm
  exact ⟨process', own, hafter⟩

/-- The runs of a batch are those it was started with. -/
theorem fst_of_play (played : batch.play moves = some after) : after.map Prod.fst = batch.map Prod.fst := by
  have sizes := congrArg List.length (play_eq_some_iff.mp played).2
  rw [List.length_mapIdx, List.length_map] at sizes
  refine List.ext_getElem? fun i => ?_
  rw [List.getElem?_map, List.getElem?_map]
  cases held : batch[i]? with
  | none => rw [List.getElem?_eq_none_iff.mpr (sizes ▸ List.getElem?_eq_none_iff.mp held)]
  | some b =>
      obtain ⟨process', -, hafter⟩ := getElem?_of_play played held
      rw [hafter]
      rfl

theorem fst_start (setups : List Setup) : (start setups).map Prod.fst = setups := by
  rw [start, List.map_map]
  exact List.map_id setups

/-! ## Schedules -/

/-- Moves of the later runs leave the first one as it is. -/
theorem play_later (b : Setup × Process) (rest : Batch) (moves : List (Nat × Process.Move)) :
    Batch.play (b :: rest) (moves.map fun m => (m.1 + 1, m.2)) = (rest.play moves).map (b :: ·) := by
  induction moves generalizing rest with
  | nil => rfl
  | cons m moves ih =>
      rw [List.map_cons, play, play, move]
      cases rest.move m.1 m.2 with
      | none => rfl
      | some between => exact ih between

/-- Moves of the first process leave the later ones as they are. -/
theorem play_first {b : Setup × Process} {process : Process} {own : List Process.Move} (played : b.2.play b.1 own = some process)
    (rest : Batch) (later : List (Nat × Process.Move)) :
    Batch.play (b :: rest) (own.map ((0, ·)) ++ later) = Batch.play ((b.1, process) :: rest) later := by
  induction own generalizing b with
  | nil =>
      cases played
      rfl
  | cons m own ih =>
      obtain ⟨between, moved, played⟩ := Option.bind_eq_some_iff.mp played
      rw [List.map_cons, List.cons_append, play, move, moved]
      exact ih (b := (b.1, between)) played

/-- Whatever moves every process can make alone, the runs can make side by side. -/
theorem exists_play (result : Setup × Process → Process)
    (each : ∀ b ∈ batch, ∃ moves, b.2.play b.1 moves = some (result b)) :
    ∃ moves, batch.play moves = some (batch.map fun b => (b.1, result b)) := by
  induction batch with
  | nil => exact ⟨[], rfl⟩
  | cons first rest ih =>
      obtain ⟨⟨own, played⟩, others⟩ := List.forall_mem_cons.mp each
      obtain ⟨moves, along⟩ := ih others
      refine ⟨own.map ((0, ·)) ++ moves.map fun m => (m.1 + 1, m.2), ?_⟩
      rw [play_first played, play_later, along]
      rfl

/-- **The runs under their schedules are runs side by side.** -/
theorem exists_play_simulate (count : Nat) (setups : List Setup) :
    ∃ moves, (start setups).play moves = some (simulate count setups) := by
  have each : ∀ b ∈ start setups, ∃ moves,
      b.2.play b.1 moves = some ((Simulation.start b.1).advance b.1 none count).process := by
    intro b inside
    obtain ⟨setup, -, rfl⟩ := List.mem_map.mp inside
    exact (Simulation.start setup).exists_play_advance setup none count
  obtain ⟨moves, played⟩ := exists_play _ each
  refine ⟨moves, played.trans ?_⟩
  rw [start, List.map_map]
  rfl

end Batch

end Workflow.Execution
