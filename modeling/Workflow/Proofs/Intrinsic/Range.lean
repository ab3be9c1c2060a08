import Workflow.Intrinsic.Eval

/-!
# `Workflow.Proofs.Intrinsic.Range` — ranges of integers

`States.ArrayRange` counts from a start in steps, up or down, until it is past the end.  It goes from number to number, in 64
bits, and takes a thousand of them at most.  All depends on how many numbers there are: as the distance to the end gets less
by the same amount with every step, there are finitely many.

## Contents
- **Numbers.** `Within`, which numbers are not past the end, `exists_count`, and `progression`.
- **Counting.** `Counts`, what counting comes to number by number, with `counts_of_count`; `range_of_counts`: a range
  is what counting comes to; and `counts_or_trapped`: where counting comes to nothing, a range is a trap.
- **Calls.** `applyName_arrayRange`, and `range_exact`, which says what every range is.
-/

namespace Workflow.Intrinsic

variable {start last step next : Int} {count room : Nat} {taken : List Int} {result : Option (List Int)}

/-! ## Numbers -/

/-- The number is not past the end, in the direction of the step. -/
def Within (step last n : Int) : Prop := (0 < step ∧ n ≤ last) ∨ (step < 0 ∧ last ≤ n)

instance (step last n : Int) : Decidable (Within step last n) := inferInstanceAs (Decidable (_ ∨ _))

/-- The number is one of 64 bits. -/
def Fits (n : Int) : Prop := integerMin ≤ n ∧ n ≤ integerMax

/-- Only so many strides go into a distance. -/
theorem exists_count_of_pos {stride : Int} (positive : 0 < stride) (distance : Int) :
    ∃ count : Nat, ∀ k : Nat, k * stride ≤ distance ↔ k < count := by
  refine ⟨(distance / stride + 1).toNat, fun k => ?_⟩
  rw [← Int.le_ediv_iff_mul_le positive]
  omega

/-- **A range is finite.** The numbers that are not past the end come first, and there are as many of them as there is room
    for steps up to the end. -/
theorem exists_count (nonzero : step ≠ 0) (start last : Int) :
    ∃ count : Nat, ∀ k : Nat, Within step last (start + k * step) ↔ k < count := by
  rcases Int.lt_or_gt_of_ne nonzero with negative | positive
  · obtain ⟨count, counted⟩ := exists_count_of_pos (Int.neg_pos_of_neg negative) (start - last)
    refine ⟨count, fun k => ?_⟩
    rw [← counted, Within, Int.mul_neg]
    omega
  · obtain ⟨count, counted⟩ := exists_count_of_pos positive (last - start)
    refine ⟨count, fun k => ?_⟩
    rw [← counted, Within]
    omega

/-- So many numbers from a start, in steps. -/
def progression (start step : Int) (count : Nat) : List Int := (List.range count).map fun k : Nat => start + k * step

@[simp] theorem length_progression (start step : Int) (count : Nat) : (progression start step count).length = count := by
  simp [progression]

theorem progression_succ (start step : Int) (count : Nat) :
    progression start step (count + 1) = progression start step count ++ [start + count * step] := by
  simp [progression, List.range_succ]

/-! ## Counting -/

/-- **Counting, number by number,** given what was taken so far and what comes next.  It comes to a list once what is next is
    past the end, and to none if there is no room for it.  Otherwise the number is taken, and the one after it is reckoned in
    64 bits: where that is impossible, counting comes to nothing at all. -/
inductive Counts (step last : Int) : List Int → Int → Option (List Int) → Prop
  | ended {taken : List Int} {next : Int} (past : ¬ Within step last next) : Counts step last taken next (some taken)
  | full {taken : List Int} {next : Int} (within : Within step last next) (full : taken.length = rangeMax) :
      Counts step last taken next none
  | took {taken : List Int} {next : Int} {result : Option (List Int)} (within : Within step last next)
      (room : taken.length ≠ rangeMax) (fits : Fits (next + step))
      (rest : Counts step last (taken ++ [next]) (next + step) result) : Counts step last taken next result

/-- Where the first `k` numbers have been taken and there is no room for more, or none is left, counting ends. -/
theorem counts_end (counted : ∀ k : Nat, Within step last (start + k * step) ↔ k < count) {k : Nat}
    (stop : k = min count rangeMax) : Counts step last (progression start step k) (start + k * step)
      (if count ≤ rangeMax then some (progression start step count) else none) := by
  by_cases short : count ≤ rangeMax
  · obtain rfl : k = count := by omega
    rw [if_pos short]
    exact .ended fun within => Nat.lt_irrefl k ((counted k).mp within)
  · have full : (progression start step k).length = rangeMax := by
      rw [length_progression]
      omega
    rw [if_neg short]
    exact .full ((counted k).mpr (by omega)) full

/-- Counting goes through the numbers that are not past the end, as long as there is room, and then ends. -/
theorem counts_progression (counted : ∀ k : Nat, Within step last (start + k * step) ↔ k < count)
    (fits : ∀ k : Nat, k ≤ rangeMax → k ≤ count → Fits (start + k * step)) {left k : Nat}
    (taken : k + left = min count rangeMax) : Counts step last (progression start step k) (start + k * step)
      (if count ≤ rangeMax then some (progression start step count) else none) := by
  -- By induction on how many numbers are still to be taken after the first `k`.
  induction left generalizing k with
  | zero => exact counts_end counted taken
  | succ left ih =>
      have number : start + (k + 1 : Nat) * step = start + k * step + step := by
        rw [Int.natCast_succ, Int.add_mul, Int.one_mul, Int.add_assoc]
      have room : (progression start step k).length ≠ rangeMax := by
        rw [length_progression]
        omega
      have inside := fits (k + 1) (by omega) (by omega)
      have rest := ih (k := k + 1) (by omega)
      rw [number] at inside
      rw [progression_succ, number] at rest
      exact .took ((counted k).mpr (by omega)) room inside rest

theorem counts_of_count (counted : ∀ k : Nat, Within step last (start + k * step) ↔ k < count)
    (fits : ∀ k : Nat, k ≤ rangeMax → k ≤ count → Fits (start + k * step)) :
    Counts step last [] start (if count ≤ rangeMax then some (progression start step count) else none) := by
  have all := counts_progression counted fits (Nat.zero_add (min count rangeMax))
  rwa [Int.natCast_zero, Int.zero_mul, Int.add_zero] at all

theorem range_of_past (past : ¬ Within step last next) (room : Nat) : range step last room next = .ok [] := by
  unfold range
  exact if_neg past

theorem range_zero (within : Within step last next) : range step last 0 next = .error (.rangeTooLong rangeMax) := by
  unfold range
  exact if_pos within

theorem range_succ (within : Within step last next) (fits : Fits (next + step)) (room : Nat) :
    range step last (room + 1) next = (range step last room (next + step)).map (next :: ·) := by
  have sum : sum next step = .ok (next + step) := if_pos fits
  rw [range.eq_def]
  simp only [sum]
  exact if_pos within

theorem range_trapped (within : Within step last next) (beyond : ¬ Fits (next + step)) (room : Nat) :
    range step last (room + 1) next = .error (.trapped .overflow) := by
  have sum : sum next step = .error (.trapped .overflow) := if_neg beyond
  rw [range.eq_def]
  simp only [sum]
  exact if_pos within

/-- The outcome that stands for what counting comes to. -/
def outcomeOf : Option (List Int) → Outcome (List Int)
  | some items => .ok items
  | none => .error (.rangeTooLong rangeMax)

/-- **A range is what counting comes to.** -/
theorem range_of_counts (counts : Counts step last taken next result) (rest : taken.length + room = rangeMax) :
    (range step last room next).map (taken ++ ·) = outcomeOf result := by
  induction counts generalizing room with
  | ended past =>
      rw [range_of_past past, Except.map, List.append_nil]
      rfl
  | full within full =>
      obtain rfl : room = 0 := by omega
      rw [range_zero within]
      rfl
  | @took taken next result within more fits _ ih =>
      obtain ⟨room, rfl⟩ := Nat.exists_eq_add_one_of_ne_zero (n := room) (by omega)
      have longer : (taken ++ [next]).length + room = rangeMax := by
        rw [List.length_append, List.length_singleton]
        omega
      rw [range_succ within fits, ← ih longer]
      cases range step last room (next + step) with
      | error misuse => rfl
      | ok items =>
          simp only [Except.map, List.append_assoc, List.singleton_append]

theorem range_of_counts_start (counts : Counts step last [] start result) :
    range step last rangeMax start = outcomeOf result := by
  have ranged := range_of_counts counts (Nat.zero_add rangeMax)
  cases whole : range step last rangeMax start <;> rw [whole] at ranged <;> exact ranged

/-- So counting does not come to two different things. -/
theorem counts_start_iff (counts : Counts step last [] start result) {other : Option (List Int)} :
    Counts step last [] start other ↔ other = result := by
  refine ⟨fun counts' => ?_, ?_⟩
  · have same := (range_of_counts_start counts').symm.trans (range_of_counts_start counts)
    cases other <;> cases result <;> cases same <;> rfl
  · rintro rfl
    exact counts

/-- **Where counting comes to nothing,** a range is a trap, by induction on how much room there is. -/
theorem counts_or_trapped (rest : taken.length + room = rangeMax) :
    (∃ result, Counts step last taken next result) ∨ range step last room next = .error (.trapped .overflow) := by
  induction room generalizing taken next with
  | zero =>
      by_cases within : Within step last next
      · exact Or.inl ⟨none, .full within rest⟩
      · exact Or.inl ⟨some taken, .ended within⟩
  | succ room ih =>
      by_cases within : Within step last next
      · by_cases fits : Fits (next + step)
        · have longer : (taken ++ [next]).length + room = rangeMax := by
            rw [List.length_append, List.length_singleton]
            omega
          have notFull : taken.length ≠ rangeMax := by omega
          refine (ih longer).imp (fun ⟨result, counts⟩ => ⟨result, .took within notFull fits counts⟩) fun trapped => ?_
          rw [range_succ within fits, trapped]
          rfl
        · exact Or.inr (range_trapped within fits room)
      · exact Or.inl ⟨some taken, .ended within⟩

/-! ## Calls -/

section Calls

variable {first second third : Json} (hstart : integerArg "start" first = .ok start)
  (hlast : integerArg "end" second = .ok last) (hstep : integerArg "step" third = .ok step)
include hstart hlast hstep

/-- A call whose arguments are integers gives the range, or yields none as counting does. -/
theorem applyName_arrayRange (chance : Chance) (nonzero : step ≠ 0) :
    applyName "States.ArrayRange" chance [first, second, third] =
      ((range step last rangeMax start).map fun items => .arr (items.map .int)).mapError (.misuse "States.ArrayRange") := by
  have named : Function.ofName? "States.ArrayRange" = some .arrayRange := by decide
  have applied : Function.arrayRange.apply chance [first, second, third] =
      (range step last rangeMax start).map fun items => .arr (items.map .int) := by
    have read : argument [first, second, third] 0 = first ∧ argument [first, second, third] 1 = second ∧
        argument [first, second, third] 2 = third := ⟨rfl, rfl, rfl⟩
    simp only [Function.apply, read, hstart, hlast, hstep, arity, bind, Except.bind, List.length_cons, List.length_nil,
      Nat.le_refl, and_self, if_neg nonzero]
    cases range step last rangeMax start <;> rfl
  rw [applyName, named]
  simp only [applied]

/-- **What a range is.** The arguments are integers, in whatever way they are written, and the step is not zero.  Of the
    numbers that counting reckons, which are those up to the first one past the end, or up to the one for which there is no
    room, none leaves the 64 bits.  Then there is a number of those that are not past the end; if it is a thousand at most,
    counting ends with all of them, and so does the call; otherwise counting ends because there is no room, and the call is
    refused. -/
theorem range_exact (chance : Chance) (nonzero : step ≠ 0)
    (fits : ∀ k : Nat, k ≤ 1000 → (∀ j < k, Within step last (start + j * step)) → Fits (start + k * step)) :
    ∃ count : Nat, (∀ k : Nat, Within step last (start + k * step) ↔ k < count) ∧
      (count ≤ 1000 →
        (∀ result, Counts step last [] start result ↔
          result = some ((List.range count).map fun k : Nat => start + k * step)) ∧
        applyName "States.ArrayRange" chance [first, second, third] =
          .ok (.arr ((List.range count).map fun k : Nat => .int (start + k * step)))) ∧
      (1000 < count →
        (∀ result, Counts step last [] start result ↔ result = none) ∧
        applyName "States.ArrayRange" chance [first, second, third] =
          .error (.misuse "States.ArrayRange" (.rangeTooLong 1000))) := by
  obtain ⟨count, counted⟩ := exists_count nonzero start last
  -- Counting reckons one number more than there are within the range, or stops for lack of room.
  have counts := counts_of_count counted fun k room upTo =>
    fits k room fun j before => (counted j).mpr (Nat.lt_of_lt_of_le before upTo)
  have applied := applyName_arrayRange hstart hlast hstep chance nonzero
  rw [range_of_counts_start counts] at applied
  refine ⟨count, counted, fun short => ?_, fun long => ?_⟩
  · rw [if_pos (show count ≤ rangeMax from short)] at counts applied
    refine ⟨fun result => counts_start_iff counts, ?_⟩
    rw [applied, outcomeOf, Except.map, progression, List.map_map]
    rfl
  · rw [if_neg (show ¬ count ≤ rangeMax from Nat.not_le.mpr long)] at counts applied
    exact ⟨fun result => counts_start_iff counts, applied⟩

end Calls

/-- Three numbers downwards from the greatest one, a thousand numbers, and one more. -/
theorem range_exact_limits :
    applyName "States.ArrayRange" default [.int 9223372036854775807, .int 9223372036854775800, .int (-3)] =
        .ok (.arr [.int 9223372036854775807, .int 9223372036854775804, .int 9223372036854775801]) ∧
      applyName "States.ArrayRange" default [.int 1, .int 1000, .int 1] =
        .ok (.arr ((List.range 1000).map fun k : Nat => .int (1 + k * 1))) ∧
      applyName "States.ArrayRange" default [.int 1, .int 1001, .int 1] =
        .error (.misuse "States.ArrayRange" (.rangeTooLong 1000)) := by
  have down : ∀ k : Nat, k ≤ 1000 → (∀ j < k, Within (-3) 9223372036854775800 (9223372036854775807 + (j : Nat) * (-3))) →
      Fits (9223372036854775807 + k * (-3)) := by
    intro k _ before
    -- The fourth number is past the end.
    have few : k ≤ 3 := Nat.le_of_not_lt fun more => absurd (before 3 more) (by decide)
    unfold Fits integerMin integerMax
    omega
  have up : ∀ k : Nat, k ≤ 1000 → Fits (1 + k * 1) := by
    intro k room
    unfold Fits integerMin integerMax
    omega
  obtain ⟨three, countedThree, all, -⟩ := @range_exact 9223372036854775807 9223372036854775800 (-3)
    (.int 9223372036854775807) (.int 9223372036854775800) (.int (-3)) rfl rfl rfl default (by decide) down
  obtain ⟨thousand, countedThousand, allThousand, -⟩ := @range_exact 1 1000 1 (.int 1) (.int 1000) (.int 1)
    rfl rfl rfl default (by decide) fun k room _ => up k room
  obtain ⟨more, countedMore, -, refused⟩ := @range_exact 1 1001 1 (.int 1) (.int 1001) (.int 1)
    rfl rfl rfl default (by decide) fun k room _ => up k room
  have atLeast := (countedThree 2).mp (by decide)
  have atMost := mt (countedThree 3).mpr (by decide)
  obtain rfl : three = 3 := by omega
  have atLeast := (countedThousand 999).mp (by decide)
  have atMost := mt (countedThousand 1000).mpr (by decide)
  obtain rfl : thousand = 1000 := by omega
  exact ⟨(all (by decide)).2, (allThousand (Nat.le_refl _)).2, (refused ((countedMore 1000).mp (by decide))).2⟩

end Workflow.Intrinsic
