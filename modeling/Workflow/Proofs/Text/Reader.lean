import Workflow.Text.Reader

/-!
# `Workflow.Proofs.Text.Reader` — what a reading took and left

A reading comes with a bound on the rest of the text, which only matters for termination.  Without the bound, what two
readings gave can be compared, even if they were given texts of different lengths.

## Contents
- `outcome`, for what is certain to take something, and `remainder`, for what may leave the whole text.
- How each of the operations on readings acts on them.
-/

namespace Workflow.Text

variable {ε α β : Type} {cs : List Char}

/-! ## Readings that take something -/

/-- What a reading took and left. -/
def outcome (reading : Except ε (Taken α cs)) : Except ε (α × List Char) := reading.map (·.1)

@[simp] theorem outcome_ok (taken : Taken α cs) : outcome (.ok taken : Except ε (Taken α cs)) = .ok taken.1 := rfl

@[simp] theorem outcome_error (e : ε) : outcome (.error e : Except ε (Taken α cs)) = .error e := rfl

theorem outcome_map_widen {short long : List Char} (h : short.length ≤ long.length)
    (reading : Except ε (Taken α short)) : outcome (reading.map (Taken.widen h)) = outcome reading := by
  cases reading <;> rfl

theorem outcome_map_after {c : Char} (reading : Except ε (Taken α cs)) :
    outcome (reading.map (Taken.after : Taken α cs → Taken α (c :: cs))) = outcome reading := by
  cases reading <;> rfl

theorem outcome_map {short : List Char} (h : Taken α short → short.length ≤ cs.length) (f : α → β)
    (reading : Except ε (Taken α short)) :
    outcome (reading.map fun taken => (taken.map f).widen (h taken)) = (outcome reading).map (Prod.map f id) := by
  cases reading <;> rfl

/-! ## Readings that may leave the whole text -/

/-- What a reading gave and left. -/
def remainder (reading : Except ε (α × Rest cs)) : Except ε (α × List Char) := reading.map fun r => (r.1, r.2.1)

theorem remainder_map_widen {short long : List Char} (h : short.length ≤ long.length)
    (reading : Except ε (α × Rest short)) :
    remainder (reading.map fun r => (r.1, r.2.widen h)) = remainder reading := by
  cases reading <;> rfl

theorem remainder_map_after {c : Char} (reading : Except ε (α × Rest cs)) :
    remainder (reading.map fun r => (r.1, (r.2.after : Rest (c :: cs)))) = remainder reading := by
  cases reading <;> rfl

theorem remainder_map_pair (reading : Except ε α) (rest : Rest cs) :
    remainder (reading.map (·, rest)) = reading.map (·, rest.1) := by
  cases reading <;> rfl

/-- A reading took something if it left less than the text before it. -/
theorem outcome_map_remainder {long : List Char} (shorter : ∀ r : α × Rest cs, r.2.1.length < long.length)
    (reading : Except ε (α × Rest cs)) :
    outcome (reading.map fun r => (⟨(r.1, r.2.1), shorter r⟩ : Taken α long)) = remainder reading := by
  cases reading <;> rfl

end Workflow.Text
