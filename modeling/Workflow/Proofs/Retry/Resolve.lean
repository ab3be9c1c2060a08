import Mathlib.Algebra.Order.BigOperators.Group.List
import Mathlib.Algebra.Order.Ring.Nat
import Workflow.Retry.Resolve

/-!
# `Workflow.Proofs.Retry.Resolve` — what a fault can lead to, and how often

A decision retries, hands over to a catcher, or passes a fault on.  Each retry is counted twice, in all and for the
retrier that allowed it.  As long as every fault so far was retried the two agree, and since a retrier allows only
so many retries, there are only so many in all.

## Contents
- **Decisions.** `handOver_cases` and `resolve_cases`; `retried_of_resolve`, `handled_of_resolve` and
  `propagated_of_resolve`, one for each decision; and `Untaken`, with `resolve_of_untaken`.
- **Counting.** `Counters.InStep`, kept by every retry, and `Counters.InStep.retries_le`.
-/

namespace Workflow.Retry

/-! ## Decisions -/

/-- A fault is handed to a catcher that is for it.  It is passed on where there is none; where the catcher cannot
    put it into the raw input, the fault that says so is passed on instead. -/
theorem handOver_cases (catchers : List Catcher) (fault : Fault) (raw : Json) :
    (∃ catcher output, catcher ∈ catchers ∧
      DataFlow.merge catcher.resultPath raw fault.toJson = .ok output ∧
      handOver catchers fault raw = .handle catcher.next output) ∨
    (∃ catcher last, catcher ∈ catchers ∧
      DataFlow.merge catcher.resultPath raw fault.toJson = .error last ∧
      handOver catchers fault raw = .propagate last) ∨
    handOver catchers fault raw = .propagate fault := by
  unfold handOver
  cases hcatcher : catcherFor? catchers fault with
  | none => exact Or.inr (Or.inr rfl)
  | some catcher =>
      have hmem : catcher ∈ catchers := List.mem_of_find?_eq_some hcatcher
      cases hmerge : DataFlow.merge catcher.resultPath raw fault.toJson with
      | ok output => exact Or.inl ⟨catcher, output, hmem, hmerge, by simp only [hmerge]⟩
      | error last => exact Or.inr (Or.inl ⟨catcher, last, hmem, hmerge, by simp only [hmerge]⟩)

/-- A fault is retried as long as the first retrier that is for it allows one more invocation.  Otherwise it is
    handed over. -/
theorem resolve_cases (recovery : Recovery) (fault : Fault) (raw : Json) (chance : Chance)
    (counters : Counters) :
    (∃ index retrier delay, recovery.retriers[index]? = some retrier ∧
      (counters.record index).count index < retrier.maxAttempts ∧
      resolve recovery fault raw chance counters =
        (.retry ((counters.record index).count index + 1) delay,
          { counters.record index with retries := counters.retries + 1 })) ∨
    (∃ after, resolve recovery fault raw chance counters =
      (handOver recovery.catchers fault raw, after)) := by
  unfold resolve
  split
  · exact Or.inr ⟨counters, rfl⟩
  · rename_i index retrier hfound
    obtain ⟨i, -, hget⟩ := Option.bind_eq_some_iff.mp hfound
    obtain ⟨r, hr, e⟩ := Option.map_eq_some_iff.mp hget
    cases e
    simp only
    split
    · rename_i allowed
      exact Or.inl ⟨index, retrier, _, hr, allowed, rfl⟩
    · exact Or.inr ⟨_, rfl⟩

/-- A fault that is retried was counted for a retrier that allows one more invocation, and one more retry is counted. -/
theorem retried_of_resolve {recovery : Recovery} {fault : Fault} {raw : Json} {chance : Chance}
    {counters after : Counters} {number : Nat} {delay : Duration}
    (h : resolve recovery fault raw chance counters = (.retry number delay, after)) :
    ∃ index retrier, recovery.retriers[index]? = some retrier ∧
      (counters.record index).count index < retrier.maxAttempts ∧
      after = { counters.record index with retries := counters.retries + 1 } := by
  rcases resolve_cases recovery fault raw chance counters with ⟨index, retrier, _, hretrier, allowed, e⟩ | ⟨_, e⟩
  · cases h.symm.trans e
    exact ⟨index, retrier, hretrier, allowed, rfl⟩
  · -- Whoever is handed a fault does not retry.
    have decided := congrArg Prod.fst (h.symm.trans e)
    rcases handOver_cases recovery.catchers fault raw with ⟨_, _, -, -, e'⟩ | ⟨_, _, -, -, e'⟩ | e' <;> cases decided.trans e'

/-- A catcher that takes over is one of the state, and has put the fault into the raw input. -/
theorem handled_of_resolve {recovery : Recovery} {fault : Fault} {raw : Json} {chance : Chance}
    {counters after : Counters} {next : String} {output : Json}
    (h : resolve recovery fault raw chance counters = (.handle next output, after)) :
    ∃ catcher ∈ recovery.catchers, catcher.next = next ∧
      DataFlow.merge catcher.resultPath raw fault.toJson = .ok output := by
  rcases resolve_cases recovery fault raw chance counters with ⟨_, _, _, -, -, e⟩ | ⟨_, e⟩
  · cases h.symm.trans e
  · have decided := congrArg Prod.fst (h.symm.trans e)
    rcases handOver_cases recovery.catchers fault raw with ⟨catcher, _, hmem, hmerge, e'⟩ | ⟨_, _, -, -, e'⟩ | e'
    · cases decided.trans e'
      exact ⟨catcher, hmem, rfl, hmerge⟩
    · cases decided.trans e'
    · cases decided.trans e'

theorem mem_catcher_of_resolve {recovery : Recovery} {fault : Fault} {raw : Json} {chance : Chance}
    {counters after : Counters} {next : String} {output : Json}
    (h : resolve recovery fault raw chance counters = (.handle next output, after)) :
    ∃ catcher ∈ recovery.catchers, catcher.next = next := by
  obtain ⟨catcher, hmem, e, -⟩ := handled_of_resolve h
  exact ⟨catcher, hmem, e⟩

/-- A fault that is passed on is the one that came up, or says that a catcher could not put it anywhere. -/
theorem propagated_of_resolve {recovery : Recovery} {fault last : Fault} {raw : Json} {chance : Chance}
    {counters after : Counters} (h : resolve recovery fault raw chance counters = (.propagate last, after)) :
    last = fault ∨ ∃ catcher ∈ recovery.catchers,
      DataFlow.merge catcher.resultPath raw fault.toJson = .error last := by
  rcases resolve_cases recovery fault raw chance counters with ⟨_, _, _, -, -, e⟩ | ⟨_, e⟩
  · cases h.symm.trans e
  · have decided := congrArg Prod.fst (h.symm.trans e)
    rcases handOver_cases recovery.catchers fault raw with
      ⟨_, _, -, -, e'⟩ | ⟨catcher, _, hmem, hmerge, e'⟩ | e'
    · cases decided.trans e'
    · cases decided.trans e'
      exact Or.inr ⟨catcher, hmem, hmerge⟩
    · cases decided.trans e'
      exact Or.inl rfl

/-- Nobody takes a fault: the first retrier that is for it, if there is one, allows no more invocations, and no
    catcher is for it. -/
structure Untaken (recovery : Recovery) (counters : Counters) (fault : Fault) : Prop where
  usedUp : ∀ index retrier, retrierFor? recovery.retriers fault = some index →
    recovery.retriers[index]? = some retrier → retrier.maxAttempts ≤ (counters.record index).count index
  uncaught : ∀ catcher ∈ recovery.catchers, isFor catcher.errors fault = false

instance (recovery : Recovery) (counters : Counters) (fault : Fault) : Decidable (Untaken recovery counters fault) :=
  decidable_of_iff
    ((∀ index ∈ retrierFor? recovery.retriers fault, ∀ retrier ∈ recovery.retriers[index]?,
      retrier.maxAttempts ≤ (counters.record index).count index) ∧
      ∀ catcher ∈ recovery.catchers, isFor catcher.errors fault = false)
    ⟨fun ⟨usedUp, uncaught⟩ => ⟨fun index retrier hindex hretrier => usedUp index hindex retrier hretrier, uncaught⟩,
      fun h => ⟨fun index hindex retrier hretrier => h.usedUp index retrier hindex hretrier, h.uncaught⟩⟩

/-- **A fault that nobody takes is passed on as it is.** -/
theorem resolve_of_untaken {recovery : Recovery} {fault : Fault} {counters : Counters}
    (h : Untaken recovery counters fault) (raw : Json) (chance : Chance) :
    ∃ after, resolve recovery fault raw chance counters = (.propagate fault, after) := by
  have uncaught : catcherFor? recovery.catchers fault = none :=
    List.find?_eq_none.mpr fun catcher hcatcher => by simp [h.uncaught catcher hcatcher]
  have handed : handOver recovery.catchers fault raw = .propagate fault := by
    rw [handOver, uncaught]
  unfold resolve
  split
  · exact ⟨counters, by rw [handed]⟩
  · rename_i index retrier hfound
    obtain ⟨i, hindex, hget⟩ := Option.bind_eq_some_iff.mp hfound
    obtain ⟨r, hretrier, e⟩ := Option.map_eq_some_iff.mp hget
    cases e
    have usedUp := h.usedUp index retrier hindex hretrier
    exact ⟨counters.record index, by simp only [if_neg (Nat.not_lt.mpr usedUp), handed]⟩

/-! ## Counting -/

namespace Counters

/-- The retries that a retrier allows: one fewer than the invocations. -/
def allowance (retrier : Retrier) : Nat := max retrier.maxAttempts 1 - 1

/-- **The counters are in step with the retriers.** Every failure so far was retried, and no retrier came up more
    often than it allows. -/
structure InStep (retriers : List Retrier) (counters : Counters) : Prop where
  length : counters.failures.length = retriers.length
  retries : counters.retries = counters.failures.sum
  allowed : ∀ index retrier, retriers[index]? = some retrier → counters.count index ≤ allowance retrier

theorem inStep_start (retriers : List Retrier) : InStep retriers (start retriers.length) where
  length := List.length_replicate
  retries := by simp [start]
  allowed index retrier _ := by
    simp only [count, start, List.getElem?_replicate]
    split <;> exact Nat.zero_le _

/-- A retrier that came up once more has come up once more, and no other one has. -/
theorem failures_record {counters : Counters} {index : Nat} (h : index < counters.failures.length) :
    (counters.record index).failures = counters.failures.set index (counters.count index + 1) := by
  have enough : index + 1 - counters.failures.length = 0 := by omega
  simp [record, enough]

/-- To change one of several numbers changes their sum by as much. -/
theorem sum_set_add {numbers : List Nat} {index more : Nat} (h : index < numbers.length) :
    (numbers.set index (numbers[index] + more)).sum = numbers.sum + more := by
  induction numbers generalizing index with
  | nil => cases h
  | cons first rest ih =>
      cases index with
      | zero => simp; omega
      | succ index => simp [ih (Nat.lt_of_succ_lt_succ h)]; omega

/-- **A retry keeps the counters in step.** -/
theorem InStep.retry {retriers : List Retrier} {counters : Counters} {index : Nat} {retrier : Retrier}
    (h : InStep retriers counters) (hretrier : retriers[index]? = some retrier)
    (allowed : (counters.record index).count index < retrier.maxAttempts) :
    InStep retriers { counters.record index with retries := counters.retries + 1 } := by
  have hindex : index < counters.failures.length := h.length ▸ (List.getElem?_eq_some_iff.mp hretrier).1
  have hcount : counters.count index = counters.failures[index] := by simp [count, hindex]
  have hfailures := failures_record hindex
  have hother : ∀ other, (counters.record index).count other =
      if index = other then counters.count index + 1 else counters.count other := by
    intro other
    rw [count, hfailures, List.getElem?_set, if_pos hindex]
    split <;> rfl
  refine ⟨?_, ?_, fun other found hfound => ?_⟩
  · show (counters.record index).failures.length = _
    rw [hfailures, List.length_set, h.length]
  · show counters.retries + 1 = (counters.record index).failures.sum
    rw [hfailures, hcount, sum_set_add hindex, h.retries]
  · show (counters.record index).count other ≤ allowance found
    by_cases e : index = other
    · subst e
      cases hretrier.symm.trans hfound
      have : allowance retrier = max retrier.maxAttempts 1 - 1 := rfl
      omega
    · rw [hother, if_neg e]
      exact h.allowed other found hfound

/-- **All retries together are bounded** by what the retriers allow together. -/
theorem InStep.retries_le {retriers : List Retrier} {counters : Counters} (h : InStep retriers counters) :
    counters.retries ≤ (retriers.map allowance).sum := by
  have same : counters.failures.length = (retriers.map allowance).length := by
    rw [h.length, List.length_map]
  rw [h.retries]
  refine List.Forall₂.sum_le_sum (List.forall₂_iff_get.mpr ⟨same, fun index hfailures hretriers => ?_⟩)
  have hindex : index < retriers.length := h.length ▸ hfailures
  simpa [count, hfailures] using h.allowed index retriers[index] (List.getElem?_eq_getElem hindex)

end Counters

end Workflow.Retry
