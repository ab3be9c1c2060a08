import Workflow.Proofs.Retry.Resolve

/-!
# `Workflow.Proofs.Retry.Sequence` — faults that come up one after another

While a state is run, its faults share one set of counters.  A counter is only moved by the faults that its retrier
is the first to be for, however the faults of the others lie between them; it goes on counting when the retrier is
used up, and a counter that is not there yet counts as zero.  So what a fault leads to depends on how many of the
faults up to it belong to the same retrier, and on nothing else that happened.

## Contents
- **A sequence.** `resolveAll` and the counters it leaves, `after`; `met`, the faults of one retrier.
- **One fault.** `Counters.count_record`, and from it `count_of_resolve`.
- **What it leads to.** `Allowed`, `Retries` and `HandsOver`, and `decided_of_resolve`, which chooses between them; and
  `retries_of_resolve`.
- **All of them.** `count_after` and `retries_after`, by induction, and `resolveAll_regardless`.
-/

namespace Workflow.Retry

/-! ## A sequence -/

/-- What each of several faults leads to, with the counters after it.  The counters of one are those that the one
    before it left. -/
def resolveAll (recovery : Recovery) (raw : Json) : List (Fault × Chance) → Counters → List (Decision × Counters)
  | [], _ => []
  | (fault, chance) :: rest, counters =>
    let decided := resolve recovery fault raw chance counters
    decided :: resolveAll recovery raw rest decided.2

/-- The counters that several faults leave. -/
def after (recovery : Recovery) (raw : Json) (faults : List (Fault × Chance)) (counters : Counters) : Counters :=
  faults.foldl (fun counters each => (resolve recovery each.1 raw each.2 counters).2) counters

/-- How many of several faults a retrier is the first to be for. -/
def met (retriers : List Retrier) (faults : List (Fault × Chance)) (index : Nat) : Nat :=
  faults.countP fun each => retrierFor? retriers each.1 = some index

/-- Whether a state is invoked again. -/
def Decision.isRetry : Decision → Bool
  | .retry .. => true
  | .handle .. | .propagate .. => false

/-! ## One fault -/

/-- **A failure is counted for its retrier alone**, however many counters there were. -/
theorem Counters.count_record (counters : Counters) (index other : Nat) :
    (counters.record index).count other = counters.count other + if index = other then 1 else 0 := by
  have padded : ∀ more, (counters.failures ++ List.replicate more 0)[other]?.getD 0 = counters.count other := by
    intro more
    rw [Counters.count, List.getElem?_append]
    split
    · rfl
    · rename_i beyond
      rw [List.getElem?_eq_none (Nat.le_of_not_lt beyond), List.getElem?_replicate]
      split <;> rfl
  simp only [Counters.record, Counters.count, List.getElem?_set]
  by_cases same : index = other
  · subst same
    -- The counter is there once the list has been made long enough.
    have enough : index < (counters.failures ++ List.replicate (index + 1 - counters.failures.length) 0).length := by
      rw [List.length_append, List.length_replicate]
      omega
    rw [if_pos rfl, if_pos enough, if_pos rfl]
    rfl
  · rw [if_neg same, if_neg same]
    exact padded _

/-- The retrier that is the first to be for a fault is one of the retriers. -/
theorem getElem?_of_retrierFor? {retriers : List Retrier} {fault : Fault} {index : Nat}
    (h : retrierFor? retriers fault = some index) : ∃ retrier, retriers[index]? = some retrier := by
  obtain ⟨hlt, -, -⟩ := List.findIdx?_eq_some_iff_getElem.mp h
  exact ⟨retriers[index], List.getElem?_eq_getElem hlt⟩

/-- A fault that no retrier is for is handed over at once. -/
theorem resolve_of_none {recovery : Recovery} {fault : Fault} (h : retrierFor? recovery.retriers fault = none)
    (raw : Json) (chance : Chance) (counters : Counters) :
    resolve recovery fault raw chance counters = (handOver recovery.catchers fault raw, counters) := by
  rw [resolve, h]
  rfl

/-- A fault that a retrier is for is counted; it is retried where the retrier allows one more invocation, and
    handed over where it does not. -/
theorem resolve_of_some {recovery : Recovery} {fault : Fault} {index : Nat} {retrier : Retrier}
    (first : retrierFor? recovery.retriers fault = some index) (hretrier : recovery.retriers[index]? = some retrier)
    (raw : Json) (chance : Chance) (counters : Counters) :
    resolve recovery fault raw chance counters =
      if (counters.record index).count index < retrier.maxAttempts then
        (.retry ((counters.record index).count index + 1)
          (jittered retrier.jitter chance (backoff retrier ((counters.record index).count index))),
          { counters.record index with retries := counters.retries + 1 })
      else (handOver recovery.catchers fault raw, counters.record index) := by
  rw [resolve, first, Option.bind_some, hretrier]
  rfl

/-- A fault moves the counter of the first retrier that is for it, and no other one. -/
theorem count_of_resolve (recovery : Recovery) (fault : Fault) (raw : Json) (chance : Chance) (counters : Counters)
    (index : Nat) :
    (resolve recovery fault raw chance counters).2.count index =
      counters.count index + if retrierFor? recovery.retriers fault = some index then 1 else 0 := by
  cases first : retrierFor? recovery.retriers fault with
  | none => rw [resolve_of_none first]; rfl
  | some own =>
      obtain ⟨retrier, hretrier⟩ := getElem?_of_retrierFor? first
      have counted : (resolve recovery fault raw chance counters).2.count index =
          (counters.record own).count index := by
        rw [resolve_of_some first hretrier]
        split <;> rfl
      rw [counted, Counters.count_record]
      simp only [Option.some.injEq]

/-! ## What it leads to -/

/-- The first retrier for a fault allows one more invocation, as it has come up so often; the fault included. -/
def Allowed (recovery : Recovery) (fault : Fault) (count : Nat → Nat) : Prop :=
  ∃ index retrier, retrierFor? recovery.retriers fault = some index ∧
    recovery.retriers[index]? = some retrier ∧ count index < retrier.maxAttempts

/-- The state is invoked again, by the first retrier for the fault, with the number of the invocation and after the
    delay that belong to the times that the retrier came up. -/
def Retries (recovery : Recovery) (fault : Fault) (count : Nat → Nat) (decision : Decision) : Prop :=
  ∃ index retrier delay, retrierFor? recovery.retriers fault = some index ∧
    recovery.retriers[index]? = some retrier ∧ count index < retrier.maxAttempts ∧
    decision = .retry (count index + 1) delay ∧
    (retrier.jitter = .fixed → delay = backoff retrier (count index)) ∧
    delay.nanos ≤ (backoff retrier (count index)).nanos

/-- The fault goes to the first catcher for it, which puts it into the raw input.  Where that fails, the failure is
    passed on instead; where there is no catcher, the fault is. -/
def HandsOver (recovery : Recovery) (fault : Fault) (raw : Json) (decision : Decision) : Prop :=
  (∃ catcher output, catcherFor? recovery.catchers fault = some catcher ∧
    DataFlow.merge catcher.resultPath raw fault.toJson = .ok output ∧ decision = .handle catcher.next output) ∨
  (∃ catcher last, catcherFor? recovery.catchers fault = some catcher ∧
    DataFlow.merge catcher.resultPath raw fault.toJson = .error last ∧ decision = .propagate last) ∨
  (catcherFor? recovery.catchers fault = none ∧ decision = .propagate fault)

theorem Retries.isRetry {recovery : Recovery} {fault : Fault} {count : Nat → Nat} {decision : Decision}
    (h : Retries recovery fault count decision) : decision.isRetry = true := by
  obtain ⟨_, _, _, -, -, -, rfl, -, -⟩ := h
  rfl

theorem HandsOver.isRetry {recovery : Recovery} {fault : Fault} {raw : Json} {decision : Decision}
    (h : HandsOver recovery fault raw decision) : decision.isRetry = false := by
  rcases h with ⟨_, _, -, -, rfl⟩ | ⟨_, _, -, -, rfl⟩ | ⟨-, rfl⟩ <;> rfl

theorem handsOver_handOver (recovery : Recovery) (fault : Fault) (raw : Json) :
    HandsOver recovery fault raw (handOver recovery.catchers fault raw) := by
  unfold handOver
  cases hcatcher : catcherFor? recovery.catchers fault with
  | none => exact Or.inr (Or.inr ⟨hcatcher, rfl⟩)
  | some catcher =>
      cases hmerge : DataFlow.merge catcher.resultPath raw fault.toJson with
      | ok output => exact Or.inl ⟨catcher, output, hcatcher, hmerge, by simp only [hmerge]⟩
      | error last => exact Or.inr (Or.inl ⟨catcher, last, hcatcher, hmerge, by simp only [hmerge]⟩)

/-- What a fault leads to is decided by how often its retrier came up with it. -/
theorem decided_of_resolve (recovery : Recovery) (fault : Fault) (raw : Json) (chance : Chance)
    (counters : Counters) :
    let count := (resolve recovery fault raw chance counters).2.count
    let decision := (resolve recovery fault raw chance counters).1
    (Allowed recovery fault count ∧ Retries recovery fault count decision) ∨
      (¬Allowed recovery fault count ∧ HandsOver recovery fault raw decision) := by
  intro count decision
  cases first : retrierFor? recovery.retriers fault with
  | none =>
      refine Or.inr ⟨?_, ?_⟩
      · rintro ⟨index, _, own, -⟩
        cases first.symm.trans own
      · show HandsOver recovery fault raw (resolve recovery fault raw chance counters).1
        rw [resolve_of_none first]
        exact handsOver_handOver recovery fault raw
  | some own =>
      obtain ⟨retrier, hretrier⟩ := getElem?_of_retrierFor? first
      -- The fault is counted first, so the retrier is asked about the count that is left behind.
      have hcount : count own = (counters.record own).count own := by
        show (resolve recovery fault raw chance counters).2.count own = _
        rw [count_of_resolve, if_pos first, Counters.count_record, if_pos rfl]
      have decided := resolve_of_some first hretrier raw chance counters
      rw [← hcount] at decided
      by_cases left : count own < retrier.maxAttempts
      · rw [if_pos left] at decided
        refine Or.inl ⟨⟨own, retrier, first, hretrier, left⟩, own, retrier, _, first, hretrier, left,
          congrArg Prod.fst decided, ?_, jittered_le _ _ _⟩
        intro fixed
        rw [fixed]
        rfl
      · rw [if_neg left] at decided
        refine Or.inr ⟨?_, ?_⟩
        · rintro ⟨index, found, own', hfound, left'⟩
          cases first.symm.trans own'
          cases hretrier.symm.trans hfound
          exact left left'
        · show HandsOver recovery fault raw (resolve recovery fault raw chance counters).1
          rw [decided]
          exact handsOver_handOver recovery fault raw

/-- The retries are counted one by one. -/
theorem retries_of_resolve (recovery : Recovery) (fault : Fault) (raw : Json) (chance : Chance)
    (counters : Counters) :
    (resolve recovery fault raw chance counters).2.retries =
      counters.retries + if (resolve recovery fault raw chance counters).1.isRetry then 1 else 0 := by
  cases first : retrierFor? recovery.retriers fault with
  | none =>
      rw [resolve_of_none first, (handsOver_handOver recovery fault raw).isRetry]
      rfl
  | some own =>
      obtain ⟨retrier, hretrier⟩ := getElem?_of_retrierFor? first
      rw [resolve_of_some first hretrier]
      split
      · rfl
      · rw [(handsOver_handOver recovery fault raw).isRetry]
        rfl

/-! ## All of them -/

section
variable (recovery : Recovery) (raw : Json)

/-- What one of several faults leads to is decided with the counters that the ones before it left. -/
theorem getElem?_resolveAll (faults : List (Fault × Chance)) (counters : Counters) (k : Nat) :
    (resolveAll recovery raw faults counters)[k]? =
      faults[k]?.map fun each => resolve recovery each.1 raw each.2 (after recovery raw (faults.take k) counters) := by
  induction faults generalizing counters k with
  | nil => rfl
  | cons each rest ih =>
      cases k with
      | zero => rfl
      | succ k =>
          show (resolveAll recovery raw rest (resolve recovery each.1 raw each.2 counters).2)[k]? = _
          rw [ih]
          rfl

/-- What the first of several faults lead to does not depend on the others. -/
theorem resolveAll_take (faults : List (Fault × Chance)) (counters : Counters) (k : Nat) :
    (resolveAll recovery raw faults counters).take k = resolveAll recovery raw (faults.take k) counters := by
  induction faults generalizing counters k with
  | nil => rw [List.take_nil]; exact List.take_nil
  | cons each rest ih =>
      cases k with
      | zero => rfl
      | succ k =>
          show _ :: (resolveAll recovery raw rest (resolve recovery each.1 raw each.2 counters).2).take k = _
          rw [ih]
          rfl

/-- **A counter has counted the faults of its retrier.** -/
theorem count_after (faults : List (Fault × Chance)) (counters : Counters) (index : Nat) :
    (after recovery raw faults counters).count index =
      counters.count index + met recovery.retriers faults index := by
  induction faults generalizing counters with
  | nil => rfl
  | cons each rest ih =>
      show (after recovery raw rest (resolve recovery each.1 raw each.2 counters).2).count index = _
      rw [ih, count_of_resolve, met, met, List.countP_cons]
      simp only [decide_eq_true_eq]
      omega

/-- **The retries are those among the decisions.** -/
theorem retries_after (faults : List (Fault × Chance)) (counters : Counters) :
    (after recovery raw faults counters).retries =
      counters.retries + (resolveAll recovery raw faults counters).countP fun decided => decided.1.isRetry := by
  induction faults generalizing counters with
  | nil => rfl
  | cons each rest ih =>
      show (after recovery raw rest (resolve recovery each.1 raw each.2 counters).2).retries = _
      rw [ih, retries_of_resolve, resolveAll, List.countP_cons]
      omega

/-- The counters after one of several faults are those that the ones up to it leave. -/
theorem after_take_succ {faults : List (Fault × Chance)} {k : Nat} {each : Fault × Chance}
    (h : faults[k]? = some each) (counters : Counters) :
    after recovery raw (faults.take (k + 1)) counters =
      (resolve recovery each.1 raw each.2 (after recovery raw (faults.take k) counters)).2 := by
  rw [List.take_add_one, h, after, List.foldl_append]
  rfl

end

theorem count_start (size index : Nat) : (Counters.start size).count index = 0 := by
  rw [Counters.count, Counters.start, List.getElem?_replicate]
  split <;> rfl

/-- **How the faults of other retriers lie between those of one does not matter.**  Whatever number of counters
    there is at first, each fault of a sequence is decided by how many of the faults up to it have the same first
    retrier: it is retried exactly when there is one and it allows one more invocation, and handed over otherwise.
    The retries counted up to it are those decided up to it. -/
theorem resolveAll_regardless (recovery : Recovery) (raw : Json) (size : Nat) (faults : List (Fault × Chance))
    (k : Nat) (fault : Fault) (chance : Chance) (h : faults[k]? = some (fault, chance)) :
    ∃ decision counters, (resolveAll recovery raw faults (.start size))[k]? = some (decision, counters) ∧
      (decision.isRetry = true ↔ Allowed recovery fault (met recovery.retriers (faults.take (k + 1)))) ∧
      (decision.isRetry = true → Retries recovery fault (met recovery.retriers (faults.take (k + 1))) decision) ∧
      (decision.isRetry = false → HandsOver recovery fault raw decision) ∧
      counters.retries = ((resolveAll recovery raw faults (.start size)).take (k + 1)).countP
        fun decided => decided.1.isRetry := by
  have left := after_take_succ recovery raw h (.start size)
  -- From fresh counters, what a retrier has counted are the faults it came up with.
  have counted : (resolve recovery fault raw chance (after recovery raw (faults.take k) (.start size))).2.count =
      met recovery.retriers (faults.take (k + 1)) := by
    funext index
    rw [← left, count_after, count_start, Nat.zero_add]
  refine ⟨(resolve recovery fault raw chance (after recovery raw (faults.take k) (.start size))).1,
    (resolve recovery fault raw chance (after recovery raw (faults.take k) (.start size))).2, ?_, ?_⟩
  · rw [getElem?_resolveAll, h]
    rfl
  have total := retries_after recovery raw (faults.take (k + 1)) (.start size)
  rw [left, ← resolveAll_take] at total
  have decided := decided_of_resolve recovery fault raw chance (after recovery raw (faults.take k) (.start size))
  simp only [counted] at decided
  rcases decided with ⟨allowed, retried⟩ | ⟨spent, handed⟩
  · refine ⟨iff_of_true retried.isRetry allowed, fun _ => retried, fun no => ?_, total.trans (Nat.zero_add _)⟩
    cases retried.isRetry.symm.trans no
  · have no : ¬(resolve recovery fault raw chance (after recovery raw (faults.take k) (.start size))).1.isRetry = true := by
      rw [handed.isRetry]
      exact Bool.false_ne_true
    exact ⟨iff_of_false no spent, fun again => absurd again no, fun _ => handed, total.trans (Nat.zero_add _)⟩

/-- The second timeout of a state is one too many for its retrier, which allows two invocations, although another
    fault lies between the two; the retrier of all faults still allows a third invocation after its second. -/
theorem resolveAll_regardless_interleaved :
    let timeouts : Retrier := ⟨["States.Timeout"], 1, 2, 2.0, none, .fixed⟩
    let others : Retrier := ⟨["States.ALL"], 1, 3, 2.0, none, .full⟩
    let recovery : Recovery := ⟨[timeouts, others], [⟨["States.ALL"], "Recover", .nothing⟩]⟩
    let timeout := Fault.ofTask "States.Timeout" "late"
    let other := Fault.ofTask "Refused" "no"
    let faults := [timeout, other, timeout, other].map fun fault => (fault, (default : Chance))
    faults[2]? = some (timeout, default) ∧ faults[3]? = some (other, default) ∧
      (∃ counters, (resolveAll recovery .null faults (.start 0))[2]? = some (.handle "Recover" .null, counters)) ∧
      ∃ delay counters, (resolveAll recovery .null faults (.start 0))[3]? = some (.retry 3 delay, counters) := by
  intro timeouts others recovery timeout other faults
  refine ⟨rfl, rfl, ?_, ?_⟩
  · obtain ⟨decision, counters, hdecision, again, -, handed, -⟩ :=
      resolveAll_regardless recovery .null 0 faults 2 timeout default rfl
    have spent : ¬Allowed recovery timeout (met recovery.retriers (faults.take 3)) := by
      rintro ⟨index, retrier, own, hretrier, left⟩
      cases (show some 0 = some index from own)
      cases (show some timeouts = some retrier from hretrier)
      exact absurd left (by decide)
    rcases handed (Bool.eq_false_iff.mpr fun h => spent (again.mp h)) with
      ⟨catcher, output, hcatcher, hmerge, e⟩ | ⟨catcher, last, hcatcher, hmerge, e⟩ | ⟨hcatcher, -⟩
    · cases hcatcher
      cases hmerge
      exact ⟨counters, e ▸ hdecision⟩
    · cases hcatcher
      cases hmerge
    · cases hcatcher
  · obtain ⟨decision, counters, hdecision, again, retried, -, -⟩ :=
      resolveAll_regardless recovery .null 0 faults 3 other default rfl
    have left : Allowed recovery other (met recovery.retriers (faults.take 4)) :=
      ⟨1, others, rfl, rfl, by decide⟩
    obtain ⟨index, retrier, delay, own, -, -, e, -, -⟩ := retried (again.mpr left)
    cases (show some 1 = some index from own)
    exact ⟨delay, counters, e ▸ hdecision⟩

end Workflow.Retry
