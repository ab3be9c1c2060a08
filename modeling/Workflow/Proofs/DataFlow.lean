import Workflow.DataFlow

/-!
# `Workflow.Proofs.DataFlow` — stages in a row

Stages that follow each other yield a value only if each of them does, and fail only as one of them does.  With
these laws, what came of several stages is taken apart stage by stage.

## Contents
- **Values.** `bind_eq_ok` and `map_eq_ok`.
- **Failures.** `FailsOnly`, what errors there can be, with a law for each way of putting stages together; and
  `mapError_eq_ok` and `mapError_eq_error`.
-/

namespace Workflow.DataFlow

variable {ε α β : Type} {outcome : Except ε α}

theorem bind_eq_ok {next : α → Except ε β} {value : β} :
    outcome >>= next = .ok value ↔ ∃ between, outcome = .ok between ∧ next between = .ok value := by
  cases outcome with
  | error fault => exact ⟨(fun h => nomatch h), fun ⟨_, h, _⟩ => nomatch h⟩
  | ok between =>
      exact ⟨fun h => ⟨between, rfl, h⟩, fun ⟨_, h, hnext⟩ => by cases h; exact hnext⟩

theorem map_eq_ok {f : α → β} {value : β} :
    outcome.map f = .ok value ↔ ∃ between, outcome = .ok between ∧ f between = value := by
  cases outcome with
  | error fault => exact ⟨(fun h => nomatch h), fun ⟨_, h, _⟩ => nomatch h⟩
  | ok between =>
      exact ⟨fun h => ⟨between, rfl, Except.ok.inj h⟩, fun ⟨_, h, hf⟩ => by cases h; exact congrArg _ hf⟩

/-! ## Failures -/

section FailsOnly

variable {δ : Type} {S : ε → Prop}

/-- An outcome that fails, if at all, with an error of a certain kind. -/
def FailsOnly (S : ε → Prop) (outcome : Except ε α) : Prop := ∀ e, outcome = .error e → S e

theorem failsOnly_ok (value : α) : FailsOnly S (.ok value) := fun _ e => nomatch e

theorem failsOnly_error {e : ε} (h : S e) : FailsOnly S (.error e : Except ε α) := by
  intro other he
  cases he
  exact h

theorem FailsOnly.bind {outcome : Except ε α} {next : α → Except ε β} (h : FailsOnly S outcome)
    (hnext : ∀ value, outcome = .ok value → FailsOnly S (next value)) : FailsOnly S (outcome >>= next) := by
  cases outcome with
  | error e => exact failsOnly_error (h e rfl)
  | ok value => exact hnext value rfl

theorem FailsOnly.map {outcome : Except ε α} (h : FailsOnly S outcome) (f : α → β) :
    FailsOnly S (outcome.map f) := by
  cases outcome with
  | error e => exact failsOnly_error (h e rfl)
  | ok value => exact failsOnly_ok _

theorem mapError_ok (f : δ → ε) (value : α) : (.ok value : Except δ α).mapError f = .ok value := rfl

theorem mapError_error (f : δ → ε) (e : δ) : (.error e : Except δ α).mapError f = .error (f e) := rfl

theorem mapError_eq_ok {result : Except δ α} {f : δ → ε} {value : α} :
    result.mapError f = .ok value ↔ result = .ok value := by
  cases result with
  | error e => exact iff_of_false (fun h => nomatch h) fun h => nomatch h
  | ok own => exact ⟨fun h => congrArg _ (Except.ok.inj h), fun h => congrArg _ (Except.ok.inj h)⟩

theorem mapError_eq_error {result : Except δ α} {f : δ → ε} {e : ε} :
    result.mapError f = .error e ↔ ∃ own, result = .error own ∧ f own = e := by
  cases result with
  | error own => exact ⟨fun h => ⟨own, rfl, Except.error.inj h⟩, fun ⟨_, h, hf⟩ => by cases h; exact congrArg _ hf⟩
  | ok value => exact ⟨fun h => (nomatch h), fun ⟨_, h, _⟩ => nomatch h⟩

/-- Errors that are reworded are of the kind of their wording. -/
theorem FailsOnly.mapError {result : Except δ α} {f : δ → ε} (h : FailsOnly (fun e => S (f e)) result) :
    FailsOnly S (result.mapError f) := by
  cases result with
  | error e => exact failsOnly_error (h e rfl)
  | ok value => exact failsOnly_ok value

end FailsOnly

end Workflow.DataFlow
