import Workflow.Path.Basic
import Workflow.Path.Select

/-!
# `Workflow.Path.Inject` — writing through a path

Writing a value at a path yields a new document.  What is missing on the way is made: a null becomes the
object or array that the next step needs, and an array is padded with nulls up to an index.

Lengths are machine words.  An array that ends before an index is brought to a length of one more than the index,
and this sum need not be a word.  Where sums are checked, which is what `Path.inject` does, that is a trap.  Where
they are not, the sum is taken modulo 2⁶⁴, so that the array is cut off instead of padded, and it is a trap that
the item is not there.  Memory has no bound here.

Covers `inject`, with what overflows in it.

## Contents
- `Counting`, what becomes of a sum that is no word, and `Halt`, how a write ends that yields no document.
- `resized` and `Counting.grown`, how the items of an array are made to reach up to an index.
- `Counting.opened`, which makes what one step addresses, and `Counting.write`, which does so step after step.
- `Counting.inject`, which refuses the context object and wildcards, and `Path.inject`.
-/

namespace Workflow.Path

/-! ## Sums -/

/-- How sums are formed. -/
inductive Counting where
  /-- A sum that is no word is a trap. -/
  | checked
  /-- Sums are taken modulo the number of words. -/
  | wrapping
  deriving DecidableEq, Repr

/-- How a write ends that yields no document. -/
inductive Halt where
  | refused (refusal : Refusal)
  | trapped (trap : Trap)
  deriving DecidableEq, Repr

/-- The length of an array that ends with an index. -/
def Counting.next : Counting → Nat → Except Halt Nat
  | .checked, index => if index + 1 < UInt64.size then .ok (index + 1) else .error (.trapped .overflow)
  | .wrapping, index => .ok ((index + 1) % UInt64.size)

/-- Items brought to a length: cut off, or followed by nulls. -/
def resized (items : List Json) (length : Nat) : List Json :=
  items.take length ++ List.replicate (length - items.length) .null

/-- Items that are made to reach up to an index, unless they do so already. -/
def Counting.grown (counting : Counting) (items : List Json) (index : Nat) : Except Halt (List Json) :=
  if items.length ≤ index then (counting.next index).map (resized items) else .ok items

/-! ## Steps -/

/-- A null as the empty container that a step needs, and any other value as it is. -/
def contained : Step → Json → Json
  | .field _, .null => .obj []
  | .index _, .null => .arr []
  | _, document => document

/-- A container in which what a step addresses was made, if it was not there. -/
def Counting.opened (counting : Counting) (step : Step) (document : Json) : Except Halt Json :=
  match step, contained step document with
  | .field name, .obj fields =>
    .ok (.obj (if (Fields.find? fields name).isSome then fields else Fields.set fields name .null))
  | .index position, .arr items => (counting.grown items position).map .arr
  | .field name, _ => .error (.refused (.fieldOfNonObject name))
  | .index position, _ => .error (.refused (.indexOfNonArray position))
  | .wildcard, _ => .error (.refused .wildcardStep)

/-- A container with another value in the place of what a step addresses. -/
def replaced : Step → Json → Json → Json
  | .field name, .obj fields, child => .obj (Fields.set fields name child)
  | .index position, .arr items, child => .arr (items.set position child)
  | _, container, _ => container

/-- Writes a value where steps lead. -/
def Counting.write (counting : Counting) : List Step → Json → Json → Except Halt Json
  | [], _, value => .ok value
  | step :: rest, document, value => do
    let container ← counting.opened step document
    match child? step container with
    -- What a step addresses was just made, and is missing only from an array that was cut off.
    | none => .error (.trapped .outOfBounds)
    | some child => (counting.write rest child value).map (replaced step container)

/-! ## Paths -/

/-- A document with a value written at a path. -/
def Counting.inject (counting : Counting) (path : Path) (document value : Json) : Except Halt Json :=
  if path.root = .context then .error (.refused .contextIsReadOnly)
  else if path.Definite then counting.write path.steps document value
  else .error (.refused .wildcardStep)

/-- A document with a value written at a path, where sums are checked. -/
def inject (path : Path) (document value : Json) : Except Halt Json := Counting.checked.inject path document value

end Workflow.Path
