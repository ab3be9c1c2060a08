/-!
# `Workflow.Text.Reader` — taking values from the front of a text

A reader takes a value from the front of a text and returns the rest.  The rest comes with a proof that
it is shorter, so that a function which calls readers in turn ends by the length of its text.

## Contents
- `Taken`, a value and a shorter rest, and `Rest`, a rest that is no longer.
- `Reader`, the functions from texts to such results.
-/

namespace Workflow.Text

/-- What a reading of a text yields: a value, and a rest that is shorter than the text. -/
abbrev Taken (α : Type) (cs : List Char) := { r : α × List Char // r.2.length < cs.length }

/-- A rest of a text, possibly the whole of it. -/
abbrev Rest (cs : List Char) := { r : List Char // r.length ≤ cs.length }

/-- A reader takes a value from the front of a text, or stops. -/
abbrev Reader (ε α : Type) := (cs : List Char) → Except ε (Taken α cs)

namespace Taken

variable {α β : Type} {cs : List Char}

/-- What was taken from a shorter text was taken from the longer one. -/
def widen {short long : List Char} (h : short.length ≤ long.length) (taken : Taken α short) :
    Taken α long :=
  ⟨taken.1, Nat.lt_of_lt_of_le taken.2 h⟩

/-- What was taken after a character was taken from the text with it. -/
def after {c : Char} {rest : List Char} (taken : Taken α rest) : Taken α (c :: rest) :=
  ⟨taken.1, Nat.lt_succ_of_lt taken.2⟩

/-- Takes one character for a value. -/
def first {c : Char} {rest : List Char} (value : α) : Taken α (c :: rest) :=
  ⟨(value, rest), Nat.lt_succ_self _⟩

/-- Applies a function to the value taken. -/
def map (f : α → β) (taken : Taken α cs) : Taken β cs := ⟨(f taken.1.1, taken.1.2), taken.2⟩

end Taken

/-- The whole text as a rest of itself. -/
def Rest.all (cs : List Char) : Rest cs := ⟨cs, Nat.le_refl _⟩

/-- A rest of a shorter text is a rest of the longer one. -/
def Rest.widen {short long : List Char} (h : short.length ≤ long.length) (rest : Rest short) :
    Rest long :=
  ⟨rest.1, Nat.le_trans rest.2 h⟩

/-- The rest after a character, as a rest of the text with it. -/
def Rest.after {c : Char} {cs : List Char} (rest : Rest cs) : Rest (c :: cs) :=
  ⟨rest.1, Nat.le_succ_of_le rest.2⟩

theorem length_dropWhile_le (p : Char → Bool) (cs : List Char) :
    (cs.dropWhile p).length ≤ cs.length :=
  (List.dropWhile_suffix p).length_le

/-- The rest of a text from the first character on that fails a test. -/
def Rest.dropWhile (p : Char → Bool) (cs : List Char) : Rest cs :=
  ⟨cs.dropWhile p, length_dropWhile_le p cs⟩

/-- The length of a text after leading characters were dropped, one of which there was. -/
theorem length_dropWhile_lt {p : Char → Bool} {c : Char} {cs : List Char} (h : p c = true) :
    ((c :: cs).dropWhile p).length < (c :: cs).length := by
  have := length_dropWhile_le p cs
  simp only [List.dropWhile_cons, h, if_true, List.length_cons]
  omega

end Workflow.Text
