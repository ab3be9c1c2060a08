/-!
# `Workflow.Text.Scanner` — scanning without causes

A scanner takes a value from the front of a text or refuses, without a reason.  Scanners are put together by
their monad, and `<|>` tries one and then another on the same text.  What is scanned need not be characters.

## Contents
- `ScannerOf`, and the scanners of single symbols and runs; `Scanner`, with those of characters and words.
- `Scanner.many`, which scans as often as it gets on, and `Scanner.whole`, which wants the whole text.
-/

namespace Workflow.Text

/-- Takes a value from the front of a list of symbols and leaves the rest, or refuses. -/
abbrev ScannerOf (σ : Type) := StateT (List σ) Option

/-- Takes a value from the front of a text and leaves the rest, or refuses. -/
abbrev Scanner := ScannerOf Char

namespace Scanner

variable {σ α β : Type}

/-- Takes a symbol that passes a test. -/
def one (test : σ → Bool) : ScannerOf σ σ := fun
  | c :: rest => if test c then some (c, rest) else none
  | [] => none

/-- Takes the given character. -/
def char (c : Char) : Scanner Unit := (fun _ => ()) <$> one (· == c)

/-- Takes the given word. -/
def word (word : List Char) : Scanner Unit := fun cs =>
  if word.isPrefixOf cs then some ((), cs.drop word.length) else none

/-- Takes the symbols up to the first that fails a test. -/
def run (test : σ → Bool) : ScannerOf σ (List σ) := fun cs =>
  some (cs.takeWhile test, cs.dropWhile test)

/-- Takes symbols that pass a test, of which there must be one. -/
def run1 (test : σ → Bool) : ScannerOf σ (List σ) := fun cs =>
  if (cs.head?.map test).getD false then run test cs else none

/-- Takes the given number of symbols, all of which must pass a test. -/
def count (number : Nat) (test : σ → Bool) : ScannerOf σ (List σ) := fun cs =>
  let taken := cs.take number
  if taken.length = number ∧ taken.all test then some (taken, cs.drop number) else none

/-- The next symbol, which stays where it is. -/
def peek : ScannerOf σ (Option σ) := fun cs => some (cs.head?, cs)

/-- Refuses unless the text is at its end. -/
def atEnd : ScannerOf σ Unit := fun cs => if cs.isEmpty then some ((), cs) else none

/-- Takes a value, if there is one. -/
def maybe (scanner : ScannerOf σ α) : ScannerOf σ (Option α) := some <$> scanner <|> pure none

/-- Takes values as long as there are any and the text gets shorter. -/
def manyFrom (scanner : ScannerOf σ α) (cs : List σ) : List α × List σ :=
  match scanner cs with
  | some (value, rest) =>
    if rest.length < cs.length then
      let (values, rest) := manyFrom scanner rest
      (value :: values, rest)
    else ([], cs)
  | none => ([], cs)
termination_by cs.length

/-- Takes as many values as there are. -/
def many (scanner : ScannerOf σ α) : ScannerOf σ (List α) := fun cs => some (manyFrom scanner cs)

/-- Takes values with something between them, of which there must be one. -/
def separated (scanner : ScannerOf σ α) (between : ScannerOf σ β) : ScannerOf σ (List α) := do
  let first ← scanner
  return first :: (← many (between *> scanner))

/-- The value that makes up a whole text. -/
def whole (scanner : Scanner α) (text : String) : Option α :=
  match (scanner <* atEnd) text.toList with
  | some (value, _) => some value
  | none => none

end Scanner

end Workflow.Text
