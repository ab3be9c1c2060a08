import Workflow.Yaml.Glyph

/-!
# `Workflow.Yaml.Quoted` — texts in quotes

A text in quotes may go on over lines.  An end of line in it counts as a space, and each further end of line as a
line feed.  Between double quotes a backslash stands for other characters, or joins lines.

## Contents
- `joinGap`, what blanks and ends of lines between words become.
- `doubleQuoted` and `singleQuoted`.
-/

namespace Workflow.Yaml

open Text Text.Scanner

/-! ## Gaps -/

/-- What ends of lines between words become. -/
def joinBreaks : List Char → List Char
  | [] => []
  | first :: more =>
    if first = '\n' then if more.isEmpty then [' '] else more
    else first :: more

/-- What blanks and ends of lines between words become: blanks count only where there is no end of line. -/
def joinGap (gap : List Char) : List Char :=
  let breaks := gap.filter isBreak
  if breaks.isEmpty then gap else joinBreaks breaks

/-- Takes blanks and ends of lines inside quotes, in which no document may begin or end. -/
def quotedGap : GlyphScanner (List Char) := do
  let gap ← run1 fun g => isGap g.char
  if isMark (← get) then failure
  return joinGap (charsOf gap)

/-! ## Escapes -/

/-- The characters that a backslash and one further character stand for. -/
def escapes : List (Char × Char) :=
  [('0', '\x00'), ('a', '\x07'), ('b', '\x08'), ('t', '\t'), ('\t', '\t'), ('n', '\n'), ('v', '\x0b'),
    ('f', '\x0c'), ('r', '\r'), ('e', '\x1b'), (' ', ' '), ('"', '"'), ('/', '/'), ('\\', '\\'),
    ('N', '\u0085'), ('_', '\u00a0'), ('L', '\u2028'), ('P', '\u2029')]

/-- How many hexadecimal digits follow a letter. -/
def hexCount? : Char → Option Nat
  | 'x' => some 2
  | 'u' => some 4
  | 'U' => some 8
  | _ => none

/-- The value of a hexadecimal digit. -/
def hexValue? (c : Char) : Option Nat :=
  if c.isDigit then some (c.toNat - '0'.toNat)
  else if 'a' ≤ c ∧ c ≤ 'f' then some (c.toNat - 'a'.toNat + 10)
  else if 'A' ≤ c ∧ c ≤ 'F' then some (c.toNat - 'A'.toNat + 10)
  else none

/-- Takes a number of the given count of hexadecimal digits. -/
def hexNumber (digits : Nat) : GlyphScanner Nat := do
  let ds ← count digits fun g => (hexValue? g.char).isSome
  return ds.foldl (fun n g => n * 16 + (hexValue? g.char).getD 0) 0

/-- Takes an end of line after a backslash, and the blanks and ends of lines that follow it.  The lines are joined,
but for empty ones between them. -/
def joint : GlyphScanner (List Char) := do
  let _ ← glyph isBreak
  let gap ← glyphs isGap
  if isMark (← get) then failure
  return gap.filter isBreak

/-- Takes what follows a backslash. -/
def escaped : GlyphScanner (List Char) := joint <|> do
  let c ← glyph fun _ => true
  match hexCount? c with
  | some digits =>
    let code ← hexNumber digits
    if code.isValidChar then return [Char.ofNat code] else failure
  | none =>
    match escapes.find? (·.1 == c) with
    | some entry => return [entry.2]
    | none => failure

/-! ## Texts -/

/-- Takes a text between double quotes. -/
def doubleQuoted : GlyphScanner String := do
  mark '"'
  let parts ← many (quotedGap <|> (mark '\\' *> escaped)
    <|> (fun c => [c]) <$> glyph fun c => c ≠ '"' && c ≠ '\\' && !isGap c)
  mark '"'
  return String.ofList parts.flatten

/-- Takes a text between single quotes, in which a single quote is written twice. -/
def singleQuoted : GlyphScanner String := do
  mark '\''
  let parts ← many (quotedGap <|> (fun _ => ['\'']) <$> (mark '\'' *> mark '\'')
    <|> (fun c => [c]) <$> glyph fun c => c ≠ '\'' && !isGap c)
  mark '\''
  return String.ofList parts.flatten

end Workflow.Yaml
