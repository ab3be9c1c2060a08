import Workflow.Yaml.Glyph

/-!
# `Workflow.Yaml.Block` — block texts

A block text consists of lines that are indented alike.  It is literal, or it is folded: then an end of line between
lines that do not begin with a blank counts as a space.  What becomes of the ends of lines at its end is told by
its header.

## Contents
- `Header`, with `Chomping`.
- `Line`, `lines`, which takes the lines of a block text, and `joinLines`.
- `blockText`.
-/

namespace Workflow.Yaml.Block

open Text Text.Scanner

/-! ## Headers -/

/-- What becomes of the ends of lines at the end of a block text. -/
inductive Chomping where
  /-- There are none. -/
  | strip
  /-- There is at most one. -/
  | clip
  /-- All are kept. -/
  | keep

/-- What stands on the line in front of a block text. -/
structure Header where
  folded : Bool
  chomping : Chomping
  /-- How much further the text is indented, if it is told. -/
  indent : Option Nat

/-- Takes a sign for the chomping. -/
def chomping : GlyphScanner Chomping :=
  (fun _ => .keep) <$> mark '+' <|> (fun _ => .strip) <$> mark '-'

/-- Takes a digit for the indentation, which is not zero. -/
def indentDigit : GlyphScanner Nat :=
  (fun c => c.toNat - '0'.toNat) <$> glyph fun c => '1' ≤ c && c ≤ '9'

/-- Takes a header and its line; the digit may stand in front of the sign or after it. -/
def header : GlyphScanner Header := do
  let kind ← glyph fun c => c = '|' || c = '>'
  let before ← maybe indentDigit
  let chomping ← maybe chomping
  let after ← if before.isNone && chomping.isSome then maybe indentDigit else pure none
  lineEnd
  return ⟨kind = '>', chomping.getD .clip, before.or after⟩

/-! ## Lines -/

/-- A line of a block text. -/
structure Line where
  chars : List Char
  /-- The end of the line, which may be missing at the end of the text. -/
  ending : List Char
  /-- The ends of the empty lines after it. -/
  empty : List Char

/-- The ends of lines without text, and how far the furthest of those lines is indented. -/
structure Gap where
  breaks : List Char
  furthest : Nat

/-- Takes lines without text, and the indentation of the line that follows.  No tab may stand inside the
indentation, which goes as far as told, or else as far as there are spaces. -/
def gap (indent : Option Nat) (furthest : Nat) : List Glyph → Option (Gap × List Glyph)
  | [] => some (⟨[], furthest⟩, [])
  | g :: rest =>
    let inside := indent.all (g.place.column < ·)
    if inside && g.char = ' ' then gap indent furthest rest
    else if inside && g.char = '\t' then none
    else if isBreak g.char then
      (gap indent (max furthest g.place.column) rest).map fun (found, rest) =>
        ({ found with breaks := g.char :: found.breaks }, rest)
    else some (⟨[], max furthest g.place.column⟩, g :: rest)

/-- Whether the next line is indented as told. -/
def isIndentedBy (indent : Nat) (gs : List Glyph) : Bool := gs.head?.any (·.place.column = indent)

/-- Takes the lines that are indented as told. -/
def lines (indent : Nat) (gs : List Glyph) : Option (List Line × List Glyph) :=
  if isIndentedBy indent gs then
    let chars := charsOf (gs.takeWhile fun g => !isBreak g.char)
    let rest := gs.dropWhile fun g => !isBreak g.char
    match gap indent 0 (rest.drop 1) with
    | none => none
    | some (found, after) =>
      if after.length < gs.length then
        (lines indent after).map fun (more, after) =>
          (⟨chars, charsOf (rest.take 1), found.breaks⟩ :: more, after)
      else none
  else some ([], gs)
termination_by gs.length

/-! ## Texts -/

/-- Whether a line begins with a blank. -/
def Line.isIndented (line : Line) : Bool := (line.chars.head?.map isBlank).getD false

/-- What stands between two lines. -/
def joinOf (folded : Bool) (line next : Line) : List Char :=
  if folded && line.ending == ['\n'] && !line.isIndented && !next.isIndented then
    if line.empty.isEmpty then [' '] else line.empty
  else line.ending ++ line.empty

/-- Joins lines; the ends at the end are chomped. -/
def joinLines (folded : Bool) (chomping : Chomping) : List Line → List Char
  | [] => []
  | [line] =>
    line.chars ++
      match chomping with
      | .strip => []
      | .clip => line.ending
      | .keep => line.ending ++ line.empty
  | line :: next :: rest =>
    line.chars ++ joinOf folded line next ++ joinLines folded chomping (next :: rest)

/-- The indentation of the lines of a block text inside something that is indented as told. -/
def indentOf (outer : Option Nat) (furthest : Nat) : Nat :=
  max furthest (max (outer.elim 0 (· + 1)) 1)

/-- Takes a block text inside something that is indented as told; it is said whether it is folded. -/
def text (outer : Option Nat) : GlyphScanner (Bool × String) := do
  let header ← header
  let given := header.indent.map (outer.getD 0 + ·)
  let before ← gap given 0
  let found ← lines (given.getD (indentOf outer before.furthest))
  -- Empty lines in front count as if they followed a line without text and end.
  let first : Line := ⟨[], [], before.breaks⟩
  return (header.folded, String.ofList (joinLines header.folded header.chomping (first :: found)))

end Workflow.Yaml.Block
