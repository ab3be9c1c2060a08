import Workflow.Yaml.Quoted

/-!
# `Workflow.Yaml.Plain` — texts without quotes

A plain text ends where something else begins: a comment, a colon that makes it a key, a line that is indented less,
or, inside brackets, a comma or a bracket.  Inside brackets a colon must not stand right in front of one.

## Contents
- `startsPlain`, where a plain text may begin.
- `words`, the part of a plain text up to a gap.
- `plain`, which takes a plain text and the gap after it.
-/

namespace Workflow.Yaml

open Text Text.Scanner

/-! ## Characters -/

/-- The characters that part the nodes inside brackets. -/
def isBracket (c : Char) : Bool := c = ',' || c = '[' || c = ']' || c = '\x7b' || c = '\x7d'

/-- The characters with which no plain text begins, whatever follows. -/
def isIndicator (c : Char) : Bool :=
  isBracket c || c = '#' || c = '&' || c = '*' || c = '!' || c = '|' || c = '>' || c = '\'' || c = '"'
    || c = '%' || c = '@' || c = '\x60'

/-- Whether a plain text begins here, possibly inside brackets. -/
def startsPlain (bracketed : Bool) : List Glyph → Bool
  | [] => false
  | g :: rest =>
    if g.char = '-' then !ends rest
    else if g.char = '?' || g.char = ':' then !bracketed && !ends rest
    else !isGap g.char && !isIndicator g.char

/-! ## Words -/

/-- Whether a plain text ends in front of a glyph that is no gap. -/
def stopsPlain (bracketed : Bool) (c : Char) (rest : List Glyph) : Bool :=
  (c = ':' && ends rest) || (bracketed && isBracket c)

/-- Whether a colon stands where it may not, right in front of another indicator inside brackets. -/
def isStrayColon (bracketed : Bool) (c : Char) (rest : List Glyph) : Bool :=
  bracketed && c = ':' && nextIs (fun next => isBracket next || next = '?') rest

/-- Takes the part of a plain text up to a gap or its end. -/
def words (bracketed : Bool) : List Glyph → Option (List Char × List Glyph)
  | [] => some ([], [])
  | g :: rest =>
    if isGap g.char then some ([], g :: rest)
    else if isStrayColon bracketed g.char rest then none
    else if stopsPlain bracketed g.char rest then some ([], g :: rest)
    else (words bracketed rest).map fun (cs, rest) => (g.char :: cs, rest)

/-! ## Gaps -/

/-- Whether a tab stands for indentation in a gap: after an end of line, at a column that is too small. -/
def hasTabIndent (indent : Nat) (gap : List Glyph) : Bool :=
  (gap.dropWhile fun g => !isBreak g.char).any fun g => g.char = '\t' && g.place.column < indent

/-- Whether a plain text goes on after a gap. -/
def goesOn (bracketed : Bool) (indent : Nat) : List Glyph → Bool
  | [] => false
  | g :: rest =>
    g.char ≠ '#' && !isMark (g :: rest) && (bracketed || indent ≤ g.place.column)

/-- A plain text, or the rest of one, and what stood after it. -/
structure Plain where
  chars : List Char
  /-- Whether there was an end of line after it. -/
  endsLine : Bool

/-- Takes the rest of a plain text, from a gap or its end on. -/
def plainRest (bracketed : Bool) (indent : Nat) (gs : List Glyph) : Option (Plain × List Glyph) :=
  let gap := gs.takeWhile fun g => isGap g.char
  let after := gs.dropWhile fun g => isGap g.char
  let broken := gap.any fun g => isBreak g.char
  if hasTabIndent indent gap then none
  else if gap.isEmpty || !goesOn bracketed indent after then some (⟨[], broken⟩, after)
  else
    match words bracketed after with
    | none => none
    | some ([], rest) => some (⟨[], broken⟩, rest)
    | some (cs, rest) =>
      if rest.length < gs.length then
        (plainRest bracketed indent rest).map fun (more, rest) =>
          ({ more with chars := joinGap (charsOf gap) ++ cs ++ more.chars }, rest)
      else none
termination_by gs.length

/-- Takes a plain text whose further lines are indented as told, and the gap after it. -/
def plain (bracketed : Bool) (indent : Nat) (gs : List Glyph) : Option (Plain × List Glyph) := do
  let (first, rest) ← words bracketed gs
  let (more, rest) ← plainRest bracketed indent rest
  return ({ more with chars := first ++ more.chars }, rest)

end Workflow.Yaml
