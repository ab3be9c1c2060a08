import Workflow.Shell.Pattern

/-!
# `Workflow.Shell.Regex` — regular expressions

Programs that search lines take regular expressions, which are written in two ways: in the basic one, parentheses and
bars are operators only after a backslash, in the extended one only without.

## Contents
- `Regex`, and `Regex.ofText?`, the expression that a text is.
- `Regex.ways`, all ways in which the beginning of a text can be taken.
- `Regex.search?`, the first part of a text that fits, as a `Finding`.
-/

namespace Workflow.Shell

/-- A regular expression. -/
inductive Regex where
  | empty
  | one (part : Pattern.Part)
  | atStart
  | atEnd
  | both (first second : Regex)
  | either (first second : Regex)
  | repeated (least : Nat) (most : Option Nat) (inner : Regex)
  | group (number : Nat) (inner : Regex)
  /-- What a group has taken. -/
  | again (number : Nat)
  deriving Repr

namespace Regex

/-! ## Symbols -/

/-- A symbol of an expression. -/
inductive Symbol where
  | part (part : Pattern.Part)
  | atStart
  | atEnd
  | opening
  | closing
  | bar
  | repeated (least : Nat) (most : Option Nat)
  | again (number : Nat)
  deriving DecidableEq, Repr

/-- The characters of words. -/
def wordRanges : List (Char × Char) := [('a', 'z'), ('A', 'Z'), ('0', '9'), ('_', '_')]

/-- The characters of white space. -/
def spaceRanges : List (Char × Char) := [(' ', ' '), ('\t', '\r')]

/-- The characters in brackets of which the first has been taken, and what is after them. -/
def brackets? (cs : List Char) : Option (Pattern.Part × List Char) :=
  let isNegated := cs.head? = some '^'
  let letters : List Letter := (if isNegated then cs.drop 1 else cs).map (⟨·, false⟩)
  (Pattern.ranges (letters.length + 1) true letters).map fun (ranges, rest) =>
    (.among isNegated ranges, rest.map (·.char))

/-- How often something is repeated, in braces of which the first has been taken. -/
def interval? (cs : List Char) : Option (Symbol × List Char) :=
  let number (cs : List Char) : Option Nat := (String.ofList (cs.takeWhile Char.isDigit)).toNat?
  match cs.dropWhile Char.isDigit with
  | ',' :: rest => some (.repeated ((number cs).getD 0) (number rest), rest.dropWhile Char.isDigit)
  | rest => (number cs).map fun least => (.repeated least (some least), rest)

/-- The symbol that a character is as an operator, and what is after it. -/
def operator? (isExtended : Bool) : List Char → Option (Symbol × List Char)
  | '(' :: rest => some (.opening, rest)
  | ')' :: rest => some (.closing, rest)
  | '|' :: rest => some (.bar, rest)
  | '+' :: rest => some (.repeated 1 none, rest)
  | '?' :: rest => some (.repeated 0 (some 1), rest)
  | '\x7b' :: rest =>
    match interval? rest with
    | some (symbol, '\\' :: '\x7d' :: rest) => if isExtended then none else some (symbol, rest)
    | some (symbol, '\x7d' :: rest) => if isExtended then some (symbol, rest) else none
    | _ => none
  | _ => none

/-- The symbol that a character after a backslash is in either way of writing. -/
def escaped (c : Char) : Symbol :=
  match c with
  | 'n' => .part (.one '\n')
  | 't' => .part (.one '\t')
  | 'w' => .part (.among false wordRanges)
  | 'W' => .part (.among true wordRanges)
  | 's' => .part (.among false spaceRanges)
  | 'S' => .part (.among true spaceRanges)
  | _ => if '1' ≤ c ∧ c ≤ '9' then .again (c.toNat - '0'.toNat) else .part (.one c)

/-- Whether an expression can begin after some symbols, of which the last comes first. -/
def couldBegin : List Symbol → Bool
  | [] | .opening :: _ | .bar :: _ => true
  | _ => false

/-- Whether an expression can end before some characters. -/
def couldEnd (isExtended : Bool) : List Char → Bool
  | [] => true
  | '\\' :: c :: _ => !isExtended && (c = ')' || c = '|')
  | c :: _ => isExtended && (c = ')' || c = '|')

/-- The first symbol of a text that is not empty, and what is after it, given the symbols in front of it. -/
def symbol (isExtended : Bool) (before : List Symbol) (c : Char) (rest : List Char) : Symbol × List Char :=
  let plain : Symbol × List Char := (.part (.one c), rest)
  match c with
  | '\\' =>
    match if isExtended then none else operator? false rest with
    | some found => found
    | none => (rest.head?.map escaped |>.getD (.part (.one '\\')), rest.drop 1)
  | '.' => (.part .any, rest)
  | '[' => ((brackets? rest).map fun (part, rest) => (.part part, rest)).getD plain
  | '*' => if couldBegin before then plain else (.repeated 0 none, rest)
  | '^' => if isExtended || couldBegin before then (.atStart, rest) else plain
  | '$' => if isExtended || couldEnd isExtended rest then (.atEnd, rest) else plain
  | _ => if isExtended then (operator? true (c :: rest)).getD plain else plain

/-- The symbols of a text, given those in front of it, of which the last comes first. -/
def symbols (isExtended : Bool) (before : List Symbol) : List Char → List Symbol
  | [] => before.reverse
  | c :: rest =>
    match symbol isExtended before c rest with
    | (found, after) =>
      if after.length ≤ rest.length then symbols isExtended (found :: before) after
      else (found :: before).reverse
termination_by cs => cs.length
decreasing_by simp only [List.length_cons]; omega

/-! ## Expressions -/

/-- What is still to be read, and the number of groups so far. -/
structure Reading where
  rest : List Symbol
  groups : Nat

/-- Reads the repetitions after an expression, at most as many as told. -/
def repetitions : Nat → Regex → Reading → Regex × Reading
  | 0, inner, r => (inner, r)
  | steps + 1, inner, r =>
    match r.rest with
    | .repeated least most :: rest => repetitions steps (.repeated least most inner) { r with rest }
    | _ => (inner, r)

/-- Reads expressions next to each other, at most as many as told, given how a group is read. -/
def adjacent (group : Reading → Option (Regex × Reading)) : Nat → Reading → Option (Regex × Reading)
  | 0, r => some (.empty, r)
  | steps + 1, r =>
    let after (inner : Regex) (r : Reading) : Option (Regex × Reading) :=
      let (inner, r) := repetitions r.rest.length inner r
      (adjacent group steps r).map fun (second, r) => (.both inner second, r)
    match r.rest with
    | [] | .closing :: _ | .bar :: _ => some (.empty, r)
    | .opening :: rest => (group { r with rest }).bind fun (inner, r) => after inner r
    | .part part :: rest => after (.one part) { r with rest }
    | .atStart :: rest => after .atStart { r with rest }
    | .atEnd :: rest => after .atEnd { r with rest }
    | .again number :: rest => after (.again number) { r with rest }
    | .repeated .. :: rest => after .empty { r with rest }

/-- Reads an expression in which groups are nested at most as deep as told. -/
def read : Nat → Reading → Option (Regex × Reading)
  | 0, _ => none
  | depth + 1, r => do
    let group (r : Reading) : Option (Regex × Reading) := do
      let number := r.groups + 1
      let (inner, r) ← read depth { r with groups := number }
      match r.rest with
      | .closing :: rest => return (.group number inner, { r with rest })
      | _ => none
    let (first, r) ← adjacent group r.rest.length r
    match r.rest with
    | .bar :: rest =>
      let (second, r) ← read depth { r with rest }
      return (.either first second, r)
    | _ => return (first, r)

/-- The expression that a text is. -/
def ofText? (isExtended : Bool) (text : String) : Option Regex :=
  let found := symbols isExtended [] text.toList
  match read (found.length + 1) ⟨found, 0⟩ with
  | some (regex, ⟨[], _⟩) => some regex
  | _ => none

/-- The expression for a text that stands for itself. -/
def ofPlain (text : String) : Regex := text.toList.foldr (fun c rest => .both (.one (.one c)) rest) .empty

/-! ## Fitting -/

/-- A place in a text, and what groups have taken on the way to it. -/
structure Position where
  /-- What has been taken, of which the last comes first. -/
  before : List Char
  rest : List Char
  groups : List (Nat × List Char)

/-- Takes a character that a test admits. -/
def Position.step (p : Position) (admits : Char → Bool) : List Position :=
  match p.rest with
  | c :: rest => if admits c then [{ p with before := c :: p.before, rest }] else []
  | [] => []

/-- The characters between two places. -/
def Position.since (start finish : Position) : List Char :=
  start.rest.take (start.rest.length - finish.rest.length)

/-- Takes given characters. -/
def Position.takeAll (p : Position) (cs : List Char) : List Position :=
  if cs.isPrefixOf p.rest then
    [{ p with before := cs.reverse ++ p.before, rest := p.rest.drop cs.length }]
  else []

/-- All ways to take something again and again, as often as possible first. -/
def repeatedly (inner : Position → List Position) (least : Nat) (most : Option Nat) :
    Nat → Nat → Position → List Position
  | 0, count, p => if least ≤ count then [p] else []
  | steps + 1, count, p =>
    let more :=
      if most.any (· ≤ count) then []
      else
        (inner p).flatMap fun after =>
          if after.rest.length < p.rest.length then repeatedly inner least most steps (count + 1) after
          else if count < least then repeatedly inner least most steps (count + 1) after
          else []
    more ++ if least ≤ count then [p] else []

/-- All ways to take a beginning of what is left, depending on whether letters are told from capital ones. -/
def ways (ignoresCase : Bool) : Regex → Position → List Position
  | .empty, p => [p]
  | .one part, p =>
    p.step fun c => part.admits c || (ignoresCase && (part.admits c.toLower || part.admits c.toUpper))
  | .atStart, p => if p.before.isEmpty then [p] else []
  | .atEnd, p => if p.rest.isEmpty then [p] else []
  | .both first second, p => (first.ways ignoresCase p).flatMap (second.ways ignoresCase)
  | .either first second, p => first.ways ignoresCase p ++ second.ways ignoresCase p
  | .repeated least most inner, p =>
    repeatedly (inner.ways ignoresCase) least most (least + p.rest.length) 0 p
  | .group number inner, p =>
    (inner.ways ignoresCase p).map fun after =>
      { after with groups := (number, p.since after) :: after.groups }
  | .again number, p => p.takeAll (((p.groups.find? (·.1 == number)).map (·.2)).getD [])

/-- A part of a text that fits. -/
structure Finding where
  /-- What stands in front of it, of which the last comes first. -/
  before : List Char
  found : List Char
  rest : List Char
  groups : List (Nat × List Char)

/-- The one of some places that is farthest, and the first of those. -/
def farthest : List Position → Option Position
  | [] => none
  | p :: rest => some (rest.foldl (fun best p => if p.rest.length < best.rest.length then p else best) p)

/-- The longest beginning of a text that fits, after what has been taken before. -/
def beginning? (regex : Regex) (ignoresCase : Bool) (before cs : List Char) : Option Finding :=
  let start : Position := ⟨before, cs, []⟩
  (farthest (regex.ways ignoresCase start)).map fun after => ⟨before, start.since after, after.rest, after.groups⟩

/-- The first part of a text that fits, after what has been taken before. -/
def search? (regex : Regex) (ignoresCase : Bool) (before : List Char) : List Char → Option Finding
  | [] => regex.beginning? ignoresCase before []
  | c :: rest =>
    match regex.beginning? ignoresCase before (c :: rest) with
    | some finding => some finding
    | none => search? regex ignoresCase (c :: before) rest

end Regex

end Workflow.Shell
