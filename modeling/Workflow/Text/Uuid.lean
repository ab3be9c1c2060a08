/-!
# `Workflow.Text.Uuid` — universally unique identifiers

Thirty-two hexadecimal digits of either case, written plain, in five groups, in groups between braces, or in
groups after a mark.  The canonical form is lower-case groups.
-/

namespace Workflow.Text.Uuid

/-- A hexadecimal digit in lower case. -/
def digit? (c : Char) : Option Char :=
  if c.isDigit ∨ ('a' ≤ c ∧ c ≤ 'f') then some c
  else if 'A' ≤ c ∧ c ≤ 'F' then some c.toLower
  else none

/-- The lengths of the groups. -/
def groups : List Nat := [8, 4, 4, 4, 12]

/-- Takes digits in groups of the given lengths, each after a hyphen but the first. -/
def grouped? : List Nat → List Char → Option (List (List Char))
  | [], [] => some []
  | [], _ :: _ => none
  | count :: counts, cs => do
    let group ← (cs.take count).mapM digit?
    if group.length ≠ count then none
    let rest ← match counts, cs.drop count with
      | [], rest => some rest
      | _, '-' :: rest => some rest
      | _, _ => none
    return group :: (← grouped? counts rest)

/-- Cuts digits into groups of the given lengths. -/
def cut : List Nat → List Char → List (List Char)
  | [], _ => []
  | count :: counts, cs => cs.take count :: cut counts (cs.drop count)

/-- The text in front of the groups of a name. -/
def nameMark : List Char := "urn:uuid:".toList

/-- The canonical form of an identifier. -/
def parse? (text : String) : Option String :=
  let cs := text.toList
  let canonical (groups : List (List Char)) : String := "-".intercalate (groups.map String.ofList)
  if cs.length = 32 then (cs.mapM digit?).map fun digits => canonical (cut groups digits)
  else
    let inner :=
      if nameMark.isPrefixOf cs then cs.drop nameMark.length
      else
        match cs, cs.getLast? with
        | '\x7b' :: rest, some '\x7d' => rest.dropLast
        | cs, _ => cs
    (grouped? groups inner).map canonical

end Workflow.Text.Uuid
