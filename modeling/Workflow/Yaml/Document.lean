import Workflow.Yaml.Resolution

/-!
# `Workflow.Yaml.Document` — documents and what they hold

Anchors are numbered as they open: the number is how many names there were.  A name can be used again, and then two
anchors may get one number; an alias stands for the last node of its number, even if that comes later.  Following
aliases is limited, as a document may refer to itself.

## Contents
- `Node.numbered`, which replaces names by numbers, `Node.anchors` and `Node.size`.
- `Document`, with `Document.ofText?`.
- `Document.value`, the datum of a node, and `Document.entries`, for a root that is read by its keys.
- The readers of single scalars, `Document.text`, `Document.optionalText` and `Document.optionalNat`.
-/

namespace Workflow.Yaml

/-! ## Names and numbers -/

/-- The names so far with their numbers, of which the last comes first, and how many different ones there are. -/
structure Names where
  numbers : List (String × Nat)
  count : Nat

/-- Gives a name the next number. -/
def Names.define (names : Names) (name : String) : Names where
  numbers := (name, names.count) :: names.numbers
  count := if (names.numbers.lookup name).isSome then names.count else names.count + 1

/-- A node by the numbers of anchors. -/
abbrev NumberedNode := Node Nat

mutual
/-- Replaces names by numbers; a name must be known where it is used. -/
def Node.numbered : Node String → StateT Names Option NumberedNode
  | .scalar tag text style => return .scalar tag text style
  | .sequence tag items => return .sequence tag (← numberedItems items)
  | .mapping tag entries => return .mapping tag (← numberedEntries entries)
  | .anchored name node => do
    let number := (← get).count
    modify (·.define name)
    return .anchored number (← node.numbered)
  | .alias name => do
    match (← get).numbers.lookup name with
    | some number => return .alias number
    | none => failure
/-- Replaces names by numbers in items. -/
def numberedItems : List (Node String) → StateT Names Option (List NumberedNode)
  | [] => return []
  | item :: rest => do
    let item ← item.numbered
    return item :: (← numberedItems rest)
/-- Replaces names by numbers in entries. -/
def numberedEntries : List (Node String × Node String) → StateT Names Option (List (NumberedNode × NumberedNode))
  | [] => return []
  | (key, value) :: rest => do
    let key ← key.numbered
    let value ← value.numbered
    return (key, value) :: (← numberedEntries rest)
end

mutual
/-- The anchors in a node with what they stand at, in the order in which they open. -/
def Node.anchors {ν : Type} : Node ν → List (ν × Node ν)
  | .scalar .. | .alias _ => []
  | .sequence _ items => anchorsOfItems items
  | .mapping _ entries => anchorsOfEntries entries
  | .anchored name node => (name, node) :: node.anchors
/-- The anchors in items. -/
def anchorsOfItems {ν : Type} : List (Node ν) → List (ν × Node ν)
  | [] => []
  | item :: rest => item.anchors ++ anchorsOfItems rest
/-- The anchors in entries. -/
def anchorsOfEntries {ν : Type} : List (Node ν × Node ν) → List (ν × Node ν)
  | [] => []
  | (key, value) :: rest => key.anchors ++ value.anchors ++ anchorsOfEntries rest
end

mutual
/-- The number of scalars, aliases, and beginnings and ends of collections in a node. -/
def Node.size {ν : Type} : Node ν → Nat
  | .scalar .. | .alias _ => 1
  | .sequence _ items => sizeOfItems items + 2
  | .mapping _ entries => sizeOfEntries entries + 2
  | .anchored _ node => node.size
/-- The size of items. -/
def sizeOfItems {ν : Type} : List (Node ν) → Nat
  | [] => 0
  | item :: rest => item.size + sizeOfItems rest
/-- The size of entries. -/
def sizeOfEntries {ν : Type} : List (Node ν × Node ν) → Nat
  | [] => 0
  | (key, value) :: rest => key.size + value.size + sizeOfEntries rest
end

/-! ## Documents -/

/-- A document. -/
structure Document where
  root : NumberedNode
  /-- The nodes at anchors, of which the last comes first. -/
  targets : List (Nat × NumberedNode)

/-- The document that a text holds. -/
def Document.ofText? (text : String) : Option Document := do
  let named ← Node.ofTokens? (← Token.ofText? text)
  let (root, _) ← named.numbered ⟨[], 0⟩
  return ⟨root, root.anchors.reverse⟩

namespace Document

/-- How many aliases may be followed for every part of a document. -/
def jumpsPerPart : Nat := 100

/-- Work on a document; the state is how many aliases may still be followed. -/
abbrev Reading := StateT Nat Option

/-- The outcome of work on a document. -/
def run {α : Type} (document : Document) (work : Reading α) : Option α :=
  (work (jumpsPerPart * document.root.size)).map (·.1)

/-- The node that an alias stands for, or the node itself. -/
def follow (document : Document) : NumberedNode → Reading NumberedNode
  | .alias number => fun
    | 0 => none
    | jumps + 1 => (document.targets.lookup number).map (·, jumps)
  | .anchored _ node => return node
  | node => return node

/-- The datum of a node in which at most the given number of collections are inside each other. -/
def valueTo (document : Document) (depth : Nat) (node : NumberedNode) : Reading Datum := do
  match ← document.follow node with
  | .scalar tag text style => fun jumps => (scalarValue? tag text style).map (·, jumps)
  | .sequence tag items =>
    match depth with
    | 0 => failure
    | depth + 1 =>
      if tag.any Tag.isLocal then failure
      return .list (← items.mapM (document.valueTo depth))
  | .mapping tag entries =>
    match depth with
    | 0 => failure
    | depth + 1 =>
      if tag.any Tag.isLocal then failure
      return .table (← entries.mapM fun (key, value) => do
        let key ← document.valueTo depth key
        return (key, ← document.valueTo depth value))
  | _ => failure

/-- The datum of a node inside the root. -/
def value (document : Document) (node : NumberedNode) : Reading Datum := document.valueTo (depthMax - 1) node

/-- The entries of the root, each read by its key and its value. -/
def entries (document : Document) (entry : NumberedNode → NumberedNode → Reading (Datum × Datum)) :
    Reading Datum := do
  match ← document.follow document.root with
  | .mapping _ entries => return .table (← entries.mapM fun (key, value) => entry key value)
  | _ => failure

/-! ## Single scalars -/

/-- The text of a scalar, whatever its kind. -/
def text (document : Document) (node : NumberedNode) : Reading String := do
  match ← document.follow node with
  | .scalar _ text _ => return text
  | _ => failure

/-- Whether a plain scalar says that there is nothing. -/
def isNothing (tag : Option Tag) (text : String) (style : Style) : Bool :=
  style = .plain && (text ∈ nulls || (text.isEmpty && tag.isNone)) && tag.all (· = kindTag "null")

/-- Whether a plain scalar is said to be null, and is not. -/
def isFalseNull (tag : Option Tag) (text : String) (style : Style) : Bool :=
  style = .plain && tag.any (· = kindTag "null") && text ∉ nulls

/-- The text of a scalar, if there is something. -/
def optionalText (document : Document) (node : NumberedNode) : Reading Datum := do
  match ← document.follow node with
  | .scalar tag text style =>
    if isFalseNull tag text style then failure
    return if isNothing tag text style then .null else .str text
  | _ => failure

/-- The whole number of a plain scalar, if there is something; a literal text must be said to be one. -/
def optionalNat (document : Document) (node : NumberedNode) : Reading Datum := do
  match ← document.follow node with
  | .scalar tag text style =>
    if isFalseNull tag text style then failure
    if isNothing tag text style then return .null
    if style = .plain ∨ (style = .literal ∧ tag = some (kindTag "int")) then
      match (unsigned? text.toList).bind word? with
      | some n => return n
      | none => failure
    else failure
  | _ => failure

end Document

end Workflow.Yaml
