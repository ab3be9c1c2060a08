import Workflow.Toml.Value

/-!
# `Workflow.Toml.Document` — documents of TOML

A document is a list of statements: headers that open a table, and keys that are set in the table opened last.
A key can be set once, and a table can be opened once; tables on the way to others come about by themselves.

## Contents
- `Item` and `Statement`.
- `value`, the scanner of values, and `statements`.
- `setKey`, `openTable`, `openElement`, which build up the tables, and `Toml.parse?`.
-/

namespace Workflow.Toml

open Text Text.Scanner

/-! ## Tables -/

/-- How a table came about. -/
inductive Origin where
  /-- By a header of its own. -/
  | header
  /-- On the way to the table of a header. -/
  | implied
  /-- On the way to a key. -/
  | dotted
  deriving DecidableEq, Repr

/-- What a key holds. -/
inductive Item where
  | value (value : Json)
  | table (origin : Origin) (entries : List (String × Item))
  /-- An array of tables, of which the last comes first. -/
  | tables (elements : List (List (String × Item)))

/-- The entries of a table. -/
abbrev Entries := List (String × Item)

/-- What a key holds, if it is set. -/
def Entries.get? (entries : Entries) (key : String) : Option Item :=
  (entries.find? (·.1 == key)).map (·.2)

/-- Sets a key, in its place if it is set already. -/
def Entries.put (entries : Entries) (key : String) (item : Item) : Entries :=
  if entries.any (·.1 == key) then entries.map fun e => if e.1 == key then (key, item) else e
  else entries ++ [(key, item)]

mutual
/-- The value that an item stands for. -/
def Item.toJson : Item → Json
  | .value value => value
  | .table _ entries => .obj (entriesToJson entries)
  | .tables elements => .arr (elementsToJson elements).reverse
/-- The fields of a table. -/
def entriesToJson : List (String × Item) → List (String × Json)
  | [] => []
  | (key, item) :: rest => (key, Item.toJson item) :: entriesToJson rest
/-- The values of tables. -/
def elementsToJson : List (List (String × Item)) → List Json
  | [] => []
  | entries :: rest => .obj (entriesToJson entries) :: elementsToJson rest
end

/-- Changes the table to which a key leads; tables that are not there come about as told. -/
def within (origin : Origin) (allowed : Origin → Bool) (change : Entries → Option Entries)
    (entries : Entries) (key : String) : Option Entries :=
  match entries.get? key with
  | none => (change []).map fun es => entries.put key (.table origin es)
  | some (.table old es) =>
    if allowed old then (change es).map fun es => entries.put key (.table old es) else none
  | some (.tables (last :: before)) =>
    (change last).map fun es => entries.put key (.tables (es :: before))
  | some _ => none

/-- Sets a key in the table to which the keys before it lead.  Such a table must have come about on the way to
a key. -/
def setKey (value : Json) : List String → Entries → Option Entries
  | [], _ => none
  | [key], entries =>
    match entries.get? key with
    | none => some (entries.put key (.value value))
    | some _ => none
  | key :: rest, entries =>
    let allowed (origin : Origin) : Bool :=
      match rest with
      | [_] => origin = .dotted
      | _ => origin ≠ .header
    match rest, entries.get? key with
    | [_], some (.tables _) => none
    | _, _ => within .dotted allowed (setKey value rest) entries key

/-- Opens a table by its header. -/
def openTable : List String → Entries → Option Entries
  | [], _ => none
  | [key], entries =>
    match entries.get? key with
    | none => some (entries.put key (.table .header []))
    | some (.table .implied es) => some (entries.put key (.table .header es))
    | some _ => none
  | key :: rest, entries => within .implied (fun _ => true) (openTable rest) entries key

/-- Opens a further element of an array of tables. -/
def openElement : List String → Entries → Option Entries
  | [], _ => none
  | [key], entries =>
    match entries.get? key with
    | none => some (entries.put key (.tables [[]]))
    | some (.tables elements) => some (entries.put key (.tables ([] :: elements)))
    | some _ => none
  | key :: rest, entries => within .implied (fun _ => true) (openElement rest) entries key

/-- Changes the table at the end of a path. -/
def atPath (change : Entries → Option Entries) : List String → Entries → Option Entries
  | [], entries => change entries
  | key :: rest, entries => within .implied (fun _ => true) (atPath change rest) entries key

/-! ## Values -/

/-- Takes a key and its value, given how to take a value. -/
def assignment (value : Scanner Json) : Scanner (List String × Json) := do
  let path ← key
  blanks
  char '='
  blanks
  return (path, ← value)

/-- Takes an array, given how to take a value. -/
def arrayOf (value : Scanner Json) : Scanner Json := do
  char '['
  let items ← maybe do
    let items ← separated (lines *> value) (lines *> char ',')
    let _ ← maybe (lines *> char ',')
    return items
  lines
  char ']'
  return .arr (items.getD [])

/-- Takes a table within a line, given how to take a value. -/
def inlineTableOf (value : Scanner Json) : Scanner Json := do
  char '\x7b'
  blanks
  let entries ← maybe (separated (blanks *> assignment value <* blanks) (char ','))
  blanks
  char '\x7d'
  match (entries.getD []).foldlM (fun es (e : List String × Json) => setKey e.2 e.1 es) [] with
  | some entries => return .obj (entriesToJson entries)
  | none => failure

/-- Takes a value that is no array and no table. -/
def simpleValue : Scanner Json :=
  Json.str <$> text <|> (fun _ => .bool true) <$> word ['t', 'r', 'u', 'e']
    <|> (fun _ => .bool false) <$> word ['f', 'a', 'l', 's', 'e'] <|> time <|> number

/-- Takes a value in which at most the given number of arrays and tables are nested. -/
def value : Nat → Scanner Json
  | 0 => simpleValue
  | depth + 1 => simpleValue <|> arrayOf (value depth) <|> inlineTableOf (value depth)

/-! ## Documents -/

/-- A statement of a document. -/
inductive Statement where
  | table (path : List String)
  | element (path : List String)
  | set (path : List String) (value : Json)

/-- Takes a statement. -/
def statement : Scanner Statement :=
  (do
    word ['[', '[']
    blanks
    let path ← key
    blanks
    word [']', ']']
    return .element path)
  <|> (do
    char '['
    blanks
    let path ← key
    blanks
    char ']'
    return .table path)
  <|> (fun e => .set e.1 e.2) <$> assignment (value depthMax)

/-- Takes the statements of a document, of which each has a line of its own. -/
def statements : Scanner (List Statement) := do
  let _ ← maybe (char '\uFEFF')
  let line : Scanner (Option Statement) := blanks *> maybe statement <* trailer
  let all ← separated line newline
  return all.filterMap id

/-- Adds a statement to the tables so far, given the path of the table opened last. -/
def addStatement (state : List String × Entries) : Statement → Option (List String × Entries)
  | .table path => (openTable path state.2).map (path, ·)
  | .element path => (openElement path state.2).map (path, ·)
  | .set path value => (atPath (setKey value path) state.1 state.2).map (state.1, ·)

/-- The object that a document stands for. -/
def parse? (text : String) : Option Json := do
  let all ← whole statements text
  let (_, entries) ← all.foldlM addStatement ([], [])
  return .obj (entriesToJson entries)

end Workflow.Toml
