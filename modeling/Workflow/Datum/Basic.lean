import Workflow.Json.Basic

/-!
# `Workflow.Datum.Basic` — what documents hold

Documents come in several formats, and what they hold is more general than JSON: the keys of a table need not be
texts, and a number need not be finite.

## Contents
- `Datum`, with `Datum.depth`.
- `Datum.ofJson`, and back where there is a JSON value: `Datum.toJson?`.
-/

namespace Workflow

/-- A value in a document. -/
inductive Datum where
  | null
  | bool (value : Bool)
  | int (value : Int)
  /-- A double, which need not be finite. -/
  | float (value : Float)
  | str (text : String)
  | list (items : List Datum)
  /-- Entries in the order in which they are written; keys may be repeated. -/
  | table (entries : List (Datum × Datum))
  deriving Inhabited

namespace Datum

/-! ## Depth -/

mutual
/-- The greatest number of lists and tables around a part of the value, itself included. -/
def depth : Datum → Nat
  | .list items => depthOfItems items + 1
  | .table entries => depthOfEntries entries + 1
  | _ => 0
/-- The greatest depth of an item. -/
def depthOfItems : List Datum → Nat
  | [] => 0
  | item :: rest => max (depth item) (depthOfItems rest)
/-- The greatest depth of the value of an entry. -/
def depthOfEntries : List (Datum × Datum) → Nat
  | [] => 0
  | (_, value) :: rest => max (depth value) (depthOfEntries rest)
end

/-! ## JSON -/

mutual
/-- A JSON value as a datum. -/
def ofJson : Json → Datum
  | .null => .null
  | .bool value => .bool value
  | .int value => .int value
  | .float value => .float value
  | .str text => .str text
  | .arr items => .list (ofItems items)
  | .obj fields => .table (ofFields fields)
/-- JSON items as data. -/
def ofItems : List Json → List Datum
  | [] => []
  | item :: rest => ofJson item :: ofItems rest
/-- JSON fields as entries. -/
def ofFields : List (String × Json) → List (Datum × Datum)
  | [] => []
  | (key, value) :: rest => (.str key, ofJson value) :: ofFields rest
end

mutual
/-- The canonical JSON value of a datum, if all keys are texts.  Null stands for numbers that are not finite, and
of a repeated key the last entry is kept. -/
def toJson? : Datum → Option Json
  | .null => some .null
  | .bool value => some (.bool value)
  | .int value => some (.int value)
  | .float value => some (if value.isFinite then .float value else .null)
  | .str text => some (.str text)
  | .list items => (itemsToJson? items).map .arr
  | .table entries => (fieldsToJson? entries).map .object
/-- The JSON values of items. -/
def itemsToJson? : List Datum → Option (List Json)
  | [] => some []
  | item :: rest => do
    let value ← toJson? item
    return value :: (← itemsToJson? rest)
/-- The JSON fields of entries. -/
def fieldsToJson? : List (Datum × Datum) → Option (List (String × Json))
  | [] => some []
  | (.str key, value) :: rest => do
    let value ← toJson? value
    return (key, value) :: (← fieldsToJson? rest)
  | _ => none
end

end Datum

end Workflow
