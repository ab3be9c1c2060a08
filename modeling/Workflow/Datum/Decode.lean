import Workflow.Datum.Basic

/-!
# `Workflow.Datum.Decode` — reading typed values out of documents

A typed value is read part by part.  All parts are looked at, and of several issues the one that comes first
in the document is reported.

## Contents
- `Issue`, what is wrong and where, and `Reading`, whose applicative structure keeps the earliest issue.
- Readers of single values: `asText`, `asNat`, `asFlag`, `asDouble`, `asList`, `asAny`.
- `Record`, a table with known fields, or a list of their values in order, with `Record.required`,
  `Record.optional` and `Record.withDefault`.
- `choice?`, the name that stands for one of several values, and `splitTag?`, the tag that says how to read the
  rest.
-/

namespace Workflow.Datum

/-! ## Readings -/

/-- What is wrong with a part of a document: a given cause, or simply its shape. -/
structure Issue (ε : Type) where
  /-- The positions of the parts around it, outermost first. -/
  place : List Nat
  cause : Option ε

/-- The issue that comes first in the document. -/
def Issue.earlier {ε : Type} (a b : Issue ε) : Issue ε := if b.place < a.place then b else a

/-- A typed value read from a document, or the first issue with it. -/
structure Reading (ε α : Type) where
  result : Except (Issue ε) α

namespace Reading

variable {ε α β : Type}

/-- Combines two parts; the earlier of two issues is kept. -/
def combine (f : Reading ε (α → β)) (x : Reading ε α) : Reading ε β :=
  match f.result, x.result with
  | .ok f, .ok x => ⟨.ok (f x)⟩
  | .error a, .ok _ => ⟨.error a⟩
  | .ok _, .error b => ⟨.error b⟩
  | .error a, .error b => ⟨.error (a.earlier b)⟩

instance : Applicative (Reading ε) where
  pure x := ⟨.ok x⟩
  map f x := ⟨x.result.map f⟩
  seq f x := combine f (x ())

/-- A value of the wrong shape. -/
def mismatch : Reading ε α := ⟨.error ⟨[], none⟩⟩

/-- Something missing or superfluous at a position. -/
def mismatchAt (position : Nat) : Reading ε α := ⟨.error ⟨[position], none⟩⟩

/-- The reading of the part at a position. -/
def inside (position : Nat) (part : Reading ε α) : Reading ε α :=
  ⟨part.result.mapError fun issue => { issue with place := position :: issue.place }⟩

/-- A reading that can go wrong for a cause of its own. -/
def ofExcept (outcome : Except ε α) : Reading ε α :=
  ⟨outcome.mapError fun cause => ⟨[], some cause⟩⟩

/-- The readings of parts, the first of which is at a position. -/
def all (position : Nat) : List (Reading ε α) → Reading ε (List α)
  | [] => pure []
  | part :: rest => List.cons <$> inside position part <*> all (position + 1) rest

end Reading

open Reading

variable {ε α : Type}

/-! ## Single values -/

/-- A text. -/
def asText : Datum → Reading ε String
  | .str text => pure text
  | _ => mismatch

/-- An integer from zero up to a bound. -/
def asNat (bound : Nat) : Datum → Reading ε Nat
  | .int n => if 0 ≤ n ∧ n < bound then pure n.toNat else mismatch
  | _ => mismatch

/-- An integer of 64 bits without sign. -/
def asNat64 : Datum → Reading ε Nat := asNat (Nat.pow 2 64)

/-- An integer of 32 bits without sign. -/
def asNat32 : Datum → Reading ε Nat := asNat (Nat.pow 2 32)

/-- A boolean. -/
def asFlag : Datum → Reading ε Bool
  | .bool value => pure value
  | _ => mismatch

/-- A number as a double. -/
def asDouble : Datum → Reading ε Float
  | .int value => pure (Float.ofInt value)
  | .float value => pure value
  | _ => mismatch

/-- A list of values of one type. -/
def asList (item : Datum → Reading ε α) : Datum → Reading ε (List α)
  | .list items => Reading.all 0 (items.map item)
  | _ => mismatch

/-- Any JSON value, in canonical form. -/
def asAny (value : Datum) : Reading ε Json :=
  match value.toJson? with
  | some value => pure value
  | none => mismatch

/-- Named values of one type; of a repeated name the last value is kept. -/
def asFields (part : Datum → Reading ε α) : Datum → Reading ε (Fields α)
  | .table entries =>
    Fields.ofList <$> Reading.all 0 (entries.map fun (name, value) =>
      Prod.mk <$> asText name <*> part value)
  | _ => mismatch

/-- The name that stands for one of several values.  It may also be the key of a table that holds nothing
else: the key has null, or, where that is allowed, a table without entries. -/
def choice? (empties : Bool) : Datum → Option Datum
  | .str name => some (.str name)
  | .table [(name, .null)] => some name
  | .table [(name, .table [])] => if empties then some name else none
  | _ => none

/-- Splits a value into its tag and its other entries.  The tag is under a key of its own, or it is the first
item of a list. -/
def splitTag? (key : String) : Datum → Option (Datum × Datum)
  | .table entries =>
    let isTag (entry : Datum × Datum) : Bool :=
      match entry.1 with
      | .str name => name == key
      | _ => false
    match entries.filter isTag with
    | [(_, tag)] => some (tag, .table (entries.filter fun entry => !isTag entry))
    | _ => none
  | .list (tag :: rest) => some (tag, .list rest)
  | _ => none

/-! ## Records -/

/-- The known fields of a table, in the order of their declaration. -/
structure Record where
  /-- The position and the value of each field that is present. -/
  slots : List (Option (Nat × Datum))
  /-- The position of whatever is missing. -/
  size : Nat
  /-- The position of the first repeated field or surplus value. -/
  surplus : Option Nat

namespace Record

/-- The field that a key selects, by one of its names or by its number; `some none` for an unknown field. -/
def fieldOf? (names : List (List String)) : Datum → Option (Option Nat)
  | .str name => some (names.findIdx? (·.contains name))
  | .int number => if 0 ≤ number then some (some number.toNat) else none
  | _ => none

/-- The first entry of a field, with its position. -/
def slot (field : Nat) (position : Nat) : List (Option Nat × Datum) → Option (Nat × Datum)
  | [] => none
  | (key, value) :: rest =>
    if key = some field then some (position, value) else slot field (position + 1) rest

/-- The position of the second entry of a field. -/
def repeated (field : Nat) (seen : Bool) (position : Nat) : List (Option Nat × Datum) → Option Nat
  | [] => none
  | (key, _) :: rest =>
    if key = some field then
      if seen then some position else repeated field true (position + 1) rest
    else repeated field seen (position + 1) rest

/-- The lesser of two positions that may be absent. -/
def least : Option Nat → Option Nat → Option Nat
  | some a, some b => some (min a b)
  | some a, none => some a
  | none, b => b

/-- The known fields among entries; each field has one or more names. -/
def ofEntries? (names : List (List String)) (entries : List (Datum × Datum)) : Option Record := do
  let entries ← entries.mapM fun (key, value) => (fieldOf? names key).map (·, value)
  return {
    slots := names.mapIdx fun field _ => slot field 0 entries
    size := entries.length
    surplus := (List.range names.length).foldl
      (fun found field => least found (repeated field false 0 entries)) none }

/-- The values of fields in the order of their declaration, of which the last may be missing. -/
def ofItems (names : List (List String)) (items : List Datum) : Record where
  slots := names.mapIdx fun i _ => items[i]?.map (i, ·)
  size := items.length
  surplus := if names.length < items.length then some names.length else none

/-- The fields of a table or list. -/
def of? (names : List (List String)) : Datum → Option Record
  | .table entries => ofEntries? names entries
  | .list items => some (ofItems names items)
  | _ => none

/-- Reads a record with the given fields. -/
def read (names : List (List String)) (value : Datum) (body : Record → Reading ε α) : Reading ε α :=
  match of? names value with
  | none => mismatch
  | some record =>
    match record.surplus with
    | none => body record
    | some position => (fun _ x => x) <$> (mismatchAt position : Reading ε Unit) <*> body record

/-- The field at a position of the declaration, if it is present. -/
def get? (record : Record) (index : Nat) : Option (Nat × Datum) := (record.slots[index]?).join

/-- A field that must be present. -/
def required (record : Record) (index : Nat) (part : Datum → Reading ε α) : Reading ε α :=
  match record.get? index with
  | some (position, value) => inside position (part value)
  | none => mismatchAt record.size

/-- A field that may be absent. -/
def withDefault (record : Record) (index : Nat) (default : α) (part : Datum → Reading ε α) :
    Reading ε α :=
  match record.get? index with
  | some (position, value) => inside position (part value)
  | none => pure default

/-- A field that may be absent or null. -/
def optional (record : Record) (index : Nat) (part : Datum → Reading ε α) : Reading ε (Option α) :=
  record.withDefault index none fun
    | .null => pure none
    | value => some <$> part value

end Record

end Workflow.Datum
