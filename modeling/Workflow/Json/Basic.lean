/-!
# `Workflow.Json.Basic` — JSON values

The values that states read, write and pass on.  Integers and floating-point numbers are different
values, and an object is a list of fields.  A value that was read is *canonical*: the fields of every
object are in strictly increasing order of their keys.

## Contents
- **Values.** `Json`, its equality test, the views `field?`, `items?`, `text?`, …, and `depth`.
- **Fields.** `Fields.find?` and `Fields.set`, look-up and update that rely on, and keep, the order of
  keys, with the laws that tie them together.
- **Canonical form.** `Json.Canonical`, and `Json.canonical`, which sorts the fields of every object and
  keeps the last of each repeated key.
-/

namespace Workflow

/-! ## Fields -/

/-- Entries under textual keys.  Keys are ordered by code point, which is the order of their UTF-8
bytes. -/
abbrev Fields (α : Type) := List (String × α)

namespace Fields

variable {α : Type}

/-- The entry under a key.  The search stops at the first greater key. -/
def find? : Fields α → String → Option α
  | [], _ => none
  | (k, v) :: rest, key =>
    if k = key then some v else if key < k then none else find? rest key

/-- Puts an entry under a key: in place of the present one, or else before the first greater key. -/
def set : Fields α → String → α → Fields α
  | [], key, value => [(key, value)]
  | (k, v) :: rest, key, value =>
    if k = key then (key, value) :: rest
    else if key < k then (key, value) :: (k, v) :: rest
    else (k, v) :: set rest key value

/-- Drops the entry under a key, if there is one. -/
def erase : Fields α → String → Fields α
  | [], _ => []
  | (k, v) :: rest, key => if k = key then rest else (k, v) :: erase rest key

/-- The entries of a list in key order; of a repeated key the last entry is kept. -/
def ofList (entries : List (String × α)) : Fields α :=
  entries.foldl (fun fields e => fields.set e.1 e.2) []

/-- The keys, in order. -/
def keys (fields : Fields α) : List String := fields.map Prod.fst

/-- The keys are strictly increasing. -/
def Sorted (fields : Fields α) : Prop := fields.keys.Pairwise (· < ·)

@[simp] theorem find?_nil (key : String) : find? ([] : Fields α) key = none := rfl

@[simp] theorem find?_set_self (fields : Fields α) (key : String) (value : α) :
    (fields.set key value).find? key = some value := by
  fun_induction set fields key value with
  | case1 => simp [find?]
  | case2 => simp [find?]
  | case3 => simp [find?]
  | case4 k v rest key value hne hlt ih => simp [find?, hne, hlt, ih]

/-- Writing back what a key holds changes nothing. -/
theorem set_find? {fields : Fields α} {key : String} {value : α}
    (h : fields.find? key = some value) : fields.set key value = fields := by
  fun_induction find? fields key with
  | case1 => simp at h
  | case2 v rest key => simp_all [set]
  | case3 => simp at h
  | case4 k v rest key hne hlt ih => simp [set, hne, hlt, ih h]

@[simp] theorem set_set_self (fields : Fields α) (key : String) (value value' : α) :
    (fields.set key value).set key value' = fields.set key value' := by
  fun_induction set fields key value with
  | case1 => simp [set]
  | case2 => simp [set]
  | case3 k v rest key value hne hlt => simp [set, hne, hlt]
  | case4 k v rest key value hne hlt ih => simp [set, hne, hlt, ih]

/-- What a key holds is an entry. -/
theorem mem_of_find? {fields : Fields α} {key : String} {value : α}
    (h : fields.find? key = some value) : (key, value) ∈ fields := by
  fun_induction find? fields key with
  | case1 => simp at h
  | case2 v rest key => simp_all
  | case3 => simp at h
  | case4 k v rest key hne hlt ih => exact List.mem_cons_of_mem _ (ih h)

/-- Writing to one key leaves what the others hold. -/
theorem find?_set_of_ne (fields : Fields α) {key other : String} (value : α) (h : other ≠ key) :
    (fields.set key value).find? other = fields.find? other := by
  fun_induction set fields key value with
  | case1 key value => simp [find?, Ne.symm h]
  | case2 v rest key value => simp [find?, Ne.symm h]
  | case3 k v rest key value hne hlt =>
    -- The new entry stands before a greater key, at which the search would have stopped.
    simp only [find?, if_neg (Ne.symm h)]
    split
    · rename_i less
      have before : other < k := String.lt_trans less hlt
      have hne' : k ≠ other := fun e => String.lt_irrefl _ (e ▸ before)
      simp [hne', before]
    · rfl
  | case4 k v rest key value hne hlt ih => simp only [find?, ih h]

/-- Dropping one key leaves what another holds. -/
theorem find?_erase_of_ne {fields : Fields α} {key other : String} {value : α} (h : other ≠ key)
    (held : fields.find? other = some value) : (fields.erase key).find? other = some value := by
  fun_induction erase fields key with
  | case1 => exact held
  | case2 v rest key =>
    simp only [find?, if_neg (Ne.symm h)] at held
    split at held
    · simp at held
    · exact held
  | case3 k v rest key hne ih =>
    simp only [find?] at held ⊢
    split at held
    · rename_i here
      simp [here, held]
    · rename_i elsewhere
      split at held
      · simp at held
      · rename_i notGreater
        simp [elsewhere, notGreater, ih h held]

end Fields

/-! ## Values -/

/-- A JSON value. -/
inductive Json where
  | null
  | bool (value : Bool)
  /-- A whole number, as written without point or exponent. -/
  | int (value : Int)
  /-- A finite double. -/
  | float (value : Float)
  | str (text : String)
  | arr (items : List Json)
  | obj (fields : List (String × Json))
  deriving Inhabited

namespace Json

/-- The object without fields. -/
def empty : Json := .obj []

/-- An object with the given entries. -/
def object (entries : List (String × Json)) : Json := .obj (Fields.ofList entries)

mutual
/-- Equality of values: numbers are equal when they are of one kind and numerically equal. -/
def same : Json → Json → Bool
  | .null, .null => true
  | .bool a, .bool b => a == b
  | .int a, .int b => a == b
  | .float a, .float b => a == b
  | .str a, .str b => a == b
  | .arr a, .arr b => sameItems a b
  | .obj a, .obj b => sameFields a b
  | _, _ => false
/-- Equality item by item. -/
def sameItems : List Json → List Json → Bool
  | [], [] => true
  | a :: as, b :: bs => same a b && sameItems as bs
  | _, _ => false
/-- Equality field by field, keys included. -/
def sameFields : List (String × Json) → List (String × Json) → Bool
  | [], [] => true
  | (k, a) :: as, (l, b) :: bs => k == l && same a b && sameFields as bs
  | _, _ => false
end

instance : BEq Json := ⟨same⟩

/-- The value of a field, if this is an object that has it. -/
def field? : Json → String → Option Json
  | .obj fields, key => Fields.find? fields key
  | _, _ => none

/-- The item at an index, if this is an array that reaches so far. -/
def item? : Json → Nat → Option Json
  | .arr items, index => items[index]?
  | _, _ => none

/-- The items of an array. -/
def items? : Json → Option (List Json)
  | .arr items => some items
  | _ => none

/-- The fields of an object. -/
def fields? : Json → Option (Fields Json)
  | .obj fields => some fields
  | _ => none

/-- The text of a string. -/
def text? : Json → Option String
  | .str text => some text
  | _ => none

/-- The truth value of a boolean. -/
def bool? : Json → Option Bool
  | .bool value => some value
  | _ => none

/-- The value of an integer. -/
def int? : Json → Option Int
  | .int value => some value
  | _ => none

/-- The value of an integer that is not negative. -/
def nat? : Json → Option Nat
  | .int value => if 0 ≤ value then some value.toNat else none
  | _ => none

/-- The value of a number as a double. -/
def number? : Json → Option Float
  | .int value => some (Float.ofInt value)
  | .float value => some value
  | _ => none

def isNull : Json → Bool
  | .null => true
  | _ => false

/-! ## Depth -/

mutual
/-- The greatest number of arrays and objects around a part of the value, itself included. -/
def depth : Json → Nat
  | .arr items => depthOfItems items + 1
  | .obj fields => depthOfFields fields + 1
  | _ => 0
/-- The greatest depth of an item. -/
def depthOfItems : List Json → Nat
  | [] => 0
  | item :: rest => max (depth item) (depthOfItems rest)
/-- The greatest depth of the value of a field. -/
def depthOfFields : List (String × Json) → Nat
  | [] => 0
  | (_, value) :: rest => max (depth value) (depthOfFields rest)
end

/-! ## Canonical form -/

mutual
/-- The fields of every object in the value have strictly increasing keys. -/
def Canonical : Json → Prop
  | .arr items => CanonicalItems items
  | .obj fields => Fields.Sorted fields ∧ CanonicalFields fields
  | _ => True
/-- Every item is canonical. -/
def CanonicalItems : List Json → Prop
  | [] => True
  | item :: rest => Canonical item ∧ CanonicalItems rest
/-- The value of every field is canonical. -/
def CanonicalFields : List (String × Json) → Prop
  | [] => True
  | (_, value) :: rest => Canonical value ∧ CanonicalFields rest
end

mutual
/-- Sorts the fields of every object; of a repeated key the last entry is kept. -/
def canonical : Json → Json
  | .arr items => .arr (canonicalItems items)
  | .obj fields => .obj (Fields.ofList (canonicalFields fields))
  | value => value
/-- Brings every item into canonical form. -/
def canonicalItems : List Json → List Json
  | [] => []
  | item :: rest => canonical item :: canonicalItems rest
/-- Brings the value of every field into canonical form. -/
def canonicalFields : List (String × Json) → List (String × Json)
  | [] => []
  | (key, value) :: rest => (key, canonical value) :: canonicalFields rest
end

end Json

end Workflow
