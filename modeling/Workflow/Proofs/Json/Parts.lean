import Workflow.Json.Reader
import Workflow.Json.Printer
import Workflow.Proofs.Decimal.Finite
import Workflow.Proofs.Json.Fields

/-!
# `Workflow.Proofs.Json.Parts` — the parts of a value

What is said of a value is often said of the values in it that hold no others, of the brackets around them, or of the
order of fields.  For an array or object each of these comes down to its items or fields.

## Contents
- **Recursion.** `induction_parts`, over the items and fields of values.
- **Depth.** `depth_arr_le` and `depth_obj_le`.
- **Leaves.** `Leaves`, with `leaves_arr`, `leaves_obj` and `Leaves.combine`.
- **Numbers.** `Sound` numbers, which a text can hold, and `Kept` ones, which are read as they are printed.
- **Order.** `canonical_arr` and `canonical_obj`, and the laws of `canonical`: `canonical_canonical`,
  `canonical_of_canonical`, `depth_canonical_le` and `Leaves.canonical`.
-/

namespace Workflow.Json

variable {P Q R : Json → Prop} {items : List Json} {fields : List (String × Json)} {bound : Nat}

/-! ## Depth -/

/-- An array is one deeper than its items. -/
theorem depth_arr_le : (arr items).depth ≤ bound + 1 ↔ ∀ item ∈ items, item.depth ≤ bound := by
  have each : ∀ items, depthOfItems items ≤ bound ↔ ∀ item ∈ items, item.depth ≤ bound := by
    intro items
    induction items with
    | nil => simp [depthOfItems]
    | cons item rest ih => rw [depthOfItems, Nat.max_le, ih, List.forall_mem_cons]
  rw [depth, Nat.add_le_add_iff_right, each]

/-- An object is one deeper than its fields. -/
theorem depth_obj_le : (obj fields).depth ≤ bound + 1 ↔ ∀ entry ∈ fields, entry.2.depth ≤ bound := by
  have each : ∀ fields, depthOfFields fields ≤ bound ↔ ∀ entry ∈ fields, entry.2.depth ≤ bound := by
    intro fields
    induction fields with
    | nil => simp [depthOfFields]
    | cons entry rest ih => rw [depthOfFields, Nat.max_le, ih, List.forall_mem_cons]
  rw [depth, Nat.add_le_add_iff_right, each]

/-! ## Recursion -/

/-- What holds of every value without parts, and of an array or object once it holds of its parts, holds of all. -/
@[elab_as_elim]
theorem induction_parts {motive : Json → Prop} (leaf : ∀ value, value.depth = 0 → motive value)
    (arr : ∀ items, (∀ item ∈ items, motive item) → motive (.arr items))
    (obj : ∀ fields, (∀ entry ∈ fields, motive entry.2) → motive (.obj fields)) (value : Json) : motive value := by
  have upTo : ∀ bound (value : Json), value.depth ≤ bound → motive value := by
    intro bound
    induction bound with
    | zero => exact fun value h => leaf value (Nat.le_zero.mp h)
    | succ bound ih =>
        intro value h
        cases value with
        | arr items => exact arr items fun item inside => ih item (depth_arr_le.mp h item inside)
        | obj fields => exact obj fields fun entry inside => ih entry.2 (depth_obj_le.mp h entry inside)
        | _ => exact leaf _ rfl
  exact upTo value.depth value (Nat.le_refl _)

/-! ## Leaves -/

mutual
/-- Every value in it that holds no others has a property. -/
def Leaves (P : Json → Prop) : Json → Prop
  | .arr items => LeavesItems P items
  | .obj fields => LeavesFields P fields
  | leaf => P leaf
/-- The leaves of every item have a property. -/
def LeavesItems (P : Json → Prop) : List Json → Prop
  | [] => True
  | item :: rest => Leaves P item ∧ LeavesItems P rest
/-- The leaves of the value of every field have a property. -/
def LeavesFields (P : Json → Prop) : List (String × Json) → Prop
  | [] => True
  | (_, value) :: rest => Leaves P value ∧ LeavesFields P rest
end

mutual
/-- Whether the leaves of a value have a property can be decided if it can be for each of them. -/
def decidableLeaves (P : Json → Prop) [DecidablePred P] : (value : Json) → Decidable (value.Leaves P)
  | .arr items => decidableLeavesItems P items
  | .obj fields => decidableLeavesFields P fields
  | .null => inferInstanceAs (Decidable (P .null))
  | .bool value => inferInstanceAs (Decidable (P (.bool value)))
  | .int value => inferInstanceAs (Decidable (P (.int value)))
  | .float value => inferInstanceAs (Decidable (P (.float value)))
  | .str text => inferInstanceAs (Decidable (P (.str text)))
/-- The same for items. -/
def decidableLeavesItems (P : Json → Prop) [DecidablePred P] : (items : List Json) → Decidable (LeavesItems P items)
  | [] => .isTrue trivial
  | item :: rest =>
    have := decidableLeaves P item
    have := decidableLeavesItems P rest
    inferInstanceAs (Decidable (_ ∧ _))
/-- The same for fields. -/
def decidableLeavesFields (P : Json → Prop) [DecidablePred P] :
    (fields : List (String × Json)) → Decidable (LeavesFields P fields)
  | [] => .isTrue trivial
  | (_, value) :: rest =>
    have := decidableLeaves P value
    have := decidableLeavesFields P rest
    inferInstanceAs (Decidable (_ ∧ _))
end

instance [DecidablePred P] (value : Json) : Decidable (value.Leaves P) := decidableLeaves P value

theorem leaves_arr : (arr items).Leaves P ↔ ∀ item ∈ items, item.Leaves P := by
  have each : ∀ items, LeavesItems P items ↔ ∀ item ∈ items, item.Leaves P := by
    intro items
    induction items with
    | nil => simp [LeavesItems]
    | cons item rest ih => simp [LeavesItems, ih]
  rw [Leaves, each]

theorem leaves_obj : (obj fields).Leaves P ↔ ∀ entry ∈ fields, entry.2.Leaves P := by
  have each : ∀ fields, LeavesFields P fields ↔ ∀ entry ∈ fields, entry.2.Leaves P := by
    intro fields
    induction fields with
    | nil => simp [LeavesFields]
    | cons entry rest ih => simp [LeavesFields, ih]
  rw [Leaves, each]

theorem leaves_of_depth {value : Json} (bare : value.depth = 0) : value.Leaves P ↔ P value := by
  cases value with
  | arr items => exact absurd bare (Nat.succ_ne_zero _)
  | obj fields => exact absurd bare (Nat.succ_ne_zero _)
  | _ => exact Iff.rfl

/-- What two properties of a leaf give together, they give for the leaves of a value. -/
theorem Leaves.combine {value : Json} (hp : value.Leaves P) (hq : value.Leaves Q) (h : ∀ leaf, P leaf → Q leaf → R leaf) :
    value.Leaves R := by
  induction value using induction_parts with
  | leaf value bare =>
      rw [leaves_of_depth bare] at hp hq ⊢
      exact h value hp hq
  | arr items ih =>
      exact leaves_arr.mpr fun item inside => ih item inside (leaves_arr.mp hp item inside) (leaves_arr.mp hq item inside)
  | obj fields ih =>
      exact leaves_obj.mpr fun entry inside =>
        ih entry inside (leaves_obj.mp hp entry inside) (leaves_obj.mp hq entry inside)

/-! ## Numbers -/

/-- A number that a text can hold: a whole one of 64 bits, or a finite double. -/
def Sound : Json → Prop
  | .int n => -2 ^ 63 ≤ n ∧ n < 2 ^ 64
  | .float x => x.isFinite = true
  | _ => True

instance : DecidablePred Sound
  | .int _ => inferInstanceAs (Decidable (_ ∧ _))
  | .float x => inferInstanceAs (Decidable (x.isFinite = true))
  | .null | .bool _ | .str _ | .arr _ | .obj _ => .isTrue trivial

/-- The value of a double. -/
def float? : Json → Option Float
  | .float value => some value
  | _ => none

theorem float?_eq_some {value : Json} {x : Float} : value.float? = some x ↔ value = .float x := by
  cases value with
  | float own => exact ⟨fun h => congrArg Json.float (Option.some.inj h), fun h => congrArg some (Json.float.inj h)⟩
  | _ => exact iff_of_false (fun h => by cases h) (fun h => by cases h)

/-- If it is a double, then what is printed for it is read as the same double. -/
def ReadsBack : Json → Prop
  | .float x => (ofNumber? (renderFloat x).toList).bind float? = some x
  | _ => True

instance : DecidablePred ReadsBack
  | .float x => inferInstanceAs (Decidable (_ = some x))
  | .null | .bool _ | .int _ | .str _ | .arr _ | .obj _ => .isTrue trivial

/-- A sound number that is read as it is printed. -/
def Kept (value : Json) : Prop := value.Sound ∧ value.ReadsBack

instance : DecidablePred Kept := fun _ => inferInstanceAs (Decidable (_ ∧ _))

/-! ## Order -/

theorem canonical_arr : (arr items).Canonical ↔ ∀ item ∈ items, item.Canonical := by
  have each : ∀ items, CanonicalItems items ↔ ∀ item ∈ items, item.Canonical := by
    intro items
    induction items with
    | nil => simp [CanonicalItems]
    | cons item rest ih => simp [CanonicalItems, ih]
  rw [Canonical, each]

theorem canonical_obj : (obj fields).Canonical ↔ Fields.Sorted fields ∧ ∀ entry ∈ fields, entry.2.Canonical := by
  have each : ∀ fields, CanonicalFields fields ↔ ∀ entry ∈ fields, entry.2.Canonical := by
    intro fields
    induction fields with
    | nil => simp [CanonicalFields]
    | cons entry rest ih => simp [CanonicalFields, ih]
  rw [Canonical, each]

/-- An object with canonical values is canonical. -/
theorem canonical_object {entries : List (String × Json)} (h : ∀ entry ∈ entries, entry.2.Canonical) :
    (object entries).Canonical :=
  canonical_obj.mpr ⟨Fields.sorted_ofList entries, fun entry inside => h entry (Fields.mem_ofList inside)⟩

/-- In an object of entries under different keys every entry is a field. -/
theorem field?_object_eq_some {entries : List (String × Json)} (apart : (entries.map Prod.fst).Nodup) {key : String}
    {value : Json} : (object entries).field? key = some value ↔ (key, value) ∈ entries :=
  (Fields.find?_eq_some_iff (Fields.sorted_ofList entries)).trans (Fields.perm_ofList apart).mem_iff

theorem text?_eq_some {value : Json} {text : String} : value.text? = some text ↔ value = .str text := by
  cases value with
  | str own => exact ⟨fun h => congrArg Json.str (Option.some.inj h), fun h => congrArg some (Json.str.inj h)⟩
  | _ => exact iff_of_false (fun h => by cases h) (fun h => by cases h)

/-- Items are brought into canonical form one by one. -/
theorem canonicalItems_eq (items : List Json) : canonicalItems items = items.map canonical := by
  induction items with
  | nil => rfl
  | cons item rest ih => rw [canonicalItems, ih, List.map_cons]

/-- Fields are brought into canonical form one by one. -/
theorem canonicalFields_eq (fields : List (String × Json)) :
    canonicalFields fields = fields.map fun entry => (entry.1, entry.2.canonical) := by
  induction fields with
  | nil => rfl
  | cons entry rest ih => rw [canonicalFields, ih, List.map_cons]

/-- What is in the canonical form of fields is the canonical form of something in them. -/
theorem mem_canonicalFields {entry : String × Json} (h : entry ∈ Fields.ofList (canonicalFields fields)) :
    ∃ original ∈ fields, entry = (original.1, original.2.canonical) := by
  have inside := Fields.mem_ofList h
  rw [canonicalFields_eq] at inside
  obtain ⟨original, held, e⟩ := List.mem_map.mp inside
  exact ⟨original, held, e.symm⟩

theorem canonical_leaf {value : Json} (bare : value.depth = 0) : value.canonical = value := by
  cases value with
  | arr items => exact absurd bare (Nat.succ_ne_zero _)
  | obj fields => exact absurd bare (Nat.succ_ne_zero _)
  | _ => rfl

/-- **The canonical form is canonical.** -/
theorem canonical_canonical (value : Json) : value.canonical.Canonical := by
  induction value using induction_parts with
  | leaf value bare =>
      rw [canonical_leaf bare]
      cases value with
      | arr items => exact absurd bare (Nat.succ_ne_zero _)
      | obj fields => exact absurd bare (Nat.succ_ne_zero _)
      | _ => trivial
  | arr items ih =>
      rw [canonical, canonicalItems_eq, canonical_arr]
      intro item inside
      obtain ⟨original, held, rfl⟩ := List.mem_map.mp inside
      exact ih original held
  | obj fields ih =>
      rw [canonical, canonical_obj]
      refine ⟨Fields.sorted_ofList _, fun entry inside => ?_⟩
      obtain ⟨original, held, rfl⟩ := mem_canonicalFields inside
      exact ih original held

/-- What is canonical already stays as it is. -/
theorem canonical_of_canonical {value : Json} (h : value.Canonical) : value.canonical = value := by
  induction value using induction_parts with
  | leaf value bare => exact canonical_leaf bare
  | arr items ih =>
      have same := List.map_congr_left fun item inside => ih item inside (canonical_arr.mp h item inside)
      rw [canonical, canonicalItems_eq, same]
      exact congrArg Json.arr (List.map_id' items)
  | obj fields ih =>
      obtain ⟨sorted, each⟩ := canonical_obj.mp h
      have same : canonicalFields fields = fields := by
        rw [canonicalFields_eq]
        refine (List.map_congr_left fun entry inside => ?_).trans (List.map_id' fields)
        rw [ih entry inside (each entry inside)]
      rw [canonical, same, Fields.ofList_of_sorted sorted]

theorem depth_canonical_le (value : Json) : value.canonical.depth ≤ value.depth := by
  induction value using induction_parts with
  | leaf value bare => exact Nat.le_of_eq (congrArg depth (canonical_leaf bare))
  | arr items ih =>
      rw [canonical, canonicalItems_eq]
      refine depth_arr_le.mpr fun item inside => ?_
      obtain ⟨original, held, rfl⟩ := List.mem_map.mp inside
      exact Nat.le_trans (ih original held) (depth_arr_le.mp (Nat.le_refl _) original held)
  | obj fields ih =>
      rw [canonical]
      refine depth_obj_le.mpr fun entry inside => ?_
      obtain ⟨original, held, rfl⟩ := mem_canonicalFields inside
      exact Nat.le_trans (ih original held) (depth_obj_le.mp (Nat.le_refl _) original held)

theorem Leaves.canonical {value : Json} (h : value.Leaves P) : value.canonical.Leaves P := by
  induction value using induction_parts with
  | leaf value bare =>
      rw [canonical_leaf bare]
      exact h
  | arr items ih =>
      rw [Json.canonical, canonicalItems_eq]
      refine leaves_arr.mpr fun item inside => ?_
      obtain ⟨original, held, rfl⟩ := List.mem_map.mp inside
      exact ih original held (leaves_arr.mp h original held)
  | obj fields ih =>
      rw [Json.canonical]
      refine leaves_obj.mpr fun entry inside => ?_
      obtain ⟨original, held, rfl⟩ := mem_canonicalFields inside
      exact ih original held (leaves_obj.mp h original held)

end Workflow.Json
