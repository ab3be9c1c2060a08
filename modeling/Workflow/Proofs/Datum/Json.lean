import Workflow.Datum.Basic
import Workflow.Proofs.Json.Parts

/-!
# `Workflow.Proofs.Datum.Json` — JSON values as data

A JSON value is a datum of the same shape.  On the way back its fields are put in order; nothing else is lost, as long as
its numbers are sound.

## Contents
- **There.** `ofItems_eq`, `ofFields_eq` and `depth_ofJson`.
- **Back.** `toJson?_ofJson`.
-/

namespace Workflow.Datum

open Json (Sound induction_parts)

/-! ## There -/

theorem ofItems_eq (items : List Json) : ofItems items = items.map ofJson := by
  induction items with
  | nil => rfl
  | cons item rest ih => rw [ofItems, ih, List.map_cons]

theorem ofFields_eq (fields : List (String × Json)) :
    ofFields fields = fields.map fun entry => (.str entry.1, ofJson entry.2) := by
  induction fields with
  | nil => rfl
  | cons entry rest ih => rw [ofFields, ih, List.map_cons]

theorem depth_ofJson (value : Json) : (ofJson value).depth = value.depth := by
  induction value using induction_parts with
  | leaf value bare =>
      cases value with
      | arr items => exact absurd bare (Nat.succ_ne_zero _)
      | obj fields => exact absurd bare (Nat.succ_ne_zero _)
      | _ => rfl
  | arr items ih =>
      have each : ∀ items : List Json, (∀ item ∈ items, (ofJson item).depth = item.depth) →
          depthOfItems (ofItems items) = Json.depthOfItems items := by
        intro items same
        induction items with
        | nil => rfl
        | cons item rest ih =>
            obtain ⟨first, others⟩ := List.forall_mem_cons.mp same
            rw [ofItems, depthOfItems, Json.depthOfItems, first, ih others]
      rw [ofJson, depth, Json.depth, each items ih]
  | obj fields ih =>
      have each : ∀ fields : List (String × Json), (∀ entry ∈ fields, (ofJson entry.2).depth = entry.2.depth) →
          depthOfEntries (ofFields fields) = Json.depthOfFields fields := by
        intro fields same
        induction fields with
        | nil => rfl
        | cons entry rest ih =>
            obtain ⟨first, others⟩ := List.forall_mem_cons.mp same
            rw [ofFields, depthOfEntries, Json.depthOfFields, first, ih others]
      rw [ofJson, depth, Json.depth, each fields ih]

/-! ## Back -/

/-- **What comes back is the canonical form.** -/
theorem toJson?_ofJson {value : Json} (sound : value.Leaves Sound) : (ofJson value).toJson? = some value.canonical := by
  induction value using induction_parts with
  | leaf value bare =>
      cases value with
      | arr items => exact absurd bare (Nat.succ_ne_zero _)
      | obj fields => exact absurd bare (Nat.succ_ne_zero _)
      | float x => exact congrArg some (if_pos sound)
      | _ => rfl
  | arr items ih =>
      have each : ∀ items : List Json, (∀ item ∈ items, (ofJson item).toJson? = some item.canonical) →
          itemsToJson? (ofItems items) = some (Json.canonicalItems items) := by
        intro items back
        induction items with
        | nil => rfl
        | cons item rest ih =>
            obtain ⟨first, others⟩ := List.forall_mem_cons.mp back
            simp only [ofItems, itemsToJson?, first, ih others]
            rfl
      rw [ofJson, toJson?, each items fun item inside => ih item inside (Json.leaves_arr.mp sound item inside)]
      rfl
  | obj fields ih =>
      have each : ∀ fields : List (String × Json), (∀ entry ∈ fields, (ofJson entry.2).toJson? = some entry.2.canonical) →
          fieldsToJson? (ofFields fields) = some (Json.canonicalFields fields) := by
        intro fields back
        induction fields with
        | nil => rfl
        | cons entry rest ih =>
            obtain ⟨first, others⟩ := List.forall_mem_cons.mp back
            simp only [ofFields, fieldsToJson?, first, ih others]
            rfl
      rw [ofJson, toJson?, each fields fun entry inside => ih entry inside (Json.leaves_obj.mp sound entry inside)]
      rfl

end Workflow.Datum
