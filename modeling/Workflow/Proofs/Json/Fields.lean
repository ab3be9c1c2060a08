import Workflow.Json.Basic

/-!
# `Workflow.Proofs.Json.Fields` — the laws of sorted fields

Fields whose keys are in order are as good as a map: what is put in, dropped or looked up under one key has nothing to do
with any other.

## Contents
- **Order.** `sorted_cons`, and what keeps the order: `Sorted.set`, `Sorted.erase` and `sorted_ofList`.
- **Entries.** `mem_keys_set`, `mem_ofList`, `perm_ofList` for entries under different keys, and `ofList_of_sorted`.
- **Look-up.** `find?_eq_some_iff` and `mem_keys_iff`, `find?_of_forall_lt`, `find?_erase_self` and `find?_erase`.
- **Writing in turn.** `set_comm`.
-/

namespace Workflow.Fields

variable {α : Type} {fields : Fields α} {key other : String}

/-! ## Order -/

theorem sorted_nil : Sorted ([] : Fields α) := List.Pairwise.nil

/-- Fields are in order if the first key is less than all others, and the rest is in order. -/
theorem sorted_cons {first : String × α} :
    Sorted (first :: fields) ↔ (∀ entry ∈ fields, first.1 < entry.1) ∧ Sorted fields := by
  unfold Sorted keys
  rw [List.map_cons, List.pairwise_cons]
  simp only [List.mem_map, forall_exists_index, and_imp, forall_apply_eq_imp_iff₂]

/-- What is there after an entry was put in is the new entry, or was there before. -/
theorem mem_set {entry : String × α} {value : α} (h : entry ∈ fields.set key value) :
    entry = (key, value) ∨ entry ∈ fields := by
  fun_induction set fields key value with
  | case1 => exact Or.inl (List.mem_singleton.mp h)
  | case2 v rest key value => exact (List.mem_cons.mp h).imp_right (List.mem_cons_of_mem _)
  | case3 k v rest key value hne less => exact List.mem_cons.mp h
  | case4 k v rest key value hne notLess ih =>
      rcases List.mem_cons.mp h with first | inside
      · exact Or.inr (first ▸ List.mem_cons_self)
      · exact (ih inside).imp_right (List.mem_cons_of_mem _)

theorem mem_erase {entry : String × α} (h : entry ∈ fields.erase key) : entry ∈ fields := by
  fun_induction erase fields key with
  | case1 => exact h
  | case2 v rest key => exact List.mem_cons_of_mem _ h
  | case3 k v rest key hne ih =>
      rcases List.mem_cons.mp h with first | inside
      · exact first ▸ List.mem_cons_self
      · exact List.mem_cons_of_mem _ (ih inside)

theorem Sorted.set (h : Sorted fields) (key : String) (value : α) : Sorted (fields.set key value) := by
  fun_induction Fields.set fields key value with
  | case1 key value => exact sorted_cons.mpr ⟨fun _ inside => absurd inside List.not_mem_nil, sorted_nil⟩
  | case2 v rest key value => exact sorted_cons.mpr (sorted_cons.mp h)
  | case3 k v rest key value hne less =>
      refine sorted_cons.mpr ⟨fun entry inside => ?_, h⟩
      rcases List.mem_cons.mp inside with rfl | inside
      · exact less
      · exact String.lt_trans less ((sorted_cons.mp h).1 entry inside)
  | case4 k v rest key value hne notLess ih =>
      refine sorted_cons.mpr ⟨fun entry inside => ?_, ih (sorted_cons.mp h).2⟩
      rcases mem_set inside with rfl | inside
      · exact Std.lt_of_le_of_ne notLess hne
      · exact (sorted_cons.mp h).1 entry inside

theorem Sorted.erase (h : Sorted fields) (key : String) : Sorted (fields.erase key) := by
  fun_induction Fields.erase fields key with
  | case1 => exact h
  | case2 v rest key => exact (sorted_cons.mp h).2
  | case3 k v rest key hne ih =>
      exact sorted_cons.mpr ⟨fun entry inside => (sorted_cons.mp h).1 entry (mem_erase inside),
        ih (sorted_cons.mp h).2⟩

/-- Entries that are put in one after the other keep the order. -/
theorem Sorted.foldl (h : Sorted fields) {step : Fields α → String × α → Fields α}
    (kept : ∀ fields entry, Sorted fields → Sorted (step fields entry)) (entries : List (String × α)) :
    Sorted (entries.foldl step fields) := by
  induction entries generalizing fields with
  | nil => exact h
  | cons entry rest ih => exact ih (kept fields entry h)

theorem sorted_ofList (entries : List (String × α)) : Sorted (ofList entries) :=
  sorted_nil.foldl (fun _ entry h => h.set entry.1 entry.2) entries

/-- An entry that stands before another one has the lesser key. -/
theorem Sorted.lt_of_getElem? (h : Sorted fields) {index later : Nat} {entry entry' : String × α} (before : index < later)
    (first : fields[index]? = some entry) (second : fields[later]? = some entry') : entry.1 < entry'.1 := by
  obtain ⟨inside, rfl⟩ := List.getElem?_eq_some_iff.mp first
  obtain ⟨inside', rfl⟩ := List.getElem?_eq_some_iff.mp second
  exact List.pairwise_iff_getElem.mp (List.pairwise_map.mp h) index later inside inside' before

/-! ## Entries -/

/-- The keys after an entry was put in are those from before, and its own. -/
theorem mem_keys_set {value : α} : other ∈ (fields.set key value).keys ↔ other = key ∨ other ∈ fields.keys := by
  fun_induction set fields key value with
  | case1 => simp [keys]
  | case2 => simp [keys]
  | case3 => simp [keys]
  | case4 k v rest key value hne notLess ih =>
      show other ∈ k :: keys (set rest key value) ↔ other = key ∨ other ∈ k :: keys rest
      rw [List.mem_cons, List.mem_cons, ih]
      exact or_left_comm

theorem mem_ofList {entries : List (String × α)} {entry : String × α} (h : entry ∈ ofList entries) : entry ∈ entries := by
  have each : ∀ (entries : List (String × α)) (fields : Fields α),
      entry ∈ entries.foldl (fun fields e => fields.set e.1 e.2) fields → entry ∈ fields ∨ entry ∈ entries := by
    intro entries
    induction entries with
    | nil => exact fun fields inside => Or.inl inside
    | cons first rest ih =>
        intro fields inside
        rcases ih _ inside with put | inside
        · exact (mem_set put).elim (fun e => Or.inr (e ▸ List.mem_cons_self)) Or.inl
        · exact Or.inr (List.mem_cons_of_mem _ inside)
  exact (each entries [] h).resolve_left List.not_mem_nil

/-- An entry under a new key comes in addition to the others. -/
theorem perm_set {value : α} (new : key ∉ fields.keys) : (fields.set key value).Perm ((key, value) :: fields) := by
  fun_induction set fields key value with
  | case1 => exact .rfl
  | case2 v rest key value => exact absurd List.mem_cons_self new
  | case3 => exact .rfl
  | case4 k v rest key value hne notLess ih =>
      exact ((ih fun inside => new (List.mem_cons_of_mem _ inside)).cons _).trans (.swap ..)

/-- **Entries under different keys are all kept.** -/
theorem perm_ofList {entries : List (String × α)} (apart : (entries.map Prod.fst).Nodup) :
    (ofList entries).Perm entries := by
  have each : ∀ (entries : List (String × α)) (fields : Fields α), ((fields ++ entries).map Prod.fst).Nodup →
      (entries.foldl (fun fields e => fields.set e.1 e.2) fields).Perm (fields ++ entries) := by
    intro entries
    induction entries with
    | nil =>
        intro fields _
        rw [List.append_nil]
        exact .rfl
    | cons first rest ih =>
        intro fields apart
        have moved : (fields ++ first :: rest).Perm (first :: fields ++ rest) := List.perm_middle
        have apart := (moved.map Prod.fst).nodup_iff.mp apart
        have new : first.1 ∉ fields.keys := fun inside =>
          (List.nodup_cons.mp apart).1 (List.map_append ▸ List.mem_append_left _ inside)
        have put : (fields.set first.1 first.2 ++ rest).Perm (first :: fields ++ rest) := (perm_set new).append_right rest
        exact ((ih _ ((put.map Prod.fst).nodup_iff.mpr apart)).trans put).trans moved.symm
  exact each entries [] apart

theorem Sorted.nodup (h : Sorted fields) : fields.keys.Nodup := by
  refine List.Pairwise.imp ?_ h
  rintro key _ less rfl
  exact String.lt_irrefl key less

/-- Fields in order are kept as they are. -/
theorem ofList_of_sorted (h : Sorted fields) : ofList fields = fields := by
  refine (perm_ofList h.nodup).eq_of_pairwise (fun a b _ _ less greater => ?_) (List.pairwise_map.mp (sorted_ofList fields))
    (List.pairwise_map.mp h)
  exact absurd (String.lt_trans less greater) (String.lt_irrefl _)

/-! ## Look-up -/

/-- In fields in order every entry is found. -/
theorem find?_eq_some_iff (h : Sorted fields) {value : α} : fields.find? key = some value ↔ (key, value) ∈ fields := by
  refine ⟨mem_of_find?, fun inside => ?_⟩
  induction fields with
  | nil => exact absurd inside List.not_mem_nil
  | cons first rest ih =>
      rcases List.mem_cons.mp inside with rfl | inside
      · rw [find?, if_pos rfl]
      · have less := (sorted_cons.mp h).1 _ inside
        have hne : first.1 ≠ key := fun e => String.lt_irrefl key (e ▸ less)
        have notLess : ¬ key < first.1 := fun greater => String.lt_irrefl _ (String.lt_trans less greater)
        rw [find?, if_neg hne, if_neg notLess]
        exact ih (sorted_cons.mp h).2 inside

/-- A key of fields in order is one under which something is found. -/
theorem mem_keys_iff (h : Sorted fields) : key ∈ fields.keys ↔ ∃ value, fields.find? key = some value := by
  simp only [find?_eq_some_iff h, keys, List.mem_map, Prod.exists]
  exact ⟨fun ⟨_, value, inside, same⟩ => ⟨value, same ▸ inside⟩, fun ⟨value, inside⟩ => ⟨key, value, inside, rfl⟩⟩

/-- Nothing is found under a key that is less than all others. -/
theorem find?_of_forall_lt (h : ∀ entry ∈ fields, key < entry.1) : fields.find? key = none := by
  cases fields with
  | nil => rfl
  | cons first rest =>
      have less := h first List.mem_cons_self
      have hne : first.1 ≠ key := fun e => String.lt_irrefl key (e ▸ less)
      rw [find?, if_neg hne, if_pos less]

/-- **Nothing is found under a key that was dropped.** -/
theorem find?_erase_self (h : Sorted fields) (key : String) : (fields.erase key).find? key = none := by
  fun_induction erase fields key with
  | case1 => rfl
  | case2 v rest key => exact find?_of_forall_lt (sorted_cons.mp h).1
  | case3 k v rest key hne ih => rw [find?, if_neg hne, ih (sorted_cons.mp h).2, ite_self]

/-- **To drop one key leaves what another holds.** -/
theorem find?_erase (h : Sorted fields) (apart : other ≠ key) :
    (fields.erase key).find? other = fields.find? other := by
  fun_induction erase fields key with
  | case1 => rfl
  | case2 v rest key =>
      rw [find?, if_neg (Ne.symm apart)]
      split
      · rename_i less
        exact find?_of_forall_lt fun entry inside => String.lt_trans less ((sorted_cons.mp h).1 entry inside)
      · rfl
  | case3 k v rest key hne ih => rw [find?, find?, ih (sorted_cons.mp h).2 apart]

/-! ## Writing in turn -/

/-- What is put in under a key that is less than another one comes before it, whichever is put in first. -/
theorem set_comm_of_lt (less : key < other) (fields : Fields α) (value value' : α) :
    (fields.set key value).set other value' = (fields.set other value').set key value := by
  have hne : key ≠ other := fun e => String.lt_irrefl other (e ▸ less)
  have notLess : ¬ other < key := fun greater => String.lt_irrefl key (String.lt_trans less greater)
  induction fields with
  | nil => simp [set, hne, Ne.symm hne, less, notLess]
  | cons first rest ih =>
      obtain ⟨k, held⟩ := first
      by_cases same : k = key
      · simp [set, same, hne, notLess]
      · by_cases before : key < k
        · -- Whatever stands first once the greater key was put in is greater than the lesser one.
          have first : set ((k, held) :: rest) key value = (key, value) :: (k, held) :: rest := by
            rw [set, if_neg same, if_pos before]
          rw [first, set, if_neg hne, if_neg notLess]
          rw [set]
          split
          · rw [set, if_neg (Ne.symm hne), if_pos less]
          · split
            · rw [set, if_neg (Ne.symm hne), if_pos less]
            · rw [set, if_neg same, if_pos before]
        · have hne' : k ≠ other := fun e => before (e ▸ less)
          have notBefore : ¬ other < k := fun greater => before (String.lt_trans less greater)
          simp [set, same, before, hne', notBefore, ih]

/-- **The order in which two keys are written to does not matter.** -/
theorem set_comm (apart : key ≠ other) (fields : Fields α) (value value' : α) :
    (fields.set key value).set other value' = (fields.set other value').set key value := by
  by_cases less : key < other
  · exact set_comm_of_lt less fields value value'
  · have greater : other < key := Std.lt_of_le_of_ne less (Ne.symm apart)
    exact (set_comm_of_lt greater fields value' value).symm

end Workflow.Fields
