import Mathlib.Data.List.Nodup
import Workflow.Proofs.Datum.Json
import Workflow.Proofs.Datum.Reading

/-!
# `Workflow.Proofs.Datum.Record` — the fields of records

A record that is written as an object has each of its fields under the first of the names that are declared for it.  Read
again, whatever the order of the entries and whatever stands between them, each field holds what was written for it.

## Contents
- **Parts.** `Drawn`, values that are inside another one, with `drawn_of?` and `splitTag?_eq_some`.
- **Declarations.** `Distinct` names of fields, and `findIdx?_of_distinct`, the field that a name selects.
- **Written records.** `entries`, what is written for the values of the fields, and `of?_written`.
- **Tags.** `splitTag?_written`.
-/

namespace Workflow.Datum

open Json (Sound)

variable {names : List (List String)} {record : Record} {i : Nat}

/-! ## Parts -/

/-- The value is a sound JSON value that is less deep than some bound. -/
def Drawn (depth : Nat) (value : Datum) : Prop :=
  ∃ part : Json, value = .ofJson part ∧ part.Leaves Sound ∧ part.depth < depth

theorem drawn_item {items : List Json} {value : Datum} (sound : (Json.arr items).Leaves Sound)
    (inside : value ∈ ofItems items) : Drawn (Json.arr items).depth value := by
  rw [ofItems_eq] at inside
  obtain ⟨part, held, rfl⟩ := List.mem_map.mp inside
  exact ⟨part, rfl, Json.leaves_arr.mp sound part held,
    Nat.lt_succ_of_le (Json.depth_arr_le.mp (Nat.le_refl _) part held)⟩

theorem drawn_entry {fields : List (String × Json)} {entry : String × Json} (sound : (Json.obj fields).Leaves Sound)
    (inside : entry ∈ fields) : Drawn (Json.obj fields).depth (ofJson entry.2) :=
  ⟨entry.2, rfl, Json.leaves_obj.mp sound entry inside,
    Nat.lt_succ_of_le (Json.depth_obj_le.mp (Nat.le_refl _) entry inside)⟩

namespace Record

/-- Every field of the record holds a sound JSON value that is less deep than some bound. -/
structure Drawn (depth : Nat) (record : Record) : Prop where
  positive : 0 < depth
  values : ∀ i value, record.value? i = some value → Datum.Drawn depth value

/-- The fields that the keys of an object select, and what they hold. -/
def indexed (names : List (List String)) (fields : List (String × Json)) : List (Option Nat × Datum) :=
  fields.map fun entry => (names.findIdx? (·.contains entry.1), .ofJson entry.2)

theorem mem_indexed {fields : List (String × Json)} {slot : Option Nat × Datum} (h : slot ∈ indexed names fields) :
    ∃ entry ∈ fields, names.findIdx? (·.contains entry.1) = slot.1 ∧ slot.2 = .ofJson entry.2 := by
  obtain ⟨entry, inside, rfl⟩ := List.mem_map.mp h
  exact ⟨entry, inside, rfl, rfl⟩

/-- A function that succeeds for each of some values succeeds for the list of them. -/
theorem mapM_map_some {α β γ : Type} {f : α → Option β} {g : γ → α} {h : γ → β} (each : ∀ x, f (g x) = some (h x))
    (xs : List γ) : (xs.map g).mapM f = some (xs.map h) := by
  induction xs with
  | nil => rfl
  | cons x rest ih =>
      rw [List.map_cons, List.mapM_cons, each, ih]
      rfl

/-- The record in an object. -/
theorem of?_obj (names : List (List String)) (fields : List (String × Json)) :
    of? names (ofJson (.obj fields)) = some {
      slots := names.mapIdx fun field _ => slot field 0 (indexed names fields)
      size := (indexed names fields).length
      surplus := (List.range names.length).foldl
        (fun found field => least found (repeated field false 0 (indexed names fields))) none } := by
  rw [ofJson, of?, ofEntries?, ofFields_eq, mapM_map_some]
  · rfl
  · exact fun _ => rfl

theorem value?_of_slots {f : Nat → List String → Option (Nat × Datum)} (h : record.slots = names.mapIdx f) (i : Nat) :
    record.value? i = (names[i]?.bind (f i)).map Prod.snd := by
  rw [value?, get?, h, List.getElem?_mapIdx]
  cases names[i]? <;> rfl

/-- The slot of a field is that of an entry. -/
theorem mem_of_slot {field position : Nat} {entries : List (Option Nat × Datum)} {found : Nat × Datum}
    (h : slot field position entries = some found) : (some field, found.2) ∈ entries := by
  induction entries generalizing position with
  | nil => cases h
  | cons entry rest ih =>
      rw [slot] at h
      split at h
      · rename_i here
        cases h
        exact here ▸ List.mem_cons_self
      · exact List.mem_cons_of_mem _ (ih h)

/-- A field has no slot if it has no entry. -/
theorem slot_eq_none_iff {field position : Nat} {entries : List (Option Nat × Datum)} :
    slot field position entries = none ↔ ∀ entry ∈ entries, entry.1 ≠ some field := by
  induction entries generalizing position with
  | nil => exact iff_of_true rfl fun entry inside => absurd inside List.not_mem_nil
  | cons entry rest ih =>
      rw [slot, List.forall_mem_cons]
      split
      · rename_i here
        exact iff_of_false (fun h => by cases h) fun h => h.1 here
      · rename_i elsewhere
        rw [ih, and_iff_right elsewhere]

/-- What a record in a value holds comes out of that value. -/
theorem drawn_of? {value : Json} (sound : value.Leaves Sound) (h : of? names (ofJson value) = some record) :
    record.Drawn value.depth := by
  cases value with
  | arr items =>
      cases h
      refine ⟨Nat.succ_pos _, fun i part held => drawn_item sound ?_⟩
      rw [value?_of_slots rfl] at held
      obtain ⟨slot, hslot, rfl⟩ := Option.map_eq_some_iff.mp held
      obtain ⟨group, -, hslot⟩ := Option.bind_eq_some_iff.mp hslot
      obtain ⟨item, hitem, rfl⟩ := Option.map_eq_some_iff.mp hslot
      exact List.mem_of_getElem? hitem
  | obj fields =>
      rw [of?_obj] at h
      cases h
      refine ⟨Nat.succ_pos _, fun i part held => ?_⟩
      rw [value?_of_slots rfl] at held
      obtain ⟨slot, hslot, rfl⟩ := Option.map_eq_some_iff.mp held
      obtain ⟨group, -, hslot⟩ := Option.bind_eq_some_iff.mp hslot
      obtain ⟨entry, inside, -, same⟩ := mem_indexed (mem_of_slot hslot)
      exact same ▸ drawn_entry sound inside
  | _ => cases h

end Record

/-- What is left of a value next to its tag comes out of that value. -/
theorem splitTag?_eq_some {key : String} {value : Json} {tag rest : Datum} (sound : value.Leaves Sound)
    (h : splitTag? key (ofJson value) = some (tag, rest)) :
    ∃ part : Json, rest = .ofJson part ∧ part.Leaves Sound ∧ part.depth ≤ value.depth := by
  cases value with
  | arr items =>
      cases items with
      | nil => cases h
      | cons item items =>
          cases h
          refine ⟨.arr items, rfl, ?_, ?_⟩
          · exact Json.leaves_arr.mpr fun other inside => Json.leaves_arr.mp sound other (List.mem_cons_of_mem _ inside)
          · exact Json.depth_arr_le.mpr fun other inside =>
              Json.depth_arr_le.mp (Nat.le_refl _) other (List.mem_cons_of_mem _ inside)
  | obj fields =>
      simp only [ofJson, splitTag?] at h
      split at h
      · cases h
        rw [ofFields_eq, List.filter_map, ← ofFields_eq]
        refine ⟨.obj _, rfl, ?_, ?_⟩
        · exact Json.leaves_obj.mpr fun other inside => Json.leaves_obj.mp sound other (List.mem_of_mem_filter inside)
        · exact Json.depth_obj_le.mpr fun other inside =>
            Json.depth_obj_le.mp (Nat.le_refl _) other (List.mem_of_mem_filter inside)
      · cases h
  | _ => cases h

namespace Record

/-! ## Declarations -/

/-- Every field has a name, and no name is declared twice. -/
def Distinct (names : List (List String)) : Prop := names.flatten.Nodup ∧ [] ∉ names

instance : Decidable (Distinct names) := inferInstanceAs (Decidable (_ ∧ _))

/-- The name under which a field is written. -/
def key? (names : List (List String)) (i : Nat) : Option String := names[i]?.bind List.head?

theorem exists_key (distinct : Distinct names) (bound : i < names.length) : ∃ key, key? names i = some key := by
  have named : names[i] ≠ [] := fun e => distinct.2 (e ▸ List.getElem_mem bound)
  exact ⟨_, by rw [key?, List.getElem?_eq_getElem bound, Option.bind_some, List.head?_eq_some_head named]⟩

/-- The name of a field selects it. -/
theorem findIdx?_of_distinct (distinct : Distinct names) {key : String} (h : key? names i = some key) :
    names.findIdx? (·.contains key) = some i := by
  obtain ⟨group, hgroup, hkey⟩ := Option.bind_eq_some_iff.mp h
  obtain ⟨bound, rfl⟩ := List.getElem?_eq_some_iff.mp hgroup
  have own : key ∈ names[i] := List.mem_of_head? hkey
  refine List.findIdx?_eq_some_iff_getElem.mpr ⟨bound, List.contains_iff_mem.mpr own, fun j less held => ?_⟩
  have apart := List.pairwise_iff_getElem.mp (List.nodup_flatten.mp distinct.1).2 j i (Nat.lt_trans less bound) bound less
  exact apart (List.contains_iff_mem.mp held) own

theorem findIdx?_of_foreign {key : String} (h : key ∉ names.flatten) : names.findIdx? (·.contains key) = none := by
  refine List.findIdx?_eq_none_iff.mpr fun group inside => ?_
  refine Bool.eq_false_iff.mpr fun held => h (List.mem_flatten.mpr ⟨group, inside, List.contains_iff_mem.mp held⟩)

/-! ## Written records -/

/-- The entries of a record whose fields have the given values, if any. -/
def entries : List (List String) → List (Option Json) → List (String × Json)
  | (key :: _) :: names, value :: values => (value.map (key, ·)).toList ++ entries names values
  | _, _ => []

variable {values : List (Option Json)}

theorem mem_entries (distinct : Distinct names) {entry : String × Json} :
    entry ∈ entries names values ↔ ∃ i, key? names i = some entry.1 ∧ values[i]? = some (some entry.2) := by
  obtain ⟨key, value⟩ := entry
  -- The induction needs of the names only that each field has one.
  have named := distinct.2
  clear distinct
  induction names generalizing values with
  | nil => simp [entries, key?]
  | cons group names ih =>
      cases values with
      | nil => simp [entries]
      | cons first values =>
          cases group with
          | nil => exact absurd List.mem_cons_self named
          | cons head aliases =>
              have later : (key, value) ∈ entries names values ↔
                  ∃ i, key? names i = some key ∧ values[i]? = some (some value) :=
                ih fun inside => named (List.mem_cons_of_mem _ inside)
              rw [entries, List.mem_append, later]
              constructor
              · rintro (here | ⟨i, hkey, hvalue⟩)
                · obtain ⟨v, rfl, e⟩ := Option.map_eq_some_iff.mp (Option.mem_toList.mp here)
                  cases e
                  exact ⟨0, rfl, rfl⟩
                · exact ⟨i + 1, hkey, hvalue⟩
              · rintro ⟨_ | i, hkey, hvalue⟩
                · cases hkey
                  cases hvalue
                  exact Or.inl (Option.mem_toList.mpr rfl)
                · exact Or.inr ⟨i, hkey, hvalue⟩

theorem keys_entries (names : List (List String)) (values : List (Option Json)) :
    ((entries names values).map Prod.fst).Sublist names.flatten := by
  induction names generalizing values with
  | nil => exact List.nil_sublist _
  | cons group names ih =>
      cases group with
      | nil => exact List.nil_sublist _
      | cons key aliases =>
          cases values with
          | nil => exact List.nil_sublist _
          | cons value values =>
              rw [entries, List.map_append, List.flatten_cons]
              refine List.Sublist.append ?_ (ih values)
              cases value with
              | none => exact List.nil_sublist _
              | some value => exact (List.nil_sublist aliases).cons_cons key

/-- Nothing is repeated if no two entries are of one field. -/
theorem repeated_eq_none {field position : Nat} {fields : List (String × Json)}
    (apart : (fields.map Prod.fst).Nodup)
    (single : ∀ a ∈ fields, ∀ b ∈ fields, names.findIdx? (·.contains a.1) = some field →
      names.findIdx? (·.contains b.1) = some field → a.1 = b.1) :
    repeated field false position (indexed names fields) = none := by
  -- Once an entry of the field was seen, the rest must have none.
  have later : ∀ (fields : List (String × Json)) (position : Nat),
      (∀ entry ∈ fields, names.findIdx? (·.contains entry.1) ≠ some field) →
      repeated field true position (indexed names fields) = none := by
    intro fields
    induction fields with
    | nil => exact fun position _ => rfl
    | cons entry rest ih =>
        intro position other
        obtain ⟨first, others⟩ := List.forall_mem_cons.mp other
        simp only [indexed, List.map_cons, repeated, if_neg first]
        exact ih _ others
  induction fields generalizing position with
  | nil => rfl
  | cons entry rest ih =>
      obtain ⟨new, apart⟩ := List.nodup_cons.mp apart
      simp only [indexed, List.map_cons, repeated]
      split
      · rename_i here
        refine later rest _ fun other inside same => new ?_
        rw [single entry List.mem_cons_self other (List.mem_cons_of_mem _ inside) here same]
        exact List.mem_map_of_mem inside
      · exact ih apart fun a ha b hb => single a (List.mem_cons_of_mem _ ha) b (List.mem_cons_of_mem _ hb)

/-- **What is written for the fields of a record is what they hold when it is read.**  Entries of other keys do not
matter. -/
theorem of?_written {fields others : List (String × Json)} (distinct : Distinct names)
    (size : values.length = names.length) (foreign : ∀ entry ∈ others, entry.1 ∉ names.flatten)
    (apart : (fields.map Prod.fst).Nodup) (held : fields.Perm (entries names values ++ others)) :
    ∃ record, of? names (ofJson (.obj fields)) = some record ∧ record.surplus = none ∧
      ∀ i value, values[i]? = some value → record.value? i = value.map .ofJson := by
  -- A key tells the field, and foreign keys are of no field; so an entry of a field is the one that was written for it.
  have known : ∀ entry ∈ fields, ∀ i, names.findIdx? (·.contains entry.1) = some i →
      key? names i = some entry.1 ∧ values[i]? = some (some entry.2) := by
    intro entry inside i hi
    rcases List.mem_append.mp (held.mem_iff.mp inside) with own | other
    · obtain ⟨j, hkey, hvalue⟩ := (mem_entries distinct).mp own
      obtain rfl : j = i := Option.some.inj ((findIdx?_of_distinct distinct hkey).symm.trans hi)
      exact ⟨hkey, hvalue⟩
    · exact nomatch (findIdx?_of_foreign (foreign entry other)).symm.trans hi
  -- Two entries of one field would have the same key.
  have single : ∀ field, repeated field false 0 (indexed names fields) = none := fun field =>
    repeated_eq_none apart fun a ha b hb ia ib =>
      Option.some.inj ((known a ha field ia).1.symm.trans (known b hb field ib).1)
  refine ⟨_, of?_obj names fields, ?_, fun i value hvalue => ?_⟩
  · simp only [single]
    generalize List.range names.length = range
    induction range with
    | nil => rfl
    | cons field rest ih => exact ih
  · have bound : i < names.length := size ▸ (List.getElem?_eq_some_iff.mp hvalue).1
    rw [value?_of_slots rfl, List.getElem?_eq_getElem bound, Option.bind_some]
    cases value with
    | none =>
        refine Option.map_eq_none_iff.mpr (slot_eq_none_iff.mpr fun slot inside here => ?_)
        obtain ⟨entry, inside, hi, -⟩ := mem_indexed inside
        exact nomatch hvalue.symm.trans (known entry inside i (hi.trans here)).2
    | some value =>
        cases hslot : slot i 0 (indexed names fields) with
        | none =>
            obtain ⟨key, hkey⟩ := exists_key distinct bound
            have inside : (key, value) ∈ fields :=
              held.mem_iff.mpr (List.mem_append_left _ ((mem_entries distinct).mpr ⟨i, hkey, hvalue⟩))
            exact absurd (findIdx?_of_distinct distinct hkey)
              (slot_eq_none_iff.mp hslot _ (List.mem_map_of_mem inside))
        | some found =>
            obtain ⟨entry, inside, hi, same⟩ := mem_indexed (mem_of_slot hslot)
            have e := hvalue.symm.trans (known entry inside i hi).2
            cases e
            exact congrArg some same

end Record

/-! ## Tags -/

/-- **The tag of a written object is found,** next to the other entries. -/
theorem splitTag?_written {key : String} (tag : Json) {entries : List (String × Json)} (new : key ∉ entries.map Prod.fst)
    (apart : (entries.map Prod.fst).Nodup) :
    ∃ rest : List (String × Json), rest.Perm entries ∧ rest ⊆ Fields.ofList ((key, tag) :: entries) ∧
      splitTag? key (ofJson (.object ((key, tag) :: entries))) = some (ofJson tag, ofJson (.obj rest)) := by
  have held : (Fields.ofList ((key, tag) :: entries)).Perm ((key, tag) :: entries) :=
    Fields.perm_ofList (List.nodup_cons.mpr ⟨new, apart⟩)
  have others : ∀ entry ∈ entries, (entry.1 == key) = false := fun entry inside =>
    Bool.eq_false_iff.mpr fun same => new (eq_of_beq same ▸ List.mem_map_of_mem inside)
  have tagged : (Fields.ofList ((key, tag) :: entries)).filter (fun entry => entry.1 == key) = [(key, tag)] := by
    refine List.perm_singleton.mp ((held.filter _).trans ?_)
    rw [List.filter_cons_of_pos (by simp), List.filter_eq_nil_iff.mpr fun entry inside => ?_]
    rw [others entry inside]
    exact Bool.false_ne_true
  refine ⟨(Fields.ofList ((key, tag) :: entries)).filter (fun entry => !(entry.1 == key)), ?_,
    fun _ => List.mem_of_mem_filter, ?_⟩
  · refine (held.filter _).trans ?_
    rw [List.filter_cons_of_neg (by simp), List.filter_eq_self.mpr fun entry inside => ?_]
    rw [others entry inside]
    rfl
  · simp only [Json.object, ofJson, splitTag?, ofFields_eq, List.filter_map]
    simp only [Function.comp_def, tagged]
    rfl

end Workflow.Datum
