import Workflow.Proofs.Datum.Record

/-!
# `Workflow.Proofs.Datum.Restore` — what is read, written and read again

A value that was read from a document is written in some form of its own, which is often not the form it was read from.
It is *restored* if reading what was written gives the value again.  Besides, what was written is no deeper than what was
read, so that it is read within the same bounds.

## Contents
- **Values.** `Restored` and `Restores`, with the readers of single values: `restores_asText`, `restores_asNat`,
  `restores_asAny`, `restores_asList` and `restores_asFields`.
- **Fields.** `Record.Restored`, with `restored_required`, `restored_withDefault`, `restored_always` and
  `restored_optional`, and `Record.RestoredBoth`.
- **Records.** `Record.Whole`, all fields of a record together, `Whole.gives_read` and `Whole.restored`.
-/

namespace Workflow.Datum

open Json (Sound)
open Reading

variable {ε α : Type} {bound depth : Nat} {first again : Datum → Reading ε α} {write : α → Json} {x : α}

/-! ## Values -/

/-- What is written for a value is sound and no deeper than allowed, and it is read as the value, provided that it stays
within a bound. -/
structure Restored (bound : Nat) (again : Datum → Reading ε α) (depth : Nat) (x : α) (written : Json) : Prop where
  sound : written.Leaves Sound
  shallow : written.depth ≤ depth
  reads : written.depth ≤ bound → (again (.ofJson written)).Gives x

/-- Whatever the first reader reads from a JSON value, what is written for it is read again. -/
def Restores (bound : Nat) (first again : Datum → Reading ε α) (write : α → Json) : Prop :=
  ∀ (value : Json) (x : α), value.Leaves Sound → (first (.ofJson value)).Gives x →
    Restored bound again value.depth x (write x)

theorem restores_asText (bound : Nat) : Restores bound (asText : Datum → Reading ε String) asText .str := by
  intro value text _ h
  cases value with
  | str own => exact ⟨trivial, Nat.zero_le _, fun _ => gives_pure.mpr rfl⟩
  | _ => exact (not_gives_mismatch h).elim

theorem restores_asNat (bound : Nat) {limit : Nat} (small : limit ≤ 2 ^ 64) :
    Restores bound (asNat limit : Datum → Reading ε Nat) (asNat limit) fun n => .int n := by
  intro value n _ h
  cases value with
  | int number =>
      simp only [ofJson, asNat] at h
      split at h
      · rename_i fits
        obtain rfl := gives_pure.mp h
        have upper : (number.toNat : Int) < limit := by omega
        refine ⟨⟨by omega, by omega⟩, Nat.zero_le _, fun _ => ?_⟩
        simp only [ofJson, asNat]
        rw [if_pos ⟨by omega, upper⟩]
        exact gives_pure.mpr (Int.toNat_natCast _)
      · exact (not_gives_mismatch h).elim
  | _ => exact (not_gives_mismatch h).elim

theorem gives_asAny {value x : Json} (sound : value.Leaves Sound) :
    (asAny (ofJson value) : Reading ε Json).Gives x ↔ value.canonical = x := by
  rw [asAny, toJson?_ofJson sound]
  exact gives_pure

theorem restores_asAny (bound : Nat) : Restores bound (asAny : Datum → Reading ε Json) asAny id := by
  intro value x sound h
  obtain rfl := (gives_asAny sound).mp h
  refine ⟨sound.canonical, Json.depth_canonical_le value, fun _ => (gives_asAny sound.canonical).mpr ?_⟩
  exact Json.canonical_of_canonical (Json.canonical_canonical value)

theorem restores_asList (h : Restores bound first again write) :
    Restores bound (asList first) (asList again) fun xs => .arr (xs.map write) := by
  intro value xs sound given
  cases value with
  | arr items =>
      have each : ∀ x ∈ xs, ∃ item ∈ items, Restored bound again item.depth x (write x) := by
        intro x inside
        obtain ⟨part, held, hpart⟩ := exists_of_gives_all given inside
        rw [ofItems_eq, List.map_map] at held
        obtain ⟨item, listed, rfl⟩ := List.mem_map.mp held
        exact ⟨item, listed, h item x (Json.leaves_arr.mp sound item listed) hpart⟩
      have depths := Json.depth_arr_le.mp (Nat.le_refl (Json.arr items).depth)
      refine ⟨Json.leaves_arr.mpr (List.forall_mem_map.mpr fun x inside => ?_),
        Json.depth_arr_le.mpr (List.forall_mem_map.mpr fun x inside => ?_), fun within => ?_⟩
      · obtain ⟨item, held, restored⟩ := each x inside
        exact restored.sound
      · obtain ⟨item, held, restored⟩ := each x inside
        exact Nat.le_trans restored.shallow (depths item held)
      · rw [ofJson, asList, ofItems_eq, List.map_map, List.map_map]
        refine gives_all_map fun x inside => ?_
        obtain ⟨item, held, restored⟩ := each x inside
        have shorter := Json.depth_arr_le.mp (Nat.le_refl (Json.arr (xs.map write)).depth) _ (List.mem_map_of_mem inside)
        exact restored.reads (Nat.le_trans (Nat.le_succ_of_le shorter) within)
  | _ => exact (not_gives_mismatch given).elim

theorem restores_asFields (h : Restores bound first again write) :
    Restores bound (asFields first) (asFields again) fun xs => .obj (xs.map fun x => (x.1, write x.2)) := by
  intro value xs sound given
  cases value with
  | obj fields =>
      obtain ⟨all, hall, rfl⟩ := gives_map.mp given
      -- Of the entries with one key the last is taken, so what is taken was among those read.
      have each : ∀ x ∈ Fields.ofList all, ∃ entry ∈ fields, Restored bound again entry.2.depth x.2 (write x.2) := by
        intro x inside
        obtain ⟨part, held, hpart⟩ := exists_of_gives_all hall (Fields.mem_ofList inside)
        rw [ofFields_eq, List.map_map] at held
        obtain ⟨entry, listed, rfl⟩ := List.mem_map.mp held
        obtain ⟨g, y, hg, hy, rfl⟩ := gives_seq.mp hpart
        obtain ⟨name, -, rfl⟩ := gives_map.mp hg
        exact ⟨entry, listed, h entry.2 y (Json.leaves_obj.mp sound entry listed) hy⟩
      have depths := Json.depth_obj_le.mp (Nat.le_refl (Json.obj fields).depth)
      refine ⟨Json.leaves_obj.mpr (List.forall_mem_map.mpr fun x inside => ?_),
        Json.depth_obj_le.mpr (List.forall_mem_map.mpr fun x inside => ?_), fun within => ?_⟩
      · obtain ⟨entry, held, restored⟩ := each x inside
        exact restored.sound
      · obtain ⟨entry, held, restored⟩ := each x inside
        exact Nat.le_trans restored.shallow (depths entry held)
      · -- The entries are in order by now, so reading them once more leaves them as they are.
        have again : (asFields again (ofJson (.obj ((Fields.ofList all).map fun x => (x.1, write x.2))))).Gives
            (Fields.ofList (Fields.ofList all)) := by
          rw [ofJson, asFields, ofFields_eq, List.map_map, List.map_map]
          refine Gives.map (gives_all_map fun x inside => ?_) Fields.ofList
          obtain ⟨entry, held, restored⟩ := each x inside
          have shorter := Json.depth_obj_le.mp (Nat.le_refl (Json.obj _).depth) _
            (List.mem_map_of_mem (f := fun x => (x.1, write x.2)) inside)
          have reads := restored.reads (Nat.le_trans (Nat.le_succ_of_le shorter) within)
          exact Gives.seq (Gives.map (gives_pure.mpr rfl) Prod.mk) reads
        rw [Fields.ofList_of_sorted (Fields.sorted_ofList all)] at again
        exact again
  | _ => exact (not_gives_mismatch given).elim

namespace Record

/-! ## Fields -/

variable {record : Record} {i : Nat} {default : α}

/-- A field of the record holds what was written, which stays within a bound. -/
def Holds (bound : Nat) (record : Record) (i : Nat) (written : Option Json) : Prop :=
  record.value? i = written.map .ofJson ∧ ∀ value ∈ written, value.depth ≤ bound

/-- What is written for a field is sound and less deep than the record, and a record that holds it there gives the value
of the field again. -/
structure Restored (depth bound i : Nat) (field : Record → Reading ε α) (x : α) (written : Option Json) : Prop where
  fits : ∀ value ∈ written, value.Leaves Sound ∧ value.depth < depth
  reads : ∀ record : Record, record.Holds bound i written → (field record).Gives x

theorem restored_required (h : Restores bound first again write) (drawn : record.Drawn depth)
    (given : (record.required i first).Gives x) :
    Restored depth bound i (·.required i again) x (some (write x)) := by
  obtain ⟨value, present, hvalue⟩ := gives_required.mp given
  obtain ⟨part, rfl, sound, less⟩ := drawn.values i value present
  have restored := h part x sound hvalue
  refine ⟨fun written e => ?_, fun record' holds => ?_⟩
  · cases e
    exact ⟨restored.sound, Nat.lt_of_le_of_lt restored.shallow less⟩
  · exact gives_required.mpr ⟨_, holds.1, restored.reads (holds.2 _ rfl)⟩

/-- A field with a default is restored, whether it was there or not, if only its default is left out. -/
theorem restored_withDefault (write : α → Option Json) (drawn : record.Drawn depth)
    (given : (record.withDefault i default first).Gives x)
    (present : ∀ value : Json, value.Leaves Sound → (first (.ofJson value)).Gives x →
      ∀ written ∈ write x, Datum.Restored bound again value.depth x written)
    (absent : ∀ written ∈ write default, Datum.Restored bound again 0 default written)
    (skipped : write x = none → x = default) :
    Restored depth bound i (·.withDefault i default again) x (write x) := by
  have each : ∀ written ∈ write x, ∃ less < depth, Datum.Restored bound again less x written := by
    intro written e
    rcases gives_withDefault.mp given with ⟨-, rfl⟩ | ⟨value, held, hvalue⟩
    · exact ⟨0, drawn.positive, absent written e⟩
    · obtain ⟨part, rfl, sound, less⟩ := drawn.values i value held
      exact ⟨part.depth, less, present part sound hvalue written e⟩
  refine ⟨fun written e => ?_, fun record' holds => ?_⟩
  · obtain ⟨less, hless, restored⟩ := each written e
    exact ⟨restored.sound, Nat.lt_of_le_of_lt restored.shallow hless⟩
  · cases hwrite : write x with
    | none =>
        rw [hwrite] at holds
        exact gives_withDefault.mpr (Or.inl ⟨holds.1, skipped hwrite⟩)
    | some written =>
        rw [hwrite] at holds
        obtain ⟨less, -, restored⟩ := each written hwrite
        exact gives_withDefault.mpr (Or.inr ⟨_, holds.1, restored.reads (holds.2 _ rfl)⟩)

/-- A field with a default that is always written. -/
theorem restored_always (h : Restores bound first again write) (drawn : record.Drawn depth)
    (given : (record.withDefault i default first).Gives x)
    (absent : Datum.Restored bound again 0 default (write default)) :
    Restored depth bound i (·.withDefault i default again) x (some (write x)) := by
  refine restored_withDefault (fun x => some (write x)) drawn given (fun value sound hvalue written e => ?_)
    (fun written e => ?_) fun e => by cases e
  · cases e
    exact h value x sound hvalue
  · cases e
    exact absent

/-- A field that may be absent or null, unless its value would be written as null. -/
theorem restored_optional {x : Option α} (h : Restores bound first again write) (drawn : record.Drawn depth)
    (notNull : ∀ (value : Json) (y : α), value ≠ .null → (first (.ofJson value)).Gives y → value.Leaves Sound →
      write y ≠ .null)
    (given : (record.optional i first).Gives x) :
    Restored depth bound i (·.optional i again) x (x.map write) := by
  rcases gives_optional.mp given with ⟨-, rfl⟩ | ⟨value, y, present, isValue, hvalue, rfl⟩
  · exact ⟨(fun written e => by cases e), fun record' holds => gives_optional.mpr (Or.inl ⟨Or.inl holds.1, rfl⟩)⟩
  · obtain ⟨part, rfl, sound, less⟩ := drawn.values i value present
    have restored := h part y sound hvalue
    have isValue' : part ≠ .null := fun e => isValue (congrArg ofJson e)
    have written : ofJson (write y) ≠ .null := by
      have some := notNull part y isValue' hvalue sound
      cases hwrite : write y with
      | null => exact absurd hwrite some
      | _ => exact Datum.noConfusion
    refine ⟨fun written e => ?_, fun record' holds => ?_⟩
    · cases e
      exact ⟨restored.sound, Nat.lt_of_le_of_lt restored.shallow less⟩
    · exact gives_optional.mpr (Or.inr ⟨_, y, holds.1, written, restored.reads (holds.2 _ rfl), rfl⟩)

/-- Two fields that are read together. -/
structure RestoredBoth (depth bound i j : Nat) (fields : Record → Reading ε α) (x : α) (left right : Option Json) :
    Prop where
  fits_left : ∀ value ∈ left, value.Leaves Sound ∧ value.depth < depth
  fits_right : ∀ value ∈ right, value.Leaves Sound ∧ value.depth < depth
  reads : ∀ record : Record, record.Holds bound i left → record.Holds bound j right → (fields record).Gives x

theorem Restored.both {β γ : Type} {j : Nat} {f : Record → Reading ε α} {g : Record → Reading ε β} {y : β}
    {left right : Option Json} (hf : Restored depth bound i f x left) (hg : Restored depth bound j g y right)
    (combine : α → β → γ) :
    RestoredBoth depth bound i j (fun record => combine <$> f record <*> g record) (combine x y) left right :=
  ⟨hf.fits, hg.fits, fun record holds holds' => ((hf.reads record holds).map combine).seq (hg.reads record holds')⟩

/-! ## Records -/

variable {names : List (List String)} {body : Record → Reading ε α} {values : List (Option Json)}

/-- What is written for the fields of a record, each of them restored: a record whose fields hold it gives the whole
value again. -/
structure Whole (names : List (List String)) (depth bound : Nat) (body : Record → Reading ε α) (x : α)
    (values : List (Option Json)) : Prop where
  size : values.length = names.length
  fits : ∀ value ∈ values, ∀ written ∈ value, written.Leaves Sound ∧ written.depth < depth
  reads : ∀ record : Record, (∀ i value, values[i]? = some value → record.Holds bound i value) → (body record).Gives x

/-- What is written for the fields of a record is read again, whatever the order of the entries and whatever other
entries there are. -/
theorem Whole.gives_read {fields others : List (String × Json)} (whole : Whole names depth bound body x values)
    (distinct : Distinct names) (held : fields.Perm (entries names values ++ others))
    (foreign : ∀ entry ∈ others, entry.1 ∉ names.flatten) (apart : (fields.map Prod.fst).Nodup)
    (within : ∀ entry ∈ fields, entry.2.depth ≤ bound) : (read names (ofJson (.obj fields)) body).Gives x := by
  obtain ⟨record, hrecord, single, holds⟩ := of?_written distinct whole.size foreign apart held
  refine Record.gives_read.mpr ⟨record, hrecord, single, whole.reads record fun i value hvalue => ?_⟩
  refine ⟨holds i value hvalue, fun written e => ?_⟩
  cases e
  obtain ⟨key, hkey⟩ := exists_key distinct (whole.size ▸ (List.getElem?_eq_some_iff.mp hvalue).1)
  exact within (key, written)
    (held.mem_iff.mpr (List.mem_append_left _ ((mem_entries distinct).mpr ⟨i, hkey, hvalue⟩)))

/-- The entries of a written record are sound and less deep than the record. -/
theorem Whole.fits_entries (whole : Whole names depth bound body x values) (distinct : Distinct names)
    {entry : String × Json} (inside : entry ∈ entries names values) : entry.2.Leaves Sound ∧ entry.2.depth < depth := by
  obtain ⟨i, -, hvalue⟩ := (mem_entries distinct).mp inside
  exact whole.fits _ (List.mem_of_getElem? hvalue) _ rfl

end Record

/-- An object is sound and no deeper than allowed if its entries are sound and less deep. -/
theorem fits_object {entries : List (String × Json)} (positive : 0 < depth)
    (fits : ∀ entry ∈ entries, entry.2.Leaves Sound ∧ entry.2.depth < depth) :
    (Json.object entries).Leaves Sound ∧ (Json.object entries).depth ≤ depth := by
  obtain ⟨less, rfl⟩ := Nat.exists_eq_add_one.mpr positive
  refine ⟨Json.leaves_obj.mpr fun entry inside => (fits entry (Fields.mem_ofList inside)).1,
    Json.depth_obj_le.mpr fun entry inside => Nat.le_of_lt_succ (fits entry (Fields.mem_ofList inside)).2⟩

/-- **A record all of whose fields are restored is restored.** -/
theorem Record.Whole.restored {names : List (List String)} {body : Record → Reading ε α} {values : List (Option Json)}
    {entries : List (String × Json)} (whole : Whole names depth bound body x values) (distinct : Distinct names)
    (positive : 0 < depth) (held : entries.Perm (Record.entries names values)) :
    Datum.Restored bound (Record.read names · body) depth x (.object entries) := by
  obtain ⟨sound, shallow⟩ := fits_object positive fun entry inside =>
    whole.fits_entries distinct (held.mem_iff.mp inside)
  have apart : (entries.map Prod.fst).Nodup :=
    (held.map Prod.fst).nodup_iff.mpr ((keys_entries names values).nodup distinct.1)
  refine ⟨sound, shallow, fun within => ?_⟩
  refine whole.gives_read distinct (((Fields.perm_ofList apart).trans held).trans (.of_eq (List.append_nil _).symm))
    (fun entry inside => absurd inside List.not_mem_nil) (Fields.sorted_ofList entries).nodup fun entry inside => ?_
  exact Nat.le_trans (Nat.le_succ_of_le (Json.depth_obj_le.mp (Nat.le_refl _) entry inside)) within

end Workflow.Datum
