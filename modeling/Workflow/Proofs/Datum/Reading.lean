import Workflow.Datum.Decode

/-!
# `Workflow.Proofs.Datum.Reading` — what readings give

A reading gives a value if there is no issue with any of its parts.  Which issue comes first does not matter for that, so
every way to combine readings comes down to what the parts give.

## Contents
- **Readings.** `Gives`, with a law for each way to combine readings.
- **Fields.** `Record.value?`, and what `required`, `withDefault` and `optional` fields give.
- **Records.** `Record.gives_read`.
-/

namespace Workflow.Datum

variable {ε α β : Type}

/-! ## Readings -/

namespace Reading

/-- The reading gives a value. -/
def Gives (reading : Reading ε α) (x : α) : Prop := reading.result = .ok x

theorem gives_pure {x y : α} : (pure x : Reading ε α).Gives y ↔ x = y :=
  ⟨fun h => Except.ok.inj h, congrArg Except.ok⟩

theorem not_gives_mismatch {x : α} : ¬ (mismatch : Reading ε α).Gives x := fun h => by cases h

theorem not_gives_mismatchAt {position : Nat} {x : α} : ¬ (mismatchAt position : Reading ε α).Gives x :=
  fun h => by cases h

theorem gives_map {f : α → β} {reading : Reading ε α} {y : β} :
    (f <$> reading).Gives y ↔ ∃ x, reading.Gives x ∧ f x = y := by
  obtain ⟨issue | x⟩ := reading
  · refine iff_of_false (fun h => by cases h) ?_
    rintro ⟨_, h, -⟩
    cases h
  · constructor
    · intro h
      cases h
      exact ⟨x, rfl, rfl⟩
    · rintro ⟨x', h, rfl⟩
      cases h
      rfl

theorem gives_seq {f : Reading ε (α → β)} {reading : Reading ε α} {y : β} :
    (f <*> reading).Gives y ↔ ∃ g x, f.Gives g ∧ reading.Gives x ∧ g x = y := by
  constructor
  · intro h
    obtain ⟨issue | g⟩ := f <;> obtain ⟨issue' | x⟩ := reading <;> cases h
    exact ⟨g, x, rfl, rfl, rfl⟩
  · rintro ⟨g, x, hf, hx, rfl⟩
    obtain ⟨issue | g'⟩ := f <;> obtain ⟨issue' | x'⟩ := reading <;> cases hf <;> cases hx
    rfl

theorem Gives.map {reading : Reading ε α} {x : α} (h : reading.Gives x) (f : α → β) : (f <$> reading).Gives (f x) :=
  gives_map.mpr ⟨x, h, rfl⟩

theorem Gives.seq {f : Reading ε (α → β)} {reading : Reading ε α} {g : α → β} {x : α} (hf : f.Gives g)
    (h : reading.Gives x) : (f <*> reading).Gives (g x) :=
  gives_seq.mpr ⟨g, x, hf, h, rfl⟩

theorem gives_inside {position : Nat} {reading : Reading ε α} {x : α} :
    (inside position reading).Gives x ↔ reading.Gives x := by
  obtain ⟨issue | x'⟩ := reading
  · exact iff_of_false (fun h => by cases h) (fun h => by cases h)
  · exact Iff.rfl

theorem gives_ofExcept {outcome : Except ε α} {x : α} : (ofExcept outcome).Gives x ↔ outcome = .ok x := by
  cases outcome with
  | error e => exact iff_of_false (fun h => by cases h) (fun h => by cases h)
  | ok x' => exact ⟨fun h => congrArg Except.ok (Except.ok.inj h), fun h => congrArg Except.ok (Except.ok.inj h)⟩

theorem gives_all_cons {position : Nat} {part : Reading ε α} {rest : List (Reading ε α)} {ys : List α} :
    (all position (part :: rest)).Gives ys ↔
      ∃ x xs, part.Gives x ∧ (all (position + 1) rest).Gives xs ∧ x :: xs = ys := by
  rw [all, gives_seq]
  constructor
  · rintro ⟨g, xs, hg, hxs, rfl⟩
    obtain ⟨x, hx, rfl⟩ := gives_map.mp hg
    exact ⟨x, xs, gives_inside.mp hx, hxs, rfl⟩
  · rintro ⟨x, xs, hx, hxs, rfl⟩
    exact ⟨_, xs, (gives_inside.mpr hx).map List.cons, hxs, rfl⟩

/-- What a list of parts gives comes from one of them. -/
theorem exists_of_gives_all {position : Nat} {parts : List (Reading ε α)} {xs : List α} {x : α}
    (h : (all position parts).Gives xs) (inside : x ∈ xs) : ∃ part ∈ parts, part.Gives x := by
  induction parts generalizing position xs with
  | nil =>
      rw [← gives_pure.mp h] at inside
      exact absurd inside List.not_mem_nil
  | cons part rest ih =>
      obtain ⟨first, others, hfirst, hothers, rfl⟩ := gives_all_cons.mp h
      rcases List.mem_cons.mp inside with rfl | inside
      · exact ⟨part, List.mem_cons_self, hfirst⟩
      · obtain ⟨part', held, gives⟩ := ih hothers inside
        exact ⟨part', List.mem_cons_of_mem _ held, gives⟩

/-- Values that are each given by a part of their own are given together. -/
theorem gives_all_map {position : Nat} {part : α → Reading ε α} {xs : List α} (h : ∀ x ∈ xs, (part x).Gives x) :
    (all position (xs.map part)).Gives xs := by
  induction xs generalizing position with
  | nil => exact gives_pure.mpr rfl
  | cons x rest ih =>
      obtain ⟨first, others⟩ := List.forall_mem_cons.mp h
      exact gives_all_cons.mpr ⟨x, rest, first, ih others, rfl⟩

end Reading

open Reading

/-! ## Fields -/

namespace Record

variable {record : Record} {i : Nat} {part : Datum → Reading ε α} {value : Datum} {x default : α}

/-- What the field at a position of the declaration holds. -/
def value? (record : Record) (i : Nat) : Option Datum := (record.get? i).map Prod.snd

theorem gives_required : (record.required i part).Gives x ↔
    ∃ value, record.value? i = some value ∧ (part value).Gives x := by
  unfold required value?
  cases record.get? i with
  | none =>
      refine iff_of_false not_gives_mismatchAt ?_
      rintro ⟨_, h, -⟩
      cases h
  | some slot => rw [gives_inside]; simp

theorem gives_withDefault : (record.withDefault i default part).Gives x ↔
    (record.value? i = none ∧ x = default) ∨ ∃ value, record.value? i = some value ∧ (part value).Gives x := by
  unfold withDefault value?
  cases record.get? i with
  | none => rw [gives_pure, eq_comm]; simp
  | some slot => rw [gives_inside]; simp

theorem gives_optional {x : Option α} : (record.optional i part).Gives x ↔
    ((record.value? i = none ∨ record.value? i = some .null) ∧ x = none) ∨
      ∃ value y, record.value? i = some value ∧ value ≠ .null ∧ (part value).Gives y ∧ x = some y := by
  unfold optional
  rw [gives_withDefault]
  constructor
  · rintro (⟨absent, rfl⟩ | ⟨value, present, h⟩)
    · exact Or.inl ⟨Or.inl absent, rfl⟩
    · split at h
      · exact Or.inl ⟨Or.inr present, (gives_pure.mp h).symm⟩
      · rename_i notNull
        obtain ⟨y, hy, rfl⟩ := gives_map.mp h
        exact Or.inr ⟨value, y, present, notNull, hy, rfl⟩
  · rintro (⟨absent | null, rfl⟩ | ⟨value, y, present, notNull, hy, rfl⟩)
    · exact Or.inl ⟨absent, rfl⟩
    · exact Or.inr ⟨.null, null, gives_pure.mpr rfl⟩
    · refine Or.inr ⟨value, present, ?_⟩
      split
      · exact absurd rfl notNull
      · exact hy.map some

/-! ## Records -/

/-- **A record is read from known fields none of which is repeated.** -/
theorem gives_read {names : List (List String)} {body : Record → Reading ε α} :
    (read names value body).Gives x ↔
      ∃ record, of? names value = some record ∧ record.surplus = none ∧ (body record).Gives x := by
  unfold read
  cases of? names value with
  | none =>
      refine iff_of_false not_gives_mismatch ?_
      rintro ⟨_, h, -⟩
      cases h
  | some record =>
      cases surplus : record.surplus with
      | none => simp [surplus]
      | some position =>
          simp only [surplus]
          constructor
          · intro h
            obtain ⟨g, x', hg, -⟩ := gives_seq.mp h
            obtain ⟨_, missing, -⟩ := gives_map.mp hg
            exact (not_gives_mismatchAt missing).elim
          · rintro ⟨record', e, none, -⟩
            cases e
            rw [surplus] at none
            cases none

end Record

end Workflow.Datum
