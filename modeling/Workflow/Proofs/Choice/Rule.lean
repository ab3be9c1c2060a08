import Workflow.Choice.Rule
import Workflow.Proofs.DataFlow
import Workflow.Proofs.Json.Parts

/-!
# `Workflow.Proofs.Choice.Rule` — choice rules are restored

The object of a rule has the keys of its condition, and a next state and a comment beside them.  A condition that was read
compares with an operand that its operator admits; so the keys that are written for it say what to read, and the rest of
the object does not get in the way.

## Contents
- **Operators.** `ofKey?_key` and `ofKey?_pathKey`: the key of an operator stands for the operator.
- **Reading.** What conditions are read from: `mem_of_parseFirst`, `mem_of_parseNot`, `exists_of_parseAll`,
  `mem_operatorFields` and `parse_comparison`.
- **Reading again.** `Condition.Restored`, for what is written for a condition, with a lemma for each kind of condition
  and `restored_of_parse`.
- **Rules.** `Rule.restored_of_parse`.
-/

namespace Workflow.Choice

open Json (Sound)

/-! ## Operators -/

namespace Operator

theorem ofKey?_key (operator : Operator) : ofKey? operator.key = some (operator, false) := by
  cases operator with
  | string relation => cases relation <;> decide
  | numeric relation => cases relation <;> decide
  | timestamp relation => cases relation <;> decide
  | _ => decide

theorem ofKey?_pathKey {operator : Operator} (h : operator.acceptsPath = true) :
    ofKey? operator.pathKey = some (operator, true) := by
  cases operator with
  | string relation => cases relation <;> decide
  | numeric relation => cases relation <;> decide
  | timestamp relation => cases relation <;> decide
  | booleanEquals => decide
  | _ => cases h

/-- Only operators that accept a path have a key for one. -/
theorem acceptsPath_of_ofKey? {key : String} {operator : Operator} (h : ofKey? key = some (operator, true)) :
    operator.acceptsPath = true := by
  unfold ofKey? at h
  split at h
  · cases h
  · obtain ⟨found, hfound, e⟩ := Option.map_eq_some_iff.mp h
    cases e
    have accepts := List.find?_some hfound
    exact (Bool.and_eq_true_iff.mp accepts).1

end Operator

/-! ## Reading -/

variable {key : String} {fields : List (String × Json)}

theorem parseFirst_cons_of_ne {entry : String × Json} (h : entry.1 ≠ key) (rest : List (String × Json)) :
    Condition.parseFirst key (entry :: rest) = Condition.parseFirst key rest := by
  obtain ⟨k, value⟩ := entry
  cases value <;> rw [Condition.parseFirst, if_neg h] <;> exact fun _ => Json.noConfusion

theorem parseNot_cons_of_ne {entry : String × Json} (h : entry.1 ≠ "Not") (rest : List (String × Json)) :
    Condition.parseNot (entry :: rest) = Condition.parseNot rest := by
  obtain ⟨k, value⟩ := entry
  cases value <;> rw [Condition.parseNot, if_neg h] <;> exact fun _ => Json.noConfusion

theorem mem_of_parseFirst {conditions : List Condition} (h : Condition.parseFirst key fields = some (.ok conditions)) :
    ∃ items, (key, .arr items) ∈ fields ∧ Condition.parseAll items = .ok conditions := by
  induction fields with
  | nil => cases h
  | cons entry rest ih =>
      by_cases same : entry.1 = key
      · obtain ⟨k, value⟩ := entry
        cases value with
        | arr items =>
            rw [Condition.parseFirst, if_pos same] at h
            exact ⟨items, same ▸ List.mem_cons_self, Option.some.inj h⟩
        | _ =>
            rw [Condition.parseFirst, if_pos same] at h
            · cases h
            · exact fun _ => Json.noConfusion
      · rw [parseFirst_cons_of_ne same] at h
        obtain ⟨items, inside, hitems⟩ := ih h
        exact ⟨items, List.mem_cons_of_mem _ inside, hitems⟩

theorem mem_of_parseNot {condition : Condition} (h : Condition.parseNot fields = some (.ok condition)) :
    ∃ inner, ("Not", .obj inner) ∈ fields ∧ Condition.parse (.obj inner) = .ok condition := by
  induction fields with
  | nil => cases h
  | cons entry rest ih =>
      by_cases same : entry.1 = "Not"
      · obtain ⟨k, value⟩ := entry
        cases value with
        | obj inner =>
            rw [Condition.parseNot, if_pos same] at h
            exact ⟨inner, same ▸ List.mem_cons_self, Option.some.inj h⟩
        | _ =>
            rw [Condition.parseNot, if_pos same] at h
            · cases h
            · exact fun _ => Json.noConfusion
      · rw [parseNot_cons_of_ne same] at h
        obtain ⟨inner, inside, hinner⟩ := ih h
        exact ⟨inner, List.mem_cons_of_mem _ inside, hinner⟩

theorem exists_of_parseAll {items : List Json} {conditions : List Condition} {condition : Condition}
    (h : Condition.parseAll items = .ok conditions) (inside : condition ∈ conditions) :
    ∃ item ∈ items, Condition.parse item = .ok condition := by
  induction items generalizing conditions with
  | nil =>
      cases h
      exact absurd inside List.not_mem_nil
  | cons item rest ih =>
      rw [Condition.parseAll] at h
      split at h
      · rename_i first hfirst
        obtain ⟨others, hothers, rfl⟩ := DataFlow.map_eq_ok.mp h
        rcases List.mem_cons.mp inside with rfl | inside
        · exact ⟨item, List.mem_cons_self, hfirst⟩
        · obtain ⟨item', held, hparse⟩ := ih hothers inside
          exact ⟨item', List.mem_cons_of_mem _ held, hparse⟩
      · cases h

theorem mem_operatorFields {value : Json} {operator : Operator} {path : Bool} :
    (key, value, operator, path) ∈ operatorFields fields ↔
      (key, value) ∈ fields ∧ Operator.ofKey? key = some (operator, path) := by
  constructor
  · intro inside
    obtain ⟨entry, held, hentry⟩ := List.mem_filterMap.mp inside
    obtain ⟨found, hfound, e⟩ := Option.map_eq_some_iff.mp hentry
    cases e
    exact ⟨held, hfound⟩
  · rintro ⟨held, hfound⟩
    exact List.mem_filterMap.mpr ⟨(key, value), held, Option.map_eq_some_iff.mpr ⟨_, hfound, rfl⟩⟩

/-- A comparison compares with what the operator admits: a literal among the fields, or a path. -/
theorem parse_comparison {comparison : Comparison} (h : Comparison.parse fields = .ok comparison) :
    (∃ key value, (key, value) ∈ fields ∧ comparison.operand = .literal value ∧
        comparison.operator.operand.admits value = true) ∨
      ∃ text, comparison.operand = .path text ∧ comparison.operator.acceptsPath = true := by
  have listed : ∀ {key value operator path}, operatorFields fields = [(key, value, operator, path)] →
      (key, value) ∈ fields ∧ Operator.ofKey? key = some (operator, path) :=
    fun only => mem_operatorFields.mp (only ▸ List.mem_cons_self)
  unfold Comparison.parse at h
  split at h
  · cases h
  · split at h
    · cases h
    · rename_i only
      split at h
      · rename_i text
        cases h
        exact Or.inr ⟨text, rfl, Operator.acceptsPath_of_ofKey? (listed only).2⟩
      · cases h
    · rename_i only
      split at h
      · rename_i admitted
        cases h
        exact Or.inl ⟨_, _, (listed only).1, rfl, admitted⟩
      · cases h
    · cases h

/-! ## Reading again -/

theorem parseFirst_of_mem {items : List Json} (apart : (fields.map Prod.fst).Nodup) (h : (key, .arr items) ∈ fields) :
    Condition.parseFirst key fields = some (Condition.parseAll items) := by
  induction fields with
  | nil => exact absurd h List.not_mem_nil
  | cons entry rest ih =>
      obtain ⟨new, apart⟩ := List.nodup_cons.mp apart
      rcases List.mem_cons.mp h with rfl | inside
      · rw [Condition.parseFirst, if_pos rfl]
      · rw [parseFirst_cons_of_ne fun e => new (e ▸ List.mem_map_of_mem (f := Prod.fst) inside)]
        exact ih apart inside

theorem parseFirst_of_not_mem (h : key ∉ fields.map Prod.fst) : Condition.parseFirst key fields = none := by
  induction fields with
  | nil => rfl
  | cons entry rest ih =>
      rw [parseFirst_cons_of_ne fun e => h (List.mem_cons.mpr (Or.inl e.symm))]
      exact ih fun inside => h (List.mem_cons_of_mem _ inside)

theorem parseNot_of_mem {inner : List (String × Json)} (apart : (fields.map Prod.fst).Nodup)
    (h : ("Not", .obj inner) ∈ fields) : Condition.parseNot fields = some (Condition.parse (.obj inner)) := by
  induction fields with
  | nil => exact absurd h List.not_mem_nil
  | cons entry rest ih =>
      obtain ⟨new, apart⟩ := List.nodup_cons.mp apart
      rcases List.mem_cons.mp h with rfl | inside
      · rw [Condition.parseNot, if_pos rfl]
      · rw [parseNot_cons_of_ne fun e => new (e ▸ List.mem_map_of_mem (f := Prod.fst) inside)]
        exact ih apart inside

theorem parseNot_of_not_mem (h : "Not" ∉ fields.map Prod.fst) : Condition.parseNot fields = none := by
  induction fields with
  | nil => rfl
  | cons entry rest ih =>
      rw [parseNot_cons_of_ne fun e => h (List.mem_cons.mpr (Or.inl e.symm))]
      exact ih fun inside => h (List.mem_cons_of_mem _ inside)

/-- The entries are those that a rule has beside the ones of its condition. -/
def Beside (entries : List (String × Json)) : Prop := ∀ entry ∈ entries, entry.1 = "Next" ∨ entry.1 = "Comment"

/-- The keys that are written for a condition, and that no rule has beside its condition. -/
def IsKey (key : String) : Prop :=
  key = "And" ∨ key = "Or" ∨ key = "Not" ∨ key = "Variable" ∨ (Operator.ofKey? key).isSome = true

instance (key : String) : Decidable (IsKey key) := inferInstanceAs (Decidable (_ ∨ _ ∨ _ ∨ _ ∨ _))

namespace Condition

variable {depth : Nat} {condition : Condition} {conditions : List Condition}

/-- What is written for a condition is sound, canonical and less deep than allowed, and whatever a rule has beside it, it
is read as the condition again. -/
structure Restored (depth : Nat) (condition : Condition) : Prop where
  positive : 0 < depth
  keys : ∀ entry ∈ condition.fields, IsKey entry.1
  apart : (condition.fields.map Prod.fst).Nodup
  fits : ∀ entry ∈ condition.fields, entry.2.Leaves Sound ∧ entry.2.depth < depth
  canonical : ∀ entry ∈ condition.fields, entry.2.Canonical
  reads : ∀ fields beside, Fields.Sorted fields → Beside beside → fields.Perm (condition.fields ++ beside) →
    parse (.obj fields) = .ok condition

theorem Restored.sound_object (h : Restored depth condition) : (Json.object condition.fields).Leaves Sound :=
  Json.leaves_obj.mpr fun entry inside => (h.fits entry (Fields.mem_ofList inside)).1

theorem Restored.depth_object (h : Restored depth condition) : (Json.object condition.fields).depth ≤ depth := by
  obtain ⟨less, rfl⟩ := Nat.exists_eq_add_one.mpr h.positive
  exact Json.depth_obj_le.mpr fun entry inside => Nat.le_of_lt_succ (h.fits entry (Fields.mem_ofList inside)).2

theorem Restored.parse_object (h : Restored depth condition) : parse (.object condition.fields) = .ok condition := by
  refine h.reads _ [] (Fields.sorted_ofList _) (fun entry inside => absurd inside List.not_mem_nil) ?_
  rw [List.append_nil]
  exact Fields.perm_ofList h.apart

theorem objects_eq (conditions : List Condition) :
    objects conditions = conditions.map fun condition => .object condition.fields := by
  induction conditions with
  | nil => rfl
  | cons condition rest ih => rw [objects, ih, List.map_cons]

theorem parseAll_objects (h : ∀ condition ∈ conditions, parse (.object condition.fields) = .ok condition) :
    parseAll (objects conditions) = .ok conditions := by
  induction conditions with
  | nil => rfl
  | cons condition rest ih =>
      obtain ⟨first, others⟩ := List.forall_mem_cons.mp h
      rw [objects, parseAll, first, ih others]
      rfl

/-- A key of conditions that is not written for the condition is not there at all. -/
theorem not_mem_keys {fields beside own : List (String × Json)} (aside : Beside beside)
    (held : fields.Perm (own ++ beside)) {key : String} (isKey : IsKey key) (new : key ∉ own.map Prod.fst) :
    key ∉ fields.map Prod.fst := by
  intro inside
  rw [(held.map Prod.fst).mem_iff, List.map_append] at inside
  rcases List.mem_append.mp inside with mine | other
  · exact new mine
  · obtain ⟨entry, listed, rfl⟩ := List.mem_map.mp other
    rcases aside entry listed with e | e
    · exact absurd (e ▸ isKey) (by decide)
    · exact absurd (e ▸ isKey) (by decide)

/-- The objects of conditions are sound, canonical and no deeper than what the conditions were read from. -/
theorem objects_fit {items : List Json}
    (each : ∀ condition ∈ conditions, ∃ item ∈ items, Restored item.depth condition) :
    (Json.arr (objects conditions)).Leaves Sound ∧ (Json.arr (objects conditions)).depth ≤ (Json.arr items).depth ∧
      (Json.arr (objects conditions)).Canonical := by
  rw [objects_eq]
  refine ⟨Json.leaves_arr.mpr (List.forall_mem_map.mpr fun condition inside => ?_),
    Json.depth_arr_le.mpr (List.forall_mem_map.mpr fun condition inside => ?_),
    Json.canonical_arr.mpr (List.forall_mem_map.mpr fun condition inside => ?_)⟩
  · obtain ⟨item, listed, restored⟩ := each condition inside
    exact restored.sound_object
  · obtain ⟨item, listed, restored⟩ := each condition inside
    exact Nat.le_trans restored.depth_object (Json.depth_arr_le.mp (Nat.le_refl _) item listed)
  · obtain ⟨item, listed, restored⟩ := each condition inside
    exact Json.canonical_object restored.canonical

/-- A condition that is written under a single key. -/
theorem restored_of_single {key : String} {value : Json} (written : condition.fields = [(key, value)])
    (isKey : IsKey key) (sound : value.Leaves Sound) (less : value.depth < depth) (canonical : value.Canonical)
    (reads : ∀ fields : List (String × Json), (fields.map Prod.fst).Nodup → (key, value) ∈ fields →
      (∀ other, IsKey other → other ≠ key → other ∉ fields.map Prod.fst) → parse (.obj fields) = .ok condition) :
    Restored depth condition := by
  refine ⟨Nat.zero_lt_of_lt less, ?_, ?_, ?_, ?_, fun fields beside sorted aside held => ?_⟩ <;> rw [written] at *
  · exact List.forall_mem_singleton.mpr isKey
  · exact List.nodup_cons.mpr ⟨List.not_mem_nil, List.nodup_nil⟩
  · exact List.forall_mem_singleton.mpr ⟨sound, less⟩
  · exact List.forall_mem_singleton.mpr canonical
  · refine reads fields sorted.nodup (held.mem_iff.mpr List.mem_cons_self) fun other otherKey ne => ?_
    exact not_mem_keys aside held otherKey fun inside => ne (List.mem_singleton.mp inside)

theorem restored_and {items : List Json} (less : (Json.arr items).depth < depth)
    (each : ∀ condition ∈ conditions, ∃ item ∈ items, Restored item.depth condition) :
    Restored depth (.and conditions) := by
  obtain ⟨sound, shallow, canonical⟩ := objects_fit each
  refine restored_of_single rfl (by decide) sound (Nat.lt_of_le_of_lt shallow less) canonical
    fun fields apart inside others => ?_
  have all := parseAll_objects fun condition held => (each condition held).elim fun _ h => h.2.parse_object
  rw [parse, parseFirst_of_mem apart inside, all]

theorem restored_or {items : List Json} (less : (Json.arr items).depth < depth)
    (each : ∀ condition ∈ conditions, ∃ item ∈ items, Restored item.depth condition) :
    Restored depth (.or conditions) := by
  obtain ⟨sound, shallow, canonical⟩ := objects_fit each
  refine restored_of_single rfl (by decide) sound (Nat.lt_of_le_of_lt shallow less) canonical
    fun fields apart inside others => ?_
  have all := parseAll_objects fun condition held => (each condition held).elim fun _ h => h.2.parse_object
  rw [parse, parseFirst_of_not_mem (others "And" (by decide) (by decide)), parseFirst_of_mem apart inside, all]

theorem restored_not {inner : Nat} (less : inner < depth) (h : Restored inner condition) :
    Restored depth (.not condition) := by
  refine restored_of_single rfl (by decide) h.sound_object (Nat.lt_of_le_of_lt h.depth_object less)
    (Json.canonical_object h.canonical) fun fields apart inside others => ?_
  have object : parse (.obj (Fields.ofList condition.fields)) = .ok condition := h.parse_object
  rw [parse, parseFirst_of_not_mem (others "And" (by decide) (by decide)),
    parseFirst_of_not_mem (others "Or" (by decide) (by decide)), parseNot_of_mem apart inside, object]

/-- A comparison is written under the key of its variable and one for its operator. -/
theorem restored_of_operator {comparison : Comparison} {key : String} {value : Json} {path : Bool} (positive : 0 < depth)
    (written : comparison.fields = [("Variable", .str comparison.variable), (key, value)])
    (named : Operator.ofKey? key = some (comparison.operator, path)) (sound : value.Leaves Sound)
    (less : value.depth < depth) (canonical : value.Canonical)
    (reads : ∀ fields : Fields Json, fields.find? "Variable" = some (.str comparison.variable) →
      operatorFields fields = [(key, value, comparison.operator, path)] → Comparison.parse fields = .ok comparison) :
    Restored depth (.compare comparison) := by
  have unnamed : ∀ other : String, Operator.ofKey? other = none → other ≠ key := by
    rintro other none rfl
    exact nomatch named.symm.trans none
  refine ⟨positive, ?_, ?_, ?_, ?_, fun fields beside sorted aside held => ?_⟩ <;> rw [Condition.fields, written] at *
  · exact List.forall_mem_cons.mpr ⟨(by decide : IsKey "Variable"),
      List.forall_mem_singleton.mpr (Or.inr (Or.inr (Or.inr (Or.inr (by rw [named]; rfl)))))⟩
  · simpa using unnamed "Variable" (by decide)
  · exact List.forall_mem_cons.mpr ⟨⟨trivial, positive⟩, List.forall_mem_singleton.mpr ⟨sound, less⟩⟩
  · exact List.forall_mem_cons.mpr ⟨trivial, List.forall_mem_singleton.mpr canonical⟩
  · -- Parsing looks for the other operators first, and finds none: they are neither written nor beside.
    have absent : ∀ {other : String}, IsKey other → other ≠ "Variable" → Operator.ofKey? other = none →
        other ∉ fields.map Prod.fst := by
      intro other isKey notVariable none
      refine not_mem_keys aside held isKey fun inside => ?_
      rcases List.mem_cons.mp inside with e | inside
      · exact notVariable e
      · exact unnamed other none (List.mem_singleton.mp inside)
    have held' : Fields.find? fields "Variable" = some (.str comparison.variable) :=
      (Fields.find?_eq_some_iff sorted).mpr (held.mem_iff.mpr List.mem_cons_self)
    have single : operatorFields fields = [(key, value, comparison.operator, path)] := by
      have none : Operator.ofKey? "Variable" = none := by decide
      have own : operatorFields [("Variable", Json.str comparison.variable), (key, value)] =
          [(key, value, comparison.operator, path)] := by
        simp [operatorFields, none, named]
      -- What stands beside a condition in a rule is no comparison.
      have others : operatorFields beside = [] := by
        refine List.filterMap_eq_nil_iff.mpr ?_
        rintro ⟨other, value⟩ inside
        obtain rfl | rfl : other = "Next" ∨ other = "Comment" := aside _ inside
        · rfl
        · rfl
      have split : operatorFields ([("Variable", Json.str comparison.variable), (key, value)] ++ beside) =
          operatorFields [("Variable", Json.str comparison.variable), (key, value)] ++ operatorFields beside :=
        List.filterMap_append
      rw [own, others, List.append_nil] at split
      exact List.perm_singleton.mp (split ▸ held.filterMap _)
    rw [parse, parseFirst_of_not_mem (absent (by decide) (by decide) (by decide)),
      parseFirst_of_not_mem (absent (by decide) (by decide) (by decide)),
      parseNot_of_not_mem (absent (by decide) (by decide) (by decide))]
    exact congrArg (Except.map Condition.compare) (reads fields held' single)

/-- **A comparison that was read is restored.** -/
theorem restored_of_comparison {fields : List (String × Json)} {comparison : Comparison}
    (sound : (Json.obj fields).Leaves Sound) (h : Comparison.parse fields = .ok comparison) :
    Restored (Json.obj fields).depth (.compare comparison) := by
  obtain ⟨name, operator, operand⟩ := comparison
  rcases parse_comparison h with ⟨key, value, inside, rfl, admitted⟩ | ⟨text, rfl, accepts⟩
  · have less : value.depth < (Json.obj fields).depth :=
      Nat.lt_succ_of_le (Json.depth_obj_le.mp (Nat.le_refl _) (key, value) inside)
    have canonical : value.Canonical := by
      -- No operator compares with an array or an object.
      cases value with
      | arr items => cases hkind : operator.operand <;> rw [hkind] at admitted <;> cases admitted
      | obj inner => cases hkind : operator.operand <;> rw [hkind] at admitted <;> cases admitted
      | _ => trivial
    refine restored_of_operator (Nat.succ_pos _) rfl operator.ofKey?_key
      (Json.leaves_obj.mp sound (key, value) inside) less canonical fun fields named single => ?_
    simp only [Comparison.parse, named, single, Option.bind_some, Json.text?, if_pos admitted]
  · refine restored_of_operator (Nat.succ_pos _) rfl (Operator.ofKey?_pathKey accepts) trivial (Nat.succ_pos _) trivial
      fun fields named single => ?_
    simp only [Comparison.parse, named, single, Option.bind_some, Json.text?]

/-- **A condition that was read is restored.** -/
theorem restored_of_parse {value : Json} {condition : Condition} (sound : value.Leaves Sound)
    (h : parse value = .ok condition) : Restored value.depth condition := by
  -- The induction is on the depth: the conditions under a key are two levels further down.
  induction hdepth : value.depth using Nat.strongRecOn generalizing value condition with
  | ind depth ih =>
    subst hdepth
    cases value with
    | obj fields =>
        have depths := Json.depth_obj_le.mp (Nat.le_refl (Json.obj fields).depth)
        have several : ∀ {key : String} {conditions : List Condition},
            parseFirst key fields = some (.ok conditions) →
            ∃ items, (Json.arr items).depth < (Json.obj fields).depth ∧
              ∀ condition ∈ conditions, ∃ item ∈ items, Restored item.depth condition := by
          intro key conditions hfirst
          obtain ⟨items, inside, hall⟩ := mem_of_parseFirst hfirst
          have less : (Json.arr items).depth < (Json.obj fields).depth := Nat.lt_succ_of_le (depths _ inside)
          refine ⟨items, less, fun condition held => ?_⟩
          obtain ⟨item, listed, hitem⟩ := exists_of_parseAll hall held
          have shallow := Json.depth_arr_le.mp (Nat.le_refl (Json.arr items).depth) item listed
          exact ⟨item, listed, ih item.depth (Nat.lt_of_le_of_lt (Nat.le_succ_of_le shallow) less)
            (Json.leaves_arr.mp (Json.leaves_obj.mp sound _ inside) item listed) hitem rfl⟩
        rw [parse] at h
        split at h
        · rename_i hand
          cases h
          obtain ⟨items, less, each⟩ := several hand
          exact restored_and less each
        · cases h
        · split at h
          · rename_i hor
            cases h
            obtain ⟨items, less, each⟩ := several hor
            exact restored_or less each
          · cases h
          · split at h
            · rename_i hnot
              cases h
              obtain ⟨inner, inside, hinner⟩ := mem_of_parseNot hnot
              have less : (Json.obj inner).depth < (Json.obj fields).depth := Nat.lt_succ_of_le (depths _ inside)
              exact restored_not less (ih _ less (Json.leaves_obj.mp sound _ inside) hinner rfl)
            · cases h
            · obtain ⟨comparison, hcomparison, rfl⟩ := DataFlow.map_eq_ok.mp h
              exact restored_of_comparison sound hcomparison
    | _ => cases h

end Condition

/-! ## Rules -/

namespace Rule

/-- What is written for a rule beside its condition. -/
def beside (next comment : Option String) : List (String × Json) :=
  (next.map fun next => ("Next", Json.str next)).toList
    ++ (comment.map fun comment => ("Comment", Json.str comment)).toList

variable {next comment : Option String} {condition : Condition} {depth : Nat}

theorem mem_beside {entry : String × Json} : entry ∈ beside next comment ↔
    (∃ text, next = some text ∧ ("Next", Json.str text) = entry) ∨
      ∃ text, comment = some text ∧ ("Comment", Json.str text) = entry := by
  simp only [beside, List.mem_append, Option.mem_toList, Option.map_eq_some_iff]

theorem beside_beside : Beside (beside next comment) := by
  intro entry inside
  rcases mem_beside.mp inside with ⟨text, -, rfl⟩ | ⟨text, -, rfl⟩
  · exact Or.inl rfl
  · exact Or.inr rfl

/-- The entries of a rule are under different keys, if those of its condition are. -/
theorem apart_beside (keys : ∀ entry ∈ condition.fields, IsKey entry.1) (apart : (condition.fields.map Prod.fst).Nodup)
    (next comment : Option String) : ((condition.fields ++ beside next comment).map Prod.fst).Nodup := by
  have single : ((beside next comment).map Prod.fst).Nodup := by
    cases next <;> cases comment <;> simp [beside]
  rw [List.map_append, List.nodup_append]
  refine ⟨apart, single, fun a ha b hb e => ?_⟩
  obtain ⟨own, listed, rfl⟩ := List.mem_map.mp ha
  obtain ⟨other, listed', rfl⟩ := List.mem_map.mp hb
  have isKey := keys own listed
  rw [e] at isKey
  rcases beside_beside other listed' with e' | e' <;> rw [e'] at isKey <;> exact absurd isKey (by decide)

/-- **A rule that was read is restored:** its object is sound, canonical and no deeper than what it was read from, and it
is read as the rule again. -/
theorem restored_of_parse {value : Json} {rule : Rule} (sound : value.Leaves Sound) (h : parse value = .ok rule) :
    rule.toJson.Leaves Sound ∧ rule.toJson.depth ≤ value.depth ∧ rule.toJson.Canonical ∧
      parse rule.toJson = .ok rule := by
  obtain ⟨condition, hcondition, rfl⟩ := DataFlow.map_eq_ok.mp h
  have restored := Condition.restored_of_parse sound hcondition
  generalize (value.field? "Next").bind Json.text? = next
  generalize (value.field? "Comment").bind Json.text? = comment
  obtain ⟨less, hless⟩ := Nat.exists_eq_add_one.mpr restored.positive
  have written : toJson ⟨condition, next, comment⟩ = .object (condition.fields ++ beside next comment) := by
    rw [toJson, List.append_assoc]
    rfl
  have apart := apart_beside restored.keys restored.apart next comment
  have fits : ∀ entry ∈ Fields.ofList (condition.fields ++ beside next comment),
      entry.2.Leaves Sound ∧ entry.2.depth ≤ less ∧ entry.2.Canonical := by
    intro entry inside
    rcases List.mem_append.mp (Fields.mem_ofList inside) with own | other
    · have fits := restored.fits entry own
      exact ⟨fits.1, Nat.le_of_lt_succ (Nat.lt_of_lt_of_eq fits.2 hless), restored.canonical entry own⟩
    · rcases mem_beside.mp other with ⟨text, -, rfl⟩ | ⟨text, -, rfl⟩
      · exact ⟨trivial, Nat.zero_le _, trivial⟩
      · exact ⟨trivial, Nat.zero_le _, trivial⟩
  rw [written]
  refine ⟨Json.leaves_obj.mpr fun entry inside => (fits entry inside).1, ?_,
    Json.canonical_obj.mpr ⟨Fields.sorted_ofList _, fun entry inside => (fits entry inside).2.2⟩, ?_⟩
  · rw [hless]
    exact Json.depth_obj_le.mpr fun entry inside => (fits entry inside).2.1
  · have again : Condition.parse (.object (condition.fields ++ beside next comment)) = .ok condition :=
      restored.reads _ _ (Fields.sorted_ofList _) beside_beside (Fields.perm_ofList apart)
    have texts : ∀ {key : String} {text : Option String}, ¬ IsKey key →
        (∀ t, (key, Json.str t) ∈ beside next comment ↔ text = some t) →
        ((Json.object (condition.fields ++ beside next comment)).field? key).bind Json.text? = text := by
      intro key text notKey own
      refine Option.ext fun t => ?_
      simp only [Option.bind_eq_some_iff, Json.field?_object_eq_some apart, Json.text?_eq_some, exists_eq_right,
        List.mem_append, own]
      exact or_iff_right fun listed => notKey (restored.keys _ listed)
    have hnext : ((Json.object (condition.fields ++ beside next comment)).field? "Next").bind Json.text? = next :=
      texts (by decide) fun t => by rw [mem_beside]; simp
    have hcomment : ((Json.object (condition.fields ++ beside next comment)).field? "Comment").bind Json.text? = comment :=
      texts (by decide) fun t => by rw [mem_beside]; simp
    rw [parse, again, Except.map, hnext, hcomment]

end Rule

end Workflow.Choice
