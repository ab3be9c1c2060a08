import Workflow.Proofs.Choice.Rule

/-!
# `Workflow.Proofs.Choice.Operators` — which operators of a rule are kept

A condition is read from one operator of its object: the combinations are looked for in turn, and only if there are none a
comparison is, which must then be the only one.  So beside a combination other operators are passed over, and they are
missing when the rule is written again.

## Contents
- **Operators.** `IsOperator`, and `Keeps`, for a rule and what is written for it: every operator is there, at every level.
  `operands`, the conditions under an operator; `Level`, those under a rule, and `Single`, those with one operator at most.
- **Reading.** `Reads`, how a condition is read from one operator, with `reads_of_parse`.
- **Writing.** `Reads.mem_written_iff`: what is written has that operator and no other; and `Reads.keptIn_iff`.
- **Which operators are kept.** `Condition.keeps_iff`, and `Rule.parse_keeps_iff`.
-/

namespace Workflow.Choice

variable {key : String} {value inner : Json} {fields : List (String × Json)} {condition : Condition}

/-! ## Operators -/

/-- The keys that say what a condition is: those of combinations and those of comparisons. -/
def IsOperator (key : String) : Prop :=
  key = "And" ∨ key = "Or" ∨ key = "Not" ∨ (Operator.ofKey? key).isSome = true

instance (key : String) : Decidable (IsOperator key) := inferInstanceAs (Decidable (_ ∨ _ ∨ _ ∨ _))

mutual
/-- Every operator of a rule, at every level, is in what is written. -/
inductive Keeps : Json → Json → Prop where
  | level {fields written : List (String × Json)}
      (each : ∀ key value, (key, value) ∈ fields → IsOperator key → KeptIn written key value) :
      Keeps (.obj fields) (.obj written)
/-- An operator is in what is written, with its operand: a literal or path as it is, conditions level by level. -/
inductive KeptIn : List (String × Json) → String → Json → Prop where
  | conditions {written : List (String × Json)} {key : String} {items items' : List Json}
      (combines : key = "And" ∨ key = "Or") (there : (key, .arr items') ∈ written)
      (each : List.Forall₂ Keeps items items') : KeptIn written key (.arr items)
  | condition {written : List (String × Json)} {value value' : Json} (there : ("Not", value') ∈ written)
      (inner : Keeps value value') : KeptIn written "Not" value
  | operand {written : List (String × Json)} {key : String} {value : Json}
      (compares : (Operator.ofKey? key).isSome = true) (there : (key, value) ∈ written) : KeptIn written key value
end

theorem KeptIn.mem {written : List (String × Json)} (h : KeptIn written key value) : ∃ value', (key, value') ∈ written := by
  cases h with
  | conditions _ there => exact ⟨_, there⟩
  | condition there => exact ⟨_, there⟩
  | operand _ there => exact ⟨_, there⟩

/-- What stands for conditions under an operator. -/
def operands (key : String) (value : Json) : List Json :=
  if key = "And" ∨ key = "Or" then value.items?.getD [] else if key = "Not" then [value] else []

theorem operands_of_compares (compares : (Operator.ofKey? key).isSome = true) : operands key value = [] := by
  have apart : ∀ other, (Operator.ofKey? other).isSome = false → key ≠ other := by
    rintro other none rfl
    exact Bool.noConfusion (none.symm.trans compares)
  rw [operands, if_neg (not_or.mpr ⟨apart "And" (by decide), apart "Or" (by decide)⟩), if_neg (apart "Not" (by decide))]

/-- Only under an operator something stands for a condition. -/
theorem isOperator_of_operands (inside : inner ∈ operands key value) : IsOperator key := by
  unfold operands at inside
  split at inside
  · rename_i combines
    exact combines.imp_right Or.inl
  · split at inside
    · rename_i negates
      exact Or.inr (Or.inr (Or.inl negates))
    · exact absurd inside List.not_mem_nil

/-- A condition is less deep than the one that it stands under, and canonical if that one is. -/
theorem fits_operands (canonical : (Json.obj fields).Canonical) (held : (key, value) ∈ fields)
    (inside : inner ∈ operands key value) : inner.depth < (Json.obj fields).depth ∧ inner.Canonical := by
  have shallow := Json.depth_obj_le.mp (Nat.le_refl (Json.obj fields).depth) (key, value) held
  have parts := (Json.canonical_obj.mp canonical).2 (key, value) held
  unfold operands at inside
  split at inside
  · cases value with
    | arr items =>
        have item := Json.depth_arr_le.mp (Nat.le_refl (Json.arr items).depth) inner inside
        exact ⟨Nat.lt_succ_of_le (Nat.le_trans (Nat.le_succ_of_le item) shallow), Json.canonical_arr.mp parts inner inside⟩
    | _ => exact absurd inside List.not_mem_nil
  · split at inside
    · obtain rfl := List.mem_singleton.mp inside
      exact ⟨Nat.lt_succ_of_le shallow, parts⟩
    · exact absurd inside List.not_mem_nil

/-- The second value stands for a condition of the first one: its own, or one under it, however deep. -/
inductive Level : Json → Json → Prop where
  | own {value : Json} : Level value value
  | under {fields : List (String × Json)} {key : String} {value inner level : Json} (held : (key, value) ∈ fields)
      (inside : inner ∈ operands key value) (rest : Level inner level) : Level (.obj fields) level

/-- No two fields are operators. -/
def Single : Json → Prop
  | .obj fields => ∀ entry ∈ fields, ∀ other ∈ fields, IsOperator entry.1 → IsOperator other.1 → entry.1 = other.1
  | _ => True

instance : DecidablePred Single
  | .obj fields => inferInstanceAs (Decidable (∀ entry ∈ fields, ∀ other ∈ fields, _ → _ → _))
  | .null | .bool _ | .int _ | .float _ | .str _ | .arr _ => .isTrue trivial

/-! ## Reading -/

/-- The conditions under a condition. -/
def Condition.parts : Condition → List Condition
  | .and conditions | .or conditions => conditions
  | .not condition => [condition]
  | .compare _ => []

/-- How a condition is read from one operator, and that it is written under the same key. -/
inductive Reads : String → Json → Condition → Prop where
  | combined {key : String} {items : List Json} {condition : Condition} (combines : key = "And" ∨ key = "Or")
      (all : Condition.parseAll items = .ok condition.parts)
      (written : condition.fields = [(key, .arr (Condition.objects condition.parts))]) : Reads key (.arr items) condition
  | negated {inner : List (String × Json)} {condition : Condition} (read : Condition.parse (.obj inner) = .ok condition) :
      Reads "Not" (.obj inner) (.not condition)
  | compared {key : String} {value : Json} {comparison : Comparison} (compares : (Operator.ofKey? key).isSome = true)
      (written : comparison.fields = [("Variable", .str comparison.variable), (key, value)]) :
      Reads key value (.compare comparison)

theorem Reads.isOperator (reads : Reads key value condition) : IsOperator key := by
  cases reads with
  | combined combines => exact combines.imp_right Or.inl
  | negated => decide
  | compared compares => exact Or.inr (Or.inr (Or.inr compares))

theorem forall₂_of_parseAll {items : List Json} {conditions : List Condition}
    (h : Condition.parseAll items = .ok conditions) :
    List.Forall₂ (fun item condition => Condition.parse item = .ok condition) items conditions := by
  induction items generalizing conditions with
  | nil =>
      cases h
      exact .nil
  | cons item rest ih =>
      rw [Condition.parseAll] at h
      split at h
      · rename_i first hfirst
        obtain ⟨others, hothers, rfl⟩ := DataFlow.map_eq_ok.mp h
        exact .cons hfirst (ih hothers)
      · cases h

/-- Each condition under a condition is read from what stands for it. -/
theorem Reads.forall₂ (reads : Reads key value condition) :
    List.Forall₂ (fun item condition => Condition.parse item = .ok condition) (operands key value) condition.parts := by
  cases reads with
  | combined combines all =>
      rw [operands, if_pos combines]
      exact forall₂_of_parseAll all
  | negated read => exact .cons read .nil
  | compared compares =>
      rw [operands_of_compares compares]
      exact .nil

/-- The key of an operator is the one that stands for it. -/
theorem Operator.key_of_ofKey? {operator : Operator} {path : Bool} (h : ofKey? key = some (operator, path)) :
    key = if path then operator.pathKey else operator.key := by
  unfold ofKey? at h
  split at h
  · rename_i hfound
    cases h
    have same := List.find?_some hfound
    exact (beq_iff_eq.mp same).symm
  · obtain ⟨found, hfound, e⟩ := Option.map_eq_some_iff.mp h
    cases e
    have same := List.find?_some hfound
    exact (beq_iff_eq.mp (Bool.and_eq_true_iff.mp same).2).symm

/-- A comparison is read from the only operator of a comparison that there is. -/
theorem reads_of_comparison {comparison : Comparison} (h : Comparison.parse fields = .ok comparison) :
    ∃ key value operator path, operatorFields fields = [(key, value, operator, path)] ∧
      Reads key value (.compare comparison) := by
  have named : ∀ {key value operator path}, operatorFields fields = [(key, value, operator, path)] →
      Operator.ofKey? key = some (operator, path) := fun only => (mem_operatorFields.mp (only ▸ List.mem_cons_self)).2
  unfold Comparison.parse at h
  split at h
  · cases h
  · split at h
    · cases h
    · rename_i only
      split at h
      · cases h
        have key := Operator.key_of_ofKey? (named only)
        exact ⟨_, _, _, _, only, .compared (by rw [named only]; rfl) (by rw [Comparison.fields, key]; rfl)⟩
      · cases h
    · rename_i only
      split at h
      · cases h
        have key := Operator.key_of_ofKey? (named only)
        exact ⟨_, _, _, _, only, .compared (by rw [named only]; rfl) (by rw [Comparison.fields, key]; rfl)⟩
      · cases h
    · cases h

/-- A search for a key that passes over all others and stops at the key finds nothing only if the key is not there. -/
theorem not_mem_of_search {β : Type} {search : List (String × Json) → Option β}
    (passes : ∀ entry : String × Json, entry.1 ≠ key → ∀ rest, search (entry :: rest) = search rest)
    (stops : ∀ value rest, search ((key, value) :: rest) ≠ none) (h : search fields = none) :
    key ∉ fields.map Prod.fst := by
  induction fields with
  | nil => exact List.not_mem_nil
  | cons entry rest ih =>
      obtain ⟨k, value⟩ := entry
      by_cases same : k = key
      · exact absurd (same ▸ h) (stops value rest)
      · rw [passes (k, value) same rest] at h
        exact fun inside => (List.mem_cons.mp inside).elim (fun e => same e.symm) (ih h)

theorem not_mem_of_parseFirst (h : Condition.parseFirst key fields = none) : key ∉ fields.map Prod.fst := by
  refine not_mem_of_search (fun _ => parseFirst_cons_of_ne) (fun value rest => ?_) h
  cases value <;> simp [Condition.parseFirst]

theorem not_mem_of_parseNot (h : Condition.parseNot fields = none) : "Not" ∉ fields.map Prod.fst := by
  refine not_mem_of_search (fun _ => parseNot_cons_of_ne) (fun value rest => ?_) h
  cases value <;> simp [Condition.parseNot]

/-- **A condition is read from one operator,** and if that is the one of a comparison, then there is no other. -/
theorem reads_of_parse (h : Condition.parse (.obj fields) = .ok condition) :
    ∃ key value, (key, value) ∈ fields ∧ Reads key value condition ∧
      (key = "And" ∨ key = "Or" ∨ key = "Not" ∨ Single (.obj fields)) := by
  rw [Condition.parse] at h
  split at h
  · rename_i hand
    cases h
    obtain ⟨items, held, all⟩ := mem_of_parseFirst hand
    exact ⟨_, _, held, .combined (Or.inl rfl) all rfl, Or.inl rfl⟩
  · cases h
  · rename_i noAnd
    split at h
    · rename_i hor
      cases h
      obtain ⟨items, held, all⟩ := mem_of_parseFirst hor
      exact ⟨_, _, held, .combined (Or.inr rfl) all rfl, Or.inr (Or.inl rfl)⟩
    · cases h
    · rename_i noOr
      split at h
      · rename_i hnot
        cases h
        obtain ⟨inner, held, read⟩ := mem_of_parseNot hnot
        exact ⟨_, _, held, .negated read, Or.inr (Or.inr (Or.inl rfl))⟩
      · cases h
      · rename_i noNot
        obtain ⟨comparison, hcomparison, rfl⟩ := DataFlow.map_eq_ok.mp h
        obtain ⟨key, value, operator, path, only, reads⟩ := reads_of_comparison hcomparison
        have held := (mem_operatorFields.mp (only ▸ List.mem_cons_self)).1
        -- Another operator that combines or negates would have been found before; of comparisons there is only one.
        have same : ∀ entry ∈ fields, IsOperator entry.1 → entry.1 = key := by
          intro entry inside isOperator
          have listed := List.mem_map_of_mem (f := Prod.fst) inside
          rcases isOperator with e | e | e | compares
          · exact absurd (e ▸ listed) (not_mem_of_parseFirst noAnd)
          · exact absurd (e ▸ listed) (not_mem_of_parseFirst noOr)
          · exact absurd (e ▸ listed) (not_mem_of_parseNot noNot)
          · obtain ⟨⟨operator', path'⟩, hfound⟩ := Option.isSome_iff_exists.mp compares
            have found := mem_operatorFields.mpr (show (entry.1, entry.2) ∈ fields ∧ _ from ⟨inside, hfound⟩)
            rw [only] at found
            cases List.mem_singleton.mp found
            rfl
        exact ⟨key, value, held, reads, Or.inr (Or.inr (Or.inr fun entry inside other inside' isOperator isOperator' =>
          (same entry inside isOperator).trans (same other inside' isOperator').symm))⟩

/-! ## Writing -/

/-- What is written for a condition that was read, and beside it for a rule. -/
def written (condition : Condition) (next comment : Option String) : Fields Json :=
  Fields.ofList (condition.fields ++ Rule.beside next comment)

theorem written_none (condition : Condition) : written condition none none = Fields.ofList condition.fields := by
  have nothing : Rule.beside none none = [] := rfl
  rw [written, nothing, List.append_nil]

/-- A condition that was read is written under different keys, of which one is that of an operator. -/
theorem Reads.apart (reads : Reads key value condition) :
    (∀ entry ∈ condition.fields, IsKey entry.1) ∧ (condition.fields.map Prod.fst).Nodup ∧
      ∀ entry ∈ condition.fields, IsOperator entry.1 → entry.1 = key := by
  cases reads with
  | combined combines _ written =>
      rw [written]
      exact ⟨List.forall_mem_singleton.mpr (combines.imp_right Or.inl), List.nodup_singleton _,
        List.forall_mem_singleton.mpr fun _ => rfl⟩
  | negated =>
      have isKey : IsKey "Not" := by decide
      exact ⟨List.forall_mem_singleton.mpr isKey, List.nodup_singleton _, List.forall_mem_singleton.mpr fun _ => rfl⟩
  | compared compares written =>
      have isKey : IsKey "Variable" := by decide
      have noOperator : ¬ IsOperator "Variable" := by decide
      have apart : "Variable" ≠ key := by
        rintro rfl
        exact noOperator (Or.inr (Or.inr (Or.inr compares)))
      rw [Condition.fields, written]
      exact ⟨List.forall_mem_cons.mpr ⟨isKey, List.forall_mem_singleton.mpr (Or.inr (Or.inr (Or.inr (Or.inr compares))))⟩,
        List.nodup_cons.mpr ⟨fun inside => apart (List.mem_singleton.mp inside), List.nodup_singleton _⟩,
        List.forall_mem_cons.mpr ⟨fun isOperator => absurd isOperator noOperator, List.forall_mem_singleton.mpr fun _ => rfl⟩⟩

/-- What stands beside a condition is no operator. -/
theorem Reads.mem_written_iff (reads : Reads key value condition) (next comment : Option String)
    (entry : String × Json) (isOperator : IsOperator entry.1) : entry ∈ written condition next comment ↔ entry ∈ condition.fields := by
  obtain ⟨keys, apart, -⟩ := reads.apart
  rw [written, (Fields.perm_ofList (Rule.apart_beside keys apart next comment)).mem_iff, List.mem_append]
  refine or_iff_left fun aside => ?_
  rcases Rule.beside_beside entry aside with e | e
  · exact absurd (e ▸ isOperator) (by decide)
  · exact absurd (e ▸ isOperator) (by decide)

/-- The operator from which a condition was read is kept exactly if the conditions under it are. -/
theorem Reads.keptIn_iff (reads : Reads key value condition) (next comment : Option String) :
    KeptIn (written condition next comment) key value ↔
      List.Forall₂ Keeps (operands key value) (Condition.objects condition.parts) := by
  have mem : ∀ value', (key, value') ∈ written condition next comment ↔ (key, value') ∈ condition.fields :=
    fun value' => reads.mem_written_iff next comment (key, value') reads.isOperator
  cases reads with
  | combined combines all single =>
      -- There is one entry under the key, so whatever is kept is kept in that one.
      have own : ∀ value', (key, value') ∈ written condition next comment ↔
          value' = .arr (Condition.objects condition.parts) := by
        intro value'
        rw [mem, single, List.mem_singleton, Prod.mk.injEq, and_iff_right rfl]
      rw [operands, if_pos combines]
      constructor
      · intro kept
        cases kept with
        | conditions _ there each =>
            cases (own _).mp there
            exact each
        | condition => exact absurd combines (by decide)
        | operand compares => rcases combines with rfl | rfl <;> exact absurd compares (by decide)
      · exact fun each => .conditions combines ((own _).mpr rfl) each
  | negated read =>
      rename_i object condition
      have own : ∀ value', ("Not", value') ∈ written (.not condition) next comment ↔ value' = .object condition.fields := by
        intro value'
        rw [mem, Condition.fields, List.mem_singleton, Prod.mk.injEq, and_iff_right rfl]
      constructor
      · intro kept
        cases kept with
        | condition there inner =>
            cases (own _).mp there
            exact .cons inner .nil
        | operand compares => exact absurd compares (by decide)
      · intro each
        obtain ⟨inner, -⟩ := List.forall₂_cons.mp each
        exact .condition ((own _).mpr rfl) inner
  | compared compares single =>
      rw [operands_of_compares compares]
      refine iff_of_true (.operand compares ((mem _).mpr ?_)) .nil
      rw [Condition.fields, single]
      exact List.mem_cons_of_mem _ List.mem_cons_self

/-! ## Which operators are kept -/

/-- All levels have single operators exactly if the outermost has, and all below its operators have. -/
theorem forall_level_iff {P : Json → Prop} : (∀ level, Level (.obj fields) level → P level) ↔
    P (.obj fields) ∧ ∀ entry ∈ fields, ∀ inner ∈ operands entry.1 entry.2, ∀ level, Level inner level → P level := by
  constructor
  · exact fun h => ⟨h _ .own, fun entry held inner inside level rest => h level (.under held inside rest)⟩
  · rintro ⟨own, under⟩ level h
    cases h with
    | own => exact own
    | under held inside rest => exact under _ held _ inside level rest

/-- Lists that are kept item by item. -/
theorem forall₂_objects_iff {items : List Json} {conditions : List Condition} {P : Json → Prop}
    (read : List.Forall₂ (fun item condition => Condition.parse item = .ok condition) items conditions)
    (each : ∀ item ∈ items, ∀ condition, Condition.parse item = .ok condition →
      (Keeps item (.object condition.fields) ↔ P item)) :
    List.Forall₂ Keeps items (Condition.objects conditions) ↔ ∀ item ∈ items, P item := by
  induction read with
  | nil => exact iff_of_true .nil fun _ inside => absurd inside List.not_mem_nil
  | @cons item condition items conditions first _ ih =>
      obtain ⟨own, others⟩ := List.forall_mem_cons.mp each
      rw [Condition.objects, List.forall₂_cons, own condition first, ih others, List.forall_mem_cons]

/-- **A condition that was read keeps its operators exactly if it has one at each level.** -/
theorem Condition.keeps_iff (canonical : value.Canonical) (h : Condition.parse value = .ok condition)
    (next comment : Option String) :
    Keeps value (.obj (written condition next comment)) ↔ ∀ level, Level value level → Single level := by
  -- The induction is on the depth: the conditions under an operator may be two levels further down.
  induction hdepth : value.depth using Nat.strongRecOn generalizing value condition next comment with
  | ind depth ih =>
    subst hdepth
    cases value with
    | obj fields =>
        obtain ⟨key, value, held, reads, -⟩ := reads_of_parse h
        have inner : List.Forall₂ Keeps (operands key value) (Condition.objects condition.parts) ↔
            ∀ item ∈ operands key value, ∀ level, Level item level → Single level := by
          refine forall₂_objects_iff reads.forall₂ fun item inside condition read => ?_
          obtain ⟨less, fine⟩ := fits_operands canonical held inside
          have alone := ih item.depth less fine read none none rfl
          rwa [written_none] at alone
        have same : ∀ value', (key, value') ∈ fields → value' = value := by
          intro value' held'
          have sorted := (Json.canonical_obj.mp canonical).1
          exact Option.some.inj (((Fields.find?_eq_some_iff sorted).mpr held').symm.trans
            ((Fields.find?_eq_some_iff sorted).mpr held))
        rw [forall_level_iff]
        constructor
        · rintro (⟨each⟩)
          have only : ∀ entry ∈ fields, IsOperator entry.1 → entry.1 = key := by
            intro entry inside isOperator
            obtain ⟨value', there⟩ := (each entry.1 entry.2 inside isOperator).mem
            have own := (reads.mem_written_iff next comment (entry.1, value') isOperator).mp there
            exact reads.apart.2.2 (entry.1, value') own isOperator
          refine ⟨fun entry inside other inside' isOperator isOperator' =>
            (only entry inside isOperator).trans (only other inside' isOperator').symm, ?_⟩
          rintro ⟨other, value'⟩ inside item under
          obtain rfl : other = key := only _ inside (isOperator_of_operands under)
          obtain rfl := same value' inside
          exact inner.mp ((reads.keptIn_iff next comment).mp (each other value' inside reads.isOperator)) item under
        · rintro ⟨single, under⟩
          refine .level fun other value' inside isOperator => ?_
          obtain rfl : other = key := single _ inside _ held isOperator reads.isOperator
          obtain rfl := same value' inside
          exact (reads.keptIn_iff next comment).mpr (inner.mpr (under _ inside))
    | _ => cases h

/-- **Which rules are written with all their operators.**  What is written for a rule that was read has all operators of the
    rule, at every level and with their operands, exactly if at every level there is only one.  An object with several is
    read as a condition only if a combination is among them; without one it is refused. -/
theorem Rule.parse_keeps_iff {rule : Rule} (canonical : value.Canonical) (h : parse value = .ok rule) :
    (Keeps value rule.toJson ↔ ∀ level, Level value level → Single level) ∧
    ∀ fields, (∃ condition, Condition.parse (.obj fields) = .ok condition) → ¬ Single (.obj fields) →
      "And" ∈ fields.map Prod.fst ∨ "Or" ∈ fields.map Prod.fst ∨ "Not" ∈ fields.map Prod.fst := by
  constructor
  · obtain ⟨condition, hcondition, rfl⟩ := DataFlow.map_eq_ok.mp h
    rw [← Condition.keeps_iff canonical hcondition ((value.field? "Next").bind Json.text?)
      ((value.field? "Comment").bind Json.text?), toJson, List.append_assoc]
    rfl
  · rintro fields ⟨condition, read⟩ several
    obtain ⟨key, value, held, -, cases⟩ := reads_of_parse read
    have listed := List.mem_map_of_mem (f := Prod.fst) held
    rcases cases with rfl | rfl | rfl | single
    · exact Or.inl listed
    · exact Or.inr (Or.inl listed)
    · exact Or.inr (Or.inr listed)
    · exact absurd single several

/-- Below a negation and a combination there is one operator each. -/
theorem Rule.parse_keeps_iff_nested :
    let comparison : Json := .obj [("IsNull", .bool true), ("Variable", .str "$.a")]
    let value : Json := .obj [("Next", .str "X"), ("Not", .obj [("And", .arr [comparison])])]
    ∃ rule, value.Canonical ∧ parse value = .ok rule ∧ (∀ level, Level value level → Single level) ∧
      Keeps value rule.toJson := by
  intro comparison value
  have canonical : value.Canonical := by
    simp only [value, comparison, Json.Canonical, Json.CanonicalFields, Json.CanonicalItems, Fields.Sorted, Fields.keys]
    decide
  have innermost : ∀ level, Level comparison level → Single level :=
    forall_level_iff.mpr ⟨by decide, by simp [operands]⟩
  have combination : ∀ level, Level (.obj [("And", .arr [comparison])]) level → Single level :=
    forall_level_iff.mpr ⟨by decide, by simpa [operands, Json.items?] using innermost⟩
  have single : ∀ level, Level value level → Single level :=
    forall_level_iff.mpr ⟨by decide, by simpa [operands] using combination⟩
  have read : parse value = .ok ⟨.not (.and [.compare ⟨"$.a", .isNull, .literal (.bool true)⟩]), some "X", none⟩ := rfl
  exact ⟨_, canonical, read, single, (parse_keeps_iff canonical read).1.mpr single⟩

/-- Beside a combination a comparison is passed over, and not written again. -/
theorem Rule.and_hides_operator :
    let value : Json := .obj [("And", .arr []), ("IsNull", .bool true), ("Variable", .str "$.a")]
    ∃ rule, value.Canonical ∧ parse value = .ok rule ∧ IsOperator "IsNull" ∧ rule.toJson = .obj [("And", .arr [])] ∧
      ¬ Keeps value rule.toJson := by
  intro value
  have canonical : value.Canonical := by
    simp only [value, Json.Canonical, Json.CanonicalFields, Json.CanonicalItems, Fields.Sorted, Fields.keys]
    decide
  have isOperator : IsOperator "IsNull" := by decide
  refine ⟨⟨.and [], none, none⟩, canonical, rfl, isOperator, rfl, fun keeps => ?_⟩
  obtain ⟨each⟩ : Keeps (.obj [("And", .arr []), ("IsNull", .bool true), ("Variable", .str "$.a")]) (.obj [("And", .arr [])]) :=
    keeps
  obtain ⟨value', there⟩ := (each "IsNull" (.bool true) (List.mem_cons_of_mem _ List.mem_cons_self) isOperator).mem
  have same := congrArg Prod.fst (List.mem_singleton.mp there)
  exact absurd same (by decide : "IsNull" ≠ "And")

end Workflow.Choice
