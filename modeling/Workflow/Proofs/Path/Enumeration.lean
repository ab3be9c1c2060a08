import Workflow.Path.Select
import Workflow.Proofs.Json.Parts
import Workflow.Proofs.Text.Order

/-!
# `Workflow.Proofs.Path.Enumeration` — a path with wildcards stands for many definite ones

A wildcard leads to every field or item of the value that it meets.  So a path with wildcards stands for the definite
paths that have a key or an index in the place of each, and what it selects is what they select, those with the lesser keys
and indices first.  Definite paths are walked along in another way, and nothing comes of walking along them in this one but
what they select.

## Contents
- **Definite paths.** `Step.Replaces` and `Instance`, what a path stands for, and `Before`, the order of definite paths.
- **One step.** `branches`, the definite steps that lead somewhere, with `mem_branches` and `pairwise_branches`.
- **All steps.** `selections`, the definite steps with the values that they lead to, with `mem_selections` and
  `pairwise_selections`, by induction on the steps.
- **Selection.** `walkAll_of_definite` and `select_enumerates`.
-/

namespace Workflow.Path

variable {step other : Step} {steps others : List Step} {document value : Json} {path : Path}

/-! ## Definite paths -/

/-- A definite step takes the place of a step: that of a wildcard, or its own. -/
def Step.Replaces (other step : Step) : Prop := other ≠ .wildcard ∧ (step = .wildcard ∨ other = step)

/-- A definite path that a path stands for: it has a definite step in the place of each step. -/
def Instance (path definite : Path) : Prop :=
  definite.root = path.root ∧ List.Forall₂ Step.Replaces definite.steps path.steps

/-- The lesser of two keys comes first, by its bytes, and the lesser of two indices. -/
inductive Step.Before : Step → Step → Prop
  | field {name name' : String} (less : Text.bytes name < Text.bytes name') : Before (.field name) (.field name')
  | index {position position' : Nat} (less : position < position') : Before (.index position) (.index position')

/-- Of two definite paths, the one comes first whose step is first where they part. -/
def Before (definite definite' : Path) : Prop := List.Lex Step.Before definite.steps definite'.steps

theorem Step.before_irrefl (step : Step) : ¬step.Before step := by
  intro h
  cases h with
  | field less => exact List.lt_irrefl _ less
  | index less => exact Nat.lt_irrefl _ less

theorem before_irrefl (definite : Path) : ¬definite.Before definite := List.lex_irrefl Step.before_irrefl _

/-! ## One step -/

/-- The definite steps that lead somewhere in the place of a step, each with the value that it leads to. -/
def branches : Step → Json → List (Step × Json)
  | .wildcard, .obj fields => fields.map fun entry => (.field entry.1, entry.2)
  | .wildcard, .arr items => items.mapIdx fun position item => (.index position, item)
  | step, value => (child? step value).toList.map (step, ·)

/-- A definite step has no branches but itself. -/
theorem branches_of_definite (definite : step ≠ .wildcard) (value : Json) :
    branches step value = (child? step value).toList.map (step, ·) := by
  cases step with
  | wildcard => exact absurd rfl definite
  | field | index => rfl

theorem children_of_definite (definite : step ≠ .wildcard) (value : Json) :
    children step value = (child? step value).toList := by
  cases step with
  | wildcard => exact absurd rfl definite
  | field | index => rfl

theorem map_snd_branches (step : Step) (value : Json) : (branches step value).map Prod.snd = children step value := by
  by_cases wildcard : step = .wildcard
  · cases wildcard
    cases value with
    | obj fields =>
        rw [branches, List.map_map]
        rfl
    | arr items =>
        refine List.ext_getElem? fun position => ?_
        simp [branches, children]
    | _ => rfl
  · rw [branches_of_definite wildcard, children_of_definite wildcard, List.map_map]
    exact List.map_id _

/-- **A definite step is among the branches if it takes the place of the step and leads somewhere.** -/
theorem mem_branches (canonical : document.Canonical) :
    (other, value) ∈ branches step document ↔ other.Replaces step ∧ child? other document = some value := by
  unfold Step.Replaces
  by_cases wildcard : step = .wildcard
  · cases wildcard
    cases document with
    | obj fields =>
        -- In an object in order, each key is found where it stands.
        have sorted := (Json.canonical_obj.mp canonical).1
        cases other with
        | field name => simp [branches, child?, Json.field?, Fields.find?_eq_some_iff sorted]
        | index position => simp [branches, child?, Json.item?]
        | wildcard => simp [branches]
    | arr items =>
        cases other with
        | field name => simp [branches, child?, Json.field?, List.mem_mapIdx]
        | index position => simp [branches, child?, Json.item?, List.mem_mapIdx, List.getElem?_eq_some_iff]
        | wildcard => simp [branches, List.mem_mapIdx]
    | _ => cases other <;> simp [branches, child?, Json.field?, Json.item?]
  · rw [branches_of_definite wildcard, List.mem_map]
    constructor
    · rintro ⟨_, there, same⟩
      cases same
      exact ⟨⟨wildcard, Or.inr rfl⟩, Option.mem_toList.mp there⟩
    · rintro ⟨⟨-, itself⟩, there⟩
      cases itself.resolve_left wildcard
      exact ⟨value, Option.mem_toList.mpr there, rfl⟩

/-- **The branches are in the order of their steps.** -/
theorem pairwise_branches (canonical : document.Canonical) (step : Step) :
    (branches step document).Pairwise fun first second => first.1.Before second.1 := by
  unfold branches
  split
  · have sorted := (Json.canonical_obj.mp canonical).1
    rw [List.pairwise_map]
    exact (List.pairwise_map.mp sorted).imp fun less => .field (Text.lt_iff_bytes_lt.mp less)
  · rw [List.pairwise_iff_getElem]
    intro i j _ _ less
    rw [List.getElem_mapIdx, List.getElem_mapIdx]
    exact .index less
  · rw [List.pairwise_map]
    cases child? step document with
    | none => exact .nil
    | some value => exact List.pairwise_singleton _ value

/-- What lies one step deep in a canonical value is canonical. -/
theorem canonical_child (canonical : document.Canonical) (h : child? step document = some value) : value.Canonical := by
  cases step with
  | field name =>
      cases document with
      | obj fields => exact (Json.canonical_obj.mp canonical).2 _ (Fields.mem_of_find? h)
      | _ => cases h
  | index position =>
      cases document with
      | arr items => exact Json.canonical_arr.mp canonical _ (List.mem_of_getElem? h)
      | _ => cases h
  | wildcard => cases h

/-! ## All steps -/

/-- The definite steps that lead somewhere in the place of steps, each with the value that they lead to. -/
def selections : List Step → Json → List (List Step × Json)
  | [], value => [([], value)]
  | step :: rest, value => (branches step value).flatMap fun branch =>
    (selections rest branch.2).map fun found => (branch.1 :: found.1, found.2)

theorem map_snd_selections (steps : List Step) (value : Json) :
    (selections steps value).map Prod.snd = walkAll steps value := by
  induction steps generalizing value with
  | nil => rfl
  | cons step rest ih =>
      rw [selections, walkAll, ← map_snd_branches, List.map_flatMap, List.flatMap_map]
      refine List.flatMap_congr ?_
      intro branch _
      rw [List.map_map, ← ih]
      rfl

/-- **Definite steps are among the selections if they take the place of the steps and lead somewhere.** -/
theorem mem_selections (canonical : document.Canonical) : (others, value) ∈ selections steps document ↔
    List.Forall₂ Step.Replaces others steps ∧ walk? others document = some value := by
  induction steps generalizing document others with
  | nil =>
      rw [selections, List.mem_singleton, Prod.mk.injEq, List.forall₂_nil_right_iff]
      constructor
      · rintro ⟨rfl, rfl⟩
        exact ⟨rfl, rfl⟩
      · rintro ⟨rfl, there⟩
        exact ⟨rfl, (Option.some.inj there).symm⟩
  | cons step rest ih =>
      rw [selections, List.mem_flatMap]
      constructor
      · rintro ⟨⟨other, child⟩, branch, inside⟩
        obtain ⟨⟨further, found⟩, selected, same⟩ := List.mem_map.mp inside
        cases same
        obtain ⟨replaces, led⟩ := (mem_branches canonical).mp branch
        obtain ⟨replace, there⟩ := (ih (canonical_child canonical led)).mp selected
        refine ⟨.cons replaces replace, ?_⟩
        rw [walk?, led]
        exact there
      · rintro ⟨replace, there⟩
        cases replace with
        | @cons other _ further _ replaces replace =>
            obtain ⟨child, led, there⟩ := Option.bind_eq_some_iff.mp there
            refine ⟨(other, child), (mem_branches canonical).mpr ⟨replaces, led⟩, List.mem_map.mpr ⟨(further, value), ?_, rfl⟩⟩
            exact (ih (canonical_child canonical led)).mpr ⟨replace, there⟩

/-- **The selections are in the order of their steps.** -/
theorem pairwise_selections (canonical : document.Canonical) (steps : List Step) :
    (selections steps document).Pairwise fun first second => List.Lex Step.Before first.1 second.1 := by
  induction steps generalizing document with
  | nil => exact List.pairwise_singleton _ _
  | cons step rest ih =>
      rw [selections, List.pairwise_flatMap]
      constructor
      · -- Selections that begin with the same step are in the order of the others.
        rintro ⟨other, child⟩ branch
        obtain ⟨-, led⟩ := (mem_branches canonical).mp branch
        rw [List.pairwise_map]
        exact (ih (canonical_child canonical led)).imp fun before => .cons before
      · -- Selections that begin with different steps are in the order of these.
        refine (pairwise_branches canonical step).imp ?_
        intro first second before found inside found' inside'
        obtain ⟨_, -, rfl⟩ := List.mem_map.mp inside
        obtain ⟨_, -, rfl⟩ := List.mem_map.mp inside'
        exact .rel before

/-! ## Selection -/

/-- Walking along definite steps in the way of wildcards leads to what they lead to, and to nothing else. -/
theorem walkAll_of_definite (definite : Step.wildcard ∉ steps) (document : Json) :
    walkAll steps document = (walk? steps document).toList := by
  induction steps generalizing document with
  | nil => rfl
  | cons step rest ih =>
      obtain ⟨first, others⟩ := not_or.mp (List.mem_cons.not.mp definite)
      rw [walkAll, walk?, children_of_definite (Ne.symm first)]
      cases child? step document with
      | none => rfl
      | some child =>
          rw [Option.toList, List.flatMap_cons, List.flatMap_nil, List.append_nil]
          exact ih others child

theorem Instance.definite {definite : Path} (h : path.Instance definite) : definite.Definite := by
  have each : ∀ {others steps}, List.Forall₂ Step.Replaces others steps → Step.wildcard ∉ others := by
    intro others steps replace
    induction replace with
    | nil => exact List.not_mem_nil
    | cons replaces _ ih => exact List.mem_cons.not.mpr (not_or.mpr ⟨Ne.symm replaces.1, ih⟩)
  exact each h.2

/-- **A path with wildcards selects what the definite paths select that it stands for:** the array of their values in the
    order of the paths, where all that lead somewhere have a part, each once.  And walking along a definite path in the way
    of wildcards leads to the value that it selects, or nowhere if it selects none. -/
theorem select_enumerates (path : Path) (canonical : document.Canonical) :
    (¬path.Definite → ∃ found : List (Path × Json), path.select? document = some (.arr (found.map Prod.snd)) ∧
      (found.map Prod.fst).Pairwise Before ∧ (found.map Prod.fst).Nodup ∧
      ∀ definite value, (definite, value) ∈ found ↔
        path.Instance definite ∧ definite.select? document = some value) ∧
    (path.Definite → walkAll path.steps document = (path.select? document).toList) := by
  refine ⟨fun wildcard => ?_, fun definite => ?_⟩
  · -- The order is strict, so that no path is listed twice.
    have ordered : ((selections path.steps document).map fun found => (⟨path.root, found.1⟩ : Path)).Pairwise Before :=
      List.pairwise_map.mpr (pairwise_selections canonical path.steps)
    refine ⟨(selections path.steps document).map fun found => (⟨path.root, found.1⟩, found.2), ?_, ?_, ?_, ?_⟩
    · rw [select?, if_neg wildcard, List.map_map, ← map_snd_selections]
      rfl
    · rw [List.map_map]
      exact ordered
    · rw [List.map_map]
      refine List.Pairwise.imp ?_ ordered
      rintro definite _ before rfl
      exact before_irrefl definite before
    · intro definite value
      rw [List.mem_map]
      constructor
      · rintro ⟨⟨others, _⟩, selected, same⟩
        cases same
        obtain ⟨replace, there⟩ := (mem_selections canonical).mp selected
        have stands : path.Instance ⟨path.root, others⟩ := ⟨rfl, replace⟩
        exact ⟨stands, (if_pos stands.definite).trans there⟩
      · rintro ⟨stands, selected⟩
        rw [select?, if_pos stands.definite] at selected
        obtain ⟨root, others⟩ := definite
        cases stands.1
        exact ⟨(others, value), (mem_selections canonical).mpr ⟨stands.2, selected⟩, rfl⟩
  · rw [select?, if_pos definite]
    exact walkAll_of_definite definite document

/-- Two wildcards in turn, the first for keys and the second for indices and keys; some of what they meet lacks the field
    that comes last. -/
theorem select_enumerates_nested :
    let items : Json := .arr [.obj [("x", .int 1), ("y", .int 2)], .obj [("y", .int 3)], .int 7]
    let document : Json := .obj [("a", items), ("b", .obj [("p", .obj [("x", .int 4)])])]
    let path : Path := ⟨.data, [.wildcard, .wildcard, .field "x"]⟩
    let definite : Path := ⟨.data, [.field "b", .field "p", .field "x"]⟩
    document.Canonical ∧ ¬path.Definite ∧ definite.Definite ∧ walkAll definite.steps document = [.int 4] ∧
      ∃ found : List (Path × Json), found.map Prod.snd = [.int 1, .int 4] ∧ (found.map Prod.fst).Pairwise Before ∧
        (definite, .int 4) ∈ found := by
  intro items document path definite
  have canonical : document.Canonical := by
    simp only [document, items, Json.Canonical, Json.CanonicalFields, Json.CanonicalItems, Fields.Sorted, Fields.keys]
    decide
  have wildcard : ¬path.Definite := by decide
  have direct : definite.Definite := by decide
  obtain ⟨found, selected, ordered, -, mem⟩ := (select_enumerates path canonical).1 wildcard
  refine ⟨canonical, wildcard, direct, (select_enumerates definite canonical).2 direct, found, ?_, ordered, ?_⟩
  · have values : path.select? document = some (.arr [.int 1, .int 4]) := by cbv
    exact Json.arr.inj (Option.some.inj (selected.symm.trans values))
  · refine (mem definite (.int 4)).mpr ⟨⟨rfl, ?_⟩, by cbv⟩
    simp [definite, path, Step.Replaces]

end Workflow.Path
