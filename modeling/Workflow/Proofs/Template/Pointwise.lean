import Workflow.Proofs.Template

/-!
# `Workflow.Proofs.Template.Pointwise` — a template is rendered part by part

Fields are put into the output one after the other, and a dynamic key loses its ending.  A static and a dynamic field can
therefore be meant for the same place.  In the order of keys the static one comes first, so that the expression always
wins; and two fields of one kind are never meant for the same place.  What each object and each array in the output
looks like can thus be told from the template alone, and what an expression yields is put there untouched.

## Contents
- **Keys.** `dynamicName?_eq_some_iff`, `IsStatic`, and `lt_dynamic`: the dynamic key comes after the static one.
- **Fields.** `outputName` and `fieldOutcome`, where a field goes and what comes of it, with `renderFields_cons`;
  `mem_keys_renderFields` and `outcome_of_field`, that the last field that goes to a place is the one that is found there.
- **Parts.** `Pointwise`, what a part of a template is rendered as, and `pointwise_of_render`.
- **Inside.** `Part`, the parts at any depth, `Part.found`, where they are found in the output, and `render_pointwise`.
-/

namespace Workflow.Template

open DataFlow (bind_eq_ok map_eq_ok mapError_eq_ok)

variable {scope inner : Scope} {template output part image value held : Json} {items images : List Json}
  {fields out out' : Fields Json} {key name : String} {steps : List Path.Step} {index position : Nat}

/-! ## Keys -/

/-- A key is dynamic exactly if it is a name with the ending. -/
theorem dynamicName?_eq_some_iff : dynamicName? key = some name ↔ key = name ++ ".$" := by
  unfold dynamicName?
  split
  · rename_i rest ends
    have spelled : key = String.ofList rest.reverse ++ ".$" := by
      apply String.toList_inj.mp
      rw [← List.reverse_inj, ends]
      simp
    rw [Option.some.injEq]
    constructor
    · rintro rfl
      exact spelled
    · intro same
      exact (String.append_left_inj ".$").mp (spelled.symm.trans same)
  · rename_i other
    constructor
    · intro none
      cases none
    · rintro rfl
      exact absurd (by simp) (other name.toList.reverse)

/-- The key is no name with the ending of dynamic keys. -/
def IsStatic (key : String) : Prop := ∀ name, key ≠ name ++ ".$"

theorem dynamicName?_eq_none_iff : dynamicName? key = none ↔ IsStatic key := by
  rw [Option.eq_none_iff_forall_not_mem]
  exact forall_congr' fun name => not_congr dynamicName?_eq_some_iff

instance (key : String) : Decidable (IsStatic key) :=
  decidable_of_iff (dynamicName? key = none) dynamicName?_eq_none_iff

/-- **The dynamic key of a name comes after the name itself.** -/
theorem lt_dynamic (name : String) : name < name ++ ".$" := by
  have later : name.toList ++ [] < name.toList ++ ['.', '$'] := List.append_left_lt (List.nil_lt_cons _ _)
  rw [List.append_nil] at later
  rw [String.lt_iff_toList_lt, String.toList_append]
  exact later

/-! ## Fields -/

/-- The name under which a field shows in the output. -/
def outputName (key : String) : String := (dynamicName? key).getD key

/-- What comes of a field: the value of the expression under a dynamic key, and else the output of a template. -/
def fieldOutcome (scope : Scope) (key : String) (value : Json) : Except Error Json :=
  if (dynamicName? key).isSome then evaluate scope key value else render scope value

theorem outputName_dynamic (name : String) : outputName (name ++ ".$") = name := by
  rw [outputName, dynamicName?_eq_some_iff.mpr rfl, Option.getD_some]

theorem outputName_static (h : IsStatic key) : outputName key = key := by
  rw [outputName, dynamicName?_eq_none_iff.mpr h, Option.getD_none]

theorem fieldOutcome_dynamic (scope : Scope) (name : String) (value : Json) :
    fieldOutcome scope (name ++ ".$") value = evaluate scope (name ++ ".$") value := by
  rw [fieldOutcome, dynamicName?_eq_some_iff.mpr rfl, Option.isSome_some, if_pos rfl]

theorem fieldOutcome_static (h : IsStatic key) (scope : Scope) (value : Json) :
    fieldOutcome scope key value = render scope value := by
  rw [fieldOutcome, dynamicName?_eq_none_iff.mpr h]
  rfl

/-- Two keys at most show under a name: the name itself and its dynamic key. -/
theorem outputName_eq_iff : outputName key = name ↔ key = name ++ ".$" ∨ (key = name ∧ IsStatic name) := by
  cases dynamic : dynamicName? key with
  | some own =>
      obtain rfl := dynamicName?_eq_some_iff.mp dynamic
      rw [outputName_dynamic]
      constructor
      · rintro rfl
        exact Or.inl rfl
      · rintro (same | ⟨rfl, isStatic⟩)
        · exact (String.append_left_inj ".$").mp same
        · exact absurd rfl (isStatic own)
  | none =>
      have isStatic := dynamicName?_eq_none_iff.mp dynamic
      rw [outputName_static isStatic]
      constructor
      · rintro rfl
        exact Or.inr ⟨rfl, isStatic⟩
      · rintro (rfl | ⟨same, -⟩)
        · exact absurd rfl (isStatic name)
        · exact same

/-- **One field after the other is put into the output.** -/
theorem renderFields_cons (scope : Scope) (position : Nat) (out : Fields Json) (key : String) (value : Json)
    (rest : Fields Json) : renderFields scope position out ((key, value) :: rest) =
      fieldOutcome (scope.at position) key value >>= fun result =>
        renderFields scope (position + 1) (out.set (outputName key) result) rest := by
  rw [renderFields, fieldOutcome, outputName]
  cases dynamicName? key with
  | some name =>
      rw [Option.isSome_some, if_pos rfl, Option.getD_some]
      cases evaluate (scope.at position) key value <;> rfl
  | none =>
      rw [Option.getD_none]
      show _ = render (scope.at position) value >>= _
      cases render (scope.at position) value <;> rfl

theorem sorted_renderFields (rendered : renderFields scope position out fields = .ok out') (sorted : out.Sorted) :
    out'.Sorted := by
  induction fields generalizing position out with
  | nil =>
      cases rendered
      exact sorted
  | cons entry rest ih =>
      rw [renderFields_cons] at rendered
      obtain ⟨result, -, rendered⟩ := bind_eq_ok.mp rendered
      exact ih rendered (sorted.set _ _)

/-- The output has the names that its fields are put in under. -/
theorem mem_keys_renderFields (rendered : renderFields scope position out fields = .ok out') :
    name ∈ out'.keys ↔ name ∈ out.keys ∨ ∃ entry ∈ fields, outputName entry.1 = name := by
  induction fields generalizing position out with
  | nil =>
      cases rendered
      exact ⟨Or.inl, fun h => h.elim id fun ⟨_, inside, _⟩ => absurd inside List.not_mem_nil⟩
  | cons entry rest ih =>
      rw [renderFields_cons] at rendered
      obtain ⟨result, -, rendered⟩ := bind_eq_ok.mp rendered
      rw [ih rendered, Fields.mem_keys_set, List.exists_mem_cons_iff, eq_comm (a := name), or_left_comm, or_assoc]

/-- Fields that go elsewhere leave what is found under a name. -/
theorem find?_renderFields_of_ne (rendered : renderFields scope position out fields = .ok out')
    (apart : ∀ entry ∈ fields, outputName entry.1 ≠ name) : out'.find? name = out.find? name := by
  induction fields generalizing position out with
  | nil =>
      cases rendered
      rfl
  | cons entry rest ih =>
      rw [renderFields_cons] at rendered
      obtain ⟨result, -, rendered⟩ := bind_eq_ok.mp rendered
      obtain ⟨first, others⟩ := List.forall_mem_cons.mp apart
      rw [ih rendered others, Fields.find?_set_of_ne out result (Ne.symm first)]

/-- **The last of the fields that go to one place is found there.** -/
theorem outcome_of_field (rendered : renderFields scope position out fields = .ok out')
    (there : fields[index]? = some (key, held)) :
    ∃ result, fieldOutcome (scope.at (position + index)) key held = .ok result ∧
      ((∀ later entry, index < later → fields[later]? = some entry → outputName entry.1 ≠ outputName key) →
        out'.find? (outputName key) = some result) := by
  induction fields generalizing position out index with
  | nil => cases there
  | cons entry rest ih =>
      rw [renderFields_cons] at rendered
      obtain ⟨first, outcome, rendered⟩ := bind_eq_ok.mp rendered
      cases index with
      | zero =>
          cases there
          refine ⟨first, outcome, fun last => ?_⟩
          have apart : ∀ entry ∈ rest, outputName entry.1 ≠ outputName key := by
            intro entry inside
            obtain ⟨later, found⟩ := List.getElem?_of_mem inside
            exact last (later + 1) entry (Nat.succ_pos later) found
          rw [find?_renderFields_of_ne rendered apart, Fields.find?_set_self]
      | succ index =>
          obtain ⟨result, outcome, found⟩ := ih rendered there
          rw [Nat.add_assoc, Nat.add_comm 1] at outcome
          refine ⟨result, outcome, fun last => found fun later entry before there' => ?_⟩
          exact last (later + 1) entry (Nat.succ_lt_succ before) there'

/-- Every item is rendered in its place. -/
theorem outcome_of_item (rendered : renderItems scope position items = .ok images) :
    images.length = items.length ∧ ∀ index item, items[index]? = some item →
      ∃ image, images[index]? = some image ∧ render (scope.at (position + index)) item = .ok image := by
  induction items generalizing position images with
  | nil =>
      cases rendered
      exact ⟨rfl, fun index item none => nomatch none⟩
  | cons first rest ih =>
      rw [renderItems] at rendered
      split at rendered
      · rename_i value outcome
        obtain ⟨others, remaining, rfl⟩ := map_eq_ok.mp rendered
        obtain ⟨length, each⟩ := ih remaining
        refine ⟨congrArg (· + 1) length, fun index item there => ?_⟩
        cases index with
        | zero =>
            cases there
            exact ⟨value, rfl, outcome⟩
        | succ index =>
            obtain ⟨image, found, outcome⟩ := each index item there
            rw [Nat.add_assoc, Nat.add_comm 1] at outcome
            exact ⟨image, found, outcome⟩
      · cases rendered

/-! ## Parts -/

/-- The value of the expression, as an intrinsic call if it is meant as one and else as a path. -/
def Place.Yields (place : Place) (value : Json) : Prop :=
  ∃ text, place.held = .str text ∧
    if Intrinsic.isIntrinsic text then Intrinsic.evaluate place.scope text = .ok value
    else Path.resolve text place.scope.data place.scope.context = .ok value

theorem Place.yields_of_evaluate {place : Place} (h : place.evaluate = .ok value) : place.Yields value := by
  obtain ⟨scope, key, held⟩ := place
  cases held with
  | str text =>
      refine ⟨text, rfl, ?_⟩
      rw [Place.evaluate, Template.evaluate] at h
      split at h
      · rename_i isCall
        rw [if_pos isCall]
        exact mapError_eq_ok.mp h
      · rename_i isPath
        rw [if_neg isPath]
        exact mapError_eq_ok.mp h
  | _ => cases h

/-- **What an object is rendered as.**  A name shows in the output if there is a dynamic key for it, or if it is itself a
static key; what it holds is what the expression yields if there is one, and else what the static field is rendered as. -/
structure RendersFields (scope : Scope) (fields out : Fields Json) : Prop where
  sorted : out.Sorted
  keys : ∀ name, name ∈ out.keys ↔ name ++ ".$" ∈ fields.keys ∨ (name ∈ fields.keys ∧ IsStatic name)
  evaluated : ∀ index name held, fields[index]? = some (name ++ ".$", held) →
    ∃ value, (Place.mk (scope.at index) (name ++ ".$") held).Yields value ∧ out.find? name = some value
  rendered : ∀ index name held, fields[index]? = some (name, held) → IsStatic name →
    ∃ value, render (scope.at index) held = .ok value ∧ (name ++ ".$" ∉ fields.keys → out.find? name = some value)

/-- **What an array is rendered as:** what each item is rendered as, in the same place. -/
structure RendersItems (scope : Scope) (items images : List Json) : Prop where
  length : images.length = items.length
  rendered : ∀ index item, items[index]? = some item →
    ∃ image, images[index]? = some image ∧ render (scope.at index) item = .ok image

/-- What a part of a template is rendered as; a part that is neither object nor array is copied. -/
def Pointwise (scope : Scope) : Json → Json → Prop
  | .obj fields, image => ∃ out, image = .obj out ∧ RendersFields scope fields out
  | .arr items, image => ∃ images, image = .arr images ∧ RendersItems scope items images
  | leaf, image => image = leaf

/-- The keys of the template are in order, so that the dynamic key of a name is the last to write to it. -/
theorem rendersFields_of_renderFields (sorted : fields.Sorted) (rendered : renderFields scope 0 [] fields = .ok out) :
    RendersFields scope fields out where
  sorted := sorted_renderFields rendered Fields.sorted_nil
  keys name := by
    rw [mem_keys_renderFields rendered]
    constructor
    · rintro (none | ⟨entry, inside, goes⟩)
      · exact absurd none List.not_mem_nil
      · have there : entry.1 ∈ fields.keys := List.mem_map_of_mem inside
        rcases outputName_eq_iff.mp goes with same | ⟨same, isStatic⟩
        · exact Or.inl (same ▸ there)
        · exact Or.inr ⟨same ▸ there, isStatic⟩
    · rintro (there | ⟨there, isStatic⟩)
      · obtain ⟨entry, inside, same⟩ := List.mem_map.mp there
        exact Or.inr ⟨entry, inside, outputName_eq_iff.mpr (Or.inl same)⟩
      · obtain ⟨entry, inside, same⟩ := List.mem_map.mp there
        exact Or.inr ⟨entry, inside, outputName_eq_iff.mpr (Or.inr ⟨same, isStatic⟩)⟩
  evaluated index name held there := by
    obtain ⟨value, outcome, found⟩ := outcome_of_field rendered there
    rw [fieldOutcome_dynamic, Nat.zero_add] at outcome
    rw [outputName_dynamic] at found
    refine ⟨value, Place.yields_of_evaluate outcome, found fun later entry before there' same => ?_⟩
    -- A later key is greater, but those that show under this name are the key itself and a lesser one.
    have greater : name ++ ".$" < entry.1 := Fields.Sorted.lt_of_getElem? sorted before there there'
    rcases outputName_eq_iff.mp same with e | ⟨e, -⟩
    · exact String.lt_irrefl _ (e ▸ greater)
    · exact String.lt_irrefl _ (String.lt_trans (lt_dynamic name) (e ▸ greater))
  rendered index name held there isStatic := by
    obtain ⟨value, outcome, found⟩ := outcome_of_field rendered there
    rw [fieldOutcome_static isStatic, Nat.zero_add] at outcome
    rw [outputName_static isStatic] at found
    refine ⟨value, outcome, fun alone => found fun later entry before there' same => ?_⟩
    -- A later key that shows under this name is its dynamic key, and there is none.
    have greater : name < entry.1 := Fields.Sorted.lt_of_getElem? sorted before there there'
    rcases outputName_eq_iff.mp same with e | ⟨e, -⟩
    · exact alone (e ▸ List.mem_map_of_mem (List.mem_of_getElem? there'))
    · exact String.lt_irrefl _ (e ▸ greater)

theorem pointwise_of_render (canonical : part.Canonical) (rendered : render scope part = .ok image) :
    Pointwise scope part image := by
  cases part with
  | obj fields =>
      rw [render] at rendered
      obtain ⟨out, fieldwise, rfl⟩ := map_eq_ok.mp rendered
      exact ⟨out, rfl, rendersFields_of_renderFields (Json.canonical_obj.mp canonical).1 fieldwise⟩
  | arr items =>
      rw [render] at rendered
      obtain ⟨images, itemwise, rfl⟩ := map_eq_ok.mp rendered
      obtain ⟨length, each⟩ := outcome_of_item itemwise
      simp only [Nat.zero_add] at each
      exact ⟨images, rfl, length, each⟩
  | _ =>
      cases rendered
      rfl

/-! ## Inside -/

/-- The parts of a template, at any depth, that are not under a dynamic key: the steps that lead to one, what it can see,
and what it is. -/
inductive Part : Scope → Json → List Path.Step → Scope → Json → Prop
  | self {scope : Scope} {template : Json} : Part scope template [] scope template
  | item {scope inner : Scope} {items : List Json} {index : Nat} {item part : Json} {steps : List Path.Step}
      (held : items[index]? = some item) (within : Part (scope.at index) item steps inner part) :
      Part scope (.arr items) (.index index :: steps) inner part
  | field {scope inner : Scope} {fields : Fields Json} {index : Nat} {key : String} {value part : Json}
      {steps : List Path.Step} (held : fields[index]? = some (key, value)) (isStatic : IsStatic key)
      (within : Part (scope.at index) value steps inner part) :
      Part scope (.obj fields) (.field key :: steps) inner part

/-- No expression takes the place of anything on the way: where the steps take a field, there is no dynamic key for it. -/
def Kept (template : Json) (steps : List Path.Step) : Prop :=
  ∀ before key after, steps = before ++ .field key :: after →
    Path.walk? (before ++ [.field (key ++ ".$")]) template = none

theorem Kept.tail {step : Path.Step} {child : Json} (kept : Kept template (step :: steps))
    (there : Path.child? step template = some child) : Kept child steps := by
  intro before key after split
  have outside := kept (step :: before) key after (congrArg (step :: ·) split)
  rw [List.cons_append, Path.walk?, there] at outside
  exact outside

/-- **Every part is rendered, and found in the output where it was in the template** unless an expression takes its place. -/
theorem Part.found (h : Part scope template steps inner part) (canonical : template.Canonical)
    (rendered : render scope template = .ok output) :
    Alike inner scope ∧ part.Canonical ∧ ∃ image, render inner part = .ok image ∧
      (Kept template steps → Path.walk? steps output = some image) := by
  induction h generalizing output with
  | self => exact ⟨⟨rfl, rfl⟩, canonical, output, rendered, fun _ => rfl⟩
  | @item scope inner items index item part steps held within ih =>
      obtain ⟨images, rfl, renders⟩ := pointwise_of_render canonical rendered
      obtain ⟨image, there, outcome⟩ := renders.rendered index item held
      have fine := Json.canonical_arr.mp canonical item (List.mem_of_getElem? held)
      obtain ⟨alike, fine, found, outcome, walks⟩ := ih fine outcome
      refine ⟨alike, fine, found, outcome, fun kept => ?_⟩
      show (images[index]?).bind (Path.walk? steps) = some found
      rw [there]
      exact walks (kept.tail held)
  | @field scope inner fields index key value part steps held isStatic within ih =>
      obtain ⟨out, rfl, renders⟩ := pointwise_of_render canonical rendered
      obtain ⟨sorted, parts⟩ := Json.canonical_obj.mp canonical
      have inside := List.mem_of_getElem? held
      obtain ⟨image, outcome, there⟩ := renders.rendered index key value held isStatic
      obtain ⟨alike, fine, found, outcome, walks⟩ := ih (parts _ inside) outcome
      refine ⟨alike, fine, found, outcome, fun kept => ?_⟩
      -- A dynamic key of the same name would write over the part; that the part is kept excludes it.
      have alone : key ++ ".$" ∉ fields.keys := by
        intro dynamic
        obtain ⟨value, present⟩ := (Fields.mem_keys_iff sorted).mp dynamic
        have absent : (Fields.find? fields (key ++ ".$")).bind (Path.walk? []) = none := kept [] key steps rfl
        rw [present] at absent
        cases absent
      show (Fields.find? out key).bind (Path.walk? steps) = some found
      rw [there alone]
      exact walks (kept.tail ((Fields.find?_eq_some_iff sorted).mpr inside))

/-- **A template is rendered pointwise.**  Every part of it that is not under a dynamic key sees the data and the context
object that the template sees, and is rendered: an object as an object with the names, and under each the value, that
`RendersFields` tells, an array item by item, anything else as itself.  The same steps lead to it in the output, unless an
expression takes the place of something on the way. -/
theorem render_pointwise (canonical : template.Canonical) (rendered : render scope template = .ok output)
    (within : Part scope template steps inner part) :
    Alike inner scope ∧ ∃ image, render inner part = .ok image ∧ Pointwise inner part image ∧
      (Kept template steps → Path.walk? steps output = some image) := by
  obtain ⟨alike, fine, image, outcome, walks⟩ := within.found canonical rendered
  exact ⟨alike, image, outcome, pointwise_of_render fine outcome, walks⟩

/-- Static and dynamic fields for one place, on the way and in the part; a name that keeps an ending of its own; and a value
with a key that would be dynamic in a template. -/
theorem render_pointwise_collided :
    let value : Json := .obj [("y.$", .str "$.z")]
    let scope : Scope := ⟨.obj [("x", value)], .null, default⟩
    let part : Json := .obj [("k", .int 2), ("k.$", .str "$.x"), ("n.$.$", .str "$.x"), ("s", .int 3)]
    let template : Json := .obj [("a", part), ("a.$", .str "$.x"), ("l", .arr [.null, part])]
    let image : Json := .obj [("k", value), ("n.$", value), ("s", .int 3)]
    let output : Json := .obj [("a", value), ("l", .arr [.null, image])]
    let inner : Scope := (scope.at 2).at 1
    template.Canonical ∧ render scope template = .ok output ∧ Part scope template [.field "l", .index 1] inner part ∧
      Kept template [.field "l", .index 1] ∧ Alike inner scope ∧
      ∃ image, render inner part = .ok image ∧ Pointwise inner part image ∧
        (Kept template [.field "l", .index 1] → Path.walk? [.field "l", .index 1] output = some image) := by
  intro value scope part template image output inner
  have canonical : template.Canonical := by
    simp only [template, part, Json.Canonical, Json.CanonicalFields, Json.CanonicalItems, Fields.Sorted, Fields.keys]
    decide
  have rendered : render scope template = .ok output := by cbv
  have within : Part scope template [.field "l", .index 1] inner part :=
    @Part.field scope inner _ 2 "l" _ part [.index 1] rfl (by decide) (.item rfl .self)
  have kept : Kept template [.field "l", .index 1] := by
    intro before key after split
    cases before with
    | nil =>
        cases split
        rfl
    | cons step before =>
        cases before with
        | nil => cases split
        | cons => simp at split
  exact ⟨canonical, rendered, within, kept, render_pointwise canonical rendered within⟩

end Workflow.Template
