import Workflow.Template
import Workflow.Proofs.DataFlow
import Workflow.Proofs.Json.Parts

/-!
# `Workflow.Proofs.Template` — a template is rendered as its expressions evaluate

Two recursions go over a template: one evaluates the expressions in it, the other one lists them for the validator.  They
visit the same fields in the same order, so that the list tells whether a template can be rendered, and which expression
is to blame if it cannot.  Every expression has a chance of its own; apart from that they all see the same.

## Contents
- **Places.** `places`, the expressions of a template, each with the scope in which it is evaluated; `Place.Evaluates` and
  `Place.FailsWith`, what can come of one, and `evaluateAll`, what comes of several.
- **Rendering.** `settled_render`: a template settles as its expressions do one after the other.
- **No expressions.** `expressionsOfItems_eq_nil_iff` and its like, and `render_of_bare`: a template without expressions is
  left as it is.
- **Agreement.** `render_agrees`.
-/

namespace Workflow.Template

open DataFlow (mapError_eq_ok mapError_eq_error)

variable {scope : Scope} {template : Json} {items : List Json} {fields : List (String × Json)}

/-! ## Places -/

/-- An expression at its place in a template: what it can see there, the key above it, and what is held under the key. -/
structure Place where
  scope : Scope
  key : String
  held : Json

mutual
/-- The expressions of a template in the scopes in which they are evaluated, depth first. -/
def places (scope : Scope) : Json → List Place
  | .arr items => placesOfItems scope 0 items
  | .obj fields => placesOfFields scope 0 fields
  | _ => []
/-- The expressions of items, the first of which is at the given position. -/
def placesOfItems (scope : Scope) (position : Nat) : List Json → List Place
  | [] => []
  | item :: rest => places (scope.at position) item ++ placesOfItems scope (position + 1) rest
/-- The expressions of fields, the first of which is at the given position. -/
def placesOfFields (scope : Scope) (position : Nat) : List (String × Json) → List Place
  | [] => []
  | (key, value) :: rest =>
    (if (dynamicName? key).isSome then [⟨scope.at position, key, value⟩] else places (scope.at position) value)
      ++ placesOfFields scope (position + 1) rest
end

mutual
/-- The places hold the expressions of the template, in the same order. -/
theorem map_places (scope : Scope) : ∀ template : Json,
    (places scope template).map (fun place => (place.key, place.held)) = expressions template
  | .arr items => by
      rw [places, expressions, map_placesOfItems]
  | .obj fields => by
      rw [places, expressions, map_placesOfFields]
  | .null | .bool _ | .int _ | .float _ | .str _ => rfl
theorem map_placesOfItems (scope : Scope) (position : Nat) : ∀ items : List Json,
    (placesOfItems scope position items).map (fun place => (place.key, place.held)) = expressionsOfItems items
  | [] => rfl
  | item :: rest => by
      rw [placesOfItems, expressionsOfItems, List.map_append, map_places, map_placesOfItems]
theorem map_placesOfFields (scope : Scope) (position : Nat) : ∀ fields : List (String × Json),
    (placesOfFields scope position fields).map (fun place => (place.key, place.held)) = expressionsOfFields fields
  | [] => rfl
  | (key, value) :: rest => by
      rw [placesOfFields, expressionsOfFields, List.map_append, map_placesOfFields]
      split
      · rfl
      · rw [map_places]
end

/-- The scopes see the same data and the same context object. -/
def Alike (a b : Scope) : Prop := a.data = b.data ∧ a.context = b.context

mutual
/-- Every expression sees what the template sees. -/
theorem alike_places : ∀ (template : Json) (scope : Scope), ∀ place ∈ places scope template, Alike place.scope scope
  | .arr items, scope => by
      rw [places]
      exact alike_placesOfItems items scope 0
  | .obj fields, scope => by
      rw [places]
      exact alike_placesOfFields fields scope 0
  | .null, _ | .bool _, _ | .int _, _ | .float _, _ | .str _, _ => fun _ inside => absurd inside List.not_mem_nil
theorem alike_placesOfItems : ∀ (items : List Json) (scope : Scope) (position : Nat),
    ∀ place ∈ placesOfItems scope position items, Alike place.scope scope
  | [], _, _ => fun _ inside => absurd inside List.not_mem_nil
  | item :: rest, scope, position => by
      rw [placesOfItems]
      exact List.forall_mem_append.mpr ⟨alike_places item (scope.at position), alike_placesOfItems rest scope _⟩
theorem alike_placesOfFields : ∀ (fields : List (String × Json)) (scope : Scope) (position : Nat),
    ∀ place ∈ placesOfFields scope position fields, Alike place.scope scope
  | [], _, _ => fun _ inside => absurd inside List.not_mem_nil
  | (key, value) :: rest, scope, position => by
      rw [placesOfFields]
      refine List.forall_mem_append.mpr ⟨?_, alike_placesOfFields rest scope _⟩
      split
      · exact List.forall_mem_singleton.mpr ⟨rfl, rfl⟩
      · exact alike_places value (scope.at position)
end

namespace Place

variable {place : Place} {e : Error}

/-- The expression is a text that has a value, as an intrinsic call if it is meant as one and else as a path. -/
def Evaluates (place : Place) : Prop :=
  ∃ text, place.held = .str text ∧
    if Intrinsic.isIntrinsic text then ∃ value, Intrinsic.evaluate place.scope text = .ok value
    else ∃ value, Path.resolve text place.scope.data place.scope.context = .ok value

/-- Why the expression has no value.  Each reason names the key above the expression. -/
inductive FailsWith (place : Place) : Error → Prop where
  | notText (other : ∀ text, place.held ≠ .str text) : FailsWith place (.notText place.key)
  | intrinsic {text : String} {e : Intrinsic.Error} (held : place.held = .str text)
      (isCall : Intrinsic.isIntrinsic text = true) (failed : Intrinsic.evaluate place.scope text = .error e) :
      FailsWith place (.intrinsic place.key e)
  | path {text : String} {e : Path.Error} (held : place.held = .str text)
      (isPath : Intrinsic.isIntrinsic text = false)
      (failed : Path.resolve text place.scope.data place.scope.context = .error e) :
      FailsWith place (.path place.key e)

/-- What comes of the expression. -/
def evaluate (place : Place) : Except Error Json := Template.evaluate place.scope place.key place.held

theorem evaluates_iff : place.Evaluates ↔ ∃ value, place.evaluate = .ok value := by
  obtain ⟨scope, key, held⟩ := place
  cases held with
  | str text =>
      simp only [Evaluates, evaluate, Template.evaluate, Json.str.injEq, exists_eq_left']
      split <;> exact exists_congr fun value => mapError_eq_ok.symm
  | _ => exact iff_of_false (fun ⟨_, h, _⟩ => nomatch h) fun ⟨_, h⟩ => nomatch h

theorem failsWith_iff : place.FailsWith e ↔ place.evaluate = .error e := by
  obtain ⟨scope, key, held⟩ := place
  constructor
  · intro fails
    rw [evaluate]
    cases fails with
    | notText other =>
        cases held with
        | str text => exact absurd rfl (other text)
        | _ => rfl
    | intrinsic held isCall failed =>
        cases held
        rw [Template.evaluate, if_pos isCall, failed]
        rfl
    | path held isPath failed =>
        cases held
        rw [Template.evaluate, if_neg (ne_true_of_eq_false isPath), failed]
        rfl
  · intro failed
    cases held with
    | str text =>
        rw [evaluate, Template.evaluate] at failed
        split at failed
        · rename_i isCall
          obtain ⟨own, cause, rfl⟩ := mapError_eq_error.mp failed
          exact .intrinsic rfl isCall cause
        · rename_i isPath
          obtain ⟨own, cause, rfl⟩ := mapError_eq_error.mp failed
          exact .path rfl (eq_false_of_ne_true isPath) cause
    | _ =>
        cases failed
        exact .notText fun _ => Json.noConfusion

end Place

/-- Evaluates expressions one after the other, up to the first that fails. -/
def evaluateAll : List Place → Except Error Unit
  | [] => .ok ()
  | place :: rest => place.evaluate >>= fun _ => evaluateAll rest

theorem evaluateAll_append (first second : List Place) :
    evaluateAll (first ++ second) = evaluateAll first >>= fun _ => evaluateAll second := by
  induction first with
  | nil => rfl
  | cons place rest ih =>
      rw [List.cons_append, evaluateAll, evaluateAll, ih]
      cases place.evaluate <;> rfl

/-- Expressions can be evaluated in turn exactly if each of them can be. -/
theorem evaluateAll_eq_ok_iff {list : List Place} : evaluateAll list = .ok () ↔ ∀ place ∈ list, place.Evaluates := by
  induction list with
  | nil => exact iff_of_true rfl fun _ inside => absurd inside List.not_mem_nil
  | cons place rest ih =>
      rw [evaluateAll, List.forall_mem_cons, Place.evaluates_iff, ← ih]
      cases place.evaluate with
      | ok value => exact ⟨fun h => ⟨⟨value, rfl⟩, h⟩, And.right⟩
      | error e => exact iff_of_false (fun h => nomatch h) fun ⟨⟨_, h⟩, _⟩ => nomatch h

/-- The error is that of the first expression that fails. -/
theorem evaluateAll_eq_error_iff {list : List Place} {e : Error} : evaluateAll list = .error e ↔
    ∃ before place after, list = before ++ place :: after ∧ (∀ other ∈ before, other.Evaluates) ∧
      place.FailsWith e := by
  constructor
  · intro failed
    induction list with
    | nil => cases failed
    | cons place rest ih =>
        rw [evaluateAll] at failed
        cases outcome : place.evaluate with
        | error own =>
            rw [outcome] at failed
            cases failed
            exact ⟨[], place, rest, rfl, fun _ inside => absurd inside List.not_mem_nil, Place.failsWith_iff.mpr outcome⟩
        | ok value =>
            rw [outcome] at failed
            -- The expression that fails lies further on, and this one is among those that yield values.
            obtain ⟨before, culprit, after, rfl, good, fails⟩ := ih failed
            refine ⟨place :: before, culprit, after, rfl, ?_, fails⟩
            exact List.forall_mem_cons.mpr ⟨Place.evaluates_iff.mpr ⟨value, outcome⟩, good⟩
  · rintro ⟨before, place, after, rfl, good, fails⟩
    rw [evaluateAll_append, evaluateAll_eq_ok_iff.mpr good, evaluateAll]
    show place.evaluate >>= _ = _
    rw [Place.failsWith_iff.mp fails]
    rfl

/-! ## Rendering -/

/-- What came of something, apart from its value. -/
def settled {ε α : Type} (outcome : Except ε α) : Except ε Unit := outcome.map fun _ => ()

mutual
/-- **A template settles as its expressions do one after the other.** -/
theorem settled_render (scope : Scope) : ∀ template : Json,
    settled (render scope template) = evaluateAll (places scope template)
  | .arr items => by
      rw [render, places, ← settled_renderItems scope 0 items]
      cases renderItems scope 0 items <;> rfl
  | .obj fields => by
      rw [render, places, ← settled_renderFields scope 0 [] fields]
      cases renderFields scope 0 [] fields <;> rfl
  | .null | .bool _ | .int _ | .float _ | .str _ => rfl
theorem settled_renderItems (scope : Scope) (position : Nat) : ∀ items : List Json,
    settled (renderItems scope position items) = evaluateAll (placesOfItems scope position items)
  | [] => rfl
  | item :: rest => by
      rw [renderItems, placesOfItems, evaluateAll_append, ← settled_render, ← settled_renderItems]
      cases render (scope.at position) item with
      | error e => rfl
      | ok value => cases renderItems scope (position + 1) rest <;> rfl
theorem settled_renderFields (scope : Scope) (position : Nat) (output : Fields Json) : ∀ fields : List (String × Json),
    settled (renderFields scope position output fields) = evaluateAll (placesOfFields scope position fields)
  | [] => rfl
  | (key, value) :: rest => by
      rw [renderFields, placesOfFields, evaluateAll_append]
      cases dynamic : dynamicName? key with
      | some name =>
          have single : evaluateAll [⟨scope.at position, key, value⟩] = settled (evaluate (scope.at position) key value) := by
            rw [evaluateAll, Place.evaluate]
            cases evaluate (scope.at position) key value <;> rfl
          simp only [Option.isSome_some, if_true, single]
          cases evaluate (scope.at position) key value with
          | error e => rfl
          | ok result => exact settled_renderFields scope (position + 1) (output.set name result) rest
      | none =>
          simp only [Option.isSome_none, Bool.false_eq_true, if_false, ← settled_render]
          cases render (scope.at position) value with
          | error e => rfl
          | ok result => exact settled_renderFields scope (position + 1) (output.set key result) rest
end

/-! ## No expressions -/

theorem expressionsOfItems_eq_nil_iff : expressionsOfItems items = [] ↔ ∀ item ∈ items, expressions item = [] := by
  induction items with
  | nil => exact iff_of_true rfl fun _ inside => absurd inside List.not_mem_nil
  | cons item rest ih => rw [expressionsOfItems, List.append_eq_nil_iff, ih, List.forall_mem_cons]

theorem expressionsOfFields_eq_nil_iff : expressionsOfFields fields = [] ↔
    ∀ entry ∈ fields, dynamicName? entry.1 = none ∧ expressions entry.2 = [] := by
  induction fields with
  | nil => exact iff_of_true rfl fun _ inside => absurd inside List.not_mem_nil
  | cons entry rest ih =>
      rw [expressionsOfFields, List.append_eq_nil_iff, ih, List.forall_mem_cons]
      cases dynamicName? entry.1 <;> simp

/-- Items that are left as they are. -/
theorem renderItems_of_bare (bare : ∀ item ∈ items, ∀ scope, render scope item = .ok item) (scope : Scope)
    (position : Nat) : renderItems scope position items = .ok items := by
  induction items generalizing position with
  | nil => rfl
  | cons item rest ih =>
      obtain ⟨first, others⟩ := List.forall_mem_cons.mp bare
      rw [renderItems, first, ih others]
      rfl

/-- Fields that are left as they are are put in one after the other. -/
theorem renderFields_of_bare
    (bare : ∀ entry ∈ fields, dynamicName? entry.1 = none ∧ ∀ scope, render scope entry.2 = .ok entry.2) (scope : Scope)
    (position : Nat) (output : Fields Json) :
    renderFields scope position output fields = .ok (fields.foldl (fun output e => output.set e.1 e.2) output) := by
  induction fields generalizing position output with
  | nil => rfl
  | cons entry rest ih =>
      obtain ⟨⟨isStatic, first⟩, others⟩ := List.forall_mem_cons.mp bare
      rw [renderFields, isStatic, first]
      exact ih others (position + 1) _

/-- **A template without expressions is left as it is.** -/
theorem render_of_bare (canonical : template.Canonical) (bare : expressions template = []) (scope : Scope) :
    render scope template = .ok template := by
  induction template using Json.induction_parts generalizing scope with
  | leaf value leaf =>
      cases value with
      | arr items => cases leaf
      | obj fields => cases leaf
      | _ => rfl
  | arr items ih =>
      rw [expressions, expressionsOfItems_eq_nil_iff] at bare
      have parts := Json.canonical_arr.mp canonical
      rw [render, renderItems_of_bare fun item inside => ih item inside (parts item inside) (bare item inside)]
      rfl
  | obj fields ih =>
      rw [expressions, expressionsOfFields_eq_nil_iff] at bare
      obtain ⟨sorted, parts⟩ := Json.canonical_obj.mp canonical
      have rendered := renderFields_of_bare (fun entry inside =>
        ⟨(bare entry inside).1, ih entry inside (parts entry inside) (bare entry inside).2⟩) scope 0 []
      rw [render, rendered]
      exact congrArg (fun fields => Except.ok (Json.obj fields)) (Fields.ofList_of_sorted sorted)

/-! ## Agreement -/

/-- **What is listed for a template is what it is rendered by.**  The places hold the listed expressions in their order, and
    all see the data and the context object that the template sees.  The template can be rendered exactly if each
    expression is a text that has a value; if not, the error is that of the first expression that has none, and names the
    key above it.  A template without expressions is rendered as itself. -/
theorem render_agrees (scope : Scope) (template : Json) :
    (places scope template).map (fun place => (place.key, place.held)) = expressions template ∧
    (∀ place ∈ places scope template, Alike place.scope scope) ∧
    ((∃ output, render scope template = .ok output) ↔ ∀ place ∈ places scope template, place.Evaluates) ∧
    (∀ e, render scope template = .error e ↔
      ∃ before place after, places scope template = before ++ place :: after ∧ (∀ other ∈ before, other.Evaluates) ∧
        place.FailsWith e) ∧
    (template.Canonical → expressions template = [] → render scope template = .ok template) := by
  refine ⟨map_places scope template, alike_places template scope, ?_, fun e => ?_, fun canonical bare =>
    render_of_bare canonical bare scope⟩
  · rw [← evaluateAll_eq_ok_iff, ← settled_render]
    cases render scope template with
    | ok output => exact iff_of_true ⟨output, rfl⟩ rfl
    | error e => exact iff_of_false (fun ⟨_, h⟩ => nomatch h) fun h => nomatch h
  · rw [← evaluateAll_eq_error_iff, ← settled_render]
    cases render scope template with
    | ok output => exact iff_of_false (fun h => nomatch h) fun h => nomatch h
    | error own => exact ⟨fun h => congrArg _ (Except.error.inj h), fun h => congrArg _ (Except.error.inj h)⟩

/-- An expression within an item comes before the one under a later key, which is no text and to blame; and items and
    objects without expressions are copied. -/
theorem render_agrees_nested :
    let scope : Scope := ⟨.obj [("x", .int 1)], .null, default⟩
    let template : Json := .obj [("a", .arr [.null, .obj [("x.$", .str "$.x")]]), ("b.$", .int 5), ("c.$", .str "$.y")]
    let bare : Json := .obj [("a", .arr [.obj [("x", .str "$.x")], .null]), ("b", .int 5)]
    expressions template = [("x.$", .str "$.x"), ("b.$", .int 5), ("c.$", .str "$.y")] ∧
      render scope template = .error (.notText "b.$") ∧
      bare.Canonical ∧ expressions bare = [] ∧ render scope bare = .ok bare := by
  intro scope template bare
  have found : Path.resolve "$.x" scope.data scope.context = .ok (.int 1) := by cbv
  have first : (Place.mk (((scope.at 0).at 1).at 0) "x.$" (.str "$.x")).Evaluates := ⟨"$.x", rfl, .int 1, found⟩
  have second : (Place.mk (scope.at 1) "b.$" (.int 5)).FailsWith (.notText "b.$") := .notText fun _ => Json.noConfusion
  have fails := (render_agrees scope template).2.2.2.1
  have itself := (render_agrees scope bare).2.2.2.2
  have canonical : bare.Canonical := by
    simp only [bare, Json.Canonical, Json.CanonicalFields, Json.CanonicalItems, Fields.Sorted, Fields.keys]
    decide
  refine ⟨rfl, ?_, canonical, rfl, itself canonical rfl⟩
  exact (fails _).mpr ⟨_, _, _, rfl, List.forall_mem_singleton.mpr first, second⟩

end Workflow.Template
