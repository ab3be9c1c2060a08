import Workflow.Proofs.Intrinsic.Determined
import Workflow.Proofs.Intrinsic.PathArgument
import Workflow.Template

/-!
# `Workflow.Proofs.Template.Sources` — what a template reads

The validator lists the expressions of a template and the paths in each of them, and so knows all that a template can read:
data and a context object show in the output, or in the error, only through these paths.  Two inputs that no listed path
tells apart are therefore rendered alike, as long as no expression asks chance.

## Contents
- **Expressions.** `sourcesOf` and `sources`, the paths that are listed, and `evaluate_congr`.
- **Templates.** `render_congr`: a template is rendered alike where its expressions are evaluated alike; and
  `render_depends_on_sources`.
-/

namespace Workflow.Template

open Intrinsic (Agree Call isIntrinsic)

variable {a b : Scope} {template held : Json} {key : String}

/-! ## Expressions -/

/-- The paths in what is held under a dynamic key: the path that it is, or those of the call that it is meant as. -/
def sourcesOf : Json → List String
  | .str text =>
    if isIntrinsic text then
      match Call.parse text with
      | .ok call => call.paths
      | .error _ => []
    else [text]
  | _ => []

/-- The paths in the expressions of a template. -/
def sources (template : Json) : List String := (expressions template).flatMap fun entry => sourcesOf entry.2

/-- What is held under a dynamic key does not ask chance. -/
def Determined : Json → Prop
  | .str text => isIntrinsic text = true → ∀ call, Call.parse text = .ok call → call.Determined
  | _ => True

/-- **An expression that does not ask chance depends only on its paths.** -/
theorem evaluate_congr (source : a.chance.SameSource b.chance) (determined : Determined held)
    (agree : ∀ path ∈ sourcesOf held, Agree a b path) (key : String) : evaluate a key held = evaluate b key held := by
  cases held with
  | str text =>
      rw [evaluate, evaluate]
      rw [sourcesOf] at agree
      by_cases isCall : isIntrinsic text = true
      · rw [if_pos isCall] at agree ⊢
        have same : Intrinsic.evaluate a text = Intrinsic.evaluate b text := by
          refine Intrinsic.evaluate_congr source (determined isCall) fun call parsed => ?_
          rw [parsed] at agree
          exact agree
        rw [if_pos isCall, same]
      · rw [if_neg isCall] at agree ⊢
        have same : Agree a b text := agree text (List.mem_singleton_self text)
        rw [if_neg isCall, same]
  | _ => rfl

/-! ## Templates -/

/-- The entries are evaluated alike, whatever the chance of each of them, as long as the seeded source is the same. -/
def EvaluateAlike (a b : Scope) (entries : List (String × Json)) : Prop :=
  ∀ entry ∈ entries, ∀ chance chance' : Chance, chance.SameSource a.chance → chance'.SameSource b.chance →
    evaluate { a with chance := chance } entry.1 entry.2 = evaluate { b with chance := chance' } entry.1 entry.2

theorem evaluateAlike_append {first second : List (String × Json)} :
    EvaluateAlike a b (first ++ second) ↔ EvaluateAlike a b first ∧ EvaluateAlike a b second :=
  List.forall_mem_append

mutual
/-- **A template is rendered alike where its expressions are evaluated alike,** however deep they stand in it. -/
theorem render_congr : ∀ (template : Json) (a b : Scope), EvaluateAlike a b (expressions template) →
    render a template = render b template
  | .arr items, a, b, alike => by
      rw [render, render, renderItems_congr items a b 0 alike]
  | .obj fields, a, b, alike => by
      rw [render, render, renderFields_congr fields a b 0 [] alike]
  | .null, _, _, _ | .bool _, _, _, _ | .int _, _, _, _ | .float _, _, _, _ | .str _, _, _, _ => rfl
theorem renderItems_congr : ∀ (items : List Json) (a b : Scope) (position : Nat),
    EvaluateAlike a b (expressionsOfItems items) → renderItems a position items = renderItems b position items
  | [], _, _, _, _ => rfl
  | item :: rest, a, b, position, alike => by
      rw [expressionsOfItems, evaluateAlike_append] at alike
      have first := render_congr item (a.at position) (b.at position) alike.1
      rw [renderItems, renderItems, first, renderItems_congr rest a b (position + 1) alike.2]
theorem renderFields_congr : ∀ (fields : List (String × Json)) (a b : Scope) (position : Nat) (output : Fields Json),
    EvaluateAlike a b (expressionsOfFields fields) →
      renderFields a position output fields = renderFields b position output fields
  | [], _, _, _, _, _ => rfl
  | (key, value) :: rest, a, b, position, output, alike => by
      rw [expressionsOfFields, evaluateAlike_append] at alike
      obtain ⟨here, beyond⟩ := alike
      have later := fun output => renderFields_congr rest a b (position + 1) output beyond
      rw [renderFields, renderFields]
      cases dynamic : dynamicName? key with
      | some name =>
          rw [dynamic] at here
          have first : evaluate (a.at position) key value = evaluate (b.at position) key value :=
            here (key, value) (List.mem_singleton_self _) _ _ (a.chance.sameSource_at position)
              (b.chance.sameSource_at position)
          simp only [first, later]
      | none =>
          rw [dynamic] at here
          have first := render_congr value (a.at position) (b.at position) here
          simp only [first, later]
end

/-- **A template depends on data and context object only through its paths.**  If none of its expressions asks chance, and
each of its paths leads to the same in both scopes, be it a value or an error, then it is rendered to the same output in
both, or fails with the same error: what else is drawn may differ, but a source that is given a seed is the same. -/
theorem render_depends_on_sources (source : a.chance.SameSource b.chance)
    (determined : ∀ entry ∈ expressions template, Determined entry.2)
    (agree : ∀ path ∈ sources template,
      Path.resolve path a.data a.context = Path.resolve path b.data b.context) :
    render a template = render b template := by
  apply render_congr
  intro entry inside chance chance' first second
  have same : chance.SameSource chance' := first.trans (source.trans second.symm)
  refine evaluate_congr same (determined entry inside) (fun path listed => ?_) entry.1
  exact agree path (List.mem_flatMap.mpr ⟨entry, inside, listed⟩)

/-- A seeded random number within a call, a path that leads nowhere, and data that differ everywhere else. -/
theorem render_depends_on_sources_nested :
    let template : Json := .obj [
      ("l", .arr [.obj [("m.$", .str "States.Array($$.t, States.MathRandom(1, 9, $.n))")]]), ("p.$", .str "$.who")]
    let a : Scope := ⟨.obj [("n", .int 3), ("x", .int 1)], .obj [("t", .str "s")], default⟩
    let b : Scope := ⟨.obj [("n", .int 3), ("y", .null)], .obj [("s", .null), ("t", .str "s")],
      { (default : Chance) with number := fun _ => 7 }⟩
    (∀ entry ∈ expressions template, Determined entry.2) ∧ sources template = ["$$.t", "$.n", "$.who"] ∧
      (∀ path ∈ sources template, Path.resolve path a.data a.context = Path.resolve path b.data b.context) ∧
      render a template = render b template := by
  intro template a b
  -- The calls are put together from what their arguments denote, from the inside out.
  have inner : Intrinsic.Denotes "States.MathRandom(1, 9, $.n)"
      (.call "States.MathRandom" [.literal (.int 1), .literal (.int 9), .path "$.n"]) := by
    have one : Intrinsic.Numeral "1".toList (.int 1) := ⟨⟨'1', _, rfl, rfl⟩, List.all_eq_true.mp (by decide), rfl⟩
    have nine : Intrinsic.Numeral "9".toList (.int 9) := ⟨⟨'9', _, rfl, rfl⟩, List.all_eq_true.mp (by decide), rfl⟩
    have path : Intrinsic.Denotes "$.n" (.path "$.n") := Intrinsic.denotes_path rfl (by decide)
    have denotes := List.Forall₂.cons (Intrinsic.denotes_numeral one) (.cons (Intrinsic.denotes_numeral nine) (.cons path .nil))
    have text : "States.MathRandom(1, 9, $.n)" = "States.MathRandom" ++ "(" ++ ", ".intercalate ["1", "9", "$.n"] ++ ")" := by
      decide
    rw [text]
    exact Intrinsic.denotes_call (by decide) (List.cons_ne_nil _ _) denotes
  have parsed : Call.parse "States.Array($$.t, States.MathRandom(1, 9, $.n))" = .ok ⟨"States.Array",
      [.path "$$.t", .call "States.MathRandom" [.literal (.int 1), .literal (.int 9), .path "$.n"]]⟩ := by
    have path : Intrinsic.Denotes "$$.t" (.path "$$.t") := Intrinsic.denotes_path rfl (by decide)
    have text : "States.Array($$.t, States.MathRandom(1, 9, $.n))" =
        "States.Array" ++ "(" ++ ", ".intercalate ["$$.t", "States.MathRandom(1, 9, $.n)"] ++ ")" := by decide
    rw [text]
    exact Intrinsic.parse_of_denotes (by decide) (List.cons_ne_nil _ _) (.cons path (.cons inner .nil))
  have isCall : isIntrinsic "States.Array($$.t, States.MathRandom(1, 9, $.n))" = true := by decide
  have isPath : isIntrinsic "$.who" = false := by decide
  have listed : expressions template =
    [("m.$", .str "States.Array($$.t, States.MathRandom(1, 9, $.n))"), ("p.$", .str "$.who")] := rfl
  have paths : sources template = ["$$.t", "$.n", "$.who"] := by
    rw [sources, listed]
    simp only [List.flatMap_cons, List.flatMap_nil, sourcesOf, isCall, isPath, parsed]
    rfl
  have determined : ∀ entry ∈ expressions template, Determined entry.2 := by
    rw [listed]
    refine List.forall_mem_cons.mpr ⟨fun _ call read => ?_, List.forall_mem_singleton.mpr fun call => ?_⟩
    · rw [parsed] at read
      cases read
      exact ⟨by decide, trivial, ⟨by decide, trivial, trivial, trivial, trivial⟩, trivial⟩
    · rw [isPath] at call
      cases call
  have agree : ∀ path ∈ sources template,
      Path.resolve path a.data a.context = Path.resolve path b.data b.context := by
    rw [paths]
    have first : Path.resolve "$$.t" a.data a.context = Path.resolve "$$.t" b.data b.context := by cbv
    have second : Path.resolve "$.n" a.data a.context = Path.resolve "$.n" b.data b.context := by cbv
    have third : Path.resolve "$.who" a.data a.context = Path.resolve "$.who" b.data b.context := by cbv
    exact List.forall_mem_cons.mpr ⟨first, List.forall_mem_cons.mpr ⟨second, List.forall_mem_singleton.mpr third⟩⟩
  exact ⟨determined, paths, agree, render_depends_on_sources rfl determined agree⟩

end Workflow.Template
