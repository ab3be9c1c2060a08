import Workflow.Intrinsic.Eval
import Workflow.Proofs.DataFlow

/-!
# `Workflow.Proofs.Intrinsic.Determined` — what a call depends on

Two functions ask chance: the one for identifiers, and the one for random numbers unless it is given a seed.  A call in
which neither is used that way depends only on its paths, however deep they stand in it: where these lead to the same
values, or fail alike, so does the call.

## Contents
- **Functions.** `AsksChance`, and `applyName_congr`: all other functions yield the same whatever the chance, as long as
  its seeded source is the same.
- **Calls.** `Term.Determined`, and `evalTerm_congr`: what a determined call depends on, with `evaluate_congr` for a text.
-/

namespace Workflow.Intrinsic

open DataFlow (bind_eq_ok map_eq_ok)

variable {a b : Scope} {name : String} {arguments : List Json} {f : Function} {chance chance' : Chance}

/-! ## Functions -/

theorem mem_table_of_ofName? (h : Function.ofName? name = some f) : (name, f) ∈ Function.table := by
  obtain ⟨before, after, split, -⟩ := List.lookup_eq_some_iff.mp h
  rw [split]
  exact List.mem_append_right before List.mem_cons_self

/-- A random number with a seed depends on nothing but the source of such numbers. -/
theorem random_seeded (seeded : 2 < arguments.length) (source : chance.SameSource chance') :
    random chance arguments = random chance' arguments := by
  have drawn : chance.drawn = chance'.drawn := congrArg (fun source seed bound => source seed bound % bound) source
  unfold random
  simp only [List.getElem?_eq_getElem seeded, drawn]

/-- All functions but two do not ask chance. -/
theorem apply_of_ne (notUuid : f ≠ .uuid) (notRandom : f ≠ .mathRandom) (chance chance' : Chance) (arguments : List Json) :
    f.apply chance arguments = f.apply chance' arguments := by
  cases f with
  | uuid => exact absurd rfl notUuid
  | mathRandom => exact absurd rfl notRandom
  | _ => rfl

/-- The name of a function that asks chance, unless it is one for random numbers that is given a seed. -/
def AsksChance (name : String) (count : Nat) : Prop :=
  name = "States.UUID" ∨ (name = "States.MathRandom" ∧ count ≤ 2)

instance (name : String) (count : Nat) : Decidable (AsksChance name count) := inferInstanceAs (Decidable (_ ∨ _))

theorem applyName_congr (h : ¬ AsksChance name arguments.length) (source : chance.SameSource chance') :
    applyName name chance arguments = applyName name chance' arguments := by
  unfold applyName
  cases named : Function.ofName? name with
  | none => rfl
  | some f =>
      have listed := mem_table_of_ofName? named
      have same : f.apply chance arguments = f.apply chance' arguments := by
        by_cases isUuid : f = .uuid
        · subst isUuid
          have called : name = "States.UUID" := by simpa [Function.table] using listed
          exact absurd (Or.inl called) h
        · by_cases isRandom : f = .mathRandom
          · subst isRandom
            have called : name = "States.MathRandom" := by simpa [Function.table] using listed
            have seeded : 2 < arguments.length := Nat.lt_of_not_le fun few => h (Or.inr ⟨called, few⟩)
            exact random_seeded seeded source
          · exact apply_of_ne isUuid isRandom chance chance' arguments
      show (f.apply chance arguments).mapError _ = (f.apply chance' arguments).mapError _
      rw [same]

/-! ## Calls -/

mutual
/-- No function in the argument asks chance. -/
def Term.Determined : Term → Prop
  | .literal _ | .path _ => True
  | .call name arguments => ¬ AsksChance name arguments.length ∧ Term.AllDetermined arguments
/-- No function in any of the arguments asks chance. -/
def Term.AllDetermined : List Term → Prop
  | [] => True
  | term :: rest => term.Determined ∧ Term.AllDetermined rest
end

/-- Neither the function that is called nor any in its arguments asks chance. -/
def Call.Determined (call : Call) : Prop := (Term.call call.name call.arguments).Determined

/-- A path leads to the same in both scopes, be it a value or an error. -/
def Agree (a b : Scope) (text : String) : Prop :=
  Path.resolve text a.data a.context = Path.resolve text b.data b.context

theorem length_evalTerms {scope : Scope} {terms : List Term} {position : Nat} {values : List Json}
    (h : evalTerms scope position terms = .ok values) : values.length = terms.length := by
  induction terms generalizing position values with
  | nil =>
      cases h
      rfl
  | cons term rest ih =>
      rw [evalTerms] at h
      split at h
      · obtain ⟨others, remaining, rfl⟩ := map_eq_ok.mp h
        exact congrArg (· + 1) (ih remaining)
      · cases h

mutual
/-- **A determined argument depends only on its paths,** however deep they stand in it. -/
theorem evalTerm_congr : ∀ (term : Term) (a b : Scope), a.chance.SameSource b.chance → term.Determined →
    (∀ text ∈ term.paths, Agree a b text) → evalTerm a term = evalTerm b term
  | .literal value, a, b, _, _, _ => by
      rw [evalTerm, evalTerm]
  | .path text, a, b, _, _, agree => by
      have same : Agree a b text := agree text (List.mem_singleton_self text)
      rw [evalTerm, evalTerm, same]
  | .call name arguments, a, b, source, determined, agree => by
      obtain ⟨asksNot, inside⟩ := determined
      rw [evalTerm, evalTerm, evalTerms_congr arguments a b 0 source inside agree]
      split
      · rename_i values evaluated
        rw [← length_evalTerms evaluated] at asksNot
        exact applyName_congr asksNot source
      · rfl
theorem evalTerms_congr : ∀ (terms : List Term) (a b : Scope) (position : Nat), a.chance.SameSource b.chance →
    Term.AllDetermined terms → (∀ text ∈ Term.pathsOf terms, Agree a b text) →
    evalTerms a position terms = evalTerms b position terms
  | [], a, b, position, _, _, _ => by
      rw [evalTerms, evalTerms]
  | term :: rest, a, b, position, source, determined, agree => by
      rw [Term.pathsOf, List.forall_mem_append] at agree
      -- Arguments have a chance of their own each, but see the same data and context object and share the seeded source.
      have first := evalTerm_congr term (a.at position) (b.at position) source determined.1 agree.1
      rw [evalTerms, evalTerms, first, evalTerms_congr rest a b (position + 1) source determined.2 agree.2]
end

/-- **A text that is read as a determined call depends only on the paths of the call;** any other depends on nothing. -/
theorem evaluate_congr {text : String} (source : a.chance.SameSource b.chance)
    (determined : ∀ call, Call.parse text = .ok call → call.Determined)
    (agree : ∀ call, Call.parse text = .ok call → ∀ path ∈ call.paths, Agree a b path) :
    evaluate a text = evaluate b text := by
  unfold evaluate
  cases parsed : Call.parse text with
  | error e => rfl
  | ok call => exact evalTerm_congr _ a b source (determined call parsed) (agree call parsed)

end Workflow.Intrinsic
