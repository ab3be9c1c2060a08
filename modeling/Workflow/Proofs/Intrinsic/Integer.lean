import Workflow.Intrinsic.Eval
import Workflow.Proofs.Intrinsic.Grammar
import Workflow.Proofs.Json.Parts

/-!
# `Workflow.Proofs.Intrinsic.Integer` — integer arguments

An integer of a document has up to 64 bits, with or without a sign; an integer argument has a sign.  What is too great for
that is not refused but taken for the greatest one there is, in every function that takes integers.  So a sum is exact
unless one number is too great and the other one does not carry the sum beyond the range.

## Contents
- **Arguments.** `clamp_of_sound` and `integerArg_clamp`, and `integerPlaces`, where functions take integers, with
  `apply_clamp`: they all take the integers there in the same way.
- **Sums.** `applyName_mathAdd`, and `integers_exact_iff`, which says when a sum is exact or refused.
-/

namespace Workflow.Intrinsic

variable {role : String} {a b n : Int} {arguments : List Json} {place other : Nat}

/-! ## Arguments -/

/-- Of the integers that a document can hold, those beyond the range are taken for its end. -/
theorem clamp_of_sound (sound : (Json.int n).Sound) : clamp n = min n integerMax := by
  have least : integerMin ≤ n := sound.1
  have order : integerMin ≤ integerMax := by decide
  unfold clamp
  omega

theorem clamp_clamp (n : Int) : clamp (clamp n) = clamp n := by
  unfold clamp
  omega

theorem integerArg_clamp (role : String) (n : Int) : integerArg role (.int n) = integerArg role (.int (clamp n)) := by
  rw [integerArg, integerArg, clamp_clamp]

/-- The places at which a function takes integers. -/
def Function.integerPlaces : Function → List Nat
  | .arrayPartition | .arrayGetItem => [1]
  | .arrayRange | .mathRandom => [0, 1, 2]
  | .mathAdd => [0, 1]
  | _ => []

/-- To exchange one argument leaves the others. -/
theorem argument_set_of_ne (apart : place ≠ other) (arguments : List Json) (value : Json) :
    argument (arguments.set place value) other = argument arguments other := by
  rw [argument, argument, List.getElem?_set_ne apart]

theorem arity_set (least most : Nat) (arguments : List Json) (place : Nat) (value : Json) :
    arity least most (arguments.set place value) = arity least most arguments := by
  rw [arity, arity, List.length_set]

/-- Two values that a reader takes for the same can be exchanged wherever it reads. -/
theorem map_set {β : Type} {read : Json → β} {value value' : Json} (same : read value = read value')
    (arguments : List Json) (place other : Nat) :
    (arguments.set place value)[other]?.map read = (arguments.set place value')[other]?.map read := by
  by_cases here : place = other
  · subst here
    by_cases inside : place < arguments.length
    · rw [List.getElem?_set_self inside, List.getElem?_set_self inside]
      exact congrArg some same
    · have outside := Nat.le_of_not_lt inside
      rw [List.set_eq_of_length_le outside, List.set_eq_of_length_le outside]
  · rw [List.getElem?_set_ne here, List.getElem?_set_ne here]

theorem integerArg_set (role : String) (arguments : List Json) (place other : Nat) (n : Int) :
    integerArg role (argument (arguments.set place (.int n)) other) =
      integerArg role (argument (arguments.set place (.int (clamp n))) other) := by
  have same := map_set (integerArg_clamp role n) arguments place other
  have read : ∀ arguments, integerArg role (argument arguments other) =
      (arguments[other]?.map (integerArg role)).getD (integerArg role .null) := by
    intro arguments
    rw [argument]
    cases arguments[other]? <;> rfl
  rw [read, read, same]

theorem random_set (chance : Chance) (arguments : List Json) (place : Nat) (n : Int) :
    random chance (arguments.set place (.int n)) = random chance (arguments.set place (.int (clamp n))) := by
  have seeds := map_set (integerArg_clamp "seed" n) arguments place 2
  simp only [random, arity_set, integerArg_set _ _ _ _ n]
  -- A seed that is not given stays so; one that is given is read like the other.
  cases given : (arguments.set place (.int n))[2]? with
  | none =>
      rw [given] at seeds
      rw [Option.map_eq_none_iff.mp seeds.symm]
  | some seed =>
      rw [given] at seeds
      obtain ⟨seed', given', same⟩ := Option.map_eq_some_iff.mp seeds.symm
      simp only [given', same]

/-- **Every function takes an integer as `clamp` leaves it.** -/
theorem apply_clamp {f : Function} (takes : place ∈ f.integerPlaces) (chance : Chance) (arguments : List Json) (n : Int) :
    f.apply chance (arguments.set place (.int n)) = f.apply chance (arguments.set place (.int (clamp n))) := by
  cases f with
  | arrayPartition | arrayGetItem =>
      obtain rfl := List.mem_singleton.mp takes
      simp only [Function.apply, arity_set, argument_set_of_ne Nat.one_ne_zero, integerArg_set _ _ _ _ n]
  | arrayRange | mathAdd =>
      simp only [Function.apply, arity_set, integerArg_set _ _ _ _ n]
  | mathRandom => exact random_set chance arguments place n
  | _ => cases takes

/-! ## Sums -/

/-- **What a sum is:** that of the numbers as they are taken, or none if that lies beyond the range. -/
theorem applyName_mathAdd (chance : Chance) (a b : Int) : applyName "States.MathAdd" chance [.int a, .int b] =
    if integerMin ≤ clamp a + clamp b ∧ clamp a + clamp b ≤ integerMax then .ok (.int (clamp a + clamp b))
    else .error (.misuse "States.MathAdd" .overflow) := by
  have named : Function.ofName? "States.MathAdd" = some .mathAdd := by decide
  have applied : Function.mathAdd.apply chance [.int a, .int b] =
      if integerMin ≤ clamp a + clamp b ∧ clamp a + clamp b ≤ integerMax then .ok (.int (clamp a + clamp b))
      else .error .overflow := rfl
  rw [applyName, named]
  simp only [applied]
  split <;> rfl

/-- A sum within the range is exact unless one number is too great and the other does not make up for that. -/
theorem clamp_add_clamp_iff (ha : (Json.int a).Sound) (hb : (Json.int b).Sound) :
    (integerMin ≤ clamp a + clamp b ∧ clamp a + clamp b ≤ integerMax → clamp a + clamp b = a + b) ↔
      ¬ (integerMax < a ∧ b ≤ 0) ∧ ¬ (integerMax < b ∧ a ≤ 0) := by
  have leasta : -2 ^ 63 ≤ a := ha.1
  have leastb : -2 ^ 63 ≤ b := hb.1
  rw [clamp_of_sound ha, clamp_of_sound hb]
  unfold integerMin integerMax
  omega

/-- An argument is read as the integer that it is exactly if that lies within the range. -/
theorem integerArg_exact_iff (sound : (Json.int n).Sound) :
    (∀ role taken, integerArg role (.int n) = .ok taken → taken = n) ↔ n ≤ integerMax := by
  have read : ∀ role, integerArg role (.int n) = .ok (min n integerMax) := fun role =>
    congrArg Except.ok (clamp_of_sound sound)
  constructor
  · -- What is beyond the range is read as well, but as the end of it.
    intro exact
    have same := exact "" _ (read "")
    omega
  · intro inside role taken h
    cases (read role).symm.trans h
    omega

/-- **When integers are not altered.** Integers that a document can hold have the sum that `States.MathAdd` gives, or are
    refused by it, unless one of them lies beyond the range and the other one is not positive.  An argument is read as the
    integer that it is exactly if that lies within the range; beyond it, every function does with an integer what it does
    with the greatest one within. -/
theorem integers_exact_iff (chance : Chance) (ha : (Json.int a).Sound) (hb : (Json.int b).Sound) :
    ((applyName "States.MathAdd" chance [.int a, .int b] = .ok (.int (a + b)) ∨
        ∃ reason, applyName "States.MathAdd" chance [.int a, .int b] = .error (.misuse "States.MathAdd" reason)) ↔
      ¬ (integerMax < a ∧ b ≤ 0) ∧ ¬ (integerMax < b ∧ a ≤ 0)) ∧
    ((∀ role taken, integerArg role (.int a) = .ok taken → taken = a) ↔ a ≤ integerMax) ∧
    ∀ (f : Function) (place : Nat), place ∈ f.integerPlaces → ∀ arguments : List Json,
      f.apply chance (arguments.set place (.int a)) = f.apply chance (arguments.set place (.int (min a integerMax))) := by
  refine ⟨?_, integerArg_exact_iff ha, fun f place takes arguments => ?_⟩
  · rw [← clamp_add_clamp_iff ha hb, applyName_mathAdd]
    by_cases inside : integerMin ≤ clamp a + clamp b ∧ clamp a + clamp b ≤ integerMax
    · rw [if_pos inside]
      constructor
      · rintro (sum | ⟨reason, refused⟩) -
        · exact Json.int.inj (Except.ok.inj sum)
        · cases refused
      · intro exact
        rw [exact inside]
        exact Or.inl rfl
    · rw [if_neg inside]
      exact iff_of_true (Or.inr ⟨_, rfl⟩) fun h => absurd h inside
  · rw [← clamp_of_sound ha]
    exact apply_clamp takes chance arguments a

/-- Two integers within the range have their sum; one beyond it makes the sum with a positive one too great; and the item
    at an index beyond the range is sought at the end of it. -/
theorem integers_exact_iff_beyond :
    applyName "States.MathAdd" default [.int 9223372036854775806, .int 1] = .ok (.int 9223372036854775807) ∧
      (∃ reason, applyName "States.MathAdd" default [.int 18446744073709551615, .int 1] =
        .error (.misuse "States.MathAdd" reason)) ∧
      Function.arrayGetItem.apply default [.arr [], .int 18446744073709551615] =
        Function.arrayGetItem.apply default [.arr [], .int 9223372036854775807] := by
  obtain ⟨within, -, -⟩ := integers_exact_iff (a := 9223372036854775806) (b := 1) default (by decide) (by decide)
  obtain ⟨beyond, -, places⟩ := integers_exact_iff (a := 18446744073709551615) (b := 1) default (by decide) (by decide)
  refine ⟨?_, ?_, places .arrayGetItem 1 (by decide) [.arr [], .null]⟩
  · exact (within.mpr (by decide)).resolve_right fun ⟨_, refused⟩ => by cases refused
  · exact (beyond.mpr (by decide)).resolve_left fun sum => by cases sum

/-- The sum of 2⁶³ and -1, which lies within the range, is given as a smaller number. -/
theorem mathAdd_inexact :
    (Json.int 9223372036854775808).Sound ∧ (Json.int (-1)).Sound ∧
      integerMin ≤ 9223372036854775808 + -1 ∧ 9223372036854775808 + -1 ≤ integerMax ∧
      evaluate ⟨.null, .null, default⟩ "States.MathAdd(9223372036854775808, -1)" = .ok (.int 9223372036854775806) := by
  refine ⟨by decide, by decide, by decide, by decide, ?_⟩
  have great : Denotes "9223372036854775808" (.literal (.int 9223372036854775808)) :=
    denotes_numeral ⟨⟨'9', _, rfl, rfl⟩, List.all_eq_true.mp (by decide), rfl⟩
  have less : Denotes "-1" (.literal (.int (-1))) :=
    denotes_numeral ⟨⟨'-', _, rfl, rfl⟩, List.all_eq_true.mp (by decide), rfl⟩
  have named : Named "States.MathAdd".toList := by decide
  have parsed := parse_of_denotes named (List.cons_ne_nil _ _) (.cons great (.cons less .nil))
  have text : "States.MathAdd" ++ "(" ++ ", ".intercalate ["9223372036854775808", "-1"] ++ ")" =
      "States.MathAdd(9223372036854775808, -1)" := by decide
  rw [text] at parsed
  rw [evaluate, parsed]
  exact (applyName_mathAdd default 9223372036854775808 (-1)).trans (if_pos (by decide))

end Workflow.Intrinsic
