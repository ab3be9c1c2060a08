import Workflow.Choice.Eval
import Workflow.Proofs.Decimal.Whole
import Workflow.Proofs.Json.Parts

/-!
# `Workflow.Proofs.Choice.Numeric` — comparing whole numbers

The numeric operators compare doubles.  A whole number of 64 bits has up to 64 binary digits and a double 53,
so two different numbers can have one double: then they count as equal, and neither as less.  That is all that
can go wrong, since rounding keeps the order.

## Contents
- `Relation.Between`, what a relation says of whole numbers.
- `Operand.Gives`, the value of an operand, and `Comparison.eval_eq`.
- `holds_numeric`, what the operators decide, and `between_rounded_iff`, when that is what they say.
- `Comparison.numeric_iff`, for a variable and an operand that have whole numbers.
-/

namespace Workflow.Choice

open Decimal (rounded Short IsNearest rounded_mono rounded_eq_self isNearest_rounded Stands stands_ofInt
  lt_iff_of_stands beq_iff_of_stands)

/-- What a relation says of two whole numbers. -/
def Relation.Between : Relation → Int → Int → Prop
  | .equals, a, b => a = b
  | .lessThan, a, b => a < b
  | .greaterThan, a, b => a > b
  | .lessThanEquals, a, b => a ≤ b
  | .greaterThanEquals, a, b => a ≥ b

instance (relation : Relation) (a b : Int) : Decidable (relation.Between a b) :=
  match relation with
  | .equals => inferInstanceAs (Decidable (a = b))
  | .lessThan => inferInstanceAs (Decidable (a < b))
  | .greaterThan => inferInstanceAs (Decidable (a > b))
  | .lessThanEquals => inferInstanceAs (Decidable (a ≤ b))
  | .greaterThanEquals => inferInstanceAs (Decidable (a ≥ b))

theorem Relation.holds_compare_iff (relation : Relation) (a b : Int) :
    relation.holds (compare a b) = true ↔ relation.Between a b := by
  cases relation with
  | equals => exact beq_iff_eq.trans compare_eq_iff_eq
  | lessThan => exact beq_iff_eq.trans compare_lt_iff_lt
  | greaterThan => exact beq_iff_eq.trans compare_gt_iff_gt
  | lessThanEquals => exact bne_iff_ne.trans compare_le_iff_le
  | greaterThanEquals => exact bne_iff_ne.trans compare_ge_iff_ge

/-- The value that an operand has, given as it is or by a path. -/
def Operand.Gives (data context value : Json) : Operand → Prop
  | .literal own => own = value
  | .path text => Path.resolve text data context = .ok value

variable {data context value : Json} {operand : Operand} {a b : Int}

theorem Operand.Gives.eval (h : operand.Gives data context value) (operator : Operator) :
    operand.eval operator data context = .ok value := by
  cases operand with
  | literal own => exact congrArg Except.ok h
  | path text =>
      have found : Path.resolve text data context = .ok value := h
      rw [Operand.eval, found]
      rfl

/-- A variable and an operand that have values are compared. -/
theorem Comparison.eval_eq {text : String} {own : Json} (resolves : Path.resolve text data context = .ok own)
    (gives : operand.Gives data context value) (operator : Operator) :
    Comparison.eval data context ⟨text, operator, operand⟩ = .ok (operator.holds own value) := by
  rw [Comparison.eval, resolves, gives.eval]
  rfl

/-- Doubles that stand for whole numbers compare as those do. -/
theorem compareNumbers_of_stands {x y : Float} (hx : Stands x a) (hy : Stands y b) :
    compareNumbers x y = some (compare a b) := by
  simp only [compareNumbers, lt_iff_of_stands hx hy, beq_iff_of_stands hx hy, lt_iff_of_stands hy hx, Int.cast_lt,
    Int.cast_inj]
  obtain less | rfl | greater := lt_trichotomy a b
  · rw [if_pos less, compare_lt_iff_lt.mpr less]
  · rw [if_neg (lt_irrefl a), if_pos rfl, compare_eq_iff_eq.mpr rfl]
  · rw [if_neg greater.asymm, if_neg greater.ne', if_pos greater, compare_gt_iff_gt.mpr greater]

/-- **The numeric operators compare the rounded numbers.** -/
theorem holds_numeric (sound : (Json.int a).Sound) (sound' : (Json.int b).Sound) (relation : Relation) :
    (Operator.numeric relation).holds (.int a) (.int b) = decide (relation.Between (rounded a) (rounded b)) := by
  have order := compareNumbers_of_stands (stands_ofInt sound.1 sound.2) (stands_ofInt sound'.1 sound'.2)
  simp only [Operator.holds, related, Json.number?, order, Option.map_some, Option.getD_some]
  rw [Bool.eq_iff_iff, Relation.holds_compare_iff, decide_eq_true_iff]

theorem rounded_lt_iff (apart : rounded a = rounded b → a = b) : rounded a < rounded b ↔ a < b := by
  constructor
  · intro less
    by_contra notLess
    exact absurd (rounded_mono (not_lt.mp notLess)) (not_le.mpr less)
  · exact fun less => lt_of_le_of_ne (rounded_mono less.le) fun same => less.ne (apart same)

/-- Rounding keeps every relation just if it tells the numbers apart. -/
theorem between_rounded_iff :
    (∀ relation : Relation, relation.Between (rounded a) (rounded b) ↔ relation.Between a b) ↔
      (rounded a = rounded b → a = b) := by
  constructor
  · exact fun each => (each .equals).mp
  · intro apart relation
    have less := rounded_lt_iff apart
    have greater : rounded b < rounded a ↔ b < a := rounded_lt_iff fun same => (apart same.symm).symm
    cases relation with
    | equals => exact ⟨apart, congrArg rounded⟩
    | lessThan => exact less
    | greaterThan => exact greater
    | lessThanEquals => exact not_lt.symm.trans ((not_congr greater).trans not_lt)
    | greaterThanEquals => exact not_lt.symm.trans ((not_congr less).trans not_lt)

/-- **Comparisons of whole numbers compare what is left of them after rounding to the nearest number of 53 digits.**
So they are exact just if rounding tells the two numbers apart, and always for numbers of 53 digits. -/
theorem Comparison.numeric_iff (sound : (Json.int a).Sound) (sound' : (Json.int b).Sound) {text : String}
    (resolves : Path.resolve text data context = .ok (.int a)) (gives : operand.Gives data context (.int b)) :
    (IsNearest a (rounded a) ∧ IsNearest b (rounded b) ∧
      ∀ relation, Comparison.eval data context ⟨text, .numeric relation, operand⟩ =
        .ok (decide (relation.Between (rounded a) (rounded b)))) ∧
    ((∀ relation, Comparison.eval data context ⟨text, .numeric relation, operand⟩ =
        .ok (decide (relation.Between a b))) ↔ (rounded a = rounded b → a = b)) ∧
    (Short 53 a → Short 53 b → ∀ relation, Comparison.eval data context ⟨text, .numeric relation, operand⟩ =
        .ok (decide (relation.Between a b))) := by
  have decided (relation : Relation) : Comparison.eval data context ⟨text, .numeric relation, operand⟩ =
      .ok (decide (relation.Between (rounded a) (rounded b))) :=
    (eval_eq resolves gives _).trans (congrArg Except.ok (holds_numeric sound sound' relation))
  refine ⟨⟨isNearest_rounded a, isNearest_rounded b, decided⟩, ?_, ?_⟩
  · simp only [decided, Except.ok.injEq, decide_eq_decide]
    exact between_rounded_iff
  · intro short short' relation
    rw [decided, rounded_eq_self short, rounded_eq_self short']

/-- A number just beyond 53 digits is told apart from the greatest one, which is read by a path. -/
theorem Comparison.numeric_iff_greatest :
    (Json.int 9007199254740993).Sound ∧ (Json.int 18446744073709551615).Sound ∧
      Path.resolve "$.n" (.obj [("m", .int 18446744073709551615), ("n", .int 9007199254740993)]) .null =
        .ok (.int 9007199254740993) ∧
      (Operand.path "$.m").Gives (.obj [("m", .int 18446744073709551615), ("n", .int 9007199254740993)]) .null
        (.int 18446744073709551615) ∧
      ∀ relation, Comparison.eval (.obj [("m", .int 18446744073709551615), ("n", .int 9007199254740993)]) .null
        ⟨"$.n", .numeric relation, .path "$.m"⟩ =
          .ok (decide (relation.Between 9007199254740993 18446744073709551615)) := by
  have sound : (Json.int 9007199254740993).Sound := by decide
  have sound' : (Json.int 18446744073709551615).Sound := by decide
  have resolves : Path.resolve "$.n" (.obj [("m", .int 18446744073709551615), ("n", .int 9007199254740993)]) .null =
      .ok (.int 9007199254740993) := by cbv
  have gives : (Operand.path "$.m").Gives (.obj [("m", .int 18446744073709551615), ("n", .int 9007199254740993)]) .null
      (.int 18446744073709551615) := by
    show Path.resolve _ _ _ = _
    cbv
  have apart : rounded 9007199254740993 ≠ rounded 18446744073709551615 := by decide +kernel
  exact ⟨sound, sound', resolves, gives,
    (numeric_iff sound sound' resolves gives).2.1.mpr fun same => absurd same apart⟩

/-- Two numbers that are one apart have one double and count as equal. -/
theorem Comparison.equals_neighbour :
    (Json.int 9007199254740993).Sound ∧ (Json.int 9007199254740992).Sound ∧
      Comparison.eval (.obj [("n", .int 9007199254740993)]) .null
        ⟨"$.n", .numeric .equals, .literal (.int 9007199254740992)⟩ = .ok true ∧
      ¬ Relation.Between .equals 9007199254740993 9007199254740992 := by
  have sound : (Json.int 9007199254740993).Sound := by decide
  have sound' : (Json.int 9007199254740992).Sound := by decide
  have resolves : Path.resolve "$.n" (.obj [("n", .int 9007199254740993)]) .null = .ok (.int 9007199254740993) := by cbv
  have gives : (Operand.literal (.int 9007199254740992)).Gives (.obj [("n", .int 9007199254740993)]) .null
      (.int 9007199254740992) := rfl
  have same : rounded 9007199254740993 = rounded 9007199254740992 := by decide +kernel
  have holds := (holds_numeric sound sound' .equals).trans (decide_eq_true same)
  exact ⟨sound, sound', (eval_eq resolves gives _).trans (congrArg Except.ok holds), by decide⟩

end Workflow.Choice
