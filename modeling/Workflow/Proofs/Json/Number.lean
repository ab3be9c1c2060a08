import Workflow.Proofs.DataFlow
import Workflow.Proofs.Json.Parts
import Workflow.Proofs.Text.Reader

/-!
# `Workflow.Proofs.Json.Number` — how numbers are read

A number is read up to where it ends, so what follows does not matter unless it goes on with the number.  And what is read
is a number that a text can hold: a whole one that fits 64 bits, or a finite double.

## Contents
- **Ends.** `EndsNumber`, and `number_append`: a number is read the same in front of whatever ends it.
- **Whole numbers.** `outcome_number_toDigits`: the digits of a whole number are read as the number.
- **Bounds.** `IsNumber`, and `isNumber_number`: what is read is a sound number.
-/

namespace Workflow.Json

open Text Decimal

variable {negative : Bool} {digits : Nat} {start : Int} {value : Json} {cs rest tail : List Char}

/-! ## Ends -/

/-- The text does not go on with a number. -/
def EndsNumber : List Char → Prop
  | [] => True
  | c :: _ => c.isDigit = false ∧ c ≠ '.' ∧ c ≠ 'e' ∧ c ≠ 'E'

theorem takeWhile_append_ends {tail : List Char} (ends : EndsNumber tail) (cs : List Char) :
    (cs ++ tail).takeWhile Char.isDigit = cs.takeWhile Char.isDigit := by
  induction cs with
  | nil =>
      cases tail with
      | nil => rfl
      | cons c rest => simp [ends.1]
  | cons c rest ih => simp only [List.cons_append, List.takeWhile_cons, ih]

theorem dropWhile_append_ends {tail : List Char} (ends : EndsNumber tail) (cs : List Char) :
    (cs ++ tail).dropWhile Char.isDigit = cs.dropWhile Char.isDigit ++ tail := by
  induction cs with
  | nil =>
      cases tail with
      | nil => rfl
      | cons c rest => simp [ends.1]
  | cons c rest ih =>
      simp only [List.cons_append, List.dropWhile_cons, ih]
      split <;> rfl

theorem append_ne_cons {c : Char} (own : ∀ more, cs = c :: more → False) (next : ∀ more, tail = c :: more → False)
    (more : List Char) (h : cs ++ tail = c :: more) : False := by
  cases cs with
  | nil => exact next more h
  | cons first rest =>
      cases h
      exact own rest rfl

theorem EndsNumber.ne_cons (ends : EndsNumber tail) {c : Char} (mark : c = '.' ∨ c = 'e' ∨ c = 'E') (more : List Char)
    (h : tail = c :: more) : False := by
  subst h
  obtain ⟨-, point, small, capital⟩ := ends
  rcases mark with e | e | e
  · exact point e
  · exact small e
  · exact capital e

theorem head?_append_of_ends (ends : EndsNumber tail) {c : Char} (mark : c = '.' ∨ c = 'e' ∨ c = 'E') :
    (cs ++ tail).head? = some c ↔ cs.head? = some c := by
  cases cs with
  | nil =>
      refine ⟨fun h => ?_, fun h => nomatch h⟩
      obtain ⟨more, e⟩ := List.head?_eq_some_iff.mp h
      exact (ends.ne_cons mark more e).elim
  | cons first more => rfl

theorem scaled_of_ok {exponent : Int} (h : scaled negative digits exponent rest = .ok value) (other : List Char) :
    scaled negative digits exponent other = .ok value := by
  unfold scaled at h ⊢
  cases hscale : scale? digits exponent with
  | none =>
      rw [hscale] at h
      cases h
  | some x =>
      rw [hscale] at h
      exact h

theorem exponentValue_append (start : Nat) (after tail cs : List Char) :
    exponentValue start (after ++ tail) cs = (exponentValue start after cs).mapError (· ++ tail) := by
  induction cs generalizing start with
  | nil => rfl
  | cons c cs ih =>
      simp only [exponentValue]
      split
      · exact ih _
      · rw [DataFlow.mapError_error, List.append_assoc]

theorem afterSign_append (c : Char) (cs tail : List Char) :
    (afterSign (c :: cs ++ tail)).1 = (afterSign (c :: cs)).1 ++ tail := by
  simp only [afterSign, List.cons_append]
  split <;> rfl

theorem exponentDigits_append {down : Bool} (ends : EndsNumber tail)
    (h : remainder (exponentDigits negative digits start down cs) = .ok (value, rest)) :
    remainder (exponentDigits negative digits start down (cs ++ tail)) = .ok (value, rest ++ tail) := by
  cases cs with
  | nil => cases h
  | cons c more =>
      -- What follows begins with no digit, so the digits end where they ended before.
      have taken : (c :: (more ++ tail)).takeWhile Char.isDigit = (c :: more).takeWhile Char.isDigit :=
        takeWhile_append_ends ends (c :: more)
      have left : (c :: (more ++ tail)).dropWhile Char.isDigit = (c :: more).dropWhile Char.isDigit ++ tail :=
        dropWhile_append_ends ends (c :: more)
      simp only [exponentDigits, Rest.dropWhile, List.cons_append, List.head?_cons, taken, left,
        exponentValue_append] at h ⊢
      split at h
      · rename_i digit
        rw [if_pos digit]
        split at h
        · rename_i number hvalue
          rw [remainder_map_pair] at h
          obtain ⟨read, hread, e⟩ := DataFlow.map_eq_ok.mp h
          cases e
          simp only [hvalue, DataFlow.mapError_ok]
          rw [remainder_map_pair, scaled_of_ok hread]
          rfl
        · rename_i unread hvalue
          simp only [hvalue, DataFlow.mapError_error]
          split at h
          · cases h
          · rename_i small
            cases h
            rw [if_neg small]
            rfl
      · cases h

theorem exponent_append (ends : EndsNumber tail)
    (h : remainder (exponent negative digits start cs) = .ok (value, rest)) :
    remainder (exponent negative digits start (cs ++ tail)) = .ok (value, rest ++ tail) := by
  simp only [exponent, remainder_map_widen] at h ⊢
  cases cs with
  | nil => cases h
  | cons c more =>
      rw [afterSign_append]
      exact exponentDigits_append ends h

theorem exponentPart_append (ends : EndsNumber tail)
    (h : remainder (exponentPart negative digits start cs) = .ok (value, rest)) :
    remainder (exponentPart negative digits start (cs ++ tail)) = .ok (value, rest ++ tail) := by
  unfold exponentPart at h
  split at h
  · rw [remainder_map_after] at h
    rw [List.cons_append, exponentPart, remainder_map_after]
    exact exponent_append ends h
  · rw [remainder_map_after] at h
    rw [List.cons_append, exponentPart, remainder_map_after]
    exact exponent_append ends h
  · rename_i small capital
    rw [remainder_map_pair] at h
    obtain ⟨read, hread, e⟩ := DataFlow.map_eq_ok.mp h
    cases e
    rw [exponentPart, remainder_map_pair, scaled_of_ok hread]
    · rfl
    · exact append_ne_cons small (ends.ne_cons (by decide))
    · exact append_ne_cons capital (ends.ne_cons (by decide))

theorem fraction_append (ends : EndsNumber tail)
    (h : remainder (fraction negative digits start cs) = .ok (value, rest)) :
    remainder (fraction negative digits start (cs ++ tail)) = .ok (value, rest ++ tail) := by
  simp only [fraction, takeWhile_append_ends ends] at h ⊢
  split at h
  · cases h
  · rename_i some
    rw [remainder_map_widen] at h
    rw [if_neg some, remainder_map_widen, dropWhile_append_ends ends]
    exact exponentPart_append ends h

theorem numberTail_append {dropped : Nat} (ends : EndsNumber tail)
    (h : remainder (numberTail negative digits dropped cs) = .ok (value, rest)) :
    remainder (numberTail negative digits dropped (cs ++ tail)) = .ok (value, rest ++ tail) := by
  unfold numberTail at h
  split at h
  · rw [remainder_map_after] at h
    rw [List.cons_append, numberTail, remainder_map_after]
    exact fraction_append ends h
  · rename_i point
    rw [numberTail]
    · simp only [ne_eq, head?_append_of_ends ends (Or.inr (Or.inl rfl)),
        head?_append_of_ends ends (Or.inr (Or.inr rfl))] at h ⊢
      split at h
      · rename_i plain
        rw [if_pos plain]
        cases h
        rfl
      · rename_i marked
        rw [if_neg marked]
        exact exponentPart_append ends h
    · exact append_ne_cons point (ends.ne_cons (by decide))

/-- **Whatever follows a number, it is read the same,** as long as it does not go on with it. -/
theorem number_append (ends : EndsNumber tail) (h : outcome (number negative cs) = .ok (value, rest)) :
    outcome (number negative (cs ++ tail)) = .ok (value, rest ++ tail) := by
  cases cs with
  | nil => cases h
  | cons c more =>
      simp only [number, List.cons_append, takeWhile_append_ends ends] at h ⊢
      split at h
      · rename_i digit
        rw [if_pos digit]
        split at h
        · cases h
        · rename_i noZero
          rw [if_neg noZero, outcome_map_remainder, dropWhile_append_ends ends]
          rw [outcome_map_remainder] at h
          exact numberTail_append ends h
      · cases h

/-! ## Whole numbers -/

theorem significand_of_le {start : Nat} {digits : List Char} (h : Nat.ofDigitChars 10 digits start ≤ significandMax) :
    significand start digits = (Nat.ofDigitChars 10 digits start, []) := by
  induction digits generalizing start with
  | nil => simp [significand]
  | cons c rest ih =>
      rw [Nat.ofDigitChars_cons] at h ⊢
      have grows : 10 * start + (c.toNat - '0'.toNat) ≤
          Nat.ofDigitChars 10 rest (10 * start + (c.toNat - '0'.toNat)) := by
        rw [Nat.ofDigitChars_eq_ofDigitChars_zero]
        exact Nat.le_trans (Nat.le_mul_of_pos_left _ (Nat.pow_pos (by decide))) (Nat.le_add_right _ _)
      simp only [significand]
      rw [Nat.mul_comm start 10, if_pos (Nat.le_trans grows h)]
      exact ih h

/-- Only zero is printed with a leading zero. -/
theorem head?_toDigits {n : Nat} (positive : 0 < n) : (Nat.toDigits 10 n).head? ≠ some '0' := by
  induction n using Nat.base_induction 10 (by decide) with
  | single m small =>
      rw [Nat.toDigits_of_lt_base small]
      simp only [List.head?_cons, ne_eq, Option.some.injEq, Nat.digitChar_eq_zero]
      omega
  | digit m k small more ih =>
      rw [← Nat.toDigits_append_toDigits (by decide) more small, List.head?_append]
      cases hdigits : (Nat.toDigits 10 m).head? with
      | none => exact absurd (List.head?_eq_none_iff.mp hdigits) Nat.toDigits_ne_nil
      | some c => exact fun e => ih more (hdigits.trans e)

theorem numberTail_whole (ends : EndsNumber tail) (digits : Nat) :
    remainder (numberTail negative digits 0 tail) = .ok (whole negative digits, tail) := by
  rw [numberTail, if_pos]
  · rfl
  · refine ⟨rfl, fun h => ?_, fun h => ?_⟩
    · obtain ⟨more, e⟩ := List.head?_eq_some_iff.mp h
      exact (ends.ne_cons (by decide) more e).elim
    · obtain ⟨more, e⟩ := List.head?_eq_some_iff.mp h
      exact (ends.ne_cons (by decide) more e).elim
  · exact ends.ne_cons (by decide)

/-- **A whole number of 64 bits is read as it is printed.** -/
theorem outcome_number_toDigits {n : Nat} (fits : n ≤ significandMax) (negative : Bool) (ends : EndsNumber tail) :
    outcome (number negative (Nat.toDigits 10 n ++ tail)) = .ok (whole negative n, tail) := by
  have read : significand 0 (Nat.toDigits 10 n) = (n, []) := by
    rw [significand_of_le] <;> rw [Nat.ofDigitChars_ten_toDigits]
    exact fits
  have digits : ∀ c ∈ Nat.toDigits 10 n, c.isDigit = true :=
    fun c hc => Nat.isDigit_of_mem_toDigits (by decide) (by decide) hc
  -- Zero is the only number that is printed with a zero in front.
  have noZero : (Nat.toDigits 10 n).head? = some '0' → (Nat.toDigits 10 n).tail = [] := by
    intro leading
    cases Nat.eq_zero_or_pos n with
    | inl e => rw [e, Nat.toDigits_zero]; rfl
    | inr positive => exact absurd leading (head?_toDigits positive)
  cases hdigits : Nat.toDigits 10 n with
  | nil => exact absurd hdigits Nat.toDigits_ne_nil
  | cons c more =>
      rw [hdigits] at read digits noZero
      have taken : (more ++ tail).takeWhile Char.isDigit = more := by
        have none : tail.takeWhile Char.isDigit = [] := takeWhile_append_ends ends []
        rw [List.takeWhile_append_of_pos fun d hd => digits d (List.mem_cons_of_mem _ hd), none, List.append_nil]
      have left : (more ++ tail).dropWhile Char.isDigit = tail := by
        rw [List.dropWhile_append_of_pos fun d hd => digits d (List.mem_cons_of_mem _ hd)]
        exact dropWhile_append_ends ends []
      simp only [number, List.cons_append, taken, read]
      rw [if_pos (digits c List.mem_cons_self), if_neg, outcome_map_remainder, left]
      · exact numberTail_whole ends n
      · rintro ⟨rfl, further⟩
        have single : more = [] := noZero rfl
        rw [single] at further
        cases further

theorem ofNumber?_negative (h : outcome (number true cs) = .ok (value, [])) : ofNumber? ('-' :: cs) = some value := by
  obtain ⟨⟨r, shorter⟩, read, rfl⟩ := DataFlow.map_eq_ok.mp h
  simp only [ofNumber?, read]

theorem ofNumber?_positive (h : outcome (number false cs) = .ok (value, [])) : ofNumber? cs = some value := by
  obtain ⟨⟨r, shorter⟩, read, rfl⟩ := DataFlow.map_eq_ok.mp h
  unfold ofNumber?
  split
  · cases h
  · simp only [read]

/-- **An integer is read as it is printed.** -/
theorem ofNumber?_toString {n : Int} (sound : (Json.int n).Sound) : ofNumber? (toString n).toList = some (.int n) := by
  obtain ⟨lower, upper⟩ := sound
  have ends : EndsNumber [] := trivial
  cases n with
  | ofNat m =>
      have printed : (toString (Int.ofNat m)).toList = Nat.toDigits 10 m := Nat.toList_repr
      have fits : m < 2 ^ 64 := Int.ofNat_lt.mp upper
      have read := outcome_number_toDigits (Nat.le_pred_of_lt fits) false ends
      rw [List.append_nil] at read
      rw [printed, ofNumber?_positive read]
      rfl
  | negSucc m =>
      have printed : (toString (Int.negSucc m)).toList = '-' :: Nat.toDigits 10 (m + 1) := by
        rw [← Nat.toList_repr]
        exact String.toList_append
      have small : m + 1 ≤ 2 ^ 63 := by omega
      have fits : m + 1 ≤ Nat.pow 2 63 := small
      have read := outcome_number_toDigits (Nat.le_trans fits (by decide)) true ends
      rw [List.append_nil] at read
      rw [printed, ofNumber?_negative read, whole, if_pos rfl, if_neg (Nat.succ_ne_zero m), if_pos fits]
      rfl

/-! ## Bounds -/

/-- A sound number. -/
def IsNumber (value : Json) : Prop := value.Sound ∧ ((∃ n, value = .int n) ∨ ∃ x, value = .float x)

theorem significand_le {start : Nat} (h : start ≤ significandMax) (cs : List Char) :
    (significand start cs).1 ≤ significandMax := by
  induction cs generalizing start with
  | nil => exact h
  | cons c rest ih =>
      simp only [significand]
      split
      · rename_i fits
        exact ih fits
      · exact h

theorem scale?_finite {digits : Nat} {exponent : Int} {x : Float} (small : digits ≤ significandMax)
    (h : scale? digits exponent = some x) : x.isFinite = true := by
  have start : Bounded 14 (Float.ofNat digits) := ofNat_bounded (Nat.lt_of_le_pred (by decide) small)
  -- A negative exponent takes one division, or two for the least of them; neither leads out of the range.
  have once : ∀ k, Bounded 68 (Float.ofNat digits / powerOfTen k) :=
    fun k => div_bounded (by decide) (by decide) start (powerOfTen_above k) (by decide)
  have twice : ∀ k l, Bounded 122 (Float.ofNat digits / powerOfTen k / powerOfTen l) :=
    fun k l => div_bounded (by decide) (by decide) (once k) (powerOfTen_above l) (by decide)
  simp only [scale?] at h
  split at h
  · split at h
    · split at h
      · rename_i finite
        cases h
        exact finite
      · cases h
    · split at h
      · cases h
        exact isFinite_of_bounded start
      · cases h
  · split at h
    · cases h
      exact isFinite_of_bounded (once _)
    · split at h
      · cases h
        exact isFinite_of_bounded (twice _ _)
      · cases h
        decide +kernel

theorem isNumber_signed {x : Float} (finite : x.isFinite = true) : IsNumber (signed negative x) := by
  cases negative with
  | false => exact ⟨finite, Or.inr ⟨_, rfl⟩⟩
  | true => exact ⟨isFinite_neg finite, Or.inr ⟨_, rfl⟩⟩

theorem isNumber_scaled {exponent : Int} (small : digits ≤ significandMax)
    (h : scaled negative digits exponent rest = .ok value) : IsNumber value := by
  unfold scaled at h
  split at h
  · rename_i x hscale
    cases h
    exact isNumber_signed (scale?_finite small hscale)
  · cases h

theorem isNumber_exponentDigits {down : Bool} (small : digits ≤ significandMax)
    (h : remainder (exponentDigits negative digits start down cs) = .ok (value, rest)) : IsNumber value := by
  simp only [exponentDigits] at h
  split at h
  · cases h
  · split at h
    · split at h
      · rw [remainder_map_pair] at h
        obtain ⟨read, hread, e⟩ := DataFlow.map_eq_ok.mp h
        cases e
        exact isNumber_scaled small hread
      · split at h
        · cases h
        · cases h
          exact isNumber_signed (by decide +kernel)
    · cases h

theorem isNumber_exponentPart (small : digits ≤ significandMax)
    (h : remainder (exponentPart negative digits start cs) = .ok (value, rest)) : IsNumber value := by
  unfold exponentPart at h
  split at h
  · rw [remainder_map_after, exponent, remainder_map_widen] at h
    exact isNumber_exponentDigits small h
  · rw [remainder_map_after, exponent, remainder_map_widen] at h
    exact isNumber_exponentDigits small h
  · rw [remainder_map_pair] at h
    obtain ⟨read, hread, e⟩ := DataFlow.map_eq_ok.mp h
    cases e
    exact isNumber_scaled small hread

theorem isNumber_whole (small : digits ≤ significandMax) : IsNumber (whole negative digits) := by
  have upper : digits < 2 ^ 64 := Nat.lt_of_le_pred (by decide) small
  unfold whole
  split
  · split
    · have zero : (-0.0 : Float).isFinite = true := by decide +kernel
      exact ⟨zero, Or.inr ⟨_, rfl⟩⟩
    · split
      · rename_i fits
        have : digits ≤ 2 ^ 63 := fits
        exact ⟨⟨by omega, by omega⟩, Or.inl ⟨_, rfl⟩⟩
      · exact ⟨isFinite_neg (isFinite_ofNat upper), Or.inr ⟨_, rfl⟩⟩
  · exact ⟨⟨by omega, by omega⟩, Or.inl ⟨_, rfl⟩⟩

theorem isNumber_numberTail {dropped : Nat} (small : digits ≤ significandMax)
    (h : remainder (numberTail negative digits dropped cs) = .ok (value, rest)) : IsNumber value := by
  unfold numberTail at h
  split at h
  · rw [remainder_map_after] at h
    simp only [fraction] at h
    split at h
    · cases h
    · rw [remainder_map_widen] at h
      exact isNumber_exponentPart (significand_le small _) h
  · split at h
    · cases h
      exact isNumber_whole small
    · exact isNumber_exponentPart small h

/-- **What is read as a number is a sound number.** -/
theorem isNumber_number (h : outcome (number negative cs) = .ok (value, rest)) : IsNumber value := by
  unfold number at h
  split at h
  · cases h
  · split at h
    · simp only at h
      split at h
      · cases h
      · rw [outcome_map_remainder] at h
        exact isNumber_numberTail (significand_le (Nat.zero_le _) _) h
    · cases h

end Workflow.Json
