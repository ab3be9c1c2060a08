import Mathlib

/-!
# `Workflow.Proofs.Decimal.Nearest` — whole numbers of 53 binary digits

A double keeps 53 binary digits.  A whole number that has more is rounded to the nearest number of 53 digits
with zeros after them, and of two that are equally near to the one whose last digit is even.

## Contents
- **Quotients.** `roundDiv`, and `roundDiv_nearest`: no other multiple of the unit is nearer.
- **Short numbers.** `Short`, the numbers with few digits, and `IsNearest`.
- **Rounding.** `rounded`, with `isNearest_rounded`; it keeps short numbers (`rounded_eq_self`) and the order
  (`rounded_mono`).
-/

namespace Workflow.Decimal

/-! ## Quotients -/

/-- A whole number divided by a unit, to the nearest quotient, and of two equally near ones to the even one. -/
def roundDiv (n unit : Nat) : Nat :=
  if 2 * (n % unit) < unit then n / unit
  else if 2 * (n % unit) = unit then n / unit + n / unit % 2
  else n / unit + 1

theorem roundDiv_one (n : Nat) : roundDiv n 1 = n := by
  simp [roundDiv, Nat.mod_one]

theorem roundDiv_mul_mul (n unit : Nat) {c : Nat} (positive : 0 < c) :
    roundDiv (n * c) (unit * c) = roundDiv n unit := by
  simp only [roundDiv, Nat.mul_mod_mul_right, Nat.mul_div_mul_right _ _ positive, ← Nat.mul_assoc,
    Nat.mul_lt_mul_right positive, Nat.mul_left_inj positive.ne']

theorem div_le_roundDiv (n unit : Nat) : n / unit ≤ roundDiv n unit := by
  unfold roundDiv
  split_ifs <;> omega

theorem roundDiv_le (n unit : Nat) : roundDiv n unit ≤ n / unit + 1 := by
  unfold roundDiv
  split_ifs <;> omega

/-- A multiple is below another, the same, the next one, or above that. -/
theorem multiple_cases (c q : Int) {unit : Int} (positive : 0 < unit) :
    c * unit + unit ≤ q * unit ∨ c = q ∨ c = q + 1 ∨ q * unit + 2 * unit ≤ c * unit := by
  have next {x y : Int} (h : x < y) : x * unit + unit ≤ y * unit := by
    simpa [Int.add_mul] using Int.mul_le_mul_of_nonneg_right h positive.le
  obtain below | rfl | above := lt_trichotomy c q
  · exact .inl (next below)
  · exact .inr (.inl rfl)
  · obtain rfl | above := eq_or_lt_of_le (Int.add_one_le_of_lt above)
    · exact .inr (.inr (.inl rfl))
    · have := next above
      rw [Int.add_mul] at this
      omega

/-- **No other multiple of the unit is nearer, and if one is as near the quotient is even.** -/
theorem roundDiv_nearest (n : Nat) {unit : Nat} (positive : 0 < unit) (c : Int) :
    ((n : Int) - roundDiv n unit * unit).natAbs ≤ ((n : Int) - c * unit).natAbs ∧
      (((n : Int) - roundDiv n unit * unit).natAbs = ((n : Int) - c * unit).natAbs →
        c = roundDiv n unit ∨ roundDiv n unit % 2 = 0) := by
  have rest := Nat.mod_lt n positive
  have parts : (n : Int) = (n / unit : Nat) * unit + (n % unit : Nat) := by
    rw [← Int.natCast_mul, ← Int.natCast_add, Nat.mul_comm, Nat.div_add_mod]
  have cases := multiple_cases c (n / unit : Nat) (Int.natCast_pos.mpr positive)
  unfold roundDiv
  generalize n / unit = q at parts cases
  generalize n % unit = r at rest parts
  rw [parts]
  split_ifs with less same
  · obtain below | rfl | rfl | above := cases
    · omega
    · simp
    · rw [Int.add_mul]; omega
    · omega
  · -- Both neighbours are half a unit away, and the even one is taken.
    have half : ((q : Int) * unit + r - (q + q % 2 : Nat) * unit).natAbs = r := by
      obtain even | odd := Nat.mod_two_eq_zero_or_one q
      · rw [even, Nat.add_zero]; omega
      · rw [odd, Int.natCast_add, Int.add_mul]; omega
    rw [half]
    refine ⟨?_, fun _ => .inr (by omega)⟩
    obtain below | rfl | rfl | above := cases
    · omega
    · omega
    · rw [Int.add_mul]; omega
    · omega
  · rw [Int.natCast_add, Int.add_mul]
    obtain below | rfl | rfl | above := cases
    · omega
    · omega
    · rw [Int.add_mul]; simp
    · omega

/-! ## Short numbers -/

/-- The number has at most so many binary digits before the zeros at its end. -/
def Short (places : Nat) (n : Int) : Prop := ∃ m k : Nat, m < 2 ^ places ∧ n.natAbs = m * 2 ^ k

/-- A number of 53 digits is the nearest one, and the last digit is even if another is as near. -/
def IsNearest (n r : Int) : Prop :=
  Short 53 r ∧ ∀ s, Short 53 s → (n - r).natAbs ≤ (n - s).natAbs ∧ ((n - r).natAbs = (n - s).natAbs → s = r ∨ Short 52 r)

variable {n r s a b : Int}

theorem short_neg {places : Nat} : Short places (-n) ↔ Short places n := by
  simp [Short]

theorem short_mul {places m : Nat} (some : 0 < places) (fits : m ≤ 2 ^ places) (k : Nat) :
    Short places ((m * 2 ^ k : Nat) : Int) := by
  cases fits.lt_or_eq with
  | inl lt => exact ⟨m, k, lt, Int.natAbs_natCast _⟩
  | inr eq => exact ⟨1, places + k, Nat.one_lt_two_pow some.ne', by rw [Int.natAbs_natCast, eq, Nat.pow_add, Nat.one_mul]⟩

theorem short_of_le {places : Nat} (some : 0 < places) (fits : n.natAbs ≤ 2 ^ places) : Short places n := by
  have h := short_mul some fits 0
  rw [Nat.pow_zero, Nat.mul_one] at h
  obtain ⟨m, k, lt, h⟩ := h
  exact ⟨m, k, lt, h⟩

/-- A short number that is great enough is a multiple of the unit. -/
theorem Short.dvd {place : Nat} (short : Short 53 s) (great : 2 ^ 52 * 2 ^ place ≤ s.natAbs) :
    ((2 ^ place : Nat) : Int) ∣ s := by
  obtain ⟨m, k, small, h⟩ := short
  have bounds : 2 ^ (52 + place) < 2 ^ (53 + k) := by
    rw [Nat.pow_add, Nat.pow_add]
    exact lt_of_le_of_lt (h ▸ great) (Nat.mul_lt_mul_of_pos_right small (Nat.two_pow_pos k))
  have le : 52 + place < 53 + k := (Nat.pow_lt_pow_iff_right (by decide)).mp bounds
  rw [Int.natCast_dvd, h]
  exact Nat.dvd_mul_left_of_dvd (Nat.pow_dvd_pow 2 (by omega)) m

theorem IsNearest.neg (h : IsNearest n r) : IsNearest (-n) (-r) := by
  refine ⟨short_neg.mpr h.1, fun s short => ?_⟩
  obtain ⟨le, tie⟩ := h.2 (-s) (short_neg.mpr short)
  rw [short_neg]
  constructor
  · omega
  · intro same
    exact (tie (by omega)).imp_left (by omega)

/-- What is nearest to a greater number is not less. -/
theorem IsNearest.mono (ha : IsNearest a r) (hb : IsNearest b s) (h : a < b) : r ≤ s := by
  have := (ha.2 s hb.1).1
  have := (hb.2 r ha.1).1
  omega

theorem IsNearest.eq_of_short (h : IsNearest n r) (short : Short 53 n) : r = n := by
  have := (h.2 n short).1
  omega

/-! ## Rounding -/

/-- The place of the last of 53 digits. -/
def lastPlace (n : Nat) : Nat := n.log2 - 52

/-- A magnitude, rounded to 53 binary digits. -/
def roundedMagnitude (n : Nat) : Nat := roundDiv n (2 ^ lastPlace n) * 2 ^ lastPlace n

/-- A whole number, rounded to 53 binary digits. -/
def rounded : Int → Int
  | .ofNat n => roundedMagnitude n
  | .negSucc n => -roundedMagnitude (n + 1)

/-- The bounds of a number of more than 53 digits, in units of its last place. -/
theorem lastPlace_bounds {n : Nat} (long : 2 ^ 53 ≤ n) :
    2 ^ 52 * 2 ^ lastPlace n ≤ n ∧ n < 2 ^ 53 * 2 ^ lastPlace n := by
  have positive : n ≠ 0 := by omega
  have log : 53 ≤ n.log2 := (Nat.le_log2 positive).mpr long
  unfold lastPlace
  rw [← Nat.pow_add, ← Nat.pow_add, show 52 + (n.log2 - 52) = n.log2 by omega,
    show 53 + (n.log2 - 52) = n.log2 + 1 by omega]
  exact ⟨Nat.log2_self_le positive, Nat.lt_log2_self⟩

theorem lastPlace_eq_zero {n : Nat} (few : n < 2 ^ 53) : lastPlace n = 0 := by
  unfold lastPlace
  obtain rfl | positive := Nat.eq_zero_or_pos n
  · rfl
  · have := (Nat.log2_lt positive.ne').mpr few
    omega

theorem roundedMagnitude_eq_self {n : Nat} (few : n < 2 ^ 53) : roundedMagnitude n = n := by
  rw [roundedMagnitude, lastPlace_eq_zero few, Nat.pow_zero, roundDiv_one, Nat.mul_one]

theorem roundDiv_lastPlace_bounds {n : Nat} (long : 2 ^ 53 ≤ n) :
    2 ^ 52 ≤ roundDiv n (2 ^ lastPlace n) ∧ roundDiv n (2 ^ lastPlace n) ≤ 2 ^ 53 := by
  obtain ⟨least, most⟩ := lastPlace_bounds long
  have positive := Nat.two_pow_pos (lastPlace n)
  constructor
  · exact ((Nat.le_div_iff_mul_le positive).mpr least).trans (div_le_roundDiv n _)
  · exact (roundDiv_le n _).trans ((Nat.div_lt_iff_lt_mul positive).mpr most)

theorem isNearest_self (short : Short 53 n) : IsNearest n n :=
  ⟨short, fun s _ => ⟨by omega, fun same => .inl (by omega)⟩⟩

theorem isNearest_roundedMagnitude (n : Nat) : IsNearest n (roundedMagnitude n) := by
  obtain few | long := Nat.lt_or_ge n (2 ^ 53)
  · rw [roundedMagnitude_eq_self few]
    exact isNearest_self (short_of_le (by decide) (by omega))
  obtain ⟨least, -⟩ := lastPlace_bounds long
  have le := (roundDiv_lastPlace_bounds long).2
  have nearest := roundDiv_nearest n (Nat.two_pow_pos (lastPlace n))
  refine ⟨short_mul (by decide) le _, fun s short => ?_⟩
  rw [roundedMagnitude, Int.natCast_mul]
  obtain small | great := Int.lt_or_le s (2 ^ 52 * 2 ^ lastPlace n : Nat)
  · -- The least multiple of the unit that has all its digits lies between.
    have near := (nearest (2 ^ 52 : Nat)).1
    rw [← Int.natCast_mul (2 ^ 52)] at near
    omega
  · obtain ⟨c, rfl⟩ := short.dvd (by omega : 2 ^ 52 * 2 ^ lastPlace n ≤ s.natAbs)
    obtain ⟨near, tie⟩ := nearest c
    rw [Int.mul_comm _ c]
    refine ⟨near, fun same => (tie same).imp (fun h => by rw [h]) fun even => ?_⟩
    -- An even quotient has a digit to spare.
    obtain ⟨half, h⟩ := Nat.dvd_of_mod_eq_zero even
    rw [← Int.natCast_mul, h, Nat.mul_comm 2 half, Nat.mul_assoc, ← Nat.pow_succ']
    exact short_mul (by decide) (by omega) _

/-- **A rounded number is the nearest that has 53 binary digits.** -/
theorem isNearest_rounded : ∀ n : Int, IsNearest n (rounded n)
  | .ofNat n => isNearest_roundedMagnitude n
  | .negSucc n => (isNearest_roundedMagnitude (n + 1)).neg

theorem rounded_mono (h : a ≤ b) : rounded a ≤ rounded b := by
  obtain rfl | lt := h.eq_or_lt
  · exact le_rfl
  · exact (isNearest_rounded a).mono (isNearest_rounded b) lt

theorem rounded_eq_self (short : Short 53 n) : rounded n = n := (isNearest_rounded n).eq_of_short short

end Workflow.Decimal
