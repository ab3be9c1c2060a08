import Workflow.Proofs.Decimal.Finite
import Workflow.Proofs.Decimal.Nearest

/-!
# `Workflow.Proofs.Decimal.Whole` — the double of a whole number

A double is converted from a whole number in one of two ways: if the number has few digits it is shifted, and
if it has many it is rounded at once.  In both ways the double has all its 53 digits, and its value is the number
rounded to them.  Doubles that have all their digits compare as their values do.

## Contents
- **Rounding.** `roundedMantissa_shift`: the bits shifted out say how to round the quotient.
- **Values.** `Full`, the doubles with all their digits, `value`, and `compare_eq`.
- **Doubles.** `Stands`, a double with all its digits and its value, with `lt_iff_of_stands` and `beq_iff_of_stands`.
- **Whole numbers.** `stands_small` and `stands_great`, the two ways, and `stands_ofInt`.
-/

namespace Workflow.Decimal

open Float.Model Float.Model.UnpackedFloat

/-! ## Rounding -/

/-- What a shifted significand knows of the number: the quotient, and on which side of the half the remainder is. -/
structure Remembers (em : ExtendedMantissa) (n unit : Nat) : Prop where
  quotient : em.mantissa = n / unit
  half : em.roundBit = true ↔ unit ≤ 2 * (n % unit)
  aside : em.stickyBit = true ↔ n % unit ≠ 0 ∧ 2 * (n % unit) ≠ unit

theorem remembers_start (n : Nat) : Remembers (ExtendedMantissa.ofMantissaAndAccuracy n .exact) n 1 where
  quotient := (Nat.div_one n).symm
  half := by simp [ExtendedMantissa.ofMantissaAndAccuracy, Nat.mod_one]
  aside := by simp [ExtendedMantissa.ofMantissaAndAccuracy, Nat.mod_one]

/-- The remainder by twice the unit. -/
theorem mod_mul_two (n unit : Nat) : n % (unit * 2) = n % unit + unit * (n / unit % 2) := Nat.mod_mul

theorem Remembers.shift {em : ExtendedMantissa} {n unit : Nat} (positive : 0 < unit) (h : Remembers em n unit) :
    Remembers em.shiftRightOne n (unit * 2) := by
  have rest := Nat.mod_lt n positive
  have parts := mod_mul_two n unit
  refine ⟨?_, ?_, ?_⟩
  · rw [← Nat.div_div_eq_div_mul, ← h.quotient]
    rfl
  · obtain even | odd := Nat.mod_two_eq_zero_or_one (n / unit)
    · rw [even, Nat.mul_zero] at parts
      simp [ExtendedMantissa.shiftRightOne, h.quotient, even]
      omega
    · rw [odd, Nat.mul_one] at parts
      simp [ExtendedMantissa.shiftRightOne, h.quotient, odd]
      omega
  · simp only [ExtendedMantissa.shiftRightOne, Bool.or_eq_true, h.half, h.aside]
    obtain even | odd := Nat.mod_two_eq_zero_or_one (n / unit)
    · rw [even, Nat.mul_zero] at parts
      omega
    · rw [odd, Nat.mul_one] at parts
      omega

theorem Remembers.roundedMantissa_eq {em : ExtendedMantissa} {n unit : Nat} (positive : 0 < unit)
    (h : Remembers em n unit) : em.roundedMantissa = roundDiv n unit := by
  have rest := Nat.mod_lt n positive
  obtain ⟨m, round, sticky⟩ := em
  obtain ⟨rfl, half, aside⟩ := h
  unfold roundDiv
  cases round <;> cases sticky <;> simp only [Bool.false_eq_true, false_iff, true_iff] at half aside
  · rw [if_pos (by omega)]
    rfl
  · rw [if_pos (by omega)]
    rfl
  · rw [if_neg (by omega), if_pos (by omega)]
    rfl
  · rw [if_neg (by omega), if_neg (by omega)]
    rfl

theorem roundedMantissa_shift (n shift : Nat) :
    (ExtendedMantissa.ofMantissaAndAccuracy n .exact >>> shift).roundedMantissa = roundDiv n (2 ^ shift) := by
  refine Remembers.roundedMantissa_eq (Nat.two_pow_pos shift) ?_
  show Remembers (shift.repeat ExtendedMantissa.shiftRightOne _) n (2 ^ shift)
  induction shift with
  | zero => exact remembers_start n
  | succ shift ih => exact ih.shift (Nat.two_pow_pos shift)

/-- Rounding an exact significand that has all its digits. -/
theorem roundWithAccuracy_exact (sign : Sign) {m : Nat} {e : Int} (wide : 2 ^ 52 ≤ m) (least : -1074 ≤ e) :
    roundWithAccuracy Format.binary64 sign m e .exact =
      settled sign (roundDiv m (2 ^ (m.log2 - 52))) (e + (m.log2 - 52 : Nat)) := by
  rw [roundWithAccuracy_settled, firstShift_eq wide least, roundedMantissa_shift]

/-! ## Values -/

/-- Zero, or a double that has all its digits and can be packed. -/
def Full : UnpackedFloat → Prop
  | .zero _ => True
  | .finite _ m e _ => m.log2 = 52 ∧ -1074 ≤ e ∧ e ≤ 971
  | _ => False

/-- The value of a finite double. -/
def value : UnpackedFloat → ℚ
  | .finite .positive m e _ => m * 2 ^ e
  | .finite .negative m e _ => -(m * 2 ^ e)
  | _ => 0

theorem settled_eq (sign : Sign) {m : Nat} {e : Int} (normal : m.log2 = 52) (positive : 0 < m) (least : -1074 ≤ e) :
    settled sign m e = .finite sign m e positive := by
  have wide : 2 ^ 52 ≤ m := normal ▸ Nat.log2_self_le positive.ne'
  simp [settled, firstShift_eq wide least, normal, positive.ne']

theorem settled_carry (sign : Sign) {e : Int} (least : -1074 ≤ e) :
    settled sign (2 ^ 53) e = .finite sign (2 ^ 52) (e + 1) (by decide) := by
  have shift : firstShift (2 ^ 53) e = 1 := by rw [firstShift_eq (by decide) least, Nat.log2_two_pow]
  simp only [settled, shift]
  exact dif_neg (by decide)

theorem settled_full {m : Nat} {e : Int} (enough : 2 ^ 52 ≤ m) (few : m ≤ 2 ^ 53) (least : -1074 ≤ e)
    (most : e ≤ 970) : Full (settled .positive m e) ∧ value (settled .positive m e) = m * 2 ^ e := by
  obtain lt | rfl := few.lt_or_eq
  · have normal : m.log2 = 52 := (Nat.log2_eq_iff (by omega)).mpr ⟨enough, lt⟩
    rw [settled_eq _ normal (by omega) least]
    exact ⟨⟨normal, least, by omega⟩, rfl⟩
  · rw [settled_carry _ least]
    refine ⟨⟨Nat.log2_two_pow, by omega, by omega⟩, ?_⟩
    rw [value, zpow_add_one₀ two_ne_zero]
    push_cast
    ring

theorem full_neg {u : UnpackedFloat} (h : Full u) : Full u.neg := by
  cases u <;> exact h

theorem value_neg (u : UnpackedFloat) : value u.neg = -value u := by
  cases u with
  | finite sign m e positive =>
      cases sign
      · exact (neg_neg _).symm
      · rfl
  | _ => exact neg_zero.symm

/-- Of two significands with all their digits the one further left is the greater. -/
theorem significand_lt {m m' : Nat} {e e' : Int} (normal : m.log2 = 52) (normal' : m'.log2 = 52) (positive : 0 < m')
    (h : e < e') : (m : ℚ) * 2 ^ e < m' * 2 ^ e' := by
  have most : (m : ℚ) < 2 ^ 53 := by
    have : m < 2 ^ (m.log2 + 1) := Nat.lt_log2_self
    rw [normal] at this
    exact_mod_cast this
  have least : (2 : ℚ) ^ 52 ≤ m' := by
    have := Nat.log2_self_le positive.ne'
    rw [normal'] at this
    exact_mod_cast this
  calc (m : ℚ) * 2 ^ e < 2 ^ 53 * 2 ^ e := by gcongr
    _ = 2 ^ 52 * 2 ^ (e + 1) := by rw [zpow_add_one₀ two_ne_zero]; ring
    _ ≤ 2 ^ 52 * 2 ^ e' := by gcongr; exacts [one_le_two, h]
    _ ≤ m' * 2 ^ e' := by gcongr

theorem compare_significands {m m' : Nat} (e e' : Int) (normal : m.log2 = 52) (normal' : m'.log2 = 52)
    (positive : 0 < m) (positive' : 0 < m') :
    (compare e e').then (compare m m') = compare ((m : ℚ) * 2 ^ e) (m' * 2 ^ e') := by
  obtain less | rfl | greater := lt_trichotomy e e'
  · rw [compare_lt_iff_lt.mpr less, compare_lt_iff_lt.mpr (significand_lt normal normal' positive' less)]
    rfl
  · have unit : (0 : ℚ) < 2 ^ e := by positivity
    rw [compare_eq_iff_eq.mpr rfl, Ordering.eq_then]
    obtain less | rfl | greater := lt_trichotomy m m'
    · rw [compare_lt_iff_lt.mpr less, compare_lt_iff_lt.mpr]
      exact mul_lt_mul_of_pos_right (Nat.cast_lt.mpr less) unit
    · rw [compare_eq_iff_eq.mpr rfl, compare_eq_iff_eq.mpr rfl]
    · rw [compare_gt_iff_gt.mpr greater, compare_gt_iff_gt.mpr]
      exact mul_lt_mul_of_pos_right (Nat.cast_lt.mpr greater) unit
  · rw [compare_gt_iff_gt.mpr greater, compare_gt_iff_gt.mpr (significand_lt normal' normal positive greater)]
    rfl

theorem compare_neg_neg (x y : ℚ) : compare (-x) (-y) = (compare x y).swap := by
  obtain less | rfl | greater := lt_trichotomy x y
  · rw [compare_lt_iff_lt.mpr less, compare_gt_iff_gt.mpr (neg_lt_neg less)]
    rfl
  · rw [compare_eq_iff_eq.mpr rfl, compare_eq_iff_eq.mpr rfl]
    rfl
  · rw [compare_gt_iff_gt.mpr greater, compare_lt_iff_lt.mpr (neg_lt_neg greater)]
    rfl

/-- **Doubles with all their digits compare as their values do.** -/
theorem compare_eq {u v : UnpackedFloat} (hu : Full u) (hv : Full v) :
    u.compare v = some (compare (value u) (value v)) := by
  have size {m : Nat} {e : Int} (positive : 0 < m) : (0 : ℚ) < m * 2 ^ e := by positivity
  have less {x y : ℚ} (h : x < y) : some .lt = some (compare x y) := congrArg some (compare_lt_iff_lt.mpr h).symm
  have greater {x y : ℚ} (h : y < x) : some .gt = some (compare x y) := congrArg some (compare_gt_iff_gt.mpr h).symm
  cases u with
  | infinity | notANumber => exact hu.elim
  | zero sign =>
      cases v with
      | infinity | notANumber => exact hv.elim
      | zero sign' => exact congrArg some (compare_eq_iff_eq.mpr rfl).symm
      | finite sign' m' e' positive' =>
          cases sign'
          · exact greater (neg_lt_zero.mpr (size positive'))
          · exact less (size positive')
  | finite sign m e positive =>
      cases v with
      | infinity | notANumber => exact hv.elim
      | zero sign' =>
          cases sign
          · exact less (neg_lt_zero.mpr (size positive))
          · exact greater (size positive)
      | finite sign' m' e' positive' =>
          -- Two full significands of equal length: the exponents decide, and the digits if these are the same.
          have same := compare_significands e e' hu.1 hv.1 positive positive'
          cases sign <;> cases sign'
          · show some ((compare e e').then (compare m m')).swap = _
            rw [same, ← compare_neg_neg]
            rfl
          · exact less ((neg_lt_zero.mpr (size positive)).trans (size positive'))
          · exact greater ((neg_lt_zero.mpr (size positive')).trans (size positive))
          · exact congrArg some same

theorem unpack_pack_of_full {u : UnpackedFloat} (h : Full u) :
    UnpackedFloat.unpack Format.binary64 (UnpackedFloat.pack Format.binary64 u) = u := by
  cases u with
  | infinity | notANumber => exact h.elim
  | zero sign => cases sign <;> rfl
  | finite sign m e positive => exact unpack_pack_normal sign positive h.1 h.2.1 h.2.2

/-! ## Doubles -/

/-- The double has all its digits and the given value. -/
def Stands (x : Float) (v : ℚ) : Prop := Full x.toModel.unpack ∧ value x.toModel.unpack = v

theorem stands_pack {u : UnpackedFloat} (h : Full u) : Stands (.ofModel (.pack u)) (value u) := by
  have same : UnpackedFloat.unpack Format.binary64 (UnpackedFloat.pack Format.binary64 u) = u := unpack_pack_of_full h
  show Full (UnpackedFloat.unpack _ (UnpackedFloat.pack _ u)) ∧ value (UnpackedFloat.unpack _ (UnpackedFloat.pack _ u)) = _
  rw [same]
  exact ⟨h, rfl⟩

theorem stands_neg {x : Float} {v : ℚ} (h : Stands x v) : Stands (-x) (-v) := by
  obtain ⟨full, rfl⟩ := h
  rw [← value_neg]
  exact stands_pack (full_neg full)

theorem lt_iff_of_stands {x y : Float} {v w : ℚ} (hx : Stands x v) (hy : Stands y w) : x < y ↔ v < w := by
  obtain ⟨full, rfl⟩ := hx
  obtain ⟨full', rfl⟩ := hy
  show decide ((x.toModel.unpack.compare y.toModel.unpack == some .lt) = true) = true ↔ _
  rw [compare_eq full full', decide_eq_true_iff, beq_iff_eq, Option.some_inj, compare_lt_iff_lt]

theorem beq_iff_of_stands {x y : Float} {v w : ℚ} (hx : Stands x v) (hy : Stands y w) : (x == y) = true ↔ v = w := by
  obtain ⟨full, rfl⟩ := hx
  obtain ⟨full', rfl⟩ := hy
  show (x.toModel.unpack.compare y.toModel.unpack == some .eq) = true ↔ _
  rw [compare_eq full full', beq_iff_eq, Option.some_inj, compare_eq_iff_eq]

/-! ## Whole numbers -/

theorem log2_mul_two_pow {m : Nat} (positive : 0 < m) (k : Nat) : (m * 2 ^ k).log2 = m.log2 + k := by
  refine (Nat.log2_eq_iff (Nat.mul_pos positive (Nat.two_pow_pos k)).ne').mpr ⟨?_, ?_⟩
  · rw [Nat.pow_add]
    exact Nat.mul_le_mul_right _ (Nat.log2_self_le positive.ne')
  · rw [Nat.add_right_comm, Nat.pow_add]
    exact Nat.mul_lt_mul_of_pos_right Nat.lt_log2_self (Nat.two_pow_pos k)

/-- Zeros at the end are dropped again. -/
theorem roundWithAccuracy_padded (sign : Sign) {m : Nat} {e : Int} (normal : m.log2 = 52) (positive : 0 < m) (k : Nat)
    (least : -1074 ≤ e - k) :
    roundWithAccuracy Format.binary64 sign (m * 2 ^ k) (e - k) .exact = .finite sign m e positive := by
  have wide : 2 ^ 52 ≤ m * 2 ^ k :=
    (normal ▸ Nat.log2_self_le positive.ne').trans (Nat.le_mul_of_pos_right m (Nat.two_pow_pos k))
  have exact := roundDiv_mul_mul m 1 (Nat.two_pow_pos k)
  rw [roundDiv_one, Nat.one_mul] at exact
  rw [roundWithAccuracy_exact sign wide least, log2_mul_two_pow positive, normal, Nat.add_sub_cancel_left, exact,
    Int.sub_add_cancel, settled_eq sign normal positive (by omega)]

theorem unpack_one :
    (Float.ofBits 0x3FF0000000000000).toModel.unpack = .finite .positive (2 ^ 52) (-52) (by decide) := by
  rfl

/-- A whole number with few digits, shifted until it has all of them. -/
def padded (n : Nat) (positive : 0 < n) : UnpackedFloat :=
  .finite .positive (n * 2 ^ (52 - n.log2)) (-(52 - n.log2 : Nat)) (Nat.mul_pos positive (Nat.two_pow_pos _))

theorem log2_padded {n : Nat} (positive : 0 < n) (few : n < 2 ^ 53) : (n * 2 ^ (52 - n.log2)).log2 = 52 := by
  have log : n.log2 < 53 := (Nat.log2_lt positive.ne').mpr few
  rw [log2_mul_two_pow positive]
  omega

theorem padded_full {n : Nat} (positive : 0 < n) (few : n < 2 ^ 53) : Full (padded n positive) :=
  ⟨log2_padded positive few, by omega, by omega⟩

theorem value_padded {n : Nat} (positive : 0 < n) : value (padded n positive) = n := by
  show ((n * 2 ^ (52 - n.log2) : Nat) : ℚ) * 2 ^ (-(52 - n.log2 : Nat) : Int) = n
  rw [Nat.cast_mul, Nat.cast_pow, Nat.cast_ofNat, zpow_neg, zpow_natCast, mul_assoc, mul_inv_cancel₀ (by positivity),
    mul_one]

theorem normalize_whole {n : Nat} (positive : 0 < n) (few : n < 2 ^ 53) :
    UnpackedFloat.normalize Format.binary64 n 0 .positive = padded n positive := by
  have target : Format.binary64.targetExponent (totalExponent n 0) = -(52 - n.log2 : Nat) := by
    have log : n.log2 < 53 := (Nat.log2_lt positive.ne').mpr few
    show max ((n.log2 : Int) + 1 + 0 - 53) (-1074) = _
    omega
  have greater : compare (n : Int) 0 = .gt := Int.compare_eq_gt.mpr (Int.ofNat_lt.mpr positive)
  have same := roundWithAccuracy_padded .positive (e := -(52 - n.log2 : Nat)) (log2_padded positive few)
    (Nat.mul_pos positive (Nat.two_pow_pos _)) 0 (by omega)
  rw [UnpackedFloat.normalize.eq_def, greater]
  simp only [Int.toNat_natCast, UnpackedFloat.round, decreaseExponent, target, Nat.shiftLeft_eq]
  simpa [padded] using same

/-- A whole number with few digits is multiplied by one. -/
theorem stands_small {n : Nat} (few : n < 2 ^ 53) :
    Stands (n.toUInt64.toFloat * Float.ofBits 0x3FF0000000000000) n := by
  obtain rfl | positive := Nat.eq_zero_or_pos n
  · exact ⟨trivial, rfl⟩
  have bits : n.toUInt64.toNat = n := by
    rw [UInt64.toNat_ofNat']
    omega
  have whole : n.toUInt64.toFloat.toModel.unpack = padded n positive := by
    show UnpackedFloat.unpack _ (UnpackedFloat.pack _ (UnpackedFloat.normalize Format.binary64 n.toUInt64.toNat 0 _)) = _
    rw [bits, normalize_whole positive few, unpack_pack_of_full (padded_full positive few)]
  have product : UnpackedFloat.mul Format.binary64 n.toUInt64.toFloat.toModel.unpack
      (Float.ofBits 0x3FF0000000000000).toModel.unpack = padded n positive := by
    rw [whole, unpack_one]
    exact roundWithAccuracy_padded .positive (log2_padded positive few) _ 52 (by omega)
  have stands := stands_pack (padded_full positive few)
  rwa [value_padded positive, ← product] at stands

/-- A whole number with more digits is rounded at once. -/
theorem stands_great {n : Nat} (long : 2 ^ 53 ≤ n) (h : n < 2 ^ 64) :
    Stands (.ofModel (Float.Model.ofScientific n (Int.ofNat 0))) (roundedMagnitude n) := by
  have positive : 0 < n := by omega
  have log : 53 ≤ n.log2 := (Nat.le_log2 positive.ne').mpr long
  have log' : n.log2 < 64 := (Nat.log2_lt positive.ne').mpr h
  have wide : 2 ^ 52 ≤ n * 2 ^ 53 := by omega
  -- The number is scaled up by 53 digits first, so as many more are cut off.
  have shift : (n * 2 ^ 53).log2 - 52 = lastPlace n + 53 := by
    rw [log2_mul_two_pow positive, lastPlace]
    omega
  obtain ⟨enough, few⟩ := roundDiv_lastPlace_bounds long
  obtain ⟨full, same⟩ := settled_full (e := lastPlace n) enough few (by omega) (by unfold lastPlace; omega)
  have settles : UnpackedFloat.ofScientific Format.binary64 n (Int.ofNat 0) =
      settled .positive (roundDiv n (2 ^ lastPlace n)) (lastPlace n) := by
    rw [ofScientific_eq positive.ne' (by decide), Nat.pow_zero, Nat.mul_one, Nat.shiftLeft_eq,
      roundWithAccuracy_exact .positive wide (by decide), shift, Nat.pow_add,
      roundDiv_mul_mul n _ (Nat.two_pow_pos 53)]
    congr 1
    omega
  have stands := stands_pack full
  rw [same, ← settles] at stands
  rw [roundedMagnitude]
  push_cast
  exact stands

theorem stands_ofNat {n : Nat} (h : n < 2 ^ 64) : Stands (Float.ofNat n) (roundedMagnitude n) := by
  show Stands (Float.ofScientific n false 0) _
  unfold Float.ofScientific
  split
  · rename_i small
    rw [roundedMagnitude_eq_self small.1]
    exact stands_small small.1
  · rename_i great
    exact stands_great (by omega) h

/-- **The double of a whole number of 64 bits is the number rounded to 53 digits.** -/
theorem stands_ofInt {n : Int} (least : -2 ^ 63 ≤ n) (most : n < 2 ^ 64) : Stands (Float.ofInt n) (rounded n) := by
  cases n with
  | ofNat n =>
      exact stands_ofNat (Int.ofNat_lt.mp most)
  | negSucc n =>
      have stands := stands_neg (stands_ofNat (n := n + 1) (by omega))
      rw [rounded]
      push_cast
      exact stands

end Workflow.Decimal
