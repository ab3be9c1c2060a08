import Mathlib
import Workflow.Json.Number

/-!
# `Workflow.Proofs.Decimal.Finite` — which operations on doubles stay finite

The operations on doubles are defined on significands and exponents, and a result is infinite exactly if its exponent is
too great.  So it is enough to keep track of exponents.  The bounds here are generous: a whole number of 64 bits has a
small exponent, and dividing by a power of ten hardly makes it greater.

## Contents
- **Bounds.** `Below` and `Above`, for the exponent of an unpacked double.
- **Rounding.** `roundWithAccuracy_below`, and `roundWithAccuracy_normal` for significands that have all their digits.
- **Packing.** `unpack_pack_normal`: nothing is lost of a significand that has all its digits; and `unpack_pack_below` and
  `unpack_pack_above`: bounds survive it.
- **Doubles.** `Bounded`, for doubles themselves, with a law for each operation, and `isFinite_iff`.
-/

namespace Workflow.Decimal

open Float.Model Float.Model.UnpackedFloat

/-! ## Bounds -/

/-- The double is zero, or finite with an exponent up to a bound. -/
def Below (bound : Int) : UnpackedFloat → Prop
  | .zero _ => True
  | .finite _ _ exponent _ => exponent ≤ bound
  | _ => False

/-- The double is infinite, or finite with an exponent from a bound on; it is not zero. -/
def Above (bound : Int) : UnpackedFloat → Prop
  | .infinity _ => True
  | .finite _ _ exponent _ => bound ≤ exponent
  | _ => False

instance (bound : Int) (u : UnpackedFloat) : Decidable (Below bound u) :=
  match u with
  | .zero _ => .isTrue trivial
  | .finite _ _ exponent _ => inferInstanceAs (Decidable (exponent ≤ bound))
  | .infinity _ | .notANumber => .isFalse id

instance (bound : Int) (u : UnpackedFloat) : Decidable (Above bound u) :=
  match u with
  | .infinity _ => .isTrue trivial
  | .finite _ _ exponent _ => inferInstanceAs (Decidable (bound ≤ exponent))
  | .zero _ | .notANumber => .isFalse id

theorem below_finite {bound e : Int} {sign : Sign} {m : Nat} {positive : 0 < m} :
    Below bound (.finite sign m e positive) ↔ e ≤ bound := Iff.rfl

theorem below_cases {bound : Int} {u : UnpackedFloat} (h : Below bound u) :
    (∃ sign, u = .zero sign) ∨ ∃ sign m e positive, u = .finite sign m e positive ∧ e ≤ bound := by
  cases u with
  | zero sign => exact Or.inl ⟨sign, rfl⟩
  | finite sign m e positive => exact Or.inr ⟨sign, m, e, positive, rfl, h⟩
  | infinity sign => exact h.elim
  | notANumber => exact h.elim

theorem above_cases {bound : Int} {u : UnpackedFloat} (h : Above bound u) :
    (∃ sign, u = .infinity sign) ∨ ∃ sign m e positive, u = .finite sign m e positive ∧ bound ≤ e := by
  cases u with
  | infinity sign => exact Or.inl ⟨sign, rfl⟩
  | finite sign m e positive => exact Or.inr ⟨sign, m, e, positive, rfl, h⟩
  | zero sign => exact h.elim
  | notANumber => exact h.elim

/-! ## Rounding -/

theorem mantissa_shift (m : ExtendedMantissa) (n : Nat) : (m >>> n).mantissa = m.mantissa / 2 ^ n := by
  show (n.repeat ExtendedMantissa.shiftRightOne m).mantissa = _
  induction n with
  | zero => simp [Nat.repeat]
  | succ n ih =>
      show (n.repeat ExtendedMantissa.shiftRightOne m).mantissa / 2 = _
      rw [ih, Nat.div_div_eq_div_mul, Nat.pow_succ]

theorem mantissa_ofMantissaAndAccuracy (m : Nat) (accuracy : Accuracy) :
    (ExtendedMantissa.ofMantissaAndAccuracy m accuracy).mantissa = m := by
  cases accuracy with
  | exact => rfl
  | inexact o => cases o <;> rfl

theorem le_roundedMantissa (m : ExtendedMantissa) : m.mantissa ≤ m.roundedMantissa := by
  obtain ⟨m, round, sticky⟩ := m
  cases round <;> cases sticky
  · exact Nat.le_refl m
  · exact Nat.le_refl m
  · exact Nat.le_add_right m _
  · exact Nat.le_succ m

theorem roundedMantissa_le (m : ExtendedMantissa) : m.roundedMantissa ≤ m.mantissa + 1 := by
  obtain ⟨m, round, sticky⟩ := m
  cases round <;> cases sticky
  · exact Nat.le_succ m
  · exact Nat.le_succ m
  · exact Nat.add_le_add_left (Nat.le_of_lt_succ (Nat.mod_lt m (by decide))) m
  · exact Nat.le_refl _

theorem log2_le_of_le {n place : Nat} (h : n ≤ 2 ^ place) : n.log2 ≤ place := by
  cases Nat.eq_zero_or_pos n with
  | inl zero =>
      rw [zero, Nat.log2_zero]
      exact Nat.zero_le _
  | inr positive =>
      refine Nat.le_of_lt_succ ((Nat.log2_lt (Nat.ne_of_gt positive)).mpr ?_)
      exact Nat.lt_of_le_of_lt h (Nat.pow_lt_pow_right (by decide) (Nat.lt_succ_self _))

theorem div_pow_lt {m place : Nat} (h : m < 2 ^ place) (shift : Nat) : m / 2 ^ shift < 2 ^ (place - shift) := by
  apply Nat.div_lt_of_lt_mul
  rw [← Nat.pow_add]
  exact Nat.lt_of_lt_of_le h (Nat.pow_le_pow_right (by decide) (by omega))

/-- How far a significand is shifted before it is rounded. -/
def firstShift (m : Nat) (e : Int) : Nat := (max ((m.log2 : Int) + 1 + e - 53) (-1074) - e).toNat

/-- What becomes of a rounded significand, which may have one place too many. -/
def settled (sign : Sign) (m : Nat) (e : Int) : UnpackedFloat :=
  if h : m / 2 ^ firstShift m e = 0 then .zero sign
  else .finite sign (m / 2 ^ firstShift m e) (e + firstShift m e) (Nat.pos_of_ne_zero h)

/-- Rounding shifts a significand, rounds what is left, and shifts again. -/
theorem roundWithAccuracy_settled (sign : Sign) (m : Nat) (e : Int) (accuracy : Accuracy) :
    roundWithAccuracy Format.binary64 sign m e accuracy =
      settled sign (ExtendedMantissa.ofMantissaAndAccuracy m accuracy >>> firstShift m e).roundedMantissa
        (e + firstShift m e) := by
  -- The condition on the last significand is used by what follows it, so the significand is replaced as a whole.
  have last {r r' : Nat} (e' : Int) (same : r = r') :
      (if h : r = 0 then .zero sign else .finite sign r e' (Nat.pos_of_ne_zero h)) =
        if h : r' = 0 then UnpackedFloat.zero sign else .finite sign r' e' (Nat.pos_of_ne_zero h) := by
    subst same
    rfl
  exact last _ (by rw [mantissa_shift, mantissa_ofMantissaAndAccuracy]; rfl)

/-- What is rounded is what is left after the first shift, or one more. -/
theorem roundWithAccuracy_eq (sign : Sign) (m : Nat) (e : Int) (accuracy : Accuracy) :
    ∃ rounded, m / 2 ^ firstShift m e ≤ rounded ∧ rounded ≤ m / 2 ^ firstShift m e + 1 ∧
      roundWithAccuracy Format.binary64 sign m e accuracy = settled sign rounded (e + firstShift m e) := by
  have shifted := mantissa_shift (ExtendedMantissa.ofMantissaAndAccuracy m accuracy) (firstShift m e)
  rw [mantissa_ofMantissaAndAccuracy] at shifted
  exact ⟨_, shifted ▸ le_roundedMantissa _, shifted ▸ roundedMantissa_le _, roundWithAccuracy_settled sign m e accuracy⟩

/-- A significand that has all its digits is shifted until it has 53. -/
theorem firstShift_eq {m : Nat} {e : Int} (wide : 2 ^ 52 ≤ m) (least : -1074 ≤ e) : firstShift m e = m.log2 - 52 := by
  have log : 52 ≤ m.log2 := (Nat.le_log2 (by omega)).mpr wide
  unfold firstShift
  omega

/-- Rounding needs no greater exponent than the bound, if neither the exponent nor the first digit lies beyond it. -/
theorem roundWithAccuracy_below {bound : Int} (least : -1074 ≤ bound) (sign : Sign) {m place : Nat} {e : Int}
    (accuracy : Accuracy) (small : m < 2 ^ place) (exponent : e ≤ bound) (first : place + e ≤ bound + 52) :
    Below bound (roundWithAccuracy Format.binary64 sign m e accuracy) := by
  obtain ⟨r, -, upper, rounded⟩ := roundWithAccuracy_eq sign m e accuracy
  have log := log2_le_of_le (Nat.le_of_lt small)
  have log' := log2_le_of_le (Nat.le_trans upper (div_pow_lt small _))
  rw [rounded, settled]
  by_cases none : r / 2 ^ firstShift r (e + firstShift m e) = 0
  · rw [dif_pos none]
    trivial
  · rw [dif_neg none, below_finite]
    unfold firstShift at log' ⊢
    omega

/-- The leading digits of a significand that has enough of them. -/
theorem leading_digits {m : Nat} (h : 2 ^ 52 ≤ m) :
    2 ^ 52 ≤ m / 2 ^ (m.log2 - 52) ∧ m / 2 ^ (m.log2 - 52) < 2 ^ 53 := by
  have positive : m ≠ 0 := by omega
  have log : 52 ≤ m.log2 := (Nat.le_log2 positive).mpr h
  constructor
  · rw [Nat.le_div_iff_mul_le (Nat.two_pow_pos _), ← Nat.pow_add, show 52 + (m.log2 - 52) = m.log2 by omega]
    exact Nat.log2_self_le positive
  · have digits := div_pow_lt (Nat.lt_log2_self : m < 2 ^ (m.log2 + 1)) (m.log2 - 52)
    rwa [show m.log2 + 1 - (m.log2 - 52) = 53 by omega] at digits

/-- A significand that has all its digits keeps them. -/
theorem roundWithAccuracy_normal (sign : Sign) {m : Nat} {e : Int} (accuracy : Accuracy) (wide : 2 ^ 52 ≤ m)
    (least : -1074 ≤ e) : ∃ m' e' positive,
      roundWithAccuracy Format.binary64 sign m e accuracy = .finite sign m' e' positive ∧ m'.log2 = 52 ∧ e ≤ e' := by
  obtain ⟨r, lower, upper, rounded⟩ := roundWithAccuracy_eq sign m e accuracy
  obtain ⟨enough, -⟩ := leading_digits wide
  rw [firstShift_eq wide least] at lower upper rounded
  have wide' : 2 ^ 52 ≤ r := Nat.le_trans enough lower
  obtain ⟨enough', few'⟩ := leading_digits wide'
  have shift' := firstShift_eq wide' (show -1074 ≤ e + (m.log2 - 52 : Nat) by omega)
  have some : r / 2 ^ firstShift r (e + (m.log2 - 52 : Nat)) ≠ 0 := by
    rw [shift']
    omega
  refine ⟨_, _, _, rounded.trans (dif_neg some), ?_, ?_⟩
  · rw [shift']
    exact (Nat.log2_eq_iff (by omega)).mpr ⟨enough', few'⟩
  · omega

/-! ## Packing -/

theorem exponentBias_eq : Format.binary64.exponentBias = 1023 := by decide

theorem toNat_ones : (-1#11 : BitVec 11).toNat = 2047 := by decide

theorem unpack_mantissa_lt (b : BitVec Format.binary64.numBits) {sign : Sign} {m : Nat} {e : Int} {positive : 0 < m}
    (h : UnpackedFloat.unpack Format.binary64 b = .finite sign m e positive) : m < 2 ^ 53 := by
  unfold UnpackedFloat.unpack at h
  dsimp only at h
  split at h
  · split at h <;> cases h
  · split at h
    · split at h
      · cases h
      · cases h
        exact Nat.lt_trans (BitVec.isLt _) (by decide)
    · cases h
      exact BitVec.isLt _

theorem unpack_exponent_le (b : BitVec Format.binary64.numBits) {sign : Sign} {m : Nat} {e : Int} {positive : 0 < m}
    (h : UnpackedFloat.unpack Format.binary64 b = .finite sign m e positive) : e ≤ 971 := by
  unfold UnpackedFloat.unpack at h
  dsimp only at h
  rw [exponentBias_eq] at h
  split at h
  · split at h <;> cases h
  · rename_i finite
    have small : (unpackExponent b).toNat < 2 ^ 11 := (unpackExponent b).isLt
    have inner : (unpackExponent b).toNat ≠ 2047 := fun ones => finite (BitVec.eq_of_toNat_eq (ones.trans toNat_ones.symm))
    split at h
    · rename_i zero
      split at h
      · cases h
      · cases h
        rw [zero, BitVec.toNat_zero]
        decide
    · cases h
      omega

/-- Packing keeps an upper bound. -/
theorem unpack_pack_below {bound : Int} (least : -1074 ≤ bound) (greatest : bound ≤ 971) {u : UnpackedFloat}
    (h : Below bound u) :
    Below bound (UnpackedFloat.unpack Format.binary64 (UnpackedFloat.pack Format.binary64 u)) := by
  -- What is unpacked has the exponent that stands in the bits, so a bound on these is one on the value.
  have packed : ∀ (sign : Sign) (exponent : BitVec 11) (mantissa : BitVec 52), exponent ≠ -1#_ →
      (exponent.toNat : Int) ≤ bound + 1075 →
      Below bound (UnpackedFloat.unpack Format.binary64 (packComponents Format.binary64 sign exponent mantissa)) := by
    intro sign exponent mantissa finite small
    unfold UnpackedFloat.unpack
    dsimp only
    rw [unpackExponent_packComponents, if_neg finite, exponentBias_eq]
    split
    · rename_i zero
      split
      · trivial
      · rw [below_finite, zero, BitVec.toNat_zero]
        omega
    · rw [below_finite]
      omega
  have zero : ((0#11 : BitVec 11).toNat : Int) ≤ bound + 1075 := by
    rw [BitVec.toNat_zero]
    omega
  cases u with
  | zero sign => exact packed sign 0 0 (by decide) zero
  | finite sign m e positive =>
      have small : e ≤ bound := h
      unfold UnpackedFloat.pack
      dsimp only
      rw [exponentBias_eq]
      -- The exponent has room in its bits: the value is not packed as an infinity.
      have apart : ¬ 2 ^ Format.binary64.exponentBits ≤
          (e + (1023 : Nat) + Format.binary64.mantissaBitsWithoutImplicit).toNat + 1 := by
        show ¬ 2 ^ 11 ≤ (e + (1023 : Nat) + (52 : Nat)).toNat + 1
        omega
      rw [if_neg apart]
      split
      · have fits : (BitVec.ofNat 11 (e + (1023 : Nat) + (52 : Nat)).toNat).toNat =
            (e + (1023 : Nat) + (52 : Nat)).toNat := by
          rw [BitVec.toNat_ofNat]
          omega
        refine packed sign _ _ (fun ones => ?_) ?_
        · have e' := congrArg BitVec.toNat ones
          rw [fits, toNat_ones] at e'
          omega
        · rw [fits]
          omega
      · exact packed sign 0 _ (by decide) zero
  | infinity sign => exact h.elim
  | notANumber => exact h.elim

theorem unpackSign_packComponents (spec : Format) (sign : Sign) (exponent : BitVec spec.exponentBits)
    (mantissa : BitVec spec.mantissaBitsWithoutImplicit) :
    unpackSign (packComponents spec sign exponent mantissa) = sign.toBitVec := by
  apply BitVec.eq_of_getLsbD_eq
  intro i hi
  obtain rfl : i = 0 := by omega
  simp [unpackSign, packComponents, BitVec.getLsbD_append, BitVec.getElem_append]

theorem ofBitVec_toBitVec (sign : Sign) : Sign.ofBitVec sign.toBitVec = sign := by cases sign <;> rfl

/-- What is packed with an exponent between the least and the greatest has a first digit that is not packed. -/
theorem unpack_packComponents (sign : Sign) {exponent : BitVec 11} {mantissa : BitVec 52} {m : Nat} {e : Int}
    (positive : 0 < m) (digits : (1#1 ++ mantissa).toNat = m) (place : (exponent.toNat : Int) - 1075 = e)
    (least : exponent ≠ 0#11) (most : exponent ≠ -1#11) :
    UnpackedFloat.unpack Format.binary64 (packComponents Format.binary64 sign exponent mantissa) =
      .finite sign m e positive := by
  subst digits place
  unfold UnpackedFloat.unpack
  simp only [unpackExponent_packComponents, unpackMantissa_packComponents, unpackSign_packComponents,
    ofBitVec_toBitVec, exponentBias_eq, if_neg least, if_neg most]
  rfl

/-- The first digit is not packed, and put back. -/
theorem implicit_digit {m : Nat} (normal : m.log2 = 52) (positive : 0 < m) :
    (1#1 ++ BitVec.ofNat 52 m).toNat = m := by
  obtain ⟨least, most⟩ := (Nat.log2_eq_iff positive.ne').mp normal
  rw [BitVec.toNat_append, ← Nat.shiftLeft_add_eq_or_of_lt (BitVec.isLt _), BitVec.toNat_ofNat, Nat.shiftLeft_eq]
  show 1 * 2 ^ 52 + m % 2 ^ 52 = m
  omega

/-- **Packing loses nothing of a significand that has all its digits.** -/
theorem unpack_pack_normal (sign : Sign) {m : Nat} {e : Int} (positive : 0 < m) (normal : m.log2 = 52)
    (least : -1074 ≤ e) (most : e ≤ 971) :
    UnpackedFloat.unpack Format.binary64 (UnpackedFloat.pack Format.binary64 (.finite sign m e positive)) =
      .finite sign m e positive := by
  unfold UnpackedFloat.pack
  dsimp only
  rw [exponentBias_eq, if_neg (by show ¬2 ^ 11 ≤ (e + (1023 : Nat) + (52 : Nat)).toNat + 1; omega),
    if_pos (by rw [normal]; rfl)]
  have fits : (BitVec.ofNat 11 (e + (1023 : Nat) + (52 : Nat)).toNat).toNat =
      (e + (1023 : Nat) + (52 : Nat)).toNat := by
    rw [BitVec.toNat_ofNat]
    omega
  refine unpack_packComponents sign positive (implicit_digit normal positive) ?_ (fun zero => ?_) (fun ones => ?_)
  · show ((BitVec.ofNat 11 (e + (1023 : Nat) + (52 : Nat)).toNat).toNat : Int) - 1075 = e
    omega
  · have e' := congrArg BitVec.toNat zero
    rw [fits, BitVec.toNat_zero] at e'
    omega
  · have e' := congrArg BitVec.toNat ones
    rw [fits, toNat_ones] at e'
    omega

/-- Packing keeps a lower bound, if the significand has all its digits. -/
theorem unpack_pack_above {bound : Int} (least : -1074 ≤ bound) {sign : Sign} {m : Nat} {e : Int} {positive : 0 < m}
    (normal : m.log2 = 52) (h : bound ≤ e) :
    Above bound
      (UnpackedFloat.unpack Format.binary64 (UnpackedFloat.pack Format.binary64 (.finite sign m e positive))) := by
  by_cases small : e ≤ 971
  · rw [unpack_pack_normal sign positive normal (by omega) small]
    exact h
  · have infinite : UnpackedFloat.unpack Format.binary64 (packedInfinity Format.binary64 sign) = .infinity sign := by
      cases sign <;> rfl
    unfold UnpackedFloat.pack
    dsimp only
    rw [exponentBias_eq, if_pos (by show 2 ^ 11 ≤ (e + (1023 : Nat) + (52 : Nat)).toNat + 1; omega), infinite]
    trivial

/-! ## Doubles -/

/-- The double is finite, and its exponent is up to a bound. -/
def Bounded (bound : Int) (x : Float) : Prop := Below bound x.toModel.unpack

variable {bound before other least : Int} {x y : Float}

theorem isFinite_of_bounded (h : Bounded bound x) : x.isFinite = true := by
  show x.toModel.unpack.isFinite = true
  obtain ⟨sign, hx⟩ | ⟨sign, m, e, positive, hx, -⟩ := below_cases h <;> rw [hx] <;> rfl

/-- **A double is finite if its exponent is one that can be packed.** -/
theorem isFinite_iff : x.isFinite = true ↔ Bounded 971 x := by
  refine ⟨fun h => ?_, isFinite_of_bounded⟩
  have finite : x.toModel.unpack.isFinite = true := h
  unfold Bounded
  cases hx : x.toModel.unpack with
  | zero sign => trivial
  | finite sign m e positive => exact unpack_exponent_le _ hx
  | infinity sign =>
      rw [hx] at finite
      cases finite
  | notANumber =>
      rw [hx] at finite
      cases finite

theorem isFinite_neg (h : x.isFinite = true) : (-x).isFinite = true := by
  refine isFinite_iff.mpr (unpack_pack_below (by decide) (by decide) ?_)
  obtain ⟨sign, hx⟩ | ⟨sign, m, e, positive, hx, he⟩ := below_cases (isFinite_iff.mp h) <;> rw [hx]
  · trivial
  · exact he

theorem mul_bounded (hleast : -1074 ≤ bound) (hgreatest : bound ≤ 971) (hx : Bounded before x) (hy : Bounded other y)
    (fits : before + other + 54 ≤ bound) : Bounded bound (x * y) := by
  refine unpack_pack_below hleast hgreatest ?_
  obtain ⟨sign, hx⟩ | ⟨sign, m, e, positive, hx, he⟩ := below_cases hx
  · obtain ⟨sign', hy⟩ | ⟨sign', m', e', positive', hy, -⟩ := below_cases hy <;> rw [hx, hy] <;> trivial
  · obtain ⟨sign', hy⟩ | ⟨sign', m', e', positive', hy, he'⟩ := below_cases hy <;> rw [hx, hy]
    · trivial
    · have product : m * m' < 2 ^ 106 := by
        rw [show 2 ^ 106 = 2 ^ 53 * 2 ^ 53 by decide]
        exact Nat.mul_lt_mul'' (unpack_mantissa_lt _ hx) (unpack_mantissa_lt _ hy)
      exact roundWithAccuracy_below hleast _ _ product (by omega) (by omega)

/-- A quotient is not much greater than the dividend, if the exponent of the divisor is not too small. -/
theorem div_bounded (hleast : -1074 ≤ bound) (hgreatest : bound ≤ 971) (hx : Bounded before x)
    (hy : Above least y.toModel.unpack) (fits : before - least + 1 ≤ bound) : Bounded bound (x / y) := by
  refine unpack_pack_below hleast hgreatest ?_
  obtain ⟨sign, hx⟩ | ⟨sign, m, e, positive, hx, he⟩ := below_cases hx
  · obtain ⟨sign', hy⟩ | ⟨sign', m', e', positive', hy, -⟩ := above_cases hy <;> rw [hx, hy] <;> trivial
  · obtain ⟨sign', hy⟩ | ⟨sign', m', e', positive', hy, he'⟩ := above_cases hy <;> rw [hx, hy]
    · trivial
    · simp only [UnpackedFloat.div, divCore]
      generalize Format.binary64.targetExponent _ = target
      generalize hshift : (e - e' - min (e - e') target).toNat = shift
      have quotient : m <<< shift / m' < 2 ^ (53 + shift) := by
        refine Nat.lt_of_le_of_lt (Nat.div_le_self _ _) ?_
        rw [Nat.shiftLeft_eq, Nat.pow_add]
        exact Nat.mul_lt_mul_of_pos_right (unpack_mantissa_lt _ hx) (Nat.two_pow_pos shift)
      exact roundWithAccuracy_below hleast _ _ quotient (by omega) (by omega)

theorem toFloat_bounded (n : UInt64) : Bounded 12 n.toFloat := by
  refine unpack_pack_below (by decide) (by decide) ?_
  show Below 12 (UnpackedFloat.normalize Format.binary64 (n.toNat : Int) 0 .positive)
  have small : n.toNat < 2 ^ 64 := n.toNat_lt
  cases Nat.eq_zero_or_pos n.toNat with
  | inl zero =>
      rw [zero]
      trivial
  | inr positive =>
      have greater : compare (n.toNat : Int) 0 = .gt := Int.compare_eq_gt.mpr (Int.ofNat_lt.mpr positive)
      rw [UnpackedFloat.normalize.eq_def, greater]
      simp only [Int.toNat_natCast, UnpackedFloat.round, decreaseExponent]
      generalize Format.binary64.targetExponent _ = target
      generalize hshift : (0 - target).toNat = shift
      have shifted : n.toNat <<< shift < 2 ^ (64 + shift) := by
        rw [Nat.shiftLeft_eq, Nat.pow_add]
        exact Nat.mul_lt_mul_of_pos_right small (Nat.two_pow_pos shift)
      exact roundWithAccuracy_below (by decide) _ _ shifted (by omega) (by omega)

/-- A whole number times a power of ten is rounded from all its digits. -/
theorem ofScientific_eq {n : Nat} (positive : n ≠ 0) {k : Nat} (small : k ≤ 2 ^ 11) :
    UnpackedFloat.ofScientific Format.binary64 n (Int.ofNat k) =
      roundWithAccuracy Format.binary64 .positive (n <<< 53 * 10 ^ k) (-53) .exact := by
  have up : (0 : Int) ≤ Int.ofNat k := Int.natCast_nonneg k
  have most : ¬ Int.ofNat k > 2 ^ Format.binary64.exponentBits := Int.not_lt.mpr (Int.ofNat_le.mpr small)
  have least : ¬ Int.ofNat k < -((2 ^ Format.binary64.exponentBits : Int) + n.log2) := by
    have : (0 : Int) ≤ 2 ^ Format.binary64.exponentBits := Int.pow_nonneg (by decide)
    omega
  rw [UnpackedFloat.ofScientific, dif_neg positive, if_neg most, if_neg least, if_pos up]
  rfl

/-- A whole number of 64 bits has a small exponent. -/
theorem ofNat_bounded {n : Nat} (h : n < 2 ^ 64) : Bounded 14 (Float.ofNat n) := by
  show Bounded 14 (Float.ofScientific n false 0)
  unfold Float.ofScientific
  split
  · have one : Below (-52) (Float.ofBits 0x3FF0000000000000).toModel.unpack := by decide +kernel
    exact mul_bounded (by decide) (by decide) (toFloat_bounded _) one (by decide)
  · rename_i large
    refine unpack_pack_below (by decide) (by decide) ?_
    have positive : n ≠ 0 := by
      rintro rfl
      exact large (by decide)
    have product : n <<< 53 * 10 ^ 0 < 2 ^ 117 := by
      rw [Nat.shiftLeft_eq]
      omega
    simp only [Bool.false_eq_true, if_false]
    rw [ofScientific_eq positive (by decide)]
    generalize n <<< 53 * 10 ^ 0 = m at product ⊢
    exact roundWithAccuracy_below (by decide) _ _ product (by decide) (by decide)

theorem isFinite_ofNat {n : Nat} (h : n < 2 ^ 64) : (Float.ofNat n).isFinite = true :=
  isFinite_of_bounded (ofNat_bounded h)

theorem isFinite_ofInt {n : Int} (lower : -2 ^ 63 ≤ n) (upper : n < 2 ^ 64) : (Float.ofInt n).isFinite = true := by
  cases n with
  | ofNat m => exact isFinite_ofNat (Int.ofNat_lt.mp upper)
  | negSucc m => exact isFinite_neg (isFinite_ofNat (by omega))

/-- A power of ten is at least one, so its exponent is not small; it may be infinite. -/
theorem powerOfTen_above (k : Nat) : Above (-53) (Json.powerOfTen k).toModel.unpack := by
  by_cases exact : k ≤ 22
  · -- The powers of ten that are doubles are not rounded, and are few enough to try.
    have known : ∀ k ≤ 22, Above (-53) (Json.powerOfTen k).toModel.unpack := by decide +kernel
    exact known k exact
  · show Above (-53) (Float.ofScientific 1 false k).toModel.unpack
    unfold Float.ofScientific
    rw [dif_neg (fun h => exact h.2)]
    show Above (-53) (UnpackedFloat.unpack Format.binary64 (UnpackedFloat.pack Format.binary64
      (UnpackedFloat.ofScientific Format.binary64 1 (Int.ofNat k))))
    by_cases small : k ≤ 2 ^ 11
    · have wide : 2 ^ 52 ≤ 1 <<< 53 * 10 ^ k :=
        Nat.le_trans (by decide : 2 ^ 52 ≤ 1 <<< 53) (Nat.le_mul_of_pos_right _ (Nat.pow_pos (by decide)))
      obtain ⟨m, e, positive, rounded, normal, h⟩ :=
        roundWithAccuracy_normal .positive .exact wide (show -1074 ≤ (-53 : Int) by decide)
      rw [ofScientific_eq (by decide) small, rounded]
      exact unpack_pack_above (by decide) normal h
    · have most : Int.ofNat k > 2 ^ Format.binary64.exponentBits := Int.ofNat_lt.mpr (Nat.not_le.mp small)
      rw [UnpackedFloat.ofScientific, dif_neg (by decide), if_pos most]
      decide

end Workflow.Decimal
