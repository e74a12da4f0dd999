import DiceLab.Proofs.Binary64.Rounding
import Mathlib.Data.Rat.Floor

/-! Values that are known to be no farther from zero than a bound: each operation rounds once, which
at most doubles the bound. -/

namespace DiceLab

namespace Binary64

/-- A value is a number that is no farther from zero than a bound. -/
def Within (value : Binary64) (bound : Nat) : Prop :=
  ∃ number : ℚ, value.Is number ∧ |number| ≤ bound

variable {value other : Binary64} {bound left right : Nat}

/-- What a number is rounded to is at most twice as far from zero. -/
theorem Rounds.within {exact number : ℚ} (rounds : Rounds exact value number)
    (small : |exact| ≤ bound) : value.Within (2 * bound) := by
  refine ⟨number, rounds.is, ?_⟩
  -- The error is at most the number itself, and in truth far less.
  have one := rounds.error_mul_le (show 1 ≤ twoTo 53 by decide)
  rw [Nat.cast_one, mul_one] at one
  have parts := abs_add_le (number - exact) exact
  rw [sub_add_cancel] at parts
  rw [Nat.cast_mul, Nat.cast_two]
  linarith

/-- A smaller bound can be replaced by a larger one. -/
theorem Within.mono (within : value.Within left) (le : left ≤ right) : value.Within right := by
  obtain ⟨number, is, small⟩ := within
  exact ⟨number, is, le_trans small (Nat.cast_le.mpr le)⟩

/-- The negative of a value is the negative of its number. -/
theorem Is.neg {number : ℚ} (is : value.Is number) : value.neg.Is (-number) := by
  obtain ⟨negative, magnitude, rfl, inUnits⟩ := is.exists_finite
  refine ⟨signed (!negative) magnitude.units, rfl, ?_⟩
  rw [signed_not, neg_mul, inUnits, Int.cast_neg]

/-- The negative of a value is as far from zero. -/
theorem Within.neg (within : value.Within bound) : value.neg.Within bound := by
  obtain ⟨number, is, small⟩ := within
  exact ⟨-number, is.neg, by rwa [abs_neg]⟩

/-- Sums stay within twice the sum of the bounds. -/
theorem Within.add (within : value.Within left) (otherWithin : other.Within right)
    (below : left + right < reach) : (value.add other).Within (2 * (left + right)) := by
  obtain ⟨first, is, small⟩ := within
  obtain ⟨second, otherIs, otherSmall⟩ := otherWithin
  have sum : |first + second| ≤ ((left + right : Nat) : ℚ) := by
    have parts := abs_add_le first second
    rw [Nat.cast_add]
    linarith
  have reached : ((left + right : Nat) : ℚ) < reach := Nat.cast_lt.mpr below
  -- Rounding to the nearest value at most doubles a number.
  obtain ⟨number, rounds⟩ := rounds_add is otherIs (lt_of_le_of_lt sum reached)
  exact rounds.within sum

/-- Differences stay within twice the sum of the bounds. -/
theorem Within.sub (within : value.Within left) (otherWithin : other.Within right)
    (below : left + right < reach) : (value.sub other).Within (2 * (left + right)) :=
  within.add otherWithin.neg below

/-- Zero is within every bound. -/
theorem within_zero (negative : Bool) : (zero negative).Within 0 :=
  ⟨0, zero_is negative, by rw [abs_zero, Nat.cast_zero]⟩

/-- A value that is a number has a greatest whole number that is not above it. -/
theorem Is.floor_eq {number : ℚ} (is : value.Is number) : value.floor = .ok ⌊number⌋ := by
  obtain ⟨negative, magnitude, rfl, inUnits⟩ := is.exists_finite
  have quotient : number = (signed negative magnitude.units : Int) / (scale : Nat) := by
    rw [← inUnits, mul_div_cancel_right₀ _ scale_pos.ne']
  -- The floor of the units divided by the scale is how the value is rounded down.
  rw [quotient, Rat.floor_intCast_div_natCast,
    ← Int.fdiv_eq_ediv_of_nonneg _ (Int.natCast_nonneg _)]
  rfl

/-- A value within a bound has no more units than the bound has. -/
theorem Within.exists_finite (within : value.Within left) :
    ∃ negative magnitude, value = .finite negative magnitude ∧ magnitude.units ≤ left * scale := by
  obtain ⟨number, is, small⟩ := within
  obtain ⟨negative, magnitude, rfl, inUnits⟩ := is.exists_finite
  refine ⟨negative, magnitude, rfl, ?_⟩
  -- The bound is carried over from the number to its units.
  have unit := scale_pos
  have size : |number| * scale = magnitude.units := by
    have sizes := congrArg abs inUnits
    rwa [abs_mul, abs_of_pos unit, abs_signed] at sizes
  have scaled := mul_le_mul_of_nonneg_right small unit.le
  rw [size, ← Nat.cast_mul] at scaled
  exact Nat.cast_le.mp scaled

/-- A product is finite when the product of the bounds is. -/
theorem Within.exists_mul_finite (within : value.Within left) (otherWithin : other.Within right)
    (below : left * right < reach) :
    ∃ negative magnitude, value.mul other = .finite negative magnitude := by
  obtain ⟨negative, first, rfl, small⟩ := within.exists_finite
  obtain ⟨otherNegative, second, rfl, otherSmall⟩ := otherWithin.exists_finite
  have unit : 0 < scale := twoTo_pos _
  -- Both factors count units, so their product is compared with the square of the scale.
  have product : first.units * second.units < reach * scale * scale := by
    apply Nat.lt_of_le_of_lt (Nat.mul_le_mul small otherSmall)
    rw [Nat.mul_mul_mul_comm, Nat.mul_assoc reach]
    exact Nat.mul_lt_mul_of_pos_right below (Nat.mul_pos unit unit)
  obtain ⟨magnitude, finite, -⟩ := ofUnits_of_lt unit product
  refine ⟨negative != otherNegative, magnitude, ?_⟩
  show ofUnits (negative != otherNegative) (first.units * second.units) scale = _
  exact finite

/-- What is not zero is once in itself. -/
theorem Is.div_self_within {number : ℚ} (is : value.Is number) (nonzero : value.isZero = false) :
    (value.div value).Within 2 := by
  obtain ⟨negative, magnitude, rfl, -⟩ := is.exists_finite
  have some : magnitude.isZero = false := nonzero
  have positive : 0 < magnitude.units := by
    simp only [Magnitude.isZero, beq_eq_false_iff_ne] at some
    omega
  have one : |(1 : ℚ)| < reach := by
    rw [abs_one]
    exact Nat.one_lt_cast.mpr (lt_reach_of_short (by decide))
  have quotient : (1 : ℚ) * scale * magnitude.units =
      signed (negative != negative) (magnitude.units * scale) := by
    rw [bne_self_eq_false, one_mul, mul_comm, ← Nat.cast_mul]
    rfl
  -- The quotient is one, whose units are the scale, far from the subnormal numbers.
  have normal : twoTo 52 ≤ magnitude.units * scale / magnitude.units := by
    rw [Nat.mul_div_cancel_left _ positive]
    exact twoTo_le (by decide)
  obtain ⟨whole, rounds⟩ := rounds_ofUnits positive quotient one (.inr (.inr normal))
  have divided : (Binary64.finite negative magnitude).div (.finite negative magnitude) =
      ofUnits (negative != negative) (magnitude.units * scale) magnitude.units := by
    simp only [div, some, Bool.false_eq_true, if_false]
  rw [divided]
  have within : Within _ (2 * 1) := rounds.within (by rw [abs_one, Nat.cast_one])
  exact within

end Binary64

open Binary64 (reach scale)

/-- A whole number becomes a value within twice its bound. -/
theorem exists_wholeToReal_within {whole : Int} {bound : Nat} (small : whole.natAbs ≤ bound)
    (below : bound < reach) : ∃ value, wholeToReal whole = .ok value ∧ value.Within (2 * bound) := by
  have size : |(whole : ℚ)| ≤ bound := by
    rw [abs_intCast]
    exact Nat.cast_le.mpr small
  have reached : (bound : ℚ) < reach := Nat.cast_lt.mpr below
  -- Conversion is one rounding, and it stays within twice the bound.
  obtain ⟨value, number, known, rounds⟩ := rounds_wholeToReal (lt_of_le_of_lt size reached)
  exact ⟨value, known, rounds.within size⟩

/-- A quotient of whole numbers stays within twice its bound, when the divisor is not too large. -/
theorem exists_wholeQuotient_within {numerator denominator : Int} {bound : Nat}
    (nonzero : denominator ≠ 0) (small : numerator.natAbs ≤ bound * denominator.natAbs)
    (below : bound < reach) (normal : twoTo 52 * denominator.natAbs ≤ scale) :
    ∃ value, wholeQuotient numerator denominator = .ok value ∧ value.Within (2 * bound) := by
  have positive : 0 < denominator.natAbs := Int.natAbs_pos.mpr nonzero
  have divisor : (0 : ℚ) < denominator.natAbs := Nat.cast_pos.mpr positive
  -- Sign and size of the quotient are computed apart.
  let negative := (numerator < 0) != (denominator < 0)
  let exact : ℚ := Binary64.signed negative numerator.natAbs / denominator.natAbs
  have quotient : exact * denominator.natAbs = Binary64.signed negative numerator.natAbs :=
    div_mul_cancel₀ _ divisor.ne'
  have size : |exact| ≤ bound := by
    rw [abs_div, Binary64.abs_signed, abs_of_pos divisor, div_le_iff₀ divisor, ← Nat.cast_mul]
    exact Nat.cast_le.mpr small
  have reached : (bound : ℚ) < reach := Nat.cast_lt.mpr below
  obtain ⟨number, rounds⟩ := Binary64.rounds_ofRatio positive quotient
    (lt_of_le_of_lt size reached) normal
  refine ⟨_, ?_, rounds.within size⟩
  rw [wholeQuotient]
  exact rounds.finiteOr .quotientTooLarge

/-- A half is short, so it is not rounded. -/
theorem Binary64.half_is : (ofRatio false 1 2).Is (1 / 2) := by
  have one : (1 : ℚ) < reach := Nat.one_lt_cast.mpr (lt_reach_of_short (by decide))
  have quotient : (1 / 2 : ℚ) * (2 : Nat) = signed false 1 := by norm_num [signed]
  have below : |(1 / 2 : ℚ)| < reach := lt_trans (by norm_num [abs_of_pos]) one
  obtain ⟨number, rounds⟩ := rounds_ofRatio Nat.two_pos quotient below (normal_of_short (by decide))
  rw [← rounds.kept ⟨1, 0, by norm_num [twoTo], by decide⟩]
  exact rounds.is

/-- A half is within one. -/
theorem Binary64.within_half : (ofRatio false 1 2).Within 1 :=
  ⟨1 / 2, half_is, by norm_num [abs_of_pos]⟩

/-- Rounding to the nearest whole number adds a half and drops the fraction. -/
theorem Binary64.Within.exists_roundHalfUp {value : Binary64} {bound : Nat}
    (within : value.Within bound) (below : bound + 1 < reach) :
    ∃ whole, (Number.real value).roundHalfUp = .ok whole ∧ whole.natAbs ≤ 2 * (bound + 1) := by
  obtain ⟨sum, is, small⟩ := within.add Binary64.within_half below
  refine ⟨⌊sum⌋, is.floor_eq, ?_⟩
  -- The bound is a whole number itself, so dropping the fraction does not cross it.
  generalize 2 * (bound + 1) = limit at small ⊢
  obtain ⟨above, under⟩ := abs_le.mp small
  have low : -(limit : Int) ≤ ⌊sum⌋ := by
    apply Int.le_floor.mpr
    rwa [Int.cast_neg, Int.cast_natCast]
  have high : ⌊sum⌋ ≤ (limit : Int) := by
    rw [← Int.floor_natCast (R := ℚ) limit]
    exact Int.floor_le_floor under
  omega

end DiceLab
