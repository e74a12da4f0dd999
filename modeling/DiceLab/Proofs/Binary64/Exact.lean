import DiceLab.Proofs.Binary64.Within

/-! Halves of short whole numbers are computed with exactly. -/

namespace DiceLab

namespace Binary64

/-- A half of a short whole number is short. -/
theorem isShort_half {twice : Int} (short : twice.natAbs ≤ twoTo 53) :
    IsShort ((twice : ℚ) / 2) := by
  refine ⟨twice, 0, ?_, short⟩
  rw [div_mul_cancel₀ _ two_ne_zero, show twoTo 0 = 1 from rfl, Nat.cast_one, mul_one]

/-- A half of a whole number is half as far from zero. -/
theorem abs_half (twice : Int) : |(twice : ℚ) / 2| = twice.natAbs / 2 := by
  rw [abs_div, abs_two, abs_intCast]

/-- A half of a short whole number is far below the bound. -/
theorem half_lt_reach {digits : Nat} (short : digits ≤ twoTo 53) : (digits / 2 : ℚ) < reach := by
  have reached : (digits : ℚ) < reach := Nat.cast_lt.mpr (lt_reach_of_short short)
  have some : (0 : ℚ) ≤ digits := Nat.cast_nonneg _
  linarith

variable {value other : Binary64} {first second twice : Int}

/-- Halves are added exactly when their sum is short. -/
theorem Is.add_halves (is : value.Is (first / 2)) (otherIs : other.Is (second / 2))
    (short : (first + second).natAbs ≤ twoTo 53) :
    (value.add other).Is ((first + second : Int) / 2) := by
  have sum : (first / 2 + second / 2 : ℚ) = (first + second : Int) / 2 := by
    rw [Int.cast_add, add_div]
  have below : |(first / 2 + second / 2 : ℚ)| < reach := by
    rw [sum, abs_half]
    exact half_lt_reach short
  obtain ⟨number, rounds⟩ := rounds_add is otherIs below
  -- What is short is its own rounding.
  have kept : number = (first + second : Int) / 2 := by
    rw [← sum]
    apply rounds.kept
    rw [sum]
    exact isShort_half short
  rw [← kept]
  exact rounds.is

/-- Halves are taken from each other exactly when what is left is short. -/
theorem Is.sub_halves (is : value.Is (first / 2)) (otherIs : other.Is (second / 2))
    (short : (first - second).natAbs ≤ twoTo 53) :
    (value.sub other).Is ((first - second : Int) / 2) := by
  have negative : other.neg.Is ((-second : Int) / 2) := by
    rw [Int.cast_neg, neg_div]
    exact otherIs.neg
  -- A difference is computed as a sum with the negative.
  rw [Int.sub_eq_add_neg] at short ⊢
  exact is.add_halves negative short

/-- A half is rounded to the nearest whole number, upwards from the middle. -/
theorem Is.roundHalfUp (is : value.Is (twice / 2)) (short : (twice + 1).natAbs ≤ twoTo 53) :
    (Number.real value).roundHalfUp = .ok ((twice + 1) / 2) := by
  -- The half that is added keeps the sum a half of a short number, so only the floor rounds.
  have half : (ofRatio false 1 2).Is ((1 : Int) / 2) := by
    rw [Int.cast_one]
    exact half_is
  have sum := (is.add_halves half short).floor_eq
  have floor : ⌊((twice + 1 : Int) : ℚ) / 2⌋ = (twice + 1) / 2 :=
    Rat.floor_intCast_div_natCast (twice + 1) 2
  rw [floor] at sum
  exact sum

end Binary64

/-- Half of a short whole number is computed exactly. -/
theorem exists_wholeQuotient_half {twice : Int} (short : twice.natAbs ≤ twoTo 53) :
    ∃ value, wholeQuotient twice 2 = .ok value ∧ value.Is (twice / 2) := by
  have below : |(twice : ℚ) / 2| < Binary64.reach := by
    rw [Binary64.abs_half]
    exact Binary64.half_lt_reach short
  -- The half has at most 53 digits, so rounding keeps it.
  obtain ⟨value, number, known, rounds⟩ := rounds_half below
  refine ⟨value, known, ?_⟩
  rw [← rounds.kept (Binary64.isShort_half short)]
  exact rounds.is

/-- A short whole number comes back exactly from its product with another number that is not too
large. -/
theorem exists_wholeQuotient_mul {whole divisor : Int} (positive : 0 < divisor)
    (short : (2 * whole).natAbs ≤ twoTo 53)
    (normal : twoTo 52 * divisor.natAbs ≤ Binary64.scale) :
    ∃ value, wholeQuotient (whole * divisor) divisor = .ok value ∧
      value.Is ((2 * whole : Int) / 2) := by
  have quotient : ((whole * divisor : Int) : ℚ) / divisor = (2 * whole : Int) / 2 := by
    rw [Int.cast_mul, mul_div_cancel_right₀ _ (Int.cast_ne_zero.mpr positive.ne'), Int.cast_mul,
      Int.cast_two, mul_div_cancel_left₀ _ two_ne_zero]
  -- After the divisor is cancelled a short number is left, which rounding keeps.
  have below : |((whole * divisor : Int) : ℚ) / divisor| < Binary64.reach := by
    rw [quotient, Binary64.abs_half]
    exact Binary64.half_lt_reach short
  obtain ⟨value, number, known, rounds⟩ := rounds_wholeQuotient positive below normal
  refine ⟨value, known, ?_⟩
  rw [quotient] at rounds
  rw [← rounds.kept (Binary64.isShort_half short)]
  exact rounds.is

end DiceLab
