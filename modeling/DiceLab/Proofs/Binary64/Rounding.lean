import DiceLab.Proofs.Binary64.Overflow
import Mathlib.Algebra.Order.Ring.Abs
import Mathlib.Data.Rat.Cast.Order
import Mathlib.Tactic.LinearCombination
import Mathlib.Tactic.Linarith
import Mathlib.Tactic.Ring

/-! Rounding moves a number by no more than one part in `2 ^ 53`, and leaves short numbers where they
are. -/

namespace DiceLab

/-- A whole number is as far from zero as it is large. -/
theorem abs_intCast (whole : Int) : |(whole : ℚ)| = whole.natAbs := by
  rw [Nat.cast_natAbs, Int.cast_abs]

/-- A quotient is rounded by at most a half. -/
theorem roundQuotient_error {numerator denominator : Nat} (positive : 0 < denominator) :
    2 * numerator ≤ 2 * (roundQuotient numerator denominator * denominator) + denominator ∧
      2 * (roundQuotient numerator denominator * denominator) ≤ 2 * numerator + denominator := by
  have division := Nat.div_add_mod numerator denominator
  have small := Nat.mod_lt numerator positive
  unfold roundQuotient
  dsimp only
  -- With names for the whole part and the rest, what is left is linear in each branch.
  generalize numerator / denominator = whole at *
  generalize numerator % denominator = part at *
  rw [Nat.mul_comm] at division
  split
  · omega
  · split
    · rw [Nat.add_mul]
      omega
    · -- At the half it makes no difference which of the neighbours is taken.
      have parity := Nat.mod_two_eq_zero_or_one whole
      rcases parity with even | odd
      · rw [even, Nat.add_zero]
        omega
      · rw [odd, Nat.add_mul]
        omega

namespace Binary64

/-- A number of units on the grid stays where it is. -/
theorem nearest_of_onGrid {units denominator : Nat} (positive : 0 < denominator)
    (grid : OnGrid units) : nearest (units * denominator) denominator = units := by
  obtain ⟨steps, made⟩ := grid
  unfold nearest
  rw [Nat.mul_div_cancel _ positive]
  -- The quotient by the spacing has no rest, so there is nothing to round.
  have whole : units * denominator = denominator * spacing units * steps := by
    rw [Nat.mul_comm, Nat.mul_assoc, ← made]
  have spaced : 0 < denominator * spacing units := Nat.mul_pos positive (twoTo_pos _)
  have rounded : roundQuotient (units * denominator) (denominator * spacing units) = steps := by
    unfold roundQuotient
    rw [whole, Nat.mul_div_cancel_left _ spaced, Nat.mul_mod_right]
    simp [spaced]
  dsimp only
  rw [rounded, Nat.mul_comm, ← made]

/-- The leading digit of a number with 53 digits is at least 52 places above the spacing. -/
theorem spacing_mul_le {numerator denominator : Nat} (normal : twoTo 52 ≤ numerator / denominator) :
    denominator * spacing (numerator / denominator) * twoTo 52 ≤ numerator := by
  -- A quotient that reaches `2 ^ 52` is not zero, so it has a leading digit.
  have nonzero : numerator / denominator ≠ 0 := by
    have power := twoTo_pos 52
    omega
  have exponent : 52 ≤ (numerator / denominator).log2 := (Nat.le_log2 nonzero).mpr normal
  have places : spacing (numerator / denominator) * twoTo 52 =
      twoTo (numerator / denominator).log2 := by
    rw [spacing, ← twoTo_add]
    congr 1
    omega
  rw [Nat.mul_assoc, places]
  calc
    denominator * twoTo (numerator / denominator).log2
      ≤ denominator * (numerator / denominator) := Nat.mul_le_mul_left _ (Nat.log2_self_le nonzero)
    _ ≤ numerator := Nat.mul_div_le _ _

/-- A quotient with 53 digits before the point is rounded by at most one part in `2 ^ 53`. -/
theorem nearest_error {numerator denominator : Nat} (positive : 0 < denominator)
    (normal : twoTo 52 ≤ numerator / denominator) :
    numerator * twoTo 53 ≤ nearest numerator denominator * denominator * twoTo 53 + numerator ∧
      nearest numerator denominator * denominator * twoTo 53 ≤
        numerator * twoTo 53 + numerator := by
  unfold nearest
  dsimp only
  generalize step : spacing (numerator / denominator) = spaced
  have spacedPositive : 0 < spaced := step ▸ twoTo_pos _
  -- The quotient by the spacing is rounded by a half at most, which is half a spacing of the
  -- quotient.
  have width : 0 < denominator * spaced := Nat.mul_pos positive spacedPositive
  have error : 2 * numerator ≤
        2 * (roundQuotient numerator (denominator * spaced) * (denominator * spaced)) +
          denominator * spaced ∧
      2 * (roundQuotient numerator (denominator * spaced) * (denominator * spaced)) ≤
        2 * numerator + denominator * spaced := roundQuotient_error width
  generalize roundQuotient numerator (denominator * spaced) = rounded at error ⊢
  have leading : denominator * spaced * twoTo 52 ≤ numerator := by
    rw [← step]
    exact spacing_mul_le normal
  have double : twoTo 53 = 2 * twoTo 52 := twoTo_add 1 52
  have shifted : rounded * (denominator * spaced) = rounded * spaced * denominator := by
    rw [Nat.mul_comm denominator, Nat.mul_assoc]
  rw [shifted] at error
  rw [double]
  -- Half a spacing is at most that part of the number.
  generalize rounded * spaced * denominator = reached at error ⊢
  generalize denominator * spaced = width at error leading
  have above := Nat.mul_le_mul_right (twoTo 52) error.1
  have below := Nat.mul_le_mul_right (twoTo 52) error.2
  rw [Nat.add_mul] at above below
  constructor
  · calc
      numerator * (2 * twoTo 52) = 2 * numerator * twoTo 52 := by ring
      _ ≤ 2 * reached * twoTo 52 + width * twoTo 52 := above
      _ = reached * (2 * twoTo 52) + width * twoTo 52 := by ring
      _ ≤ reached * (2 * twoTo 52) + numerator := by omega
  · calc
      reached * (2 * twoTo 52) = 2 * reached * twoTo 52 := by ring
      _ ≤ 2 * numerator * twoTo 52 + width * twoTo 52 := below
      _ = numerator * (2 * twoTo 52) + width * twoTo 52 := by ring
      _ ≤ numerator * (2 * twoTo 52) + numerator := by omega

/-- A value is a rational number: it has that place on the line. -/
def Is (value : Binary64) (number : ℚ) : Prop :=
  ∃ units : Int, value.position? = some (.at units) ∧ number * scale = units

/-- A number has no more than 53 binary digits, and at most one of them behind the point. -/
def IsShort (number : ℚ) : Prop :=
  ∃ (digits : Int) (shift : Nat), number * 2 = digits * twoTo shift ∧ digits.natAbs ≤ twoTo 53

/-- A value is what a number is rounded to: it is close to the number, and a short one is kept. -/
structure Rounds (exact : ℚ) (value : Binary64) (number : ℚ) : Prop where
  is : value.Is number
  error : |number - exact| * twoTo 53 ≤ |exact|
  kept : IsShort exact → number = exact

/-- Zero is the number zero, whatever its sign. -/
theorem zero_is (negative : Bool) : (zero negative).Is 0 := by
  refine ⟨0, ?_, by rw [zero_mul, Int.cast_zero]⟩
  cases negative <;> decide +kernel

/-- The number of units in one is positive. -/
theorem scale_pos : (0 : ℚ) < scale := Nat.cast_pos.mpr (twoTo_pos _)

/-- A signed number of units is that number times the sign. -/
theorem signed_eq (negative : Bool) (units : Nat) :
    (signed negative units : ℚ) = signed negative 1 * units := by
  cases negative with
  | true => simp [signed]
  | false => simp [signed]

/-- A sign stands before a multiple as before the number itself. -/
theorem signed_mul_natCast (negative : Bool) (units factor : Nat) :
    signed negative (units * factor) = signed negative units * factor := by
  cases negative with
  | true => simp [signed]
  | false => simp [signed]

/-- The other sign gives the negative number of units. -/
theorem signed_not (negative : Bool) (units : Nat) :
    signed (!negative) units = -signed negative units := by
  cases negative with
  | true => simp [signed]
  | false => simp [signed]

/-- A sign does not change how many units there are. -/
theorem natAbs_signed (negative : Bool) (units : Nat) : (signed negative units).natAbs = units := by
  cases negative with
  | true => simp [signed]
  | false => simp [signed]

/-- A sign does not change how far a number of units is from zero. -/
theorem abs_signed (negative : Bool) (units : Nat) : |(signed negative units : ℚ)| = units := by
  rw [abs_intCast, natAbs_signed]

/-- A short number stands at a number of units on the grid. -/
theorem onGrid_of_short {digits : Nat} (short : digits ≤ twoTo 53) (shift : Nat) :
    OnGrid (digits * twoTo shift) := by
  rcases Nat.lt_or_eq_of_le short with below | rfl
  · exact onGrid_mul_twoTo below shift
  · -- The first number that is too long is a doubling of a shorter one.
    have doubled : twoTo 53 * twoTo shift = 1 * twoTo (53 + shift) := by
      rw [twoTo_add, Nat.one_mul]
    rw [doubled]
    exact onGrid_mul_twoTo (by decide) _

/-- A quotient is rounded by at most one part in `2 ^ 53` when it has 53 digits before the point, or
is a whole number. -/
theorem abs_nearest_error {numerator denominator : Nat} (positive : 0 < denominator)
    (normal : numerator = 0 ∨ denominator = 1 ∨ twoTo 52 ≤ numerator / denominator) :
    |(nearest numerator denominator : ℚ) * denominator - numerator| * twoTo 53 ≤ numerator := by
  have bounds : numerator * twoTo 53 ≤
        nearest numerator denominator * denominator * twoTo 53 + numerator ∧
      nearest numerator denominator * denominator * twoTo 53 ≤
        numerator * twoTo 53 + numerator := by
    -- Zero and short whole numbers of units are kept, and every other quotient here has 53 digits.
    rcases normal with rfl | whole | large
    · have none := nearest_of_onGrid positive (onGrid_mul_twoTo (twoTo_pos 53) 0)
      rw [Nat.zero_mul, Nat.zero_mul] at none
      simp [none]
    · by_cases large : twoTo 52 ≤ numerator / denominator
      · exact nearest_error positive large
      · -- A short whole number of units is not rounded at all.
        subst whole
        rw [Nat.div_one, Nat.not_le] at large
        have short : numerator < twoTo 53 := Nat.lt_of_lt_of_le large (twoTo_le (by decide))
        have same := nearest_of_onGrid positive (onGrid_mul_twoTo short 0)
        rw [show twoTo 0 = 1 from rfl, Nat.mul_one, Nat.mul_one] at same
        rw [same, Nat.mul_one]
        omega
    · exact nearest_error positive large
  -- The same bounds between rationals, where the two of them are one absolute value.
  have above : (numerator * twoTo 53 : ℚ) ≤
      nearest numerator denominator * denominator * twoTo 53 + numerator := by
    exact_mod_cast bounds.1
  have under : (nearest numerator denominator * denominator * twoTo 53 : ℚ) ≤
      numerator * twoTo 53 + numerator := by
    exact_mod_cast bounds.2
  have power : (0 : ℚ) < twoTo 53 := Nat.cast_pos.mpr (twoTo_pos 53)
  have scaled (number : ℚ) : |number| * twoTo 53 = |number * twoTo 53| := by
    rw [abs_mul, abs_of_pos power]
  rw [scaled, abs_le]
  constructor
  · linarith
  · linarith

/-- A short number of units is a multiple of a power of two, and small beside it. -/
theorem numerator_of_short {numerator denominator shift : Nat} {exact : ℚ} {digits : Int}
    (size : |exact| * scale * denominator = numerator)
    (twice : exact * 2 = digits * twoTo shift) :
    numerator = digits.natAbs * twoTo (shift + 1073) * denominator := by
  -- Counting in units doubles the number once more than is needed to clear the digit behind the
  -- point.
  have power : scale = 2 * twoTo 1073 := by
    rw [scale_eq, show 2 = twoTo 1 from rfl, ← twoTo_add]
  have doubled : (scale : ℚ) = 2 * twoTo 1073 := by rw [power, Nat.cast_mul, Nat.cast_two]
  have moving : (0 : ℚ) < twoTo shift := Nat.cast_pos.mpr (twoTo_pos shift)
  have sizes := congrArg abs twice
  rw [abs_mul, abs_mul, abs_of_pos (two_pos : (0 : ℚ) < 2), abs_of_pos moving,
    abs_intCast] at sizes
  have cast : (numerator : ℚ) =
      ((digits.natAbs * twoTo (shift + 1073) * denominator : Nat) : ℚ) := by
    rw [← size, doubled, twoTo_add, Nat.cast_mul, Nat.cast_mul, Nat.cast_mul]
    linear_combination (twoTo 1073 : ℚ) * denominator * sizes
  exact Nat.cast_injective cast

/-- The nearest number of units is the number itself when that is short. -/
theorem nearest_of_short {numerator denominator : Nat} {exact : ℚ} (positive : 0 < denominator)
    (size : |exact| * scale * denominator = numerator) (short : IsShort exact) :
    (nearest numerator denominator : ℚ) * denominator = numerator := by
  obtain ⟨digits, shift, twice, few⟩ := short
  -- In units a short number is short digits shifted to the left, which the grid holds.
  have kept : nearest numerator denominator * denominator = numerator := by
    rw [numerator_of_short size twice, nearest_of_onGrid positive (onGrid_of_short few _)]
  exact_mod_cast kept

/-- A quotient of units that is below the bound and not too small is rounded. -/
theorem rounds_ofUnits {negative : Bool} {numerator denominator : Nat} {exact : ℚ}
    (positive : 0 < denominator)
    (quotient : exact * scale * denominator = signed negative numerator)
    (below : |exact| < reach)
    (normal : numerator = 0 ∨ denominator = 1 ∨ twoTo 52 ≤ numerator / denominator) :
    ∃ number, Rounds exact (ofUnits negative numerator denominator) number := by
  have unit := scale_pos
  have divisor : (0 : ℚ) < denominator := Nat.cast_pos.mpr positive
  have size : |exact| * scale * denominator = numerator := by
    have sizes := congrArg abs quotient
    rwa [abs_signed, abs_mul, abs_mul, abs_of_pos unit, abs_of_pos divisor] at sizes
  -- Below the bound the nearest number of units is finite.
  have inside : numerator < reach * scale * denominator := by
    have scaled := mul_lt_mul_of_pos_right (mul_lt_mul_of_pos_right below unit) divisor
    rw [size] at scaled
    exact_mod_cast scaled
  obtain ⟨magnitude, finite, units⟩ := ofUnits_of_lt positive inside
  -- Seen in units, the error is that of the nearest number of them.
  let number : ℚ := signed negative (nearest numerator denominator) / scale
  have inUnits : number * scale = signed negative (nearest numerator denominator) :=
    div_mul_cancel₀ _ unit.ne'
  have moved : (number - exact) * (scale * denominator) =
      signed negative 1 * (nearest numerator denominator * denominator - numerator) := by
    rw [signed_eq] at inUnits quotient
    linear_combination denominator * inUnits - quotient
  have span : (0 : ℚ) < scale * denominator := mul_pos unit divisor
  refine ⟨number, ⟨signed negative (nearest numerator denominator), ?_, inUnits⟩, ?_, ?_⟩
  · rw [finite, ← units]
    rfl
  · have error := abs_nearest_error positive normal
    have sizes := congrArg abs moved
    rw [abs_mul, abs_of_pos span, abs_mul, abs_signed, Nat.cast_one, one_mul] at sizes
    apply le_of_mul_le_mul_right _ span
    calc
      |number - exact| * twoTo 53 * (scale * denominator)
        = |number - exact| * (scale * denominator) * twoTo 53 := by ring
      _ = |(nearest numerator denominator : ℚ) * denominator - numerator| * twoTo 53 := by
        rw [sizes]
      _ ≤ numerator := error
      _ = |exact| * (scale * denominator) := by rw [← size, mul_assoc]
  · intro short
    -- What is on the grid is not moved at all.
    have still : (number - exact) * (scale * denominator) = 0 := by
      rw [moved, nearest_of_short positive size short, sub_self, mul_zero]
    exact sub_eq_zero.mp ((mul_eq_zero.mp still).resolve_right span.ne')

/-- A value that is a number is finite, and has its sign and its size. -/
theorem Is.exists_finite {value : Binary64} {number : ℚ} (is : value.Is number) :
    ∃ negative magnitude, value = .finite negative magnitude ∧
      number * scale = signed negative magnitude.units := by
  obtain ⟨units, known, equal⟩ := is
  -- Only finite values stand at a number of units.
  cases value with
  | nan => cases known
  | infinite negative =>
    cases negative with
    | true => cases known
    | false => cases known
  | finite negative magnitude =>
    cases known
    exact ⟨negative, magnitude, rfl, equal⟩

/-- The error of a rounding is no larger than any part of the number up to the smallest one. -/
theorem Rounds.error_mul_le {exact number : ℚ} {value : Binary64}
    (rounds : Rounds exact value number) {part : Nat} (few : part ≤ twoTo 53) :
    |number - exact| * part ≤ |exact| :=
  le_trans (mul_le_mul_of_nonneg_left (Nat.cast_le.mpr few) (abs_nonneg _)) rounds.error

/-- What a number is rounded to is not less than half of it. -/
theorem Rounds.half_le {exact number : ℚ} {value : Binary64}
    (rounds : Rounds exact value number) : |exact| / 2 ≤ |number| := by
  -- Half of the number is one of the parts that the error is no larger than.
  have two := rounds.error_mul_le (show 2 ≤ twoTo 53 by decide)
  rw [Nat.cast_two] at two
  have parts := abs_sub_abs_le_abs_sub exact number
  rw [abs_sub_comm] at parts
  linarith

/-- A number of units is split into its sign and its size. -/
theorem signed_natAbs (units : Int) : signed (units < 0) units.natAbs = units := by
  unfold signed
  by_cases negative : units < 0
  · simp only [negative, decide_true, if_true]
    omega
  · simp only [negative, decide_false, Bool.false_eq_true, if_false]
    omega

variable {first second : ℚ} {value other : Binary64}

/-- Sums are rounded. -/
theorem rounds_add (is : value.Is first) (otherIs : other.Is second)
    (below : |first + second| < reach) :
    ∃ number, Rounds (first + second) (value.add other) number := by
  obtain ⟨left, magnitude, rfl, inUnits⟩ := is.exists_finite
  obtain ⟨right, otherMagnitude, rfl, otherInUnits⟩ := otherIs.exists_finite
  have total : (first + second) * scale =
      (signed left magnitude.units + signed right otherMagnitude.units : Int) := by
    rw [add_mul, inUnits, otherInUnits, Int.cast_add]
  unfold add
  dsimp only
  generalize signed left magnitude.units + signed right otherMagnitude.units = units at total ⊢
  -- An exact zero is a case of its own, since its sign follows another rule.
  split
  · rename_i none
    subst none
    apply rounds_ofUnits Nat.one_pos _ below (.inl rfl)
    rw [total, signed_eq]
    simp
  · apply rounds_ofUnits Nat.one_pos _ below (.inr (.inl rfl))
    rw [total, signed_natAbs, Nat.cast_one, mul_one]

/-- The sign of a product comes from those of its factors. -/
theorem signed_mul (left right : Bool) (units others : Nat) :
    signed left units * signed right others = signed (left != right) (units * others) := by
  cases left with
  | true => cases right <;> simp [signed]
  | false => cases right <;> simp [signed]

/-- Products that are not too small are rounded. -/
theorem rounds_mul (is : value.Is first) (otherIs : other.Is second)
    (below : |first * second| < reach)
    (normal : first * second = 0 ∨ (twoTo 52 : ℚ) ≤ |first * second| * scale) :
    ∃ number, Rounds (first * second) (value.mul other) number := by
  obtain ⟨left, magnitude, rfl, inUnits⟩ := is.exists_finite
  obtain ⟨right, otherMagnitude, rfl, otherInUnits⟩ := otherIs.exists_finite
  have unit := scale_pos
  -- The product of the units is scaled twice, and is divided by the scale once.
  have product : first * second * scale * scale =
      signed (left != right) (magnitude.units * otherMagnitude.units) := by
    rw [← signed_mul, Int.cast_mul, ← inUnits, ← otherInUnits]
    ring
  have units : 0 < scale := twoTo_pos _
  apply rounds_ofUnits units product below
  have sizes := congrArg abs product
  rw [abs_signed, abs_mul, abs_mul, abs_of_pos unit] at sizes
  -- The error bound needs a quotient that is zero or has 53 digits before the point.
  rcases normal with zero | large
  · left
    rw [zero, abs_zero, zero_mul, zero_mul] at sizes
    exact_mod_cast sizes.symm
  · right
    right
    rw [Nat.le_div_iff_mul_le units]
    have scaled := mul_le_mul_of_nonneg_right large unit.le
    rw [sizes, ← Nat.cast_mul] at scaled
    exact Nat.cast_le.mp scaled

/-- Quotients of whole numbers are rounded when what they are divided by is not too large. -/
theorem rounds_ofRatio {negative : Bool} {numerator denominator : Nat} {exact : ℚ}
    (positive : 0 < denominator) (quotient : exact * denominator = signed negative numerator)
    (below : |exact| < reach) (normal : twoTo 52 * denominator ≤ scale) :
    ∃ number, Rounds exact (ofRatio negative numerator denominator) number := by
  unfold ofRatio
  apply rounds_ofUnits positive _ below
  · -- One over the denominator has 53 digits in units, and so has every other quotient but zero.
    rcases Nat.eq_zero_or_pos numerator with rfl | some
    · exact .inl (Nat.zero_mul _)
    · right
      right
      rw [Nat.le_div_iff_mul_le positive]
      exact Nat.le_trans normal (Nat.le_mul_of_pos_left _ some)
  · rw [signed_eq] at quotient ⊢
    rw [Nat.cast_mul]
    linear_combination (scale : ℚ) * quotient

/-- What is rounded to a number is finite, and no failure takes its place. -/
theorem Rounds.finiteOr {exact number : ℚ} (rounds : Rounds exact value number)
    (failure : Failure) : value.finiteOr failure = .ok value := by
  obtain ⟨negative, magnitude, rfl, -⟩ := rounds.is.exists_finite
  rfl

end Binary64

open Binary64 (reach scale Rounds)

/-- Whole numbers are rounded. -/
theorem rounds_wholeToReal {whole : Int} (below : |(whole : ℚ)| < reach) :
    ∃ value number, wholeToReal whole = .ok value ∧ Rounds whole value number := by
  have normal := Binary64.normal_of_short (show 1 ≤ twoTo 53 by decide)
  obtain ⟨number, rounds⟩ : ∃ number, Rounds whole (Binary64.ofInt whole) number := by
    unfold Binary64.ofInt
    -- A whole number is converted as the quotient by one, which is rounded once.
    apply Binary64.rounds_ofRatio Nat.one_pos _ below normal
    rw [Binary64.signed_natAbs, Nat.cast_one, mul_one]
  exact ⟨_, number, rounds.finiteOr _, rounds⟩

/-- Quotients by positive whole numbers that are not too large are rounded. -/
theorem rounds_wholeQuotient {numerator denominator : Int} (positive : 0 < denominator)
    (below : |(numerator : ℚ) / denominator| < reach)
    (normal : twoTo 52 * denominator.natAbs ≤ scale) :
    ∃ value number, wholeQuotient numerator denominator = .ok value ∧
      Rounds (numerator / denominator) value number := by
  -- The denominator is positive, so the sign is that of the numerator.
  have above : ¬denominator < 0 := by omega
  have size : (denominator : ℚ) = denominator.natAbs := by
    rw [← Int.cast_natCast, Int.natAbs_of_nonneg positive.le]
  have nonzero : (denominator.natAbs : ℚ) ≠ 0 := by
    rw [← size]
    exact Int.cast_ne_zero.mpr positive.ne'
  unfold wholeQuotient
  obtain ⟨number, rounds⟩ : ∃ number, Rounds (numerator / denominator)
      (Binary64.ofRatio (numerator < 0) numerator.natAbs denominator.natAbs) number := by
    apply Binary64.rounds_ofRatio (Int.natAbs_pos.mpr positive.ne') _ below normal
    rw [Binary64.signed_natAbs, size, div_mul_cancel₀ _ nonzero]
  refine ⟨_, number, ?_, rounds⟩
  rw [← rounds.finiteOr .quotientTooLarge]
  simp [above]

/-- Halves of whole numbers are rounded. -/
theorem rounds_half {twice : Int} (below : |(twice : ℚ) / 2| < reach) :
    ∃ value number, wholeQuotient twice 2 = .ok value ∧ Rounds (twice / 2) value number :=
  rounds_wholeQuotient two_pos below (Binary64.normal_of_short (show 2 ≤ twoTo 53 by decide))

end DiceLab
