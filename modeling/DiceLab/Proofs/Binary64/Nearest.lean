import DiceLab.Proofs.Binary64.Monotone
import Mathlib.Algebra.Order.Group.Unbundled.Abs

/-! Rounding picks the nearest of all finite values, and keeps numbers apart that lie far enough from
each other. -/

namespace DiceLab

/-- No multiple of the denominator is closer to the numerator than that of the rounded quotient. -/
theorem roundQuotient_closest (numerator whole : Nat) {denominator : Nat}
    (positive : 0 < denominator) :
    ((roundQuotient numerator denominator * denominator : Nat) - numerator : Int).natAbs ≤
      ((whole * denominator : Nat) - numerator : Int).natAbs := by
  have error : 2 * numerator ≤ 2 * (roundQuotient numerator denominator * denominator) + denominator ∧
      2 * (roundQuotient numerator denominator * denominator) ≤ 2 * numerator + denominator :=
    roundQuotient_error positive
  generalize roundQuotient numerator denominator = rounded at error ⊢
  -- Another multiple is a whole denominator away, and the rounded one at most half of it.
  rcases Nat.lt_trichotomy whole rounded with less | rfl | more
  · have apart := Nat.mul_le_mul_right denominator (Nat.succ_le_of_lt less)
    rw [Nat.succ_mul] at apart
    omega
  · exact le_rfl
  · have apart := Nat.mul_le_mul_right denominator (Nat.succ_le_of_lt more)
    rw [Nat.succ_mul] at apart
    omega

namespace Binary64

/-- A coarser spacing is a multiple of a finer one. -/
theorem spacing_dvd {units other : Nat} (le : units.log2 ≤ other.log2) :
    spacing units ∣ spacing other :=
  twoTo_dvd (Nat.sub_le_sub_right le 52)

/-- A number on a grid as coarse as that of the quotient is no closer than the rounded quotient. -/
theorem nearest_closest_of_dvd {numerator denominator units : Nat} (positive : 0 < denominator)
    (multiple : spacing (numerator / denominator) ∣ units) :
    ((nearest numerator denominator * denominator : Nat) - numerator : Int).natAbs ≤
      ((units * denominator : Nat) - numerator : Int).natAbs := by
  obtain ⟨steps, rfl⟩ := multiple
  unfold nearest
  dsimp only
  generalize spaced : spacing (numerator / denominator) = step
  have stepPositive : 0 < step := spaced ▸ twoTo_pos _
  -- Counted in steps, both are multiples of one denominator.
  have counted (count : Nat) : count * step * denominator = count * (denominator * step) := by
    rw [Nat.mul_assoc, Nat.mul_comm step]
  rw [Nat.mul_comm step, counted, counted]
  exact roundQuotient_closest numerator steps (Nat.mul_pos positive stepPositive)

/-- No number on the grid is closer to a quotient than the rounded one. -/
theorem nearest_closest (numerator : Nat) {denominator units : Nat} (positive : 0 < denominator)
    (grid : OnGrid units) :
    ((nearest numerator denominator * denominator : Nat) - numerator : Int).natAbs ≤
      ((units * denominator : Nat) - numerator : Int).natAbs := by
  by_cases fine : (numerator / denominator).log2 ≤ units.log2
  · exact nearest_closest_of_dvd positive (Nat.dvd_trans (spacing_dvd fine) grid)
  · generalize whole : numerator / denominator = quotient at fine
    have nonzero : quotient ≠ 0 := by
      rintro rfl
      simp [Nat.log2_zero] at fine
    -- A finer grid ends below the leading digit of the quotient, which is closer to the quotient.
    have power : spacing quotient ∣ twoTo quotient.log2 := twoTo_dvd (Nat.sub_le _ _)
    rw [← whole] at power
    have closest := nearest_closest_of_dvd positive power
    have below : units ≤ twoTo quotient.log2 := by
      have leading := lt_twoTo_log2 units
      exact Nat.le_trans leading.le (twoTo_le (by omega))
    have above : twoTo quotient.log2 * denominator ≤ numerator := by
      calc
        twoTo quotient.log2 * denominator ≤ quotient * denominator :=
          Nat.mul_le_mul_right _ (Nat.log2_self_le nonzero)
        _ ≤ numerator := whole ▸ Nat.div_mul_le_self numerator denominator
    rw [whole] at closest
    have scaled := Nat.mul_le_mul_right denominator below
    omega

/-- Zero is on the grid. -/
theorem onGrid_zero : OnGrid 0 := Nat.dvd_zero _

/-- No signed number on the grid is closer to a signed quotient than the rounded one. -/
theorem signed_nearest_closest {numerator denominator units : Nat} (negative other : Bool)
    (positive : 0 < denominator) (grid : OnGrid units) :
    (signed negative (nearest numerator denominator) * denominator -
        signed negative numerator).natAbs ≤
      (signed other units * denominator - signed negative numerator).natAbs := by
  have closest := nearest_closest numerator positive grid
  have zero := nearest_closest numerator positive onGrid_zero
  rw [← signed_mul_natCast, ← signed_mul_natCast]
  generalize nearest numerator denominator * denominator = reached at closest zero ⊢
  generalize units * denominator = distance at closest ⊢
  -- With the other sign a number lies beyond zero, which is farther away than zero is.
  cases negative with
  | true =>
    cases other with
    | true =>
      simp only [signed, if_true]
      omega
    | false =>
      simp only [signed, if_true, Bool.false_eq_true, if_false]
      omega
  | false =>
    cases other with
    | true =>
      simp only [signed, if_true, Bool.false_eq_true, if_false]
      omega
    | false =>
      simp only [signed, Bool.false_eq_true, if_false]
      omega

variable {value other : Binary64} {number otherNumber exact : ℚ}

/-- A value that is a number has its units on the grid. -/
theorem Is.exists_onGrid (is : value.Is number) :
    ∃ negative units, OnGrid units ∧ number * scale = signed negative units := by
  obtain ⟨negative, magnitude, -, inUnits⟩ := is.exists_finite
  exact ⟨negative, magnitude.units, magnitude.onGrid, inUnits⟩

/-- A rounded quotient that is a number has the nearest number of units. -/
theorem Is.of_ofUnits {negative : Bool} {numerator denominator : Nat}
    (is : (ofUnits negative numerator denominator).Is number) :
    number * scale = signed negative (nearest numerator denominator) := by
  obtain ⟨units, placed, equal⟩ := is.exists_place
  rw [place_ofUnits] at placed
  split at placed
  · rw [equal, le_antisymm (placeAt_le.mp placed.le) (placeAt_le.mp placed.ge)]
  · -- The two ends of the line are no places of units.
    cases negative with
    | true => simp [placeAt] at placed
    | false => simp [placeAt] at placed

/-- No finite value is closer to a quotient than the one that it is rounded to. -/
theorem Is.closest {negative : Bool} {numerator denominator : Nat} (positive : 0 < denominator)
    (quotient : exact * scale * denominator = signed negative numerator)
    (is : (ofUnits negative numerator denominator).Is number) (otherIs : other.Is otherNumber) :
    |number - exact| ≤ |otherNumber - exact| := by
  obtain ⟨otherNegative, units, grid, otherUnits⟩ := otherIs.exists_onGrid
  have inUnits := is.of_ofUnits
  have span : (0 : ℚ) < scale * denominator := mul_pos scale_pos (Nat.cast_pos.mpr positive)
  have closest : (|signed negative (nearest numerator denominator) * denominator -
      signed negative numerator| : ℤ) ≤
      |signed otherNegative units * denominator - signed negative numerator| := by
    rw [Int.abs_eq_natAbs, Int.abs_eq_natAbs]
    exact Int.ofNat_le.mpr (signed_nearest_closest negative otherNegative positive grid)
  -- Distances are compared in units of the denominator.
  have scaled {some : ℚ} {count : Int} (known : some * scale = count) :
      |some - exact| * (scale * denominator) =
        (|count * denominator - signed negative numerator| : ℤ) := by
    have product : |(some - exact) * (scale * denominator)| =
        |some - exact| * (scale * denominator) := by
      rw [abs_mul, abs_of_pos span]
    rw [Int.cast_abs, Int.cast_sub, Int.cast_mul, Int.cast_natCast, ← known, ← quotient, ← product]
    congr 1
    ring
  apply le_of_mul_le_mul_right _ span
  rw [scaled inUnits, scaled otherUnits]
  exact Int.cast_le.mpr closest

/-- A value is nearest to a number: every other number that a value is lies farther away. -/
def IsNearest (value : Binary64) (exact : ℚ) : Prop :=
  ∃ number, value.Is number ∧ ∀ {other : Binary64} {otherNumber : ℚ}, other.Is otherNumber →
    otherNumber ≠ number → |number - exact| < |otherNumber - exact|

/-- A closest value is the nearest one when the number is a value itself, or lies halfway between no
two of them. -/
theorem Is.isNearest (is : value.Is number)
    (closest : ∀ {other : Binary64} {otherNumber : ℚ}, other.Is otherNumber →
      |number - exact| ≤ |otherNumber - exact|)
    (single : (∃ known : Binary64, known.Is exact) ∨ ∀ units : Int, 2 * exact * scale ≠ units) :
    value.IsNearest exact := by
  refine ⟨number, is, fun otherIs apart => lt_of_le_of_ne (closest otherIs) fun tie => apart ?_⟩
  rcases single with ⟨known, knownIs⟩ | uneven
  · -- What is a value is its own closest one, so both distances are none.
    have none := closest knownIs
    rw [sub_self, abs_zero, abs_nonpos_iff] at none
    rw [none, abs_zero, eq_comm, abs_eq_zero] at tie
    rw [sub_eq_zero.mp none, sub_eq_zero.mp tie]
  · rcases abs_eq_abs.mp tie with same | opposite
    · exact (sub_left_injective same).symm
    · -- Twice the number is the sum of the two values, which is a whole number of units.
      obtain ⟨units, -, inUnits⟩ := is
      obtain ⟨others, -, otherUnits⟩ := otherIs
      refine absurd ?_ (uneven (units + others))
      rw [Int.cast_add, ← inUnits, ← otherUnits]
      linear_combination scale * (-opposite)

/-- Numbers that are far enough apart are rounded to numbers in the same order. -/
theorem Rounds.lt {first second : ℚ} (rounds : Rounds first value number)
    (otherRounds : Rounds second other otherNumber)
    (apart : |first| + |second| < (second - first) * twoTo 53) : number < otherNumber := by
  have power : (0 : ℚ) < twoTo 53 := Nat.cast_pos.mpr (twoTo_pos 53)
  -- Each rounding error is at most a `2 ^ 53`rd of its number, and together they stay under the
  -- gap.
  have above : (number - first) * twoTo 53 ≤ |first| :=
    le_trans (mul_le_mul_of_nonneg_right (le_abs_self _) power.le) rounds.error
  have below : (second - otherNumber) * twoTo 53 ≤ |second| := by
    refine le_trans (mul_le_mul_of_nonneg_right (le_abs_self _) power.le) ?_
    rw [abs_sub_comm]
    exact otherRounds.error
  apply lt_of_mul_lt_mul_right _ power.le
  linarith

end Binary64

end DiceLab
