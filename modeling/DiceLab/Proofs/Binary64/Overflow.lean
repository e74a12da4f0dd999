import DiceLab.Number
import Mathlib.Logic.Basic

/-! A whole number or a quotient has a finite binary64 value exactly when it is below one bound. -/

namespace DiceLab

/--
A quotient is rounded to less than an even number when it lies below it by more than a half.

At the half itself the even number is the one that is rounded to.
-/
theorem roundQuotient_lt_iff {numerator denominator bound : Nat} (positive : 0 < denominator)
    (even : bound % 2 = 0) :
    roundQuotient numerator denominator < bound ↔
      2 * numerator + denominator < 2 * (denominator * bound) := by
  have division := Nat.div_add_mod numerator denominator
  have small := Nat.mod_lt numerator positive
  unfold roundQuotient
  dsimp only
  generalize numerator / denominator = whole at *
  generalize numerator % denominator = part at *
  -- Whole parts near the bound compare as their multiples of the denominator do.
  have below (more : Nat) : whole + more ≤ bound ↔
      denominator * whole + denominator * more ≤ denominator * bound := by
    rw [← Nat.mul_add, Nat.mul_le_mul_left_iff positive]
  have above (more : Nat) : bound ≤ whole + more ↔
      denominator * bound ≤ denominator * whole + denominator * more := by
    rw [← Nat.mul_add, Nat.mul_le_mul_left_iff positive]
  -- Of all multiples these four are needed: the whole part, its two successors, and the bound.
  have reached := above 0
  have passed := above 1
  have next := below 1
  have second := below 2
  split
  · omega
  · split
    · omega
    · -- At the half the parity of the whole part decides, and the bound is even.
      have half : denominator = 2 * part := by omega
      have parity := Nat.mod_two_eq_zero_or_one whole
      omega

namespace Binary64

/-- The least whole number that is too large for a finite value to be the nearest one. -/
@[irreducible] def reach : Nat := (twoTo 54 - 1) * twoTo 970

/-- In units the bound is half a spacing below the overflow threshold. -/
theorem reach_mul_scale : 2 * (reach * scale) + twoTo 2045 = 2 * overflow := by decide +kernel

/-- One is a power of two. -/
theorem scale_eq : scale = twoTo 1074 := rfl

/-- Numbers with no more than 53 digits are far below the bound. -/
theorem lt_reach_of_short {number : Nat} (short : number ≤ twoTo 53) : number < reach :=
  -- The bound is a closed number, so that comparing it with the power is a computation.
  Nat.lt_of_le_of_lt short (by decide +kernel)

/-- One is large enough to be divided by them. -/
theorem normal_of_short {number : Nat} (short : number ≤ twoTo 53) : twoTo 52 * number ≤ scale := by
  -- The product has at most 105 digits, and one has 1075 when it is counted in units.
  have scaled := Nat.mul_le_mul_left (twoTo 52) short
  rw [← twoTo_add] at scaled
  rw [scale_eq]
  exact Nat.le_trans scaled (twoTo_le (by decide))

/-- A quotient whose leading digit is known is rounded to a multiple of one spacing. -/
theorem nearest_eq {numerator denominator exponent : Nat}
    (above : twoTo exponent ≤ numerator / denominator)
    (below : numerator / denominator < twoTo (exponent + 1)) :
    nearest numerator denominator =
      roundQuotient numerator (denominator * twoTo (exponent - 52)) * twoTo (exponent - 52) := by
  -- The leading digit of the quotient decides the spacing.
  have positive : numerator / denominator ≠ 0 := by
    have power := twoTo_pos exponent
    omega
  have leading : (numerator / denominator).log2 = exponent :=
    (Nat.log2_eq_iff positive).mpr ⟨above, below⟩
  unfold nearest spacing
  rw [leading]

/-- A quotient below a power of two is rounded to no more than that power. -/
theorem nearest_le {numerator denominator exponent : Nat} (digits : 53 ≤ exponent)
    (below : numerator / denominator < twoTo exponent) :
    nearest numerator denominator ≤ twoTo exponent := by
  unfold nearest spacing
  dsimp only
  have bounds := (roundQuotient_bounds numerator
    (denominator * twoTo ((numerator / denominator).log2 - 52))).2
  rw [← Nat.div_div_eq_div_mul] at bounds
  generalize roundQuotient numerator _ = rounded at bounds ⊢
  generalize numerator / denominator = whole at below bounds ⊢
  -- The power is a multiple of the spacing, so rounding up does not step over it.
  have shift : whole.log2 - 52 ≤ exponent := by
    by_cases zero : whole = 0
    · subst zero
      have log : Nat.log2 0 = 0 := by decide
      omega
    · have leading := (Nat.log2_lt zero).mpr below
      omega
  have places : twoTo exponent =
      twoTo (exponent - (whole.log2 - 52)) * twoTo (whole.log2 - 52) := by
    rw [← twoTo_add, Nat.sub_add_cancel shift]
  rw [places, Nat.mul_comm] at below
  have short := Nat.div_lt_of_lt_mul below
  rw [places]
  exact Nat.mul_le_mul_right _ (by omega)

/-- A quotient is rounded to no less than a power of two that it reaches. -/
theorem le_nearest {numerator denominator exponent : Nat} (digits : 52 ≤ exponent)
    (above : twoTo exponent ≤ numerator / denominator) :
    twoTo exponent ≤ nearest numerator denominator := by
  unfold nearest spacing
  dsimp only
  -- Rounding gives at least the whole part of the quotient by the spacing.
  have bounds := (roundQuotient_bounds numerator
    (denominator * twoTo ((numerator / denominator).log2 - 52))).1
  rw [← Nat.div_div_eq_div_mul] at bounds
  generalize roundQuotient numerator _ = rounded at bounds ⊢
  generalize numerator / denominator = whole at above bounds ⊢
  have positive : whole ≠ 0 := by
    have power := twoTo_pos exponent
    omega
  have least := (Nat.le_log2 positive).mpr above
  have leading := Nat.log2_self_le positive
  -- Dividing by the spacing keeps the leading digit and the 52 digits behind it.
  have places : twoTo whole.log2 = twoTo 52 * twoTo (whole.log2 - 52) := by
    rw [← twoTo_add]
    congr 1
    omega
  have kept : twoTo 52 ≤ whole / twoTo (whole.log2 - 52) := by
    rw [Nat.le_div_iff_mul_le (twoTo_pos _), ← places]
    exact leading
  calc
    twoTo exponent ≤ twoTo whole.log2 := twoTo_le least
    _ = twoTo 52 * twoTo (whole.log2 - 52) := places
    _ ≤ rounded * twoTo (whole.log2 - 52) := Nat.mul_le_mul_right _ (by omega)

/-- A quotient is rounded to a finite number of units exactly when it is below the bound. -/
theorem nearest_lt_overflow_iff {numerator denominator : Nat} (positive : 0 < denominator) :
    nearest numerator denominator < overflow ↔ numerator < reach * scale * denominator := by
  -- Everything is multiplied by the denominator, so that only products of whole numbers are
  -- compared.
  have half := congrArg (· * denominator) reach_mul_scale
  simp only [Nat.add_mul, Nat.mul_assoc 2] at half
  have quotient (bound : Nat) : numerator / denominator < bound ↔
      numerator < bound * denominator := Nat.div_lt_iff_lt_mul positive
  rcases Nat.lt_or_ge (numerator / denominator) (twoTo 2097) with small | large
  · -- Far below the threshold rounding cannot reach it.
    have rounded := nearest_le (by decide) small
    have power : twoTo 2097 < overflow := by decide +kernel
    have reached : twoTo 2097 * denominator ≤ reach * scale * denominator :=
      Nat.mul_le_mul_right _ (by decide +kernel)
    have below := (quotient _).mp small
    omega
  · rcases Nat.lt_or_ge (numerator / denominator) (twoTo 2098) with between | beyond
    · -- Here the spacing is known, and the threshold is an even multiple of it.
      rw [nearest_eq large between]
      have threshold : overflow = twoTo 53 * twoTo (2097 - 52) := by
        rw [← twoTo_add]
        rfl
      have spaced : 0 < denominator * twoTo (2097 - 52) := Nat.mul_pos positive (twoTo_pos _)
      rw [threshold, Nat.mul_lt_mul_right (twoTo_pos _),
        roundQuotient_lt_iff spaced (by decide +kernel)]
      have total : denominator * twoTo (2097 - 52) * twoTo 53 = overflow * denominator := by
        rw [threshold, Nat.mul_assoc, Nat.mul_comm denominator, Nat.mul_comm (twoTo 53)]
      have width : denominator * twoTo (2097 - 52) = twoTo 2045 * denominator := Nat.mul_comm _ _
      omega
    · -- A quotient at the threshold stays there.
      have rounded := le_nearest (by decide) beyond
      have above : overflow * denominator ≤ numerator := by
        have reached := (quotient (twoTo 2098)).not.mp (Nat.not_lt.mpr beyond)
        exact Nat.not_lt.mp reached
      change overflow ≤ _ at rounded
      omega

/-- A quotient of units below the bound has a finite value, which is the nearest one. -/
theorem ofUnits_of_lt {negative : Bool} {numerator denominator : Nat} (positive : 0 < denominator)
    (below : numerator < reach * scale * denominator) :
    ∃ magnitude, ofUnits negative numerator denominator = .finite negative magnitude ∧
      magnitude.units = nearest numerator denominator := by
  -- The nearest number of units does not overflow, so it makes a magnitude.
  have bounded := (nearest_lt_overflow_iff positive).mpr below
  have found : Magnitude.nearest? numerator denominator =
      some ⟨nearest numerator denominator, onGrid_nearest _ _, bounded⟩ := dif_pos bounded
  unfold ofUnits
  rw [found]
  exact ⟨_, rfl, rfl⟩

/-- A quotient of units at the bound or beyond it is infinite. -/
theorem ofUnits_of_le {negative : Bool} {numerator denominator : Nat} (positive : 0 < denominator)
    (beyond : reach * scale * denominator ≤ numerator) :
    ofUnits negative numerator denominator = .infinite negative := by
  -- The nearest number of units overflows, so there is no magnitude.
  have large := (nearest_lt_overflow_iff positive).not.mpr (Nat.not_lt.mpr beyond)
  have none : Magnitude.nearest? numerator denominator = none := dif_neg large
  unfold ofUnits
  rw [none]

/-- A quotient has a finite value or is infinite, as it lies below the bound or not. -/
theorem ofRatio_cases (negative : Bool) (numerator : Nat) {denominator : Nat}
    (positive : 0 < denominator) :
    (numerator < reach * denominator ∧
        ∃ magnitude, ofRatio negative numerator denominator = .finite negative magnitude) ∨
      (¬numerator < reach * denominator ∧
        ofRatio negative numerator denominator = .infinite negative) := by
  -- Counting in units multiplies both sides of the bound.
  have unit : 0 < scale := twoTo_pos _
  have counted : reach * denominator * scale = reach * scale * denominator :=
    Nat.mul_right_comm _ _ _
  rcases Nat.lt_or_ge numerator (reach * denominator) with below | beyond
  · have units := Nat.mul_lt_mul_of_pos_right below unit
    rw [counted] at units
    obtain ⟨magnitude, finite, -⟩ := ofUnits_of_lt positive units
    exact .inl ⟨below, magnitude, finite⟩
  · have units := Nat.mul_le_mul_right scale beyond
    rw [counted] at units
    exact .inr ⟨Nat.not_lt.mpr beyond, ofUnits_of_le positive units⟩

/-- A quotient comes out finite exactly when it is below the bound. -/
theorem exists_finiteOr_ofRatio {negative : Bool} {numerator denominator : Nat}
    {failure : Failure} (positive : 0 < denominator) :
    (∃ real, (ofRatio negative numerator denominator).finiteOr failure = .ok real) ↔
      numerator < reach * denominator := by
  -- Only an infinite value is replaced by the failure.
  rcases ofRatio_cases negative numerator positive with
    ⟨below, magnitude, finite⟩ | ⟨beyond, infinite⟩
  · rw [finite]
    exact ⟨fun _ => below, fun _ => ⟨_, rfl⟩⟩
  · rw [infinite]
    simp [beyond, finiteOr]

end Binary64

/-- Whole numbers have a finite quotient exactly when it is below the bound. -/
theorem exists_wholeQuotient_eq_ok {numerator denominator : Int} (nonzero : denominator ≠ 0) :
    (∃ real, wholeQuotient numerator denominator = .ok real) ↔
      numerator.natAbs < Binary64.reach * denominator.natAbs := by
  rw [wholeQuotient]
  exact Binary64.exists_finiteOr_ofRatio (Int.natAbs_pos.mpr nonzero)

/-- A whole number has a finite value exactly when it is below the bound. -/
theorem exists_wholeToReal_eq_ok {value : Int} :
    (∃ real, wholeToReal value = .ok real) ↔ value.natAbs < Binary64.reach := by
  -- A whole number is rounded as the quotient by one.
  rw [wholeToReal, Binary64.ofInt, Binary64.exists_finiteOr_ofRatio Nat.one_pos, Nat.mul_one]

end DiceLab
