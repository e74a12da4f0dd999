import DiceLab.Proofs.Binary64.Within
import DiceLab.Proofs.Coercion
import DiceLab.Proofs.Decimal.Numeral
import DiceLab.Proofs.Value.Short

/-! Whatever value is given for a whole number, it is known which number within the bounds is used,
and only a warning in which a number is too long to be written stands in the way of it. -/

namespace DiceLab

/-- A number without its fraction. -/
def wholePart (number : ℚ) : Int := if 0 ≤ number then ⌊number⌋ else ⌈number⌉

namespace Binary64

variable {value : Binary64} {number : ℚ}

/-- A quotient is truncated to its whole part. -/
theorem tdiv_eq_wholePart (units : Int) (size : Nat) (positive : 0 < size) :
    units.tdiv size = wholePart (units / size) := by
  have divisor : (0 : ℚ) < size := Nat.cast_pos.mpr positive
  have above : 0 ≤ (units / size : ℚ) ↔ 0 ≤ units := by
    rw [le_div_iff₀ divisor, zero_mul, Int.cast_nonneg_iff]
  rw [wholePart]
  by_cases sign : 0 ≤ units
  · rw [if_pos (above.mpr sign), Rat.floor_intCast_div_natCast, Int.tdiv_eq_ediv_of_nonneg sign]
  · -- Below zero the quotient is that of the number without its sign, with the sign put back.
    have size : units = -(-units) := (Int.neg_neg units).symm
    rw [if_neg (fun other => sign (above.mp other)), size, Int.neg_tdiv,
      Int.tdiv_eq_ediv_of_nonneg (by omega), Int.cast_neg, neg_div, Int.ceil_neg,
      Rat.floor_intCast_div_natCast]

/-- A value that is a number is truncated to the whole part of that. -/
theorem Is.truncate_eq (is : value.Is number) : value.truncate = .ok (wholePart number) := by
  obtain ⟨negative, magnitude, rfl, inUnits⟩ := is.exists_finite
  have quotient : number = (signed negative magnitude.units : Int) / (scale : Nat) := by
    rw [← inUnits, mul_div_cancel_right₀ _ scale_pos.ne']
  rw [quotient, ← tdiv_eq_wholePart _ scale (twoTo_pos 1074)]
  rfl

/-- A whole part can be written. -/
theorem Is.writable_wholePart (is : value.Is number) : Decimal.Writable (wholePart number) := by
  have ok := is.truncate_eq
  obtain ⟨negative, magnitude, rfl, -⟩ := is.exists_finite
  obtain whole := Except.ok.inj ok
  rw [← whole, Decimal.Writable, Int.natAbs_tdiv]
  have size : (signed negative magnitude.units).natAbs = magnitude.units := by
    cases negative with
    | true => simp [signed]
    | false => simp [signed]
  rw [size]
  -- Less is left of the units than there are in the largest value.
  calc magnitude.units / (scale : Int).natAbs
    _ ≤ magnitude.units := Nat.div_le_self _ _
    _ < overflow := magnitude.bounded
    _ < tenTo Decimal.digitLimit := by decide +kernel

end Binary64

namespace Value

/-- A value is a whole number; a truth value is none. -/
def Is : Value → Int → Prop
  | .whole value, number => value = number
  | .real value, number => value.Is number
  | _, _ => False

/-- A value stands for a whole number: it is one, has one in front of its fraction, or spells
one. -/
inductive StandsFor : Value → Int → Prop where
  | whole (value : Int) : StandsFor (.whole value) value
  | real {value : Binary64} {number : ℚ} (is : value.Is number) :
    StandsFor (.real value) (wholePart number)
  | text {text : Text} {value : Int} (spelled : Decimal.Spelled text value) :
    StandsFor (.text text) value

end Value

/-- A number that a short value stands for can be written. -/
theorem Value.StandsFor.writable {value : Value} {number : Int} (stands : value.StandsFor number)
    (short : value.Short) : Decimal.Writable number := by
  cases stands with
  | whole =>
    -- Of the three kinds only a whole number has to be short by itself.
    cases short with
    | whole writable => exact writable
  | real is => exact is.writable_wholePart
  | text spelled => exact spelled.writable

/-- A number was held within bounds: one that lies beyond a bound became that bound, and any other
was kept. -/
structure HeldWithin (low : Int) (high : Option Int) (number used : Int) : Prop where
  above : low ≤ used
  below : ∀ bound, high = some bound → used ≤ bound
  raised : number < low → used = low
  lowered : ∀ bound, high = some bound → bound < number → used = bound
  kept : low ≤ number → (∀ bound, high = some bound → number ≤ bound) → used = number

/-- What lies within the bounds is not changed by them. -/
theorem HeldWithin.clampWhole_eq {low : Int} {high : Option Int} {number used : Int}
    (held : HeldWithin low high number used) : clampWhole low high used = used := by
  have above := held.above
  have below := held.below
  -- A number that is within its bounds is held where it is.
  cases high with
  | none =>
    simp only [clampWhole]
    omega
  | some bound =>
    have under := below bound rfl
    simp only [clampWhole]
    omega

variable {name : Text} {low used : Int} {high default : Option Int} {value : Value}

end DiceLab
