import DiceLab.Power

/-! Binary64 values as whole numbers of the least positive value, rounded to nearest with ties to
even. -/

namespace DiceLab

/-- The quotient rounded to the nearest whole number, a half going to the even neighbour. -/
def roundQuotient (numerator denominator : Nat) : Nat :=
  let whole := numerator / denominator
  let twice := 2 * (numerator % denominator)
  if twice < denominator then whole
  else if denominator < twice then whole + 1
  else whole + whole % 2

/-- The rounded quotient is the whole part or the number after it. -/
theorem roundQuotient_bounds (numerator denominator : Nat) :
    numerator / denominator ≤ roundQuotient numerator denominator ∧
      roundQuotient numerator denominator ≤ numerator / denominator + 1 := by
  -- Each of the three branches adds zero or one to the whole part.
  unfold roundQuotient
  dsimp only
  split
  · omega
  · split <;> omega

namespace Binary64

/-- The number of units in one: the least positive value is `2 ^ -1074`. -/
def scale : Nat := twoTo 1074

/-- The first number of units that is too large for a finite value. -/
def overflow : Nat := twoTo 2098

/-- The distance between neighbouring values at a number of units: 53 binary digits are kept. -/
def spacing (units : Nat) : Nat := twoTo (units.log2 - 52)

/-- A number of units that needs no more than 53 binary digits. -/
def OnGrid (units : Nat) : Prop := spacing units ∣ units

instance (units : Nat) : Decidable (OnGrid units) := inferInstanceAs (Decidable (_ ∣ _))

/-- The grid point nearest to a quotient of units, a half going to the even multiple. -/
def nearest (numerator denominator : Nat) : Nat :=
  let step := spacing (numerator / denominator)
  roundQuotient numerator (denominator * step) * step

/-- A number with at most 53 binary digits is on the grid, and so is each of its doublings. -/
theorem onGrid_mul_twoTo {digits : Nat} (short : digits < twoTo 53) (shift : Nat) :
    OnGrid (digits * twoTo shift) := by
  unfold OnGrid spacing
  by_cases zero : digits = 0
  · simp [zero]
  -- The leading digit of the product is `shift` places above that of the short number.
  · have positive : digits * twoTo shift ≠ 0 :=
      Nat.mul_ne_zero zero (Nat.ne_of_gt (twoTo_pos shift))
    have below : digits * twoTo shift < twoTo (53 + shift) := by
      rw [twoTo_add]
      exact Nat.mul_lt_mul_of_pos_right short (twoTo_pos shift)
    have leading := (Nat.log2_lt positive).mpr below
    exact Nat.dvd_trans (twoTo_dvd (by omega)) (Nat.dvd_mul_left _ _)

/-- Rounding always lands on the grid. -/
theorem onGrid_nearest (numerator denominator : Nat) : OnGrid (nearest numerator denominator) := by
  unfold nearest spacing
  dsimp only
  -- Dividing by the spacing leaves at most 53 digits, and rounding may carry to the next power of
  -- two.
  have bounds := (roundQuotient_bounds numerator
    (denominator * twoTo ((numerator / denominator).log2 - 52))).2
  have whole : numerator / (denominator * twoTo ((numerator / denominator).log2 - 52)) <
      twoTo 53 := by
    rw [← Nat.div_div_eq_div_mul]
    apply Nat.div_lt_of_lt_mul
    rw [← twoTo_add]
    exact Nat.lt_of_lt_of_le (lt_twoTo_log2 _) (twoTo_le (by omega))
  generalize roundQuotient numerator _ = rounded at bounds ⊢
  generalize (numerator / denominator).log2 - 52 = shift
  by_cases short : rounded < twoTo 53
  · exact onGrid_mul_twoTo short shift
  · have carried : rounded = twoTo 52 * twoTo 1 := by
      rw [← twoTo_add]
      show rounded = twoTo 53
      omega
    rw [carried, Nat.mul_assoc, ← twoTo_add]
    exact onGrid_mul_twoTo (by decide) _

/-- A finite magnitude: a number of units on the grid and below the overflow threshold. -/
structure Magnitude where
  /-- The magnitude divided by the least positive value. -/
  units : Nat
  onGrid : OnGrid units
  bounded : units < overflow
deriving DecidableEq

/-- The magnitude nearest to a quotient of units, or nothing when it overflows. -/
def Magnitude.nearest? (numerator denominator : Nat) : Option Magnitude :=
  if bounded : nearest numerator denominator < overflow then
    some ⟨nearest numerator denominator, onGrid_nearest _ _, bounded⟩
  else none

end Binary64

/-- A binary64 value; the not-a-number values are one, and a zero keeps its sign. -/
inductive Binary64 where
  | nan
  | infinite (negative : Bool)
  | finite (negative : Bool) (magnitude : Binary64.Magnitude)
deriving DecidableEq

namespace Binary64

/-- The value nearest to a signed quotient of units; past the largest finite value it is infinite.
-/
def ofUnits (negative : Bool) (numerator denominator : Nat) : Binary64 :=
  match Magnitude.nearest? numerator denominator with
  | some magnitude => .finite negative magnitude
  | none => .infinite negative

/-- The value nearest to a signed quotient. -/
def ofRatio (negative : Bool) (numerator denominator : Nat) : Binary64 :=
  ofUnits negative (numerator * scale) denominator

/-- The value nearest to a whole number. -/
def ofInt (value : Int) : Binary64 := ofRatio (value < 0) value.natAbs 1

/-- The value nearest to a decimal fraction `coefficient * 10 ^ exponent`. -/
def ofDecimal (negative : Bool) (coefficient : Nat) (exponent : Int) : Binary64 :=
  ofRatio negative (coefficient * tenTo exponent.toNat) (tenTo (-exponent).toNat)

/-- The value with the given 64 bits. -/
def ofBits (bits : UInt64) : Binary64 :=
  let negative := bits >>> 63 == 1
  let exponent := ((bits >>> 52) &&& 0x7ff).toNat
  let fraction := (bits &&& 0xfffffffffffff).toNat
  if exponent == 0x7ff then if fraction == 0 then .infinite negative else .nan
  else if exponent == 0 then ofUnits negative fraction 1
  else ofUnits negative ((twoTo 52 + fraction) * twoTo (exponent - 1)) 1

/-- The highest of the 64 bits holds the sign. -/
def signBit (negative : Bool) : UInt64 := if negative then 0x8000000000000000 else 0

/-- The 64 bits of a value; not-a-number is the quiet pattern with no payload. -/
def toBits : Binary64 → UInt64
  | .nan => 0x7ff8000000000000
  | .infinite negative => signBit negative ||| 0x7ff0000000000000
  | .finite negative magnitude =>
    -- The exponent field and the leading digit overlap, so adding them forms both fields at once.
    let shift := magnitude.units.log2 - 52
    signBit negative ||| (shift * twoTo 52 + magnitude.units / twoTo shift).toUInt64

end Binary64

end DiceLab
