import DiceLab.Proofs.Binary64.Nearest

/-! Numbers of units and their sums with a half: short ones are summed exactly enough to keep their
whole part, and large ones lie halfway between two even numbers or a whole spacing away. -/

namespace DiceLab

/-- A quotient that lies less than a half from a whole number is rounded to it. -/
theorem roundQuotient_of_close {numerator denominator whole : Nat}
    (above : 2 * (whole * denominator) < 2 * numerator + denominator)
    (below : 2 * numerator < 2 * (whole * denominator) + denominator) :
    roundQuotient numerator denominator = whole := by
  have positive : 0 < denominator := by omega
  have error : 2 * numerator ≤
        2 * (roundQuotient numerator denominator * denominator) + denominator ∧
      2 * (roundQuotient numerator denominator * denominator) ≤ 2 * numerator + denominator :=
    roundQuotient_error positive
  generalize roundQuotient numerator denominator = rounded at error ⊢
  -- Both are multiples of the denominator, and less than one denominator apart.
  have notAbove : rounded * denominator < (whole + 1) * denominator := by
    rw [Nat.succ_mul]
    omega
  have notBelow : whole * denominator < (rounded + 1) * denominator := by
    rw [Nat.succ_mul]
    omega
  have most := Nat.lt_of_mul_lt_mul_right notAbove
  have least := Nat.lt_of_mul_lt_mul_right notBelow
  omega

/-- A quotient that lies halfway between two whole numbers is rounded to the even one. -/
theorem roundQuotient_halfway (whole : Nat) {half : Nat} (positive : 0 < half) :
    roundQuotient (whole * (2 * half) + half) (2 * half) = whole + whole % 2 := by
  have quotient : (whole * (2 * half) + half) / (2 * half) = whole := by
    rw [Nat.mul_comm, Nat.mul_add_div (by omega), Nat.div_eq_of_lt (by omega), Nat.add_zero]
  have rest : (whole * (2 * half) + half) % (2 * half) = half := by
    rw [Nat.mul_comm, Nat.mul_add_mod, Nat.mod_eq_of_lt (by omega)]
  -- Twice the rest is the divisor, so neither neighbour is nearer and the parity decides.
  unfold roundQuotient
  dsimp only
  rw [quotient, rest, if_neg (by omega), if_neg (by omega)]

namespace Binary64

/-- The number of units in a half. -/
def halfUnits : Nat := twoTo 1073

/-- A half is a power of two. -/
theorem halfUnits_eq : halfUnits = twoTo 1073 := rfl

/-- One is two halves. -/
theorem scale_eq_halves : scale = 2 * halfUnits := by
  rw [scale_eq, halfUnits_eq, show 2 = twoTo 1 from rfl, ← twoTo_add]

/-- A half has units. -/
theorem halfUnits_pos : 0 < halfUnits := twoTo_pos 1073

/-- The number of units, with its sign, that a number of units is rounded to. -/
def nearestUnits (units : Int) : Int := signed (units < 0) (nearest units.natAbs 1)

/-- Without a sign there is nothing to turn around. -/
theorem nearestUnits_of_nonneg {units : Int} (positive : 0 ≤ units) :
    nearestUnits units = nearest units.natAbs 1 := by
  simp [nearestUnits, signed, Int.not_lt.mpr positive]

/-- Rounding treats both signs alike. -/
theorem nearestUnits_neg (units : Int) : nearestUnits (-units) = -nearestUnits units := by
  unfold nearestUnits signed
  rw [Int.natAbs_neg]
  -- The sign is taken from a comparison with zero, which both zeros fail.
  rcases lt_trichotomy units 0 with negative | rfl | positive
  · have other : ¬-units < 0 := by omega
    simp only [negative, other, decide_true, decide_false, if_true, Bool.false_eq_true, if_false,
      neg_neg]
  · simp [nearest_zero]
  · have other : -units < 0 := by omega
    have none : ¬units < 0 := by omega
    simp only [none, other, decide_true, decide_false, if_true, Bool.false_eq_true, if_false]

/-- More units are not rounded to fewer. -/
theorem nearestUnits_mono {units others : Int} (le : units ≤ others) :
    nearestUnits units ≤ nearestUnits others := by
  unfold nearestUnits signed
  by_cases negative : units < 0
  · by_cases otherNegative : others < 0
    · have turned : nearest others.natAbs 1 ≤ nearest units.natAbs 1 := nearest_mono (by omega)
      simpa [negative, otherNegative] using turned
    · -- Zero stands between the two.
      simp only [negative, otherNegative, decide_true, decide_false, if_true, Bool.false_eq_true,
        if_false]
      omega
  · have positive : ¬others < 0 := by omega
    have kept : nearest units.natAbs 1 ≤ nearest others.natAbs 1 := nearest_mono (by omega)
    simpa [negative, positive] using kept

/-- A number of units on the grid is not moved. -/
theorem nearestUnits_of_onGrid {units : Int} (grid : OnGrid units.natAbs) :
    nearestUnits units = units := by
  have kept := nearest_of_onGrid Nat.one_pos grid
  rw [Nat.mul_one] at kept
  rw [nearestUnits, kept, signed_natAbs]

/-- A short number of halves stands on the grid. -/
theorem onGrid_halves {halves : Int} (short : halves.natAbs ≤ twoTo 53) :
    OnGrid (halves * halfUnits).natAbs := by
  rw [Int.natAbs_mul, Int.natAbs_natCast]
  exact onGrid_of_short short 1073

/-- Below a power of two the grid ends one spacing short of the power. -/
theorem onGrid_below {units exponent : Nat} (digits : 53 ≤ exponent) (grid : OnGrid units)
    (below : units < twoTo exponent) :
    units + twoTo (exponent - 53) = twoTo exponent ∨
      units + 2 * twoTo (exponent - 53) ≤ twoTo exponent := by
  have half : twoTo exponent = 2 * twoTo (exponent - 1) := by
    rw [show 2 = twoTo 1 from rfl, ← twoTo_add]
    congr 1
    omega
  by_cases small : units < twoTo (exponent - 1)
  · -- Under half of the power there is room for many spacings.
    have room : 2 * twoTo (exponent - 53) ≤ twoTo (exponent - 1) := by
      rw [show 2 = twoTo 1 from rfl, ← twoTo_add]
      exact twoTo_le (by omega)
    right
    omega
  · have nonzero : units ≠ 0 := by
      have power := twoTo_pos (exponent - 1)
      omega
    have upper := (Nat.log2_lt nonzero).mpr below
    have lower := (Nat.le_log2 nonzero).mpr (Nat.not_lt.mp small)
    have leading : units.log2 - 52 = exponent - 53 := by omega
    obtain ⟨steps, made⟩ := grid
    rw [spacing, leading] at made
    have power : twoTo exponent = twoTo (exponent - 53) * twoTo 53 := by
      rw [← twoTo_add]
      congr 1
      omega
    -- Counted in spacings, the number is below the power by one or by more.
    rw [made, power] at below ⊢
    have fewer := Nat.lt_of_mul_lt_mul_left below
    rcases Nat.lt_or_ge (steps + 1) (twoTo 53) with more | one
    · right
      have scaled := Nat.mul_le_mul_left (twoTo (exponent - 53)) (show steps + 2 ≤ twoTo 53 by omega)
      rw [Nat.mul_add] at scaled
      omega
    · left
      rw [show twoTo 53 = steps + 1 by omega, Nat.mul_succ]

/-- Below a half the grid ends one spacing short of the half. -/
theorem onGrid_below_half {units : Nat} (grid : OnGrid units) (below : units < halfUnits) :
    units + twoTo 1020 = halfUnits ∨ units + 2 * twoTo 1020 ≤ halfUnits := by
  have spaced : 1073 - 53 = 1020 := rfl
  rw [halfUnits_eq] at below ⊢
  rw [← spaced]
  exact onGrid_below (by decide) grid below

/-- Below the first whole number without halves around it, the grid ends a half short of that. -/
theorem onGrid_below_large {units : Nat} (grid : OnGrid units)
    (below : units < twoTo 52 * scale) : units + halfUnits ≤ twoTo 52 * scale := by
  have spaced : 52 + 1074 - 53 = 1073 := rfl
  rw [scale_eq, ← twoTo_add] at below ⊢
  have ends := onGrid_below (by decide) grid below
  rw [spaced, ← halfUnits_eq] at ends
  omega

/-- A power of two that a number on the grid reaches has a spacing that divides the number. -/
theorem dvd_of_onGrid {units exponent : Nat} (grid : OnGrid units)
    (reached : twoTo exponent ≤ units) : twoTo (exponent - 52) ∣ units := by
  have nonzero : units ≠ 0 := by
    have power := twoTo_pos exponent
    omega
  -- Spacings grow with the number, and each one divides those that are wider.
  have digits := (Nat.le_log2 nonzero).mpr reached
  exact Nat.dvd_trans (twoTo_dvd (by omega)) grid

/-- A number below a power of two has no more digits than its exponent. -/
theorem log2_lt_of_lt {units exponent : Nat} (some : 0 < exponent) (below : units < twoTo exponent) :
    units.log2 < exponent := by
  by_cases zero : units = 0
  · rw [zero, Nat.log2_zero]
    exact some
  · exact (Nat.log2_lt zero).mpr below

/-- A larger number has no fewer digits. -/
theorem log2_mono {units others : Nat} (le : units ≤ others) : units.log2 ≤ others.log2 := by
  rw [Nat.log2_eq_log_two, Nat.log2_eq_log_two]
  exact Nat.log_mono_right le

/-- A sum with a half is on the grid when it has no more digits than the number, and a digit left for
the half. -/
theorem onGrid_add_half {units : Int} (grid : OnGrid units.natAbs)
    (digits : (units + halfUnits).natAbs.log2 ≤ units.natAbs.log2)
    (short : (units + halfUnits).natAbs.log2 < 1126) : OnGrid (units + halfUnits).natAbs := by
  -- Its spacing divides the number and the half, so it divides their sum.
  have inUnits : spacing (units + halfUnits).natAbs ∣ units.natAbs :=
    Nat.dvd_trans (spacing_dvd digits) grid
  have inHalf : spacing (units + halfUnits).natAbs ∣ halfUnits := twoTo_dvd (by omega)
  have sum : ((spacing (units + halfUnits).natAbs : Nat) : Int) ∣ units + halfUnits :=
    Int.dvd_add (Int.natCast_dvd.mpr inUnits) (Int.natCast_dvd_natCast.mpr inHalf)
  exact Int.natCast_dvd.mp sum

/-- A sum with a half has no more digits than a number that reaches the same whole number, unless that
is zero. -/
theorem log2_add_half_le {units whole : Int} (nonzero : whole ≠ 0) (reached : whole * scale ≤ units)
    (above : units + halfUnits < (whole + 1) * scale) :
    (units + halfUnits).natAbs.log2 ≤ units.natAbs.log2 := by
  have one : (0 : Int) < scale := Int.natCast_pos.mpr (twoTo_pos _)
  rcases Int.lt_or_gt_of_ne nonzero with negative | positive
  · -- Below zero the half brings the number nearer to it.
    have under : (whole + 1) * scale ≤ 0 := Int.mul_nonpos_of_nonpos_of_nonneg (by omega) one.le
    exact log2_mono (by omega)
  · have reachesOne : 1 * (scale : Int) ≤ whole * scale :=
      Int.mul_le_mul_of_nonneg_right positive one.le
    have some : units.natAbs ≠ 0 := by omega
    have leading : (twoTo (units + halfUnits).natAbs.log2 : Int) ≤ units + halfUnits := by
      have power : twoTo (units + halfUnits).natAbs.log2 ≤ (units + halfUnits).natAbs :=
        Nat.log2_self_le (by omega)
      omega
    generalize (units + halfUnits).natAbs.log2 = exponent at leading ⊢
    apply (Nat.le_log2 some).mpr
    show twoTo exponent ≤ units.natAbs
    -- A leading digit behind the point is at most one, and one before it stands in the whole number.
    rcases Nat.le_total exponent 1074 with small | large
    · have power : twoTo exponent ≤ scale := twoTo_le small
      omega
    · have power : twoTo exponent = twoTo (exponent - 1074) * scale := by
        rw [show scale = twoTo 1074 from rfl, ← twoTo_add, Nat.sub_add_cancel large]
      rw [power, Nat.cast_mul] at leading
      have fewer := Int.lt_of_mul_lt_mul_right (lt_of_le_of_lt leading above) one.le
      have scaled : (twoTo exponent : Int) ≤ whole * scale := by
        rw [power, Nat.cast_mul]
        exact Int.mul_le_mul_of_nonneg_right (by omega) one.le
      omega

/-- Whole numbers that are short stand on the grid, and so do the halves between them. -/
theorem onGrid_whole {whole : Int} (least : -(twoTo 52 : Int) ≤ whole)
    (most : whole ≤ (twoTo 52 : Int)) : OnGrid (whole * scale).natAbs := by
  have double : twoTo 53 = 2 * twoTo 52 := twoTo_add 1 52
  have halves : whole * scale = (2 * whole) * halfUnits := by
    rw [scale_eq_halves, Nat.cast_mul, Nat.cast_two]
    ring
  rw [halves]
  exact onGrid_halves (by omega)

/-- What is added up to no more than a whole number is rounded to no more than it. -/
theorem le_nearestUnits {units whole : Int} (least : -(twoTo 52 : Int) ≤ whole)
    (most : whole ≤ (twoTo 52 : Int)) (below : whole * scale ≤ units) :
    whole * scale ≤ nearestUnits units := by
  have kept := nearestUnits_of_onGrid (onGrid_whole least most)
  have ordered := nearestUnits_mono below
  omega

/-- Halfway between short whole numbers there are values as well. -/
theorem onGrid_halfway {whole : Int} (least : -(twoTo 52 : Int) ≤ whole)
    (most : whole < (twoTo 52 : Int)) : OnGrid (whole * scale + halfUnits).natAbs := by
  have double : twoTo 53 = 2 * twoTo 52 := twoTo_add 1 52
  have count : whole * scale + halfUnits = (2 * whole + 1) * halfUnits := by
    rw [scale_eq_halves, Nat.cast_mul, Nat.cast_two]
    ring
  rw [count]
  exact onGrid_halves (by omega)

/-- The last value below one is two places of the last below a half away. -/
theorem onGrid_last : OnGrid ((scale : Int) - 2 * twoTo 1020).natAbs := by
  have power : scale = twoTo 53 * twoTo 1021 := by rw [scale_eq, ← twoTo_add]
  have double : twoTo 1021 = 2 * twoTo 1020 := by rw [show 2 = twoTo 1 from rfl, ← twoTo_add]
  have room : twoTo 1021 ≤ scale := twoTo_le (by decide)
  have short := onGrid_of_short (show twoTo 53 - 1 ≤ twoTo 53 by decide) 1021
  have whole : ((scale : Int) - 2 * twoTo 1020).natAbs = scale - twoTo 1021 := by omega
  rwa [Nat.sub_mul, ← power, Nat.one_mul, ← whole] at short

/-- Below a half, all values but the last have a sum with a half that is rounded to less than one. -/
theorem nearestUnits_add_half_lt_scale {units : Int} (grid : OnGrid units.natAbs) (least : 0 ≤ units)
    (most : units < halfUnits) (kept : units ≠ (halfUnits : Int) - twoTo 1020) :
    nearestUnits (units + halfUnits) < scale := by
  have halves : (scale : Int) = 2 * halfUnits := by exact_mod_cast scale_eq_halves
  have some := twoTo_pos 1020
  rcases onGrid_below_half grid (by omega) with ends | room
  · omega
  · -- One place further down the sum is no more than the last value below one.
    have ordered := nearestUnits_mono
      (show units + halfUnits ≤ (scale : Int) - 2 * twoTo 1020 by omega)
    rw [nearestUnits_of_onGrid onGrid_last] at ordered
    omega

/-- With a whole part that is short and not zero, a sum with a half is not rounded at all. -/
theorem nearestUnits_add_half {units whole : Int} (grid : OnGrid units.natAbs)
    (nonzero : whole ≠ 0) (least : -(twoTo 52 : Int) ≤ whole) (most : whole < (twoTo 52 : Int))
    (reached : whole * scale ≤ units) (above : units + halfUnits < (whole + 1) * scale) :
    nearestUnits (units + halfUnits) = units + halfUnits := by
  have one : (0 : Int) < scale := Int.natCast_pos.mpr (twoTo_pos _)
  have some := halfUnits_pos
  have lower : -(twoTo 52 : Int) * scale ≤ whole * scale :=
    Int.mul_le_mul_of_nonneg_right least one.le
  have upper : (whole + 1) * scale ≤ (twoTo 52 : Int) * scale :=
    Int.mul_le_mul_of_nonneg_right (by omega) one.le
  have short : (units + halfUnits).natAbs < twoTo 1126 := by
    have power : twoTo 1126 = twoTo 52 * scale := by rw [scale_eq, ← twoTo_add]
    rw [power]
    zify
    rw [abs_lt]
    constructor
    · linarith
    · linarith
  have digits := log2_add_half_le nonzero reached above
  exact nearestUnits_of_onGrid (onGrid_add_half grid digits (log2_lt_of_lt (by decide) short))

/-- The last value below a half is the only short one whose sum with a half reaches the next whole
number by rounding. -/
theorem nearestUnits_add_half_lt {units whole : Int} (grid : OnGrid units.natAbs)
    (least : -(twoTo 52 : Int) ≤ whole) (most : whole < (twoTo 52 : Int))
    (kept : units ≠ (halfUnits : Int) - twoTo 1020) (below : whole * scale ≤ units + halfUnits)
    (above : units + halfUnits < (whole + 1) * scale) :
    nearestUnits (units + halfUnits) < (whole + 1) * scale := by
  have halves : (scale : Int) = 2 * halfUnits := by exact_mod_cast scale_eq_halves
  have next : (whole + 1) * (scale : Int) = whole * scale + scale := by ring
  rcases lt_or_ge units (whole * scale) with under | reached
  · -- The sum stays under the halfway point behind the whole number, which is on the grid.
    have ordered := nearestUnits_mono
      (show units + halfUnits ≤ whole * scale + halfUnits by omega)
    rw [nearestUnits_of_onGrid (onGrid_halfway least most)] at ordered
    have some := halfUnits_pos
    omega
  · by_cases zero : whole = 0
    · subst zero
      have sum := nearestUnits_add_half_lt_scale grid (by omega) (by omega) kept
      omega
    · rw [nearestUnits_add_half grid zero least most reached above]
      exact above

/-- The digits before the point tell how far apart the values around a large whole number are. -/
theorem twoTo_log2_scale {whole : Nat} (large : twoTo 52 ≤ whole) :
    twoTo (whole.log2 + 1074) ≤ whole * scale ∧
      (whole + 1) * scale ≤ twoTo (whole.log2 + 1074 + 1) ∧
      twoTo (whole.log2 + 1074 - 52) = twoTo (whole.log2 - 52) * scale := by
  have nonzero : whole ≠ 0 := by
    have power := twoTo_pos 52
    omega
  have leading := (Nat.le_log2 nonzero).mpr large
  -- In units every power gains the 1074 places of one.
  refine ⟨?_, ?_, ?_⟩
  · rw [scale_eq, twoTo_add]
    exact Nat.mul_le_mul_right _ (Nat.log2_self_le nonzero)
  · rw [scale_eq, Nat.add_right_comm, twoTo_add]
    exact Nat.mul_le_mul_right _ (lt_twoTo_log2 whole)
  · rw [scale_eq, ← twoTo_add]
    exact congrArg twoTo (by omega)

/-- A whole number that is no less than a large one counts the distances around that. -/
theorem dvd_of_onGrid_scale {whole other : Nat} (large : twoTo 52 ≤ whole) (le : whole ≤ other)
    (grid : OnGrid (other * scale)) : twoTo (whole.log2 - 52) ∣ other := by
  obtain ⟨reached, -, step⟩ := twoTo_log2_scale large
  have scaled := Nat.mul_le_mul_right scale le
  -- The spacing around the smaller number divides the larger one, as it lies farther out.
  have divides := dvd_of_onGrid grid (Nat.le_trans reached scaled)
  rw [step] at divides
  exact Nat.dvd_of_mul_dvd_mul_right (twoTo_pos _) divides

/-- A half on top of a whole number is rounded off again where a whole number beside it counts steps
that are two units wide or wider. -/
theorem roundQuotient_add_half {whole number steps width : Nat} (wide : 2 ≤ width)
    (counted : number = width * steps) (beside : number = whole ∨ number = whole + 1) :
    roundQuotient (whole * scale + halfUnits) (width * scale) * (width * scale) =
      number * scale := by
  have some := halfUnits_pos
  have halves := scale_eq_halves
  have next : (whole + 1) * scale = whole * scale + scale := Nat.succ_mul _ _
  have room : 2 * scale ≤ width * scale := Nat.mul_le_mul_right _ wide
  have made : number * scale = steps * (width * scale) := by
    rw [counted]
    ring
  -- The sum is a half away from the number, which is less than half a step.
  have close : roundQuotient (whole * scale + halfUnits) (width * scale) = steps := by
    rcases beside with rfl | rfl
    · exact roundQuotient_of_close (by omega) (by omega)
    · exact roundQuotient_of_close (by omega) (by omega)
  rw [close, made]

/-- Halfway behind a large whole number the even neighbour is rounded to. -/
theorem nearest_halfway {whole : Nat} (large : twoTo 52 ≤ whole)
    (grid : OnGrid (whole * scale) ∨ OnGrid ((whole + 1) * scale)) :
    nearest (whole * scale + halfUnits) 1 = (whole + whole % 2) * scale := by
  have some := halfUnits_pos
  have halves := scale_eq_halves
  have next : (whole + 1) * scale = whole * scale + scale := Nat.succ_mul _ _
  have divides : twoTo (whole.log2 - 52) ∣ whole ∨ twoTo (whole.log2 - 52) ∣ whole + 1 :=
    grid.imp (dvd_of_onGrid_scale large le_rfl) (dvd_of_onGrid_scale large (Nat.le_succ whole))
  obtain ⟨reached, ahead, step⟩ := twoTo_log2_scale large
  have nearestIs : nearest (whole * scale + halfUnits) 1 =
      roundQuotient (whole * scale + halfUnits) (1 * twoTo (whole.log2 + 1074 - 52)) *
        twoTo (whole.log2 + 1074 - 52) := by
    apply nearest_eq
    · rw [Nat.div_one]
      omega
    · rw [Nat.div_one]
      omega
  rw [nearestIs, step, Nat.one_mul]
  generalize whole.log2 - 52 = places at divides ⊢
  cases places with
  | zero =>
    -- Here the values are the whole numbers, and the sum lies halfway between two of them.
    rw [show twoTo 0 = 1 from rfl, Nat.one_mul, halves, roundQuotient_halfway whole some]
  | succ shift =>
    -- Farther out they lie apart by an even number, so the neighbour among them is the even one.
    have even : twoTo (shift + 1) = 2 * twoTo shift := by
      rw [Nat.add_comm, twoTo_add]
      rfl
    have wide : 2 ≤ twoTo (shift + 1) := by
      have power := twoTo_pos shift
      omega
    have two : 2 ∣ twoTo (shift + 1) := ⟨_, even⟩
    rcases divides with own | behind
    · have parity : whole % 2 = 0 := Nat.mod_eq_zero_of_dvd (Nat.dvd_trans two own)
      obtain ⟨steps, counted⟩ := own
      rw [roundQuotient_add_half wide counted (.inl rfl), parity, Nat.add_zero]
    · have parity : (whole + 1) % 2 = 0 := Nat.mod_eq_zero_of_dvd (Nat.dvd_trans two behind)
      obtain ⟨steps, counted⟩ := behind
      rw [roundQuotient_add_half wide counted (.inr rfl), show whole % 2 = 1 by omega]

/-- With its sign a large whole number and a half are rounded to the even neighbour as well. -/
theorem nearestUnits_halfway {whole : Int} (large : (twoTo 52 : Int) ≤ whole ∨ whole < -twoTo 52)
    (grid : OnGrid (whole * scale).natAbs) :
    nearestUnits (whole * scale + halfUnits) = (whole + whole % 2) * scale := by
  rcases large with above | below
  · obtain ⟨size, rfl⟩ := Int.eq_ofNat_of_zero_le (show 0 ≤ whole by omega)
    rw [Int.natAbs_mul, Int.natAbs_natCast, Int.natAbs_natCast] at grid
    have rounded := nearest_halfway (by omega) (.inl grid)
    have cast : (size * scale + halfUnits : Int) = (size * scale + halfUnits : Nat) := by
      rw [Nat.cast_add, Nat.cast_mul]
    rw [cast, nearestUnits_of_nonneg (Int.natCast_nonneg _), Int.natAbs_natCast, rounded,
      Nat.cast_mul, Nat.cast_add, Int.natCast_mod, Nat.cast_two]
  · -- Seen from zero, the sum with the half lies behind the whole number that is one nearer.
    obtain ⟨size, rfl⟩ : ∃ size : Nat, whole = -(size + 1 : Nat) :=
      ⟨(-whole - 1).toNat, by omega⟩
    rw [Int.natAbs_mul, Int.natAbs_neg, Int.natAbs_natCast, Int.natAbs_natCast] at grid
    have rounded := nearest_halfway (by omega) (.inr grid)
    have cast : -((size + 1 : Nat) : Int) * scale + halfUnits =
        -((size * scale + halfUnits : Nat) : Int) := by
      rw [scale_eq_halves]
      push_cast
      ring
    rw [cast, nearestUnits_neg, nearestUnits_of_nonneg (Int.natCast_nonneg _), Int.natAbs_natCast,
      rounded, Nat.cast_mul, ← Int.neg_mul]
    exact congrArg (· * (scale : Int)) (by omega)

/-- Far from zero there are whole numbers only. -/
theorem exists_whole_of_onGrid {units : Int} (grid : OnGrid units.natAbs)
    (large : twoTo 52 * scale ≤ units.natAbs) : ∃ whole : Int, units = whole * scale := by
  rw [scale_eq, ← twoTo_add] at large
  -- From `2 ^ 52` on the spacing is at least one.
  have divides := dvd_of_onGrid grid large
  rw [show 52 + 1074 - 52 = 1074 from rfl, ← scale_eq, ← Int.natCast_dvd] at divides
  obtain ⟨whole, counted⟩ := divides
  exact ⟨whole, by rw [counted, Int.mul_comm]⟩

/-- An odd whole number has no more than 53 digits. -/
theorem lt_of_onGrid_of_odd {whole : Int} (grid : OnGrid (whole * scale).natAbs)
    (odd : whole % 2 = 1) : whole.natAbs < twoTo 53 := by
  by_contra large
  rw [Int.natAbs_mul, Int.natAbs_natCast] at grid
  have double : twoTo 53 = 2 * twoTo 52 := twoTo_add 1 52
  have scaled := Nat.mul_le_mul_right scale (Nat.not_lt.mp large)
  nth_rewrite 1 [scale_eq] at scaled
  rw [← twoTo_add] at scaled
  -- From `2 ^ 53` on the spacing is at least two, and no odd number is left.
  have divides := dvd_of_onGrid grid scaled
  rw [show 53 + 1074 - 52 = 1 + 1074 from rfl, twoTo_add, ← scale_eq] at divides
  have unit : 0 < scale := twoTo_pos _
  have even : twoTo 1 ∣ whole.natAbs := Nat.dvd_of_mul_dvd_mul_right unit divides
  rw [show twoTo 1 = 2 from rfl] at even
  omega

/-- A number of units on the grid that has a finite value leaves room for a half. -/
theorem add_half_lt_reach {units : Int} (grid : OnGrid units.natAbs)
    (finite : units.natAbs < overflow) : (units + halfUnits).natAbs < reach * scale * 1 := by
  have bound := reach_mul_scale
  have spaced : twoTo (2098 - 53) = twoTo 2045 := rfl
  -- At the top of the line the values lie `2 ^ 2045` units apart, and a half is far less than that.
  have room : 2 * halfUnits < twoTo 2045 := by
    have power : twoTo 1074 ≤ twoTo 2044 := twoTo_le (by decide)
    have double : twoTo 2045 = 2 * twoTo 2044 := by
      rw [show 2 = twoTo 1 from rfl, ← twoTo_add]
    rw [← scale_eq, scale_eq_halves] at power
    have some := twoTo_pos 2044
    omega
  have gap : units.natAbs + twoTo 2045 ≤ overflow := by
    rcases onGrid_below (by decide) grid finite with ends | more
    · exact le_of_eq ends
    · rw [spaced] at more
      change _ ≤ overflow at more
      omega
  omega

/-- Large whole numbers are left alone when they are even, and grow by one when they are odd. -/
theorem nearestUnits_large {whole : Int} (large : (twoTo 52 : Int) ≤ whole ∨ whole < -twoTo 52)
    (grid : OnGrid (whole * scale).natAbs) :
    nearestUnits (whole * scale + halfUnits) / scale = whole + whole % 2 ∧
      (whole * scale + halfUnits) / scale = whole := by
  have unit : (0 : Int) < scale := Int.natCast_pos.mpr (twoTo_pos _)
  have halves : (scale : Int) = 2 * halfUnits := by exact_mod_cast scale_eq_halves
  have some := halfUnits_pos
  -- The exact sum has the whole number as its whole part, and what it is rounded to has the even
  -- one.
  constructor
  · rw [nearestUnits_halfway large grid, Int.mul_ediv_cancel _ unit.ne']
  · rw [Int.add_comm, Int.add_mul_ediv_right _ _ unit.ne',
      Int.ediv_eq_zero_of_lt (by omega) (by omega), Int.zero_add]

/-- The whole part of a short number with a half on top lies between the two ends, at most. -/
theorem wholePart_short {units : Int} (least : -((twoTo 52 * scale : Nat) : Int) ≤ units)
    (most : units < (twoTo 52 * scale : Nat)) :
    -(twoTo 52 : Int) ≤ (units + halfUnits) / scale ∧
      (units + halfUnits) / scale ≤ (twoTo 52 : Int) := by
  have unit : (0 : Int) < scale := Int.natCast_pos.mpr (twoTo_pos _)
  have halves : (scale : Int) = 2 * halfUnits := by exact_mod_cast scale_eq_halves
  have some := halfUnits_pos
  constructor
  · apply Int.le_ediv_of_mul_le unit
    rw [Int.neg_mul, ← Nat.cast_mul]
    omega
  · -- A half on top does not lead past the end by a whole unit.
    apply Int.lt_add_one_iff.mp
    apply Int.ediv_lt_of_lt_mul unit
    rw [Int.add_mul, Int.one_mul, ← Nat.cast_mul]
    omega

/-- Where the sum of a short number with a half has the end for its whole part, it is the end. -/
theorem sum_eq_end {units : Int} (grid : OnGrid units.natAbs)
    (most : units < (twoTo 52 * scale : Nat))
    (ends : (twoTo 52 : Int) * scale ≤ units + halfUnits) :
    units + halfUnits = (twoTo 52 : Int) * scale := by
  -- Only the last value below is near enough, and it lies a half below.
  have halves : (scale : Int) = 2 * halfUnits := by exact_mod_cast scale_eq_halves
  have far : scale ≤ twoTo 52 * scale := Nat.le_mul_of_pos_left _ (twoTo_pos 52)
  rw [← Nat.cast_mul] at ends ⊢
  have room := onGrid_below_large grid (by omega)
  omega

/-- Short numbers have their sum with a half rounded to the same whole number, but for one. -/
theorem nearestUnits_short {units : Int} (grid : OnGrid units.natAbs)
    (least : -((twoTo 52 * scale : Nat) : Int) ≤ units)
    (most : units < (twoTo 52 * scale : Nat))
    (kept : units ≠ (halfUnits : Int) - twoTo 1020) :
    nearestUnits (units + halfUnits) / scale = (units + halfUnits) / scale := by
  have unit : (0 : Int) < scale := Int.natCast_pos.mpr (twoTo_pos _)
  have below := Int.ediv_mul_le (units + halfUnits) unit.ne'
  have above := Int.lt_ediv_add_one_mul_self (units + halfUnits) unit
  obtain ⟨lower, upper⟩ := wholePart_short least most
  generalize (units + halfUnits) / scale = whole at below above lower upper ⊢
  have reached := le_nearestUnits lower upper below
  have under : nearestUnits (units + halfUnits) < (whole + 1) * scale := by
    rcases Int.lt_or_eq_of_le upper with short | rfl
    · exact nearestUnits_add_half_lt grid lower short kept below above
    · -- At the end the sum is on the grid, and stays as it is.
      rw [sum_eq_end grid most below, nearestUnits_of_onGrid (onGrid_whole lower le_rfl)]
      exact Int.mul_lt_mul_of_pos_right (Int.lt_succ _) unit
  have quotient : nearestUnits (units + halfUnits) / scale < whole + 1 :=
    Int.ediv_lt_of_lt_mul unit under
  have least := Int.le_ediv_of_mul_le unit reached
  omega

end Binary64

end DiceLab
