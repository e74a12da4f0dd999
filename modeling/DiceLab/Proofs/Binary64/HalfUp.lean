import DiceLab.Proofs.Binary64.Halves
import DiceLab.Proofs.Binary64.Within

/-! Adding a half and dropping the fraction gives the nearest whole number, except where the sum with
the half is itself rounded up to the next one. -/

namespace DiceLab

/-- A whole number is the nearest one to a number, which lies at most a half below it and less than a
half above it. -/
def IsHalfUp (number : ℚ) (whole : Int) : Prop :=
  (whole : ℚ) - 1 / 2 ≤ number ∧ number < whole + 1 / 2

/-- The nearest whole number is found by adding a half and dropping the fraction. -/
theorem isHalfUp_iff {number : ℚ} {whole : Int} :
    IsHalfUp number whole ↔ whole = ⌊number + 1 / 2⌋ := by
  rw [eq_comm, Int.floor_eq_iff, IsHalfUp, sub_le_iff_le_add]
  constructor
  · rintro ⟨above, below⟩
    exact ⟨above, by linarith⟩
  · rintro ⟨above, below⟩
    exact ⟨above, by linarith⟩

/-- The numbers whose sum with a half is rounded up to a whole number: the last value below a half, and
the odd whole numbers behind which binary64 has no place for a half. -/
def Slips (number : ℚ) : Prop :=
  number = 1 / 2 - 1 / twoTo 54 ∨
    ∃ whole : Int, number = whole ∧ whole % 2 = 1 ∧ twoTo 52 < whole.natAbs ∧
      whole.natAbs < twoTo 53

/-- What becomes of a number when a half is added and the fraction of the sum is dropped. -/
structure RoundsUp (number : ℚ) (whole : Int) : Prop where
  /-- It is the nearest whole number, and no other one is. -/
  nearest : ¬Slips number → ∀ other, IsHalfUp number other ↔ other = whole
  /-- From a number that slips it is the whole number behind the nearest one. -/
  behind : Slips number → ∀ other, IsHalfUp number other ↔ other = whole - 1

namespace Binary64

/-- A value at a place of units is that number of units. -/
theorem is_of_place {value : Binary64} {units : Int} (placed : value.place = placeAt units) :
    value.Is (units / scale) := by
  unfold place at placed
  -- Only a position among the units has such a place.
  cases found : value.position? with
  | none => simp [found, placeAt] at placed
  | some position =>
    cases position with
    | below => simp [found, placeAt, Position.place] at placed
    | above => simp [found, placeAt, Position.place] at placed
    | «at» others =>
      have same : others = units := by simpa [found, placeAt, Position.place] using placed
      subst same
      exact ⟨others, found, div_mul_cancel₀ _ scale_pos.ne'⟩

variable {value : Binary64} {number : ℚ}

/-- The half is added to the value as it is. -/
theorem roundHalfUp_real (value : Binary64) :
    (Number.real value).roundHalfUp = (value.add (ofRatio false 1 2)).floor := rfl

/-- In units, a half is added, the sum is rounded, and its fraction is dropped. -/
theorem Is.roundHalfUp_units {units : Int} (is : value.Is number)
    (inUnits : number * scale = units) :
    OnGrid units.natAbs ∧
      (Number.real value).roundHalfUp = .ok (nearestUnits (units + halfUnits) / scale) := by
  obtain ⟨negative, magnitude, rfl, size⟩ := is.exists_finite
  obtain ⟨halfNegative, half, halfFinite, halfSize⟩ := half_is.exists_finite
  -- Both terms are finite, so the sum is one of numbers of units.
  have known : units = signed negative magnitude.units := by
    rw [inUnits] at size
    exact_mod_cast size
  have halfKnown : signed halfNegative half.units = halfUnits := by
    rw [scale_eq_halves, Nat.cast_mul, Nat.cast_two] at halfSize
    have cast : (halfUnits : ℚ) = signed halfNegative half.units := by linarith
    exact_mod_cast cast.symm
  have sizes : units.natAbs = magnitude.units := by
    rw [known, natAbs_signed]
  have grid : OnGrid units.natAbs := by
    rw [sizes]
    exact magnitude.onGrid
  refine ⟨grid, ?_⟩
  -- The last finite value is too far below the bound for a half to reach it.
  have bounded : nearest (units + halfUnits).natAbs 1 < overflow := by
    apply (nearest_lt_overflow_iff Nat.one_pos).mpr
    apply add_half_lt_reach grid
    rw [sizes]
    exact magnitude.bounded
  have placed : ((finite negative magnitude).add (ofRatio false 1 2)).place =
      placeAt (nearestUnits (units + halfUnits)) := by
    rw [halfFinite, place_add, ← known, halfKnown, rounded, place_ofUnits, if_pos bounded]
    rfl
  have sum := (is_of_place placed).floor_eq
  rw [Rat.floor_intCast_div_natCast] at sum
  rw [roundHalfUp_real, sum]

/-- Seen in units, the whole number below a half more is a quotient. -/
theorem floor_add_half {units : Int} (inUnits : number * scale = units) :
    ⌊number + 1 / 2⌋ = (units + halfUnits) / scale := by
  have unit := scale_pos
  -- Multiplied by the units in one, both sides are the same number of units.
  have sum : number + 1 / 2 = ((units + halfUnits : Int) : ℚ) / (scale : Nat) := by
    rw [eq_div_iff unit.ne', add_mul, inUnits, Int.cast_add, Int.cast_natCast, scale_eq_halves]
    push_cast
    ring
  rw [sum, Rat.floor_intCast_div_natCast]

/-- In units the numbers that slip are a spacing below a half, and odd multiples of one. -/
theorem slips_iff {units : Int} (inUnits : number * scale = units) :
    Slips number ↔ units = (halfUnits : Int) - twoTo 1020 ∨
      ∃ whole : Int, units = whole * scale ∧ whole % 2 = 1 ∧ twoTo 52 < whole.natAbs ∧
        whole.natAbs < twoTo 53 := by
  have unit := scale_pos
  have last : (1 / 2 - 1 / twoTo 54 : ℚ) * scale = ((halfUnits : Int) - twoTo 1020 : Int) := by
    have power : scale = twoTo 54 * twoTo 1020 := by rw [scale_eq, ← twoTo_add]
    have halves : (scale : ℚ) = 2 * halfUnits := by exact_mod_cast scale_eq_halves
    have nonzero : (twoTo 54 : ℚ) ≠ 0 := (Nat.cast_pos.mpr (twoTo_pos 54)).ne'
    have product : (1 / twoTo 54 : ℚ) * scale = twoTo 1020 := by
      rw [power, Nat.cast_mul, ← mul_assoc, one_div_mul_cancel nonzero, one_mul]
    rw [sub_mul, product, halves]
    push_cast
    ring
  -- Both sides are compared as multiples of one.
  have same (other : ℚ) (others : Int) (known : other * scale = others) :
      number = other ↔ units = others := by
    rw [← mul_left_inj' unit.ne', inUnits, known, Int.cast_inj]
  unfold Slips
  rw [same _ _ last]
  refine or_congr Iff.rfl (exists_congr fun whole => and_congr_left' ?_)
  exact same whole (whole * scale) (by push_cast; rfl)

/-- Every number but those that slip is rounded to the nearest whole number, upwards from the middle. -/
theorem Is.roundHalfUp_of_not_slips (is : value.Is number) (kept : ¬Slips number) :
    (Number.real value).roundHalfUp = .ok ⌊number + 1 / 2⌋ := by
  obtain ⟨units, -, inUnits⟩ := id is
  obtain ⟨grid, rounded⟩ := is.roundHalfUp_units inUnits
  rw [rounded, floor_add_half inUnits]
  rw [slips_iff inUnits, not_or] at kept
  obtain ⟨notLast, notOdd⟩ := kept
  congr 1
  by_cases short : -((twoTo 52 * scale : Nat) : Int) ≤ units ∧ units < (twoTo 52 * scale : Nat)
  · exact nearestUnits_short grid short.1 short.2 notLast
  · obtain ⟨whole, rfl⟩ := exists_whole_of_onGrid grid (by omega)
    have unit : (0 : Int) < scale := Int.natCast_pos.mpr (twoTo_pos _)
    have large : (twoTo 52 : Int) ≤ whole ∨ whole < -twoTo 52 := by
      rw [Nat.cast_mul, ← Int.neg_mul, Int.mul_le_mul_right unit, Int.mul_lt_mul_right unit] at short
      omega
    obtain ⟨rounded, below⟩ := nearestUnits_large large grid
    -- An odd number that large would slip.
    have even : whole % 2 = 0 := by
      by_contra odd
      have one : whole % 2 = 1 := by omega
      have digits := lt_of_onGrid_of_odd grid one
      refine notOdd ⟨whole, rfl, one, ?_, digits⟩
      have parity : twoTo 52 % 2 = 0 := by decide
      omega
    rw [rounded, below, even, Int.add_zero]

/-- A number that slips is rounded to the whole number behind the nearest one. -/
theorem Is.roundHalfUp_of_slips (is : value.Is number) (slips : Slips number) :
    (Number.real value).roundHalfUp = .ok (⌊number + 1 / 2⌋ + 1) := by
  obtain ⟨units, -, inUnits⟩ := id is
  obtain ⟨grid, rounded⟩ := is.roundHalfUp_units inUnits
  rw [rounded, floor_add_half inUnits]
  rcases (slips_iff inUnits).mp slips with last | ⟨whole, rfl, odd, large, -⟩
  · -- A spacing below a half, the sum is halfway between the value before one and one.
    rw [last]
    have sums : nearestUnits ((halfUnits : Int) - twoTo 1020 + halfUnits) / scale =
        ((halfUnits : Int) - twoTo 1020 + halfUnits) / scale + 1 := by decide +kernel
    exact congrArg Except.ok sums
  · -- Behind a large odd number the sum is rounded to the even neighbour above it.
    obtain ⟨reached, whole⟩ := nearestUnits_large (by omega) grid
    rw [reached, whole, odd]

/-- Every finite value is rounded, and only from those that slip to another number than the nearest. -/
theorem Is.exists_roundsUp (is : value.Is number) :
    ∃ whole, (Number.real value).roundHalfUp = .ok whole ∧ RoundsUp number whole := by
  by_cases slips : Slips number
  · refine ⟨_, is.roundHalfUp_of_slips slips, absurd slips, fun _ other => ?_⟩
    rw [Int.add_sub_cancel]
    exact isHalfUp_iff
  · exact ⟨_, is.roundHalfUp_of_not_slips slips, fun _ other => isHalfUp_iff, (absurd · slips)⟩

/-- What was rounded was a finite value. -/
theorem roundsUp_of_roundHalfUp {whole : Int} (ok : (Number.real value).roundHalfUp = .ok whole) :
    ∃ number, value.Is number ∧ RoundsUp number whole := by
  have finite : ∃ number, value.Is number := by
    rw [roundHalfUp_real] at ok
    obtain ⟨negative, half, halfFinite, -⟩ := half_is.exists_finite
    cases value with
    | nan => cases ok
    | infinite infiniteNegative =>
      -- The sum with a half is infinite as well.
      rw [halfFinite] at ok
      cases ok
    | finite sign magnitude =>
      exact ⟨_, signed sign magnitude.units, rfl, div_mul_cancel₀ _ scale_pos.ne'⟩
  obtain ⟨number, is⟩ := finite
  obtain ⟨other, known, rounds⟩ := is.exists_roundsUp
  rw [known] at ok
  obtain rfl := Except.ok.inj ok
  exact ⟨number, is, rounds⟩

end Binary64

open Binary64 (reach scale ofInt)

/-- A short whole number is a value. -/
theorem Binary64.ofInt_is {whole : Int} (short : whole.natAbs ≤ twoTo 53) :
    (ofInt whole).Is whole := by
  have below : |(whole : ℚ)| < reach := by
    rw [abs_intCast]
    exact Nat.cast_lt.mpr (lt_reach_of_short short)
  -- A short number stands on the grid, so that rounding keeps it.
  obtain ⟨value, number, known, rounds⟩ := rounds_wholeToReal below
  have twice : (whole : ℚ) * 2 = whole * twoTo 1 := by norm_num [twoTo]
  rw [eq_of_finiteOr known, ← rounds.kept ⟨whole, 1, twice, short⟩]
  exact rounds.is

/-- A value that is a whole number lies below the bound. -/
theorem Binary64.Is.natAbs_lt_reach {value : Binary64} {whole : Int} (is : value.Is whole) :
    whole.natAbs < reach := by
  obtain ⟨negative, magnitude, -, inUnits⟩ := is.exists_finite
  have size : whole.natAbs * scale = magnitude.units := by
    have cast : whole * scale = signed negative magnitude.units := by exact_mod_cast inUnits
    have sizes := congrArg Int.natAbs cast
    rwa [Int.natAbs_mul, Int.natAbs_natCast, natAbs_signed] at sizes
  -- Its units are on the grid, so they are their own rounding.
  have kept := nearest_of_onGrid Nat.one_pos magnitude.onGrid
  have bounded := magnitude.bounded
  rw [← kept, nearest_lt_overflow_iff Nat.one_pos, Nat.mul_one, Nat.mul_one, ← size] at bounded
  exact Nat.lt_of_mul_lt_mul_right bounded

/-- A value that is far from zero is a whole number. -/
theorem Binary64.Is.exists_whole {value : Binary64} {number : ℚ} (is : value.Is number)
    (large : (twoTo 52 : ℚ) ≤ |number|) : ∃ whole : Int, number = whole := by
  obtain ⟨units, -, inUnits⟩ := id is
  have unit := scale_pos
  have far : twoTo 52 * scale ≤ units.natAbs := by
    have scaled := mul_le_mul_of_nonneg_right large unit.le
    rw [← abs_of_pos unit, ← abs_mul, inUnits, abs_of_pos unit, abs_intCast] at scaled
    exact_mod_cast scaled
  -- That far out the grid has whole numbers only.
  obtain ⟨whole, rfl⟩ := exists_whole_of_onGrid (is.roundHalfUp_units inUnits).1 far
  refine ⟨whole, mul_right_cancel₀ unit.ne' ?_⟩
  rw [inUnits, Int.cast_mul, Int.cast_natCast]

/-- What a whole number is rounded to is no farther from it than any other value. -/
theorem Binary64.closest_ofInt {whole : Int} {number : ℚ} (is : (ofInt whole).Is number)
    {other : Binary64} {otherNumber : ℚ} (otherIs : other.Is otherNumber) :
    |number - whole| ≤ |otherNumber - whole| := by
  -- The whole number is the quotient of its units by one.
  have quotient : (whole : ℚ) * scale * (1 : Nat) =
      signed (whole < 0) (whole.natAbs * scale) := by
    rw [signed_mul_natCast, signed_natAbs]
    push_cast
    ring
  exact Is.closest Nat.one_pos quotient is otherIs

/-- A whole number below the bound is rounded to a whole number, which is the number itself when that
is short and stays large when it is not. -/
theorem Binary64.exists_ofInt_is {whole : Int} (below : whole.natAbs < reach) :
    ∃ rounded : Int, wholeToReal whole = .ok (ofInt whole) ∧ (ofInt whole).Is rounded ∧
      (rounded = whole ∨ twoTo 53 ≤ rounded.natAbs) := by
  obtain ⟨value, known⟩ := exists_wholeToReal_eq_ok.mpr below
  obtain rfl := eq_of_finiteOr known
  by_cases short : whole.natAbs ≤ twoTo 53
  · exact ⟨whole, known, ofInt_is short, .inl rfl⟩
  · have size : |(whole : ℚ)| < reach := by
      rw [abs_intCast]
      exact Nat.cast_lt.mpr below
    obtain ⟨same, number, alsoKnown, rounds⟩ := rounds_wholeToReal size
    obtain rfl := eq_of_finiteOr alsoKnown
    have is := rounds.is
    -- The rounded number stays on its side of the last short one.
    have large : (twoTo 53 : ℚ) ≤ |number| := by
      rcases Int.le_total 0 whole with positive | negative
      · have least : (ofInt (twoTo 53)).Is (twoTo 53 : Int) := ofInt_is (by simp)
        have ordered := (least.place_le_iff is).mp (place_ofInt_le (by omega))
        exact le_trans (by exact_mod_cast ordered) (le_abs_self number)
      · have most : (ofInt (-twoTo 53)).Is (-twoTo 53 : Int) := ofInt_is (by simp)
        have ordered := (is.place_le_iff most).mp (place_ofInt_le (by omega))
        rw [Int.cast_neg, Int.cast_natCast] at ordered
        exact le_abs.mpr (.inr (by linarith))
    have power : (twoTo 52 : ℚ) ≤ twoTo 53 := Nat.cast_le.mpr (twoTo_le (by decide))
    obtain ⟨rounded, rfl⟩ := is.exists_whole (power.trans large)
    rw [abs_intCast] at large
    exact ⟨rounded, known, is, .inr (by exact_mod_cast large)⟩

/-- What becomes of a whole number when a half is added and the fraction of the sum is dropped. -/
structure WholeRoundsUp (whole : Int) : Prop where
  /-- It comes back when it is a value that does not slip, and in no other case. -/
  kept : (Number.whole whole).roundHalfUp = .ok whole ↔
    (∃ value : Binary64, value.Is whole) ∧ ¬Slips whole
  /-- The half is added to the closest value, which is a whole number. -/
  closest : whole.natAbs < reach → ∃ (value : Binary64) (rounded : Int), value.Is rounded ∧
    (∀ (other : Binary64) (number : ℚ), other.Is number →
      |(rounded : ℚ) - whole| ≤ |number - whole|) ∧
    (¬Slips rounded → (Number.whole whole).roundHalfUp = .ok rounded) ∧
    (Slips rounded → (Number.whole whole).roundHalfUp = .ok (rounded + 1))
  /-- There is none from the bound on. -/
  refused : reach ≤ whole.natAbs → (Number.whole whole).roundHalfUp = .error .wholeTooLarge

/-- A half behind a whole number the fraction is the half. -/
theorem floor_whole_add_half (whole : Int) : ⌊(whole : ℚ) + 1 / 2⌋ = whole := by
  rw [Int.floor_eq_iff]
  constructor
  · linarith
  · linarith

/-- A whole number that slips is odd and has 53 digits. -/
theorem slips_intCast {whole : Int} :
    Slips whole ↔ whole % 2 = 1 ∧ twoTo 52 < whole.natAbs ∧ whole.natAbs < twoTo 53 := by
  constructor
  · rintro (last | ⟨other, same, other_digits⟩)
    · -- The last value below a half is no whole number.
      have floor := floor_whole_add_half whole
      have zero : whole = 0 := by
        rw [← floor, last]
        norm_num [twoTo]
      rw [zero] at last
      norm_num [twoTo] at last
    · rwa [Int.cast_injective same]
  · intro digits
    exact .inr ⟨whole, rfl, digits⟩

/-- A whole number is converted first. -/
theorem roundHalfUp_whole (whole : Int) :
    (Number.whole whole).roundHalfUp =
      wholeToReal whole >>= fun value => (Number.real value).roundHalfUp := rfl

/-- Below the bound a half is added to the converted number. -/
theorem roundHalfUp_of_lt_reach {whole : Int} (below : whole.natAbs < reach) :
    ∃ rounded : Int, (ofInt whole).Is rounded ∧ (rounded = whole ∨ twoTo 53 ≤ rounded.natAbs) ∧
      (¬Slips rounded → (Number.whole whole).roundHalfUp = .ok rounded) ∧
      (Slips rounded → (Number.whole whole).roundHalfUp = .ok (rounded + 1)) := by
  obtain ⟨rounded, known, is, near⟩ := Binary64.exists_ofInt_is below
  -- The whole number is converted first, and the half is added to what it was converted to.
  have opened : (Number.whole whole).roundHalfUp = (Number.real (ofInt whole)).roundHalfUp := by
    rw [roundHalfUp_whole, known]
    rfl
  refine ⟨rounded, is, near, ?_, ?_⟩
  · intro kept
    rw [opened, is.roundHalfUp_of_not_slips kept, floor_whole_add_half]
  · intro slips
    rw [opened, is.roundHalfUp_of_slips slips, floor_whole_add_half]

/-- From the bound on there is no value to add a half to. -/
theorem roundHalfUp_of_reach_le {whole : Int} (beyond : reach ≤ whole.natAbs) :
    (Number.whole whole).roundHalfUp = .error .wholeTooLarge := by
  rcases Binary64.ofRatio_cases (whole < 0) whole.natAbs Nat.one_pos with ⟨below, -⟩ | ⟨-, infinite⟩
  · omega
  · rw [roundHalfUp_whole, wholeToReal, ofInt, infinite]
    rfl

/-- Whole numbers are converted to the closest value before they are rounded. -/
theorem wholeRoundsUp (whole : Int) : WholeRoundsUp whole := by
  refine ⟨?_, ?_, roundHalfUp_of_reach_le⟩
  · constructor
    · intro ok
      have below : whole.natAbs < reach := by
        by_contra beyond
        rw [roundHalfUp_of_reach_le (Nat.not_lt.mp beyond)] at ok
        cases ok
      obtain ⟨rounded, is, near, kept, slipped⟩ := roundHalfUp_of_lt_reach below
      by_cases slips : Slips rounded
      · -- What slips is short, so it is the number itself and not the one before it.
        have digits := (slips_intCast.mp slips).2.2
        have next := Except.ok.inj ((slipped slips).symm.trans ok)
        omega
      · obtain rfl := Except.ok.inj ((kept slips).symm.trans ok)
        exact ⟨⟨_, is⟩, slips⟩
    · rintro ⟨⟨value, is⟩, stays⟩
      obtain ⟨rounded, roundedIs, -, kept, -⟩ := roundHalfUp_of_lt_reach is.natAbs_lt_reach
      -- A number that is a value itself has no closer one.
      have closest := Binary64.closest_ofInt roundedIs is
      rw [sub_self, abs_zero, abs_nonpos_iff, sub_eq_zero, Int.cast_inj] at closest
      subst closest
      exact kept stays
  · intro below
    obtain ⟨rounded, is, -, kept, slipped⟩ := roundHalfUp_of_lt_reach below
    exact ⟨ofInt whole, rounded, is, fun _ _ => Binary64.closest_ofInt is, kept, slipped⟩

end DiceLab
