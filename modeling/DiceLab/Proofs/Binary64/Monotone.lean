import DiceLab.Proofs.Binary64.Order
import DiceLab.Proofs.Binary64.Rounding
import Mathlib.Data.Nat.Log

/-! Rounding keeps the order of exact results, and so do the operations that round them. -/

namespace DiceLab

/-- A larger quotient is not rounded to less. -/
theorem roundQuotient_mono {numerator other denominator : Nat} (le : numerator ≤ other) :
    roundQuotient numerator denominator ≤ roundQuotient other denominator := by
  have wholes := Nat.div_le_div_right (c := denominator) le
  have above := (roundQuotient_bounds numerator denominator).2
  have below := (roundQuotient_bounds other denominator).1
  rcases Nat.lt_or_ge (numerator / denominator) (other / denominator) with apart | same
  · omega
  · -- Behind the same whole part the rests decide, and they are in order as well.
    have equal : numerator / denominator = other / denominator := Nat.le_antisymm wholes same
    have first := Nat.div_add_mod numerator denominator
    have second := Nat.div_add_mod other denominator
    rw [equal] at first
    unfold roundQuotient
    dsimp only
    rw [equal]
    generalize denominator * (other / denominator) = base at first second
    generalize other / denominator = whole at *
    have parity := Nat.mod_two_eq_zero_or_one whole
    split_ifs <;> omega

/-- A quotient is rounded alike when both of its numbers are multiplied by a third one. -/
theorem roundQuotient_mul_right (numerator denominator : Nat) {factor : Nat}
    (positive : 0 < factor) :
    roundQuotient (numerator * factor) (denominator * factor) =
      roundQuotient numerator denominator := by
  unfold roundQuotient
  dsimp only
  -- The factor leaves the whole part alone and scales the rest along with the divisor.
  rw [Nat.mul_div_mul_right _ _ positive, Nat.mul_mod_mul_right, ← Nat.mul_assoc]
  simp only [Nat.mul_lt_mul_right positive]

namespace Binary64

/-- A larger quotient is not rounded to a lower point of the grid. -/
theorem nearest_mono {numerator other denominator : Nat} (le : numerator ≤ other) :
    nearest numerator denominator ≤ nearest other denominator := by
  have wholes := Nat.div_le_div_right (c := denominator) le
  by_cases same : spacing (numerator / denominator) = spacing (other / denominator)
  · unfold nearest
    dsimp only
    rw [same]
    exact Nat.mul_le_mul_right _ (roundQuotient_mono le)
  · -- Where the spacings differ, a power of two stands between the two quotients.
    generalize first : numerator / denominator = low at wholes same
    generalize second : other / denominator = high at wholes same
    unfold spacing at same
    have logs : low.log2 ≤ high.log2 := by
      rw [Nat.log2_eq_log_two, Nat.log2_eq_log_two]
      exact Nat.log_mono_right wholes
    -- Below fifty-three digits all spacings are one unit.
    have digits : 53 ≤ high.log2 ∧ low.log2 < high.log2 := by
      by_contra close
      exact same (congrArg twoTo (by omega))
    have nonzero : high ≠ 0 := by
      rintro rfl
      simp [Nat.log2_zero] at digits
    have below : numerator / denominator < twoTo high.log2 := by
      rw [first]
      exact Nat.lt_of_lt_of_le (lt_twoTo_log2 low) (twoTo_le (by omega))
    have above : twoTo high.log2 ≤ other / denominator := by
      rw [second]
      exact Nat.log2_self_le nonzero
    exact Nat.le_trans (nearest_le digits.1 below) (le_nearest (by omega) above)

/-- A quotient has one nearest point on the grid, whatever numbers it is written with. -/
theorem nearest_mul_right (numerator denominator : Nat) {factor : Nat} (positive : 0 < factor) :
    nearest (numerator * factor) (denominator * factor) = nearest numerator denominator := by
  unfold nearest
  dsimp only
  rw [Nat.mul_div_mul_right _ _ positive, Nat.mul_right_comm, roundQuotient_mul_right _ _ positive]

/-- A larger quotient of other numbers is not rounded to a lower point of the grid either. -/
theorem nearest_le_nearest {numerator denominator other divisor : Nat} (positive : 0 < denominator)
    (otherPositive : 0 < divisor) (le : numerator * divisor ≤ other * denominator) :
    nearest numerator denominator ≤ nearest other divisor := by
  -- Both quotients are written with the product of what they are divided by.
  rw [← nearest_mul_right numerator denominator otherPositive,
    ← nearest_mul_right other divisor positive, Nat.mul_comm divisor]
  exact nearest_mono le

/-- The place of a number of units. -/
def placeAt (units : Int) : WithBot (WithTop ℤ) := (units : WithTop ℤ)

/-- Places of units are ordered as the units are. -/
theorem placeAt_le {units others : Int} : placeAt units ≤ placeAt others ↔ units ≤ others := by
  simp [placeAt]

/-- A quotient with a sign has the place of its nearest point on the grid, or lies at an end. -/
theorem place_ofUnits (negative : Bool) (numerator denominator : Nat) :
    (ofUnits negative numerator denominator).place =
      if nearest numerator denominator < overflow then
        placeAt (signed negative (nearest numerator denominator))
      else if negative then ⊥ else ⊤ := by
  -- The magnitude is the nearest point, unless this one is too large.
  unfold ofUnits Magnitude.nearest?
  by_cases bounded : nearest numerator denominator < overflow
  · simp [bounded, place, position?, Position.place, placeAt]
  · cases negative with
    | true => simp [bounded, place, position?, Position.place]
    | false => simp [bounded, place, position?, Position.place]

/-- A rounded quotient is a number. -/
theorem ofUnits_ne_nan (negative : Bool) (numerator denominator : Nat) :
    ofUnits negative numerator denominator ≠ .nan := by
  unfold ofUnits
  split
  · simp
  · simp

variable {value other : Binary64} {number otherNumber : ℚ}

/-- A value that is a number has the place of its units. -/
theorem Is.exists_place (is : value.Is number) :
    ∃ units : Int, value.place = placeAt units ∧ number * scale = units := by
  obtain ⟨units, known, equal⟩ := is
  exact ⟨units, by simp [place, known, Position.place, placeAt], equal⟩

/-- Values that are numbers are ordered as these are. -/
theorem Is.place_le_iff (is : value.Is number) (otherIs : other.Is otherNumber) :
    value.place ≤ other.place ↔ number ≤ otherNumber := by
  obtain ⟨units, placed, equal⟩ := is.exists_place
  obtain ⟨others, otherPlaced, otherEqual⟩ := otherIs.exists_place
  rw [placed, otherPlaced, placeAt_le, ← mul_le_mul_iff_left₀ scale_pos, equal, otherEqual,
    Int.cast_le]

/-- A value is one number only. -/
theorem Is.unique (is : value.Is number) (otherIs : value.Is otherNumber) : number = otherNumber :=
  le_antisymm ((is.place_le_iff otherIs).mp le_rfl) ((otherIs.place_le_iff is).mp le_rfl)

/-- A value between two numbers is a number between them. -/
theorem Is.exists_between {low high : Binary64} {least most : ℚ} (lowIs : low.Is least)
    (highIs : high.Is most) (above : low.place ≤ value.place) (below : value.place ≤ high.place) :
    ∃ number, value.Is number ∧ least ≤ number ∧ number ≤ most := by
  obtain ⟨bottom, bottomPlaced, -⟩ := lowIs.exists_place
  obtain ⟨top, topPlaced, -⟩ := highIs.exists_place
  -- Neither of the two ends of the line lies between units.
  have known : ∃ units : Int, value.position? = some (.at units) := by
    rw [bottomPlaced] at above
    rw [topPlaced] at below
    unfold place at above below
    cases found : value.position? with
    | none => simp [found, placeAt] at above
    | some position =>
      cases position with
      | below => simp [found, placeAt, Position.place] at above
      | above => simp [found, placeAt, Position.place] at below
      | «at» units => exact ⟨units, rfl⟩
  obtain ⟨units, known⟩ := known
  have is : value.Is (units / scale) := ⟨units, known, div_mul_cancel₀ _ scale_pos.ne'⟩
  exact ⟨_, is, (lowIs.place_le_iff is).mp above, (is.place_le_iff highIs).mp below⟩

/-- Without a minus rounding keeps the order, and with one it turns the order around. -/
theorem place_ofUnits_le {numerator denominator other divisor : Nat}
    (points : nearest numerator denominator ≤ nearest other divisor) :
    (ofUnits false numerator denominator).place ≤ (ofUnits false other divisor).place ∧
      (ofUnits true other divisor).place ≤ (ofUnits true numerator denominator).place := by
  simp only [place_ofUnits]
  by_cases bounded : nearest other divisor < overflow
  · -- The smaller one is finite where the larger one is.
    have also : nearest numerator denominator < overflow := Nat.lt_of_le_of_lt points bounded
    simpa [bounded, also, placeAt_le, signed] using points
  · simp [bounded]

/-- A larger quotient without a minus is not rounded to less. -/
theorem place_ofRatio_le {numerator denominator other divisor : Nat} (positive : 0 < denominator)
    (otherPositive : 0 < divisor) (le : numerator * divisor ≤ other * denominator) :
    (ofRatio false numerator denominator).place ≤ (ofRatio false other divisor).place := by
  apply (place_ofUnits_le _).1
  apply nearest_le_nearest positive otherPositive
  rw [Nat.mul_right_comm, Nat.mul_right_comm other]
  exact Nat.mul_le_mul_right scale le

/-- What has a minus is not above zero, and what has none is not below it. -/
theorem place_ofUnits_zero (numerator other denominator : Nat) :
    (ofUnits true numerator denominator).place ≤ placeAt 0 ∧
      placeAt 0 ≤ (ofUnits false other denominator).place := by
  rw [place_ofUnits, place_ofUnits]
  -- A quotient with a minus is finite and not above zero, or is the lower end.
  constructor
  · split
    · simp [placeAt_le, signed]
    · simp
  · split
    · simp [placeAt_le, signed]
    · simp

/-- The value nearest to a quotient of units whose numerator carries the sign. -/
def rounded (numerator : Int) (denominator : Nat) : Binary64 :=
  ofUnits (numerator < 0) numerator.natAbs denominator

/-- Rounding keeps the order of quotients. -/
theorem rounded_mono {numerator other : Int} {denominator : Nat} (le : numerator ≤ other) :
    (rounded numerator denominator).place ≤ (rounded other denominator).place := by
  unfold rounded
  by_cases negative : numerator < 0
  · by_cases otherNegative : other < 0
    · simpa [negative, otherNegative] using (place_ofUnits_le (nearest_mono (by omega))).2
    · -- Zero stands between the two.
      have apart := place_ofUnits_zero numerator.natAbs other.natAbs denominator
      simpa [negative, otherNegative] using apart.1.trans apart.2
  · have positive : ¬other < 0 := by omega
    simpa [negative, positive] using (place_ofUnits_le (nearest_mono (by omega))).1

/-- Nothing is rounded to nothing. -/
theorem nearest_zero (denominator : Nat) : nearest 0 denominator = 0 := by
  simp [nearest, roundQuotient]

/-- Zero has its place, whatever its sign. -/
theorem place_zero (negative : Bool) : (zero negative).place = placeAt 0 := by
  cases negative <;> decide +kernel

/-- The exact sum of two finite values is rounded. -/
theorem place_add (negative other : Bool) (first second : Magnitude) :
    ((finite negative first).add (finite other second)).place =
      (rounded (signed negative first.units + signed other second.units) 1).place := by
  unfold add
  dsimp only
  split
  · -- An exact zero gets a sign of its own, which does not move it.
    rename_i none
    rw [none, place_zero]
    exact (place_zero false).symm
  · rfl

/-- Rounding with a sign apart is rounding with the sign in the numerator, for the two zeros have
one place. -/
theorem place_ofUnits_eq (negative : Bool) (numerator denominator : Nat) :
    (ofUnits negative numerator denominator).place =
      (rounded (signed negative numerator) denominator).place := by
  unfold rounded
  cases negative with
  | false =>
    have above : ¬(numerator : Int) < 0 := by omega
    simp [signed, above]
  | true =>
    by_cases none : numerator = 0
    · -- A rounded zero is zero, with either sign.
      subst none
      have bounded : 0 < overflow := twoTo_pos _
      simp [place_ofUnits, signed, nearest_zero, bounded]
    · have below : 0 < numerator := Nat.pos_of_ne_zero none
      simp [signed, below]

/-- The exact product of two finite values is rounded. -/
theorem place_mul (negative other : Bool) (first second : Magnitude) :
    ((finite negative first).mul (finite other second)).place =
      (rounded (signed negative first.units * signed other second.units) scale).place := by
  -- The sign of a product is computed apart from its size.
  rw [mul, place_ofUnits_eq, signed_mul]

/-- Of two numbers in order, the first is the lower end, or the second the upper one, or both are
finite. -/
theorem cases_of_place_le {first second : Binary64} (number : first ≠ .nan) (other : second ≠ .nan)
    (le : first.place ≤ second.place) :
    first = .infinite true ∨ second = .infinite false ∨
      ∃ negative magnitude otherNegative otherMagnitude, first = .finite negative magnitude ∧
        second = .finite otherNegative otherMagnitude ∧
        signed negative magnitude.units ≤ signed otherNegative otherMagnitude.units := by
  cases first with
  | nan => exact absurd rfl number
  | infinite below =>
    cases below with
    | true => exact .inl rfl
    | false =>
      -- Only the upper end is not below itself.
      cases second with
      | nan => exact absurd rfl other
      | infinite otherBelow =>
        cases otherBelow with
        | true => simp [place, position?, Position.place] at le
        | false => exact .inr (.inl rfl)
      | finite otherNegative otherMagnitude => simp [place, position?, Position.place] at le
  | finite negative magnitude =>
    cases second with
    | nan => exact absurd rfl other
    | infinite otherBelow =>
      cases otherBelow with
      | true => simp [place, position?, Position.place] at le
      | false => exact .inr (.inl rfl)
    | finite otherNegative otherMagnitude =>
      exact .inr (.inr ⟨_, _, _, _, rfl, rfl, placeAt_le.mp le⟩)

/-- The lower end of the line has the least place, and the upper end the greatest. -/
theorem place_infinite (value : Binary64) :
    (infinite true).place ≤ value.place ∧ value.place ≤ (infinite false).place :=
  ⟨bot_le, le_top⟩

/-- A number plus a finite value is a number. -/
theorem add_ne_nan (negative : Bool) (magnitude : Magnitude) {value : Binary64}
    (number : value ≠ .nan) : value.add (finite negative magnitude) ≠ .nan := by
  cases value with
  | nan => exact absurd rfl number
  | infinite other => simp [add]
  | finite other second =>
    -- A sum that is exactly zero and one that is rounded are both quotients of units.
    rw [add]
    split
    · exact ofUnits_ne_nan _ _ _
    · exact ofUnits_ne_nan _ _ _

/-- A finite value that is added to numbers keeps them in order. -/
theorem place_add_le (negative : Bool) (magnitude : Magnitude) {first second : Binary64}
    (number : first ≠ .nan) (other : second ≠ .nan) (le : first.place ≤ second.place) :
    (first.add (finite negative magnitude)).place ≤
      (second.add (finite negative magnitude)).place := by
  obtain rfl | rfl | ⟨_, _, _, _, rfl, rfl, units⟩ := cases_of_place_le number other le
  · -- An infinite first value stays at the lower end, and an infinite second one at the upper end.
    exact (place_infinite _).1
  · exact (place_infinite _).2
  · -- Exact sums are in order, and so are the rounded ones.
    rw [place_add, place_add]
    exact rounded_mono (by omega)

/-- The terms of a sum can be swapped. -/
theorem add_swap (first second : Binary64) : first.add second = second.add first := by
  cases first with
  | nan => cases second <;> rfl
  | infinite left =>
    cases second with
    | nan => rfl
    | infinite right => cases left <;> cases right <;> rfl
    | finite right magnitude => rfl
  | finite left magnitude =>
    cases second with
    | nan => rfl
    | infinite right => rfl
    | finite right other =>
      -- A zero sum has a minus only when both terms have one.
      simp only [add, Int.add_comm (signed left magnitude.units), Bool.and_comm left]

/-- The negative of a number is a number. -/
theorem neg_ne_nan {value : Binary64} (number : value ≠ .nan) : value.neg ≠ .nan := by
  cases value with
  | nan => exact absurd rfl number
  | infinite negative => simp [neg]
  | finite negative magnitude => simp [neg]

/-- Negatives are in the opposite order. -/
theorem place_neg_le {first second : Binary64} (number : first ≠ .nan) (other : second ≠ .nan)
    (le : first.place ≤ second.place) : second.neg.place ≤ first.neg.place := by
  obtain rfl | rfl | ⟨negative, magnitude, minus, size, rfl, rfl, units⟩ :=
    cases_of_place_le number other le
  · exact (place_infinite _).2
  · exact (place_infinite _).1
  · -- Finite places are whole numbers, and negating these turns the order around.
    show placeAt (signed (!minus) size.units) ≤ placeAt (signed (!negative) magnitude.units)
    rw [placeAt_le, signed_not, signed_not]
    omega

/-- What is left of a finite value is a number. -/
theorem sub_ne_nan (negative : Bool) (magnitude : Magnitude) {value : Binary64}
    (number : value ≠ .nan) : (finite negative magnitude).sub value ≠ .nan := by
  rw [sub, add_swap]
  exact add_ne_nan negative magnitude (neg_ne_nan number)

/-- The more is taken from a finite value, the less is left of it. -/
theorem place_sub_le (negative : Bool) (magnitude : Magnitude) {first second : Binary64}
    (number : first ≠ .nan) (other : second ≠ .nan) (le : first.place ≤ second.place) :
    ((finite negative magnitude).sub second).place ≤
      ((finite negative magnitude).sub first).place := by
  -- A difference is a sum with the negative, and the finite value is added to it.
  rw [sub, sub, add_swap, add_swap (finite negative magnitude)]
  exact place_add_le negative magnitude (neg_ne_nan other) (neg_ne_nan number)
    (place_neg_le number other le)

/-- An end of the line stays where it is when it is taken a positive number of times. -/
theorem infinite_mul (negative : Bool) {factor : Magnitude} (nonzero : factor.isZero = false) :
    (infinite negative).mul (.finite false factor) = .infinite negative := by
  simp [mul, nonzero]

/-- A number times a positive one is a number. -/
theorem mul_ne_nan {value : Binary64} {factor : Magnitude} (number : value ≠ .nan)
    (nonzero : factor.isZero = false) : value.mul (finite false factor) ≠ .nan := by
  cases value with
  | nan => exact absurd rfl number
  -- Only zero times an end of the line is no number.
  | infinite negative => simp [mul, nonzero]
  | finite negative magnitude =>
    rw [mul]
    exact ofUnits_ne_nan _ _ _

/-- A number times a positive one keeps its order with others. -/
theorem place_mul_le {first second : Binary64} {factor : Magnitude} (number : first ≠ .nan)
    (other : second ≠ .nan) (nonzero : factor.isZero = false) (le : first.place ≤ second.place) :
    (first.mul (.finite false factor)).place ≤ (second.mul (.finite false factor)).place := by
  obtain rfl | rfl | ⟨_, _, _, _, rfl, rfl, units⟩ := cases_of_place_le number other le
  · -- The ends of the line are kept by a positive factor.
    rw [infinite_mul true nonzero]
    exact (place_infinite _).1
  · rw [infinite_mul false nonzero]
    exact (place_infinite _).2
  · -- Exact products by a positive number are in order, and so are the rounded ones.
    rw [place_mul, place_mul]
    exact rounded_mono (Int.mul_le_mul_of_nonneg_right units (by simp [signed]))

/-- A value held between two bounds has the place that its own is held at. -/
theorem place_clamp {low high value : Binary64} (bottom : low ≠ .nan) (top : high ≠ .nan)
    (number : value ≠ .nan) :
    (clamp low high value).place = max low.place (min value.place high.place) := by
  -- Both comparisons pick one of two numbers, by their places.
  have capped : (if value.lt high then value else high) ≠ .nan := by
    split
    · exact number
    · exact top
  have least : (if value.lt high then value else high).place = min value.place high.place := by
    split
    · rename_i below
      exact (min_eq_left ((lt_iff_place number top).mp below).le).symm
    · rename_i above
      rw [lt_iff_place number top, not_lt] at above
      exact (min_eq_right above).symm
  unfold clamp
  dsimp only
  rw [← least]
  generalize (if value.lt high then value else high) = held at capped
  split
  · rename_i above
    exact (max_eq_right ((lt_iff_place bottom capped).mp above).le).symm
  · rename_i below
    rw [lt_iff_place bottom capped, not_lt] at below
    exact (max_eq_left below).symm

/-- A value held between two bounds that are in order lies between them. -/
theorem place_clamp_between {low high value : Binary64} (bottom : low ≠ .nan) (top : high ≠ .nan)
    (number : value ≠ .nan) (ends : low.place ≤ high.place) :
    low.place ≤ (clamp low high value).place ∧ (clamp low high value).place ≤ high.place := by
  rw [place_clamp bottom top number]
  exact ⟨le_max_left _ _, max_le ends (min_le_right _ _)⟩

/-- Values that are held between the same bounds keep their order. -/
theorem place_clamp_le {low high first second : Binary64} (bottom : low ≠ .nan) (top : high ≠ .nan)
    (number : first ≠ .nan) (other : second ≠ .nan) (le : first.place ≤ second.place) :
    (clamp low high first).place ≤ (clamp low high second).place := by
  rw [place_clamp bottom top number, place_clamp bottom top other]
  exact max_le_max_left _ (min_le_min_right _ le)

/-- Of two bounds in order, a value that reaches the upper one is held there. -/
theorem clamp_of_le {low high value : Binary64} (ends : low.lt high = true) (number : value ≠ .nan)
    (top : high ≠ .nan) (reached : high.place ≤ value.place) : clamp low high value = high := by
  have above : value.lt high = false := by
    rw [← Bool.not_eq_true, lt_iff_place number top, not_lt]
    exact reached
  simp [clamp, above, ends]

namespace Nonnegative

variable {first second value : Binary64}

/-- Values without a minus have a sum without one. -/
theorem add (nonnegative : first.Nonnegative) (other : second.Nonnegative) :
    (first.add second).Nonnegative := by
  cases nonnegative with
  | infinite =>
    cases other with
    | infinite => exact .infinite
    | finite magnitude => exact .infinite
  | finite magnitude =>
    cases other with
    | infinite => exact .infinite
    | finite otherMagnitude =>
      have above : ¬(signed false magnitude.units + signed false otherMagnitude.units < 0) := by
        simp only [signed, Bool.false_eq_true, if_false]
        omega
      unfold Binary64.add
      dsimp only
      -- An exact zero and a rounded sum are both quotients without a minus.
      split
      · exact nonnegative_zero
      · rw [decide_eq_false above]
        exact nonnegative_ofUnits _ _

/-- A value without a minus stays so when it is taken a positive number of times. -/
theorem mul {factor : Magnitude} (nonnegative : value.Nonnegative)
    (nonzero : factor.isZero = false) : (value.mul (.finite false factor)).Nonnegative := by
  cases nonnegative with
  -- The upper end is kept, and a rounded product of values without a minus has none.
  | infinite =>
    rw [infinite_mul false nonzero]
    exact .infinite
  | finite magnitude =>
    rw [Binary64.mul, bne_self_eq_false]
    exact nonnegative_ofUnits _ _

/-- Whatever is added to them, values without a minus keep their order. -/
theorem place_add_right_le (nonnegative : first.Nonnegative) (other : second.Nonnegative)
    (added : value.Nonnegative) (le : first.place ≤ second.place) :
    (first.add value).place ≤ (second.add value).place := by
  cases added with
  | finite magnitude =>
    exact Binary64.place_add_le false magnitude nonnegative.ne_nan other.ne_nan le
  | infinite =>
    -- With the upper end both sums are at that end.
    cases other with
    | infinite => exact (place_infinite _).2
    | finite magnitude => exact (place_infinite _).2

/-- Sums of values without a minus are in order when both of their terms are. -/
theorem place_add_le {more : Binary64} (nonnegative : first.Nonnegative)
    (other : second.Nonnegative) (added : value.Nonnegative) (otherAdded : more.Nonnegative)
    (le : first.place ≤ second.place) (addedLe : value.place ≤ more.place) :
    (first.add value).place ≤ (second.add more).place := by
  refine (nonnegative.place_add_right_le other added le).trans ?_
  rw [add_swap second, add_swap second]
  exact added.place_add_right_le otherAdded other addedLe

end Nonnegative

/-- A larger whole number has no lower place. -/
theorem place_ofInt_le {whole other : Int} (le : whole ≤ other) :
    (ofInt whole).place ≤ (ofInt other).place := by
  -- Its sign and its size in units come together in the product with the scale.
  have units (number : Int) : signed (number < 0) (number.natAbs * scale) = number * scale := by
    rw [signed_mul_natCast, signed_natAbs]
  unfold ofInt ofRatio
  rw [place_ofUnits_eq, place_ofUnits_eq, units, units]
  exact rounded_mono (Int.mul_le_mul_of_nonneg_right le (Int.natCast_nonneg _))

/-- A natural number is rounded as the quotient by one. -/
theorem ofInt_natCast (number : Nat) : ofInt number = ofRatio false number 1 := by
  have above : ¬(number : Int) < 0 := by omega
  rw [ofInt, Int.natAbs_natCast, decide_eq_false above]

/-- A whole number is rounded to a number. -/
theorem ofInt_ne_nan (whole : Int) : ofInt whole ≠ .nan := by
  unfold ofInt ofRatio
  exact ofUnits_ne_nan _ _ _

/-- A finite value is itself. -/
theorem eq_of_finiteOr {value result : Binary64} {failure : Failure}
    (ok : value.finiteOr failure = .ok result) : value = result := by
  -- Infinite ones are turned down.
  cases value with
  | nan => exact Except.ok.inj ok
  | infinite negative => cases ok
  | finite negative magnitude => exact Except.ok.inj ok

end Binary64

end DiceLab
