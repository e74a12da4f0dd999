import DiceLab.Proofs.Formula.Average

/-! A formula whose numbers are short has its exact mean, in whatever order its terms stand and
however its dice are grouped into terms. -/

namespace DiceLab

namespace Binary64

/-- A value that is not the zero with a minus. -/
def Unsigned (value : Binary64) : Prop :=
  -- Both zeros are the same number, so nothing but the sign tells them apart.
  ∀ magnitude, value = .finite true magnitude → magnitude.units ≠ 0

variable {value other : Binary64} {number : ℚ}

/-- Apart from the zero with a minus, a value is told by the number that it is. -/
theorem Is.eq_of_unsigned (is : value.Is number) (otherIs : other.Is number)
    (plain : value.Unsigned) (otherPlain : other.Unsigned) : value = other := by
  obtain ⟨negative, ⟨units, _, _⟩, rfl, inUnits⟩ := is.exists_finite
  obtain ⟨otherNegative, ⟨otherUnits, _, _⟩, rfl, otherInUnits⟩ := otherIs.exists_finite
  have same : signed negative units = signed otherNegative otherUnits :=
    Int.cast_injective (inUnits.symm.trans otherInUnits)
  -- Numbers of units with different signs are the same only when both are none.
  cases negative with
  | true =>
    have some : units ≠ 0 := plain _ rfl
    cases otherNegative with
    | true =>
      obtain rfl : units = otherUnits := by simpa [signed] using same
      rfl
    | false =>
      simp only [signed, if_true, Bool.false_eq_true, if_false] at same
      omega
  | false =>
    cases otherNegative with
    | true =>
      have otherSome : otherUnits ≠ 0 := otherPlain _ rfl
      simp only [signed, if_true, Bool.false_eq_true, if_false] at same
      omega
    | false =>
      obtain rfl : units = otherUnits := by simpa [signed] using same
      rfl

/-- A whole number of units is rounded to zero only when it is none. -/
theorem unsigned_ofUnits {negative : Bool} {units : Nat} (some : negative = true → units ≠ 0) :
    (ofUnits negative units 1).Unsigned := by
  intro magnitude finite
  have one : nearest 1 1 = 1 := by decide +kernel
  unfold ofUnits Magnitude.nearest? at finite
  split at finite
  · rename_i found
    cases finite
    split at found
    · cases found
      -- One unit is on the grid, and a larger number is not rounded to less.
      have least : nearest 1 1 ≤ nearest units 1 :=
        nearest_mono (Nat.one_le_iff_ne_zero.mpr (some rfl))
      rw [one] at least
      exact Nat.one_le_iff_ne_zero.mp least
    · cases found
  · cases finite

/-- A value that is not finite is no zero at all. -/
theorem unsigned_of_not_finite (infinite : ∀ negative magnitude, value ≠ .finite negative magnitude) :
    value.Unsigned := fun magnitude finite => absurd finite (infinite true magnitude)

/-- Whatever is added to a value other than the zero with a minus, the sum is not that zero. -/
theorem Unsigned.add (plain : value.Unsigned) (other : Binary64) : (value.add other).Unsigned := by
  cases value with
  | nan => exact unsigned_of_not_finite (by simp [Binary64.add])
  | infinite left =>
    apply unsigned_of_not_finite
    cases other with
    | nan => simp [Binary64.add]
    | finite right second => simp [Binary64.add]
    | infinite right =>
      simp only [Binary64.add]
      split
      · simp
      · simp
  | finite left first =>
    cases other with
    | nan => exact unsigned_of_not_finite (by simp [Binary64.add])
    | infinite right => exact unsigned_of_not_finite (by simp [Binary64.add])
    | finite right second =>
      unfold Binary64.add
      dsimp only
      split
      · rename_i balanced
        apply unsigned_ofUnits
        intro signs
        -- Two numbers below zero do not add up to zero.
        obtain ⟨rfl, rfl⟩ := Bool.and_eq_true_iff.mp signs
        have some := plain first rfl
        simp only [signed, if_true] at balanced
        omega
      · rename_i some
        apply unsigned_ofUnits
        intro _
        exact Int.natAbs_ne_zero.mpr some

/-- A whole number is rounded to a zero without a minus, if to a zero at all. -/
theorem unsigned_ofInt (whole : Int) : (ofInt whole).Unsigned := by
  unfold ofInt ofRatio
  apply unsigned_ofUnits
  intro negative
  -- Only whole numbers below zero get a minus, and these are not rounded to zero.
  have below : whole < 0 := of_decide_eq_true negative
  have unit : 0 < scale := twoTo_pos _
  exact Nat.mul_ne_zero (Int.natAbs_ne_zero.mpr below.ne) unit.ne'

end Binary64

open Binary64 (reach)

namespace Term

/-- How far the dice of a term reach from zero, both ends of their face together. -/
def extent (term : Term) : Nat := term.count * (term.face.low.natAbs + term.face.high.natAbs)

/-- The mean of a term is no farther from zero than its dice reach. -/
theorem weight_le_extent (term : Term) : term.weight ≤ term.extent :=
  Nat.mul_le_mul_left _ (Int.natAbs_add_le _ _)

/-- Each die reaches at least one away from zero. -/
theorem count_le_extent (term : Term) : term.count ≤ term.extent := by
  apply Nat.le_mul_of_pos_right
  -- The highest value of every face is at least one.
  cases term.face with
  | fudge => decide
  | numeric sides positive =>
    simp only [Face.low, Face.high]
    split
    · decide
    · omega

end Term

namespace Formula

variable {formula other : Formula}

/-- How far the numbers of a formula reach from zero: its flat number, and all its dice with both
ends of their faces. -/
def extent (formula : Formula) : Nat :=
  formula.modifier.natAbs + naturalTotal (formula.terms.map Term.extent)

/-- Twice the mean of a formula is no farther from zero than twice its numbers reach. -/
theorem weight_le_extent (formula : Formula) : formula.weight ≤ 2 * formula.extent := by
  have terms : naturalTotal (formula.terms.map Term.weight) ≤
      naturalTotal (formula.terms.map Term.extent) :=
    naturalTotal_le fun term _ => term.weight_le_extent
  unfold weight extent
  omega

/-- The mean of a formula is never the zero with a minus. -/
theorem unsigned_average {average : Binary64} (ok : formula.average = .ok average) :
    average.Unsigned := by
  have general (terms : List Term) {start : Binary64} (plain : start.Unsigned)
      (ok : terms.foldlM (fun total term => do return total.add (← term.average)) start =
        Except.ok average) : average.Unsigned := by
    induction terms generalizing start with
    | nil =>
      cases ok
      exact plain
    | cons term rest ih =>
      rw [List.foldlM_cons] at ok
      obtain ⟨next, added, behind⟩ := bind_eq_ok.mp ok
      obtain ⟨mean, -, made⟩ := bind_eq_ok.mp added
      cases made
      -- Whatever is added, the sum so far does not become the zero with a minus.
      exact ih (plain.add mean) behind
  obtain ⟨start, read, folded⟩ := bind_eq_ok.mp ok
  rw [← Binary64.eq_of_finiteOr read] at folded
  exact general formula.terms (Binary64.unsigned_ofInt _) folded

/-- What all dice of a formula count for is what one die of each term does, times its count. -/
theorem naturalTotal_dice (formula : Formula) (part : Die → Nat) :
    naturalTotal (formula.dice.map part) =
      naturalTotal (formula.terms.map fun term => term.count * part ⟨term.sign, term.face⟩) := by
  simp only [dice, Term.dice, List.map_flatMap, List.map_replicate, naturalTotal_flatMap,
    naturalTotal_replicate]

/-- One formula regroups another: it has the same dice, in any order and in any groups, and the same
flat number. -/
structure Regroups (formula other : Formula) : Prop where
  /-- The dice are the same when they are laid out one by one. -/
  dice : formula.dice.Perm other.dice
  modifier : formula.modifier = other.modifier

/-- Terms in another order have the same dice. -/
theorem regroups_of_perm {terms others : List Term} (same : terms.Perm others) (modifier : Int) :
    Regroups ⟨terms, modifier⟩ ⟨others, modifier⟩ :=
  ⟨same.flatMap_right _, rfl⟩

namespace Regroups

variable (regroups : formula.Regroups other)

include regroups

/-- The ends of the range hang on the dice alone. -/
theorem ends_eq : formula.min = other.min ∧ formula.max = other.max := by
  rw [min_eq, min_eq, max_eq, max_eq, regroups.modifier,
    wholeTotal_perm (regroups.dice.map Die.least), wholeTotal_perm (regroups.dice.map Die.most)]
  exact ⟨rfl, rfl⟩

/-- So does how far the numbers reach from zero. -/
theorem extent_eq : formula.extent = other.extent := by
  have dice (formula : Formula) : naturalTotal (formula.terms.map Term.extent) =
      naturalTotal (formula.dice.map fun die => die.face.low.natAbs + die.face.high.natAbs) :=
    (naturalTotal_dice formula fun die => die.face.low.natAbs + die.face.high.natAbs).symm
  rw [extent, extent, dice, dice, naturalTotal_perm (regroups.dice.map _), regroups.modifier]

end Regroups

/-- The mean of a formula stands exactly between its ends when its numbers do not reach far. -/
theorem exists_average_of_extent (short : formula.extent ≤ twoTo 50) :
    ∃ average, formula.average = .ok average ∧
      average.Is ((formula.min + formula.max : Int) / 2) := by
  have power : 2 * twoTo 50 ≤ twoTo 53 := by decide
  have room : twoTo 50 < reach := Binary64.lt_reach_of_short (twoTo_le (by decide))
  -- The weight is twice the extent at most, which leaves room below 53 digits.
  have weight := formula.weight_le_extent
  apply average_exact
  · intro term member
    have part : term.extent ≤ naturalTotal (formula.terms.map Term.extent) :=
      le_naturalTotal (List.mem_map_of_mem member)
    have count := term.count_le_extent
    unfold extent at short
    omega
  · omega

/--
A formula whose numbers do not reach farther than `2 ^ 50` has statistics, and their mean stands
exactly halfway between the two ends.

The order of the terms makes no difference, nor does the way in which the dice are grouped: every
formula with the same dice and the same flat number has the very same statistics.
-/
theorem stats_halfway (short : formula.extent ≤ twoTo 50) :
    ∃ stats, formula.stats = .ok stats ∧
      stats.average.Is ((stats.min + stats.max : Int) / 2) ∧
      (∀ terms, terms.Perm formula.terms →
        Formula.stats ⟨terms, formula.modifier⟩ = .ok stats) ∧
      ∀ other : Formula, other.Regroups formula → other.stats = .ok stats := by
  obtain ⟨average, ok, is⟩ := exists_average_of_extent short
  have regrouped (other : Formula) (regroups : other.Regroups formula) :
      other.stats = .ok ⟨formula.min, formula.max, average⟩ := by
    -- The other mean is the same number, and neither of the two is the zero with a minus.
    rw [← regroups.extent_eq] at short
    obtain ⟨otherAverage, otherOk, otherIs⟩ := exists_average_of_extent short
    rw [regroups.ends_eq.1, regroups.ends_eq.2] at otherIs
    have same := otherIs.eq_of_unsigned is (unsigned_average otherOk) (unsigned_average ok)
    rw [stats_eq_ok otherOk, regroups.ends_eq.1, regroups.ends_eq.2, same]
  refine ⟨_, stats_eq_ok ok, is, ?_, regrouped⟩
  intro terms reordered
  exact regrouped _ (regroups_of_perm reordered formula.modifier)

/-- Two dice, less a coin and a Fudge die, have the same statistics when the two dice are written
apart and the Fudge die between them. -/
theorem stats_halfway_apart :
    let together : Formula :=
      ⟨[⟨.plus, 2, .numeric 6 (by decide), by decide⟩,
        ⟨.minus, 1, .numeric 2 (by decide), by decide⟩, ⟨.minus, 1, .fudge, by decide⟩], 3⟩
    let apart : Formula :=
      ⟨[⟨.plus, 1, .numeric 6 (by decide), by decide⟩, ⟨.minus, 1, .fudge, by decide⟩,
        ⟨.plus, 1, .numeric 6 (by decide), by decide⟩,
        ⟨.minus, 1, .numeric 2 (by decide), by decide⟩], 3⟩
    together.extent ≤ twoTo 50 ∧ apart.Regroups together ∧
      ∃ stats, together.stats = .ok stats ∧ stats.average.Is ((stats.min + stats.max : Int) / 2) ∧
        apart.stats = .ok stats := by
  intro together apart
  have short : together.extent ≤ twoTo 50 := by decide
  have regroups : apart.Regroups together := ⟨by decide, rfl⟩
  obtain ⟨stats, ok, is, -, same⟩ := stats_halfway short
  exact ⟨short, regroups, stats, ok, is, same apart regroups⟩

end Formula

end DiceLab
