import DiceLab.Proofs.Binary64.Exact
import DiceLab.Proofs.Candidate.Scorable
import DiceLab.Proofs.Proposal.Dice
import Mathlib.Algebra.Order.Field.Basic

/-! The mean of a formula stands halfway between its ends as long as its numbers are short, and else
as close to that as the roundings leave it. -/

namespace DiceLab

open Binary64 (reach scale Is Rounds IsShort)

namespace Binary64

/-- What a value may grow by when it is rounded once. -/
def growth : ℚ := 1 + 1 / twoTo 53

/-- A value is near a number: it is off by what some roundings do to a number of some size. -/
def Near (value : Binary64) (exact size : ℚ) (roundings : Nat) : Prop :=
  ∃ number, value.Is number ∧ |number - exact| ≤ (growth ^ roundings - 1) * size

variable {value : Binary64} {exact size moved number : ℚ} {roundings : Nat}

/-- A rounding never makes a bound smaller. -/
theorem one_le_growth : 1 ≤ growth := by
  have power : (0 : ℚ) < twoTo 53 := Nat.cast_pos.mpr (twoTo_pos 53)
  have part : (0 : ℚ) < 1 / twoTo 53 := one_div_pos.mpr power
  unfold growth
  linarith

/-- Roundings never make a bound smaller. -/
theorem one_le_growth_pow (roundings : Nat) : 1 ≤ growth ^ roundings :=
  one_le_pow₀ one_le_growth

/-- A smaller part has no larger bound behind fewer roundings. -/
theorem growth_pow_mul_le {few many : Nat} {part whole : ℚ} (fewer : few ≤ many)
    (smaller : part ≤ whole) (positive : 0 ≤ part) :
    growth ^ few * part ≤ growth ^ many * whole := by
  have grows : growth ^ few ≤ growth ^ many := pow_le_pow_right₀ one_le_growth fewer
  have factor := one_le_growth_pow many
  exact mul_le_mul grows smaller positive (by linarith)

/-- Up to half of `2 ^ 53` roundings, each adds less than two parts in `2 ^ 53`. -/
theorem growth_pow_le {roundings : Nat} (few : roundings ≤ twoTo 52) :
    growth ^ roundings ≤ 1 + roundings / twoTo 52 := by
  have power : (0 : ℚ) < twoTo 52 := Nat.cast_pos.mpr (twoTo_pos 52)
  have double : (twoTo 53 : ℚ) = 2 * twoTo 52 := by exact_mod_cast twoTo_add 1 52
  induction roundings with
  | zero => simp
  | succ roundings ih =>
    have before := ih (Nat.le_of_succ_le few)
    -- The bound before is at most two, so one more rounding adds at most one more part.
    have part : (roundings : ℚ) / twoTo 52 ≤ 1 := by
      rw [div_le_one power]
      exact_mod_cast Nat.le_of_succ_le few
    have step : (1 + roundings / twoTo 52 : ℚ) * (1 / twoTo 53) ≤ 1 / twoTo 52 := by
      rw [double, ← div_div, mul_div_assoc', div_le_div_iff_of_pos_right power]
      linarith
    calc
      growth ^ (roundings + 1) = growth ^ roundings * growth := pow_succ _ _
      _ ≤ (1 + roundings / twoTo 52) * growth := by
        have grows := one_le_growth
        exact mul_le_mul_of_nonneg_right before (by linarith)
      _ = 1 + roundings / twoTo 52 + (1 + roundings / twoTo 52) * (1 / twoTo 53) := by
        unfold growth
        ring
      _ ≤ 1 + roundings / twoTo 52 + 1 / twoTo 52 := by linarith
      _ = 1 + (roundings + 1 : Nat) / twoTo 52 := by
        push_cast
        ring

/-- So few roundings do not even double a number. -/
theorem growth_pow_le_two (few : roundings ≤ twoTo 52) : growth ^ roundings ≤ 2 := by
  have power : (0 : ℚ) < twoTo 52 := Nat.cast_pos.mpr (twoTo_pos 52)
  -- So few roundings add at most a `2 ^ 52`th each, which is one together.
  have part : (roundings : ℚ) / twoTo 52 ≤ 1 := by
    rw [div_le_one power]
    exact Nat.cast_le.mpr few
  have bound := growth_pow_le few
  linarith

/-- Half of a number is off by one part in `2 ^ 53` of the whole for each rounding. -/
theorem growth_error_le {weight : ℚ} (few : roundings ≤ twoTo 52) (positive : 0 ≤ weight) :
    (growth ^ roundings - 1) * (weight / 2) * twoTo 53 ≤ roundings * weight := by
  have power : (0 : ℚ) < twoTo 52 := Nat.cast_pos.mpr (twoTo_pos 52)
  have double : (twoTo 53 : ℚ) = 2 * twoTo 52 := by exact_mod_cast twoTo_add 1 52
  -- The growth exceeds one by a `2 ^ 52`th for each rounding at most.
  have parts : (growth ^ roundings - 1) * twoTo 52 ≤ roundings := by
    rw [← le_div_iff₀ power]
    linarith [growth_pow_le few]
  calc
    (growth ^ roundings - 1) * (weight / 2) * twoTo 53
      = (growth ^ roundings - 1) * twoTo 52 * weight := by
        rw [double]
        ring
    _ ≤ roundings * weight := mul_le_mul_of_nonneg_right parts positive

/-- What is near a number before it is rounded is near it afterwards, by one rounding more. -/
theorem Rounds.near (rounds : Rounds moved value number) (small : |exact| ≤ size)
    (close : |moved - exact| ≤ (growth ^ roundings - 1) * size) :
    value.Near exact size (roundings + 1) := by
  refine ⟨number, rounds.is, ?_⟩
  have power : (0 : ℚ) < twoTo 53 := Nat.cast_pos.mpr (twoTo_pos 53)
  -- The number that is rounded is itself no larger than the bound allows.
  have large : |moved| ≤ growth ^ roundings * size := by
    have parts := abs_add_le (moved - exact) exact
    rw [sub_add_cancel] at parts
    linarith
  have error : |number - moved| ≤ growth ^ roundings * size / twoTo 53 := by
    rw [le_div_iff₀ power]
    exact le_trans rounds.error large
  have steps := abs_sub_le number moved exact
  have next : growth ^ (roundings + 1) = growth ^ roundings + growth ^ roundings / twoTo 53 := by
    rw [pow_succ, growth]
    ring
  rw [next]
  have spread : (growth ^ roundings + growth ^ roundings / twoTo 53 - 1) * size =
      (growth ^ roundings - 1) * size + growth ^ roundings * size / twoTo 53 := by ring
  rw [spread]
  linarith

/-- What is near a number stays near it when more roundings are allowed for. -/
theorem Near.mono {more : Nat} (near : value.Near exact size roundings) (positive : 0 ≤ size)
    (le : roundings ≤ more) : value.Near exact size more := by
  obtain ⟨number, is, close⟩ := near
  -- Room for an error grows with the number of roundings.
  have power := pow_le_pow_right₀ one_le_growth le
  exact ⟨number, is, le_trans close (mul_le_mul_of_nonneg_right (by linarith) positive)⟩

/-- The error of a rounding as a part of the number. -/
theorem Rounds.error_le (rounds : Rounds exact value number) :
    |number - exact| ≤ (growth - 1) * |exact| := by
  have power : (0 : ℚ) < twoTo 53 := Nat.cast_pos.mpr (twoTo_pos 53)
  have part : growth - 1 = 1 / twoTo 53 := add_sub_cancel_left _ _
  rw [part, one_div_mul_eq_div, le_div_iff₀ power]
  exact rounds.error

/-- A product of numbers that are each rounded once is off by two roundings. -/
theorem Rounds.mul_error {other : Binary64} {first second c m : ℚ} (rounds : Rounds first value c)
    (otherRounds : Rounds second other m) :
    |c * m - first * second| ≤ (growth ^ 2 - 1) * |first * second| := by
  have left := rounds.error_le
  have right := otherRounds.error_le
  -- The error of a product is that of each factor times the other, and the product of both errors.
  have split : c * m - first * second =
      (c - first) * (m - second) + (c - first) * second + first * (m - second) := by ring
  have both := mul_le_mul left right (abs_nonneg _)
    (le_trans (abs_nonneg _) left)
  have one := mul_le_mul_of_nonneg_right left (abs_nonneg second)
  have two := mul_le_mul_of_nonneg_left right (abs_nonneg first)
  calc
    |c * m - first * second|
      ≤ |(c - first) * (m - second) + (c - first) * second| + |first * (m - second)| := by
        rw [split]
        exact abs_add_le _ _
    _ ≤ |(c - first) * (m - second)| + |(c - first) * second| + |first * (m - second)| := by
      have parts := abs_add_le ((c - first) * (m - second)) ((c - first) * second)
      linarith
    _ ≤ (growth - 1) * |first| * ((growth - 1) * |second|) + (growth - 1) * |first| * |second| +
        |first| * ((growth - 1) * |second|) := by
      rw [abs_mul, abs_mul, abs_mul]
      linarith
    _ = (growth ^ 2 - 1) * |first * second| := by
      rw [abs_mul]
      ring

/-- A number that is rounded once is near itself. -/
theorem Rounds.near_self (rounds : Rounds exact value number) : value.Near exact |exact| 1 := by
  apply rounds.near le_rfl
  simp

end Binary64

namespace Term

/-- Twice what a term adds to the mean. -/
def twiceMean (term : Term) : Int := term.sign.factor * term.count * (term.face.low + term.face.high)

/-- How far that is from zero. -/
def weight (term : Term) : Nat := term.count * (term.face.low + term.face.high).natAbs

variable {term : Term}

/-- The weight is the size of twice the mean. -/
theorem natAbs_twiceMean (term : Term) : term.twiceMean.natAbs = term.weight := by
  unfold twiceMean weight
  cases term.sign with
  | plus => simp [Sign.factor, Int.natAbs_mul]
  | minus => simp [Sign.factor, Int.natAbs_mul]

/-- The two ends of a term add up to twice its mean. -/
theorem range_add (term : Term) : term.range.1 + term.range.2 = term.twiceMean := by
  unfold range twiceMean
  cases term.sign with
  -- Each die shows its lowest value at one end and its highest at the other.
  | plus =>
    simp only [Sign.factor]
    ring
  -- Dice that are taken away swap the two ends, and their sum stays.
  | minus =>
    simp only [Sign.factor]
    ring

/-- The signed number of dice is as far from zero as the dice are many. -/
theorem abs_dice (term : Term) : |((term.sign.factor * term.count : Int) : ℚ)| = term.count := by
  cases term.sign with
  | plus => simp [Sign.factor]
  | minus => simp [Sign.factor]

/-- Half the sum of the ends of a face weighs no more than the dice of a term. -/
theorem abs_mean_le (term : Term) :
    |((term.face.low + term.face.high : Int) : ℚ) / 2| ≤ term.weight / 2 := by
  -- One die of a term weighs no more than all of them.
  have one : (term.face.low + term.face.high).natAbs ≤ term.weight :=
    Nat.le_mul_of_pos_left _ term.positive
  rw [Binary64.abs_half]
  have cast : ((term.face.low + term.face.high).natAbs : ℚ) ≤ term.weight := Nat.cast_le.mpr one
  linarith

/-- The signed number of dice times the mean of the face is half of twice the mean of the term. -/
theorem dice_mul_mean (term : Term) :
    ((term.sign.factor * term.count : Int) : ℚ) *
      (((term.face.low + term.face.high : Int) : ℚ) / 2) = term.twiceMean / 2 := by
  rw [mul_div_assoc', ← Int.cast_mul]
  rfl

/-- The mean of a term is half its weight away from zero. -/
theorem abs_twiceMean (term : Term) : |(term.twiceMean : ℚ) / 2| = term.weight / 2 := by
  rw [Binary64.abs_half, natAbs_twiceMean]

/-- Half a weight is not negative. -/
theorem half_weight_nonneg (term : Term) : (0 : ℚ) ≤ term.weight / 2 :=
  div_nonneg (Nat.cast_nonneg _) zero_le_two

/-- The mean of a term takes a sum no farther from zero than half its weight. -/
theorem abs_add_twiceMean_le {exact size : ℚ} (small : |exact| ≤ size) :
    |exact + term.twiceMean / 2| ≤ size + term.weight / 2 := by
  have parts := abs_add_le exact (term.twiceMean / 2 : ℚ)
  rw [abs_twiceMean] at parts
  linarith

/-- A term adds the rounded number of its dice times the rounded mean of its face. -/
theorem exists_average (count : term.count < reach) (inside : (term.weight / 2 : ℚ) < reach) :
    ∃ dice mean c m, term.average = .ok (dice.mul mean) ∧
      Rounds (term.sign.factor * term.count : Int) dice c ∧
      Rounds (((term.face.low + term.face.high : Int) : ℚ) / 2) mean m := by
  -- The number of dice and the mean of a face are rounded apart, and the product is rounded once
  -- more.
  have diceBelow : |((term.sign.factor * term.count : Int) : ℚ)| < reach := by
    rw [abs_dice]
    exact Nat.cast_lt.mpr count
  obtain ⟨dice, c, diceRead, diceRounds⟩ := rounds_wholeToReal diceBelow
  obtain ⟨mean, m, meanRead, meanRounds⟩ :=
    rounds_half (lt_of_le_of_lt term.abs_mean_le inside)
  refine ⟨dice, mean, c, m, ?_, diceRounds, meanRounds⟩
  have meanRead : term.face.mean = .ok mean := meanRead
  rw [average, meanRead, diceRead]
  rfl

/-- A product of rounded numbers of which none is small is rounded as well. -/
theorem rounds_product {dice mean : Binary64} {c m : ℚ}
    (diceRounds : Rounds (term.sign.factor * term.count : Int) dice c)
    (meanRounds : Rounds (((term.face.low + term.face.high : Int) : ℚ) / 2) mean m)
    (below : |c * m| < reach) : ∃ number, Rounds (c * m) (dice.mul mean) number := by
  apply Binary64.rounds_mul diceRounds.is meanRounds.is below
  by_cases balanced : term.face.low + term.face.high = 0
  · -- The mean of a face with balanced ends is zero, and so is every multiple of it.
    left
    have none : m = 0 := by
      have kept := meanRounds.kept ⟨0, 0, by simp [balanced], Nat.zero_le _⟩
      rw [kept, balanced]
      simp
    rw [none, mul_zero]
  · right
    -- There is at least one die, and the mean of its face is at least a half.
    have dice : (1 : ℚ) / 2 ≤ |c| := by
      have half := diceRounds.half_le
      have one : (1 : ℚ) ≤ term.count := Nat.one_le_cast.mpr term.positive
      rw [abs_dice] at half
      linarith
    have mean : (1 : ℚ) / 4 ≤ |m| := by
      have half := meanRounds.half_le
      have one : (1 : ℚ) ≤ (term.face.low + term.face.high).natAbs := by
        exact Nat.one_le_cast.mpr (Int.natAbs_pos.mpr balanced)
      rw [Binary64.abs_half] at half
      linarith
    have eighth : (1 : ℚ) / 8 ≤ |c * m| := by
      rw [abs_mul]
      calc
        (1 : ℚ) / 8 = 1 / 2 * (1 / 4) := by norm_num
        _ ≤ |c| * |m| := mul_le_mul dice mean (by norm_num) (abs_nonneg c)
    have places : 8 * twoTo 52 ≤ scale := by decide +kernel
    have cast : (8 * twoTo 52 : ℚ) ≤ scale := by
      rw [← Nat.cast_ofNat, ← Nat.cast_mul]
      exact Nat.cast_le.mpr places
    calc
      (twoTo 52 : ℚ) = 1 / 8 * (8 * twoTo 52) := by ring
      _ ≤ |c * m| * scale := by
        apply mul_le_mul eighth cast _ (abs_nonneg _)
        have power : (0 : ℚ) < twoTo 52 := Nat.cast_pos.mpr (twoTo_pos 52)
        linarith

/-- A term whose weight is short adds its exact mean. -/
theorem average_exact (count : term.count < reach) (short : term.weight ≤ twoTo 53) :
    ∃ value, term.average = .ok value ∧ value.Is (term.twiceMean / 2) := by
  have inside : (term.weight / 2 : ℚ) < reach := Binary64.half_lt_reach short
  obtain ⟨dice, mean, c, m, read, diceRounds, meanRounds⟩ := exists_average count inside
  have meanKept : m = ((term.face.low + term.face.high : Int) : ℚ) / 2 := by
    apply meanRounds.kept
    exact Binary64.isShort_half (Nat.le_trans (Nat.le_mul_of_pos_left _ term.positive) short)
  have product : c * m = term.twiceMean / 2 := by
    rw [← dice_mul_mean, ← meanKept]
    by_cases balanced : term.face.low + term.face.high = 0
    · rw [meanKept, balanced]
      simp
    · -- Each die weighs something, so their number is short as well.
      have diceKept : c = (term.sign.factor * term.count : Int) := by
        apply diceRounds.kept
        refine ⟨term.sign.factor * term.count, 1, ?_, ?_⟩
        · rw [show twoTo 1 = 2 from rfl, Nat.cast_two]
        · have number : (term.sign.factor * term.count).natAbs = term.count := by
            cases term.sign with
            | plus => simp [Sign.factor]
            | minus => simp [Sign.factor]
          rw [number]
          exact Nat.le_trans (Nat.le_mul_of_pos_right _ (Int.natAbs_pos.mpr balanced)) short
      rw [diceKept]
  have below : |c * m| < reach := by
    rw [product, abs_twiceMean]
    exact inside
  obtain ⟨number, rounds⟩ := rounds_product diceRounds meanRounds below
  refine ⟨_, read, ?_⟩
  have kept : number = c * m := by
    apply rounds.kept
    rw [product]
    apply Binary64.isShort_half
    rw [natAbs_twiceMean]
    exact short
  rw [← product, ← kept]
  exact rounds.is

/-- A term adds its mean but for three roundings. -/
theorem average_near (count : term.count < reach)
    (inside : Binary64.growth ^ 2 * (term.weight / 2) < reach) :
    ∃ value, term.average = .ok value ∧ value.Near (term.twiceMean / 2) (term.weight / 2) 3 := by
  have grows := Binary64.one_le_growth_pow 2
  have exactInside : (term.weight / 2 : ℚ) < reach :=
    lt_of_le_of_lt (le_mul_of_one_le_left term.half_weight_nonneg grows) inside
  obtain ⟨dice, mean, c, m, read, diceRounds, meanRounds⟩ := exists_average count exactInside
  -- Two factors that are rounded once make a product that is off by two roundings.
  have close : |c * m - term.twiceMean / 2| ≤ (Binary64.growth ^ 2 - 1) * (term.weight / 2) := by
    rw [← abs_twiceMean, ← dice_mul_mean]
    exact diceRounds.mul_error meanRounds
  have below : |c * m| < reach := by
    have parts := abs_add_le (c * m - term.twiceMean / 2) (term.twiceMean / 2)
    rw [sub_add_cancel, abs_twiceMean] at parts
    linarith
  obtain ⟨number, rounds⟩ := rounds_product diceRounds meanRounds below
  exact ⟨_, read, rounds.near (le_of_eq (abs_twiceMean term)) close⟩

/-- Adding a term to what is near a number keeps it near the sum, by one more rounding. -/
theorem add_near {start : Binary64} {exact size : ℚ} {roundings : Nat} (several : 3 ≤ roundings)
    (near : start.Near exact size roundings) (small : |exact| ≤ size) (count : term.count < reach)
    (inside : Binary64.growth ^ roundings * (size + term.weight / 2) < reach) :
    ∃ added, term.average = .ok added ∧
      (start.add added).Near (exact + term.twiceMean / 2) (size + term.weight / 2)
        (roundings + 1) := by
  have sizePositive : 0 ≤ size := le_trans (abs_nonneg _) small
  have weightPositive := term.half_weight_nonneg
  -- The term has been rounded no more often than what it is added to.
  have termInside : Binary64.growth ^ 2 * (term.weight / 2) < reach :=
    lt_of_le_of_lt (Binary64.growth_pow_mul_le (by omega) (by linarith) weightPositive) inside
  obtain ⟨added, read, other, addedIs, addedClose⟩ := average_near count termInside
  obtain ⟨number, is, close⟩ := near
  have sizes := term.abs_add_twiceMean_le small
  have sumClose : |number + other - (exact + term.twiceMean / 2)| ≤
      (Binary64.growth ^ roundings - 1) * (size + term.weight / 2) := by
    have parts := abs_add_le (number - exact) (other - term.twiceMean / 2)
    have fewer := mul_le_mul_of_nonneg_right
      (pow_le_pow_right₀ Binary64.one_le_growth several) weightPositive
    have apart : number + other - (exact + term.twiceMean / 2) =
        number - exact + (other - term.twiceMean / 2) := by ring
    rw [apart]
    linarith
  have below : |number + other| < reach := by
    have parts := abs_add_le (number + other - (exact + term.twiceMean / 2))
      (exact + term.twiceMean / 2)
    rw [sub_add_cancel] at parts
    linarith
  obtain ⟨sum, rounds⟩ := Binary64.rounds_add is addedIs below
  exact ⟨added, read, rounds.near sizes sumClose⟩

end Term

namespace Formula

/-- How far the numbers of a formula reach together: twice its modifier, and its terms. -/
def weight (formula : Formula) : Nat :=
  2 * formula.modifier.natAbs + naturalTotal (formula.terms.map Term.weight)

/-- The two ends of a formula add up to twice its modifier and twice the means of its terms. -/
theorem min_add_max (formula : Formula) :
    formula.min + formula.max =
      2 * formula.modifier + wholeTotal (formula.terms.map Term.twiceMean) := by
  have terms : wholeTotal (formula.terms.map fun term => term.range.1) +
      wholeTotal (formula.terms.map fun term => term.range.2) =
        wholeTotal (formula.terms.map Term.twiceMean) := by
    -- The two sums run over the same terms.
    induction formula.terms with
    | nil => rfl
    | cons term rest ih =>
      simp only [List.map_cons, wholeTotal_cons, ← ih, ← term.range_add]
      ring
  unfold min max
  rw [← terms]
  ring

/-- Adding a term to a mean rounds their sum. -/
theorem foldlM_average_cons {term : Term} {rest : List Term} {start added : Binary64}
    (read : term.average = .ok added) :
    (term :: rest).foldlM (fun total term => do return total.add (← term.average)) start =
      rest.foldlM (fun total term => do return total.add (← term.average)) (start.add added) := by
  rw [List.foldlM_cons, read]
  rfl

/-- Terms are added to a mean exactly as long as all of them are short together. -/
theorem foldlM_average_exact {terms : List Term} {start : Binary64} {twice : Int}
    (is : start.Is (twice / 2)) (counts : ∀ term ∈ terms, term.count < reach)
    (short : twice.natAbs + naturalTotal (terms.map Term.weight) ≤ twoTo 53) :
    ∃ value, terms.foldlM (fun total term => do return total.add (← term.average)) start =
        Except.ok value ∧
      value.Is ((twice + wholeTotal (terms.map Term.twiceMean) : Int) / 2) := by
  induction terms generalizing start twice with
  | nil => exact ⟨start, rfl, by simpa using is⟩
  | cons term rest ih =>
    rw [List.forall_mem_cons] at counts
    rw [List.map_cons, naturalTotal_cons] at short
    obtain ⟨added, read, addedIs⟩ := Term.average_exact counts.1 (by omega)
    have weight := term.natAbs_twiceMean
    -- The sum so far and the term are halves within 53 digits, and so is what they add up to.
    have nextIs := is.add_halves addedIs (by omega)
    obtain ⟨value, added, valueIs⟩ := ih nextIs counts.2 (by omega)
    refine ⟨value, (foldlM_average_cons read).trans added, ?_⟩
    rw [List.map_cons, wholeTotal_cons, ← add_assoc]
    exact valueIs

/-- Each term that is added to a mean adds one more rounding. -/
theorem foldlM_average_near {terms : List Term} {start : Binary64} {twice : Int} {size : ℚ}
    {roundings : Nat} (several : 3 ≤ roundings) (near : start.Near (twice / 2) size roundings)
    (small : |(twice : ℚ) / 2| ≤ size) (counts : ∀ term ∈ terms, term.count < reach)
    (inside : Binary64.growth ^ (roundings + terms.length) *
      (size + naturalTotal (terms.map Term.weight) / 2) < reach) :
    ∃ value, terms.foldlM (fun total term => do return total.add (← term.average)) start =
        Except.ok value ∧
      value.Near ((twice + wholeTotal (terms.map Term.twiceMean) : Int) / 2)
        (size + naturalTotal (terms.map Term.weight) / 2) (roundings + terms.length) := by
  induction terms generalizing start twice size roundings with
  | nil => exact ⟨start, rfl, by simpa using near⟩
  | cons term rest ih =>
    rw [List.forall_mem_cons] at counts
    simp only [List.map_cons, naturalTotal_cons, wholeTotal_cons, List.length_cons] at inside ⊢
    have total : size + (term.weight + naturalTotal (rest.map Term.weight) : Nat) / 2 =
        size + term.weight / 2 + naturalTotal (rest.map Term.weight) / 2 := by
      rw [Nat.cast_add]
      ring
    have steps : roundings + (rest.length + 1) = roundings + 1 + rest.length := by omega
    rw [total, steps] at inside ⊢
    have sizePositive : 0 ≤ size := le_trans (abs_nonneg _) small
    have restPositive : (0 : ℚ) ≤ naturalTotal (rest.map Term.weight) / 2 :=
      div_nonneg (Nat.cast_nonneg _) zero_le_two
    have weightPositive := term.half_weight_nonneg
    -- What is bounded behind all the roundings is bounded behind those so far.
    have early : Binary64.growth ^ roundings * (size + term.weight / 2) < reach :=
      lt_of_le_of_lt (Binary64.growth_pow_mul_le (by omega) (by linarith) (by linarith)) inside
    obtain ⟨added, read, sumNear⟩ := Term.add_near several near small counts.1 early
    have sum : (twice / 2 + term.twiceMean / 2 : ℚ) = (twice + term.twiceMean : Int) / 2 := by
      rw [Int.cast_add]
      ring
    have sumSmall := term.abs_add_twiceMean_le small
    rw [sum] at sumNear sumSmall
    obtain ⟨value, folded, valueNear⟩ := ih (by omega) sumNear sumSmall counts.2 inside
    refine ⟨value, (foldlM_average_cons read).trans folded, ?_⟩
    rw [← add_assoc]
    exact valueNear

variable {formula : Formula}

/-- The flat number is half of twice itself, as the means of the terms are. -/
theorem half_modifier (formula : Formula) :
    (formula.modifier : ℚ) = (2 * formula.modifier : Int) / 2 := by
  rw [Int.cast_mul, Int.cast_two, mul_div_cancel_left₀ _ two_ne_zero]

/-- The mean of a formula is exact when the formula weighs no more than `2 ^ 53`. -/
theorem average_exact (counts : ∀ term ∈ formula.terms, term.count < reach)
    (short : formula.weight ≤ twoTo 53) :
    ∃ value, formula.average = .ok value ∧
      value.Is ((formula.min + formula.max : Int) / 2) := by
  have modifier : (2 * formula.modifier).natAbs + naturalTotal (formula.terms.map Term.weight) ≤
      twoTo 53 := by
    rw [Int.natAbs_mul]
    exact short
  -- The walk starts with the modifier, which is read as twice as many halves.
  have half := half_modifier formula
  have alone : (2 * formula.modifier).natAbs ≤ twoTo 53 := by omega
  have below : |(formula.modifier : ℚ)| < reach := by
    rw [half, Binary64.abs_half]
    exact Binary64.half_lt_reach alone
  obtain ⟨start, number, read, rounds⟩ := rounds_wholeToReal below
  have startIs : start.Is ((2 * formula.modifier : Int) / 2) := by
    have kept : number = formula.modifier := by
      apply rounds.kept
      rw [half]
      exact Binary64.isShort_half alone
    rw [← half, ← kept]
    exact rounds.is
  obtain ⟨value, folded, valueIs⟩ := foldlM_average_exact startIs counts modifier
  refine ⟨value, ?_, ?_⟩
  · rw [average, read]
    exact folded
  · rw [min_add_max]
    exact valueIs

/-- The mean of a formula is off by as many roundings as it has terms, and three. -/
theorem average_near (counts : ∀ term ∈ formula.terms, term.count < reach)
    (inside : formula.weight < reach) (few : formula.terms.length + 3 ≤ twoTo 52) :
    ∃ value number, formula.average = .ok value ∧ value.Is number ∧
      |number - (formula.min + formula.max : Int) / 2| * twoTo 53 ≤
        (formula.terms.length + 3 : Nat) * formula.weight := by
  have total : (|((2 * formula.modifier : Int) : ℚ) / 2| +
      naturalTotal (formula.terms.map Term.weight) / 2 : ℚ) = formula.weight / 2 := by
    rw [Binary64.abs_half, weight, Int.natAbs_mul, Nat.cast_add, ← add_div]
    rfl
  have half := half_modifier formula
  have weightPositive : (0 : ℚ) ≤ formula.weight := Nat.cast_nonneg _
  have weightInside : (formula.weight : ℚ) < reach := Nat.cast_lt.mpr inside
  have termsPositive : (0 : ℚ) ≤ naturalTotal (formula.terms.map Term.weight) / 2 :=
    div_nonneg (Nat.cast_nonneg _) zero_le_two
  rw [Nat.add_comm] at few ⊢
  have below : |(formula.modifier : ℚ)| < reach := by
    rw [half]
    linarith
  obtain ⟨start, first, read, rounds⟩ := rounds_wholeToReal below
  have startNear := rounds.near_self.mono (abs_nonneg _) (show 1 ≤ 3 by decide)
  rw [half] at startNear
  have allInside : Binary64.growth ^ (3 + formula.terms.length) *
      (|((2 * formula.modifier : Int) : ℚ) / 2| +
        naturalTotal (formula.terms.map Term.weight) / 2) < reach := by
    rw [total]
    -- The roundings do not even double half of the weight.
    have doubled := mul_le_mul_of_nonneg_right (Binary64.growth_pow_le_two few)
      (div_nonneg weightPositive zero_le_two)
    linarith
  obtain ⟨value, folded, number, is, close⟩ :=
    foldlM_average_near le_rfl startNear le_rfl counts allInside
  refine ⟨value, number, ?_, is, ?_⟩
  · rw [average, read]
    exact folded
  · rw [min_add_max]
    rw [total] at close
    have scaled := mul_le_mul_of_nonneg_right close
      (Nat.cast_nonneg (twoTo 53) : (0 : ℚ) ≤ twoTo 53)
    exact le_trans scaled (Binary64.growth_error_le few weightPositive)

end Formula

/-- The mean of statistics stands between the two ends, compared exactly. -/
def Stats.IsOrdered (stats : Stats) : Prop :=
  (Number.whole stats.min).le (.real stats.average) = true ∧
    (Number.real stats.average).le (.whole stats.max) = true

instance (stats : Stats) : Decidable stats.IsOrdered := inferInstanceAs (Decidable (_ ∧ _))

/-- The mean is ordered when the number that it is stands between the ends. -/
theorem Stats.isOrdered_iff {stats : Stats} {number : ℚ} (is : stats.average.Is number) :
    stats.IsOrdered ↔ (stats.min : ℚ) ≤ number ∧ number ≤ stats.max := by
  obtain ⟨units, known, equal⟩ := is
  have unit := Binary64.scale_pos
  -- The whole ends are compared in units, which is comparing them as numbers.
  have low : (Number.whole stats.min).le (.real stats.average) = true ↔
      (stats.min : ℚ) ≤ number := by
    simp only [Number.le, Number.position?, known, Position.before, Bool.not_eq_true',
      decide_eq_false_iff_not, not_lt]
    rw [← mul_le_mul_iff_left₀ unit, equal]
    exact_mod_cast Iff.rfl
  have high : (Number.real stats.average).le (.whole stats.max) = true ↔
      number ≤ stats.max := by
    simp only [Number.le, Number.position?, known, Position.before, Bool.not_eq_true',
      decide_eq_false_iff_not, not_lt]
    rw [← mul_le_mul_iff_left₀ unit, equal]
    exact_mod_cast Iff.rfl
  rw [IsOrdered, low, high]

namespace Formula

/-- The statistics hold the mean that the formula has. -/
theorem stats_eq_ok {formula : Formula} {value : Binary64} (read : formula.average = .ok value) :
    formula.stats = .ok ⟨formula.min, formula.max, value⟩ := by
  rw [stats, read]
  rfl

/--
Statistics are there for the formulas whose numbers are finite in binary64, and for no others.

The mean stands exactly halfway between the two ends of a formula that weighs no more than `2 ^ 53`.
In a heavier one it is off by some parts in `2 ^ 53` of the weight, three and one for each term, so it
stands between the ends when these are far enough apart.
-/
theorem stats_between (formula : Formula) :
    ((∃ stats, formula.stats = .ok stats) ↔
      formula.modifier.natAbs < reach ∧ ∀ term ∈ formula.terms, term.Finite) ∧
    ((∀ term ∈ formula.terms, term.count < reach) → formula.weight ≤ twoTo 53 →
      ∃ stats, formula.stats = .ok stats ∧
        stats.average.Is ((stats.min + stats.max : Int) / 2) ∧ stats.IsOrdered) ∧
    ((∀ term ∈ formula.terms, term.count < reach) → formula.weight < reach →
      formula.terms.length + 3 ≤ twoTo 52 →
      ∃ stats number, formula.stats = .ok stats ∧ stats.average.Is number ∧
        |number - (stats.min + stats.max : Int) / 2| * twoTo 53 ≤
          (formula.terms.length + 3 : Nat) * formula.weight ∧
        ((formula.terms.length + 3) * formula.weight ≤ twoTo 52 * stats.span →
          stats.IsOrdered)) := by
  refine ⟨exists_stats_eq_ok, ?_, ?_⟩
  · intro counts short
    obtain ⟨value, read, is⟩ := average_exact counts short
    refine ⟨_, stats_eq_ok read, is, (Stats.isOrdered_iff is).mpr ?_⟩
    have order : (formula.min : ℚ) ≤ formula.max := Int.cast_le.mpr formula.min_le_max
    rw [Int.cast_add]
    constructor
    · linarith
    · linarith
  · intro counts inside few
    obtain ⟨value, number, read, is, error⟩ := average_near counts inside few
    refine ⟨_, number, stats_eq_ok read, is, error, ?_⟩
    intro wide
    have cast : ((formula.terms.length + 3 : Nat) * formula.weight : ℚ) ≤
        twoTo 52 * (formula.max - formula.min : Int) := by exact_mod_cast wide
    have double : (twoTo 53 : ℚ) = 2 * twoTo 52 := by exact_mod_cast twoTo_add 1 52
    have power : (0 : ℚ) < twoTo 52 := Nat.cast_pos.mpr (twoTo_pos 52)
    -- The error is at most half of what lies between the ends.
    have close : |number - (formula.min + formula.max : Int) / 2| * 2 ≤
        (formula.max - formula.min : Int) := by
      apply le_of_mul_le_mul_right _ power
      rw [double] at error
      linarith
    rw [Int.cast_sub, Int.cast_add] at close
    have sides := abs_le.mp (le_div_iff₀ two_pos |>.mpr close)
    apply (Stats.isOrdered_iff is).mpr
    constructor
    · linarith
    · linarith

/-- The mean of two dice, less a coin and a Fudge die, is exact, and that of a die with more sides than
binary64 has digits stands between the ends. -/
theorem stats_between_mixed :
    let mixed : Formula :=
      ⟨[⟨.plus, 2, .numeric 6 (by decide), by decide⟩,
        ⟨.minus, 1, .numeric 2 (by decide), by decide⟩, ⟨.minus, 1, .fudge, by decide⟩], 3⟩
    let wide : Formula := ⟨[⟨.plus, 3, .numeric (10 ^ 40) (by decide), by decide⟩], -7⟩
    (mixed.weight ≤ twoTo 53 ∧ ∃ stats, mixed.stats = .ok stats ∧ stats.IsOrdered) ∧
      (¬wide.weight ≤ twoTo 53 ∧ ∃ stats, wide.stats = .ok stats ∧ stats.IsOrdered) := by
  intro mixed wide
  have short : mixed.weight ≤ twoTo 53 := by decide +kernel
  obtain ⟨stats, ok, -, ordered⟩ := (stats_between mixed).2.1 (by decide +kernel) short
  obtain ⟨wideStats, number, wideOk, -, -, spread⟩ :=
    (stats_between wide).2.2 (by decide +kernel) (by decide +kernel) (by decide +kernel)
  have far : (wide.terms.length + 3) * wide.weight ≤ twoTo 52 * (wide.max - wide.min) := by
    decide +kernel
  obtain ⟨least, most⟩ := bounds_of_stats wideOk
  rw [← least, ← most] at far
  exact ⟨⟨short, stats, ok, ordered⟩, by decide +kernel, wideStats, wideOk, spread far⟩

/-- Two dice that show nothing but one make a number of 16 digits too small for its own range, and a
number of 310 digits has no statistics at all. -/
theorem stats_unordered :
    let face : Face := .numeric 1 (by decide)
    let ones : Formula := ⟨[⟨.plus, 1, face, by decide⟩, ⟨.plus, 1, face, by decide⟩], 2 ^ 53⟩
    (∃ stats, ones.stats = .ok stats ∧ ¬stats.IsOrdered) ∧
      Formula.stats ⟨[], 10 ^ 309⟩ = .error .wholeTooLarge := by
  intro face ones
  let stats : Stats := ⟨2 ^ 53 + 2, 2 ^ 53 + 2, .ofInt (2 ^ 53)⟩
  exact ⟨⟨stats, by decide +kernel, by decide +kernel⟩, by decide +kernel⟩

end Formula

end DiceLab
