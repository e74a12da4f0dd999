import DiceLab.Proofs.Binary64.Nearest
import DiceLab.Proofs.Candidate.Scorable
import Mathlib.Data.Finset.Card

/-! The score of a shape is the value nearest to an exact fraction, and this fraction tells the shapes
apart. -/

namespace DiceLab

open Binary64 (ofInt ofRatio zero clamp)

namespace Shape

-- Scores are counted in twentieths, from none to forty.

/-- The numbers that scores are made of and compared with are numbers of twentieths. -/
structure InTwentieths : Prop where
  nothing : zero false = ofRatio false 0 20
  weight : diceWeight = ofRatio false 10 20
  bonus : varietyBonus = ofRatio false 2 20
  weighs : diceWeight.isZero = false
  counts : varietyBonus.isZero = false
  largeFaces : Binary64.ofDecimal false 3 (-1) = ofRatio false 6 20
  middleFaces : Binary64.ofDecimal false 15 (-2) = ofRatio false 3 20
  somewhatBell : somewhatBellScore = .real (ofRatio false 8 20)
  bell : bellScore = .real (ofRatio false 24 20)
  highest : highest = ofRatio false 40 20

/-- All of them are computed. -/
theorem inTwentieths : InTwentieths where
  nothing := by decide +kernel
  weight := by decide +kernel
  bonus := by decide +kernel
  weighs := by decide +kernel
  counts := by decide +kernel
  largeFaces := by decide +kernel
  middleFaces := by decide +kernel
  somewhatBell := by decide +kernel
  bell := by decide +kernel
  highest := by decide +kernel

end Shape

namespace Binary64

/-- A number of twentieths is not below zero. -/
theorem abs_twentieths (points : Nat) : |(points / 20 : ℚ)| = points / 20 :=
  abs_of_nonneg (div_nonneg (Nat.cast_nonneg _) (by norm_num))

/-- The largest value is far beyond all numbers of twentieths and of a few dice. -/
theorem thousand_lt_reach : 1000 < reach := Binary64.lt_reach_of_short (by decide)

section

variable {points others : Nat} (few : points ≤ 40)

include few

/-- A number of twentieths is rounded. -/
theorem rounds_twentieths :
    ∃ number, Rounds (points / 20) (ofRatio false points 20) number := by
  have small : (points : ℚ) ≤ 40 := by exact_mod_cast few
  have room : (2 : ℚ) < reach := by
    have two : 2 < reach := Nat.lt_trans (by decide) thousand_lt_reach
    exact_mod_cast two
  -- Twentieths are quotients of whole numbers, and two is far below the bound.
  have quotient : (points / 20 : ℚ) * (20 : Nat) = signed false points := by
    simp [signed]
  have below : |(points / 20 : ℚ)| < reach := by
    rw [abs_twentieths]
    linarith
  exact rounds_ofRatio (by decide) quotient below (by decide +kernel)

/-- It is rounded to the nearest value. -/
theorem isNearest_twentieths : (ofRatio false points 20).IsNearest (points / 20) := by
  obtain ⟨number, rounds⟩ := rounds_twentieths few
  have quotient : (points / 20 : ℚ) * scale * (20 : Nat) = signed false (points * scale) := by
    simp only [signed, Bool.false_eq_true, if_false]
    push_cast
    ring
  refine rounds.is.isNearest (rounds.is.closest (by decide) quotient) ?_
  by_cases quarters : 5 ∣ points
  · -- Quarters are values themselves.
    have exact : ∀ points ≤ 40, 5 ∣ points → nearest (points * scale) 20 * 20 = points * scale := by
      decide +kernel
    have kept : (nearest (points * scale) 20 : ℚ) * 20 = points * scale := by
      exact_mod_cast exact points few quarters
    have inUnits := Is.of_ofUnits rounds.is
    have same : number = points / 20 := by
      apply mul_right_cancel₀ scale_pos.ne'
      rw [inUnits]
      simp only [signed, Bool.false_eq_true, if_false]
      push_cast
      linear_combination kept / 20
    exact .inl ⟨_, same ▸ rounds.is⟩
  · -- No power of two times another number of twentieths is divided by five.
    refine .inr fun units tie => quarters ?_
    have product : ((points * scale : Nat) : Int) = 10 * units := by
      have scaled : (points * scale : ℚ) = 10 * units := by linear_combination 10 * tie
      exact_mod_cast scaled
    have divides : 5 ∣ points * scale := by omega
    have coprime : Nat.Coprime 5 scale := by decide +kernel
    exact coprime.dvd_of_dvd_mul_right divides

/-- Numbers of twentieths keep their order when they are rounded, and stay apart. -/
theorem twentieths_lt_iff (otherFew : others ≤ 40) :
    (ofRatio false points 20).lt (ofRatio false others 20) = true ↔ points < others := by
  have number (points : Nat) : ofRatio false points 20 ≠ .nan := ofUnits_ne_nan _ _ _
  rw [lt_iff_place (number _) (number _)]
  constructor
  · intro below
    by_contra more
    refine absurd (place_ofRatio_le ?_ ?_ ?_) (not_le.mpr below)
    · decide
    · decide
    · omega
  · intro less
    obtain ⟨number, rounds⟩ := rounds_twentieths few
    obtain ⟨otherNumber, otherRounds⟩ := rounds_twentieths otherFew
    -- A twentieth is far more than what two such numbers are rounded by.
    have apart : |(points / 20 : ℚ)| + |(others / 20 : ℚ)| <
        (others / 20 - points / 20) * twoTo 53 := by
      have step : (points : ℚ) + 1 ≤ others := by exact_mod_cast less
      have small : (others : ℚ) ≤ 40 := by exact_mod_cast otherFew
      have power : (80 : ℚ) < twoTo 53 := by exact_mod_cast (by decide : 80 < twoTo 53)
      rw [abs_twentieths, abs_twentieths]
      nlinarith
    rw [← not_le, otherRounds.is.place_le_iff rounds.is, not_le]
    exact rounds.lt otherRounds apart

/-- A number of twentieths that is not rounded to zero is finite, without a minus. -/
theorem exists_finite_twentieths (some : (ofRatio false points 20).isZero = false) :
    ∃ magnitude, ofRatio false points 20 = .finite false magnitude ∧ magnitude.isZero = false := by
  obtain ⟨number, rounds⟩ := rounds_twentieths few
  obtain ⟨units, known, -⟩ := rounds.is
  have nonnegative : (ofRatio false points 20).Nonnegative := nonnegative_ofUnits _ _
  generalize ofRatio false points 20 = value at some known nonnegative
  -- A value that stands for a number is finite, and these have no minus.
  cases nonnegative with
  | infinite => cases known
  | finite magnitude => exact ⟨magnitude, rfl, some⟩

end

/-- A natural number has no minus. -/
theorem nonnegative_ofInt (number : Nat) : (ofInt number).Nonnegative := by
  rw [ofInt_natCast]
  exact nonnegative_ofUnits _ _

end Binary64

namespace Shape

variable {formula : Formula} {score : Binary64}

/-- The number of different faces. -/
def kinds (formula : Formula) : Nat := (formula.terms.map Term.face).toFinset.card

/-- What is left when repeated faces are taken out is one of each kind. -/
theorem variety_eq_kinds (formula : Formula) : variety formula = kinds formula := by
  have faces : (formula.terms.map Term.face).eraseDups.toFinset =
      (formula.terms.map Term.face).toFinset := by
    ext face
    simp only [List.mem_toFinset, List.mem_eraseDups]
  rw [variety, kinds, ← faces, List.toFinset_card_of_nodup (nodup_eraseDups _)]

/-- There are no more kinds of faces than dice. -/
theorem kinds_le_diceCount (formula : Formula) : kinds formula ≤ formula.diceCount := by
  rw [← variety_eq_kinds]
  exact variety_le_diceCount formula

/-- Where there are dice, there is a kind of face. -/
theorem kinds_pos (some : 0 < formula.diceCount) : 0 < kinds formula := by
  obtain ⟨terms, modifier⟩ := formula
  cases terms with
  | nil => exact absurd some (Nat.lt_irrefl 0)
  | cons term rest =>
    -- The first term already has a face.
    apply Finset.card_pos.mpr
    exact ⟨term.face, by simp⟩

/-- What large faces take away: three tenths when the dice have twenty values and more on average, and
half of that when they have twelve and more. -/
def flattening (formula : Formula) : ℚ :=
  if 20 * formula.diceCount ≤ faceTotal formula then 3 / 10
  else if 12 * formula.diceCount ≤ faceTotal formula then 3 / 20
  else 0

/-- How peaked a formula is: a half for each die past the first and a tenth for each kind of face past
the first, less what large faces take away, held between nothing and two. -/
def peak (formula : Formula) : ℚ :=
  max 0 (min 2
    (((formula.diceCount : ℚ) - 1) / 2 + ((kinds formula : ℚ) - 1) / 10 - flattening formula))

/-- What large faces take away, in twentieths. -/
def deduction (dice values : Nat) : Nat :=
  if 20 * dice ≤ values then 6 else if 12 * dice ≤ values then 3 else 0

/-- What is taken away is one of three numbers. -/
theorem deduction_mem (dice values : Nat) : deduction dice values ∈ [0, 3, 6] := by
  unfold deduction
  -- There are three answers, one for each side of the two thresholds.
  split
  · decide
  · split
    · decide
    · decide

/-- How peaked a formula is, in twentieths. -/
def points (formula : Formula) : Nat :=
  min 40 (10 * (formula.diceCount - 1) + 2 * (kinds formula - 1) -
    deduction formula.diceCount (faceTotal formula))

/-- No formula has more than forty twentieths. -/
theorem points_le (formula : Formula) : points formula ≤ 40 := Nat.min_le_left _ _

/-- A formula has no twentieths exactly when it has at most one die. -/
theorem points_eq_zero : points formula = 0 ↔ formula.diceCount ≤ 1 := by
  have taken := deduction_mem formula.diceCount (faceTotal formula)
  have kinds := kinds_le_diceCount formula
  simp only [List.mem_cons, List.not_mem_nil, or_false] at taken
  unfold points
  omega

/-- The twentieths make up the exact fraction. -/
theorem peak_eq_points (formula : Formula) : peak formula = points formula / 20 := by
  have few := kinds_le_diceCount formula
  have some : 0 < formula.diceCount → 0 < kinds formula := kinds_pos
  have taken : flattening formula = deduction formula.diceCount (faceTotal formula) / 20 := by
    unfold flattening deduction
    split
    · norm_num
    · split
      · norm_num
      · norm_num
  unfold peak points
  rw [taken]
  generalize deduction formula.diceCount (faceTotal formula) = less
  generalize formula.diceCount = dice at few some ⊢
  generalize kinds formula = sorts at few some ⊢
  -- Natural numbers stop at zero where the fraction is held.
  have held : ((min 40 (10 * (dice - 1) + 2 * (sorts - 1) - less) : Nat) : Int) =
      max 0 (min 40 (10 * ((dice : Int) - 1) + 2 * ((sorts : Int) - 1) - less)) := by
    omega
  have cast : ((min 40 (10 * (dice - 1) + 2 * (sorts - 1) - less) : Nat) : ℚ) =
      max 0 (min 40 (10 * ((dice : ℚ) - 1) + 2 * ((sorts : ℚ) - 1) - less)) := by
    exact_mod_cast congrArg (Int.cast (R := ℚ)) held
  rw [cast, eq_div_iff (by norm_num), max_mul_of_nonneg _ _ (by norm_num),
    min_mul_of_nonneg _ _ (by norm_num)]
  congr 1
  · norm_num
  · congr 1
    · norm_num
    · ring

/-- The raw score of some dice and some kinds of faces past the first, less what is taken away. -/
def rawOf (more others : Nat) (taken : Binary64) : Binary64 :=
  (((ofInt more).mul diceWeight).add ((ofInt others).mul varietyBonus)).sub taken

/-- A raw score held within its bounds and rounded. -/
def held (raw : Binary64) : Binary64 := (clamp (zero false) highest raw).roundPlaces 4

/-- Several dice are scored by their number, the kinds of their faces and the mean of their values. -/
theorem score_of_several (several : 1 < formula.diceCount)
    (ok : Shape.score formula = .ok score) :
    score = held (rawOf (formula.diceCount - 1) (kinds formula - 1)
      (penalty (ofRatio false (faceTotal formula) formula.diceCount))) := by
  have sorts := kinds_pos (Nat.zero_lt_of_lt several)
  have dice : (formula.diceCount : Int) - 1 = (formula.diceCount - 1 : Nat) := by omega
  have others : (variety formula : Int) - 1 = (kinds formula - 1 : Nat) := by
    rw [variety_eq_kinds]
    omega
  have positive : (0 : Int) < formula.diceCount := by omega
  rw [Shape.score, if_neg (Nat.not_le.mpr several)] at ok
  -- The steps of the score are taken apart in the order in which they fail.
  obtain ⟨raw, rawOk, made⟩ := bind_eq_ok.mp ok
  obtain ⟨mean, meanOk, rawOk⟩ := bind_eq_ok.mp rawOk
  obtain ⟨weight, weightOk, rawOk⟩ := bind_eq_ok.mp rawOk
  obtain ⟨bonus, bonusOk, rawOk⟩ := bind_eq_ok.mp rawOk
  rw [dice] at weightOk
  rw [others] at bonusOk
  rw [← Except.ok.inj made, ← Except.ok.inj rawOk, ← Binary64.eq_of_finiteOr weightOk,
    ← Binary64.eq_of_finiteOr bonusOk, ((wholeQuotient_eq_ok positive).mp meanOk).2,
    Int.natAbs_natCast]
  rfl

/-- For few dice the mean reaches a threshold exactly when the rounded mean does. -/
theorem threshold_le_iff {threshold dice values : Nat} (some : 0 < dice) (few : dice ≤ 5)
    (apart : (ofRatio false (5 * threshold - 1) 5).place < (ofInt threshold).place) :
    (ofInt threshold).le (ofRatio false values dice) = true ↔ threshold * dice ≤ values := by
  have number (points divisor : Nat) : ofRatio false points divisor ≠ .nan :=
    Binary64.ofUnits_ne_nan _ _ _
  rw [Binary64.le_iff_place (Binary64.ofInt_ne_nan _) (number _ _), Binary64.ofInt_natCast] at *
  constructor
  · intro reached
    by_contra below
    -- A mean of few dice that is below the threshold is so by a fifth.
    have fifth : values * 5 ≤ (5 * threshold - 1) * dice := by
      rw [Nat.sub_mul, Nat.mul_assoc]
      omega
    have low := Binary64.place_ofRatio_le some (by decide) fifth
    exact absurd reached (not_le.mpr (lt_of_le_of_lt low apart))
  · intro reached
    exact Binary64.place_ofRatio_le Nat.one_pos some (by omega)

/-- The penalty of few dice is the exact one. -/
theorem penalty_of_few {dice values : Nat} (some : 0 < dice) (few : dice ≤ 5) :
    penalty (ofRatio false values dice) = ofRatio false (deduction dice values) 20 := by
  have twenty : (ofInt 20).le (ofRatio false values dice) = true ↔ 20 * dice ≤ values :=
    threshold_le_iff some few (by decide +kernel)
  have twelve : (ofInt 12).le (ofRatio false values dice) = true ↔ 12 * dice ≤ values :=
    threshold_le_iff some few (by decide +kernel)
  -- With so few dice, rounding does not carry the mean across a threshold.
  simp only [penalty, deduction, twenty, twelve]
  split
  · exact inTwentieths.largeFaces
  · split
    · exact inTwentieths.middleFaces
    · exact inTwentieths.nothing

/-- Whatever the mean, its penalty is one of three numbers of twentieths. -/
theorem exists_penalty (mean : Binary64) : ∃ less ∈ [0, 3, 6], penalty mean = ofRatio false less 20 := by
  unfold penalty
  split
  · exact ⟨6, by decide, inTwentieths.largeFaces⟩
  · split
    · exact ⟨3, by decide, inTwentieths.middleFaces⟩
    · exact ⟨0, by decide, inTwentieths.nothing⟩

/-- Taking away a number of twentieths keeps numbers in order. -/
theorem place_sub_twentieths_le {first second : Binary64} (number : first ≠ .nan)
    (other : second ≠ .nan) (le : first.place ≤ second.place) {less : Nat} (few : less ≤ 40) :
    (first.sub (ofRatio false less 20)).place ≤ (second.sub (ofRatio false less 20)).place ∧
      second.sub (ofRatio false less 20) ≠ .nan := by
  obtain ⟨exact, rounds⟩ := Binary64.rounds_twentieths few
  obtain ⟨negative, magnitude, finite, -⟩ := rounds.is.exists_finite
  -- A difference is a sum with the negative, and sums with a finite value keep the order.
  rw [finite]
  exact ⟨Binary64.place_add_le (!negative) magnitude number other le,
    Binary64.add_ne_nan (!negative) magnitude other⟩

/-- More dice and more kinds of faces have no lower raw score. -/
theorem place_rawOf_le {more others many sorts less : Nat} (dice : more ≤ many)
    (kinds : others ≤ sorts) (few : less ≤ 40) :
    (rawOf more others (ofRatio false less 20)).place ≤
        (rawOf many sorts (ofRatio false less 20)).place ∧
      rawOf many sorts (ofRatio false less 20) ≠ .nan := by
  -- Neither the weight nor the bonus is zero, so products and sums keep the order.
  have weighted := inTwentieths.weight
  have tenths := inTwentieths.bonus
  have some := inTwentieths.weighs
  have further := inTwentieths.counts
  rw [weighted] at some
  rw [tenths] at further
  obtain ⟨half, weight, nonzero⟩ := Binary64.exists_finite_twentieths (by decide) some
  obtain ⟨tenth, bonus, otherNonzero⟩ := Binary64.exists_finite_twentieths (by decide) further
  rw [← weighted] at weight
  rw [← tenths] at bonus
  have natural := Binary64.nonnegative_ofInt
  unfold rawOf
  rw [weight, bonus]
  have weightLe := Binary64.place_mul_le (natural more).ne_nan (natural many).ne_nan nonzero
    (Binary64.place_ofInt_le (Int.ofNat_le.mpr dice))
  have bonusLe := Binary64.place_mul_le (natural others).ne_nan (natural sorts).ne_nan otherNonzero
    (Binary64.place_ofInt_le (Int.ofNat_le.mpr kinds))
  have weights (number : Nat) := (natural number).mul nonzero
  have bonuses (number : Nat) := (natural number).mul otherNonzero
  exact place_sub_twentieths_le ((weights more).add (bonuses others)).ne_nan
    ((weights many).add (bonuses sorts)).ne_nan
    ((weights more).place_add_le (weights many) (bonuses others) (bonuses sorts) weightLe bonusLe) few

/-- Many dice have the highest score, whatever is taken away. -/
theorem held_of_many {more others less : Nat} (many : 5 ≤ more) (taken : less ∈ [0, 3, 6]) :
    held (rawOf more others (ofRatio false less 20)) = ofRatio false 40 20 := by
  -- Six dice of one kind reach the highest score already.
  have least : ∀ less ∈ [0, 3, 6],
      less ≤ 40 ∧ highest.place ≤ (rawOf 5 0 (ofRatio false less 20)).place := by
    decide +kernel
  obtain ⟨few, base⟩ := least less taken
  obtain ⟨above, number⟩ := place_rawOf_le many (Nat.zero_le others) few
  have ends : (zero false).lt highest = true := by
    rw [inTwentieths.nothing, inTwentieths.highest, Binary64.twentieths_lt_iff (by decide) le_rfl]
    decide
  have top : highest ≠ .nan := Binary64.ofInt_ne_nan 2
  rw [held, Binary64.clamp_of_le ends number top (base.trans above)]
  decide +kernel

/-- The scores of few dice, all of which can be tried. -/
theorem held_of_few : ∀ more < 5, ∀ others < more + 1, ∀ less ∈ [0, 3, 6],
    held (rawOf more others (ofRatio false less 20)) =
      ofRatio false (min 40 (10 * more + 2 * others - less)) 20 := by
  decide +kernel

/-- A score is the number of twentieths of the exact fraction, rounded once. -/
theorem score_eq_points (ok : Shape.score formula = .ok score) :
    score = ofRatio false (points formula) 20 := by
  rcases Nat.lt_or_ge 1 formula.diceCount with several | single
  · rw [score_of_several several ok]
    have kinds := kinds_le_diceCount formula
    rcases Nat.lt_or_ge 5 formula.diceCount with many | few
    · obtain ⟨less, member, taken⟩ := exists_penalty
        (ofRatio false (faceTotal formula) formula.diceCount)
      -- With so many dice the deduction no longer brings the score below its upper bound.
      have full : points formula = 40 := by
        have taken := deduction_mem formula.diceCount (faceTotal formula)
        simp only [List.mem_cons, List.not_mem_nil, or_false] at taken
        unfold points
        omega
      rw [taken, held_of_many (by omega) member, full]
    · rw [penalty_of_few (by omega) few]
      exact held_of_few _ (by omega) _ (by omega) _ (deduction_mem _ _)
  · rw [points_eq_zero.mpr single]
    rw [Shape.score, if_pos single] at ok
    rw [← Except.ok.inj ok]
    exact inTwentieths.nothing

/-- A number of twentieths has the shape of the part that it lies in. -/
theorem classify_twentieths {points : Nat} (few : points ≤ 40) :
    classify (.real (ofRatio false points 20)) =
      if 24 < points then .bell else if 8 < points then .somewhatBell else .flat := by
  -- Twentieths compare as the whole numbers that count them.
  have above (bound : Nat) (small : bound ≤ 40) :
      (Number.real (ofRatio false bound 20)).lt (.real (ofRatio false points 20)) = true ↔
        bound < points := by
    rw [Number.lt_real, Binary64.twentieths_lt_iff small few]
  simp only [classify, inTwentieths.bell, inTwentieths.somewhatBell, above 24 (by decide), above 8 (by decide)]

/--
A score is the binary64 value nearest to the exact peak of the formula, and the peak tells the shape:
a bell above six fifths, somewhat of a bell above two fifths, and flat otherwise.

Sums, differences and the comparison of the mean with its thresholds are all rounded, yet none of it
shows in the score. A formula scores zero exactly when it has at most one die.
-/
theorem score_nearest (ok : Shape.score formula = .ok score) :
    score.IsNearest (peak formula) ∧
      (formula.diceCount ≤ 1 → score = zero false) ∧
      (classify (.real score) =
        if 6 / 5 < peak formula then .bell
        else if 2 / 5 < peak formula then .somewhatBell else .flat) ∧
      (score.Is 0 ↔ formula.diceCount ≤ 1) := by
  have few := points_le formula
  rw [score_eq_points ok, peak_eq_points, ← points_eq_zero]
  have above (bound : Nat) : ((bound / 20 : ℚ) < points formula / 20) ↔ bound < points formula := by
    rw [div_lt_div_iff_of_pos_right (by norm_num), Nat.cast_lt]
  have bell : ((6 / 5 : ℚ) < points formula / 20) ↔ 24 < points formula := by
    rw [← above]
    norm_num
  have somewhat : ((2 / 5 : ℚ) < points formula / 20) ↔ 8 < points formula := by
    rw [← above]
    norm_num
  refine ⟨Binary64.isNearest_twentieths few, ?_, ?_, ?_⟩
  · intro none
    rw [none]
    exact inTwentieths.nothing.symm
  · simp only [classify_twentieths few, bell, somewhat]
  · obtain ⟨number, rounds⟩ := Binary64.rounds_twentieths few
    constructor
    · intro is
      -- Rounding takes no number to zero but zero.
      have half := rounds.half_le
      rw [is.unique rounds.is |>.symm, Binary64.abs_twentieths, abs_zero] at half
      have none : (points formula : ℚ) ≤ 0 := by linarith
      exact Nat.le_zero.mp (by exact_mod_cast none)
    · intro none
      have is : (zero false).Is 0 := Binary64.zero_is false
      rwa [none, ← inTwentieths.nothing]

/-- Three dice of three kinds stand exactly at the bound of a bell, and are none. -/
theorem score_nearest_three_kinds :
    let formula : Formula :=
      ⟨[⟨.plus, 1, .numeric 4 (by decide), by decide⟩,
        ⟨.minus, 1, .numeric 6 (by decide), by decide⟩,
        ⟨.plus, 1, .numeric 8 (by decide), by decide⟩], 2⟩
    ∃ score, Shape.score formula = .ok score ∧ peak formula = 6 / 5 ∧ score.IsNearest (6 / 5) ∧
      classify (.real score) = .somewhatBell ∧ ¬score.Is 0 := by
  intro formula
  have counts : formula.diceCount = 3 ∧ faceTotal formula = 18 := by decide
  have limit := Binary64.thousand_lt_reach
  obtain ⟨score, ok⟩ : ∃ score, Shape.score formula = .ok score :=
    exists_score_eq_ok.mpr fun _ => by
      rw [counts.1, counts.2]
      omega
  have exact : peak formula = 6 / 5 := by
    have twentieths : points formula = 24 := by decide
    rw [peak_eq_points, twentieths]
    norm_num
  obtain ⟨nearest, -, shape, zero⟩ := score_nearest ok
  rw [exact] at nearest shape
  refine ⟨score, ok, exact, nearest, ?_, ?_⟩
  · rw [shape]
    norm_num
  · rw [zero]
    decide

end Shape

end DiceLab
