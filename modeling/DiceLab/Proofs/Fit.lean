import DiceLab.Fit
import DiceLab.Proofs.Binary64.Monotone
import DiceLab.Proofs.Report

/-! The score of a range measures how far its ends are from those of the target: from 100 on a match
down to 0 from a whole width on, and never more for a larger deviation. -/

namespace DiceLab

/-- A whole number below the bound is a finite value. -/
theorem Binary64.exists_finite_ofInt {value : Nat} (below : value < reach) :
    ∃ magnitude, ofInt value = .finite false magnitude := by
  -- A whole number is rounded as the quotient by one.
  have bound : value < reach * 1 := by rwa [Nat.mul_one]
  rcases ofRatio_cases false value Nat.one_pos with ⟨-, magnitude, finite⟩ | ⟨beyond, -⟩
  · refine ⟨magnitude, ?_⟩
    have above : ¬(value : Int) < 0 := by omega
    simpa [ofInt, above] using finite
  · exact absurd bound beyond

/-- A quotient of a whole number that is no less than zero by a positive one is rounded when it lies
below the bound, and fails otherwise. -/
theorem wholeQuotient_eq_ok {numerator : Nat} {denominator : Int} (positive : 0 < denominator)
    {share : Binary64} :
    wholeQuotient numerator denominator = .ok share ↔
      numerator < Binary64.reach * denominator.natAbs ∧
        share = Binary64.ofRatio false numerator denominator.natAbs := by
  -- Neither number has a minus, so the quotient has none.
  have sign : (decide ((numerator : Int) < 0) != decide (denominator < 0)) = false := by
    have above : ¬(numerator : Int) < 0 := by omega
    have otherAbove : ¬denominator < 0 := by omega
    simp [above, otherAbove]
  simp only [wholeQuotient, sign, Int.natAbs_natCast]
  rcases Binary64.ofRatio_cases false numerator (Int.natAbs_pos.mpr positive.ne') with
    ⟨below, magnitude, finite⟩ | ⟨beyond, infinite⟩
  · rw [finite]
    simp [below, Binary64.finiteOr, eq_comm]
  · rw [infinite]
    simp [beyond, Binary64.finiteOr]

namespace Fit

variable {stats other : Stats} {target : Target} {score : Binary64}

/-- The width of a target is at least one. -/
theorem width_pos (target : Target) : 0 < width target := by
  unfold width
  omega

/-- A range deviates from a target unless it is the target. -/
theorem deviation_eq_zero :
    deviation stats target = 0 ↔ stats.min = target.min ∧ stats.max = target.max := by
  unfold deviation
  omega

/-- The score that is left when the ends are off by some share of the width. -/
def scoreOf (share : Binary64) : Binary64 :=
  Binary64.clamp (Binary64.zero false) best (((Binary64.ofInt 1).sub share).mul best)

/-- A range is scored by the share of the width that it deviates, when that share is finite. -/
theorem score_eq_ok :
    Fit.score stats target = .ok score ↔
      deviation stats target < Binary64.reach * (width target).natAbs ∧
        score = scoreOf (.ofRatio false (deviation stats target) (width target).natAbs) := by
  -- Only the share itself can be too large; the steps behind it give infinities, not failures.
  simp only [Fit.score, bind_eq_ok, wholeQuotient_eq_ok (width_pos target)]
  constructor
  · rintro ⟨share, ⟨below, known⟩, made⟩
    rw [← known]
    exact ⟨below, (Except.ok.inj made).symm⟩
  · rintro ⟨below, known⟩
    exact ⟨_, ⟨below, rfl⟩, congrArg Except.ok known.symm⟩

/-- The numbers that a score is computed with are finite, and the best score is not zero. -/
theorem exists_finite_best : ∃ one hundred, Binary64.ofInt 1 = .finite false one ∧
    best = .finite false hundred ∧ hundred.isZero = false := by
  obtain ⟨one, oneIs⟩ := Binary64.exists_finite_ofInt (Binary64.lt_reach_of_short (show 1 ≤ _ by decide))
  obtain ⟨hundred, hundredIs⟩ :=
    Binary64.exists_finite_ofInt (Binary64.lt_reach_of_short (show 100 ≤ _ by decide))
  have bestIs : best = .finite false hundred := hundredIs
  -- That a hundred is not zero is a computation.
  have nonzero : best.isZero = false := by decide +kernel
  rw [bestIs] at nonzero
  exact ⟨one, hundred, oneIs, bestIs, nonzero⟩

variable {share more : Binary64}

/-- What a share leaves is a number before it is held within the bounds. -/
theorem closeness_ne_nan (number : share ≠ .nan) :
    ((Binary64.ofInt 1).sub share).mul best ≠ .nan := by
  obtain ⟨one, hundred, oneIs, bestIs, nonzero⟩ := exists_finite_best
  rw [oneIs, bestIs]
  exact Binary64.mul_ne_nan (Binary64.sub_ne_nan false one number) nonzero

/-- The best score is a number. -/
theorem best_ne_nan : best ≠ .nan := by
  obtain ⟨-, hundred, -, bestIs, -⟩ := exists_finite_best
  simp [bestIs]

/-- A larger share of the width leaves no higher score. -/
theorem place_scoreOf_le (number : share ≠ .nan) (other : more ≠ .nan)
    (le : share.place ≤ more.place) : (scoreOf more).place ≤ (scoreOf share).place := by
  -- A score is computed in three rounded steps, each of which keeps the order of its results.
  obtain ⟨one, hundred, oneIs, bestIs, nonzero⟩ := exists_finite_best
  have left := Binary64.place_sub_le false one number other le
  have scaled := Binary64.place_mul_le (Binary64.sub_ne_nan false one other)
    (Binary64.sub_ne_nan false one number) nonzero left
  rw [← oneIs, ← bestIs] at scaled
  exact Binary64.place_clamp_le Binary64.nonnegative_zero.ne_nan best_ne_nan
    (closeness_ne_nan other) (closeness_ne_nan number) scaled

/-- A score lies between nothing and the best one. -/
theorem place_scoreOf_between (number : share ≠ .nan) :
    (Binary64.zero false).place ≤ (scoreOf share).place ∧ (scoreOf share).place ≤ best.place := by
  have ends : (Binary64.zero false).place ≤ best.place := by decide +kernel
  exact Binary64.place_clamp_between Binary64.nonnegative_zero.ne_nan best_ne_nan
    (closeness_ne_nan number) ends

/-- Scores carry no minus. -/
theorem scoreOf_nonnegative (share : Binary64) : (scoreOf share).Nonnegative :=
  Binary64.nonnegative_zero.clamp _ _

/-- Shares of the width are numbers. -/
theorem ofRatio_ne_nan (numerator denominator : Nat) :
    Binary64.ofRatio false numerator denominator ≠ .nan :=
  Binary64.ofUnits_ne_nan _ _ _

section

variable {part whole : Nat} (positive : 0 < whole)

include positive

/-- A deviation that is no larger a part of the width is scored no lower than that part. -/
theorem scoreOf_le (ok : Fit.score stats target = .ok score)
    (closer : deviation stats target * whole ≤ part * (width target).natAbs) :
    (scoreOf (.ofRatio false part whole)).place ≤ score.place := by
  rw [(score_eq_ok.mp ok).2]
  apply place_scoreOf_le (ofRatio_ne_nan _ _) (ofRatio_ne_nan _ _)
  exact Binary64.place_ofRatio_le (Int.natAbs_pos.mpr (width_pos target).ne') positive closer

/-- A deviation that is no smaller a part of the width is scored no higher than that part. -/
theorem le_scoreOf (ok : Fit.score stats target = .ok score)
    (farther : part * (width target).natAbs ≤ deviation stats target * whole) :
    score.place ≤ (scoreOf (.ofRatio false part whole)).place := by
  rw [(score_eq_ok.mp ok).2]
  apply place_scoreOf_le (ofRatio_ne_nan _ _) (ofRatio_ne_nan _ _)
  exact Binary64.place_ofRatio_le positive (Int.natAbs_pos.mpr (width_pos target).ne') farther

end

/-- A range that deviates less from a target is scored when one that deviates more is, and its score
is no lower. -/
theorem exists_score_le (closer : deviation other target ≤ deviation stats target)
    (ok : Fit.score stats target = .ok score) :
    ∃ better, Fit.score other target = .ok better ∧ score.le better = true := by
  have width := Int.natAbs_pos.mpr (width_pos target).ne'
  obtain ⟨below, known⟩ := score_eq_ok.mp ok
  -- The smaller deviation is a smaller share, so it is finite when the larger one is.
  refine ⟨_, score_eq_ok.mpr ⟨Nat.lt_of_le_of_lt closer below, rfl⟩, ?_⟩
  rw [known, Binary64.le_iff_place (scoreOf_nonnegative _).ne_nan (scoreOf_nonnegative _).ne_nan]
  apply place_scoreOf_le (ofRatio_ne_nan _ _) (ofRatio_ne_nan _ _)
  exact Binary64.place_ofRatio_le width width (Nat.mul_le_mul_right _ closer)

/-- The best score is a hundred. -/
theorem best_is : best.Is 100 := by
  have placed : best.position? = some (.at (100 * Binary64.scale : Nat)) := by decide +kernel
  exact ⟨_, placed, by rw [Int.cast_natCast, Nat.cast_mul, Nat.cast_ofNat]⟩

/-- Nothing taken from the width leaves the best score. -/
theorem scoreOf_nothing : scoreOf (.ofRatio false 0 1) = best := by decide +kernel

/-- The best score carries no minus. -/
theorem best_nonnegative : best.Nonnegative := by
  rw [← scoreOf_nothing]
  exact scoreOf_nonnegative _

/-- The whole width taken leaves no score. -/
theorem scoreOf_whole : scoreOf (.ofRatio false 1 1) = .zero false := by decide +kernel

/-- A score has its place between nothing and the best one. -/
theorem place_score_between (ok : Fit.score stats target = .ok score) :
    (Binary64.zero false).place ≤ score.place ∧ score.place ≤ best.place := by
  rw [(score_eq_ok.mp ok).2]
  exact place_scoreOf_between (ofRatio_ne_nan _ _)

/-- A score carries no minus. -/
theorem score_nonnegative (ok : Fit.score stats target = .ok score) : score.Nonnegative := by
  rw [(score_eq_ok.mp ok).2]
  exact scoreOf_nonnegative _

/-- The target itself has the best score. -/
theorem score_of_match (least : stats.min = target.min) (most : stats.max = target.max) :
    Fit.score stats target = .ok best := by
  have exactly := deviation_eq_zero.mpr ⟨least, most⟩
  have bounded : 0 < Binary64.reach := Binary64.lt_reach_of_short (Nat.zero_le _)
  have below : deviation stats target < Binary64.reach * (width target).natAbs := by
    rw [exactly]
    exact Nat.mul_pos bounded (Int.natAbs_pos.mpr (width_pos target).ne')
  have ok := score_eq_ok.mpr ⟨below, rfl⟩
  -- It is scored no lower than nothing taken, and no score is higher than that.
  have most := scoreOf_le Nat.one_pos ok (by rw [exactly, Nat.zero_mul, Nat.zero_mul])
  rw [scoreOf_nothing] at most
  have full := (score_nonnegative ok).place_injective best_nonnegative
    (le_antisymm (place_score_between ok).2 most)
  rw [ok, full]

/-- A range that is off by the width of the target or more has no score. -/
theorem score_of_far (ok : Fit.score stats target = .ok score)
    (far : width target ≤ deviation stats target) : score = .zero false := by
  -- It is scored no higher than the whole width taken, and no score is lower than that.
  have positive := width_pos target
  have whole : 1 * (width target).natAbs ≤ deviation stats target * 1 := by omega
  have least := le_scoreOf Nat.one_pos ok whole
  rw [scoreOf_whole] at least
  exact (score_nonnegative ok).place_injective Binary64.nonnegative_zero
    (le_antisymm least (place_score_between ok).1)

/-- A score measures how far the ends of a range are from those of the target. -/
structure Measures (stats : Stats) (target : Target) (score : Binary64) : Prop where
  /-- A score is a number from 0 to 100. -/
  between : ∃ number : ℚ, score.Is number ∧ 0 ≤ number ∧ number ≤ 100
  /-- The target itself has the best score. -/
  full : stats.min = target.min ∧ stats.max = target.max → score = best
  /-- A range that is off by the width or more has none. -/
  empty : width target ≤ deviation stats target → score = .zero false
  /-- A target of one total is met or missed. -/
  single : target.min = target.max →
    score = if stats.min = target.min ∧ stats.max = target.max then best else .zero false
  /-- No range that deviates as much or more has a higher score. -/
  antitone : ∀ {farther : Stats} {lower : Binary64}, Fit.score farther target = .ok lower →
    deviation stats target ≤ deviation farther target → lower.le score = true

/-- Scores measure the deviation, whatever the ranges are and whatever is rounded. -/
theorem score_measures (ok : Fit.score stats target = .ok score) :
    Measures stats target score where
  between := by
    have ends := place_score_between ok
    exact (Binary64.zero_is false).exists_between best_is ends.1 ends.2
  full := by
    rintro ⟨least, most⟩
    exact Except.ok.inj (ok.symm.trans (score_of_match least most))
  empty := score_of_far ok
  single := by
    intro point
    split
    · rename_i same
      exact Except.ok.inj (ok.symm.trans (score_of_match same.1 same.2))
    · rename_i apart
      -- The width of a single total counts as one, and what is not the target is off by one.
      rw [← deviation_eq_zero] at apart
      apply score_of_far ok
      rw [width]
      omega
  antitone := by
    intro farther lower lowerOk closer
    obtain ⟨better, betterOk, le⟩ := exists_score_le closer lowerOk
    rwa [Except.ok.inj (ok.symm.trans betterOk)]

/-- A range that begins one total late and ends two late, seen from a target five wide. -/
theorem score_measures_six :
    Fit.score ⟨-1, 5, .ofInt 2⟩ ⟨-2, 3⟩ = .ok (.ofInt 40) ∧
      Measures ⟨-1, 5, .ofInt 2⟩ ⟨-2, 3⟩ (.ofInt 40) := by
  have ok : Fit.score ⟨-1, 5, .ofInt 2⟩ ⟨-2, 3⟩ = .ok (.ofInt 40) := by decide +kernel
  exact ⟨ok, score_measures ok⟩

end Fit

end DiceLab
