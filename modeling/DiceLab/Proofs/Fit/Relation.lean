import DiceLab.Proofs.Fit

/-! What a relation says about a range and its target: the relations are tried one after the other,
and one of the tests is made on a rounded score. -/

namespace DiceLab

namespace Fit

variable {stats : Stats} {target : Target} {score : Binary64}

/-- The ends of a range are those of the target. -/
def Matches (stats : Stats) (target : Target) : Prop :=
  stats.min = target.min ∧ stats.max = target.max

/-- The two ranges have a total in common. -/
def Overlaps (stats : Stats) (target : Target) : Prop :=
  target.min ≤ stats.max ∧ stats.min ≤ target.max

/-- What the tests before a relation and its own test leave of a range and its target, given whether
the score counts as close. -/
def Describes (stats : Stats) (target : Target) (near : Prop) : Fit → Prop
  | .perfect => Matches stats target
  | .close => ¬Matches stats target ∧ near
  | .contained =>
    ¬Matches stats target ∧ ¬near ∧ target.min ≤ stats.min ∧ stats.max ≤ target.max
  | .wider => ¬Matches stats target ∧ ¬near ∧ stats.min ≤ target.min ∧ target.max ≤ stats.max
  | .exceedsLow =>
    ¬Matches stats target ∧ ¬near ∧ stats.min < target.min ∧ target.min ≤ stats.max ∧
      stats.max < target.max
  | .exceedsHigh =>
    ¬Matches stats target ∧ ¬near ∧ target.min < stats.min ∧ stats.min ≤ target.max ∧
      target.max < stats.max
  | .noOverlap => ¬Matches stats target ∧ ¬near ∧ ¬Overlaps stats target

/-- Each test is made where those before it have failed, and the last relation is left to ranges
that lie apart. -/
theorem classify_describes (score : Number) :
    Describes stats target (closeScore.le score = true) (classify stats target score) := by
  unfold classify
  -- The cases are the tests in the order in which they are made.
  split
  · rename_i same
    exact same
  rename_i apart
  split
  · rename_i near
    exact ⟨apart, near⟩
  -- What is left are comparisons of ends.
  rename_i far
  split
  · rename_i inside
    exact ⟨apart, far, inside⟩
  split
  · rename_i outside
    exact ⟨apart, far, outside⟩
  split
  · exact ⟨apart, far, by omega⟩
  split
  · exact ⟨apart, far, by omega⟩
  · refine ⟨apart, far, ?_⟩
    unfold Overlaps
    omega

/-- The score that counts as close compares with others as its binary64 value does. -/
theorem closeScore_le : closeScore.le (.real score) = (Binary64.ofInt 90).le score := by
  have same : closeScore.position? = (Number.real (.ofInt 90)).position? := by decide +kernel
  rw [Number.le_congr same, Number.le_real]

/-- A score counts as close from the place of ninety on. -/
theorem closeScore_le_iff (ok : Fit.score stats target = .ok score) :
    closeScore.le (.real score) = true ↔ (Binary64.ofInt 90).place ≤ score.place := by
  have number : Binary64.ofInt 90 ≠ .nan := ofRatio_ne_nan 90 1
  rw [closeScore_le, Binary64.le_iff_place number (score_nonnegative ok).ne_nan]

/-- A range off by the width or more does not count as close. -/
theorem not_close_of_far (ok : Fit.score stats target = .ok score)
    (far : width target ≤ deviation stats target) : ¬closeScore.le (.real score) = true := by
  rw [closeScore_le_iff ok, score_of_far ok far]
  decide +kernel

/-- A range that counts as close overlaps its target, for what lies apart is off by the width. -/
theorem overlaps_of_close (range : stats.min ≤ stats.max) (ends : target.min ≤ target.max)
    (ok : Fit.score stats target = .ok score) (near : closeScore.le (.real score) = true) :
    Overlaps stats target := by
  -- Apart, one end is off by the gap and the other by the gap and the whole width.
  by_contra apart
  apply not_close_of_far ok _ near
  unfold Overlaps at apart
  unfold width deviation
  omega

/-- A width up to which rounding leaves the tenth that is allowed where it is. -/
def exactWidth : Int := tenTo 12

/-- A tenth of the width taken leaves ninety. -/
theorem scoreOf_tenth : scoreOf (.ofRatio false 1 10) = .ofInt 90 := by decide +kernel

/-- A tenth and one part in `10 ^ 13` leave less. -/
theorem scoreOf_beyond_tenth :
    (scoreOf (.ofRatio false (tenTo 12 + 1) (tenTo 13))).place < (Binary64.ofInt 90).place := by
  decide +kernel

/-- Totals that are more than a tenth of a width are more by a tenth of a total at least, which is one
part in `10 ^ 13` of a width up to the exact one. -/
theorem beyond_tenth {totals wide : Nat} (few : wide ≤ tenTo 12) (beyond : wide < totals * 10) :
    (tenTo 12 + 1) * wide ≤ totals * tenTo 13 := by
  have ten : tenTo 13 = 10 * tenTo 12 := tenTo_add 1 12
  -- The gap of one outweighs the part, because the width is no more than the exact one.
  calc
    (tenTo 12 + 1) * wide = wide * tenTo 12 + wide := by ring
    _ ≤ wide * tenTo 12 + tenTo 12 := Nat.add_le_add_left few _
    _ = (wide + 1) * tenTo 12 := by ring
    _ ≤ totals * 10 * tenTo 12 := Nat.mul_le_mul_right _ beyond
    _ = totals * tenTo 13 := by rw [ten, Nat.mul_assoc]

/-- Up to that width a range counts as close just when it is off by a tenth of the width at most. -/
theorem closeScore_le_iff_tenth (ok : Fit.score stats target = .ok score)
    (exact : target.max - target.min ≤ exactWidth) :
    closeScore.le (.real score) = true ↔ 10 * (deviation stats target : Int) ≤ width target := by
  have positive := width_pos target
  have bounded : width target ≤ (tenTo 12 : Nat) := by
    have one : (1 : Int) ≤ (tenTo 12 : Nat) := by decide
    unfold width
    exact max_le exact one
  rw [closeScore_le_iff ok]
  constructor
  · intro near
    by_contra beyond
    -- The next possible deviation exceeds a tenth by more than the rounding can hide.
    have part : (tenTo 12 + 1) * (width target).natAbs ≤ deviation stats target * tenTo 13 :=
      beyond_tenth (by omega) (by omega)
    have least := le_scoreOf (tenTo_pos 13) ok part
    exact absurd (near.trans least) (not_le.mpr scoreOf_beyond_tenth)
  · -- A tenth itself is scored with ninety, and a smaller part with no less.
    intro within
    have tenth : deviation stats target * 10 ≤ 1 * (width target).natAbs := by omega
    have most := scoreOf_le (by decide) ok tenth
    rwa [scoreOf_tenth] at most

/-- What each relation tells about a range and its target. -/
structure Tells (stats : Stats) (target : Target) (fit : Fit) : Prop where
  perfect : fit = .perfect ↔ Matches stats target
  noOverlap : fit = .noOverlap ↔ stats.max < target.min ∨ target.max < stats.min
  contained : fit = .contained → target.min ≤ stats.min ∧ stats.max ≤ target.max
  wider : fit = .wider → stats.min ≤ target.min ∧ target.max ≤ stats.max
  exceedsLow : fit = .exceedsLow →
    stats.min < target.min ∧ target.min ≤ stats.max ∧ stats.max < target.max
  exceedsHigh : fit = .exceedsHigh →
    target.min < stats.min ∧ stats.min ≤ target.max ∧ target.max < stats.max
  /-- Close ranges overlap, and are not the same. -/
  close : fit = .close → Overlaps stats target ∧ ¬Matches stats target
  /-- They are off by a tenth of the width at most, exactly so unless the target is huge. -/
  tenth : target.max - target.min ≤ exactWidth →
    (fit = .close ↔ ¬Matches stats target ∧ 10 * (deviation stats target : Int) ≤ width target)

variable {near : Prop} {fit : Fit}

/-- A relation means what it describes, when only ranges that overlap their target count as
close. -/
theorem Describes.tells (range : stats.min ≤ stats.max) (ends : target.min ≤ target.max)
    (describes : Describes stats target near fit) (overlaps : near → Overlaps stats target)
    (tenth : target.max - target.min ≤ exactWidth →
      (near ↔ 10 * (deviation stats target : Int) ≤ width target)) : Tells stats target fit where
  perfect := by
    constructor
    · rintro rfl
      exact describes
    · -- Every other relation has ruled the target itself out.
      intro same
      cases fit with
      | perfect => rfl
      | close | contained | wider | exceedsLow | exceedsHigh | noOverlap =>
        exact absurd same describes.1
  noOverlap := by
    constructor
    · rintro rfl
      have apart : ¬Overlaps stats target := describes.2.2
      unfold Overlaps at apart
      omega
    · intro apart
      have disjoint : ¬Overlaps stats target := by
        unfold Overlaps
        omega
      -- Every other relation holds only of ranges that have a total in common.
      cases fit with
      | perfect =>
        have same : Matches stats target := describes
        unfold Matches at same
        omega
      | close => exact absurd (overlaps describes.2) disjoint
      | contained | wider | exceedsLow | exceedsHigh =>
        have inside := describes.2.2
        omega
      | noOverlap => rfl
  contained := by
    rintro rfl
    exact describes.2.2
  wider := by
    rintro rfl
    exact describes.2.2
  exceedsLow := by
    rintro rfl
    exact describes.2.2
  exceedsHigh := by
    rintro rfl
    exact describes.2.2
  close := by
    rintro rfl
    exact ⟨overlaps describes.2, describes.1⟩
  tenth := by
    intro exact
    rw [← tenth exact]
    constructor
    · rintro rfl
      exact describes
    · rintro ⟨apart, close⟩
      cases fit with
      | perfect => exact absurd describes apart
      | close => rfl
      | contained | wider | exceedsLow | exceedsHigh | noOverlap => exact absurd close describes.2.1

/-- A relation found with the score of a range means what it says. -/
theorem classify_tells (range : stats.min ≤ stats.max) (ends : target.min ≤ target.max)
    (ok : Fit.score stats target = .ok score) :
    Tells stats target (classify stats target (.real score)) :=
  (classify_describes (.real score)).tells range ends (overlaps_of_close range ends ok)
    (closeScore_le_iff_tenth ok)

/-- A range that is off by just a tenth of the width is close. -/
theorem classify_tells_eleven :
    Fit.score ⟨2, 11, .ofInt 7⟩ ⟨1, 11⟩ = .ok (.ofInt 90) ∧
      classify ⟨2, 11, .ofInt 7⟩ ⟨1, 11⟩ (.real (.ofInt 90)) = .close ∧
      Tells ⟨2, 11, .ofInt 7⟩ ⟨1, 11⟩ .close := by
  have ok : Fit.score ⟨2, 11, .ofInt 7⟩ ⟨1, 11⟩ = .ok (.ofInt 90) := by decide +kernel
  have fit : classify ⟨2, 11, .ofInt 7⟩ ⟨1, 11⟩ (.real (.ofInt 90)) = .close := by decide +kernel
  have tells := classify_tells (by decide) (by decide) ok
  rw [fit] at tells
  exact ⟨ok, fit, tells⟩

end Fit

end DiceLab
